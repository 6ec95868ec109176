/-
Decisions: what to do with one path expression. At most one replacement, and
always the reason.
-/
import ComponentPaths.Category
import ComponentPaths.Decision.Call
import ComponentPaths.Decision.Relative
import ComponentPaths.PathExpression.Basic

namespace ComponentPaths

/-- The kinds of replacement. -/
inductive Action where
  /-- None. -/
  | keep
  /-- A path relative to the directory of the file. -/
  | relativeDirectory
  /-- A call with a component id. -/
  | componentId
  /-- A call with a component id that is put together when the code runs. -/
  | dynamicComponentId
  /-- A call with a path below the root that is known when the code runs. -/
  | rootRelative
  /-- A call for a path in the core. -/
  | corePath
  deriving DecidableEq, Repr

/-- The name of an action. -/
def Action.name : Action → Text
  | .keep => "Keep"
  | .relativeDirectory => "RelativeDirectory"
  | .componentId => "ComponentId"
  | .dynamicComponentId => "DynamicComponentId"
  | .rootRelative => "RootRelative"
  | .corePath => "CorePath"

/-- Whether the replacement is a call, which constant expressions cannot hold. -/
def Action.isCall : Action → Bool
  | .componentId | .dynamicComponentId | .rootRelative | .corePath => true
  | .keep | .relativeDirectory => false

/-- What to do with a path expression. -/
structure Decision where
  action : Action
  replacement : Option Text
  explanation : Text
  worthInvestigating : Bool
  deriving DecidableEq, Repr

/-- What a decision depends on. -/
structure Situation where
  symbolic : Text
  flags : PathFlags
  category : Option Category
  /-- The owner of the path, when it can be determined. -/
  target : Option Owner
  /-- The component of the file that holds the expression. -/
  source : Component
  /-- That file, below the root. -/
  file : Text
  api : Text

namespace Decision

/-- No replacement. -/
def keep (explanation : Text) (worthInvestigating : Bool) : Decision :=
  ⟨.keep, none, explanation, worthInvestigating⟩

/-- A replacement. -/
def replaceBy (action : Action) (code explanation : Text) : Decision :=
  ⟨action, some code, explanation, false⟩

/-- A path relative to the directory of the file, if it can be written. -/
def relative (file : Text) (target : List Text) (explanation otherwise : Text) : Decision :=
  match Relative.expression? (Relative.path (Relative.dirSegments file) target) with
  | some code => replaceBy .relativeDirectory code explanation
  | none => keep otherwise true

/-- The path below the root of a target in the core. -/
def coreSuffix (target : Owner) : Text :=
  match target.component with
  | .coreLibrary =>
    if target.relativePath.isEmpty then "lib" else "lib/" ++ target.relativePath
  | _ => target.relativePath

/-- The configuration file in the root. Only plugins may be moved, so only
they get a relative path to it. -/
def forConfig (s : Situation) : Decision :=
  if s.source.isCore then keep "config inclusion from core" false
  else
    relative s.file ["config.php"] "config inclusion from a plugin"
      "config path cannot be rendered"

/-- A path that is one unknown value below the root. -/
def forRelativePath (s : Situation) : Decision :=
  let inner := ((Symbolic.stripRoot? s.symbolic).bind Symbolic.singlePlaceholder?).getD []
  replaceBy .rootRelative (Call.rootRelative s.api inner) "whole root-relative path is dynamic"

/-- A path inside the plugin that the file belongs to. -/
def withinPlugin (s : Situation) : Decision :=
  match Symbolic.stripRoot? s.symbolic with
  | none => keep "unanchored path" true
  | some rest =>
    relative s.file (Symbolic.properSegments rest) "reference within the same plugin"
      "relative path cannot be rendered"

/-- A path with a known owner. -/
def forTarget (s : Situation) (target : Owner) : Except Fault Decision :=
  if target.component.hasDynamicName then
    (Call.componentPath s.api target.component target.relativePath).map fun code =>
      replaceBy .dynamicComponentId code "dynamic plugin name"
  else if s.source = target.component ∧ s.source.isCore = false then .ok (withinPlugin s)
  else if s.source.isCore && target.component.isCore then
    .ok (keep "core to core reference" false)
  else if target.component.isSynthetic then
    (Call.corePath s.api (coreSuffix target)).map fun code =>
      replaceBy .corePath code "reference into core code outside any subsystem"
  else
    (Call.componentPath s.api target.component target.relativePath).map fun code =>
      replaceBy .componentId code ("reference into " ++ target.component.display)

/-- A path that has to be resolved through its owner. -/
def byTarget (s : Situation) : Except Fault Decision :=
  match s.target with
  | none => .ok (keep "component undeterminable" true)
  | some target => forTarget s target

/-- The decision before the surroundings of the expression are considered. -/
def byCategory (s : Situation) : Except Fault Decision :=
  match s.category.filter Category.needsManualReview with
  | some category => .ok (keep (category.name ++ " paths need manual review") true)
  | none =>
    if s.flags.rootConfigUsed = false then .ok (keep "does not read the codebase root" false)
    else
      match s.category with
      | some .dirRoot => .ok (keep "bare codebase root" true)
      | some .config => .ok (forConfig s)
      | some .fullRelativePath => .ok (forRelativePath s)
      | _ => byTarget s

/-- A decision in its surroundings: constant expressions take no call, and a
replacement where the configuration variable is not visible needs a look. -/
def inContext (flags : PathFlags) (d : Decision) : Decision :=
  if flags.inConstantContext && d.action.isCall then
    keep ("constant expression cannot hold a call (" ++ d.explanation ++ ")") true
  else if d.replacement.isSome && flags.rootConfigUsed && !flags.rootConfigInScope then
    { d with
      explanation := d.explanation ++ "; $CFG is not declared global here"
      worthInvestigating := true }
  else d

/-- What to do in a situation. -/
def decide (s : Situation) : Except Fault Decision :=
  (byCategory s).map (inContext s.flags)

end Decision

end ComponentPaths
