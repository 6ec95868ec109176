/-
Finding the component that owns a symbolic path.

The path is followed down the tree, segment by segment. On the way, the last
plugin root and the last subsystem root are remembered together with what was
left of the path there; they answer when the path leaves the tree. Where a
placeholder could stand for more than one thing, there is no answer rather
than a guess.
-/
import ComponentPaths.Symbolic.Basic
import ComponentPaths.Tree.Basic

namespace ComponentPaths

namespace PluginName

/-- Lower case letters. -/
def isLower (c : Char) : Bool :=
  'a' ≤ c && c ≤ 'z'

/-- Lower case letters and digits. -/
def isLowerOrDigit (c : Char) : Bool :=
  isLower c || c.isDigit

/-- Names of activity modules: a letter, then letters and digits. -/
def isModuleName : Text → Bool
  | [] => false
  | c :: cs => isLower c && cs.all isLowerOrDigit

/-- Names of other plugins: single underscores may stand inside as well. -/
def isPluginName : Text → Bool
  | [] => false
  | c :: cs =>
    isLower c && cs.all (fun d => isLowerOrDigit d || d == '_')
      && cs.getLastD c != '_' && !Text.hasPart "__" cs

/-- Whether a segment can be the name of a plugin of a type. One placeholder
can be any name. -/
def isValid (type segment : Text) : Bool :=
  (Symbolic.singlePlaceholder? segment).isSome
    || (if type = "mod" then isModuleName segment else isPluginName segment)

/-- Letters, digits and underscores. -/
def isWordChar (c : Char) : Bool :=
  c.isAlphanum || c == '_'

/-- The name of a variable that is a whole expression. -/
def variableName? : Text → Option Text
  | '$' :: c :: cs =>
    if (c.isAlpha || c == '_') && cs.all isWordChar then some (c :: cs) else none
  | _ => none

/-- Whether a segment is one variable whose name says that it holds a whole
path and not the name of a plugin. -/
def looksLikeFullPath (segment : Text) : Bool :=
  match (Symbolic.singlePlaceholder? segment).bind variableName? with
  | none => false
  | some name =>
    let lower := name.map Char.toLower
    Text.hasPart "file" lower || Text.hasPart "path" lower

end PluginName

namespace ComponentTree

/-- A component passed on the way down, and the segments that were left there. -/
abbrev Passed := Option (Component × List Text)

/-- The answer once the path has left the tree: the last plugin passed, else
the last subsystem, else the root. -/
def fallback (all : List Text) (plugin subsystem : Passed) : Owner :=
  match plugin.or subsystem with
  | some (component, rest) => ⟨component, Text.joinSlash rest⟩
  | none => ⟨.root, Text.joinSlash all⟩

/-- Whether a segment stands for one of several plugin types below a node. -/
def isAmbiguous (node : ComponentTree) (segment : Text) : Bool :=
  let ofPlugins :=
    match node.marker? with
    | some (.pluginRoot _ _) => true
    | some (.pluginTypeRoot _) => true
    | _ => false
  ofPlugins && (Symbolic.singlePlaceholder? segment).isSome && node.pluginTypeChildren > 1

/-- The answer where `segment` leads away from the tree: what was passed on the
way. Outside of plugins, a variable that holds a whole path decides nothing. -/
def strayed (segment : Text) (all : List Text) (plugin subsystem : Passed) : Option Owner :=
  if plugin.isNone && PluginName.looksLikeFullPath segment then none
  else some (fallback all plugin subsystem)

/-- The answer where `segment` has no node of its own below `node`, and `rest`
comes after it. -/
def diverge (node : ComponentTree) (segment : Text) (rest all : List Text)
    (plugin subsystem : Passed) : Option Owner :=
  if isAmbiguous node segment then none
  else
    match node.marker? with
    | some (.pluginRoot _ _) => some (fallback all plugin subsystem)
    | some (.pluginTypeRoot type) =>
      if PluginName.isValid type segment then
        if PluginName.looksLikeFullPath segment then none
        else some ⟨.plugin type segment, Text.joinSlash rest⟩
      else strayed segment all plugin subsystem
    | _ => strayed segment all plugin subsystem

/-- The answer for the segments left below `node`. -/
def resolveFrom (all : List Text) (node : ComponentTree) (plugin subsystem : Passed) :
    List Text → Option Owner
  | [] =>
    match node.marker? with
    | some (.pluginRoot type name) => some ⟨.plugin type name, []⟩
    | some (.subsystemRoot name) => some ⟨(name.map Component.subsystem).getD .coreLibrary, []⟩
    | _ => some (fallback all plugin subsystem)
  | segment :: rest =>
    match node.child? segment with
    | none => diverge node segment rest all plugin subsystem
    | some child =>
      match child.marker? with
      | some (.pluginRoot type name) =>
        resolveFrom all child (some (.plugin type name, rest)) subsystem rest
      | some (.subsystemRoot name) =>
        resolveFrom all child plugin
          (some ((name.map Component.subsystem).getD .coreLibrary, rest)) rest
      | _ => resolveFrom all child plugin subsystem rest

/-- The owner of a symbolic path. There is none for a path that does not start
at the root, or whose owner depends on an unknown value. -/
def resolve? (tree : ComponentTree) (path : Text) : Option Owner :=
  match Symbolic.stripRoot? path with
  | none => none
  | some rest =>
    match Symbolic.properSegments rest with
    | [] => some Owner.root
    | all => resolveFrom all tree none none all

/-- The owner of a file, given by its path below the root. -/
def fileOwner (tree : ComponentTree) (file : Text) : Owner :=
  (tree.resolve? ('@' :: '/' :: file)).getD Owner.root

end ComponentTree

end ComponentPaths
