/-
Components: the parts of the codebase that own its files, and how a part is
named by an id such as `core`, `core_admin` or `mod_assign`.
-/
import ComponentPaths.Text.Basic

namespace ComponentPaths

/-- A part of the codebase. The bare root and the core library have no id
of their own, so nothing can be addressed through them. -/
inductive Component where
  /-- The bare root of the codebase. -/
  | root
  /-- Core code that belongs to no subsystem. -/
  | coreLibrary
  /-- A named part of the core. -/
  | subsystem (name : Text)
  /-- A plugin of a type. -/
  | plugin (type name : Text)
  deriving DecidableEq, Repr

namespace Component

/-- The word that stands for the core in ids. -/
def coreWord : Text := "core"

/-- Whether a component is part of the core. -/
def isCore : Component → Bool
  | .plugin _ _ => false
  | _ => true

/-- Whether a component cannot be addressed by id. -/
def isSynthetic : Component → Bool
  | .root | .coreLibrary => true
  | _ => false

/-- The plugin type, and the core word for the core. -/
def typeName : Component → Text
  | .plugin type _ => type
  | _ => coreWord

/-- The name within the type; the core library has none. -/
def name? : Component → Option Text
  | .root => some "root"
  | .coreLibrary => none
  | .subsystem name => some name
  | .plugin _ name => some name

/-- Whether the name of a plugin is only known when the code runs. -/
def hasDynamicName : Component → Bool
  | .plugin _ name => name.contains '{'
  | _ => false

/-- The id: type and name around an underscore, or the core word alone. -/
def id : Component → Text
  | .root | .coreLibrary => coreWord
  | .subsystem name => coreWord ++ '_' :: name
  | .plugin type name => type ++ '_' :: name

/-- The component an id names. The type ends at the first underscore. -/
def ofId? (id : Text) : Option Component :=
  if id = coreWord then some .coreLibrary
  else
    match Text.splitFirst '_' id with
    | none => none
    | some (type, name) =>
      if type.isEmpty || name.isEmpty then none
      else if type = coreWord then some (.subsystem name)
      else some (.plugin type name)

/-- The text shown for a component: its id, and `core/root` for the root. -/
def display : Component → Text
  | .root => "core/root"
  | c => c.id

end Component

/-- A component with the path that remains inside it. -/
structure Owner where
  component : Component
  relativePath : Text
  deriving DecidableEq, Repr

/-- The root with nothing below it. -/
def Owner.root : Owner :=
  ⟨.root, []⟩

end ComponentPaths
