/-
Component-addressed calls: the code that asks the component interface for a
path. `api` is the class that provides the interface.
-/
import ComponentPaths.Component
import ComponentPaths.Fault
import ComponentPaths.Symbolic.Expression

namespace ComponentPaths.Call

/-- The expression of a path fragment, which must not hold the root. -/
def fragment (path : Text) : Except Fault Text :=
  match Symbolic.toExpression? path with
  | some code => .ok code
  | none => .error (.invalidTarget ("path fragment " ++ path ++ " holds the root anchor"))

/-- The expression of a component's id. A dynamic name is appended to the
literal type. -/
def componentId : Component → Except Fault Text
  | .root => .error (.invalidTarget Component.root.display)
  | .coreLibrary => .error (.invalidTarget Component.coreLibrary.display)
  | .subsystem name => .ok (Symbolic.quote (Component.subsystem name).id)
  | .plugin type name =>
    if (Component.plugin type name).hasDynamicName then
      (fragment name).map fun code => Symbolic.quote (type ++ ['_']) ++ " . " ++ code
    else .ok (Symbolic.quote (Component.plugin type name).id)

/-- The call for a path inside a component; nothing inside is left out. -/
def componentPath (api : Text) (component : Component) (relative : Text) : Except Fault Text :=
  match componentId component with
  | .error fault => .error fault
  | .ok id =>
    if relative.isEmpty then .ok (api ++ "::get_component_path(" ++ id ++ ")")
    else
      (fragment relative).map fun code =>
        api ++ "::get_component_path(" ++ id ++ ", " ++ code ++ ")"

/-- The call for a path in the core, outside of every subsystem. -/
def corePath (api suffix : Text) : Except Fault Text :=
  (fragment suffix).map fun code => api ++ "::get_core_path(" ++ code ++ ")"

/-- The call for a path that is known only when the code runs. -/
def rootRelative (api expression : Text) : Text :=
  api ++ "::get_path_from_relative(" ++ expression ++ ")"

end ComponentPaths.Call
