/-
Building the component tree from manifests.

The primary manifest marks the roots of subsystems and plugin types. Each
sub-plugin manifest is then grafted: its plugin becomes a plugin root, and
the types it declares are marked below that plugin. A graft finds its plugin
through the directory its type has at that moment, and a type declared again
moves.
-/
import ComponentPaths.Manifest
import ComponentPaths.Tree.Basic

namespace ComponentPaths

/-- A tree under construction, with the directory of each plugin type. Of two
entries for a type the first counts. -/
structure TreeBuilder where
  tree : ComponentTree
  typeDirs : List (Text × Text)

namespace TreeBuilder

/-- The tree with a subsystem marked at its directory, if it has one. -/
def insertSubsystem (tree : ComponentTree) (name : Text) : Option Text → ComponentTree
  | some dir => tree.insert dir (.subsystemRoot (some name))
  | none => tree

/-- The tree of the primary manifest. -/
def ofManifest (primary : Manifest) : TreeBuilder :=
  let library := ComponentTree.empty.insert ComponentTree.coreLibraryDir (.subsystemRoot none)
  let subsystems := primary.subsystems.foldl
    (fun tree (name, dir?) => insertSubsystem tree name dir?) library
  let types := primary.pluginTypes.foldl
    (fun tree (type, dir) => tree.insert dir (.pluginTypeRoot type)) subsystems
  ⟨types, primary.pluginTypes⟩

/-- The directory of a declared type. A manifest may also spell it from the
root of the codebase, if that is below its plugin. -/
def subtypeDir (pluginDir declared : Text) : Text :=
  let relative := Text.trimSlashes declared
  if (pluginDir ++ ['/']).isPrefixOf relative then relative else pluginDir ++ '/' :: relative

/-- The builder with one declared type marked at its directory. -/
def putType (builder : TreeBuilder) (type dir : Text) : TreeBuilder :=
  ⟨builder.tree.insert dir (.pluginTypeRoot type), (type, dir) :: builder.typeDirs⟩

/-- The builder after the sub-plugin manifest of one plugin, and the declared
types with their directories. Nothing happens for an unknown plugin type. -/
def graft (builder : TreeBuilder) (type name : Text) (manifest : SubpluginManifest) :
    TreeBuilder × List (Text × Text) :=
  match builder.typeDirs.lookup type with
  | none => (builder, [])
  | some typeDir =>
    let pluginDir := Text.dropEndWhile (· == '/') typeDir ++ '/' :: name
    let grafted := manifest.types.map fun (subtype, declared) =>
      (subtype, subtypeDir pluginDir declared)
    let rooted : TreeBuilder :=
      ⟨builder.tree.insert pluginDir (.pluginRoot type name), builder.typeDirs⟩
    (grafted.foldl (fun b (subtype, dir) => b.putType subtype dir) rooted, grafted)

end TreeBuilder

/-- The sub-plugin manifest of a plugin, given with the plugin's type and name. -/
structure PluginManifest where
  type : Text
  name : Text
  manifest : SubpluginManifest
  deriving DecidableEq, Repr

/-- The tree of the primary manifest with the sub-plugin manifests grafted in order. -/
def ComponentTree.ofManifests (primary : Manifest) (plugins : List PluginManifest) :
    ComponentTree :=
  (plugins.foldl (fun builder p => (builder.graft p.type p.name p.manifest).1)
    (TreeBuilder.ofManifest primary)).tree

end ComponentPaths
