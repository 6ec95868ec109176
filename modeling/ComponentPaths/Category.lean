/-
Path categories: what a symbolic path looks like, from the bare root to a
path with unknown parts. The rules are tried from the most specific shape to
the most open one, and the first that fits decides.
-/
import ComponentPaths.Symbolic.Basic

namespace ComponentPaths

/-- The shapes a normalized path can have. -/
inductive Category where
  /-- The root of the codebase itself. -/
  | dirRoot
  /-- The configuration file in the root. -/
  | config
  /-- A known file. -/
  | simpleFile
  /-- A known directory. -/
  | simpleDir
  /-- One unknown value. -/
  | singleVar
  /-- The root, then one unknown value. -/
  | fullRelativePath
  /-- The root again inside the path. -/
  | suspect
  /-- A wildcard in literal text. -/
  | glob
  /-- An unknown start. -/
  | fullDirRelative
  /-- An unknown directory. -/
  | simpleDynamicFile
  /-- An unknown file name in a known directory. -/
  | filenameSubstitution
  deriving DecidableEq, Repr

namespace Category

/-- The name reports use for a category. -/
def name : Category → Text
  | .dirRoot => "DirRoot"
  | .config => "Config"
  | .simpleFile => "SimpleFile"
  | .simpleDir => "SimpleDir"
  | .singleVar => "SingleVar"
  | .fullRelativePath => "FullRelativePath"
  | .suspect => "Suspect"
  | .glob => "Glob"
  | .fullDirRelative => "FullDirRelative"
  | .simpleDynamicFile => "SimpleDynamicFile"
  | .filenameSubstitution => "FilenameSubstitution"

/-- Every category. -/
def all : List Category :=
  [.dirRoot, .config, .simpleFile, .simpleDir, .singleVar, .fullRelativePath, .suspect,
    .glob, .fullDirRelative, .simpleDynamicFile, .filenameSubstitution]

/-- The category of a name. -/
def ofName? (n : Text) : Option Category :=
  all.find? fun c => c.name == n

/-- Shapes that never get a replacement of their own. -/
def needsManualReview : Category → Bool
  | .singleVar | .suspect | .glob | .fullDirRelative => true
  | _ => false

-- ================================================================== shapes

/-- Whether a segment is a file name with an extension: letters and digits
after a dot that does not come first. -/
def hasExtension (segment : Text) : Bool :=
  let extension := segment.reverse.takeWhile (· != '.')
  match segment.reverse.dropWhile (· != '.') with
  | _ :: _ :: _ => !extension.isEmpty && extension.all Char.isAlphanum
  | _ => false

/-- Whether the root appears anywhere but at the start. -/
def hasEmbeddedRoot (path : Text) : Bool :=
  path.tail.contains '@'

/-- Whether literal text holds a wildcard. -/
def hasWildcard (path : Text) : Bool :=
  (Symbolic.pieces path).any fun
    | .literal t => t.contains '*'
    | _ => false

/-- Whether a directory of the path is not known. -/
def hasDynamicDir (path : Text) : Bool :=
  (Symbolic.segments path).dropLast.any Symbolic.hasPlaceholder

/-- Whether everything below the root is one unknown value. -/
def isRootAndPlaceholder (path : Text) : Bool :=
  ((Symbolic.stripRoot? path).bind Symbolic.singlePlaceholder?).isSome

/-- The category of an anchored path that no special shape claims. -/
def ofAnchored (path : Text) : Category :=
  if Symbolic.hasPlaceholder path then
    if hasDynamicDir path then .simpleDynamicFile else .filenameSubstitution
  else if hasExtension ((Symbolic.segments path).getLastD []) then .simpleFile
  else .simpleDir

/-- The category of a normalized path; none for a path that is neither
anchored nor starts with an unknown value. -/
def ofPath? (path : Text) : Option Category :=
  if path = "@" ∨ path = "@/" then some .dirRoot
  else if path = "@/config.php" then some .config
  else if hasEmbeddedRoot path then some .suspect
  else if hasWildcard path then some .glob
  else if (Symbolic.singlePlaceholder? path).isSome then some .singleVar
  else if isRootAndPlaceholder path then some .fullRelativePath
  else if Symbolic.isUnanchored path then some .fullDirRelative
  else if Symbolic.isAnchored path then some (ofAnchored path)
  else none

end Category

end ComponentPaths
