/-
Normal form of symbolic paths.

`collapseDots` removes `.` and `..` segments as far as that can be done
without knowing what a placeholder holds: going up never consumes the root
or a segment with a placeholder in it. `normalize` first anchors a path that
names neither the root nor an unknown start, at the directory of the file
that mentions it.
-/
import ComponentPaths.Symbolic.Basic

namespace ComponentPaths.Symbolic

-- ============================================================ dot segments

/-- The segments read so far, last first, without empty ones at the end. The
first segment of the path stays even when it is empty. -/
def dropEmptyTop : List Text → List Text
  | [] :: below :: rest => dropEmptyTop (below :: rest)
  | stack => stack

/-- Whether going up can consume a segment: it must name one directory. -/
def isPoppable (segment : Text) : Bool :=
  segment != ".." && segment != "@" && !segment.contains '{' && !segment.isEmpty

/-- Going up from the segments read so far. -/
def goUp (stack : List Text) : List Text :=
  match dropEmptyTop stack with
  | [] => [".."]
  | top :: below => if isPoppable top then below else ".." :: top :: below

/-- One more segment after those read so far. -/
def pushSegment (stack : List Text) (segment : Text) : List Text :=
  if segment = "." then stack
  else if segment = ".." then goUp stack
  else segment :: stack

/-- The segments left after collapsing. The first one is kept as it is. -/
def collapseSegments : List Text → List Text
  | [] => []
  | first :: rest => (rest.foldl pushSegment [first]).reverse

/-- A path without the `.` and `..` segments that can be resolved. -/
def collapseDots (path : Text) : Text :=
  Text.joinSlash (collapseSegments (segments path))

-- =============================================================== anchoring

/-- Libraries that are found through the include path. -/
def includePathLibraries : List Text :=
  ["Horde", "HTML"]

/-- Where the include path libraries are kept. -/
def includePathRoot : Text :=
  "@/lib/pear"

/-- Whether a path starts with a directory of the include path. -/
def usesIncludePath (raw : Text) : Bool :=
  includePathLibraries.any fun library => (library ++ ['/']).isPrefixOf raw

/-- A path that starts at the root or at an unknown value. Any other path is
relative to the directory of the file that mentions it. -/
def anchor (raw fileDir : Text) : Text :=
  if isAnchored raw || isUnanchored raw then raw
  else if usesIncludePath raw then includePathRoot ++ '/' :: raw
  else if fileDir.isEmpty then '@' :: '/' :: raw
  else '@' :: '/' :: Text.trimSlashes fileDir ++ '/' :: raw

/-- The normal form of what a path expression contributes, read in a file of
the directory `fileDir`. Nothing stays nothing. -/
def normalize (raw fileDir : Text) : Text :=
  if raw.isEmpty then []
  else collapseDots (anchor raw fileDir)

-- ============================================================== going up

/-- Everything before the last separator outside placeholders, where one
separator at the end does not count. Fails for a path without any. -/
def dropLastSegment? (path : Text) : Option Text :=
  let trimmed := if path.length > 1 then (Text.dropTail? ['/'] path).getD path else path
  match segments trimmed with
  | [] => none
  | [_] => none
  | all =>
    let kept := Text.joinSlash all.dropLast
    some (if kept.isEmpty then ['/'] else kept)

end ComponentPaths.Symbolic
