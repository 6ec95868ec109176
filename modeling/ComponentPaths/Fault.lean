/-
Faults: everything that can go wrong, as causes, with the wording of each in
one place. A component that cannot be determined is not a fault.
-/
import ComponentPaths.Span
import ComponentPaths.Text.Printable

namespace ComponentPaths

/-- Refusals of the operating system, and of texts that cannot be handed to it
because they hold a NUL. -/
inductive OsError where
  | noEntry
  | badDescriptor
  | permissionDenied
  | busy
  | alreadyExists
  | notDirectory
  | isDirectory
  | invalidArgument
  | nameTooLong
  /-- A path name with a NUL. -/
  | nulInName
  /-- A program name or an argument with a NUL. -/
  | nulInCommand
  deriving DecidableEq, Repr

/-- What a refusal says, and its number, if it is one of the operating system. -/
def OsError.reason : OsError → Text × Option Nat
  | .noEntry => ("No such file or directory", some 2)
  | .badDescriptor => ("Bad file descriptor", some 9)
  | .permissionDenied => ("Permission denied", some 13)
  | .busy => ("Device or resource busy", some 16)
  | .alreadyExists => ("File exists", some 17)
  | .notDirectory => ("Not a directory", some 20)
  | .isDirectory => ("Is a directory", some 21)
  | .invalidArgument => ("Invalid argument", some 22)
  | .nameTooLong => ("File name too long", some 36)
  | .nulInName => ("file name contained an unexpected NUL byte", none)
  | .nulInCommand => ("nul byte found in provided data", none)

/-- The text of a refusal, with its number. -/
def OsError.message (error : OsError) : Text :=
  match error.reason with
  | (text, some number) => text ++ " (os error " ++ Text.ofNat number ++ ")"
  | (text, none) => text

/-- Failures of reading and writing. -/
inductive IoError where
  /-- A refusal of the operating system. -/
  | os (error : OsError)
  /-- A refusal for a temporary file, with the path that was tried. -/
  | temporary (error : OsError) (path : Text)
  /-- A text file that is not UTF-8. -/
  | notText
  deriving DecidableEq, Repr

/-- One character of a path name in quotes. What does not show itself is written
as its number. -/
def IoError.quotedChar (c : Char) : Text :=
  match c with
  | '"' => ['\\', '"']
  | '\\' => ['\\', '\\']
  | '\n' => ['\\', 'n']
  | '\r' => ['\\', 'r']
  | '\t' => ['\\', 't']
  | '\x00' => ['\\', '0']
  | c =>
    if Text.isPrintable c then [c]
    else ['\\', 'u', '{'] ++ Nat.toDigits 16 c.toNat ++ ['}']

/-- A path name in quotes, so that its end can be seen. -/
def IoError.quotedPath (path : Text) : Text :=
  '"' :: path.flatMap quotedChar ++ ['"']

/-- The text of a failure. -/
def IoError.message : IoError → Text
  | .os error => error.message
  | .temporary error path => error.message ++ " at path " ++ IoError.quotedPath path
  | .notText => "stream did not contain valid UTF-8"

/-- What ends an operation. -/
inductive Fault where
  /-- A manifest that is missing or malformed; ends a whole run. -/
  | manifestUnreadable (path reason : Text)
  /-- A file without a usable syntax dump; the others go on. -/
  | parseFailure (path reason : Text)
  /-- A replacement by something that has no address. -/
  | invalidTarget (what : Text)
  /-- Two edits of one file that touch the same bytes. -/
  | overlappingEdits (path : Text) (first second : Span)
  /-- An output directory that is there already. -/
  | outputExists (path : Text)
  /-- An id that names no component on disk. -/
  | unknownComponent (id : Text)
  /-- A failure of reading or writing. -/
  | io (error : IoError)
  deriving DecidableEq, Repr

/-- A span as it appears in messages. -/
def Span.display (s : Span) : Text :=
  Text.ofNat s.start ++ ".." ++ Text.ofNat s.stop

/-- The text of a fault. -/
def Fault.message : Fault → Text
  | .manifestUnreadable path reason => "manifest " ++ path ++ " is unreadable: " ++ reason
  | .parseFailure path reason => "failed to parse " ++ path ++ ": " ++ reason
  | .invalidTarget what => what ++ " is not a valid component-addressed rewrite target"
  | .overlappingEdits path first second =>
    "overlapping edits in " ++ path ++ ": " ++ first.display ++ " and " ++ second.display
  | .outputExists path => "output directory " ++ path ++ " already exists"
  | .unknownComponent id => "unknown component " ++ id
  | .io error => error.message

end ComponentPaths
