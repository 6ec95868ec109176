/-
Commands: what running a program leaves, and the programs there are.

Running a program ends with what it printed, whether it succeeded and the disk
as it left it, or the program does not start at all. Whatever runs programs takes
them as a parameter, `Programs`, and knows no more of them than that.

`Programs.standard` are the programs at hand when the tool is run: a few that only
look at the disk, and one that runs scripts.
-/
import ComponentPaths.Disk.Basic
import ComponentPaths.Text.Octets

namespace ComponentPaths

/-- What running a program leaves. -/
structure CommandOutput where
  output : Bytes
  errors : Bytes
  succeeded : Bool
  disk : Disk
  deriving DecidableEq, Repr

/-- The programs that can be run, by name and arguments. -/
abbrev Programs := Disk → Text → List Text → Except OsError CommandOutput

-- ==================================================================== programs

/-- Where a program prints. -/
inductive Stream where
  | output
  | errors
  deriving DecidableEq, Repr

/-- What a program reads. -/
inductive Source where
  | text (rest : Text)
  | directory
  /-- Nothing that could be read. -/
  | closed
  deriving DecidableEq, Repr

/-- How a program ends: what it printed, in order and with one character for
each byte, what it left to be read, and its status. -/
structure Outcome where
  printed : List (Stream × Text)
  left : Source
  status : Nat
  deriving DecidableEq, Repr

/-- A program that looks at the disk, by what it does when it is called by a
name, with an input and arguments. Name and arguments have one character for each byte. -/
abbrev Program := Disk → Text → Source → List Text → Outcome

namespace Outcome

/-- An end without a word. -/
def silent (input : Source) (status : Nat) : Outcome :=
  ⟨[], input, status⟩

/-- An end after some output. -/
def printing (input : Source) (text : Text) : Outcome :=
  ⟨[(.output, text)], input, 0⟩

/-- An end with a message. -/
def failing (input : Source) (message : Text) (status : Nat) : Outcome :=
  ⟨[(.errors, message)], input, status⟩

/-- What was printed to one stream. -/
def text (o : Outcome) (stream : Stream) : Text :=
  o.printed.flatMap fun (target, text) => if target = stream then text else []

/-- What is left of a run for those who asked for it. -/
def toCommandOutput (o : Outcome) (d : Disk) : CommandOutput :=
  ⟨Octets.toBytes (o.text .output), Octets.toBytes (o.text .errors), o.status == 0, d⟩

end Outcome

end ComponentPaths
