/-
The syntax of shell scripts: words, redirections and commands.

Inside a script every character is one byte, so that a script can hold and
print bytes that are no text. A word keeps its quoting and what is to be put
in its place when it is used; nothing is expanded here.
-/
import ComponentPaths.Text.Basic

namespace ComponentPaths.Shell

-- ======================================================================= names

/-- Characters that a name starts with. -/
def startsName (c : Char) : Bool :=
  c.isAlpha || c == '_'

/-- Characters of a name. -/
def inName (c : Char) : Bool :=
  c.isAlphanum || c == '_'

/-- Whether a text is the name of a variable. -/
def isName : Text → Bool
  | [] => false
  | c :: rest => startsName c && rest.all inName

/-- Parameters with a name of one sign. -/
def isSpecial (c : Char) : Bool :=
  "@*#?-$!".toList.contains c || c.isDigit

-- ==================================================================== commands

/-- Which end a pattern takes away, and how much of it. -/
structure Cut where
  fromEnd : Bool
  longest : Bool
  deriving DecidableEq, Repr

/-- How a redirection opens a file. -/
inductive Opening where
  | read
  | write
  /-- Even where files are kept. -/
  | overwrite
  | append
  | update
  deriving DecidableEq, Repr

mutual

/-- A part of a word. -/
inductive Part where
  /-- Characters that stand for themselves, and may still be a pattern. -/
  | plain (text : Text)
  /-- Characters without any other meaning. -/
  | quoted (text : Text)
  /-- Where a user is at home; without a name, whoever runs the script. -/
  | home (user : Text)
  /-- Parts between double quotes. -/
  | double (parts : List Part)
  /-- The value of a parameter. -/
  | parameter (name : Text) (use : Use)
  /-- What a command prints. -/
  | output (command : Command)
  /-- The value of an arithmetic expression. -/
  | sum (parts : List Part)

/-- What is made of the value of a parameter. Where a use depends on whether
there is a value, `orEmpty` says that an empty one does not count. -/
inductive Use where
  | value
  | length
  /-- Another word instead of no value. -/
  | instead (orEmpty : Bool) (word : List Part)
  /-- Another word, which becomes the value. -/
  | assign (orEmpty : Bool) (word : List Part)
  /-- A message instead of no value. -/
  | require (orEmpty : Bool) (message : List Part)
  /-- Another word instead of a value. -/
  | whenSet (orEmpty : Bool) (word : List Part)
  /-- The value without what matches a pattern at one end. -/
  | without (cut : Cut) (pattern : List Part)
  /-- No use that there is. -/
  | malformed

/-- A change of where a descriptor leads. -/
inductive Redirection where
  | file (descriptor : Nat) (opening : Opening) (target : List Part)
  /-- To where another descriptor leads; a dash closes. -/
  | copy (descriptor : Nat) (source : List Part)
  /-- From a document in the script, by its number. -/
  | document (descriptor : Nat) (number : Nat)

/-- A command. -/
inductive Command where
  | simple (line : Nat) (assignments : List (Text × List Part)) (words : List (List Part))
      (redirections : List Redirection)
  /-- One after another. -/
  | sequence (commands : List Command)
  /-- Without waiting for its end. -/
  | background (command : Command)
  /-- The second only if the first succeeds. -/
  | both (first second : Command)
  /-- The second only if the first fails. -/
  | either (first second : Command)
  | negated (command : Command)
  /-- Each reads what the one before it prints. -/
  | pipe (commands : List Command)
  /-- With a state of its own. -/
  | subshell (line : Nat) (body : Command) (redirections : List Redirection)
  | redirected (line : Nat) (body : Command) (redirections : List Redirection)
  | choice (condition body : Command) (otherwise : Option Command)
  /-- As long as the condition ends as `succeeding` says. -/
  | loop (succeeding : Bool) (condition body : Command)
  /-- Once for each word, or for each argument. -/
  | each (line : Nat) (variableName : Text) (words : List (List Part)) (body : Command)
  /-- The first case one of whose patterns matches. -/
  | select (line : Nat) (subject : List Part) (cases : List (List (List Part) × Command))
  | define (name : Text) (body : Command)

end

/-- The words of a script. -/
abbrev Word := List Part

-- ======================================================================= homes

/-- A text that may start with a tilde and a name, which stand for a home. A name
that goes on after the text is none. -/
def homeAtStart (goesOn : Bool) (text : Text) : Word :=
  match text with
  | '~' :: rest =>
    let user := rest.takeWhile (· != '/')
    let after := rest.drop user.length
    if after.isEmpty then if goesOn then [.plain text] else [.home user]
    else [.home user, .plain after]
  | _ => [.plain text]

/-- A text cut at its colons. -/
def splitColons (t : Text) : List Text :=
  t.foldr
    (fun c parts =>
      if c == ':' then [] :: parts
      else
        match parts with
        | first :: rest => (c :: first) :: rest
        | [] => [[c]])
    [[]]

/-- Texts with colons between them, each of which may start with a home. -/
def homesBetween (goesOn : Bool) : List Text → Word
  | [] => []
  | [last] => if last.isEmpty then [] else homeAtStart goesOn last
  | first :: rest => homeAtStart false first ++ .plain [':'] :: homesBetween goesOn rest

/-- A text in the middle of a value that is assigned. -/
def homesAfterColons (goesOn : Bool) (text : Text) : Word :=
  match splitColons text with
  | first :: second :: others => .plain (first ++ [':']) :: homesBetween goesOn (second :: others)
  | _ => [.plain text]

/-- The parts after the first of a value that is assigned. -/
def homesInside : Word → Word
  | [] => []
  | .plain text :: rest => homesAfterColons (!rest.isEmpty) text ++ homesInside rest
  | part :: rest => part :: homesInside rest

/-- A word that may start with a home. -/
def withHome (word : Word) : Word :=
  match word with
  | .plain text :: rest => homeAtStart (!rest.isEmpty) text ++ rest
  | other => other

/-- A value that is assigned, where a home may start at the beginning and after
each colon. -/
def withHomes (word : Word) : Word :=
  match word with
  | .plain text :: rest => homesBetween (!rest.isEmpty) (splitColons text) ++ homesInside rest
  | other => homesInside other

/-- The command that does nothing. -/
def Command.nothing : Command :=
  .sequence []

end ComponentPaths.Shell
