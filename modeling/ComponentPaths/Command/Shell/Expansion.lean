/-
Expansion: from the words of a command to the texts that it gets.

First every part of a word is replaced by pieces, which remember what was
quoted and what came from an expansion. Unquoted pieces of expansions are
then split into fields at separators, and a field that is a pattern becomes
the path names that it stands for.

A command inside a word is run by the function that is passed in.
-/
import ComponentPaths.Command.Shell.Arithmetic
import ComponentPaths.Command.Shell.Pattern
import ComponentPaths.Command.Shell.Script

namespace ComponentPaths.Shell

-- ======================================================================= homes

/-- Where users are at home. -/
def homes : List (Text × Text) :=
  [("root", "/root"), ("daemon", "/usr/sbin"), ("bin", "/bin"), ("sys", "/dev"), ("sync", "/bin"),
    ("games", "/usr/games"), ("man", "/var/cache/man"), ("lp", "/var/spool/lpd"),
    ("mail", "/var/mail"), ("news", "/var/spool/news"), ("uucp", "/var/spool/uucp"),
    ("proxy", "/bin"), ("www-data", "/var/www"), ("backup", "/var/backups"),
    ("list", "/var/list"), ("irc", "/run/ircd"), ("nobody", "/nonexistent")]

/-- Where a user is at home; without a name, whoever runs the script. -/
def home? (user : Text) : Run (Option Text) := do
  if user.isEmpty then Run.lookup? "HOME" else return homes.lookup user

-- ====================================================================== pieces

/-- A piece of an expanded word. -/
inductive Piece where
  | char (glyph : Glyph) (splits : Bool)
  /-- Quotes, which make a field even if they are empty. -/
  | mark
  /-- The border between two arguments. -/
  | border
  deriving DecidableEq, Repr

namespace Piece

/-- Characters as pieces. -/
def ofText (isQuoted splits : Bool) (t : Text) : List Piece :=
  t.map fun c => .char ⟨c, isQuoted⟩ splits

/-- The characters of pieces, with their quoting; arguments have a blank
between them. -/
def glyphs (pieces : List Piece) : List Glyph :=
  pieces.filterMap fun
    | .char glyph _ => some glyph
    | .mark => none
    | .border => some ⟨' ', true⟩

/-- The characters of pieces. -/
def text (pieces : List Piece) : Text :=
  Glyph.text (glyphs pieces)

/-- All arguments as pieces. -/
def ofArguments (isQuoted : Bool) : List Text → List Piece
  | [] => []
  | [last] => (if isQuoted then [mark] else []) ++ ofText isQuoted (!isQuoted) last
  | first :: rest =>
    (if isQuoted then [mark] else []) ++ ofText isQuoted (!isQuoted) first
      ++ border :: ofArguments isQuoted rest

end Piece

/-- The separators of fields. -/
def separators : Run Text := do
  return ((← Run.lookup? "IFS").getD " \t\n")

/-- What one command prints, without the line ends at its end. -/
def printedBy (self : Command → Run Unit) (command : Command) : Run Text := do
  let before ← get
  let _ ← Run.takeNumber
  let n ← Run.open_ 1 (.sink [])
  apart self command
  modify fun s =>
    { s with descriptors := before.descriptors, substituted := s.status, status := before.status }
  let printed : Text :=
    match (← get).channels[n]? with
    | some (.sink written) => written
    | _ => []
  return Text.dropEndWhile (· == '\n') (printed.filter (· != '\x00'))

/-- The value of an arithmetic expression. -/
def valueOf (expression : Text) : Run Text := do
  let s ← get
  match Arithmetic.evaluate (fun name => s.bindings.lookup name) expression with
  | .error text => Run.fatal text
  | .ok (n, assigned) =>
    assigned.reverse.forM fun (name, value) => Run.assign name value
    return Text.ofInt n

/-- Whether a name stands for all arguments. -/
def isAll (name : Text) : Bool :=
  name == ['@'] || name == ['*']

/-- All arguments as the value of a parameter. -/
def allArguments (inDouble : Bool) (name : Text) : Run (List Piece) := do
  let arguments := (← get).arguments
  if inDouble && name == ['*'] then
    let first := (← separators).take 1
    return Piece.ofText true false (Text.join first arguments)
  else return Piece.ofArguments inDouble arguments

/-- The value of a parameter that has to have one where that is required. -/
def required (name : Text) : Run Text := do
  match ← Run.parameter? name with
  | some value => return value
  | none =>
    if (← get).isOn .requiresValues then Run.fatal (name ++ ": parameter not set")
    else return []

/-- The value of a parameter, all arguments included, as one text. -/
def joined? (name : Text) : Run (Option Text) := do
  if isAll name then
    let arguments := (← get).arguments
    return if arguments.isEmpty then none else some (Text.join " " arguments)
  else Run.parameter? name

/-- The value of a parameter as pieces. -/
def valuePieces (inDouble : Bool) (name : Text) : Run (List Piece) := do
  if isAll name then allArguments inDouble name
  else return Piece.ofText inDouble (!inDouble) (← required name)

/-- Whether a parameter has a value that counts. -/
def counts (orEmpty : Bool) (name : Text) : Run Bool := do
  match ← joined? name with
  | none => return false
  | some value => return !(orEmpty && value.isEmpty)

/-- Whether parts hold all arguments and there are none. -/
def vanishes (parts : List Part) : Run Bool := do
  let isEmpty := (← get).arguments.isEmpty
  return isEmpty && parts.any fun
    | .parameter ['@'] .value => true
    | _ => false

mutual

/-- The pieces of a part. `inDouble` is for parts between double quotes, and
`splits` for those that an expansion put in. -/
def expandPart (self : Command → Run Unit) (inDouble splits : Bool) : Part → Run (List Piece)
  | .plain text => return Piece.ofText inDouble splits text
  | .quoted text => return .mark :: Piece.ofText true false text
  | .home user => do
    match ← home? user with
    | some place => return .mark :: Piece.ofText true false place
    | none => return Piece.ofText inDouble splits ('~' :: user)
  | .double parts => do
    let pieces ← expandParts self true false parts
    if pieces.isEmpty && (← vanishes parts) then return []
    else return .mark :: pieces
  | .parameter name use => expandUse self inDouble name use
  | .output command => do
    return Piece.ofText inDouble (!inDouble) (← printedBy self command)
  | .sum parts => do
    let expression := Piece.text (← expandParts self true false parts)
    return Piece.ofText inDouble (!inDouble) (← valueOf expression)

/-- The pieces of parts. -/
def expandParts (self : Command → Run Unit) (inDouble splits : Bool) :
    List Part → Run (List Piece)
  | [] => return []
  | part :: rest => do
    let first ← expandPart self inDouble splits part
    return first ++ (← expandParts self inDouble splits rest)

/-- The pieces of a parameter. -/
def expandUse (self : Command → Run Unit) (inDouble : Bool) (name : Text) :
    Use → Run (List Piece)
  | .value => valuePieces inDouble name
  | .length => do
    let length ←
      if isAll name then pure (← get).arguments.length
      else pure (← required name).length
    return Piece.ofText inDouble (!inDouble) (Text.ofNat length)
  | .instead orEmpty word => do
    if ← counts orEmpty name then valuePieces inDouble name
    else expandParts self inDouble (!inDouble) word
  | .assign orEmpty word => do
    if ← counts orEmpty name then valuePieces inDouble name
    else
      let value := Piece.text (← expandParts self inDouble false word)
      if isName name then Run.assign name value
      else Run.fatal (name ++ ": bad variable name")
      return Piece.ofText inDouble (!inDouble) value
  | .require orEmpty word => do
    if ← counts orEmpty name then valuePieces inDouble name
    else
      let given := Piece.text (← expandParts self inDouble false word)
      let reason : Text :=
        if !word.isEmpty then given
        else if orEmpty then "parameter not set or null"
        else "parameter not set"
      Run.fatal (name ++ ": " ++ reason)
  | .whenSet orEmpty word => do
    if ← counts orEmpty name then expandParts self inDouble (!inDouble) word
    else return []
  | .without cut pattern => do
    let value ← if isAll name then pure ((← joined? name).getD []) else required name
    let items := Pattern.ofGlyphs (Piece.glyphs (← expandParts self false false pattern))
    return Piece.ofText inDouble (!inDouble) (Pattern.without cut items value)
  | .malformed => Run.fatal "Bad substitution"

end

-- ====================================================================== fields

/-- Fields under way: those that are finished, last first, the current one,
and whether blanks have just ended a field. -/
structure Splitting where
  finished : List (List Glyph)
  current : Option (List Glyph)
  afterBlank : Bool

namespace Splitting

/-- The current field finished. -/
def close (s : Splitting) : Splitting :=
  match s.current with
  | some field => { s with finished := field.reverse :: s.finished, current := none }
  | none => s

/-- One more piece. A separator that is no blank ends a field even if that is
empty, unless blanks have ended one right before. -/
def step (separators : Text) (s : Splitting) (piece : Piece) : Splitting :=
  match piece with
  | .mark => { s with current := some (s.current.getD []), afterBlank := false }
  | .border => { s.close with afterBlank := false }
  | .char glyph splits =>
    if splits && separators.contains glyph.char then
      if glyph.char == ' ' || glyph.char == '\t' || glyph.char == '\n' then
        if s.current.isSome then { s.close with afterBlank := true } else s
      else if s.current.isSome then { s.close with afterBlank := false }
      else if s.afterBlank then { s with afterBlank := false }
      else { s with finished := [] :: s.finished }
    else { s with current := some (glyph :: s.current.getD []), afterBlank := false }

end Splitting

/-- The fields of pieces. -/
def fields (separators : Text) (pieces : List Piece) : List (List Glyph) :=
  ((pieces.foldl (Splitting.step separators) ⟨[], none, false⟩).close).finished.reverse

-- ================================================================== path names

/-- The names in a directory, in order; the directory and the one around it are
among them. -/
def namesIn (d : Disk) (path : Text) : List Text :=
  let path : Text := if path.isEmpty then "." else Octets.toText path
  match d.locate path, d.isDir path with
  | .ok place, true =>
    let inside := (d.below place).filterMap fun (names, _) =>
      match names with
      | [name] => some (Octets.ofText name)
      | _ => none
    Text.sort (['.'] :: ['.', '.'] :: inside)
  | _, _ => []

/-- The parts of a pattern between separators. -/
def splitGlyphs (glyphs : List Glyph) : List (List Glyph) :=
  glyphs.foldr
    (fun g parts =>
      if g.char == '/' then [] :: parts
      else
        match parts with
        | first :: rest => (g :: first) :: rest
        | [] => [[g]])
    [[]]

/-- The path names that a pattern stands for, after a beginning. Names that
start with a dot are only meant where the pattern has one. -/
def pathNames (d : Disk) (start : Text) : List (List Glyph) → List Text
  | [] => []
  | part :: rest =>
    let items := Pattern.ofGlyphs part
    let names :=
      if Pattern.isOpen items then
        let dotted := (part.head?.map Glyph.char) == some '.'
        (namesIn d start).filter fun name =>
          (dotted || name.head? != some '.') && Pattern.holds items name
      else [Glyph.text part]
    if rest.isEmpty then
      (names.map (start ++ ·)).filter fun path => d.exists? (Octets.toText path)
    else names.flatMap fun name => pathNames d (start ++ name ++ ['/']) rest

/-- The texts that a field stands for. -/
def fieldTexts (d : Disk) (keepsPatterns : Bool) (field : List Glyph) : List Text :=
  if keepsPatterns || !Pattern.isOpen (Pattern.ofGlyphs field) then [Glyph.text field]
  else
    match pathNames d [] (splitGlyphs field) with
    | [] => [Glyph.text field]
    | found => found

/-- The texts that a word stands for. -/
def expandWord (self : Command → Run Unit) (word : Word) : Run (List Text) := do
  let pieces ← expandParts self false false word
  let s ← get
  return (fields (← separators) pieces).flatMap (fieldTexts s.disk (s.isOn .keepsPatterns))

/-- A word as one text. -/
def expandText (self : Command → Run Unit) (word : Word) : Run Text := do
  return Piece.text (← expandParts self false false word)

/-- A word as a pattern. -/
def expandPattern (self : Command → Run Unit) (word : Word) : Run (List Pattern.Item) := do
  return Pattern.ofGlyphs (Piece.glyphs (← expandParts self false false word))

end ComponentPaths.Shell
