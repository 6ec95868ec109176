/-
Reading shell scripts: from text to commands, a complete line at a time.

A script runs as it is read, so that a line with a fault does not undo the
lines before it. Reading one line gives its command, or the fault with the
number of the line. Words are keywords only where a command may start or
continue, which the caller of `next` knows.

A word may hold a command and a command holds words, so each reader is
written with the others as arguments. The knot is tied at the end, by a
depth that the length of the text bounds.
-/
import ComponentPaths.Command.Shell.Syntax

namespace ComponentPaths.Shell

-- ====================================================================== tokens

/-- The units of a script. -/
inductive Token where
  | finish
  | newline
  | semicolon
  | ampersand
  | andThen
  | orElse
  | bar
  | opening
  | closing
  | endOfCase
  /-- A redirection to a file, whose name follows. -/
  | toFile (descriptor : Nat) (opening : Opening)
  /-- A redirection to a descriptor, which follows. -/
  | toCopy (descriptor : Nat)
  /-- A redirection from a document, whose last line follows. -/
  | toDocument (descriptor : Nat) (stripTabs : Bool)
  | word (parts : Word)
  | keyword (spelling : Text)

/-- Words with a meaning of their own. -/
def keywords : List Text :=
  ["!", "case", "do", "done", "elif", "else", "esac", "fi", "for", "if", "in", "then", "until",
    "while", "\x7b", "\x7d"]

/-- A token as messages name it. -/
def Token.display : Token → Text
  | .finish => "end of file"
  | .newline => "newline"
  | .semicolon => "\";\""
  | .ampersand => "\"&\""
  | .andThen => "\"&&\""
  | .orElse => "\"||\""
  | .bar => "\"|\""
  | .opening => "\"(\""
  | .closing => "\")\""
  | .endOfCase => "\";;\""
  | .toFile _ _ | .toCopy _ | .toDocument _ _ => "redirection"
  | .word _ => "word"
  | .keyword spelling => "\"" ++ spelling ++ "\""

/-- Whether a token ends a list of commands that has begun. -/
def Token.endsList : Token → Bool
  | .finish | .closing | .endOfCase => true
  | .keyword spelling =>
    ["do", "done", "elif", "else", "esac", "fi", "then", "\x7d"].any (·.toList == spelling)
  | _ => false

/-- Whether a token is a certain keyword. -/
def Token.isKeyword (token : Token) (spelling : Text) : Bool :=
  match token with
  | .keyword s => s == spelling
  | _ => false

/-- A document that a redirection asked for and that has not been reached. -/
structure Awaited where
  number : Nat
  lastLine : Text
  stripTabs : Bool
  expands : Bool

/-- How far a script has been read. -/
structure Reader where
  rest : Text
  line : Nat
  /-- The last token, and whether it is to be read again. -/
  last : Token
  again : Bool
  awaited : List Awaited
  /-- How many documents have been asked for. -/
  asked : Nat
  /-- The documents reached so far, by number. -/
  documents : List (Nat × Word)
  /-- Words that stand for others. -/
  aliases : List (Text × Text)
  /-- Aliases that have been put in, each with how much of the script remains
  where it ends. -/
  active : List (Text × Nat)
  /-- Aliases of the texts around. -/
  blocked : List Text
  /-- Whether the last token follows an alias that lets it be one too. -/
  mayBeAlias : Bool

/-- The beginning of a script, after some documents of others. -/
def Reader.start (text : Text) (asked : Nat) : Reader :=
  ⟨text, 1, .newline, false, [], asked, [], [], [], [], false⟩

/-- How many characters a script can still have, aliases put in. -/
def Reader.size (r : Reader) : Nat :=
  (r.rest.length + 2) * ((r.aliases.map fun (_, value) => value.length).foldl (· + ·) 0 + 1)

/-- Why a line cannot be read. -/
structure Misread where
  line : Nat
  reason : Text
  deriving DecidableEq, Repr

/-- A reader of something. -/
abbrev Read (α : Type) := StateT Reader (Except Misread) α

namespace Read

/-- A fault at the current line. -/
def fail {α : Type} (reason : Text) : Read α := do
  throw ⟨(← get).line, reason⟩

/-- The last token, where others were expected. -/
def unexpected {α : Type} : Read α := do
  fail ((← get).last.display ++ " unexpected")

/-- The last token, where a certain other was expected. -/
def expecting {α : Type} (wanted : Text) : Read α := do
  fail ((← get).last.display ++ " unexpected (expecting " ++ wanted ++ ")")

/-- The last token shall be read again. -/
def putBack : Read Unit :=
  modify fun r => { r with again := true }

/-- What remains after some characters. -/
def goTo (rest : Text) : Read Unit :=
  modify fun r => { r with rest }

/-- A step inside another text. The caller says where the script goes on. -/
def within {α : Type} (text : Text) (step : Read α) : Read α := do
  let before : Reader ← get
  let names : List Text := before.active.map fun (name, _) => name
  set { before with rest := text, active := [], blocked := names ++ before.blocked }
  let found ← step
  modify fun r => { r with active := before.active, blocked := before.blocked }
  return found

/-- What remains after some characters that hold line ends. -/
def goToAfter (rest : Text) (lines : Nat) : Read Unit :=
  modify fun r => { r with rest, line := r.line + lines }

-- ======================================================================= words

/-- Where parts of a word are read. -/
inductive Mode where
  /-- Outside of quotes. -/
  | bare
  /-- Outside of quotes, up to a closing brace. -/
  | bareBrace
  /-- Between double quotes. -/
  | double
  /-- Between double quotes, up to a closing brace. -/
  | doubleBrace
  /-- In an arithmetic expression, with so many parentheses open. -/
  | sum (depth : Nat)
  /-- In a document. -/
  | document
  deriving DecidableEq, Repr

/-- Whether blanks and quotes have no meaning. -/
def Mode.isQuoting : Mode → Bool
  | .bare | .bareBrace => false
  | _ => true

/-- Characters that end a word outside of quotes. -/
def endsWord (c : Char) : Bool :=
  " \t\n&();<>|".toList.contains c

/-- A character put before parts. -/
def addPlain (c : Char) : Word → Word
  | .plain text :: rest => .plain (c :: text) :: rest
  | parts => .plain [c] :: parts

/-- A quoted character put before parts. -/
def addQuoted (c : Char) : Word → Word
  | .quoted text :: rest => .quoted (c :: text) :: rest
  | parts => .quoted [c] :: parts

/-- Whether a backslash takes the meaning of a character between double quotes. -/
def Mode.takesMeaning (mode : Mode) (c : Char) : Bool :=
  c == '\\' || c == '`' || c == '$' || (c == '"' && mode != .document)
    || (c == '}' && mode == .doubleBrace)

/-- What a text without its end lacks. -/
def Mode.atEnd (mode : Mode) : Read Word :=
  match mode with
  | .bare | .document => pure []
  | .bareBrace => fail "Missing '\x7d'"
  | .double | .doubleBrace => fail "Unterminated quoted string"
  | .sum _ => fail "Missing '))'"

/-- The text between two backquotes, the first of which is left behind, without
the backslashes that only protect it. -/
def untilBackquote (inDouble : Bool) : Text → Option (Text × Text)
  | [] => none
  | '`' :: rest => some ([], rest)
  | '\\' :: c :: rest =>
    (untilBackquote inDouble rest).map fun (inner, after) =>
      if c == '\\' || c == '`' || c == '$' || (c == '"' && inDouble) then (c :: inner, after)
      else ('\\' :: c :: inner, after)
  | c :: rest => (untilBackquote inDouble rest).map fun (inner, after) => (c :: inner, after)

/-- How a parameter is used, by the characters after its name, and what follows
them. A use with a word leaves the word to be read. -/
inductive UseSign where
  | value
  | word (make : Word → Use) (isPattern : Bool)
  | malformed

/-- The sign of a use inside braces, and what follows it. -/
def useSign : Text → UseSign × Text
  | '}' :: rest => (.value, rest)
  | ':' :: '-' :: rest => (.word (.instead true) false, rest)
  | ':' :: '=' :: rest => (.word (.assign true) false, rest)
  | ':' :: '?' :: rest => (.word (.require true) false, rest)
  | ':' :: '+' :: rest => (.word (.whenSet true) false, rest)
  | '-' :: rest => (.word (.instead false) false, rest)
  | '=' :: rest => (.word (.assign false) false, rest)
  | '?' :: rest => (.word (.require false) false, rest)
  | '+' :: rest => (.word (.whenSet false) false, rest)
  | '%' :: '%' :: rest => (.word (.without ⟨true, true⟩) true, rest)
  | '%' :: rest => (.word (.without ⟨true, false⟩) true, rest)
  | '#' :: '#' :: rest => (.word (.without ⟨false, true⟩) true, rest)
  | '#' :: rest => (.word (.without ⟨false, false⟩) true, rest)
  | rest => (.malformed, rest)

/-- The name of a parameter inside braces, and what follows it. -/
def bracedName (t : Text) : Option (Text × Text) :=
  match t with
  | [] => none
  | c :: rest =>
    if startsName c then some (t.takeWhile inName, t.dropWhile inName)
    else if c.isDigit then some (t.takeWhile Char.isDigit, t.dropWhile Char.isDigit)
    else if isSpecial c then some ([c], rest)
    else none

/-- A use whose length is asked for, and what follows it: a number sign, a
parameter and the closing brace. -/
def lengthOf? : Text → Option (Text × Text)
  | '#' :: rest =>
    match bracedName rest with
    | some (name, '}' :: after) => some (name, after)
    | _ => none
  | _ => none

/-- A parameter inside braces, the first of which is left behind. -/
def braced (parts : Mode → Read Word) (mode : Mode) : Read Part := do
  let rest := (← get).rest
  match lengthOf? rest with
  | some (name, after) =>
    goTo after
    return .parameter name .length
  | none =>
    match bracedName rest with
    | none =>
      let _ ← parts (if mode.isQuoting then .doubleBrace else .bareBrace)
      return .parameter [] .malformed
    | some (name, after) =>
      match useSign after with
      | (.value, rest) =>
        goTo rest
        return .parameter name .value
      | (.word make isPattern, rest) =>
        goTo rest
        let word ← parts (if mode.isQuoting && !isPattern then .doubleBrace else .bareBrace)
        return .parameter name (make (if mode.isQuoting then word else withHome word))
      | (.malformed, rest) =>
        goTo rest
        let _ ← parts (if mode.isQuoting then .doubleBrace else .bareBrace)
        return .parameter name .malformed

/-- A command inside a word, read from its own beginning. -/
def nested (list : Read (Option Command)) (close : Read Unit) : Read Command := do
  let before ← get
  set { before with again := false, last := .newline, awaited := [] }
  let command ← list
  close
  modify fun r => { r with again := false, last := before.last, awaited := before.awaited }
  return command.getD .nothing

/-- A command between backquotes, the first of which is left behind. -/
def backquoted (list : Read (Option Command)) (inDouble : Bool) : Read Part := do
  let before ← get
  match untilBackquote inDouble before.rest with
  | none => fail "EOF in backquote substitution"
  | some (inner, after) =>
    modify fun r => { r with line := 1 }
    let command ← within inner (nested list (pure ()))
    let lines := (before.rest.take (before.rest.length - after.length)).count '\n'
    modify fun r => { r with rest := after, line := before.line + lines }
    return .output command

/-- What a dollar sign starts; the sign is left behind. -/
def dollar (parts : Mode → Read Word) (command : Read Command) (mode : Mode) : Read Part := do
  let rest := (← get).rest
  match rest with
  | '(' :: '(' :: after =>
    goTo after
    return .sum (← parts (.sum 0))
  | '(' :: after =>
    goTo after
    return .output (← command)
  | '{' :: after =>
    goTo after
    braced parts mode
  | c :: after =>
    if startsName c then do
      goTo (rest.dropWhile inName)
      return .parameter (rest.takeWhile inName) .value
    else if isSpecial c then do
      goTo after
      return .parameter [c] .value
    else return .plain ['$']
  | [] => return .plain ['$']

/-- The parts of a word from here to its end, one more part at a time. -/
def partsStep (parts : Mode → Read Word) (command : Read Command)
    (list : Read (Option Command)) (mode : Mode) : Read Word := do
  let rest := (← get).rest
  match mode, rest with
  | mode, [] => mode.atEnd
  | mode, '\\' :: '\n' :: rest =>
    goToAfter rest 1
    parts mode
  | _, '\\' :: [] =>
    goTo []
    return addQuoted '\\' (← parts mode)
  | mode, '\\' :: c :: rest =>
    goTo rest
    let others ← parts mode
    if mode.isQuoting && !mode.takesMeaning c then
      return addQuoted '\\' (addQuoted c others)
    else return addQuoted c others
  | mode, '$' :: rest =>
    goTo rest
    let part ← dollar parts command mode
    return part :: (← parts mode)
  | mode, '`' :: rest =>
    goTo rest
    let part ← backquoted list (mode == .double || mode == .doubleBrace)
    return part :: (← parts mode)
  | .double, '"' :: rest =>
    goTo rest
    return []
  | .doubleBrace, '"' :: rest =>
    goTo rest
    parts mode
  | .doubleBrace, '}' :: rest =>
    goTo rest
    return []
  | .bareBrace, '}' :: rest =>
    goTo rest
    return []
  | .sum 0, ')' :: ')' :: rest =>
    goTo rest
    return []
  | .sum (depth + 1), ')' :: rest =>
    goTo rest
    return addPlain ')' (← parts (.sum depth))
  | .sum depth, '(' :: rest =>
    goTo rest
    return addPlain '(' (← parts (.sum (depth + 1)))
  | mode, c :: rest =>
    if !mode.isQuoting && c == '\'' then
      let inner := rest.takeWhile (· != '\'')
      match rest.dropWhile (· != '\'') with
      | [] => fail "Unterminated quoted string"
      | _ :: after =>
        goToAfter after (inner.count '\n')
        return .quoted inner :: (← parts mode)
    else if !mode.isQuoting && c == '"' then
      goTo rest
      let inner ← parts .double
      return .double inner :: (← parts mode)
    else if mode == .bare && endsWord c then return []
    else
      goToAfter rest (if c == '\n' then 1 else 0)
      return addPlain c (← parts mode)

/-- The literal text of a word. -/
def literal (word : Word) : Text :=
  word.flatMap fun
    | .plain text => text
    | .quoted text => text
    | .double parts => parts.flatMap fun
      | .plain text => text
      | .quoted text => text
      | _ => []
    | .parameter name _ => '$' :: name
    | .home user => '~' :: user
    | _ => []

/-- Whether a word holds no quotes. -/
def isBare (word : Word) : Bool :=
  word.all fun
    | .quoted _ => false
    | .double _ => false
    | _ => true

-- =================================================================== documents

/-- The lines before a certain line, and what follows that line. -/
def linesBefore (lastLine : Text) (stripTabs : Bool) (fuel : Nat) (t : Text) :
    List Text × Text :=
  match fuel, t with
  | 0, t => ([], t)
  | _, [] => ([], [])
  | fuel + 1, t =>
    let written := t.takeWhile (· != '\n')
    let line := if stripTabs then written.dropWhile (· == '\t') else written
    let ended := t.dropWhile (· != '\n')
    if line == lastLine then ([], ended.drop 1)
    else
      let (others, after) := linesBefore lastLine stripTabs fuel (ended.drop 1)
      ((line ++ ended.take 1) :: others, after)

/-- One document, read from where the script has got to. -/
def document (parts : Mode → Read Word) (wanted : Awaited) : Read Unit := do
  let before ← get
  let (lines, after) :=
    linesBefore wanted.lastLine wanted.stripTabs (before.rest.length + 1) before.rest
  let body := lines.flatten
  let read := (before.rest.take (before.rest.length - after.length)).count '\n'
  let word ←
    if wanted.expands then within body (parts .document) else pure [.quoted body]
  modify fun r =>
    { r with rest := after, line := before.line + read,
             documents := (wanted.number, word) :: r.documents }

/-- All documents that were asked for. -/
def documents (parts : Mode → Read Word) : Read Unit := do
  let wanted := (← get).awaited
  modify fun r => { r with awaited := [] }
  wanted.forM (document parts)

-- =============================================================== reading tokens

/-- The redirection that a text starts with, and what follows it. -/
def redirection? (t : Text) : Option (Token × Text) :=
  let (descriptor, t) : Option Nat × Text :=
    match t with
    | d :: rest => if d.isDigit then (some (Text.digitValue d), rest) else (none, t)
    | [] => (none, t)
  let input := descriptor.getD 0
  let output := descriptor.getD 1
  match t with
  | '<' :: '<' :: '-' :: rest => some (.toDocument input true, rest)
  | '<' :: '<' :: rest => some (.toDocument input false, rest)
  | '<' :: '&' :: rest => some (.toCopy input, rest)
  | '<' :: '>' :: rest => some (.toFile input .update, rest)
  | '<' :: rest => some (.toFile input .read, rest)
  | '>' :: '>' :: rest => some (.toFile output .append, rest)
  | '>' :: '&' :: rest => some (.toCopy output, rest)
  | '>' :: '|' :: rest => some (.toFile output .overwrite, rest)
  | '>' :: rest => some (.toFile output .write, rest)
  | _ => none

/-- What stands between tokens: blanks, line continuations and comments. The
number counts the lines passed. -/
def skipBlank : Text → Text × Nat
  | ' ' :: rest => skipBlank rest
  | '\t' :: rest => skipBlank rest
  | '\\' :: '\n' :: rest =>
    let (after, lines) := skipBlank rest
    (after, lines + 1)
  | t => (t, 0)

/-- A token and what follows it, where it is not a word. -/
def sign? (t : Text) : Option (Token × Text) :=
  match t with
  | [] => some (.finish, [])
  | '\n' :: rest => some (.newline, rest)
  | '&' :: '&' :: rest => some (.andThen, rest)
  | '&' :: rest => some (.ampersand, rest)
  | '|' :: '|' :: rest => some (.orElse, rest)
  | '|' :: rest => some (.bar, rest)
  | ';' :: ';' :: rest => some (.endOfCase, rest)
  | ';' :: rest => some (.semicolon, rest)
  | '(' :: rest => some (.opening, rest)
  | ')' :: rest => some (.closing, rest)
  | t => redirection? t

/-- Aliases that end before what remains are over; one that ends with a blank
lets the next word be an alias. -/
def leaveAliases (rest : Text) : Read Unit :=
  modify fun r =>
    let left := r.active.filter fun (_, remaining) => rest.length ≤ remaining
    let endsBlank := left.any fun (name, _) =>
      match (r.aliases.lookup name).bind List.getLast? with
      | some c => c == ' ' || c == '\t'
      | none => false
    { r with
      active := r.active.filter fun (_, remaining) => remaining < rest.length
      mayBeAlias := endsBlank }

/-- The next token, new or read again. -/
def token (parts : Mode → Read Word) : Read Token := do
  let r ← get
  if r.again then
    modify fun r => { r with again := false }
    return r.last
  else
    let (blankless, lines) := skipBlank r.rest
    let rest :=
      match blankless with
      | '#' :: comment => comment.dropWhile (· != '\n')
      | other => other
    goToAfter rest lines
    leaveAliases rest
    let found ←
      match sign? rest with
      | some (sign, after) =>
        goToAfter after (match sign with | .newline => 1 | _ => 0)
        pure sign
      | none => pure (.word (← parts .bare))
    modify fun r => { r with last := found }
    return found

/-- Newlines and the documents after them, then the next token. -/
def tokenAfterNewlines (parts : Mode → Read Word) : Nat → Read Token
  | 0 => fail "newline unexpected"
  | fuel + 1 => do
    match ← token parts with
    | .newline =>
      documents parts
      tokenAfterNewlines parts fuel
    | other => return other

/-- What a word stands for, if it is an alias that is not being put in. -/
def alias? (r : Reader) (word : Text) : Option Text :=
  if r.blocked.contains word || (r.active.lookup word).isSome then none
  else r.aliases.lookup word

/-- The next token. `newlines` passes over line ends, `keys` tells keywords from
words, and `aliases` replaces words that stand for others. -/
def nextToken (parts : Mode → Read Word) (newlines keys aliases : Bool) : Nat → Read Token
  | 0 => fail "too deep"
  | fuel + 1 => do
    let found ←
      if newlines then tokenAfterNewlines parts (← get).size else token parts
    match found with
    | .word [.plain text] =>
      if keys && keywords.contains text then
        modify fun r => { r with last := .keyword text }
        return .keyword text
      else
        let r ← get
        match if aliases || r.mayBeAlias then alias? r text else none with
        | some value =>
          set { r with rest := value ++ r.rest, active := (text, r.rest.length) :: r.active }
          nextToken parts newlines keys (aliases || r.mayBeAlias) fuel
        | none => return found
    | other => return other

/-- The next token, where words can be aliases if they can be keywords. -/
def next (parts : Mode → Read Word) (newlines keys : Bool) : Read Token := do
  nextToken parts newlines keys keys (← get).size

-- ==================================================================== commands

/-- Readers for what a command is made of. -/
structure Tools where
  parts : Mode → Read Word
  /-- The commands up to a token that cannot start one. A list may be required
  to hold a command, or to end with its line. -/
  list : (top mayBeEmpty : Bool) → Read (Option Command)
  command : Read Command
  /-- How many tokens there can be. -/
  bound : Nat

namespace Tools

/-- The next token. -/
def next (tools : Tools) (newlines keys : Bool) : Read Token :=
  Read.next tools.parts newlines keys

/-- The next token, where words are no keywords but may be aliases. -/
def nextWord (tools : Tools) (aliases : Bool) : Read Token := do
  nextToken tools.parts false false aliases (← get).size

/-- The next token after line ends, where words may be keywords but no aliases. -/
def nextKeyword (tools : Tools) : Read Token := do
  nextToken tools.parts true true false (← get).size

/-- The next token must be a certain keyword. -/
def keyword (tools : Tools) (spelling : Text) (newlines : Bool) : Read Unit := do
  let found ← tools.next newlines true
  if found.isKeyword spelling then return () else expecting ("\"" ++ spelling ++ "\"")

/-- A list of commands inside another command. -/
def body (tools : Tools) : Read Command := do
  return (← tools.list false false).getD .nothing

/-- What a redirection leads to. -/
def target (tools : Tools) (token : Token) : Read Redirection := do
  match ← tools.next false false with
  | .word word =>
    match token with
    | .toFile descriptor opening => return .file descriptor opening (withHome word)
    | .toCopy descriptor => return .copy descriptor word
    | .toDocument descriptor stripTabs =>
      let number := (← get).asked
      modify fun r =>
        { r with asked := number + 1,
                 awaited := r.awaited ++ [⟨number, literal word, stripTabs, isBare word⟩] }
      return .document descriptor number
    | _ => unexpected
  | _ => unexpected

/-- The redirections from here on. -/
def redirections (tools : Tools) : Nat → Read (List Redirection)
  | 0 => return []
  | fuel + 1 => do
    match ← tools.next false true with
    | token@(.toFile _ _) | token@(.toCopy _) | token@(.toDocument _ _) =>
      let first ← tools.target token
      return first :: (← redirections tools fuel)
    | _ =>
      putBack
      return []

/-- Builtin commands whose names no function may take. -/
def specialBuiltins : List Text :=
  [".", ":", "break", "continue", "eval", "exec", "exit", "export", "local", "readonly",
    "return", "set", "shift", "times", "trap", "unset"]

/-- A simple command under way. -/
structure Simple where
  line : Nat
  assignments : List (Text × Word)
  words : List Word
  redirections : List Redirection

/-- The command that has been read. -/
def Simple.finished (s : Simple) : Command :=
  .simple s.line s.assignments s.words s.redirections

/-- The assignment that a word is. -/
def assignment? : Word → Option (Text × Word)
  | .plain text :: rest =>
    let name := text.takeWhile inName
    match text.dropWhile inName with
    | '=' :: value =>
      if isName name then
        some (name, withHomes (if value.isEmpty then rest else .plain value :: rest))
      else none
    | _ => none
  | _ => none

/-- The body of a function after its name and parentheses. -/
def function (tools : Tools) (word : Word) : Read Command := do
  match ← tools.next false false with
  | .closing =>
    let name := literal word
    if !isBare word || !isName name || specialBuiltins.contains name then
      fail "Bad function name"
    else
      let _ ← tools.next true true
      putBack
      return .define name (← tools.command)
  | _ => expecting "\")\""

/-- A simple command from here on. -/
def simple (tools : Tools) : Nat → Simple → Read Command
  | 0, s => return s.finished
  | fuel + 1, s => do
    match ← tools.nextWord s.words.isEmpty with
    | .word word =>
      match if s.words.isEmpty then assignment? word else none with
      | some assignment =>
        simple tools fuel { s with assignments := s.assignments ++ [assignment] }
      | none => simple tools fuel { s with words := s.words ++ [withHome word] }
    | token@(.toFile _ _) | token@(.toCopy _) | token@(.toDocument _ _) =>
      let redirection ← tools.target token
      simple tools fuel { s with redirections := s.redirections ++ [redirection] }
    | .opening =>
      match s.words, s.assignments, s.redirections with
      | [word], [], [] => function tools word
      | _, _, _ =>
        putBack
        return s.finished
    | _ =>
      putBack
      return s.finished

/-- The rest of a choice, after its first keyword. -/
def choice (tools : Tools) : Nat → Read Command
  | 0 => unexpected
  | fuel + 1 => do
    let condition ← tools.body
    tools.keyword "then" false
    let body ← tools.body
    let found ← tools.next false true
    if found.isKeyword "elif" then
      return .choice condition body (some (← choice tools fuel))
    else if found.isKeyword "else" then
      return .choice condition body (some (← tools.body))
    else
      putBack
      return .choice condition body none

/-- The words up to a token that is none. -/
def words (tools : Tools) : Nat → Read (List Word)
  | 0 => return []
  | fuel + 1 => do
    match ← tools.next false false with
    | .word word => return withHome word :: (← words tools fuel)
    | _ => return []

/-- The rest of a loop over words, after its first keyword. -/
def each (tools : Tools) (line : Nat) : Read Command := do
  match ← tools.next false false with
  | .word [.plain name] =>
    if !isName name then fail "Bad for loop variable"
    else
      let found ← tools.next true true
      let words ←
        if found.isKeyword "in" then do
          let words ← tools.words tools.bound
          match (← get).last with
          | .newline | .semicolon => pure words
          | _ => unexpected
        else do
          match found with
          | .semicolon => pure ()
          | _ => putBack
          pure [[.double [.parameter ['@'] .value]]]
      tools.keyword "do" true
      return .each line name words (← tools.body)
  | _ => fail "Bad for loop variable"

/-- A token as a pattern. -/
def patternOf : Token → Word
  | .word word => withHome word
  | .keyword spelling => [.plain spelling]
  | _ => []

/-- The patterns of a case, the first of which has been read. -/
def patterns (tools : Tools) : Nat → Token → Read (List Word)
  | 0, _ => unexpected
  | fuel + 1, first => do
    match ← tools.next false false with
    | .bar =>
      let second ← tools.next false false
      return patternOf first :: (← patterns tools fuel second)
    | .closing => return [patternOf first]
    | _ => expecting "\")\""

/-- The cases from here on, up to their end. -/
def cases (tools : Tools) : Nat → Read (List (List Word × Command))
  | 0 => unexpected
  | fuel + 1 => do
    let found ← tools.nextKeyword
    if found.isKeyword "esac" then return []
    else
      let first ←
        match found with
        | .opening => tools.next false false
        | other => pure other
      let patterns ← tools.patterns tools.bound first
      let body ← tools.list false true
      let one := (patterns, body.getD .nothing)
      let ended ← tools.next true true
      if ended.isKeyword "esac" then return [one]
      else
        match ended with
        | .endOfCase => return one :: (← cases tools fuel)
        | _ => expecting "\";;\""

/-- The rest of a selection, after its first keyword. -/
def select (tools : Tools) (line : Nat) : Read Command := do
  match ← tools.next false false with
  | .word subject =>
    tools.keyword "in" true
    return .select line (withHome subject) (← tools.cases tools.bound)
  | _ => expecting "word"

/-- A command that ends with a certain token, and the redirections after it. -/
def compound (tools : Tools) (line : Nat) (body : Read Command) (ending : Token) :
    Read Command := do
  let command ← body
  let found ← tools.next false true
  let matching :=
    match ending, found with
    | .closing, .closing => true
    | .keyword wanted, .keyword spelling => wanted == spelling
    | _, _ => false
  if matching then
    match command, ← tools.redirections tools.bound with
    | command, [] => return command
    | .subshell line body _, after => return .subshell line body after
    | command, after => return .redirected line command after
  else expecting ending.display

/-- A command. -/
def commandStep (tools : Tools) : Read Command := do
  let line := (← get).line
  match ← tools.next false false with
  | .word _ | .toFile _ _ | .toCopy _ | .toDocument _ _ =>
    putBack
    tools.simple tools.bound ⟨line, [], [], []⟩
  | .opening =>
    tools.compound line (do return .subshell line (← tools.body) []) .closing
  | .keyword spelling =>
    if spelling = "if" then
      tools.compound line (tools.choice tools.bound) (.keyword "fi")
    else if spelling = "while" || spelling = "until" then
      let read : Read Command := do
        let condition ← tools.body
        tools.keyword "do" false
        return .loop (spelling = "while") condition (← tools.body)
      tools.compound line read (.keyword "done")
    else if spelling = "for" then tools.compound line (tools.each line) (.keyword "done")
    else if spelling = "case" then
      let command ← tools.select line
      match ← tools.redirections tools.bound with
      | [] => return command
      | after => return .redirected line command after
    else if spelling = "\x7b" then tools.compound line tools.body (.keyword "\x7d")
    else unexpected
  | _ => unexpected

/-- The commands after the first of a pipe. -/
def piped (tools : Tools) : Nat → Read (List Command)
  | 0 => return []
  | fuel + 1 => do
    match ← tools.next false false with
    | .bar =>
      let _ ← tools.next true true
      putBack
      let command ← tools.command
      return command :: (← piped tools fuel)
    | _ =>
      putBack
      return []

/-- A pipe, or the contrary of one. -/
def pipeline (tools : Tools) : Read Command := do
  let found ← tools.next false false
  let isNegated := found.isKeyword "!"
  if isNegated then
    let _ ← tools.next false true
    putBack
  else putBack
  let first ← tools.command
  let others ← tools.piped tools.bound
  let command : Command := if others.isEmpty then first else .pipe (first :: others)
  return if isNegated then .negated command else command

/-- Pipes that depend on those before them. -/
def dependent (tools : Tools) : Nat → Command → Read Command
  | 0, first => return first
  | fuel + 1, first => do
    match ← tools.next false false with
    | .andThen =>
      let _ ← tools.next true true
      putBack
      dependent tools fuel (.both first (← tools.pipeline))
    | .orElse =>
      let _ ← tools.next true true
      putBack
      dependent tools fuel (.either first (← tools.pipeline))
    | _ =>
      putBack
      return first

/-- The command of some that were read, if there are any. -/
def gathered : List Command → Option Command
  | [] => none
  | [command] => some command
  | commands => some (.sequence commands)

/-- The commands of a list after those read before. -/
def listStep (tools : Tools) (top mayBeEmpty : Bool) :
    Nat → List Command → Read (Option Command)
  | 0, done => return gathered done
  | fuel + 1, done => do
    match ← tools.next (!top) true with
    | .newline =>
      documents tools.parts
      return gathered done
    | .finish =>
      documents tools.parts
      modify fun r => { r with last := .finish, again := true }
      return gathered done
    | found =>
      putBack
      if !top && (mayBeEmpty || !done.isEmpty) && found.endsList then return gathered done
      else
        let command ← tools.dependent tools.bound (← tools.pipeline)
        match ← tools.next false false with
        | .ampersand => listStep tools top mayBeEmpty fuel (done ++ [.background command])
        | .semicolon => listStep tools top mayBeEmpty fuel (done ++ [command])
        | .newline | .finish =>
          putBack
          listStep tools top mayBeEmpty fuel (done ++ [command])
        | _ =>
          if top then unexpected
          else
            putBack
            return gathered (done ++ [command])

end Tools

-- ==================================================================== the knot

mutual

/-- The parts of a word, at most so deep. -/
def parts : Nat → Mode → Read Word
  | 0, _ => fail "too deep"
  | depth + 1, mode =>
    partsStep (parts depth)
      (nested (list depth false true)
        (do
          match ← next (parts depth) false true with
          | .closing => return ()
          | _ => expecting "\")\""))
      (list depth false true) mode

/-- A list of commands, at most so deep. -/
def list : Nat → Bool → Bool → Read (Option Command)
  | 0, _, _ => fail "too deep"
  | depth + 1, top, mayBeEmpty => do
    let bound := (← get).size
    Tools.listStep ⟨parts depth, list depth, command depth, bound⟩ top mayBeEmpty bound []

/-- A command, at most so deep. -/
def command : Nat → Read Command
  | 0 => fail "too deep"
  | depth + 1 => do
    let bound := (← get).size
    Tools.commandStep ⟨parts depth, list depth, command depth, bound⟩

end

end Read

/-- How deep a text can be nested. -/
def Reader.depth (r : Reader) : Nat :=
  4 * r.size

/-- Whether a script has been read to its end. -/
def Reader.isFinished (r : Reader) : Bool :=
  r.rest.isEmpty && (!r.again || r.last matches .finish)

/-- The command of the next line, if there is one, and where the script goes on. -/
def Reader.nextLine (r : Reader) : Except Misread (Option Command × Reader) :=
  (Read.list r.depth true false).run { r with again := false, mayBeAlias := false }

end ComponentPaths.Shell
