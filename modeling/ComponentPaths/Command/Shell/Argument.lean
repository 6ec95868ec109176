/-
What builtin commands make of their arguments: options and operands, values in
quotes, and the settings of a script.
-/
import ComponentPaths.Command.Shell.State

namespace ComponentPaths.Shell

open Run

-- ===================================================================== options

/-- The options of a command: their letters, and whether they take a value. -/
abbrev Allowed := List (Char × Bool)

/-- Letters of options in one argument, the first of which follows a dash, and
what is left of the arguments. An option with a value takes the rest of its
argument or the next one. -/
def readLetters (allowed : Allowed) : Text → List Text → Run (List (Char × Text) × List Text)
  | [], rest => return ([], rest)
  | letter :: letters, rest =>
    match allowed.lookup letter with
    | none => fatal ("Illegal option -" ++ [letter])
    | some false => do
      let (others, rest) ← readLetters allowed letters rest
      return ((letter, []) :: others, rest)
    | some true =>
      match letters, rest with
      | [], [] => fatal ("No arg for -" ++ letter :: " option")
      | [], value :: rest => return ([(letter, value)], rest)
      | value, rest => return ([(letter, value)], rest)

/-- Options at the start of the arguments, at most so many arguments, and the
operands. -/
def readOptionsIn (allowed : Allowed) : Nat → List Text → Run (List (Char × Text) × List Text)
  | 0, rest => return ([], rest)
  | _, [] => return ([], [])
  | _, ['-', '-'] :: rest => return ([], rest)
  | fuel + 1, ('-' :: letter :: letters) :: rest => do
    let (found, rest) ← readLetters allowed (letter :: letters) rest
    let (others, operands) ← readOptionsIn allowed fuel rest
    return (found ++ others, operands)
  | _, operands => return ([], operands)

/-- Options at the start of the arguments, and the operands. -/
def readOptions (allowed : Text) (arguments : List Text) : Run (Text × List Text) := do
  let (found, operands) ←
    readOptionsIn (allowed.map fun c => (c, false)) arguments.length arguments
  return (found.map (·.1), operands)

/-- The end of a builtin command that is not special, with a message. -/
def complain (text : Text) (status : Nat) : Run Unit := do
  message text
  finish status

-- ====================================================================== quotes

/-- The inside of single quotes up to the end of a text, and after single quotes
inside it, which stand between double quotes. -/
def quotedFrom (fuel : Nat) (t : Text) : Text :=
  match fuel with
  | 0 => []
  | fuel + 1 =>
    let plain := t.takeWhile (· != '\'')
    let after := t.drop plain.length
    let quotes := after.takeWhile (· == '\'')
    let rest := after.drop quotes.length
    '\'' :: plain ++ ['\''] ++
      (if quotes.isEmpty then []
        else '"' :: quotes ++ ['"'] ++ (if rest.isEmpty then [] else quotedFrom fuel rest))

/-- A text in quotes, as a script can read it. -/
def inQuotes (t : Text) : Text :=
  quotedFrom (t.length + 1) t

/-- An argument that may be an assignment. -/
def splitAssignment (t : Text) : Text × Option Text :=
  match t.dropWhile (· != '=') with
  | _ :: value => (t.takeWhile (· != '='), some value)
  | [] => (t, none)

/-- Variables in order, each after a word. -/
def showVariables (word : Text) (names : List Text) : Run Unit := do
  let s ← get
  emit 1 ((Text.sort names).flatMap fun name =>
    let value : Text :=
      match s.bindings.lookup name with
      | some value => '=' :: inQuotes value
      | none => []
    (if word.isEmpty then [] else word ++ [' ']) ++ name ++ value ++ "\n")

-- ==================================================================== settings

/-- A setting turned on or off. Jobs cannot be controlled without a terminal. -/
def turnSetting (setting : Setting) (value : Bool) : Run Unit := do
  if setting == .controlsJobs && value then message "can't access tty; job control turned off"
  else modify fun s => { s with settings := Setting.turn s.settings setting value }

/-- The setting of a name, or all settings where there is none. -/
def setNamed (value : Bool) (name : Option Text) : Run Unit := do
  match name with
  | none =>
    let on := (← get).settings
    emit 1 (if value then Setting.listing on else Setting.commands on)
  | some name =>
    match Setting.ofName? name with
    | some setting => turnSetting setting value
    | none => fatal ("Illegal option -o " ++ name)

/-- Letters of one argument that turn settings on or off, and the arguments
left, of which a letter may take one. `skipped` are letters of the caller. -/
def setLetters (skipped : Text) (value : Bool) : Text → List Text → Run (List Text)
  | [], rest => return rest
  | 'o' :: letters, rest => do
    setNamed value rest.head?
    setLetters skipped value letters rest.tail
  | letter :: letters, rest => do
    if !skipped.contains letter then
      match Setting.ofLetter? letter with
      | some setting => turnSetting setting value
      | none => fatal ("Illegal option -" ++ [letter])
    setLetters skipped value letters rest

/-- The arguments of `set`, at most so many: settings, then new arguments. -/
def setAll : Nat → List Text → Run Unit
  | 0, _ => return ()
  | _, [] => return ()
  | _, ['-', '-'] :: rest => modify fun s => { s with arguments := rest }
  | _, ['-'] :: rest => do
    modify fun s =>
      { s with settings := s.settings.filter fun x => x != .traces && x != .shows }
    if !rest.isEmpty then modify fun s => { s with arguments := rest }
  | fuel + 1, ('-' :: letters) :: rest => do
    setAll fuel (← setLetters [] true letters rest)
  | fuel + 1, ('+' :: letters) :: rest => do
    setAll fuel (← setLetters [] false letters rest)
  | _, arguments => modify fun s => { s with arguments }

/-- The command that turns settings on and off and replaces the arguments. -/
def setCommand (arguments : List Text) : Run Unit := do
  if arguments.isEmpty then showVariables [] ((← get).bindings.map (·.1))
  else setAll (arguments.length + 1) arguments
  finish 0

end ComponentPaths.Shell
