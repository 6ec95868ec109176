/-
Builtin commands: those that a script carries out itself.

A fault in a special one ends the script, a fault in any other only the
command.
-/
import ComponentPaths.Command.Condition
import ComponentPaths.Command.Shell.Expansion
import ComponentPaths.Command.Shell.Lookup

namespace ComponentPaths.Shell

open Run

-- ======================================================================= files

/-- Why a file cannot be opened, in the words of a script. -/
def openFault (creating : Bool) : OsError → Text
  | .noEntry | .notDirectory => if creating then "Directory nonexistent" else "No such file"
  | error => error.text

/-- The text of a script on disk. -/
def scriptText (path : Text) : Run (Except Text Text) := do
  match (← get).disk.stat (Octets.toText path) with
  | .ok (.file content) => return .ok (Octets.ofBytes content)
  | .ok .directory => return .ok []
  | .error error =>
    return .error ("cannot open " ++ path ++ ": " ++ openFault false error)

-- =================================================================== variables

/-- Arguments that may be assignments, each followed by a step for its name. -/
def declare (step : Text → Run Unit) (arguments : List Text) : Run Unit := do
  arguments.forM fun argument => do
    let (name, value) := splitAssignment argument
    if !isName name then fatal (name ++ ": bad variable name")
    match value with
    | some value => assign name value
    | none => pure ()
    step name
  finish 0

/-- A command that declares variables, or shows those that were declared. -/
def declareOrShow (word : Text) (declared : State → List Text) (step : Text → Run Unit)
    (arguments : List Text) : Run Unit := do
  let (letters, names) ← readOptions "p" arguments
  if letters.isEmpty && !names.isEmpty then declare step names
  else
    showVariables word (declared (← get))
    finish 0

/-- A local variable, or local settings, which hide those around. -/
def hide (argument : Text) : Run Unit := do
  let hidden ←
    if argument = "-" then pure (Hidden.settings (← get).settings)
    else remember (splitAssignment argument).1
  modify fun s =>
    match s.hidden with
    | frame :: others => { s with hidden := (frame ++ [hidden]) :: others }
    | [] => s

/-- Local variables. -/
def declareLocal (arguments : List Text) : Run Unit := do
  if (← get).hidden.isEmpty then fatal "not in a function"
  arguments.forM fun argument => do
    if argument = "-" then hide argument
    else
      if isName (splitAssignment argument).1 then hide argument
      declare (fun _ => return ()) [argument]
  finish 0

/-- Variables or functions that are forgotten. -/
def unset (arguments : List Text) : Run Unit := do
  let (letters, names) ← readOptions "fv" arguments
  names.forM fun name => do
    if letters.getLast? == some 'f' then
      modify fun s => { s with functions := s.functions.filter (·.1 != name) }
    else if !isName name then fatal (name ++ ": bad variable name")
    else if (← get).fixed.contains name then fatal (name ++ ": is read only")
    else
      erase name
      conceal name
      if name = "PATH" then modify fun s => { s with known := [] }
      else if name = "OPTIND" then
        modify fun s => { s with optionIndex := 1, optionOffset := none }
  finish 0

-- ===================================================================== reading

/-- A line read from the input: its characters, with those that a backslash
protects marked, what follows, and whether the line had an end. -/
def inputLine (isRaw : Bool) : Text → List Glyph × Text × Bool
  | [] => ([], [], false)
  | '\n' :: rest => ([], rest, true)
  | '\x00' :: rest => inputLine isRaw rest
  | '\\' :: '\n' :: rest =>
    if isRaw then ([⟨'\\', false⟩], rest, true) else inputLine isRaw rest
  | '\\' :: c :: rest =>
    let (others, left, ended) := inputLine isRaw rest
    if isRaw then (⟨'\\', false⟩ :: ⟨c, false⟩ :: others, left, ended)
    else (⟨c, true⟩ :: others, left, ended)
  | c :: rest =>
    let (others, left, ended) := inputLine isRaw rest
    (if c == '\\' && !isRaw then others else ⟨c, false⟩ :: others, left, ended)

/-- A line being divided among variables: the values so far, last first, the
present one, reversed, how many variables are left, whether blanks have just
ended a value, and how much of the last value is kept. -/
structure Dividing where
  values : List Text
  current : Text
  left : Nat
  afterBlank : Bool
  kept : Option Nat
  deriving DecidableEq, Repr

namespace Dividing

/-- One more character for the last variable, which keeps separators but not
those at its end. -/
def extend (d : Dividing) (c : Char) (separates isBlank : Bool) : Dividing :=
  let d' := { d with current := c :: d.current }
  if isBlank then { d' with kept := some (d.kept.getD d.current.length) }
  else
    { d' with
      kept := if separates && d.afterBlank then d.kept else none
      afterBlank := false }

/-- One more character. -/
def step (separators : Text) (d : Dividing) (g : Glyph) : Dividing :=
  let separates := separators.contains g.char
  let isBlank := separates && (g.char == ' ' || g.char == '\t' || g.char == '\n')
  if g.isQuoted then { d with current := g.char :: d.current, afterBlank := false }
  else if d.left == 0 then d.extend g.char separates isBlank
  else if d.afterBlank && separates then
    { d with current := [], afterBlank := isBlank }
  else if separates then
    if d.current.isEmpty && isBlank then d
    else if d.left == 1 then
      { d with
        left := 0
        kept := some d.current.length
        current := g.char :: d.current
        afterBlank := isBlank }
    else
      { d with
        values := d.current.reverse :: d.values
        current := []
        left := d.left - 1
        afterBlank := isBlank }
  else { d with current := g.char :: d.current, afterBlank := false }

/-- The values of a line that has been divided. -/
def finished (d : Dividing) : List Text :=
  let last := d.current.reverse
  let shown := match d.kept with | some n => last.take n | none => last
  (if shown.isEmpty then d.values else shown :: d.values).reverse

end Dividing

/-- A line divided among so many variables. -/
def divide (separators : Text) (count : Nat) (line : List Glyph) : List Text :=
  (line.foldl (Dividing.step separators) ⟨[], [], count, false, none⟩).finished

/-- Values for variables; those without one become empty. -/
def assignValues : List Text → List Text → Run Unit
  | [], _ => return ()
  | name :: names, values => do
    if !isName name then fatal (name ++ ": bad variable name")
    assign name (values.headD [])
    assignValues names values.tail

/-- The command that reads a line into variables. -/
def readLine (arguments : List Text) : Run Unit := do
  let (found, names) ← readOptionsIn [('p', true), ('r', false)] arguments.length arguments
  let isRaw := (found.map (·.1)).contains 'r'
  if names.isEmpty then fatal "arg count"
  else
    let text : Text :=
      match ← input with
      | .text rest => rest
      | _ => []
    let (line, left, ended) := inputLine isRaw text
    match ← input with
    | .text _ => setInput (.text left)
    | _ => pure ()
    let separators := (← lookup? "IFS").getD " \t\n"
    assignValues names (divide separators names.length line)
    finish (if ended then 0 else 1)

-- ===================================================================== options

/-- The next option letter, the rest of its argument, and the number of the
argument after it. -/
def nextLetter (arguments : List Text) (index : Nat) (offset : Option Nat) :
    Except Nat (Char × Text × Nat) :=
  let present : Text :=
    match offset with
    | some n => if 1 < index then (arguments.getD (index - 2) []).drop n else []
    | none => []
  match present with
  | letter :: rest => .ok (letter, rest, index)
  | [] =>
    match arguments[index - 1]? with
    | some ['-', '-'] => .error (index + 1)
    | some ('-' :: letter :: rest) => .ok (letter, rest, index + 1)
    | _ => .error index

/-- Whether an option is one of a description, and whether it takes a value. -/
def optionKind (letter : Char) : Text → Option Bool
  | [] => none
  | c :: ':' :: rest => if c == letter then some true else optionKind letter rest
  | c :: rest => if c == letter then some false else optionKind letter rest

/-- The command that reads one more option of the arguments into a variable. -/
def getOption (arguments : List Text) : Run Unit := do
  let (_, operands) ← readOptions [] arguments
  match operands with
  | description :: target :: own =>
    let s ← get
    let all := if own.isEmpty then s.arguments else own
    let isOver := all.length + 1 < s.optionIndex
    let index := if isOver then 1 else s.optionIndex
    let offset := if isOver then none else s.optionOffset
    let isSilent := description.head? == some ':'
    let stop (index : Nat) (letter : Char) (rest : Text) (status : Nat) : Run Unit := do
      put "OPTIND" (Text.ofNat index)
      if !isName target then fatal (target ++ ": bad variable name")
      assign target [letter]
      let written := all.getD (index - 2) []
      modify fun s =>
        { s with
          optionIndex := index
          optionOffset := if rest.isEmpty then none else some (written.length - rest.length) }
      finish status
    match nextLetter all index offset with
    | .error index => stop index '?' [] 1
    | .ok (letter, rest, index) =>
      match optionKind letter description with
      | none =>
        if isSilent then assign "OPTARG" [letter]
        else
          emit 2 ("Illegal option -" ++ letter :: "\n")
          erase "OPTARG"
        stop index '?' rest 0
      | some false =>
        assign "OPTARG" []
        stop index letter rest 0
      | some true =>
        match rest, all[index - 1]? with
        | [], none =>
          if isSilent then
            assign "OPTARG" [letter]
            stop index ':' [] 0
          else
            emit 2 ("No arg for -" ++ letter :: " option\n")
            erase "OPTARG"
            stop index '?' [] 0
        | [], some value =>
          assign "OPTARG" value
          stop (index + 1) letter [] 0
        | value, _ =>
          assign "OPTARG" value
          stop index letter [] 0
  | _ => fatal "Usage: getopts optstring var [arg...]"

-- ================================================================= directories

/-- The name of the directory that a script is in. -/
def hereName : Run Text := do
  return '/' :: Text.joinSlash ((← get).disk.here.map Octets.ofText)

/-- Whether a directory is not looked for in others. -/
def isDirect (target : Text) : Bool :=
  match target with
  | '/' :: _ => true
  | ['.'] | '.' :: '/' :: _ | ['.', '.'] | '.' :: '.' :: '/' :: _ => true
  | _ => false

/-- The path names that a directory may be meant by, and whether each is to be
shown. -/
def directoryNames (target : Text) : Run (List (Text × Bool)) := do
  if isDirect target then return [(target, false)]
  else
    let target : Text := if target.isEmpty then "." else target
    let around := splitColons ((← lookup? "CDPATH").getD [])
    return around.map (fun dir : Text =>
      if dir.isEmpty then (target, false) else (dir ++ '/' :: target, true)) ++ [(target, false)]

/-- Another directory to start from. -/
def changeDirectory (arguments : List Text) : Run Unit := do
  let (_, operands) ← readOptions "LP" arguments
  let s ← get
  let old ← hereName
  let target ←
    match operands with
    | [] => pure ((← lookup? "HOME").getD [])
    | ['-'] :: _ => pure ((← lookup? "OLDPWD").getD [])
    | target :: _ => pure target
  let names ← directoryNames target
  let found : Option (Place × Bool) := names.findSome? fun (path, isShown) =>
    if s.disk.isDir (Octets.toText path) then
      (s.disk.locate (Octets.toText path)).toOption.map fun place => (place, isShown)
    else none
  match found with
  | some (place, isShown) =>
    modify fun s => { s with disk := { s.disk with here := place } }
    let new ← hereName
    put "OLDPWD" old
    publish "OLDPWD"
    put "PWD" new
    publish "PWD"
    if isShown || operands.head? == some ['-'] then emit 1 (new ++ "\n")
    finish 0
  | none => fatal ("can't cd to " ++ (if target.isEmpty then ['.'] else target))

/-- The name of the present directory, printed. -/
def showDirectory (arguments : List Text) : Run Unit := do
  let _ ← readOptions "LP" arguments
  emit 1 ((← hereName) ++ "\n")
  finish 0

-- ======================================================================= masks

/-- Permissions by their letters. -/
def permission? (c : Char) : Option Nat :=
  match c with
  | 'r' => some 4
  | 'w' => some 2
  | 'x' => some 1
  | 's' | 't' | 'X' => some 0
  | _ => none

/-- The letters of one set of permissions. -/
def permissionLetters (n : Nat) : Text :=
  (if n / 4 % 2 == 1 then ['r'] else []) ++ (if n / 2 % 2 == 1 then ['w'] else [])
    ++ (if n % 2 == 1 then ['x'] else [])

/-- One change of permissions, for those of some users. The allowed ones are
three octal digits. -/
def changePermissions (units : List Nat) (sign : Char) (permissions allowed : Nat) : Nat :=
  units.foldl
    (fun allowed unit =>
      let old := allowed / unit % 8
      let new :=
        match sign with
        | '+' => Nat.lor old permissions
        | '-' => old - Nat.land old permissions
        | _ => permissions
      allowed - old * unit + new * unit)
    allowed

/-- Signs and letters after the users of a clause, at most so many. -/
def readActions (units : List Nat) : Nat → Text → Nat → Option Nat
  | 0, _, _ => none
  | _, [], allowed => some allowed
  | fuel + 1, sign :: rest, allowed =>
    if sign == '+' || sign == '-' || sign == '=' then
      let letters := rest.takeWhile fun c => (permission? c).isSome
      let permissions := letters.foldl (fun n c => Nat.lor n ((permission? c).getD 0)) 0
      readActions units fuel (rest.drop letters.length)
        (changePermissions units sign permissions allowed)
    else none

/-- Clauses with commas between them. -/
def readClauses : List Text → Nat → Option Nat
  | [], allowed => some allowed
  | clause :: rest, allowed => do
    let users := clause.takeWhile fun c => "ugoa".toList.contains c
    let actions := clause.drop users.length
    let all := users.isEmpty || users.contains 'a'
    let units := (if all || users.contains 'u' then [64] else [])
      ++ (if all || users.contains 'g' then [8] else [])
      ++ (if all || users.contains 'o' then [1] else [])
    if actions.isEmpty then none
    else readClauses rest (← readActions units (actions.length + 1) actions allowed)

/-- A text cut at its commas. -/
def splitCommas (t : Text) : List Text :=
  splitColons (t.map fun c => if c == ',' then ':' else if c == ':' then ',' else c)

/-- The command for the permissions that new files do not get. -/
def umask (arguments : List Text) : Run Unit := do
  let (letters, operands) ← readOptions "S" arguments
  let mask := (← get).mask
  match operands with
  | [] =>
    let octal := Nat.toDigits 8 mask
    let allowed := 511 - mask
    emit 1 (
      if letters.isEmpty then List.replicate (4 - octal.length) '0' ++ octal ++ "\n"
      else "u=" ++ permissionLetters (allowed / 64) ++ ",g=" ++ permissionLetters (allowed / 8 % 8)
        ++ ",o=" ++ permissionLetters (allowed % 8) ++ "\n")
    finish 0
  | written :: _ =>
    if (written.headD ' ').isDigit then
      if !written.all Format.isOctal then fatal ("Illegal number: " ++ written)
      else
        let mask := (Format.digits 8 written).1 % 512
        modify fun s => { s with mask }
        finish 0
    else
      match readClauses (splitCommas written) (511 - mask) with
      | some allowed =>
        modify fun s => { s with mask := 511 - allowed }
        finish 0
      | none => fatal ("Illegal mode: " ++ written)

/-- Limits, by their letters. The values are those of a machine that sets none. -/
def limits : List (Char × Text) :=
  [('t', "unlimited"), ('f', "unlimited"), ('d', "unlimited"), ('s', "8192"), ('c', "0"),
    ('m', "unlimited"), ('l', "8192"), ('p', "unlimited"), ('n', "1024"), ('v', "unlimited"),
    ('w', "unlimited"), ('r', "0")]

/-- The command for limits. -/
def ulimit (arguments : List Text) : Run Unit := do
  let (letters, operands) ← readOptions "HSatfdscmlpnvwr" arguments
  let kinds := letters.filter fun c => c != 'H' && c != 'S' && c != 'a'
  match operands with
  | [] =>
    emit 1 ((limits.lookup (kinds.getLastD 'f')).getD [] ++ "\n")
    finish 0
  | [value] =>
    if value = "unlimited" || value.all Char.isDigit then finish 0 else fatal "bad number"
  | _ => fatal "too many arguments"

-- ===================================================================== signals

/-- How signals are sent. -/
def killUsage : Text :=
  "Usage: kill [-s sigspec | -signum | -sigspec] [pid | job]... or\nkill -l [exitstatus]"

/-- A signal to a process. A command in the background ends by it. -/
def signalTo (signal : Nat) (target : Text) : Run Unit := do
  let s ← get
  let refuse : Run Unit := do
    message "No such process\n"
    finish 1
  match target with
  | '%' :: _ =>
    if s.jobs.isEmpty then fatal ("No such job: " ++ target) else refuse
  | '-' :: group =>
    let _ ← numberOf group
    refuse
  | _ =>
    let n ← numberOf target
    if n == s.pid || n == 0 then if signal == 0 then pure () else deliver signal
    else if s.jobs.any fun job => job.pid == n && !job.isDone then
      modify fun s =>
        { s with
          jobs := s.jobs.map fun job =>
            if job.pid == n && signal != 0 then { job with status := 128 + signal } else job }
    else refuse

/-- The names of signals, printed. -/
def showSignals (operands : List Text) : Run Unit := do
  match operands with
  | [] =>
    emit 1 ("0\n" ++ Signal.names.tail.flatMap fun name : Text => name ++ ['\n'])
    finish 0
  | written :: _ =>
    let n ← numberOf written
    let signal := if 128 < n then n - 128 else n
    if 0 < signal && signal < Signal.names.length then
      emit 1 (Signal.name signal ++ "\n")
      finish 0
    else fatal ("invalid signal number or exit status: " ++ written)

/-- The command that sends signals. -/
def kill (arguments : List Text) : Run Unit := do
  let send (signal : Nat) (targets : List Text) : Run Unit := do
    if targets.isEmpty then fatal killUsage
    finish 0
    targets.forM (signalTo signal)
  match arguments with
  | [] => fatal killUsage
  | ('-' :: written) :: rest =>
    match if written.isEmpty then none else Signal.number? written with
    | some signal => send signal rest
    | none =>
      let (found, operands) ←
        readOptionsIn [('l', false), ('s', true)] arguments.length arguments
      if (found.map (·.1)).contains 'l' then showSignals operands
      else
        match found.getLast? with
        | some (_, name) =>
          match Signal.number? name with
          | some signal => send signal operands
          | none => fatal ("invalid signal number or name: " ++ name)
        | none => send 15 operands
  | targets => send 15 targets

/-- What is to be done when signals arrive, printed. -/
def showTraps : Run Unit := do
  let traps := (← get).traps
  emit 1 ((List.range Signal.names.length).flatMap fun signal : Nat =>
    match traps.lookup signal with
    | some action =>
      ("trap -- " : Text) ++ inQuotes action ++ ' ' :: Signal.name signal ++ "\n"
    | none => [])
  finish 0

/-- What is to be done when some signals arrive; the first that there is not
ends the command. -/
def setTraps (action : Option Text) : List Text → Run Unit
  | [] => finish 0
  | written :: rest => do
    match Signal.number? written with
    | none =>
      emit 2 ("trap: " ++ written ++ ": bad trap\n")
      finish 1
    | some signal =>
      let others := (← get).traps.filter (·.1 != signal)
      modify fun s =>
        { s with traps := (action.map fun text => (signal, text)).toList ++ others }
      setTraps action rest

/-- The command that says what is to be done when signals arrive. -/
def trap (arguments : List Text) : Run Unit := do
  let (_, operands) ← readOptions [] arguments
  match operands with
  | [] => showTraps
  | [signal] => setTraps none [signal]
  | action :: signals =>
    if !action.isEmpty && action.all Char.isDigit then setTraps none operands
    else if action = "-" then setTraps none signals
    else setTraps (some action) signals

-- ======================================================================== jobs

/-- The end of a command in the background. -/
def awaitJob (job : Job) : Run Unit := do
  if !job.isDone && 128 < job.status then emit 2 (Signal.ending (job.status - 128))
  modify fun s =>
    { s with jobs := s.jobs.map fun j => if j.pid == job.pid then { j with isDone := true } else j }
  finish job.status

/-- The command that waits for others. -/
def wait (arguments : List Text) : Run Unit := do
  let (_, operands) ← readOptions [] arguments
  if operands.isEmpty then
    (← get).jobs.forM awaitJob
    finish 0
  else
    operands.forM fun operand => do
      let jobs := (← get).jobs
      match operand with
      | '%' :: written =>
        match (number? written).bind fun n => jobs.find? (·.number == n) with
        | some job => awaitJob job
        | none => fatal ("No such job: " ++ operand)
      | _ =>
        let n ← numberOf operand
        match jobs.find? (·.pid == n) with
        | some job => awaitJob job
        | none => finish 127

/-- One command in the background, in words. -/
def jobLine (mark : Char) (job : Job) : Text :=
  let words : Text :=
    if !job.isDone then "Running"
    else if job.status == 0 then "Done"
    else "Done(" ++ Text.ofNat job.status ++ ")"
  ['['] ++ Text.ofNat job.number ++ "] " ++ mark :: ' ' :: words
    ++ List.replicate (27 - words.length) ' ' ++ "\n"

/-- Commands in the background, the last one first. -/
def showJobs (arguments : List Text) : Run Unit := do
  let _ ← readOptions "lp" arguments
  let jobs := (← get).jobs
  let marks : Text := ['+', '-']
  emit 1 (((List.range jobs.length).zip jobs).flatMap fun (n, job) =>
    jobLine (marks.getD n ' ') job)
  modify fun s => { s with jobs := s.jobs.filter fun job => !job.isDone }
  finish 0

/-- A job to be continued; there is none without control of jobs. -/
def continueJob (_ : List Text) : Run Unit := do
  match (← get).jobs with
  | [] => fatal "No current job"
  | job :: _ => fatal ("job " ++ Text.ofNat job.number ++ " not created under job control")

-- ======================================================================== ends

/-- How many loops a command is about. -/
def loopCount (arguments : List Text) : Run Nat := do
  let n ←
    match arguments with
    | [] => pure 1
    | count :: _ => numberOf count
  if n = 0 then fatal ("Illegal number: " ++ arguments.headD []) else return n

/-- The end of a script. Inside an action for a signal, the status before it
counts. -/
def exit (arguments : List Text) : Run Unit := do
  match arguments with
  | written :: _ => finish ((← numberOf written) % 256)
  | [] =>
    match (← get).savedStatus with
    | some status => finish status
    | none => pure ()
  throw .exit

/-- The end of a function or of a script that another one reads. -/
def giveBack (arguments : List Text) : Run Unit := do
  match arguments with
  | written :: _ => finish (← numberOf written)
  | [] => pure ()
  throw .giveBack

/-- Arguments dropped from the front. -/
def shift (arguments : List Text) : Run Unit := do
  let n ←
    match arguments with
    | [] => pure 1
    | count :: _ => numberOf count
  if (← get).arguments.length < n then fatal "can't shift that many"
  else
    modify fun s =>
      { s with arguments := s.arguments.drop n, optionIndex := 1, optionOffset := none }
    finish 0

-- =================================================================== the table

/-- A condition as a builtin command. -/
def decideCondition (holds : Except Text Bool) : Run Unit :=
  match holds with
  | .ok true => finish 0
  | .ok false => finish 1
  | .error text => complain text 2

/-- How a script prints a format. -/
def dialect : Format.Dialect where
  fineness := .double
  leading := 1
  flags := "#-+ 0"
  lengths := []
  noNumber t := t ++ ": expected numeric value"
  notAll t := t ++ ": not completely converted"
  outOfRange t := t ++ ": Numerical result out of range"
  noDirective t := t ++ ": invalid directive"
  noLetter _ := "missing format character"
  isRich := false

/-- A format as a builtin command. -/
def printFormat (arguments : List Text) : Run Unit := do
  let (_, operands) ← readOptions [] arguments
  match operands with
  | [] => fatal "usage: printf format [arg ...]"
  | format :: args =>
    let printed := Format.print dialect format args
    let complaints := printed.text .errors
    complaints.forM message
    printed.fault.toList.forM message
    emit 1 (printed.text .output).flatten
    finish (if printed.fault.isSome then 2 else if complaints.isEmpty then 0 else 1)

/-- Builtin commands that end something. -/
def endings : List (Text × (List Text → Run Unit)) :=
  [("exit", exit), ("return", giveBack),
    ("break", fun arguments => do
      let n ← loopCount arguments
      finish 0
      let loops := (← get).loops
      if 0 < loops then throw (.leave (min n loops))),
    ("continue", fun arguments => do
      let n ← loopCount arguments
      finish 0
      let loops := (← get).loops
      if 0 < loops then throw (.again (min n loops)))]

/-- Builtin commands about variables, arguments and settings. -/
def settlings : List (Text × (List Text → Run Unit)) :=
  [("set", setCommand), ("unset", unset), ("shift", shift), ("local", declareLocal),
    ("export", declareOrShow "export" State.exported publish),
    ("readonly", declareOrShow "readonly" State.fixed fun name =>
      modify fun s => { s with fixed := name :: s.fixed.filter (· != name) }),
    ("getopts", getOption), ("read", readLine), ("alias", aliasCommand), ("unalias", unalias)]

/-- Builtin commands that print or decide something. -/
def sayings : List (Text × (List Text → Run Unit)) :=
  [(":", fun _ => finish 0), ("true", fun _ => finish 0), ("false", fun _ => finish 1),
    ("echo", fun arguments => do
      emit 1 (Format.echo arguments)
      finish 0),
    ("printf", printFormat),
    ("test", fun arguments => do decideCondition (Condition.test (← get).disk arguments)),
    ("[", fun arguments => do decideCondition (Condition.bracket (← get).disk arguments)),
    ("pwd", showDirectory), ("type", showType), ("command", showCommand), ("hash", hash),
    ("times", fun _ => do
      emit 1 "0m0.000000s 0m0.000000s\n0m0.000000s 0m0.000000s\n"
      finish 0)]

/-- Builtin commands about processes and directories. -/
def doings : List (Text × (List Text → Run Unit)) :=
  [("cd", changeDirectory), ("chdir", changeDirectory), ("umask", umask), ("ulimit", ulimit),
    ("kill", kill), ("trap", trap), ("wait", wait), ("jobs", showJobs), ("bg", continueJob),
    ("fg", continueJob)]

/-- A builtin command that needs no other command to be run. -/
def builtin? (name : Text) : Option (List Text → Run Unit) :=
  (endings ++ settlings ++ sayings ++ doings).lookup name

end ComponentPaths.Shell
