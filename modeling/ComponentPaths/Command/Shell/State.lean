/-
The state of a running script: its parameters, what its descriptors lead to,
and how it can stop.

Descriptors lead to channels by number. A copied descriptor leads to the same
channel, so that what two of them print keeps its order. Channels are only
ever added, and a subshell hands all of them back.
-/
import ComponentPaths.Command.Basic
import ComponentPaths.Command.Format
import ComponentPaths.Command.Shell.Setting
import ComponentPaths.Command.Shell.Signal
import ComponentPaths.Command.Shell.Syntax

namespace ComponentPaths.Shell

/-- What can be done with a file that is open. -/
structure Access where
  reads : Bool
  writes : Bool
  /-- Whether writing goes on at the end, whatever else happens to the file. -/
  appends : Bool
  deriving DecidableEq, Repr

/-- What a descriptor leads to. -/
inductive Channel where
  | source (source : Source)
  | sink (written : Text)
  | nowhere
  /-- A file, with where reading and writing go on. -/
  | file (place : Place) (offset : Nat) (access : Access)
  deriving DecidableEq, Repr

/-- What a function hides until it ends. -/
inductive Hidden where
  | variable (name : Text) (value : Option Text) (isExported : Bool)
  | settings (on : List Setting)
  deriving DecidableEq, Repr

/-- A command that runs in the background. -/
structure Job where
  number : Nat
  pid : Nat
  status : Nat
  /-- Whether its end is known. -/
  isDone : Bool
  deriving DecidableEq, Repr

/-- A script under way. -/
structure State where
  disk : Disk
  /-- The name of the script. -/
  name : Text
  arguments : List Text
  bindings : List (Text × Text)
  exported : List Text
  fixed : List Text
  functions : List (Text × Command)
  aliases : List (Text × Text)
  settings : List Setting
  status : Nat
  /-- The status before the action for a signal, while that runs. -/
  savedStatus : Option Nat
  /-- The status of the last command inside a word. -/
  substituted : Nat
  line : Nat
  /-- The builtin command that messages are about. -/
  running : Option Text
  descriptors : List (Nat × Nat)
  channels : List Channel
  /-- Whether a builtin command could not print. -/
  cannotPrint : Bool
  /-- The documents of all scripts read so far, by number. -/
  documents : List (Nat × Word)
  asked : Nat
  /-- Whether a failure is only looked at. -/
  isTested : Bool
  /-- How many loops are around. -/
  loops : Nat
  /-- What functions hide, for each function around. -/
  hidden : List (List Hidden)
  /-- Where programs were found. -/
  known : List (Text × Text)
  /-- The number of the process, and the next one that is free. -/
  pid : Nat
  nextPid : Nat
  /-- How many subshells are around. -/
  level : Nat
  /-- What is to be done when signals arrive, and what the shell around all
  subshells does then. -/
  traps : List (Nat × Text)
  outerTraps : List (Nat × Text)
  /-- Signals that have arrived. -/
  pending : List Nat
  /-- A signal that ends the shell around all subshells. -/
  doom : Option Nat
  jobs : List Job
  /-- The number of the last command in the background. -/
  lastPid : Option Nat
  /-- The permissions that new files do not get. -/
  mask : Nat
  /-- Where the reading of options goes on: an argument, and a place in it. -/
  optionIndex : Nat
  optionOffset : Option Nat

/-- Whether a setting is on. -/
def State.isOn (s : State) (setting : Setting) : Bool :=
  s.settings.contains setting

/-- Why a command does not go on. -/
inductive Stop where
  | exit
  /-- After a message. A builtin command that is not special only ends itself. -/
  | fault
  | killed (signal : Nat)
  /-- Out of so many loops. -/
  | leave (loops : Nat)
  /-- To the next round of the last of so many loops. -/
  | again (loops : Nat)
  | giveBack
  deriving DecidableEq, Repr

/-- A step of a script. -/
abbrev Run (α : Type) := ExceptT Stop (StateM State) α

namespace Run

/-- A step with the reason why it stopped, if it did. -/
def attempt (step : Run Unit) : Run (Option Stop) :=
  tryCatch (do step; return none) fun stop => return some stop

/-- The end of a command with a status. -/
def finish (status : Nat) : Run Unit :=
  modify fun s => { s with status }

-- ==================================================================== channels

/-- The channel that a descriptor leads to. -/
def channel? (descriptor : Nat) : Run (Option (Nat × Channel)) := do
  let s ← get
  return (s.descriptors.lookup descriptor).bind fun n => (s.channels[n]?).map fun c => (n, c)

/-- A channel replaced. -/
def setChannel (n : Nat) (channel : Channel) : Run Unit :=
  modify fun s => { s with channels := s.channels.set n channel }

/-- A descriptor that leads to a channel by number. -/
def point (descriptor n : Nat) : Run Unit :=
  modify fun s =>
    { s with descriptors := (descriptor, n) :: s.descriptors.filter (·.1 != descriptor) }

/-- A descriptor that leads nowhere any more. -/
def close (descriptor : Nat) : Run Unit :=
  modify fun s => { s with descriptors := s.descriptors.filter (·.1 != descriptor) }

/-- A descriptor that leads to a new channel, whose number is the result. -/
def open_ (descriptor : Nat) (channel : Channel) : Run Nat := do
  let n := (← get).channels.length
  modify fun s => { s with channels := s.channels ++ [channel] }
  point descriptor n
  return n

/-- Bytes with others written over them from some place on. -/
def overwritten (content new : Bytes) (offset : Nat) : Bytes :=
  content.take offset ++ List.replicate (offset - content.length) 0 ++ new
    ++ content.drop (offset + new.length)

/-- Text printed to a descriptor. What cannot be printed to the first one is
remembered. -/
def emit (descriptor : Nat) (text : Text) : Run Unit := do
  let refuse : Run Unit :=
    if descriptor == 1 && !text.isEmpty then modify fun s => { s with cannotPrint := true }
    else return ()
  match ← channel? descriptor with
  | some (n, .sink written) => setChannel n (.sink (written ++ text))
  | some (n, .file place offset access) =>
    if !access.writes then refuse
    else
      match (← get).disk.entry? place with
      | some (.file content) =>
        let new := Octets.toBytes text
        let start := if access.appends then content.length else offset
        modify fun s =>
          { s with disk := s.disk.put place (.file (overwritten content new start)) }
        setChannel n (.file place (start + new.length) access)
      | _ => return ()
  | some (_, .nowhere) => return ()
  | _ => refuse

/-- What there is to read. -/
def input : Run Source := do
  match ← channel? 0 with
  | some (_, .source source) => return source
  | some (_, .nowhere) => return .text []
  | some (_, .file place offset access) =>
    if !access.reads then return .closed
    else
      match (← get).disk.entry? place with
      | some (.file content) => return .text ((Octets.ofBytes content).drop offset)
      | _ => return .text []
  | _ => return .closed

/-- What there is still to read. -/
def setInput (left : Source) : Run Unit := do
  match ← channel? 0, left with
  | some (n, .source _), left => setChannel n (.source left)
  | some (n, .file place _ access), .text rest =>
    match (← get).disk.entry? place with
    | some (.file content) => setChannel n (.file place (content.length - rest.length) access)
    | _ => return ()
  | _, _ => return ()

-- ==================================================================== messages

/-- A message at a line. -/
def messageAt (line : Nat) (text : Text) : Run Unit := do
  let s ← get
  let about : Text :=
    match s.running with
    | some name => name ++ ": "
    | none => []
  emit 2 (s.name ++ ": " ++ Text.ofNat line ++ ": " ++ about ++ text ++ "\n")

/-- A message at the current line. -/
def message (text : Text) : Run Unit := do
  messageAt (← get).line text

/-- A message that ends the script. -/
def fatal {α : Type} (text : Text) : Run α := do
  message text
  finish 2
  throw .fault

/-- The end of the script if the last command failed and nobody looks at it. -/
def checkFailure : Run Unit := do
  let s ← get
  if s.status != 0 && s.isOn .exitsOnFailure && !s.isTested then throw .exit

/-- A step whose failure is only looked at. -/
def tested (step : Run Unit) : Run Unit := do
  let before := (← get).isTested
  modify fun s => { s with isTested := true }
  let stop ← attempt step
  modify fun s => { s with isTested := before }
  match stop with
  | some stop => throw stop
  | none => return ()

/-- Whether a trap says that a signal does nothing. -/
def ignores (trap : Nat × Text) : Bool :=
  trap.1 != 0 && trap.2.isEmpty

/-- A step with a state of its own. What it prints, what it does to the disk and
its status remain, and so do signals to the shell around it. -/
def isolated (step : Run Unit) : Run Unit := do
  let before ← get
  set { before with
    level := before.level + 1
    traps := before.traps.filter ignores
    outerTraps := if before.level = 0 then before.traps else before.outerTraps
    jobs := [] }
  let stop ← attempt step
  let after ← get
  set { before with
    channels := after.channels
    disk := { after.disk with here := before.disk.here }
    status := after.status
    documents := after.documents
    asked := after.asked
    nextPid := after.nextPid
    pending := after.pending
    doom := after.doom }
  match stop with
  | some (.killed signal) => throw (.killed signal)
  | _ =>
    match before.level, after.doom with
    | 0, some signal => throw (.killed signal)
    | _, _ => return ()

/-- The least number that no command in the background has, or one that has it
and whose end is known: that one is forgotten. -/
def takeNumber : Run Nat := do
  let jobs := (← get).jobs
  let isFree (n : Nat) : Bool := jobs.all fun job => job.number != n || job.isDone
  let number := ((List.range (jobs.length + 1)).map (· + 1)).find? isFree
  let number := number.getD (jobs.length + 1)
  modify fun s => { s with jobs := s.jobs.filter fun job => job.number != number }
  return number

/-- A step after which the descriptors lead to where they led before. -/
def restoring (step : Run Unit) : Run Unit := do
  let before := (← get).descriptors
  let stop ← attempt step
  modify fun s => { s with descriptors := before }
  match stop with
  | some stop => throw stop
  | none => return ()

-- ===================================================================== numbers

/-- A number as an argument, blanks around it included, that fits a signed half
word. -/
def number? (t : Text) : Option Nat :=
  let spaceless := Text.dropEndWhile Format.isSpace (t.dropWhile Format.isSpace)
  let digits : Text :=
    match spaceless with
    | '+' :: rest => rest
    | rest => rest
  let n := Text.natOfDigits digits
  if digits.isEmpty || !digits.all Char.isDigit || Nat.pow 2 31 ≤ n then none else some n

/-- A number as an argument of a builtin command. -/
def numberOf (t : Text) : Run Nat := do
  match number? t with
  | some n => return n
  | none => fatal ("Illegal number: " ++ t)

-- =================================================================== variables

/-- The value of a variable. -/
def lookup? (name : Text) : Run (Option Text) := do
  return (← get).bindings.lookup name

/-- A variable with a value, whether it is fixed or not. -/
def put (name value : Text) : Run Unit :=
  modify fun s => { s with bindings := (name, value) :: s.bindings.filter (·.1 != name) }

/-- A variable without a value. -/
def erase (name : Text) : Run Unit :=
  modify fun s => { s with bindings := s.bindings.filter (·.1 != name) }

/-- A variable that programs know. -/
def publish (name : Text) : Run Unit :=
  modify fun s => { s with exported := name :: s.exported.filter (· != name) }

/-- A variable that programs do not know. -/
def conceal (name : Text) : Run Unit :=
  modify fun s => { s with exported := s.exported.filter (· != name) }

/-- What else changes with the value of a variable: where programs are looked
for, and where the reading of options goes on. -/
def afterAssigning (name value : Text) : Run Unit := do
  if name = "PATH" then modify fun s => { s with known := [] }
  else if name = "OPTIND" then
    let n ← numberOf value
    modify fun s => { s with optionIndex := max n 1, optionOffset := none }

/-- A variable with a value, unless it is fixed. -/
def assign (name value : Text) : Run Unit := do
  if (← get).fixed.contains name then fatal (name ++ ": is read only")
  else
    put name value
    if (← get).isOn .exportsAll then publish name
    afterAssigning name value

/-- What was hidden, as it was. -/
def reveal : Hidden → Run Unit
  | .settings on => modify fun s => { s with settings := on }
  | .variable name value isExported => do
    match value with
    | some value => put name value
    | none => erase name
    if isExported then publish name else conceal name
    if name = "PATH" then modify fun s => { s with known := [] }

/-- A variable as it is, to be revealed later. -/
def remember (name : Text) : Run Hidden := do
  let s ← get
  return .variable name (s.bindings.lookup name) (s.exported.contains name)

/-- The value of a parameter other than the list of all arguments. -/
def parameter? (name : Text) : Run (Option Text) := do
  let s ← get
  match name with
  | ['#'] => return some (Text.ofNat s.arguments.length)
  | ['?'] => return some (Text.ofNat s.status)
  | ['-'] => return some (Setting.letters s.settings)
  | ['$'] => return some (Text.ofNat s.pid)
  | ['!'] => return s.lastPid.map Text.ofNat
  | _ =>
    if name.all Char.isDigit then
      match Text.natOfDigits name with
      | 0 => return some s.name
      | n + 1 => return s.arguments[n]?
    else lookup? name

-- ===================================================================== signals

/-- The end of the shell around all subshells, which comes when they are left. -/
def endBy (signal : Nat) : Run Unit := do
  if (← get).level = 0 then throw (.killed signal)
  else modify fun s => { s with doom := some signal }

/-- A signal to the shell around all subshells. One of them cannot be caught. -/
def deliver (signal : Nat) : Run Unit := do
  let s ← get
  match (if s.level = 0 then s.traps else s.outerTraps).lookup signal, signal with
  | _, 9 => endBy signal
  | some [], _ => return ()
  | some _, _ => modify fun s => { s with pending := s.pending ++ [signal] }
  | none, _ => if Signal.isHarmless signal then return () else endBy signal

end Run

end ComponentPaths.Shell
