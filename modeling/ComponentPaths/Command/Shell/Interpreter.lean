/-
Running scripts: what every command does to the state of a script.

One step of the interpreter runs a command with the help of a function that
runs the commands inside it. The interpreter itself is that step used again
and again, to a fixed depth: a script nested deeper ends with a failure. A
loop counts its own rounds, up to a limit of its own.
-/
import ComponentPaths.Command.Shell.Builtin

namespace ComponentPaths.Shell

open Run

-- ================================================================ redirections

/-- Path names that stand for descriptors. -/
def descriptorNames : List (Text × Nat) :=
  [("/dev/stdin", 0), ("/dev/stdout", 1), ("/dev/stderr", 2), ("/dev/fd/0", 0), ("/dev/fd/1", 1),
    ("/dev/fd/2", 2), ("/proc/self/fd/0", 0), ("/proc/self/fd/1", 1), ("/proc/self/fd/2", 2)]

/-- A file as a channel, once it has its content. -/
def fileChannel (path : Text) (content : Bytes) (access : Access) :
    Run (Except Text Channel) := do
  let s ← get
  let name := Octets.toText path
  match s.disk.locate name, s.disk.write name content with
  | .ok place, .ok disk =>
    if place = System.nullDevice then return .ok .nowhere
    else
      modify fun s => { s with disk }
      return .ok (.file place 0 access)
  | _, .error error | .error error, _ =>
    return .error ("cannot create " ++ path ++ ": " ++ openFault true error)

/-- A channel for a file, or why there is none. -/
def openChannel (opening : Opening) (path : Text) : Run (Except Text Channel) := do
  let s ← get
  let name := Octets.toText path
  let kept : Bytes :=
    match s.disk.stat name with
    | .ok (.file content) => content
    | _ => []
  let isNull :=
    match s.disk.locate name with
    | .ok place => place = System.nullDevice
    | .error _ => false
  match opening with
  | .read =>
    match s.disk.locate name, s.disk.stat name with
    | .ok place, .ok (.file _) => return .ok (.file place 0 ⟨true, false, false⟩)
    | _, .ok _ => return .ok (.source .directory)
    | _, .error error => return .error ("cannot open " ++ path ++ ": " ++ openFault false error)
  | .write =>
    if s.isOn .keepsFiles && s.disk.isFile name && !isNull then
      return .error ("cannot create " ++ path ++ ": File exists")
    else fileChannel path [] ⟨false, true, false⟩
  | .overwrite => fileChannel path [] ⟨false, true, false⟩
  | .append => fileChannel path kept ⟨false, true, true⟩
  | .update => fileChannel path kept ⟨true, true, false⟩

/-- A redirection carried out. The result is false after a message about one
that cannot be. -/
def redirect (self : Command → Run Unit) : Redirection → Run Bool
  | .file descriptor opening target => do
    let path ← expandText self target
    let descriptors := (← get).descriptors
    let copied := (descriptorNames.lookup path).bind fun n : Nat => descriptors.lookup n
    match copied with
    | some n =>
      point descriptor n
      return true
    | none =>
      match ← openChannel opening path with
      | .ok channel =>
        let _ ← open_ descriptor channel
        return true
      | .error text =>
        message text
        return false
  | .copy descriptor source => do
    match ← expandText self source with
    | ['-'] =>
      close descriptor
      return true
    | [d] =>
      if !d.isDigit then fatal "Syntax error: Bad fd number"
      else
        match (← get).descriptors.lookup (Text.digitValue d) with
        | some n =>
          point descriptor n
          return true
        | none =>
          message ([d] ++ ": Bad file descriptor")
          return false
    | _ => fatal "Syntax error: Bad fd number"
  | .document descriptor number => do
    let word := ((← get).documents.lookup number).getD []
    let pieces ← expandParts self true false word
    let _ ← open_ descriptor (.source (.text (Piece.text pieces)))
    return true

/-- Redirections carried out up to the first that cannot be. -/
def redirectAll (self : Command → Run Unit) : List Redirection → Run Bool
  | [] => return true
  | redirection :: rest => do
    if ← redirect self redirection then redirectAll self rest else return false

/-- A step with redirections, which do not last. -/
def redirecting (self : Command → Run Unit) (redirections : List Redirection) (step : Run Unit) :
    Run Unit :=
  restoring do
    if ← redirectAll self redirections then step else finish 2

-- ======================================================================= steps

/-- A step that a builtin command takes under its name. -/
def named (name : Text) (step : Run Unit) : Run Unit := do
  let before := (← get).running
  modify fun s => { s with running := some name }
  let stop ← attempt step
  if (← get).cannotPrint then
    message (name ++ ": I/O error")
    modify fun s => { s with cannotPrint := false, status := max s.status 1 }
  modify fun s => { s with running := before }
  match stop with
  | some stop => throw stop
  | none => return ()

/-- What is to be done for signals that have arrived. -/
def runPending (self : Command → Run Unit) : Run Unit := do
  let s ← get
  if s.level = 0 && !s.pending.isEmpty then
    modify fun s => { s with pending := [] }
    s.pending.forM fun signal => do
      match (← get).traps.lookup signal with
      | some action => keepingStatus (runText self false action)
      | none => pure ()

-- ====================================================================== shells

/-- What a shell is asked to run. -/
inductive Task where
  | text (text : Text)
  | file (path : Text)
  | input
  deriving DecidableEq, Repr

/-- How a shell is called: its task, its name and its arguments. -/
structure Call where
  task : Task
  name : Text
  arguments : List Text

/-- Options at the start of the arguments of a shell, at most so many, carried
out: whether the next argument is a text to run, and the arguments left. -/
def callOptions (takesText : Bool) : Nat → List Text → Run (Bool × List Text)
  | 0, rest => return (takesText, rest)
  | _, [] => return (takesText, [])
  | _, ['-', '-'] :: rest => return (takesText, rest)
  | _, ['-'] :: rest => return (takesText, rest)
  | fuel + 1, ('-' :: letters) :: rest => do
    let rest ← setLetters ['c', 'l'] true letters rest
    callOptions (takesText || letters.contains 'c') fuel rest
  | fuel + 1, ('+' :: letters) :: rest => do
    let rest ← setLetters ['c', 'l'] false letters rest
    callOptions (takesText || letters.contains 'c') fuel rest
  | _, rest => return (takesText, rest)

/-- The call that arguments make. -/
def callOf (program : Text) (arguments : List Text) : Run Call := do
  let (takesText, rest) ← callOptions false (arguments.length + 1) arguments
  let s ← get
  if s.isOn .isInteractive then message "can't access tty; job control turned off"
  match takesText, rest with
  | true, [] => fatal "-c requires an argument"
  | true, [text] => return ⟨.text text, program, []⟩
  | true, text :: name :: rest => return ⟨.text text, name, rest⟩
  | false, [] =>
    modify fun s => { s with settings := Setting.turn s.settings .readsInput true }
    return ⟨.input, program, []⟩
  | false, path :: rest =>
    if s.isOn .readsInput then return ⟨.input, program, path :: rest⟩
    else return ⟨.file path, path, rest⟩

/-- A shell, in a state that is its own. -/
def runShell (self : Command → Run Unit) (program : Text) (arguments : List Text) : Run Unit :=
  atEnd self do
    modify fun s => { s with name := program, line := 0, running := none }
    let call ← callOf program arguments
    let text ←
      match call.task with
      | .text text => pure text
      | .file path =>
        match ← scriptText path with
        | .ok text => pure text
        | .error reason => fatal reason
      | .input =>
        match ← input with
        | .text text => do
          setInput (.text [])
          pure text
        | _ => pure []
    modify fun s => { s with name := call.name, arguments := call.arguments, line := 1 }
    finish 0
    runText self (!(call.task matches .text _)) text

/-- Variables that a shell starts with. -/
def initialVariables (here : Place) : List (Text × Text) :=
  [("IFS", " \t\n"), ("OPTIND", "1"), ("HOME", "/root"), ("PPID", "4710"), ("PS1", "# "),
    ("PS2", "> "), ("PS4", "+ "), ("PATH", standardPath),
    ("PWD", '/' :: Text.joinSlash (here.map Octets.ofText))]

/-- A shell called by a script: a process of its own that knows the exported
variables only. Its end by a signal is reported. -/
def runInner (self : Command → Run Unit) (program : Text) (arguments : List Text) :
    Run Unit := do
  let before ← get
  let own := before.bindings.filter fun (name, _) => before.exported.contains name
  let initial :=
    (initialVariables before.disk.here).filter fun (name, _) => (own.lookup name).isNone
  set { before with
    bindings := own ++ initial
    functions := []
    aliases := []
    fixed := []
    settings := []
    hidden := []
    known := []
    isTested := false
    loops := 0
    level := 0
    pid := before.nextPid
    nextPid := before.nextPid + 1
    traps := before.traps.filter ignores
    outerTraps := []
    pending := []
    doom := none
    savedStatus := none
    jobs := []
    lastPid := none
    optionIndex := 1
    optionOffset := none }
  let stop ← attempt (runShell self program arguments)
  let after ← get
  set { before with
    channels := after.channels
    disk := { after.disk with here := before.disk.here }
    status := after.status
    documents := after.documents
    asked := after.asked
    nextPid := after.nextPid }
  match stop with
  | some (.killed signal) =>
    emit 2 (Signal.ending signal)
    finish (128 + signal)
  | _ => return ()

-- ==================================================================== programs

/-- What a program prints. Where it cannot print, it says so. -/
def printOutcome (name : Text) (outcome : Outcome) : Run Unit := do
  outcome.printed.forM fun (stream, text) =>
    emit (match stream with | .output => 1 | .errors => 2) text
  finish outcome.status
  let s ← get
  let isOpen := (s.descriptors.lookup 1).isSome
  if s.cannotPrint || (!isOpen && name = "cat") then
    let reason : Text :=
      if name = "cat" then "standard output: Bad file descriptor"
      else "write error: Bad file descriptor"
    emit 2 (name ++ ": " ++ reason ++ "\n")
    modify fun s => { s with cannotPrint := false, status := 1 }

/-- A program run by a script. -/
def runProgram (self : Command → Run Unit) (otherPath : Option Text) (name : Text)
    (arguments : List Text) : Run Unit := do
  match ← findProgram otherPath name with
  | .error (reason, status) =>
    message (name ++ ": " ++ reason)
    finish status
  | .ok program =>
    let _ ← takeNumber
    match System.programs.lookup program with
    | some run =>
      let outcome := run (← get).disk name (← input) arguments
      setInput outcome.left
      printOutcome name outcome
    | none => runInner self name arguments

-- ============================================================= simple commands

/-- A step whose local variables end with it. -/
def framed (step : Run Unit) : Run Unit := do
  let before := (← get).hidden
  modify fun s => { s with hidden := [] :: before }
  let stop ← attempt step
  let frame := (← get).hidden.headD []
  frame.reverse.forM reveal
  modify fun s => { s with hidden := before }
  match stop with
  | some stop => throw stop
  | none => return ()

/-- A function called with arguments. -/
def callFunction (self : Command → Run Unit) (body : Command) (arguments : List Text) :
    Run Unit := do
  let before ← get
  set { before with arguments, loops := 0, optionIndex := 1, optionOffset := none }
  let stop ← attempt (framed (self body))
  modify fun s =>
    { s with
      arguments := before.arguments
      loops := before.loops
      optionIndex := before.optionIndex
      optionOffset := before.optionOffset }
  match stop with
  | some .giveBack => return ()
  | some stop => throw stop
  | none => return ()

/-- The script of a path, run in the present state. -/
def source (self : Command → Run Unit) (arguments : List Text) : Run Unit := do
  let (_, operands) ← readOptions [] arguments
  match operands with
  | [] => finish 0
  | path :: _ =>
    let path ←
      if path.contains '/' then pure path
      else do
        let d := (← get).disk
        let names := (splitColons (← currentPath)).map fun dir : Text =>
          if dir.isEmpty then path else dir ++ '/' :: path
        match names.find? fun name => d.isFile (Octets.toText name) with
        | some name => pure name
        | none => fatal (path ++ ": not found")
    match ← scriptText path with
    | .error reason => fatal reason
    | .ok text =>
      finish 0
      match ← attempt (named path (runText self true text)) with
      | some .giveBack => return ()
      | some stop => throw stop
      | none => return ()

/-- A command whose fault only ends itself. -/
def shielded (step : Run Unit) : Run Unit := do
  match ← attempt step with
  | some .fault => return ()
  | some stop => throw stop
  | none => return ()

/-- A command by its name and arguments, not looking at functions. -/
def runNamed (self : Command → Run Unit) (otherPath : Option Text) (name : Text)
    (arguments : List Text) : Run Unit := do
  if name = "eval" then
    named name do
      finish 0
      runText self false (Text.join " " arguments)
  else if name = "." then named name (source self arguments)
  else if name = "exec" then
    match arguments with
    | [] => finish 0
    | program :: rest =>
      named name do
        if (← findProgram otherPath program) matches .ok _ then
          modify fun s => { s with traps := s.traps.filter (·.1 != 0) }
        runProgram self otherPath program rest
      throw .exit
  else
    match builtin? name with
    | some step => named name (step arguments)
    | none => runProgram self otherPath name arguments

/-- What `command` is asked for by its arguments. -/
inductive Wrapped where
  /-- Nothing yet. -/
  | nothing
  /-- Something about a command. -/
  | itself (arguments : List Text)
  /-- To run a command, found in the directories that are always searched or in
  those of the script. -/
  | call (usesStandard : Bool) (words : List Text)

/-- What `command` is asked for by the rest of its arguments. -/
def unwrap (usesStandard : Bool) (whole : List Text) : List Text → Wrapped
  | [] => .nothing
  | ['-', '-'] :: name :: arguments =>
    if name = "command" then unwrap usesStandard arguments arguments
    else .call usesStandard (name :: arguments)
  | ['-', '-'] :: [] => .nothing
  | ('-' :: letter :: letters) :: rest =>
    if (letter :: letters).all (· == 'p') then unwrap true whole rest else .itself whole
  | name :: arguments =>
    if name = "command" then unwrap usesStandard arguments arguments
    else .call usesStandard (name :: arguments)

/-- The command that words lead to, if they are enough to say. -/
def effective? (functions : List (Text × Command)) : List Text → Option Text
  | [] => none
  | name :: rest =>
    if name = "command" && (functions.lookup name).isNone then
      match unwrap false rest rest with
      | .nothing => none
      | .itself _ => some name
      | .call _ words => words.head?
    else some name

/-- Words expanded until they say which command they lead to, and those left. -/
def expandUntil (self : Command → Run Unit) : List Word → List Text → Run (List Text × List Word)
  | [], texts => return (texts, [])
  | word :: rest, texts => do
    let texts := texts ++ (← expandWord self word)
    match effective? (← get).functions texts with
    | some _ => return (texts, rest)
    | none => expandUntil self rest texts

/-- A word that assigns, as one text; any other as it is. -/
def expandDeclared (self : Command → Run Unit) (word : Word) : Run (List Text) := do
  match Read.Tools.assignment? word with
  | some (name, value) => return [name ++ '=' :: (← expandText self value)]
  | none => expandWord self word

/-- Some words, expanded. -/
def expandAll (self : Command → Run Unit) (words : List Word) : Run (List Text) := do
  return (← words.mapM (expandWord self)).flatten

/-- The words of a simple command, expanded. -/
def expandSimple (self : Command → Run Unit) (words : List Word) : Run (List Text) := do
  let (texts, rest) ← expandUntil self words []
  match effective? (← get).functions texts with
  | some name =>
    if assigns name && ((← get).functions.lookup name).isNone then
      return texts ++ (← rest.mapM (expandDeclared self)).flatten
    else return texts ++ (← expandAll self rest)
  | none => return texts

/-- A command by its name and arguments. -/
def dispatch (self : Command → Run Unit) (name : Text) (arguments : List Text) : Run Unit := do
  match (← get).functions.lookup name with
  | some body => callFunction self body arguments
  | none =>
    if name = "command" then
      match unwrap false arguments arguments with
      | .call usesStandard (called :: rest) =>
        let path := if usesStandard then some standardPath else none
        shielded (framed (runNamed self path called rest))
      | .itself asked => shielded (runNamed self none name asked)
      | _ => finish 0
    else if isSpecialBuiltin name then runNamed self none name arguments
    else shielded (runNamed self none name arguments)

/-- Assignments, carried out one after another. Those that last only for one
command are known to all programs, and what they hide is remembered. -/
def assignAll (self : Command → Run Unit) (last : Bool) :
    List (Text × Word) → Run (List (Text × Text) × List Hidden)
  | [] => return ([], [])
  | (name, word) :: rest => do
    let value ← expandText self word
    let hidden ← remember name
    assign name value
    if !last then publish name
    let (others, alsoHidden) ← assignAll self last rest
    return ((name, value) :: others, hidden :: alsoHidden)

/-- A command shown before it runs, where messages went before it. -/
def trace (self : Command → Run Unit) (before : List (Nat × Nat)) (given : List (Text × Text))
    (words : List Text) : Run Unit := do
  if (← get).isOn .traces then
    let written := (← lookup? "PS4").getD []
    let start ←
      match (Read.parts (4 * written.length + 8) .document).run (Reader.start written 0) with
      | .ok (parts, _) => expandText self parts
      | .error _ => pure written
    let shown := given.map (fun (name, value) => name ++ '=' :: value) ++ words
    let now := (← get).descriptors
    modify fun s => { s with descriptors := before }
    emit 2 (start ++ Text.join " " shown ++ "\n")
    modify fun s => { s with descriptors := now }

/-- A simple command. -/
def runSimple (self : Command → Run Unit) (assignments : List (Text × Word)) (words : List Word)
    (redirections : List Redirection) : Run Unit := do
  modify fun s => { s with substituted := 0 }
  let expanded ← expandSimple self words
  let name := expanded.headD []
  let isSpecial := isSpecialBuiltin name
  let before := (← get).descriptors
  let keeps := effective? (← get).functions expanded == some "exec".toList
  let step : Run Unit := do
    if ← redirectAll self redirections then
      let (given, hidden) ← assignAll self (expanded.isEmpty || isSpecial) assignments
      trace self before given expanded
      match expanded with
      | [] => finish (← get).substituted
      | name :: arguments =>
        let stop ← attempt (dispatch self name arguments)
        if !isSpecial then hidden.reverse.forM reveal
        match stop with
        | some stop => throw stop
        | none => return ()
    else
      finish 2
      if isSpecial then throw .fault
  let stop ← attempt step
  if !keeps then modify fun s => { s with descriptors := before }
  match stop with
  | some stop => throw stop
  | none => return ()

-- ==================================================================== commands

/-- The program of a command that runs apart, remembered by those around it too. -/
def foresee : Command → Run Unit
  | .simple _ _ ([.plain name] :: _) _ => do
    if isName name && !isBuiltin name && ((← get).functions.lookup name).isNone then
      let _ ← findProgram none name
  | _ => return ()

/-- Commands each of which reads what the one before it printed. All start from
one status. -/
def runPipe (self : Command → Run Unit) (status : Nat) : List Command → Run Unit
  | [] => return ()
  | [last] => do
    foresee last
    finish status
    apart self last
  | first :: rest => do
    foresee first
    finish status
    let before := (← get).descriptors
    let n ← open_ 1 (.sink [])
    apart self first
    modify fun s => { s with descriptors := before }
    let printed : Text :=
      match (← get).channels[n]? with
      | some (.sink written) => written
      | _ => []
    let _ ← open_ 0 (.source (.text printed))
    runPipe self status rest

/-- The rounds of a loop, at most so many. Each is a step that says whether to
go on; the loop ends with the status of its last round. -/
def rounds (condition : Run Bool) (body : Run Unit) : Nat → Nat → Run Unit
  | 0, status => finish status
  | fuel + 1, status => do
    match ← attempt (do if !(← condition) then throw .giveBack) with
    | some .giveBack => finish status
    | some stop => throw stop
    | none =>
      match ← attempt body with
      | none => rounds condition body fuel (← get).status
      | some (.again 1) => rounds condition body fuel (← get).status
      | some (.leave 1) => finish (← get).status
      | some (.again n) => throw (.again (n - 1))
      | some (.leave n) => throw (.leave (n - 1))
      | some stop => throw stop

/-- How many rounds a loop can have. -/
def roundLimit : Nat := 100000

/-- A step inside one more loop. -/
def inLoop (step : Run Unit) : Run Unit := do
  modify fun s => { s with loops := s.loops + 1 }
  let stop ← attempt step
  modify fun s => { s with loops := s.loops - 1 }
  match stop with
  | some stop => throw stop
  | none => return ()

/-- The rounds of a loop over texts. -/
def roundsOver (name : Text) (body : Run Unit) : List Text → Nat → Run Unit
  | [], status => finish status
  | text :: rest, _ => do
    assign name text
    match ← attempt body with
    | none => roundsOver name body rest (← get).status
    | some (.again 1) => roundsOver name body rest (← get).status
    | some (.leave 1) => finish (← get).status
    | some (.again n) => throw (.again (n - 1))
    | some (.leave n) => throw (.leave (n - 1))
    | some stop => throw stop

/-- Whether one of some patterns stands for a text. -/
def anyHolds (self : Command → Run Unit) (subject : Text) : List Word → Run Bool
  | [] => return false
  | pattern :: rest => do
    if Pattern.holds (← expandPattern self pattern) subject then return true
    else anyHolds self subject rest

/-- The first case that a text belongs to. -/
def runCases (self : Command → Run Unit) (subject : Text) :
    List (List Word × Command) → Run Unit
  | [] => finish 0
  | (patterns, body) :: rest => do
    if ← anyHolds self subject patterns then
      finish 0
      self body
    else runCases self subject rest

/-- One command, with the help of a function for the commands inside it. -/
def step (self : Command → Run Unit) : Command → Run Unit
  | .simple line assignments words redirections => do
    modify fun s => { s with line }
    runSimple self assignments words redirections
    checkFailure
  | .sequence commands => commands.forM self
  | .background command => do
    let number ← takeNumber
    let pid := (← get).nextPid
    modify fun s => { s with nextPid := pid + 1 }
    let before := (← get).descriptors
    let _ ← open_ 0 .nowhere
    apart self command
    let job : Job := ⟨number, pid, (← get).status, false⟩
    modify fun s =>
      { s with descriptors := before, jobs := job :: s.jobs, lastPid := some pid }
    finish 0
  | .both first second => do
    tested (self first)
    if (← get).status = 0 then self second
  | .either first second => do
    tested (self first)
    if (← get).status != 0 then self second
  | .negated command => do
    tested (self command)
    finish (if (← get).status = 0 then 1 else 0)
  | .pipe commands => do
    let _ ← takeNumber
    restoring (runPipe self (← get).status commands)
    checkFailure
  | .subshell line body redirections => do
    modify fun s => { s with line }
    redirecting self redirections do
      let _ ← takeNumber
      apart self body
    checkFailure
  | .redirected line body redirections => do
    modify fun s => { s with line }
    redirecting self redirections (self body)
  | .choice condition body otherwise => do
    tested (self condition)
    if (← get).status = 0 then
      self body
    else
      match otherwise with
      | some command => self command
      | none => finish 0
  | .loop succeeding condition body => do
    let goesOn : Run Bool := do
      tested (self condition)
      return ((← get).status == 0) == succeeding
    inLoop (rounds goesOn (self body) roundLimit 0)
  | .each line name words body => do
    modify fun s => { s with line }
    let texts ← expandAll self words
    inLoop (roundsOver name (self body) texts 0)
  | .select line subject cases => do
    modify fun s => { s with line }
    let text ← expandText self subject
    runCases self text cases
  | .define name body => do
    modify fun s =>
      { s with functions := (name, body) :: s.functions.filter (·.1 != name) }
    finish 0

/-- A command, to a depth, and what is to be done for signals that arrived
meanwhile. -/
def interpret : Nat → Command → Run Unit
  | 0, _ => do
    finish 2
    throw .exit
  | depth + 1, command => do
    if !(← get).isOn .onlyReads then
      step (interpret depth) command
      runPending (interpret depth)

/-- How deep commands can be nested. -/
def depthLimit : Nat := 10000

/-- The state that a shell starts in. -/
def State.initial (d : Disk) (input : Source) : State where
  disk := d
  name := "sh"
  arguments := []
  bindings := initialVariables d.here
  exported := ["HOME", "PATH", "PWD"]
  fixed := []
  functions := []
  aliases := []
  settings := []
  status := 0
  savedStatus := none
  substituted := 0
  line := 0
  running := none
  descriptors := [(0, 0), (1, 1), (2, 2)]
  channels := [.source input, .sink [], .sink []]
  cannotPrint := false
  documents := []
  asked := 0
  isTested := false
  loops := 0
  hidden := []
  known := []
  pid := 4711
  nextPid := 4712
  level := 0
  traps := []
  outerTraps := []
  pending := []
  doom := none
  jobs := []
  lastPid := none
  mask := 18
  optionIndex := 1
  optionOffset := none

/-- What a channel has collected. -/
def Channel.collected : Option Channel → Text
  | some (.sink written) => written
  | _ => []

/-- The shell as a program, with nothing to read. -/
def program (d : Disk) (called : Text) (arguments : List Text) : Outcome × Disk :=
  let (stop, s) :=
    (runShell (interpret depthLimit) called arguments).run.run (State.initial d (.text []))
  let status :=
    match stop with
    | .error (.killed signal) => 128 + signal
    | _ => s.status
  let printed : List (Stream × Text) :=
    [(.output, Channel.collected s.channels[1]?), (.errors, Channel.collected s.channels[2]?)]
  (⟨printed, .text [], status⟩, s.disk)

end ComponentPaths.Shell
