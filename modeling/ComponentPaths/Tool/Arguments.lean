/-
Command line arguments: what a tool takes, and how an argument list is read.

Arguments are read from left to right. An option may be given once, by its
long name or its letter, with its value attached or as the next argument. Two
dashes end the options. Asking for help ends the reading, and so does the
first argument that does not fit.
-/
import ComponentPaths.Text.Basic

namespace ComponentPaths.Arguments

/-- An option of a tool. -/
structure OptionSpec where
  long : Text
  letter : Option Char
  /-- Whether a value follows; it is a path name and so not empty. -/
  takesValue : Bool
  deriving DecidableEq, Repr

/-- An argument of a tool that is known by its place. -/
structure PlaceSpec where
  name : Text
  required : Bool
  /-- Path names may not be empty. -/
  isPath : Bool
  deriving DecidableEq, Repr

/-- What a tool takes. -/
structure Spec where
  places : List PlaceSpec
  options : List OptionSpec
  deriving DecidableEq, Repr

/-- The arguments read so far, by place and by option name. An option without
a value is there with an empty one. -/
structure Given where
  places : List Text
  options : List (Text × Text)
  deriving DecidableEq, Repr

/-- How reading can end early. -/
inductive Stop where
  | help
  | misuse
  deriving DecidableEq, Repr

/-- Nothing read yet. -/
def Given.empty : Given :=
  ⟨[], []⟩

/-- The value of an option. -/
def Given.option? (g : Given) (long : Text) : Option Text :=
  g.options.lookup long

/-- Whether an option was given. -/
def Given.hasOption (g : Given) (long : Text) : Bool :=
  (g.option? long).isSome

/-- The argument at a place. -/
def Given.place (g : Given) (index : Nat) : Text :=
  g.places.getD index []

/-- The argument at a place that may be missing. -/
def Given.place? (g : Given) (index : Nat) : Option Text :=
  g.places[index]?

-- ==================================================================== one step

/-- One more argument known by its place. -/
def addPlace (spec : Spec) (g : Given) (value : Text) : Except Stop Given :=
  match spec.places[g.places.length]? with
  | none => .error .misuse
  | some place =>
    if place.isPath && value.isEmpty then .error .misuse
    else .ok { g with places := g.places ++ [value] }

/-- One more option. -/
def addOption (g : Given) (option : OptionSpec) (value : Text) : Except Stop Given :=
  if g.hasOption option.long || (option.takesValue && value.isEmpty) then .error .misuse
  else .ok { g with options := g.options ++ [(option.long, value)] }

/-- What one argument leads to: more given, or an option that waits for its value. -/
inductive Outcome where
  | given (g : Given)
  | waiting (g : Given) (option : OptionSpec)
  | stop (reason : Stop)

/-- The outcome of a step that may not fit. -/
def Outcome.ofExcept : Except Stop Given → Outcome
  | .ok g => .given g
  | .error reason => .stop reason

/-- An option by its long name, without the dashes. -/
def readLong (spec : Spec) (g : Given) (text : Text) : Outcome :=
  let (name, value) :=
    match Text.splitFirst '=' text with
    | some (name, value) => (name, some value)
    | none => (text, none)
  if name = "help" then .stop (if value.isNone then .help else .misuse)
  else
    match spec.options.find? fun o => o.long == name with
    | none => .stop .misuse
    | some option =>
      match option.takesValue, value with
      | true, some value => .ofExcept (addOption g option value)
      | true, none => .waiting g option
      | false, some _ => .stop .misuse
      | false, none => .ofExcept (addOption g option [])

/-- Options by their letters. The rest of the letters can be a value. -/
def readLetters (spec : Spec) : Given → Text → Outcome
  | g, [] => .given g
  | g, c :: rest =>
    if c = 'h' then .stop .help
    else
      match spec.options.find? fun o => o.letter == some c with
      | none => .stop .misuse
      | some option =>
        if option.takesValue then
          match rest with
          | [] => .waiting g option
          | _ => .ofExcept (addOption g option ((Text.dropHead? ['='] rest).getD rest))
        else
          match addOption g option [] with
          | .ok g => readLetters spec g rest
          | .error reason => .stop reason

/-- One argument where options may stand. -/
def readOne (spec : Spec) (g : Given) (argument : Text) : Outcome :=
  match argument with
  | '-' :: '-' :: long => readLong spec g long
  | '-' :: c :: letters => readLetters spec g (c :: letters)
  | value => .ofExcept (addPlace spec g value)

-- ==================================================================== the list

/-- Arguments after the options have ended. -/
def readPlaces (spec : Spec) : Given → List Text → Except Stop Given
  | g, [] => .ok g
  | g, value :: rest =>
    match addPlace spec g value with
    | .ok g => readPlaces spec g rest
    | .error reason => .error reason

/-- Whether an argument can be the value of the option before it. -/
def isValue (argument : Text) : Bool :=
  match argument with
  | '-' :: _ :: _ => false
  | _ => true

/-- The arguments of a list, after those given before. `waiting` is an option
that still needs its value. -/
def readAll (spec : Spec) : Option OptionSpec → Given → List Text → Except Stop Given
  | some _, _, [] => .error .misuse
  | none, g, [] => .ok g
  | some option, g, value :: rest =>
    if isValue value then
      match addOption g option value with
      | .ok g => readAll spec none g rest
      | .error reason => .error reason
    else .error .misuse
  | none, g, argument :: rest =>
    if argument = "--" then readPlaces spec g rest
    else
      match readOne spec g argument with
      | .given g => readAll spec none g rest
      | .waiting g option => readAll spec (some option) g rest
      | .stop reason => .error reason

/-- Whether every argument that is required is there. -/
def isComplete (spec : Spec) (g : Given) : Bool :=
  (spec.places.drop g.places.length).all fun place => !place.required

/-- The arguments of a list. -/
def read (spec : Spec) (arguments : List Text) : Except Stop Given :=
  match readAll spec none Given.empty arguments with
  | .error reason => .error reason
  | .ok g => if isComplete spec g then .ok g else .error .misuse

end ComponentPaths.Arguments
