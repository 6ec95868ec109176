/-
Small programs that read nothing: those that print their arguments, decide
something about them, or take path names apart.
-/
import ComponentPaths.Command.Condition
import ComponentPaths.Command.Filter

namespace ComponentPaths.Operand

-- ======================================================================== text

/-- A program that ends with a status and does nothing else. -/
def ending (status : Nat) : Program := fun _ _ input _ =>
  .silent input status

/-- The options of a printing program at the start of its arguments: whether to
leave the line open and whether to replace escapes. -/
def echoOptions : Bool × Bool → List Text → (Bool × Bool) × List Text
  | found, [] => (found, [])
  | (isOpen, escapes), arg :: rest =>
    match arg with
    | '-' :: letter :: letters =>
      if (letter :: letters).all fun c => c == 'n' || c == 'e' || c == 'E' then
        let lastKind := ((letter :: letters).filter (· != 'n')).getLast?
        let escapes :=
          match lastKind with
          | some c => c == 'e'
          | none => escapes
        echoOptions (isOpen || (letter :: letters).contains 'n', escapes) rest
      else ((isOpen, escapes), arg :: rest)
    | _ => ((isOpen, escapes), arg :: rest)

/-- The arguments with blanks between them. -/
def echo : Program := fun _ _ input args =>
  let ((isOpen, escapes), shown) := echoOptions (false, false) args
  let text := Text.join " " shown
  let (text, ends) := if escapes then Format.unescaped text else (text, false)
  .printing input (if isOpen || ends then text else text ++ "\n")

/-- How a format is printed by a program of its own. -/
def dialect : Format.Dialect where
  fineness := .extended
  leading := 4
  flags := "#-+ 0'I"
  lengths := "hlLjzt"
  noNumber t := "'" ++ t ++ "': expected a numeric value"
  notAll t := "'" ++ t ++ "': value not completely converted"
  outOfRange t := "'" ++ t ++ "': Numerical result out of range"
  noDirective t := t ++ ": invalid conversion specification"
  noLetter t := t ++ ": invalid conversion specification"
  isRich := true

/-- A format with arguments. -/
def printf : Program := fun _ called input args =>
  match if args.head? == some ['-', '-'] then args.drop 1 else args with
  | [] => Filter.misuse called "missing operand" input
  | format :: args =>
    let printed := Format.print dialect format args
    let excess : List Text :=
      match printed.args with
      | first :: _ =>
        if printed.isEnded || printed.fault.isSome then []
        else ["warning: ignoring excess arguments, starting with '" ++ first ++ "'"]
      | [] => []
    let message (t : Text) : Stream × Text := (.errors, called ++ ": " ++ t ++ "\n")
    let shown := printed.printed.reverse.map fun (stream, t) =>
      match stream with
      | .output => (stream, t)
      | .errors => message t
    let failed := !(printed.text .errors).isEmpty || printed.fault.isSome
    ⟨shown ++ (printed.fault.toList ++ excess).map message, input, if failed then 1 else 0⟩

/-- Whether a text is a time to wait. -/
def isInterval (t : Text) : Bool :=
  let digits := t.takeWhile fun c => c.isDigit || c == '.'
  let unit := t.drop digits.length
  !digits.isEmpty && digits != ['.'] && ["", "s", "m", "h", "d"].any (·.toList == unit)

/-- Waiting, which leaves no trace. -/
def sleep : Program := fun _ called input args =>
  match args.filter fun a => !isInterval a with
  | [] => if args.isEmpty then Filter.misuse called "missing operand" input else .silent input 0
  | wrong =>
    let messages := wrong.map fun a => "invalid time interval " ++ Filter.quoted a
    Filter.misuse called (Text.join ("\n" ++ called ++ ": ") messages) input

/-- A condition. -/
def condition (decide : Disk → List Text → Except Text Bool) : Program :=
  fun d called input args =>
    match decide d args with
    | .ok holds => .silent input (if holds then 0 else 1)
    | .error message => .failing input (called ++ ": " ++ message ++ "\n") 2

-- ================================================================== path names

/-- The last name of a path. -/
def lastName (path : Text) : Text :=
  let trimmed := Text.dropEndWhile (· == '/') path
  if trimmed.isEmpty then path.take 1
  else (trimmed.reverse.takeWhile (· != '/')).reverse

/-- Everything before the last name of a path. -/
def beforeLast (path : Text) : Text :=
  let trimmed := Text.dropEndWhile (· == '/') path
  if trimmed.isEmpty then if path.isEmpty then "." else "/"
  else
    match trimmed.reverse.dropWhile (· != '/') with
    | [] => "."
    | before =>
      let above := Text.dropEndWhile (· == '/') before.reverse
      if above.isEmpty then "/" else above

/-- The last name of a path, without an ending. -/
def basename : Program := fun _ called input args =>
  match args with
  | [] => Filter.misuse called "missing operand" input
  | path :: rest =>
    let name := lastName path
    let shown :=
      match Text.dropTail? (rest.headD []) name with
      | some before => if before.isEmpty then name else before
      | none => name
    .printing input (shown ++ "\n")

/-- The paths without their last names. -/
def dirname : Program := fun _ called input args =>
  match args with
  | [] => Filter.misuse called "missing operand" input
  | paths => .printing input (paths.flatMap fun path => beforeLast path ++ "\n")

end ComponentPaths.Operand
