/-
Printing files one after another, and file names in messages.

A file name that a shell would read differently is shown in quotes. A line
number belongs to a line of what is printed, so that a line may run over from
one file into the next.
-/
import ComponentPaths.Command.Basic

namespace ComponentPaths

-- ================================================================== file names

namespace ShownName

/-- Characters that have to be quoted wherever they stand. -/
def isSpecial (c : Char) : Bool :=
  " !\"$&'()*:;<=>?[\\^`|".toList.contains c

/-- Characters that show themselves. -/
def isVisible (c : Char) : Bool :=
  32 ≤ c.toNat && c.toNat ≤ 126

/-- Whether a name is shown in quotes. -/
def needsQuotes (name : Text) : Bool :=
  name.isEmpty || name.any (fun c => isSpecial c || !isVisible c)
    || name.head? == some '#' || name.head? == some '~' || name == ['{'] || name == ['}']

/-- Characters that mean the same in both kinds of quotes. -/
def isCommon (c : Char) : Bool :=
  c.isAlphanum || " %'+,-./:@]_".toList.contains c

/-- Whether a name with a single quote can be shown in double quotes. -/
def fitsDouble (name : Text) : Bool :=
  name.contains '\''
    && ((name.head?.map fun c => c == '#' || c == '~' || isCommon c).getD false)
    && (name.drop 1).all isCommon

/-- Letters of the escapes that have one. -/
def letters : List (Nat × Char) :=
  [(7, 'a'), (8, 'b'), (9, 't'), (10, 'n'), (11, 'v'), (12, 'f'), (13, 'r')]

/-- A character that does not show itself, as an escape. -/
def escape (c : Char) : Text :=
  match letters.lookup c.toNat with
  | some letter => ['\\', letter]
  | none =>
    let digits := Nat.toDigits 8 c.toNat
    '\\' :: List.replicate (3 - digits.length) '0' ++ digits

/-- A name in single quotes, from a point where they are open, or where escapes
are. -/
def single (inEscape : Bool) : Text → Text
  | [] => ['\'']
  | c :: rest =>
    if isVisible c then
      let start : Text := if inEscape then ['\'', '\''] else []
      start ++ (if c == '\'' then ['\'', '\\', '\'', '\''] else [c]) ++ single false rest
    else
      let start : Text := if inEscape then [] else ['\'', '$', '\'']
      start ++ escape c ++ single true rest

end ShownName

/-- A file name as messages show it. -/
def shownName (name : Text) : Text :=
  if !ShownName.needsQuotes name then name
  else if ShownName.fitsDouble name then '"' :: name ++ ['"']
  else '\'' :: ShownName.single false name

/-- A refusal without its number. -/
def OsError.text (error : OsError) : Text :=
  error.reason.1

namespace Cat

-- ======================================================================= lines

/-- How files are printed. -/
structure Options where
  numbers : Bool
  numbersNonblank : Bool
  squeezes : Bool
  showsEnds : Bool
  showsTabs : Bool
  showsHidden : Bool
  deriving DecidableEq, Repr

/-- Files printed as they are. -/
def Options.plain : Options :=
  ⟨false, false, false, false, false, false⟩

/-- Where printing is: at the start of a line or not, the number of the last
line, and how many blank lines came right before. -/
structure Place where
  isLineStart : Bool
  number : Nat
  blanks : Nat
  deriving DecidableEq, Repr

/-- The number of a line, with room before it. -/
def numbered (n : Nat) : Text :=
  let digits := Text.ofNat n
  List.replicate (6 - digits.length) ' ' ++ digits ++ ['\t']

/-- A character, or what stands for it. -/
def shown (o : Options) (c : Char) : Text :=
  let low (n : Nat) : Text :=
    if n < 32 then ['^', Char.ofNat (n + 64)] else if n == 127 then ['^', '?'] else [Char.ofNat n]
  let n := c.toNat
  if c == '\t' then if o.showsTabs then ['^', 'I'] else [c]
  else if !o.showsHidden then [c]
  else if n < 128 then low n
  else 'M' :: '-' :: low (n - 128)

/-- The text of a file from some place on, and the place after it. -/
def print (o : Options) : Place → Text → Text × Place
  | p, [] => ([], p)
  | p, '\n' :: rest =>
    if p.isLineStart then
      if o.squeezes && 1 ≤ p.blanks then print o { p with blanks := p.blanks + 1 } rest
      else
        let numbers := o.numbers && !o.numbersNonblank
        let number := if numbers then p.number + 1 else p.number
        let (others, last) := print o ⟨true, number, p.blanks + 1⟩ rest
        ((if numbers then numbered number else []) ++ (if o.showsEnds then ['$'] else [])
          ++ '\n' :: others, last)
    else
      let (others, last) := print o ⟨true, p.number, 0⟩ rest
      ((if o.showsEnds then ['$'] else []) ++ '\n' :: others, last)
  | p, '\r' :: '\n' :: rest =>
    let numbers := p.isLineStart && (o.numbers || o.numbersNonblank)
    let number := if numbers then p.number + 1 else p.number
    let (others, last) := print o ⟨true, number, 0⟩ rest
    let ending : Text :=
      if o.showsEnds then ['^', 'M', '$'] else if o.showsHidden then ['^', 'M'] else ['\r']
    ((if numbers then numbered number else []) ++ ending ++ '\n' :: others, last)
  | p, c :: rest =>
    let numbers := p.isLineStart && (o.numbers || o.numbersNonblank)
    let number := if numbers then p.number + 1 else p.number
    let (others, last) := print o ⟨false, number, 0⟩ rest
    ((if numbers then numbered number else []) ++ shown o c ++ others, last)

-- ===================================================================== options

/-- A letter added to options. -/
def Options.add (o : Options) (letter : Char) : Option Options :=
  match letter with
  | 'b' => some { o with numbers := true, numbersNonblank := true }
  | 'n' => some { o with numbers := true }
  | 's' => some { o with squeezes := true }
  | 'u' => some o
  | 'v' => some { o with showsHidden := true }
  | 'E' => some { o with showsEnds := true }
  | 'T' => some { o with showsTabs := true }
  | 'e' => some { o with showsHidden := true, showsEnds := true }
  | 't' => some { o with showsHidden := true, showsTabs := true }
  | 'A' => some { o with showsHidden := true, showsEnds := true, showsTabs := true }
  | _ => none

/-- Long options, with the letters that mean the same. -/
def longOptions : List (Text × Char) :=
  [("number-nonblank", 'b'), ("number", 'n'), ("squeeze-blank", 's'), ("show-nonprinting", 'v'),
    ("show-ends", 'E'), ("show-tabs", 'T'), ("show-all", 'A')]

/-- What the arguments ask for. -/
inductive Request where
  | files (o : Options) (names : List Text)
  /-- A message about arguments that ask for nothing. -/
  | mistaken (message : Text)
  /-- Some words about the program. -/
  | words (text : Text)

/-- One more file. -/
def Request.add (name : Text) : Request → Request
  | .files o names => .files o (name :: names)
  | other => other

/-- How the program is used. -/
def usage (called : Text) : Text :=
  "Usage: " ++ called ++ " [OPTION]... [FILE]...\n"
    ++ "Concatenate FILE(s) to standard output.\n"

/-- Which program this is. -/
def version : Text :=
  "cat\n"

/-- Letters after one dash. -/
def readLetters (o : Options) : Text → Except Text Options
  | [] => .ok o
  | letter :: rest =>
    match o.add letter with
    | some added => readLetters added rest
    | none => .error ("invalid option -- '" ++ letter :: "'")

/-- The option after two dashes, which may be cut short. -/
def readLong (called : Text) (o : Options) (written : Text) (next : Options → Request) :
    Request :=
  let names : List Text := longOptions.map (·.1) ++ ["help".toList, "version".toList]
  let candidates : List Text :=
    if names.contains written then [written]
    else names.filter fun name => (Text.dropHead? written name).isSome
  match candidates with
  | [name] =>
    match longOptions.lookup name with
    | some letter => next ((o.add letter).getD o)
    | none => .words (if name = "help" then usage called else version)
  | [] => .mistaken ("unrecognized option '--" ++ written ++ "'")
  | several =>
    .mistaken ("option '--" ++ written ++ "' is ambiguous; possibilities:"
      ++ several.flatMap fun name => " '--".toList ++ name ++ ['\''])

/-- The request that arguments make. Options may stand after files, but not
after two dashes. -/
def readArguments (called : Text) (o : Options) : List Text → Request
  | [] => .files o []
  | arg :: rest =>
    match arg with
    | ['-', '-'] => .files o rest
    | '-' :: '-' :: written =>
      match written.contains '=' with
      | true =>
        .mistaken (
          if longOptions.any fun (name, _) => name == written.takeWhile (· != '=') then
            "option '--" ++ written.takeWhile (· != '=') ++ "' doesn't allow an argument"
          else "unrecognized option '--" ++ written ++ "'")
      | false => readLong called o written fun added => readArguments called added rest
    | '-' :: letter :: letters =>
      match readLetters o (letter :: letters) with
      | .error message => .mistaken message
      | .ok added => readArguments called added rest
    | _ => (readArguments called o rest).add arg

-- ======================================================================= files

/-- Path names that stand for the input. -/
def inputNames : List Text :=
  ["/dev/stdin", "/dev/fd/0", "/proc/self/fd/0"]

/-- What a file name leads to; a dash is the input. -/
def content (d : Disk) (input : Source) (name : Text) : Except OsError Text × Source :=
  if name = "-" || inputNames.contains name then
    match input with
    | .text rest => (.ok rest, .text [])
    | .directory => (.error .isDirectory, .directory)
    | .closed => (.error .badDescriptor, .closed)
  else
    match d.read (Octets.toText name) with
    | .ok bytes => (.ok (Octets.ofBytes bytes), input)
    | .error (.os error) => (.error error, input)
    | .error _ => (.error .noEntry, input)

/-- The files of a request, one after another; each that cannot be read is
reported instead. -/
def printAll (o : Options) (d : Disk) (called : Text) : List Text → Place → Source → Outcome
  | [], _, input => .silent input 0
  | name :: rest, place, input =>
    match content d input name with
    | (.ok text, left) =>
      let (printed, after) := if o = .plain then (text, place) else print o place text
      let others := printAll o d called rest after left
      { others with printed := (.output, printed) :: others.printed }
    | (.error error, left) =>
      let others := printAll o d called rest place left
      { others with
        printed :=
          (.errors, called ++ ": " ++ shownName name ++ ": " ++ error.text ++ "\n")
            :: others.printed
        status := 1 }

/-- Files printed one after another; without any, the input. -/
def program : Program := fun d called input args =>
  match readArguments called .plain args with
  | .mistaken message =>
    .failing input
      (called ++ ": " ++ message ++ "\nTry '" ++ called ++ " --help' for more information.\n") 1
  | .words text => .printing input text
  | .files o files =>
    let names : List Text := if files.isEmpty then ["-"] else files
    let printed := printAll o d called names ⟨true, 0, 0⟩ input
    if input = .closed && names.contains ['-'] then
      { printed with
        printed :=
          printed.printed
            ++ [(.errors, called ++ ": closing standard input: Bad file descriptor\n")] }
    else printed

end Cat

end ComponentPaths
