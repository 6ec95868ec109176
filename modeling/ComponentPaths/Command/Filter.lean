/-
Programs that read files and print a part of them, or something about them:
their beginning, their end, their lines in another order, their size, or
their characters replaced.
-/
import ComponentPaths.Command.Cat
import ComponentPaths.Command.Format
import ComponentPaths.Command.Shell.Pattern

namespace ComponentPaths.Filter

/-- The lines of a text, each with its end. -/
def lines (t : Text) : List Text :=
  t.foldr
    (fun c found =>
      if c == '\n' then ['\n'] :: found
      else
        match found with
        | first :: rest => (c :: first) :: rest
        | [] => [[c]])
    []

/-- A name in quotes, whatever it is. -/
def quoted (name : Text) : Text :=
  if ShownName.fitsDouble name then '"' :: name ++ ['"'] else '\'' :: ShownName.single false name

/-- A message about the arguments of a program. -/
def misuse (called message : Text) (input : Source) : Outcome :=
  .failing input
    (called ++ ": " ++ message ++ "\nTry '" ++ called ++ " --help' for more information.\n") 1

/-- One step for each file, with the input where there is none. -/
def eachFile (files : List Text) (input : Source)
    (step : Source → Text → List (Stream × Text) × Source × Nat) : Outcome :=
  (if files.isEmpty then [['-']] else files).foldl
    (fun (done : Outcome) name =>
      let (printed, left, status) := step done.left name
      ⟨done.printed ++ printed, left, max done.status status⟩)
    (.silent input 0)

-- ============================================================ beginning and end

/-- How much of a file is wanted. A negative amount is what is left out. -/
structure Amount where
  count : Nat
  inLines : Bool
  isLeftOut : Bool
  deriving DecidableEq, Repr

/-- Letters of amounts. -/
def unitName (inLines : Bool) : Text :=
  if inLines then "lines" else "bytes"

/-- A number of lines or bytes. -/
def Amount.of (inLines : Bool) (written : Text) : Except Text Amount :=
  let (isLeftOut, digits) : Bool × Text :=
    match written with
    | '-' :: digits => (true, digits)
    | digits => (false, digits)
  if digits.isEmpty || !digits.all Char.isDigit then
    .error ("invalid number of " ++ unitName inLines ++ ": " ++ quoted written)
  else .ok ⟨Text.natOfDigits digits, inLines, isLeftOut⟩

/-- The amount and the files that arguments ask for. -/
def amount : Amount → List Text → Except (Text × Bool) (Amount × List Text)
  | a, [] => .ok (a, [])
  | _, ['-', 'n'] :: written :: rest =>
    match Amount.of true written with
    | .ok a => amount a rest
    | .error message => .error (message, false)
  | _, ['-', 'c'] :: written :: rest =>
    match Amount.of false written with
    | .ok a => amount a rest
    | .error message => .error (message, false)
  | a, ['-'] :: rest => (amount a rest).map fun (a, files) => (a, ['-'] :: files)
  | _, ('-' :: 'n' :: written) :: rest =>
    match Amount.of true written with
    | .ok a => amount a rest
    | .error message => .error (message, false)
  | _, ('-' :: 'c' :: written) :: rest =>
    match Amount.of false written with
    | .ok a => amount a rest
    | .error message => .error (message, false)
  | _, ('-' :: letter :: digits) :: rest =>
    if letter.isDigit then
      match Amount.of true (letter :: digits) with
      | .ok a => amount a rest
      | .error message => .error (message, false)
    else .error ("invalid option -- '" ++ letter :: "'", true)
  | a, file :: rest => (amount a rest).map fun (a, files) => (a, file :: files)

/-- The heading of a file among several. -/
def heading (isFirst : Bool) (name : Text) : Text :=
  (if isFirst then [] else ['\n']) ++ "==> "
    ++ (if name = "-" then ("standard input" : Text) else name) ++ " <==\n"

/-- A program that prints a part of each file. -/
def part (select : Amount → Text → Text) : Program := fun d called input args =>
  match amount ⟨10, true, false⟩ args with
  | .error (message, true) => misuse called message input
  | .error (message, false) => .failing input (called ++ ": " ++ message ++ "\n") 1
  | .ok (a, files) =>
    eachFile files input fun input name =>
      let title : Text :=
        if 1 < files.length then heading (files.head? == some name) name else []
      match Cat.content d input name with
      | (.ok text, left) => ([(.output, title ++ select a text)], left, 0)
      | (.error .isDirectory, left) =>
        ([(.output, title),
          (.errors, called ++ ": error reading " ++ quoted name ++ ": Is a directory\n")], left, 1)
      | (.error error, left) =>
        ([(.errors, called ++ ": cannot open " ++ quoted name ++ " for reading: " ++ error.text
          ++ "\n")], left, 1)

/-- The beginning of files. -/
def head : Program :=
  part fun a t =>
    let units := if a.inLines then lines t else t.map fun c => [c]
    (units.take (if a.isLeftOut then units.length - a.count else a.count)).flatten

/-- The end of files. -/
def tail : Program :=
  part fun a t =>
    let units := if a.inLines then lines t else t.map fun c => [c]
    (units.drop (units.length - a.count)).flatten

-- ======================================================================= order

/-- Files with their lines from last to first. -/
def tac : Program := fun d called input args =>
  eachFile args input fun input name =>
    match Cat.content d input name with
    | (.ok text, left) => ([(.output, (lines text).reverse.flatten)], left, 0)
    | (.error .isDirectory, left) =>
      ([(.errors, called ++ ": " ++ shownName name ++ ": read error: Invalid argument\n")], left, 1)
    | (.error error, left) =>
      ([(.errors, called ++ ": failed to open " ++ quoted name ++ " for reading: " ++ error.text
        ++ "\n")], left, 1)

/-- The lines of a text, each without its end. -/
def bareLines (t : Text) : List Text :=
  (lines t).map fun line => if line.getLast? == some '\n' then line.dropLast else line

/-- Texts without repetitions of the one before. -/
def distinct : List Text → List Text
  | [] => []
  | [t] => [t]
  | a :: b :: rest => if a = b then distinct (b :: rest) else a :: distinct (b :: rest)

/-- The lines of all files in order. -/
def sort : Program := fun d called input args =>
  let letters := (args.filter fun a => a.head? == some '-' && 1 < a.length).flatMap (·.drop 1)
  let files := args.filter fun a => !(a.head? == some '-' && 1 < a.length)
  match letters.find? fun c => !(c == 'r' || c == 'u') with
  | some letter => misuse called ("invalid option -- '" ++ letter :: "'") input
  | none =>
    let names : List Text := if files.isEmpty then [['-']] else files
    match names.find? fun name => (Cat.content d input name).1.toOption.isNone with
    | some name =>
      let reason : Text :=
        match (Cat.content d input name).1 with
        | .error .isDirectory => "read failed: " ++ shownName name ++ ": Is a directory"
        | .error error => "cannot read: " ++ shownName name ++ ": " ++ error.text
        | .ok _ => []
      .failing input (called ++ ": " ++ reason ++ "\n") 2
    | none =>
      let all := names.flatMap fun name =>
        bareLines (((Cat.content d input name).1.toOption).getD [])
      let sorted := Text.sort all
      let chosen := if letters.contains 'u' then distinct sorted else sorted
      let shown := if letters.contains 'r' then chosen.reverse else chosen
      ⟨[(.output, shown.flatMap fun line => line ++ ['\n'])], .text [], 0⟩

-- ======================================================================== size

/-- The words of a text. -/
def wordCount (t : Text) : Nat :=
  (t.foldl
    (fun (count, inWord) c =>
      if Format.isSpace c then (count, false) else (if inWord then count else count + 1, true))
    (0, false)).1

/-- The sizes of a text: lines, words, bytes. -/
def sizes (t : Text) : List Nat :=
  [t.count '\n', wordCount t, t.length]

/-- Which sizes letters ask for. -/
def wanted (letters : Text) : List Bool :=
  if letters.isEmpty then [true, true, true]
  else [letters.contains 'l', letters.contains 'w', letters.contains 'c' || letters.contains 'm']

/-- Numbers in columns of a width. -/
def columns (width : Nat) (numbers : List Nat) : Text :=
  Text.join " " (numbers.map fun n =>
    let digits := Text.ofNat n
    List.replicate (width - digits.length) ' ' ++ digits)

/-- The sizes of files. -/
def wc : Program := fun d called input args =>
  let letters := (args.filter fun a => a.head? == some '-' && 1 < a.length).flatMap (·.drop 1)
  let files := args.filter fun a => !(a.head? == some '-' && 1 < a.length)
  match letters.find? fun c => !("lwcm".toList.contains c) with
  | some letter => misuse called ("invalid option -- '" ++ letter :: "'") input
  | none =>
    let shownSizes (t : Text) : List Nat :=
      ((sizes t).zip (wanted letters)).filterMap fun (n, isWanted) =>
        if isWanted then some n else none
    let contents := files.map fun name => ((Cat.content d input name).1.toOption).getD []
    let isSingle := ((wanted letters).filter id).length == 1 && files.length ≤ 1
    let isIrregular := files.isEmpty || files.any fun name =>
      name = "-" || (Cat.content d input name).1 matches .error .isDirectory
    let total := (contents.map List.length).foldl (· + ·) 0
    let width :=
      if isSingle then 1 else if isIrregular then 7 else (Text.ofNat total).length
    let row (t name : Text) : Text :=
      columns width (shownSizes t) ++ (if name.isEmpty then [] else ' ' :: name) ++ "\n"
    if files.isEmpty then
      match input with
      | .text text => ⟨[(.output, row text [])], .text [], 0⟩
      | .directory =>
        .failing input (called ++ ": 'standard input': Is a directory\n") 1
      | .closed =>
        .failing input (called ++ ": 'standard input': Bad file descriptor\n") 1
    else
      let each := eachFile files input fun input name =>
        match Cat.content d input name with
        | (.ok text, left) => ([(.output, row text name)], left, 0)
        | (.error .isDirectory, left) =>
          ([(.errors, called ++ ": " ++ shownName name ++ ": Is a directory\n"),
            (.output, row [] name)], left, 1)
        | (.error error, left) =>
          ([(.errors, called ++ ": " ++ shownName name ++ ": " ++ error.text ++ "\n")], left, 1)
      if files.length ≤ 1 then each
      else
        let sums := contents.foldl
          (fun sums t => (sums.zip (shownSizes t)).map fun (a, b) => a + b)
          (shownSizes [])
        { each with printed := each.printed ++ [(.output, columns width sums ++ " total\n")] }

-- ================================================================== characters

/-- The characters that a set lists: ranges, classes and escapes. -/
def set (fuel : Nat) (t : Text) : Text :=
  match fuel, t with
  | 0, _ => []
  | _, [] => []
  | fuel + 1, '[' :: ':' :: rest =>
    let name := rest.takeWhile (· != ':')
    match Shell.Pattern.classNames.lookup name with
    | some holds =>
      ((List.range 256).map Char.ofNat).filter holds ++ set fuel (rest.drop (name.length + 2))
    | none => '[' :: ':' :: set fuel rest
  | fuel + 1, '\\' :: rest =>
    let (c, after) := Format.escape rest
    c :: set fuel after
  | fuel + 1, first :: '-' :: last :: rest =>
    if first ≤ last then
      (List.range (last.toNat - first.toNat + 1)).map (fun n : Nat => Char.ofNat (first.toNat + n))
        ++ set fuel rest
    else first :: '-' :: set fuel (last :: rest)
  | fuel + 1, c :: rest => c :: set fuel rest

/-- A text without the second of two equal neighbours of a class. -/
def squeezed (holds : Char → Bool) : Text → Text
  | [] => []
  | [c] => [c]
  | a :: b :: rest =>
    if a == b && holds a then squeezed holds (b :: rest) else a :: squeezed holds (b :: rest)

/-- The input with characters replaced, deleted or squeezed. -/
def tr : Program := fun _ called input args =>
  let letters := (args.filter fun a => a.head? == some '-' && 1 < a.length).flatMap (·.drop 1)
  let sets := (args.filter fun a => !(a.head? == some '-' && 1 < a.length)).map fun s =>
    set (s.length + 1) s
  let text : Text :=
    match input with
    | .text text => text
    | _ => []
  let inFirst (first : Text) (c : Char) : Bool := first.contains c != letters.contains 'c'
  match sets with
  | [] => misuse called "missing operand" input
  | [first] =>
    if letters.contains 'd' then
      ⟨[(.output, text.filter fun c => !inFirst first c)], .text [], 0⟩
    else if letters.contains 's' then ⟨[(.output, squeezed (inFirst first) text)], .text [], 0⟩
    else
      misuse called ("missing operand after " ++ quoted (args.getLastD [])
        ++ "\nTwo strings must be given when translating.") input
  | first :: second :: _ =>
    let replaced := text.map fun c =>
      if !inFirst first c then c
      else if letters.contains 'c' then second.getLastD c
      else second.getD (first.findIdx (· == c)) (second.getLastD c)
    let shown := if letters.contains 's' then squeezed second.contains replaced else replaced
    ⟨[(.output, shown)], .text [], 0⟩

end ComponentPaths.Filter
