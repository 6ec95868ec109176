/-
Formatted printing: backslash escapes, and formats whose directives take
arguments.

Every character is one byte. A format is used again as long as it takes
arguments and some are left; a missing argument counts as empty or zero.
-/
import ComponentPaths.Command.Basic
import ComponentPaths.Decimal.Written

namespace ComponentPaths.Format

-- ===================================================================== escapes

/-- Octal digits. -/
def isOctal (c : Char) : Bool :=
  '0' ≤ c && c ≤ '7'

/-- The value of up to `count` octal digits, and what follows them. -/
def octal : (count : Nat) → Nat → Text → Nat × Text
  | 0, n, t => (n, t)
  | _, n, [] => (n, [])
  | count + 1, n, c :: rest =>
    if isOctal c then octal count (n * 8 + Text.digitValue c) rest else (n, c :: rest)

/-- Letters after a backslash, with the code of what they stand for. -/
def escapeCodes : List (Char × Nat) :=
  [('\\', 92), ('a', 7), ('b', 8), ('e', 27), ('f', 12), ('n', 10), ('r', 13), ('t', 9), ('v', 11)]

/-- What a backslash and the text after it stand for, and the rest. One that
starts nothing stands for itself. -/
def escape (t : Text) : Char × Text :=
  match t with
  | [] => ('\\', [])
  | c :: rest =>
    match escapeCodes.lookup c with
    | some code => (Char.ofNat code, rest)
    | none =>
      if isOctal c then
        let (n, after) := octal 3 0 t
        (Char.ofNat (n % 256), after)
      else ('\\', t)

/-- A text with its escapes replaced, and whether one of them ends all
printing. An octal number may have a zero before its three digits. -/
def unescape (fuel : Nat) (t : Text) : Text × Bool :=
  match fuel, t with
  | 0, _ => ([], false)
  | _, [] => ([], false)
  | _, '\\' :: 'c' :: _ => ([], true)
  | fuel + 1, '\\' :: rest =>
    let digits :=
      match rest with
      | '0' :: d :: _ => if isOctal d then rest.drop 1 else rest
      | _ => rest
    let (c, after) := escape digits
    let (others, ends) := unescape fuel after
    (c :: others, ends)
  | fuel + 1, c :: rest =>
    let (others, ends) := unescape fuel rest
    (c :: others, ends)

/-- A text with all its escapes replaced. -/
def unescaped (t : Text) : Text × Bool :=
  unescape (t.length + 1) t

/-- What `echo` prints: its arguments with blanks between them and their escapes
replaced, and a line end unless the first argument forbids it. -/
def echo (args : List Text) : Text :=
  let (isOpen, shown) : Bool × List Text :=
    match args with
    | first :: rest => if first = "-n" then (true, rest) else (false, args)
    | [] => (false, [])
  let (text, ends) := unescaped (Text.join " " shown)
  if ends || isOpen then text else text ++ "\n"

-- ===================================================================== numbers

/-- Greatest values of signed words. -/
def signedLimit : Nat :=
  Nat.pow 2 63

/-- The value of a digit in any base up to sixteen. -/
def digit? (base : Nat) (c : Char) : Option Nat :=
  let value :=
    if c.isDigit then some (Text.digitValue c)
    else if 'a' ≤ c && c ≤ 'f' then some (c.toNat - 'a'.toNat + 10)
    else if 'A' ≤ c && c ≤ 'F' then some (c.toNat - 'A'.toNat + 10)
    else none
  value.filter (· < base)

/-- The number at the start of a text, in a base, and what follows it. -/
def digits (base : Nat) (t : Text) : Nat × Text :=
  let written := t.takeWhile fun c => (digit? base c).isSome
  (written.foldl (fun n c => n * base + (digit? base c).getD 0) 0, t.drop written.length)

/-- The characters that may stand before a number. -/
def isSpace (c : Char) : Bool :=
  c == ' ' || (9 ≤ c.toNat && c.toNat ≤ 13)

/-- A number at the start of a text: whether it is negative, its size and what
follows. Nothing is read if there is no digit. -/
def number (t : Text) : Bool × Nat × Text :=
  let spaceless := t.dropWhile isSpace
  let (isNegative, unsigned) : Bool × Text :=
    match spaceless with
    | '-' :: rest => (true, rest)
    | '+' :: rest => (false, rest)
    | rest => (false, rest)
  let hexadecimal :=
    match unsigned with
    | '0' :: x :: d :: rest =>
      if (x == 'x' || x == 'X') && (digit? 16 d).isSome then some (d :: rest) else none
    | _ => none
  match hexadecimal, unsigned with
  | some rest, _ =>
    let (n, after) := digits 16 rest
    (isNegative, n, after)
  | none, '0' :: _ =>
    let (n, after) := digits 8 unsigned
    (isNegative, n, after)
  | none, c :: _ =>
    if c.isDigit then
      let (n, after) := digits 10 unsigned
      (isNegative, n, after)
    else (false, 0, t)
  | none, [] => (false, 0, t)

/-- What can be wrong with a number. -/
inductive Defect where
  | noNumber
  | notAll
  | outOfRange
  deriving DecidableEq, Repr

/-- A number and what is wrong with it. -/
abbrev Measured (α : Type) := α × Option Defect

/-- What is wrong with a number that was read up to `rest` from `t`. -/
def defect? (t rest : Text) (isOut : Bool) : Option Defect :=
  if !rest.isEmpty then if rest.length == t.length then some .noNumber else some .notAll
  else if isOut then some .outOfRange
  else none

/-- The code of a character after a quote. -/
def quotedCode? : Text → Option Nat
  | q :: rest => if q == '"' || q == '\'' then some ((rest.headD '\x00').toNat) else none
  | [] => none

/-- A signed number as an argument. -/
def signedArgument (t : Text) : Measured Int :=
  match quotedCode? t with
  | some code => (code, none)
  | none =>
    let (isNegative, n, rest) := number t
    let limit := if isNegative then signedLimit else signedLimit - 1
    let size : Int := min n limit
    (if isNegative then -size else size, defect? t rest (limit < n))

/-- An unsigned number as an argument; a negative one counts from the top. -/
def unsignedArgument (t : Text) : Measured Nat :=
  match quotedCode? t with
  | some code => (code, none)
  | none =>
    let (isNegative, n, rest) := number t
    let tooLarge := Text.wordCount ≤ n
    let size := if tooLarge then Text.wordCount - 1 else n
    (if isNegative && !tooLarge then (Text.wordCount - size) % Text.wordCount else size,
      defect? t rest tooLarge)

/-- A floating point number as an argument. -/
def realArgument (f : Fineness) (t : Text) : Measured Floating :=
  match quotedCode? t with
  | some code => ((Floating.ofRatio f false code 1).1, none)
  | none =>
    match Floating.read? f t with
    | some (value, isOut, rest) => (value, defect? t rest isOut)
    | none => (.finite false 0 f.least, defect? t t false)

-- ===================================================================== layouts

/-- How a directive lays out its argument. -/
structure Layout where
  flags : Text
  width : Nat
  precision : Option Nat
  deriving DecidableEq, Repr

/-- Whether a layout has a flag. -/
def Layout.has (layout : Layout) (flag : Char) : Bool :=
  layout.flags.contains flag

/-- A text filled up to the width of a layout. -/
def Layout.pad (layout : Layout) (t : Text) : Text :=
  let blanks := List.replicate (layout.width - t.length) ' '
  if layout.has '-' then t ++ blanks else blanks ++ t

/-- A text with the layout of texts: cut, then filled. -/
def Layout.text (layout : Layout) (t : Text) : Text :=
  layout.pad (match layout.precision with | some n => t.take n | none => t)

/-- Digits after a sign, filled with zeros or blanks. -/
def Layout.filled (layout : Layout) (sign digits : Text) : Text :=
  if layout.has '0' && !layout.has '-' then
    sign ++ List.replicate (layout.width - sign.length - digits.length) '0' ++ digits
  else layout.pad (sign ++ digits)

/-- The digits of a number with the layout of numbers, after a sign. -/
def Layout.number (layout : Layout) (sign digits : Text) : Text :=
  match layout.precision with
  | some n =>
    let shown : Text := if n == 0 && digits == ['0'] then [] else digits
    layout.pad (sign ++ List.replicate (n - shown.length) '0' ++ shown)
  | none => layout.filled sign digits

/-- The sign that a layout shows. -/
def Layout.sign (layout : Layout) (isNegative : Bool) : Text :=
  if isNegative then ['-']
  else if layout.has '+' then ['+']
  else if layout.has ' ' then [' ']
  else []

/-- A signed number. -/
def Layout.signed (layout : Layout) (n : Int) : Text :=
  layout.number (layout.sign (n < 0)) (Text.ofNat n.natAbs)

/-- An unsigned number in the base of a directive. -/
def Layout.unsigned (layout : Layout) (directive : Char) (n : Nat) : Text :=
  let digits :=
    match directive with
    | 'o' => Nat.toDigits 8 n
    | 'x' => Nat.toDigits 16 n
    | 'X' => (Nat.toDigits 16 n).map Char.toUpper
    | _ => Text.ofNat n
  if layout.has '#' && n != 0 then
    match directive with
    | 'o' => layout.number [] ('0' :: digits)
    | 'x' => layout.number ['0', 'x'] digits
    | 'X' => layout.number ['0', 'X'] digits
    | _ => layout.number [] digits
  else layout.number [] digits

/-- The digits of a finite number in the style of a directive, after what stands
before all its digits. `leading` is for the first hexadecimal digit. -/
def Layout.realDigits (layout : Layout) (f : Fineness) (leading : Nat) (directive : Char)
    (significand : Nat) (exponent : Int) : Text × Text :=
  let places := layout.precision.getD 6
  let point := layout.has '#'
  match directive.toLower with
  | 'e' => ([], Floating.scientific point places significand exponent)
  | 'f' => ([], Floating.fixed point places significand exponent)
  | 'g' => ([], Floating.general point places significand exponent)
  | _ =>
    (['0', 'x'], Floating.hexadecimal f leading point layout.precision significand exponent)

/-- A floating point number in the style of a directive. -/
def Layout.real (layout : Layout) (f : Fineness) (leading : Nat) (directive : Char)
    (value : Floating) : Text :=
  let shown :=
    match value with
    | .finite isNegative significand exponent =>
      let (start, digits) := layout.realDigits f leading directive significand exponent
      layout.filled (layout.sign isNegative ++ start) digits
    | .infinite isNegative => layout.pad (layout.sign isNegative ++ "inf")
    | .undefined isNegative => layout.pad (layout.sign isNegative ++ "nan")
  if directive.isUpper then shown.map Char.toUpper else shown

-- ================================================================== directives

/-- What differs between those that print with formats: how fine their floating
point numbers are, the letters that may stand before a directive, and the words
of their messages. -/
structure Dialect where
  fineness : Fineness
  /-- How many bits the first hexadecimal digit has. -/
  leading : Nat
  flags : Text
  /-- Letters that say how long a number is, and change nothing. -/
  lengths : Text
  noNumber : Text → Text
  notAll : Text → Text
  outOfRange : Text → Text
  noDirective : Text → Text
  /-- For a format that ends inside a directive. -/
  noLetter : Text → Text
  /-- Whether escapes in a format can end all printing or give a number in
  hexadecimal digits, and texts that are laid out have no escapes. -/
  isRich : Bool

/-- The message about a number. -/
def Dialect.message (d : Dialect) (t : Text) : Defect → Text
  | .noNumber => d.noNumber t
  | .notAll => d.notAll t
  | .outOfRange => d.outOfRange t

/-- Printing under way. -/
structure Printing where
  args : List Text
  /-- What has been printed and what was wrong, last first. -/
  printed : List (Stream × Text)
  /-- Whether an escape has ended all printing. -/
  isEnded : Bool
  /-- A fault that ends the command. -/
  fault : Option Text
  deriving DecidableEq, Repr

namespace Printing

/-- More output. -/
def put (p : Printing) (t : Text) : Printing :=
  { p with printed := (.output, t) :: p.printed }

/-- The next argument, and printing without it. -/
def take (p : Printing) : Text × Printing :=
  (p.args.headD [], { p with args := p.args.tail })

/-- A message about an argument, if something is wrong with it. -/
def complain (p : Printing) (d : Dialect) (t : Text) (c : Option Defect) : Printing :=
  match c with
  | some defect => { p with printed := (.errors, d.message t defect) :: p.printed }
  | none => p

/-- What was printed to one stream. -/
def text (p : Printing) (stream : Stream) : List Text :=
  p.printed.reverse.filterMap fun (target, t) => if target = stream then some t else none

/-- The next argument as a signed number. -/
def takeSigned (p : Printing) (d : Dialect) : Int × Printing :=
  let (t, rest) := p.take
  let (n, c) := signedArgument t
  (n, rest.complain d t c)

/-- A directive with the next argument. `written` is how the directive is
written, for the message about one that there is not. -/
def directive (p : Printing) (d : Dialect) (layout : Layout) (written : Text) (kind : Char) :
    Printing :=
  match kind with
  | 's' =>
    let (t, rest) := p.take
    rest.put (layout.text t)
  | 'b' =>
    if d.isRich && written.length != 2 then { p with fault := some (d.noDirective written) }
    else
      let (t, rest) := p.take
      let (text, ends) := unescaped t
      { rest.put (layout.text text) with isEnded := ends }
  | 'c' =>
    let (t, rest) := p.take
    rest.put (layout.pad [t.headD '\x00'])
  | 'd' | 'i' =>
    let (n, rest) := p.takeSigned d
    rest.put (layout.signed n)
  | 'o' | 'u' | 'x' | 'X' =>
    let (t, rest) := p.take
    let (n, c) := unsignedArgument t
    (rest.complain d t c).put (layout.unsigned kind n)
  | 'a' | 'A' | 'e' | 'E' | 'f' | 'F' | 'g' | 'G' =>
    let (t, rest) := p.take
    let (value, c) := realArgument d.fineness t
    (rest.complain d t c).put (layout.real d.fineness d.leading kind value)
  | _ => { p with fault := some (d.noDirective written) }

end Printing

/-- A number of a layout: written, or taken from the arguments after an asterisk. -/
def measure (d : Dialect) (p : Printing) (t : Text) : Option Int × Printing × Text :=
  match t with
  | '*' :: rest =>
    let (n, p) := p.takeSigned d
    (some n, p, rest)
  | _ =>
    let written := t.takeWhile Char.isDigit
    (if written.isEmpty then none else some (Text.natOfDigits written : Int), p,
      t.drop written.length)

/-- The directive after a percent sign, printed, and what follows it. -/
def conversion (d : Dialect) (p : Printing) (t : Text) : Printing × Text :=
  let flags := t.takeWhile d.flags.contains
  let (width, p, rest) := measure d p (t.drop flags.length)
  let (precision, p, rest) : Option Int × Printing × Text :=
    match rest with
    | '.' :: after =>
      let (n, p, rest) := measure d p after
      (some (n.getD 0), p, rest)
    | _ => (none, p, rest)
  let width := width.getD 0
  let layout : Layout :=
    ⟨if width < 0 then '-' :: flags else flags, width.natAbs,
      precision.bind fun n => if n < 0 then none else some n.toNat⟩
  match rest.dropWhile d.lengths.contains with
  | [] => ({ p with fault := some (d.noLetter ('%' :: t)) }, [])
  | kind :: after =>
    let written := '%' :: t.take (t.length - after.length)
    (p.directive d layout written kind, after)

/-- A number in hexadecimal digits after a letter, at most so many, and what
follows it. -/
def hexadecimal? (count : Nat) (t : Text) : Option (Nat × Text) :=
  let written := (t.take count).takeWhile fun c => (digit? 16 c).isSome
  if written.isEmpty then none else some ((digits 16 written).1, t.drop written.length)

/-- A format used once. -/
def pass (d : Dialect) (fuel : Nat) (p : Printing) (t : Text) : Printing :=
  match fuel, t with
  | 0, _ => p
  | _, [] => p
  | fuel + 1, '\\' :: rest =>
    match d.isRich, rest with
    | true, 'c' :: _ => { p with isEnded := true }
    | true, '"' :: after => pass d fuel (p.put ['"']) after
    | true, 'x' :: after =>
      match hexadecimal? 2 after with
      | some (n, after) => pass d fuel (p.put [Char.ofNat n]) after
      | none => { p with fault := some "missing hexadecimal number in escape" }
    | _, _ =>
      let (c, after) := escape rest
      pass d fuel (p.put [c]) after
  | fuel + 1, '%' :: '%' :: rest => pass d fuel (p.put ['%']) rest
  | fuel + 1, '%' :: rest =>
    let (p, after) := conversion d p rest
    if p.isEnded || p.fault.isSome then p else pass d fuel p after
  | fuel + 1, c :: rest => pass d fuel (p.put [c]) rest

/-- A format used as long as it takes arguments and some are left. -/
def passes (d : Dialect) (format : Text) : Nat → Printing → Printing
  | 0, p => p
  | fuel + 1, p =>
    let after := pass d (format.length + 1) p format
    if after.isEnded || after.fault.isSome || after.args.isEmpty
        || after.args.length == p.args.length then after
    else passes d format fuel after

/-- What a format prints with its arguments. -/
def print (d : Dialect) (format : Text) (args : List Text) : Printing :=
  passes d format (args.length + 1) ⟨args, [], false, none⟩

end ComponentPaths.Format
