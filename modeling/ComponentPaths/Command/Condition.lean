/-
Conditions: what `test` decides about texts, numbers and files.

A word is an operator only where its neighbours allow it: one that could be
the operand of a comparison is no operator. The reading follows the words
from left to right and ends where no operator joins two conditions.
-/
import ComponentPaths.Command.Format
import ComponentPaths.Disk.Basic
import ComponentPaths.Text.Octets

namespace ComponentPaths.Condition

/-- Comparisons. -/
inductive Comparison where
  | same
  | different
  | before
  | after
  | equal
  | unequal
  | greater
  | atLeast
  | less
  | atMost
  | newer
  | older
  | identical
  deriving DecidableEq, Repr

/-- Operators. -/
inductive Operator where
  | negation
  | conjunction
  | disjunction
  | opening
  | closing
  /-- A question about one operand, by its letter. -/
  | question (letter : Char)
  | comparison (kind : Comparison)
  deriving DecidableEq, Repr

/-- Operators that join or group conditions. -/
def joiners : List (Text × Operator) :=
  [("!", .negation), ("-a", .conjunction), ("-o", .disjunction), ("(", .opening), (")", .closing)]

/-- Comparisons, by how they are written. -/
def comparisons : List (Text × Comparison) :=
  [("=", .same), ("!=", .different), ("<", .before), (">", .after), ("-eq", .equal),
    ("-ne", .unequal), ("-gt", .greater), ("-ge", .atLeast), ("-lt", .less), ("-le", .atMost),
    ("-nt", .newer), ("-ot", .older), ("-ef", .identical)]

/-- Letters of questions about one operand. -/
def questions : Text :=
  "rwxefdcbpugksthOGLSzn"

/-- The operator that a word can be. -/
def operator? (word : Text) : Option Operator :=
  match joiners.lookup word, comparisons.lookup word with
  | some operator, _ => some operator
  | none, some kind => some (.comparison kind)
  | none, none =>
    match word with
    | ['-', letter] => if questions.contains letter then some (.question letter) else none
    | _ => none

/-- Whether a word can be a comparison. -/
def isComparison (word : Text) : Bool :=
  match operator? word with
  | some (.comparison _) => true
  | _ => false

/-- What the first of some words is. -/
inductive Lexeme where
  | finish
  | operand
  | operator (kind : Operator)
  deriving DecidableEq, Repr

/-- Whether a question at the start of some words is only an operand. -/
def isOperand : List Text → Bool
  | [] => true
  | [_] => true
  | [_, _] => false
  | _ :: second :: _ => isComparison second

/-- What the first of some words is. -/
def lexeme (words : List Text) : Lexeme :=
  match words with
  | [] => .finish
  | word :: rest =>
    match operator? word with
    | none => .operand
    | some (.question letter) =>
      if isOperand words then .operand else .operator (.question letter)
    | some .opening => if rest.isEmpty then .operand else .operator .opening
    | some kind => .operator kind

-- ===================================================================== answers

/-- A number as an operand, with blanks around it. -/
def number? (t : Text) : Option Int :=
  let spaceless := t.dropWhile Format.isSpace
  let (isNegative, unsigned) : Bool × Text :=
    match spaceless with
    | '-' :: rest => (true, rest)
    | '+' :: rest => (false, rest)
    | rest => (false, rest)
  let digits := unsigned.takeWhile Char.isDigit
  if digits.isEmpty || !(unsigned.drop digits.length).all Format.isSpace then none
  else
    let n : Int := Text.natOfDigits digits
    some (if isNegative then -n else n)

/-- What a path name leads to. -/
def found? (d : Disk) (path : Text) : Option Entry :=
  match d.stat (Octets.toText path) with
  | .ok entry => some entry
  | .error _ => none

/-- The answer to a question about one operand. Only directories can be
executed here. -/
def answer (d : Disk) (letter : Char) (operand : Text) : Bool :=
  match letter with
  | 'z' => operand.isEmpty
  | 'n' => !operand.isEmpty
  | 'e' | 'r' | 'w' | 'O' | 'G' => (found? d operand).isSome
  | 'f' =>
    match found? d operand with
    | some (.file _) => true
    | _ => false
  | 'd' | 'x' => found? d operand == some .directory
  | 's' =>
    match found? d operand with
    | some (.file content) => !content.isEmpty
    | some .directory => true
    | none => false
  | _ => false

/-- The outcome of a comparison. -/
def compare (d : Disk) (kind : Comparison) (first second : Text) : Except Text Bool :=
  let numeric (holds : Int → Int → Bool) : Except Text Bool :=
    match number? first, number? second with
    | some a, some b => .ok (holds a b)
    | none, _ => .error ("Illegal number: " ++ first)
    | _, none => .error ("Illegal number: " ++ second)
  match kind with
  | .same => .ok (first == second)
  | .different => .ok (first != second)
  | .before => .ok (first != second && Text.notAfter first second)
  | .after => .ok (first != second && Text.notAfter second first)
  | .equal => numeric fun a b => a == b
  | .unequal => numeric fun a b => a != b
  | .greater => numeric fun a b => b < a
  | .atLeast => numeric fun a b => b ≤ a
  | .less => numeric fun a b => a < b
  | .atMost => numeric fun a b => a ≤ b
  | .newer => .ok false
  | .older => .ok false
  | .identical =>
    match d.locate (Octets.toText first), d.locate (Octets.toText second) with
    | .ok a, .ok b => .ok (a == b && (d.entry? a).isSome)
    | _, _ => .ok false

-- ===================================================================== reading

/-- A condition read: whether it holds, and the words from its last one on. -/
abbrev Reading := Except Text (Bool × List Text)

/-- The rest of a comparison after its first operand. -/
def comparison (d : Disk) (first : Text) (rest : List Text) : Reading :=
  match rest with
  | written :: second :: _ =>
    match comparisons.lookup written with
    | some kind =>
      match compare d kind first second with
      | .ok holds => .ok (holds, rest.drop 1)
      | .error message => .error message
    | none => .ok (!first.isEmpty, first :: rest)
  | [written] => .error (written ++ ": argument expected")
  | [] => .ok (!first.isEmpty, first :: rest)

mutual

/-- Conditions one of which has to hold. -/
def anyOf (d : Disk) : Nat → Lexeme → List Text → Reading
  | 0, _, words => .ok (false, words)
  | fuel + 1, first, words =>
    match allOf d fuel first words with
    | .error message => .error message
    | .ok (holds, last) =>
      match lexeme (last.drop 1) with
      | .operator .disjunction =>
        match anyOf d fuel (lexeme (last.drop 2)) (last.drop 2) with
        | .error message => .error message
        | .ok (others, last) => .ok (holds || others, last)
      | _ => .ok (holds, last)

/-- Conditions all of which have to hold. -/
def allOf (d : Disk) : Nat → Lexeme → List Text → Reading
  | 0, _, words => .ok (false, words)
  | fuel + 1, first, words =>
    match negatable d fuel first words with
    | .error message => .error message
    | .ok (holds, last) =>
      match lexeme (last.drop 1) with
      | .operator .conjunction =>
        match allOf d fuel (lexeme (last.drop 2)) (last.drop 2) with
        | .error message => .error message
        | .ok (others, last) => .ok (holds && others, last)
      | _ => .ok (holds, last)

/-- A condition or its contrary. -/
def negatable (d : Disk) : Nat → Lexeme → List Text → Reading
  | 0, _, words => .ok (false, words)
  | fuel + 1, first, words =>
    match first with
    | .operator .negation =>
      let second := lexeme (words.drop 1)
      let rest := if second == .finish then words else words.drop 1
      match negatable d fuel second rest with
      | .error message => .error message
      | .ok (holds, last) => .ok (!holds, last)
    | _ => primary d fuel first words

/-- A condition without a joiner. -/
def primary (d : Disk) : Nat → Lexeme → List Text → Reading
  | 0, _, words => .ok (false, words)
  | fuel + 1, first, words =>
    match first with
    | .finish => .ok (false, words)
    | .operator .opening =>
      let inner := words.drop 1
      match lexeme inner with
      | .operator .closing => .ok (false, inner)
      | second =>
        match anyOf d fuel second inner with
        | .error message => .error message
        | .ok (holds, last) =>
          match lexeme (last.drop 1) with
          | .operator .closing => .ok (holds, last.drop 1)
          | _ => .error "closing paren expected"
    | .operator (.question letter) =>
      match words.drop 1 with
      | [] => .error (['-', letter] ++ ": argument expected")
      | operand :: rest => .ok (answer d letter operand, operand :: rest)
    | _ =>
      match words with
      | [] => .ok (false, [])
      | operand :: rest =>
        if isComparison (rest.headD []) then comparison d operand rest
        else .ok (!operand.isEmpty, words)

end

/-- Whether words hold as a condition, given the contrary of which is asked. -/
def holdsFrom (d : Disk) (isNegated : Bool) (first : Lexeme) (words : List Text) :
    Except Text Bool :=
  match anyOf d (4 * words.length + 8) first words with
  | .error message => .error message
  | .ok (holds, last) =>
    match last with
    | word :: _ :: _ =>
      .error (if word.isEmpty then "unexpected operator" else word ++ ": unexpected operator")
    | _ => .ok (holds != isNegated)

/-- Whether words hold as a condition. A comparison of two words and a negation
of few are seen first, whatever else the words could be. -/
def holds (d : Disk) (fuel : Nat) (isNegated : Bool) (words : List Text) : Except Text Bool :=
  match fuel, words with
  | _, [] => .ok isNegated
  | 0, _ => .ok isNegated
  | fuel + 1, first :: rest =>
    let count := words.length
    if count == 3 && isComparison (rest.headD []) then holdsFrom d isNegated .operand words
    else if (count == 3 || count == 4) && first = "(" && words.getLast? == some [')'] then
      let inner := rest.dropLast
      holdsFrom d isNegated (lexeme inner) inner
    else if (count == 3 || count == 4) && first = "!" then holds d fuel true rest
    else holdsFrom d isNegated (lexeme words) words

/-- What `test` says about its arguments. -/
def test (d : Disk) (words : List Text) : Except Text Bool :=
  holds d (words.length + 1) false words

/-- What `[` says about its arguments, the last of which has to close it. -/
def bracket (d : Disk) (words : List Text) : Except Text Bool :=
  match words.getLast? with
  | some [']'] => test d words.dropLast
  | _ => .error "missing ]"

end ComponentPaths.Condition
