/-
Arithmetic in scripts: expressions over machine integers and variables.

An expression is cut into tokens, then read by the strength of its operators.
The value of a variable is read when it is used; an assignment gives back the
value and is carried out at the end by the caller. What is not evaluated,
because the first operand decides, is still read.
-/
import ComponentPaths.Command.Format
import ComponentPaths.Command.Shell.Syntax

namespace ComponentPaths.Shell.Arithmetic

/-- A number as a signed machine word: its remainder nearest to zero. -/
def wrap (n : Int) : Int :=
  Int.bmod n Text.wordCount

/-- The units of an expression. -/
inductive Token where
  | number (n : Int)
  | name (name : Text)
  | sign (written : Text)
  /-- A character that belongs to no expression. -/
  | stray
  deriving DecidableEq, Repr

/-- Signs of more than one character, the longer ones first. -/
def longSigns : List Text :=
  ["<<=", ">>=", "<<", ">>", "<=", ">=", "==", "!=", "&&", "||", "+=", "-=", "*=", "/=", "%=",
    "&=", "|=", "^="]

/-- Signs, the longer ones first. -/
def signs : List Text :=
  longSigns ++ "+-*/%<>=!~&|^?:()".toList.map fun c => [c]

/-- The tokens of an expression. -/
def tokens (fuel : Nat) (t : Text) : List Token :=
  match fuel, t with
  | 0, _ => []
  | _, [] => []
  | fuel + 1, c :: rest =>
    if Format.isSpace c then tokens fuel rest
    else if c.isDigit then
      let (_, n, after) := Format.number t
      .number (wrap n) :: tokens fuel after
    else if startsName c then
      .name (t.takeWhile inName) :: tokens fuel (t.dropWhile inName)
    else
      match signs.findSome? fun written => (Text.dropHead? written t).map fun after =>
          (written, after) with
      | some (written, after) => .sign written :: tokens fuel after
      | none => .stray :: tokens fuel rest

/-- Variables and what an expression makes of them. -/
structure Scope where
  value : Text → Option Text
  assigned : List (Text × Text)

/-- The value of a variable, after the assignments so far. -/
def Scope.value? (s : Scope) (name : Text) : Option Text :=
  match s.assigned.lookup name with
  | some value => some value
  | none => s.value name

/-- Why an expression has no value. -/
inductive Fault where
  | expectingPrimary
  | expectingEnd
  | expectingClosing
  | expectingColon
  | divisionByZero
  | illegalNumber (value : Text)
  deriving DecidableEq, Repr

/-- An evaluation: the value, the variables and the tokens left. -/
abbrev Evaluation := Except Fault (Int × Scope × List Token)

/-- A truth value as a number. -/
def ofBool (b : Bool) : Int :=
  if b then 1 else 0

/-- How strongly binary operators bind. -/
def strengths : List (Text × Nat) :=
  [("||", 1), ("&&", 2), ("|", 3), ("^", 4), ("&", 5), ("==", 6), ("!=", 6), ("<", 7), (">", 7),
    ("<=", 7), (">=", 7), ("<<", 8), (">>", 8), ("+", 9), ("-", 9), ("*", 10), ("/", 10),
    ("%", 10)]

/-- The bits of a machine word. -/
def bits (n : Int) : Nat :=
  (n % (Text.wordCount : Int)).toNat

/-- The value of a binary operator. -/
def apply (written : Text) (a b : Int) : Except Fault Int :=
  if written = "+" then .ok (wrap (a + b))
  else if written = "-" then .ok (wrap (a - b))
  else if written = "*" then .ok (wrap (a * b))
  else if written = "/" then if b == 0 then .error .divisionByZero else .ok (wrap (Int.tdiv a b))
  else if written = "%" then if b == 0 then .error .divisionByZero else .ok (wrap (Int.tmod a b))
  else if written = "<<" then .ok (wrap (a * (Nat.pow 2 (bits b % 64) : Nat)))
  else if written = ">>" then .ok (Int.fdiv a (Nat.pow 2 (bits b % 64) : Nat))
  else if written = "<" then .ok (ofBool (a < b))
  else if written = ">" then .ok (ofBool (b < a))
  else if written = "<=" then .ok (ofBool (a ≤ b))
  else if written = ">=" then .ok (ofBool (b ≤ a))
  else if written = "==" then .ok (ofBool (a == b))
  else if written = "!=" then .ok (ofBool (a != b))
  else if written = "&" then .ok (wrap (Nat.land (bits a) (bits b)))
  else if written = "|" then .ok (wrap (Nat.lor (bits a) (bits b)))
  else if written = "^" then .ok (wrap (Nat.xor (bits a) (bits b)))
  else .error .expectingEnd

/-- The number that a variable holds. One without a value holds zero. -/
def numberIn (s : Scope) (name : Text) : Except Fault Int :=
  match s.value? name with
  | none => .ok 0
  | some value =>
    let (isNegative, n, rest) := Format.number value
    if value.isEmpty then .ok 0
    else if !rest.all Format.isSpace then .error (.illegalNumber value)
    else .ok (wrap (if isNegative then -n else n))

/-- A number as the value of a variable. -/
def written (n : Int) : Text :=
  Text.ofInt n

/-- The operator of an assignment, which is empty where the value is only
replaced. -/
def assigning? : Token → Option Text
  | .sign ['='] => some []
  | .sign w => if ["<<=", ">>=", "+=", "-=", "*=", "/=", "%=", "&=", "|=", "^="].any
      (·.toList == w) then some w.dropLast else none
  | _ => none

mutual

/-- An assignment, or a choice between two values. -/
def whole : Nat → Bool → Scope → List Token → Evaluation
  | 0, _, _, _ => .error .expectingPrimary
  | fuel + 1, live, s, ts => do
    match ts with
    | .name name :: sign :: rest =>
      match assigning? sign with
      | some operator =>
        let (b, s, rest) ← whole fuel live s rest
        let n ←
          if operator.isEmpty || !live then pure b
          else do apply operator (← numberIn s name) b
        return (n, if live then { s with assigned := (name, written n) :: s.assigned } else s, rest)
      | none => choice fuel live s ts
    | _ => choice fuel live s ts

/-- A choice between two values, or binary operators. -/
def choice : Nat → Bool → Scope → List Token → Evaluation
  | 0, _, _, _ => .error .expectingPrimary
  | fuel + 1, live, s, ts => do
    let (n, s, rest) ← binary fuel live 1 s ts
    match rest with
    | .sign ['?'] :: rest =>
      let (a, s, rest) ← whole fuel (live && n != 0) s rest
      match rest with
      | .sign [':'] :: rest =>
        let (b, s, rest) ← choice fuel (live && n == 0) s rest
        return (if n != 0 then a else b, s, rest)
      | _ => .error .expectingColon
    | _ => return (n, s, rest)

/-- Binary operators of some strength and above. -/
def binary : Nat → Bool → Nat → Scope → List Token → Evaluation
  | 0, _, _, _, _ => .error .expectingPrimary
  | fuel + 1, live, least, s, ts => do
    let (a, s, rest) ← unary fuel live s ts
    more fuel live least a s rest

/-- Binary operators after a first operand. -/
def more : Nat → Bool → Nat → Int → Scope → List Token → Evaluation
  | 0, _, _, _, _, _ => .error .expectingPrimary
  | fuel + 1, live, least, a, s, ts => do
    match ts with
    | .sign w :: rest =>
      match strengths.lookup w with
      | none => return (a, s, ts)
      | some strength =>
        if strength < least then return (a, s, ts)
        else
          let decided := (w == "||" && a != 0) || (w == "&&" && a == 0)
          let (b, s, rest) ← binary fuel (live && !decided) (strength + 1) s rest
          let n ←
            if w == "||" then pure (ofBool (a != 0 || b != 0))
            else if w == "&&" then pure (ofBool (a != 0 && b != 0))
            else if live then apply w a b
            else pure 0
          more fuel live least n s rest
    | _ => return (a, s, ts)

/-- A value with the signs before it. -/
def unary : Nat → Bool → Scope → List Token → Evaluation
  | 0, _, _, _ => .error .expectingPrimary
  | fuel + 1, live, s, ts => do
    match ts with
    | .sign ['-'] :: rest =>
      let (n, s, rest) ← unary fuel live s rest
      return (wrap (-n), s, rest)
    | .sign ['+'] :: rest => unary fuel live s rest
    | .sign ['!'] :: rest =>
      let (n, s, rest) ← unary fuel live s rest
      return (ofBool (n == 0), s, rest)
    | .sign ['~'] :: rest =>
      let (n, s, rest) ← unary fuel live s rest
      return (-n - 1, s, rest)
    | .sign ['('] :: rest =>
      let (n, s, rest) ← whole fuel live s rest
      match rest with
      | .sign [')'] :: rest => return (n, s, rest)
      | _ => .error .expectingClosing
    | .number n :: rest => return (n, s, rest)
    | .name name :: rest =>
      let n ← if live then numberIn s name else pure 0
      return (n, s, rest)
    | _ => .error .expectingPrimary

end

/-- The text of a fault in an expression. -/
def Fault.message (fault : Fault) (expression : Text) : Text :=
  let within (what : Text) : Text :=
    "arithmetic expression: " ++ what ++ ": \"" ++ expression ++ "\""
  match fault with
  | .expectingPrimary => within "expecting primary"
  | .expectingEnd => within "expecting EOF"
  | .expectingClosing => within "expecting ')'"
  | .expectingColon => within "expecting ':'"
  | .divisionByZero => within "division by zero"
  | .illegalNumber value => "Illegal number: " ++ value

/-- The value of an expression and the assignments it makes, last first. -/
def evaluate (value : Text → Option Text) (expression : Text) :
    Except Text (Int × List (Text × Text)) :=
  let ts := tokens (expression.length + 1) expression
  match whole (8 * ts.length + 8) true ⟨value, []⟩ ts with
  | .error fault => .error (fault.message expression)
  | .ok (n, s, []) => .ok (n, s.assigned)
  | .ok (_, _, _ :: _) => .error (Fault.expectingEnd.message expression)

end ComponentPaths.Shell.Arithmetic
