/-
JSON texts as documents: what is written, before anything is decided about
what it means.

A document keeps numerals as digits, members of objects in order and with
repetitions, and strings whose escapes name half of a surrogate pair. So a
reader can pass over parts it does not need without judging them.

Reading goes in two steps that each walk their input once. `tokens` cuts the
text, and `Reading.step` takes one token to the next state of a reading,
which holds the arrays and objects that are still open.
-/
import ComponentPaths.Json.Number

namespace ComponentPaths.Json

/-- What a JSON text says. A string is missing when an escape in it names half
of a surrogate pair. -/
inductive Document where
  | null
  | bool (value : Bool)
  | number (value : Numeral)
  | string (value : Option Text)
  | array (items : List Document)
  | object (members : List (Option Text × Document))

/-- The lexical units of JSON. -/
inductive Token where
  | openArray
  | closeArray
  | openObject
  | closeObject
  | comma
  | colon
  | scalar (value : Document)
  | string (value : Option Text)

namespace Token

-- ================================================================= strings

/-- The value of a hexadecimal digit. -/
def hexValue? (c : Char) : Option Nat :=
  if c.isDigit then some (c.toNat - '0'.toNat)
  else if 'a' ≤ c ∧ c ≤ 'f' then some (c.toNat - 'a'.toNat + 10)
  else if 'A' ≤ c ∧ c ≤ 'F' then some (c.toNat - 'A'.toNat + 10)
  else none

/-- The code that four hexadecimal digits name. -/
def hexCode? (a b c d : Char) : Option Nat :=
  match hexValue? a, hexValue? b, hexValue? c, hexValue? d with
  | some w, some x, some y, some z => some (((w * 16 + x) * 16 + y) * 16 + z)
  | _, _, _, _ => none

/-- The code of a one-letter escape. -/
def escapeCode? : Char → Option Nat
  | '"' => some 0x22
  | '\\' => some 0x5C
  | '/' => some 0x2F
  | 'b' => some 0x08
  | 'f' => some 0x0C
  | 'n' => some 0x0A
  | 'r' => some 0x0D
  | 't' => some 0x09
  | _ => none

/-- The codes of a string after its opening quote, and the text after its
closing quote. Control characters have to be escaped. -/
def stringCodes? : Text → Option (List Nat × Text)
  | [] => none
  | '"' :: rest => some ([], rest)
  | '\\' :: 'u' :: a :: b :: c :: d :: rest =>
    match hexCode? a b c d, stringCodes? rest with
    | some code, some (codes, after) => some (code :: codes, after)
    | _, _ => none
  | '\\' :: e :: rest =>
    match escapeCode? e, stringCodes? rest with
    | some code, some (codes, after) => some (code :: codes, after)
    | _, _ => none
  | c :: rest =>
    if c.toNat < 0x20 then none
    else
      match stringCodes? rest with
      | some (codes, after) => some (c.toNat :: codes, after)
      | none => none

/-- The text a list of codes spells; surrogates count in pairs only. -/
def textOfCodes? : List Nat → Option Text
  | [] => some []
  | high :: low :: rest =>
    if 0xD800 ≤ high ∧ high < 0xDC00 then
      if 0xDC00 ≤ low ∧ low < 0xE000 then
        (textOfCodes? rest).map
          (Char.ofNat (0x10000 + (high - 0xD800) * 0x400 + (low - 0xDC00)) :: ·)
      else none
    else if 0xDC00 ≤ high ∧ high < 0xE000 then none
    else (textOfCodes? (low :: rest)).map (Char.ofNat high :: ·)
  | [code] => if 0xD800 ≤ code ∧ code < 0xE000 then none else some [Char.ofNat code]

-- ================================================================= numbers

/-- At least one digit, and the text after the digits. -/
def digits? (t : Text) : Option (Text × Text) :=
  match t.span Char.isDigit with
  | ([], _) => none
  | found => some found

/-- A fraction, when a point starts one. -/
def fraction? : Text → Option (Option Text × Text)
  | '.' :: rest => (digits? rest).map fun (ds, after) => (some ds, after)
  | rest => some (none, rest)

/-- An exponent after its letter. -/
def exponentAfter? : Text → Option (Option (Bool × Text) × Text)
  | '+' :: rest => (digits? rest).map fun (ds, after) => (some (false, ds), after)
  | '-' :: rest => (digits? rest).map fun (ds, after) => (some (true, ds), after)
  | rest => (digits? rest).map fun (ds, after) => (some (false, ds), after)

/-- An exponent, when a letter starts one. -/
def exponent? : Text → Option (Option (Bool × Text) × Text)
  | 'e' :: rest => exponentAfter? rest
  | 'E' :: rest => exponentAfter? rest
  | rest => some (none, rest)

/-- A numeral after its sign. A leading zero stands alone. -/
def unsigned? (negative : Bool) (t : Text) : Option (Numeral × Text) :=
  match digits? t with
  | none => none
  | some ('0' :: _ :: _, _) => none
  | some (whole, rest) =>
    match fraction? rest with
    | none => none
    | some (fraction, rest) =>
      (exponent? rest).map fun (exponent, after) =>
        (⟨negative, whole, fraction, exponent⟩, after)

/-- A numeral and the text after it. -/
def numeral? : Text → Option (Numeral × Text)
  | '-' :: rest => unsigned? true rest
  | rest => unsigned? false rest

-- ================================================================== tokens

/-- The token at the start of a text, and the text after it. -/
def next? : Text → Option (Token × Text)
  | '[' :: rest => some (.openArray, rest)
  | ']' :: rest => some (.closeArray, rest)
  | '{' :: rest => some (.openObject, rest)
  | '}' :: rest => some (.closeObject, rest)
  | ',' :: rest => some (.comma, rest)
  | ':' :: rest => some (.colon, rest)
  | '"' :: rest =>
    (stringCodes? rest).map fun (codes, after) => (.string (textOfCodes? codes), after)
  | 'n' :: 'u' :: 'l' :: 'l' :: rest => some (.scalar .null, rest)
  | 't' :: 'r' :: 'u' :: 'e' :: rest => some (.scalar (.bool true), rest)
  | 'f' :: 'a' :: 'l' :: 's' :: 'e' :: rest => some (.scalar (.bool false), rest)
  | rest => (numeral? rest).map fun (n, after) => (.scalar (.number n), after)

/-- The blanks of JSON. -/
def isSpace (c : Char) : Bool :=
  c == ' ' || c == '\t' || c == '\n' || c == '\r'

/-- The tokens of a text. Every token is at least one character long, so the
text gets shorter. -/
def tokens? (t : Text) : Option (List Token) :=
  match t with
  | [] => some []
  | c :: cs =>
    if isSpace c then tokens? cs
    else
      match next? (c :: cs) with
      | none => none
      | some (token, rest) =>
        if rest.length < cs.length + 1 then (tokens? rest).map (token :: ·) else none
termination_by t.length

end Token

-- ================================================================= reading

/-- An array or object that is still open: what it holds so far, last first,
and the key whose value comes next. -/
inductive Frame where
  | array (done : List Document)
  | object (done : List (Option Text × Document)) (key : Option Text)

/-- What a reading expects next. -/
inductive Phase where
  /-- A value. -/
  | value
  /-- The first item of an array, or its end. -/
  | firstItem
  /-- A key. -/
  | key
  /-- The first key of an object, or its end. -/
  | firstKey
  /-- The colon after a key. -/
  | colon (key : Option Text)
  /-- What follows a value that was just read. -/
  | after (value : Document)

/-- The state of a reading: the open arrays and objects, innermost first, and
what comes next. -/
structure Reading where
  frames : List Frame
  phase : Phase

namespace Reading

/-- Where every reading starts. -/
def start : Reading :=
  ⟨[], .value⟩

/-- A token where a value may start. -/
def stepValue (frames : List Frame) : Token → Option Reading
  | .openArray => some ⟨.array [] :: frames, .firstItem⟩
  | .openObject => some ⟨.object [] none :: frames, .firstKey⟩
  | .scalar value => some ⟨frames, .after value⟩
  | .string value => some ⟨frames, .after (.string value)⟩
  | _ => none

/-- A token after a complete value. -/
def stepAfter (value : Document) : List Frame → Token → Option Reading
  | .array done :: frames, .comma => some ⟨.array (value :: done) :: frames, .value⟩
  | .array done :: frames, .closeArray =>
    some ⟨frames, .after (.array (value :: done).reverse)⟩
  | .object done key :: frames, .comma =>
    some ⟨.object ((key, value) :: done) none :: frames, .key⟩
  | .object done key :: frames, .closeObject =>
    some ⟨frames, .after (.object ((key, value) :: done).reverse)⟩
  | _, _ => none

/-- The reading after one more token. -/
def step (reading : Reading) (token : Token) : Option Reading :=
  match reading.phase, reading.frames, token with
  | .firstItem, .array done :: frames, .closeArray =>
    some ⟨frames, .after (.array done.reverse)⟩
  | .firstKey, .object done _ :: frames, .closeObject =>
    some ⟨frames, .after (.object done.reverse)⟩
  | .value, frames, token => stepValue frames token
  | .firstItem, frames, token => stepValue frames token
  | .key, frames, .string key => some ⟨frames, .colon key⟩
  | .firstKey, frames, .string key => some ⟨frames, .colon key⟩
  | .colon key, .object done _ :: frames, .colon => some ⟨.object done key :: frames, .value⟩
  | .after value, frames, token => stepAfter value frames token
  | _, _, _ => none

/-- The document of a finished reading. -/
def result? : Reading → Option Document
  | ⟨[], .after value⟩ => some value
  | _ => none

end Reading

/-- The document a text spells, with nothing after it. -/
def Document.ofText? (t : Text) : Option Document :=
  (Token.tokens? t).bind fun tokens =>
    (tokens.foldlM Reading.step Reading.start).bind Reading.result?

end ComponentPaths.Json
