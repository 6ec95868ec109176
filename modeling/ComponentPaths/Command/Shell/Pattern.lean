/-
Patterns: texts in which some characters stand for others.

A question mark stands for one character, an asterisk for any number of them,
and brackets for one of those that they list. A quoted character only stands
for itself.
-/
import ComponentPaths.Command.Shell.Syntax

namespace ComponentPaths.Shell

/-- A character with whether it was quoted. -/
structure Glyph where
  char : Char
  isQuoted : Bool
  deriving DecidableEq, Repr

/-- The characters alone. -/
def Glyph.text (glyphs : List Glyph) : Text :=
  glyphs.map Glyph.char

namespace Pattern

/-- Classes of characters that brackets can name. -/
def classNames : List (Text × (Char → Bool)) :=
  [("alpha", Char.isAlpha), ("digit", Char.isDigit), ("alnum", Char.isAlphanum),
    ("upper", Char.isUpper), ("lower", Char.isLower),
    ("space", fun c => c == ' ' || (9 ≤ c.toNat && c.toNat ≤ 13)),
    ("blank", fun c => c == ' ' || c == '\t'),
    ("punct", fun c => 33 ≤ c.toNat && c.toNat ≤ 126 && !c.isAlphanum),
    ("cntrl", fun c => c.toNat < 32 || c.toNat == 127),
    ("graph", fun c => 33 ≤ c.toNat && c.toNat ≤ 126),
    ("print", fun c => 32 ≤ c.toNat && c.toNat ≤ 126),
    ("xdigit", fun c => c.isDigit || ('a' ≤ c && c ≤ 'f') || ('A' ≤ c && c ≤ 'F'))]

/-- What stands for one character in brackets. -/
inductive Member where
  | range (first last : Char)
  | named (name : Text)
  deriving DecidableEq, Repr

/-- Whether a member stands for a character. -/
def Member.holds (member : Member) (c : Char) : Bool :=
  match member with
  | .range first last => first ≤ c && c ≤ last
  | .named name =>
    match classNames.lookup name with
    | some holds => holds c
    | none => false

/-- A unit of a pattern. -/
inductive Item where
  | exactly (c : Char)
  | one
  | many
  | among (isNegated : Bool) (members : List Member)
  deriving DecidableEq, Repr

/-- Whether a unit stands for a character. -/
def Item.holds (item : Item) (c : Char) : Bool :=
  match item with
  | .exactly d => c == d
  | .one => true
  | .many => false
  | .among isNegated members => members.any (·.holds c) != isNegated

/-- The class that is named at the start of some characters, and what follows. -/
def className? (glyphs : List Glyph) : Option (Text × List Glyph) :=
  let name := glyphs.takeWhile fun g => g.char != ':'
  match glyphs.dropWhile fun g => g.char != ':' with
  | _ :: ⟨']', _⟩ :: rest => some (Glyph.text name, rest)
  | _ => none

/-- The members of brackets up to their end, and what follows. The first
character never ends them. -/
def members (isFirst : Bool) (fuel : Nat) (glyphs : List Glyph) :
    Option (List Member × List Glyph) :=
  match fuel, glyphs with
  | 0, _ => none
  | _, [] => none
  | fuel + 1, g :: rest =>
    if g.char == ']' && !g.isQuoted && !isFirst then some ([], rest)
    else
      let named :=
        match g, rest with
        | ⟨'[', false⟩, ⟨':', false⟩ :: after => className? after
        | _, _ => none
      match named, rest with
      | some (name, after), _ =>
        (members false fuel after).map fun (others, end_) => (.named name :: others, end_)
      | none, ⟨'-', false⟩ :: last :: after =>
        if last.char == ']' && !last.isQuoted then
          (members false fuel rest).map fun (others, end_) =>
            (.range g.char g.char :: others, end_)
        else
          (members false fuel after).map fun (others, end_) =>
            (.range g.char last.char :: others, end_)
      | none, _ =>
        (members false fuel rest).map fun (others, end_) =>
          (.range g.char g.char :: others, end_)

/-- Brackets after the first one, and what follows. -/
def brackets? (glyphs : List Glyph) : Option (Item × List Glyph) :=
  let isNegated :=
    match glyphs with
    | g :: _ => !g.isQuoted && (g.char == '!' || g.char == '^')
    | [] => false
  let listed := if isNegated then glyphs.drop 1 else glyphs
  (members true (listed.length + 1) listed).map fun (found, rest) =>
    (.among isNegated found, rest)

/-- The units of a pattern. -/
def items (fuel : Nat) (glyphs : List Glyph) : List Item :=
  match fuel, glyphs with
  | 0, _ => []
  | _, [] => []
  | fuel + 1, g :: rest =>
    if g.isQuoted then .exactly g.char :: items fuel rest
    else
      match g.char with
      | '?' => .one :: items fuel rest
      | '*' => .many :: items fuel rest
      | '[' =>
        match brackets? rest with
        | some (item, after) => item :: items fuel after
        | none => .exactly '[' :: items fuel rest
      | '\\' =>
        match rest with
        | next :: after => .exactly next.char :: items fuel after
        | [] => [.exactly '\\']
      | c => .exactly c :: items fuel rest

/-- The pattern that characters write. -/
def ofGlyphs (glyphs : List Glyph) : List Item :=
  items (glyphs.length + 1) glyphs

/-- Whether a pattern stands for more than one text. -/
def isOpen (pattern : List Item) : Bool :=
  pattern.any fun
    | .exactly _ => false
    | _ => true

/-- Whether a text is one that a pattern stands for. -/
def holds : List Item → Text → Bool
  | [], t => t.isEmpty
  | .many :: rest, [] => holds rest []
  | .many :: rest, c :: t => holds rest (c :: t) || holds (.many :: rest) t
  | _ :: _, [] => false
  | item :: rest, c :: t => item.holds c && holds rest t
termination_by pattern t => (pattern.length, t.length)

/-- A text without what a pattern stands for at one end. -/
def without (cut : Cut) (pattern : List Item) (t : Text) : Text :=
  let lengths := List.range (t.length + 1)
  let found :=
    if cut.fromEnd then
      let starts := if cut.longest then lengths else lengths.reverse
      (starts.find? fun n : Nat => holds pattern (t.drop n)).map fun n => t.take n
    else
      let ends := if cut.longest then lengths.reverse else lengths
      (ends.find? fun n : Nat => holds pattern (t.take n)).map fun n => t.drop n
  found.getD t

end Pattern

end ComponentPaths.Shell
