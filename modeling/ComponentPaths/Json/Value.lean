/-
JSON values: documents with their meaning decided. Numbers are numbers,
strings are texts, and an object has one member for each key, in the order
of first appearance and with the value of the last.

Arrays and objects may nest 127 deep.
-/
import ComponentPaths.Json.Document

namespace ComponentPaths

/-- A JSON value. -/
inductive Json where
  | null
  | bool (value : Bool)
  | number (value : Json.Number)
  | string (value : Text)
  | array (items : List Json)
  | object (members : List (Text × Json))

namespace Json

-- ================================================================= objects

/-- A member added to an object. A key that is there already keeps its place
and takes the new value. -/
def putMember (members : List (Text × Json)) (key : Text) (value : Json) : List (Text × Json) :=
  if members.any (·.1 == key) then
    members.map fun member => if member.1 == key then (key, value) else member
  else members ++ [(key, value)]

/-- The members of an object as they are written, one for each key. -/
def settle (written : List (Text × Json)) : List (Text × Json) :=
  written.foldl (fun members member => putMember members member.1 member.2) []

/-- The member of an object with a key. -/
def member? (key : Text) : Json → Option Json
  | .object members => members.lookup key
  | _ => none

/-- The text of a string value. -/
def asString? : Json → Option Text
  | .string t => some t
  | _ => none

/-- The items of an array value. -/
def asArray? : Json → Option (List Json)
  | .array items => some items
  | _ => none

/-- The members of an object value. -/
def asObject? : Json → Option (List (Text × Json))
  | .object members => some members
  | _ => none

/-- A number that is a signed word. -/
def asSigned? : Json → Option Int
  | .number n => n.toSigned?
  | _ => none

-- ================================================================= reading

/-- How deep arrays and objects may nest. -/
def depthLimit : Nat := 127

mutual

/-- The value of a document with room for `depth` more levels. -/
def ofDocument? (depth : Nat) : Document → Option Json
  | .null => some .null
  | .bool b => some (.bool b)
  | .number n => (Number.ofNumeral? n).map .number
  | .string t => t.map .string
  | .array items =>
    match depth with
    | 0 => none
    | room + 1 => (ofItems? room items).map .array
  | .object members =>
    match depth with
    | 0 => none
    | room + 1 => (ofMembers? room members).map fun written => .object (settle written)

/-- The values of the items of an array. -/
def ofItems? (depth : Nat) : List Document → Option (List Json)
  | [] => some []
  | item :: rest =>
    match ofDocument? depth item, ofItems? depth rest with
    | some value, some values => some (value :: values)
    | _, _ => none

/-- The values of the members of an object. -/
def ofMembers? (depth : Nat) : List (Option Text × Document) → Option (List (Text × Json))
  | [] => some []
  | (key, item) :: rest =>
    match key, ofDocument? depth item, ofMembers? depth rest with
    | some name, some value, some members => some ((name, value) :: members)
    | _, _, _ => none

end

/-- The value a text spells. -/
def ofText? (t : Text) : Option Json :=
  (Document.ofText? t).bind (ofDocument? depthLimit)

-- ================================================================= writing

/-- The hexadecimal digit of a number below sixteen. -/
def hexDigit (n : Nat) : Char :=
  Nat.digitChar n

/-- One character inside a JSON string. -/
def escapeChar (c : Char) : Text :=
  if c = '"' then "\\\""
  else if c = '\\' then "\\\\"
  else if c = '\n' then "\\n"
  else if c = '\r' then "\\r"
  else if c = '\t' then "\\t"
  else if c.toNat = 0x08 then "\\b"
  else if c.toNat = 0x0C then "\\f"
  else if c.toNat < 0x20 then "\\u00" ++ [hexDigit (c.toNat / 16), hexDigit (c.toNat % 16)]
  else [c]

/-- A text as a JSON string. -/
def quoted (t : Text) : Text :=
  '"' :: t.flatMap escapeChar ++ ['"']

mutual

/-- A value as compact JSON. -/
def compact : Json → Text
  | .null => "null"
  | .bool true => "true"
  | .bool false => "false"
  | .number n => n.text
  | .string t => quoted t
  | .array items => '[' :: Text.join [','] (compactItems items) ++ [']']
  | .object members => '{' :: Text.join [','] (compactMembers members) ++ ['}']

/-- The items of an array as compact JSON. -/
def compactItems : List Json → List Text
  | [] => []
  | item :: rest => compact item :: compactItems rest

/-- The members of an object as compact JSON. -/
def compactMembers : List (Text × Json) → List Text
  | [] => []
  | (key, value) :: rest => (quoted key ++ ':' :: compact value) :: compactMembers rest

end

end Json

end ComponentPaths
