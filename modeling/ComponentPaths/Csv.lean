/-
Comma separated values: records of fields, each record on lines of its own.

A field with a comma, a quote or a line break in it is written in quotes,
and a quote inside is written twice. Records end with a carriage return and
a line feed.
-/
import ComponentPaths.Text.Basic

namespace ComponentPaths.Csv

/-- Characters that a field can only hold in quotes. -/
def isSpecial (c : Char) : Bool :=
  c == ',' || c == '"' || c == '\n' || c == '\r'

/-- A field's text with its quotes written twice. -/
def doubled (value : Text) : Text :=
  value.flatMap fun c => if c = '"' then ['"', '"'] else [c]

/-- A field as it is written. -/
def field (value : Text) : Text :=
  if value.any isSpecial then '"' :: doubled value ++ ['"'] else value

/-- A record as it is written. -/
def row (fields : List Text) : Text :=
  Text.join [','] (fields.map field) ++ "\r\n"

/-- Records as they are written. -/
def table (rows : List (List Text)) : Text :=
  rows.flatMap row

end ComponentPaths.Csv
