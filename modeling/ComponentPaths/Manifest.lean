/-
Manifests: JSON texts that map parts of the codebase to directories.

The primary manifest gives every plugin type a directory, relative to the
root, and every subsystem a directory or none. A sub-plugin manifest inside a
plugin gives further plugin types directories, relative to that plugin, under
either of two keys.

A manifest is accepted exactly when its shape is right; what is wrong with a
shape is listed in the order of the text, each finding quoting the value. An
accepted value is then read as a record, which may fail by itself.
-/
import ComponentPaths.Fault
import ComponentPaths.Json.Value

namespace ComponentPaths

/-- The primary manifest. Both maps are in ascending order of their keys. -/
structure Manifest where
  pluginTypes : List (Text × Text)
  subsystems : List (Text × Option Text)
  deriving DecidableEq, Repr

/-- A sub-plugin manifest. Both maps are in ascending order of their keys. -/
structure SubpluginManifest where
  pluginTypes : List (Text × Text)
  subpluginTypes : List (Text × Text)
  deriving DecidableEq, Repr

/-- The declared types with their directories, relative to the plugin. -/
def SubpluginManifest.types (m : SubpluginManifest) : List (Text × Text) :=
  m.pluginTypes ++ m.subpluginTypes

namespace Manifest

-- =================================================================== shapes

/-- The kinds of value a manifest may ask for. -/
inductive Shape where
  | object
  | string
  | stringOrNull
  deriving DecidableEq, Repr

/-- Whether a value is of a kind. -/
def Shape.accepts : Shape → Json → Bool
  | .object, .object _ => true
  | .string, .string _ => true
  | .stringOrNull, .string _ => true
  | .stringOrNull, .null => true
  | _, _ => false

/-- How messages name a kind. -/
def Shape.phrase : Shape → Text
  | .object => "of type \"object\""
  | .string => "of type \"string\""
  | .stringOrNull => "of types \"null\", \"string\""

/-- What is wrong with a value that should be of a kind. -/
def Shape.findings (shape : Shape) (value : Json) : List Text :=
  if shape.accepts value then [] else [value.compact ++ " is not " ++ shape.phrase]

/-- What is wrong with a value that should be an object of values of one kind. -/
def mapFindings (shape : Shape) (value : Json) : List Text :=
  match value.asObject? with
  | none => Shape.object.findings value
  | some members => members.flatMap fun member => shape.findings member.2

/-- What is wrong with a member that may be missing. -/
def memberFindings (key : Text) (shape : Shape) (value : Json) : List Text :=
  match value.member? key with
  | none => []
  | some inner => mapFindings shape inner

/-- What is wrong with a primary manifest. -/
def primaryFindings (value : Json) : List Text :=
  match value.asObject? with
  | none => Shape.object.findings value
  | some _ =>
    (if (value.member? "plugintypes").isSome then []
      else [Json.quoted "plugintypes" ++ " is a required property"])
      ++ memberFindings "plugintypes" .string value
      ++ memberFindings "subsystems" .stringOrNull value

/-- What is wrong with a sub-plugin manifest. -/
def subpluginFindings (value : Json) : List Text :=
  match value.asObject? with
  | none => Shape.object.findings value
  | some _ =>
    memberFindings "plugintypes" .string value
      ++ memberFindings "subplugintypes" .string value

-- ================================================================== reading

/-- The members of a map, ascending by key. -/
def sortByKey {α : Type} (members : List (Text × α)) : List (Text × α) :=
  members.mergeSort fun a b => Text.notAfter a.1 b.1

/-- The map that an object spells, with the values `read?` makes of its members;
fails when it makes none of one of them. -/
def mapOf? {α : Type} (read? : Json → Option α) (value : Json) : Option (List (Text × α)) :=
  match value.asObject? with
  | none => none
  | some members =>
    (members.mapM fun member => (read? member.2).map fun v => (member.1, v)).map sortByKey

/-- Whether a value can be a record: an object, or an array with at most one item
for each field. -/
def isRecord (fields : Nat) : Json → Bool
  | .object _ => true
  | .array items => items.length ≤ fields
  | _ => false

/-- A field of a record: under its key in an object, at its place in an array. -/
def field? (key : Text) (place : Nat) : Json → Option Json
  | .object members => members.lookup key
  | .array items => items[place]?
  | _ => none

/-- The map in a field, and `missing` when there is no such field. -/
def mapField? {α : Type} (key : Text) (place : Nat) (read? : Json → Option α)
    (missing : Option (List (Text × α))) (value : Json) : Option (List (Text × α)) :=
  match field? key place value with
  | none => missing
  | some inner => mapOf? read? inner

/-- A directory or none. -/
def asOptionalDir? : Json → Option (Option Text)
  | .string dir => some (some dir)
  | .null => some none
  | _ => none

/-- A record of two fields, each with its own reader. -/
def recordOf? {σ τ ρ : Type} (make : σ → τ → ρ) (first? : Json → Option σ)
    (second? : Json → Option τ) (value : Json) : Option ρ :=
  if isRecord 2 value then
    match first? value, second? value with
    | some first, some second => some (make first second)
    | _, _ => none
  else none

/-- The primary manifest of a value. Its plugin types have to be there. -/
def ofValue? : Json → Option Manifest :=
  recordOf? Manifest.mk (mapField? "plugintypes" 0 Json.asString? none)
    (mapField? "subsystems" 1 asOptionalDir? (some []))

/-- The manifest of a text: its value is checked and then read. -/
def check {α : Type} (path text : Text) (findings : Json → List Text)
    (ofValue? : Json → Option α) : Except Fault α :=
  match Json.ofText? text with
  | none => .error (.manifestUnreadable path "invalid JSON")
  | some value =>
    match findings value with
    | [] =>
      match ofValue? value with
      | some manifest => .ok manifest
      | none => .error (.manifestUnreadable path "the value does not describe a manifest")
    | found => .error (.manifestUnreadable path (Text.join "; " found))

/-- The primary manifest a text spells; `path` names the text in faults. -/
def ofText (path text : Text) : Except Fault Manifest :=
  check path text primaryFindings ofValue?

end Manifest

namespace SubpluginManifest

open Manifest

/-- The sub-plugin manifest of a value. -/
def ofValue? : Json → Option SubpluginManifest :=
  recordOf? SubpluginManifest.mk (mapField? "plugintypes" 0 Json.asString? (some []))
    (mapField? "subplugintypes" 1 Json.asString? (some []))

/-- The sub-plugin manifest a text spells; `path` names the text in faults. -/
def ofText (path text : Text) : Except Fault SubpluginManifest :=
  check path text subpluginFindings ofValue?

end SubpluginManifest

end ComponentPaths
