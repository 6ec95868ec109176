/-
Settings of a run: where manifests are, what to leave alone and how to get
the syntax of a file. Every setting has a default, and a settings file
changes some of them.

A settings file is a JSON object. Members it does not know are passed over;
one it knows may appear once and must be of the right kind. It may also be an
array that gives the settings in their order, as many as it likes.
-/
import ComponentPaths.Disk.Basic
import ComponentPaths.Json.Document

namespace ComponentPaths

/-- How to get the syntax of a file. -/
structure ParserSettings where
  /-- The command that prints a syntax dump. -/
  program : Text
  /-- Its arguments before the path of the file. -/
  args : List Text
  /-- A directory with dumps made before, instead of a command. -/
  dumpDir : Option Text
  deriving DecidableEq, Repr

/-- The settings of a run. -/
structure Settings where
  manifestPath : Text
  subpluginManifestPath : Text
  /-- Plugin types whose plugins may declare sub-plugins. -/
  subpluginCapableTypes : List Text
  /-- Files that run before the component interface is there, and so never change. -/
  exclusions : List Text
  /-- Names of directories that are not searched. -/
  skipDirs : List Text
  /-- The class of the component interface. -/
  componentApi : Text
  parser : ParserSettings
  deriving DecidableEq, Repr

/-- The parser of a usual installation. -/
def ParserSettings.default : ParserSettings where
  program := "php-parse"
  args := ["--json-dump"]
  dumpDir := none

namespace Settings

/-- The layout of a usual codebase. -/
def default : Settings where
  manifestPath := "lib/components.json"
  subpluginManifestPath := "db/subplugins.json"
  subpluginCapableTypes := ["mod", "editor", "tool", "local", "report", "block"]
  exclusions :=
    ["config.php", "config-dist.php", "install.php", "admin/cli/install.php",
      "admin/cli/install_database.php", "lib/setup.php", "lib/setuplib.php",
      "lib/classes/component.php", "lib/phpunit/bootstrap.php",
      "lib/behat/classes/behat_config_manager.php"]
  skipDirs := [".git", "node_modules", "vendor"]
  componentApi := "\\core_component"
  parser := ParserSettings.default

/-- Whether a file never changes. -/
def isExcluded (s : Settings) (file : Text) : Bool :=
  s.exclusions.contains file

/-- Whether plugins of a type may declare sub-plugins. -/
def supportsSubplugins (s : Settings) (type : Text) : Bool :=
  s.subpluginCapableTypes.contains type

end Settings

-- ==================================================================== reading

namespace Settings

open Json (Document)

/-- A setting: its name and what a value of it changes. -/
abbrev Setting (σ : Type) := Text × (σ → Document → Option σ)

/-- A text. -/
def asText? : Document → Option Text
  | .string (some text) => some text
  | _ => none

/-- A list of texts. -/
def asTexts? : Document → Option (List Text)
  | .array items => items.mapM asText?
  | _ => none

/-- A text or nothing. -/
def asOptionalText? : Document → Option (Option Text)
  | .null => some none
  | .string (some text) => some (some text)
  | _ => none

/-- The settings with those of an object. A name that is known may appear
once; `seen` are those that have. -/
def readMembers {σ : Type} (known : List (Setting σ)) :
    (seen : List Text) → List (Option Text × Document) → σ → Option σ
  | _, [], s => some s
  | _, (none, _) :: _, _ => none
  | seen, (some name, value) :: rest, s =>
    match known.lookup name with
    | none => readMembers known seen rest s
    | some change =>
      if seen.contains name then none
      else (change s value).bind (readMembers known (name :: seen) rest)

/-- The settings with those of an array, in order. -/
def readItems {σ : Type} : List (Setting σ) → List Document → σ → Option σ
  | _, [], s => some s
  | [], _ :: _, _ => none
  | (_, change) :: known, value :: rest, s => (change s value).bind (readItems known rest)

/-- The settings with those of a document. -/
def readDocument {σ : Type} (known : List (Setting σ)) (defaults : σ) : Document → Option σ
  | .object members => readMembers known [] members defaults
  | .array items => readItems known items defaults
  | _ => none

/-- The settings of the parser, in order. -/
def parserSettings : List (Setting ParserSettings) :=
  [("program", fun s v => (asText? v).map fun t => { s with program := t }),
    ("args", fun s v => (asTexts? v).map fun ts => { s with args := ts }),
    ("dump_dir", fun s v => (asOptionalText? v).map fun t => { s with dumpDir := t })]

/-- All settings, in order. -/
def known : List (Setting Settings) :=
  [("manifest_path", fun s v => (asText? v).map fun t => { s with manifestPath := t }),
    ("subplugin_manifest_path",
      fun s v => (asText? v).map fun t => { s with subpluginManifestPath := t }),
    ("subplugin_capable_types",
      fun s v => (asTexts? v).map fun ts => { s with subpluginCapableTypes := ts }),
    ("rewrite_exclusions",
      fun s v => (asTexts? v).map fun ts => { s with exclusions := ts }),
    ("skip_dirs", fun s v => (asTexts? v).map fun ts => { s with skipDirs := ts }),
    ("component_api", fun s v => (asText? v).map fun t => { s with componentApi := t }),
    ("parser",
      fun s v =>
        (readDocument parserSettings ParserSettings.default v).map fun p =>
          { s with parser := p })]

/-- The settings a document describes. -/
def ofDocument? (document : Document) : Option Settings :=
  readDocument known Settings.default document

/-- The settings a text spells. -/
def ofText? (text : Text) : Option Settings :=
  (Document.ofText? text).bind ofDocument?

end Settings

/-- Why a settings file cannot be used. -/
inductive SettingsError where
  | unreadable (path : Text) (error : IoError)
  | malformed (path : Text)
  deriving DecidableEq, Repr

namespace SettingsError

/-- What could not be done. -/
def message : SettingsError → Text
  | .unreadable path _ => "Failed to read settings: " ++ path
  | .malformed path => "Failed to parse settings: " ++ path

/-- Why it could not be done. -/
def cause : SettingsError → Text
  | .unreadable _ error => error.message
  | .malformed _ => "the text does not describe settings"

end SettingsError

/-- The settings in a file; the defaults without one. -/
def Settings.load (d : Disk) : Option Text → Except SettingsError Settings
  | none => .ok Settings.default
  | some path =>
    match d.readText path with
    | .error error => .error (.unreadable path error)
    | .ok text =>
      match Settings.ofText? text with
      | some settings => .ok settings
      | none => .error (.malformed path)

end ComponentPaths
