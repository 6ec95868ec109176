/-
Settings of a script: switches that it can turn on and off, by a letter or by
a name.
-/
import ComponentPaths.Text.Basic

namespace ComponentPaths.Shell

/-- The switches of a script. -/
inductive Setting where
  /-- A failure ends the script. -/
  | exitsOnFailure
  /-- Patterns stand for themselves. -/
  | keepsPatterns
  | ignoresEnd
  | isInteractive
  | controlsJobs
  /-- Commands are only read. -/
  | onlyReads
  | readsInput
  /-- Commands are shown before they run. -/
  | traces
  /-- Lines are shown as they are read. -/
  | shows
  | editsBriefly
  | editsFreely
  /-- Files that there are cannot be written anew. -/
  | keepsFiles
  /-- Variables are known to all programs. -/
  | exportsAll
  | notifies
  /-- A parameter without a value ends the script. -/
  | requiresValues
  | isPrivileged
  | hidesFunctions
  | debugs
  deriving DecidableEq, Repr

namespace Setting

/-- All settings with their names and letters. -/
def table : List (Setting × Text × Option Char) :=
  [(exitsOnFailure, "errexit", some 'e'), (keepsPatterns, "noglob", some 'f'),
    (ignoresEnd, "ignoreeof", some 'I'), (isInteractive, "interactive", some 'i'),
    (controlsJobs, "monitor", some 'm'), (onlyReads, "noexec", some 'n'),
    (readsInput, "stdin", some 's'), (traces, "xtrace", some 'x'), (shows, "verbose", some 'v'),
    (editsBriefly, "vi", some 'V'), (editsFreely, "emacs", some 'E'),
    (keepsFiles, "noclobber", some 'C'), (exportsAll, "allexport", some 'a'),
    (notifies, "notify", some 'b'), (requiresValues, "nounset", some 'u'),
    (isPrivileged, "privileged", some 'p'), (hidesFunctions, "nolog", none),
    (debugs, "debug", none)]

/-- The setting of a letter. -/
def ofLetter? (letter : Char) : Option Setting :=
  table.findSome? fun (setting, _, own) => if own == some letter then some setting else none

/-- The setting of a name. -/
def ofName? (name : Text) : Option Setting :=
  table.findSome? fun (setting, own, _) => if own == name then some setting else none

/-- Settings with one of them turned on or off. Only one way to edit is on at a
time. -/
def turn (on : List Setting) (setting : Setting) (value : Bool) : List Setting :=
  let others := on.filter fun s =>
    s != setting && !(value && setting == editsBriefly && s == editsFreely)
      && !(value && setting == editsFreely && s == editsBriefly)
  if value then setting :: others else others

/-- The letters of the settings that are on, last ones of the table first. -/
def letters (on : List Setting) : Text :=
  table.reverse.filterMap fun (setting, _, letter) =>
    if on.contains setting then letter else none

/-- All settings in words. -/
def listing (on : List Setting) : Text :=
  "Current option settings\n" ++ table.flatMap fun (setting, name, _) =>
    name ++ List.replicate (16 - name.length) ' '
      ++ (if on.contains setting then ("on\n" : Text) else "off\n")

/-- Commands that turn all settings to what they are. -/
def commands (on : List Setting) : Text :=
  table.flatMap fun (setting, name, _) =>
    "set " ++ (if on.contains setting then ("-o " : Text) else "+o ") ++ name ++ "\n"

end Setting

end ComponentPaths.Shell
