/-
Signals: their numbers, their names and what they do to a script that does not
expect them.
-/
import ComponentPaths.Text.Basic

namespace ComponentPaths.Shell.Signal

/-- The names of the most common signals, from number one on. -/
def commonNames : List Text :=
  ["HUP", "INT", "QUIT", "ILL", "TRAP", "ABRT", "BUS", "FPE", "KILL", "USR1", "SEGV", "USR2",
    "PIPE", "ALRM", "TERM"]

/-- The names of the signals after those. One without a name is called by its
number. -/
def otherNames : List Text :=
  ["16", "CHLD", "CONT", "STOP", "TSTP", "TTIN", "TTOU", "URG", "XCPU", "XFSZ", "VTALRM", "PROF",
    "WINCH", "IO", "PWR", "SYS", "32", "33"]

/-- The names of the signals for real time. -/
def lastNames : List Text :=
  "RTMIN".toList :: (List.range 15).map (fun n : Nat => ("RTMIN+" : Text) ++ Text.ofNat (n + 1))
    ++ (List.range 14).map (fun n : Nat => ("RTMAX-" : Text) ++ Text.ofNat (14 - n))
    ++ ["RTMAX".toList]

/-- All names from number zero on; that one is the end of a script. -/
def names : List Text :=
  "EXIT".toList :: commonNames ++ otherNames ++ lastNames

/-- The name of a signal. -/
def name (n : Nat) : Text :=
  names.getD n []

/-- The number of a signal that is written as a number or by its name. -/
def number? (t : Text) : Option Nat :=
  if !t.isEmpty && t.all Char.isDigit then
    let n := Text.natOfDigits t
    if n < names.length then some n else none
  else
    let upper := t.map Char.toUpper
    let n := names.findIdx (· == upper)
    if n < names.length then some n else none

/-- Signals that are only noticed by those who expect them. -/
def isHarmless (n : Nat) : Bool :=
  [0, 17, 18, 19, 20, 21, 22, 23, 28].contains n

/-- Words about the end of a program by a signal, from number one on. -/
def endings : List Text :=
  ["Hangup", "", "Quit", "Illegal instruction", "Trace/breakpoint trap", "Aborted", "Bus error",
    "Floating point exception", "Killed", "User defined signal 1", "Segmentation fault",
    "User defined signal 2", "", "Alarm clock", "Terminated", "Stack fault"]

/-- Words about the end of a program by a signal; some say nothing. -/
def ending (n : Nat) : Text :=
  match endings[n - 1]? with
  | some words => if words.isEmpty then [] else words ++ "\n"
  | none =>
    if 34 ≤ n then "Real-time signal " ++ Text.ofNat (n - 34) ++ "\n"
    else
      match n with
      | 24 => "CPU time limit exceeded\n"
      | 25 => "File size limit exceeded\n"
      | 26 => "Virtual timer expired\n"
      | 27 => "Profiling timer expired\n"
      | 29 => "I/O possible\n"
      | 30 => "Power failure\n"
      | 31 => "Bad system call\n"
      | _ => "Unknown signal " ++ Text.ofNat n ++ "\n"

end ComponentPaths.Shell.Signal
