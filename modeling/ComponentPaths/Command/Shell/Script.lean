/-
Scripts as texts: reading and running their lines, and what is done at their
end. A part of a script that runs apart from the rest has an end of its own.
-/
import ComponentPaths.Command.Shell.Reader
import ComponentPaths.Command.Shell.State

namespace ComponentPaths.Shell

open Run

-- ======================================================================= texts

/-- The lines of a script, read and run one after another. Where they are shown,
each is printed before it runs. -/
def runLines (self : Command → Run Unit) (areShown : Bool) : Nat → Reader → Run Unit
  | 0, _ => return ()
  | fuel + 1, reader => do
    if reader.rest.isEmpty then return ()
    else
      let s ← get
      match { reader with aliases := s.aliases }.nextLine with
      | .error misread =>
        messageAt misread.line ("Syntax error: " ++ misread.reason)
        finish 2
        throw .fault
      | .ok (command, after) =>
        if areShown && s.isOn .shows then
          emit 2 (reader.rest.take (reader.rest.length - after.rest.length))
        modify fun s => { s with asked := after.asked, documents := after.documents ++ s.documents }
        match command with
        | some command => self command
        | none => pure ()
        runLines self areShown fuel { after with documents := [] }

/-- A text run as a script, in the present state. -/
def runText (self : Command → Run Unit) (areShown : Bool) (text : Text) : Run Unit := do
  runLines self areShown (text.length + 1) (Reader.start text (← get).asked)

-- ======================================================================== ends

/-- A step after which the status is what it was, unless it stops. -/
def keepingStatus (step : Run Unit) : Run Unit := do
  let before ← get
  modify fun s => { s with savedStatus := some before.status }
  let stop ← attempt step
  modify fun s => { s with savedStatus := before.savedStatus }
  match stop with
  | none => finish before.status
  | some .giveBack => throw .giveBack
  | some (.leave n) =>
    finish before.status
    throw (.leave n)
  | some (.again n) =>
    finish before.status
    throw (.again n)
  | some stop => throw stop

/-- The end of a script, with what was to be done then. -/
def atEnd (self : Command → Run Unit) (step : Run Unit) : Run Unit := do
  let stop ← attempt step
  match stop with
  | some (.killed signal) => throw (.killed signal)
  | _ =>
    match (← get).traps.lookup 0 with
    | none => return ()
    | some action =>
      modify fun s => { s with traps := s.traps.filter (·.1 != 0) }
      match ← attempt (keepingStatus (runText self false action)) with
      | some (.killed signal) => throw (.killed signal)
      | _ => return ()

/-- A command that runs apart from the rest, to its own end. -/
def apart (self : Command → Run Unit) (command : Command) : Run Unit :=
  isolated (atEnd self (self command))

end ComponentPaths.Shell
