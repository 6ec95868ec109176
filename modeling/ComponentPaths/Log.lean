/-
Logs: the messages that processing a file leaves, in order.
-/
import ComponentPaths.Text.Basic

namespace ComponentPaths

/-- How much a message matters. -/
inductive Level where
  | info
  | warning
  deriving DecidableEq, Repr

/-- Messages in the order they were left. -/
structure Log where
  entries : List (Level × Text)
  deriving DecidableEq, Repr

namespace Log

/-- No messages. -/
def empty : Log :=
  ⟨[]⟩

/-- One more piece of information. -/
def info (log : Log) (message : Text) : Log :=
  ⟨log.entries ++ [(.info, message)]⟩

/-- One more warning. -/
def warn (log : Log) (message : Text) : Log :=
  ⟨log.entries ++ [(.warning, message)]⟩

/-- How many messages are warnings. -/
def warnings (log : Log) : Nat :=
  log.entries.countP fun entry => entry.1 == .warning

end Log

end ComponentPaths
