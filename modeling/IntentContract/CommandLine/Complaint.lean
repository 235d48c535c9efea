import IntentContract.Config
import IntentContract.Contract.Basic

/-!
# Complaints

A command that cannot do its work gives the reason, and in front of it what it was about.
-/

namespace IntentContract

/-- **A complaint**: messages from the outermost to the innermost. -/
structure Complaint where
  messages : List String
  deriving DecidableEq

namespace Complaint

/-- A complaint in one line. -/
def text (c : Complaint) : String :=
  Text.join ": " c.messages

/-- The complaint about a failure. -/
def ofFailure (e : Failure) : Complaint :=
  ⟨[e.message]⟩

/-- A complaint in which it says what was being done. -/
def during (action : String) (c : Complaint) : Complaint :=
  ⟨action :: c.messages⟩

end Complaint

/-- Work of a command, which may end in a complaint. -/
abbrev Work (m : Type → Type) := ExceptT Complaint m

namespace Work

variable {m : Type → Type} [Monad m] [Host m] {α : Type}

/-- The result of a step, if it did not fail. -/
def orFailure (r : Except Failure α) : Work m α :=
  match r with
  | .ok a => pure a
  | .error e => throw (.ofFailure e)

/-- The result of a step that was about something. -/
def orFailureDuring (action : String) (r : Except Failure α) : Work m α :=
  match r with
  | .ok a => pure a
  | .error e => throw ((Complaint.ofFailure e).during action)

/-- The result of a step on files that was about something. -/
def orFault (action : String) (r : Except FileFault α) : Work m α :=
  match r with
  | .ok a => pure a
  | .error fault => throw ⟨[action, fault.text]⟩

/-- The text of a file. -/
def readText (path : String) : Work m String := do
  orFault ("reading " ++ path) (← (Host.readText path : m (Except FileFault String)))

/-- The contract in a file. -/
def readContract (path : String) : Work m Contract := do
  orFailureDuring ("compiling " ++ path) (Contract.ofSource (← readText path))

/-- Creates or replaces a file. -/
def writeText (path text : String) : Work m Unit := do
  orFault ("writing " ++ path) (← (Host.writeText path text : m (Except FileFault Unit)))

/-- Prints a line. -/
def printLine (line : String) : Work m Unit :=
  (Host.print (line ++ "\n") : m Unit)

/-- Prints lines. -/
def printLines (lines : List String) : Work m Unit :=
  lines.forM printLine

/-- Configured rules, or why they cannot be had. -/
def configured (r : ExceptT Failure m α) : Work m α := do
  orFailure (← (r.run : m (Except Failure α)))

end Work

end IntentContract
