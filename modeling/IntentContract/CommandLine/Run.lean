import IntentContract.CommandLine.Arguments
import IntentContract.CommandLine.Check
import IntentContract.CommandLine.Compile
import IntentContract.CommandLine.Test
import IntentContract.Contract.Canonical

/-!
# Running a command

The configuration is loaded first, whatever the command. The exit status is zero for success, one
for findings or failed scenarios, and two for a complaint.
-/

namespace IntentContract

/-- The version of the program and of its library. -/
def versionLine : String := "agentidl 0.1.0 (agentidl-core 0.1.0)"

namespace Work

variable {m : Type → Type} [Monad m] [Host m]

/-- The configuration: of the file that is named, else of the usual one if it is there. -/
def loadConfig (file : Option String) : Work m Config := do
  match file with
  | some path => configured (Config.load path)
  | none =>
    if ← (Host.isFile Config.fileName : m Bool) then configured (Config.load Config.fileName)
    else return .empty

/-- Runs a command under a configuration. -/
def runCommand (config : Config) (quiet : Bool) : Command → Work m Nat
  | .compile file out flavors => compileFile config quiet file out flavors
  | .model file => do
    printLine (← readContract file).toJson.pretty
    return 0
  | .validate file rules json => validateFile config quiet file rules json
  | .check file kind rules json => checkFile config quiet file kind rules json
  | .test paths report => testPaths config quiet paths report
  | .hash file => do
    printLine (← readContract file).hash
    return 0
  | .version => do
    printLine versionLine
    return 0

end Work

/-- **Runs a call of the program**: its exit status, or what it complains about. -/
def Invocation.run {m : Type → Type} [Monad m] [Host m] (call : Invocation) : Work m Nat := do
  let config ← Work.loadConfig call.config
  Work.runCommand config call.quiet call.command

/-- The exit status for a complaint. -/
def complaintStatus : Nat := 2

/-- **The exit status** that the outcome of a run gives. -/
def exitStatus : Except Complaint Nat → Nat
  | .ok status => status
  | .error _ => complaintStatus

end IntentContract
