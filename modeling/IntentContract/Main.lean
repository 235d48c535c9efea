import Std.Time.DateTime.Timestamp
import IntentContract.CommandLine.Run
import IntentContract.Time.Clock

/-!
# The program

Runs the command line on the machine. All that is decided is decided elsewhere: here only the files,
the output and the clock of the machine are made a host.
-/

namespace IntentContract.Machine

/-- The fault that an error of the machine is. -/
def faultOf : IO.Error → FileFault
  | .noFileOrDirectory _ _ _ => .notFound
  | .alreadyExists _ _ _ => .exists
  | .inappropriateType _ code details =>
    if code = 20 then .notDirectory
    else if code = 21 then .isDirectory
    else .other details
  | .invalidArgument _ code details => if code = 36 then .nameTooLong else .other details
  | e => .other (toString e)

/-- The result of an action on a path, or the fault that it ended in. -/
def attempt {α : Type} (path : String) (action : IO α) : IO (Except FileFault α) := do
  if path.toList.any fun c => c.toNat == 0 then return .error .nullCharacter
  try
    return .ok (← action)
  catch e =>
    return .error (faultOf e)

/-- A property of a path, false if nothing is there. -/
def holds (action : IO Bool) : IO Bool := do
  try
    action
  catch _ =>
    return false

/-- The machine is a host. -/
instance : Host IO where
  readText path := attempt path (IO.FS.readFile path)
  isFile path := holds do
    let p ← IO.FS.realPath path
    return (← p.pathExists) && !(← p.isDir)
  isDirectory path := holds do (← IO.FS.realPath path).isDir
  entries path := attempt path do
    return ((← (← IO.FS.realPath path).readDir).map (·.fileName)).toList
  createDirectory path := attempt path (IO.FS.createDirAll path)
  writeText path text := attempt path (IO.FS.writeFile path text)
  print text := do (← IO.getStdout).putStr text
  now := do
    let t ← Std.Time.Timestamp.now
    return .ofNanoseconds t.toNanosecondsSinceUnixEpoch.toInt.toNat
  milliseconds := IO.monoMsNow

/-- What is printed instead of running a command. -/
def explain : Usage → IO Unit
  | .help => do
    let names := Arguments.commands.map (·.name)
    (← IO.getStdout).putStr ("Usage: agentidl [OPTIONS] <COMMAND>\n\nCommands: "
      ++ Text.join ", " names ++ "\n")
  | .version => do (← IO.getStdout).putStr "agentidl 0.1.0\n"
  | .mistake => do (← IO.getStderr).putStr "error: these arguments are not understood\n"

/-- Runs the program on its arguments, and gives its exit status. -/
def run (arguments : List String) : IO Nat := do
  match Arguments.parse arguments with
  | .error usage =>
    explain usage
    return usage.exitStatus
  | .ok call =>
    let outcome ← (call.run : Work IO Nat).run
    if let .error complaint := outcome then
      (← IO.getStderr).putStr ("error: " ++ complaint.text ++ "\n")
    return exitStatus outcome

end IntentContract.Machine

/-- The entry point. -/
def main (arguments : List String) : IO UInt32 := do
  return (← IntentContract.Machine.run arguments).toUInt32
