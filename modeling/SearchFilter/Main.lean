import SearchFilter.Command.Run
/-!
# The program

Reads files and the standard input, writes what the library has to say, and leaves all decisions to
it.
-/
namespace SearchFilter

open Command

/-- The number of a failure, which some accesses report with its sign turned. -/
def failureNumber (number : UInt32) : Nat :=
  number.toInt32.toInt.natAbs

/-- The fault behind a failed access. -/
def IoFault.ofError : IO.Error → IoFault
  | .noFileOrDirectory _ number details
  | .inappropriateType _ number details
  | .permissionDenied _ number details
  | .invalidArgument _ number details
  | .noSuchThing _ number details
  | .resourceExhausted _ number details => .ofNumber details (failureNumber number)
  | .otherError number details => .ofNumber details (failureNumber number)
  | error => .system (toString error) 0

def readSource : Source → IO ByteArray
  | .file path => IO.FS.readBinFile path
  | .standardInput => do (← IO.getStdin).readBinToEnd

def fetch (source : Source) : IO (Except IoFault String) := do
  try
    if let .file path := source then
      if let .error fault := checkPath path then return .error fault
    return decodeUtf8 (← readSource source)
  catch error => return .error (.ofError error)

/-- Writes the end of a process; if its output cannot be written it ends differently. -/
def runCommand (command : Command) : IO UInt32 := do
  let execution ← run fetch .default command
  let ended ← do
    try
      let ended := Process.ofExecution .working execution
      IO.print ended.output
      (← IO.getStdout).flush
      pure ended
    catch error => pure (Process.ofExecution (.failing (.ofError error)) execution)
  IO.eprint ended.errors
  return UInt32.ofNat ended.exitCode

end SearchFilter

def main (arguments : List String) : IO UInt32 := do
  match SearchFilter.Command.parse arguments with
  | .ok command => SearchFilter.runCommand command
  | .error refusal =>
    let ended := SearchFilter.Command.Process.ofRefusal .working refusal
    try IO.print ended.output catch _ => pure ()
    return UInt32.ofNat ended.exitCode
