import NetAudit.Command.Perform
import Std.Time.DateTime.Timestamp

/-!
# The program

Reads what `Command.perform` needs of the world, and prints what it gives. Files are named by the
arguments, so those are read that an option of the invocation names.
-/

namespace NetAudit.Main

open Calendar (Instant)

/-- The reason why a file cannot be read. -/
def reason : IO.Error → String
  | .noFileOrDirectory _ code _ => s!"No such file or directory (os error {code})"
  | .permissionDenied _ code _ => s!"Permission denied (os error {code})"
  | .inappropriateType _ code _ => s!"Is a directory (os error {code})"
  | e => toString e

/-- The contents of a file, or the reason why they cannot be read. -/
def readFile (name : String) : IO (Except String String) := do
  try
    return .ok (← IO.FS.readFile name)
  catch e =>
    return .error (reason e)

/-- The files that an invocation names. -/
def fileNames : Option Command.Invocation → List String
  | some (.run config command) => command.snapshot :: config.toList
  | some (.check config measurement) => measurement :: config.toList
  | some .version | some .help | none => []

/-- The files of an invocation with their contents. -/
def readFiles (names : List String) : IO (List (String × Except String String)) :=
  names.mapM fun name => do return (name, ← readFile name)

/-- The present instant, which is the beginning of 1970 if the clock is beyond the calendar. -/
def now : IO Instant := do
  let t ← Std.Time.Timestamp.now
  let nanos := t.toNanosecondsSinceUnixEpoch.val
  return (Instant.ofParts? (nanos.fdiv 1000000000) (nanos.fmod 1000000000).toNat).getD .epoch

/-- A name for the run of this call. -/
def runName : IO String := do
  let bytes ← IO.getRandomBytes 4
  let digits := bytes.toList.flatMap fun b =>
    [(b.toNat / 16).digitChar, (b.toNat % 16).digitChar]
  return "run-" ++ String.ofList digits

/-- The number from which the names of this call's results are counted. -/
def firstName : IO Nat := do
  let bytes ← IO.getRandomBytes 8
  return firstIdentifier (bytes.toList.foldl (fun n b => 256 * n + b.toNat) 0)

end NetAudit.Main

/-- Calls the program with the arguments of the command line. -/
def main (arguments : List String) : IO UInt32 := do
  let names := NetAudit.Main.fileNames (NetAudit.Command.Invocation.ofArguments? arguments)
  let contents ← NetAudit.Main.readFiles names
  let files : NetAudit.Command.Files := fun name =>
    (contents.lookup name).getD (.error "No such file or directory (os error 2)")
  let around : NetAudit.Command.Surroundings :=
    ⟨files, ← NetAudit.Main.now, ← NetAudit.Main.runName, ← NetAudit.Main.firstName⟩
  match NetAudit.Command.perform around arguments with
  | .printed output =>
    IO.print output
    return 0
  | .failed complaint =>
    IO.eprint complaint.text
    return 1
  | .misused =>
    IO.eprint "error: the arguments make no sense; see --help\n"
    return 2
  | .panicked =>
    IO.eprint "panicked: the day before the first day of the calendar was asked for\n"
    return 101
