import NetAudit.Command.Arguments
import NetAudit.Format.Config
import NetAudit.Format.Dashboard
import NetAudit.Format.Request
import NetAudit.Memory

/-!
# What the commands do

A command reads files and gives a text to print or a complaint. Files are given as a function from
names to contents, so that all of this is pure; `perform` is the whole program but for reading and
printing.
-/

namespace NetAudit.Command

open Calendar (Instant)

/-- The contents of a file, or the reason why they cannot be read. -/
abbrev Files := String → Except String String

/-- What a command finds: files, the present instant, a name for its run, and the number from which
the names of results are counted. -/
structure Surroundings where
  files : Files
  now : Instant
  run : String
  first : Nat

/-- Why a command fails: what it was doing, and what stands behind it, the nearest cause first. -/
structure Complaint where
  message : String
  causes : List String
deriving DecidableEq, Repr

/-- How a command ends. -/
inductive Result where
  | printed (output : String)
  | failed (complaint : Complaint)
  /-- The arguments make no sense. -/
  | misused
  | panicked
deriving DecidableEq, Repr

namespace Complaint

/-- A cause with what stands before it; further lines of it are indented as far. -/
def causeText (lead indent cause : String) : String :=
  "\n" ++ lead ++
    String.ofList (cause.toList.flatMap fun c => if c = '\n' then '\n' :: indent.toList else [c])

/-- Causes with their numbers. -/
def numberedCauses (n : Nat) : List String → String
  | [] => ""
  | cause :: causes =>
    let number := toString n
    let pad := String.ofList (List.replicate (5 - number.length) ' ')
    causeText (pad ++ number ++ ": ") "       " cause ++ numberedCauses (n + 1) causes

/-- The text of a complaint. Causes are numbered if there are several. -/
def text (c : Complaint) : String :=
  let causes :=
    match c.causes with
    | [] => ""
    | [cause] => "\n\nCaused by:" ++ causeText "    " "    " cause
    | causes => "\n\nCaused by:" ++ numberedCauses 0 causes
  "Error: " ++ c.message ++ causes ++ "\n"

/-- The complaint of a failure. -/
def ofRunError (e : RunError) : Complaint := ⟨e.message, e.cause.toList⟩

/-- The complaint with what was being done. -/
def within (c : Complaint) (context : String) : Complaint := ⟨context, c.message :: c.causes⟩

end Complaint

/-- A step of a command. -/
abbrev Attempted (α : Type) := Except Complaint α

/-- The settings in a file, or the defaults if none is named. -/
def loadConfig (files : Files) (name : Option String) : Attempted Config :=
  match name with
  | none => .ok {}
  | some name =>
    let context := "failed to load config " ++ name
    match files name with
    | .error reason =>
      .error ⟨context, ["failed to read configuration: " ++ reason, reason]⟩
    | .ok contents =>
      match Config.codec.read contents with
      | .error problem =>
        .error ⟨context, ["invalid configuration: " ++ problem.message, problem.message]⟩
      | .ok config => .ok config

/-- The value in a file. -/
def load (files : Files) (c : Json.Codec α) (name : String) : Attempted α :=
  match files name with
  | .error reason => .error ⟨"failed to read " ++ name, [reason]⟩
  | .ok contents =>
    match c.read contents with
    | .error problem => .error ⟨"failed to parse " ++ name, [problem.message]⟩
    | .ok a => .ok a

/-! ### Runs -/

namespace RunCommand

/-- The request of a run. -/
def request (c : RunCommand) : RunRequest where
  start := c.start
  stop := c.stop
  iterations := c.iterations
  limit := c.limit

end RunCommand

/-- The dashboards after a run. -/
def dashboard (config : Config) : Attempt Memory Json := do
  let store := Memory.store
  let buckets ← Buckets.ofStore store config.dashboardEntryLimit
  let errors ← TopErrors.ofStore store config.dashboardEntryLimit config.topErrorLimit
  let records ← Timeseries.ofStore store .records config.timeseriesPointLimit
  let invalid ← Timeseries.ofStore store .errors config.timeseriesPointLimit
  return .object [
    ("buckets", buckets.toJson),
    ("top_errors", .array (errors.map ErrorCount.toJson)),
    ("timeseries", .object [
      ("columns", .array (Timeseries.columns.map .string)),
      ("record_count", .array (records.map TimeseriesRow.toJson)),
      ("error_count", .array (invalid.map TimeseriesRow.toJson))])]

/-- A document as a text of its own. -/
def printJson (j : Json) : String := j.sorted.pretty ++ "\n"

/-- Run over a snapshot. The report is printed as a text or as a document, and the document also
where the dashboards are wanted. -/
def performRun (around : Surroundings) (config : Config) (c : RunCommand) :
    ExceptT Complaint Ending String := do
  let snapshot ← load around.files Snapshot.codec c.snapshot
  let memory := Memory.ofArchive (.ofSnapshot around.first snapshot)
  let done := c.request.handle Memory.services config around.now around.run memory
  let answer ← done.value
  let response ← answer.mapError fun e => (Complaint.ofRunError e).within "validation run failed"
  match response.report? with
  | none => throw ⟨"unexpected response for a report request", []⟩
  | some report =>
    let fields : List (String × Json) := [
      ("report", Report.codec.encode report),
      ("queued_jobs", .array (done.state.jobs.map Job.codec.encode))]
    let text := if c.asText then report.text else ""
    if c.withDashboard then
      let shown := (dashboard config).perform done.state
      let json ← shown.value.mapError Complaint.ofRunError
      return text ++ printJson (.object (fields ++ [("dashboard", json)]))
    else if c.asText then return text
    else return printJson (.object fields)

/-! ### Checks -/

/-- Score one measurement. -/
def performCheck (files : Files) (measurement : String) : Attempted String := do
  let m ← load files Measurement.codec measurement
  match Validator.of? m with
  | .error e => throw ⟨e.message, []⟩
  | .ok v =>
    return printJson (.object [
      ("id", .string m.id.text),
      ("type", .string m.kind.tag),
      ("validation_results", v.score.toJson),
      ("details", .string v.detail)])

/-! ### The program -/

/-- The name and version of the program. -/
def versionText : String := "speedometer-validate 0.1.0\n"

/-- How the program is called. -/
def helpText : String :=
  "Validate Speedometer measurements and summarize the results\n\n" ++
  "Usage: speedometer-validate [OPTIONS] <COMMAND>\n\n" ++
  "Commands:\n" ++
  "  run    Run validation over a window of a snapshot\n" ++
  "  check  Validate a single measurement record\n" ++
  "  help   Print this message or the help of the given subcommand(s)\n\n" ++
  "Options:\n" ++
  "  -c, --config <CONFIG>  Configuration file path (JSON)\n" ++
  "  -h, --help             Print help\n" ++
  "  -V, --version          Print version\n"

/-- What an invocation prints. The configuration is read first, whether it is needed or not. -/
def performInvocation (around : Surroundings) : Invocation → ExceptT Complaint Ending String
  | .version => return versionText
  | .help => return helpText
  | .run config command => do
    performRun around (← loadConfig around.files config) command
  | .check config measurement => do
    discard (loadConfig around.files config)
    performCheck around.files measurement

/-- How the program ends when it is called with some arguments. -/
def perform (around : Surroundings) (arguments : List String) : Result :=
  match Invocation.ofArguments? arguments with
  | none => .misused
  | some invocation =>
    match (performInvocation around invocation).run with
    | .returned (.ok output) => .printed output
    | .returned (.error complaint) => .failed complaint
    | .panicked => .panicked

end NetAudit.Command
