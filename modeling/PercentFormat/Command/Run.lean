import PercentFormat.Command.Line
import PercentFormat.Fixture.Vector
import PercentFormat.Log.Artifact
import PercentFormat.Log.Emitter
import PercentFormat.Log.Entry
import PercentFormat.Report

/-! What the commands do: the verification of all suites in a directory, with its log and its report, and
the others. -/

namespace PercentFormat

open Fixture (Suite)

/-- What a command learns from the machine that it runs on. -/
structure Host where
  runId : String
  /-- What the clock says at each moment of a run, as it is written in files. -/
  clock : Nat → String
  latency : Nat → UInt64

namespace Verify

def readSuite (t : FileTree) (path : String) : Except Fault Suite := do
  let text ← (t.readText path).mapError .io
  match Suite.parse? text with
  | some suite => .ok suite
  | none => .error .json

def suitePaths (t : FileTree) (dir : String) : Except Fault (List String) := do
  let names ← (t.list dir).mapError .io
  return (names.filter (Path.hasExtension "json")).map (Path.join dir)

def skipNote (path : String) (fault : Fault) : String :=
  "Skipping " ++ path ++ ": " ++ fault.message

def skipNotes (t : FileTree) (paths : List String) : List String :=
  paths.filterMap fun path =>
    match readSuite t path with
    | .ok _ => none
    | .error fault => some (skipNote path fault)

def suites (t : FileTree) (paths : List String) : List Suite :=
  paths.filterMap fun path => (readSuite t path).toOption

def caseEntry (policy : Policy) (now : String) (v : Verdict) : Log.Entry where
  timestamp := now
  traceId := ""
  level := if v.passed then .info else .error
  event := "case_verified"
  policy := some policy.name
  caseName := some v.caseName
  template := some v.template
  outcome := some (if v.passed then .pass else .fail)
  outputLength := some v.actualLength
  diagnostics := some v.diagnostics.length

def suiteEntry (policy : Policy) (now : String) (latency : UInt64) (s : Suite) : Log.Entry where
  timestamp := now
  traceId := ""
  level := .info
  event := "fixture_set_done"
  policy := some policy.name
  latency := some latency.toNat
  details := some (.object [("cases", .ofNat s.cases.length), ("family", .string s.family)])

/-- The log entries on the suite with an index, from a moment on: those on its cases, then the one on
itself. -/
def suiteEntries (host : Host) (policy : Policy) (index moment : Nat) (s : Suite) : List Log.Entry :=
  (Verdict.ofSuite policy s).mapIdx (fun k v => caseEntry policy (host.clock (moment + k)) v)
    ++ [suiteEntry policy (host.clock (moment + s.cases.length)) (host.latency index) s]

def entriesFrom (host : Host) (policy : Policy) (index moment : Nat) : List Suite → List Log.Entry
  | [] => []
  | s :: suites =>
    suiteEntries host policy index moment s
      ++ entriesFrom host policy (index + 1) (moment + s.cases.length + 1) suites

def lastMoment (suites : List Suite) : Nat :=
  suites.foldl (fun moment s => moment + s.cases.length + 1) 0

/-- What was written of the log on a run when all entries are made. -/
def logSpool (host : Host) (policy : Policy) (suites : List Suite) : Log.Spool :=
  let emitter : Log.Emitter := { suite := "verify", runId := host.runId, writer := .file {} }
  let last := (entriesFrom host policy 0 0 suites).foldl (fun e x => (e.emitEntry x).2) emitter
  last.writer.spool

/-- The report on a run. It has the time of its making if it is given no other one. -/
def report (host : Host) (policy : Policy) (timestamp : Option String) (suites : List Suite) :
    Report where
  title := "sprinter Conformance Report"
  policy := policy.name
  timestamp := timestamp.getD (host.clock (lastMoment suites))
  summary := .ofResults (suites.flatMap (Verdict.ofSuite policy))

def reportPaths (path : String) : List String :=
  [path, Path.withExtension "json" path, Path.withExtension "artifacts.json" path]

/-- The files of a report, in the order of writing: the report for readers, the report for
programs, and the index of both. -/
def reportFiles (runId generated : String) (r : Report) (path : String) : List (String × Bytes) :=
  let jsonPath := Path.withExtension "json" path
  let markdown := Utf8.encode r.markdown
  let json := Utf8.encode r.text
  let index := ((⟨runId, generated, []⟩ : Log.ArtifactIndex).add path "report" markdown).add
    jsonPath "report" json
  [(path, markdown), (jsonPath, json),
    (Path.withExtension "artifacts.json" path, Utf8.encode index.text)]

/-- The files that are written for the report on a run, if one is asked for. -/
def outputs (host : Host) (policy : Policy) (suites : List Suite)
    (reportPath timestamp : Option String) : List (String × Bytes) :=
  let r := report host policy timestamp suites
  (reportPath.map (reportFiles host.runId (host.clock (lastMoment suites + 1)) r)).getD []

/-- Writes files until one fails. Those before it stay. -/
def writeFiles (t : FileTree) : List (String × Bytes) → FileTree × Option IoFault
  | [] => (t, none)
  | (path, content) :: rest =>
    match t.write path content with
    | .ok t => writeFiles t rest
    | .error fault => (t, some fault)

def openLog (t : FileTree) : Option String → Except IoFault FileTree
  | some path => t.write path []
  | none => .ok t

def sendLog (t : FileTree) (spool : Log.Spool) : Option String → FileTree
  | some path => t.overwrite path 0 spool.sent.toList
  | none => t

def closeLog (t : FileTree) (spool : Log.Spool) : Option String → FileTree
  | some path => t.overwrite path spool.sent.size spool.held.toList
  | none => t

def startNote (dir : String) (policy : Policy) : String :=
  "Verifying against fixtures in " ++ dir ++ " (policy=" ++ policy.name ++ ")"

def countsNote (s : Summary) : String :=
  s!"Verification complete: total={s.total}, passed={s.passed}, failed={s.failed}"

/-- Logs and reports on suites that were read. What the log holds back is written after the report,
also if that cannot be written. -/
def conclude (host : Host) (policy : Policy) (suites : List Suite)
    (reportPath log timestamp : Option String) (t : FileTree) (notes : List String) : Outcome :=
  let r := report host policy timestamp suites
  let spool := logSpool host policy suites
  let (t, fault) := writeFiles (sendLog t spool log)
    (outputs host policy suites reportPath timestamp)
  { tree := closeLog t spool log
    notes := notes ++ [countsNote r.summary]
      ++ (reportPath.map fun path => "Writing report to " ++ path).toList
    failure := match fault with
      | some fault => some (.io fault)
      | none =>
        if r.summary.allPassed then none
        else some (.fault (.verificationFailed r.summary.failed r.summary.total)) }

/-- Runs the suites of a directory. Files that hold no suite are passed over, but there must be
one that does. -/
def run (host : Host) (t : FileTree) (dir : String) (policy : Policy)
    (reportPath log timestamp : Option String) : Outcome :=
  match suitePaths t dir with
  | .error fault => { tree := t, notes := [startNote dir policy], failure := some (.fault fault) }
  | .ok paths =>
    let notes := startNote dir policy :: skipNotes t paths
    match suites t paths with
    | [] => { tree := t, notes, failure := some (.fault (.noFixtures dir)) }
    | found =>
      match openLog t log with
      | .error fault => { tree := t, notes, failure := some (.io fault) }
      | .ok t => conclude host policy found reportPath log timestamp t notes

end Verify

end PercentFormat

namespace PercentFormat.Command

/-- Records the built-in vectors as a suite in a directory, which is created where needed. -/
def runCapture (host : Host) (t : FileTree) (output family : String) (acceptanceOnly : Bool) :
    Outcome :=
  let notes := ["Capturing " ++ family ++ " fixtures to " ++ output]
  let vectors := if acceptanceOnly then Fixture.acceptanceVectors else Fixture.builtinVectors
  match t.makeDirs output with
  | .error fault => { tree := t, notes, failure := some (.io fault) }
  | .ok t =>
    match Fixture.capture family (host.clock 0) vectors with
    | .error fault => { tree := t, notes, failure := some (.fault fault) }
    | .ok suite =>
      let path := Path.join output (family ++ ".json")
      match t.write path (Utf8.encode suite.text) with
      | .error fault => { tree := t, notes, failure := some (.io fault) }
      | .ok t => { tree := t, notes := notes ++ [s!"Wrote {suite.cases.length} cases to " ++ path] }

def runCompare (t : FileTree) (all : Bool) : Outcome :=
  match Check.ofVectors (if all then Fixture.builtinVectors else Fixture.acceptanceVectors) with
  | .error fault => { tree := t, failure := some (.fault fault) }
  | .ok checks =>
    let failed := checks.countP (!·.passed)
    { tree := t
      output := Utf8.encode (String.join ((checks.flatMap Check.lines).map (· ++ "\n")))
      failure := if failed = 0 then none
        else some (.fault (.verificationFailed failed checks.length)) }

/-- What is printed of a completed call: the output, its length, and the diagnostics. -/
def renderedText (f : Formatted) : Bytes :=
  f.bytes ++ Utf8.encode ("\n" ++ s!"length: {f.bytes.length}\n"
    ++ String.join (f.diagnostics.map fun d => "diagnostic: " ++ d.message ++ "\n"))

/-- Formats one template. The environment gives the policy if the command line does not. -/
def runRender (env : Environment) (t : FileTree) (template : String) (args : List Fixture.Arg)
    (policy : Option String) : Outcome :=
  let policy := (policy.map Policy.ofWord).getD env.policy
  match Fixture.toArguments args with
  | .error fault => { tree := t, failure := some (.fault fault) }
  | .ok args =>
    match formatQuietly { policy } (Utf8.encode template) args with
    | .error error => { tree := t, failure := some (.format error) }
    | .ok f => { tree := t, output := renderedText f }

def runValidateLog (t : FileTree) (log : String) : Outcome :=
  match t.readText log with
  | .error fault => { tree := t, failure := some (.io fault) }
  | .ok text =>
    let (lines, violations) := Log.validateText text
    { tree := t
      notes := violations.map Log.Violation.message
        ++ [s!"Validated {lines} lines in " ++ log ++ s!": {violations.length} errors"]
      failure := if violations.isEmpty then none else some (.violations violations.length) }

def run (host : Host) (env : Environment) (t : FileTree) : Command → Outcome
  | .capture output family acceptanceOnly => runCapture host t output family acceptanceOnly
  | .verify fixture policy report log timestamp =>
    Verify.run host t fixture (Policy.ofWord policy) report log timestamp
  | .compare all => runCompare t all
  | .render template args policy => runRender env t template args policy
  | .validateLog log => runValidateLog t log

def paths : Command → List String
  | .capture output family _ => [output, Path.join output (family ++ ".json")]
  | .verify fixture _ report log _ =>
    fixture :: log.toList ++ (report.map Verify.reportPaths).getD []
  | .compare _ => []
  | .render _ _ _ => []
  | .validateLog log => [log]

def folders : Command → List String
  | .verify fixture _ _ _ _ => [fixture]
  | _ => []

end PercentFormat.Command
