import PercentFormat.Bytes
import PercentFormat.Fixture.Suite
import PercentFormat.Json.Value
import PercentFormat.Text

/-! Verdicts, which compare what the formatter made of a fixture case with what was expected, line by line;
and reports on all of them. -/

namespace PercentFormat.Diff

/-- The lines of one difference: where it is, and what stands on either side. -/
def hunk (number : Nat) (expected actual : Option (List Char)) : List Char :=
  if expected = actual then []
  else
    s!"@@ line {number} @@\n".toList
      ++ (match expected with
        | some line => '-' :: line ++ ['\n']
        | none => [])
      ++ (match actual with
        | some line => '+' :: line ++ ['\n']
        | none => [])

/-- The differences between lines of the same number, and the lines that only one side has. -/
def hunks (expected actual : List (List Char)) : List Char :=
  ((List.zipWithAll Prod.mk expected actual).zipIdx 1).flatMap fun (lines, number) =>
    hunk number lines.1 lines.2

def agreement (a b : Bytes) : Nat := ((a.zip b).takeWhile fun (x, y) => x == y).length

def divergence (expected actual : String) : List Char :=
  s!"first difference at byte {agreement (Utf8.encode expected) (Utf8.encode actual)}\n".toList

def render (expected actual : String) : String :=
  if expected = actual then "[identical]"
  else
    let e := Text.splitLines expected.toList
    let a := Text.splitLines actual.toList
    String.ofList ("--- expected\n+++ actual\n".toList ++ hunks e a
      ++ if e.length = 1 && a.length = 1 then divergence expected actual else [])

end PercentFormat.Diff

namespace PercentFormat

open Fixture (Case Suite toArguments)

structure Verdict where
  caseName : String
  template : String
  passed : Bool
  expected : String
  actual : String
  expectedLength : Nat
  actualLength : Nat
  diagnostics : List String
  difference : Option String
  deriving DecidableEq, Repr

namespace Verdict

/-- The verdict on a case that was not run yet: it failed, and nothing is known. -/
def pending (c : Case) : Verdict where
  caseName := c.name
  template := c.template
  passed := false
  expected := c.expectedOutput
  actual := ""
  expectedLength := c.expectedLength
  actualLength := 0
  diagnostics := []
  difference := none

/-- What is wrong with a completed call: its text, its length, and its number of diagnostics. -/
def complaints (c : Case) (actual : String) (length diagnostics : Nat) : List String :=
  (if actual = c.expectedOutput then [] else [Diff.render c.expectedOutput actual])
  ++ (if length = c.expectedLength then []
    else [s!"length is {length} but should be {c.expectedLength}"])
  ++ (if diagnostics = c.expectedDiagnostics then []
    else [s!"raised {diagnostics} diagnostics but should raise {c.expectedDiagnostics}"])

def ofFormatted (c : Case) (f : Formatted) : Verdict :=
  let actual := Utf8.decodeLossy f.bytes
  let notes := complaints c actual f.bytes.length f.diagnostics.length
  { pending c with
    passed := notes.isEmpty
    actual
    actualLength := f.bytes.length
    diagnostics := f.diagnostics.map Diagnostic.message
    difference := if notes.isEmpty then none else some ("\n".intercalate notes) }

def ofError (c : Case) (e : FormatError) : Verdict :=
  let actual := "error:" ++ e.message
  { pending c with actual, difference := some (Diff.render c.expectedOutput actual) }

/-- Runs a case under a policy. -/
def ofCase (policy : Policy) (c : Case) : Verdict :=
  match toArguments c.args with
  | .error fault => { pending c with difference := some ("unusable fixture: " ++ fault.message) }
  | .ok args =>
    match formatQuietly { policy } (Utf8.encode c.template) args with
    | .ok f => ofFormatted c f
    | .error e => ofError c e

def ofSuite (policy : Policy) (s : Suite) : List Verdict := s.cases.map (ofCase policy)

end Verdict

open Json

structure Summary where
  total : Nat
  passed : Nat
  failed : Nat
  results : List Verdict
  deriving DecidableEq, Repr

def Summary.ofResults (results : List Verdict) : Summary :=
  let passed := results.countP (·.passed)
  ⟨results.length, passed, results.length - passed, results⟩

def Summary.allPassed (s : Summary) : Bool := s.failed == 0

def Summary.failures (s : Summary) : List String :=
  (s.results.filter (!·.passed)).map Verdict.caseName

structure Report where
  title : String
  policy : String
  timestamp : String
  summary : Summary
  deriving DecidableEq, Repr

namespace Report

/-- A text inside a table cell, without column marks and line ends. -/
def cell (s : String) : String :=
  String.ofList (s.toList.flatMap fun c =>
    if c = '|' then ['\\', '|'] else if c = '\n' then ['\\', 'n'] else [c])

def row (v : Verdict) : String :=
  "| " ++ v.caseName ++ " | `" ++ cell v.template ++ "` | " ++ toString v.actualLength ++ " | "
    ++ (if v.passed then "PASS" else "FAIL") ++ " |\n"

def failure (v : Verdict) : String :=
  match v.passed, v.difference with
  | false, some difference =>
    "\n## " ++ v.caseName ++ "\n\n```\n" ++ difference ++ "\n```\n"
  | _, _ => ""

def heading (r : Report) : String :=
  "# " ++ r.title ++ "\n\n- Policy: " ++ r.policy ++ "\n- Timestamp: " ++ r.timestamp
    ++ s!"\n- Total: {r.summary.total}\n- Passed: {r.summary.passed}"
    ++ s!"\n- Failed: {r.summary.failed}\n\n"

def tableHead : String :=
  "| Case | Template | Length | Status |\n|------|----------|--------|--------|\n"

/-- The report for readers: the counts, a table of all cases, and a section for each failure. -/
def markdown (r : Report) : String :=
  r.heading ++ tableHead ++ String.join (r.summary.results.map row)
    ++ String.join (r.summary.results.map failure)

end Report

def Verdict.toJson (v : Verdict) : Value :=
  .object [("case_name", .string v.caseName), ("template", .string v.template),
    ("passed", .bool v.passed), ("expected", .string v.expected), ("actual", .string v.actual),
    ("expected_len", .ofNat v.expectedLength), ("actual_len", .ofNat v.actualLength),
    ("diagnostics", .array (v.diagnostics.map .string)),
    ("diff", match v.difference with
      | some difference => .string difference
      | none => .null)]

def Summary.toJson (s : Summary) : Value :=
  .object [("total", .ofNat s.total), ("passed", .ofNat s.passed), ("failed", .ofNat s.failed),
    ("results", .array (s.results.map Verdict.toJson))]

def Report.toJson (r : Report) : Value :=
  .object [("title", .string r.title), ("policy", .string r.policy),
    ("timestamp", .string r.timestamp), ("summary", r.summary.toJson)]

def Report.text (r : Report) : String := r.toJson.pretty

end PercentFormat
