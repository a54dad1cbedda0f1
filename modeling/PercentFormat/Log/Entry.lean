import PercentFormat.Json.Value
import PercentFormat.Text

/-! Log entries: their form as one line of JSON, and the rules that a line can break. -/

namespace PercentFormat.Log

open Json

inductive Level where
  | trace
  | debug
  | info
  | warn
  | error
  deriving DecidableEq, Repr

inductive Outcome where
  | pass
  | fail
  | skip
  | error
  deriving DecidableEq, Repr

def Level.name : Level → String
  | .trace => "trace"
  | .debug => "debug"
  | .info => "info"
  | .warn => "warn"
  | .error => "error"

def Outcome.name : Outcome → String
  | .pass => "pass"
  | .fail => "fail"
  | .skip => "skip"
  | .error => "error"

def Level.all : List Level := [.trace, .debug, .info, .warn, .error]

def Outcome.all : List Outcome := [.pass, .fail, .skip, .error]

def Level.ofName? (name : String) : Option Level := Level.all.find? (·.name == name)

def Outcome.ofName? (name : String) : Option Outcome := Outcome.all.find? (·.name == name)

/-- A log entry. The first four fields are always there. -/
structure Entry where
  timestamp : String
  traceId : String
  level : Level
  event : String
  suite : Option String := none
  policy : Option String := none
  caseName : Option String := none
  template : Option String := none
  outcome : Option Outcome := none
  outputLength : Option Nat := none
  diagnostics : Option Nat := none
  latency : Option Nat := none
  artifactRefs : Option (List String) := none
  details : Option Value := none
  deriving Repr

/-- A member of an object that is left out when there is no value. -/
def optional {α : Type} (key : String) (value : α → Value) (field : Option α) :
    List (String × Value) :=
  match field with
  | some x => [(key, value x)]
  | none => []

/-- The members of an entry as JSON, in the order in which they are written. -/
def Entry.members (e : Entry) : List (String × Value) :=
  [("timestamp", .string e.timestamp), ("trace_id", .string e.traceId),
    ("level", .string e.level.name), ("event", .string e.event)]
  ++ optional "suite" .string e.suite
  ++ optional "policy" .string e.policy
  ++ optional "case" .string e.caseName
  ++ optional "template" .string e.template
  ++ optional "outcome" (fun o => .string o.name) e.outcome
  ++ optional "output_len" .ofNat e.outputLength
  ++ optional "diagnostics" .ofNat e.diagnostics
  ++ optional "latency_ns" .ofNat e.latency
  ++ optional "artifact_refs" (fun refs => .array (refs.map .string)) e.artifactRefs
  ++ optional "details" id e.details

def Entry.toJson (e : Entry) : Value := .object e.members

def Entry.line (e : Entry) : String := e.toJson.compact

def optionalMember? {α : Type} (v : Value) (key : String) (read : Value → Option α) :
    Option (Option α) :=
  match v.get? key with
  | none => some none
  | some .null => some none
  | some member => (read member).map some

def requiredMember? {α : Type} (v : Value) (key : String) (read : Value → Option α) : Option α :=
  (v.get? key).bind read

def text? : Value → Option String
  | .string text => some text
  | _ => none

def size? : Value → Option Nat
  | .number (.integer (.ofNat n)) => some n
  | _ => none

def texts? : Value → Option (List String)
  | .array items => items.mapM text?
  | _ => none

/-- The name of an alternative: a string, or an object whose only key it is and whose value is
null. -/
def name? : Value → Option String
  | .string text => some text
  | .object [(key, .null)] => some key
  | _ => none

/-- Reads an entry. Other members are passed over. -/
def Entry.ofValue? (v : Value) : Option Entry := do
  let timestamp ← requiredMember? v "timestamp" text?
  let traceId ← requiredMember? v "trace_id" text?
  let level ← requiredMember? v "level" fun v => (name? v).bind Level.ofName?
  let event ← requiredMember? v "event" text?
  let suite ← optionalMember? v "suite" text?
  let policy ← optionalMember? v "policy" text?
  let caseName ← optionalMember? v "case" text?
  let template ← optionalMember? v "template" text?
  let outcome ← optionalMember? v "outcome" fun v => (name? v).bind Outcome.ofName?
  let outputLength ← optionalMember? v "output_len" size?
  let diagnostics ← optionalMember? v "diagnostics" size?
  let latency ← optionalMember? v "latency_ns" size?
  let artifactRefs ← optionalMember? v "artifact_refs" texts?
  let details ← optionalMember? v "details" some
  return { timestamp, traceId, level, event, suite, policy, caseName, template, outcome,
           outputLength, diagnostics, latency, artifactRefs, details }

inductive Breach where
  | notJson
  | notObject
  | missing (field : String)
  | badWord (field word : String)
  | badTraceId (traceId : String)
  | noLength
  | illTyped
  deriving DecidableEq, Repr

def Breach.field : Breach → String
  | .notJson => "<json>"
  | .notObject => "<root>"
  | .missing field => field
  | .badWord field _ => field
  | .badTraceId _ => "trace_id"
  | .noLength => "output_len"
  | .illTyped => "<deserialization>"

def Breach.message : Breach → String
  | .notJson => "invalid JSON"
  | .notObject => "expected JSON object"
  | .missing _ => "required field missing"
  | .badWord field word => "invalid " ++ field ++ ": '" ++ word ++ "'"
  | .badTraceId traceId =>
    "trace_id should follow <suite>::<run_id>::<seq> format, got: '" ++ traceId ++ "'"
  | .noLength => "case outcomes must include output_len"
  | .illTyped => "failed to deserialize"

structure Violation where
  line : Nat
  breach : Breach
  deriving DecidableEq, Repr

def Violation.message (v : Violation) : String :=
  s!"line {v.line}: field '" ++ v.breach.field ++ "': " ++ v.breach.message

def hasDoubleColon : List Char → Bool
  | ':' :: ':' :: _ => true
  | _ :: rest => hasDoubleColon rest
  | [] => false

def memberText? (v : Value) (key : String) : Option String := (v.get? key).bind text?

def missingFields (v : Value) : List Breach :=
  (["timestamp", "trace_id", "level", "event"].filter fun key => (v.get? key).isNone).map .missing

def wordBreaches (v : Value) (key : String) (allowed : List String) : List Breach :=
  match memberText? v key with
  | some word => if word ∈ allowed then [] else [.badWord key word]
  | none => []

def traceBreaches (v : Value) : List Breach :=
  match memberText? v "trace_id" with
  | some traceId => if hasDoubleColon traceId.toList then [] else [.badTraceId traceId]
  | none => []

def lengthBreaches (v : Value) : List Breach :=
  if (v.get? "outcome").isSome && (v.get? "case").isSome && (v.get? "output_len").isNone then
    [.noLength]
  else []

/-- The rules that an object breaks, in order. The types of its members are not looked at. -/
def breaches (v : Value) : List Breach :=
  missingFields v
    ++ wordBreaches v "level" (Level.all.map Level.name)
    ++ wordBreaches v "outcome" (Outcome.all.map Outcome.name)
    ++ wordBreaches v "policy" ["continue", "abort"]
    ++ traceBreaches v ++ lengthBreaches v

def checkObject (v : Value) : Except (List Breach) Entry :=
  match breaches v with
  | [] =>
    match Entry.ofValue? v with
    | some entry => .ok entry
    | none => .error [.illTyped]
  | found => .error found

def checkLine (line : String) : Except (List Breach) Entry :=
  match Value.parse? line with
  | none => .error [.notJson]
  | some (.object members) => checkObject (.object members)
  | some _ => .error [.notObject]

/-- The entry of a line, or its violations. -/
def validateLine (line : String) (number : Nat) : Except (List Violation) Entry :=
  (checkLine line).mapError fun found => found.map (⟨number, ·⟩)

def lineViolations (number : Nat) (line : List Char) : List Violation :=
  match validateLine (String.ofList line) number with
  | .ok _ => []
  | .error violations => violations

/-- The lines of a text that are not blank, with their numbers from one, trimmed. -/
def numberedLines (text : String) : List (List Char × Nat) :=
  (((Text.splitLines text.toList).map Text.trimList).zipIdx 1).filter fun line => !line.1.isEmpty

/-- How many lines of a text are not blank, and the violations of them. -/
def validateText (text : String) : Nat × List Violation :=
  let lines := numberedLines text
  (lines.length, lines.flatMap fun (line, number) => lineViolations number line)

end PercentFormat.Log
