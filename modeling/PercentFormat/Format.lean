import PercentFormat.Buffer
import PercentFormat.Numeral
import PercentFormat.Segment
import PercentFormat.Session

/-! Formatting: a template and its arguments rendered within limits, under a policy; the output put to the
front of an area whose size is fixed; and runs of a session, one request after another. -/

namespace PercentFormat

structure Options where
  policy : Policy := .proceed
  maxOutput : Nat := 65536
  /-- The most bytes that one directive may have behind its percent sign. -/
  maxDirective : Nat := 1023
  emits : Bool := true
  deriving DecidableEq, Repr

/-- What ends a formatting call early. -/
inductive FormatError where
  | aborted (diagnostic : Diagnostic)
  | outputTooLarge (limit : Nat)
  | directiveTooLong (offset limit : Nat)
  | bufferTooSmall (needed available : Nat)
  deriving DecidableEq, Repr

def FormatError.message : FormatError → String
  | .aborted diagnostic => "aborted: " ++ diagnostic.message
  | .outputTooLarge limit => s!"rendered output exceeds {limit} bytes"
  | .directiveTooLong offset limit => s!"directive at offset {offset} exceeds {limit} bytes"
  | .bufferTooSmall needed available =>
    s!"destination too small: need {needed}, have {available}"

structure Formatted where
  bytes : Bytes
  diagnostics : List Diagnostic
  deriving DecidableEq, Repr

def Formatted.isClean (f : Formatted) : Bool := f.diagnostics.isEmpty

/-- Copies the output and a NUL to the front of a destination, if both fit. -/
def Formatted.writeTo (f : Formatted) (dst : Bytes) : Except FormatError (Nat × Bytes) :=
  let needed := f.bytes.length + 1
  if dst.length < needed then .error (.bufferTooSmall needed dst.length)
  else .ok (f.bytes.length, f.bytes ++ 0 :: dst.drop needed)

namespace Conversion

/-- The complaint about an argument that is missing or has another type, and the arguments left. -/
def refuse (expected : Argument.Kind) : List Argument → Diagnostic.Kind × List Argument
  | [] => (.missingArgument expected, [])
  | found :: rest => (.argumentMismatch expected found.kind, rest)

/-- What a conversion renders from the arguments that are left, or what it complains about; and the
arguments that are left then. -/
def apply (c : Conversion) (args : List Argument) :
    Except Diagnostic.Kind Bytes × List Argument :=
  match c, args with
  | .percent, args => (.ok [percentSign], args)
  | .unknown letter, args => (.error (.unknownConversion letter), args)
  | .char, .char byte :: rest => (.ok [byte], rest)
  | .decimal, .int value :: rest => (.ok (numeral .decimal value), rest)
  | .hex, .int value :: rest => (.ok (numeral .hex value), rest)
  | .text, .text bytes :: rest => (.ok (terminated bytes), rest)
  | .char, args => (refuse .char args).map .error id
  | .decimal, args => (refuse .int args).map .error id
  | .hex, args => (refuse .int args).map .error id
  | .text, args => (refuse .text args).map .error id

end Conversion

/-- A formatting call between two segments. -/
structure Run where
  args : List Argument
  out : Buffer
  diagnostics : Array Diagnostic
  session : Session

structure Run.Failure where
  error : FormatError
  session : Session

namespace Run

def fail (r : Run) (error : FormatError) : Except Failure Run := .error ⟨error, r.session⟩

/-- Counts a diagnostic and writes its marker; then the call ends or goes on, as the policy says. -/
def raise (o : Options) (r : Run) (d : Diagnostic) : Except Failure Run :=
  let counted := r.session.record d.category
  let told := if o.emits then counted.emit d.marker else counted
  match o.policy with
  | .abort => .error ⟨.aborted d, told.recordAbort⟩
  | .proceed => .ok { r with diagnostics := r.diagnostics.push d, session := told }

def write (r : Run) (bytes : Bytes) : Except Failure Run :=
  match r.out.extend bytes with
  | .ok out => .ok { r with out }
  | .error refusal => r.fail (.outputTooLarge refusal.limit)

def pad (r : Run) (count : Nat) : Except Failure Run :=
  match r.out.pad blank count with
  | .ok out => .ok { r with out }
  | .error refusal => r.fail (.outputTooLarge refusal.limit)

/-- Renders a conversion into a field of the width, on its right. A longer text is not cut. -/
def convert (o : Options) (r : Run) (offset width : Nat) (c : Conversion) : Except Failure Run :=
  match c.apply r.args with
  | (.ok body, rest) => do
    let padded ← { r with args := rest }.pad (width - body.length)
    padded.write body
  | (.error kind, rest) => { r with args := rest }.raise o ⟨kind, offset⟩

/-- Carries out one segment. -/
def step (o : Options) (r : Run) : Segment → Except Failure Run
  | .literal run => r.write run
  | .directive offset code =>
    if o.maxDirective < code.length then r.fail (.directiveTooLong offset o.maxDirective)
    else
      match Directive.parse? code with
      | none => r.raise o ⟨.emptyDirective, offset⟩
      | some d => do
        let told ← d.malformed.foldlM (fun r b => r.raise o ⟨.malformedWidthDigit b, offset⟩) r
        told.convert o offset d.width d.conversion

end Run

namespace Session

/-- Formats a template with the given settings. The session is what the call leaves behind. -/
def formatWith (p : Session) (o : Options) (template : Bytes) (args : List Argument) :
    Except FormatError Formatted × Session :=
  match (segments template).foldlM (Run.step o) ⟨args, .empty o.maxOutput, #[], p⟩ with
  | .ok r => (.ok ⟨r.out.toList, r.diagnostics.toList⟩, r.session)
  | .error f => (.error f.error, f.session)

/-- Formats a template with the usual limits, under the policy of the session. -/
def format (p : Session) (template : Bytes) (args : List Argument) :
    Except FormatError Formatted × Session :=
  let (policy, p) := p.readPolicy
  p.formatWith { policy } template args

/-- Formats a template into a destination and ends it with a NUL. The result is the length without
the NUL and the destination, which is untouched after an error. -/
def formatInto (p : Session) (dst template : Bytes) (args : List Argument) :
    Except FormatError (Nat × Bytes) × Session :=
  let (result, p) := p.format template args
  (result.bind (·.writeTo dst), p)

end Session

def formatQuietly (o : Options) (template : Bytes) (args : List Argument) :
    Except FormatError Formatted :=
  ((Session.start {}).formatWith { o with emits := false } template args).1

abbrev Area (size : Nat) := Vector UInt8 size

/-- Puts bytes to the places from `place` on, one after the other. Every place must be there. -/
def Area.putAll {size : Nat} (a : Area size) (place : Nat) (bytes : Bytes)
    (fits : place + bytes.length ≤ size) : Area size :=
  match bytes with
  | [] => a
  | b :: rest =>
    have later : place + 1 + rest.length ≤ size := by
      rw [List.length_cons] at fits
      omega
    putAll (a.set place b (by omega)) (place + 1) rest later

/-- Puts the output and a NUL to the front of an area, if both fit. The result is the length without
the NUL, or the error, and the area as it is then. -/
def Formatted.writeInPlace {size : Nat} (f : Formatted) (a : Area size) :
    Except FormatError Nat × Area size :=
  let needed := f.bytes.length + 1
  if fits : needed ≤ size then
    (.ok f.bytes.length, (a.putAll 0 f.bytes (by omega)).set f.bytes.length 0)
  else (.error (.bufferTooSmall needed size), a)

/-- Formats a template to the front of an area and ends it with a NUL. The result is the length
without the NUL, or the error, and the area as it is then. -/
def Session.formatInPlace {size : Nat} (p : Session) (a : Area size) (template : Bytes)
    (args : List Argument) : (Except FormatError Nat × Area size) × Session :=
  match p.format template args with
  | (.ok f, p) => (f.writeInPlace a, p)
  | (.error e, p) => ((.error e, a), p)

inductive Session.Step where
  | formatWith (options : Options) (template : Bytes) (args : List Argument)
  | format (template : Bytes) (args : List Argument)
  | formatInto (dst template : Bytes) (args : List Argument)
  | emit (marker : Marker)
  | setSink (broken : Bool)
  | setTarget (target : Target)
  | policy
  | target
  | record (category : Diagnostic.Class)
  | recordAbort
  deriving DecidableEq, Repr

inductive Session.Answer where
  | formatted (result : Except FormatError Formatted)
  | written (result : Except FormatError (Nat × Bytes))
  | policy (policy : Policy)
  | target (target : Target)
  | none

namespace Session

def step (p : Session) : Step → Answer × Session
  | .formatWith options template args => (p.formatWith options template args).map .formatted id
  | .format template args => (p.format template args).map .formatted id
  | .formatInto dst template args => (p.formatInto dst template args).map .written id
  | .emit marker => (.none, p.emit marker)
  | .setSink broken => (.none, p.setSink broken)
  | .setTarget target => (.none, { p with channel := .target target })
  | .policy => p.readPolicy.map .policy id
  | .target => (.target p.environment.target, p)
  | .record category => (.none, p.record category)
  | .recordAbort => (.none, p.recordAbort)

/-- Answers a run of requests. The result has, for each one, its answer and the session after it. -/
def run (p : Session) : List Step → List (Answer × Session)
  | [] => []
  | s :: rest =>
    let answered := p.step s
    answered :: run answered.2 rest

end Session

end PercentFormat
