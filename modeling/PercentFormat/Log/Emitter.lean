import PercentFormat.Bytes
import PercentFormat.Calendar
import PercentFormat.Fault
import PercentFormat.Log.Entry

/-! Emitters complete log entries and write them, one on a line. Bytes on their way to a file are held back
until there are many of them. -/

namespace PercentFormat.Log

/-- The bytes for a file: those that were sent to it, and those that are still held back. -/
structure Spool where
  sent : Array UInt8 := #[]
  held : Array UInt8 := #[]
  deriving DecidableEq, Repr

namespace Spool

def capacity : Nat := 8192

def bytes (s : Spool) : Bytes := s.sent.toList ++ s.held.toList

def send (s : Spool) : Spool := { sent := s.sent ++ s.held }

/-- Adds a piece. What is held back is sent if the piece does not fit behind it, and the piece itself
is sent if it takes all the room that there is. -/
def add (s : Spool) (piece : Bytes) : Spool :=
  let s := if capacity < s.held.size + piece.length then s.send else s
  if capacity ≤ piece.length then { s with sent := s.sent ++ piece.toArray }
  else { s with held := s.held ++ piece.toArray }

theorem bytes_send (s : Spool) : s.send.bytes = s.bytes := by
  simp [bytes, send]

/-- A piece comes behind all others: it is sent past nothing that is held back. -/
theorem bytes_add (s : Spool) (piece : Bytes) : (s.add piece).bytes = s.bytes ++ piece := by
  unfold add
  split
  · rw [← s.bytes_send]
    split <;> simp [bytes, send]
  · next hroom =>
    split
    · next hlarge =>
      have hnone : s.held = #[] := Array.size_eq_zero_iff.1 (by omega)
      simp [bytes, hnone]
    · simp [bytes]

theorem add_of_lt {s : Spool} {piece : Bytes} (h : s.held.size + piece.length < capacity) :
    s.add piece = { s with held := s.held ++ piece.toArray } := by
  rw [add, if_neg (by omega), if_neg (by omega)]

theorem add_add_of_lt {first second : Bytes} (h : first.length + second.length < capacity) :
    (({} : Spool).add first).add second = { held := (first ++ second).toArray } := by
  have hfirst : ({} : Spool).add first = { held := first.toArray } := by
    rw [add_of_lt (by simp; omega), Array.empty_append]
  rw [hfirst, add_of_lt (by simpa using h)]
  simp

end Spool

inductive Writer where
  | memory (written : Array UInt8)
  | file (spool : Spool)
  | broken
  deriving DecidableEq, Repr

namespace Writer

def write? (piece : Bytes) : Writer → Option Writer
  | .memory written => some (.memory (written ++ piece.toArray))
  | .file spool => some (.file (spool.add piece))
  | .broken => none

/-- What was written. In memory nothing is held back. -/
def spool : Writer → Spool
  | .memory written => { sent := written }
  | .file spool => spool
  | .broken => {}

end Writer

structure Emitter where
  suite : String
  runId : String
  sequence : Nat := 0
  writer : Writer
  deriving DecidableEq, Repr

namespace Emitter

def traceId (e : Emitter) (number : Nat) : String :=
  e.suite ++ "::" ++ e.runId ++ "::" ++ String.ofList (zeroPadded 3 number)

/-- Gives an entry a trace id if it has none, and the suite if it has none. -/
def complete (e : Emitter) (entry : Entry) : Entry × Emitter :=
  let entry := { entry with suite := some (entry.suite.getD e.suite) }
  if entry.traceId.isEmpty then
    ({ entry with traceId := e.traceId (e.sequence + 1) }, { e with sequence := e.sequence + 1 })
  else (entry, e)

def write (e : Emitter) (entry : Entry) : Except IoFault Unit × Emitter :=
  match (e.writer.write? (Utf8.encode entry.line)).bind (·.write? [0x0A]) with
  | some writer => (.ok (), { e with writer })
  | none => (.error .refused, e)

/-- Completes an entry and writes it. The trace id is used up even if writing fails. -/
def emitEntry (e : Emitter) (entry : Entry) : Except IoFault Entry × Emitter :=
  let (entry, e) := e.complete entry
  let (result, e) := e.write entry
  (result.map fun _ => entry, e)

/-- Writes an entry with a trace id of the emitter and nothing but the required fields. -/
def emit (e : Emitter) (now : String) (level : Level) (event : String) :
    Except IoFault Entry × Emitter :=
  e.emitEntry { timestamp := now, traceId := "", level, event }

def flush (e : Emitter) : Except IoFault Unit :=
  match e.writer with
  | .memory _ | .file _ => .ok ()
  | .broken => .error .refused

def written (e : Emitter) : Bytes := e.writer.spool.bytes

end Emitter

end PercentFormat.Log
