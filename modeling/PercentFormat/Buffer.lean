import PercentFormat.Bytes

/-! Byte buffers that grow up to a fixed limit and refuse any write that would cross it. -/

namespace PercentFormat

/-- A byte buffer that never holds more than `limit` bytes. -/
structure Buffer where
  limit : Nat
  data : Array UInt8
  size_le : data.size ≤ limit

/-- The refusal of a write, with the limit that it would have crossed. -/
structure Overflow where
  limit : Nat
  deriving DecidableEq, Repr

namespace Buffer

def empty (limit : Nat) : Buffer := ⟨limit, #[], Nat.zero_le _⟩

def toList (b : Buffer) : Bytes := b.data.toList

def remaining (b : Buffer) : Nat := b.limit - b.data.size

def extend (b : Buffer) (bytes : Bytes) : Except Overflow Buffer :=
  if h : bytes.length ≤ b.remaining then
    .ok ⟨b.limit, b.data ++ bytes.toArray, by
      have := b.size_le
      simp only [remaining] at h
      simp only [Array.size_append, List.size_toArray]
      omega⟩
  else .error ⟨b.limit⟩

def push (b : Buffer) (byte : UInt8) : Except Overflow Buffer :=
  if h : 1 ≤ b.remaining then
    .ok ⟨b.limit, b.data.push byte, by
      simp only [remaining] at h
      simp only [Array.size_push]
      omega⟩
  else .error ⟨b.limit⟩

def pad (b : Buffer) (byte : UInt8) (count : Nat) : Except Overflow Buffer :=
  if h : count ≤ b.remaining then
    .ok ⟨b.limit, b.data ++ Array.replicate count byte, by
      have := b.size_le
      simp only [remaining] at h
      simp only [Array.size_append, Array.size_replicate]
      omega⟩
  else .error ⟨b.limit⟩

@[simp] theorem toList_empty (limit : Nat) : (empty limit).toList = [] := rfl

theorem remaining_eq (b : Buffer) : b.remaining = b.limit - b.toList.length := by
  simp [remaining, toList]

end Buffer

inductive Buffer.Write where
  | push (byte : UInt8)
  | extend (bytes : Bytes)
  | pad (byte : UInt8) (count : Nat)
  deriving DecidableEq, Repr

def Buffer.write (b : Buffer) : Buffer.Write → Except Overflow Buffer
  | .push byte => b.push byte
  | .extend bytes => b.extend bytes
  | .pad byte count => b.pad byte count

/-- Carries out a run of writes. A refused write leaves the buffer as it was. The result has, for
each write, its refusal if there was one, and the buffer after it. -/
def Buffer.writeAll (b : Buffer) : List Buffer.Write → List (Option Overflow × Buffer)
  | [] => []
  | w :: ws =>
    match b.write w with
    | .ok after => (none, after) :: after.writeAll ws
    | .error refusal => (some refusal, b) :: b.writeAll ws

/-- A buffer that is written in place. Nothing in the type keeps the contents within the limit. Memory is
idealised: no array is too long to be held, where a machine has room for fewer than `2 ^ 63` bytes. -/
structure RawBuffer where
  limit : Nat
  data : Array UInt8
  deriving DecidableEq, Repr

namespace RawBuffer

def empty (limit : Nat) : RawBuffer := ⟨limit, #[]⟩

def toList (b : RawBuffer) : Bytes := b.data.toList

/-- How many bytes can still be written. There is no result if it holds more than its limit. -/
def remaining? (b : RawBuffer) : Option Nat := difference? b.limit b.data.size

/-- Bytes at a new size: cut off, or filled up with copies of one byte. -/
def resized (data : Array UInt8) (size : Nat) (byte : UInt8) : Array UInt8 :=
  data.take size ++ Array.replicate (size - data.size) byte

/-- Changes the contents if `count` more bytes fit, and refuses to otherwise. The result has the
refusal, if there was one, and the buffer as it is then. -/
def within? (b : RawBuffer) (count : Nat) (change : Array UInt8 → Option (Array UInt8)) :
    Option (Option Overflow × RawBuffer) := do
  let remaining ← b.remaining?
  if remaining < count then return (some ⟨b.limit⟩, b)
  else
    let data ← change b.data
    return (none, { b with data })

/-- Carries out one write in place. There is no result if a size leaves the range of 64 bits. -/
def write? (b : RawBuffer) : Buffer.Write → Option (Option Overflow × RawBuffer)
  | .push byte => b.within? 1 fun data => some (data.push byte)
  | .extend bytes => b.within? bytes.length fun data => some (data ++ bytes.toArray)
  | .pad byte count => b.within? count fun data =>
    (sized? (data.size + count)).map fun size => resized data size byte

/-- Carries out a run of writes in place. The result has, for each write, its refusal if there was
one, and the buffer after it. -/
def writeAll? (b : RawBuffer) : List Buffer.Write → Option (List (Option Overflow × RawBuffer))
  | [] => some []
  | w :: ws => do
    let (refusal, after) ← b.write? w
    return (refusal, after) :: (← after.writeAll? ws)

end RawBuffer

end PercentFormat
