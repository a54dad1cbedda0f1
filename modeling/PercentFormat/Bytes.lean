/-! Byte strings, the byte classes of templates, the rule that a NUL ends a string, and UTF-8. -/

namespace PercentFormat

/-- A byte string. Templates, text arguments and rendered output are byte strings. -/
abbrev Bytes := List UInt8

def percentSign : UInt8 := 0x25

def blank : UInt8 := 0x20

def minusSign : UInt8 := 0x2D

def isDigit (b : UInt8) : Bool := 0x30 ≤ b && b ≤ 0x39

def isLetter (b : UInt8) : Bool :=
  (0x41 ≤ b && b ≤ 0x5A) || (0x61 ≤ b && b ≤ 0x7A)

/-- The value of a digit byte. Nothing is claimed of other bytes. -/
def digitValue (b : UInt8) : Nat := b.toNat - 0x30

/-- The bytes before the first NUL; all of them when there is none. -/
def terminated (b : Bytes) : Bytes := b.takeWhile (· != 0)

def maxSize : Nat := 0xFFFFFFFFFFFFFFFF

def sized? (n : Nat) : Option Nat := if n ≤ maxSize then some n else none

def difference? (a b : Nat) : Option Nat := if b ≤ a then some (a - b) else none

theorem sized?_of_le {n : Nat} (h : n ≤ maxSize) : sized? n = some n := if_pos h

theorem difference?_of_le {a b : Nat} (h : b ≤ a) : difference? a b = some (a - b) := if_pos h

theorem zero_notMem_terminated (b : Bytes) : (0 : UInt8) ∉ terminated b := by
  intro h
  have := List.all_takeWhile (l := b) (p := (· != 0))
  rw [List.all_eq_true] at this
  simpa using this 0 h

theorem terminated_append_zero (b junk : Bytes) :
    terminated (b ++ 0 :: junk) = terminated b := by
  induction b with
  | nil => simp [terminated]
  | cons x b ih =>
    unfold terminated at ih ⊢
    by_cases h : x = 0 <;> simp [h, ih]

end PercentFormat

namespace PercentFormat.Utf8

def encode (s : String) : Bytes := s.toList.flatMap String.utf8EncodeChar

/-- Reads `count` continuation bytes, the first of which lies between `low` and `high`, onto the
bits read so far. Stops in front of the first byte that does not fit. -/
def follow (count : Nat) (low high : UInt8) (bits : Nat) (bytes : Bytes) : Option Char × Bytes :=
  match count, bytes with
  | 0, rest => (some (Char.ofNat bits), rest)
  | _ + 1, [] => (none, [])
  | n + 1, b :: rest =>
    if low ≤ b && b ≤ high then follow n 0x80 0xBF (bits * 64 + (b.toNat - 0x80)) rest
    else (none, b :: rest)

/-- Reads the character that starts with `b`. Where there is none, the longest run of bytes that
could have started one is passed over. -/
def next (b : UInt8) (rest : Bytes) : Option Char × Bytes :=
  if b < 0x80 then (some (Char.ofNat b.toNat), rest)
  else if b < 0xC2 then (none, rest)
  else if b < 0xE0 then follow 1 0x80 0xBF (b.toNat - 0xC0) rest
  else if b < 0xE1 then follow 2 0xA0 0xBF 0x0 rest
  else if b < 0xED then follow 2 0x80 0xBF (b.toNat - 0xE0) rest
  else if b < 0xEE then follow 2 0x80 0x9F 0xD rest
  else if b < 0xF0 then follow 2 0x80 0xBF (b.toNat - 0xE0) rest
  else if b < 0xF1 then follow 3 0x90 0xBF 0x0 rest
  else if b < 0xF4 then follow 3 0x80 0xBF (b.toNat - 0xF0) rest
  else if b < 0xF5 then follow 3 0x80 0x8F 0x4 rest
  else (none, rest)

theorem length_follow_le (count : Nat) (low high : UInt8) (bits : Nat) (bytes : Bytes) :
    (follow count low high bits bytes).2.length ≤ bytes.length := by
  induction count generalizing low high bits bytes with
  | zero => simp [follow]
  | succ n ih =>
    cases bytes with
    | nil => simp [follow]
    | cons b rest =>
      rw [follow]
      split
      · exact Nat.le_succ_of_le (ih ..)
      · exact Nat.le_refl _

/-- What is left after a character is not longer than what followed its first byte. -/
theorem length_next_le (b : UInt8) (rest : Bytes) : (next b rest).2.length ≤ rest.length := by
  unfold next
  repeat' split
  all_goals first | exact Nat.le_refl _ | exact length_follow_le ..

/-- The characters of a byte string, put behind those already read, which stand in reverse.
A place that holds no character counts as one missing character. -/
def piecesOnto (read : List (Option Char)) (bytes : Bytes) : List (Option Char) :=
  match bytes with
  | [] => read.reverse
  | b :: rest =>
    have := length_next_le b rest
    piecesOnto ((next b rest).1 :: read) (next b rest).2
termination_by bytes.length
decreasing_by simp only [List.length_cons]; omega

/-- The characters of a byte string, with `none` where the bytes are malformed. -/
def pieces (bytes : Bytes) : List (Option Char) := piecesOnto [] bytes

def decode? (bytes : Bytes) : Option String :=
  let found := pieces bytes
  if found.all Option.isSome then some (String.ofList (found.filterMap id)) else none

/-- The text of a byte string, with U+FFFD for each malformed place. -/
def decodeLossy (bytes : Bytes) : String :=
  String.ofList ((pieces bytes).map (·.getD '\uFFFD'))

end PercentFormat.Utf8
