import PercentFormat.Bytes

/-! Numerals of 32-bit integers: signed decimal, and hexadecimal in two's complement. -/

namespace PercentFormat

inductive Radix where
  | decimal
  | hex
  deriving DecidableEq, Repr

def Radix.base : Radix → Nat
  | .decimal => 10
  | .hex => 16

theorem Radix.two_le_base (r : Radix) : 2 ≤ r.base := by
  cases r <;> decide

def digitByte (d : Nat) : UInt8 :=
  if d < 10 then UInt8.ofNat (0x30 + d) else UInt8.ofNat (0x57 + d)

/-- The digits of a natural number, least significant first. Zero has one digit. -/
def reversedDigits (r : Radix) (n : Nat) : Bytes :=
  digitByte (n % r.base) :: if n / r.base = 0 then [] else reversedDigits r (n / r.base)
termination_by n
decreasing_by
  exact Nat.div_lt_self (Nat.pos_of_ne_zero (by rintro rfl; simp_all)) r.two_le_base

/-- The eight hexadecimal digits of a word, most significant first. -/
def nibbles (w : UInt32) : Bytes :=
  [7, 6, 5, 4, 3, 2, 1, 0].map fun i => digitByte (w.toNat / Nat.pow 16 i % 16)

/-- The numeral of an integer. A negative one has a sign in decimal, and is its
two's-complement word in hexadecimal. -/
def numeral (r : Radix) (v : Int32) : Bytes :=
  if v < 0 then
    match r with
    | .decimal => (reversedDigits .decimal v.toInt.natAbs ++ [minusSign]).reverse
    | .hex => nibbles v.toUInt32
  else
    (reversedDigits r v.toInt.natAbs).reverse

def scratchSize : Nat := 12

abbrev Scratch := Vector UInt8 scratchSize

namespace Scratch

end Scratch

end PercentFormat
