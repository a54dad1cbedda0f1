import PercentFormat.Proofs.Digits

/-! Numerals in a scratch area: every place that is written to is there, what stands in front is the
numeral, and the numeral reads back as the integer. -/

namespace PercentFormat

namespace Scratch

/-- The area has `front` in front, and behind it what stood there before. -/
def Holds (s before : Scratch) (front : Bytes) : Prop :=
  s.toList = front ++ before.toList.drop front.length

variable {s before : Scratch} {front : Bytes}

theorem Holds.take (h : s.Holds before front) : s.toList.take front.length = front := by
  rw [h, List.take_left]

theorem Holds.drop (h : s.Holds before front) :
    s.toList.drop front.length = before.toList.drop front.length := by
  rw [h, List.drop_left]

end Scratch

section
variable {s before : Scratch} {front : Bytes}

end

/-- The value of a digit. -/
def byteValue (b : UInt8) : Nat := if b < 0x3A then b.toNat - 0x30 else b.toNat - 0x57

/-- The value of digits, the most significant first. -/
def digitsValue (r : Radix) (digits : Bytes) : Nat :=
  digits.foldl (fun n b => n * r.base + byteValue b) 0

/-- The value of a numeral, which may have a sign in front. -/
def numeralValue (r : Radix) : Bytes → Int
  | [] => 0
  | b :: digits => if b = minusSign then -digitsValue r digits else digitsValue r (b :: digits)

/-- The shortest digits of a number: digits of the radix with its value, and a zero in front only if
it is the one digit. -/
structure ShortestDigits (r : Radix) (n : Nat) (digits : Bytes) : Prop where
  ne_nil : digits ≠ []
  digit : ∀ b ∈ digits, ∃ d < r.base, b = digitByte d
  lead : digits.head? = some (digitByte 0) → digits = [digitByte 0]
  value : digitsValue r digits = n

private theorem byteValue_digitByte : ∀ d < 16, byteValue (digitByte d) = d := by
  decide

private theorem digitByte_ne_minusSign : ∀ d < 16, digitByte d ≠ minusSign := by
  decide

private theorem digitsValue_concat (r : Radix) (digits : Bytes) (b : UInt8) :
    digitsValue r (digits ++ [b]) = digitsValue r digits * r.base + byteValue b := by
  simp [digitsValue]

theorem shortestDigits_reversedDigits (r : Radix) (n : Nat) :
    ShortestDigits r n (reversedDigits r n).reverse := by
  have hb := r.two_le_base
  fun_induction reversedDigits r n with
  | case1 n ih =>
    have hd : n % r.base < r.base := Nat.mod_lt n (by omega)
    have hvalue : byteValue (digitByte (n % r.base)) = n % r.base :=
      byteValue_digitByte _ (Nat.lt_of_lt_of_le hd (by cases r <;> decide))
    split
    · next hn =>
      have hlast : n % r.base = n := Nat.mod_eq_of_lt (by
        rcases Nat.div_eq_zero_iff.mp hn with h | h <;> omega)
      refine ⟨by simp, by simpa using ⟨_, hd, rfl⟩, by simp, ?_⟩
      rw [hlast] at hvalue ⊢
      simp [digitsValue, hvalue]
    · next hn =>
      obtain ⟨hne, hdigit, hlead, hdigits⟩ := ih hn
      rw [List.reverse_cons]
      refine ⟨by simp, ?_, ?_, ?_⟩
      · intro b hmem
        rcases List.mem_append.mp hmem with hmem | hmem
        · exact hdigit b hmem
        · exact ⟨_, hd, List.mem_singleton.mp hmem⟩
      · -- a zero in front would be the only digit of what stands before the last one
        rw [List.head?_append, List.head?_eq_some_head hne, Option.some_or,
          ← List.head?_eq_some_head]
        intro hzero
        rw [hlead hzero] at hdigits
        exact absurd (by simpa [digitsValue, byteValue_digitByte] using hdigits.symm) hn
      · rw [digitsValue_concat, hdigits, hvalue, Nat.mul_comm]
        exact Nat.div_add_mod n r.base

theorem ShortestDigits.numeralValue_eq {r : Radix} {n : Nat} {digits : Bytes}
    (h : ShortestDigits r n digits) : numeralValue r digits = n := by
  obtain ⟨b, rest, rfl⟩ := List.exists_cons_of_ne_nil h.ne_nil
  obtain ⟨d, hd, rfl⟩ := h.digit b (by simp)
  have hsign := digitByte_ne_minusSign d (Nat.lt_of_lt_of_le hd (by cases r <;> decide))
  rw [numeralValue, if_neg hsign, h.value]

/-- What a numeral says of an integer: itself in decimal, its word in hexadecimal. -/
def Radix.shown (v : Int32) : Radix → Int
  | .decimal => v.toInt
  | .hex => v.toInt % 0x100000000

/-- The canonical numeral of an integer: in decimal a sign if it is negative and the shortest digits
of its magnitude, in hexadecimal the shortest digits of its word, which are eight if it is negative. -/
def IsNumeral (r : Radix) (v : Int32) (bytes : Bytes) : Prop :=
  match r with
  | .decimal => ∃ digits, ShortestDigits .decimal v.toInt.natAbs digits ∧
      bytes = if v < 0 then minusSign :: digits else digits
  | .hex => ShortestDigits .hex (v.toInt % 0x100000000).toNat bytes ∧ (v < 0 → bytes.length = 8)

theorem isNumeral_numeral (r : Radix) (v : Int32) : IsNumeral r v (numeral r v) := by
  cases r with
  | decimal =>
    refine ⟨_, shortestDigits_reversedDigits .decimal v.toInt.natAbs, ?_⟩
    simp only [numeral, List.reverse_append]
    rfl
  | hex =>
    refine ⟨?_, fun hv => ?_⟩
    · have hdigits := shortestDigits_reversedDigits .hex v.toUInt32.toNat
      rw [reverse_reversedDigits, toNat_toUInt32] at hdigits
      rw [numeral_hex, toNat_toUInt32]
      exact hdigits
    · rw [numeral, if_pos hv]
      rfl

theorem IsNumeral.value {r : Radix} {v : Int32} {bytes : Bytes} (h : IsNumeral r v bytes) :
    numeralValue r bytes = r.shown v := by
  cases r with
  | decimal =>
    obtain ⟨digits, hdigits, rfl⟩ := h
    simp only [Radix.shown, Int32.lt_iff_toInt_lt, Int32.toInt_zero]
    split
    · rw [numeralValue, if_pos rfl, hdigits.value]
      omega
    · rw [hdigits.numeralValue_eq]
      omega
  | hex =>
    rw [h.1.numeralValue_eq, Radix.shown]
    omega

end PercentFormat
