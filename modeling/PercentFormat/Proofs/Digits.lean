import PercentFormat.Calendar
import PercentFormat.Numeral
import PercentFormat.Proofs.TextBytes

/-! Numerals digit by digit: both ways of writing one give the shortest digits of the number. With
leading zeros up to one length, numerals are ordered as the numbers are. -/

namespace PercentFormat
open Utf8 (encodeChars encodeChars_append)

private theorem encode_digitChar :
    ∀ d < 16, String.utf8EncodeChar (Nat.digitChar d) = [digitByte d] := by
  decide

private theorem base_le_sixteen (r : Radix) : r.base ≤ 16 := by
  cases r <;> decide

private theorem mod_base_lt (r : Radix) (n : Nat) : n % r.base < 16 := by
  have hb := r.two_le_base
  exact Nat.lt_of_lt_of_le (Nat.mod_lt n (by omega)) (base_le_sixteen r)

private theorem digitChar_ascii : ∀ d < 16, (Nat.digitChar d).toNat < 0x80 := by
  decide

theorem toDigits_ascii (r : Radix) (n : Nat) : ∀ c ∈ Nat.toDigits r.base n, c.toNat < 0x80 := by
  have hb := r.two_le_base
  induction n using Nat.strongRecOn with
  | ind n ih =>
    intro c hc
    rw [Nat.toDigits_eq_if (by omega)] at hc
    split at hc
    · next hn =>
      rw [List.mem_singleton] at hc
      exact hc ▸ digitChar_ascii n (Nat.lt_of_lt_of_le hn (base_le_sixteen r))
    · next hn =>
      rcases List.mem_append.mp hc with hc | hc
      · exact ih _ (Nat.div_lt_self (by omega) hb) c hc
      · rw [List.mem_singleton] at hc
        exact hc ▸ digitChar_ascii _ (mod_base_lt r n)

theorem reverse_reversedDigits (r : Radix) (n : Nat) :
    (reversedDigits r n).reverse = encodeChars (Nat.toDigits r.base n) := by
  have hb := r.two_le_base
  induction n using Nat.strongRecOn with
  | ind n ih =>
    have hd := mod_base_lt r n
    rw [reversedDigits, Nat.toDigits_eq_if (by omega), List.reverse_cons]
    by_cases hn : n < r.base
    · rw [Nat.mod_eq_of_lt hn] at hd ⊢
      simp [hn, Nat.div_eq_of_lt hn, encodeChars, encode_digitChar n hd]
    · have hq : n / r.base ≠ 0 := by
        intro h
        rcases Nat.div_eq_zero_iff.mp h with h | h <;> omega
      have hlt : n / r.base < n := Nat.div_lt_self (by omega) hb
      rw [if_neg hq, if_neg hn, ih _ hlt, encodeChars_append]
      simp [encodeChars, encode_digitChar _ hd]

/-- A number with a digit in each of the places up to `k` is written place by place. -/
theorem reversedDigits_places (r : Radix) (k n : Nat) (hl : Nat.pow r.base k ≤ n)
    (hu : n < Nat.pow r.base (k + 1)) :
    reversedDigits r n =
      (List.range (k + 1)).map fun i => digitByte (n / Nat.pow r.base i % r.base) := by
  have hb := r.two_le_base
  induction k generalizing n with
  | zero =>
    rw [reversedDigits, if_pos (Nat.div_eq_of_lt (by simpa using hu))]
    simp
  | succ k ih =>
    have hl' : Nat.pow r.base k ≤ n / r.base := (Nat.le_div_iff_mul_le (by omega)).mpr hl
    have hu' : n / r.base < Nat.pow r.base (k + 1) := (Nat.div_lt_iff_lt_mul (by omega)).mpr hu
    have hq : n / r.base ≠ 0 := Nat.ne_of_gt (Nat.lt_of_lt_of_le (Nat.pow_pos (by omega)) hl')
    rw [reversedDigits, if_neg hq, ih _ hl' hu', List.range_succ_eq_map (n := k + 1), List.map_cons,
      List.map_map]
    simp [Function.comp_def, Nat.div_div_eq_div_mul, Nat.pow_succ']

/-- A word of eight digits is written nibble by nibble. -/
theorem nibbles_eq (w : UInt32) (h : 0x10000000 ≤ w.toNat) :
    nibbles w = encodeChars (Nat.toDigits 16 w.toNat) := by
  have hu : w.toNat < Nat.pow 16 (7 + 1) := w.toNat_lt
  have hplaces := reversedDigits_places .hex 7 w.toNat h hu
  have hrev := reverse_reversedDigits .hex w.toNat
  rw [hplaces, ← List.map_reverse] at hrev
  exact hrev

theorem toInt_eq (v : Int32) :
    v.toInt = if 2 * v.toUInt32.toNat < 0x100000000 then (v.toUInt32.toNat : Int)
      else v.toUInt32.toNat - (0x100000000 : Nat) :=
  BitVec.toInt_eq_toNat_cond v.toBitVec

theorem toNat_toUInt32 (v : Int32) : v.toUInt32.toNat = (v.toInt % 0x100000000).toNat := by
  have hv := toInt_eq v
  have hw := v.toUInt32.toNat_lt
  split at hv <;> omega

theorem numeral_decimal (v : Int32) :
    numeral .decimal v =
      if v.toInt < 0 then minusSign :: encodeChars (Nat.toDigits 10 v.toInt.natAbs)
      else encodeChars (Nat.toDigits 10 v.toInt.natAbs) := by
  have hrev := reverse_reversedDigits .decimal v.toInt.natAbs
  simp only [numeral, Int32.lt_iff_toInt_lt, Int32.toInt_zero, hrev, List.reverse_append]
  rfl

theorem numeral_hex (v : Int32) :
    numeral .hex v = encodeChars (Nat.toDigits 16 v.toUInt32.toNat) := by
  have hv := toInt_eq v
  rw [numeral]
  simp only [Int32.lt_iff_toInt_lt, Int32.toInt_zero]
  by_cases hneg : v.toInt < 0
  · rw [if_pos hneg]
    exact nibbles_eq _ (by omega)
  · have ha : v.toInt.natAbs = v.toUInt32.toNat := by
      have hw := v.toUInt32.toNat_lt
      split at hv <;> omega
    rw [if_neg hneg, reverse_reversedDigits, ha]
    rfl

theorem isDigit_range {c : Char} (h : c.isDigit = true) :
    0x30 ≤ c.toNat ∧ c.toNat ≤ 0x39 :=
  Char.isDigit_iff_toNat.1 h

theorem isDigit_ascii {c : Char} (h : c.isDigit = true) : c.toNat < 0x80 := by
  have := isDigit_range h
  omega

theorem char_lt_iff {c d : Char} : c < d ↔ c.toNat < d.toNat :=
  Char.lt_def.trans UInt32.lt_iff_toNat_lt

/-- Of two numbers with a last part below `p`, the front parts are compared first. -/
theorem mul_add_lt_mul_add_iff {p x y v w : Nat} (hv : v < p) (hw : w < p) :
    p * x + v < p * y + w ↔ x < y ∨ x = y ∧ v < w := by
  rcases Nat.lt_trichotomy x y with h | rfl | h
  · have hstep : p * x + p ≤ p * y := Nat.mul_le_mul_left p h
    omega
  · omega
  · have hstep : p * y + p ≤ p * x := Nat.mul_le_mul_left p h
    omega

section
variable {ds es : List Char}

private theorem ofDigitChars_digits_cons (d : Char) (ds : List Char) :
    Nat.ofDigitChars 10 (d :: ds) 0 =
      Nat.pow 10 ds.length * (d.toNat - 0x30) + Nat.ofDigitChars 10 ds 0 := by
  rw [Nat.ofDigitChars_cons, Nat.ofDigitChars_eq_ofDigitChars_zero, Nat.mul_zero, Nat.zero_add]
  rfl

private theorem ofDigitChars_lt (h : ∀ c ∈ ds, c.isDigit = true) :
    Nat.ofDigitChars 10 ds 0 < Nat.pow 10 ds.length := by
  induction ds with
  | nil => decide
  | cons d ds ih =>
    obtain ⟨hd, hds⟩ := List.forall_mem_cons.1 h
    have hdigit : d.toNat - 0x30 ≤ 9 := Nat.sub_le_sub_right (isDigit_range hd).2 0x30
    have hle := Nat.mul_le_mul_left (Nat.pow 10 ds.length) hdigit
    have hlast := ih hds
    have hpow : Nat.pow 10 (d :: ds).length = Nat.pow 10 ds.length * 10 := rfl
    rw [ofDigitChars_digits_cons, hpow]
    omega

/-- Digits of one length are ordered as the numbers are. -/
theorem digits_lt_iff (hds : ∀ c ∈ ds, c.isDigit = true) (hes : ∀ c ∈ es, c.isDigit = true)
    (h : ds.length = es.length) :
    ds < es ↔ Nat.ofDigitChars 10 ds 0 < Nat.ofDigitChars 10 es 0 := by
  induction ds generalizing es with
  | nil =>
    obtain rfl := List.length_eq_zero_iff.1 h.symm
    simp
  | cons d ds ih =>
    obtain ⟨e, es, rfl⟩ := List.exists_cons_of_length_eq_add_one h.symm
    have hlength := Nat.succ.inj h
    obtain ⟨hd, hds⟩ := List.forall_mem_cons.1 hds
    obtain ⟨he, hes⟩ := List.forall_mem_cons.1 hes
    have hv := ofDigitChars_lt hds
    rw [hlength] at hv
    -- the first digits decide, unless they are equal
    have hlt : d < e ↔ d.toNat - 0x30 < e.toNat - 0x30 := by
      have := isDigit_range hd
      have := isDigit_range he
      rw [char_lt_iff]
      omega
    have heq : d = e ↔ d.toNat - 0x30 = e.toNat - 0x30 := by
      have := isDigit_range hd
      have := isDigit_range he
      rw [← Char.toNat_inj]
      omega
    rw [ofDigitChars_digits_cons, ofDigitChars_digits_cons, hlength,
      mul_add_lt_mul_add_iff hv (ofDigitChars_lt hes), List.cons_lt_cons_iff, ih hds hes hlength,
      hlt, heq]

end

section
variable {width m n : Nat}

theorem isDigit_of_mem_zeroPadded {c : Char} (h : c ∈ zeroPadded width n) : c.isDigit = true := by
  rcases List.mem_append.1 h with h | h
  · rw [List.eq_of_mem_replicate h]
    rfl
  · exact Nat.isDigit_of_mem_toDigits (by decide) (by decide) h

theorem ofDigitChars_zeroPadded (width n : Nat) :
    Nat.ofDigitChars 10 (zeroPadded width n) 0 = n := by
  rw [zeroPadded, Nat.ofDigitChars_append, Nat.ofDigitChars_replicate_zero, Nat.mul_zero,
    Nat.ofDigitChars_ten_toDigits]

theorem zeroPadded_ne_nil (width n : Nat) : zeroPadded width n ≠ [] := fun h =>
  Nat.toDigits_ne_nil (List.append_eq_nil_iff.1 h).2

theorem zeroPadded_inj : zeroPadded width m = zeroPadded width n ↔ m = n := by
  refine ⟨fun h => ?_, congrArg _⟩
  rw [← ofDigitChars_zeroPadded width m, h, ofDigitChars_zeroPadded]

theorem length_zeroPadded (hwidth : 0 < width) (h : n < Nat.pow 10 width) :
    (zeroPadded width n).length = width := by
  have hle := (Nat.length_toDigits_le_iff (by decide) hwidth).2 h
  rw [zeroPadded, List.length_append, List.length_replicate]
  omega

theorem zeroPadded_lt_iff (hwidth : 0 < width) (hm : m < Nat.pow 10 width)
    (hn : n < Nat.pow 10 width) : zeroPadded width m < zeroPadded width n ↔ m < n := by
  have hlength : (zeroPadded width m).length = (zeroPadded width n).length := by
    rw [length_zeroPadded hwidth hm, length_zeroPadded hwidth hn]
  rw [digits_lt_iff (fun _ => isDigit_of_mem_zeroPadded) (fun _ => isDigit_of_mem_zeroPadded) hlength,
    ofDigitChars_zeroPadded, ofDigitChars_zeroPadded]

end

end PercentFormat
