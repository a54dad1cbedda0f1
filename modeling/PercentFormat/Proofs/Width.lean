import Mathlib.Algebra.BigOperators.Fin
import PercentFormat.Proofs.Scratch
import PercentFormat.Proofs.Share

/-! Widths: the saturating sum over the places of a code is the exact sum, cut once at the end. Where
all bytes are digits, that is the number which they write. -/

namespace PercentFormat

theorem placeSum_eq_sum (bytes : Bytes) :
    placeSum bytes = ∑ i : Fin bytes.length with isDigit (bytes.get i),
      digitValue (bytes.get i) * 10 ^ (bytes.length - 1 - i.val) := by
  rw [Finset.sum_filter]
  induction bytes with
  | nil => rfl
  | cons b rest ih =>
    refine Eq.trans ?_ (Fin.sum_univ_succ _).symm
    rw [placeSum_cons, ih]
    refine congrArg₂ (· + ·) rfl (Finset.sum_congr rfl fun i _ => ?_)
    -- a byte in front moves the index of the others, but not their places
    have hplace : (b :: rest).length - 1 - i.succ.val = rest.length - 1 - i := by
      rw [List.length_cons, Fin.val_succ]
      omega
    rw [hplace]
    rfl

private theorem byteValue_of_isDigit {b : UInt8} (h : isDigit b = true) :
    byteValue b = digitValue b := by
  simp only [isDigit, Bool.and_eq_true, decide_eq_true_eq] at h
  have hlt : b < 0x3A := UInt8.lt_of_le_of_lt h.2 (by decide)
  rw [byteValue, if_pos hlt, digitValue]

-- the value of the digits that were read carries the induction
private theorem foldl_byteValue {digits : Bytes} (h : ∀ b ∈ digits, isDigit b = true) (value : Nat) :
    digits.foldl (fun n b => n * 10 + byteValue b) value =
      value * Nat.pow 10 digits.length + placeSum digits := by
  induction digits generalizing value with
  | nil => simp [placeSum]
  | cons b digits ih =>
    have hb : isDigit b = true := h b (by simp)
    have hdigits : ∀ x ∈ digits, isDigit x = true := fun x hx => h x (by simp [hx])
    have hpow : Nat.pow 10 (digits.length + 1) = 10 * Nat.pow 10 digits.length := Nat.pow_succ'
    rw [List.foldl_cons, ih hdigits, placeSum_cons, if_pos hb, byteValue_of_isDigit hb, List.length_cons,
      hpow, Nat.add_mul, Nat.mul_assoc, Nat.add_assoc]

/-- Adding up the places of digits is reading them from the left. -/
theorem placeSum_digits {digits : Bytes} (h : ∀ b ∈ digits, isDigit b = true) :
    placeSum digits = digitsValue .decimal digits := by
  refine Eq.trans ?_ (foldl_byteValue h 0).symm
  rw [Nat.zero_mul, Nat.zero_add]

theorem placeSum_zeros (zeros : Nat) (digits : Bytes) :
    placeSum (List.replicate zeros 0x30 ++ digits) = placeSum digits := by
  induction zeros with
  | zero => rfl
  | succ zeros ih =>
    rw [List.replicate_succ, List.cons_append, placeSum_cons, ih]
    simp [digitValue]

theorem Conversion.ofLetter_ne_percent (letter : UInt8) : ofLetter letter ≠ .percent := by
  unfold ofLetter
  repeat' split
  all_goals nofun

/-- Every code but the empty one and the percent sign has a width, which is the exact sum over its
digits, cut at the largest size; other bytes fill their places and are listed. Its conversion is that
of the last byte. Digits with any zeros in front of them have the value that they write. -/
theorem Directive.parse?_width_saturates (code : Bytes) (hne : code ≠ []) (hp : code ≠ [percentSign]) :
    ∃ (width : Bytes) (letter : UInt8) (d : Directive), code = width ++ [letter] ∧
      parse? code = some d ∧
      d.width = min (∑ i : Fin width.length with isDigit (width.get i),
        digitValue (width.get i) * 10 ^ (width.length - 1 - i.val)) (2 ^ 64 - 1) ∧
      d.malformed = width.filter (!isDigit ·) ∧
      d.conversion = .ofLetter letter ∧ d.conversion ≠ .percent ∧
      ∀ zeros digits, width = List.replicate zeros 0x30 ++ digits →
        (∀ b ∈ digits, isDigit b = true) →
        d.width = min (digitsValue .decimal digits) (2 ^ 64 - 1) := by
  obtain ⟨width, letter, rfl⟩ := (List.eq_nil_or_concat' code).resolve_left hne
  have hwidth : widthOf width = min (placeSum width) (2 ^ 64 - 1) := widthOf_eq_min width
  refine ⟨width, letter, _, rfl, parse?_concat hp, ?_, rfl, rfl,
    Conversion.ofLetter_ne_percent letter, ?_⟩
  · rw [← placeSum_eq_sum]
    exact hwidth
  · rintro zeros digits rfl hdigits
    rw [← placeSum_digits hdigits, ← placeSum_zeros zeros]
    exact hwidth

/-- The first number that is too large, far behind the places that still have a value; and a byte
that fills its place without being a digit. -/
theorem Directive.parse?_width_saturates_places :
    (∃ d, parse? (List.replicate 30 0x30 ++ Utf8.encode "18446744073709551616" ++ [0x78]) = some d ∧
      d.width = 18446744073709551615 ∧ d.malformed = [] ∧ d.conversion = .hex) ∧
    ∃ d, parse? (Utf8.encode "1-5d") = some d ∧ d.width = 105 ∧ d.malformed = [0x2D] ∧
      d.conversion = .decimal := by
  constructor
  · obtain ⟨width, letter, d, hcode, hd, -, hmalformed, hconversion, -, hdigits⟩ :=
      parse?_width_saturates
        (List.replicate 30 0x30 ++ Utf8.encode "18446744073709551616" ++ [0x78])
        (by decide +kernel) (by decide +kernel)
    obtain ⟨rfl, rfl⟩ := List.append_inj' hcode rfl |>.imp_right List.singleton_inj.mp
    exact ⟨d, hd, (hdigits 30 _ rfl (by decide +kernel)).trans (by decide +kernel),
      hmalformed.trans (by decide +kernel), hconversion⟩
  · obtain ⟨width, letter, d, hcode, hd, hwidth, hmalformed, hconversion, -⟩ :=
      parse?_width_saturates ([0x31, 0x2D, 0x35] ++ [0x64]) (by decide) (by decide)
    obtain ⟨rfl, rfl⟩ := List.append_inj' hcode rfl |>.imp_right List.singleton_inj.mp
    exact ⟨d, hd, hwidth.trans (by decide +kernel), hmalformed, hconversion⟩

end PercentFormat
