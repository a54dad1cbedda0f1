import PercentFormat.Proofs.Scratch
import PercentFormat.Proofs.Segmentation

/-! What an output is put together from: literal runs, blanks, percent signs, and what conversions
show of the arguments. A property of all of these that is kept when one stands behind another is a
property of the output. -/

namespace PercentFormat

/-- A property of byte strings that all pieces have which directives put out, and that is kept when
one piece is put behind another. -/
structure Composable (P : Bytes → Prop) (args : List Argument) : Prop where
  nil : P []
  append : ∀ a b, P a → P b → P (a ++ b)
  blank : P [blank]
  percent : P [percentSign]
  char : ∀ byte, .char byte ∈ args → P [byte]
  numeral : ∀ r v, .int v ∈ args → P (numeral r v)
  text : ∀ bytes, .text bytes ∈ args → P (terminated bytes)

namespace Composable
variable {P : Bytes → Prop} {args : List Argument}

theorem rightAligned (h : Composable P args) (width : Nat) {body : Bytes} (hb : P body) :
    P (rightAligned width body) := by
  have hblanks (n : Nat) : P (List.replicate n PercentFormat.blank) := by
    induction n with
    | zero => exact h.nil
    | succ n ih => exact h.append _ _ h.blank ih
  exact h.append _ _ (hblanks _) hb

/-- A conversion shows one of the pieces, or nothing of a value of another type. -/
theorem body (h : Composable P args) (c : Conversion) {arg : Argument} (ha : arg ∈ args) :
    P (c.body arg) := by
  cases c <;> cases arg
  case char.char byte => exact h.char byte ha
  case decimal.int v => exact h.numeral .decimal v ha
  case hex.int v => exact h.numeral .hex v ha
  case text.text bytes => exact h.text bytes ha
  all_goals exact h.nil

theorem ofArgument (h : Composable P args) (offset width : Nat) (c : Conversion)
    (expected : Argument.Kind) {arg : Option Argument} (ha : ∀ x ∈ arg, x ∈ args) :
    P (Share.ofArgument offset width c expected arg).fragment := by
  cases arg with
  | none => exact h.nil
  | some x =>
    simp only [Share.ofArgument]
    split
    · exact h.rightAligned width (h.body c (ha x rfl))
    · exact h.nil

/-- One segment: a literal run is put out as it stands, and a directive puts out nothing else than
what the property covers. -/
theorem fragment (h : Composable P args) {s : Segment} (hs : ∀ run, s = .literal run → P run)
    {arg : Option Argument} (ha : ∀ x ∈ arg, x ∈ args) : P (s.share arg).fragment := by
  cases s with
  | literal run => exact hs run rfl
  | directive offset code =>
    rcases List.eq_nil_or_concat' code with rfl | ⟨width, letter, rfl⟩
    · exact h.nil
    · by_cases hp : width ++ [letter] = [percentSign]
      · rw [hp]
        exact h.percent
      · rw [Segment.share_concat hp, Share.ofLetter_eq]
        split
        · exact h.nil
        · exact h.ofArgument offset _ _ _ ha

theorem mono (h : Composable P args) {fewer : List Argument} (hsub : fewer ⊆ args) :
    Composable P fewer :=
  ⟨h.nil, h.append, h.blank, h.percent, fun byte hb => h.char byte (hsub hb),
    fun r v hv => h.numeral r v (hsub hv), fun bytes ht => h.text bytes (hsub ht)⟩

/-- All segments: each finds its argument among those that the ones in front of it left. -/
theorem shares (h : Composable P args) {segs : List Segment}
    (hl : ∀ run, .literal run ∈ segs → P run) :
    P ((shares args segs).flatMap Share.fragment) := by
  induction segs generalizing args with
  | nil => exact h.nil
  | cons s segs ih =>
    have hleft : s.left args ⊆ args := by
      unfold Segment.left
      split
      · exact fun _ => List.mem_of_mem_tail
      · exact List.Subset.refl args
    rw [shares_cons, List.flatMap_cons]
    refine h.append _ _ (h.fragment ?_ fun x hx => List.mem_of_head? hx)
      (ih (h.mono hleft) fun run hrun => hl run (by simp [hrun]))
    rintro run rfl
    exact hl run (by simp)

end Composable

theorem exists_of_mem_numeral {r : Radix} {v : Int32} {b : UInt8} (hb : b ∈ numeral r v) :
    b = minusSign ∨ ∃ d < 16, b = digitByte d := by
  have hdigits {n : Nat} {digits : Bytes} (h : ShortestDigits r n digits) (hb : b ∈ digits) :
      ∃ d < 16, b = digitByte d := by
    obtain ⟨d, hd, rfl⟩ := h.digit b hb
    exact ⟨d, Nat.lt_of_lt_of_le hd (by cases r <;> decide), rfl⟩
  have hnumeral := isNumeral_numeral r v
  cases r with
  | hex => exact .inr (hdigits hnumeral.1 hb)
  | decimal =>
    obtain ⟨digits, hshortest, heq⟩ := hnumeral
    rw [heq] at hb
    split at hb
    · rcases List.mem_cons.mp hb with rfl | hb
      · exact .inl rfl
      · exact .inr (hdigits hshortest hb)
    · exact .inr (hdigits hshortest hb)

end PercentFormat
