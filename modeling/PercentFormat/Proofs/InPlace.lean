import PercentFormat.Format
import PercentFormat.Proofs.Fragments
import PercentFormat.Proofs.Telling

/-! Formatting in place: an area is either left as it was or holds the output, a NUL, and behind it
what stood there before. Where no argument is the character NUL, that NUL is the first one. -/

namespace PercentFormat

section
variable {size : Nat}

/-- Bytes that are put one by one stand together, and nothing else has changed. -/
theorem Area.toList_putAll (a : Area size) (place : Nat) (bytes : Bytes)
    (fits : place + bytes.length ≤ size) :
    (a.putAll place bytes fits).toList =
      a.toList.take place ++ bytes ++ a.toList.drop (place + bytes.length) := by
  induction bytes generalizing a place with
  | nil => simp [putAll]
  | cons b rest ih =>
    have hplace : place < a.toList.length := by
      rw [Vector.length_toList]
      rw [List.length_cons] at fits
      omega
    have htake : (a.toList.set place b).take (place + 1) = a.toList.take place ++ [b] := by
      rw [List.take_add_one, List.take_set_of_le (Nat.le_refl _), List.getElem?_set_self hplace]
      rfl
    have hdrop : (a.toList.set place b).drop (place + 1 + rest.length) =
        a.toList.drop (place + (rest.length + 1)) := by
      rw [List.drop_set_of_lt (by omega)]
      congr 1
      omega
    rw [putAll, ih, Vector.toList_set, htake, hdrop]
    simp

namespace Formatted

private theorem writeInPlace_of_le (f : Formatted) (a : Area size) (h : f.bytes.length + 1 ≤ size) :
    ∃ after, f.writeInPlace a = (.ok f.bytes.length, after) ∧
      after.toList = f.bytes ++ 0 :: a.toList.drop (f.bytes.length + 1) := by
  refine ⟨_, dif_pos h, ?_⟩
  have hplace : f.bytes.length < a.toList.length := by
    rw [Vector.length_toList]
    exact h
  rw [Vector.toList_set, Area.toList_putAll, List.take_zero, List.nil_append, Nat.zero_add,
    List.set_append_right _ _ (Nat.le_refl _), Nat.sub_self, List.drop_eq_getElem_cons hplace,
    List.set_cons_zero]

private theorem writeInPlace_of_lt (f : Formatted) (a : Area size) (h : size < f.bytes.length + 1) :
    f.writeInPlace a = (.error (.bufferTooSmall (f.bytes.length + 1) size), a) :=
  dif_neg (Nat.not_le.mpr h)

end Formatted

namespace Session

private theorem formatInPlace_of_ok {p : Session} {t : Bytes} {args : List Argument} {f : Formatted}
    (h : (p.format t args).1 = .ok f) (a : Area size) :
    (p.formatInPlace a t args).1 = f.writeInPlace a := by
  unfold formatInPlace
  split
  · next g q hg =>
    rw [hg] at h
    rw [Except.ok.inj h]
  · next e q hg =>
    rw [hg] at h
    cases h

private theorem formatInPlace_of_error {p : Session} {t : Bytes} {args : List Argument} {e : FormatError}
    (h : (p.format t args).1 = .error e) (a : Area size) :
    (p.formatInPlace a t args).1 = (.error e, a) := by
  unfold formatInPlace
  split
  · next f q hf =>
    rw [hf] at h
    cases h
  · next d q hd =>
    rw [hd] at h
    rw [Except.error.inj h]

/-- A call in place ends in one of three ways. -/
theorem formatInPlace_cases (p : Session) (a : Area size) (t : Bytes) (args : List Argument) :
    (∃ e, (p.format t args).1 = .error e ∧ (p.formatInPlace a t args).1 = (.error e, a)) ∨
    (∃ f, (p.format t args).1 = .ok f ∧ size < f.bytes.length + 1 ∧ (p.formatInPlace a t args).1 =
      (.error (.bufferTooSmall (f.bytes.length + 1) size), a)) ∨
    ∃ f after, (p.format t args).1 = .ok f ∧ f.bytes.length + 1 ≤ size ∧
      (p.formatInPlace a t args).1 = (.ok f.bytes.length, after) ∧
      after.toList = f.bytes ++ 0 :: a.toList.drop (f.bytes.length + 1) := by
  cases h : (p.format t args).1 with
  | error e => exact .inl ⟨e, rfl, formatInPlace_of_error h a⟩
  | ok f =>
    rw [formatInPlace_of_ok h]
    by_cases hfits : f.bytes.length + 1 ≤ size
    · obtain ⟨after, hwrite, hafter⟩ := f.writeInPlace_of_le a hfits
      exact .inr (.inr ⟨f, after, rfl, hfits, hwrite, hafter⟩)
    · have hlt := Nat.lt_of_not_le hfits
      exact .inr (.inl ⟨f, rfl, hlt, f.writeInPlace_of_lt a hlt⟩)

/-- Formatting in place gives the destination that formatting into it gives, and leaves the same
session behind. -/
theorem formatInto_toList (p : Session) (a : Area size) (t : Bytes) (args : List Argument) :
    p.formatInto a.toList t args =
      ((p.formatInPlace a t args).1.1.map fun n => (n, (p.formatInPlace a t args).1.2.toList),
        (p.formatInPlace a t args).2) := by
  have hsession : (p.formatInPlace a t args).2 = (p.format t args).2 := by
    unfold formatInPlace
    split <;> next h => rw [h]
  rw [formatInto_eq, hsession]
  refine congrArg (Prod.mk · _) ?_
  cases h : (p.format t args).1 with
  | error e =>
    rw [formatInPlace_of_error h]
    rfl
  | ok f =>
    rw [formatInPlace_of_ok h]
    show f.writeTo a.toList = _
    unfold Formatted.writeTo
    by_cases hfits : f.bytes.length + 1 ≤ size
    · obtain ⟨after, hwrite, hafter⟩ := f.writeInPlace_of_le a hfits
      simp [hwrite, hafter, Except.map, Nat.not_lt.mpr hfits]
    · rw [f.writeInPlace_of_lt a (Nat.lt_of_not_le hfits)]
      simp [Except.map, Nat.lt_of_not_le hfits]

end Session

end

private theorem digitByte_ne_zero : ∀ d < 16, digitByte d ≠ 0 := by
  decide

/-- Nothing that a conversion shows holds a NUL, unless an argument is that character. -/
private theorem composable_noNul {args : List Argument} (h : .char 0 ∉ args) :
    Composable (fun bytes => (0 : UInt8) ∉ bytes) args where
  nil := List.not_mem_nil
  append a b ha hb := by simp [ha, hb]
  blank := by decide
  percent := by decide
  char byte hbyte := by
    rw [List.mem_singleton]
    rintro rfl
    exact h hbyte
  numeral r v _ := by
    intro hzero
    rcases exists_of_mem_numeral hzero with hsign | ⟨d, hd, hdigit⟩
    · exact absurd hsign (by decide)
    · exact digitByte_ne_zero d hd hdigit.symm
  text bytes _ := zero_notMem_terminated bytes

theorem zero_notMem_rendering {args : List Argument} (h : .char 0 ∉ args) (t : Bytes) :
    (0 : UInt8) ∉ (rendering t args).bytes := by
  refine (composable_noNul h).shares fun run hrun hzero => zero_notMem_terminated t ?_
  -- a literal run is a part of the template, which was cut at its first NUL
  rw [← (segmentation_segmentsOnto 0 (terminated t)).lossless]
  exact List.mem_flatMap.mpr ⟨_, hrun, hzero⟩

/-- A call in place is all or nothing. After an error of any kind the area is as it was. A length is
returned exactly when the call formats and both the output and its NUL fit; then these stand in
front, and the rest is as it was. If they do not fit, the error says how much was needed. And if no
argument is the character NUL, then the output holds none, whatever the template and the texts do: so
it is the string that ends at the first NUL of the area, and the result is that string's length. -/
theorem Session.formatInPlace_all_or_nothing {size : Nat} (p : Session) (a : Area size) (t : Bytes)
    (args : List Argument) :
    let formatted := (p.format t args).1
    let result := (p.formatInPlace a t args).1.1
    let after := (p.formatInPlace a t args).1.2
    (∀ e, result = .error e → after = a) ∧
    (∀ n, result = .ok n ↔ ∃ f, formatted = .ok f ∧ f.bytes.length = n ∧ n + 1 ≤ size) ∧
    (∀ n f, result = .ok n → formatted = .ok f →
      after.toList.take n = f.bytes ∧ after.toList[n]? = some 0 ∧
      after.toList.drop (n + 1) = a.toList.drop (n + 1)) ∧
    (∀ f, formatted = .ok f → size < f.bytes.length + 1 →
      result = .error (.bufferTooSmall (f.bytes.length + 1) size)) ∧
    (∀ e, formatted = .error e → result = .error e) ∧
    (.char 0 ∉ args → ∀ f, formatted = .ok f → (0 : UInt8) ∉ f.bytes ∧
      ∀ n, result = .ok n →
        terminated after.toList = f.bytes ∧ (terminated after.toList).length = n) := by
  intro formatted result after
  have hnul {f : Formatted} (hf : formatted = .ok f) (h : .char 0 ∉ args) : (0 : UInt8) ∉ f.bytes := by
    obtain ⟨-, rfl, -⟩ := formatWith_returns_iff.mp hf
    exact zero_notMem_rendering h t
  rcases p.formatInPlace_cases a t args with
    ⟨e, hf, hi⟩ | ⟨f, hf, hfits, hi⟩ | ⟨f, stored, hf, hfits, hi, hstored⟩
  · simp [formatted, result, after, hf, hi]
  · simp only [formatted, result, after, hf, hi] at hnul ⊢
    refine ⟨fun _ _ => trivial, fun n => ⟨nofun, ?_⟩, nofun, ?_, nofun, ?_⟩
    · rintro ⟨g, hg, rfl, hle⟩
      cases hg
      exact absurd hle (Nat.not_le.mpr hfits)
    · intro g hg _
      cases hg
      rfl
    · exact fun h g hg => ⟨hnul hg h, nofun⟩
  · simp only [formatted, result, after, hf, hi] at hnul ⊢
    refine ⟨nofun, fun n => ⟨?_, ?_⟩, ?_, ?_, nofun, ?_⟩
    · intro hn
      cases hn
      exact ⟨f, rfl, rfl, hfits⟩
    · rintro ⟨g, hg, rfl, -⟩
      cases hg
      rfl
    · intro n g hn hg
      cases hn
      cases hg
      rw [hstored]
      simp
    · intro g hg hlt
      cases hg
      exact absurd hfits (Nat.not_le.mpr hlt)
    · intro h g hg
      cases hg
      have hzero := hnul rfl h
      refine ⟨hzero, fun n hn => ?_⟩
      cases hn
      rw [hstored, terminated_append_zero, terminated_eq_self hzero]
      exact ⟨rfl, rfl⟩

/-- The template and the text are cut at NULs of their own. Once there is a place to spare, and once
there is one too few. -/
theorem Session.formatInPlace_all_or_nothing_at_end :
    let call {size : Nat} (a : Area size) := ((start {}).formatInPlace a (Utf8.encode "a%3s%%\x00b")
      [.text (Utf8.encode "x\x00y")]).1
    let wide := call #v[1, 2, 3, 4, 5, 6, 7]
    let narrow := call #v[1, 2, 3, 4, 5]
    wide.1 = .ok 5 ∧ terminated wide.2.toList = Utf8.encode "a  x%" ∧ wide.2.toList.drop 6 = [7] ∧
      narrow = (.error (.bufferTooSmall 6 5), #v[1, 2, 3, 4, 5]) := by
  intro call wide narrow
  have hf : ((start {}).format (Utf8.encode "a%3s%%\x00b") [.text (Utf8.encode "x\x00y")]).1 =
      .ok ⟨Utf8.encode "a  x%", []⟩ :=
    (formatWith_eq_ok_iff rfl).mpr ⟨⟨by decide +kernel, by decide +kernel⟩, by decide +kernel⟩
  obtain ⟨-, hok, hstored, -, -, hnul⟩ := formatInPlace_all_or_nothing
    (start {}) #v[1, 2, 3, 4, 5, 6, 7] (Utf8.encode "a%3s%%\x00b") [.text (Utf8.encode "x\x00y")]
  obtain ⟨herror, -, -, hsmall, -⟩ := formatInPlace_all_or_nothing
    (start {}) #v[1, 2, 3, 4, 5] (Utf8.encode "a%3s%%\x00b") [.text (Utf8.encode "x\x00y")]
  have hwide : wide.1 = .ok 5 := (hok 5).mpr ⟨_, hf, by decide, by decide⟩
  have hnarrow : narrow.1 = .error (.bufferTooSmall 6 5) := hsmall _ hf (by decide)
  exact ⟨hwide, ((hnul (by decide) _ hf).2 5 hwide).1, (hstored 5 _ hwide hf).2.2,
    Prod.ext hnarrow (herror _ hnarrow)⟩

end PercentFormat
