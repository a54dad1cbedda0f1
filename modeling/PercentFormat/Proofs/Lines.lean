import PercentFormat.Text

/-! Lines of a text: what was written line by line is cut at the same places again. -/

namespace PercentFormat.Text

theorem splitAt_of_notMem {separator : Char} {piece : List Char} (h : separator ∉ piece) :
    splitAt separator piece = [piece] := by
  induction piece with
  | nil => rfl
  | cons c piece ih =>
    obtain ⟨hc, hpiece⟩ := List.ne_and_not_mem_of_not_mem_cons h
    show prependChar separator c (splitAt separator piece) = _
    rw [ih hpiece, prependChar, if_neg (Ne.symm hc)]

theorem notMem_of_mem_splitAt {separator : Char} {cs piece : List Char}
    (h : piece ∈ splitAt separator cs) : separator ∉ piece := by
  induction cs generalizing piece with
  | nil =>
    rw [List.mem_singleton.1 h]
    exact List.not_mem_nil
  | cons c cs ih =>
    obtain ⟨first, pieces, hcs⟩ := List.exists_cons_of_ne_nil (splitAt_ne_nil separator cs)
    rw [hcs] at ih
    obtain ⟨hfirst, hpieces⟩ := List.forall_mem_cons.1 fun piece hmem => ih hmem
    change piece ∈ prependChar separator c (splitAt separator cs) at h
    rw [hcs, prependChar] at h
    split at h
    · rcases List.mem_cons.1 h with rfl | h
      · exact List.not_mem_nil
      · exact ih h
    · next hc =>
      rcases List.mem_cons.1 h with rfl | h
      · exact List.not_mem_cons_of_ne_of_not_mem (Ne.symm hc) hfirst
      · exact hpieces piece h

/-- A separator ends the pieces in front of it. -/
theorem splitAt_append (separator : Char) (front rest : List Char) :
    splitAt separator (front ++ separator :: rest) =
      splitAt separator front ++ splitAt separator rest := by
  induction front with
  | nil =>
    show prependChar separator separator (splitAt separator rest) = _
    unfold prependChar
    rw [if_pos rfl]
    rfl
  | cons c front ih =>
    obtain ⟨piece, pieces, h⟩ := List.exists_cons_of_ne_nil (splitAt_ne_nil separator front)
    show prependChar separator c (splitAt separator (front ++ separator :: rest)) =
      prependChar separator c (splitAt separator front) ++ _
    rw [ih, h]
    simp only [prependChar, List.cons_append]
    split <;> rfl

/-- Lines that end with a newline each are found again in front of what follows them. -/
theorem splitLines_flatMap_append {lines : List (List Char)} (h : ∀ l ∈ lines, '\n' ∉ l)
    (rest : List Char) :
    splitLines (lines.flatMap (· ++ ['\n']) ++ rest) = lines ++ splitLines rest := by
  induction lines with
  | nil => rfl
  | cons line lines ih =>
    obtain ⟨hline, hlines⟩ := List.forall_mem_cons.1 h
    rw [List.flatMap_cons, List.append_assoc, List.append_assoc]
    refine (splitAt_append '\n' line _).trans ?_
    rw [splitAt_of_notMem hline]
    exact congrArg (line :: ·) (ih hlines)

/-- Behind the last newline there is an empty line. -/
theorem splitLines_flatMap {lines : List (List Char)} (h : ∀ l ∈ lines, '\n' ∉ l) :
    splitLines (lines.flatMap (· ++ ['\n'])) = lines ++ [[]] := by
  rw [← List.append_nil (lines.flatMap _), splitLines_flatMap_append h]
  rfl

theorem newline_notMem_toDigits (n : Nat) : '\n' ∉ Nat.toDigits 10 n := fun h =>
  absurd (Nat.isDigit_of_mem_toDigits (by decide) (by decide) h) (by decide)

/-- A text that neither starts nor ends with a blank is not trimmed. -/
theorem trimList_eq_self {first last : Char} {middle : List Char} (hf : isBlank first = false)
    (hl : isBlank last = false) :
    trimList (first :: middle ++ [last]) = first :: middle ++ [last] := by
  have hfront : (first :: middle ++ [last]).dropWhile isBlank = first :: middle ++ [last] :=
    List.dropWhile_cons_of_neg (by simp [hf])
  have hback : ((first :: middle ++ [last]).reverse).dropWhile isBlank =
      (first :: middle ++ [last]).reverse := by
    rw [List.reverse_append, List.reverse_singleton, List.singleton_append]
    exact List.dropWhile_cons_of_neg (by simp [hl])
  rw [trimList, hfront, hback, List.reverse_reverse]

/-- Blanks in front do not count. -/
theorem trimList_append {blanks : List Char} (h : ∀ c ∈ blanks, isBlank c = true) (cs : List Char) :
    trimList (blanks ++ cs) = trimList cs := by
  rw [trimList, List.dropWhile_append_of_pos h, trimList]

theorem trimList_of_not_blank {cs : List Char} (h : ∀ c ∈ cs, isBlank c = false) :
    trimList cs = cs := by
  have hself : ∀ ds : List Char, (∀ c ∈ ds, isBlank c = false) → ds.dropWhile isBlank = ds := by
    intro ds hds
    cases ds with
    | nil => rfl
    | cons c ds => exact List.dropWhile_cons_of_neg (by simp [hds c List.mem_cons_self])
  rw [trimList, hself cs h, hself cs.reverse fun c hc => h c (List.mem_reverse.1 hc),
    List.reverse_reverse]

end PercentFormat.Text
