import PercentFormat.Proofs.Lines
import PercentFormat.Report

/-! Differences as patches. Each line of a difference shows by its first character what it is, whatever
the compared lines hold, so the changes can be read back from the text. With them, either of the two
texts is found again from the other one. -/

namespace PercentFormat.Diff

/-- A number at which the lines of two texts differ, and what stands there on either side. -/
structure Change where
  number : Nat
  expected : Option (List Char)
  actual : Option (List Char)
  deriving DecidableEq, Repr

/-- The changes between lines that are numbered from `number` on. -/
def changes (number : Nat) : List (List Char) → List (List Char) → List Change
  | [], [] => []
  | e :: expected, [] => ⟨number, some e, none⟩ :: changes (number + 1) expected []
  | [], a :: actual => ⟨number, none, some a⟩ :: changes (number + 1) [] actual
  | e :: expected, a :: actual =>
    if e = a then changes (number + 1) expected actual
    else ⟨number, some e, some a⟩ :: changes (number + 1) expected actual
termination_by expected actual => expected.length + actual.length

namespace Change

def heading (number : Nat) : List Char :=
  "@@ line ".toList ++ Nat.toDigits 10 number ++ " @@".toList

/-- The lines that show a change. -/
def lines (c : Change) : List (List Char) :=
  heading c.number :: ((c.expected.map ('-' :: ·)).toList ++ (c.actual.map ('+' :: ·)).toList)

/-- The change in the other direction. -/
def swap (c : Change) : Change := ⟨c.number, c.actual, c.expected⟩

/-- The number in a heading. -/
def numberOf (heading : List Char) : Nat :=
  Nat.ofDigitChars 10 ((heading.drop 8).takeWhile Char.isDigit) 0

/-- Reads changes from lines, up to the first line that belongs to none. -/
def ofLines : List (List Char) → List Change
  | heading :: ('-' :: e) :: ('+' :: a) :: rest => ⟨numberOf heading, some e, some a⟩ :: ofLines rest
  | heading :: ('-' :: e) :: rest => ⟨numberOf heading, some e, none⟩ :: ofLines rest
  | heading :: ('+' :: a) :: rest => ⟨numberOf heading, none, some a⟩ :: ofLines rest
  | _ => []

private theorem numberOf_heading (number : Nat) : numberOf (heading number) = number := by
  have hdigits : ∀ c ∈ Nat.toDigits 10 number, c.isDigit = true := fun c hc =>
    Nat.isDigit_of_mem_toDigits (by decide) (by decide) hc
  have htake : ((heading number).drop 8).takeWhile Char.isDigit = Nat.toDigits 10 number := by
    show (Nat.toDigits 10 number ++ " @@".toList).takeWhile Char.isDigit = _
    rw [List.takeWhile_append_of_pos hdigits]
    exact List.append_nil _
  rw [numberOf, htake, Nat.ofDigitChars_ten_toDigits]

/-- Changes are read back from their lines, if no line of an actual text follows them. -/
theorem ofLines_lines {cs : List Change} (h : ∀ c ∈ cs, c.expected.isSome ∨ c.actual.isSome)
    {rest : List (List Char)} (hrest : ∀ line later, rest ≠ ('+' :: line) :: later) :
    ofLines (cs.flatMap lines ++ rest) = cs ++ ofLines rest := by
  induction cs with
  | nil => rfl
  | cons c cs ih =>
    obtain ⟨hc, hcs⟩ := List.forall_mem_cons.1 h
    -- a change with no actual line ends where the next one starts
    have hnext : ∀ line later, cs.flatMap lines ++ rest ≠ ('+' :: line) :: later := by
      cases cs with
      | nil => exact hrest
      | cons next cs => exact fun line later heq => nomatch List.cons.inj heq
    obtain ⟨number, expected, actual⟩ := c
    rw [List.flatMap_cons, List.append_assoc]
    rcases expected with _ | e <;> rcases actual with _ | a
    · simp at hc
    · simp [lines, ofLines, numberOf_heading, ih hcs]
    · rw [lines]
      simp [ofLines, numberOf_heading, ih hcs]
    · simp [lines, ofLines, numberOf_heading, ih hcs]

end Change

section
variable (number : Nat) (expected actual : List (List Char))

theorem isSome_of_mem_changes :
    ∀ c ∈ changes number expected actual, c.expected.isSome ∨ c.actual.isSome := by
  fun_induction changes number expected actual <;> simp_all

theorem number_le_of_mem_changes : ∀ c ∈ changes number expected actual, number ≤ c.number := by
  fun_induction changes number expected actual with
  | case1 => simp
  | case2 _ _ _ ih | case3 _ _ _ ih | case5 _ _ _ _ _ _ ih =>
    refine List.forall_mem_cons.2 ⟨Nat.le_refl _, fun c hc => ?_⟩
    exact Nat.le_of_succ_le (ih c hc)
  | case4 _ _ _ _ ih => exact fun c hc => Nat.le_of_lt (ih c hc)

/-- A change shows lines of the two texts. -/
theorem mem_of_mem_changes : ∀ c ∈ changes number expected actual,
    (∀ e ∈ c.expected, e ∈ expected) ∧ ∀ a ∈ c.actual, a ∈ actual := by
  fun_induction changes number expected actual with
  | case1 => simp
  | case2 _ _ _ ih | case3 _ _ _ ih | case4 _ _ _ _ ih | case5 _ _ _ _ _ _ ih => grind

end

private theorem hunk_of_ne {number : Nat} {e a : Option (List Char)} (h : e ≠ a) :
    hunk number e a = (Change.lines ⟨number, e, a⟩).flatMap (· ++ ['\n']) := by
  have hheading : s!"@@ line {number} @@\n".toList = Change.heading number ++ ['\n'] := by
    have hend : " @@\n".toList = " @@".toList ++ ['\n'] := by decide
    show ("@@ line " ++ number.repr ++ " @@\n").toList = _
    rw [String.toList_append, String.toList_append, Nat.toList_repr, hend, ← List.append_assoc]
    rfl
  delta hunk
  rw [if_neg h, hheading]
  cases e <;> cases a <;> simp [Change.lines]

theorem hunks_eq (expected actual : List (List Char)) :
    hunks expected actual = ((changes 1 expected actual).flatMap Change.lines).flatMap (· ++ ['\n']) := by
  suffices h : ∀ number,
      ((List.zipWithAll Prod.mk expected actual).zipIdx number).flatMap
        (fun p => hunk p.2 p.1.1 p.1.2) =
      ((changes number expected actual).flatMap Change.lines).flatMap (· ++ ['\n']) from h 1
  intro number
  fun_induction changes number expected actual with
  | case1 => rfl
  | case2 number e expected ih =>
    rw [List.flatMap_cons, List.flatMap_append, ← ih, ← hunk_of_ne (Option.some_ne_none e)]
    cases expected <;> rfl
  | case3 number a actual ih =>
    rw [List.flatMap_cons, List.flatMap_append, ← ih, ← hunk_of_ne (Option.some_ne_none a).symm]
    cases actual <;> rfl
  | case4 number e expected actual ih =>
    rw [← ih]
    simp [hunk]
  | case5 number e expected a actual h ih =>
    rw [List.flatMap_cons, List.flatMap_append, ← ih, ← hunk_of_ne (by simpa using h)]
    rfl

/-- The lines on one side, from those on the other side and the changes. -/
def patchLines (side : Change → Option (List Char)) (number : Nat) :
    List (List Char) → List Change → List (List Char)
  | lines, [] => lines
  | [], c :: cs => (c :: cs).filterMap side
  | line :: lines, c :: cs =>
    if c.number = number then (side c).toList ++ patchLines side (number + 1) lines cs
    else line :: patchLines side (number + 1) lines (c :: cs)

private theorem patchLines_nil (side : Change → Option (List Char)) (number : Nat) (cs : List Change) :
    patchLines side number [] cs = cs.filterMap side := by
  cases cs <;> rfl

/-- A line before the first change stays. -/
theorem patchLines_cons {side : Change → Option (List Char)} {number : Nat} {line : List Char}
    {lines : List (List Char)} {cs : List Change} (h : ∀ c ∈ cs, number < c.number) :
    patchLines side number (line :: lines) cs = line :: patchLines side (number + 1) lines cs := by
  cases cs with
  | nil => cases lines <;> rfl
  | cons c cs => rw [patchLines, if_neg (Nat.ne_of_gt (h c List.mem_cons_self))]

theorem patchLines_changes (number : Nat) (expected actual : List (List Char)) :
    patchLines (·.actual) number expected (changes number expected actual) = actual := by
  fun_induction changes number expected actual with
  | case1 => rfl
  | case2 number e expected ih => simp [patchLines, ih]
  | case3 number a actual ih =>
    rw [patchLines_nil] at ih ⊢
    rw [List.filterMap_cons, ih]
  | case4 number e expected actual ih =>
    rw [patchLines_cons fun c hc => number_le_of_mem_changes _ _ _ c hc, ih]
  | case5 number e expected a actual h ih => simp [patchLines, ih]

/-- Seen from the other side, the changes are the same ones in the other direction. -/
theorem map_swap_changes (number : Nat) (expected actual : List (List Char)) :
    (changes number expected actual).map Change.swap = changes number actual expected := by
  fun_induction changes number expected actual with
  | case1 => rw [changes]; rfl
  | case2 number e expected ih | case3 number a actual ih => rw [List.map_cons, ih, changes]; rfl
  | case4 number e expected actual ih => rw [ih, changes, if_pos rfl]
  | case5 number e expected a actual h ih =>
    rw [List.map_cons, ih, changes, if_neg (Ne.symm h)]
    rfl

theorem patchLines_map_swap (side : Change → Option (List Char)) (number : Nat)
    (lines : List (List Char)) (cs : List Change) :
    patchLines side number lines (cs.map Change.swap) =
      patchLines (fun c => side c.swap) number lines cs := by
  fun_induction patchLines (fun c => side c.swap) number lines cs with
  | case1 => simp [patchLines]
  | case2 number c cs => rw [patchLines_nil, List.filterMap_map]; rfl
  | case3 line lines c cs ih =>
    rw [List.map_cons, patchLines, if_pos (show c.swap.number = c.number from rfl), ih]
  | case4 number line lines c cs h ih =>
    rw [List.map_cons, patchLines, if_neg (show c.swap.number ≠ number from h)]
    exact congrArg (line :: ·) ih

theorem changes_self (number : Nat) (lines : List (List Char)) : changes number lines lines = [] := by
  induction lines generalizing number with
  | nil => rw [changes]
  | cons line lines ih => rw [changes, if_pos rfl, ih]

/-- The line behind the changes, which only texts of one line each have. -/
def notes (expected actual : String) : List (List Char) :=
  if (Text.splitLines expected.toList).length = 1 && (Text.splitLines actual.toList).length = 1 then
    ["first difference at byte ".toList ++
      Nat.toDigits 10 (agreement (Utf8.encode expected) (Utf8.encode actual))]
  else []

/-- The lines of a difference between texts that are not equal. -/
def renderedLines (expected actual : String) : List (List Char) :=
  "--- expected".toList :: "+++ actual".toList ::
    ((changes 1 (Text.splitLines expected.toList) (Text.splitLines actual.toList)).flatMap Change.lines
      ++ notes expected actual)

theorem divergence_eq (expected actual : String) :
    divergence expected actual = "first difference at byte ".toList ++
      Nat.toDigits 10 (agreement (Utf8.encode expected) (Utf8.encode actual)) ++ ['\n'] := by
  show ("first difference at byte " ++ Nat.repr _ ++ "\n").toList = _
  rw [String.toList_append, String.toList_append, Nat.toList_repr]
  rfl

theorem toList_render {expected actual : String} (h : expected ≠ actual) :
    (render expected actual).toList = (renderedLines expected actual).flatMap (· ++ ['\n']) := by
  have hhead : "--- expected\n+++ actual\n".toList =
      ("--- expected".toList ++ ['\n']) ++ ("+++ actual".toList ++ ['\n']) := by decide
  have hnotes : (if (Text.splitLines expected.toList).length = 1 &&
      (Text.splitLines actual.toList).length = 1 then divergence expected actual else []) =
      (notes expected actual).flatMap (· ++ ['\n']) := by
    rw [notes]
    split
    · rw [divergence_eq, List.flatMap_singleton]
    · rfl
  rw [render, if_neg h]
  simp only [String.toList_ofList]
  rw [hnotes, hunks_eq, hhead, renderedLines, List.flatMap_cons, List.flatMap_cons,
    List.flatMap_append]
  simp only [List.append_assoc]

private theorem Change.newline_notMem_heading (number : Nat) : '\n' ∉ heading number := by
  intro h
  rcases List.mem_append.1 h with h | h
  · rcases List.mem_append.1 h with h | h
    · exact absurd h (by decide)
    · exact Text.newline_notMem_toDigits number h
  · exact absurd h (by decide)

private theorem Change.newline_notMem_lines {c : Change} (he : ∀ line ∈ c.expected, '\n' ∉ line)
    (ha : ∀ line ∈ c.actual, '\n' ∉ line) : ∀ line ∈ c.lines, '\n' ∉ line := by
  refine List.forall_mem_cons.2 ⟨newline_notMem_heading _, List.forall_mem_append.2 ⟨?_, ?_⟩⟩
  · intro line hline
    obtain ⟨e, hmem, rfl⟩ := Option.map_eq_some_iff.1 (Option.mem_toList.1 hline)
    exact List.not_mem_cons_of_ne_of_not_mem (by decide) (he e hmem)
  · intro line hline
    obtain ⟨a, hmem, rfl⟩ := Option.map_eq_some_iff.1 (Option.mem_toList.1 hline)
    exact List.not_mem_cons_of_ne_of_not_mem (by decide) (ha a hmem)

private theorem newline_notMem_changes {number : Nat} {expected actual : List (List Char)}
    (he : ∀ line ∈ expected, '\n' ∉ line) (ha : ∀ line ∈ actual, '\n' ∉ line) :
    ∀ line ∈ (changes number expected actual).flatMap Change.lines, '\n' ∉ line := by
  intro line hline
  obtain ⟨c, hc, hline⟩ := List.mem_flatMap.1 hline
  obtain ⟨hexpected, hactual⟩ := mem_of_mem_changes _ _ _ c hc
  exact Change.newline_notMem_lines (fun e h => he e (hexpected e h))
    (fun a h => ha a (hactual a h)) line hline

private theorem newline_notMem_renderedLines (expected actual : String) :
    ∀ line ∈ renderedLines expected actual, '\n' ∉ line := by
  have hnotes : ∀ line ∈ notes expected actual, '\n' ∉ line := by
    intro line hline
    rw [notes] at hline
    split at hline
    · rw [List.mem_singleton.1 hline, List.mem_append, not_or]
      exact ⟨by decide, Text.newline_notMem_toDigits _⟩
    · cases hline
  simp only [renderedLines, List.forall_mem_cons, List.forall_mem_append]
  exact ⟨by decide, by decide, newline_notMem_changes (fun _ => Text.notMem_of_mem_splitAt)
    (fun _ => Text.notMem_of_mem_splitAt), hnotes⟩

/-- Reads the changes from a difference, behind its first two lines. -/
def Change.ofText (diff : String) : List Change :=
  ofLines ((Text.splitLines diff.toList).drop 2)

/-- A difference names exactly the changes between the lines of the texts. -/
theorem ofText_render (expected actual : String) :
    Change.ofText (render expected actual) =
      changes 1 (Text.splitLines expected.toList) (Text.splitLines actual.toList) := by
  by_cases h : expected = actual
  · subst h
    rw [changes_self, render, if_pos rfl]
    decide
  · have hrest : ∀ line later, notes expected actual ++ [[]] ≠ ('+' :: line) :: later := by
      intro line later
      rw [notes]
      split
      · exact fun heq => nomatch List.cons.inj heq
      · exact fun heq => nomatch List.cons.inj heq
    have hnone : Change.ofLines (notes expected actual ++ [[]]) = [] := by
      rw [notes]
      split
      · rfl
      · rfl
    rw [Change.ofText, toList_render h,
      Text.splitLines_flatMap (newline_notMem_renderedLines expected actual)]
    show Change.ofLines (_ ++ notes expected actual ++ [[]]) = _
    rw [List.append_assoc, Change.ofLines_lines (isSome_of_mem_changes _ _ _) hrest, hnone,
      List.append_nil]

/-- The text of lines, with newlines between them. -/
def joinLines (lines : List (List Char)) : String := String.ofList (['\n'].intercalate lines)

theorem joinLines_splitLines (s : String) : joinLines (Text.splitLines s.toList) = s := by
  rw [joinLines, Text.splitLines, Text.intercalate_splitAt, String.ofList_toList]

/-- The actual text, from the expected one and the difference. -/
def patch (expected diff : String) : String :=
  joinLines (patchLines (·.actual) 1 (Text.splitLines expected.toList) (Change.ofText diff))

/-- The expected text, from the actual one and the difference. -/
def unpatch (actual diff : String) : String :=
  joinLines (patchLines (·.expected) 1 (Text.splitLines actual.toList) (Change.ofText diff))

theorem patch_render (expected actual : String) : patch expected (render expected actual) = actual := by
  rw [patch, ofText_render, patchLines_changes, joinLines_splitLines]

theorem unpatch_render (expected actual : String) :
    unpatch actual (render expected actual) = expected := by
  rw [unpatch, ofText_render, ← map_swap_changes, patchLines_map_swap]
  exact (congrArg joinLines (patchLines_changes ..)).trans (joinLines_splitLines expected)

theorem render_eq_identical_iff {expected actual : String} :
    render expected actual = "[identical]" ↔ expected = actual := by
  refine ⟨fun h => Decidable.byContradiction fun hne => ?_, fun h => if_pos h⟩
  have hlist := toList_render hne
  rw [h, renderedLines] at hlist
  exact nomatch List.cons.inj hlist

/-- A difference is a complete patch: with either text it gives back the other one. So against a given
text no two texts have the same difference, and only equal texts are called identical. -/
theorem render_complete (expected actual : String) :
    patch expected (render expected actual) = actual ∧
    unpatch actual (render expected actual) = expected ∧
    Function.Injective (render expected) ∧ Function.Injective (render · actual) ∧
    (render expected actual = "[identical]" ↔ expected = actual) := by
  refine ⟨patch_render .., unpatch_render .., fun a b h => ?_, fun e f h => ?_,
    render_eq_identical_iff⟩
  · rw [← patch_render expected a, ← patch_render expected b, h]
  · rw [← unpatch_render e actual, ← unpatch_render f actual]
    exact congrArg (unpatch actual) h

end PercentFormat.Diff
