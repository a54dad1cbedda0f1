import Mathlib.Data.List.Chain
import Mathlib.Data.List.Forall2
import PercentFormat.Proofs.Lines
import PercentFormat.Report

/-! The table of a report: below its head each verdict has one line, which its bars cut into the name,
the template, the length and the status, exactly when no name breaks the line or the cell that it
stands in. -/

namespace PercentFormat.Report

/-- The pieces of a text between its bars, given the character in front of it. A bar right behind a
backslash does not count. -/
def splitBars : Char → List Char → List (List Char)
  | _, [] => [[]]
  | previous, c :: cs =>
    if c = '|' ∧ previous ≠ '\\' then [] :: splitBars c cs
    else
      match splitBars c cs with
      | [] => [[c]]
      | piece :: pieces => (c :: piece) :: pieces

/-- Each bar of a text stands right behind a backslash, which may be the character in front of it. -/
def BarsEscaped (previous : Char) (cs : List Char) : Prop :=
  List.IsChain (fun a b => b = '|' → a = '\\') (previous :: cs)

instance (previous : Char) (cs : List Char) : Decidable (BarsEscaped previous cs) :=
  inferInstanceAs (Decidable (List.IsChain _ _))

theorem barsEscaped_cons_iff {previous c : Char} {cs : List Char} :
    BarsEscaped previous (c :: cs) ↔ (c = '|' → previous = '\\') ∧ BarsEscaped c cs :=
  List.isChain_cons_cons

private theorem barsEscaped_of_notMem {cs : List Char} (h : '|' ∉ cs) (previous : Char) :
    BarsEscaped previous cs := by
  induction cs generalizing previous with
  | nil => exact List.isChain_singleton previous
  | cons c cs ih =>
    obtain ⟨hc, hcs⟩ := List.ne_and_not_mem_of_not_mem_cons h
    exact barsEscaped_cons_iff.2 ⟨fun hbar => absurd hbar.symm hc, ih hcs c⟩

theorem barsEscaped_append_iff {previous : Char} {cs ds : List Char} (hds : ∀ c, BarsEscaped c ds) :
    BarsEscaped previous (cs ++ ds) ↔ BarsEscaped previous cs := by
  induction cs generalizing previous with
  | nil => exact iff_of_true (hds previous) (List.isChain_singleton previous)
  | cons c cs ih => rw [List.cons_append, barsEscaped_cons_iff, barsEscaped_cons_iff, ih]

private theorem splitBars_cons {previous c : Char} {cs piece : List Char} {pieces : List (List Char)}
    (hc : c = '|' → previous = '\\') (h : splitBars c cs = piece :: pieces) :
    splitBars previous (c :: cs) = (c :: piece) :: pieces := by
  have hinside : ¬(c = '|' ∧ previous ≠ '\\') := fun hbar => hbar.2 (hc hbar.1)
  rw [splitBars, if_neg hinside, h]

/-- A bar ends the piece in front of it, unless that ends with a backslash. -/
theorem splitBars_append {previous last : Char} {piece : List Char} (hlast : last ≠ '\\')
    (h : BarsEscaped previous (piece ++ [last])) (rest : List Char) :
    splitBars previous (piece ++ [last] ++ '|' :: rest) =
      (piece ++ [last]) :: splitBars '|' rest := by
  induction piece generalizing previous with
  | nil =>
    obtain ⟨hl, -⟩ := barsEscaped_cons_iff.1 h
    have hbar : splitBars last ('|' :: rest) = [] :: splitBars '|' rest := if_pos ⟨rfl, hlast⟩
    exact splitBars_cons hl hbar
  | cons c piece ih =>
    obtain ⟨hc, hpiece⟩ := barsEscaped_cons_iff.1 h
    exact splitBars_cons hc (ih hpiece)

/-- What stands between two bars has its own bars escaped, and is part of the text. -/
theorem splitBars_pieces (previous : Char) (cs : List Char) :
    ∃ piece pieces, splitBars previous cs = piece :: pieces ∧ BarsEscaped previous piece ∧
      (∀ other ∈ pieces, BarsEscaped '|' other) ∧ ∀ other ∈ piece :: pieces, other ⊆ cs := by
  induction cs generalizing previous with
  | nil => exact ⟨[], [], rfl, List.isChain_singleton previous, by simp, by simp⟩
  | cons c cs ih =>
    obtain ⟨piece, pieces, hsplit, hpiece, hpieces, hsub⟩ := ih c
    obtain ⟨hfirst, hothers⟩ := List.forall_mem_cons.1 hsub
    have hlater : ∀ other ∈ pieces, other ⊆ c :: cs := fun other hother =>
      List.subset_cons_of_subset c (hothers other hother)
    by_cases hc : c = '|' → previous = '\\'
    · refine ⟨c :: piece, pieces, splitBars_cons hc hsplit, ?_, hpieces, ?_⟩
      · exact barsEscaped_cons_iff.2 ⟨hc, hpiece⟩
      · exact List.forall_mem_cons.2 ⟨List.cons_subset_cons c hfirst, hlater⟩
    · obtain ⟨rfl, hprevious⟩ := Classical.not_imp.1 hc
      have hbar : splitBars previous ('|' :: cs) = [] :: splitBars '|' cs :=
        if_pos ⟨rfl, hprevious⟩
      refine ⟨[], piece :: pieces, hbar.trans (congrArg _ hsplit), List.isChain_singleton previous,
        List.forall_mem_cons.2 ⟨hpiece, hpieces⟩, ?_⟩
      exact List.forall_mem_cons.2 ⟨List.nil_subset _,
        List.forall_mem_cons.2 ⟨List.subset_cons_of_subset _ hfirst, hlater⟩⟩

/-- A text with a space on each side. -/
def spaced (cs : List Char) : List Char := ' ' :: cs ++ [' ']

/-- A line is the row of some cells if its bars stand in front of them, between them and behind
them. In front of a line there is a newline. -/
def IsRow (cells : List (List Char)) (line : List Char) : Prop :=
  splitBars '\n' line = [] :: (cells.map spaced ++ [[]])

/-- The row that is written for some cells. -/
def rowLine (cells : List (List Char)) : List Char :=
  '|' :: cells.flatMap fun cell => spaced cell ++ ['|']

/-- A text that can be a cell: it stays on its line and between its bars. -/
structure FitsCell (cs : List Char) : Prop where
  newline : '\n' ∉ cs
  bars : BarsEscaped ' ' cs

theorem barsEscaped_spaced_iff {cs : List Char} : BarsEscaped '|' (spaced cs) ↔ BarsEscaped ' ' cs := by
  rw [spaced, barsEscaped_append_iff (barsEscaped_of_notMem (by decide)), barsEscaped_cons_iff]
  exact and_iff_right fun hbar => absurd hbar (by decide)

theorem splitBars_cells {cells : List (List Char)} (h : ∀ cell ∈ cells, BarsEscaped ' ' cell) :
    splitBars '|' (cells.flatMap fun cell => spaced cell ++ ['|']) = cells.map spaced ++ [[]] := by
  induction cells with
  | nil => rfl
  | cons cell cells ih =>
    obtain ⟨hcell, hcells⟩ := List.forall_mem_cons.1 h
    rw [List.flatMap_cons, List.append_assoc, List.singleton_append, spaced,
      splitBars_append (by decide) (barsEscaped_spaced_iff.2 hcell), ih hcells]
    rfl

theorem isRow_rowLine {cells : List (List Char)} (h : ∀ cell ∈ cells, FitsCell cell) :
    IsRow cells (rowLine cells) :=
  congrArg ([] :: ·) (splitBars_cells fun cell hcell => (h cell hcell).bars)

private theorem newline_notMem_rowLine {cells : List (List Char)} (h : ∀ cell ∈ cells, FitsCell cell) :
    '\n' ∉ rowLine cells := by
  intro hmem
  rcases List.mem_cons.1 hmem with hbar | hmem
  · exact absurd hbar (by decide)
  · obtain ⟨cell, hcell, hmem⟩ := List.mem_flatMap.1 hmem
    simp [spaced, (h cell hcell).newline] at hmem

/-- What stands in a row that is one line can be a cell. -/
theorem IsRow.fitsCell {cells : List (List Char)} {line cell : List Char} (h : IsRow cells line)
    (hline : '\n' ∉ line) (hcell : cell ∈ cells) : FitsCell cell := by
  obtain ⟨piece, pieces, hsplit, -, hpieces, hsub⟩ := splitBars_pieces '\n' line
  obtain ⟨rfl, rfl⟩ := List.cons.inj (hsplit.symm.trans h)
  have hmem : spaced cell ∈ cells.map spaced ++ [[]] :=
    List.mem_append_left _ (List.mem_map_of_mem hcell)
  refine ⟨fun hn => hline (hsub _ (List.mem_cons_of_mem _ hmem) ?_), ?_⟩
  · simp [spaced, hn]
  · exact barsEscaped_spaced_iff.1 (hpieces _ hmem)

/-- How a template stands in its cell: bars and newlines are spelled with a backslash. -/
inductive Spells : List Char → List Char → Prop
  | nil : Spells [] []
  | bar {template shown : List Char} (h : Spells template shown) :
    Spells ('|' :: template) ('\\' :: '|' :: shown)
  | newline {template shown : List Char} (h : Spells template shown) :
    Spells ('\n' :: template) ('\\' :: 'n' :: shown)
  | char {c : Char} {template shown : List Char} (hbar : c ≠ '|') (hnewline : c ≠ '\n')
    (h : Spells template shown) : Spells (c :: template) (c :: shown)

namespace Spells

variable {template shown : List Char}

theorem newline_notMem (h : Spells template shown) : '\n' ∉ shown := by
  induction h with
  | nil => exact List.not_mem_nil
  | bar _ ih => simp [ih]
  | newline _ ih => simp [ih]
  | char _ hnewline _ ih => simp [ih, Ne.symm hnewline]

theorem barsEscaped (h : Spells template shown) (previous : Char) : BarsEscaped previous shown := by
  induction h generalizing previous with
  | nil => exact List.isChain_singleton previous
  | bar _ ih => simp [barsEscaped_cons_iff, ih]
  | newline _ ih => simp [barsEscaped_cons_iff, ih]
  | char hbar _ _ ih => simp [barsEscaped_cons_iff, ih, hbar]

end Spells

theorem spells_cell (s : String) : Spells s.toList (cell s).toList := by
  rw [cell, String.toList_ofList]
  induction s.toList with
  | nil => exact .nil
  | cons c cs ih =>
    rw [List.flatMap_cons]
    split
    · next hbar => exact hbar ▸ .bar ih
    · next hbar =>
      split
      · next hnewline => exact hnewline ▸ .newline ih
      · next hnewline => exact .char hbar hnewline ih

/-- The cells of a verdict whose template is shown in some way. -/
def cellsOf (v : Verdict) (shown : List Char) : List (List Char) :=
  [v.caseName.toList, "`".toList ++ shown ++ "`".toList, (toString v.actualLength).toList,
    (if v.passed then "PASS" else "FAIL").toList]

/-- A line is the row of a verdict: it has four cells, for the name, the template, the length and the
status. -/
def IsRowOf (v : Verdict) (line : List Char) : Prop :=
  ∃ shown, Spells v.template.toList shown ∧ IsRow (cellsOf v shown) line

theorem fitsCell_of_notMem {cs : List Char} (hnewline : '\n' ∉ cs) (hbar : '|' ∉ cs) : FitsCell cs :=
  ⟨hnewline, barsEscaped_of_notMem hbar ' '⟩

/-- All cells of a verdict but its name are made to be cells. -/
theorem fitsCell_cellsOf {v : Verdict} {shown : List Char} (hname : FitsCell v.caseName.toList)
    (h : Spells v.template.toList shown) : ∀ cell ∈ cellsOf v shown, FitsCell cell := by
  have hquote : ∀ c, BarsEscaped c "`".toList := barsEscaped_of_notMem (by decide)
  have hdigit : ∀ {c : Char}, c.isDigit = false → c ∉ (toString v.actualLength).toList := by
    intro c hc hmem
    rw [Nat.toString_eq_repr, Nat.toList_repr] at hmem
    exact absurd (Nat.isDigit_of_mem_toDigits (by decide) (by decide) hmem) (by simp [hc])
  have htemplate : FitsCell ("`".toList ++ shown ++ "`".toList) := by
    constructor
    · simp [h.newline_notMem]
    · rw [barsEscaped_append_iff hquote, barsEscaped_append_iff h.barsEscaped]
      exact hquote ' '
  have hstatus : FitsCell (if v.passed then "PASS" else "FAIL").toList := by
    split
    · exact fitsCell_of_notMem (by decide) (by decide)
    · exact fitsCell_of_notMem (by decide) (by decide)
  simp only [cellsOf, List.forall_mem_cons]
  exact ⟨hname, htemplate, fitsCell_of_notMem (hdigit rfl) (hdigit rfl), hstatus, by simp⟩

/-- The first line of the table. -/
def columnLine : List Char := "| Case | Template | Length | Status |".toList

/-- The line under the first line of the table. -/
def ruleLine : List Char := "|------|----------|--------|--------|".toList

/-- The lines below the first two of a table. -/
def tableLines (text : List Char) : List (List Char) :=
  ((Text.splitLines text).dropWhile (· != columnLine)).drop 2

/-- The lines above the table of a report. -/
def headingLines (r : Report) : List (List Char) :=
  [("# " ++ r.title).toList, [], ("- Policy: " ++ r.policy).toList,
    ("- Timestamp: " ++ r.timestamp).toList, s!"- Total: {r.summary.total}".toList,
    s!"- Passed: {r.summary.passed}".toList, s!"- Failed: {r.summary.failed}".toList, []]

/-- The line that a verdict is given. -/
def lineOf (v : Verdict) : List Char := rowLine (cellsOf v (cell v.template).toList)

private theorem toList_row (v : Verdict) : (row v).toList = lineOf v ++ ['\n'] := by
  simp [row, lineOf, rowLine, cellsOf, spaced]

private theorem toList_heading (r : Report) : r.heading.toList = r.headingLines.flatMap (· ++ ['\n']) := by
  simp [heading, headingLines, ToString.toString]

private theorem toList_tableHead : tableHead.toList = [columnLine, ruleLine].flatMap (· ++ ['\n']) := by
  decide +kernel

theorem toList_markdown (r : Report) :
    r.markdown.toList =
      (r.headingLines ++ columnLine :: ruleLine :: r.summary.results.map lineOf).flatMap
        (· ++ ['\n']) ++ (String.join (r.summary.results.map failure)).toList := by
  rw [markdown, String.toList_append, String.toList_append, String.toList_append, toList_heading,
    toList_tableHead, String.toList_join]
  simp only [List.flatMap_append, List.flatMap_cons, List.flatMap_map, toList_row, List.append_assoc]
  rfl

section
variable {r : Report} (htitle : '\n' ∉ r.title.toList) (hpolicy : '\n' ∉ r.policy.toList)
  (htimestamp : '\n' ∉ r.timestamp.toList)
  (hnames : ∀ v ∈ r.summary.results, FitsCell v.caseName.toList)
include htitle hpolicy htimestamp hnames

/-- Where nothing breaks a line, the lines of a report are those that were written. -/
theorem splitLines_markdown :
    Text.splitLines r.markdown.toList =
      r.headingLines ++ columnLine :: ruleLine :: r.summary.results.map lineOf ++
        Text.splitLines (String.join (r.summary.results.map failure)).toList := by
  rw [toList_markdown, Text.splitLines_flatMap_append]
  simp only [List.forall_mem_append, List.forall_mem_cons, List.forall_mem_map]
  refine ⟨?_, by decide +kernel, by decide +kernel, ?_⟩
  · simp [headingLines, htitle, hpolicy, htimestamp, Text.newline_notMem_toDigits, ToString.toString]
  · intro v hv
    exact newline_notMem_rowLine (fitsCell_cellsOf (hnames v hv) (spells_cell v.template))

/-- Below the head of the table stand the rows, one for each verdict. -/
private theorem take_tableLines :
    (tableLines r.markdown.toList).take r.summary.results.length = r.summary.results.map lineOf := by
  -- no line above the table starts with a bar, so the head is found where it stands
  have hhead : ∀ line ∈ r.headingLines, line.head? ≠ some '|' := by
    simp [headingLines, ToString.toString]
  have habove : ∀ line ∈ r.headingLines, (line != columnLine) = true := by
    intro line hline
    rw [bne_iff_ne]
    rintro rfl
    exact hhead _ hline (by decide +kernel)
  rw [tableLines, splitLines_markdown htitle hpolicy htimestamp hnames, List.append_assoc,
    List.dropWhile_append_of_pos habove, List.cons_append, List.dropWhile_cons_of_neg (by simp)]
  exact List.take_left' (List.length_map _)

end

theorem fitsCell_of_rows {verdicts : List Verdict} {lines : List (List Char)}
    (h : List.Forall₂ IsRowOf verdicts lines) (hlines : ∀ line ∈ lines, '\n' ∉ line) :
    ∀ v ∈ verdicts, FitsCell v.caseName.toList := by
  induction h with
  | nil => exact List.forall_mem_nil _
  | cons hrow _ ih =>
    obtain ⟨hline, hlines⟩ := List.forall_mem_cons.1 hlines
    obtain ⟨shown, -, hrow⟩ := hrow
    exact List.forall_mem_cons.2 ⟨hrow.fitsCell hline List.mem_cons_self, ih hlines⟩

private theorem newline_notMem_tableLines {text line : List Char} (h : line ∈ tableLines text) :
    '\n' ∉ line :=
  Text.notMem_of_mem_splitAt ((List.dropWhile_sublist _).subset (List.mem_of_mem_drop h))

/-- The table of a report gives each verdict its row, in order, exactly when each name can be a
cell. A template can always be one, the way it is spelled there. -/
theorem markdown_rows_iff (r : Report) (htitle : '\n' ∉ r.title.toList)
    (hpolicy : '\n' ∉ r.policy.toList) (htimestamp : '\n' ∉ r.timestamp.toList) :
    List.Forall₂ IsRowOf r.summary.results
        ((tableLines r.markdown.toList).take r.summary.results.length) ↔
      ∀ v ∈ r.summary.results, FitsCell v.caseName.toList := by
  constructor
  · intro h
    apply fitsCell_of_rows h
    intro line hline
    exact newline_notMem_tableLines (List.mem_of_mem_take hline)
  · intro hnames
    rw [take_tableLines htitle hpolicy htimestamp hnames, List.forall₂_map_right_iff,
      List.forall₂_same]
    intro v hv
    have hshown := spells_cell v.template
    exact ⟨_, hshown, isRow_rowLine (fitsCell_cellsOf (hnames v hv) hshown)⟩

/-- A report on one case, whose template has a bar, a newline and a backslash. -/
def sampleReport (name : String) : Report :=
  ⟨"R", "continue", "T",
    Summary.ofResults [⟨name, "%c|\n\\|", true, "a|\n\\|", "a|\n\\|", 5, 5, [], none⟩]⟩

/-- A name with an escaped bar and a backslash at its end can be a cell. -/
theorem markdown_rows_iff_escaped_name :
    let r := sampleReport "a\\|b\\"
    ('\n' ∉ r.title.toList ∧ '\n' ∉ r.policy.toList ∧ '\n' ∉ r.timestamp.toList) ∧
      List.Forall₂ IsRowOf r.summary.results
        ((tableLines r.markdown.toList).take r.summary.results.length) := by
  refine ⟨by decide +kernel, (markdown_rows_iff _ ?_ ?_ ?_).2 ?_⟩
  · decide +kernel
  · decide +kernel
  · decide +kernel
  · exact List.forall_mem_singleton.2 ⟨by decide +kernel, by decide +kernel⟩

/-- A bar in a name cuts the name into two cells, and its row has five. -/
theorem markdown_bar_in_name :
    let r := sampleReport "a|b"
    ('\n' ∉ r.title.toList ∧ '\n' ∉ r.policy.toList ∧ '\n' ∉ r.timestamp.toList) ∧
      (¬ List.Forall₂ IsRowOf r.summary.results
        ((tableLines r.markdown.toList).take r.summary.results.length)) ∧
      (tableLines r.markdown.toList).head?.map (splitBars '\n') =
        some (["", " a", "b ", " `%c\\|\\n\\\\|` ", " 5 ", " PASS ", ""].map String.toList) := by
  intro r
  refine ⟨by decide +kernel, ?_, ?_⟩
  · intro h
    have hname := fitsCell_of_rows h fun line hline =>
      newline_notMem_tableLines (List.mem_of_mem_take hline)
    exact absurd (List.forall_mem_singleton.1 hname).bars (by decide +kernel)
  · rw [toList_markdown]
    decide +kernel

end PercentFormat.Report
