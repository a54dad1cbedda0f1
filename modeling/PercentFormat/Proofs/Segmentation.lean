import Mathlib.Data.List.Chain
import Mathlib.Data.List.TakeWhile
import PercentFormat.Proofs.Scanning

/-! The segments of a template are the only way to cut it: nothing is lost, literal runs are as long
as they can be, and a code stops at the first byte that can end it. -/

namespace PercentFormat

def Segment.isLiteral : Segment → Bool
  | .literal _ => true
  | .directive _ _ => false

/-- The last byte of a code can end it. -/
def Closed (code : Bytes) : Prop := ∃ b ∈ code.getLast?, endsDirective b = true

instance (code : Bytes) : Decidable (Closed code) :=
  inferInstanceAs (Decidable (∃ b ∈ code.getLast?, endsDirective b = true))

/-- The segments cut the bytes `t`, of which the first stands at `start`. -/
structure Segmentation (start : Nat) (t : Bytes) (segs : List Segment) : Prop where
  lossless : segs.flatMap Segment.source = t
  literals : ∀ run, .literal run ∈ segs → run ≠ [] ∧ percentSign ∉ run
  separate : segs.IsChain fun a b => ¬ (a.isLiteral = true ∧ b.isLiteral = true)
  offsets : ∀ i offset code, segs[i]? = some (.directive offset code) →
    offset = start + ((segs.take i).flatMap Segment.source).length
  codes : ∀ offset code, .directive offset code ∈ segs →
    ∀ b ∈ code.dropLast, endsDirective b = false
  closed : ∀ offset code, .directive offset code ∈ segs.dropLast → Closed code

namespace Segment

/-- What is asked of a segment that stands at `start`, its neighbours aside. -/
def WellCut (start : Nat) : Segment → Prop
  | .literal run => run ≠ [] ∧ percentSign ∉ run
  | .directive offset code => offset = start ∧ ∀ b ∈ code.dropLast, endsDirective b = false

/-- What is asked of a segment in front of another one. -/
def Leads : Segment → Segment → Prop
  | .literal _, next => next.isLiteral = false
  | .directive _ code, _ => Closed code

end Segment

section
variable {start : Nat} {t : Bytes} {s : Segment} {segs : List Segment}

theorem segmentation_nil_iff : Segmentation start t [] ↔ t = [] := by
  constructor
  · intro h
    exact h.lossless.symm
  · rintro rfl
    exact ⟨rfl, by simp, .nil, by simp, by simp, by simp⟩

private theorem Segmentation.head (h : Segmentation start t (s :: segs)) :
    s.WellCut start ∧ ∀ next ∈ segs.head?, s.Leads next := by
  cases s with
  | literal run =>
    refine ⟨h.literals run (by simp), fun next hn => ?_⟩
    have hl := (List.isChain_cons.mp h.separate).1 next hn
    exact Bool.eq_false_iff.mpr fun ht => hl ⟨rfl, ht⟩
  | directive offset code =>
    refine ⟨⟨h.offsets 0 offset code rfl, h.codes offset code (by simp)⟩, fun next hn => ?_⟩
    apply h.closed offset code
    obtain ⟨later, rfl⟩ := List.head?_eq_some_iff.mp hn
    simp

private theorem Segmentation.tail (h : Segmentation start t (s :: segs)) :
    Segmentation (start + s.source.length) (segs.flatMap Segment.source) segs := by
  refine ⟨rfl, fun run hr => h.literals run (by simp [hr]), (List.isChain_cons.mp h.separate).2, ?_,
    fun offset code hc => h.codes offset code (by simp [hc]), ?_⟩
  · intro i offset code hi
    have ho := h.offsets (i + 1) offset code hi
    simpa [Nat.add_assoc] using ho
  · intro offset code hc
    apply h.closed offset code
    cases segs with
    | nil => simp at hc
    | cons next later => simp [hc]

private theorem Segmentation.cons (hs : s.WellCut start) (hn : ∀ next ∈ segs.head?, s.Leads next)
    (h : Segmentation (start + s.source.length) t segs) :
    Segmentation start (s.source ++ t) (s :: segs) where
  lossless := by rw [List.flatMap_cons, h.lossless]
  literals run hr := by
    rcases List.mem_cons.mp hr with rfl | hr
    · exact hs
    · exact h.literals run hr
  separate := by
    refine List.isChain_cons.mpr ⟨fun next hnext hl => ?_, h.separate⟩
    cases s with
    | literal run => exact Bool.eq_false_iff.mp (hn next hnext) hl.2
    | directive offset code => exact Bool.false_ne_true hl.1
  offsets i offset code hi := by
    cases i with
    | zero =>
      obtain rfl : s = .directive offset code := by simpa using hi
      exact hs.1
    | succ i => simpa [Nat.add_assoc] using h.offsets i offset code hi
  codes offset code hc := by
    rcases List.mem_cons.mp hc with rfl | hc
    · exact hs.2
    · exact h.codes offset code hc
  closed offset code hc := by
    cases segs with
    | nil => simp at hc
    | cons next later =>
      rcases List.mem_cons.mp hc with rfl | hc
      · exact hn next rfl
      · exact h.closed offset code hc

/-- A list of segments is looked at from the front: one segment, its neighbour, and the rest. -/
theorem segmentation_cons_iff : Segmentation start t (s :: segs) ↔
    s.WellCut start ∧ (∀ next ∈ segs.head?, s.Leads next) ∧
      ∃ rest, t = s.source ++ rest ∧ Segmentation (start + s.source.length) rest segs := by
  constructor
  · intro h
    exact ⟨h.head.1, h.head.2, _, h.lossless.symm, h.tail⟩
  · rintro ⟨hs, hn, rest, rfl, h⟩
    exact .cons hs hn h

end

section
variable {t code rest : Bytes}

/-- Either nothing ends the code, or the first byte that does is its last one. -/
private theorem cutCode_cases (t : Bytes) :
    (∀ b ∈ t, endsDirective b = false) ∨
      ∃ width letter rest, (∀ b ∈ width, endsDirective b = false) ∧ endsDirective letter = true ∧
        t = width ++ letter :: rest := by
  induction t with
  | nil => exact .inl (by simp)
  | cons b t ih =>
    cases hb : endsDirective b with
    | true => exact .inr ⟨[], b, t, by simp, hb, rfl⟩
    | false =>
      rcases ih with h | ⟨width, letter, rest, hw, hl, rfl⟩
      · exact .inl (by simpa [hb] using h)
      · exact .inr ⟨b :: width, letter, rest, by simpa [hb] using hw, hl, rfl⟩

private theorem cutCode_wellCut (t : Bytes) :
    (∀ b ∈ (cutCode t).1.dropLast, endsDirective b = false) ∧
      ((cutCode t).2 ≠ [] → Closed (cutCode t).1) := by
  rcases cutCode_cases t with h | ⟨width, letter, rest, hw, hl, rfl⟩
  · rw [cutCode_of_open h]
    exact ⟨fun b hb => h b ((List.dropLast_sublist t).subset hb), fun hne => absurd rfl hne⟩
  · rw [cutCode_of_ends hw hl]
    refine ⟨?_, fun _ => ⟨letter, ?_, hl⟩⟩
    · simpa using hw
    · simp

/-- A code is cut off where it ends, whatever follows it. -/
private theorem cutCode_append_eq (hc : ∀ b ∈ code.dropLast, endsDirective b = false)
    (h : rest ≠ [] → Closed code) : cutCode (code ++ rest) = (code, rest) := by
  rcases code.eq_nil_or_concat with rfl | ⟨width, letter, rfl⟩
  · rcases rest with _ | ⟨b, rest⟩
    · rfl
    · obtain ⟨b, hb, -⟩ := h (by simp)
      simp at hb
  · rw [List.concat_eq_append] at hc h ⊢
    rw [List.dropLast_concat] at hc
    cases hl : endsDirective letter with
    | true => simpa using cutCode_of_ends hc hl rest
    | false =>
      -- nothing ends this code, so the template does
      have hr : rest = [] := by
        by_contra hne
        obtain ⟨b, hb, he⟩ := h hne
        obtain rfl : letter = b := by simpa using hb
        exact Bool.false_ne_true (hl.symm.trans he)
      rw [hr, List.append_nil]
      apply cutCode_of_open
      intro b hb
      rcases List.mem_append.mp hb with hb | hb
      · exact hc b hb
      · rw [List.mem_singleton.mp hb, hl]

end

section
variable {start : Nat} {t : Bytes} {segs : List Segment}

private theorem isLiteral_head_segmentsOnto (start : Nat) (t : Bytes) :
    ∀ s ∈ (segmentsOnto [] start (t.dropWhile (· != percentSign))).head?, s.isLiteral = false := by
  intro s hs
  cases ht : t.dropWhile (· != percentSign) with
  | nil => simp [ht, segmentsOnto] at hs
  | cons b rest =>
    have hb : b = percentSign := by
      have := List.head_dropWhile_not (· != percentSign) (l := t) (by simp [ht])
      simpa [ht] using this
    rw [ht, hb, segmentsOnto_percent] at hs
    obtain rfl : _ = s := by simpa using hs
    rfl

theorem segmentation_segmentsOnto (start : Nat) (t : Bytes) :
    Segmentation start t (segmentsOnto [] start t) := by
  -- a whole run or a whole code is taken off the front, so the induction is on the length
  induction hn : t.length using Nat.strongRecOn generalizing start t with
  | ind n ih =>
    subst hn
    cases t with
    | nil =>
      rw [segmentsOnto]
      exact segmentation_nil_iff.mpr rfl
    | cons b rest =>
      by_cases hb : b = percentSign
      · subst hb
        rw [segmentsOnto_percent]
        obtain ⟨hcode, hclosed⟩ := cutCode_wellCut rest
        refine segmentation_cons_iff.mpr ⟨⟨rfl, hcode⟩, ?_, (cutCode rest).2, ?_, ?_⟩
        · intro next hnext
          apply hclosed
          intro hnil
          simp [hnil, segmentsOnto] at hnext
        · rw [Segment.source, List.cons_append, cutCode_append]
        · rw [Segment.source, List.length_cons, Nat.add_comm _ 1, ← Nat.add_assoc]
          exact ih _ (Nat.lt_succ_of_le (length_cutCode_snd_le rest)) _ _ rfl
      · rw [segmentsOnto_literal start hb]
        have hshort : (rest.dropWhile (· != percentSign)).length ≤ rest.length :=
          (List.dropWhile_sublist _).length_le
        refine segmentation_cons_iff.mpr ⟨⟨by simp, ?_⟩, isLiteral_head_segmentsOnto _ rest,
          rest.dropWhile (· != percentSign), ?_, ?_⟩
        · intro hmem
          rcases List.mem_cons.mp hmem with h | h
          · exact hb h.symm
          · simpa using List.mem_takeWhile_imp h
        · rw [Segment.source, List.cons_append, List.takeWhile_append_dropWhile]
        · rw [Segment.source, List.length_cons, Nat.add_comm _ 1, ← Nat.add_assoc]
          exact ih _ (Nat.lt_succ_of_le hshort) _ _ rfl

theorem Segmentation.starts_percent (h : Segmentation start t segs)
    (hd : ∀ s ∈ segs.head?, s.isLiteral = false) :
    t = [] ∨ ∃ rest, t = percentSign :: rest := by
  cases segs with
  | nil => exact .inl (segmentation_nil_iff.mp h)
  | cons s segs =>
    obtain ⟨-, -, rest, rfl, -⟩ := segmentation_cons_iff.mp h
    cases s with
    | literal run => exact absurd (hd _ rfl) (by simp [Segment.isLiteral])
    | directive offset code => exact .inr ⟨code ++ rest, rfl⟩

/-- There is no other way to cut the bytes. -/
theorem Segmentation.eq_segmentsOnto (h : Segmentation start t segs) :
    segs = segmentsOnto [] start t := by
  induction segs generalizing start t with
  | nil =>
    rw [segmentation_nil_iff.mp h, segmentsOnto]
    rfl
  | cons s segs ih =>
    obtain ⟨hs, hn, rest, rfl, hrest⟩ := segmentation_cons_iff.mp h
    rw [ih hrest]
    cases s with
    | directive offset code =>
      obtain ⟨rfl, hcode⟩ := hs
      have hcut : cutCode (code ++ rest) = (code, rest) := by
        apply cutCode_append_eq hcode
        intro hne
        cases segs with
        | nil => exact absurd (segmentation_nil_iff.mp hrest) hne
        | cons next later => exact hn next rfl
      rw [Segment.source, List.cons_append, segmentsOnto_percent, hcut, List.length_cons,
        Nat.add_comm code.length, Nat.add_assoc]
    | literal run =>
      obtain ⟨hne, hpercent⟩ := hs
      have hall : ∀ x ∈ run, x ≠ percentSign := fun x hx => ne_of_mem_of_not_mem hx hpercent
      -- no literal follows a literal, so the run is over at its end
      have hstop : ∀ b ∈ rest.head?, b = percentSign := by
        rcases hrest.starts_percent hn with rfl | ⟨later, rfl⟩ <;> simp
      rw [Segment.source, segmentsOnto_run start hall hne rest hstop]

/-- Each segment takes up at least one byte. -/
private theorem Segmentation.length_le (h : Segmentation start t segs) :
    segs.length ≤ t.length := by
  induction segs generalizing start t with
  | nil => exact Nat.zero_le _
  | cons s segs ih =>
    obtain ⟨hs, -, rest, rfl, hrest⟩ := segmentation_cons_iff.mp h
    have hl := ih hrest
    have hpos : 0 < s.source.length := by
      cases s with
      | literal run => exact List.length_pos_iff.mpr hs.1
      | directive offset code => exact Nat.succ_pos _
    rw [List.length_cons, List.length_append]
    omega

private theorem Segmentation.getElem?_offset (h : Segmentation 0 t segs) {offset : Nat}
    {code : Bytes} (hmem : .directive offset code ∈ segs) : t[offset]? = some percentSign := by
  obtain ⟨i, hi⟩ := List.mem_iff_getElem?.mp hmem
  obtain ⟨hlt, hget⟩ := List.getElem?_eq_some_iff.mp hi
  have ho := h.offsets i offset code hi
  have hsplit : t = (segs.take i).flatMap Segment.source ++
      percentSign :: (code ++ (segs.drop (i + 1)).flatMap Segment.source) := by
    rw [← h.lossless]
    conv_lhs => rw [← List.take_append_drop i segs, List.drop_eq_getElem_cons hlt, hget]
    simp [Segment.source]
  rw [hsplit, List.getElem?_append_right (by omega)]
  simp [ho]

end

theorem terminated_eq_self {bytes : Bytes} (h : (0 : UInt8) ∉ bytes) : terminated bytes = bytes :=
  List.takeWhile_eq_self_iff.mpr fun b hb => by simpa using ne_of_mem_of_not_mem hb h

/-- A template is cut in exactly one way, and the cutting ends. -/
theorem segments_unique (t : Bytes) :
    Segmentation 0 (terminated t) (segments t) ∧
    (∀ segs, Segmentation 0 (terminated t) segs → segs = segments t) ∧
    (segments t).length ≤ (terminated t).length ∧
    ∀ offset code, .directive offset code ∈ segments t → t[offset]? = some percentSign := by
  have h : Segmentation 0 (terminated t) (segments t) := segmentation_segmentsOnto 0 _
  refine ⟨h, fun segs hs => hs.eq_segmentsOnto, h.length_le, ?_⟩
  intro offset code hmem
  have hp := h.getElem?_offset hmem
  obtain ⟨junk, hj⟩ : terminated t <+: t := List.takeWhile_prefix _
  obtain ⟨hlt, -⟩ := List.getElem?_eq_some_iff.mp hp
  rw [← hj, List.getElem?_append_left hlt, hp]

/-- A doubled percent sign, and a NUL where a directive is still open. -/
theorem segments_unique_open_at_nul :
    [Segment.directive 0 [0x25], .literal [0x61], .directive 3 [0x35, 0x64], .directive 6 [0x2D]] =
      segments (Utf8.encode "%%a%5d%-\x00d") := by
  apply (segments_unique _).2.1
  have ht : terminated (Utf8.encode "%%a%5d%-\x00d") =
      [0x25, 0x25, 0x61, 0x25, 0x35, 0x64, 0x25, 0x2D] := by decide +kernel
  rw [ht]
  simp [segmentation_cons_iff, segmentation_nil_iff, Segment.WellCut, Segment.Leads, Segment.source,
    Segment.isLiteral, Closed, endsDirective, isLetter, percentSign]

/-- A segment raises no more diagnostics than it has bytes. -/
theorem Segment.length_diagnostics_le (s : Segment) (arg : Option Argument) :
    (s.share arg).diagnostics.length ≤ s.source.length := by
  cases s with
  | literal run => exact Nat.zero_le _
  | directive offset code =>
    rcases List.eq_nil_or_concat' code with rfl | ⟨width, letter, rfl⟩
    · exact Nat.le_refl _
    · by_cases hpercent : width ++ [letter] = [percentSign]
      · rw [hpercent]
        exact Nat.zero_le _
      · have hletter : (Share.ofLetter offset (widthOf width) letter arg).diagnostics.length ≤ 1 := by
          rw [Share.ofLetter_eq]
          unfold Share.ofArgument
          repeat' split
          all_goals first | exact Nat.le_refl _ | exact Nat.zero_le _
        have hwidth := List.length_filter_le (!isDigit ·) width
        rw [Segment.share_concat hpercent]
        simp only [source, List.length_append, List.length_map, List.length_cons, List.length_nil]
        omega

theorem length_shares_diagnostics_le (args : List Argument) (segs : List Segment) :
    ((shares args segs).flatMap Share.diagnostics).length ≤ (segs.flatMap Segment.source).length := by
  induction segs generalizing args with
  | nil => exact Nat.le_refl _
  | cons s segs ih =>
    have hs := s.length_diagnostics_le args.head?
    have hsegs := ih (s.left args)
    rw [shares_cons, List.flatMap_cons, List.flatMap_cons, List.length_append, List.length_append]
    omega

theorem length_rendering_diagnostics_le (t : Bytes) (args : List Argument) :
    (rendering t args).diagnostics.length ≤ t.length := by
  have hcut : (segments t).flatMap Segment.source = terminated t :=
    (segmentation_segmentsOnto 0 (terminated t)).lossless
  calc (rendering t args).diagnostics.length
      ≤ ((segments t).flatMap Segment.source).length := length_shares_diagnostics_le args _
    _ = (terminated t).length := by rw [hcut]
    _ ≤ t.length := (List.takeWhile_prefix _).length_le

end PercentFormat
