import PercentFormat.Proofs.Segmentation

/-! Where diagnostics point and in what order they come. Each one stands at the percent sign of its
directive, and the bytes of a directive are at least as many as its diagnostics. -/

namespace PercentFormat

/-- Whether a complaint is about the letter of a directive or about its argument. -/
def Diagnostic.Kind.isOfConversion : Diagnostic.Kind → Bool
  | .unknownConversion _ => true
  | .missingArgument _ => true
  | .argumentMismatch _ _ => true
  | .malformedWidthDigit _ => false
  | .emptyDirective => false

/-- What can be said of one directive, in order: that nothing follows its percent sign; or which bytes
of its width are no digits, and then at most one thing about its letter or its argument. -/
def IsReport (kinds : List Diagnostic.Kind) : Prop :=
  kinds = [.emptyDirective] ∨
    ∃ (malformed : Bytes) (last : Option Diagnostic.Kind),
      kinds = malformed.map .malformedWidthDigit ++ last.toList ∧
      ∀ kind ∈ last, kind.isOfConversion = true

private theorem isReport_nil : IsReport [] := .inr ⟨[], none, rfl, by simp⟩

/-- Where there is a code, its percent sign is not without one. -/
private theorem emptyDirective_notMem (malformed : Bytes) {last : Option Diagnostic.Kind}
    (h : ∀ kind ∈ last, kind.isOfConversion = true) :
    .emptyDirective ∉ malformed.map Diagnostic.Kind.malformedWidthDigit ++ last.toList := by
  intro hmem
  have hlast : Diagnostic.Kind.emptyDirective ∈ last := by simpa using hmem
  exact absurd (h _ hlast) (by decide)

theorem IsReport.eq_of_empty {kinds : List Diagnostic.Kind} (h : IsReport kinds)
    (hmem : .emptyDirective ∈ kinds) : kinds = [.emptyDirective] := by
  rcases h with h | ⟨malformed, last, rfl, hlast⟩
  · exact h
  · exact absurd hmem (emptyDirective_notMem malformed hlast)

private theorem ofLetter_kinds (offset width : Nat) (letter : UInt8) (arg : Option Argument) :
    ∃ last : Option Diagnostic.Kind,
      (Share.ofLetter offset width letter arg).diagnostics = last.toList.map (⟨·, offset⟩) ∧
      ∀ kind ∈ last, kind.isOfConversion = true := by
  rw [Share.ofLetter_eq]
  cases (Conversion.ofLetter letter).expected? with
  | none => exact ⟨some (.unknownConversion letter), rfl, by simp [Diagnostic.Kind.isOfConversion]⟩
  | some expected =>
    cases arg with
    | none => exact ⟨some (.missingArgument expected), rfl, by simp [Diagnostic.Kind.isOfConversion]⟩
    | some x =>
      by_cases hx : x.kind = expected
      · exact ⟨none, by simp [Share.ofArgument, hx], by simp⟩
      · exact ⟨some (.argumentMismatch expected x.kind),
          by simp [Share.ofArgument, hx, Share.complaint], by simp [Diagnostic.Kind.isOfConversion]⟩

/-- The diagnostics of a directive: one if there is no code; else those of its width and then at most
one of its conversion. All stand at its percent sign. -/
theorem diagnostics_directive (offset : Nat) (code : Bytes) (arg : Option Argument) :
    code = [] ∧ ((Segment.directive offset code).share arg).diagnostics = [⟨.emptyDirective, offset⟩] ∨
    ∃ last : Option Diagnostic.Kind,
      ((Segment.directive offset code).share arg).diagnostics =
        ((code.dropLast.filter (!isDigit ·)).map Diagnostic.Kind.malformedWidthDigit ++
          last.toList).map (⟨·, offset⟩) ∧
      ∀ kind ∈ last, kind.isOfConversion = true := by
  rcases List.eq_nil_or_concat' code with rfl | ⟨width, letter, rfl⟩
  · exact .inl ⟨rfl, rfl⟩
  · by_cases hp : width ++ [letter] = [percentSign]
    · rw [hp]
      exact .inr ⟨none, rfl, by simp⟩
    · obtain ⟨last, hlast, hkind⟩ := ofLetter_kinds offset (widthOf width) letter arg
      refine .inr ⟨last, ?_, hkind⟩
      rw [Segment.share_concat hp, hlast]
      simp

/-- The diagnostics of the bytes `t`, of which the first stands at `start`, are in order, and each one
points at a percent sign. -/
structure Orderly (start : Nat) (t : Bytes) (ds : List Diagnostic) : Prop where
  sorted : ds.Pairwise fun a b => a.offset ≤ b.offset
  anchored : ∀ d ∈ ds, start ≤ d.offset ∧ t[d.offset - start]? = some percentSign
  grouped : ∀ offset, IsReport ((ds.filter fun d => d.offset = offset).map Diagnostic.kind)
  /-- Only the last one can say that nothing follows a percent sign, -/
  last : ∀ d ∈ ds.dropLast, d.kind ≠ .emptyDirective
  /-- and that percent sign is the last byte. -/
  ending : ∀ d ∈ ds, d.kind = .emptyDirective → d.offset + 1 = start + t.length
  digits : ∀ d ∈ ds, ∀ b, d.kind = .malformedWidthDigit b →
    b ∈ t ∧ isDigit b = false ∧ endsDirective b = false

namespace Orderly
variable {start : Nat} {t : Bytes} {ds : List Diagnostic}

theorem nil (start : Nat) (t : Bytes) : Orderly start t [] :=
  ⟨.nil, by simp, fun _ => isReport_nil, by simp, by simp, by simp⟩

/-- Bytes in front that have nothing to tell. -/
theorem literal {run : Bytes} (h : Orderly (start + run.length) t ds) :
    Orderly start (run ++ t) ds where
  sorted := h.sorted
  anchored d hd := by
    obtain ⟨hstart, hpercent⟩ := h.anchored d hd
    refine ⟨by omega, ?_⟩
    rw [List.getElem?_append_right (by omega), ← hpercent]
    congr 1
    omega
  grouped := h.grouped
  last := h.last
  ending d hd hkind := by
    rw [h.ending d hd hkind, List.length_append]
    omega
  digits d hd b hb := by
    obtain ⟨hmem, hdigit⟩ := h.digits d hd b hb
    exact ⟨List.mem_append_right _ hmem, hdigit⟩

/-- What is said at `start` comes first, and is all that is said there. -/
private theorem filter_offset (kinds : List Diagnostic.Kind) (h : ∀ d ∈ ds, start < d.offset)
    (offset : Nat) :
    ((kinds.map (Diagnostic.mk · start) ++ ds).filter (·.offset = offset)).map Diagnostic.kind =
      if offset = start then kinds else (ds.filter (·.offset = offset)).map Diagnostic.kind := by
  rw [List.filter_append, List.filter_map, List.map_append, List.map_map]
  split
  · next hoffset =>
    have hnone : ds.filter (·.offset = offset) = [] := by
      rw [List.filter_eq_nil_iff]
      intro d hd
      have hlt := h d hd
      simp only [decide_eq_true_eq]
      omega
    rw [hnone, hoffset, List.filter_eq_self.mpr (by simp)]
    simp [Function.comp_def]
  · next hoffset =>
    rw [List.filter_eq_nil_iff.mpr (by simp [Ne.symm hoffset])]
    rfl

/-- A percent sign in front, with what is said of its directive. -/
theorem directive (h : Orderly (start + 1) t ds) {kinds : List Diagnostic.Kind}
    (hreport : IsReport kinds)
    (hempty : .emptyDirective ∈ kinds → t = [] ∧ ds = [])
    (hdigits : ∀ b, .malformedWidthDigit b ∈ kinds →
      b ∈ t ∧ isDigit b = false ∧ endsDirective b = false) :
    Orderly start (percentSign :: t) (kinds.map (⟨·, start⟩) ++ ds) := by
  have hlater : Orderly start ([percentSign] ++ t) ds := literal h
  have hbehind : ∀ d ∈ ds, start < d.offset := fun d hd => (h.anchored d hd).1
  have hat : ∀ d ∈ kinds.map (⟨·, start⟩ : Diagnostic.Kind → Diagnostic),
      d.offset = start ∧ d.kind ∈ kinds := by
    intro d hd
    obtain ⟨kind, hkind, rfl⟩ := List.mem_map.mp hd
    exact ⟨rfl, hkind⟩
  constructor
  case sorted =>
    refine List.pairwise_append.mpr ⟨?_, h.sorted, fun a ha b hb => ?_⟩
    · exact List.pairwise_map.mpr (List.pairwise_of_forall fun _ _ => Nat.le_refl _)
    · rw [(hat a ha).1]
      exact Nat.le_of_lt (hbehind b hb)
  case anchored =>
    intro d hd
    rcases List.mem_append.mp hd with hd | hd
    · simp [(hat d hd).1]
    · exact hlater.anchored d hd
  case grouped =>
    intro offset
    rw [filter_offset kinds hbehind]
    split
    · exact hreport
    · exact h.grouped offset
  case last =>
    intro d hd hkind
    by_cases hmem : .emptyDirective ∈ kinds
    · -- this is all that there is to say
      rw [(hempty hmem).2, hreport.eq_of_empty hmem] at hd
      simp at hd
    · have hfirst : d ∉ kinds.map (⟨·, start⟩ : Diagnostic.Kind → Diagnostic) :=
        fun hd => hmem (hkind ▸ (hat d hd).2)
      rw [List.dropLast_append] at hd
      split at hd
      · exact hfirst ((List.dropLast_sublist _).subset hd)
      · exact (List.mem_append.mp hd).elim hfirst fun hd => h.last d hd hkind
  case ending =>
    intro d hd hkind
    rcases List.mem_append.mp hd with hd | hd
    · obtain ⟨rfl, hmem⟩ := hat d hd
      rw [(hempty (hkind ▸ hmem)).1]
      rfl
    · exact hlater.ending d hd hkind
  case digits =>
    intro d hd b hb
    rcases List.mem_append.mp hd with hd | hd
    · obtain ⟨hmem, hdigit⟩ := hdigits b (hb ▸ (hat d hd).2)
      exact ⟨List.mem_cons_of_mem _ hmem, hdigit⟩
    · exact hlater.digits d hd b hb

theorem countP_le (h : Orderly start t ds) : ds.countP (fun d => d.kind = .emptyDirective) ≤ 1 := by
  rcases List.eq_nil_or_concat' ds with rfl | ⟨front, d, rfl⟩
  · exact Nat.zero_le 1
  · have hfront : front.countP (fun d => d.kind = .emptyDirective) = 0 := by
      rw [List.countP_eq_zero]
      intro x hx
      simpa using h.last x (by simpa using hx)
    rw [List.countP_append, hfront, Nat.zero_add]
    exact List.countP_le_length

end Orderly

/-- All segments: what they have to tell is in order. -/
theorem Segmentation.orderly {start : Nat} {t : Bytes} {segs : List Segment}
    (h : Segmentation start t segs) (args : List Argument) :
    Orderly start t ((shares args segs).flatMap Share.diagnostics) := by
  induction segs generalizing start t args with
  | nil => exact .nil start t
  | cons s segs ih =>
    obtain ⟨hs, hn, rest, rfl, hrest⟩ := segmentation_cons_iff.mp h
    have hlater := ih hrest (s.left args)
    rw [shares_cons, List.flatMap_cons]
    cases s with
    | literal run => exact hlater.literal
    | directive offset code =>
      obtain ⟨rfl, hcode⟩ := hs
      have hbehind : Orderly (offset + 1) (code ++ rest)
          ((shares ((Segment.directive offset code).left args) segs).flatMap Share.diagnostics) := by
        apply Orderly.literal
        rw [Nat.add_assoc, Nat.add_comm 1]
        exact hlater
      rcases diagnostics_directive offset code args.head? with ⟨rfl, hds⟩ | ⟨last, hds, hkind⟩
      · -- nothing closes an empty code, so it ends the template
        obtain rfl : segs = [] := by
          cases segs with
          | nil => rfl
          | cons next later =>
            obtain ⟨b, hb, -⟩ := hn next rfl
            cases hb
        obtain rfl := segmentation_nil_iff.mp hrest
        rw [hds]
        have hreport : IsReport [.emptyDirective] := .inl rfl
        exact hbehind.directive hreport (fun _ => ⟨rfl, rfl⟩) (by simp)
      · rw [hds]
        apply hbehind.directive (.inr ⟨_, last, rfl, hkind⟩)
        · exact fun hmem => absurd hmem (emptyDirective_notMem _ hkind)
        · intro b hmem
          have hwidth : b ∈ code.dropLast ∧ isDigit b = false := by
            rcases List.mem_append.mp hmem with hmem | hmem
            · simpa using hmem
            · exact absurd (hkind _ (by simpa using hmem)) (by simp [Diagnostic.Kind.isOfConversion])
          exact ⟨List.mem_append_left _ ((List.dropLast_sublist code).subset hwidth.1), hwidth.2,
            hcode b hwidth.1⟩

/-- The diagnostics of a call on the template are ordered, anchored and bounded. -/
structure WellPlaced (t : Bytes) (ds : List Diagnostic) : Prop where
  sorted : ds.Pairwise fun a b => a.offset ≤ b.offset
  anchored : ∀ d ∈ ds, d.offset < (terminated t).length ∧ t[d.offset]? = some percentSign
  grouped : ∀ offset, IsReport ((ds.filter fun d => d.offset = offset).map Diagnostic.kind)
  emptyOnce : ds.countP (fun d => d.kind = .emptyDirective) ≤ 1
  emptyLast : ∀ d ∈ ds.dropLast, d.kind ≠ .emptyDirective
  emptyEnding : ∀ d ∈ ds, d.kind = .emptyDirective → d.offset = (terminated t).length - 1
  digits : ∀ d ∈ ds, ∀ b, d.kind = .malformedWidthDigit b →
    isDigit b = false ∧ isLetter b = false ∧ b ≠ percentSign ∧ b ≠ 0
  bounded : ds.length ≤ (terminated t).length

/-- The diagnostics of a call that returns: their offsets do not decrease, and each is that of a percent
sign of the template, in front of its NUL. At one offset there is one report. A percent sign that
nothing follows is told at most once, as the last thing, and is the last byte. A byte that is no width
digit is not a digit, a letter, a percent sign or a NUL. And there are no more diagnostics than bytes. -/
theorem formatWith_diagnostics_orderly (p : Session) (o : Options) (t : Bytes) (args : List Argument)
    (f : Formatted) (hf : (p.formatWith o t args).1 = .ok f) : WellPlaced t f.diagnostics := by
  obtain ⟨-, rfl, -⟩ := formatWith_returns_iff.mp hf
  have hcut : Segmentation 0 (terminated t) (segments t) := segmentation_segmentsOnto 0 _
  have h : Orderly 0 (terminated t) (rendering t args).diagnostics := hcut.orderly args
  exact {
    sorted := h.sorted
    anchored := fun d hd => by
      obtain ⟨hlt, hpercent⟩ := List.getElem?_eq_some_iff.mp (h.anchored d hd).2
      have hkept := List.prefix_iff_getElem?.mp (List.takeWhile_prefix (· != 0)) d.offset hlt
      exact ⟨hlt, hkept.trans (congrArg some hpercent)⟩
    grouped := h.grouped
    emptyOnce := h.countP_le
    emptyLast := h.last
    emptyEnding := fun d hd hkind => by
      have := h.ending d hd hkind
      omega
    digits := fun d hd b hb => by
      obtain ⟨hmem, hdigit, hends⟩ := h.digits d hd b hb
      obtain ⟨hpercent, hletter⟩ : b ≠ percentSign ∧ isLetter b = false := by
        simpa [endsDirective] using hends
      exact ⟨hdigit, hletter, hpercent, ne_of_mem_of_not_mem hmem (zero_notMem_terminated t)⟩
    bounded := by
      rw [← hcut.lossless]
      exact length_shares_diagnostics_le args (segments t) }

/-- Two bytes of a width that are no digits, in front of an argument that is missing; a percent sign
that ends a code; and one that a NUL leaves without a code. -/
theorem formatWith_diagnostics_orderly_mixed :
    let f : Formatted := ⟨Utf8.encode "a", [⟨.malformedWidthDigit 0x2D, 1⟩, ⟨.malformedWidthDigit 0xC3, 1⟩,
      ⟨.missingArgument .int, 1⟩, ⟨.unknownConversion 0x25, 6⟩, ⟨.emptyDirective, 9⟩]⟩
    let t : Bytes := [0x61, 0x25, 0x2D, 0x35, 0xC3, 0x64, 0x25, 0x35, 0x25, 0x25, 0x00, 0x64]
    ((Session.start {}).formatWith {} t []).1 = .ok f ∧ WellPlaced t f.diagnostics := by
  intro f t
  have hf : ((Session.start {}).formatWith {} t []).1 = .ok f :=
    (formatWith_eq_ok_iff rfl).mpr ⟨⟨by decide +kernel, by decide +kernel⟩, by decide +kernel⟩
  exact ⟨hf, formatWith_diagnostics_orderly (.start {}) {} t [] f hf⟩

end PercentFormat
