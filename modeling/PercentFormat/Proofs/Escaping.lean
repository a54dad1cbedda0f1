import PercentFormat.Proofs.Composition

/-! Percent signs that are written twice. A template that takes no argument and raises no diagnostic
is the escaped form of what it renders, and every text without a NUL has such a form. -/

namespace PercentFormat

/-- The bytes with every percent sign written twice. -/
def escape (bytes : Bytes) : Bytes :=
  bytes.flatMap fun b => if b = percentSign then [percentSign, percentSign] else [b]

section
variable {b : UInt8} {bytes : Bytes}

@[simp] theorem escape_nil : escape [] = [] := rfl

@[simp] theorem escape_percent (bytes : Bytes) :
    escape (percentSign :: bytes) = percentSign :: percentSign :: escape bytes := rfl

private theorem escape_cons (hb : b ≠ percentSign) (bytes : Bytes) :
    escape (b :: bytes) = b :: escape bytes := by
  simp [escape, hb]

theorem escape_append (first second : Bytes) :
    escape (first ++ second) = escape first ++ escape second :=
  List.flatMap_append

theorem escape_eq_self (h : percentSign ∉ bytes) : escape bytes = bytes := by
  induction bytes with
  | nil => rfl
  | cons b bytes ih =>
    obtain ⟨hb, hbytes⟩ : percentSign ≠ b ∧ percentSign ∉ bytes := by simpa using h
    rw [escape_cons hb.symm, ih hbytes]

theorem zero_notMem_escape (h : (0 : UInt8) ∉ bytes) : (0 : UInt8) ∉ escape bytes := by
  intro hmem
  obtain ⟨b, hb, hzero⟩ := List.mem_flatMap.mp hmem
  split at hzero
  · exact absurd hzero (by decide)
  · rw [List.mem_singleton.mp hzero] at h
    exact h hb

/-- Different texts have different escaped forms. -/
theorem escape_injective : Function.Injective escape := by
  intro x
  induction x with
  | nil =>
    intro y h
    cases y with
    | nil => rfl
    | cons b y => by_cases hb : b = percentSign <;> simp [escape, hb] at h
  | cons a x ih =>
    intro y h
    cases y with
    | nil => by_cases ha : a = percentSign <;> simp [escape, ha] at h
    | cons b y =>
      by_cases ha : a = percentSign <;> by_cases hb : b = percentSign
      · subst ha hb
        rw [ih (by simpa using h)]
      · subst ha
        rw [escape_cons hb, escape_percent] at h
        exact absurd (List.cons.inj h).1.symm hb
      · subst hb
        rw [escape_cons ha, escape_percent] at h
        exact absurd (List.cons.inj h).1 ha
      · rw [escape_cons ha, escape_cons hb] at h
        obtain ⟨rfl, hrest⟩ := List.cons.inj h
        rw [ih hrest]

end

namespace Segment

/-- A literal run, or a percent sign that is written twice. -/
def IsPlain : Segment → Prop
  | .literal _ => True
  | .directive _ code => code = [percentSign]

/-- No other segment takes no argument and has nothing to complain about. -/
theorem isPlain_iff (s : Segment) (arg : Option Argument) :
    s.IsPlain ↔ s.demand? = none ∧ (s.share arg).diagnostics = [] := by
  cases s with
  | literal run => simp [IsPlain, demand?, directive?, share]
  | directive offset code =>
    rcases List.eq_nil_or_concat' code with rfl | ⟨width, letter, rfl⟩
    · simp [IsPlain, share, Share.complaint]
    · by_cases hp : width ++ [letter] = [percentSign]
      · simp [IsPlain, hp, share_percent, demand?, directive?, Directive.parse?, Conversion.expected?]
      · refine iff_of_false hp ?_
        rintro ⟨hd, hq⟩
        have hletter : (Conversion.ofLetter letter).expected? = none := by
          simpa [demand?, directive?, Directive.parse?_concat hp] using hd
        simp [share_concat hp, Share.ofLetter_eq, hletter, Share.complaint] at hq

private theorem IsPlain.codeLength_le {s : Segment} (h : s.IsPlain) : s.codeLength ≤ 1 := by
  cases s with
  | literal run => exact Nat.zero_le _
  | directive offset code => exact Nat.le_of_eq (congrArg List.length h)

theorem IsPlain.source_eq {s : Segment} (h : s.IsPlain) {start : Nat} (hs : s.WellCut start)
    (arg : Option Argument) : s.source = escape (s.share arg).fragment := by
  cases s with
  | literal run => exact (escape_eq_self hs.2).symm
  | directive offset code =>
    obtain rfl : code = [percentSign] := h
    rfl

end Segment

/-- All segments of a template are plain if it takes no argument and has nothing to complain about. -/
theorem isPlain_iff_shares (args : List Argument) (segs : List Segment) :
    (∀ s ∈ segs, s.IsPlain) ↔ segs.filterMap Segment.demand? = [] ∧
      (shares args segs).flatMap Share.diagnostics = [] := by
  induction segs generalizing args with
  | nil => simp [shares_nil]
  | cons s segs ih =>
    rw [List.forall_mem_cons, s.isPlain_iff args.head?, ih (s.left args), shares_cons,
      List.flatMap_cons, List.append_eq_nil_iff]
    cases hs : s.demand? with
    | none => simp [hs, and_left_comm]
    | some expected => simp [hs]

/-- What is cut into plain segments is the escaped form of what these render. -/
theorem Segmentation.eq_escape {start : Nat} {t : Bytes} {segs : List Segment}
    (h : Segmentation start t segs) (hp : ∀ s ∈ segs, s.IsPlain) (args : List Argument) :
    t = escape ((shares args segs).flatMap Share.fragment) := by
  induction segs generalizing start t args with
  | nil => exact segmentation_nil_iff.mp h
  | cons s segs ih =>
    obtain ⟨hs, -, rest, rfl, hrest⟩ := segmentation_cons_iff.mp h
    rw [shares_cons, List.flatMap_cons, escape_append,
      ← (hp s (by simp)).source_eq hs args.head?,
      ← ih hrest (fun s hmem => hp s (by simp [hmem])) (s.left args)]

/-- An escaped form is cut into plain segments. -/
private theorem isPlain_segmentsOnto_escape (offset : Nat) (bytes : Bytes) :
    ∀ s ∈ segmentsOnto [] offset (escape bytes), s.IsPlain := by
  induction bytes generalizing offset with
  | nil => simp [segmentsOnto]
  | cons b bytes ih =>
    by_cases hb : b = percentSign
    · have hcut : cutCode ([] ++ percentSign :: escape bytes) = ([percentSign], escape bytes) :=
        cutCode_of_ends (by simp) rfl _
      rw [List.nil_append] at hcut
      rw [hb, escape_percent, segmentsOnto_percent, hcut]
      exact List.forall_mem_cons.mpr ⟨rfl, ih _⟩
    · rw [escape_cons hb]
      obtain ⟨run, segs, hwhole, ⟨-, hlater⟩ | hlater⟩ := segmentsOnto_byte offset hb (escape bytes)
      · rw [hwhole, ← hlater]
        exact List.forall_mem_cons.mpr ⟨trivial, ih _⟩
      · have hsegs := ih (offset + 1)
        rw [hlater, List.forall_mem_cons] at hsegs
        rw [hwhole]
        exact List.forall_mem_cons.mpr ⟨trivial, hsegs.2⟩

/-- Percent signs are escaped completely and faithfully. Every text without a NUL is rendered by its
escaped form, which takes no argument, under either policy and without a diagnostic. And if a template
takes no argument and renders a text without a diagnostic, then it is the escaped form of that text,
up to its NUL. Arguments that are too many make no difference. -/
theorem formatWith_escape (p : Session) (o : Options) (args : List Argument) :
    (∀ bytes, (0 : UInt8) ∉ bytes → bytes.length ≤ o.maxOutput → 1 ≤ o.maxDirective →
      (p.formatWith o (escape bytes) args).1 = .ok ⟨bytes, []⟩ ∧
      requiredArguments (escape bytes) = []) ∧
    ∀ t f, requiredArguments t = [] → (p.formatWith o t args).1 = .ok f → f.diagnostics = [] →
      terminated t = escape f.bytes := by
  have hcut (t : Bytes) : Segmentation 0 (terminated t) (segments t) := segmentation_segmentsOnto 0 _
  constructor
  · intro bytes hzero houtput hdirective
    have hself : terminated (escape bytes) = escape bytes :=
      terminated_eq_self (zero_notMem_escape hzero)
    have hplain : ∀ s ∈ segments (escape bytes), s.IsPlain := by
      rw [segments, hself]
      exact isPlain_segmentsOnto_escape 0 bytes
    obtain ⟨hrequired, hquiet⟩ := (isPlain_iff_shares args _).mp hplain
    have hbytes : (rendering (escape bytes) args).bytes = bytes := by
      apply escape_injective
      exact ((hcut (escape bytes)).eq_escape hplain args).symm.trans hself
    have hrendering : rendering (escape bytes) args = ⟨bytes, []⟩ :=
      congrArg₂ Formatted.mk hbytes hquiet
    refine ⟨formatWith_returns_iff.mpr ⟨⟨?_, ?_⟩, hrendering.symm, fun _ => rfl⟩, hrequired⟩
    · exact fun s hs => Nat.le_trans (hplain s hs).codeLength_le hdirective
    · exact Nat.le_trans (Nat.le_of_eq (congrArg List.length hbytes)) houtput
  · intro t f hrequired hf hquiet
    obtain ⟨-, rfl, -⟩ := formatWith_returns_iff.mp hf
    exact (hcut t).eq_escape ((isPlain_iff_shares args _).mpr ⟨hrequired, hquiet⟩) args

/-- Percent signs next to each other, in front of a digit and in front of a letter, within limits that
just suffice; and a template that goes on behind a NUL. -/
theorem formatWith_escape_adjacent :
    let tight : Options := { policy := .abort, maxOutput := 5, maxDirective := 1 }
    escape (Utf8.encode "%%5%d") = Utf8.encode "%%%%5%%d" ∧
    ((Session.start {}).formatWith tight (Utf8.encode "%%%%5%%d") []).1 =
      .ok ⟨Utf8.encode "%%5%d", []⟩ ∧
    requiredArguments (Utf8.encode "%%%%5%%d") = [] ∧
    ((Session.start {}).formatWith tight (Utf8.encode "a%%%%b\x00%d") []).1 =
      .ok ⟨Utf8.encode "a%%b", []⟩ ∧
    terminated (Utf8.encode "a%%%%b\x00%d") = escape (Utf8.encode "a%%b") := by
  intro tight
  have hescape : escape (Utf8.encode "%%5%d") = Utf8.encode "%%%%5%%d" := by decide +kernel
  have hf : ((Session.start {}).formatWith tight (Utf8.encode "a%%%%b\x00%d") []).1 =
      .ok ⟨Utf8.encode "a%%b", []⟩ :=
    formatWith_returns_iff.mpr
      ⟨⟨by decide +kernel, by decide +kernel⟩, by decide +kernel, fun _ => rfl⟩
  obtain ⟨hforward, hback⟩ := formatWith_escape (.start {}) tight []
  obtain ⟨hbytes, hrequired⟩ :=
    hforward (Utf8.encode "%%5%d") (by decide +kernel) (by decide +kernel) (by decide)
  rw [hescape] at hbytes hrequired
  exact ⟨hescape, hbytes, hrequired, hf, hback _ _ (by decide +kernel) hf rfl⟩

end PercentFormat
