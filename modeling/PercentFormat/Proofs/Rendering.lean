import PercentFormat.Proofs.Outcome

/-! The rendering of a template: its shares, one behind the other, each with the argument in its
place. A call under the policy that goes on returns it whenever the limits leave room. -/

namespace PercentFormat

/-- What a call returns that neither a limit nor a diagnostic ends. -/
def rendering (template : Bytes) (args : List Argument) : Formatted :=
  ⟨(shares args (segments template)).flatMap Share.fragment,
    (shares args (segments template)).flatMap Share.diagnostics⟩

/-- No limit is crossed: every code is short enough, and the fragments fit together. -/
structure Fits (o : Options) (room : Nat) (args : List Argument) (segs : List Segment) : Prop where
  codes : ∀ s ∈ segs, s.codeLength ≤ o.maxDirective
  total : ((shares args segs).flatMap Share.fragment).length ≤ room

private theorem fits_cons {o : Options} {room : Nat} {args : List Argument} {s : Segment}
    {segs : List Segment} :
    Fits o room args (s :: segs) ↔ s.codeLength ≤ o.maxDirective ∧
      (s.share args.head?).fragment.length ≤ room ∧
      Fits o (room - (s.share args.head?).fragment.length) (s.left args) segs := by
  constructor
  · rintro ⟨hc, ht⟩
    rw [shares_cons, List.flatMap_cons, List.length_append] at ht
    exact ⟨hc s (by simp), by omega, fun x hx => hc x (by simp [hx]), by omega⟩
  · rintro ⟨hs, hf, hc, ht⟩
    refine ⟨by simpa using ⟨hs, hc⟩, ?_⟩
    rw [shares_cons, List.flatMap_cons, List.length_append]
    omega

/-- A call that crosses no limit goes through all of its segments. -/
theorem course_of_fits {o : Options} {room : Nat} {args : List Argument} {segs : List Segment}
    (h : Fits o room args segs) :
    course o room args segs = ⟨(shares args segs).flatMap Share.diagnostics,
      (shares args segs).flatMap Share.fragment, none⟩ := by
  induction segs generalizing room args with
  | nil => rfl
  | cons s segs ih =>
    obtain ⟨hs, hf, hr⟩ := fits_cons.mp h
    rw [course, Segment.tooLong?_eq_none_iff.mpr hs, shares_cons]
    simp only [hf, if_true, ih hr, List.flatMap_cons]

/-- Only a crossed limit refuses a call. -/
theorem refusal_eq_none_iff {o : Options} {room : Nat} {args : List Argument} {segs : List Segment} :
    (course o room args segs).refusal = none ↔ Fits o room args segs := by
  refine ⟨fun h => ?_, fun h => by rw [course_of_fits h]⟩
  induction segs generalizing room args with
  | nil => exact ⟨by simp, Nat.zero_le _⟩
  | cons s segs ih =>
    rw [course] at h
    cases hs : s.tooLong? o.maxDirective with
    | some offset => simp [hs] at h
    | none =>
      simp only [hs] at h
      by_cases hf : (s.share args.head?).fragment.length ≤ room
      · rw [if_pos hf] at h
        exact fits_cons.mpr ⟨Segment.tooLong?_eq_none_iff.mp hs, hf, ih h⟩
      · simp [hf] at h

/-- What a call tells is the beginning of what its segments have to tell. -/
theorem told_prefix (o : Options) (room : Nat) (args : List Argument) (segs : List Segment) :
    (course o room args segs).told <+: (shares args segs).flatMap Share.diagnostics := by
  induction segs generalizing room args with
  | nil => exact List.prefix_rfl
  | cons s segs ih =>
    rw [course, shares_cons, List.flatMap_cons]
    cases s.tooLong? o.maxDirective with
    | some offset => exact List.nil_prefix
    | none =>
      by_cases hf : (s.share args.head?).fragment.length ≤ room
      · simp only [hf, if_true]
        exact (List.prefix_append_right_inj _).mpr (ih ..)
      · simp only [hf, if_false]
        exact List.prefix_append ..

theorem Course.result_eq_ok_iff {c : Course} {f : Formatted} :
    c.result = .ok f ↔ c.refusal = none ∧ f = ⟨c.written, c.told⟩ := by
  unfold result
  cases c.refusal with
  | some error => simp
  | none => simp [eq_comm]

/-- A call under the policy that goes on can return nothing but the rendering, and does so exactly
when no limit is crossed. -/
theorem formatWith_eq_ok_iff {o : Options} (hp : o.policy = .proceed) {p : Session} {t : Bytes}
    {args : List Argument} {f : Formatted} :
    (p.formatWith o t args).1 = .ok f ↔
      Fits o o.maxOutput args (segments t) ∧ f = rendering t args := by
  rw [Session.formatWith_proceed hp, Course.result_eq_ok_iff, refusal_eq_none_iff]
  refine and_congr_right fun hfits => ?_
  rw [course_of_fits hfits]
  rfl

/-- Where there is nothing to tell, the policy does not matter. -/
theorem formatWith_of_quiet {o : Options} {t : Bytes} {args : List Argument}
    (hf : Fits o o.maxOutput args (segments t)) (hq : (rendering t args).diagnostics = [])
    (p : Session) : (p.formatWith o t args).1 = .ok (rendering t args) := by
  cases hp : o.policy with
  | proceed => exact (formatWith_eq_ok_iff hp).mpr ⟨hf, rfl⟩
  | abort =>
    have hr : recorded o t args = [] := by
      rw [recorded, course_of_fits hf]
      exact hq
    rw [Session.formatWith_abort_of_nil hp p hr, course_of_fits hf]
    rfl

/-- Under either policy a call that returns has crossed no limit and returns the rendering; under the
one that stops, there was nothing to tell. -/
theorem formatWith_returns_iff {o : Options} {p : Session} {t : Bytes} {args : List Argument}
    {f : Formatted} :
    (p.formatWith o t args).1 = .ok f ↔ Fits o o.maxOutput args (segments t) ∧
      f = rendering t args ∧ (o.policy = .abort → f.diagnostics = []) := by
  cases hp : o.policy with
  | proceed => simp [formatWith_eq_ok_iff hp]
  | abort =>
    constructor
    · intro h
      cases hr : recorded o t args with
      | cons d later =>
        rw [Session.formatWith_abort_of_cons hp p hr] at h
        cases h
      | nil =>
        rw [Session.formatWith_abort_of_nil hp p hr] at h
        obtain ⟨hn, rfl⟩ := Course.result_eq_ok_iff.mp h
        have hfits := refusal_eq_none_iff.mp hn
        exact ⟨hfits, by rw [course_of_fits hfits]; rfl, fun _ => hr⟩
    · rintro ⟨hfits, rfl, hq⟩
      exact formatWith_of_quiet hfits (hq rfl) p

/-- There are limits that a template does not cross, nor do larger ones. -/
theorem exists_enough (t : Bytes) (args : List Argument) :
    ∃ enough, ∀ wide : Options, enough ≤ wide.maxOutput → enough ≤ wide.maxDirective →
      Fits wide wide.maxOutput args (segments t) := by
  let longest := ((segments t).map Segment.codeLength).max?.getD 0
  refine ⟨longest + (rendering t args).bytes.length, fun wide ho hd => ⟨fun s hs => ?_, ?_⟩⟩
  · have hl : s.codeLength ≤ longest := List.le_max?_getD_of_mem (List.mem_map_of_mem hs)
    omega
  · exact Nat.le_trans (Nat.le_add_left ..) ho

/-- A call under the policy that goes on returns the rendering of its template: for each segment one
fragment and one list of diagnostics, in order, where the argument of a conversion is found by
counting the conversions in front of it. -/
theorem formatWith_eq_rendering (p : Session) (o : Options) (t : Bytes) (args : List Argument)
    (hp : o.policy = .proceed)
    (hc : ∀ s ∈ segments t, s.codeLength ≤ o.maxDirective)
    (ht : ((shares args (segments t)).flatMap Share.fragment).length ≤ o.maxOutput) :
    (p.formatWith o t args).1 = .ok (rendering t args) :=
  (formatWith_eq_ok_iff hp).mpr ⟨⟨hc, ht⟩, rfl⟩

/-- Each conversion once with its own type, and then each with another one: a mismatch uses up its
argument and an unknown letter does not. A negative word has all of its digits, a zero in front of a
width is a digit like others, a text ends at its NUL, and every complaint stands at the percent sign
of its directive. Both limits are met exactly. -/
theorem formatWith_mixed_template :
    ((Session.start {}).formatWith { maxOutput := 24, maxDirective := 3 }
        (Utf8.encode "<%c%12x%05d%4s%-q%%%3s%c%d%s%")
        [.char 0x41, .int (-1), .int (-7), .text [0x6E, 0xC3, 0xA9, 0x00, 0x78],
          .char 0x42, .int 7, .text [0x7A]]).1 =
      .ok ⟨Utf8.encode "<A    ffffffff   -7 né%",
        [⟨.malformedWidthDigit 0x2D, 14⟩, ⟨.unknownConversion 0x71, 14⟩,
          ⟨.argumentMismatch .text .char, 19⟩, ⟨.argumentMismatch .char .int, 22⟩,
          ⟨.argumentMismatch .int .text, 24⟩, ⟨.missingArgument .text, 26⟩,
          ⟨.emptyDirective, 28⟩]⟩ :=
  (formatWith_eq_rendering _ _ _ _ rfl (by decide +kernel) (by decide +kernel)).trans
    (congrArg Except.ok (by decide +kernel))

end PercentFormat
