import PercentFormat.Proofs.Rendering

/-! Where the limits of a call cut, and with which error. -/

namespace PercentFormat

/-- The segment at index `i` crosses a limit: its own code is too long, or the fragments up to and
including its own are. -/
def Crosses (o : Options) (room : Nat) (args : List Argument) (segs : List Segment) (i : Nat) : Prop :=
  (∃ s ∈ segs[i]?, o.maxDirective < s.codeLength) ∨
    room < (((shares args segs).take (i + 1)).flatMap Share.fragment).length

instance (o : Options) (room : Nat) (args : List Argument) (segs : List Segment) (i : Nat) :
    Decidable (Crosses o room args segs i) :=
  inferInstanceAs (Decidable (_ ∨ _))

/-- The segment at index `i` is the first that crosses a limit. -/
structure FirstCrossing (o : Options) (room : Nat) (args : List Argument) (segs : List Segment)
    (i : Nat) : Prop where
  lt : i < segs.length
  crosses : Crosses o room args segs i
  before : ∀ j < i, ¬ Crosses o room args segs j

section
variable {o : Options} {room : Nat} {args : List Argument} {s : Segment} {segs : List Segment} {i : Nat}

private theorem crosses_zero : Crosses o room args (s :: segs) 0 ↔
    o.maxDirective < s.codeLength ∨ room < (s.share args.head?).fragment.length := by
  simp [Crosses, shares_cons]

private theorem crosses_succ (hf : (s.share args.head?).fragment.length ≤ room) :
    Crosses o room args (s :: segs) (i + 1) ↔
      Crosses o (room - (s.share args.head?).fragment.length) (s.left args) segs i := by
  unfold Crosses
  rw [shares_cons, List.take_succ_cons, List.flatMap_cons, List.length_append,
    List.getElem?_cons_succ]
  refine or_congr_right ?_
  omega

theorem fits_of_not_crosses (h : ∀ i < segs.length, ¬ Crosses o room args segs i) :
    Fits o room args segs := by
  constructor
  · intro s hs
    obtain ⟨i, hi⟩ := List.mem_iff_getElem?.mp hs
    have hc := h i (List.getElem?_eq_some_iff.mp hi).1
    exact Nat.le_of_not_lt fun hlt => hc (.inl ⟨s, hi, hlt⟩)
  · cases segs with
    | nil => exact Nat.zero_le room
    | cons s segs =>
      have hc := h segs.length (Nat.lt_succ_self _)
      have hn : (shares args (s :: segs)).length = segs.length + 1 := by simp [shares]
      rw [Crosses, not_or, List.take_of_length_le (Nat.le_of_eq hn)] at hc
      exact Nat.le_of_not_lt hc.2

/-- The first segment that crosses a limit decides the error. -/
theorem refusal_of_firstCrossing (h : FirstCrossing o room args segs i) (hs : segs[i]? = some s) :
    (course o room args segs).refusal = some
      (match s.tooLong? o.maxDirective with
        | some offset => .directiveTooLong offset o.maxDirective
        | none => .outputTooLarge o.maxOutput) := by
  induction segs generalizing room args i with
  | nil => exact absurd h.lt (Nat.not_lt_zero i)
  | cons x segs ih =>
    rw [course]
    cases i with
    | zero =>
      obtain rfl : x = s := by simpa using hs
      cases hx : x.tooLong? o.maxDirective with
      | some offset => rfl
      | none =>
        -- the code is short enough, so it is the output that has become too long
        have hc := crosses_zero.mp h.crosses
        have hl := Segment.tooLong?_eq_none_iff.mp hx
        have hf : ¬ (x.share args.head?).fragment.length ≤ room := by omega
        simp only [hf, if_false]
    | succ i =>
      have hz := h.before 0 (Nat.succ_pos i)
      rw [crosses_zero, not_or, Nat.not_lt, Nat.not_lt] at hz
      obtain ⟨hl, hf⟩ := hz
      rw [Segment.tooLong?_eq_none_iff.mpr hl]
      simp only [hf, if_true]
      apply ih (i := i) _ (by simpa using hs)
      refine ⟨Nat.lt_of_succ_lt_succ h.lt, (crosses_succ hf).mp h.crosses, ?_⟩
      intro j hj
      rw [← crosses_succ hf]
      exact h.before (j + 1) (Nat.succ_lt_succ hj)

theorem shares_take (n : Nat) : shares args (segs.take n) = (shares args segs).take n := by
  induction segs generalizing args n with
  | nil => simp [shares_nil]
  | cons s segs ih =>
    cases n with
    | zero => rfl
    | succ n => rw [List.take_succ_cons, shares_cons, shares_cons, List.take_succ_cons, ih]

theorem Fits.take (h : Fits o room args segs) (n : Nat) : Fits o room args (segs.take n) := by
  refine ⟨fun s hs => h.codes s (List.mem_of_mem_take hs), Nat.le_trans ?_ h.total⟩
  have hsplit := congrArg (List.length ∘ List.flatMap Share.fragment)
    (List.take_append_drop n (shares args segs))
  simp only [Function.comp_apply, List.flatMap_append, List.length_append] at hsplit
  rw [shares_take]
  omega

theorem foldlM_step_of_fits (hp : o.policy = .proceed) (h : Fits o o.maxOutput args segs) (p : Session) :
    ∃ r, segs.foldlM (Run.step o) ⟨args, .empty o.maxOutput, #[], p⟩ = .ok r ∧
      r.out.toList = (shares args segs).flatMap Share.fragment := by
  have hrun := Run.conclude_proceed hp segs ⟨args, .empty o.maxOutput, #[], p⟩ rfl
  rw [Buffer.remaining_empty, course_of_fits h] at hrun
  cases he : segs.foldlM (Run.step o) ⟨args, .empty o.maxOutput, #[], p⟩ with
  | error f => simp [he, Run.conclude, Run.afterCourse] at hrun
  | ok r => exact ⟨r, rfl, by simp_all [Run.conclude, Run.afterCourse]⟩

end

/-- Limits only cut. Under large enough limits the loop has rendered one fragment for each segment
behind it, and a call returns the rendering; so does every call of which no segment crosses a limit.
Otherwise the first segment that does so decides the error, and a code that is too long is found
before an output that is. -/
theorem formatWith_limits (p : Session) (o : Options) (t : Bytes) (args : List Argument)
    (hp : o.policy = .proceed) :
    (∃ enough, ∀ wide : Options, wide.policy = .proceed →
      enough ≤ wide.maxOutput → enough ≤ wide.maxDirective →
      (p.formatWith wide t args).1 = .ok (rendering t args) ∧
      ∀ n, ∃ r, ((segments t).take n).foldlM (Run.step wide)
          ⟨args, .empty wide.maxOutput, #[], p⟩ = .ok r ∧
        r.out.toList = ((shares args (segments t)).take n).flatMap Share.fragment) ∧
    ((∀ i < (segments t).length, ¬ Crosses o o.maxOutput args (segments t) i) →
      (p.formatWith o t args).1 = .ok (rendering t args)) ∧
    (∀ i, FirstCrossing o o.maxOutput args (segments t) i →
      (∀ offset code, (segments t)[i]? = some (.directive offset code) →
        o.maxDirective < code.length →
        (p.formatWith o t args).1 = .error (.directiveTooLong offset o.maxDirective)) ∧
      (∀ s, (segments t)[i]? = some s → s.codeLength ≤ o.maxDirective →
        (p.formatWith o t args).1 = .error (.outputTooLarge o.maxOutput))) ∧
    (∀ f, (p.formatWith o t args).1 = .ok f → f.bytes.length ≤ o.maxOutput) ∧
    (∀ f (wider : Options), wider.policy = .proceed →
      o.maxOutput ≤ wider.maxOutput → o.maxDirective ≤ wider.maxDirective →
      (p.formatWith o t args).1 = .ok f → (p.formatWith wider t args).1 = .ok f) := by
  refine ⟨?_, ?_, ?_, ?_, ?_⟩
  · obtain ⟨enough, hfits⟩ := exists_enough t args
    refine ⟨enough, fun wide hw ho hd => ?_⟩
    replace hfits := hfits wide ho hd
    refine ⟨(formatWith_eq_ok_iff hw).mpr ⟨hfits, rfl⟩, fun n => ?_⟩
    rw [← shares_take]
    exact foldlM_step_of_fits hw (hfits.take n) p
  · intro h
    exact (formatWith_eq_ok_iff hp).mpr ⟨fits_of_not_crosses h, rfl⟩
  · intro i h
    rw [Session.formatWith_proceed hp]
    constructor
    · intro offset code hs hc
      simp only [Course.result, refusal_of_firstCrossing h hs, Segment.tooLong?, if_pos hc]
    · intro s hs hc
      simp only [Course.result, refusal_of_firstCrossing h hs, Segment.tooLong?_eq_none_iff.mpr hc]
  · intro f hf
    obtain ⟨hfits, rfl⟩ := (formatWith_eq_ok_iff hp).mp hf
    exact hfits.total
  · intro f wider hw ho hd hf
    obtain ⟨hfits, rfl⟩ := (formatWith_eq_ok_iff hp).mp hf
    refine (formatWith_eq_ok_iff hw).mpr ⟨⟨?_, Nat.le_trans hfits.total ho⟩, rfl⟩
    intro s hs
    exact Nat.le_trans (hfits.codes s hs) hd

/-- The second segment is the first that crosses a limit, once because of the output and once because
of its code. -/
theorem formatWith_limits_at_directive :
    ((Session.start {}).formatWith { maxOutput := 4, maxDirective := 2 }
      (Utf8.encode "ab%3d%007d") [.int 5, .int 6]).1 = .error (.outputTooLarge 4) ∧
    ((Session.start {}).formatWith { maxOutput := 4, maxDirective := 1 }
      (Utf8.encode "ab%3d%007d") [.int 5, .int 6]).1 = .error (.directiveTooLong 2 1) := by
  constructor
  · exact ((formatWith_limits _ _ _ _ rfl).2.2.1 1
      ⟨by decide +kernel, by decide +kernel, by decide +kernel⟩).2 (.directive 2 [0x33, 0x64])
      (by decide +kernel) (by decide +kernel)
  · exact ((formatWith_limits _ _ _ _ rfl).2.2.1 1
      ⟨by decide +kernel, by decide +kernel, by decide +kernel⟩).1 2 [0x33, 0x64]
      (by decide +kernel) (by decide +kernel)

end PercentFormat
