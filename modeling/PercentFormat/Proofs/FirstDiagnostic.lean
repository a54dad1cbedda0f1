import PercentFormat.Proofs.Rendering

/-! The two policies compared: stopping at the first diagnostic is going on, cut at that place. -/

namespace PercentFormat

section
variable {o : Options} {room : Nat} {args : List Argument} {segs : List Segment}

private theorem course_withPolicy (policy : Policy) :
    course { o with policy } room args segs = course o room args segs := by
  induction segs generalizing room args with
  | nil => rfl
  | cons s segs ih => simp only [course, ih]

private theorem refusal_ne_aborted (d : Diagnostic) :
    (course o room args segs).refusal ≠ some (.aborted d) := by
  induction segs generalizing room args with
  | nil => simp [course]
  | cons s segs ih =>
    rw [course]
    cases s.tooLong? o.maxDirective with
    | some offset => simp
    | none =>
      by_cases hf : (s.share args.head?).fragment.length ≤ room
      · simp only [hf, if_true]
        exact ih
      · simp [hf]

end

/-- The diagnostics that a call raises under the policy that goes on are what it counts and emits,
the beginning of what its template has to tell, and what it returns if it returns. When there are
none, the policies do not differ; otherwise the call that stops ends with the first of them, also
where the call that goes on meets a limit later. -/
theorem formatWith_abort_eq_first (p : Session) (o : Options) (t : Bytes) (args : List Argument) :
    let going := p.formatWith { o with policy := .proceed } t args
    let stopping := p.formatWith { o with policy := .abort } t args
    let told := recorded o t args
    (going.2 = told.foldl (Session.tell o.emits) p ∧ told <+: (rendering t args).diagnostics ∧
      ∀ f, going.1 = .ok f → f.diagnostics = told) ∧
    (told = [] → stopping.1 = going.1) ∧
    (∀ d later, told = d :: later → stopping.1 = .error (.aborted d)) ∧
    (∀ f, stopping.1 = .ok f → f.diagnostics = []) ∧
    ∀ d, going.1 ≠ .error (.aborted d) := by
  intro going stopping told
  let c := course o o.maxOutput args (segments t)
  have same (policy : Policy) : course { o with policy } o.maxOutput args (segments t) = c :=
    course_withPolicy policy
  have hg : going = (c.result, told.foldl (Session.tell o.emits) p) := by
    refine (Session.formatWith_proceed rfl p t args).trans ?_
    simp only [recorded, same]
    rfl
  have hnil (h : told = []) : stopping = (c.result, p) := by
    refine (Session.formatWith_abort_of_nil rfl p ?_).trans ?_
    · exact (congrArg Course.told (same .abort)).trans h
    · simp only [same]
  have hcons {d : Diagnostic} {later : List Diagnostic} (h : told = d :: later) :
      stopping.1 = .error (.aborted d) := by
    have hr : recorded { o with policy := .abort } t args = d :: later :=
      (congrArg Course.told (same .abort)).trans h
    exact congrArg Prod.fst (Session.formatWith_abort_of_cons rfl p hr)
  have hret : ∀ f, c.result = .ok f → f.diagnostics = told := by
    intro f hf
    rw [(Course.result_eq_ok_iff.mp hf).2]
    rfl
  refine ⟨⟨congrArg Prod.snd hg, told_prefix .., ?_⟩, ?_, fun d later => hcons, ?_, ?_⟩
  · rw [hg]
    exact hret
  · intro hn
    rw [hnil hn, hg]
  · intro f hf
    cases hn : told with
    | cons d later => exact absurd ((hcons hn).symm.trans hf) (by simp)
    | nil =>
      rw [hnil hn] at hf
      exact (hret f hf).trans hn
  · intro d hd
    rw [hg] at hd
    cases hr : c.refusal with
    | none => simp [Course.result, hr] at hd
    | some e =>
      simp only [Course.result, hr, Except.error.injEq] at hd
      exact refusal_ne_aborted d (hr.trans (congrArg some hd))

/-- The same directive complains and then overflows the output: going on meets the limit, and
stopping does not get there. -/
theorem formatWith_abort_before_limit :
    ((Session.start {}).formatWith { policy := .proceed, maxOutput := 2 } (Utf8.encode "%-9d")
      [.int 5]).1 = .error (.outputTooLarge 2) ∧
    ((Session.start {}).formatWith { policy := .abort, maxOutput := 2 } (Utf8.encode "%-9d")
      [.int 5]).1 = .error (.aborted ⟨.malformedWidthDigit 0x2D, 0⟩) := by
  constructor
  · have hr : (course { maxOutput := 2 } 2 [.int 5] (segments (Utf8.encode "%-9d"))).refusal =
        some (.outputTooLarge 2) := by decide +kernel
    rw [Session.formatWith_proceed rfl]
    simp only [Course.result, hr]
  · exact (formatWith_abort_eq_first (.start {}) { maxOutput := 2 } (Utf8.encode "%-9d")
      [.int 5]).2.2.1 _ [] (by decide +kernel)

end PercentFormat
