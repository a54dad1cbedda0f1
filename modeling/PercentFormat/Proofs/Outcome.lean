import PercentFormat.Proofs.Step

/-! What a whole formatting call returns and leaves behind, said without its loop.
Everything is read off the course of the call: what it told, what it wrote, and what refused it. -/

namespace PercentFormat

/-- Counts a diagnostic, and writes its marker if that is asked for. -/
def Session.tell (emits : Bool) (p : Session) (d : Diagnostic) : Session :=
  if emits then (p.record d.category).emit d.marker else p.record d.category

/-- How far the limits let a call go that no diagnostic ends. -/
structure Course where
  /-- The diagnostics that are raised, in order. -/
  told : List Diagnostic
  written : Bytes
  /-- The limit that is crossed, if one is. -/
  refusal : Option FormatError
  deriving DecidableEq, Repr

/-- The course of a call through segments, when `room` more bytes can be written. -/
def course (o : Options) (room : Nat) (args : List Argument) : List Segment → Course
  | [] => ⟨[], [], none⟩
  | s :: segs =>
    match s.tooLong? o.maxDirective with
    | some offset => ⟨[], [], some (.directiveTooLong offset o.maxDirective)⟩
    | none =>
      let share := s.share args.head?
      if share.fragment.length ≤ room then
        let later := course o (room - share.fragment.length) (s.left args) segs
        ⟨share.diagnostics ++ later.told, share.fragment ++ later.written, later.refusal⟩
      else ⟨share.diagnostics, [], some (.outputTooLarge o.maxOutput)⟩

/-- What a call returns after its course. -/
def Course.result (c : Course) : Except FormatError Formatted :=
  match c.refusal with
  | some error => .error error
  | none => .ok ⟨c.written, c.told⟩

/-- The diagnostics that a call raises before a limit ends it. -/
def recorded (o : Options) (template : Bytes) (args : List Argument) : List Diagnostic :=
  (course o o.maxOutput args (segments template)).told

namespace Run

/-- What a call returns, and the session that it leaves behind. -/
def conclude : Except Failure Run → Except FormatError Formatted × Session
  | .ok r => (.ok ⟨r.out.toList, r.diagnostics.toList⟩, r.session)
  | .error f => (.error f.error, f.session)

/-- What is left of a run of segments after a course. -/
def afterCourse (o : Options) (r : Run) (c : Course) : Except FormatError Formatted × Session :=
  (match c.refusal with
    | some error => .error error
    | none => .ok ⟨r.out.toList ++ c.written, r.diagnostics.toList ++ c.told⟩,
  c.told.foldl (Session.tell o.emits) r.session)

private theorem foldlM_raise_proceed {o : Options} (hp : o.policy = .proceed) (r : Run)
    (ds : List Diagnostic) :
    ds.foldlM (raise o) r = .ok { r with
      diagnostics := r.diagnostics ++ ds.toArray
      session := ds.foldl (Session.tell o.emits) r.session } := by
  induction ds generalizing r with
  | nil => simp [pure, Except.pure]
  | cons d ds ih =>
    rw [List.foldlM_cons]
    have hd : r.raise o d = .ok { r with
        diagnostics := r.diagnostics.push d
        session := r.session.tell o.emits d } := by
      simp only [raise, hp, Session.tell]
    rw [hd]
    refine (ih _).trans ?_
    simp [List.foldl_cons]

private theorem foldlM_raise_abort {o : Options} (hp : o.policy = .abort) (r : Run) (d : Diagnostic)
    (ds : List Diagnostic) :
    (d :: ds).foldlM (raise o) r =
      .error ⟨.aborted d, (r.session.tell o.emits d).recordAbort⟩ := by
  rw [List.foldlM_cons]
  simp only [raise, hp, Session.tell]
  rfl

private theorem afterCourse_nil (o : Options) (r : Run) :
    r.afterCourse o ⟨[], [], none⟩ = conclude (.ok r) := by
  simp [afterCourse, conclude]

/-- A run of segments under the policy that goes on takes its course. -/
theorem conclude_proceed {o : Options} (hp : o.policy = .proceed) (segs : List Segment) (r : Run)
    (hl : r.out.limit = o.maxOutput) :
    conclude (segs.foldlM (step o) r) = r.afterCourse o (course o r.out.remaining r.args segs) := by
  induction segs generalizing r with
  | nil => exact (afterCourse_nil o r).symm
  | cons s segs ih =>
    rw [List.foldlM_cons, step_eq, course]
    cases s.tooLong? o.maxDirective with
    | some offset => rfl
    | none =>
      simp only [foldlM_raise_proceed hp, ok_bind]
      by_cases hf : (s.share r.args.head?).fragment.length ≤ r.out.remaining
      · obtain ⟨out, hw, hol, ht, hr⟩ := write_of_le r.out _ hf
        rw [hw, ok_bind, ih _ (hol.trans hl), hr]
        simp [afterCourse, hf, ht]
      · rw [write_of_lt r.out _ (Nat.lt_of_not_le hf), error_bind]
        simp [afterCourse, conclude, hf, hl]

/-- Under the policy that stops, a run of segments ends with the first diagnostic of its course. -/
theorem conclude_abort {o : Options} (hp : o.policy = .abort) (segs : List Segment) (r : Run)
    (hl : r.out.limit = o.maxOutput) :
    conclude (segs.foldlM (step o) r) =
      match (course o r.out.remaining r.args segs).told with
      | d :: _ => (.error (.aborted d), (r.session.tell o.emits d).recordAbort)
      | [] => r.afterCourse o (course o r.out.remaining r.args segs) := by
  induction segs generalizing r with
  | nil => exact (afterCourse_nil o r).symm
  | cons s segs ih =>
    rw [List.foldlM_cons, step_eq, course]
    cases s.tooLong? o.maxDirective with
    | some offset => rfl
    | none =>
      cases hd : (s.share r.args.head?).diagnostics with
      | cons d ds =>
        simp only [foldlM_raise_abort hp, error_bind]
        by_cases hf : (s.share r.args.head?).fragment.length ≤ r.out.remaining <;>
          simp [conclude, hf, hd]
      | nil =>
        simp only [List.foldlM_nil, pure_bind]
        by_cases hf : (s.share r.args.head?).fragment.length ≤ r.out.remaining
        · obtain ⟨out, hw, hol, ht, hr⟩ := write_of_le r.out _ hf
          rw [hw, ok_bind, ih _ (hol.trans hl), hr]
          simp [afterCourse, hf, ht, hd]
        · rw [write_of_lt r.out _ (Nat.lt_of_not_le hf), error_bind]
          simp [afterCourse, conclude, hf, hl, hd]

end Run

@[simp] theorem Buffer.remaining_empty (limit : Nat) : (empty limit).remaining = limit := rfl

namespace Session

private theorem afterCourse_start (o : Options) (args : List Argument) (p : Session) (c : Course) :
    Run.afterCourse o ⟨args, .empty o.maxOutput, #[], p⟩ c =
      (c.result, c.told.foldl (tell o.emits) p) := by
  simp [Run.afterCourse, Course.result]

/-- Under the policy that goes on, a call takes its course. -/
theorem formatWith_proceed {o : Options} (hp : o.policy = .proceed) (p : Session) (t : Bytes)
    (args : List Argument) :
    p.formatWith o t args = ((course o o.maxOutput args (segments t)).result,
      (recorded o t args).foldl (tell o.emits) p) :=
  (Run.conclude_proceed hp (segments t) ⟨args, .empty o.maxOutput, #[], p⟩ rfl).trans
    (afterCourse_start ..)

/-- Under the policy that stops, a call ends with the first diagnostic of its course. -/
theorem formatWith_abort_of_cons {o : Options} (hp : o.policy = .abort) (p : Session) {t : Bytes}
    {args : List Argument} {d : Diagnostic} {later : List Diagnostic}
    (hr : recorded o t args = d :: later) :
    p.formatWith o t args = (.error (.aborted d), (p.tell o.emits d).recordAbort) := by
  refine (Run.conclude_abort hp (segments t) ⟨args, .empty o.maxOutput, #[], p⟩ rfl).trans ?_
  have hc : (course o o.maxOutput args (segments t)).told = d :: later := hr
  simp only [Buffer.remaining_empty, hc]

/-- Under the policy that stops, a call that has nothing to tell takes its course. -/
theorem formatWith_abort_of_nil {o : Options} (hp : o.policy = .abort) (p : Session) {t : Bytes}
    {args : List Argument} (hr : recorded o t args = []) :
    p.formatWith o t args = ((course o o.maxOutput args (segments t)).result, p) := by
  refine (Run.conclude_abort hp (segments t) ⟨args, .empty o.maxOutput, #[], p⟩ rfl).trans ?_
  have hc : (course o o.maxOutput args (segments t)).told = [] := hr
  simp only [afterCourse_start, Buffer.remaining_empty, hc, List.foldl_nil]

end Session

end PercentFormat
