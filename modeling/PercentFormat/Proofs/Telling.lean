import PercentFormat.Format
import PercentFormat.Proofs.Rendering

/-! Three records of one event: the diagnostics that a call returns, the markers that it writes and
the counts that it raises. -/

namespace PercentFormat

namespace Counters

def ofClass (c : Counters) : Diagnostic.Class → UInt64
  | .malformedWidth => c.malformedWidth
  | .unknownConversion => c.unknownConversion
  | .emptyDirective => c.emptyDirective
  | .missingArgument => c.missingArgument
  | .argumentMismatch => c.argumentMismatch

/-- Between two readings, diagnostics of the classes were counted, and so many aborted calls. -/
structure Grew (before after : Counters) (classes : List Diagnostic.Class) (aborts : Nat) :
    Prop where
  total : after.total = before.total + UInt64.ofNat classes.length
  ofClass : ∀ c, after.ofClass c = before.ofClass c + UInt64.ofNat (classes.count c)
  abortedCalls : after.abortedCalls = before.abortedCalls + UInt64.ofNat aborts

namespace Grew

theorem refl (c : Counters) : c.Grew c [] 0 where
  total := by simp
  ofClass := by simp
  abortedCalls := by simp

theorem trans {a b c : Counters} {xs ys : List Diagnostic.Class} {m n : Nat} (h : a.Grew b xs m)
    (h' : b.Grew c ys n) : a.Grew c (xs ++ ys) (m + n) where
  total := by rw [h'.total, h.total, List.length_append, UInt64.ofNat_add, UInt64.add_assoc]
  ofClass k := by rw [h'.ofClass, h.ofClass, List.count_append, UInt64.ofNat_add, UInt64.add_assoc]
  abortedCalls := by rw [h'.abortedCalls, h.abortedCalls, UInt64.ofNat_add, UInt64.add_assoc]

theorem record (c : Counters) (k : Diagnostic.Class) : c.Grew (c.record k) [k] 0 where
  total := by cases k <;> rfl
  ofClass j := by cases k <;> cases j <;> simp [Counters.record, Counters.ofClass]
  abortedCalls := by cases k <;> simp [Counters.record]

theorem recordAbort (c : Counters) : c.Grew c.recordAbort [] 1 where
  total := by simp [Counters.recordAbort]
  ofClass k := by cases k <;> simp [Counters.recordAbort, Counters.ofClass]
  abortedCalls := rfl

end Grew

end Counters

namespace Session

theorem counters_emit (p : Session) (m : Marker) : (p.emit m).counters = p.counters := by
  unfold emit resolve deliver
  split <;> split <;> rfl

theorem counters_tell (emits : Bool) (p : Session) (d : Diagnostic) :
    (p.tell emits d).counters = p.counters.record d.category := by
  cases emits with
  | false => rfl
  | true => exact counters_emit ..

/-- Where all values have one tag, choosing by a tag gives all of them or none. -/
theorem flatMap_filter_tag {α β : Type} [DecidableEq α] (f : β → Bytes) (tag key : α) (xs : List β) :
    ((xs.map (tag, ·)).filter (·.1 = key)).flatMap (fun x => f x.2) =
      if tag = key then xs.flatMap f else [] := by
  split
  · next h => rw [List.filter_eq_self.mpr (by simp [h]), List.flatMap_map]
  · next h => rw [List.filter_eq_nil_iff.mpr (by simp [h]), List.flatMap_nil]

/-- A session whose channel leads to a sink has heard of diagnostics, and of so many aborted calls. -/
structure Told (sink : Nat) (p after : Session) (emits : Bool) (ds : List Diagnostic) (aborts : Nat) :
    Prop where
  captured : after.captured.toList =
    p.captured.toList ++ if emits then ds.map fun d => (sink, d.marker.line) else []
  counters : p.counters.Grew after.counters (ds.map Diagnostic.category) aborts
  others : after = { p with captured := after.captured, counters := after.counters }

namespace Told
variable {sink : Nat} {p q r : Session} {emits : Bool} {ds ds' : List Diagnostic} {m n : Nat}

theorem refl (sink : Nat) (p : Session) (emits : Bool) : Told sink p p emits [] 0 where
  captured := by simp
  counters := .refl _
  others := rfl

theorem trans (h : Told sink p q emits ds m) (h' : Told sink q r emits ds' n) :
    Told sink p r emits (ds ++ ds') (m + n) where
  captured := by
    rw [h'.captured, h.captured]
    cases emits <;> simp
  counters := by
    rw [List.map_append]
    exact h.counters.trans h'.counters
  others := by
    have h₁ := h.others
    have h₂ := h'.others
    rw [h₁] at h₂
    exact h₂

theorem tell (hs : p.channel = .sink sink) (emits : Bool) (d : Diagnostic) :
    Told sink p (p.tell emits d) emits [d] 0 where
  captured := by cases emits <;> simp [Session.tell, record, emit, resolve, deliver, hs]
  counters := by
    rw [counters_tell]
    exact .record ..
  others := by cases emits <;> simp [Session.tell, record, emit, resolve, deliver, hs]

theorem recordAbort (sink : Nat) (p : Session) (emits : Bool) : Told sink p p.recordAbort emits [] 1 where
  captured := by simp [Session.recordAbort]
  counters := .recordAbort _
  others := rfl

end Told

/-- What a call leaves behind that raised the diagnostics. -/
def leave (p : Session) (emits : Bool) (ds : List Diagnostic) (aborted : Bool) : Session :=
  let told := ds.foldl (tell emits) p
  if aborted then told.recordAbort else told

/-- The counts do not depend on where the markers went. -/
theorem grew_leave (p : Session) (emits : Bool) (ds : List Diagnostic) (aborted : Bool) :
    p.counters.Grew (p.leave emits ds aborted).counters (ds.map Diagnostic.category)
      aborted.toNat := by
  have h : p.counters.Grew (ds.foldl (tell emits) p).counters (ds.map Diagnostic.category) 0 := by
    induction ds generalizing p with
    | nil => exact .refl _
    | cons d ds ih =>
      have hd := Counters.Grew.record p.counters d.category
      rw [← counters_tell emits] at hd
      exact hd.trans (ih _)
  cases aborted with
  | false => exact h
  | true =>
    have ha := h.trans (.recordAbort _)
    rw [List.append_nil] at ha
    exact ha

end Session

/-- The error of a limit. -/
def FormatError.isLimit : FormatError → Bool
  | .outputTooLarge _ => true
  | .directiveTooLong _ _ => true
  | _ => false

private theorem isLimit_of_refusal {o : Options} {room : Nat} {args : List Argument}
    {segs : List Segment} {e : FormatError} (h : (course o room args segs).refusal = some e) :
    e.isLimit = true := by
  induction segs generalizing room args with
  | nil => simp [course] at h
  | cons s segs ih =>
    rw [course] at h
    cases hs : s.tooLong? o.maxDirective with
    | some offset =>
      simp only [hs, Option.some.injEq] at h
      exact h ▸ rfl
    | none =>
      simp only [hs] at h
      by_cases hf : (s.share args.head?).fragment.length ≤ room
      · rw [if_pos hf] at h
        exact ih h
      · simp only [hf, if_false, Option.some.injEq] at h
        exact h ▸ rfl

/-- How the result of a call goes with what it raised and with whether that ended it. -/
inductive Tells (o : Options) (t : Bytes) (args : List Argument) :
    Except FormatError Formatted → List Diagnostic → Bool → Prop
  | returned (f : Formatted) : Tells o t args (.ok f) f.diagnostics false
  | aborted (d : Diagnostic) : Tells o t args (.error (.aborted d)) [d] true
  | refused {e : FormatError} {ds : List Diagnostic} (he : e.isLimit = true)
      (hd : ds <+: (rendering t args).diagnostics) (ha : o.policy = .abort → ds = []) :
      Tells o t args (.error e) ds false

private theorem tells_result {o : Options} {t : Bytes} {args : List Argument}
    (ha : o.policy = .abort → recorded o t args = []) :
    Tells o t args (course o o.maxOutput args (segments t)).result (recorded o t args) false := by
  unfold Course.result
  cases hr : (course o o.maxOutput args (segments t)).refusal with
  | none => exact .returned _
  | some e =>
    have hd := told_prefix o o.maxOutput args (segments t)
    exact .refused (isLimit_of_refusal hr) hd ha

/-- The diagnostics that a call raises. The policy that stops lets it raise the first one only. -/
def raised (o : Options) (t : Bytes) (args : List Argument) : List Diagnostic :=
  match o.policy with
  | .proceed => recorded o t args
  | .abort => (recorded o t args).take 1

/-- A call does the same to every session: it raises its diagnostics there and gives its result. -/
theorem formatWith_raises (o : Options) (t : Bytes) (args : List Argument) :
    ∃ result aborted, Tells o t args result (raised o t args) aborted ∧
      ∀ p : Session, p.formatWith o t args = (result, p.leave o.emits (raised o t args) aborted) := by
  unfold raised
  cases hp : o.policy with
  | proceed =>
    refine ⟨_, false, tells_result (by simp [hp]), fun p => ?_⟩
    exact Session.formatWith_proceed hp p t args
  | abort =>
    cases hr : recorded o t args with
    | nil =>
      have h := tells_result (fun _ => hr)
      rw [hr] at h
      exact ⟨_, false, h, fun p => Session.formatWith_abort_of_nil hp p hr⟩
    | cons d later =>
      exact ⟨_, true, .aborted d, fun p => Session.formatWith_abort_of_cons hp p hr⟩

theorem formatWith_tells (o : Options) (t : Bytes) (args : List Argument) :
    ∃ result ds aborted, Tells o t args result ds aborted ∧
      ∀ p : Session, p.formatWith o t args = (result, p.leave o.emits ds aborted) := by
  obtain ⟨result, aborted, ht, hf⟩ := formatWith_raises o t args
  exact ⟨result, raised o t args, aborted, ht, hf⟩

namespace Session

def Answer.isAborted : Answer → Bool
  | .formatted (.error (.aborted _)) => true
  | .written (.error (.aborted _)) => true
  | _ => false

/-- A request counts as an aborted call when it says so or when its answer does. -/
def Step.aborts (s : Step) (a : Answer) : Bool := s = .recordAbort || a.isAborted

end Session

section
variable {o : Options} {t : Bytes} {args : List Argument} {result : Except FormatError Formatted}
  {ds : List Diagnostic} {aborted : Bool}

private theorem isAborted_of_isLimit {e : FormatError} (he : e.isLimit = true) :
    (Session.Answer.formatted (.error e)).isAborted = false ∧
      (Session.Answer.written (.error e)).isAborted = false := by
  cases e with
  | outputTooLarge limit => exact ⟨rfl, rfl⟩
  | directiveTooLong offset limit => exact ⟨rfl, rfl⟩
  | aborted d => cases he
  | bufferTooSmall needed available => cases he

private theorem Tells.isAborted_formatted (h : Tells o t args result ds aborted) :
    (Session.Answer.formatted result).isAborted = aborted := by
  cases h with
  | returned f => rfl
  | aborted d => rfl
  | refused he _ _ => exact (isAborted_of_isLimit he).1

private theorem Tells.isAborted_written (h : Tells o t args result ds aborted) (dst : Bytes) :
    (Session.Answer.written (result.bind (·.writeTo dst))).isAborted = aborted := by
  cases h with
  | aborted d => rfl
  | refused he _ _ => exact (isAborted_of_isLimit he).2
  | returned f =>
    -- a destination that is too small is an error, but not one that aborts
    show (Session.Answer.written (f.writeTo dst)).isAborted = false
    unfold Formatted.writeTo
    dsimp only
    split <;> rfl

end

namespace Session

private theorem counters_readPolicy (p : Session) : p.readPolicy.2.counters = p.counters := by
  unfold readPolicy
  split <;> rfl

theorem format_eq (p : Session) (t : Bytes) (args : List Argument) :
    p.format t args = p.readPolicy.2.formatWith { policy := p.readPolicy.1 } t args := rfl

theorem formatInto_eq (p : Session) (dst t : Bytes) (args : List Argument) :
    p.formatInto dst t args =
      ((p.format t args).1.bind (·.writeTo dst), (p.format t args).2) := rfl

/-- A request is answered and counted alike in all sessions with one environment and one policy. -/
theorem step_alike (env : Environment) (policy : Policy) (s : Step) :
    ∃ answer classes, ∀ p : Session, p.environment = env → p.readPolicy.1 = policy →
      (p.step s).1 = answer ∧
        p.counters.Grew (p.step s).2.counters classes (s.aborts answer).toNat := by
  cases s with
  | formatWith o t args =>
    obtain ⟨result, ds, aborted, ht, hf⟩ := formatWith_tells o t args
    refine ⟨.formatted result, ds.map Diagnostic.category, fun p _ _ => ?_⟩
    have ha : (Step.formatWith o t args).aborts (.formatted result) = aborted :=
      ht.isAborted_formatted
    rw [step, hf p, ha]
    exact ⟨rfl, grew_leave ..⟩
  | format t args =>
    obtain ⟨result, ds, aborted, ht, hf⟩ := formatWith_tells { policy } t args
    refine ⟨.formatted result, ds.map Diagnostic.category, fun p _ hp => ?_⟩
    have ha : (Step.format t args).aborts (.formatted result) = aborted := ht.isAborted_formatted
    rw [step, format_eq, hp, hf, ha, ← counters_readPolicy p]
    exact ⟨rfl, grew_leave ..⟩
  | formatInto dst t args =>
    obtain ⟨result, ds, aborted, ht, hf⟩ := formatWith_tells { policy } t args
    refine ⟨.written (result.bind (·.writeTo dst)), ds.map Diagnostic.category, fun p _ hp => ?_⟩
    have ha : (Step.formatInto dst t args).aborts (.written (result.bind (·.writeTo dst))) =
        aborted := ht.isAborted_written dst
    rw [step, formatInto_eq, format_eq, hp, hf, ha, ← counters_readPolicy p]
    exact ⟨rfl, grew_leave ..⟩
  | emit marker =>
    refine ⟨.none, [], fun p _ _ => ⟨rfl, ?_⟩⟩
    rw [step, counters_emit]
    exact .refl _
  | setSink broken => exact ⟨.none, [], fun p _ _ => ⟨rfl, by cases broken <;> exact .refl _⟩⟩
  | setTarget target => exact ⟨.none, [], fun p _ _ => ⟨rfl, .refl _⟩⟩
  | policy =>
    refine ⟨.policy policy, [], fun p _ hp => ⟨congrArg Answer.policy hp, ?_⟩⟩
    show p.counters.Grew p.readPolicy.2.counters [] 0
    rw [counters_readPolicy]
    exact .refl _
  | target => exact ⟨.target env.target, [], fun p he _ => ⟨by rw [step, he], .refl _⟩⟩
  | record category => exact ⟨.none, [category], fun p _ _ => ⟨rfl, .record ..⟩⟩
  | recordAbort => exact ⟨.none, [], fun p _ _ => ⟨rfl, .recordAbort _⟩⟩

end Session

end PercentFormat
