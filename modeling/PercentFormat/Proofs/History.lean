import PercentFormat.Proofs.Telling

/-! What a session was asked before does not matter to what it answers. The policy that it remembers
is that of its environment, and neither the channel nor the counts are ever read. -/

namespace PercentFormat

/-- What was added to each count between two readings, in the fixed order. -/
def Counters.since (after before : Counters) : List UInt64 :=
  List.zipWith (· - ·) after.toList before.toList

private theorem Counters.Grew.since_eq {a b : Counters} {xs : List Diagnostic.Class} {n : Nat}
    (h : a.Grew b xs n) : b.since a =
      (xs.length :: xs.count .malformedWidth :: xs.count .unknownConversion ::
        xs.count .emptyDirective :: xs.count .missingArgument :: xs.count .argumentMismatch ::
        [n]).map UInt64.ofNat := by
  have h₁ := h.ofClass .malformedWidth
  have h₂ := h.ofClass .unknownConversion
  have h₃ := h.ofClass .emptyDirective
  have h₄ := h.ofClass .missingArgument
  have h₅ := h.ofClass .argumentMismatch
  simp only [Counters.ofClass] at h₁ h₂ h₃ h₄ h₅
  have back (x y : UInt64) : x + y - x = y := by rw [UInt64.add_comm, UInt64.add_sub_cancel]
  simp [since, toList, h.total, h₁, h₂, h₃, h₄, h₅, h.abortedCalls, back]

namespace Session
variable {env : Environment} {p : Session}

/-- The session stands in the environment, and the policy that it remembers comes from there. -/
structure KeepsTo (env : Environment) (p : Session) : Prop where
  environment : p.environment = env
  policy : p.policy = none ∨ p.policy = some env.policy

theorem keepsTo_start (env : Environment) : (start env).KeepsTo env := ⟨rfl, .inl rfl⟩

private theorem environment_emit (p : Session) (m : Marker) :
    (p.emit m).environment = p.environment := by
  unfold emit resolve deliver
  split <;> split <;> rfl

theorem environment_tell (emits : Bool) (p : Session) (d : Diagnostic) :
    (p.tell emits d).environment = p.environment := by
  cases emits with
  | false => rfl
  | true => exact environment_emit ..

private theorem environment_leave (p : Session) (emits : Bool) (ds : List Diagnostic)
    (aborted : Bool) : (p.leave emits ds aborted).environment = p.environment := by
  have h : (ds.foldl (tell emits) p).environment = p.environment := by
    induction ds generalizing p with
    | nil => rfl
    | cons d ds ih => exact (ih _).trans (environment_tell ..)
  cases aborted <;> exact h

/-- The same session with another policy in memory. -/
def remembering (p : Session) (policy : Option Policy) : Session := { p with policy }

private theorem policy_eq_of_remembering {q after : Session} {policy : Option Policy}
    (h : q = after.remembering policy) : q.policy = policy := by
  rw [h]
  rfl

private theorem resolve_remembering (p : Session) (policy : Option Policy) :
    (p.remembering policy).resolve = p.resolve.remembering policy := by
  obtain ⟨_, _, channel, _, _, _, _, _⟩ := p
  cases channel <;> rfl

private theorem deliver_remembering (p : Session) (line : Bytes) (policy : Option Policy) :
    (p.remembering policy).deliver line = (p.deliver line).remembering policy := by
  obtain ⟨_, _, channel, _, _, _, _, _⟩ := p
  cases channel with
  | target target => cases target <;> rfl
  | _ => rfl

private theorem emit_remembering (p : Session) (m : Marker) (policy : Option Policy) :
    (p.remembering policy).emit m = (p.emit m).remembering policy := by
  unfold emit
  rw [resolve_remembering, deliver_remembering]

private theorem tell_remembering (emits : Bool) (p : Session) (d : Diagnostic)
    (policy : Option Policy) : (p.remembering policy).tell emits d = (p.tell emits d).remembering policy := by
  cases emits with
  | false => rfl
  | true => exact emit_remembering (p.record d.category) d.marker policy

/-- The policy in memory is neither read nor changed by what a call leaves behind. -/
private theorem leave_remembering (p : Session) (emits : Bool) (ds : List Diagnostic)
    (aborted : Bool) (policy : Option Policy) :
    (p.remembering policy).leave emits ds aborted =
      (p.leave emits ds aborted).remembering policy := by
  have h : ds.foldl (tell emits) (p.remembering policy) =
      (ds.foldl (tell emits) p).remembering policy := by
    induction ds generalizing p with
    | nil => rfl
    | cons d ds ih => rw [List.foldl_cons, List.foldl_cons, tell_remembering, ih]
  cases aborted with
  | false => exact h
  | true => exact congrArg recordAbort h

private theorem formatWith_remembering (p : Session) (policy : Option Policy) (o : Options)
    (t : Bytes) (args : List Argument) :
    (p.remembering policy).formatWith o t args =
      ((p.formatWith o t args).1, (p.formatWith o t args).2.remembering policy) := by
  obtain ⟨result, ds, aborted, -, hf⟩ := formatWith_tells o t args
  rw [hf, hf, leave_remembering]

namespace KeepsTo

theorem readPolicy_eq (h : p.KeepsTo env) :
    p.readPolicy = (env.policy, p.remembering (some env.policy)) := by
  obtain ⟨rfl, hp⟩ := h
  unfold readPolicy
  rcases hp with hp | hp
  · rw [hp]
    rfl
  · rw [hp]
    refine congrArg (Prod.mk _) ?_
    rw [← hp]
    rfl

theorem emit (h : p.KeepsTo env) (m : Marker) : (p.emit m).KeepsTo env := by
  refine ⟨(environment_emit ..).trans h.environment, ?_⟩
  have hp : (p.emit m).policy = p.policy := policy_eq_of_remembering (emit_remembering p m p.policy)
  rw [hp]
  exact h.policy

theorem formatWith (h : p.KeepsTo env) (o : Options) (t : Bytes) (args : List Argument) :
    (p.formatWith o t args).2.KeepsTo env := by
  obtain ⟨result, ds, aborted, -, hf⟩ := formatWith_tells o t args
  rw [hf p]
  refine ⟨(environment_leave ..).trans h.environment, ?_⟩
  have hp : (p.leave o.emits ds aborted).policy = p.policy :=
    policy_eq_of_remembering (leave_remembering p o.emits ds aborted p.policy)
  rw [hp]
  exact h.policy

theorem readPolicy (h : p.KeepsTo env) : p.readPolicy.2.KeepsTo env := by
  rw [h.readPolicy_eq]
  exact ⟨h.environment, .inr rfl⟩

/-- Every request leaves the session in its environment, with a policy from there. -/
theorem step (h : p.KeepsTo env) (s : Step) : (p.step s).2.KeepsTo env := by
  cases s with
  | formatWith o t args => exact h.formatWith ..
  | format t args => exact h.readPolicy.formatWith ..
  | formatInto dst t args => exact h.readPolicy.formatWith ..
  | emit marker => exact h.emit marker
  | setSink broken => cases broken <;> exact ⟨h.environment, h.policy⟩
  | setTarget target => exact ⟨h.environment, h.policy⟩
  | policy => exact h.readPolicy
  | target => exact h
  | record category => exact ⟨h.environment, h.policy⟩
  | recordAbort => exact ⟨h.environment, h.policy⟩

/-- So does every session of a run, which carries out its requests one by one. -/
theorem run (h : p.KeepsTo env) {steps : List Step} {i : Nat} {s : Step} (hs : steps[i]? = some s) :
    ∃ before, (p :: (p.run steps).map Prod.snd)[i]? = some before ∧ before.KeepsTo env ∧
      (p.run steps)[i]? = some (before.step s) := by
  induction steps generalizing p i with
  | nil => simp at hs
  | cons x steps ih =>
    cases i with
    | zero =>
      obtain rfl : x = s := by simpa using hs
      exact ⟨p, rfl, h, rfl⟩
    | succ i => exact ih (h.step x) hs

theorem format_eq (h : p.KeepsTo env) (t : Bytes) (args : List Argument) :
    p.format t args = ((p.formatWith { policy := env.policy } t args).1,
      (p.formatWith { policy := env.policy } t args).2.remembering (some env.policy)) := by
  rw [Session.format_eq, h.readPolicy_eq]
  exact formatWith_remembering ..

end KeepsTo

/-- A request is answered and counted as it would be alone in a session that has just started,
whatever was asked before it. In particular the policy in force is the one of the environment,
remembered or not, and it does not matter where the channel leads. -/
theorem run_eq_alone (env : Environment) (steps : List Step) (i : Nat) (s : Step)
    (hs : steps[i]? = some s) :
    let fresh := start env
    let alone := fresh.step s
    let policy := match env.mode.bind Utf8.decode? with
      | some word => Policy.ofWord word
      | none => .proceed
    ∃ before after : Session,
      (fresh :: (fresh.run steps).map Prod.snd)[i]? = some before ∧
      (fresh.run steps)[i]? = some (alone.1, after) ∧
      after.counters.since before.counters = alone.2.counters.since fresh.counters ∧
      (∀ channel, ({ before with channel }.step s).1 = alone.1) ∧
      ∀ t args,
        let call := before.formatWith { policy, maxOutput := 65536, maxDirective := 1023 } t args
        before.format t args = (call.1, call.2.remembering (some policy)) ∧
        ∀ dst, before.formatInto dst t args =
          (call.1.bind (·.writeTo dst), call.2.remembering (some policy)) := by
  intro fresh alone policy
  have hfresh : fresh.KeepsTo env := keepsTo_start env
  have hpolicy : policy = env.policy := by
    unfold policy Environment.policy
    cases env.mode.bind Utf8.decode? with
    | none => rfl
    | some word => rw [Option.map_some, Option.getD_some]
  obtain ⟨before, hat, hbefore, hrun⟩ := hfresh.run hs
  obtain ⟨answer, classes, halike⟩ := step_alike env env.policy s
  -- two runs: whatever keeps to the environment answers and counts alike, the fresh session too
  have same {q : Session} (hq : q.KeepsTo env) := halike q hq.environment (by rw [hq.readPolicy_eq])
  obtain ⟨rfl, hgrew⟩ := same hfresh
  refine ⟨before, (before.step s).2, hat, ?_, ?_, ?_, ?_⟩
  · rw [hrun, ← (same hbefore).1]
  · rw [(same hbefore).2.since_eq, hgrew.since_eq]
  · intro channel
    have hredirected : { before with channel }.KeepsTo env := ⟨hbefore.environment, hbefore.policy⟩
    exact (same hredirected).1
  · intro t args call
    have hformat : before.format t args = (call.1, call.2.remembering (some policy)) := by
      simp only [call, hpolicy]
      exact hbefore.format_eq t args
    refine ⟨hformat, fun dst => ?_⟩
    rw [formatInto_eq, hformat]

/-- The channel was resolved, then broken, and the policy asked for, before the call that aborts. -/
theorem run_eq_alone_after_break :
    let env : Environment := ⟨some (Utf8.encode " Strict "), some (Utf8.encode "out")⟩
    let steps : List Step := [.formatWith {} (Utf8.encode "%d") [], .setSink true, .policy,
      .format (Utf8.encode "%q") []]
    ∃ before after : Session,
      (start env :: ((start env).run steps).map Prod.snd)[3]? = some before ∧
      ((start env).run steps)[3]? =
        some (.formatted (.error (.aborted ⟨.unknownConversion 0x71, 0⟩)), after) ∧
      after.counters.since before.counters = [1, 0, 1, 0, 0, 0, 1] := by
  intro env steps
  obtain ⟨before, after, hat, hrun, hcounts, -⟩ :=
    run_eq_alone env steps 3 (.format (Utf8.encode "%q") []) rfl
  have hpolicy : env.policy = .abort := by decide +kernel
  have hr : recorded { policy := .abort } (Utf8.encode "%q") [] = [⟨.unknownConversion 0x71, 0⟩] := by
    decide +kernel
  have halone : ((start env).step (.format (Utf8.encode "%q") [])).1 =
      .formatted (.error (.aborted ⟨.unknownConversion 0x71, 0⟩)) := by
    rw [step, (keepsTo_start env).format_eq, hpolicy, formatWith_abort_of_cons rfl _ hr,
      Prod.map_fst]
  refine ⟨before, after, hat, ?_, hcounts.trans (by decide +kernel)⟩
  rw [← halone]
  exact hrun

end Session

end PercentFormat
