import PercentFormat.Proofs.History

/-! Where marker lines go. The channel is resolved at the first line or by the first choice, but a
line goes where the most recent choice before it leads, and before every choice to where the
environment does. -/

namespace PercentFormat

/-- Where a marker line can go. -/
inductive Destination where
  /-- What a sink keeps. Sinks have the numbers in which they were installed. -/
  | capture (sink : Nat)
  | stdout
  | stderr
  /-- The line is lost: the channel is off, or its sink is broken. -/
  | nowhere
  deriving DecidableEq, Repr

def Target.destination : Target → Destination
  | .stderr => .stderr
  | .stdout => .stdout
  | .off => .nowhere

/-- Where lines go before anything was chosen. -/
def Environment.destination (env : Environment) : Destination :=
  match env.channel.bind Utf8.decode? with
  | some word => (Target.ofWord word).destination
  | none => .stderr

/-- The lines that go to `d`, one behind the other. -/
def delivered (d : Destination) (lines : List (Destination × Marker)) : Bytes :=
  (lines.filter (·.1 = d)).flatMap (·.2.line)

theorem delivered_map (d place : Destination) (markers : List Marker) :
    delivered d (markers.map (place, ·)) =
      if place = d then markers.flatMap Marker.line else [] :=
  Session.flatMap_filter_tag Marker.line place d markers

namespace Session

/-- Whether a request chooses where the lines after it go. -/
def Step.chooses : Step → Bool
  | .setSink _ => true
  | .setTarget _ => true
  | _ => false

/-- Where a line goes that is raised behind the requests, of which the most recent stands first. -/
def destinationBehind (env : Environment) : List Step → Destination
  | [] => env.destination
  | .setSink true :: _ => .nowhere
  | .setSink false :: earlier => .capture (earlier.count (.setSink false))
  | .setTarget place :: _ => place.destination
  | _ :: earlier => destinationBehind env earlier

/-- Where a line goes that is raised behind the requests. -/
def destination (env : Environment) (earlier : List Step) : Destination :=
  destinationBehind env earlier.reverse

/-- The markers of a request, in the order in which they are raised. -/
def Step.markers (env : Environment) : Step → List Marker
  | .emit marker => [marker]
  | .formatWith o t args => if o.emits then (raised o t args).map Diagnostic.marker else []
  | .format t args => (raised { policy := env.policy } t args).map Diagnostic.marker
  | .formatInto _ t args => (raised { policy := env.policy } t args).map Diagnostic.marker
  | _ => []

/-- For each request its lines, each with the one place where it goes. -/
def routes (env : Environment) (steps : List Step) : List (List (Destination × Marker)) :=
  steps.mapIdx fun i s => (s.markers env).map (destination env (steps.take i), ·)

/-- What has arrived at a destination. Nothing is kept of what goes nowhere. -/
def arrived (p : Session) : Destination → Bytes
  | .capture sink => p.kept sink
  | .stdout => p.stdout.toList
  | .stderr => p.stderr.toList
  | .nowhere => []

end Session

/-- Where a channel leads in an environment. -/
def Channel.destination (env : Environment) : Channel → Destination
  | .unresolved => env.destination
  | .target place => place.destination
  | .sink number => .capture number
  | .brokenSink => .nowhere

theorem Environment.destination_target (env : Environment) :
    env.target.destination = env.destination := by
  unfold Environment.target Environment.destination
  cases env.channel.bind Utf8.decode? with
  | none => rfl
  | some word => rw [Option.map_some, Option.getD_some]

namespace Session

/-- Between two states of a session, the markers were written to its channel and nothing was
chosen. -/
structure Heard (env : Environment) (p after : Session) (markers : List Marker) : Prop where
  arrived : ∀ d, d ≠ .nowhere → after.arrived d =
    p.arrived d ++ if p.channel.destination env = d then markers.flatMap Marker.line else []
  destination : after.channel.destination env = p.channel.destination env
  unresolved : after.channel = .unresolved ↔ p.channel = .unresolved ∧ markers = []
  installed : after.installed = p.installed

namespace Heard
variable {env : Environment} {p q r : Session} {ms ns : List Marker}

theorem refl (env : Environment) (p : Session) : p.Heard env p [] where
  arrived := by simp
  destination := rfl
  unresolved := by simp
  installed := rfl

theorem trans (h : p.Heard env q ms) (h' : q.Heard env r ns) : p.Heard env r (ms ++ ns) where
  arrived d hd := by
    rw [h'.arrived d hd, h.arrived d hd, h.destination]
    split <;> simp
  destination := h'.destination.trans h.destination
  unresolved := by
    rw [h'.unresolved, h.unresolved, List.append_eq_nil_iff, and_assoc]
  installed := h'.installed.trans h.installed

/-- An unresolved channel is led to where it led already. -/
private theorem destination_resolve (p : Session) :
    p.resolve.channel.destination p.environment = p.channel.destination p.environment ∧
      p.resolve.channel ≠ .unresolved ∧ (∀ d, p.resolve.arrived d = p.arrived d) ∧
      p.resolve.installed = p.installed := by
  unfold resolve
  cases hc : p.channel with
  | unresolved => exact ⟨p.environment.destination_target, by simp, fun d => by cases d <;> rfl, rfl⟩
  | _ => simp [hc]

private theorem arrived_deliver {d : Destination} (hd : d ≠ .nowhere) (hc : p.channel ≠ .unresolved)
    (env : Environment) (line : Bytes) : (p.deliver line).arrived d =
      p.arrived d ++ if p.channel.destination env = d then line else [] := by
  unfold deliver
  cases h : p.channel with
  | unresolved => exact absurd h hc
  | sink number =>
    cases d with
    | capture sink => by_cases hk : number = sink <;> simp [Session.arrived, kept, Channel.destination, hk]
    | _ => simp [Session.arrived, Channel.destination]
  | brokenSink => cases d <;> simp_all [Session.arrived, Channel.destination]
  | target place =>
    cases place <;> cases d <;>
      simp_all [Session.arrived, kept, Channel.destination, Target.destination]

private theorem channel_deliver (p : Session) (line : Bytes) :
    (p.deliver line).channel = p.channel ∧ (p.deliver line).installed = p.installed := by
  unfold deliver
  split <;> exact ⟨rfl, rfl⟩

theorem emit (he : p.environment = env) (m : Marker) : p.Heard env (p.emit m) [m] := by
  subst he
  obtain ⟨hsame, hresolved, hkept, hinstalled⟩ := destination_resolve p
  have hchannel : (p.emit m).channel = p.resolve.channel := (channel_deliver _ _).1
  refine ⟨fun d hd => ?_, ?_, ?_, (channel_deliver _ _).2.trans hinstalled⟩
  · have h := arrived_deliver hd hresolved p.environment m.line
    rw [hsame, hkept] at h
    rw [Session.emit, h, List.flatMap_singleton]
  · rw [hchannel, hsame]
  · simp [hchannel, hresolved]

/-- Neither the counts nor the policy in memory are part of the channel. -/
theorem of_eq (hc : q.channel = p.channel) (hi : q.installed = p.installed)
    (ha : ∀ d, q.arrived d = p.arrived d) : p.Heard env q [] where
  arrived d _ := by simp [ha]
  destination := by rw [hc]
  unresolved := by simp [hc]
  installed := hi

theorem record (env : Environment) (p : Session) (category : Diagnostic.Class) :
    p.Heard env (p.record category) [] :=
  of_eq rfl rfl fun d => by cases d <;> rfl

theorem recordAbort (env : Environment) (p : Session) : p.Heard env p.recordAbort [] :=
  of_eq rfl rfl fun d => by cases d <;> rfl

theorem readPolicy (env : Environment) (p : Session) : p.Heard env p.readPolicy.2 [] := by
  unfold Session.readPolicy
  split
  · exact refl env p
  · exact of_eq rfl rfl fun d => by cases d <;> rfl

theorem tell (he : p.environment = env) (emits : Bool) (d : Diagnostic) :
    p.Heard env (p.tell emits d) (if emits then [d.marker] else []) := by
  cases emits with
  | false => exact record env p d.category
  | true => exact (record env p d.category).trans (emit (p := p.record d.category) he d.marker)

theorem leave (he : p.environment = env) (emits : Bool) (ds : List Diagnostic) (aborted : Bool) :
    p.Heard env (p.leave emits ds aborted) (if emits then ds.map Diagnostic.marker else []) := by
  have h : p.Heard env (ds.foldl (Session.tell emits) p)
      (if emits then ds.map Diagnostic.marker else []) := by
    induction ds generalizing p with
    | nil =>
      rw [List.map_nil, ite_self]
      exact refl env p
    | cons d ds ih =>
      have hd := (tell he emits d).trans (ih ((environment_tell ..).trans he))
      cases emits <;> exact hd
  cases aborted with
  | false => exact h
  | true =>
    have ha := h.trans (recordAbort env _)
    rw [List.append_nil] at ha
    exact ha

theorem formatWith (he : p.environment = env) (o : Options) (t : Bytes) (args : List Argument) :
    p.Heard env (p.formatWith o t args).2
      (if o.emits then (raised o t args).map Diagnostic.marker else []) := by
  obtain ⟨result, aborted, -, hf⟩ := formatWith_raises o t args
  rw [hf p]
  exact leave he ..

theorem format (h : p.KeepsTo env) (t : Bytes) (args : List Argument) :
    p.Heard env (p.format t args).2
      ((raised { policy := env.policy } t args).map Diagnostic.marker) := by
  have hread := h.readPolicy
  have hcall := (readPolicy env p).trans
    (formatWith hread.environment { policy := env.policy } t args)
  rw [format_eq, h.readPolicy_eq]
  rw [h.readPolicy_eq] at hcall
  exact hcall

end Heard

/-- One request: its lines go where the channel leads, and only a choice leads it elsewhere. -/
theorem step_heard {env : Environment} {p : Session} (h : p.KeepsTo env) {s : Step}
    (hs : s.chooses = false) : p.Heard env (p.step s).2 (s.markers env) := by
  cases s with
  | formatWith o t args => exact Heard.formatWith h.environment o t args
  | format t args => exact Heard.format h t args
  | formatInto dst t args => exact Heard.format h t args
  | emit marker => exact Heard.emit h.environment marker
  | setSink broken => cases hs
  | setTarget target => cases hs
  | policy => exact Heard.readPolicy env p
  | target => exact Heard.refl env p
  | record category => exact Heard.record env p category
  | recordAbort => exact Heard.recordAbort env p

/-- The session stands where the requests have led it that came before. -/
structure Follows (env : Environment) (earlier : List Step) (p : Session) : Prop where
  keepsTo : p.KeepsTo env
  destination : p.channel.destination env = destination env earlier
  unresolved : p.channel = .unresolved ↔
    ∀ s ∈ earlier, s.chooses = false ∧ s.markers env = []
  installed : p.installed = earlier.count (.setSink false)

theorem follows_start (env : Environment) : (start env).Follows env [] :=
  ⟨keepsTo_start env, rfl, by simp [start], rfl⟩

private theorem destination_of_not_chooses (env : Environment) (earlier : List Step) {s : Step}
    (hs : s.chooses = false) : destination env (earlier ++ [s]) = destination env earlier := by
  unfold destination
  rw [List.reverse_concat]
  cases s with
  | setSink broken => cases hs
  | setTarget place => cases hs
  | _ => rfl

namespace Follows
variable {env : Environment} {earlier : List Step} {p : Session}

/-- A choice delivers nothing and leads the channel away. -/
private theorem step_of_chooses (h : p.Follows env earlier) {s : Step} (hs : s.chooses = true) :
    (p.step s).2.channel.destination env = Session.destination env (earlier ++ [s]) ∧
      (p.step s).2.channel ≠ .unresolved ∧
      (p.step s).2.installed = (earlier ++ [s]).count (.setSink false) ∧
      s.markers env = [] ∧ ∀ d, (p.step s).2.arrived d = p.arrived d := by
  have hi := h.installed
  unfold Session.destination
  rw [List.reverse_concat, List.count_append]
  cases s with
  | setSink broken =>
    cases broken with
    | true =>
      exact ⟨rfl, by simp [Session.step, setSink], by simpa [Session.step, setSink] using hi, rfl,
        fun d => by cases d <;> rfl⟩
    | false =>
      refine ⟨?_, by simp [Session.step, setSink], by simp [Session.step, setSink, hi], rfl,
        fun d => by cases d <;> rfl⟩
      simp [Session.step, setSink, Channel.destination, destinationBehind, hi]
  | setTarget place =>
    exact ⟨rfl, by simp [Session.step], by simpa [Session.step] using hi, rfl,
      fun d => by cases d <;> rfl⟩
  | _ => cases hs

theorem step (h : p.Follows env earlier) (s : Step) :
    (p.step s).2.Follows env (earlier ++ [s]) := by
  cases hs : s.chooses with
  | false =>
    have hheard := step_heard h.keepsTo hs
    refine ⟨h.keepsTo.step s, ?_, ?_, ?_⟩
    · rw [destination_of_not_chooses env earlier hs]
      exact hheard.destination.trans h.destination
    · rw [hheard.unresolved, h.unresolved]
      simp [hs, or_imp, forall_and, and_assoc]
    · have hne : s ≠ .setSink false := by
        rintro rfl
        cases hs
      rw [hheard.installed, h.installed, List.count_append, List.count_singleton, beq_false_of_ne hne]
      simp
  | true =>
    obtain ⟨hplace, hne, hinstalled, -, -⟩ := h.step_of_chooses hs
    exact ⟨h.keepsTo.step s, hplace, by simp [hne, hs], hinstalled⟩

/-- The lines of a request arrive where the requests before it have led the channel, all of them and
nothing else. -/
theorem arrived_step (h : p.Follows env earlier) (s : Step) {d : Destination} (hd : d ≠ .nowhere) :
    (p.step s).2.arrived d = p.arrived d ++
      delivered d ((s.markers env).map (Session.destination env earlier, ·)) := by
  rw [delivered_map]
  cases hs : s.chooses with
  | false => rw [(step_heard h.keepsTo hs).arrived d hd, h.destination]
  | true =>
    obtain ⟨-, -, -, hmarkers, harrived⟩ := h.step_of_chooses hs
    simp [hmarkers, harrived]

/-- Along a run: before the request at index `i`, what was delivered is what the first `i` requests
raised. -/
theorem run (h : p.Follows env earlier) (steps : List Step) {i : Nat} (hi : i ≤ steps.length) :
    ∃ q, (p :: (p.run steps).map Prod.snd)[i]? = some q ∧ q.Follows env (earlier ++ steps.take i) ∧
      ∀ d, d ≠ .nowhere → q.arrived d = p.arrived d ++ delivered d
        ((steps.mapIdx fun j s => (s.markers env).map
          (Session.destination env (earlier ++ steps.take j), ·)).take i).flatten := by
  induction steps generalizing p earlier i with
  | nil =>
    obtain rfl : i = 0 := Nat.le_zero.mp hi
    exact ⟨p, rfl, by simpa using h, by simp [delivered]⟩
  | cons s steps ih =>
    cases i with
    | zero => exact ⟨p, rfl, by simpa using h, by simp [delivered]⟩
    | succ i =>
      obtain ⟨q, hq, hfollows, harrived⟩ := ih (h.step s) (Nat.le_of_succ_le_succ hi)
      refine ⟨q, hq, by simpa using hfollows, fun d hd => ?_⟩
      rw [harrived d hd, h.arrived_step s hd]
      simp [delivered, List.mapIdx_cons]

end Follows

/-- Every marker line of a run goes whole, in the order of raising, to the one place that the most
recent choice before it names, or the environment where nothing was chosen yet. So at every moment
what has arrived somewhere is what was routed there, and each request adds its own lines. A channel
that has had a line or a choice is resolved for good. The markers are those of the diagnostics that
a call returns, aborts with or counts. -/
theorem run_routes (env : Environment) (steps : List Step) :
    let fresh := start env
    let sessions := fresh :: (fresh.run steps).map Prod.snd
    (∀ i ≤ steps.length, ∃ p, sessions[i]? = some p ∧
      (∀ d, d ≠ .nowhere → p.arrived d = delivered d ((routes env steps).take i).flatten) ∧
      (p.channel = .unresolved ↔ ∀ s ∈ steps.take i, s.chooses = false ∧ s.markers env = [])) ∧
    (∀ i s, steps[i]? = some s → ∃ before after,
      sessions[i]? = some before ∧ sessions[i + 1]? = some after ∧
      ∀ d, d ≠ .nowhere → after.arrived d = before.arrived d ++
        if destination env (steps.take i) = d then (s.markers env).flatMap Marker.line else []) ∧
    ∀ (p : Session) (o : Options) (t : Bytes) (args : List Argument), ∃ aborted,
      Tells o t args (p.formatWith o t args).1 (raised o t args) aborted ∧
      p.counters.Grew (p.formatWith o t args).2.counters
        ((raised o t args).map Diagnostic.category) aborted.toNat := by
  intro fresh sessions
  have hfresh : fresh.Follows env [] := follows_start env
  refine ⟨fun i hi => ?_, fun i s hs => ?_, fun p o t args => ?_⟩
  · obtain ⟨p, hp, hfollows, harrived⟩ := hfresh.run steps hi
    refine ⟨p, hp, fun d hd => ?_, hfollows.unresolved⟩
    have hnothing : fresh.arrived d = [] := by cases d <;> rfl
    rw [harrived d hd, hnothing]
    rfl
  · obtain ⟨before, hat, -, hrun⟩ := hfresh.keepsTo.run hs
    obtain ⟨hlt, -⟩ := List.getElem?_eq_some_iff.mp hs
    obtain ⟨p, hp, hfollows, -⟩ := hfresh.run steps (Nat.le_of_lt hlt)
    obtain rfl : before = p := Option.some.inj (hat.symm.trans hp)
    refine ⟨before, (before.step s).2, hat, ?_, fun d hd => ?_⟩
    · rw [List.getElem?_cons_succ, List.getElem?_map, hrun]
      rfl
    · rw [hfollows.arrived_step s hd, delivered_map]
      rfl
  · obtain ⟨result, aborted, ht, hf⟩ := formatWith_raises o t args
    rw [hf p]
    exact ⟨aborted, ht, grew_leave ..⟩

/-- The environment is asked by the first call, which raises two lines; then each kind of choice has
its turn, and a quiet call raises nothing. -/
theorem run_routes_every_choice :
    let env : Environment := ⟨none, some (Utf8.encode " OUT ")⟩
    let steps : List Step := [.policy, .formatWith {} (Utf8.encode "%-d%q") [.int 5], .setSink false,
      .emit (.width 0x21), .formatWith { emits := false } (Utf8.encode "%q") [], .setTarget .stderr,
      .format (Utf8.encode "%") [], .setSink true, .emit .plain, .setTarget .off, .emit .plain,
      .setSink false, .formatInto [] (Utf8.encode "%d") []]
    ∃ p, (start env :: ((start env).run steps).map Prod.snd)[13]? = some p ∧
      p.stdout.toList = Utf8.encode "ERROR: -\nERROR\n" ∧ p.stderr.toList = Utf8.encode "ERROR\n" ∧
      p.kept 0 = Utf8.encode "ERROR: !\n" ∧ p.kept 1 = Utf8.encode "ERROR\n" ∧
      p.channel ≠ .unresolved := by
  intro env steps
  obtain ⟨p, hp, harrived, hchannel⟩ := (run_routes env steps).1 13 (by decide)
  refine ⟨p, hp, ?_, ?_, ?_, ?_, ?_⟩
  · exact (harrived .stdout (by decide)).trans (by decide +kernel)
  · exact (harrived .stderr (by decide)).trans (by decide +kernel)
  · exact (harrived (.capture 0) (by decide)).trans (by decide +kernel)
  · exact (harrived (.capture 1) (by decide)).trans (by decide +kernel)
  · intro h
    have hnone := (hchannel.mp h (.setSink true) (by decide +kernel)).1
    cases hnone

end Session

end PercentFormat
