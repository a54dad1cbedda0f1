import Mathlib.Logic.Basic
import PercentFormat.Proofs.Log.Entries
import PercentFormat.Proofs.Step

/-! What validation says of a line. The line of an entry is accepted as that entry, or has one
violation for each rule that the entry breaks. Any accepted line gives the length of a case that has
an outcome, unless the length is null. -/

namespace PercentFormat.Log
open Json

/-- The rules that an entry can break. -/
inductive Rule where
  | policy
  | traceId
  | length
  deriving DecidableEq, Repr

namespace Rule

/-- All rules, in the order in which they are looked at. -/
def all : List Rule := [.policy, .traceId, .length]

def BrokenBy (e : Entry) : Rule → Prop
  | .policy => ∃ word ∈ e.policy, word ≠ "continue" ∧ word ≠ "abort"
  | .traceId => ¬ [':', ':'] <:+: e.traceId.toList
  | .length => e.caseName.isSome ∧ e.outcome.isSome ∧ e.outputLength.isNone

instance (e : Entry) (rule : Rule) : Decidable (rule.BrokenBy e) :=
  match rule with
  | .policy => inferInstanceAs (Decidable (∃ word ∈ e.policy, word ≠ "continue" ∧ word ≠ "abort"))
  | .traceId => inferInstanceAs (Decidable (¬ [':', ':'] <:+: e.traceId.toList))
  | .length => inferInstanceAs
      (Decidable (e.caseName.isSome ∧ e.outcome.isSome ∧ e.outputLength.isNone))

/-- How a rule is broken by an entry that breaks it. -/
def breach (e : Entry) : Rule → Breach
  | .policy => .badWord "policy" (e.policy.getD "")
  | .traceId => .badTraceId e.traceId
  | .length => .noLength

end Rule

/-- The breaches of an entry, rule by rule. -/
theorem Entry.breaches_eq_map (e : Entry) :
    e.breaches = (Rule.all.filter fun rule => rule.BrokenBy e).map (·.breach e) := by
  have hrules : (Rule.all.filter fun rule => rule.BrokenBy e).map (·.breach e) =
      (if Rule.policy.BrokenBy e then [Rule.policy.breach e] else []) ++
        (if Rule.traceId.BrokenBy e then [Rule.traceId.breach e] else []) ++
        (if Rule.length.BrokenBy e then [Rule.length.breach e] else []) := by
    by_cases hp : Rule.policy.BrokenBy e <;> by_cases ht : Rule.traceId.BrokenBy e <;>
      by_cases hl : Rule.length.BrokenBy e <;> simp [Rule.all, hp, ht, hl]
  rw [hrules, Entry.breaches]
  refine congrArg₂ (· ++ ·) (congrArg₂ (· ++ ·) ?policy ?traceId) ?length
  case policy =>
    cases h : e.policy with
    | none => simp [Rule.BrokenBy, h]
    | some word =>
      have hbroken : Rule.policy.BrokenBy e ↔ word ∉ ["continue", "abort"] := by
        simp [Rule.BrokenBy, h]
      have hbreach : Rule.policy.breach e = .badWord "policy" word := by
        simp [Rule.breach, h]
      simp only [hbroken, hbreach, ite_not]
  case traceId =>
    have hbroken : Rule.traceId.BrokenBy e ↔ ¬ hasDoubleColon e.traceId.toList = true := by
      rw [hasDoubleColon_iff, Rule.BrokenBy]
    simp only [hbroken, ite_not]
    rfl
  case length =>
    refine if_congr ?_ rfl rfl
    rw [Bool.and_eq_true, Bool.and_eq_true, Rule.BrokenBy, and_assoc, and_left_comm]

/-- The line of an entry is accepted, and as the entry it was written for, if and only if the entry
keeps all rules. Otherwise there is one violation for each rule that it breaks, in the order of the
rules, and with the number of the line. -/
theorem validateLine_exact (e : Entry) (h : e.Writable) (number : Nat) :
    (validateLine e.line number = .ok e ↔
      [':', ':'] <:+: e.traceId.toList ∧
      (e.policy = none ∨ e.policy = some "continue" ∨ e.policy = some "abort") ∧
      ¬ (e.caseName.isSome ∧ e.outcome.isSome ∧ e.outputLength.isNone)) ∧
    (validateLine e.line number ≠ .ok e → validateLine e.line number = .error
      ((Rule.all.filter fun rule => rule.BrokenBy e).map fun rule => ⟨number, rule.breach e⟩)) ∧
    Rule.all.map (fun rule => (rule.breach e).field) = ["policy", "trace_id", "output_len"] := by
  have hkept : e.breaches = [] ↔ [':', ':'] <:+: e.traceId.toList ∧
      (e.policy = none ∨ e.policy = some "continue" ∨ e.policy = some "abort") ∧
      ¬ (e.caseName.isSome ∧ e.outcome.isSome ∧ e.outputLength.isNone) := by
    rw [Entry.breaches_eq_nil_iff, hasDoubleColon_iff, and_left_comm]
    refine and_congr_right fun _ => and_congr ?_ ?_
    · cases e.policy <;> simp
    · cases e.caseName <;> cases e.outcome <;> cases e.outputLength <;> simp
  rw [← hkept]
  by_cases hnone : e.breaches = []
  · have hok := validateLine_line h hnone number
    exact ⟨iff_of_true hok hnone, fun hne => absurd hok hne, rfl⟩
  · have herror : validateLine e.line number = .error (e.breaches.map (⟨number, ·⟩)) := by
      rw [validateLine, checkLine_line h, if_neg hnone]
      rfl
    refine ⟨iff_of_false (fun hok => ?_) hnone, fun _ => ?_, rfl⟩
    · rw [herror] at hok
      cases hok
    · rw [herror, Entry.breaches_eq_map, List.map_map]
      rfl

/-- All three rules broken at once, and none in an entry with nested details and a text that has to be
escaped. -/
theorem validateLine_exact_extremes :
    let broken : Entry := {
      timestamp := "", traceId := ":", level := .info, event := "\n", policy := some "Abort"
      caseName := some "", outcome := some .skip }
    let kept : Entry := {
      timestamp := "\"", traceId := "::", level := .trace, event := "", policy := some "abort"
      caseName := some "\\", outcome := some .error, outputLength := some 0
      latency := some 18446744073709551615, artifactRefs := some []
      details := some (.object [("a", .array [.null]), ("b", .object [])]) }
    validateLine broken.line 7 = .error [⟨7, .badWord "policy" "Abort"⟩, ⟨7, .badTraceId ":"⟩,
      ⟨7, .noLength⟩] ∧
    validateLine kept.line 0 = .ok kept := by
  intro broken kept
  have hbroken : broken.Writable := ⟨nofun, nofun, nofun, nofun⟩
  have hkept : kept.Writable := by
    refine ⟨?_, nofun, ?_, ?_⟩
    · rintro n ⟨⟩
      exact Nat.zero_le _
    · rintro n ⟨⟩
      exact Nat.le_refl _
    · rintro d ⟨⟩
      exact ⟨nofun, rfl, by decide +kernel, by decide +kernel⟩
  obtain ⟨hiff, herror, -⟩ := validateLine_exact broken hbroken 7
  obtain ⟨hok, -, -⟩ := validateLine_exact kept hkept 0
  refine ⟨?_, hok.2 ⟨?_, .inr (.inr rfl), ?_⟩⟩
  · refine (herror fun haccepted => ?_).trans ?_
    · exact absurd (hiff.1 haccepted).1 (by decide +kernel)
    · exact congrArg Except.error (by decide +kernel)
  · decide +kernel
  · exact fun hnone => absurd hnone.2.2 (by decide)

private theorem isSome_optionalMember?_iff {α : Type} {v : Value} {key : String} {read : Value → Option α}
    {field : Option α} (h : optionalMember? v key read = some field) :
    field.isSome ↔ ∃ member ∈ v.get? key, member ≠ .null := by
  unfold optionalMember? at h
  split at h
  · next hget => simp [← Option.some.inj h, hget]
  · next hget => simp [← Option.some.inj h, hget]
  · next member hnull hget =>
    obtain ⟨x, -, rfl⟩ := Option.map_eq_some_iff.1 h
    exact iff_of_true rfl ⟨member, hget, hnull⟩

private theorem lengthBreaches_eq_nil_iff {v : Value} : lengthBreaches v = [] ↔
    ((v.get? "outcome").isSome → (v.get? "case").isSome → (v.get? "output_len").isSome) := by
  unfold lengthBreaches
  cases v.get? "outcome" <;> cases v.get? "case" <;> cases v.get? "output_len" <;> simp

/-- An accepted line holds a value that breaks no rule and is read as the entry. -/
theorem exists_of_validateLine_ok {line : String} {number : Nat} {e : Entry}
    (h : validateLine line number = .ok e) :
    ∃ v, Value.parse? line = some v ∧ breaches v = [] ∧ Entry.ofValue? v = some e := by
  have hline : checkLine line = .ok e := by
    unfold validateLine at h
    cases hcheck : checkLine line with
    | error found => rw [hcheck] at h; cases h
    | ok entry => rw [hcheck] at h; cases h; rfl
  unfold checkLine at hline
  split at hline
  · cases hline
  · next members hparse =>
    refine ⟨_, hparse, ?_⟩
    unfold checkObject at hline
    split at hline
    · next hbreaches =>
      split at hline
      · next entry hentry =>
        cases hline
        exact ⟨hbreaches, hentry⟩
      · cases hline
    · cases hline
  · cases hline

/-- An accepted case with an outcome lacks its length if and only if the line gives the length as null:
the key is there, which is all that the rules look at, but the entry that is read has no length. -/
theorem validateLine_length_none_iff (line : String) (number : Nat) (e : Entry)
    (h : validateLine line number = .ok e) :
    ∃ v, Value.parse? line = some v ∧
      (e.caseName.isSome ∧ e.outcome.isSome ∧ e.outputLength = none ↔
        (∃ c ∈ v.get? "case", c ≠ .null) ∧ (∃ o ∈ v.get? "outcome", o ≠ .null) ∧
          v.get? "output_len" = some .null) := by
  obtain ⟨v, hparse, hbreaches, hentry⟩ := exists_of_validateLine_ok h
  have hread := Entry.ofValue?_eq_some_iff.1 hentry
  have hrule := lengthBreaches_eq_nil_iff.1 (List.append_eq_nil_iff.1 hbreaches).2
  refine ⟨v, hparse, ?_⟩
  rw [isSome_optionalMember?_iff hread.caseName, isSome_optionalMember?_iff hread.outcome]
  refine and_congr_right fun ⟨c, hc, _⟩ => and_congr_right fun ⟨o, ho, _⟩ => ?_
  rw [← Option.not_isSome_iff_eq_none, isSome_optionalMember?_iff hread.outputLength]
  constructor
  · intro hnone
    obtain ⟨n, hn⟩ := Option.isSome_iff_exists.1 (hrule (Option.isSome_of_mem ho) (Option.isSome_of_mem hc))
    have hnull : n = .null := Classical.byContradiction fun hne => hnone ⟨n, hn, hne⟩
    rw [hn, hnull]
  · rintro hnull ⟨n, hn, hne⟩
    rw [hnull] at hn
    cases hn
    exact hne rfl

/-- Names written as objects, and a key that is there twice: the last one counts. -/
theorem validateLine_length_none_iff_repeated :
    let line := "\x7b\"timestamp\":\"\",\"trace_id\":\"::\",\"level\":\x7b\"info\":null\x7d,\"event\":\"\","
      ++ "\"case\":\"\",\"outcome\":\x7b\"skip\":null\x7d,\"output_len\":3,\"output_len\":null\x7d"
    ∃ e v, validateLine line 2 = .ok e ∧ e.caseName = some "" ∧ e.outcome = some .skip ∧
      e.outputLength = none ∧ Value.parse? line = some v ∧ v.get? "output_len" = some .null := by
  intro line
  have hread : (validateLine line 2).toOption.map
      (fun e => (e.caseName, e.outcome, e.outputLength)) = some (some "", some .skip, none) := by
    decide +kernel
  obtain ⟨e, he, hfields⟩ := Option.map_eq_some_iff.1 hread
  obtain ⟨hcase, houtcome, hlength⟩ : e.caseName = some "" ∧ e.outcome = some .skip ∧
      e.outputLength = none := by simpa using hfields
  have hok := ok_of_toOption he
  obtain ⟨v, hparse, hiff⟩ := validateLine_length_none_iff line 2 e hok
  have hnull := hiff.1 ⟨by rw [hcase]; rfl, by rw [houtcome]; rfl, hlength⟩
  exact ⟨e, v, hok, hcase, houtcome, hlength, hparse, hnull.2.2⟩

/-- A finished case that does not say what it returned, and is accepted. -/
theorem validateLine_null_length :
    let line := "\x7b\"timestamp\":\"t\",\"trace_id\":\"a::b::c\",\"level\":\"info\",\"event\":\"e\","
      ++ "\"case\":\"x\",\"outcome\":\"pass\",\"output_len\":null\x7d"
    ∃ e, validateLine line 1 = .ok e ∧
      ¬ (e.caseName.isSome → e.outcome.isSome → e.outputLength.isSome) := by
  intro line
  have hread : (validateLine line 1).toOption.map
      (fun e => (e.caseName.isSome, e.outcome.isSome, e.outputLength.isSome)) =
        some (true, true, false) := by
    decide +kernel
  obtain ⟨e, he, hfields⟩ := Option.map_eq_some_iff.1 hread
  obtain ⟨hcase, houtcome, hlength⟩ : e.caseName.isSome = true ∧ e.outcome.isSome = true ∧
      e.outputLength.isSome = false := by simpa using hfields
  exact ⟨e, ok_of_toOption he, fun h => absurd (h hcase houtcome) (by simp [hlength])⟩

end PercentFormat.Log
