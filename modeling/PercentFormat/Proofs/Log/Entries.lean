import PercentFormat.Log.Entry
import PercentFormat.Proofs.Json.Values

/-! Log entries written and read again: an entry comes back from its line, unless it breaks one of
the three rules that an entry can break. -/

namespace PercentFormat.Log
open Json

section
variable {α : Type} (key : String) (value : α → Value) (field : Option α)

private theorem lookup_optional (name : String) :
    (optional key value field).lookup name = if name = key then field.map value else none := by
  cases field with
  | none => simp [optional]
  | some x => rw [optional, lookup_cons_ite, List.lookup_nil, Option.map_some]

private theorem keys_optional_sublist : ((optional key value field).map (·.1)).Sublist [key] := by
  cases field with
  | none => exact List.nil_sublist _
  | some x => exact List.Sublist.refl _

private theorem forall_mem_optional_iff {P : String × Value → Prop} :
    (∀ m ∈ optional key value field, P m) ↔ ∀ x ∈ field, P (key, value x) := by
  cases field <;> simp [optional]

end

theorem Entry.keys_nodup (e : Entry) : (e.members.map (·.1)).Nodup := by
  have hall : (["timestamp", "trace_id", "level", "event"] ++ ["suite"]
    ++ ["policy"] ++ ["case"] ++ ["template"] ++ ["outcome"] ++ ["output_len"] ++ ["diagnostics"]
    ++ ["latency_ns"] ++ ["artifact_refs"] ++ ["details"]).Nodup := by decide
  refine List.Nodup.sublist ?_ hall
  simp only [Entry.members, List.map_append]
  repeat' apply List.Sublist.append
  case _ => exact List.Sublist.refl _
  all_goals exact keys_optional_sublist ..

/-- The numbers of an entry have 64 bits, and its details are read back from their text. -/
structure Entry.Writable (e : Entry) : Prop where
  outputLength : ∀ n ∈ e.outputLength, n ≤ maxSize
  diagnostics : ∀ n ∈ e.diagnostics, n ≤ maxSize
  latency : ∀ n ∈ e.latency, n ≤ maxSize
  details : ∀ d ∈ e.details, d ≠ .null ∧ d.Plain 126

theorem Entry.plain_members {e : Entry} (h : e.Writable) : ∀ m ∈ e.members, m.2.Plain 126 := by
  have hrefs (refs : List String) : (Value.array (refs.map .string)).Plain 126 := by
    refine ⟨itemsIntegral_iff.2 ?_, itemsKept_iff.2 ?_, Nat.succ_le_succ (itemsDepth_le_iff.2 ?_)⟩
    all_goals
      intro v hv
      obtain ⟨s, -, rfl⟩ := List.mem_map.1 hv
    · rfl
    · rfl
    · exact Nat.zero_le _
  simp only [Entry.members, List.forall_mem_append, forall_mem_optional_iff, List.forall_mem_cons,
    List.not_mem_nil, Value.plain_string, hrefs, id, false_implies, implies_true, true_and, and_true]
  exact ⟨⟨⟨fun n hn => Value.plain_ofNat 126 (h.outputLength n hn),
    fun n hn => Value.plain_ofNat 126 (h.diagnostics n hn)⟩,
    fun n hn => Value.plain_ofNat 126 (h.latency n hn)⟩, fun d hd => (h.details d hd).2⟩

/-- Under each key the value has the member of the entry, or none where the entry has none. -/
def Entry.FoundIn (e : Entry) (v : Value) : Prop := ∀ key, v.get? key = e.members.lookup key

theorem Entry.foundIn_sorted (e : Entry) : e.FoundIn (.object (sortMembers e.members)) := fun key => by
  rw [Value.get?_object, lookup_sortMembers e.keys_nodup]

theorem optionalMember?_eq {α : Type} {v : Value} {key : String} {read : Value → Option α}
    (value : α → Value) {field : Option α} (h : v.get? key = field.map value)
    (hread : ∀ x ∈ field, value x ≠ .null ∧ read (value x) = some x) :
    optionalMember? v key read = some field := by
  rw [optionalMember?, h]
  cases field with
  | none => rfl
  | some x =>
    obtain ⟨hnull, hread⟩ := hread x rfl
    rw [Option.map_some]
    split
    · contradiction
    · next heq => exact absurd (Option.some.inj heq) hnull
    · next heq => rw [← Option.some.inj heq, hread, Option.map_some]

theorem Level.ofName?_name (l : Level) : Level.ofName? l.name = some l := by
  cases l <;> decide

theorem Outcome.ofName?_name (o : Outcome) : Outcome.ofName? o.name = some o := by
  cases o <;> decide

private theorem texts?_map_string (texts : List String) :
    texts? (.array (texts.map .string)) = some texts := by
  rw [texts?, List.mapM_map]
  exact (mapM_eq_some_map (g := id) fun _ _ => rfl).trans (by rw [List.map_id])

/-- Each field of the entry is what the value has under its key. -/
structure Entry.ReadFrom (v : Value) (e : Entry) : Prop where
  timestamp : requiredMember? v "timestamp" text? = some e.timestamp
  traceId : requiredMember? v "trace_id" text? = some e.traceId
  level : requiredMember? v "level" (fun v => (name? v).bind Level.ofName?) = some e.level
  event : requiredMember? v "event" text? = some e.event
  suite : optionalMember? v "suite" text? = some e.suite
  policy : optionalMember? v "policy" text? = some e.policy
  caseName : optionalMember? v "case" text? = some e.caseName
  template : optionalMember? v "template" text? = some e.template
  outcome : optionalMember? v "outcome" (fun v => (name? v).bind Outcome.ofName?) = some e.outcome
  outputLength : optionalMember? v "output_len" size? = some e.outputLength
  diagnostics : optionalMember? v "diagnostics" size? = some e.diagnostics
  latency : optionalMember? v "latency_ns" size? = some e.latency
  artifactRefs : optionalMember? v "artifact_refs" texts? = some e.artifactRefs
  details : optionalMember? v "details" some = some e.details

theorem Entry.ofValue?_eq_some_iff {v : Value} {e : Entry} :
    Entry.ofValue? v = some e ↔ Entry.ReadFrom v e := by
  constructor
  · intro h
    rw [Entry.ofValue?] at h
    -- one field of the entry per turn
    iterate 14 obtain ⟨_, _, h⟩ := Option.bind_eq_some_iff.1 h
    cases h
    constructor <;> assumption
  · intro h
    rw [Entry.ofValue?, h.timestamp, h.traceId, h.level, h.event, h.suite, h.policy, h.caseName,
      h.template, h.outcome, h.outputLength, h.diagnostics, h.latency, h.artifactRefs, h.details]
    rfl

namespace Entry.FoundIn
variable {e : Entry} {v : Value}

/-- The fields are read one by one, each from its own member. -/
theorem ofValue?_eq (h : e.FoundIn v) (hdetails : e.details ≠ some .null) :
    Entry.ofValue? v = some e := by
  have hget := fun key => h key
  simp only [Entry.members, List.lookup_append, lookup_optional, lookup_cons_ite] at hget
  have htimestamp : requiredMember? v "timestamp" text? = some e.timestamp := by
    simp [requiredMember?, hget, text?]
  have htrace : requiredMember? v "trace_id" text? = some e.traceId := by
    simp [requiredMember?, hget, text?]
  have hlevel : requiredMember? v "level" (fun v => (name? v).bind Level.ofName?) = some e.level := by
    simp [requiredMember?, hget, name?, Level.ofName?_name]
  have hevent : requiredMember? v "event" text? = some e.event := by
    simp [requiredMember?, hget, text?]
  have hsuite : optionalMember? v "suite" text? = some e.suite :=
    optionalMember?_eq .string (by simp [hget]) fun x _ => ⟨nofun, rfl⟩
  have hpolicy : optionalMember? v "policy" text? = some e.policy :=
    optionalMember?_eq .string (by simp [hget]) fun x _ => ⟨nofun, rfl⟩
  have hcase : optionalMember? v "case" text? = some e.caseName :=
    optionalMember?_eq .string (by simp [hget]) fun x _ => ⟨nofun, rfl⟩
  have htemplate : optionalMember? v "template" text? = some e.template :=
    optionalMember?_eq .string (by simp [hget]) fun x _ => ⟨nofun, rfl⟩
  have houtcome : optionalMember? v "outcome" (fun v => (name? v).bind Outcome.ofName?) =
      some e.outcome :=
    optionalMember?_eq (fun o => .string o.name) (by simp [hget])
      fun o _ => ⟨nofun, Outcome.ofName?_name o⟩
  have hlength : optionalMember? v "output_len" size? = some e.outputLength :=
    optionalMember?_eq .ofNat (by simp [hget]) fun n _ => ⟨nofun, rfl⟩
  have hdiagnostics : optionalMember? v "diagnostics" size? = some e.diagnostics :=
    optionalMember?_eq .ofNat (by simp [hget]) fun n _ => ⟨nofun, rfl⟩
  have hlatency : optionalMember? v "latency_ns" size? = some e.latency :=
    optionalMember?_eq .ofNat (by simp [hget]) fun n _ => ⟨nofun, rfl⟩
  have hrefs : optionalMember? v "artifact_refs" texts? = some e.artifactRefs :=
    optionalMember?_eq (fun refs => .array (refs.map .string)) (by simp [hget])
      fun refs _ => ⟨nofun, texts?_map_string refs⟩
  have hvalue : optionalMember? v "details" some = some e.details :=
    optionalMember?_eq id (by simp [hget])
      fun d hd => ⟨fun hnull => hdetails (hnull ▸ hd), rfl⟩
  exact Entry.ofValue?_eq_some_iff.2 ⟨htimestamp, htrace, hlevel, hevent, hsuite, hpolicy, hcase,
    htemplate, houtcome, hlength, hdiagnostics, hlatency, hrefs, hvalue⟩

end Entry.FoundIn

theorem hasDoubleColon_iff {cs : List Char} : hasDoubleColon cs = true ↔ [':', ':'] <:+: cs := by
  fun_induction hasDoubleColon cs with
  | case1 rest => exact iff_of_true rfl ⟨[], rest, rfl⟩
  | case2 c rest hne ih =>
    rw [ih, List.infix_cons_iff, iff_or_self]
    intro hfront
    obtain ⟨tail, htail⟩ := hfront
    obtain ⟨rfl, rfl⟩ := List.cons.inj htail
    exact (hne tail rfl rfl).elim
  | case3 => simp

/-- The rules that an entry breaks. Its level and its outcome always have words that are allowed. -/
def Entry.breaches (e : Entry) : List Breach :=
  (match e.policy with
    | some word => if word ∈ ["continue", "abort"] then [] else [.badWord "policy" word]
    | none => [])
  ++ (if hasDoubleColon e.traceId.toList then [] else [.badTraceId e.traceId])
  ++ (if e.outcome.isSome && e.caseName.isSome && e.outputLength.isNone then [.noLength] else [])

theorem Entry.breaches_eq_nil_iff {e : Entry} : e.breaches = [] ↔
    (∀ word ∈ e.policy, word = "continue" ∨ word = "abort") ∧
      hasDoubleColon e.traceId.toList = true ∧
      (e.caseName.isSome → e.outcome.isSome → e.outputLength.isSome) := by
  rw [Entry.breaches, List.append_eq_nil_iff, List.append_eq_nil_iff, and_assoc]
  refine and_congr ?_ (and_congr ?_ ?_)
  · cases e.policy with
    | none => simp
    | some word => simp [Decidable.or_iff_not_imp_left]
  · simp
  · cases e.caseName <;> cases e.outcome <;> cases e.outputLength <;> simp

private theorem Level.name_mem (l : Level) : l.name ∈ Level.all.map Level.name := by
  cases l <;> decide

private theorem Outcome.name_mem (o : Outcome) : o.name ∈ Outcome.all.map Outcome.name := by
  cases o <;> decide

theorem Entry.FoundIn.breaches_eq {e : Entry} {v : Value} (h : e.FoundIn v) :
    Log.breaches v = e.breaches := by
  have hget := fun key => h key
  simp only [Entry.members, List.lookup_append, lookup_optional, lookup_cons_ite] at hget
  have hmissing : missingFields v = [] := by
    simp [missingFields, hget]
  have hlevel : wordBreaches v "level" (Level.all.map Level.name) = [] := by
    simp [wordBreaches, memberText?, hget, text?, Level.name_mem]
  have houtcome : wordBreaches v "outcome" (Outcome.all.map Outcome.name) = [] := by
    cases ho : e.outcome with
    | none => simp [wordBreaches, memberText?, hget, ho]
    | some o => simp [wordBreaches, memberText?, hget, ho, text?, Outcome.name_mem]
  have hpolicy : wordBreaches v "policy" ["continue", "abort"] =
      match e.policy with
      | some word => if word ∈ ["continue", "abort"] then [] else [.badWord "policy" word]
      | none => [] := by
    cases hp : e.policy with
    | none => simp [wordBreaches, memberText?, hget, hp]
    | some word => simp [wordBreaches, memberText?, hget, hp, text?]
  have htrace : traceBreaches v =
      if hasDoubleColon e.traceId.toList then [] else [.badTraceId e.traceId] := by
    simp [traceBreaches, memberText?, hget, text?]
  have hlength : lengthBreaches v =
      if e.outcome.isSome && e.caseName.isSome && e.outputLength.isNone then [.noLength] else [] := by
    simp [lengthBreaches, hget]
  rw [Log.breaches, hmissing, hlevel, houtcome, hpolicy, htrace, hlength]
  rfl

/-- What is said of the line of an entry: the entry itself, or the rules that it breaks. -/
theorem checkLine_line {e : Entry} (h : e.Writable) :
    checkLine e.line = if e.breaches = [] then .ok e else .error e.breaches := by
  have hparse : Value.parse? e.line = some (.object (sortMembers e.members)) :=
    Value.parse?_object (Entry.plain_members h) none
  have hfound := e.foundIn_sorted
  have hdetails : e.details ≠ some .null := fun hnull => (h.details _ hnull).1 rfl
  simp only [checkLine, hparse, checkObject, hfound.breaches_eq, hfound.ofValue?_eq hdetails]
  cases e.breaches <;> rfl

theorem validateLine_line {e : Entry} (h : e.Writable) (hb : e.breaches = []) (number : Nat) :
    validateLine e.line number = .ok e := by
  rw [validateLine, checkLine_line h, if_pos hb]
  rfl

theorem newline_notMem_line {e : Entry} (h : e.Writable) : '\n' ∉ e.line.toList := by
  have hi : e.toJson.isIntegral = true :=
    membersIntegral_iff.2 fun m hm => (Entry.plain_members h m hm).integral
  rw [Entry.line, Value.compact, String.toList_ofList]
  exact Value.newline_notMem_render hi

/-- A line starts and ends with a brace. -/
theorem line_eq_braces (e : Entry) :
    ∃ middle, e.line.toList = '\x7b' :: middle ++ ['\x7d'] := by
  rw [Entry.line, Value.compact, String.toList_ofList, Entry.toJson]
  exact ⟨_, rfl⟩

end PercentFormat.Log
