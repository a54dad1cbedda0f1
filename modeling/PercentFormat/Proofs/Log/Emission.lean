import Mathlib.Data.List.Forall2
import Mathlib.Data.List.Nodup
import PercentFormat.Log.Emitter
import PercentFormat.Proofs.Digits
import PercentFormat.Proofs.Lines
import PercentFormat.Proofs.Log.Entries
import PercentFormat.Proofs.TextBytes

/-! What an emitter writes: one line for each call, which is read back as the entry of that call,
completed. The trace ids that it gives out are numbered without a gap. -/

namespace PercentFormat.Log
open Json

/-- A call on an emitter. -/
inductive Call where
  /-- With the required fields only, at a time. -/
  | emit (now : String) (level : Level) (event : String)
  | entry (entry : Entry)
  deriving Repr

/-- The entry of a call before it is completed. -/
def Call.given : Call → Entry
  | .emit now level event => { timestamp := now, traceId := "", level, event }
  | .entry x => x

namespace Emitter

/-- Makes a call. -/
def perform (e : Emitter) : Call → Except IoFault Entry × Emitter
  | .emit now level event => e.emit now level event
  | .entry entry => e.emitEntry entry

/-- Makes calls one after the other, and gives all results. -/
def performAll (e : Emitter) : List Call → List (Except IoFault Entry) × Emitter
  | [] => ([], e)
  | call :: calls =>
    let (result, e) := e.perform call
    let (results, e) := e.performAll calls
    (result :: results, e)

end Emitter

/-- The trace id that is given out as number `n`. -/
def generatedId (suite runId : String) (n : Nat) : String :=
  suite ++ "::" ++ runId ++ "::" ++ String.ofList (zeroPadded 3 n)

/-- Whether an entry has no trace id of its own. -/
def Entry.needsId (e : Entry) : Bool := e.traceId = ""

/-- An entry with the suite if it has none, and with the generated id of a number if it needs one. -/
def Entry.finish (suite runId : String) (number : Nat) (e : Entry) : Entry :=
  { e with
    traceId := if e.needsId then generatedId suite runId number else e.traceId
    suite := some (e.suite.getD suite) }

/-- Entries as an emitter completes them that gave out `before` ids. The number of an id is how many
of the entries up to this one needed an id, on top of those. -/
def completed (suite runId : String) (before : Nat) (entries : List Entry) : List Entry :=
  entries.mapIdx fun k e =>
    e.finish suite runId (before + (entries.take (k + 1)).countP Entry.needsId)

private theorem length_completed (suite runId : String) (before : Nat) (entries : List Entry) :
    (completed suite runId before entries).length = entries.length :=
  List.length_mapIdx

private theorem countP_needsId_cons (x : Entry) (entries : List Entry) :
    (x :: entries).countP Entry.needsId = x.needsId.toNat + entries.countP Entry.needsId := by
  rw [List.countP_cons, Nat.add_comm]
  cases x.needsId <;> rfl

theorem completed_cons (suite runId : String) (before : Nat) (x : Entry) (entries : List Entry) :
    completed suite runId before (x :: entries) =
      x.finish suite runId (before + x.needsId.toNat) ::
        completed suite runId (before + x.needsId.toNat) entries := by
  simp only [completed, List.mapIdx_cons, List.take_succ_cons, countP_needsId_cons, List.take_zero,
    List.countP_nil, Nat.add_zero, Nat.add_assoc]

theorem completed_append (suite runId : String) (before : Nat) (entries later : List Entry) :
    completed suite runId before (entries ++ later) = completed suite runId before entries ++
      completed suite runId (before + entries.countP Entry.needsId) later := by
  induction entries generalizing before with
  | nil => rfl
  | cons x entries ih =>
    rw [List.cons_append, completed_cons, completed_cons, ih, countP_needsId_cons, Nat.add_assoc,
      List.cons_append]

/-- What is left as it is by completing an entry can be said of the completed ones. -/
theorem forall₂_completed {α : Type} {R : Entry → α → Prop} {suite runId : String}
    (hfinish : ∀ e x n, R e x → R (e.finish suite runId n) x) {entries : List Entry} {xs : List α}
    (h : List.Forall₂ R entries xs) (before : Nat) :
    List.Forall₂ R (completed suite runId before entries) xs := by
  induction h generalizing before with
  | nil => exact .nil
  | cons hx _ ih =>
    rw [completed_cons]
    exact .cons (hfinish _ _ _ hx) (ih _)

/-- The text of entries, one on a line. -/
def linesOf (entries : List Entry) : List Char :=
  entries.flatMap fun e => e.line.toList ++ ['\n']

/-- A writer that works keeps on working, and puts each piece behind the others. -/
theorem Writer.exists_write? {w : Writer} (h : w ≠ .broken) (piece : Bytes) :
    ∃ after, w.write? piece = some after ∧ after ≠ .broken ∧
      after.spool.bytes = w.spool.bytes ++ piece := by
  cases w with
  | memory written => exact ⟨_, rfl, Writer.noConfusion, by simp [Writer.spool, Spool.bytes]⟩
  | file spool => exact ⟨_, rfl, Writer.noConfusion, spool.bytes_add piece⟩
  | broken => exact absurd rfl h

namespace Emitter

theorem perform_eq (e : Emitter) (call : Call) : e.perform call = e.emitEntry call.given := by
  cases call <;> rfl

/-- The counter moves only if the entry needs a trace id. -/
theorem complete_eq (e : Emitter) (x : Entry) :
    let number := e.sequence + x.needsId.toNat
    e.complete x = (x.finish e.suite e.runId number, { e with sequence := number }) := by
  by_cases hid : x.traceId = ""
  · have hneeds : x.needsId = true := by simp [Entry.needsId, hid]
    have hempty : x.traceId.isEmpty = true := String.isEmpty_iff.2 hid
    simp only [complete, hempty, if_true, Entry.finish, hneeds]
    rfl
  · have hneeds : x.needsId = false := by simp [Entry.needsId, hid]
    have hempty : x.traceId.isEmpty = false := by simpa using hid
    simp only [complete, hempty, Entry.finish, hneeds]
    rfl

/-- One call writes the line of its entry behind what is written already. -/
theorem emitEntry_eq (e : Emitter) (h : e.writer ≠ .broken) (x : Entry) :
    let number := e.sequence + x.needsId.toNat
    let done := x.finish e.suite e.runId number
    ∃ writer, e.emitEntry x = (.ok done, { e with sequence := number, writer }) ∧
      writer ≠ .broken ∧
      writer.spool.bytes = e.written ++ Utf8.encodeChars (done.line.toList ++ ['\n']) := by
  intro number done
  obtain ⟨mid, hline, hmid, hbytes⟩ := Writer.exists_write? h (Utf8.encode done.line)
  obtain ⟨writer, hend, hwriter, hbytes'⟩ := Writer.exists_write? hmid [0x0A]
  refine ⟨writer, ?_, hwriter, ?_⟩
  · simp only [emitEntry, complete_eq, write]
    rw [hline, Option.bind_some, hend]
    rfl
  · rw [hbytes', hbytes, List.append_assoc, Utf8.encodeChars_append]
    rfl

/-- A run of calls gives back and writes all entries, completed, in the order of the calls. -/
theorem performAll_eq (e : Emitter) (h : e.writer ≠ .broken) (calls : List Call) :
    let entries := completed e.suite e.runId e.sequence (calls.map Call.given)
    (e.performAll calls).1 = entries.map .ok ∧
      (e.performAll calls).2.written = e.written ++ Utf8.encodeChars (linesOf entries) := by
  induction calls generalizing e with
  | nil => exact ⟨rfl, (List.append_nil _).symm⟩
  | cons call calls ih =>
    obtain ⟨writer, hemit, hwriter, hbytes⟩ := emitEntry_eq e h call.given
    obtain ⟨hresults, hwritten⟩ :=
      ih { e with sequence := e.sequence + call.given.needsId.toNat, writer } hwriter
    constructor
    · simp only [performAll, perform_eq, hemit, List.map_cons, completed_cons, hresults]
    · simp only [performAll, perform_eq, hemit, List.map_cons, completed_cons]
      rw [hwritten, written, hbytes, List.append_assoc, ← Utf8.encodeChars_append]
      rfl

theorem foldl_emitEntry (e : Emitter) (entries : List Entry) :
    entries.foldl (fun e x => (e.emitEntry x).2) e = (e.performAll (entries.map .entry)).2 := by
  induction entries generalizing e with
  | nil => rfl
  | cons x entries ih => exact ih _

end Emitter

/-- The generated ids of a run are those with the numbers that follow, in order. -/
theorem map_traceId_completed (suite runId : String) (before : Nat) (entries : List Entry) :
    ((entries.zip (completed suite runId before entries)).filter (·.1.needsId)).map (·.2.traceId) =
      (List.range' (before + 1) (entries.countP Entry.needsId)).map (generatedId suite runId) := by
  induction entries generalizing before with
  | nil => rfl
  | cons x entries ih =>
    rw [completed_cons, countP_needsId_cons, List.zip_cons_cons]
    cases h : x.needsId with
    | true => simp [h, ih, Entry.finish, Nat.add_comm 1, List.range'_succ]
    | false => simp [h, ih]

theorem generatedId_injective (suite runId : String) :
    Function.Injective (generatedId suite runId) := by
  intro m n h
  have hchars := congrArg String.toList h
  simp only [generatedId, String.toList_append, String.toList_ofList, List.append_cancel_left_eq]
    at hchars
  exact zeroPadded_inj.1 hchars

theorem generatedId_infix (suite runId : String) (n : Nat) :
    [':', ':'] <:+: (generatedId suite runId n).toList := by
  refine ⟨suite.toList, (runId ++ "::" ++ String.ofList (zeroPadded 3 n)).toList, ?_⟩
  simp [generatedId]

/-- What is asked of an entry for its line to be accepted: a trace id with a double colon, unless one
is to be generated, a policy that there is, and a length where a case has an outcome. -/
structure Entry.Loggable (e : Entry) : Prop extends e.Writable where
  traceId : e.traceId = "" ∨ [':', ':'] <:+: e.traceId.toList
  policy : ∀ word ∈ e.policy, word = "continue" ∨ word = "abort"
  length : e.caseName.isSome → e.outcome.isSome → e.outputLength.isSome

/-- An entry with the required fields only is accepted whatever they are. -/
theorem loggable_emit (now : String) (level : Level) (event : String) :
    (Call.emit now level event).given.Loggable :=
  ⟨⟨nofun, nofun, nofun, nofun⟩, .inl rfl, nofun, nofun⟩

theorem Entry.Loggable.finish {e : Entry} (h : e.Loggable) (suite runId : String) (number : Nat) :
    (e.finish suite runId number).Writable ∧ (e.finish suite runId number).breaches = [] := by
  have htrace : hasDoubleColon (e.finish suite runId number).traceId.toList = true := by
    rw [hasDoubleColon_iff, Entry.finish]
    by_cases hid : e.traceId = ""
    · simp only [Entry.needsId, hid, decide_true, if_true]
      exact generatedId_infix suite runId number
    · simp only [Entry.needsId, hid, decide_false]
      exact h.traceId.resolve_left hid
  exact ⟨⟨h.outputLength, h.diagnostics, h.latency, h.details⟩,
    Entry.breaches_eq_nil_iff.2 ⟨h.policy, htrace, h.length⟩⟩

theorem Entry.Loggable.completed {entries : List Entry} (h : ∀ e ∈ entries, e.Loggable)
    (suite runId : String) (before : Nat) :
    ∀ e ∈ completed suite runId before entries, e.Writable ∧ e.breaches = [] := by
  intro e he
  obtain ⟨k, hk, rfl⟩ := List.mem_mapIdx.1 he
  exact (h _ (List.getElem_mem hk)).finish suite runId _

section
variable {entries : List Entry}

theorem splitLines_linesOf (h : ∀ e ∈ entries, e.Writable) :
    Text.splitLines (linesOf entries) = entries.map (·.line.toList) ++ [[]] := by
  have hlines : ∀ l ∈ entries.map (·.line.toList), '\n' ∉ l := by
    intro l hl
    obtain ⟨e, he, rfl⟩ := List.mem_map.1 hl
    exact newline_notMem_line (h e he)
  rw [← Text.splitLines_flatMap hlines, List.flatMap_map]
  rfl

/-- Every line of a log counts, and none is trimmed. -/
theorem numberedLines_linesOf (h : ∀ e ∈ entries, e.Writable) :
    numberedLines (String.ofList (linesOf entries)) = (entries.map (·.line.toList)).zipIdx 1 := by
  have htrim : (entries.map (·.line.toList)).map Text.trimList = entries.map (·.line.toList) := by
    rw [List.map_map]
    refine List.map_congr_left fun e _ => ?_
    obtain ⟨middle, hline⟩ := line_eq_braces e
    rw [Function.comp_apply, hline]
    exact Text.trimList_eq_self (by decide) (by decide)
  have hfull : ∀ line ∈ (entries.map (·.line.toList)).zipIdx 1, (!line.1.isEmpty) = true := by
    intro line hline
    obtain ⟨e, -, he⟩ := List.mem_map.1 (List.fst_mem_of_mem_zipIdx hline)
    obtain ⟨middle, hbraces⟩ := line_eq_braces e
    rw [← he, hbraces]
    rfl
  rw [numberedLines, String.toList_ofList, splitLines_linesOf h, List.map_append, htrim,
    List.zipIdx_append, List.filter_append, List.filter_eq_self.2 hfull]
  exact List.append_nil _

theorem validateText_linesOf (h : ∀ e ∈ entries, e.Writable ∧ e.breaches = []) :
    validateText (String.ofList (linesOf entries)) = (entries.length, []) := by
  rw [validateText, numberedLines_linesOf fun e he => (h e he).1]
  refine Prod.ext (by simp) (List.flatMap_eq_nil_iff.2 ?_)
  rintro ⟨line, number⟩ hline
  obtain ⟨e, he, rfl⟩ := List.mem_map.1 (List.fst_mem_of_mem_zipIdx hline)
  simp only [lineViolations, String.ofList_toList, validateLine_line (h e he).1 (h e he).2]

end

/-- Whatever calls are made on an emitter, as long as the entries given can be accepted: every call
succeeds and writes one line, every line is accepted as the completed entry of its call, and the
generated trace ids are numbered from one, so that no two are equal. -/
theorem performAll_validates (suite runId : String) (calls : List Call)
    (h : ∀ e, Call.entry e ∈ calls → e.Loggable) :
    let run := ({ suite, runId, writer := .memory #[] } : Emitter).performAll calls
    let entries := completed suite runId 0 (calls.map Call.given)
    let generated :=
      (((calls.map Call.given).zip entries).filter (·.1.needsId)).map (·.2.traceId)
    run.1 = entries.map .ok ∧ entries.length = calls.length ∧
    (∃ text, run.2.written = Utf8.encode text ∧
      Text.splitLines text.toList = entries.map (·.line.toList) ++ [[]] ∧
      validateText text = (calls.length, [])) ∧
    (∀ e ∈ entries, ∀ number, validateLine e.line number = .ok e) ∧
    generated = (List.range' 1 ((calls.map Call.given).countP Entry.needsId)).map
      (generatedId suite runId) ∧
    generated.Nodup := by
  intro run entries generated
  obtain ⟨hresults, hwritten⟩ := Emitter.performAll_eq
    { suite, runId, writer := .memory #[] } nofun calls
  have hgiven : ∀ call ∈ calls, call.given.Loggable := by
    intro call hcall
    cases call with
    | emit now level event => exact loggable_emit now level event
    | entry e => exact h e hcall
  have hentries : ∀ e ∈ entries, e.Writable ∧ e.breaches = [] :=
    Entry.Loggable.completed (List.forall_mem_map.2 hgiven) suite runId 0
  have hlength : entries.length = calls.length := by
    rw [length_completed, List.length_map]
  have hids : generated = (List.range' 1 ((calls.map Call.given).countP Entry.needsId)).map
      (generatedId suite runId) :=
    map_traceId_completed suite runId 0 (calls.map Call.given)
  refine ⟨hresults, hlength, ⟨String.ofList (linesOf entries), ?_, ?_, ?_⟩, ?_, hids, ?_⟩
  · rw [Utf8.encode_ofList]
    exact hwritten
  · rw [String.toList_ofList]
    exact splitLines_linesOf fun e he => (hentries e he).1
  · rw [validateText_linesOf hentries, hlength]
  · intro e he number
    exact validateLine_line (hentries e he).1 (hentries e he).2 number
  · rw [hids]
    exact List.Nodup.map (generatedId_injective suite runId) List.nodup_range'

/-- Characters that end a line somewhere, an id that is given in between, numbers at their bounds. -/
theorem performAll_validates_line_ends :
    let entry : Entry := {
      timestamp := "", traceId := "x::y", level := .error, event := "\"\\", policy := some "abort"
      caseName := some "\r\n", outcome := some .fail, outputLength := some 18446744073709551615
      details := some (.object [("", .array [.null, .number (.integer (-9223372036854775808))]),
        ("a", .object [])]) }
    let calls := [Call.emit "T" .info "a\nb\u2028\x00", .entry entry, .emit "T" .warn ""]
    let run := ({ suite := "\n", runId := "", writer := .memory #[] } : Emitter).performAll calls
    (∀ e, Call.entry e ∈ calls → e.Loggable) ∧
    (∃ text, run.2.written = Utf8.encode text ∧ validateText text = (3, [])) ∧
    (completed "\n" "" 0 (calls.map Call.given)).map (·.traceId) =
      ["\n::::001", "x::y", "\n::::002"] := by
  intro entry calls run
  have hlogged : ∀ e, Call.entry e ∈ calls → e.Loggable := by
    intro e he
    obtain rfl : e = entry := by simpa [calls] using he
    refine ⟨⟨?_, nofun, nofun, ?_⟩, .inr (hasDoubleColon_iff.1 (by decide)), ?_, ?_⟩
    · rintro n hn
      cases hn
      exact Nat.le_refl _
    · rintro d hd
      cases hd
      exact ⟨nofun, rfl, by decide +kernel, by decide +kernel⟩
    · rintro word hword
      cases hword
      exact .inr rfl
    · exact fun _ _ => rfl
  obtain ⟨-, -, ⟨text, hwritten, -, hvalid⟩, -⟩ := performAll_validates "\n" "" calls hlogged
  exact ⟨hlogged, ⟨text, hwritten, hvalid⟩, by decide +kernel⟩

end PercentFormat.Log
