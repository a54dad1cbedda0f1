import Mathlib.Data.List.Forall2
import PercentFormat.Proofs.Captured
import PercentFormat.Proofs.Command.ReportFiles
import PercentFormat.Proofs.Log.Emission
import PercentFormat.Proofs.Segmentation

/-! The log of a verification tells what its report tells: for each suite one line for each of its
cases, with the verdict on it, and then one line on the suite. Log and report need places of their
own for that. -/

namespace PercentFormat
open Fixture (Case Suite)

/-- What a verdict counts is bounded by the limits of the call and by its template. -/
theorem Verdict.ofCase_sizes (policy : Policy) (c : Case) :
    (Verdict.ofCase policy c).actualLength ≤ 65536 ∧
      (Verdict.ofCase policy c).diagnostics.length ≤ (Utf8.encode c.template).length := by
  unfold Verdict.ofCase
  split
  · exact ⟨Nat.zero_le _, Nat.zero_le _⟩
  · next args _ =>
    split
    · next f hf =>
      obtain ⟨hfits, rfl, -⟩ := formatWith_returns_iff.1 hf
      refine ⟨hfits.total, ?_⟩
      simp only [Verdict.ofFormatted, List.length_map]
      exact length_rendering_diagnostics_le _ args
    · exact ⟨Nat.zero_le _, Nat.zero_le _⟩

/-- A suite that a memory with addresses of 64 bits can hold. -/
structure Fixture.Suite.InMemory (s : Suite) : Prop where
  cases : s.cases.length ≤ maxSize
  templates : ∀ c ∈ s.cases, (Utf8.encode c.template).length ≤ maxSize

namespace Verify

/-- An entry that tells what became of a case. -/
structure TellsVerdict (e : Log.Entry) (v : Verdict) : Prop where
  event : e.event = "case_verified"
  caseName : e.caseName = some v.caseName
  template : e.template = some v.template
  outputLength : e.outputLength = some v.actualLength
  diagnostics : e.diagnostics = some v.diagnostics.length
  outcome : e.outcome = some (if v.passed then .pass else .fail)

/-- An entry that tells of which family a suite is, and how many cases it has. -/
structure TellsSuite (e : Log.Entry) (s : Suite) : Prop where
  event : e.event = "fixture_set_done"
  family : (e.details.bind (·.get? "family")) = some (.string s.family)
  cases : (e.details.bind (·.get? "cases")) = some (.ofNat s.cases.length)

/-- An entry that tells what became of a case, by its name and template. -/
structure TellsCase (policy : Policy) (e : Log.Entry) (c : Case) : Prop where
  verdict : TellsVerdict e (Verdict.ofCase policy c)
  caseName : e.caseName = some c.name
  template : e.template = some c.template

/-- Entries that tell of all cases of a suite, in order, and then of the suite. -/
def TellsBlock (policy : Policy) (block : List Log.Entry) (s : Suite) : Prop :=
  ∃ cases done, block = cases ++ [done] ∧ List.Forall₂ (TellsCase policy) cases s.cases ∧
    TellsSuite done s

theorem tellsCase_caseEntry (policy : Policy) (now : String) (c : Case) :
    TellsCase policy (caseEntry policy now (Verdict.ofCase policy c)) c := by
  obtain ⟨hname, htemplate, -⟩ := Verdict.ofCase_names policy c
  exact ⟨⟨rfl, rfl, rfl, rfl, rfl, rfl⟩, congrArg some hname, congrArg some htemplate⟩

theorem TellsCase.finish {policy : Policy} {e : Log.Entry} {c : Case} (h : TellsCase policy e c)
    (suite runId : String) (n : Nat) : TellsCase policy (e.finish suite runId n) c :=
  ⟨⟨h.verdict.event, h.verdict.caseName, h.verdict.template, h.verdict.outputLength,
    h.verdict.diagnostics, h.verdict.outcome⟩, h.caseName, h.template⟩

private theorem forall₂_mapIdx_left {α β γ : Type} {R : β → γ → Prop} {f : Nat → α → β} {xs : List α}
    {ys : List γ} (h : List.Forall₂ (fun x y => ∀ k, R (f k x) y) xs ys) :
    List.Forall₂ R (xs.mapIdx f) ys := by
  induction xs generalizing f ys with
  | nil =>
    cases h
    exact .nil
  | cons x xs ih =>
    obtain _ | ⟨hfirst, hothers⟩ := h
    rw [List.mapIdx_cons]
    exact .cons (hfirst 0) (ih (hothers.imp fun _ _ h k => h (k + 1)))

section
variable (host : Host) (policy : Policy) (suite runId : String)

/-- The entries of one suite are a block of the log, whatever was written before them. -/
theorem tellsBlock_completed (before index moment : Nat) (s : Suite) :
    TellsBlock policy
      (Log.completed suite runId before (suiteEntries host policy index moment s)) s := by
  have hcases : List.Forall₂ (TellsCase policy) ((Verdict.ofSuite policy s).mapIdx
      fun k v => caseEntry policy (host.clock (moment + k)) v) s.cases := by
    refine forall₂_mapIdx_left ?_
    rw [Verdict.ofSuite, List.forall₂_map_left_iff, List.forall₂_same]
    exact fun c _ k => tellsCase_caseEntry policy (host.clock (moment + k)) c
  rw [suiteEntries, Log.completed_append]
  exact ⟨_, _, rfl, Log.forall₂_completed (fun _ _ n h => h.finish suite runId n) hcases before,
    rfl, rfl, rfl⟩

/-- The log of a run is one block after the other. -/
theorem exists_blocks (before index moment : Nat) (suites : List Suite) :
    ∃ blocks, Log.completed suite runId before (entriesFrom host policy index moment suites) =
        blocks.flatten ∧
      List.Forall₂ (TellsBlock policy) blocks suites := by
  induction suites generalizing before index moment with
  | nil => exact ⟨[], rfl, .nil⟩
  | cons s suites ih =>
    rw [entriesFrom, Log.completed_append]
    obtain ⟨blocks, hblocks, htells⟩ := ih (before + _) (index + 1) (moment + s.cases.length + 1)
    refine ⟨_ :: blocks, ?_,
      .cons (tellsBlock_completed host policy suite runId before index moment s) htells⟩
    rw [List.flatten_cons, ← hblocks]

end

section
variable {policy : Policy} {blocks : List (List Log.Entry)} {suites : List Suite}

/-- Without the entries on suites, a log is the verdicts of the report, in their order. -/
theorem forall₂_tellsVerdict (h : List.Forall₂ (TellsBlock policy) blocks suites) :
    List.Forall₂ TellsVerdict (blocks.flatten.filter (·.event == "case_verified"))
      (suites.flatMap (Verdict.ofSuite policy)) := by
  induction h with
  | nil => exact .nil
  | cons hblock _ ih =>
    obtain ⟨cases, done, rfl, hcases, hdone⟩ := hblock
    have hverdicts : List.Forall₂ TellsVerdict cases (Verdict.ofSuite policy _) :=
      List.forall₂_map_right_iff.2 (hcases.imp fun _ _ h => h.verdict)
    have hevents : ∀ e ∈ cases, e.event = "case_verified" :=
      ((List.forall₂_and_left _ _).1 (hverdicts.imp fun _ _ h => ⟨h.event, h⟩)).1
    have hkept : cases.filter (·.event == "case_verified") = cases :=
      List.filter_eq_self.2 fun e he => beq_iff_eq.2 (hevents e he)
    have hdropped : [done].filter (·.event == "case_verified") = [] := by
      simp [hdone.event]
    rw [List.flatten_cons, List.filter_append, List.filter_append, hkept, hdropped,
      List.append_nil, List.flatMap_cons]
    exact List.rel_append hverdicts ih

theorem length_flatten_blocks (h : List.Forall₂ (TellsBlock policy) blocks suites) :
    blocks.flatten.length = (suites.flatMap (Verdict.ofSuite policy)).length + suites.length := by
  induction h with
  | nil => rfl
  | cons hblock _ ih =>
    obtain ⟨cases, done, rfl, hcases, -⟩ := hblock
    have hlength := hcases.length_eq
    simp only [List.flatten_cons, List.flatMap_cons, List.length_append, List.length_cons, ih,
      Verdict.ofSuite, List.length_map, List.length_nil]
    omega

end

section
variable {host : Host} {policy : Policy}

private theorem name_of_policy : ∀ word ∈ some policy.name, word = "continue" ∨ word = "abort" := by
  rintro _ ⟨⟩
  cases policy with
  | proceed => exact .inl rfl
  | abort => exact .inr rfl

private theorem loggable_caseEntry {now : String} {v : Verdict} (hlength : v.actualLength ≤ maxSize)
    (hdiagnostics : v.diagnostics.length ≤ maxSize) : (caseEntry policy now v).Loggable := by
  refine ⟨⟨?_, ?_, nofun, nofun⟩, .inl rfl, name_of_policy, fun _ _ => rfl⟩
  · rintro _ ⟨⟩
    exact hlength
  · rintro _ ⟨⟩
    exact hdiagnostics

private theorem loggable_suiteEntry {now : String} {latency : UInt64} {s : Suite}
    (hcases : s.cases.length ≤ maxSize) : (suiteEntry policy now latency s).Loggable := by
  refine ⟨⟨nofun, nofun, ?_, ?_⟩, .inl rfl, name_of_policy, nofun⟩
  · rintro _ ⟨⟩
    exact Nat.le_of_lt_succ latency.toNat_lt
  · rintro _ ⟨⟩
    have hkeys : ["cases", "family"].Pairwise (· < ·) := by decide
    refine ⟨nofun, Json.Value.plain_object hkeys ?_⟩
    rw [List.forall_mem_cons, List.forall_mem_singleton]
    exact ⟨Json.Value.plain_ofNat 125 hcases, Json.Value.plain_string 125 s.family⟩

private theorem loggable_suiteEntries {index moment : Nat} {s : Suite} (h : s.InMemory) :
    ∀ e ∈ suiteEntries host policy index moment s, e.Loggable := by
  intro e he
  rcases List.mem_append.1 he with he | he
  · obtain ⟨k, hk, rfl⟩ := List.mem_mapIdx.1 he
    obtain ⟨c, hc, hv⟩ := List.mem_map.1 (List.getElem_mem hk)
    obtain ⟨hlength, hdiagnostics⟩ := Verdict.ofCase_sizes policy c
    rw [← hv]
    exact loggable_caseEntry (Nat.le_trans hlength (by decide))
      (Nat.le_trans hdiagnostics (h.templates c hc))
  · rw [List.mem_singleton.1 he]
    exact loggable_suiteEntry h.cases

theorem loggable_entriesFrom {index moment : Nat} {suites : List Suite}
    (h : ∀ s ∈ suites, s.InMemory) :
    ∀ e ∈ entriesFrom host policy index moment suites, e.Loggable := by
  induction suites generalizing index moment with
  | nil => exact List.forall_mem_nil _
  | cons s suites ih =>
    obtain ⟨hs, hsuites⟩ := List.forall_mem_cons.1 h
    rw [entriesFrom, List.forall_mem_append]
    exact ⟨loggable_suiteEntries hs, ih hsuites⟩

end

/-- What is written to the log, in parts, is the lines of the completed entries. -/
theorem bytes_logSpool (host : Host) (policy : Policy) (suites : List Suite) :
    (logSpool host policy suites).bytes = Utf8.encode (String.ofList (Log.linesOf
      (Log.completed "verify" host.runId 0 (entriesFrom host policy 0 0 suites)))) := by
  have hgiven (entries : List Log.Entry) : (entries.map Log.Call.entry).map Log.Call.given = entries := by
    rw [List.map_map]
    exact List.map_id _
  have hrun := (Log.Emitter.performAll_eq
    { suite := "verify", runId := host.runId, writer := .file {} } nofun
    ((entriesFrom host policy 0 0 suites).map .entry)).2
  rw [hgiven] at hrun
  rw [logSpool, Log.Emitter.foldl_emitEntry, Utf8.encode_ofList]
  exact hrun

section
variable {t opened after : FileTree} {log : String} {files : List (String × Bytes)}
  {spool : Log.Spool}

/-- A log holds all that was written to it if no other file was written to its place. -/
theorem read_closeLog (hopen : openLog t (some log) = .ok opened)
    (hfiles : writeFiles (sendLog opened spool (some log)) files = (after, none))
    (hapart : ∀ file ∈ files, t.Apart log file.1) :
    (closeLog after spool (some log)).read log = .ok spool.bytes := by
  have hsame := sameDirectories_sendLog hopen spool
  have hsent := FileTree.read_write_self (write_sendLog hopen spool)
  have hkept := (read_writeFiles_of_apart hfiles
    (fun file hfile => (FileTree.apart_of_sameDirectories hsame).2 (hapart file hfile)) _).2 hsent
  have hclosed := FileTree.read_write_self
    (FileTree.write_of_read hkept spool.sent.size spool.held.toList)
  rw [← Array.length_toList, FileTree.splice_length] at hclosed
  exact hclosed

theorem read_closeLog_of_apart (hopen : openLog t (some log) = .ok opened)
    (hfiles : writeFiles (sendLog opened spool (some log)) files = (after, none)) {other : String}
    (hapart : t.Apart log other) (held : Bytes) :
    (closeLog after spool (some log)).read other = .ok held ↔ after.read other = .ok held := by
  obtain ⟨now, hnow⟩ := exists_read_writeFiles hfiles
    (FileTree.read_write_self (write_sendLog hopen spool))
  have hsame := (sameDirectories_writeFiles hfiles).trans (sameDirectories_sendLog hopen spool)
  exact FileTree.read_write_of_apart (FileTree.write_of_read hnow _ _)
    ((FileTree.apart_of_sameDirectories hsame).2 hapart.symm) held

end

/-- The paths of the files in a directory with the extension `json`, in the order of their names. -/
def InNameOrder (t : FileTree) (dir : String) (paths : List String) : Prop :=
  ∃ (location : Location) (names : List String), t.openDir dir = .ok location ∧
    names.Perm ((t.namesIn location).filter (Path.hasExtension "json")) ∧
    names.Pairwise (· ≤ ·) ∧ paths = names.map (Path.join dir)

theorem inNameOrder_suitePaths {t : FileTree} {dir : String} {paths : List String}
    (h : suitePaths t dir = .ok paths) : InNameOrder t dir paths := by
  obtain ⟨sorted, hsorted, h⟩ := exists_of_bind_ok h
  cases h
  rw [FileTree.list] at hsorted
  cases hopen : t.openDir dir with
  | error fault =>
    rw [hopen] at hsorted
    cases hsorted
  | ok location =>
  rw [hopen] at hsorted
  cases hsorted
  have hpairwise : ((t.namesIn location).mergeSort fun a b => decide (a ≤ b)).Pairwise (· ≤ ·) := by
    refine (List.pairwise_mergeSort (fun a b c => ?_) (fun a b => ?_) _).imp of_decide_eq_true
    · simpa using String.le_trans
    · simpa using String.le_total a b
  exact ⟨location, _, hopen, (List.mergeSort_perm _ _).filter _, hpairwise.filter _, rfl⟩

end Verify

/-- The numbers of a summary are those of its results. -/
structure Summary.Counts (s : Summary) : Prop where
  total : s.total = s.results.length
  passed : s.passed = s.results.countP (·.passed)
  failed : s.failed = s.results.countP (!·.passed)
  sum : s.passed + s.failed = s.total

theorem Summary.counts_ofResults (results : List Verdict) : (Summary.ofResults results).Counts := by
  have hcount : results.length = results.countP (·.passed) + results.countP (!·.passed) := by
    rw [List.length_eq_countP_add_countP (·.passed)]
    simp
  refine ⟨rfl, rfl, ?_, ?_⟩
  · show results.length - results.countP (·.passed) = results.countP (!·.passed)
    omega
  · show results.countP (·.passed) + (results.length - results.countP (·.passed)) = results.length
    omega

theorem Summary.isSome_failure_iff (s : Summary) (failure : Failure) :
    (if s.allPassed then none else some failure).isSome ↔ 0 < s.failed := by
  rw [Summary.allPassed, Nat.pos_iff_ne_zero]
  by_cases h : s.failed = 0 <;> simp [h]

/-- A log of accepted lines is reported to have no errors. -/
theorem Command.runValidateLog_linesOf {t : FileTree} {log : String} {lines : List Log.Entry}
    (hread : t.read log = .ok (Utf8.encode (String.ofList (Log.linesOf lines))))
    (h : ∀ e ∈ lines, e.Writable ∧ e.breaches = []) :
    Command.runValidateLog t log =
      { tree := t
        notes := [s!"Validated {lines.length} lines in " ++ log ++ ": 0 errors"] } := by
  simp only [Command.runValidateLog, Verify.readText_of_read hread, Log.validateText_linesOf h]
  rfl

/-- What the lines of a log, in blocks, tell of a verification: for each suite one line for each case
and then one on the suite. Without the latter they are the results of the report one by one. -/
structure Verify.LogTells (policy : Policy) (suites : List Suite) (summary : Summary)
    (blocks : List (List Log.Entry)) (text : String) : Prop where
  lines : Text.splitLines text.toList = blocks.flatten.map (·.line.toList) ++ [[]]
  accepted : ∀ e ∈ blocks.flatten, ∀ number, Log.validateLine e.line number = .ok e
  ofSuites : List.Forall₂ (TellsBlock policy) blocks suites
  ofCases : List.Forall₂ TellsVerdict (blocks.flatten.filter (·.event == "case_verified")) summary.results
  length : blocks.flatten.length = summary.total + suites.length

/-- What the files are found to hold behind a verification whose log has a place of its own. -/
structure Verify.KeptApart (host : Host) (env : Environment) (log : String) (reportPath : Option String)
    (r : Report) (text : String) (count : Nat) (t : FileTree) : Prop where
  content : t.read log = .ok (Utf8.encode text)
  report : ∀ path ∈ reportPath, t.read (Path.withExtension "json" path) = .ok (Utf8.encode r.text)
  validated : Command.run host env t (.validateLog log) =
    { tree := t, notes := [s!"Validated {count} lines in " ++ log ++ ": 0 errors"] }

/-- What a verification that writes a log does. -/
structure Verify.TellsReport (host : Host) (env : Environment) (t : FileTree) (log : String)
    (reportPath : Option String) (policy : Policy) (suites : List Suite) (r : Report) (o : Outcome)
    (blocks : List (List Log.Entry)) (text : String) : Prop where
  written : (logSpool host policy suites).bytes = Utf8.encode text
  tells : LogTells policy suites r.summary blocks text
  counts : r.summary.Counts
  failure : o.failure.isSome ↔ 0 < r.summary.failed
  apart : (∀ path ∈ reportPath, ∀ place ∈ reportPaths path, t.Apart log place) →
    KeptApart host env log reportPath r text blocks.flatten.length o.tree
  /-- With one path for both, what was held back of the log is written over the report. -/
  overlaid : reportPath = some log → o.tree.read log = .ok (FileTree.splice
    (Utf8.encode (if Path.withExtension "json" log = log then r.text else r.markdown))
    (logSpool host policy suites).sent.size (logSpool host policy suites).held.toList)

/-- The log of a verification, with all writes done, tells what its report tells, suite by suite in the
order of the names of the files. Every line is accepted. These lines are what the log holds, unless a
file of the report is written to the same place. -/
theorem verify_log_tells_report (host : Host) (env : Environment) (t : FileTree)
    (dir word log : String) (reportPath timestamp : Option String) (paths : List String)
    (hpaths : Verify.suitePaths t dir = .ok paths) (hfound : Verify.suites t paths ≠ [])
    (hwrites : ∀ fault, (Command.run host env t
      (.verify dir word reportPath (some log) timestamp)).failure ≠ some (.io fault))
    (hmemory : ∀ s ∈ Verify.suites t paths, s.InMemory) :
    Verify.InNameOrder t dir paths ∧
    ∃ (blocks : List (List Log.Entry)) (text : String),
      Verify.TellsReport host env t log reportPath (Policy.ofWord word) (Verify.suites t paths)
        (Verify.report host (Policy.ofWord word) timestamp (Verify.suites t paths))
        (Command.run host env t (.verify dir word reportPath (some log) timestamp)) blocks text := by
  refine ⟨Verify.inNameOrder_suitePaths hpaths, ?_⟩
  generalize hs : Verify.suites t paths = suites at hfound hmemory
  obtain ⟨opened, after, hopen, hfiles, htree, hfailure⟩ :=
    Verify.run_of_suites hpaths (hs ▸ hfound) hwrites
  rw [hs] at hfiles htree hfailure
  rw [Command.run]
  generalize Verify.run host t dir (Policy.ofWord word) reportPath (some log) timestamp = o at *
  obtain ⟨blocks, hblocks, htells⟩ :=
    Verify.exists_blocks host (Policy.ofWord word) "verify" host.runId 0 0 0 suites
  have hlines : ∀ e ∈ blocks.flatten, e.Writable ∧ e.breaches = [] := by
    rw [← hblocks]
    exact Log.Entry.Loggable.completed (Verify.loggable_entriesFrom hmemory) _ _ _
  have hbytes : (Verify.logSpool host (Policy.ofWord word) suites).bytes =
      Utf8.encode (String.ofList (Log.linesOf blocks.flatten)) := by
    rw [Verify.bytes_logSpool, hblocks]
  have hsplit : Text.splitLines (String.ofList (Log.linesOf blocks.flatten)).toList =
      blocks.flatten.map (·.line.toList) ++ [[]] := by
    rw [String.toList_ofList]
    exact Log.splitLines_linesOf fun e he => (hlines e he).1
  have hcounts := Summary.counts_ofResults
    (Verify.report host (Policy.ofWord word) timestamp suites).summary.results
  refine ⟨blocks, String.ofList (Log.linesOf blocks.flatten), hbytes, ?_, hcounts, ?_, fun hapart => ?_, ?_⟩
  · exact {
      lines := hsplit
      accepted := fun e he number => Log.validateLine_line (hlines e he).1 (hlines e he).2 number
      ofSuites := htells
      ofCases := Verify.forall₂_tellsVerdict htells
      length := Verify.length_flatten_blocks htells }
  · rw [hfailure]
    exact Summary.isSome_failure_iff _ _
  · have hread := Verify.read_closeLog hopen hfiles (Verify.forall_mem_outputs.2 hapart)
    rw [hbytes] at hread
    rw [htree]
    refine ⟨hread, ?_, Command.runValidateLog_linesOf hread hlines⟩
    rintro path ⟨⟩
    obtain ⟨-, hjson, -⟩ := Verify.forall_mem_reportPaths.1 (hapart path rfl)
    exact (Verify.read_closeLog_of_apart hopen hfiles hjson _).2 (Verify.read_reportFiles hfiles).2.1
  · rintro rfl
    rw [htree]
    exact FileTree.read_write_self
      (FileTree.write_of_read (Verify.read_reportFiles hfiles).2.2 _ _)

/-- A case that passes and one that fails, and a report. -/
theorem verify_log_tells_report_mixed :
    let suite : Suite := ⟨"v1", "f", "t", [⟨"ok", "%d", [.int 5], "5", 1, 0⟩,
      ⟨"bad", "%q", [], "", 0, 0⟩]⟩
    let t := sampleTree suite
    let o := Command.run sampleHost {} t
      (.verify "fx" "continue" (some "out.md") (some "run.log") none)
    Verify.suitePaths t "fx" = .ok ["fx/a.json"] ∧ Verify.suites t ["fx/a.json"] = [suite] ∧
    (∀ fault, o.failure ≠ some (.io fault)) ∧ o.failure.isSome ∧
    ∃ text, o.tree.read "run.log" = .ok (Utf8.encode text) ∧
      (Command.run sampleHost {} o.tree (.validateLog "run.log")).notes =
        ["Validated 3 lines in run.log: 0 errors"] := by
  intro suite t o
  have hrun : o = Command.run sampleHost {} t
    (.verify "fx" "continue" (some "out.md") (some "run.log") none) := rfl
  clear_value o
  have hsized : ∀ c ∈ suite.cases, c.Sized := by
    intro c hc
    rcases List.mem_pair.1 hc with rfl | rfl
    · exact ⟨by decide, by decide⟩
    · exact ⟨by decide, by decide⟩
  have hpaths := suitePaths_sampleTree suite
  have hfound : Verify.suites t ["fx/a.json"] = [suite] := suites_sampleTree hsized
  have hwrites : ∀ fault, o.failure ≠ some (.io fault) := by
    rw [hrun]
    refine failure_run_sampleTree hsized ?_ (accepts_markdown_sampleTree suite)
    rintro path ⟨⟩
    exact accepts_sampleTree "run.log" rfl (by decide) (by decide)
  have hmemory : ∀ s ∈ Verify.suites t ["fx/a.json"], s.InMemory := by
    rw [hfound, List.forall_mem_singleton]
    exact ⟨by decide, by decide +kernel⟩
  obtain ⟨-, blocks, text, htold⟩ :=
    verify_log_tells_report sampleHost {} t "fx" "continue" "run.log" (some "out.md") none _ hpaths
      (by simp [hfound]) (hrun ▸ hwrites) hmemory
  rw [← hrun, hfound] at htold
  have hlog : t.locate "run.log" = .ok (.entry [] "run.log" false) := rfl
  have hmarkdown : t.locate "out.md" = .ok (.entry [] "out.md" false) := rfl
  have hjson : t.locate (Path.withExtension "json" "out.md") = .ok (.entry [] "out.json" false) := rfl
  have hindex : t.locate (Path.withExtension "artifacts.json" "out.md") =
    .ok (.entry [] "out.artifacts.json" false) := rfl
  have hkept := htold.apart (by
    rintro path ⟨⟩
    rw [Verify.forall_mem_reportPaths]
    exact ⟨FileTree.apart_of_name_ne hlog hmarkdown (by decide),
      FileTree.apart_of_name_ne hlog hjson (by decide),
      FileTree.apart_of_name_ne hlog hindex (by decide)⟩)
  refine ⟨hpaths, hfound, hwrites, htold.failure.2 (by decide +kernel), text, hkept.content, ?_⟩
  have hthree : blocks.flatten.length = 3 := htold.tells.length
  have hnote : [s!"Validated {3} lines in " ++ "run.log" ++ ": 0 errors"] =
    ["Validated 3 lines in run.log: 0 errors"] := by decide +kernel
  rw [hkept.validated, hthree]
  exact hnote

/-- A line that is no JSON is a violation, wherever it stands. -/
theorem Log.violations_ne_nil {text : String} (line : List Char)
    (hline : line ∈ Text.splitLines text.toList) (hfull : Text.trimList line ≠ [])
    (hjson : Json.Value.parse? (String.ofList (Text.trimList line)) = none) :
    (Log.validateText text).2 ≠ [] := by
  intro hnone
  obtain ⟨k, hk⟩ := List.mem_iff_getElem?.1 (List.mem_map_of_mem (f := Text.trimList) hline)
  have hmem : (Text.trimList line, k + 1) ∈ Log.numberedLines text := by
    refine List.mem_filter.2 ⟨?_, by simpa using hfull⟩
    exact List.mk_mem_zipIdx_iff_le_and_getElem?_sub.2 ⟨Nat.le_add_left 1 k, hk⟩
  have hbad : Log.lineViolations (k + 1) (Text.trimList line) = [⟨k + 1, .notJson⟩] := by
    simp only [Log.lineViolations, Log.validateLine, Log.checkLine, hjson]
    rfl
  have hgood := List.flatMap_eq_nil_iff.1 hnone _ hmem
  exact absurd (hbad.symm.trans hgood) (List.cons_ne_nil _ _)

private theorem Command.failure_runValidateLog {t : FileTree} {log text : String}
    (hread : t.read log = .ok (Utf8.encode text)) (h : (Log.validateText text).2 ≠ []) :
    (Command.runValidateLog t log).failure ≠ none := by
  simp only [Command.runValidateLog, Verify.readText_of_read hread]
  rw [if_neg (by simpa using h)]
  exact Option.some_ne_none _

/-- The line below the head of the table in a report is no JSON. -/
private theorem violations_append_tableHead (text : String) :
    (Log.validateText (text ++ Report.tableHead)).2 ≠ [] := by
  let rule := "|------|----------|--------|--------|".toList
  have hsplit : (text ++ Report.tableHead).toList =
      (text.toList ++ "| Case | Template | Length | Status |".toList)
        ++ '\n' :: (rule ++ '\n' :: []) := by
    rw [String.toList_append, List.append_assoc]
    exact congrArg (text.toList ++ ·) (by decide +kernel)
  have hrule : '\n' ∉ rule := by decide +kernel
  have htrim : Text.trimList rule = rule := by decide +kernel
  refine Log.violations_ne_nil rule ?_ ?_ ?_
  · rw [hsplit, Text.splitLines, Text.splitAt_append, Text.splitAt_append,
      Text.splitAt_of_notMem hrule]
    simp
  · rw [htrim]
    decide +kernel
  · rw [htrim]
    decide +kernel

/-- A log that was held back as a whole is written over the start of what is in its place. -/
private theorem Verify.read_closeLog_over {after : FileTree} {path : String} {front back log : Bytes}
    (hread : after.read path = .ok (front ++ back)) (hne : log ≠ [])
    (h : log.length = front.length) :
    (closeLog after { held := log.toArray } (some path)).read path = .ok (log ++ back) := by
  have hwrite := FileTree.write_of_read hread 0 log
  rw [FileTree.splice_zero hne h] at hwrite
  exact FileTree.read_write_self hwrite

/-- The log of a suite without cases has one line. It is held back if it is not long. -/
private theorem Verify.logSpool_of_no_cases {host : Host} {policy : Policy} {s : Suite} {e : Log.Entry}
    (hcases : s.cases = [])
    (he : e = (suiteEntry policy (host.clock 0) (host.latency 0) s).finish "verify" host.runId 1)
    (hshort : (Utf8.encode e.line).length + 1 < Log.Spool.capacity) :
    logSpool host policy [s] = { held := (Utf8.encode e.line ++ [0x0A]).toArray } := by
  have hentries : entriesFrom host policy 0 0 [s] =
      [suiteEntry policy (host.clock 0) (host.latency 0) s] := by
    simp only [entriesFrom, suiteEntries, Verdict.ofSuite, hcases]
    rfl
  have hspool : logSpool host policy [s] =
      (({} : Log.Spool).add (Utf8.encode e.line)).add [0x0A] := by
    simp only [logSpool, hentries, List.foldl_cons, List.foldl_nil, Log.Emitter.emitEntry,
      Log.Emitter.complete_eq, he]
    rfl
  rw [hspool]
  exact Log.Spool.add_add_of_lt hshort

/-- The entry in the log of a suite without cases. -/
def sampleEntry : Log.Entry :=
  (Verify.suiteEntry .proceed (sampleHost.clock 0) (sampleHost.latency 0) ⟨"v1", "f", "t", []⟩).finish
    "verify" sampleHost.runId 1

private theorem length_sampleEntry : (Utf8.encode sampleEntry.line).length = 197 := by
  rw [Log.Entry.line, Json.Value.compact, Utf8.encode_ofList]
  decide +kernel

private theorem encode_markdown_of_no_results {r : Report} (h : r.summary.results = []) :
    Utf8.encode r.markdown = Utf8.encode r.heading ++ Utf8.encode Report.tableHead := by
  rw [Report.markdown, h, ← Utf8.encode_append]
  simp [String.join]

/-- With this timestamp a report has as much in front of its table as the log with that entry has. -/
def sampleStamp : String := String.ofList (List.replicate 98 'x')

private theorem length_heading_sampleStamp :
    (Utf8.encode (Verify.report sampleHost .proceed (some sampleStamp)
      [⟨"v1", "f", "t", []⟩]).heading).length = 198 := by
  rw [Report.heading]
  simp only [Utf8.encode_append, List.length_append]
  decide +kernel

/-- With one path for the log and for the report, the log is written over the report, and what stands
behind it is no line of a log. -/
theorem verify_log_over_report :
    let suite : Suite := ⟨"v1", "f", "t", []⟩
    let t := sampleTree suite
    let o := Command.run sampleHost {} t
      (.verify "fx" "continue" (some "out.md") (some "out.md") (some sampleStamp))
    Verify.suitePaths t "fx" = .ok ["fx/a.json"] ∧ Verify.suites t ["fx/a.json"] = [suite] ∧
    (∀ fault, o.failure ≠ some (.io fault)) ∧
    o.tree.read "out.md" = .ok (Utf8.encode (sampleEntry.line ++ "\n" ++ Report.tableHead)) ∧
    (Command.run sampleHost {} o.tree (.validateLog "out.md")).failure ≠ none := by
  intro suite t o
  have hrun : o = Command.run sampleHost {} t
    (.verify "fx" "continue" (some "out.md") (some "out.md") (some sampleStamp)) := rfl
  clear_value o
  have hsized : ∀ c ∈ suite.cases, c.Sized := nofun
  have hpaths := suitePaths_sampleTree suite
  have hfound := suites_sampleTree hsized
  have hwrites : ∀ fault, o.failure ≠ some (.io fault) := by
    rw [hrun]
    refine failure_run_sampleTree hsized ?_ (accepts_markdown_sampleTree suite)
    rintro path ⟨⟩
    exact accepts_sampleTree "out.md" rfl (by decide) (by decide)
  have hpolicy : Policy.ofWord "continue" = .proceed := rfl
  rw [Command.run, hpolicy] at hrun
  rw [hrun] at hwrites
  obtain ⟨opened, after, -, hfiles, htree, -⟩ :=
    Verify.run_of_suites hpaths (by simp [hfound]) hwrites
  rw [hfound] at hfiles htree
  have hreport := (Verify.read_reportFiles hfiles).2.2
  rw [if_neg (by decide +kernel), encode_markdown_of_no_results rfl] at hreport
  have hnewline : Utf8.encode "\n" = [0x0A] := by decide +kernel
  have hlength : (Utf8.encode sampleEntry.line ++ [0x0A]).length = 198 := by
    rw [List.length_append, length_sampleEntry]
    rfl
  have hshort : (Utf8.encode sampleEntry.line).length + 1 < Log.Spool.capacity := by
    rw [length_sampleEntry]
    decide
  have hspool : Verify.logSpool sampleHost .proceed [suite] = _ :=
    Verify.logSpool_of_no_cases rfl rfl hshort
  have hread : o.tree.read "out.md" =
      .ok (Utf8.encode (sampleEntry.line ++ "\n" ++ Report.tableHead)) := by
    rw [hrun, htree, hspool, Utf8.encode_append, Utf8.encode_append, hnewline]
    refine Verify.read_closeLog_over hreport (by simp) ?_
    exact hlength.trans length_heading_sampleStamp.symm
  exact ⟨hpaths, hfound, hrun ▸ hwrites, hread,
    Command.failure_runValidateLog hread (violations_append_tableHead _)⟩

end PercentFormat
