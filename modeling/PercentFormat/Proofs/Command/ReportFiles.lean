import PercentFormat.Command.Run
import PercentFormat.Proofs.FileTree
import PercentFormat.Proofs.SuiteText
import PercentFormat.Proofs.Utf8Decoding

/-! The files that a verification writes: the report for readers, the report for programs, and the
index of both. The index describes them, unless they are one file. -/

namespace PercentFormat

namespace Verify
open FileTree
open Fixture (Suite)

section
variable {t after : FileTree} {files : List (String × Bytes)}

theorem writeFiles_cons {path : String} {content : Bytes} :
    writeFiles t ((path, content) :: files) = (after, none) ↔
      ∃ mid, t.write path content = .ok mid ∧ writeFiles mid files = (after, none) := by
  rw [writeFiles]
  cases t.write path content with
  | error fault => simp
  | ok mid => simp

theorem sameDirectories_writeFiles (h : writeFiles t files = (after, none)) :
    after.SameDirectories t := by
  induction files generalizing t with
  | nil =>
    cases h
    exact SameDirectories.refl _
  | cons file files ih =>
    obtain ⟨mid, hfile, hrest⟩ := writeFiles_cons.1 h
    exact (ih hrest).trans (sameDirectories_write hfile)

/-- Files can be written one after the other if each of them can be written at the start. -/
private theorem exists_writeFiles (h : ∀ file ∈ files, t.Accepts file.1) :
    ∃ after, writeFiles t files = (after, none) := by
  induction files generalizing t with
  | nil => exact ⟨t, rfl⟩
  | cons file files ih =>
    obtain ⟨hfirst, hothers⟩ := List.forall_mem_cons.1 h
    obtain ⟨mid, hmid⟩ := hfirst.exists_write file.2
    have hsame := sameDirectories_write hmid
    obtain ⟨after, hafter⟩ := ih fun f hf => (accepts_of_sameDirectories hsame).2 (hothers f hf)
    exact ⟨after, writeFiles_cons.2 ⟨mid, hmid, hafter⟩⟩

theorem exists_read_writeFiles (h : writeFiles t files = (after, none)) {other : String}
    {held : Bytes} (hread : t.read other = .ok held) : ∃ now, after.read other = .ok now := by
  induction files generalizing t held with
  | nil =>
    cases h
    exact ⟨held, hread⟩
  | cons file files ih =>
    obtain ⟨mid, hfile, hrest⟩ := writeFiles_cons.1 h
    obtain ⟨now, hnow⟩ := exists_read_write hfile hread
    exact ih hrest hnow

/-- A file that none of the paths leads to stays as it is. -/
theorem read_writeFiles_of_apart (h : writeFiles t files = (after, none)) {other : String}
    (hapart : ∀ file ∈ files, t.Apart other file.1) (held : Bytes) :
    after.read other = .ok held ↔ t.read other = .ok held := by
  induction files generalizing t with
  | nil =>
    cases h
    exact Iff.rfl
  | cons file files ih =>
    obtain ⟨hfirst, hothers⟩ := List.forall_mem_cons.1 hapart
    obtain ⟨mid, hfile, hrest⟩ := writeFiles_cons.1 h
    have hsame := sameDirectories_write hfile
    rw [ih hrest fun f hf => (apart_of_sameDirectories hsame).2 (hothers f hf),
      read_write_of_apart hfile hfirst]

end

section
variable {t opened : FileTree}

/-- What was sent to a log is all that it holds at first. -/
theorem write_sendLog {log : String} (h : openLog t (some log) = .ok opened) (spool : Log.Spool) :
    opened.write log spool.sent.toList = .ok (sendLog opened spool (some log)) := by
  have hempty : opened.read log = .ok [] := read_write_self h
  have hwrite := write_of_read hempty 0 spool.sent.toList
  have hsplice : splice [] 0 spool.sent.toList = spool.sent.toList := splice_length [] _
  rwa [hsplice] at hwrite

theorem sameDirectories_sendLog {log : Option String} (h : openLog t log = .ok opened)
    (spool : Log.Spool) : (sendLog opened spool log).SameDirectories t := by
  cases log with
  | none =>
    cases h
    exact SameDirectories.refl t
  | some path =>
    exact (sameDirectories_write (write_sendLog h spool)).trans (sameDirectories_write h)

end

section
variable {host : Host} {t : FileTree} {dir : String} {policy : Policy}
  {reportPath log timestamp : Option String} {paths : List String}

theorem run_eq_of_suites (hpaths : suitePaths t dir = .ok paths) (hfound : suites t paths ≠ []) :
    run host t dir policy reportPath log timestamp =
      match openLog t log with
      | .error fault => { tree := t, notes := startNote dir policy :: skipNotes t paths,
                          failure := some (.io fault) }
      | .ok opened => conclude host policy (suites t paths) reportPath log timestamp opened
          (startNote dir policy :: skipNotes t paths) := by
  rw [run, hpaths]
  dsimp only
  generalize suites t paths = found at hfound
  cases found with
  | nil => exact absurd rfl hfound
  | cons first others => rfl

private theorem conclude_of_writes {suites : List Suite} {notes : List String} {after : FileTree}
    (h : writeFiles (sendLog t (logSpool host policy suites) log)
      (outputs host policy suites reportPath timestamp) = (after, none)) :
    let r := report host policy timestamp suites
    let o := conclude host policy suites reportPath log timestamp t notes
    o.tree = closeLog after (logSpool host policy suites) log ∧
      o.failure = if r.summary.allPassed then none
        else some (.fault (.verificationFailed r.summary.failed r.summary.total)) := by
  simp only [conclude, h, and_self]

/-- What a verification does that finds a suite and fails in no write. -/
theorem run_of_suites (hpaths : suitePaths t dir = .ok paths) (hfound : suites t paths ≠ [])
    (hwrites : ∀ fault,
      (run host t dir policy reportPath log timestamp).failure ≠ some (.io fault)) :
    let r := report host policy timestamp (suites t paths)
    let spool := logSpool host policy (suites t paths)
    ∃ opened after, openLog t log = .ok opened ∧
      writeFiles (sendLog opened spool log)
        (outputs host policy (suites t paths) reportPath timestamp) = (after, none) ∧
      (run host t dir policy reportPath log timestamp).tree = closeLog after spool log ∧
      (run host t dir policy reportPath log timestamp).failure =
        if r.summary.allPassed then none
        else some (.fault (.verificationFailed r.summary.failed r.summary.total)) := by
  intro r spool
  rw [run_eq_of_suites hpaths hfound] at hwrites ⊢
  cases hopen : openLog t log with
  | error fault =>
    rw [hopen] at hwrites
    exact absurd rfl (hwrites fault)
  | ok opened =>
    rw [hopen] at hwrites
    cases hfiles : writeFiles (sendLog opened spool log)
        (outputs host policy (suites t paths) reportPath timestamp) with
    | mk after fault =>
      cases fault with
      | some fault =>
        refine absurd ?_ (hwrites fault)
        simp only [conclude]
        rw [hfiles]
      | none => exact ⟨opened, after, rfl, hfiles, conclude_of_writes hfiles⟩

end

theorem readText_of_read {t : FileTree} {path text : String}
    (h : t.read path = .ok (Utf8.encode text)) : t.readText path = .ok text := by
  rw [readText, h, ok_bind, Utf8.decode?_encode]

theorem readSuite_of_text {t : FileTree} {path text : String} {s : Suite}
    (hread : t.readText path = .ok text) (hparse : Suite.parse? text = some s) :
    readSuite t path = .ok s := by
  have htext : (t.readText path).mapError Fault.io = .ok text := by
    rw [hread]
    rfl
  rw [readSuite, htext, ok_bind, hparse]

theorem forall_mem_reportPaths {path : String} {P : String → Prop} :
    (∀ place ∈ reportPaths path, P place) ↔
      P path ∧ P (Path.withExtension "json" path) ∧ P (Path.withExtension "artifacts.json" path) := by
  simp [reportPaths]

theorem forall_mem_outputs {host : Host} {policy : Policy} {suites : List Suite}
    {reportPath timestamp : Option String} {P : String → Prop} :
    (∀ file ∈ outputs host policy suites reportPath timestamp, P file.1) ↔
      ∀ path ∈ reportPath, ∀ place ∈ reportPaths path, P place := by
  cases reportPath with
  | none => simp [outputs]
  | some path => simp [outputs, reportFiles, reportPaths]

/-- The index of the files of a report. -/
def reportIndex (runId generated : String) (r : Report) (path : String) : Log.ArtifactIndex :=
  ⟨runId, generated, [.ofBytes path "report" (Utf8.encode r.markdown),
    .ofBytes (Path.withExtension "json" path) "report" (Utf8.encode r.text)]⟩

/-- The extension of the index leads to another name than the other two. -/
private theorem index_name_ne {name json index : String} {stem : List Char}
    (hstem : (Path.splitName name.toList).1 = stem)
    (hjson : json.toList = stem ++ '.' :: "json".toList)
    (hindex : index.toList = stem ++ '.' :: "artifacts.json".toList) :
    name ≠ index ∧ json ≠ index := by
  constructor
  · rintro rfl
    have hne : stem ++ ".artifacts".toList ≠ [] := by simp
    have hsplit : name.toList = (stem ++ ".artifacts".toList) ++ '.' :: "json".toList := by
      rw [hindex]
      simp
    rw [hsplit, Path.splitName_append hne (by decide)] at hstem
    simp at hstem
  · rintro rfl
    rw [hindex] at hjson
    simp at hjson

/-- What is found on the three paths of a report when all of them are written. The report for
readers is lost if its path is that of the report for programs. -/
theorem read_reportFiles {runId generated : String} {r : Report} {path : String}
    {t after : FileTree} (h : writeFiles t (reportFiles runId generated r path) = (after, none)) :
    after.read (Path.withExtension "artifacts.json" path) =
        .ok (Utf8.encode (reportIndex runId generated r path).text) ∧
      after.read (Path.withExtension "json" path) = .ok (Utf8.encode r.text) ∧
      after.read path = .ok (Utf8.encode
        (if Path.withExtension "json" path = path then r.text else r.markdown)) := by
  obtain ⟨first, hfirst, h⟩ := writeFiles_cons.1 h
  obtain ⟨second, hsecond, h⟩ := writeFiles_cons.1 h
  obtain ⟨_, hthird, h⟩ := writeFiles_cons.1 h
  cases h
  have hsame := sameDirectories_write hfirst
  have hsame' := (sameDirectories_write hsecond).trans hsame
  obtain ⟨dir, name, hpath, -⟩ := write_eq_ok_iff.1 hfirst
  obtain ⟨jsonDir, json, hjson, -⟩ := write_eq_ok_iff.1 hsecond
  obtain ⟨indexDir, index, hindex, -⟩ := write_eq_ok_iff.1 hthird
  rw [locate_of_sameDirectories hsame] at hjson
  rw [locate_of_sameDirectories hsame'] at hindex
  obtain ⟨-, hjsonName, hkeeps⟩ := locate_withExtension (by decide) hpath hjson
  obtain ⟨-, hindexName, -⟩ := locate_withExtension (by decide) hpath hindex
  obtain ⟨hne, hne'⟩ := index_name_ne rfl hjsonName hindexName
  -- The index is written last and to a place of its own: the other two paths read what they read
  -- before it.
  have hsafe := read_write_of_apart hthird
    ((apart_of_sameDirectories hsame').2 (apart_of_name_ne hpath hindex hne))
  have hsafe' := read_write_of_apart hthird
    ((apart_of_sameDirectories hsame').2 (apart_of_name_ne hjson hindex hne'))
  refine ⟨read_write_self hthird, (hsafe' _).2 (read_write_self hsecond), (hsafe _).2 ?_⟩
  by_cases hkept : Path.withExtension "json" path = path
  · rw [if_pos hkept]
    have hread := read_write_self hsecond
    rwa [hkept] at hread
  · rw [if_neg hkept, read_write_of_apart hsecond]
    · exact read_write_self hfirst
    · refine (apart_of_sameDirectories hsame).2 (apart_of_name_ne hpath hjson ?_)
      exact fun hsameName => hkept (hkeeps hsameName.symm)

end Verify

/-- An artifact that describes the file on its path. -/
def Log.Artifact.Describes (a : Log.Artifact) (t : FileTree) : Prop :=
  ∃ content, t.read a.path = .ok content ∧ a.digest = Digest.hex content ∧
    a.size = content.length

theorem Log.Artifact.describes_ofBytes_iff {path kind : String} {content held : Bytes} {t : FileTree}
    (h : t.read path = .ok held) :
    (Log.Artifact.ofBytes path kind content).Describes t ↔
      Digest.hex content = Digest.hex held ∧ content.length = held.length := by
  constructor
  · rintro ⟨found, hread, hdigest, hsize⟩
    cases h.symm.trans hread
    exact ⟨hdigest, hsize⟩
  · rintro ⟨hdigest, hsize⟩
    exact ⟨held, h, hdigest, hsize⟩

namespace Verify

theorem describes_reportIndex_iff {runId generated : String} {r : Report} {path : String}
    {t after : FileTree} (h : writeFiles t (reportFiles runId generated r path) = (after, none)) :
    (∀ a ∈ (reportIndex runId generated r path).artifacts, a.Describes after) ↔
      (Path.withExtension "json" path = path →
        Digest.hex (Utf8.encode r.markdown) = Digest.hex (Utf8.encode r.text) ∧
        (Utf8.encode r.markdown).length = (Utf8.encode r.text).length) := by
  obtain ⟨-, hjson, hpath⟩ := read_reportFiles h
  rw [reportIndex, List.forall_mem_cons, List.forall_mem_singleton,
    Log.Artifact.describes_ofBytes_iff hpath, Log.Artifact.describes_ofBytes_iff hjson]
  by_cases hkept : Path.withExtension "json" path = path
  · simp [hkept]
  · simp [hkept]

end Verify

/-- After a verification with a report, every entry of the index describes the file on its path,
unless the report is given the extension of the report for programs. Both are then written to one
path, and the entry on the first one describes it only if their digests and sizes are equal. -/
theorem verify_index_describes_iff (host : Host) (env : Environment) (t : FileTree)
    (dir word path : String) (timestamp : Option String) (paths : List String)
    (hpaths : Verify.suitePaths t dir = .ok paths) (hfound : Verify.suites t paths ≠ [])
    (hwrites : ∀ fault, (Command.run host env t
      (.verify dir word (some path) none timestamp)).failure ≠ some (.io fault)) :
    let o := Command.run host env t (.verify dir word (some path) none timestamp)
    let r := Verify.report host (Policy.ofWord word) timestamp (Verify.suites t paths)
    ∃ index : Log.ArtifactIndex,
      o.tree.read (Path.withExtension "artifacts.json" path) = .ok (Utf8.encode index.text) ∧
      index.runId = host.runId ∧
      index.artifacts.map (·.path) = [path, Path.withExtension "json" path] ∧
      o.tree.read (Path.withExtension "json" path) = .ok (Utf8.encode r.text) ∧
      ((∀ a ∈ index.artifacts, a.Describes o.tree) ↔
        (Path.withExtension "json" path = path →
          Digest.hex (Utf8.encode r.markdown) = Digest.hex (Utf8.encode r.text) ∧
          (Utf8.encode r.markdown).length = (Utf8.encode r.text).length)) := by
  intro o r
  obtain ⟨opened, after, hopen, hfiles, htree, -⟩ := Verify.run_of_suites hpaths hfound hwrites
  cases hopen
  have hafter : o.tree = after := htree
  obtain ⟨hindex, hjson, -⟩ := Verify.read_reportFiles hfiles
  rw [hafter]
  exact ⟨Verify.reportIndex _ _ r path, hindex, rfl, rfl, hjson,
    Verify.describes_reportIndex_iff hfiles⟩

section
open Fixture (Suite)

/-- A machine on which time stands still, and on which all runs take as long as can be told. -/
def sampleHost : Host where
  runId := "run-1"
  clock _ := "T"
  latency _ := 18446744073709551615

/-- A tree that holds nothing but a directory with one suite. -/
def sampleTree (s : Suite) : FileTree where
  nodes := [(["fx"], .directory), (["fx", "a.json"], .file (Utf8.encode s.text))]

theorem accepts_sampleTree {s : Suite} {path : String} (name : String)
    (h : (sampleTree s).locate path = .ok (.entry [] name false)) (hfits : FileTree.fits name)
    (hne : name ≠ "fx") : (sampleTree s).Accepts path := by
  refine ⟨[], name, h, hfits, ?_⟩
  simp [sampleTree, FileTree.get?, List.lookup_cons, beq_false_of_ne hne]

theorem accepts_markdown_sampleTree (s : Suite) :
    ∀ path ∈ some "out.md", ∀ place ∈ Verify.reportPaths path, (sampleTree s).Accepts place := by
  rintro path ⟨⟩
  rw [Verify.forall_mem_reportPaths]
  exact ⟨accepts_sampleTree "out.md" rfl (by decide) (by decide),
    accepts_sampleTree "out.json" rfl (by decide) (by decide),
    accepts_sampleTree "out.artifacts.json" rfl (by decide) (by decide)⟩

theorem suitePaths_sampleTree (s : Suite) :
    Verify.suitePaths (sampleTree s) "fx" = .ok ["fx/a.json"] := by
  have hopen : (sampleTree s).openDir "fx" = .ok ["fx"] := rfl
  have hnames : (sampleTree s).namesIn ["fx"] = ["a.json"] := rfl
  have hlist : (sampleTree s).list "fx" = .ok ["a.json"] := by
    rw [FileTree.list, hopen, ok_bind, hnames, List.mergeSort_singleton]
    rfl
  rw [Verify.suitePaths, hlist]
  rfl

theorem suites_sampleTree {s : Suite} (h : ∀ c ∈ s.cases, c.Sized) :
    Verify.suites (sampleTree s) ["fx/a.json"] = [s] := by
  have hfile : (sampleTree s).read "fx/a.json" = .ok (Utf8.encode s.text) := rfl
  rw [Verify.suites, List.filterMap_cons,
    Verify.readSuite_of_text (Verify.readText_of_read hfile) (Fixture.Suite.parse?_text h)]
  rfl

/-- A verification of that suite fails in no write if the log and the report can be written. -/
theorem failure_run_sampleTree {s : Suite} (h : ∀ c ∈ s.cases, c.Sized) {host : Host}
    {env : Environment} {word : String} {reportPath log timestamp : Option String}
    (hlog : ∀ path ∈ log, (sampleTree s).Accepts path)
    (hreport : ∀ path ∈ reportPath, ∀ place ∈ Verify.reportPaths path, (sampleTree s).Accepts place) :
    ∀ fault, (Command.run host env (sampleTree s)
      (.verify "fx" word reportPath log timestamp)).failure ≠ some (.io fault) := by
  intro fault
  obtain ⟨opened, hopen⟩ : ∃ opened, Verify.openLog (sampleTree s) log = .ok opened := by
    cases log with
    | none => exact ⟨_, rfl⟩
    | some path => exact (hlog path rfl).exists_write []
  have hsame := Verify.sameDirectories_sendLog hopen
    (Verify.logSpool host (Policy.ofWord word) [s])
  have haccepts : ∀ file ∈ Verify.outputs host (Policy.ofWord word) [s] reportPath timestamp,
      (Verify.sendLog opened (Verify.logSpool host (Policy.ofWord word) [s]) log).Accepts file.1 :=
    fun file hfile => (FileTree.accepts_of_sameDirectories hsame).2
      (Verify.forall_mem_outputs.2 hreport file hfile)
  obtain ⟨after, hfiles⟩ := Verify.exists_writeFiles haccepts
  have hfound : Verify.suites (sampleTree s) ["fx/a.json"] ≠ [] := by simp [suites_sampleTree h]
  rw [Command.run, Verify.run_eq_of_suites (suitePaths_sampleTree s) hfound, hopen,
    suites_sampleTree h]
  simp only [(Verify.conclude_of_writes hfiles).2]
  split <;> exact nofun

end

theorem verify_index_describes_iff_markdown :
    let suite : Fixture.Suite := ⟨"v1", "f", "t", []⟩
    let t := sampleTree suite
    let o := Command.run sampleHost {} t (.verify "fx" "continue" (some "out.md") none none)
    Verify.suitePaths t "fx" = .ok ["fx/a.json"] ∧ Verify.suites t ["fx/a.json"] = [suite] ∧
    (∀ fault, o.failure ≠ some (.io fault)) ∧
    ∃ index : Log.ArtifactIndex,
      o.tree.read "out.artifacts.json" = .ok (Utf8.encode index.text) ∧
      index.artifacts.map (·.path) = ["out.md", "out.json"] ∧
      ∀ a ∈ index.artifacts, a.Describes o.tree := by
  intro suite t o
  have hrun : o = Command.run sampleHost {} t
    (.verify "fx" "continue" (some "out.md") none none) := rfl
  clear_value o
  have hsized : ∀ c ∈ suite.cases, c.Sized := nofun
  have hpaths := suitePaths_sampleTree suite
  have hfound : Verify.suites t ["fx/a.json"] = [suite] := suites_sampleTree hsized
  have hwrites : ∀ fault, o.failure ≠ some (.io fault) := by
    rw [hrun]
    exact failure_run_sampleTree hsized nofun (accepts_markdown_sampleTree suite)
  obtain ⟨index, hindex, -, hartifacts, -, hdescribes⟩ := verify_index_describes_iff
    sampleHost {} t "fx" "continue" "out.md" none _ hpaths (by simp [hfound]) (hrun ▸ hwrites)
  rw [← hrun] at hindex hdescribes
  refine ⟨hpaths, hfound, hwrites, index, hindex, hartifacts, hdescribes.2 fun hkept => ?_⟩
  exact absurd hkept (by decide +kernel)

private theorem length_report_of_no_cases :
    let r := Verify.report sampleHost .proceed none [⟨"v1", "f", "t", []⟩]
    (Utf8.encode r.markdown).length ≠ (Utf8.encode r.text).length := by
  intro r
  rw [Report.text, Json.Value.pretty, Utf8.encode_ofList, Report.markdown, Report.heading]
  simp only [Utf8.encode_append, List.length_append]
  decide +kernel

/-- With the extension `json` the report for readers is overwritten, and the index describes what it
was. -/
theorem verify_index_overwritten_report :
    let suite : Fixture.Suite := ⟨"v1", "f", "t", []⟩
    let o := Command.run sampleHost {} (sampleTree suite)
      (.verify "fx" "continue" (some "out.json") none none)
    (∀ fault, o.failure ≠ some (.io fault)) ∧ ∃ index : Log.ArtifactIndex,
      o.tree.read "out.artifacts.json" = .ok (Utf8.encode index.text) ∧
      ¬∀ a ∈ index.artifacts, a.Describes o.tree := by
  intro suite o
  have hrun : o = Command.run sampleHost {} (sampleTree suite)
    (.verify "fx" "continue" (some "out.json") none none) := rfl
  clear_value o
  have hsized : ∀ c ∈ suite.cases, c.Sized := nofun
  have hwrites : ∀ fault, o.failure ≠ some (.io fault) := by
    rw [hrun]
    refine failure_run_sampleTree hsized nofun ?_
    rintro path ⟨⟩
    rw [Verify.forall_mem_reportPaths]
    exact ⟨accepts_sampleTree "out.json" rfl (by decide) (by decide),
      accepts_sampleTree "out.json" rfl (by decide) (by decide),
      accepts_sampleTree "out.artifacts.json" rfl (by decide) (by decide)⟩
  have hsuites := suites_sampleTree hsized
  obtain ⟨_, after, hopen, hfiles, htree, -⟩ :=
    Verify.run_of_suites (suitePaths_sampleTree suite) (by simp [hsuites]) (hrun ▸ hwrites)
  cases hopen
  have hafter : o.tree = after := (congrArg Outcome.tree hrun).trans htree
  rw [hsuites] at hfiles
  have hindex := (Verify.read_reportFiles hfiles).1
  have hpath : Path.withExtension "artifacts.json" "out.json" = "out.artifacts.json" := by
    decide +kernel
  rw [hpath] at hindex
  rw [hafter]
  refine ⟨hwrites, _, hindex, fun h => ?_⟩
  exact length_report_of_no_cases
    ((Verify.describes_reportIndex_iff hfiles).1 h (by decide +kernel)).2

end PercentFormat
