import Mathlib.Data.List.Forall2
import PercentFormat.Fixture.Vector
import PercentFormat.Proofs.Agreement
import PercentFormat.Proofs.SuiteText
import PercentFormat.Proofs.Utf8Decoding
import PercentFormat.Report

/-! Recorded expectations held against the formatter. A case that the reference recorded passes
unless it crosses a limit, and a vector on which both formatters return passes its check. -/

namespace PercentFormat
open Fixture

theorem forall₂_of_mapM {ε α β : Type} {f : α → Except ε β} {xs : List α} {ys : List β}
    (h : xs.mapM f = .ok ys) : List.Forall₂ (fun x y => f x = .ok y) xs ys := by
  induction xs generalizing ys with
  | nil =>
    cases h
    exact .nil
  | cons x xs ih =>
    rw [List.mapM_cons] at h
    obtain ⟨y, hx, h⟩ := exists_of_bind_ok h
    obtain ⟨later, hxs, h⟩ := exists_of_bind_ok h
    cases h
    exact .cons hx (ih hxs)

private theorem map_eq_of_forall₂ {α β γ : Type} {f : α → γ} {g : β → γ} {xs : List α} {ys : List β}
    (h : List.Forall₂ (fun x y => g y = f x) xs ys) : ys.map g = xs.map f := by
  induction h with
  | nil => rfl
  | cons hxy _ ih => rw [List.map_cons, List.map_cons, hxy, ih]

theorem forall_mem_of_forall₂ {α β : Type} {P : β → Prop} {xs : List α} {ys : List β}
    (h : List.Forall₂ (fun _ y => P y) xs ys) : ∀ y ∈ ys, P y := by
  induction h with
  | nil => exact List.forall_mem_nil _
  | cons hxy _ ih => exact List.forall_mem_cons.2 ⟨hxy, ih⟩

/-- The call crosses neither limit that holds by default. -/
structure WithinLimits (template out : String) : Prop where
  output : (Utf8.encode out).length ≤ 65536
  codes : ∀ s ∈ segments (Utf8.encode template), s.codeLength ≤ 1023

/-- A call that the reference renders returns that text under either policy, exactly when it crosses
no limit. -/
theorem formatQuietly_of_format {template out : String} {args : List Arg} {values : List Argument}
    (h : Reference.format template args = .ok out) (hv : toArguments args = .ok values)
    (policy : Policy) {f : Formatted} :
    formatQuietly { policy } (Utf8.encode template) values = .ok f ↔
      WithinLimits template out ∧ f = ⟨Utf8.encode out, []⟩ := by
  obtain ⟨values', hv', hr⟩ := Reference.rendering_of_format h
  obtain rfl : values' = values := Except.ok.inj (hv'.symm.trans hv)
  have hbytes := congrArg (·.bytes.length) hr
  rw [formatQuietly, formatWith_returns_iff, hr]
  constructor
  · rintro ⟨⟨hcodes, htotal⟩, hf, -⟩
    exact ⟨⟨Nat.le_trans (Nat.le_of_eq hbytes.symm) htotal, hcodes⟩, hf⟩
  · rintro ⟨⟨hout, hcodes⟩, rfl⟩
    exact ⟨⟨hcodes, Nat.le_trans (Nat.le_of_eq hbytes) hout⟩, rfl, fun _ => rfl⟩

namespace Verdict

/-- Whatever becomes of a case, the verdict names it and repeats what was expected. -/
theorem ofCase_names (policy : Policy) (c : Case) :
    (ofCase policy c).caseName = c.name ∧ (ofCase policy c).template = c.template ∧
      (ofCase policy c).expected = c.expectedOutput := by
  unfold ofCase
  split
  · exact ⟨rfl, rfl, rfl⟩
  · split <;> exact ⟨rfl, rfl, rfl⟩

theorem passed_ofFormatted_iff (c : Case) (f : Formatted) : (ofFormatted c f).passed = true ↔
    Utf8.decodeLossy f.bytes = c.expectedOutput ∧ f.bytes.length = c.expectedLength ∧
      f.diagnostics.length = c.expectedDiagnostics := by
  simp [ofFormatted, complaints]

/-- A case passes if its call returns, with the text, the length and the number of diagnostics that
are expected. -/
theorem passed_ofCase_iff (policy : Policy) {c : Case} {values : List Argument}
    (hv : toArguments c.args = .ok values) : (ofCase policy c).passed = true ↔
      ∃ f, formatQuietly { policy } (Utf8.encode c.template) values = .ok f ∧
        Utf8.decodeLossy f.bytes = c.expectedOutput ∧ f.bytes.length = c.expectedLength ∧
        f.diagnostics.length = c.expectedDiagnostics := by
  simp only [ofCase, hv]
  cases formatQuietly { policy } (Utf8.encode c.template) values with
  | ok f => simp [passed_ofFormatted_iff]
  | error e => simp [ofError, pending]

end Verdict

theorem capture_ok {v : TestVector} {c : Case} (h : v.capture = .ok c) :
    ∃ out, Reference.format v.template v.args = .ok out ∧
      c = ⟨v.name, v.template, v.args, out, (Utf8.encode out).length, 0⟩ := by
  obtain ⟨out, hout, h⟩ := exists_of_bind_ok h
  cases h
  exact ⟨out, hout, rfl⟩

/-- A verdict on a recorded vector: the reference renders what is expected, and the formatter agrees
unless a limit stops it. -/
structure Judges (v : TestVector) (r : Verdict) : Prop where
  name : r.caseName = v.name
  template : r.template = v.template
  expected : Reference.format v.template v.args = .ok r.expected
  passed : r.passed = true ↔ WithinLimits v.template r.expected

theorem judges_ofCase (policy : Policy) {v : TestVector} {c : Case} (h : v.capture = .ok c) :
    Judges v (Verdict.ofCase policy c) := by
  obtain ⟨out, hout, rfl⟩ := capture_ok h
  obtain ⟨values, hv, -⟩ := Reference.rendering_of_format hout
  obtain ⟨hname, htemplate, hexpected⟩ := Verdict.ofCase_names policy
    ⟨v.name, v.template, v.args, out, (Utf8.encode out).length, 0⟩
  refine ⟨hname, htemplate, by rw [hexpected, hout], ?_⟩
  rw [Verdict.passed_ofCase_iff policy hv, hexpected]
  constructor
  · rintro ⟨f, hf, -⟩
    exact ((formatQuietly_of_format hout hv policy).mp hf).1
  · intro hlimits
    have hf := (formatQuietly_of_format hout hv policy).mpr ⟨hlimits, rfl⟩
    exact ⟨_, hf, Utf8.decodeLossy_encode out, rfl, rfl⟩

/-- Both formatters return on a vector only if they agree. -/
theorem ofVector_ok {number : Nat} {v : TestVector} {c : Check}
    (h : Check.ofVector number v = .ok c) :
    c.number = number ∧ c.name = v.name ∧ c.passed = true := by
  obtain ⟨expected, hexpected, h⟩ := exists_of_bind_ok h
  obtain ⟨values, hv, h⟩ := exists_of_bind_ok h
  obtain ⟨f, hf, h⟩ := exists_of_bind_ok h
  cases h
  have hreturns : formatQuietly {} (Utf8.encode v.template) values = .ok f := by
    cases hq : formatQuietly {} (Utf8.encode v.template) values with
    | error e =>
      rw [hq] at hf
      cases hf
    | ok g =>
      rw [hq] at hf
      cases hf
      rfl
  obtain ⟨-, rfl⟩ := (formatQuietly_of_format hexpected hv .proceed).mp hreturns
  exact ⟨rfl, rfl, by simp [Check.passed, Utf8.decodeLossy_encode]⟩

/-- A recorded suite is read back from its text, and every vector gets its verdict under either
policy. Where both formatters return on all vectors, all checks pass. -/
theorem capture_verifies (vectors : List TestVector) :
    (∀ (family capturedAt : String) (set : Suite) (policy : Policy),
      capture family capturedAt vectors = .ok set →
      (∀ c ∈ set.cases, c.expectedLength ≤ maxSize) →
      ∃ loaded, Suite.parse? set.text = some loaded ∧
        List.Forall₂ Judges vectors (Verdict.ofSuite policy loaded)) ∧
    ∀ checks, Check.ofVectors vectors = .ok checks →
      checks.map Check.number = List.range' 1 vectors.length ∧
      checks.map Check.name = vectors.map TestVector.name ∧
      ∀ c ∈ checks, c.passed = true := by
  constructor
  · intro family capturedAt set policy h hlength
    obtain ⟨cases, hcases, h⟩ := exists_of_bind_ok h
    cases h
    have hcaptured := forall₂_of_mapM hcases
    have hquiet : ∀ c ∈ cases, c.expectedDiagnostics = 0 := by
      refine forall_mem_of_forall₂ (hcaptured.imp fun v c hc => ?_)
      obtain ⟨out, -, rfl⟩ := capture_ok hc
      rfl
    have hsized : ∀ c ∈ cases, c.Sized := fun c hc =>
      ⟨hlength c hc, by rw [hquiet c hc]; exact Nat.zero_le _⟩
    refine ⟨_, Suite.parse?_text hsized, ?_⟩
    rw [Verdict.ofSuite, List.forall₂_map_right_iff]
    exact hcaptured.imp fun v c hc => judges_ofCase policy hc
  · intro checks h
    have hchecks := (forall₂_of_mapM h).imp fun x c hc => ofVector_ok hc
    refine ⟨?_, ?_, ?_⟩
    · rw [map_eq_of_forall₂ (hchecks.imp fun _ _ hc => hc.1)]
      exact List.zipIdx_map_snd 1 vectors
    · calc checks.map Check.name
          = (vectors.zipIdx 1).map fun x => x.1.name :=
            map_eq_of_forall₂ (hchecks.imp fun _ _ hc => hc.2.1)
        _ = ((vectors.zipIdx 1).map Prod.fst).map TestVector.name := by rw [List.map_map]; rfl
        _ = vectors.map TestVector.name := by rw [List.zipIdx_map_fst]
    · exact forall_mem_of_forall₂ (hchecks.imp fun _ _ hc => hc.2.2)

/-- A template and a text that are cut at a NUL, a width with leading zeros, and characters of two
bytes. -/
theorem capture_verifies_multibyte :
    let vectors : List TestVector :=
      [⟨"padded", "é%005d\x00%q", [.int (-7)]⟩, ⟨"text", "%%%3s", [.str "ü\x00x"]⟩]
    (∃ set loaded, capture "\"" "\n" vectors = .ok set ∧ Suite.parse? set.text = some loaded ∧
      (Verdict.ofSuite .abort loaded).map Verdict.passed = [true, true]) ∧
    ∃ checks, Check.ofVectors vectors = .ok checks ∧ checks.map Check.number = [1, 2] ∧
      ∀ c ∈ checks, c.passed = true := by
  intro vectors
  constructor
  · have hset : capture "\"" "\n" vectors = .ok ⟨"v1", "\"", "\n",
        [⟨"padded", "é%005d\x00%q", [.int (-7)], "é   -7", 7, 0⟩,
          ⟨"text", "%%%3s", [.str "ü\x00x"], "% ü", 4, 0⟩]⟩ :=
      ok_of_toOption (by decide +kernel)
    obtain ⟨loaded, hloaded, hjudges⟩ :=
      (capture_verifies vectors).1 _ _ _ .abort hset (by decide +kernel)
    refine ⟨_, loaded, hset, hloaded, ?_⟩
    simp only [vectors] at hjudges
    generalize Verdict.ofSuite .abort loaded = results at hjudges ⊢
    rcases hjudges with _ | ⟨h₁, _ | ⟨h₂, _ | _⟩⟩
    have hexpected₁ := Except.ok.inj (h₁.expected.symm.trans
      (ok_of_toOption (a := "é   -7") (by decide +kernel)))
    have hexpected₂ := Except.ok.inj (h₂.expected.symm.trans
      (ok_of_toOption (a := "% ü") (by decide +kernel)))
    have hpassed₁ := h₁.passed.mpr ⟨by rw [hexpected₁]; decide +kernel, by decide +kernel⟩
    have hpassed₂ := h₂.passed.mpr ⟨by rw [hexpected₂]; decide +kernel, by decide +kernel⟩
    simp [hpassed₁, hpassed₂]
  · have hchecks : Check.ofVectors vectors = .ok
        [⟨1, "padded", "é   -7", "é   -7", 7, 7⟩, ⟨2, "text", "% ü", "% ü", 4, 4⟩] :=
      ok_of_toOption (by decide +kernel)
    obtain ⟨hnumbers, -, hpassed⟩ := (capture_verifies vectors).2 _ hchecks
    exact ⟨_, hchecks, hnumbers, hpassed⟩

end PercentFormat
