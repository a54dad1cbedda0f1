import PercentFormat.Proofs.Acceptance
import PercentFormat.Proofs.TextOutput

/-! Verdicts are right. The output is compared after it was decoded, which could make different bytes
equal; but for arguments of a fixture it is text, and text is decoded faithfully. -/

namespace PercentFormat
open Fixture

/-- Bytes that are text decode to a text only if they are its bytes. -/
theorem IsText.decodeLossy_eq_iff {bytes : Bytes} (h : IsText bytes) {s : String} :
    Utf8.decodeLossy bytes = s ↔ bytes = Utf8.encode s := by
  constructor
  · rintro rfl
    obtain ⟨cs, rfl⟩ := h
    rw [← Utf8.encode_ofList, Utf8.decodeLossy_encode]
  · rintro rfl
    exact Utf8.decodeLossy_encode s

/-- Neither the session nor its channel matters to what a call returns. -/
theorem formatQuietly_eq_ok_iff (p : Session) (emits : Bool) {policy : Policy} {t : Bytes}
    {values : List Argument} {f : Formatted} :
    formatQuietly { policy } t values = .ok f ↔
      (p.formatWith { policy, emits } t values).1 = .ok f := by
  rw [formatQuietly, formatWith_returns_iff, formatWith_returns_iff]
  constructor
  · rintro ⟨⟨hcodes, htotal⟩, h⟩
    exact ⟨⟨hcodes, htotal⟩, h⟩
  · rintro ⟨⟨hcodes, htotal⟩, h⟩
    exact ⟨⟨hcodes, htotal⟩, h⟩

/-- What a call returns for arguments of a fixture is text. -/
theorem isText_of_formatQuietly {o : Options} {template : String} {args : List Arg}
    {values : List Argument} {f : Formatted} (hv : toArguments args = .ok values)
    (hf : formatQuietly o (Utf8.encode template) values = .ok f) : IsText f.bytes := by
  obtain ⟨-, rfl, -⟩ := formatWith_returns_iff.mp hf
  exact isText_rendering ⟨template.toList, rfl⟩ (composable_isText hv)

namespace Verdict

/-- A verdict says what is wrong exactly if the case failed. -/
theorem difference_eq_none_iff (policy : Policy) (c : Case) :
    (ofCase policy c).difference = none ↔ (ofCase policy c).passed = true := by
  unfold ofCase
  split
  · simp [pending]
  · split
    · simp [ofFormatted]
    · simp [ofError, pending]

/-- The result of a call is what the case expects, to the byte. -/
structure Meets (c : Case) (f : Formatted) : Prop where
  bytes : f.bytes = Utf8.encode c.expectedOutput
  length : f.bytes.length = c.expectedLength
  diagnostics : f.diagnostics.length = c.expectedDiagnostics

/-- A case whose arguments can be used passes if its call returns what is expected. -/
theorem passed_iff_meets (policy : Policy) {c : Case} {values : List Argument}
    (hv : toArguments c.args = .ok values) (p : Session) (emits : Bool) :
    (ofCase policy c).passed = true ↔
      ∃ f, (p.formatWith { policy, emits } (Utf8.encode c.template) values).1 = .ok f ∧
        Meets c f := by
  rw [passed_ofCase_iff policy hv]
  refine exists_congr fun f => ?_
  rw [← formatQuietly_eq_ok_iff p emits]
  refine and_congr_right fun hf => ?_
  rw [(isText_of_formatQuietly hv hf).decodeLossy_eq_iff]
  exact ⟨fun ⟨hb, hl, hd⟩ => ⟨hb, hl, hd⟩, fun ⟨hb, hl, hd⟩ => ⟨hb, hl, hd⟩⟩

theorem passed_of_error {policy : Policy} {c : Case} {fault : Fault}
    (h : toArguments c.args = .error fault) : (ofCase policy c).passed = false := by
  simp only [ofCase, h]
  rfl

/-- A verdict is never false. A case passes exactly if its characters are ASCII and its call returns,
with the bytes, the length and the number of diagnostics that are expected; the session does not
matter. A verdict says what is wrong exactly if the case failed. So a case that passes expects the
length of the output it expects, and no diagnostic under the policy that stops. -/
theorem ofCase_passed_iff (policy : Policy) (c : Case) (p : Session) (emits : Bool) :
    ((ofCase policy c).passed = true ↔
      (∀ char, .char char ∈ c.args → char.toNat < 0x80) ∧
      ∃ values f, toArguments c.args = .ok values ∧
        (p.formatWith { policy, emits } (Utf8.encode c.template) values).1 = .ok f ∧ Meets c f) ∧
    ((ofCase policy c).difference = none ↔ (ofCase policy c).passed = true) ∧
    ((ofCase policy c).passed = true →
      c.expectedLength = (Utf8.encode c.expectedOutput).length ∧
      (policy = .abort → c.expectedDiagnostics = 0)) := by
  rw [← Reference.toArguments_isOk_iff]
  cases hv : toArguments c.args with
  | error fault => simp [difference_eq_none_iff, passed_of_error hv]
  | ok values =>
    have hpassed := passed_iff_meets policy hv p emits
    refine ⟨?_, difference_eq_none_iff policy c, fun h => ?_⟩
    · rw [hpassed]
      constructor
      · rintro ⟨f, hf, hmeets⟩
        exact ⟨⟨values, rfl⟩, values, f, rfl, hf, hmeets⟩
      · rintro ⟨-, _, f, ⟨⟩, hf, hmeets⟩
        exact ⟨f, hf, hmeets⟩
    · obtain ⟨f, hf, hmeets⟩ := hpassed.mp h
      obtain ⟨-, -, hquiet⟩ := formatWith_returns_iff.mp hf
      refine ⟨by rw [← hmeets.length, hmeets.bytes], fun habort => ?_⟩
      rw [← hmeets.diagnostics, hquiet habort]
      rfl

/-- A case that expects a diagnostic and characters of two bytes passes under one policy only. -/
theorem ofCase_passed_iff_diagnosed :
    let c : Case := ⟨"diagnosed", "é%q%c", [.char 'x'], "éx", 3, 1⟩
    (ofCase .proceed c).passed = true ∧ (ofCase .proceed c).difference = none ∧
    c.expectedLength = (Utf8.encode c.expectedOutput).length ∧
    (ofCase .abort c).passed = false ∧ (ofCase .abort c).difference ≠ none := by
  intro c
  obtain ⟨hiff, hnone, hlength⟩ := ofCase_passed_iff .proceed c (.start {}) true
  obtain ⟨-, hnone', habort⟩ := ofCase_passed_iff .abort c (.start {}) true
  have hf : ((Session.start {}).formatWith { policy := .proceed, emits := true }
      (Utf8.encode c.template) [.char 0x78]).1 =
        .ok ⟨Utf8.encode "éx", [⟨.unknownConversion 0x71, 2⟩]⟩ :=
    (formatWith_eq_ok_iff rfl).mpr ⟨⟨by decide +kernel, by decide +kernel⟩, by decide +kernel⟩
  have hpassed :=
    hiff.mpr ⟨by simp [c], [.char 0x78], _, rfl, hf, rfl, by decide +kernel, rfl⟩
  have hfailed : (ofCase .abort c).passed ≠ true := fun h => absurd ((habort h).2 rfl) (by decide)
  exact ⟨hpassed, hnone.mpr hpassed, (hlength hpassed).1, Bool.eq_false_iff.mpr hfailed,
    fun h => hfailed (hnone'.mp h)⟩

end Verdict

end PercentFormat
