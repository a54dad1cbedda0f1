import PercentFormat.Proofs.Captured
import PercentFormat.Proofs.Fragments

/-! Text in, text out. A template is cut only at ASCII bytes, and such a byte is never a part of a
longer character. So literal runs are text, however malformed the directives between them are. -/

namespace PercentFormat

/-- The bytes are those of a run of characters. -/
def IsText (bytes : Bytes) : Prop := ∃ cs, Utf8.encodeChars cs = bytes

theorem isText_iff_isValidUTF8 {bytes : Bytes} :
    IsText bytes ↔ bytes.toByteArray.IsValidUTF8 := by
  constructor
  · rintro ⟨cs, rfl⟩
    exact ⟨cs, rfl⟩
  · rintro ⟨cs, hcs⟩
    have hbytes := congrArg (fun array : ByteArray => array.data.toList) hcs
    rw [List.utf8Encode, List.data_toByteArray, List.data_toByteArray] at hbytes
    exact ⟨cs, hbytes.symm⟩

namespace IsText
variable {a b : Bytes}

theorem nil : IsText [] := ⟨[], rfl⟩

theorem append (ha : IsText a) (hb : IsText b) : IsText (a ++ b) := by
  obtain ⟨cs, rfl⟩ := ha
  obtain ⟨ds, rfl⟩ := hb
  exact ⟨cs ++ ds, Utf8.encodeChars_append cs ds⟩

/-- A NUL is a character of its own, so nothing is cut in two there. -/
theorem terminated (h : IsText a) : IsText (terminated a) := by
  obtain ⟨cs, rfl⟩ := h
  exact ⟨_, (Utf8.terminated_encodeChars cs).symm⟩

/-- Text can be cut on either side of an ASCII byte. -/
theorem cut {x : UInt8} (hx : x.toNat < 0x80) (h : IsText (a ++ x :: b)) :
    IsText a ∧ IsText (x :: b) ∧ IsText b := by
  obtain ⟨cs, hcs⟩ := h
  obtain ⟨before, c, rest, -, hbefore, hc, hrest⟩ := Utf8.encodeChars_eq_append_cons hx hcs
  refine ⟨⟨before, hbefore⟩, ⟨c :: rest, ?_⟩, ⟨rest, hrest⟩⟩
  rw [Utf8.encodeChars_cons, hc, hrest, List.singleton_append]

/-- Text is decoded without a fault, and what is decoded has these bytes. -/
theorem decode (h : IsText a) : Utf8.decode? a = some (Utf8.decodeLossy a) ∧
    (Utf8.decodeLossy a).toByteArray = a.toByteArray := by
  obtain ⟨cs, rfl⟩ := h
  rw [← Utf8.encode_ofList, Utf8.decode?_encode, Utf8.decodeLossy_encode,
    ← String.utf8Encode_toList]
  exact ⟨rfl, rfl⟩

end IsText

private theorem ascii_of_endsDirective {b : UInt8} (h : endsDirective b = true) :
    b.toNat < 0x80 := by
  simp only [endsDirective, isLetter, percentSign, Bool.or_eq_true, Bool.and_eq_true, beq_iff_eq,
    decide_eq_true_eq, UInt8.le_iff_toNat_le, ← UInt8.toNat_inj, UInt8.reduceToNat] at h
  omega

section
variable {start : Nat} {t rest : Bytes} {s : Segment} {segs : List Segment}

/-- One segment of a text: what follows it is text, and so is a literal run. -/
theorem Segmentation.isText_rest (h : Segmentation start rest segs)
    (hn : ∀ next ∈ segs.head?, s.Leads next) (ht : IsText (s.source ++ rest)) :
    IsText rest ∧ ∀ run, s = .literal run → IsText run := by
  cases s with
  | literal run =>
    -- a run ends with the template or in front of a percent sign
    rcases h.starts_percent hn with rfl | ⟨later, rfl⟩
    · rw [List.append_nil] at ht
      refine ⟨.nil, ?_⟩
      rintro _ ⟨⟩
      exact ht
    · obtain ⟨hrun, hrest, -⟩ := ht.cut (by decide)
      refine ⟨hrest, ?_⟩
      rintro _ ⟨⟩
      exact hrun
  | directive offset code =>
    refine ⟨?_, nofun⟩
    cases segs with
    | nil =>
      rw [segmentation_nil_iff.mp h]
      exact .nil
    | cons next later =>
      -- a code that something follows is closed by an ASCII byte, whatever stands in it
      obtain ⟨letter, hletter, hends⟩ := hn next rfl
      obtain ⟨width, rfl⟩ := List.getLast?_eq_some_iff.mp hletter
      have hsource : (Segment.directive offset (width ++ [letter])).source ++ rest =
          (percentSign :: width) ++ letter :: rest := by simp [Segment.source]
      rw [hsource] at ht
      exact (ht.cut (ascii_of_endsDirective hends)).2.2

/-- All segments: the literal runs of a text are texts. -/
theorem Segmentation.isText_literals (h : Segmentation start t segs) (ht : IsText t) :
    ∀ run, .literal run ∈ segs → IsText run := by
  induction segs generalizing start t with
  | nil => simp
  | cons s segs ih =>
    obtain ⟨-, hn, rest, rfl, hrest⟩ := segmentation_cons_iff.mp h
    obtain ⟨hlater, hrun⟩ := hrest.isText_rest hn ht
    intro run hmem
    rcases List.mem_cons.mp hmem with hs | hmem
    · exact hrun run hs.symm
    · exact ih hrest hlater run hmem

end

theorem isText_numeral (r : Radix) (v : Int32) : IsText (numeral r v) := by
  cases r with
  | hex => exact ⟨_, (numeral_hex v).symm⟩
  | decimal =>
    rw [numeral_decimal]
    split
    · exact ⟨'-' :: _, rfl⟩
    · exact ⟨_, rfl⟩

namespace Fixture

/-- An argument that a fixture can hold, as far as its bytes go. -/
theorem isText_of_toArgument {arg : Arg} {value : Argument} (h : arg.toArgument = .ok value) :
    (∀ byte, value = .char byte → IsText [byte]) ∧ ∀ bytes, value = .text bytes → IsText bytes := by
  cases arg with
  | char c =>
    rw [Arg.toArgument] at h
    split at h
    · next hc =>
      cases h
      refine ⟨?_, nofun⟩
      rintro _ ⟨⟩
      exact ⟨[c], by rw [Utf8.encodeChars_ascii (by simpa using hc)]; rfl⟩
    · cases h
  | int v =>
    cases h
    exact ⟨nofun, nofun⟩
  | str text =>
    cases h
    refine ⟨nofun, ?_⟩
    rintro _ ⟨⟩
    exact ⟨text.toList, rfl⟩

/-- What is put out for arguments of a fixture is text. -/
theorem composable_isText {args : List Arg} {values : List Argument}
    (h : toArguments args = .ok values) : Composable IsText values := by
  have hvalues := forall_mem_of_forall₂ ((forall₂_of_mapM h).imp fun _ _ => isText_of_toArgument)
  exact {
    nil := .nil
    append := fun _ _ => .append
    blank := ⟨[' '], rfl⟩
    percent := ⟨['%'], rfl⟩
    char := fun byte hbyte => (hvalues _ hbyte).1 byte rfl
    numeral := fun r v _ => isText_numeral r v
    text := fun bytes hbytes => ((hvalues _ hbytes).2 bytes rfl).terminated }

end Fixture

theorem isText_rendering {t : Bytes} (ht : IsText t) {args : List Argument}
    (ha : Composable IsText args) : IsText (rendering t args).bytes :=
  ha.shares ((segmentation_segmentsOnto 0 (terminated t)).isText_literals ht.terminated)

/-- Formatting preserves UTF-8. If the template is valid UTF-8 and the arguments come from a fixture,
then the output is valid UTF-8, under all options and with all sorts of malformed directives. So the
output is decoded without replacing anything: the decoded text has the bytes of the output, and just
as many. -/
theorem formatWith_preserves_utf8 (p : Session) (o : Options) (t : Bytes) (args : List Fixture.Arg)
    (values : List Argument) (f : Formatted) (ht : t.toByteArray.IsValidUTF8)
    (ha : Fixture.toArguments args = .ok values) (hf : (p.formatWith o t values).1 = .ok f) :
    f.bytes.toByteArray.IsValidUTF8 ∧
    Utf8.decode? f.bytes = some (Utf8.decodeLossy f.bytes) ∧
    (Utf8.decodeLossy f.bytes).toByteArray.data.toList = f.bytes ∧
    (Utf8.decodeLossy f.bytes).utf8ByteSize = f.bytes.length := by
  obtain ⟨-, rfl, -⟩ := formatWith_returns_iff.mp hf
  have htext : IsText (rendering t values).bytes :=
    isText_rendering (isText_iff_isValidUTF8.mpr ht) (Fixture.composable_isText ha)
  obtain ⟨hdecode, hbytes⟩ := htext.decode
  refine ⟨isText_iff_isValidUTF8.mp htext, hdecode, ?_, ?_⟩
  · rw [hbytes, List.data_toByteArray]
  · rw [← String.size_toByteArray, hbytes, List.size_toByteArray]

/-- Characters of several bytes in the width, in place of the letter, and behind a NUL. -/
theorem formatWith_preserves_utf8_malformed :
    let t := Utf8.encode "é%ü5d日%é\x00日"
    let f : Formatted := ⟨Utf8.encode "é   -7日", [⟨.malformedWidthDigit 0xC3, 2⟩,
      ⟨.malformedWidthDigit 0xBC, 2⟩, ⟨.malformedWidthDigit 0xC3, 10⟩, ⟨.unknownConversion 0xA9, 10⟩]⟩
    ((Session.start {}).formatWith {} t [.int (-7)]).1 = .ok f ∧
    f.bytes.toByteArray.IsValidUTF8 ∧ Utf8.decode? f.bytes = some (Utf8.decodeLossy f.bytes) := by
  intro t f
  have hf : ((Session.start {}).formatWith {} t [.int (-7)]).1 = .ok f :=
    (formatWith_eq_ok_iff rfl).mpr ⟨⟨by decide +kernel, by decide +kernel⟩, by decide +kernel⟩
  have ht : t.toByteArray.IsValidUTF8 := isText_iff_isValidUTF8.mp ⟨_, rfl⟩
  obtain ⟨hvalid, hdecode, -⟩ :=
    formatWith_preserves_utf8 (.start {}) {} t [.int (-7)] [.int (-7)] f ht rfl hf
  exact ⟨hf, hvalid, hdecode⟩

end PercentFormat
