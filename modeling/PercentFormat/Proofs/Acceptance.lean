import PercentFormat.Proofs.Agreement
import PercentFormat.Proofs.Composition

/-! Which calls the reference renders: those that the formatter has nothing to tell about, whose
arguments are used up, and whose fields are neither too wide to be numbered nor to be padded. -/

namespace PercentFormat

/-- The width that the padding of a conversion is asked for. A text is padded by what it lacks, the
other values by the whole field. -/
def Conversion.padding (width : Nat) : Conversion → Option Argument → Nat
  | .char, _ => width
  | .decimal, _ => width
  | .hex, _ => width
  | .text, some (.text bytes) => width - (terminated bytes).length
  | _, _ => 0

namespace Segment

/-- The bytes of a directive that stand in the place of its width. -/
def widthDigits : Segment → Bytes
  | .literal _ => []
  | .directive _ code => code.dropLast

/-- The width that the padding of a segment is asked for, given the argument in its place. -/
def padding (arg : Option Argument) (s : Segment) : Nat :=
  s.directive?.elim 0 fun d => d.conversion.padding d.width arg

/-- A segment with nothing to tell, whose width is a number and can be padded. -/
structure WellFormed (arg : Option Argument) (s : Segment) : Prop where
  quiet : (s.share arg).diagnostics = []
  width : placeSum s.widthDigits ≤ maxSize
  padding : s.padding arg ≤ Reference.maxPadding

end Segment

/-- Segments and arguments that go together. -/
structure WellFormed (values : List Argument) (segs : List Segment) : Prop where
  quiet : (shares values segs).flatMap Share.diagnostics = []
  count : values.length = segs.countP Segment.takesArgument
  widths : ∀ s ∈ segs, placeSum s.widthDigits ≤ maxSize
  paddings : ∀ x ∈ placed values segs, x.1.padding x.2 ≤ Reference.maxPadding

/-- A segment that takes an argument complains when there is none. -/
private theorem share_none_ne_nil {s : Segment} (h : s.takesArgument = true) :
    (s.share none).diagnostics ≠ [] := by
  cases s with
  | literal run => cases h
  | directive offset code =>
    rcases code.eq_nil_or_concat with rfl | ⟨width, letter, rfl⟩
    · cases h
    · rw [List.concat_eq_append] at h ⊢
      rw [Segment.takesArgument_concat] at h
      obtain ⟨k, hk⟩ := Option.isSome_iff_exists.mp h
      have hp : width ++ [letter] ≠ [percentSign] := by
        intro hp
        obtain ⟨-, rfl⟩ : width = [] ∧ letter = percentSign := by
          simpa [List.append_eq_singleton_iff] using hp
        cases hk
      simp [Segment.share_concat hp, Share.ofLetter_eq, hk, Share.ofArgument, Share.complaint]

section
variable {values : List Argument} {s : Segment} {segs : List Segment}

theorem wellFormed_nil_iff : WellFormed values [] ↔ values = [] := by
  constructor
  · intro h
    simpa using h.count
  · rintro rfl
    exact ⟨rfl, rfl, by simp, by simp [placed]⟩

private theorem length_left_iff (hs : (s.share values.head?).diagnostics = []) :
    values.length = (s :: segs).countP Segment.takesArgument ↔
      (s.left values).length = segs.countP Segment.takesArgument := by
  rw [List.countP_cons, Segment.left]
  cases hs' : s.takesArgument with
  | false => simp
  | true =>
    cases values with
    | nil => exact absurd hs (share_none_ne_nil hs')
    | cons value values => simp

/-- A list of segments is looked at from the front: one segment with its argument, and the rest. -/
theorem wellFormed_cons_iff : WellFormed values (s :: segs) ↔
    s.WellFormed values.head? ∧ WellFormed (s.left values) segs := by
  constructor
  · rintro ⟨hq, hn, hw, hp⟩
    rw [shares_cons, List.flatMap_cons, List.append_eq_nil_iff] at hq
    rw [placed_cons] at hp
    refine ⟨⟨hq.1, hw s (by simp), hp _ (List.mem_cons_self ..)⟩, hq.2,
      (length_left_iff hq.1).mp hn, ?_, ?_⟩
    · exact fun x hx => hw x (List.mem_cons_of_mem _ hx)
    · exact fun x hx => hp x (List.mem_cons_of_mem _ hx)
  · rintro ⟨⟨hs, hsw, hsp⟩, hq, hn, hw, hp⟩
    refine ⟨?_, (length_left_iff hs).mpr hn, by simpa using ⟨hsw, hw⟩, ?_⟩
    · rw [shares_cons, List.flatMap_cons, hs, hq, List.append_nil]
    · rw [placed_cons]
      exact List.forall_mem_cons.mpr ⟨hsp, hp⟩

private theorem wellFormed_literal_iff (run : Bytes) :
    WellFormed values (.literal run :: segs) ↔ WellFormed values segs := by
  rw [wellFormed_cons_iff, and_iff_right]
  · rfl
  · exact ⟨rfl, Nat.zero_le _, Nat.zero_le _⟩

end

/-- A byte of literal text does not matter, whether or not it is alone in its run. -/
private theorem wellFormed_byte_iff (values : List Argument) (offset : Nat) {b : UInt8}
    (hb : b ≠ percentSign) (rest : Bytes) :
    WellFormed values (segmentsOnto [] offset (b :: rest)) ↔
      WellFormed values (segmentsOnto [] (offset + 1) rest) := by
  obtain ⟨run, segs, hwhole, ⟨-, hlater⟩ | hlater⟩ := segmentsOnto_byte offset hb rest
  · rw [hwhole, hlater, wellFormed_literal_iff]
  · rw [hwhole, hlater, wellFormed_literal_iff, wellFormed_literal_iff]

theorem wellFormed_run_iff (values : List Argument) (offset : Nat) (run : Bytes)
    (hrun : ∀ b ∈ run, b ≠ percentSign) (rest : Bytes) :
    WellFormed values (segmentsOnto [] offset (run ++ rest)) ↔
      WellFormed values (segmentsOnto [] (offset + run.length) rest) := by
  induction run generalizing offset with
  | nil => rfl
  | cons b run ih =>
    have hr : ∀ x ∈ run, x ≠ percentSign := fun x hx => hrun x (by simp [hx])
    rw [List.cons_append, wellFormed_byte_iff values offset (hrun b (by simp)), ih (offset + 1) hr,
      List.length_cons, Nat.add_right_comm, Nat.add_assoc]

private theorem Conversion.letter_of_expected {letter : UInt8} {k : Argument.Kind}
    (h : (ofLetter letter).expected? = some k) :
    (letter = 0x63 ∧ k = .char) ∨ (letter = 0x64 ∧ k = .int) ∨ (letter = 0x73 ∧ k = .text) ∨
      (letter = 0x78 ∧ k = .int) := by
  unfold ofLetter at h
  repeat' split at h
  all_goals simp_all [expected?]

/-- A code with a letter is well formed when it is a number that can be padded, and the argument has
the type of the conversion. -/
private theorem wellFormed_concat_iff {offset : Nat} {width : Bytes} {letter : UInt8}
    (hp : width ++ [letter] ≠ [percentSign]) {arg : Option Argument} :
    (Segment.directive offset (width ++ [letter])).WellFormed arg ↔
      (∀ b ∈ width, isDigit b = true) ∧ placeSum width ≤ maxSize ∧
        ∃ value, arg = some value ∧ (Conversion.ofLetter letter).expected? = some value.kind ∧
          (Conversion.ofLetter letter).padding (placeSum width) arg ≤ Reference.maxPadding := by
  have hpad : (Segment.directive offset (width ++ [letter])).padding arg =
      (Conversion.ofLetter letter).padding (widthOf width) arg := by
    simp [Segment.padding, Segment.directive?, Directive.parse?_concat hp]
  have hdigits : (Segment.directive offset (width ++ [letter])).widthDigits = width := by
    simp [Segment.widthDigits]
  have hquiet : ((Segment.directive offset (width ++ [letter])).share arg).diagnostics = [] ↔
      (∀ b ∈ width, isDigit b = true) ∧
        ∃ value, arg = some value ∧ (Conversion.ofLetter letter).expected? = some value.kind := by
    rw [Segment.share_concat hp, List.append_eq_nil_iff]
    refine and_congr (by simp) ?_
    rw [Share.ofLetter_eq]
    cases (Conversion.ofLetter letter).expected? with
    | none => simp [Share.complaint]
    | some k =>
      cases arg with
      | none => simp [Share.ofArgument, Share.complaint]
      | some value =>
        by_cases hk : value.kind = k
        · simp [Share.ofArgument, hk]
        · simp [Share.ofArgument, Share.complaint, hk, Ne.symm hk]
  have hwidth (hw : placeSum width ≤ maxSize) : widthOf width = placeSum width := by
    rw [widthOf_eq_min, Nat.min_eq_left hw]
  constructor
  · rintro ⟨hq, hw, hb⟩
    rw [hdigits] at hw
    rw [hpad, hwidth hw] at hb
    obtain ⟨hd, value, hv, hk⟩ := hquiet.mp hq
    exact ⟨hd, hw, value, hv, hk, hb⟩
  · rintro ⟨hd, hw, value, hv, hk, hb⟩
    refine ⟨hquiet.mpr ⟨hd, value, hv, hk⟩, hdigits.symm ▸ hw, ?_⟩
    rw [hpad, hwidth hw]
    exact hb

namespace Reference
open Fixture (Arg toArguments)
open Utf8 (encodeChars encodeChars_cons encodeChars_eq_cons encodeChars_eq_append)

private theorem char_of_encodeChar {c x : Char} (hx : x.toNat < 0x80)
    (h : String.utf8EncodeChar c = [UInt8.ofNat x.toNat]) : c = x := by
  by_contra hne
  exact Utf8.ne_of_mem_encodeChar hx hne (by simp [h]) rfl

private theorem field_isOk_iff {width : Nat} {text : List Char} :
    (∃ out, field width text = .ok out) ↔ width ≤ maxPadding := by
  unfold field
  split
  · next h => simp [Nat.not_le.mpr h]
  · next h => simp [Nat.le_of_not_lt h]

private theorem text_isOk_iff (width : Nat) (text : String) :
    (∃ out, convert 's' width (.str text) = .ok out) ↔
      width - (terminated (Utf8.encode text)).length ≤ maxPadding := by
  have hshown : terminated (Utf8.encode text) =
      Utf8.encode (String.ofList (untilNul text.toList)) := by
    rw [Utf8.encode_ofList]
    exact Utf8.terminated_encodeChars text.toList
  rw [hshown]
  by_cases h : maxPadding < width - (Utf8.encode (String.ofList (untilNul text.toList))).length
  · simp [convert, h, Nat.not_le.mpr h]
  · simp [convert, h, Nat.le_of_not_lt h]

private theorem kind_of_char {c : Char} {value : Argument}
    (hv : (Arg.char c).toArgument = .ok value) : value.kind = .char := by
  by_cases hc : c.toNat < 0x80
  · simp only [Arg.toArgument, hc, if_true] at hv
    cases hv
    rfl
  · simp [Arg.toArgument, hc] at hv

/-- A conversion of the right type is rendered when its field can be padded. -/
private theorem convert_isOk_iff {conversion : Char} {letter : UInt8}
    (hl : String.utf8EncodeChar conversion = [letter]) {arg : Arg} {value : Argument}
    (hv : arg.toArgument = .ok value)
    (hk : (Conversion.ofLetter letter).expected? = some value.kind) (width : Nat) :
    (∃ text, convert conversion width arg = .ok text) ↔
      (Conversion.ofLetter letter).padding width (some value) ≤ maxPadding := by
  rcases Conversion.letter_of_expected hk with
    ⟨rfl, hkind⟩ | ⟨rfl, hkind⟩ | ⟨rfl, hkind⟩ | ⟨rfl, hkind⟩
  · obtain rfl : conversion = 'c' := char_of_encodeChar (x := 'c') (by decide) hl
    cases arg with
    | char c =>
      by_cases hc : c.toNat < 0x80
      · simp only [convert, hc, if_true]
        exact field_isOk_iff
      · simp [Arg.toArgument, hc] at hv
    | int v => cases hv; cases hkind
    | str s => cases hv; cases hkind
  · obtain rfl : conversion = 'd' := char_of_encodeChar (x := 'd') (by decide) hl
    cases arg with
    | char c => exact absurd ((kind_of_char hv).symm.trans hkind) (by decide)
    | int v =>
      cases hv
      exact field_isOk_iff
    | str s => cases hv; cases hkind
  · obtain rfl : conversion = 's' := char_of_encodeChar (x := 's') (by decide) hl
    cases arg with
    | char c => exact absurd ((kind_of_char hv).symm.trans hkind) (by decide)
    | int v => cases hv; cases hkind
    | str text =>
      cases hv
      exact text_isOk_iff width text
  · obtain rfl : conversion = 'x' := char_of_encodeChar (x := 'x') (by decide) hl
    cases arg with
    | char c => exact absurd ((kind_of_char hv).symm.trans hkind) (by decide)
    | int v =>
      cases hv
      exact field_isOk_iff
    | str s => cases hv; cases hkind

private theorem toArguments_cons_ok {arg : Arg} {args : List Arg} {values : List Argument}
    (h : toArguments (arg :: args) = .ok values) :
    ∃ value later, arg.toArgument = .ok value ∧ toArguments args = .ok later ∧
      values = value :: later := by
  rw [toArguments, List.mapM_cons] at h
  obtain ⟨value, hv, h⟩ := exists_of_bind_ok h
  obtain ⟨later, hl, h⟩ := exists_of_bind_ok h
  exact ⟨value, later, hv, hl, (Except.ok.inj h).symm⟩

private theorem directive_percent (rest : List Char) (args : List Arg) :
    directive ('%' :: rest) args = .ok (['%'], rest, args) := by
  simp [directive, widthValue, maxSize]

private theorem directive_conversion {digits : List Char} (hd : ∀ c ∈ digits, c.isDigit = true)
    (hw : widthValue digits ≤ maxSize) {conversion : Char} (hn : conversion.isDigit = false)
    (hp : conversion ≠ '%') (rest : List Char) (arg : Arg) (left : List Arg) :
    directive (digits ++ conversion :: rest) (arg :: left) =
      (convert conversion (widthValue digits) arg).map fun text => (text, rest, left) := by
  have htake : (digits ++ conversion :: rest).takeWhile Char.isDigit = digits := by
    rw [List.takeWhile_append_of_pos hd, List.takeWhile_cons_of_neg (by simp [hn]), List.append_nil]
  have hdrop : (digits ++ conversion :: rest).dropWhile Char.isDigit = conversion :: rest := by
    rw [List.dropWhile_append_of_pos hd, List.dropWhile_cons_of_neg (by simp [hn])]
  unfold directive
  rw [htake, hdrop, if_neg (Nat.not_lt.mpr hw)]
  split
  · next h => cases h
  · next h => exact absurd (List.cons.inj h).1 hp
  · next h => cases h
  · next h₁ h₂ =>
    obtain ⟨rfl, rfl⟩ := List.cons.inj h₁
    obtain ⟨rfl, rfl⟩ := List.cons.inj h₂
    rfl

private theorem cutCode_percent (rest : List Char) :
    cutCode (encodeChars ('%' :: rest)) = ([percentSign], encodeChars rest) := by
  have hnone : ∀ b ∈ ([] : Bytes), endsDirective b = false := by simp
  exact cutCode_of_ends hnone (by decide) (encodeChars rest)

/-- What the reference reads of a directive is the code that the formatter cuts. -/
private theorem wellFormed_of_directive {cs text rest : List Char} {args left : List Arg}
    {values : List Argument} (h : directive cs args = .ok (text, rest, left))
    (hv : toArguments args = .ok values) (offset : Nat) :
    (Segment.directive offset (cutCode (encodeChars cs)).1).WellFormed values.head? := by
  rcases directive_ok h with ⟨rfl, rfl, rfl⟩ | ⟨digits, conversion, arg, rfl, hd, hw, rfl, hc⟩
  · rw [cutCode_percent]
    exact ⟨rfl, Nat.zero_le _, Nat.zero_le _⟩
  · obtain ⟨value, letter, hvalue, hletter, hends, hk, -⟩ := convert_ok hc
    obtain ⟨value', later, hvalue', -, rfl⟩ := toArguments_cons_ok hv
    obtain rfl : value = value' := Except.ok.inj (hvalue.symm.trans hvalue')
    have hp : encodeChars digits ++ [letter] ≠ [percentSign] := by
      intro hp
      have : letter = percentSign := by simpa using congrArg List.getLast? hp
      subst this
      exact absurd hends (by decide)
    have hpad := (convert_isOk_iff hletter hvalue hk _).mp ⟨text, hc⟩
    rw [widthValue_eq hd] at hw hpad
    rw [cutCode_digits hd hletter hends rest]
    exact (wellFormed_concat_iff hp).mpr ⟨isDigit_of_mem_encodeChars hd, hw, value, rfl, hk, hpad⟩

private theorem isDigit_of_byte {c : Char} (hc : c.toNat < 0x80)
    (h : isDigit (UInt8.ofNat c.toNat) = true) : c.isDigit = true := by
  have hb := Utf8.toNat_ofNat_ascii hc
  simp only [isDigit, Bool.and_eq_true, decide_eq_true_eq, UInt8.le_iff_toNat_le, hb] at h
  simp only [Char.isDigit, Bool.and_eq_true, decide_eq_true_eq, ge_iff_le, UInt32.le_iff_toNat_le]
  exact h

private theorem digit_ascii {b : UInt8} (h : isDigit b = true) : b.toNat < 0x80 := by
  simp only [isDigit, Bool.and_eq_true, decide_eq_true_eq, UInt8.le_iff_toNat_le,
    UInt8.reduceToNat] at h
  omega

private theorem isDigit_of_encodeChars {digits : List Char} (ha : ∀ c ∈ digits, c.toNat < 0x80)
    (hd : ∀ b ∈ encodeChars digits, isDigit b = true) : ∀ c ∈ digits, c.isDigit = true := by
  intro c hc
  apply isDigit_of_byte (ha c hc)
  apply hd
  rw [Utf8.encodeChars_ascii ha]
  exact List.mem_map.mpr ⟨c, hc, rfl⟩

private theorem conversion_of_expected {conversion : Char} {letter : UInt8} {k : Argument.Kind}
    (hc : conversion.toNat = letter.toNat) (hk : (Conversion.ofLetter letter).expected? = some k) :
    conversion = 'c' ∨ conversion = 'd' ∨ conversion = 's' ∨ conversion = 'x' := by
  rcases Conversion.letter_of_expected hk with ⟨rfl, -⟩ | ⟨rfl, -⟩ | ⟨rfl, -⟩ | ⟨rfl, -⟩
  · exact .inl (Char.toNat_inj.mp hc)
  · exact .inr (.inl (Char.toNat_inj.mp hc))
  · exact .inr (.inr (.inl (Char.toNat_inj.mp hc)))
  · exact .inr (.inr (.inr (Char.toNat_inj.mp hc)))

/-- Bytes that start with digits and the letter of a conversion are the bytes of such characters. -/
private theorem exists_conversion {cs : List Char} {width tail : Bytes} {letter : UInt8}
    {k : Argument.Kind} (hcs : encodeChars cs = width ++ letter :: tail)
    (hd : ∀ b ∈ width, isDigit b = true) (hk : (Conversion.ofLetter letter).expected? = some k) :
    ∃ digits conversion rest, cs = digits ++ conversion :: rest ∧
      (∀ c ∈ digits, c.isDigit = true) ∧ encodeChars digits = width ∧
      String.utf8EncodeChar conversion = [letter] ∧ conversion.isDigit = false ∧
      conversion ≠ '%' := by
  obtain ⟨digits, later, rfl, hascii, rfl, hlater⟩ :=
    encodeChars_eq_append (fun b hb => digit_ascii (hd b hb)) hcs
  have hletter : letter.toNat < 0x80 := by
    rcases Conversion.letter_of_expected hk with ⟨rfl, -⟩ | ⟨rfl, -⟩ | ⟨rfl, -⟩ | ⟨rfl, -⟩ <;> decide
  obtain ⟨conversion, rest, rfl, hc, -⟩ := encodeChars_eq_cons hletter hlater
  refine ⟨digits, conversion, rest, rfl, isDigit_of_encodeChars hascii hd, rfl, ?_, ?_⟩
  · rw [Utf8.encodeChar_ascii (hc ▸ hletter), hc, UInt8.ofNat_toNat]
  · rcases conversion_of_expected hc hk with rfl | rfl | rfl | rfl <;> decide

/-- A well-formed code is read and rendered by the reference. -/
private theorem directive_of_wellFormed {cs : List Char} {args : List Arg} {values : List Argument}
    (hv : toArguments args = .ok values) {offset : Nat}
    (h : (Segment.directive offset (cutCode (encodeChars cs)).1).WellFormed values.head?) :
    ∃ r, directive cs args = .ok r := by
  have hcut := cutCode_append (encodeChars cs)
  rcases (cutCode (encodeChars cs)).1.eq_nil_or_concat with hcode | ⟨width, letter, hcode⟩
  · rw [hcode] at h
    cases h.quiet
  · rw [List.concat_eq_append] at hcode
    rw [hcode] at h hcut
    by_cases hp : width ++ [letter] = [percentSign]
    · rw [hp] at hcut
      obtain ⟨c, rest, rfl, hc, -⟩ := encodeChars_eq_cons (by decide) hcut.symm
      obtain rfl : c = '%' := Char.toNat_inj.mp hc
      exact ⟨_, directive_percent rest args⟩
    · obtain ⟨hd, hw, value, hvalue, hk, hpad⟩ := (wellFormed_concat_iff hp).mp h
      rw [List.append_assoc] at hcut
      obtain ⟨digits, conversion, rest, rfl, hdigits, rfl, hletter, hn, hpercent⟩ :=
        exists_conversion hcut.symm hd hk
      rw [← widthValue_eq hdigits] at hw hpad
      -- there is a value in the place of the code, so there is an argument
      cases args with
      | nil =>
        obtain rfl : values = [] := (Except.ok.inj hv).symm
        cases hvalue
      | cons arg left =>
        obtain ⟨value', later, harg, -, rfl⟩ := toArguments_cons_ok hv
        obtain rfl : value' = value := Option.some.inj hvalue
        obtain ⟨text, htext⟩ := (convert_isOk_iff hletter harg hk _).mpr hpad
        rw [directive_conversion hdigits hw hn hpercent, htext]
        exact ⟨_, rfl⟩

private theorem toArguments_left {cs text rest : List Char} {args left : List Arg}
    {values : List Argument} (h : directive cs args = .ok (text, rest, left))
    (hv : toArguments args = .ok values) (offset : Nat) :
    (cutCode (encodeChars cs)).2 = encodeChars rest ∧ toArguments left =
      .ok ((Segment.directive offset (cutCode (encodeChars cs)).1).left values) := by
  obtain ⟨later, hl⟩ : ∃ later, toArguments left = .ok later := by
    rcases directive_ok h with ⟨-, -, rfl⟩ | ⟨-, -, arg, -, -, -, rfl, -⟩
    · exact ⟨values, hv⟩
    · obtain ⟨-, later, -, hl, -⟩ := toArguments_cons_ok hv
      exact ⟨later, hl⟩
  obtain ⟨values', code, hv', hcut, hs⟩ := share_directive h hl
  obtain rfl : values' = values := Except.ok.inj (hv'.symm.trans hv)
  rw [hcut, (hs offset).2]
  exact ⟨rfl, hl⟩

/-- The reference renders what is left of a template exactly when its segments are well formed,
wherever they start. -/
theorem renderOnto_isOk_iff (done cs : List Char) (args : List Arg) {values : List Argument}
    (hv : toArguments args = .ok values) (offset : Nat) :
    (∃ out, renderOnto done cs args = .ok out) ↔
      WellFormed values (segmentsOnto [] offset (encodeChars cs)) := by
  fun_induction renderOnto done cs args generalizing values offset with
  | case1 done =>
    obtain rfl : values = [] := (Except.ok.inj hv).symm
    have hnil : WellFormed [] (segmentsOnto [] offset (encodeChars [])) := by
      rw [encodeChars, List.flatMap_nil, segmentsOnto]
      exact wellFormed_nil_iff.mpr rfl
    exact iff_of_true ⟨_, rfl⟩ hnil
  | case2 done arg args =>
    obtain ⟨value, later, -, -, rfl⟩ := toArguments_cons_ok hv
    rw [encodeChars, List.flatMap_nil, segmentsOnto]
    simp [wellFormed_nil_iff]
  | case3 done args cs refusal hd =>
    rw [encodeChars_cons]
    have hpercent : String.utf8EncodeChar '%' = [percentSign] := rfl
    rw [hpercent, List.singleton_append, segmentsOnto_percent, wellFormed_cons_iff]
    refine iff_of_false (by simp) ?_
    rintro ⟨hcode, -⟩
    obtain ⟨r, hr⟩ := directive_of_wellFormed hv hcode
    cases hd.symm.trans hr
  | case4 done args cs text rest left hd _ ih =>
    obtain ⟨hrest, hleft⟩ := toArguments_left hd hv offset
    rw [encodeChars_cons]
    have hpercent : String.utf8EncodeChar '%' = [percentSign] := rfl
    rw [hpercent, List.singleton_append, segmentsOnto_percent, wellFormed_cons_iff, hrest,
      and_iff_right (wellFormed_of_directive hd hv offset)]
    exact ih hleft _
  | case5 done args c cs hc ih =>
    have hrun : ∀ b ∈ String.utf8EncodeChar c, b ≠ percentSign := by
      intro b hb
      exact Utf8.ne_of_mem_encodeChar (x := '%') (by decide) hc hb
    rw [encodeChars_cons, wellFormed_run_iff _ _ _ hrun]
    exact ih hv _

private theorem format_isOk_iff (template : String) (args : List Arg) :
    (∃ out, format template args = .ok out) ↔
      ∃ out, renderOnto [] (untilNul template.toList) args = .ok out := by
  constructor
  · rintro ⟨out, h⟩
    exact ⟨out.toList, format_ok h⟩
  · rintro ⟨out, h⟩
    refine ⟨String.ofList out, ?_⟩
    simp [format, render, h, Except.map]

/-- Only a character beyond ASCII is no argument of the formatter. -/
theorem toArguments_isOk_iff (args : List Arg) :
    (∃ values, toArguments args = .ok values) ↔ ∀ c, .char c ∈ args → c.toNat < 0x80 := by
  induction args with
  | nil => exact iff_of_true ⟨[], rfl⟩ (by simp)
  | cons arg args ih =>
    have harg : (∃ value, arg.toArgument = .ok value) ↔ ∀ c, arg = .char c → c.toNat < 0x80 := by
      cases arg with
      | char c => by_cases hc : c.toNat < 0x80 <;> simp [Arg.toArgument, hc]
      | int v => simp [Arg.toArgument]
      | str text => simp [Arg.toArgument]
    constructor
    · rintro ⟨values, h⟩ c hc
      obtain ⟨value, later, hv, hl, -⟩ := toArguments_cons_ok h
      rcases List.mem_cons.mp hc with hc | hc
      · exact harg.mp ⟨value, hv⟩ c hc.symm
      · exact ih.mp ⟨later, hl⟩ c hc
    · intro h
      obtain ⟨value, hv⟩ := harg.mpr fun c hc => h c (by simp [hc])
      obtain ⟨later, hl⟩ := ih.mpr fun c hc => h c (by simp [hc])
      exact ⟨value :: later, toArguments_cons hv hl⟩

private theorem length_toArguments {args : List Arg} {values : List Argument}
    (h : toArguments args = .ok values) : values.length = args.length := by
  induction args generalizing values with
  | nil =>
    rw [← Except.ok.inj h]
    rfl
  | cons arg args ih =>
    obtain ⟨value, later, -, hl, rfl⟩ := toArguments_cons_ok h
    rw [List.length_cons, List.length_cons, ih hl]

/-- A template has nothing to tell exactly when a call with room enough tells nothing. -/
private theorem quiet_iff (t : Bytes) (values : List Argument) :
    (rendering t values).diagnostics = [] ↔
      ∃ enough, ∀ (p : Session) (o : Options), o.policy = .proceed →
        enough ≤ o.maxOutput → enough ≤ o.maxDirective →
        ∃ f, (p.formatWith o t values).1 = .ok f ∧ f.diagnostics = [] := by
  constructor
  · intro hq
    obtain ⟨enough, he⟩ := exists_enough t values
    refine ⟨enough, fun p o hp ho hd => ⟨rendering t values, ?_, hq⟩⟩
    exact (formatWith_eq_ok_iff hp).mpr ⟨he o ho hd, rfl⟩
  · rintro ⟨enough, h⟩
    obtain ⟨f, hf, hq⟩ := h (.start {}) { maxOutput := enough, maxDirective := enough } rfl
      (Nat.le_refl _) (Nat.le_refl _)
    obtain ⟨-, rfl⟩ := (formatWith_eq_ok_iff rfl).mp hf
    exact hq

/-- The reference renders a call exactly when its arguments are arguments of the formatter, which
has nothing to tell about it when there is room enough, when there are as many of them as the
template takes, when every width is a number of 64 bits, and when every field can be padded. -/
theorem format_renders_iff (template : String) (args : List Arg) :
    ((∃ values, toArguments args = .ok values) ↔ ∀ c, .char c ∈ args → c.toNat < 0x80) ∧
    ((∃ out, format template args = .ok out) ↔
      ∃ values, toArguments args = .ok values ∧
        (∃ enough, ∀ (p : Session) (o : Options), o.policy = .proceed →
          enough ≤ o.maxOutput → enough ≤ o.maxDirective →
          ∃ f, (p.formatWith o (Utf8.encode template) values).1 = .ok f ∧ f.diagnostics = []) ∧
        args.length = (requiredArguments (Utf8.encode template)).length ∧
        (∀ s ∈ segments (Utf8.encode template), placeSum s.widthDigits ≤ maxSize) ∧
        ∀ x ∈ placed values (segments (Utf8.encode template)), x.1.padding x.2 ≤ 65535) := by
  refine ⟨toArguments_isOk_iff args, ?_⟩
  have hcut : terminated (Utf8.encode template) = encodeChars (untilNul template.toList) :=
    Utf8.terminated_encodeChars template.toList
  have hsegs : segments (Utf8.encode template) =
      segmentsOnto [] 0 (encodeChars (untilNul template.toList)) := by rw [segments, hcut]
  constructor
  · rintro ⟨out, h⟩
    obtain ⟨values, hv, -⟩ := rendering_of_format h
    obtain ⟨hq, hn, hw, hp⟩ :=
      (renderOnto_isOk_iff _ _ args hv 0).mp ((format_isOk_iff template args).mp ⟨out, h⟩)
    rw [← hsegs] at hq hn hw hp
    rw [length_toArguments hv, ← length_requiredArguments] at hn
    exact ⟨values, hv, (quiet_iff _ values).mp hq, hn, hw, hp⟩
  · rintro ⟨values, hv, hq, hn, hw, hp⟩
    rw [← length_toArguments hv, length_requiredArguments] at hn
    have hwell : WellFormed values (segments (Utf8.encode template)) :=
      ⟨(quiet_iff _ values).mpr hq, hn, hw, hp⟩
    rw [hsegs] at hwell
    exact (format_isOk_iff template args).mpr ((renderOnto_isOk_iff _ _ args hv 0).mpr hwell)

/-- A text of three bytes before its NUL can be padded up to a width that is three above the bound,
and not beyond it. -/
theorem format_renders_iff_widest_text :
    (∃ out, format "%065538s" [.str "né\x00x"] = .ok out) ∧
      ¬ ∃ out, format "%065539s" [.str "né\x00x"] = .ok out := by
  constructor
  · refine (format_renders_iff _ _).2.mpr ⟨[.text (Utf8.encode "né\x00x")], rfl, ?_, ?_, ?_, ?_⟩
    · exact (quiet_iff _ _).mp (by decide +kernel)
    · decide +kernel
    · decide +kernel
    · decide +kernel
  · intro h
    obtain ⟨values, hv, -, -, -, hp⟩ := (format_renders_iff _ _).2.mp h
    obtain rfl : values = [.text (Utf8.encode "né\x00x")] := (Except.ok.inj hv).symm
    exact absurd hp (by decide +kernel)

end Reference

end PercentFormat
