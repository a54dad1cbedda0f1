import PercentFormat.Proofs.Digits
import PercentFormat.Proofs.Scanning
import PercentFormat.Proofs.Width
import PercentFormat.Reference

/-! Agreement with the reference: a call that the reference renders, the formatter renders to the
same bytes and without a complaint. -/

namespace PercentFormat.Reference
open Fixture (Arg toArguments)
open Utf8 (encodeChars encodeChars_cons encodeChars_append encodeChar_ascii encodeChars_ascii
  length_encodeChars_ascii)

private theorem isDigit_byte {c : Char} (h : c.isDigit = true) :
    isDigit (UInt8.ofNat c.toNat) = true := by
  obtain ⟨hl, hu⟩ := isDigit_range h
  have hb := Utf8.toNat_ofNat_ascii (isDigit_ascii h)
  simp only [isDigit, Bool.and_eq_true, decide_eq_true_eq, UInt8.le_iff_toNat_le, hb]
  exact ⟨hl, hu⟩

private theorem digitValue_byte {c : Char} (h : c.isDigit = true) :
    digitValue (UInt8.ofNat c.toNat) = c.toNat - 0x30 := by
  rw [digitValue, Utf8.toNat_ofNat_ascii (isDigit_ascii h)]

theorem isDigit_of_mem_encodeChars {digits : List Char}
    (h : ∀ c ∈ digits, c.isDigit = true) : ∀ b ∈ encodeChars digits, isDigit b = true := by
  intro b hb
  rw [encodeChars_ascii fun c hc => isDigit_ascii (h c hc)] at hb
  obtain ⟨c, hc, rfl⟩ := List.mem_map.mp hb
  exact isDigit_byte (h c hc)

-- the reference reads a width from the left, the formatter adds up its places; the width read so far
-- carries the induction
private theorem foldl_width {digits : List Char} (h : ∀ c ∈ digits, c.isDigit = true)
    (width : Nat) :
    digits.foldl (fun width d => width * 10 + (d.toNat - 0x30)) width =
      width * Nat.pow 10 digits.length + placeSum (encodeChars digits) := by
  induction digits generalizing width with
  | nil => simp [placeSum, encodeChars]
  | cons c cs ih =>
    have hc : c.isDigit = true := h c (by simp)
    have hcs : ∀ x ∈ cs, x.isDigit = true := fun x hx => h x (by simp [hx])
    have hlen := length_encodeChars_ascii fun x hx => isDigit_ascii (hcs x hx)
    have hpow : Nat.pow 10 (cs.length + 1) = 10 * Nat.pow 10 cs.length := Nat.pow_succ'
    rw [List.foldl_cons, ih hcs, encodeChars_cons, encodeChar_ascii (isDigit_ascii hc),
      List.singleton_append, placeSum_cons, if_pos (isDigit_byte hc), digitValue_byte hc, hlen,
      List.length_cons, hpow, Nat.add_mul, Nat.mul_assoc, Nat.add_assoc]

theorem widthValue_eq {digits : List Char} (h : ∀ c ∈ digits, c.isDigit = true) :
    widthValue digits = placeSum (encodeChars digits) := by
  rw [widthValue, foldl_width h, Nat.zero_mul, Nat.zero_add]

private theorem widthOf_digits {digits : List Char} (h : ∀ c ∈ digits, c.isDigit = true)
    (hw : widthValue digits ≤ maxSize) : widthOf (encodeChars digits) = widthValue digits := by
  rw [widthOf_eq_min, ← widthValue_eq h, Nat.min_eq_left hw]

private theorem encodeChars_blanks (n : Nat) :
    encodeChars (List.replicate n ' ') = List.replicate n 0x20 := by
  rw [encodeChars_ascii fun c hc => (List.eq_of_mem_replicate hc) ▸ by decide, List.map_replicate]
  rfl

/-- On ASCII text, aligning the characters is aligning the bytes. -/
theorem encodeChars_alignRight {text : List Char} (h : ∀ c ∈ text, c.toNat < 0x80)
    (width : Nat) :
    encodeChars (alignRight width text) = rightAligned width (encodeChars text) := by
  rw [alignRight, rightAligned, encodeChars_append, encodeChars_blanks, length_encodeChars_ascii h]

private theorem field_ok {width : Nat} {text shown : List Char} (hf : field width shown = .ok text)
    (hs : ∀ c ∈ shown, c.toNat < 0x80) :
    encodeChars text = rightAligned width (encodeChars shown) := by
  unfold field at hf
  split at hf
  · cases hf
  · cases hf
    exact encodeChars_alignRight hs width

theorem decimal_ascii (v : Int32) : ∀ c ∈ decimal v, c.toNat < 0x80 := by
  have hd := toDigits_ascii .decimal v.toInt.natAbs
  unfold decimal
  split
  · intro c hc
    rcases List.mem_cons.mp hc with rfl | hc
    · decide
    · exact hd c hc
  · exact hd

theorem encodeChars_decimal (v : Int32) : encodeChars (decimal v) = numeral .decimal v := by
  rw [numeral_decimal, decimal]
  split
  · rfl
  · rfl

/-- A rendered conversion has an argument of its own type, and its text is the field of the value. -/
theorem convert_ok {conversion : Char} {width : Nat} {arg : Arg} {text : List Char}
    (h : convert conversion width arg = .ok text) :
    ∃ value letter, arg.toArgument = .ok value ∧
      String.utf8EncodeChar conversion = [letter] ∧ isLetter letter = true ∧
      (Conversion.ofLetter letter).expected? = some value.kind ∧
      encodeChars text = rightAligned width ((Conversion.ofLetter letter).body value) := by
  unfold convert at h
  split at h
  · next c =>
    split at h
    · next hc =>
      have hv : (Arg.char c).toArgument = .ok (.char (UInt8.ofNat c.toNat)) := if_pos hc
      refine ⟨.char (UInt8.ofNat c.toNat), 0x63, hv, by decide, by decide, rfl, ?_⟩
      rw [field_ok h (by simpa using hc), encodeChars_ascii (by simpa using hc)]
      rfl
    · cases h
  · next v =>
    refine ⟨.int v, 0x64, rfl, by decide, by decide, rfl, ?_⟩
    rw [field_ok h (decimal_ascii v), encodeChars_decimal]
    rfl
  · next v =>
    refine ⟨.int v, 0x78, rfl, by decide, by decide, rfl, ?_⟩
    rw [field_ok h (toDigits_ascii .hex _), hexadecimal, ← numeral_hex]
    rfl
  · next s =>
    simp only at h
    split at h
    · cases h
    · refine ⟨.text (Utf8.encode s), 0x73, rfl, by decide, by decide, rfl, ?_⟩
      have hshown : encodeChars (untilNul s.toList) = terminated (Utf8.encode s) :=
        (Utf8.terminated_encodeChars s.toList).symm
      rw [← Except.ok.inj h, encodeChars_append, encodeChars_blanks, Utf8.encode_ofList, hshown]
      rfl
  · cases h

/-- What a rendered directive can be. -/
theorem directive_ok {cs text rest : List Char} {args left : List Arg}
    (h : directive cs args = .ok (text, rest, left)) :
    (cs = '%' :: rest ∧ text = ['%'] ∧ left = args) ∨
      ∃ digits conversion arg, cs = digits ++ conversion :: rest ∧
        (∀ c ∈ digits, c.isDigit = true) ∧ widthValue digits ≤ maxSize ∧ args = arg :: left ∧
        convert conversion (widthValue digits) arg = .ok text := by
  have hcs := List.takeWhile_append_dropWhile (p := Char.isDigit) (l := cs)
  have hdigits : ∀ c ∈ cs.takeWhile Char.isDigit, c.isDigit = true :=
    List.all_eq_true.mp List.all_takeWhile
  unfold directive at h
  simp only at h
  split at h
  · cases h
  next hw =>
  split at h
  · cases h
  · next rest' _ hd =>
    split at h
    · next hempty =>
      cases h
      rw [List.isEmpty_iff.mp hempty, hd] at hcs
      exact .inl ⟨hcs.symm, rfl, rfl⟩
    · cases h
  · cases h
  · next c rest' arg args' _ hd =>
    cases hc : convert c (widthValue (cs.takeWhile Char.isDigit)) arg with
    | error e => rw [hc] at h; cases h
    | ok t =>
      rw [hc] at h
      cases h
      rw [hd] at hcs
      exact .inr ⟨_, c, arg, hcs.symm, hdigits, Nat.le_of_not_lt hw, rfl, hc⟩

theorem endsDirective_digit {b : UInt8} (h : isDigit b = true) : endsDirective b = false := by
  simp only [isDigit, Bool.and_eq_true, decide_eq_true_eq, UInt8.le_iff_toNat_le] at h
  have hp : b ≠ percentSign := by
    rintro rfl
    exact absurd h (by decide)
  have hl : isLetter b = false := by
    simp only [isLetter, Bool.or_eq_false_iff, Bool.and_eq_false_iff, decide_eq_false_iff_not,
      UInt8.le_iff_toNat_le]
    simp only [UInt8.reduceToNat] at h ⊢
    omega
  simp [endsDirective, hp, hl]

theorem toArguments_cons {arg : Arg} {value : Argument} {args : List Arg}
    {values : List Argument}
    (h : arg.toArgument = .ok value) (ha : toArguments args = .ok values) :
    toArguments (arg :: args) = .ok (value :: values) := by
  unfold toArguments at ha ⊢
  rw [List.mapM_cons, h, ha]
  rfl

theorem cutCode_digits {digits : List Char} (hd : ∀ c ∈ digits, c.isDigit = true) {conversion : Char}
    {letter : UInt8} (hl : String.utf8EncodeChar conversion = [letter])
    (he : isLetter letter = true) (rest : List Char) :
    cutCode (encodeChars (digits ++ conversion :: rest)) =
      (encodeChars digits ++ [letter], encodeChars rest) := by
  have hbytes := isDigit_of_mem_encodeChars hd
  rw [encodeChars_append, encodeChars_cons, hl]
  exact cutCode_of_ends (fun b hb => endsDirective_digit (hbytes b hb))
    (by simp [endsDirective, he]) _

/-- The code that a rendered directive is cut to has the directive's text for its share, complains of
nothing, and takes the same arguments. -/
theorem share_directive {cs text rest : List Char} {args left : List Arg}
    {later : List Argument} (h : directive cs args = .ok (text, rest, left))
    (hl : toArguments left = .ok later) :
    ∃ values code, toArguments args = .ok values ∧
      cutCode (encodeChars cs) = (code, encodeChars rest) ∧
      ∀ offset, (Segment.directive offset code).share values.head? = ⟨encodeChars text, []⟩ ∧
        (Segment.directive offset code).left values = later := by
  rcases directive_ok h with ⟨rfl, rfl, rfl⟩ | ⟨digits, conversion, arg, rfl, hd, hw, rfl, hc⟩
  · refine ⟨later, [percentSign], hl, ?_, fun offset => ⟨rfl, rfl⟩⟩
    have hnone : ∀ b ∈ ([] : Bytes), endsDirective b = false := by simp
    exact cutCode_of_ends hnone (by decide) (encodeChars rest)
  · obtain ⟨value, letter, hv, hletter, hends, hk, htext⟩ := convert_ok hc
    have hbytes := isDigit_of_mem_encodeChars hd
    have hne : encodeChars digits ++ [letter] ≠ [percentSign] := by
      intro he
      have : letter = percentSign := by simpa using congrArg List.getLast? he
      subst this
      exact absurd hends (by decide)
    refine ⟨value :: later, encodeChars digits ++ [letter], toArguments_cons hv hl,
      cutCode_digits hd hletter hends rest, fun offset => ⟨?_, ?_⟩⟩
    · -- every byte in front of the letter is a digit, so none of them is complained of
      have hm : (encodeChars digits).filter (!isDigit ·) = [] := by
        simpa using hbytes
      rw [Segment.share_concat hne, hm, widthOf_digits hd hw]
      simp [Share.ofLetter_eq, hk, Share.ofArgument, htext]
    · simp [Segment.left, Segment.takesArgument_concat, hk]

/-- What the reference renders behind the text it has, the formatter renders from the same bytes,
wherever they start. -/
private theorem renderOnto_ok {done cs out : List Char} {args : List Arg}
    (h : renderOnto done cs args = .ok out) :
    ∃ values text, toArguments args = .ok values ∧ out = done.reverse ++ text ∧
      ∀ offset, renderingFrom values offset (encodeChars cs) = ⟨encodeChars text, []⟩ := by
  fun_induction renderOnto done cs args with
  | case1 done =>
    cases h
    exact ⟨[], [], rfl, by simp, fun offset => renderingFrom_nil [] offset⟩
  | case2 => cases h
  | case3 => cases h
  | case4 done args cs text rest left hd _ ih =>
    obtain ⟨later, behind, hl, hout, hr⟩ := ih h
    obtain ⟨values, code, hv, hcut, hs⟩ := share_directive hd hl
    refine ⟨values, text ++ behind, hv, by simp [hout], fun offset => ?_⟩
    have hpercent : encodeChars ('%' :: cs) = percentSign :: encodeChars cs := rfl
    rw [hpercent, renderingFrom_percent]
    simp only [hcut, hs, hr, encodeChars_append, List.append_nil]
  | case5 done args c cs hc ih =>
    obtain ⟨values, text, hv, hout, hr⟩ := ih h
    refine ⟨values, c :: text, hv, by simp [hout], fun offset => ?_⟩
    have hrun : ∀ b ∈ String.utf8EncodeChar c, b ≠ percentSign := by
      intro b hb
      exact Utf8.ne_of_mem_encodeChar (x := '%') (by decide) hc hb
    rw [encodeChars_cons, renderingFrom_run _ _ _ hrun, hr, encodeChars_cons]

theorem format_ok {template out : String} {args : List Arg}
    (h : format template args = .ok out) :
    renderOnto [] (untilNul template.toList) args = .ok out.toList := by
  unfold format render at h
  cases hr : renderOnto [] (untilNul template.toList) args with
  | ok text =>
    rw [hr] at h
    cases h
    rw [String.toList_ofList]
  | error refusal =>
    rw [hr] at h
    cases refusal <;> cases h

/-- What the reference renders is the rendering of the same call, and complains of nothing. -/
theorem rendering_of_format {template out : String} {args : List Arg}
    (h : format template args = .ok out) :
    ∃ values, toArguments args = .ok values ∧
      rendering (Utf8.encode template) values = ⟨Utf8.encode out, []⟩ := by
  obtain ⟨values, text, hv, htext, hr⟩ := renderOnto_ok (format_ok h)
  refine ⟨values, hv, ?_⟩
  have hbytes : Utf8.encode out = encodeChars text := by
    rw [Utf8.encode, htext]
    rfl
  have hcut : terminated (Utf8.encode template) = encodeChars (untilNul template.toList) :=
    Utf8.terminated_encodeChars template.toList
  rw [hbytes, ← hr 0, ← hcut]
  rfl

/-- Whatever the reference renders, its arguments are arguments of the formatter, and under either
policy and all limits that leave room the formatter returns the same text and no diagnostic. -/
theorem formatWith_of_format (template : String) (args : List Arg) (out : String)
    (h : format template args = .ok out) :
    ∃ values, toArguments args = .ok values ∧
      ∀ (p : Session) (o : Options), (Utf8.encode out).length ≤ o.maxOutput →
        (∀ s ∈ segments (Utf8.encode template), s.codeLength ≤ o.maxDirective) →
        (p.formatWith o (Utf8.encode template) values).1 = .ok ⟨Utf8.encode out, []⟩ := by
  obtain ⟨values, text, hv, htext, hr⟩ := renderOnto_ok (format_ok h)
  refine ⟨values, hv, fun p o hout hcodes => ?_⟩
  have hrendering : rendering (Utf8.encode template) values = ⟨Utf8.encode out, []⟩ := by
    have hcut : terminated (Utf8.encode template) = encodeChars (untilNul template.toList) :=
      Utf8.terminated_encodeChars template.toList
    calc rendering (Utf8.encode template) values
        = renderingFrom values 0 (terminated (Utf8.encode template)) := rfl
      _ = ⟨encodeChars text, []⟩ := by rw [hcut, hr]
      _ = ⟨Utf8.encode out, []⟩ := by rw [Utf8.encode, htext]; rfl
  have hfits : Fits o o.maxOutput values (segments (Utf8.encode template)) :=
    ⟨hcodes, Nat.le_trans (Nat.le_of_eq (congrArg (·.bytes.length) hrendering)) hout⟩
  rw [formatWith_of_quiet hfits (by rw [hrendering]), hrendering]

/-- Leading zeros, a text that is cut at its NUL and counted in bytes, a negative word in hexadecimal
and a template that is cut at its own NUL; the limits are met exactly. -/
theorem formatWith_of_format_multibyte :
    ((Session.start {}).formatWith { policy := .abort, maxOutput := 29, maxDirective := 4 }
        (Utf8.encode "é%%%005s|%x%c%d\x00%q")
        [.text (Utf8.encode "né\x00x"), .int (-1), .char 0x7A, .int Int32.minValue]).1 =
      .ok ⟨Utf8.encode "é%  né|ffffffffz-2147483648", []⟩ := by
  have h : (format "é%%%005s|%x%c%d\x00%q"
      [.str "né\x00x", .int (-1), .char 'z', .int Int32.minValue]).toOption =
        some "é%  né|ffffffffz-2147483648" := by decide +kernel
  obtain ⟨values, hv, hf⟩ := formatWith_of_format _ _ _ (ok_of_toOption h)
  have hvalues : values =
      [.text (Utf8.encode "né\x00x"), .int (-1), .char 0x7A, .int Int32.minValue] :=
    Except.ok.inj hv.symm
  subst hvalues
  exact hf _ _ (by decide +kernel) (by decide +kernel)

end PercentFormat.Reference
