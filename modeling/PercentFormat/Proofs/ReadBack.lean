import PercentFormat.Proofs.Agreement
import PercentFormat.Proofs.Json.Records
import PercentFormat.Proofs.Lines
import PercentFormat.Proofs.Segmentation
import PercentFormat.Proofs.Utf8Decoding

/-! Values read back: what the formatter renders of an integer, into a field of any width, is a
written form of that integer, and so are a character and a text of themselves. -/

namespace PercentFormat

/-- A template that is one directive with a width is one segment. -/
theorem segments_directive {width : Bytes} (hwidth : ∀ b ∈ width, isDigit b = true) {letter : UInt8}
    (hletter : isLetter letter = true) :
    segments (percentSign :: (width ++ [letter])) = [.directive 0 (width ++ [letter])] := by
  have hnul : (0 : UInt8) ∉ percentSign :: (width ++ [letter]) := by
    intro hmem
    rcases List.mem_cons.1 hmem with hzero | hmem
    · cases hzero
    · rcases List.mem_append.1 hmem with hzero | hzero
      · cases hwidth 0 hzero
      · rw [← List.mem_singleton.1 hzero] at hletter
        cases hletter
  have hcut : cutCode (width ++ [letter]) = (width ++ [letter], []) :=
    cutCode_of_ends (fun b hb => Reference.endsDirective_digit (hwidth b hb))
      (by simp [endsDirective, hletter]) []
  rw [segments, terminated_eq_self hnul, segmentsOnto_percent, hcut]
  simp [segmentsOnto]

/-- An integer in a field is one share, and there is nothing to tell of it. -/
theorem shares_decimal {width : Bytes} (hwidth : ∀ b ∈ width, isDigit b = true) (v : Int32) :
    shares [.int v] (segments (percentSign :: (width ++ [0x64]))) =
      [⟨rightAligned (widthOf width) (numeral .decimal v), []⟩] := by
  have hcode : width ++ [0x64] ≠ [percentSign] := by
    intro h
    cases List.append_eq_singleton_iff.1 h with
    | inl h => cases h.2
    | inr h => cases h.2
  have hmalformed : width.filter (!isDigit ·) = [] := by simpa using hwidth
  rw [segments_directive hwidth (by decide), shares_cons, shares_nil, Segment.share_concat hcode,
    hmalformed, Share.ofLetter_eq]
  rfl

private theorem length_rightAligned (width : Nat) (body : Bytes) :
    (rightAligned width body).length = max width body.length := by
  rw [rightAligned, List.length_append, List.length_replicate]
  omega

/-- A call that renders one integer returns the field of its numeral, and returns it exactly when the
limits leave room for the directive and for the field. -/
theorem formatWith_decimal_eq_ok_iff {width : Bytes} (hwidth : ∀ b ∈ width, isDigit b = true)
    {p : Session} {o : Options} {v : Int32} {f : Formatted} :
    (p.formatWith o (percentSign :: (width ++ [0x64])) [.int v]).1 = .ok f ↔
      (width.length < o.maxDirective ∧
        max (widthOf width) (numeral .decimal v).length ≤ o.maxOutput) ∧
      f = ⟨rightAligned (widthOf width) (numeral .decimal v), []⟩ := by
  have hrendering : rendering (percentSign :: (width ++ [0x64])) [.int v] =
      ⟨rightAligned (widthOf width) (numeral .decimal v), []⟩ := by
    rw [rendering, shares_decimal hwidth]
    simp
  have hcodes : (∀ s ∈ segments (percentSign :: (width ++ [0x64])), s.codeLength ≤ o.maxDirective) ↔
      width.length < o.maxDirective := by
    rw [segments_directive hwidth (by decide), List.forall_mem_singleton, Segment.codeLength,
      List.length_append]
    exact Nat.succ_le_iff
  have htotal : ((shares [.int v] (segments (percentSign :: (width ++ [0x64])))).flatMap
      Share.fragment).length ≤ o.maxOutput ↔
        max (widthOf width) (numeral .decimal v).length ≤ o.maxOutput := by
    rw [shares_decimal hwidth, ← length_rightAligned, List.flatMap_singleton]
  have hfits : Fits o o.maxOutput [.int v] (segments (percentSign :: (width ++ [0x64]))) ↔
      width.length < o.maxDirective ∧
        max (widthOf width) (numeral .decimal v).length ≤ o.maxOutput :=
    ⟨fun h => ⟨hcodes.1 h.codes, htotal.1 h.total⟩, fun h => ⟨hcodes.2 h.1, htotal.2 h.2⟩⟩
  rw [formatWith_returns_iff, hfits, hrendering]
  refine and_congr_right fun _ => and_iff_left_of_imp ?_
  rintro rfl -
  rfl

namespace Fixture
open Reference (decimal alignRight)

private theorem digitsValue?_toDigits (n : Nat) : digitsValue? (Nat.toDigits 10 n) = some n := by
  have hdigits : (Nat.toDigits 10 n).all Char.isDigit = true :=
    List.all_eq_true.2 fun c hc => Nat.isDigit_of_mem_toDigits (by decide) (by decide) hc
  rw [digitsValue?, hdigits, List.isEmpty_eq_false_iff.2 Nat.toDigits_ne_nil]
  exact congrArg some (Json.foldl_toDigits n)

private theorem readInt32?_digits {digits : List Char} {n : Nat} (h : digitsValue? digits = some n)
    (hn : n < 0x80000000) : readInt32? digits = some (Int32.ofInt n) := by
  have hrange : (-0x80000000 ≤ (n : Int) && (n : Int) < 0x80000000) = true := by
    simp only [Bool.and_eq_true, decide_eq_true_eq]
    omega
  unfold readInt32?
  split
  -- a sign is no digit
  · cases h
  · cases h
  · refine Option.bind_eq_some_iff.2 ⟨(n : Int), ?_, if_pos hrange⟩
    rw [h]
    rfl

private theorem readInt32?_minus {digits : List Char} {n : Nat} (h : digitsValue? digits = some n)
    (hn : n ≤ 0x80000000) : readInt32? ('-' :: digits) = some (Int32.ofInt (-n)) := by
  have hrange : (-0x80000000 ≤ -(n : Int) && -(n : Int) < 0x80000000) = true := by
    simp only [Bool.and_eq_true, decide_eq_true_eq]
    omega
  unfold readInt32?
  refine Option.bind_eq_some_iff.2 ⟨-(n : Int), ?_, if_pos hrange⟩
  rw [h]
  rfl

/-- The decimal text of an integer is read as that integer, the least one included. -/
theorem readInt32?_decimal (v : Int32) : readInt32? (decimal v) = some v := by
  have hlow := v.le_toInt
  have hhigh := v.toInt_lt
  have hdigits := digitsValue?_toDigits v.toInt.natAbs
  unfold decimal
  split
  · next hneg =>
    have hvalue : -(v.toInt.natAbs : Int) = v.toInt := by omega
    rw [readInt32?_minus hdigits (by omega), hvalue, Int32.ofInt_toInt]
  · next hpos =>
    have hvalue : (v.toInt.natAbs : Int) = v.toInt := by omega
    rw [readInt32?_digits hdigits (by omega), hvalue, Int32.ofInt_toInt]

private theorem isBlank_digit {c : Char} (h : c.isDigit = true) : Text.isBlank c = false := by
  have hrange := isDigit_range h
  simp only [Text.isBlank, Bool.or_eq_false_iff, Bool.and_eq_false_iff, decide_eq_false_iff_not,
    beq_eq_false_iff_ne]
  omega

/-- The blanks that fill a field are trimmed, and nothing of the integer is. -/
theorem trimList_alignRight (width : Nat) (v : Int32) :
    Text.trimList (alignRight width (decimal v)) = decimal v := by
  have hdigits : ∀ c ∈ Nat.toDigits 10 v.toInt.natAbs, Text.isBlank c = false := fun c hc =>
    isBlank_digit (Nat.isDigit_of_mem_toDigits (by decide) (by decide) hc)
  have hdecimal : ∀ c ∈ decimal v, Text.isBlank c = false := by
    unfold decimal
    split
    · exact List.forall_mem_cons.2 ⟨by decide, hdigits⟩
    · exact hdigits
  rw [alignRight, Text.trimList_append fun c hc => List.eq_of_mem_replicate hc ▸ by decide,
    Text.trimList_of_not_blank hdecimal]

/-- A text is cut behind its first colon, whatever follows there. -/
theorem Arg.parse_of_toList {input : String} {tag value : List Char} (htag : ':' ∉ tag)
    (h : input.toList = tag ++ ':' :: value) {arg : Arg} (hread : readTagged? tag value = some arg) :
    Arg.parse input = .ok arg := by
  have hp : ∀ c ∈ tag, (c != ':') = true := fun c hc => by
    simpa using ne_of_mem_of_not_mem hc htag
  have htake : input.toList.takeWhile (· != ':') = tag := by
    rw [h, List.takeWhile_append_of_pos hp]
    simp
  have hdrop : input.toList.dropWhile (· != ':') = ':' :: value := by
    rw [h, List.dropWhile_append_of_pos hp]
    simp
  rw [Arg.parse, Arg.parse?, hdrop, htake]
  simp only [hread]

/-- Behind either tag of an integer, a field with the decimal text of an integer is that integer. -/
theorem readTagged?_alignRight {tag : List Char} (htag : tag = ['d'] ∨ tag = ['x']) (width : Nat)
    (v : Int32) : readTagged? tag (alignRight width (decimal v)) = some (.int v) := by
  have hread : (readInt32? (Text.trimList (alignRight width (decimal v)))).map Arg.int =
      some (.int v) := by
    rw [trimList_alignRight, readInt32?_decimal]
    rfl
  rcases htag with rfl | rfl
  · exact hread
  · exact hread

private theorem encode_alignRight (width : Nat) (v : Int32) :
    Utf8.encode (String.ofList (alignRight width (decimal v))) =
      rightAligned width (numeral .decimal v) := by
  rw [Utf8.encode_ofList, Reference.encodeChars_alignRight (Reference.decimal_ascii v),
    Reference.encodeChars_decimal]

/-- Values read back as arguments. Whatever a call returns for one integer and a width of any digits
is a text that either tag of an integer reads as that integer; and a call returns whenever the limits
leave room for it. A character and a text read back behind their tags, whatever they hold. -/
theorem Arg.parse_rendered :
    (∀ (p : Session) (o : Options) (v : Int32) (width : Bytes), (∀ b ∈ width, isDigit b = true) →
      (∀ f, (p.formatWith o (percentSign :: (width ++ [0x64])) [.int v]).1 = .ok f →
        ∃ text, Utf8.decode? f.bytes = some text ∧
          Arg.parse ("d:" ++ text) = .ok (.int v) ∧ Arg.parse ("x:" ++ text) = .ok (.int v)) ∧
      (width.length < o.maxDirective →
        max (widthOf width) (numeral .decimal v).length ≤ o.maxOutput →
        ∃ f, (p.formatWith o (percentSign :: (width ++ [0x64])) [.int v]).1 = .ok f)) ∧
    (∀ c, Arg.parse ("c:" ++ String.singleton c) = .ok (.char c)) ∧
    ∀ s, Arg.parse ("s:" ++ s) = .ok (.str s) := by
  refine ⟨fun p o v width hwidth => ⟨fun f hf => ?_, fun hcode hfield => ?_⟩, fun c => ?_, fun s => ?_⟩
  · obtain ⟨-, rfl⟩ := (formatWith_decimal_eq_ok_iff hwidth).1 hf
    refine ⟨String.ofList (alignRight (widthOf width) (decimal v)), ?_, ?_, ?_⟩
    · rw [← encode_alignRight, Utf8.decode?_encode]
    · exact Arg.parse_of_toList (by decide) (by simp)
        (readTagged?_alignRight (.inl rfl) (widthOf width) v)
    · exact Arg.parse_of_toList (by decide) (by simp)
        (readTagged?_alignRight (.inr rfl) (widthOf width) v)
  · exact ⟨_, (formatWith_decimal_eq_ok_iff hwidth).2 ⟨⟨hcode, hfield⟩, rfl⟩⟩
  · have hinput : ("c:" ++ String.singleton c).toList = ['c'] ++ ':' :: [c] := by simp
    exact Arg.parse_of_toList (by decide) hinput rfl
  · have hinput : ("s:" ++ s).toList = ['s'] ++ ':' :: s.toList := by simp
    apply Arg.parse_of_toList (by decide) hinput
    rw [readTagged?, String.ofList_toList]

/-- The least integer in a field that is one wider than its numeral, with zeros in front of the width
and limits that are met exactly; the colon as a character, and a text with blanks and a colon. -/
theorem Arg.parse_rendered_least :
    ((Session.start {}).formatWith { policy := .abort, maxOutput := 12, maxDirective := 5 }
        (percentSign :: (Utf8.encode "0012" ++ [0x64])) [.int Int32.minValue]).1 =
      .ok ⟨Utf8.encode " -2147483648", []⟩ ∧
    Arg.parse "d: -2147483648" = .ok (.int Int32.minValue) ∧
    Arg.parse "x: -2147483648" = .ok (.int Int32.minValue) ∧
    Arg.parse "c::" = .ok (.char ':') ∧ Arg.parse "s: a:b " = .ok (.str " a:b ") := by
  obtain ⟨hread, hreturns⟩ := Arg.parse_rendered.1 (Session.start {})
    { policy := .abort, maxOutput := 12, maxDirective := 5 } Int32.minValue (Utf8.encode "0012")
    (by decide +kernel)
  obtain ⟨f, hf⟩ := hreturns (by decide +kernel) (by decide +kernel)
  obtain ⟨text, htext, hd, hx⟩ := hread f hf
  obtain ⟨-, rfl⟩ := (formatWith_decimal_eq_ok_iff (by decide +kernel)).1 hf
  have hfield : rightAligned (widthOf (Utf8.encode "0012")) (numeral .decimal Int32.minValue) =
      Utf8.encode " -2147483648" := by decide +kernel
  rw [hfield] at hf htext
  obtain rfl := Option.some.inj ((Utf8.decode?_encode _).symm.trans htext)
  exact ⟨hf, hd, hx, Arg.parse_rendered.2.1 ':', Arg.parse_rendered.2.2 " a:b "⟩

end Fixture

end PercentFormat
