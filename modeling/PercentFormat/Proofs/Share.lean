import PercentFormat.Format
import PercentFormat.Proofs.Digits

/-! What each segment of a template adds to the result of a call. This is said without the formatter,
by the letters of the conversions, the places of a width, the digits of a number and the bytes in
front of a NUL; the formatter's own reading of a directive is shown to agree with it. No limit is
looked at here: a share is what a call renders that nothing stops. -/

namespace PercentFormat

/-- What one segment adds to the result. -/
structure Share where
  fragment : Bytes
  diagnostics : List Diagnostic
  deriving DecidableEq, Repr

/-- The exact value of the digits among the bytes, each by its place. Other bytes fill their places. -/
def placeSum : Bytes → Nat
  | [] => 0
  | b :: rest =>
    (if 0x30 ≤ b ∧ b ≤ 0x39 then (b.toNat - 0x30) * Nat.pow 10 rest.length else 0) + placeSum rest

/-- The width that bytes ask for, which is cut at the largest number of 64 bits. -/
def fieldWidth (bytes : Bytes) : Nat := min (placeSum bytes) 0xFFFFFFFFFFFFFFFF

/-- A text on the right of a field. A longer text is not cut. -/
def rightAligned (width : Nat) (body : Bytes) : Bytes :=
  List.replicate (width - body.length) 0x20 ++ body

/-- The digits of a number. -/
def digitsOf (base n : Nat) : Bytes := (Nat.toDigits base n).map fun c => UInt8.ofNat c.toNat

/-- The type of argument that a letter asks for: `c` for a character, `d` and `x` for an integer, `s`
for a text, and no other letter for anything. -/
def expectedBy? (letter : UInt8) : Option Argument.Kind :=
  if letter = 0x63 then some .char
  else if letter = 0x64 ∨ letter = 0x78 then some .int
  else if letter = 0x73 then some .text
  else none

/-- What a letter shows of a value, if the value has the type that it asks for: `c` the character, `d`
the integer in decimal, `x` its 32-bit word in hexadecimal, `s` the text up to its first NUL. -/
def shownBy? (letter : UInt8) : Argument → Option Bytes
  | .char byte => if letter = 0x63 then some [byte] else none
  | .int v =>
    if letter = 0x64 then
      some (if v.toInt < 0 then 0x2D :: digitsOf 10 v.toInt.natAbs else digitsOf 10 v.toInt.natAbs)
    else if letter = 0x78 then some (digitsOf 16 (v.toInt % 0x100000000).toNat)
    else none
  | .text bytes => if letter = 0x73 then some (bytes.takeWhile (· != 0)) else none

namespace Share

/-- A share that is one complaint. -/
def complaint (offset : Nat) (kind : Diagnostic.Kind) : Share := ⟨[], [⟨kind, offset⟩]⟩

/-- What the last byte of a directive adds, given the argument in its place. -/
def ofLetter (offset width : Nat) (letter : UInt8) (arg : Option Argument) : Share :=
  match expectedBy? letter, arg with
  | none, _ => complaint offset (.unknownConversion letter)
  | some expected, none => complaint offset (.missingArgument expected)
  | some expected, some arg =>
    match shownBy? letter arg with
    | some body => ⟨rightAligned width body, []⟩
    | none => complaint offset (.argumentMismatch expected arg.kind)

end Share

namespace Segment

/-- Whether a segment takes an argument: its last byte is a letter that asks for one. -/
def takesArgument : Segment → Bool
  | .literal _ => false
  | .directive _ code => (code.getLast?.bind expectedBy?).isSome

/-- What a segment adds, given the argument in its place. -/
def share (arg : Option Argument) : Segment → Share
  | .literal run => ⟨run, []⟩
  | .directive offset code =>
    match code.getLast? with
    | none => .complaint offset .emptyDirective
    | some letter =>
      if code = [0x25] then ⟨[0x25], []⟩
      else
        let last := Share.ofLetter offset (fieldWidth code.dropLast) letter arg
        let malformed := code.dropLast.filter fun b => ¬(0x30 ≤ b ∧ b ≤ 0x39)
        ⟨last.fragment, malformed.map (⟨.malformedWidthDigit ·, offset⟩) ++ last.diagnostics⟩

/-- The arguments that a segment leaves for the next one. -/
def left (s : Segment) (args : List Argument) : List Argument :=
  if s.takesArgument then args.tail else args

/-- How many bytes a directive has behind its percent sign. -/
def codeLength : Segment → Nat
  | .literal _ => 0
  | .directive _ code => code.length

/-- The offset of a directive that is longer than the limit. -/
def tooLong? (limit : Nat) : Segment → Option Nat
  | .literal _ => none
  | .directive offset code => if limit < code.length then some offset else none

end Segment

/-- The shares of the segments. The place of an argument is how many of the segments in front take
one, whatever became of those. -/
def shares (args : List Argument) (segs : List Segment) : List Share :=
  segs.mapIdx fun i s => s.share args[(segs.take i).countP Segment.takesArgument]?

/-- Each segment with the argument in its place. -/
def placed (args : List Argument) (segs : List Segment) : List (Segment × Option Argument) :=
  segs.mapIdx fun i s => (s, args[(segs.take i).countP Segment.takesArgument]?)

theorem shares_nil (args : List Argument) : shares args [] = [] := rfl

/-- The first segment has the first argument in its place; the others have what it leaves. -/
theorem placed_cons (args : List Argument) (s : Segment) (segs : List Segment) :
    placed args (s :: segs) = (s, args.head?) :: placed (s.left args) segs := by
  have place (n : Nat) : args[n + s.takesArgument.toNat]? = (s.left args)[n]? := by
    cases h : s.takesArgument <;> simp [Segment.left, h]
  simp only [placed, List.mapIdx_cons, List.take_zero, List.countP_nil, List.head?_eq_getElem?,
    List.take_succ_cons, List.countP_cons, ← place]
  cases s.takesArgument <;> simp

theorem shares_eq_map (args : List Argument) (segs : List Segment) :
    shares args segs = (placed args segs).map fun x => x.1.share x.2 := by
  refine List.mapIdx_eq_iff.mpr fun i => ?_
  rw [placed, List.getElem?_map, List.getElem?_mapIdx, Option.map_map]
  rfl

/-- The first share looks at the first argument; the others at what it leaves. -/
theorem shares_cons (args : List Argument) (s : Segment) (segs : List Segment) :
    shares args (s :: segs) = s.share args.head? :: shares (s.left args) segs := by
  rw [shares_eq_map, placed_cons, List.map_cons, ← shares_eq_map]

theorem isDigit_iff {b : UInt8} : isDigit b = true ↔ 0x30 ≤ b ∧ b ≤ 0x39 := by
  simp [isDigit]

theorem placeSum_cons (b : UInt8) (rest : Bytes) :
    placeSum (b :: rest) =
      (if isDigit b then digitValue b * Nat.pow 10 rest.length else 0) + placeSum rest := by
  simp only [placeSum, isDigit_iff]
  rfl

/-- One place saturates as its exact value does. From the twentieth place on, a digit that is not
zero fills the width by itself. -/
private theorem saturatingMul_placeValue (d place : Nat) :
    saturatingMul d (placeValue place) = min (d * Nat.pow 10 place) maxSize := by
  unfold saturatingMul placeValue
  split
  · rfl
  · next h =>
    have hp : maxSize ≤ Nat.pow 10 place :=
      calc maxSize ≤ Nat.pow 10 20 := by decide
        _ ≤ Nat.pow 10 place := Nat.pow_le_pow_right (by decide) (by omega)
    rcases Nat.eq_zero_or_pos d with rfl | hd
    · simp
    · have h1 : maxSize ≤ d * maxSize := Nat.le_mul_of_pos_left _ hd
      have h2 : maxSize ≤ d * Nat.pow 10 place := Nat.le_trans hp (Nat.le_mul_of_pos_left _ hd)
      rw [Nat.min_eq_right h1, Nat.min_eq_right h2]

private theorem foldr_widen (bytes : Bytes) :
    bytes.foldr widen (0, 0) = (bytes.length, min (placeSum bytes) maxSize) := by
  induction bytes with
  | nil => rfl
  | cons b bytes ih =>
    rw [List.foldr_cons, ih, widen, placeSum_cons]
    refine Prod.ext rfl ?_
    dsimp only
    split
    · rw [saturatingMul_placeValue, saturatingAdd]
      omega
    · rw [Nat.zero_add]

/-- A width is the exact value of its digits, or the largest size where that is larger. -/
theorem widthOf_eq_min (bytes : Bytes) : widthOf bytes = min (placeSum bytes) maxSize := by
  rw [widthOf, foldr_widen]

private theorem digitsOf_eq (r : Radix) (n : Nat) :
    digitsOf r.base n = Utf8.encodeChars (Nat.toDigits r.base n) :=
  (Utf8.encodeChars_ascii (toDigits_ascii r n)).symm

theorem numeral_decimal_eq_digitsOf (v : Int32) :
    numeral .decimal v =
      if v.toInt < 0 then 0x2D :: digitsOf 10 v.toInt.natAbs else digitsOf 10 v.toInt.natAbs := by
  have hdigits : digitsOf 10 v.toInt.natAbs = Utf8.encodeChars (Nat.toDigits 10 v.toInt.natAbs) :=
    digitsOf_eq .decimal v.toInt.natAbs
  rw [numeral_decimal, hdigits]
  rfl

theorem numeral_hex_eq_digitsOf (v : Int32) :
    numeral .hex v = digitsOf 16 (v.toInt % 0x100000000).toNat := by
  rw [numeral_hex, toNat_toUInt32]
  exact (digitsOf_eq .hex _).symm

/-- The bytes that a conversion shows of a value. Nothing is claimed of a value of another type. -/
def Conversion.body : Conversion → Argument → Bytes
  | .char, .char byte => [byte]
  | .decimal, .int value => numeral .decimal value
  | .hex, .int value => numeral .hex value
  | .text, .text bytes => terminated bytes
  | _, _ => []

theorem expectedBy?_eq (letter : UInt8) :
    expectedBy? letter = (Conversion.ofLetter letter).expected? := by
  unfold expectedBy? Conversion.ofLetter
  repeat' split
  all_goals simp_all [Conversion.expected?]

theorem shownBy?_eq (letter : UInt8) (arg : Argument) :
    shownBy? letter arg =
      if (Conversion.ofLetter letter).expected? = some arg.kind then
        some ((Conversion.ofLetter letter).body arg)
      else none := by
  by_cases hc : letter = 0x63
  · subst hc
    cases arg <;> rfl
  by_cases hd : letter = 0x64
  · subst hd
    cases arg with
    | int v => exact congrArg some (numeral_decimal_eq_digitsOf v).symm
    | _ => rfl
  by_cases hs : letter = 0x73
  · subst hs
    cases arg <;> rfl
  by_cases hx : letter = 0x78
  · subst hx
    cases arg with
    | int v => exact congrArg some (numeral_hex_eq_digitsOf v).symm
    | _ => rfl
  cases arg <;> simp [shownBy?, Conversion.ofLetter, Conversion.expected?, hc, hd, hs, hx]

namespace Share

/-- What a conversion adds that takes an argument of the given type. -/
def ofArgument (offset width : Nat) (c : Conversion) (expected : Argument.Kind) :
    Option Argument → Share
  | none => complaint offset (.missingArgument expected)
  | some arg =>
    if arg.kind = expected then ⟨rightAligned width (c.body arg), []⟩
    else complaint offset (.argumentMismatch expected arg.kind)

theorem ofLetter_eq (offset width : Nat) (letter : UInt8) (arg : Option Argument) :
    ofLetter offset width letter arg =
      match (Conversion.ofLetter letter).expected? with
      | none => complaint offset (.unknownConversion letter)
      | some expected => ofArgument offset width (.ofLetter letter) expected arg := by
  unfold ofLetter
  rw [expectedBy?_eq]
  cases h : (Conversion.ofLetter letter).expected? with
  | none => rfl
  | some expected =>
    cases arg with
    | none => rfl
    | some arg =>
      by_cases hk : arg.kind = expected
      · simp only [shownBy?_eq, h, hk, if_true, ofArgument]
      · simp only [shownBy?_eq, h, Option.some.injEq, Ne.symm hk, hk, if_false, ofArgument]

end Share

theorem Directive.parse?_concat {width : Bytes} {letter : UInt8}
    (h : width ++ [letter] ≠ [percentSign]) :
    parse? (width ++ [letter]) =
      some ⟨widthOf width, .ofLetter letter, width.filter (!isDigit ·)⟩ := by
  simp [parse?, h]

namespace Segment

theorem share_percent (offset : Nat) (arg : Option Argument) :
    (directive offset [percentSign]).share arg = ⟨[percentSign], []⟩ := rfl

/-- A code that is neither empty nor a percent sign is a width and a letter. -/
theorem share_concat {offset : Nat} {width : Bytes} {letter : UInt8}
    (h : width ++ [letter] ≠ [percentSign]) (arg : Option Argument) :
    (directive offset (width ++ [letter])).share arg =
      ⟨(Share.ofLetter offset (widthOf width) letter arg).fragment,
        (width.filter (!isDigit ·)).map (⟨.malformedWidthDigit ·, offset⟩) ++
          (Share.ofLetter offset (widthOf width) letter arg).diagnostics⟩ := by
  have hp : width ++ [letter] ≠ [0x25] := h
  have hmalformed : (width.filter fun b => ¬(0x30 ≤ b ∧ b ≤ 0x39)) = width.filter (!isDigit ·) := by
    apply List.filter_congr
    intro b _
    simp only [← isDigit_iff, decide_not, Bool.decide_eq_true]
  rw [widthOf_eq_min]
  simp only [share, List.getLast?_concat, List.dropLast_concat, if_neg hp, hmalformed]
  rfl

theorem tooLong?_eq_none_iff {limit : Nat} {s : Segment} :
    s.tooLong? limit = none ↔ s.codeLength ≤ limit := by
  cases s with
  | literal run => simp [tooLong?, codeLength]
  | directive offset code => simp [tooLong?, codeLength]

theorem takesArgument_concat (offset : Nat) (width : Bytes) (letter : UInt8) :
    (directive offset (width ++ [letter])).takesArgument =
      (Conversion.ofLetter letter).expected?.isSome := by
  simp [takesArgument, expectedBy?_eq]

end Segment

namespace Conversion

/-- A conversion that takes an argument takes the next one, whatever its type. -/
theorem apply_of_expected {c : Conversion} {k : Argument.Kind} (h : c.expected? = some k)
    (args : List Argument) :
    c.apply args = (match args.head? with
      | none => .error (.missingArgument k)
      | some arg =>
        if arg.kind = k then .ok (c.body arg) else .error (.argumentMismatch k arg.kind),
      args.tail) := by
  cases c <;> cases h <;> rcases args with _ | ⟨_ | _ | _, rest⟩ <;> rfl

/-- No last byte reads as a doubled percent sign. -/
theorem ofLetter_of_not_expected {letter : UInt8} (h : (ofLetter letter).expected? = none) :
    ofLetter letter = .unknown letter := by
  unfold ofLetter at h ⊢
  repeat' split
  all_goals simp_all [expected?]

end Conversion

end PercentFormat
