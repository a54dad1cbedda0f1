import PercentFormat.Proofs.Composition

/-! What a template asks of its arguments: their number and types decide which complaints about
arguments a call makes, and further arguments are not looked at. -/

namespace PercentFormat

namespace Diagnostic.Kind

/-- The type of the argument that is missing, if that is the complaint. -/
def missing? : Diagnostic.Kind → Option Argument.Kind
  | .missingArgument expected => some expected
  | _ => none

/-- The expected type and the type that was found, if the complaint is that they differ. -/
def mismatch? : Diagnostic.Kind → Option (Argument.Kind × Argument.Kind)
  | .argumentMismatch expected found => some (expected, found)
  | _ => none

/-- Whether a complaint is about an argument, and not about the template alone. -/
def isOfArgument : Diagnostic.Kind → Bool
  | .missingArgument _ => true
  | .argumentMismatch _ _ => true
  | _ => false

private theorem missing?_eq_none {kind : Diagnostic.Kind} (h : kind.isOfArgument = false) :
    kind.missing? = none := by
  cases kind with
  | missingArgument expected => cases h
  | _ => rfl

private theorem mismatch?_eq_none {kind : Diagnostic.Kind} (h : kind.isOfArgument = false) :
    kind.mismatch? = none := by
  cases kind with
  | argumentMismatch expected found => cases h
  | _ => rfl

private theorem isSome_missing? (kind : Diagnostic.Kind) :
    kind.missing?.isSome = decide (kind.category = .missingArgument) := by
  cases kind <;> rfl

private theorem isOfArgument_eq_false_iff (kind : Diagnostic.Kind) : kind.isOfArgument = false ↔
    kind.category ≠ .missingArgument ∧ kind.category ≠ .argumentMismatch := by
  cases kind <;> simp [isOfArgument, category]

end Diagnostic.Kind

section
variable {o : Options} {room : Nat} {args : List Argument}

/-- The course of a call is the same without the arguments that its segments do not take. -/
theorem course_take (segs : List Segment) :
    course o room (args.take (segs.countP Segment.takesArgument)) segs = course o room args segs := by
  induction segs generalizing room args with
  | nil => rfl
  | cons s segs ih =>
    rw [List.countP_cons]
    cases hs : s.takesArgument with
    | false =>
      have hleft (xs : List Argument) : s.left xs = xs := by simp [Segment.left, hs]
      simp only [course, hleft, Bool.false_eq_true, if_false, Nat.add_zero, ih,
        Segment.share_eq_of_not_takesArgument hs (args.take _).head? args.head?]
    | true =>
      have hleft (xs : List Argument) : s.left xs = xs.tail := by simp [Segment.left, hs]
      have hhead (n : Nat) : (args.take (n + 1)).head? = args.head? := by cases args <;> rfl
      have htail (n : Nat) : (args.take (n + 1)).tail = args.tail.take n := by cases args <;> simp
      simp only [course, hleft, if_true, hhead, htail, ih]

theorem Session.formatWith_eq_of_course {t u : Bytes} {few many : List Argument}
    (h : course o o.maxOutput few (segments t) = course o o.maxOutput many (segments u))
    (p : Session) : p.formatWith o t few = p.formatWith o u many := by
  have hr : recorded o t few = recorded o u many := congrArg Course.told h
  cases hp : o.policy with
  | proceed => rw [formatWith_proceed hp, formatWith_proceed hp, h, hr]
  | abort =>
    cases hm : recorded o u many with
    | nil => rw [formatWith_abort_of_nil hp p (hr.trans hm), formatWith_abort_of_nil hp p hm, h]
    | cons d later =>
      rw [formatWith_abort_of_cons hp p (hr.trans hm), formatWith_abort_of_cons hp p hm]

end

/-- The complaint about an argument of the expected type, if there is one to make. -/
def complaint? (expected : Argument.Kind) : Option Argument.Kind → Option Diagnostic.Kind
  | none => some (.missingArgument expected)
  | some found => if found = expected then none else some (.argumentMismatch expected found)

/-- The complaints about arguments of the types that were found, where others are required. -/
def complaints : List Argument.Kind → List Argument.Kind → List Diagnostic.Kind
  | [], _ => []
  | expected :: required, found =>
    (complaint? expected found.head?).toList ++ complaints required found.tail

theorem Segment.demand?_concat {offset : Nat} {width : Bytes} {letter : UInt8}
    (h : width ++ [letter] ≠ [percentSign]) :
    (directive offset (width ++ [letter])).demand? = (Conversion.ofLetter letter).expected? := by
  rw [demand?, directive?, Directive.parse?_concat h]
  rfl

private theorem complaint_ofLetter (offset width : Nat) (letter : UInt8) (arg : Option Argument) :
    ((Share.ofLetter offset width letter arg).diagnostics.map Diagnostic.kind).filter
        Diagnostic.Kind.isOfArgument =
      ((Conversion.ofLetter letter).expected?.bind fun expected =>
        complaint? expected (arg.map Argument.kind)).toList := by
  rw [Share.ofLetter_eq]
  cases (Conversion.ofLetter letter).expected? with
  | none => rfl
  | some expected =>
    cases arg with
    | none => rfl
    | some x =>
      by_cases hx : x.kind = expected
      · simp [Share.ofArgument, complaint?, hx]
      · simp [Share.ofArgument, complaint?, hx, Share.complaint, Diagnostic.Kind.isOfArgument]

/-- One segment complains about its argument if it takes one, and as the type of that one asks. -/
theorem Segment.complaint_share (s : Segment) (arg : Option Argument) :
    ((s.share arg).diagnostics.map Diagnostic.kind).filter Diagnostic.Kind.isOfArgument =
      (s.demand?.bind fun expected => complaint? expected (arg.map Argument.kind)).toList := by
  cases s with
  | literal run => rfl
  | directive offset code =>
    rcases List.eq_nil_or_concat' code with rfl | ⟨width, letter, rfl⟩
    · rfl
    · by_cases hp : width ++ [letter] = [percentSign]
      · rw [hp]
        rfl
      · -- what is said of the width is not about an argument
        have hwidth : (((width.filter (!isDigit ·)).map
            (⟨.malformedWidthDigit ·, offset⟩ : UInt8 → Diagnostic)).map Diagnostic.kind).filter
              Diagnostic.Kind.isOfArgument = [] := by
          rw [List.map_map, List.filter_eq_nil_iff]
          intro kind hkind
          obtain ⟨b, -, rfl⟩ := List.mem_map.mp hkind
          exact Bool.false_ne_true
        rw [share_concat hp, demand?_concat hp, List.map_append, List.filter_append, hwidth,
          List.nil_append, complaint_ofLetter]

/-- All segments: the complaints about arguments follow from the types that the segments take and the
types of the arguments. -/
theorem complaints_shares (args : List Argument) (segs : List Segment) :
    (((shares args segs).flatMap Share.diagnostics).map Diagnostic.kind).filter
        Diagnostic.Kind.isOfArgument =
      complaints (segs.filterMap Segment.demand?) (args.map Argument.kind) := by
  induction segs generalizing args with
  | nil => rfl
  | cons s segs ih =>
    rw [shares_cons, List.flatMap_cons, List.map_append, List.filter_append, s.complaint_share, ih,
      Segment.left, ← s.isSome_demand?]
    cases hs : s.demand? with
    | none =>
      rw [List.filterMap_cons_none hs]
      rfl
    | some expected =>
      rw [List.filterMap_cons_some hs, complaints, List.head?_map]
      simp

theorem filterMap_missing?_complaints (required found : List Argument.Kind) :
    (complaints required found).filterMap Diagnostic.Kind.missing? =
      required.drop found.length := by
  induction required generalizing found with
  | nil => simp [complaints]
  | cons expected required ih =>
    rw [complaints, List.filterMap_append, ih]
    cases found with
    | nil => simp [complaint?, Diagnostic.Kind.missing?]
    | cons x found =>
      by_cases hx : x = expected <;> simp [complaint?, Diagnostic.Kind.missing?, hx]

theorem filterMap_mismatch?_complaints (required found : List Argument.Kind) :
    (complaints required found).filterMap Diagnostic.Kind.mismatch? =
      (required.zip found).filter fun x => x.1 ≠ x.2 := by
  induction required generalizing found with
  | nil => simp [complaints]
  | cons expected required ih =>
    rw [complaints, List.filterMap_append, ih]
    cases found with
    | nil => simp [complaint?, Diagnostic.Kind.mismatch?]
    | cons x found =>
      by_cases hx : x = expected
      · simp [complaint?, hx]
      · simp [complaint?, Diagnostic.Kind.mismatch?, hx, Ne.symm hx]

theorem complaints_eq_nil_iff (required found : List Argument.Kind) :
    complaints required found = [] ↔ required <+: found := by
  induction required generalizing found with
  | nil => simp [complaints]
  | cons expected required ih =>
    rw [complaints, List.append_eq_nil_iff, ih]
    cases found with
    | nil => simp [complaint?]
    | cons x found =>
      rw [List.cons_prefix_cons]
      by_cases hx : x = expected
      · simp [complaint?, hx]
      · simp [complaint?, hx, Ne.symm hx]

/-- What is picked from complaints about arguments only can be picked from those that were made. -/
private theorem filterMap_kind {α : Type} {pick : Diagnostic.Kind → Option α}
    (h : ∀ {kind : Diagnostic.Kind}, kind.isOfArgument = false → pick kind = none)
    (ds : List Diagnostic) :
    ds.filterMap (fun d => pick d.kind) =
      ((ds.map Diagnostic.kind).filter Diagnostic.Kind.isOfArgument).filterMap pick := by
  rw [List.filterMap_filter, List.filterMap_map]
  refine List.filterMap_congr fun d _ => ?_
  cases hd : d.kind.isOfArgument with
  | false => simp [hd, h hd]
  | true => simp [hd]

/-- The types that a template requires are what a call really takes. It goes the same way, up to the
session that it leaves behind, without the arguments that are too many. If it goes on at diagnostics
and returns, it misses the arguments that are too few, with the types required of them, and finds a
mismatch wherever a type differs from the required one, in order. So it has nothing to say about
arguments exactly when they begin with the types that are required. -/
theorem formatWith_demand (p : Session) (o : Options) (t : Bytes) (args : List Argument) :
    let required := requiredArguments t
    let found := args.map Argument.kind
    p.formatWith o t args = p.formatWith o t (args.take required.length) ∧
    (o.policy = .proceed → ∀ f, (p.formatWith o t args).1 = .ok f →
      f.diagnostics.countP (fun d => d.category = .missingArgument) =
        required.length - args.length ∧
      f.diagnostics.filterMap (fun d => d.kind.missing?) = required.drop args.length ∧
      f.diagnostics.filterMap (fun d => d.kind.mismatch?) =
        (required.zip found).filter (fun x => x.1 ≠ x.2) ∧
      ((∀ d ∈ f.diagnostics, d.category ≠ .missingArgument ∧ d.category ≠ .argumentMismatch) ↔
        required <+: found)) := by
  intro required found
  have hlength : required.length = (segments t).countP Segment.takesArgument :=
    length_requiredArguments t
  refine ⟨Session.formatWith_eq_of_course ?_ p, fun hp f hf => ?_⟩
  · rw [hlength, course_take]
  · obtain ⟨-, rfl⟩ := (formatWith_eq_ok_iff hp).mp hf
    have hcomplaints : ((rendering t args).diagnostics.map Diagnostic.kind).filter
        Diagnostic.Kind.isOfArgument = complaints required found :=
      complaints_shares args (segments t)
    have hmissing : (rendering t args).diagnostics.filterMap (fun d => d.kind.missing?) =
        required.drop args.length := by
      rw [filterMap_kind Diagnostic.Kind.missing?_eq_none, hcomplaints,
        filterMap_missing?_complaints, List.length_map]
    refine ⟨?_, hmissing, ?_, ?_⟩
    · rw [← List.length_drop, ← hmissing, List.length_filterMap_eq_countP]
      simp only [Diagnostic.Kind.isSome_missing?]
      rfl
    · rw [filterMap_kind Diagnostic.Kind.mismatch?_eq_none, hcomplaints,
        filterMap_mismatch?_complaints]
    · rw [← complaints_eq_nil_iff, ← hcomplaints, List.filter_eq_nil_iff, List.forall_mem_map]
      refine forall₂_congr fun d _ => ?_
      rw [Bool.not_eq_true, Diagnostic.Kind.isOfArgument_eq_false_iff]
      rfl

/-- The second directive finds a text where it asks for an integer, the unknown letter takes nothing,
and the last one finds nothing. -/
theorem formatWith_demand_mixed :
    let f : Formatted := ⟨Utf8.encode "A", [⟨.argumentMismatch .int .text, 2⟩,
      ⟨.malformedWidthDigit 0x2D, 5⟩, ⟨.unknownConversion 0x71, 5⟩, ⟨.missingArgument .text, 8⟩]⟩
    ((Session.start {}).formatWith {} (Utf8.encode "%c%4x%-q%s") [.char 0x41, .text []]).1 = .ok f ∧
    f.diagnostics.filterMap (fun d => d.kind.missing?) = [.text] ∧
    f.diagnostics.filterMap (fun d => d.kind.mismatch?) = [(.int, .text)] ∧
    (Session.start {}).formatWith {} (Utf8.encode "%c%%") [.char 0x41, .int 5, .text []] =
      (Session.start {}).formatWith {} (Utf8.encode "%c%%") [.char 0x41] := by
  intro f
  have hf : ((Session.start {}).formatWith {} (Utf8.encode "%c%4x%-q%s")
      [.char 0x41, .text []]).1 = .ok f :=
    (formatWith_eq_ok_iff rfl).mpr ⟨⟨by decide +kernel, by decide +kernel⟩, by decide +kernel⟩
  have hrequired : requiredArguments (Utf8.encode "%c%4x%-q%s") = [.char, .int, .text] := by
    decide +kernel
  have hfirst : requiredArguments (Utf8.encode "%c%%") = [.char] := by decide +kernel
  obtain ⟨-, hdiagnostics⟩ := formatWith_demand (.start {}) {} (Utf8.encode "%c%4x%-q%s")
    [.char 0x41, .text []]
  obtain ⟨hsurplus, -⟩ := formatWith_demand (.start {}) {} (Utf8.encode "%c%%")
    [.char 0x41, .int 5, .text []]
  obtain ⟨-, hmissing, hmismatch, -⟩ := hdiagnostics rfl f hf
  rw [hrequired] at hmissing hmismatch
  rw [hfirst] at hsurplus
  exact ⟨hf, hmissing, hmismatch.trans (by decide), hsurplus⟩

end PercentFormat
