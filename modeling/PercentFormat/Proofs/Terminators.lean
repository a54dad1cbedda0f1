import PercentFormat.Proofs.Agreement
import PercentFormat.Proofs.Demand

/-! Terminators hide what follows them: two calls that differ only behind the NULs of their templates
and texts cannot be told apart, neither by what they return nor by what they leave behind. -/

namespace PercentFormat

/-- A change that a function does not see leaves what the function makes of a list. -/
private theorem map_mapIdx_eq {α β : Type} {f : Nat → α → α} {g : α → β} (h : ∀ i a, g (f i a) = g a)
    (xs : List α) : (xs.mapIdx f).map g = xs.map g := by
  apply List.ext_getElem?
  intro i
  simp only [List.getElem?_map, List.getElem?_mapIdx, Option.map_map]
  exact congrArg (Option.map · xs[i]?) (funext (h i))

namespace Argument

/-- The argument up to the NUL of its text. Other values have no text. -/
def shown : Argument → Argument
  | .text bytes => .text (terminated bytes)
  | arg => arg

/-- The argument with a NUL and more bytes behind its text. -/
def withTail (tail : Bytes) : Argument → Argument
  | .text bytes => .text (bytes ++ 0 :: tail)
  | arg => arg

private theorem kind_shown (arg : Argument) : arg.shown.kind = arg.kind := by
  cases arg <;> rfl

theorem shown_withTail (tail : Bytes) (arg : Argument) : (arg.withTail tail).shown = arg.shown := by
  cases arg with
  | char byte => rfl
  | int value => rfl
  | text bytes => exact congrArg text (terminated_append_zero bytes tail)

end Argument

/-- A conversion looks at a text up to its NUL only. -/
theorem Conversion.body_shown (c : Conversion) (arg : Argument) : c.body arg.shown = c.body arg := by
  cases arg with
  | char byte => rfl
  | int value => rfl
  | text bytes =>
    cases c with
    | text => exact terminated_eq_self (zero_notMem_terminated bytes)
    | _ => rfl

theorem Share.ofLetter_shown (offset width : Nat) (letter : UInt8) (arg : Option Argument) :
    Share.ofLetter offset width letter (arg.map Argument.shown) =
      Share.ofLetter offset width letter arg := by
  rw [Share.ofLetter_eq, Share.ofLetter_eq]
  cases (Conversion.ofLetter letter).expected? with
  | none => rfl
  | some expected =>
    cases arg with
    | none => rfl
    | some arg => simp only [Option.map_some, ofArgument, Argument.kind_shown, Conversion.body_shown]

namespace Segment

theorem share_shown (s : Segment) (arg : Option Argument) :
    s.share (arg.map Argument.shown) = s.share arg := by
  cases s with
  | literal run => rfl
  | directive offset code => simp only [share, Share.ofLetter_shown]

private theorem left_map (s : Segment) (f : Argument → Argument) (args : List Argument) :
    s.left (args.map f) = (s.left args).map f := by
  unfold left
  split
  · exact List.map_tail.symm
  · rfl

end Segment

/-- No step of a call looks behind the NUL of a text, so a whole call does not. -/
theorem course_shown (o : Options) (room : Nat) (args : List Argument) (segs : List Segment) :
    course o room (args.map Argument.shown) segs = course o room args segs := by
  induction segs generalizing room args with
  | nil => rfl
  | cons s segs ih => simp only [course, List.head?_map, Segment.share_shown, Segment.left_map, ih]

theorem segments_append_zero (t tail : Bytes) : segments (t ++ 0 :: tail) = segments t := by
  rw [segments, terminated_append_zero, ← segments]

namespace Reference

theorem untilNul_append_nul (cs tail : List Char) : untilNul (cs ++ '\x00' :: tail) = untilNul cs := by
  induction cs with
  | nil => rfl
  | cons c cs ih =>
    simp only [untilNul, List.cons_append, List.takeWhile_cons] at ih ⊢
    rw [ih]

private theorem untilNul_untilNul (cs : List Char) : untilNul (untilNul cs) = untilNul cs :=
  List.takeWhile_idem

end Reference

namespace Fixture.Arg

/-- The argument up to the NUL of its text. -/
def shown : Arg → Arg
  | .str text => .str (String.ofList (Reference.untilNul text.toList))
  | arg => arg

/-- The argument with a NUL and more text behind its text. -/
def withTail (tail : String) : Arg → Arg
  | .str text => .str (text ++ "\x00" ++ tail)
  | arg => arg

theorem shown_withTail (tail : String) (arg : Arg) : (arg.withTail tail).shown = arg.shown := by
  cases arg with
  | char c => rfl
  | int value => rfl
  | str text =>
    have htail : (text ++ "\x00" ++ tail).toList = text.toList ++ '\x00' :: tail.toList := by simp
    rw [withTail, shown, htail, Reference.untilNul_append_nul, ← shown]

end Fixture.Arg

namespace Reference

open Fixture (Arg)

/-- The refusal with its argument up to the NUL of its text. -/
def Refusal.shown : Refusal → Refusal
  | .wrongArgument conversion arg => .wrongArgument conversion arg.shown
  | .unusedArgument arg => .unusedArgument arg.shown
  | refusal => refusal

theorem field_shown (width : Nat) (text : List Char) :
    (field width text).mapError Refusal.shown = field width text := by
  unfold field
  split <;> rfl

/-- A conversion renders a text up to its NUL only, and refuses it the same way. -/
theorem convert_shown (conversion : Char) (width : Nat) (arg : Arg) :
    convert conversion width arg.shown = (convert conversion width arg).mapError Refusal.shown := by
  fun_cases convert conversion width arg with
  | case1 c hc => simp only [Arg.shown, convert, if_pos hc, field_shown]
  | case2 c hc => simp only [Arg.shown, convert, if_neg hc, Except.mapError, Refusal.shown]
  | case3 value => simp only [Arg.shown, convert, field_shown]
  | case4 value => simp only [Arg.shown, convert, field_shown]
  | case5 text shown padding hwide =>
    simp only [Arg.shown, convert, String.toList_ofList, untilNul_untilNul]
    exact if_pos hwide
  | case6 text shown padding hwide =>
    simp only [Arg.shown, convert, String.toList_ofList, untilNul_untilNul]
    exact if_neg hwide
  | case7 conversion arg hchar hdecimal hhex htext =>
    cases arg with
    | char c => simp [Arg.shown, convert, Except.mapError, Refusal.shown]
    | int value => simp [Arg.shown, convert, Except.mapError, Refusal.shown]
    | str text =>
      have hs : conversion ≠ 's' := fun hs => htext text hs rfl
      simp [Arg.shown, convert, hs, Except.mapError, Refusal.shown]

/-- A directive takes the same arguments, and leaves them, up to the NULs of their texts. -/
theorem directive_shown (cs : List Char) (args : List Arg) :
    directive cs (args.map Arg.shown) =
      ((directive cs args).map fun r => (r.1, r.2.1, r.2.2.map Arg.shown)).mapError Refusal.shown := by
  unfold directive
  by_cases hover : maxSize < widthValue (cs.takeWhile Char.isDigit)
  · simp only [if_pos hover]
    rfl
  · simp only [if_neg hover]
    cases cs.dropWhile Char.isDigit with
    | nil => rfl
    | cons c rest =>
      by_cases hc : c = '%'
      · subst hc
        simp only
        split <;> rfl
      · cases args with
        | nil =>
          simp only [List.map_nil]
          rfl
        | cons arg args =>
          simp only [List.map_cons, convert_shown]
          cases convert c (widthValue (cs.takeWhile Char.isDigit)) arg <;> rfl

theorem renderOnto_percent (done cs : List Char) (args : List Arg) :
    renderOnto done ('%' :: cs) args =
      (directive cs args).bind fun r => renderOnto (r.1.reverse ++ done) r.2.1 r.2.2 := by
  rw [renderOnto, if_pos rfl]
  split
  · next refusal h => rw [h]; rfl
  · next text rest left h => simp [h, Except.bind]

/-- Each directive of a template renders the same, so a whole template does. -/
theorem renderOnto_shown (done cs : List Char) (args : List Arg) :
    renderOnto done cs (args.map Arg.shown) = (renderOnto done cs args).mapError Refusal.shown := by
  fun_induction renderOnto done cs args with
  | case1 done => simp [renderOnto, Except.mapError]
  | case2 done arg args => simp [renderOnto, Except.mapError, Refusal.shown]
  | case3 done args cs refusal h =>
    rw [renderOnto_percent, directive_shown, h]
    rfl
  | case4 done args cs text rest left h _ ih =>
    rw [renderOnto_percent, directive_shown, h]
    exact ih
  | case5 done args c cs hc ih => rw [renderOnto, if_neg hc, ih]

theorem format_eq_ok_iff {template out : String} {args : List Arg} :
    format template args = .ok out ↔
      renderOnto [] (untilNul template.toList) args = .ok out.toList := by
  constructor
  · exact format_ok
  · intro h
    simp [format, render, h, Except.map]

private theorem mapError_eq_ok_iff {ε ε' α : Type} {f : ε → ε'} {x : Except ε α} {a : α} :
    x.mapError f = .ok a ↔ x = .ok a := by
  cases x <;> simp [Except.mapError]

/-- The reference renders calls alike that are the same up to the NULs of their texts. -/
theorem format_eq_ok_iff_shown {template out : String} {args : List Arg} :
    format template args = .ok out ↔
      renderOnto [] (untilNul template.toList) (args.map Arg.shown) = .ok out.toList := by
  rw [format_eq_ok_iff, renderOnto_shown, mapError_eq_ok_iff]

end Reference

/-- Nothing behind a terminator is seen. With a NUL and more bytes behind its template and behind
each of its texts, a call returns what it returned without them and leaves the same session behind,
the template takes the same arguments, and the reference renders the call to the same text or
not at all. -/
theorem Session.formatWith_hides_tails :
    (∀ (p : Session) (o : Options) (t tail : Bytes) (args : List Argument) (tails : Nat → Bytes),
        p.formatWith o (t ++ 0 :: tail) (args.mapIdx fun i arg => arg.withTail (tails i)) =
          p.formatWith o t args) ∧
      (∀ t tail : Bytes, requiredArguments (t ++ 0 :: tail) = requiredArguments t) ∧
      ∀ (template tail : String) (args : List Fixture.Arg) (tails : Nat → String) (out : String),
        Reference.format (template ++ "\x00" ++ tail)
            (args.mapIdx fun i arg => arg.withTail (tails i)) = .ok out ↔
          Reference.format template args = .ok out := by
  refine ⟨?_, ?_, ?_⟩
  · intro p o t tail args tails
    apply formatWith_eq_of_course
    rw [segments_append_zero, ← course_shown,
      map_mapIdx_eq fun i => Argument.shown_withTail (tails i), course_shown]
  · intro t tail
    rw [requiredArguments, segments_append_zero, ← requiredArguments]
  · intro template tail args tails out
    have htemplate : (template ++ "\x00" ++ tail).toList =
        template.toList ++ '\x00' :: tail.toList := by simp
    rw [Reference.format_eq_ok_iff_shown, Reference.format_eq_ok_iff_shown, htemplate,
      Reference.untilNul_append_nul,
      map_mapIdx_eq fun i => Fixture.Arg.shown_withTail (tails i)]

end PercentFormat
