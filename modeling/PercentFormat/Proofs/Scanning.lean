import Mathlib.Data.List.TakeWhile
import PercentFormat.Proofs.Rendering

/-! The segments of a template from the front. A scanner that walks a template gives them one by one,
and never reads outside it; a rendering is read byte by byte in literal text, and code by code behind a
percent sign. -/

namespace PercentFormat

/-- A code ends at the first byte that can end one. -/
theorem cutCode_of_ends {width : Bytes} (hw : ∀ b ∈ width, endsDirective b = false) {letter : UInt8}
    (hl : endsDirective letter = true) (rest : Bytes) :
    cutCode (width ++ letter :: rest) = (width ++ [letter], rest) := by
  have hp : ∀ b ∈ width, (!endsDirective b) = true := fun b hb => by rw [hw b hb]; rfl
  rw [cutCode, List.dropWhile_append_of_pos hp, List.takeWhile_append_of_pos hp,
    List.dropWhile_cons_of_neg (by simp [hl]), List.takeWhile_cons_of_neg (by simp [hl]),
    List.append_nil]

/-- A code that nothing ends goes on to the end. -/
theorem cutCode_of_open {t : Bytes} (h : ∀ b ∈ t, endsDirective b = false) : cutCode t = (t, []) := by
  have hd : t.dropWhile (!endsDirective ·) = [] :=
    List.dropWhile_eq_nil_iff.mpr fun b hb => by simp [h b hb]
  rw [cutCode, hd]

/-- What has been found stands in front of what is still to come. -/
theorem segmentsOnto_eq (found : List Segment) (offset : Nat) (t : Bytes) :
    segmentsOnto found offset t = found.reverse ++ segmentsOnto [] offset t := by
  induction hn : t.length using Nat.strongRecOn generalizing found offset t with
  | ind n ih =>
    subst hn
    cases t with
    | nil => simp [segmentsOnto]
    | cons b rest =>
      rw [segmentsOnto, segmentsOnto]
      by_cases hb : (b != percentSign) = true
      · have hlt : ((b :: rest).dropWhile (· != percentSign)).length < (b :: rest).length := by
          rw [List.dropWhile_cons_of_pos (p := (· != percentSign)) hb]
          exact Nat.lt_succ_of_le (List.length_dropWhile_le _ rest)
        simp only [hb, dite_true]
        rw [ih _ hlt _ _ _ rfl, ih _ hlt [_] _ _ rfl]
        simp
      · have hlt : (cutCode rest).2.length < (b :: rest).length :=
          Nat.lt_succ_of_le (length_cutCode_snd_le rest)
        simp only [hb, dite_false, Bool.false_eq_true]
        rw [ih _ hlt _ _ _ rfl, ih _ hlt [_] _ _ rfl]
        simp

theorem segmentsOnto_literal (offset : Nat) {b : UInt8} (hb : b ≠ percentSign) (rest : Bytes) :
    segmentsOnto [] offset (b :: rest) =
      .literal (b :: rest.takeWhile (· != percentSign)) ::
        segmentsOnto [] (offset + 1 + (rest.takeWhile (· != percentSign)).length)
          (rest.dropWhile (· != percentSign)) := by
  have hb' : (b != percentSign) = true := by simpa using hb
  rw [segmentsOnto]
  simp only [hb', dite_true, List.takeWhile_cons_of_pos, List.dropWhile_cons_of_pos]
  rw [segmentsOnto_eq]
  simp [Nat.add_assoc, Nat.add_comm]

/-- A byte in front of literal text lengthens its run; in front of a directive it is a run of its own. -/
theorem segmentsOnto_byte (offset : Nat) {b : UInt8} (hb : b ≠ percentSign) (rest : Bytes) :
    ∃ run segs, segmentsOnto [] offset (b :: rest) = .literal (b :: run) :: segs ∧
      (run = [] ∧ segmentsOnto [] (offset + 1) rest = segs ∨
        segmentsOnto [] (offset + 1) rest = .literal run :: segs) := by
  refine ⟨_, _, segmentsOnto_literal offset hb rest, ?_⟩
  cases rest with
  | nil => exact .inl ⟨rfl, rfl⟩
  | cons c rest =>
    by_cases hc : c = percentSign
    · simp [hc]
    · have ho (n : Nat) : offset + 1 + 1 + n = offset + 1 + (n + 1) := by omega
      have hc' : (c != percentSign) = true := by simpa using hc
      rw [segmentsOnto_literal (offset + 1) hc, List.takeWhile_cons_of_pos (p := (· != percentSign)) hc',
        List.dropWhile_cons_of_pos (p := (· != percentSign)) hc', List.length_cons, ho]
      exact .inr rfl

theorem segmentsOnto_percent (offset : Nat) (rest : Bytes) :
    segmentsOnto [] offset (percentSign :: rest) =
      .directive offset (cutCode rest).1 ::
        segmentsOnto [] (offset + 1 + (cutCode rest).1.length) (cutCode rest).2 := by
  rw [segmentsOnto]
  simp only [bne_self_eq_false, Bool.false_eq_true, dite_false]
  rw [segmentsOnto_eq]
  rfl

theorem cutCode_cons (b : UInt8) (rest : Bytes) :
    cutCode (b :: rest) =
      if endsDirective b then ([b], rest) else (b :: (cutCode rest).1, (cutCode rest).2) := by
  cases hb : endsDirective b with
  | true => simp [cutCode, hb]
  | false =>
    simp only [cutCode, List.dropWhile_cons, List.takeWhile_cons, hb, Bool.not_false, if_true,
      Bool.false_eq_true, if_false]
    split <;> rfl

/-- A run up to the first percent sign is one segment. -/
theorem segmentsOnto_run (offset : Nat) {run : Bytes} (hrun : ∀ b ∈ run, b ≠ percentSign)
    (hne : run ≠ []) (rest : Bytes) (hrest : ∀ b ∈ rest.head?, b = percentSign) :
    segmentsOnto [] offset (run ++ rest) =
      .literal run :: segmentsOnto [] (offset + run.length) rest := by
  obtain ⟨b, run, rfl⟩ := List.exists_cons_of_ne_nil hne
  have hp : ∀ x ∈ run, (x != percentSign) = true := fun x hx => by simpa using hrun x (by simp [hx])
  have hstop : rest.takeWhile (· != percentSign) = [] ∧ rest.dropWhile (· != percentSign) = rest := by
    cases rest with
    | nil => exact ⟨rfl, rfl⟩
    | cons c rest => simp [hrest c rfl]
  rw [List.cons_append, segmentsOnto_literal offset (hrun b (by simp)),
    List.takeWhile_append_of_pos hp, List.dropWhile_append_of_pos hp, hstop.1, hstop.2,
    List.append_nil, List.length_cons, Nat.add_assoc, Nat.add_comm 1]

namespace Scanner

/-- What lies between two places of the template is what a slice gives. -/
theorem slice?_eq_some {s : Scanner} (front middle back : Bytes) {first last : Nat}
    (ht : s.template = front ++ middle ++ back) (hfirst : first = front.length)
    (hlast : last = front.length + middle.length) : s.slice? first last = some middle := by
  simp [slice?, ht, hfirst, hlast]

/-- A scanner in a directive, in front of `rest` and behind the part `seen` of the code. -/
private def inside (front seen rest : Bytes) (state : State) : Scanner where
  template := front ++ percentSign :: seen ++ rest
  pos := front.length + 1 + seen.length
  state := state

private theorem byte_inside (front seen rest : Bytes) (state : State) :
    (inside front seen rest state).template[(inside front seen rest state).pos]? = rest.head? := by
  have hlen : (front ++ percentSign :: seen).length = front.length + 1 + seen.length := by
    simp; omega
  rw [inside, ← hlen, List.getElem?_append_right (Nat.le_refl _), Nat.sub_self, List.head?_eq_getElem?]

private theorem inside_snoc (front seen : Bytes) (b : UInt8) (rest : Bytes) (state : State) :
    { inside front seen (b :: rest) state with pos := (inside front seen (b :: rest) state).pos + 1 } =
      inside front (seen ++ [b]) rest state := by
  simp [inside]; omega

/-- The code that a scanner gives is the part behind it and then what a cut takes from the rest. -/
private theorem scanDirective?_inside (front seen rest : Bytes) (state : State) :
    (inside front seen rest state).scanDirective? front.length =
      some (.directive front.length (seen ++ (cutCode rest).1),
        inside front (seen ++ (cutCode rest).1) (cutCode rest).2
          (if rest.any endsDirective then .literal else .done)) := by
  induction rest generalizing seen with
  | nil =>
    have hcode : (inside front seen [] state).slice? (front.length + 1)
        (inside front seen [] state).template.length = some seen :=
      slice?_eq_some (front ++ [percentSign]) seen [] (by simp [inside]) (by simp)
        (by simp [inside]; omega)
    rw [scanDirective?]
    split
    · rw [hcode]
      simp [inside, cutCode]
    · next b hb => rw [byte_inside] at hb; cases hb
  | cons b rest ih =>
    rw [scanDirective?]
    split
    · next hend => rw [byte_inside] at hend; cases hend
    · next b' hb =>
      rw [byte_inside, List.head?_cons] at hb
      cases hb
      by_cases hb : endsDirective b = true
      · have hcode : (inside front seen (b :: rest) state).slice? (front.length + 1)
            ((inside front seen (b :: rest) state).pos + 1) = some (seen ++ [b]) :=
          slice?_eq_some (front ++ [percentSign]) (seen ++ [b]) rest (by simp [inside]) (by simp)
            (by simp [inside]; omega)
        rw [if_pos hb, hcode]
        simp [inside, cutCode_cons, hb, Nat.add_assoc]
      · rw [if_neg hb, inside_snoc, ih]
        simp [inside, cutCode_cons, hb]

private theorem next?_done {s : Scanner} (hs : s.state = .done) : s.next? = some (none, s) := by
  rw [next?]
  split <;> simp_all

private theorem next?_inDirective {s : Scanner} {start : Nat} (hs : s.state = .inDirective start) :
    s.next? = (s.scanDirective? start).map fun (seg, after) => (some seg, after) := by
  rw [next?]
  split <;> simp_all

private theorem next?_literal {s : Scanner} (hs : s.state = .literal) :
    s.next? = s.scanLiteral?.bind fun
      | (some seg, after) => some (some seg, after)
      | (none, after) => after.next? := by
  rw [next?]
  split <;> simp_all
  split <;> simp_all

private theorem segments?_eq (s : Scanner) :
    s.segments? = s.next?.bind fun
      | (none, _) => some []
      | (some seg, after) => after.segments?.map (seg :: ·) := by
  rw [segments?]
  split <;> simp_all

private theorem segments?_done {s : Scanner} (hs : s.state = .done) : s.segments? = some [] := by
  rw [segments?_eq, next?_done hs]
  rfl

/-- A run that is empty leaves no trace among the segments. -/
private theorem segments?_literal {s after : Scanner} {seg? : Option Segment}
    (hs : s.state = .literal) (h : s.scanLiteral? = some (seg?, after)) :
    s.segments? = after.segments?.map (seg?.toList ++ ·) := by
  rw [segments?_eq, next?_literal hs, h]
  cases seg? with
  | some seg => rfl
  | none => simp [← segments?_eq after]

/-- In front of a percent sign stands a run, which may be empty. -/
private theorem scanLiteral?_percent (front run rest : Bytes) (hrun : ∀ b ∈ run, b ≠ percentSign) :
    (Scanner.mk (front ++ (run ++ percentSign :: rest)) front.length .literal).scanLiteral? =
      some (if run = [] then none else some (.literal run),
        inside (front ++ run) [] rest (.inDirective (front ++ run).length)) := by
  have hfind : (run ++ percentSign :: rest).findIdx? (· == percentSign) = some run.length := by
    have hnone : run.findIdx? (· == percentSign) = none := by simpa using hrun
    simp [List.findIdx?_append, List.findIdx?_cons, hnone]
  have hrest : (Scanner.mk (front ++ (run ++ percentSign :: rest)) front.length .literal).slice?
      front.length (front ++ (run ++ percentSign :: rest)).length = some (run ++ percentSign :: rest) :=
    slice?_eq_some front (run ++ percentSign :: rest) [] (by simp) rfl (by simp)
  have hrun : (Scanner.mk (front ++ (run ++ percentSign :: rest)) front.length .literal).slice?
      front.length (front.length + run.length) = some run :=
    slice?_eq_some front run (percentSign :: rest) (by simp) rfl rfl
  simp only [scanLiteral?, hrest, Option.bind_eq_bind, Option.bind_some, hfind, hrun]
  simp [inside, List.length_pos_iff]

private theorem scanLiteral?_last (front run : Bytes) (hrun : ∀ b ∈ run, b ≠ percentSign) :
    (Scanner.mk (front ++ run) front.length .literal).scanLiteral? =
      some (if run = [] then none else some (.literal run),
        ⟨front ++ run, (front ++ run).length, .done⟩) := by
  have hfind : run.findIdx? (· == percentSign) = none := by simpa using hrun
  have hrest : (Scanner.mk (front ++ run) front.length .literal).slice? front.length
      (front ++ run).length = some run :=
    slice?_eq_some front run [] (by simp) rfl (by simp)
  simp only [scanLiteral?, hrest, Option.bind_eq_bind, Option.bind_some, hfind]
  simp [List.length_pos_iff]

/-- Behind the end of a directive the scanner stands in literal text again. -/
private theorem segments?_inside (front rest : Bytes)
    (ih : ∀ front' rest', rest'.length ≤ rest.length →
      (Scanner.mk (front' ++ rest') front'.length .literal).segments? =
        some (segmentsOnto [] front'.length rest')) :
    (inside front [] rest (.inDirective front.length)).segments? =
      some (segmentsOnto [] front.length (percentSign :: rest)) := by
  have hlen : (front ++ percentSign :: (cutCode rest).1).length =
      front.length + 1 + (cutCode rest).1.length := by
    rw [List.length_append, List.length_cons]
    omega
  have hlater := ih (front ++ percentSign :: (cutCode rest).1) (cutCode rest).2
    (length_cutCode_snd_le rest)
  rw [hlen] at hlater
  rw [segments?_eq, next?_inDirective rfl, scanDirective?_inside, segmentsOnto_percent, List.nil_append]
  cases hany : rest.any endsDirective with
  | true => simpa [inside, Nat.add_assoc] using hlater
  | false =>
    have hend : (cutCode rest).2 = [] := by rw [cutCode_of_open (by simpa using hany)]
    simp [hend, segments?_done, segmentsOnto, inside]

/-- What a scanner in literal text gives are the segments of the bytes in front of it. -/
theorem segments?_append (front rest : Bytes) :
    (Scanner.mk (front ++ rest) front.length .literal).segments? =
      some (segmentsOnto [] front.length rest) := by
  induction hn : rest.length using Nat.strongRecOn generalizing front rest with
  | ind n ih =>
    subst hn
    have hrun : ∀ b ∈ rest.takeWhile (· != percentSign), b ≠ percentSign := fun b hb => by
      simpa using List.mem_takeWhile_imp hb
    have hcut : rest.takeWhile (· != percentSign) ++ rest.dropWhile (· != percentSign) = rest :=
      List.takeWhile_append_dropWhile
    generalize rest.takeWhile (· != percentSign) = run at hrun hcut
    cases hback : rest.dropWhile (· != percentSign) with
    | nil =>
      rw [hback, List.append_nil] at hcut
      subst hcut
      rw [segments?_literal rfl (scanLiteral?_last front run hrun), segments?_done rfl]
      by_cases hne : run = []
      · simp [hne, segmentsOnto]
      · have := segmentsOnto_run front.length hrun hne [] (by simp)
        simp_all [segmentsOnto]
    | cons p later =>
      have hp : p = percentSign := by
        simpa [hback] using List.head_dropWhile_not (· != percentSign) (l := rest) (by simp [hback])
      rw [hback, hp] at hcut
      subst hcut
      have hlater := segments?_inside (front ++ run) later fun front' rest' hle =>
        ih rest'.length (by simp; omega) front' rest' rfl
      rw [segments?_literal rfl (scanLiteral?_percent front run later hrun), hlater, List.length_append]
      by_cases hne : run = []
      · simp [hne]
      · rw [segmentsOnto_run front.length hrun hne (percentSign :: later) (by simp)]
        simp [hne]

/-- A scanner never reads outside its template, and what it gives are the template's segments. -/
theorem segments?_start (template : Bytes) :
    (Scanner.start template).segments? = some (segments template) :=
  segments?_append [] (terminated template)

end Scanner
/-- The rendering of the bytes that start at `offset`. -/
def renderingFrom (args : List Argument) (offset : Nat) (t : Bytes) : Formatted :=
  ⟨(shares args (segmentsOnto [] offset t)).flatMap Share.fragment,
    (shares args (segmentsOnto [] offset t)).flatMap Share.diagnostics⟩

theorem renderingFrom_nil (args : List Argument) (offset : Nat) :
    renderingFrom args offset [] = ⟨[], []⟩ := by
  simp [renderingFrom, segmentsOnto, shares_nil]

private theorem shares_literal (args : List Argument) (run : Bytes) (segs : List Segment) :
    shares args (.literal run :: segs) = ⟨run, []⟩ :: shares args segs :=
  shares_cons ..

/-- A byte of literal text renders as itself, whether or not it is alone in its run. -/
theorem renderingFrom_literal (args : List Argument) (offset : Nat) {b : UInt8} (hb : b ≠ percentSign)
    (rest : Bytes) :
    renderingFrom args offset (b :: rest) =
      ⟨b :: (renderingFrom args (offset + 1) rest).bytes,
        (renderingFrom args (offset + 1) rest).diagnostics⟩ := by
  obtain ⟨run, segs, hwhole, ⟨rfl, hlater⟩ | hlater⟩ := segmentsOnto_byte offset hb rest
  · rw [renderingFrom, renderingFrom, hwhole, hlater, shares_literal]
    rfl
  · rw [renderingFrom, renderingFrom, hwhole, hlater, shares_literal, shares_literal]
    rfl

theorem renderingFrom_run (args : List Argument) (offset : Nat) (run : Bytes)
    (hrun : ∀ b ∈ run, b ≠ percentSign) (rest : Bytes) :
    renderingFrom args offset (run ++ rest) =
      ⟨run ++ (renderingFrom args (offset + run.length) rest).bytes,
        (renderingFrom args (offset + run.length) rest).diagnostics⟩ := by
  induction run generalizing offset with
  | nil => rfl
  | cons b run ih =>
    have hr : ∀ x ∈ run, x ≠ percentSign := fun x hx => hrun x (by simp [hx])
    rw [List.cons_append, renderingFrom_literal args offset (hrun b (by simp)), ih (offset + 1) hr,
      List.length_cons, Nat.add_right_comm, Nat.add_assoc]
    rfl

/-- A percent sign renders as the share of the code behind it. -/
theorem renderingFrom_percent (args : List Argument) (offset : Nat) (rest : Bytes) :
    let s := Segment.directive offset (cutCode rest).1
    let later := renderingFrom (s.left args) (offset + 1 + (cutCode rest).1.length) (cutCode rest).2
    renderingFrom args offset (percentSign :: rest) =
      ⟨(s.share args.head?).fragment ++ later.bytes,
        (s.share args.head?).diagnostics ++ later.diagnostics⟩ := by
  simp only [renderingFrom, segmentsOnto_percent, shares_cons, List.flatMap_cons]

end PercentFormat
