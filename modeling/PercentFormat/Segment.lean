import PercentFormat.Directive

/-! Templates cut into literal runs and directives. -/

namespace PercentFormat

/-- A piece of a template. -/
inductive Segment where
  | literal (run : Bytes)
  /-- A directive whose percent sign stands at `offset`; the code does not include that sign. -/
  | directive (offset : Nat) (code : Bytes)
  deriving DecidableEq, Repr

def endsDirective (b : UInt8) : Bool := b == percentSign || isLetter b

/-- Cuts the code of a directive from the front: up to and including the first byte that ends it,
or all of the template. -/
def cutCode (t : Bytes) : Bytes × Bytes :=
  match t.dropWhile (!endsDirective ·) with
  | [] => (t, [])
  | e :: rest => (t.takeWhile (!endsDirective ·) ++ [e], rest)

theorem cutCode_append (t : Bytes) : (cutCode t).1 ++ (cutCode t).2 = t := by
  have h := List.takeWhile_append_dropWhile (p := (!endsDirective ·)) (l := t)
  unfold cutCode
  split
  · simp
  · next e rest heq => rw [heq] at h; simpa using h

theorem length_cutCode_snd_le (t : Bytes) : (cutCode t).2.length ≤ t.length := by
  have h := congrArg List.length (cutCode_append t)
  rw [List.length_append] at h
  omega

private theorem length_dropWhile_lt {p : UInt8 → Bool} {b : UInt8} {t : Bytes} (h : p b = true) :
    ((b :: t).dropWhile p).length < (b :: t).length := by
  have := (List.dropWhile_sublist p (l := t)).length_le
  simp only [List.dropWhile_cons, h, if_true, List.length_cons]
  omega

/-- The segments of the bytes that start at `offset`, put behind those already found, which stand
in reverse. -/
def segmentsOnto (found : List Segment) (offset : Nat) (t : Bytes) : List Segment :=
  match t with
  | [] => found.reverse
  | b :: rest =>
    if h : (b != percentSign) = true then
      have := length_dropWhile_lt (p := (· != percentSign)) (t := rest) h
      let run := (b :: rest).takeWhile (· != percentSign)
      segmentsOnto (.literal run :: found) (offset + run.length)
        ((b :: rest).dropWhile (· != percentSign))
    else
      have := length_cutCode_snd_le rest
      let code := (cutCode rest).1
      segmentsOnto (.directive offset code :: found) (offset + 1 + code.length) (cutCode rest).2
termination_by t.length
decreasing_by
  · simpa using this
  · simp only [List.length_cons]; omega

def segments (template : Bytes) : List Segment := segmentsOnto [] 0 (terminated template)

/-- Where a scanner stands: in literal text, in the directive whose percent sign is at `start`, or at
its end. -/
inductive Scanner.State where
  | literal
  | inDirective (start : Nat)
  | done
  deriving DecidableEq, Repr

/-- A scanner gives the segments of a template one after the other, and remembers no more than a place
in it. -/
structure Scanner where
  template : Bytes
  pos : Nat := 0
  state : Scanner.State := .literal
  deriving DecidableEq, Repr

namespace Scanner

def start (template : Bytes) : Scanner := { template := terminated template }

/-- The bytes from one place up to another. There is no result where the template has no such places. -/
def slice? (s : Scanner) (first last : Nat) : Option Bytes :=
  if first ≤ last ∧ last ≤ s.template.length then some ((s.template.drop first).take (last - first))
  else none

/-- Goes on to the next percent sign, or to the end. A run that is empty is no segment. -/
def scanLiteral? (s : Scanner) : Option (Option Segment × Scanner) := do
  let rest ← s.slice? s.pos s.template.length
  match rest.findIdx? (· == percentSign) with
  | some i =>
    let run ← s.slice? s.pos (s.pos + i)
    return (if 0 < i then some (.literal run) else none,
      { s with pos := s.pos + i + 1, state := .inDirective (s.pos + i) })
  | none =>
    return (if s.pos < s.template.length then some (.literal rest) else none,
      { s with pos := s.template.length, state := .done })

/-- Goes on, byte by byte, behind the first one that ends the directive. -/
def scanDirective? (s : Scanner) (start : Nat) : Option (Segment × Scanner) :=
  match h : s.template[s.pos]? with
  | none => do
    let code ← s.slice? (start + 1) s.template.length
    return (.directive start code, { s with state := .done })
  | some b =>
    if endsDirective b then do
      let code ← s.slice? (start + 1) (s.pos + 1)
      return (.directive start code, { s with pos := s.pos + 1, state := .literal })
    else scanDirective? { s with pos := s.pos + 1 } start
termination_by s.template.length - s.pos
decreasing_by
  have := (List.getElem?_eq_some_iff.1 h).1
  omega

def rank (s : Scanner) : Nat :=
  2 * (s.template.length - s.pos) + if s.state = .done then 0 else 1

theorem rank_scanLiteral?_lt {s after : Scanner} {seg? : Option Segment} (hs : s.state ≠ .done)
    (h : s.scanLiteral? = some (seg?, after)) : after.rank < s.rank := by
  obtain ⟨rest, hrest, h⟩ := Option.bind_eq_some_iff.1 h
  split at h
  · next i hi =>
    obtain ⟨run, hrun, h⟩ := Option.bind_eq_some_iff.1 h
    have hlt : s.pos + i < s.template.length := by
      have := (List.findIdx?_eq_some_iff_getElem.1 hi).1
      grind [slice?]
    cases h
    simp [rank, hs]
    omega
  · cases h
    simp [rank, hs]

theorem rank_scanDirective?_lt {s after : Scanner} {start : Nat} {seg : Segment} (hs : s.state ≠ .done)
    (h : s.scanDirective? start = some (seg, after)) : after.rank < s.rank := by
  fun_induction scanDirective? s start with
  | case1 s hend =>
    obtain ⟨code, -, h⟩ := Option.bind_eq_some_iff.1 h
    cases h
    simp [rank, hs]
  | case2 s b hb hends =>
    obtain ⟨code, -, h⟩ := Option.bind_eq_some_iff.1 h
    have := (List.getElem?_eq_some_iff.1 hb).1
    cases h
    simp [rank, hs]
    omega
  | case3 s b hb hends ih =>
    have hlt := ih hs h
    simp only [rank, hs, if_false] at hlt ⊢
    omega

/-- Goes on from state to state until there is a segment, or the end. -/
def next? (s : Scanner) : Option (Option Segment × Scanner) :=
  match hs : s.state with
  | .done => some (none, s)
  | .inDirective start => (s.scanDirective? start).map fun (seg, after) => (some seg, after)
  | .literal =>
    match h : s.scanLiteral? with
    | none => none
    | some (some seg, after) => some (some seg, after)
    | some (none, after) =>
      have := rank_scanLiteral?_lt (by simp [hs]) h
      after.next?
termination_by s.rank

theorem rank_next?_lt {s after : Scanner} {seg : Segment} (h : s.next? = some (some seg, after)) :
    after.rank < s.rank := by
  fun_induction next? s with
  | case1 s hs => cases h
  | case2 s start hs =>
    obtain ⟨⟨seg', after'⟩, hscan, h⟩ := Option.map_eq_some_iff.1 h
    cases h
    exact rank_scanDirective?_lt (by simp [hs]) hscan
  | case3 s hs hscan => cases h
  | case4 s hs seg' after' hscan =>
    cases h
    exact rank_scanLiteral?_lt (by simp [hs]) hscan
  | case5 s hs after' hscan hlt ih => exact Nat.lt_trans (ih h) hlt

/-- The segments that a scanner still gives. There is no result if it reads outside its template. -/
def segments? (s : Scanner) : Option (List Segment) :=
  match h : s.next? with
  | none => none
  | some (none, _) => some []
  | some (some seg, after) =>
    have := rank_next?_lt h
    after.segments?.map (seg :: ·)
termination_by s.rank

end Scanner

def Segment.source : Segment → Bytes
  | .literal run => run
  | .directive _ code => percentSign :: code

def Segment.directive? : Segment → Option Directive
  | .literal _ => none
  | .directive _ code => Directive.parse? code

def requiredArguments (template : Bytes) : List Argument.Kind :=
  (segments template).filterMap fun s => s.directive?.bind fun d => d.conversion.expected?

end PercentFormat
