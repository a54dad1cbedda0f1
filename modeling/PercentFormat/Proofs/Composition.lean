import PercentFormat.Proofs.Segmentation

/-! Templates one behind the other. Where the first one leaves no directive open, its segments and
those of the second one are the segments of both, but for two literal runs that become one. -/

namespace PercentFormat

namespace Segment

/-- The code of a directive. -/
def code? : Segment → Option Bytes
  | .literal _ => none
  | .directive _ code => some code

/-- The type of the argument that a segment takes, if it takes one. -/
def demand? (s : Segment) : Option Argument.Kind :=
  s.directive?.bind fun d => d.conversion.expected?

/-- The same segment, `n` bytes later. -/
def moved (n : Nat) : Segment → Segment
  | .literal run => .literal run
  | .directive offset code => .directive (offset + n) code

theorem isSome_demand? (s : Segment) : s.demand?.isSome = s.takesArgument := by
  cases s with
  | literal run => rfl
  | directive offset code =>
    rcases code.eq_nil_or_concat with rfl | ⟨width, letter, rfl⟩
    · rfl
    · rw [List.concat_eq_append, takesArgument_concat]
      by_cases hp : width ++ [letter] = [percentSign]
      · obtain ⟨rfl, rfl⟩ : width = [] ∧ letter = percentSign := by
          simpa [List.append_eq_singleton_iff] using hp
        rfl
      · simp [demand?, directive?, Directive.parse?_concat hp]

/-- A segment that takes no argument does not look at the one in its place. -/
theorem share_eq_of_not_takesArgument {s : Segment} (h : s.takesArgument = false)
    (a b : Option Argument) : s.share a = s.share b := by
  cases s with
  | literal run => rfl
  | directive offset code =>
    rcases code.eq_nil_or_concat with rfl | ⟨width, letter, rfl⟩
    · rfl
    · rw [List.concat_eq_append] at h ⊢
      rw [takesArgument_concat, Option.isSome_eq_false_iff, Option.isNone_iff_eq_none] at h
      by_cases hp : width ++ [letter] = [percentSign]
      · rw [hp, share_percent, share_percent]
      · simp [share_concat hp, Share.ofLetter_eq, h]

end Segment

/-- The same share, `n` bytes later. -/
def Share.moved (n : Nat) (s : Share) : Share :=
  ⟨s.fragment, s.diagnostics.map fun d => { d with offset := d.offset + n }⟩

private theorem ofLetter_moved (n offset width : Nat) (letter : UInt8) (arg : Option Argument) :
    Share.ofLetter (offset + n) width letter arg =
      (Share.ofLetter offset width letter arg).moved n := by
  rw [Share.ofLetter_eq, Share.ofLetter_eq]
  cases (Conversion.ofLetter letter).expected? with
  | none => rfl
  | some expected =>
    cases arg with
    | none => rfl
    | some arg =>
      by_cases hk : arg.kind = expected
      · simp [Share.ofArgument, Share.moved, hk]
      · simp [Share.ofArgument, Share.moved, hk, Share.complaint]

private theorem share_moved (n : Nat) (s : Segment) (arg : Option Argument) :
    (s.moved n).share arg = (s.share arg).moved n := by
  cases s with
  | literal run => rfl
  | directive offset code =>
    rcases code.eq_nil_or_concat with rfl | ⟨width, letter, rfl⟩
    · rfl
    · rw [List.concat_eq_append, Segment.moved]
      by_cases hp : width ++ [letter] = [percentSign]
      · rw [hp, Segment.share_percent, Segment.share_percent]
        rfl
      · simp [Segment.share_concat hp, ofLetter_moved, Share.moved]

private theorem takesArgument_moved (n : Nat) (s : Segment) :
    (s.moved n).takesArgument = s.takesArgument := by
  cases s <;> rfl

private theorem shares_moved (n : Nat) (args : List Argument) (segs : List Segment) :
    shares args (segs.map (.moved n)) = (shares args segs).map (.moved n) := by
  induction segs generalizing args with
  | nil => rfl
  | cons s segs ih =>
    rw [List.map_cons, shares_cons, shares_cons, List.map_cons, share_moved, ← ih, Segment.left,
      takesArgument_moved]
    rfl

private theorem demand?_moved (n : Nat) (s : Segment) : (s.moved n).demand? = s.demand? := by
  cases s <;> rfl

/-- Only the kind of the next segment matters. -/
private theorem leads_of_isLiteral {s a b : Segment} (h : s.Leads a)
    (hb : b.isLiteral = a.isLiteral) : s.Leads b := by
  cases s with
  | literal run => exact hb.trans h
  | directive offset code => exact h

/-- Bytes that start later are cut in the same way. -/
theorem Segmentation.moved {start : Nat} {t : Bytes} {segs : List Segment}
    (h : Segmentation start t segs) (n : Nat) :
    Segmentation (start + n) t (segs.map (.moved n)) := by
  induction segs generalizing start t with
  | nil => exact segmentation_nil_iff.mpr (segmentation_nil_iff.mp h)
  | cons s segs ih =>
    obtain ⟨hs, hn, rest, rfl, hrest⟩ := segmentation_cons_iff.mp h
    have hm := ih hrest
    rw [Nat.add_right_comm] at hm
    have hnext : ∀ next ∈ (segs.map (Segment.moved n)).head?, s.Leads next := by
      intro next hnext
      rw [List.head?_map] at hnext
      obtain ⟨x, hx, rfl⟩ := Option.map_eq_some_iff.mp hnext
      exact leads_of_isLiteral (hn x hx) (by cases x <;> rfl)
    rw [List.map_cons]
    cases s with
    | literal run => exact segmentation_cons_iff.mpr ⟨hs, hnext, rest, rfl, hm⟩
    | directive offset code =>
      exact segmentation_cons_iff.mpr ⟨⟨congrArg (· + n) hs.1, hs.2⟩, hnext, rest, rfl, hm⟩

/-- Two lists of segments in one. Literal runs that meet become one run. -/
def joined : List Segment → List Segment → List Segment
  | [], ys => ys
  | [.literal a], .literal b :: ys => .literal (a ++ b) :: ys
  | x :: xs, ys => x :: joined xs ys

private theorem isLiteral_head_joined (x : Segment) (xs ys : List Segment) :
    ∀ next ∈ (joined (x :: xs) ys).head?, next.isLiteral = x.isLiteral := by
  intro next hnext
  unfold joined at hnext
  split at hnext
  · next h => cases h
  · next a b ys h =>
    obtain ⟨rfl, rfl⟩ := List.cons.inj h
    obtain rfl : Segment.literal (a ++ b) = next := by simpa using hnext
    rfl
  · next y _ h _ =>
    obtain ⟨rfl, rfl⟩ := List.cons.inj h
    obtain rfl : x = next := by simpa using hnext
    rfl

/-- Two cut pieces are cut together as each by itself, if the first one leaves nothing open. -/
theorem Segmentation.joined {start : Nat} {t₁ t₂ : Bytes} {xs ys : List Segment}
    (h₁ : Segmentation start t₁ xs)
    (hc : ∀ offset code, xs.getLast? = some (.directive offset code) → Closed code)
    (h₂ : Segmentation (start + t₁.length) t₂ ys) :
    Segmentation start (t₁ ++ t₂) (joined xs ys) := by
  fun_induction PercentFormat.joined xs ys generalizing start t₁ with
  | case1 ys =>
    obtain rfl := segmentation_nil_iff.mp h₁
    exact h₂
  | case2 a b ys =>
    obtain ⟨ha, -, rest₁, rfl, hnil⟩ := segmentation_cons_iff.mp h₁
    obtain rfl := segmentation_nil_iff.mp hnil
    obtain ⟨hb, hn, rest₂, rfl, hrest⟩ := segmentation_cons_iff.mp h₂
    refine segmentation_cons_iff.mpr ⟨⟨?_, ?_⟩, hn, rest₂, ?_, ?_⟩
    · simp [ha.1]
    · simpa using ⟨ha.2, hb.2⟩
    · simp [Segment.source]
    · simpa [Segment.source, Nat.add_assoc] using hrest
  | case3 x xs ys hseam ih =>
    obtain ⟨hx, hn, rest, rfl, hrest⟩ := segmentation_cons_iff.mp h₁
    rw [List.length_append, ← Nat.add_assoc] at h₂
    refine segmentation_cons_iff.mpr ⟨hx, ?_, rest ++ t₂, List.append_assoc .., ih hrest ?_ h₂⟩
    · intro next hnext
      cases xs with
      | cons x' xs =>
        exact leads_of_isLiteral (hn x' rfl) (isLiteral_head_joined x' xs ys next hnext)
      | nil =>
        -- the seam: a directive is closed, and two literal runs would have become one
        obtain ⟨ys, rfl⟩ := List.head?_eq_some_iff.mp hnext
        cases x with
        | directive offset code => exact hc offset code rfl
        | literal a =>
          cases next with
          | directive offset code => rfl
          | literal b => exact (hseam a b ys rfl rfl rfl).elim
    · intro offset code hlast
      apply hc offset code
      rw [List.getLast?_cons, hlast]
      rfl

section
variable {t₁ : Bytes}

private theorem terminated_append (h : (0 : UInt8) ∉ t₁) (t₂ : Bytes) :
    terminated (t₁ ++ t₂) = t₁ ++ terminated t₂ := by
  apply List.takeWhile_append_of_pos
  intro b hb
  simpa using ne_of_mem_of_not_mem hb h

private theorem closed_of_last {segs : List Segment}
    (h : ∀ code ∈ (segs.filterMap Segment.code?).getLast?, Closed code) (offset : Nat)
    (code : Bytes) (hl : segs.getLast? = some (.directive offset code)) : Closed code := by
  obtain ⟨init, rfl⟩ := List.getLast?_eq_some_iff.mp hl
  exact h code (by simp [Segment.code?])

/-- The second template is cut as if it stood alone, further on. -/
theorem segments_append (h₀ : (0 : UInt8) ∉ t₁)
    (hc : ∀ code ∈ ((segments t₁).filterMap Segment.code?).getLast?, Closed code) (t₂ : Bytes) :
    segments (t₁ ++ t₂) = joined (segments t₁) ((segments t₂).map (.moved t₁.length)) := by
  have h₁ : Segmentation 0 t₁ (segments t₁) := by
    rw [segments, terminated_eq_self h₀]
    exact segmentation_segmentsOnto 0 t₁
  have h₂ := (segmentation_segmentsOnto 0 (terminated t₂)).moved t₁.length
  have h := (h₁.joined (closed_of_last hc) h₂).eq_segmentsOnto
  rw [segments, terminated_append h₀]
  exact h.symm

end

private theorem filterMap_demand?_joined (xs ys : List Segment) :
    (joined xs ys).filterMap Segment.demand? =
      xs.filterMap Segment.demand? ++ ys.filterMap Segment.demand? := by
  fun_induction joined xs ys with
  | case1 ys => rfl
  | case2 a b ys => rfl
  | case3 x xs ys _ ih => rw [List.filterMap_cons, List.filterMap_cons, ih]; split <;> rfl

private theorem codeLength_le_of_mem_joined {limit : Nat} {xs ys : List Segment}
    (hx : ∀ s ∈ xs, s.codeLength ≤ limit) (hy : ∀ s ∈ ys, s.codeLength ≤ limit) :
    ∀ s ∈ joined xs ys, s.codeLength ≤ limit := by
  fun_induction joined xs ys with
  | case1 ys => exact hy
  | case2 a b ys => simpa [Segment.codeLength] using hy
  | case3 x xs ys _ ih =>
    intro s hs
    rcases List.mem_cons.mp hs with rfl | hs
    · exact hx s (by simp)
    · exact ih (fun s hs => hx s (by simp [hs])) hy s hs

/-- If the first arguments are as many as the first segments take, the second ones find theirs. -/
private theorem flatMap_shares_joined {α : Type} (f : Share → List α)
    (hf : ∀ a b, f ⟨a ++ b, []⟩ = f ⟨a, []⟩ ++ f ⟨b, []⟩) {a₁ : List Argument} {xs : List Segment}
    (hn : a₁.length = xs.countP Segment.takesArgument) (a₂ : List Argument) (ys : List Segment) :
    (shares (a₁ ++ a₂) (joined xs ys)).flatMap f =
      (shares a₁ xs).flatMap f ++ (shares a₂ ys).flatMap f := by
  fun_induction joined xs ys generalizing a₁ with
  | case1 ys =>
    obtain rfl : a₁ = [] := by simpa using hn
    rfl
  | case2 a b ys =>
    obtain rfl : a₁ = [] := by simpa [Segment.takesArgument] using hn
    simp [shares_cons, shares_nil, Segment.share, Segment.left, Segment.takesArgument, hf]
  | case3 x xs ys _ ih =>
    rw [shares_cons, shares_cons, List.flatMap_cons, List.flatMap_cons, List.append_assoc]
    rw [List.countP_cons] at hn
    cases hx : x.takesArgument with
    | false =>
      -- the argument in front may be one of the second arguments, but it is not looked at
      rw [Segment.share_eq_of_not_takesArgument hx _ a₁.head?]
      simp only [Segment.left, hx, Bool.false_eq_true, if_false] at hn ⊢
      rw [ih hn]
    | true =>
      obtain ⟨arg, a₁, rfl⟩ : ∃ arg rest, a₁ = arg :: rest := by
        cases a₁ with
        | nil => simp [hx] at hn
        | cons arg rest => exact ⟨arg, rest, rfl⟩
      simp only [Segment.left, hx, if_true, List.length_cons, Nat.add_right_cancel_iff] at hn ⊢
      rw [List.cons_append, List.tail_cons, List.tail_cons, ih hn]
      rfl

theorem length_requiredArguments (t : Bytes) :
    (requiredArguments t).length = (segments t).countP Segment.takesArgument := by
  refine (List.length_filterMap_eq_countP ..).trans ?_
  exact List.countP_congr fun s _ => by rw [← Segment.isSome_demand?]; rfl

private theorem rendering_joined {t₁ t₂ : Bytes} {a₁ : List Argument} (a₂ : List Argument)
    (hs : segments (t₁ ++ t₂) = joined (segments t₁) ((segments t₂).map (.moved t₁.length)))
    (hn : a₁.length = (segments t₁).countP Segment.takesArgument) :
    rendering (t₁ ++ t₂) (a₁ ++ a₂) =
      ⟨(rendering t₁ a₁).bytes ++ (rendering t₂ a₂).bytes, (rendering t₁ a₁).diagnostics ++
        (rendering t₂ a₂).diagnostics.map fun d => { d with offset := d.offset + t₁.length }⟩ := by
  unfold rendering
  rw [hs, flatMap_shares_joined _ (fun _ _ => rfl) hn, flatMap_shares_joined _ (fun _ _ => rfl) hn,
    shares_moved, List.flatMap_map, List.flatMap_map, List.map_flatMap]
  rfl

/-- Templates are formatted one behind the other as they are formatted alone, if the first one has
no NUL, leaves no directive open, and gets as many arguments as it takes. Only the offsets of the
second one are counted from elsewhere. -/
theorem formatWith_append (p : Session) (o : Options) (t₁ t₂ : Bytes) (a₁ a₂ : List Argument)
    (h₀ : (0 : UInt8) ∉ t₁)
    (hc : ∀ code ∈ ((segments t₁).filterMap Segment.code?).getLast?, Closed code)
    (hn : a₁.length = (requiredArguments t₁).length) :
    requiredArguments (t₁ ++ t₂) = requiredArguments t₁ ++ requiredArguments t₂ ∧
    ∀ (p₁ p₂ : Session) (f₁ f₂ : Formatted),
      (p₁.formatWith o t₁ a₁).1 = .ok f₁ → (p₂.formatWith o t₂ a₂).1 = .ok f₂ →
      f₁.bytes.length + f₂.bytes.length ≤ o.maxOutput →
      (p.formatWith o (t₁ ++ t₂) (a₁ ++ a₂)).1 = .ok ⟨f₁.bytes ++ f₂.bytes, f₁.diagnostics ++
        f₂.diagnostics.map fun d => { d with offset := d.offset + t₁.length }⟩ := by
  have hs := segments_append h₀ hc t₂
  constructor
  · have hm : ((segments t₂).map (.moved t₁.length)).filterMap Segment.demand? =
        requiredArguments t₂ := by
      rw [List.filterMap_map]
      exact congrArg (List.filterMap · (segments t₂)) (funext (demand?_moved t₁.length))
    have hj := filterMap_demand?_joined (segments t₁) ((segments t₂).map (.moved t₁.length))
    rw [hm, ← hs] at hj
    exact hj
  · intro p₁ p₂ f₁ f₂ h₁ h₂ hroom
    rw [length_requiredArguments] at hn
    obtain ⟨fits₁, rfl, quiet₁⟩ := formatWith_returns_iff.mp h₁
    obtain ⟨fits₂, rfl, quiet₂⟩ := formatWith_returns_iff.mp h₂
    have hr := rendering_joined a₂ hs hn
    refine formatWith_returns_iff.mpr ⟨⟨?_, ?_⟩, hr.symm, ?_⟩
    · rw [hs]
      apply codeLength_le_of_mem_joined fits₁.codes
      intro s hmem
      obtain ⟨x, hx, rfl⟩ := List.mem_map.mp hmem
      cases x with
      | literal run => exact Nat.zero_le _
      | directive offset code => exact fits₂.codes (.directive offset code) hx
    · have hb := congrArg (fun f : Formatted => f.bytes.length) hr
      simp only [List.length_append] at hb
      exact Nat.le_trans (Nat.le_of_eq hb) hroom
    · intro hp
      simp [quiet₁ hp, quiet₂ hp]

/-- Two literal runs meet at the seam, the first template complains about an argument that it uses
up all the same, and the second one ends with a percent sign. -/
theorem formatWith_append_at_seam :
    ((Session.start {}).formatWith {} (Utf8.encode "a%-2d%qb" ++ Utf8.encode "c%5s%")
        ([.char 0x78] ++ [.text (Utf8.encode "hi")])).1 =
      .ok ⟨Utf8.encode "abc   hi", [⟨.malformedWidthDigit 0x2D, 1⟩, ⟨.argumentMismatch .int .char, 1⟩,
        ⟨.unknownConversion 0x71, 5⟩, ⟨.emptyDirective, 12⟩]⟩ := by
  have first : ((Session.start {}).formatWith {} (Utf8.encode "a%-2d%qb") [.char 0x78]).1 =
      .ok ⟨Utf8.encode "ab", [⟨.malformedWidthDigit 0x2D, 1⟩, ⟨.argumentMismatch .int .char, 1⟩,
        ⟨.unknownConversion 0x71, 5⟩]⟩ :=
    (formatWith_eq_ok_iff rfl).mpr ⟨⟨by decide +kernel, by decide +kernel⟩, by decide +kernel⟩
  have second : ((Session.start {}).formatWith {} (Utf8.encode "c%5s%")
      [.text (Utf8.encode "hi")]).1 = .ok ⟨Utf8.encode "c   hi", [⟨.emptyDirective, 4⟩]⟩ :=
    (formatWith_eq_ok_iff rfl).mpr ⟨⟨by decide +kernel, by decide +kernel⟩, by decide +kernel⟩
  have both := (formatWith_append (.start {}) {} _ _ [.char 0x78] [.text (Utf8.encode "hi")]
    (by decide +kernel) (by decide +kernel) (by decide +kernel)).2 _ _ _ _ first second
    (by decide +kernel)
  exact both.trans (congrArg Except.ok (by decide +kernel))

end PercentFormat
