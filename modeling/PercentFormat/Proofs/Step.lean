import PercentFormat.Proofs.Share

/-! One step of a formatting call: diagnostics of a segment first, then its fragment, as one write. -/

namespace PercentFormat

theorem ok_bind {ε α β : Type} (a : α) (f : α → Except ε β) : (Except.ok a >>= f) = f a := rfl

theorem error_bind {ε α β : Type} (e : ε) (f : α → Except ε β) :
    (Except.error e >>= f) = Except.error e := rfl

theorem exists_of_bind_ok {ε α β : Type} {x : Except ε α} {f : α → Except ε β} {b : β}
    (h : (x >>= f) = .ok b) : ∃ a, x = .ok a ∧ f a = .ok b := by
  cases x with
  | error e => cases h
  | ok a => exact ⟨a, rfl, h⟩

theorem ok_of_toOption {ε α : Type} {x : Except ε α} {a : α} (h : x.toOption = some a) :
    x = .ok a := by
  cases x with
  | error e => cases h
  | ok b => cases h; rfl

namespace Buffer

theorem eq_of_toList {a b : Buffer} (hl : a.limit = b.limit) (ht : a.toList = b.toList) : a = b := by
  obtain ⟨la, da, ha⟩ := a
  obtain ⟨lb, db, hb⟩ := b
  obtain rfl : la = lb := hl
  obtain rfl : da = db := Array.toList_inj.mp ht
  rfl

theorem extend_of_le (b : Buffer) (bytes : Bytes) (h : bytes.length ≤ b.remaining) :
    ∃ after, b.extend bytes = .ok after ∧ after.limit = b.limit ∧
      after.toList = b.toList ++ bytes := by
  unfold extend
  rw [dif_pos h]
  exact ⟨_, rfl, rfl, by simp [toList]⟩

theorem extend_of_lt (b : Buffer) (bytes : Bytes) (h : b.remaining < bytes.length) :
    b.extend bytes = .error ⟨b.limit⟩ := by
  unfold extend
  rw [dif_neg (Nat.not_le.mpr h)]

theorem pad_eq_extend (b : Buffer) (byte : UInt8) (count : Nat) :
    b.pad byte count = b.extend (List.replicate count byte) := by
  unfold pad extend
  simp

/-- Two runs of bytes are taken in turn exactly when both together fit. -/
theorem extend_bind_extend (b : Buffer) (first second : Bytes) :
    (b.extend first).bind (·.extend second) = b.extend (first ++ second) := by
  have hr := b.remaining_eq
  by_cases hf : first.length ≤ b.remaining
  · obtain ⟨mid, he, hl, ht⟩ := b.extend_of_le first hf
    have hm : mid.remaining = b.remaining - first.length := by
      rw [mid.remaining_eq, hl, ht, hr, List.length_append]
      omega
    rw [he]
    by_cases hs : second.length ≤ mid.remaining
    · obtain ⟨last, he', hl', ht'⟩ := mid.extend_of_le second hs
      obtain ⟨both, he'', hl'', ht''⟩ := b.extend_of_le (first ++ second)
        (by rw [List.length_append]; omega)
      rw [he'']
      refine he'.trans (congrArg _ (eq_of_toList ?_ ?_))
      · rw [hl', hl, hl'']
      · rw [ht', ht, ht'', List.append_assoc]
    · have hb : b.remaining < (first ++ second).length := by rw [List.length_append]; omega
      rw [b.extend_of_lt _ hb]
      refine (mid.extend_of_lt _ (by omega)).trans ?_
      rw [hl]
  · have hb : b.remaining < (first ++ second).length := by rw [List.length_append]; omega
    rw [b.extend_of_lt _ (by omega), b.extend_of_lt _ hb]
    rfl

end Buffer

namespace Run

/-- A field is written as one run of bytes would be. -/
theorem pad_bind_write (r : Run) (width : Nat) (body : Bytes) :
    (r.pad (width - body.length) >>= fun padded => padded.write body) =
      r.write (rightAligned width body) := by
  have hblanks : rightAligned width body =
      List.replicate (width - body.length) blank ++ body := rfl
  unfold pad write
  rw [hblanks, Buffer.pad_eq_extend, ← Buffer.extend_bind_extend]
  cases r.out.extend (List.replicate (width - body.length) blank) <;> rfl

theorem write_of_le (b : Buffer) (bytes : Bytes) (h : bytes.length ≤ b.remaining) :
    ∃ out : Buffer, (∀ args ds p, write ⟨args, b, ds, p⟩ bytes = .ok ⟨args, out, ds, p⟩) ∧
      out.limit = b.limit ∧ out.toList = b.toList ++ bytes ∧
      out.remaining = b.remaining - bytes.length := by
  obtain ⟨out, he, hl, ht⟩ := b.extend_of_le bytes h
  refine ⟨out, fun args ds p => by simp only [write, he], hl, ht, ?_⟩
  rw [out.remaining_eq, b.remaining_eq, hl, ht, List.length_append]
  omega

theorem write_of_lt (b : Buffer) (bytes : Bytes) (h : b.remaining < bytes.length)
    (args : List Argument) (ds : Array Diagnostic) (p : Session) :
    write ⟨args, b, ds, p⟩ bytes = .error ⟨.outputTooLarge b.limit, p⟩ := by
  simp only [write, b.extend_of_lt bytes h, fail]

private theorem write_nil (r : Run) : r.write [] = .ok r := by
  obtain ⟨after, he, hl, ht⟩ := r.out.extend_of_le [] (Nat.zero_le _)
  obtain rfl : after = r.out := Buffer.eq_of_toList hl (by simpa using ht)
  simp only [write, he]

private theorem raise_withArgs (o : Options) (r : Run) (d : Diagnostic) (args : List Argument) :
    { r with args }.raise o d = (r.raise o d).map ({ · with args }) := by
  unfold raise
  cases o.policy <;> rfl

/-- Diagnostics do not look at the arguments. -/
private theorem foldlM_raise_withArgs (o : Options) (r : Run) (ds : List Diagnostic)
    (args : List Argument) :
    ds.foldlM (raise o) { r with args } = (ds.foldlM (raise o) r).map ({ · with args }) := by
  induction ds generalizing r with
  | nil => rfl
  | cons d ds ih =>
    rw [List.foldlM_cons, List.foldlM_cons, raise_withArgs]
    cases r.raise o d with
    | error f => rfl
    | ok told => exact ih told

private theorem args_of_foldlM_raise {o : Options} {r told : Run} {ds : List Diagnostic}
    (h : ds.foldlM (raise o) r = .ok told) : told.args = r.args := by
  have := foldlM_raise_withArgs o r ds r.args
  rw [h, Except.map] at this
  simpa using congrArg Run.args (Except.ok.inj this)

private theorem settle_complaint (o : Options) (r : Run) (offset : Nat) (kind : Diagnostic.Kind) :
    ((Share.complaint offset kind).diagnostics.foldlM (raise o) r >>= fun told =>
      told.write (Share.complaint offset kind).fragment) = r.raise o ⟨kind, offset⟩ := by
  simp only [Share.complaint, List.foldlM_cons, List.foldlM_nil, write_nil]
  cases r.raise o ⟨kind, offset⟩ <;> rfl

theorem convert_eq (o : Options) (r : Run) (offset width : Nat) (letter : UInt8) :
    r.convert o offset width (.ofLetter letter) =
      ((Share.ofLetter offset width letter r.args.head?).diagnostics.foldlM (raise o)
        { r with args := if (Conversion.ofLetter letter).expected?.isSome then r.args.tail else r.args }
      >>= fun told => told.write (Share.ofLetter offset width letter r.args.head?).fragment) := by
  rw [Share.ofLetter_eq]
  unfold convert
  cases h : (Conversion.ofLetter letter).expected? with
  | none =>
    rw [Conversion.ofLetter_of_not_expected h]
    exact (settle_complaint ..).symm
  | some k =>
    rw [Conversion.apply_of_expected h]
    cases r.args.head? with
    | none => exact (settle_complaint ..).symm
    | some arg =>
      by_cases hk : arg.kind = k
      · simp only [Share.ofArgument, hk, if_true]
        exact pad_bind_write ..
      · simp only [Share.ofArgument, hk, if_false]
        exact (settle_complaint ..).symm

/-- A directive with a letter complains about its width before it takes its argument. -/
private theorem settle_directive {o : Options} {r : Run} {offset : Nat} {width : Bytes} {letter : UInt8}
    (hp : width ++ [letter] ≠ [percentSign]) :
    ((width.filter (!isDigit ·)).foldlM (fun r b => r.raise o ⟨.malformedWidthDigit b, offset⟩) r
      >>= fun told => told.convert o offset (widthOf width) (.ofLetter letter)) =
    let s := Segment.directive offset (width ++ [letter])
    ((s.share r.args.head?).diagnostics.foldlM (raise o) { r with args := s.left r.args }
      >>= fun told => told.write (s.share r.args.head?).fragment) := by
  simp only [Segment.share_concat hp, Segment.left, Segment.takesArgument_concat, List.foldlM_append,
    bind_assoc]
  rw [foldlM_raise_withArgs, ← List.foldlM_map (g := (raise o))
    (f := fun b => (⟨.malformedWidthDigit b, offset⟩ : Diagnostic))]
  cases h : ((width.filter (!isDigit ·)).map (⟨.malformedWidthDigit ·, offset⟩)).foldlM (raise o) r with
  | error f => rfl
  | ok told =>
    refine (convert_eq ..).trans ?_
    rw [args_of_foldlM_raise h]
    rfl

/-- One segment: its length is checked, then its diagnostics are raised in order, and then its
fragment is written. -/
theorem step_eq (o : Options) (r : Run) (s : Segment) :
    r.step o s =
      match s.tooLong? o.maxDirective with
      | some offset => r.fail (.directiveTooLong offset o.maxDirective)
      | none =>
        (s.share r.args.head?).diagnostics.foldlM (raise o) { r with args := s.left r.args }
          >>= fun told => told.write (s.share r.args.head?).fragment := by
  cases s with
  | literal run => rfl
  | directive offset code =>
    simp only [step, Segment.tooLong?]
    split
    · rfl
    · obtain rfl | ⟨width, letter, rfl⟩ := code.eq_nil_or_concat
      · exact (settle_complaint ..).symm
      · rw [List.concat_eq_append]
        by_cases hp : width ++ [letter] = [percentSign]
        · rw [hp]
          exact pad_bind_write r 0 [percentSign]
        · rw [Directive.parse?_concat hp]
          exact settle_directive hp

end Run

end PercentFormat
