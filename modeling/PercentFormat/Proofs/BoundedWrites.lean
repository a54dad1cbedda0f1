import PercentFormat.Proofs.Step

/-! Runs of writes to a buffer with a limit. No size that is computed on the way leaves its range; a
write is refused exactly when it does not fit at that moment, and what was accepted stands in the
buffer, one write behind the other. -/

namespace PercentFormat

/-- The bytes that a write is to append. -/
def Buffer.Write.bytes : Buffer.Write → Bytes
  | .push byte => [byte]
  | .extend bytes => bytes
  | .pad byte count => List.replicate count byte

namespace RawBuffer

/-- The contents are within the limit, and the limit is within 64 bits. Every write relies on this and
keeps it. -/
structure Sound (b : RawBuffer) : Prop where
  size_le : b.data.size ≤ b.limit
  limit_le : b.limit ≤ maxSize

/-- What a write does to a sound buffer: it is refused if it does not fit, and appends its bytes if it
does. -/
def outcome (b : RawBuffer) (w : Buffer.Write) : Option Overflow × RawBuffer :=
  if b.limit - b.data.size < w.bytes.length then (some ⟨b.limit⟩, b)
  else (none, { b with data := b.data ++ w.bytes.toArray })

section
variable {b : RawBuffer}

/-- A change that appends the bytes of a write whenever they fit carries out that write. -/
theorem Sound.within? (h : b.Sound) (w : Buffer.Write) {count : Nat} (hcount : w.bytes.length = count)
    {change : Array UInt8 → Option (Array UInt8)}
    (hchange : count ≤ b.limit - b.data.size →
      change b.data = some (b.data ++ w.bytes.toArray)) :
    b.within? count change = some (b.outcome w) := by
  rw [RawBuffer.within?, remaining?, difference?_of_le h.size_le, Option.bind_eq_bind,
    Option.bind_some, outcome, hcount]
  split
  · rfl
  · next hfits =>
    rw [hchange (Nat.le_of_not_lt hfits)]
    rfl

private theorem resized_add (data : Array UInt8) (count : Nat) (byte : UInt8) :
    resized data (data.size + count) byte = data ++ Array.replicate count byte := by
  have htake : data.take (data.size + count) = data :=
    Array.extract_eq_self_of_le (Nat.le_add_right data.size count)
  rw [resized, Nat.add_sub_cancel_left, htake]

/-- Neither the room that is left nor the size after padding leaves its range. -/
theorem Sound.write? (h : b.Sound) (w : Buffer.Write) : b.write? w = some (b.outcome w) := by
  cases w with
  | push byte =>
    rw [RawBuffer.write?]
    apply h.within? (.push byte) rfl
    intro _
    simp [Buffer.Write.bytes]
  | extend bytes =>
    rw [RawBuffer.write?]
    apply h.within? (.extend bytes) rfl
    intro _
    rfl
  | pad byte count =>
    rw [RawBuffer.write?]
    apply h.within? (.pad byte count) List.length_replicate
    intro hfits
    have hsize : b.data.size + count ≤ maxSize := by
      have := h.size_le
      have := h.limit_le
      omega
    rw [sized?_of_le hsize, Option.map_some, resized_add, Buffer.Write.bytes,
      List.toArray_replicate]

private theorem limit_outcome (b : RawBuffer) (w : Buffer.Write) : (b.outcome w).2.limit = b.limit := by
  unfold outcome
  split
  · rfl
  · rfl

private theorem refusal_outcome (b : RawBuffer) (w : Buffer.Write) :
    (b.outcome w).1 =
      if b.limit - b.toList.length < w.bytes.length then some ⟨b.limit⟩ else none := by
  unfold outcome
  split
  · next hrefused => exact (if_pos hrefused).symm
  · next hfits => exact (if_neg hfits).symm

private theorem toList_outcome (b : RawBuffer) (w : Buffer.Write) :
    (b.outcome w).2.toList =
      if (b.outcome w).1 = none then b.toList ++ w.bytes else b.toList := by
  unfold outcome
  split
  · rfl
  · simp [toList]

theorem Sound.outcome (h : b.Sound) (w : Buffer.Write) : (b.outcome w).2.Sound := by
  refine ⟨?_, (limit_outcome b w).symm ▸ h.limit_le⟩
  have := h.size_le
  unfold RawBuffer.outcome
  split
  · exact h.size_le
  · simp only [Array.size_append, List.size_toArray]
    omega

end

/-- What a buffer holds after the first `n` steps of a run that found `start` in it. -/
def held (start : Bytes) (steps : List (Option Overflow × RawBuffer)) (n : Nat) : Bytes :=
  (start :: steps.map (·.2.toList)).getD n []

/-- The bytes of the accepted writes of a run, one write behind the other. -/
def accepted (writes : List Buffer.Write) (steps : List (Option Overflow × RawBuffer)) : Bytes :=
  ((writes.zip steps).filter (·.2.1.isNone)).flatMap (·.1.bytes)

/-- The law of a run of writes to a buffer that holds `start`. -/
structure Lawful (limit : Nat) (start : Bytes) (writes : List Buffer.Write)
    (steps : List (Option Overflow × RawBuffer)) : Prop where
  /-- The contents are never more than the limit. -/
  within : ∀ n ≤ writes.length, (held start steps n).length ≤ limit
  /-- A write is refused with the limit exactly when it has more bytes than there is room for then.
  A refused write changes nothing, and another one is put behind what is there. -/
  step : ∀ n w, writes[n]? = some w → ∃ refusal after, steps[n]? = some (refusal, after) ∧
    refusal = (if limit - (held start steps n).length < w.bytes.length then some ⟨limit⟩ else none) ∧
    after.toList = if refusal = none then held start steps n ++ w.bytes else held start steps n
  /-- In the end the buffer holds what was accepted, and nothing else. -/
  final : held start steps writes.length = start ++ accepted writes steps

section
variable {limit : Nat} {start : Bytes}

private theorem lawful_nil (h : start.length ≤ limit) : Lawful limit start [] [] where
  within n hn := by
    rw [List.length_nil, Nat.le_zero] at hn
    subst hn
    exact h
  step n w hw := nomatch hw
  final := (List.append_nil start).symm

/-- A run is lawful if its first step is, and what follows is from there on. -/
theorem Lawful.cons {w : Buffer.Write} {writes : List Buffer.Write}
    {first : Option Overflow × RawBuffer} {steps : List (Option Overflow × RawBuffer)}
    (hstart : start.length ≤ limit)
    (hrefusal : first.1 = if limit - start.length < w.bytes.length then some ⟨limit⟩ else none)
    (hafter : first.2.toList = if first.1 = none then start ++ w.bytes else start)
    (h : Lawful limit first.2.toList writes steps) :
    Lawful limit start (w :: writes) (first :: steps) where
  within n hn := by
    cases n with
    | zero => exact hstart
    | succ n => exact h.within n (Nat.le_of_succ_le_succ hn)
  step n v hv := by
    cases n with
    | zero =>
      cases hv
      exact ⟨first.1, first.2, rfl, hrefusal, hafter⟩
    | succ n => exact h.step n v hv
  final := by
    obtain ⟨refusal, after⟩ := first
    refine h.final.trans ?_
    rw [hafter]
    cases refusal with
    | none => simp [accepted]
    | some refusal => simp [accepted]

end

/-- A sound buffer takes any run of writes, and the run is lawful. -/
theorem Sound.lawful {b : RawBuffer} (h : b.Sound) (writes : List Buffer.Write) :
    ∃ steps, b.writeAll? writes = some steps ∧ Lawful b.limit b.toList writes steps := by
  induction writes generalizing b with
  | nil => exact ⟨[], rfl, lawful_nil h.size_le⟩
  | cons w writes ih =>
    obtain ⟨steps, hrun, hlaw⟩ := ih (h.outcome w)
    rw [limit_outcome] at hlaw
    refine ⟨b.outcome w :: steps, ?_, ?_⟩
    · rw [writeAll?, h.write? w]
      simp [hrun]
    · exact hlaw.cons h.size_le (refusal_outcome b w) (toList_outcome b w)

end RawBuffer

namespace Buffer

/-- The buffer without the proof that it is within its limit. -/
def raw (b : Buffer) : RawBuffer := ⟨b.limit, b.data⟩

private theorem push_eq_extend (b : Buffer) (byte : UInt8) : b.push byte = b.extend [byte] := by
  unfold push extend
  simp

private theorem write_eq_extend (b : Buffer) (w : Write) : b.write w = b.extend w.bytes := by
  cases w with
  | push byte => exact b.push_eq_extend byte
  | extend bytes => rfl
  | pad byte count => exact b.pad_eq_extend byte count

/-- With or without the proof, a write does the same to a buffer. -/
private theorem outcome_raw (b : Buffer) (w : Write) :
    b.raw.outcome w = match b.write w with
      | .ok after => (none, after.raw)
      | .error refusal => (some refusal, b.raw) := by
  have hroom : b.raw.limit - b.raw.data.size = b.remaining := rfl
  rw [write_eq_extend, RawBuffer.outcome, hroom]
  by_cases hfits : w.bytes.length ≤ b.remaining
  · obtain ⟨after, hextend, hlimit, hlist⟩ := b.extend_of_le w.bytes hfits
    have hdata : after.data = b.data ++ w.bytes.toArray := by
      apply Array.toList_inj.1
      simpa [toList] using hlist
    rw [hextend, if_neg (Nat.not_lt_of_le hfits)]
    simp only [raw, hdata, hlimit]
  · have hrefused := Nat.lt_of_not_le hfits
    rw [b.extend_of_lt w.bytes hrefused, if_pos hrefused]
    rfl

theorem writeAll?_raw (b : Buffer) (hlimit : b.limit ≤ maxSize) (writes : List Write) :
    b.raw.writeAll? writes =
      some ((b.writeAll writes).map fun step => (step.1, step.2.raw)) := by
  induction writes generalizing b with
  | nil => rfl
  | cons w writes ih =>
    have hsound : b.raw.Sound := ⟨b.size_le, hlimit⟩
    have hsame := RawBuffer.limit_outcome b.raw w
    rw [outcome_raw] at hsame
    rw [RawBuffer.writeAll?, hsound.write? w, outcome_raw]
    cases hwrite : b.write w with
    | ok after =>
      rw [hwrite] at hsame
      have hafter : after.limit = b.limit := hsame
      simp [writeAll, hwrite, ih after (hafter ▸ hlimit)]
    | error refusal => simp [writeAll, hwrite, ih b hlimit]

end Buffer

/-- Runs of writes to an empty buffer, for any limit of 64 bits: no step leaves the range of sizes, and
the run is the one of the buffer that carries its proof. The contents are never more than the limit, a
write is refused exactly when it does not fit at that moment and changes nothing then, and in the end
the buffer holds the accepted writes in their order. -/
theorem RawBuffer.writeAll?_lawful (limit : Nat) (hlimit : limit ≤ maxSize)
    (writes : List Buffer.Write) :
    ∃ steps, (RawBuffer.empty limit).writeAll? writes = some steps ∧
      steps = ((Buffer.empty limit).writeAll writes).map (fun step => (step.1, step.2.raw)) ∧
      Lawful limit [] writes steps := by
  have hsound : (RawBuffer.empty limit).Sound := ⟨Nat.zero_le limit, hlimit⟩
  obtain ⟨steps, hrun, hlaw⟩ := hsound.lawful writes
  refine ⟨steps, hrun, ?_, hlaw⟩
  apply Option.some.inj
  rw [← hrun]
  exact (Buffer.empty limit).writeAll?_raw hlimit writes

/-- At the largest limit there is, a padding whose end would have no size is refused, and the writes
behind it are not. -/
theorem RawBuffer.writeAll?_lawful_largest :
    ∃ steps, (RawBuffer.empty 18446744073709551615).writeAll?
        [.push 0x61, .pad 0x20 18446744073709551615, .pad 0x20 2, .extend [0x62, 0x63]] = some steps ∧
      steps.map (·.1) = [none, some ⟨18446744073709551615⟩, none, none] ∧
      held [] steps 4 = [0x61, 0x20, 0x20, 0x62, 0x63] ∧
      Lawful 18446744073709551615 []
        [.push 0x61, .pad 0x20 18446744073709551615, .pad 0x20 2, .extend [0x62, 0x63]] steps := by
  obtain ⟨steps, hrun, -, hlaw⟩ := RawBuffer.writeAll?_lawful 18446744073709551615 (by decide)
    [.push 0x61, .pad 0x20 18446744073709551615, .pad 0x20 2, .extend [0x62, 0x63]]
  have hsteps : steps =
      [(none, ⟨18446744073709551615, #[0x61]⟩),
        (some ⟨18446744073709551615⟩, ⟨18446744073709551615, #[0x61]⟩),
        (none, ⟨18446744073709551615, #[0x61, 0x20, 0x20]⟩),
        (none, ⟨18446744073709551615, #[0x61, 0x20, 0x20, 0x62, 0x63]⟩)] :=
    Option.some.inj (hrun.symm.trans (by decide +kernel))
  subst hsteps
  exact ⟨_, hrun, rfl, rfl, hlaw⟩

end PercentFormat
