import PercentFormat.Bytes

/-! The bytes of a text: an ASCII character is one byte, and no byte of another character is ASCII. -/

namespace PercentFormat.Utf8

/-- The bytes of a run of characters. -/
def encodeChars (cs : List Char) : Bytes := cs.flatMap String.utf8EncodeChar

theorem encode_ofList (cs : List Char) : encode (String.ofList cs) = encodeChars cs := by
  rw [encode, String.toList_ofList, encodeChars]

theorem encode_append (s t : String) : encode (s ++ t) = encode s ++ encode t := by
  rw [encode, String.toList_append, List.flatMap_append, encode, encode]

theorem encodeChars_cons (c : Char) (cs : List Char) :
    encodeChars (c :: cs) = String.utf8EncodeChar c ++ encodeChars cs := rfl

theorem encodeChars_append (cs ds : List Char) :
    encodeChars (cs ++ ds) = encodeChars cs ++ encodeChars ds :=
  List.flatMap_append

theorem encodeChar_ascii {c : Char} (h : c.toNat < 0x80) :
    String.utf8EncodeChar c = [UInt8.ofNat c.toNat] := by
  have hv : c.val.toNat ≤ 0x7f := Nat.le_of_lt_succ h
  simp only [String.utf8EncodeChar, hv, if_true]
  rfl

theorem encodeChars_ascii {cs : List Char} (h : ∀ c ∈ cs, c.toNat < 0x80) :
    encodeChars cs = cs.map fun c => UInt8.ofNat c.toNat := by
  induction cs with
  | nil => rfl
  | cons c cs ih =>
    rw [encodeChars_cons, encodeChar_ascii (h c (by simp)), ih fun x hx => h x (by simp [hx])]
    rfl

theorem length_encodeChars_ascii {cs : List Char} (h : ∀ c ∈ cs, c.toNat < 0x80) :
    (encodeChars cs).length = cs.length := by
  rw [encodeChars_ascii h, List.length_map]

theorem toNat_ofNat_ascii {n : Nat} (h : n < 0x80) : (UInt8.ofNat n).toNat = n :=
  UInt8.toNat_ofNat_of_lt' (Nat.lt_trans h (by decide))

private theorem high_ofNat {n : Nat} (hl : 0x80 ≤ n) (hu : n < 0x100) :
    0x80 ≤ (UInt8.ofNat n).toNat := by
  rwa [UInt8.toNat_ofNat_of_lt' hu]

theorem high_of_mem_encodeChar {c : Char} (h : 0x80 ≤ c.toNat) {b : UInt8}
    (hb : b ∈ String.utf8EncodeChar c) : 0x80 ≤ b.toNat := by
  have hv : ¬ c.val.toNat ≤ 0x7f := Nat.not_le.mpr h
  simp only [String.utf8EncodeChar, hv, if_false] at hb
  -- a leading byte lies above 0xC0, and a continuation byte between 0x80 and 0xBF
  split at hb
  · simp only [List.mem_cons, List.not_mem_nil, or_false] at hb
    rcases hb with rfl | rfl <;> exact high_ofNat (by omega) (by omega)
  · split at hb
    · simp only [List.mem_cons, List.not_mem_nil, or_false] at hb
      rcases hb with rfl | rfl | rfl <;> exact high_ofNat (by omega) (by omega)
    · simp only [List.mem_cons, List.not_mem_nil, or_false] at hb
      rcases hb with rfl | rfl | rfl | rfl <;> exact high_ofNat (by omega) (by omega)

/-- An ASCII byte stands only where its character does. -/
theorem ne_of_mem_encodeChar {c x : Char} (hx : x.toNat < 0x80) (hne : c ≠ x) {b : UInt8}
    (hb : b ∈ String.utf8EncodeChar c) : b ≠ UInt8.ofNat x.toNat := by
  rintro rfl
  have hxb := toNat_ofNat_ascii hx
  by_cases hc : c.toNat < 0x80
  · rw [encodeChar_ascii hc, List.mem_singleton] at hb
    exact hne (Char.toNat_inj.mp (by rw [← toNat_ofNat_ascii hc, ← hb, hxb]))
  · have := high_of_mem_encodeChar (Nat.le_of_not_lt hc) hb
    omega

/-- An ASCII byte in front is the byte of the first character. -/
theorem encodeChars_eq_cons {cs : List Char} {b : UInt8} {tail : Bytes} (hb : b.toNat < 0x80)
    (h : encodeChars cs = b :: tail) :
    ∃ c rest, cs = c :: rest ∧ c.toNat = b.toNat ∧ encodeChars rest = tail := by
  cases cs with
  | nil => cases h
  | cons c rest =>
    rw [encodeChars_cons] at h
    by_cases hc : c.toNat < 0x80
    · rw [encodeChar_ascii hc, List.singleton_append] at h
      obtain ⟨rfl, htail⟩ := List.cons.inj h
      exact ⟨c, rest, rfl, (toNat_ofNat_ascii hc).symm, htail⟩
    · -- the first byte of another character is not ASCII
      obtain ⟨x, xs, hx⟩ := List.exists_cons_of_ne_nil (String.utf8EncodeChar_ne_nil (c := c))
      rw [hx, List.cons_append] at h
      obtain ⟨rfl, -⟩ := List.cons.inj h
      have := high_of_mem_encodeChar (Nat.le_of_not_lt hc) (b := x) (by simp [hx])
      omega

theorem encodeChars_eq_append {cs : List Char} {front tail : Bytes}
    (hf : ∀ b ∈ front, b.toNat < 0x80) (h : encodeChars cs = front ++ tail) :
    ∃ before rest, cs = before ++ rest ∧ (∀ c ∈ before, c.toNat < 0x80) ∧
      encodeChars before = front ∧ encodeChars rest = tail := by
  induction front generalizing cs with
  | nil => exact ⟨[], cs, rfl, by simp, rfl, h⟩
  | cons b front ih =>
    obtain ⟨c, later, rfl, hc, hlater⟩ := encodeChars_eq_cons (hf b (by simp)) h
    obtain ⟨before, rest, rfl, hascii, hfront, htail⟩ := ih (fun x hx => hf x (by simp [hx])) hlater
    have hcb : c.toNat < 0x80 := hc ▸ hf b (by simp)
    refine ⟨c :: before, rest, rfl, by simpa [hcb] using hascii, ?_, htail⟩
    rw [encodeChars_cons, encodeChar_ascii hcb, hfront, hc, UInt8.ofNat_toNat]
    rfl

/-- An ASCII byte is all of a character, wherever it stands. -/
theorem encodeChars_eq_append_cons {cs : List Char} {front tail : Bytes} {b : UInt8}
    (hb : b.toNat < 0x80) (h : encodeChars cs = front ++ b :: tail) :
    ∃ before c rest, cs = before ++ c :: rest ∧ encodeChars before = front ∧
      String.utf8EncodeChar c = [b] ∧ encodeChars rest = tail := by
  induction cs generalizing front with
  | nil => simp [encodeChars] at h
  | cons c cs ih =>
    rw [encodeChars_cons] at h
    rcases List.append_eq_append_iff.mp h with ⟨later, rfl, hlater⟩ | ⟨inner, hchar, hinner⟩
    · obtain ⟨before, d, rest, rfl, rfl, hd, rfl⟩ := ih hlater
      exact ⟨c :: before, d, rest, rfl, rfl, hd, rfl⟩
    · cases inner with
      | nil =>
        -- the byte is the first one behind this character
        obtain ⟨before, d, rest, rfl, hbefore, hd, rfl⟩ := @ih [] hinner.symm
        refine ⟨c :: before, d, rest, rfl, ?_, hd, rfl⟩
        rw [encodeChars_cons, hbefore, hchar, List.append_nil, List.append_nil]
      | cons x inner =>
        -- the byte belongs to this character, which has no other one then
        obtain ⟨rfl, rfl⟩ := List.cons.inj hinner
        have hc : c.toNat < 0x80 := Nat.lt_of_not_le fun hhigh => by
          have := high_of_mem_encodeChar hhigh (b := b) (by simp [hchar])
          omega
        have hone := hchar.symm.trans (encodeChar_ascii hc)
        rcases List.append_eq_singleton_iff.mp hone with ⟨rfl, hbyte⟩ | ⟨-, hnone⟩
        · obtain ⟨rfl, rfl⟩ := List.cons.inj hbyte
          exact ⟨[], c, cs, rfl, rfl, hchar, rfl⟩
        · cases hnone

/-- Cutting at an ASCII character is cutting at its byte. -/
theorem takeWhile_encodeChars {x : Char} (hx : x.toNat < 0x80) (cs : List Char) :
    (encodeChars cs).takeWhile (· != UInt8.ofNat x.toNat) = encodeChars (cs.takeWhile (· != x)) := by
  induction cs with
  | nil => rfl
  | cons c cs ih =>
    rw [encodeChars_cons]
    by_cases hc : c = x
    · subst hc
      simp [encodeChar_ascii hx, encodeChars]
    · have hall : ∀ b ∈ String.utf8EncodeChar c, (b != UInt8.ofNat x.toNat) = true := by
        intro b hb
        simpa using ne_of_mem_encodeChar hx hc hb
      rw [List.takeWhile_append_of_pos hall, ih, List.takeWhile_cons_of_pos (by simpa using hc),
        encodeChars_cons]

theorem terminated_encodeChars (cs : List Char) :
    terminated (encodeChars cs) = encodeChars (cs.takeWhile (· != '\x00')) :=
  takeWhile_encodeChars (x := '\x00') (by decide) cs

end PercentFormat.Utf8
