import PercentFormat.Proofs.TextBytes

/-! Bytes read as text: each character is read from its own bytes, so the bytes of a text are read
as that text. -/

namespace PercentFormat.Utf8

private theorem toNat_ofNat_byte {n : Nat} (h : n < 0x100) : (UInt8.ofNat n).toNat = n :=
  UInt8.toNat_ofNat_of_lt' h

/-- The continuation byte with the last six bits of a number. -/
def continuation (v : Nat) : UInt8 := UInt8.ofNat (v % 64 + 0x80)

/-- A continuation byte adds its six bits to those read before it. -/
private theorem follow_continuation (n : Nat) {low high : UInt8} {v : Nat}
    (hlow : low.toNat ≤ v % 64 + 0x80) (hhigh : v % 64 + 0x80 ≤ high.toNat) (rest : Bytes) :
    follow (n + 1) low high (v / 64) (continuation v :: rest) = follow n 0x80 0xBF v rest := by
  have hb : (continuation v).toNat = v % 64 + 0x80 := toNat_ofNat_byte (by omega)
  have hbits : v / 64 * 64 + v % 64 = v := by omega
  rw [follow, if_pos, hb, Nat.add_sub_cancel, hbits]
  simp only [UInt8.le_iff_toNat_le, hb, hlow, hhigh, decide_true, Bool.and_self]

private theorem follow_later (n v : Nat) (rest : Bytes) :
    follow (n + 1) 0x80 0xBF (v / 64) (continuation v :: rest) = follow n 0x80 0xBF v rest := by
  refine follow_continuation n ?_ ?_ rest
  · exact Nat.le_add_left _ _
  · exact Nat.add_le_add_right (by omega) 0x80

private theorem next_one {v : Nat} (hu : v ≤ 0x7f) (rest : Bytes) :
    next (UInt8.ofNat v) rest = (some (Char.ofNat v), rest) := by
  have hb := toNat_ofNat_byte (n := v) (by omega)
  simp only [next, UInt8.lt_iff_toNat_lt, hb, UInt8.reduceToNat]
  rw [if_pos (by omega)]

private theorem next_two {v : Nat} (hl : 0x7f < v) (hu : v ≤ 0x7ff) (rest : Bytes) :
    next (UInt8.ofNat (v / 64 % 32 + 0xC0)) (continuation v :: rest) =
      (some (Char.ofNat v), rest) := by
  have hb := toNat_ofNat_byte (n := v / 64 % 32 + 0xC0) (by omega)
  have hbits : v / 64 % 32 + 0xC0 - 0xC0 = v / 64 := by omega
  simp only [next, UInt8.lt_iff_toNat_lt, hb, UInt8.reduceToNat]
  rw [if_neg (by omega), if_neg (by omega), if_pos (by omega), hbits, follow_later]
  rfl

/-- The second of three bytes is narrowed by the first one: what is shorter in two bytes, and a
surrogate, is not written. -/
private theorem next_three {v : Nat} (hl : 0x7ff < v) (hu : v ≤ 0xffff) (hs : v < 0xD800 ∨ 0xDFFF < v)
    (rest : Bytes) :
    next (UInt8.ofNat (v / 4096 % 16 + 0xE0)) (continuation (v / 64) :: continuation v :: rest) =
      (some (Char.ofNat v), rest) := by
  have hb := toNat_ofNat_byte (n := v / 4096 % 16 + 0xE0) (by omega)
  have hbits : v / 4096 % 16 + 0xE0 - 0xE0 = v / 64 / 64 := by omega
  have hlater : follow 1 0x80 0xBF (v / 64) (continuation v :: rest) =
      (some (Char.ofNat v), rest) :=
    follow_later 0 v rest
  simp only [next, UInt8.lt_iff_toNat_lt, hb, UInt8.reduceToNat]
  rw [if_neg (by omega), if_neg (by omega), if_neg (by omega), hbits]
  split
  · have hzero : 0 = v / 64 / 64 := by omega
    rw [hzero, follow_continuation 1 ?_ ?_, hlater]
    · show 0xA0 ≤ _
      omega
    · show _ ≤ 0xBF
      omega
  · split
    · rw [follow_later, hlater]
    · split
      · have hed : 0xD = v / 64 / 64 := by omega
        rw [hed, follow_continuation 1 ?_ ?_, hlater]
        · show 0x80 ≤ _
          omega
        · show _ ≤ 0x9F
          omega
      · rw [if_pos (by omega), follow_later, hlater]

private theorem next_four {v : Nat} (hl : 0xffff < v) (hu : v ≤ 0x10ffff) (rest : Bytes) :
    next (UInt8.ofNat (v / 262144 % 8 + 0xF0))
      (continuation (v / 4096) :: continuation (v / 64) :: continuation v :: rest) =
      (some (Char.ofNat v), rest) := by
  have hb := toNat_ofNat_byte (n := v / 262144 % 8 + 0xF0) (by omega)
  have hbits : v / 262144 % 8 + 0xF0 - 0xF0 = v / 4096 / 64 := by omega
  have hlater : follow 2 0x80 0xBF (v / 4096) (continuation (v / 64) :: continuation v :: rest) =
      (some (Char.ofNat v), rest) := by
    have hdiv : v / 4096 = v / 64 / 64 := by omega
    rw [hdiv, follow_later, follow_later]
    rfl
  simp only [next, UInt8.lt_iff_toNat_lt, hb, UInt8.reduceToNat]
  rw [if_neg (by omega), if_neg (by omega), if_neg (by omega), if_neg (by omega), if_neg (by omega),
    if_neg (by omega), if_neg (by omega), hbits]
  split
  · have hzero : 0 = v / 4096 / 64 := by omega
    rw [hzero, follow_continuation 2 ?_ ?_, hlater]
    · show 0x90 ≤ _
      omega
    · show _ ≤ 0xBF
      omega
  · split
    · rw [follow_later, hlater]
    · have hlast : 0x4 = v / 4096 / 64 := by omega
      rw [if_pos (by omega), hlast, follow_continuation 2 ?_ ?_, hlater]
      · show 0x80 ≤ _
        omega
      · show _ ≤ 0x8F
        omega

/-- A character is read from its bytes, whatever follows them. -/
theorem exists_next_encodeChar (c : Char) :
    ∃ b bs, String.utf8EncodeChar c = b :: bs ∧ ∀ rest, next b (bs ++ rest) = (some c, rest) := by
  have hvalid : c.val.toNat < 0xD800 ∨ 0xDFFF < c.val.toNat ∧ c.val.toNat < 0x110000 := c.valid
  have hc : Char.ofNat c.val.toNat = c := Char.ofNat_toNat c
  fun_cases String.utf8EncodeChar c with
  | case1 v h₁ =>
    refine ⟨_, _, rfl, fun rest => ?_⟩
    rw [← hc]
    exact next_one h₁ rest
  | case2 v h₁ h₂ =>
    refine ⟨_, _, rfl, fun rest => ?_⟩
    rw [← hc]
    exact next_two (Nat.lt_of_not_le h₁) h₂ rest
  | case3 v h₁ h₂ h₃ =>
    refine ⟨_, _, rfl, fun rest => ?_⟩
    rw [← hc]
    exact next_three (Nat.lt_of_not_le h₂) h₃ (by omega) rest
  | case4 v h₁ h₂ h₃ =>
    refine ⟨_, _, rfl, fun rest => ?_⟩
    rw [← hc]
    exact next_four (Nat.lt_of_not_le h₃) (by omega) rest

theorem piecesOnto_encodeChars (read : List (Option Char)) (cs : List Char) :
    piecesOnto read (encodeChars cs) = read.reverse ++ cs.map some := by
  induction cs generalizing read with
  | nil => simp [encodeChars, piecesOnto]
  | cons c cs ih =>
    obtain ⟨b, bs, hbytes, hnext⟩ := exists_next_encodeChar c
    rw [encodeChars_cons, hbytes, List.cons_append, piecesOnto, hnext, ih]
    simp

theorem pieces_encode (s : String) : pieces (encode s) = s.toList.map some :=
  piecesOnto_encodeChars [] s.toList

theorem decode?_encode (s : String) : decode? (encode s) = some s := by
  simp [decode?, pieces_encode, List.filterMap_map]

theorem decodeLossy_encode (s : String) : decodeLossy (encode s) = s := by
  have hget : (s.toList.map some).map (·.getD '\uFFFD') = s.toList := by
    rw [List.map_map]
    exact List.map_id _
  rw [decodeLossy, pieces_encode, hget, String.ofList_toList]

end PercentFormat.Utf8
