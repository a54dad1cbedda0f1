import PercentFormat.Json.Value

/-! Text and tokens: what is written for a string or an integer is read as one token, whatever
follows it, and blanks are passed over. -/

namespace PercentFormat.Json

/-- The text is made of the tokens and of blanks. -/
inductive Tokenizes : List Char → List Token → Prop
  | nil : Tokenizes [] []
  | space {c : Char} {cs : List Char} {ts : List Token} (hc : isSpace c = true)
      (h : Tokenizes cs ts) : Tokenizes (c :: cs) ts
  | token {c : Char} {cs left : List Char} {t : Token} {ts : List Token} (hc : isSpace c = false)
      (ht : readToken? c cs = some (t, left)) (hl : left.length ≤ cs.length)
      (h : Tokenizes left ts) : Tokenizes (c :: cs) (t :: ts)

namespace Tokenizes
variable {cs rest : List Char} {ts : List Token}

/-- Each step takes at least one character off the text, so the fuel is enough. -/
theorem tokensOnto?_eq (h : Tokenizes cs ts) (read : List Token) {fuel : Nat}
    (hf : cs.length ≤ fuel) : tokensOnto? fuel read cs = some (read.reverse ++ ts) := by
  induction h generalizing read fuel with
  | nil => cases fuel <;> simp [tokensOnto?]
  | space hc h ih =>
    cases fuel with
    | zero => cases hf
    | succ fuel =>
      rw [tokensOnto?, if_pos hc]
      exact ih read (Nat.le_of_succ_le_succ hf)
  | @token c cs left t ts hc ht hl h ih =>
    cases fuel with
    | zero => cases hf
    | succ fuel =>
      rw [tokensOnto?, if_neg (by simp [hc]), ht]
      have hlater := ih (t :: read) (Nat.le_trans hl (Nat.le_of_succ_le_succ hf))
      simpa using hlater

theorem tokens?_eq (h : Tokenizes cs ts) : tokens? cs = some ts :=
  h.tokensOnto?_eq [] (Nat.le_refl _)

/-- A token of one character. -/
theorem cons {c : Char} {t : Token} (hc : isSpace c = false)
    (ht : readToken? c rest = some (t, rest)) (h : Tokenizes rest ts) :
    Tokenizes (c :: rest) (t :: ts) :=
  .token hc ht (Nat.le_refl _) h

theorem blanks (n : Nat) (h : Tokenizes rest ts) : Tokenizes (List.replicate n ' ' ++ rest) ts := by
  induction n with
  | zero => exact h
  | succ n ih => exact .space rfl ih

theorem lineBreak (level : Option Nat) (h : Tokenizes rest ts) :
    Tokenizes (Json.lineBreak level ++ rest) ts := by
  cases level with
  | none => exact h
  | some level => exact .space rfl (blanks _ h)

theorem keyMark (level : Option Nat) (h : Tokenizes rest ts) :
    Tokenizes (Json.keyMark level ++ rest) (.colon :: ts) := by
  cases level with
  | none => exact .cons rfl rfl h
  | some level => exact .token rfl rfl (Nat.le_refl _) (.space rfl h)

end Tokenizes

/-- How a character comes back from a string: as itself, or as the unit that its escape names. -/
def pieceOf (c : Char) : Piece :=
  if c.toNat < 0x20 ∧ c ∉ ['\x08', '\t', '\n', '\x0c', '\r'] then .unit c.toNat else .char c

private theorem hexQuad?_digitChar :
    ∀ n < 0x20, hexQuad? '0' '0' (Nat.digitChar (n / 16)) (Nat.digitChar (n % 16)) = some n := by
  decide

private theorem readPieces_simple {e c : Char} (he : e ≠ 'u') (hc : simpleEscape? e = some c)
    (rest : List Char) :
    readPieces ('\\' :: e :: rest) =
      (readPieces rest).map fun (pieces, left) => (.char c :: pieces, left) := by
  rw [readPieces]
  · rw [hc]
    cases readPieces rest <;> rfl
  · intro _ _ _ _ _ hu
    exact absurd hu he

private theorem readPieces_unit {a b c d : Char} {u : Nat} (hu : hexQuad? a b c d = some u)
    (rest : List Char) :
    readPieces ('\\' :: 'u' :: a :: b :: c :: d :: rest) =
      (readPieces rest).map fun (pieces, left) => (.unit u :: pieces, left) := by
  rw [readPieces, hu]
  cases readPieces rest <;> rfl

private theorem readPieces_plain {c : Char} (hq : c ≠ '"') (hb : c ≠ '\\') (hc : ¬ c.toNat < 0x20)
    (rest : List Char) :
    readPieces (c :: rest) =
      (readPieces rest).map fun (pieces, left) => (.char c :: pieces, left) := by
  rw [readPieces]
  · rw [if_neg (by simp [hb, hc])]
    cases readPieces rest <;> rfl
  · exact hq
  · intro _ _ _ _ _ h
    exact absurd h hb
  · intro _ _ h
    exact absurd h hb

/-- A character is escaped by a letter, by its number, or not at all. -/
theorem escape_cases (c : Char) :
    (∃ e, escape c = ['\\', e] ∧ e ≠ 'u' ∧ simpleEscape? e = some c ∧ pieceOf c = .char c) ∨
    (c.toNat < 0x20 ∧ pieceOf c = .unit c.toNat ∧ escape c =
      ['\\', 'u', '0', '0', Nat.digitChar (c.toNat / 16), Nat.digitChar (c.toNat % 16)]) ∨
    (¬ c.toNat < 0x20 ∧ c ≠ '"' ∧ c ≠ '\\' ∧ pieceOf c = .char c ∧ escape c = [c]) := by
  by_cases hletter : c ∈ ['"', '\\', '\x08', '\t', '\n', '\x0c', '\r']
  · left
    simp only [List.mem_cons, List.not_mem_nil, or_false] at hletter
    rcases hletter with rfl | rfl | rfl | rfl | rfl | rfl | rfl
    · exact ⟨'"', by decide⟩
    · exact ⟨'\\', by decide⟩
    · exact ⟨'b', by decide⟩
    · exact ⟨'t', by decide⟩
    · exact ⟨'n', by decide⟩
    · exact ⟨'f', by decide⟩
    · exact ⟨'r', by decide⟩
  · simp only [List.mem_cons, List.not_mem_nil, or_false, not_or] at hletter
    obtain ⟨h₁, h₂, h₃, h₄, h₅, h₆, h₇⟩ := hletter
    right
    by_cases hc : c.toNat < 0x20
    · exact .inl ⟨hc, by simp [pieceOf, *], by simp [escape, *]⟩
    · exact .inr ⟨hc, h₁, h₂, by simp [pieceOf, hc], by simp [escape, *]⟩

private theorem readPieces_escape (c : Char) (rest : List Char) :
    readPieces (escape c ++ rest) =
      (readPieces rest).map fun (pieces, left) => (pieceOf c :: pieces, left) := by
  rcases escape_cases c with ⟨e, he, hu, hs, hp⟩ | ⟨hc, hp, he⟩ | ⟨hc, hq, hb, hp, he⟩
  · rw [he, hp]
    exact readPieces_simple hu hs rest
  · rw [he, hp]
    exact readPieces_unit (hexQuad?_digitChar _ hc) rest
  · rw [he, hp]
    exact readPieces_plain hq hb hc rest

theorem readPieces_quoted (cs rest : List Char) :
    readPieces (cs.flatMap escape ++ '"' :: rest) = some (cs.map pieceOf, rest) := by
  induction cs with
  | nil => rfl
  | cons c cs ih =>
    rw [List.flatMap_cons, List.append_assoc, readPieces_escape, ih]
    rfl

private theorem joinPieces?_unit {u : Nat} (hu : u < 0x20) (ps : List Piece) :
    joinPieces? (.unit u :: ps) = (joinPieces? ps).map (Char.ofNat u :: ·) := by
  have hh : isHigh u = false := by
    simp only [isHigh, Bool.and_eq_false_iff, decide_eq_false_iff_not]
    omega
  have hl : isLow u = false := by
    simp only [isLow, Bool.and_eq_false_iff, decide_eq_false_iff_not]
    omega
  cases ps with
  | nil => simp [joinPieces?, hh, hl]
  | cons p ps => cases p <;> simp [joinPieces?, hh, hl]

/-- No character is written as half of a pair, so nothing is joined. -/
private theorem joinPieces?_pieceOf (cs : List Char) : joinPieces? (cs.map pieceOf) = some cs := by
  induction cs with
  | nil => rfl
  | cons c cs ih =>
    rw [List.map_cons, pieceOf]
    split
    · next hc =>
      rw [joinPieces?_unit hc.1, ih, Char.ofNat_toNat]
      rfl
    · rw [joinPieces?, ih]
      rfl

theorem Tokenizes.string {rest : List Char} {ts : List Token} (s : String) (h : Tokenizes rest ts) :
    Tokenizes (stringText s ++ rest) (.string (some s) :: ts) := by
  have htext : stringText s ++ rest = '"' :: (s.toList.flatMap escape ++ '"' :: rest) := by
    simp [stringText]
  have hjoin : joinText? (s.toList.map pieceOf) = some s := by
    rw [joinText?, joinPieces?_pieceOf, Option.map_some, String.ofList_toList]
  rw [htext]
  refine .token rfl ?_ ?_ h
  · show (readPieces (s.toList.flatMap escape ++ '"' :: rest)).map _ = _
    rw [readPieces_quoted, ← hjoin]
    rfl
  · rw [List.length_append, List.length_cons]
    omega

/-- A number is over where the text goes on: neither with a digit nor with a fraction or an
exponent. -/
def Separates (rest : List Char) : Prop :=
  ∀ c ∈ rest.head?, c.isDigit = false ∧ c ≠ '.' ∧ c ≠ 'e' ∧ c ≠ 'E'

theorem separates_nil : Separates [] := by
  simp [Separates]

theorem separates_cons {c : Char} {rest : List Char}
    (hc : c.isDigit = false ∧ c ≠ '.' ∧ c ≠ 'e' ∧ c ≠ 'E') : Separates (c :: rest) := by
  simpa [Separates] using hc

private theorem head?_toDigits {n : Nat} (h : (Nat.toDigits 10 n).head? = some '0') : n = 0 := by
  induction n using Nat.strongRecOn with
  | ind n ih =>
    rw [Nat.toDigits_eq_if (by decide)] at h
    split at h
    · next hn =>
      have hzero : ∀ d < 10, Nat.digitChar d = '0' → d = 0 := by decide
      exact hzero n hn (by simpa using h)
    · next hn =>
      -- the first digit is the first digit of what stands before the last one
      obtain ⟨d, ds, hds⟩ :=
        List.exists_cons_of_ne_nil (Nat.toDigits_ne_nil (n := n / 10) (b := 10))
      have := ih (n / 10) (by omega) (by simpa [hds] using h)
      omega

section
variable {rest : List Char}

private theorem readWhole?_toDigits (n : Nat) (hr : Separates rest) :
    readWhole? (Nat.toDigits 10 n ++ rest) = some (Nat.toDigits 10 n, rest) := by
  have hd : ∀ c ∈ Nat.toDigits 10 n, c.isDigit = true :=
    fun c hc => Nat.isDigit_of_mem_toDigits (by decide) (by decide) hc
  have hstop : rest.takeWhile Char.isDigit = [] ∧ rest.dropWhile Char.isDigit = rest := by
    cases rest with
    | nil => simp
    | cons c rest => simp [(hr c rfl).1]
  have hlead : ¬ ((Nat.toDigits 10 n).head? = some '0' ∧ Nat.toDigits 10 n ≠ ['0']) := by
    rintro ⟨hz, hne⟩
    rw [head?_toDigits hz] at hne
    exact hne (Nat.toDigits_zero 10)
  have hread : readDigits? (Nat.toDigits 10 n ++ rest) = some (Nat.toDigits 10 n, rest) := by
    rw [readDigits?, List.takeWhile_append_of_pos hd, List.dropWhile_append_of_pos hd, hstop.1,
      hstop.2, List.append_nil]
    simp [Nat.toDigits_ne_nil]
  rw [readWhole?, hread]
  simpa using hlead

private theorem readFraction?_none (hr : Separates rest) :
    readFraction? rest = some ([], rest) := by
  unfold readFraction?
  split
  · exact absurd rfl (hr '.' rfl).2.1
  · rfl

private theorem readExponent?_none (hr : Separates rest) :
    readExponent? rest = some (none, rest) := by
  unfold readExponent?
  split
  · exact absurd rfl (hr 'e' rfl).2.2.1
  · exact absurd rfl (hr 'E' rfl).2.2.2
  · rfl

private theorem readUnsigned?_toDigits (negative : Bool) (n : Nat) (hr : Separates rest) :
    readUnsigned? negative (Nat.toDigits 10 n ++ rest) =
      some (⟨negative, Nat.toDigits 10 n, [], none⟩, rest) := by
  rw [readUnsigned?, readWhole?_toDigits n hr]
  show (readFraction? rest).bind _ = _
  rw [readFraction?_none hr]
  show (readExponent? rest).bind _ = _
  rw [readExponent?_none hr]
  rfl

private theorem readToken?_digit {c : Char} (hc : c.isDigit = true) (cs : List Char) :
    readToken? c cs =
      (readUnsigned? false (c :: cs)).map fun (literal, left) => (.number literal, left) := by
  unfold readToken?
  split
  case h_12 => rfl
  all_goals exact absurd hc (by decide)

private theorem isSpace_digit {c : Char} (hc : c.isDigit = true) : isSpace c = false := by
  rw [Bool.eq_false_iff]
  intro hs
  simp only [isSpace, Bool.or_eq_true, beq_iff_eq] at hs
  rcases hs with ((rfl | rfl) | rfl) | rfl <;> exact absurd hc (by decide)

end

/-- How an integer is written. -/
def integerLiteral : Int → Literal
  | .ofNat n => ⟨false, Nat.toDigits 10 n, [], none⟩
  | .negSucc n => ⟨true, Nat.toDigits 10 (n + 1), [], none⟩

theorem Tokenizes.integer {rest : List Char} {ts : List Token} (value : Int)
    (h : Tokenizes rest ts) (hr : Separates rest) :
    Tokenizes (integerText value ++ rest) (.number (integerLiteral value) :: ts) := by
  cases value with
  | ofNat n =>
    obtain ⟨d, ds, hds⟩ := List.exists_cons_of_ne_nil (Nat.toDigits_ne_nil (n := n) (b := 10))
    have hd : d.isDigit = true :=
      Nat.isDigit_of_mem_toDigits (b := 10) (n := n) (by decide) (by decide) (by simp [hds])
    have hread := readUnsigned?_toDigits false n hr
    rw [hds, List.cons_append] at hread
    rw [integerText, hds, List.cons_append]
    refine .token (isSpace_digit hd) ?_ ?_ h
    · rw [readToken?_digit hd, hread, integerLiteral, hds]
      rfl
    · simp
  | negSucc n =>
    refine .token rfl ?_ ?_ h
    · show (readUnsigned? true (Nat.toDigits 10 (n + 1) ++ rest)).map _ = _
      rw [readUnsigned?_toDigits true (n + 1) hr]
      rfl
    · simp

end PercentFormat.Json
