import PercentFormat.Proofs.Json.Records
import PercentFormat.Proofs.Lines

/-! Values of any form written and read again: a value comes back from its tree if its numbers are
integers of 64 bits, its keys ascend and it is not nested too deeply. The members of any other object
come back sorted, and each is found under its key. -/

namespace PercentFormat.Json

mutual

/-- How many containers stand one inside the other. -/
def Value.depth : Value → Nat
  | .array items => itemsDepth items + 1
  | .object members => membersDepth members + 1
  | _ => 0

def itemsDepth : List Value → Nat
  | [] => 0
  | item :: items => max item.depth (itemsDepth items)

def membersDepth : List (String × Value) → Nat
  | [] => 0
  | (_, value) :: members => max value.depth (membersDepth members)

end

mutual

/-- Whether a value is of the form in which values are kept: its integers have 64 bits, and the keys
of its objects ascend. -/
def Value.isKept : Value → Bool
  | .number (.integer value) => -0x8000000000000000 ≤ value && value ≤ 0xFFFFFFFFFFFFFFFF
  | .array items => itemsKept items
  | .object members => decide ((members.map (·.1)).Pairwise (· < ·)) && membersKept members
  | _ => true

def itemsKept : List Value → Bool
  | [] => true
  | item :: items => item.isKept && itemsKept items

def membersKept : List (String × Value) → Bool
  | [] => true
  | (_, value) :: members => value.isKept && membersKept members

end

theorem itemsDepth_le_iff {items : List Value} {n : Nat} :
    itemsDepth items ≤ n ↔ ∀ v ∈ items, v.depth ≤ n := by
  induction items with
  | nil => simp [itemsDepth]
  | cons item items ih =>
    rw [itemsDepth, Nat.max_le, ih, List.forall_mem_cons]

theorem membersDepth_le_iff {members : List (String × Value)} {n : Nat} :
    membersDepth members ≤ n ↔ ∀ m ∈ members, m.2.depth ≤ n := by
  induction members with
  | nil => simp [membersDepth]
  | cons m members ih =>
    obtain ⟨key, value⟩ := m
    rw [membersDepth, Nat.max_le, ih, List.forall_mem_cons]

theorem itemsKept_iff {items : List Value} :
    itemsKept items = true ↔ ∀ v ∈ items, v.isKept = true := by
  induction items with
  | nil => simp [itemsKept]
  | cons item items ih => simp [itemsKept, ih]

theorem membersKept_iff {members : List (String × Value)} :
    membersKept members = true ↔ ∀ m ∈ members, m.2.isKept = true := by
  induction members with
  | nil => simp [membersKept]
  | cons m members ih => simp [membersKept, ih]

private theorem le_foldl_digits (s : Nat) (ds : List Char) :
    s ≤ ds.foldl (fun v d => v * 10 + digitOf d) s := by
  induction ds generalizing s with
  | nil => exact Nat.le_refl s
  | cons d ds ih => exact Nat.le_trans (by omega) (ih (s * 10 + digitOf d))

/-- No digit is dropped from a significand that fits as a whole. -/
private theorem gather_eq {s : Nat} {ds : List Char}
    (h : ds.foldl (fun v d => v * 10 + digitOf d) s ≤ maxSignificand) :
    gather s ds = (ds.foldl (fun v d => v * 10 + digitOf d) s, 0) := by
  induction ds generalizing s with
  | nil => rfl
  | cons d ds ih =>
    rw [gather, if_pos (Nat.le_trans (le_foldl_digits _ ds) h)]
    exact ih h

private theorem gather_toDigits {n : Nat} (h : n ≤ maxSignificand) :
    gather 0 (Nat.toDigits 10 n) = (n, 0) := by
  rw [gather_eq (by rwa [foldl_toDigits]), foldl_toDigits]

/-- An integer of 64 bits is read as itself, and not as a binary number. -/
theorem Number.ofLiteral?_integerLiteral {value : Int} (hl : -0x8000000000000000 ≤ value)
    (hu : value ≤ 0xFFFFFFFFFFFFFFFF) :
    Number.ofLiteral? (integerLiteral value) = some (.integer value) := by
  cases value with
  | ofNat n =>
    have hn : n ≤ maxSignificand := by
      rw [maxSignificand]
      simp only [Int.ofNat_eq_natCast] at hu
      omega
    simp [integerLiteral, Number.ofLiteral?, gather_toDigits hn]
  | negSucc n =>
    have hn : n + 1 ≤ 0x8000000000000000 := by omega
    have hg := gather_toDigits (n := n + 1) (Nat.le_trans hn (by decide))
    simp [integerLiteral, Number.ofLiteral?, hg, hn, Int.negSucc_eq]

theorem itemsOfTrees?_eq {depth : Nat} {items : List Value}
    (h : ∀ v ∈ items, Value.ofTree? depth v.tree = some v) :
    itemsOfTrees? depth (itemTrees items) = some items := by
  induction items with
  | nil => rfl
  | cons item items ih =>
    obtain ⟨hitem, hitems⟩ := List.forall_mem_cons.1 h
    rw [itemTrees, itemsOfTrees?, hitem, ih hitems]
    rfl

theorem membersOfTrees?_eq {depth : Nat} {members : List (String × Value)}
    (h : ∀ m ∈ members, Value.ofTree? depth m.2.tree = some m.2) :
    membersOfTrees? depth (memberTrees members) = some members := by
  induction members with
  | nil => rfl
  | cons m members ih =>
    obtain ⟨hm, hmembers⟩ := List.forall_mem_cons.1 h
    rw [memberTrees, membersOfTrees?, hm, ih hmembers]
    rfl

/-- A member whose key comes after all others goes to the end. -/
private theorem insertMember_of_lt {key : String} {value : Value} {members : List (String × Value)}
    (h : ∀ m ∈ members, m.1 < key) :
    insertMember key value members = members ++ [(key, value)] := by
  induction members with
  | nil => rfl
  | cons m members ih =>
    obtain ⟨hm, hmembers⟩ := List.forall_mem_cons.1 h
    rw [insertMember, if_neg (String.lt_asymm hm), if_neg (String.ne_of_lt hm).symm, ih hmembers]
    rfl

theorem foldl_insertMember_of_ascending (sorted : List (String × Value))
    {members : List (String × Value)} (h : ((sorted ++ members).map (·.1)).Pairwise (· < ·)) :
    members.foldl (fun sorted m => insertMember m.1 m.2 sorted) sorted = sorted ++ members := by
  induction members generalizing sorted with
  | nil => simp
  | cons m members ih =>
    have hlast : ∀ x ∈ sorted, x.1 < m.1 := by
      intro x hx
      rw [List.map_append, List.pairwise_append] at h
      exact h.2.2 _ (List.mem_map_of_mem hx) _ (by simp)
    rw [List.foldl_cons, insertMember_of_lt hlast, ih _ (by simpa using h)]
    simp

theorem sortMembers_of_ascending {members : List (String × Value)}
    (h : (members.map (·.1)).Pairwise (· < ·)) : sortMembers members = members :=
  foldl_insertMember_of_ascending [] h

theorem lookup_cons_ite {α : Type} (key : String) (value : α) (members : List (String × α))
    (name : String) :
    ((key, value) :: members).lookup name =
      if name = key then some value else members.lookup name := by
  rw [List.lookup_cons]
  by_cases h : name = key
  · simp [h]
  · rw [if_neg h, beq_false_of_ne h]

/-- Inserting a member changes what is found under its key, and under no other. -/
theorem lookup_insertMember (key : String) (value : Value) (members : List (String × Value))
    (name : String) :
    (insertMember key value members).lookup name =
      if name = key then some value else members.lookup name := by
  induction members with
  | nil => rw [insertMember, lookup_cons_ite]
  | cons m members ih =>
    obtain ⟨k, v⟩ := m
    rw [insertMember]
    split
    · rw [lookup_cons_ite]
    · split
      · next hk =>
        subst hk
        rw [lookup_cons_ite, lookup_cons_ite]
        split <;> rfl
      · next hk =>
        rw [lookup_cons_ite, lookup_cons_ite, ih]
        by_cases h : name = k
        · subst h
          simp [Ne.symm hk]
        · simp [h]

theorem lookup_foldl_insertMember {members : List (String × Value)} (h : (members.map (·.1)).Nodup)
    (sorted : List (String × Value)) (name : String) :
    (members.foldl (fun sorted m => insertMember m.1 m.2 sorted) sorted).lookup name =
      (members.lookup name).or (sorted.lookup name) := by
  induction members generalizing sorted with
  | nil => rfl
  | cons m members ih =>
    obtain ⟨key, value⟩ := m
    obtain ⟨hkey, hmembers⟩ := List.nodup_cons.1 h
    rw [List.foldl_cons, ih hmembers, lookup_insertMember, lookup_cons_ite]
    by_cases hname : name = key
    · subst hname
      have hnone : members.lookup name = none := by
        refine List.lookup_eq_none_iff.2 fun m hm => bne_iff_ne.2 ?_
        rintro rfl
        exact hkey (List.mem_map.2 ⟨m, hm, rfl⟩)
      simp [hnone]
    · simp [hname]

/-- Sorting keeps what is found under each key if no key repeats. -/
theorem lookup_sortMembers {members : List (String × Value)} (h : (members.map (·.1)).Nodup)
    (name : String) : (sortMembers members).lookup name = members.lookup name := by
  rw [sortMembers, lookup_foldl_insertMember h]
  simp

theorem Value.get?_object (members : List (String × Value)) (key : String) :
    (Value.object members).get? key = members.lookup key := by
  induction members with
  | nil => rfl
  | cons m members ih =>
    obtain ⟨k, v⟩ := m
    rw [Value.get?] at ih ⊢
    rw [List.find?_cons, List.lookup_cons, BEq.comm]
    cases key == k
    · exact ih
    · rfl

/-- An object is read with its members sorted by key, if they can be read one level deeper. -/
theorem Value.ofTree?_object {depth : Nat} {members : List (String × Value)}
    (h : ∀ m ∈ members, Value.ofTree? depth m.2.tree = some m.2) :
    Value.ofTree? (depth + 1) (Value.object members).tree = some (.object (sortMembers members)) := by
  rw [Value.tree, Value.ofTree?, if_neg (Nat.succ_ne_zero depth), Nat.add_sub_cancel,
    membersOfTrees?_eq h]
  rfl

/-- What can be kept is read as itself. -/
theorem Value.ofTree?_tree {v : Value} (hi : v.isIntegral = true) (hk : v.isKept = true) {depth : Nat}
    (hd : v.depth ≤ depth) : Value.ofTree? depth v.tree = some v := by
  induction v using Value.induct generalizing depth with
  | null | bool | string => rfl
  | number n =>
    cases n with
    | integer value =>
      simp only [Value.isKept, Bool.and_eq_true, decide_eq_true_eq] at hk
      rw [Value.tree, Value.ofTree?, Number.literal, Number.ofLiteral?_integerLiteral hk.1 hk.2]
      rfl
    | binary negative magnitude => cases hi
  | array items ih =>
    obtain _ | depth := depth
    · cases hd
    have hitems : ∀ v ∈ items, Value.ofTree? depth v.tree = some v := fun v hv =>
      ih v hv (itemsIntegral_iff.1 hi v hv) (itemsKept_iff.1 hk v hv)
        (itemsDepth_le_iff.1 (Nat.le_of_succ_le_succ hd) v hv)
    rw [Value.tree, Value.ofTree?, if_neg (Nat.succ_ne_zero depth), Nat.add_sub_cancel,
      itemsOfTrees?_eq hitems]
    rfl
  | object members ih =>
    obtain _ | depth := depth
    · cases hd
    simp only [Value.isKept, Bool.and_eq_true, decide_eq_true_eq] at hk
    have hmembers : ∀ m ∈ members, Value.ofTree? depth m.2.tree = some m.2 := fun m hm =>
      ih m hm (membersIntegral_iff.1 hi m hm) (membersKept_iff.1 hk.2 m hm)
        (membersDepth_le_iff.1 (Nat.le_of_succ_le_succ hd) m hm)
    rw [Value.ofTree?_object hmembers, sortMembers_of_ascending hk.1]

/-- A value that its text gives back, with at most `depth` containers one inside the other. -/
structure Value.Plain (depth : Nat) (v : Value) : Prop where
  integral : v.isIntegral = true
  kept : v.isKept = true
  shallow : v.depth ≤ depth

theorem Value.Plain.ofTree? {depth : Nat} {v : Value} (h : v.Plain depth) :
    Value.ofTree? depth v.tree = some v :=
  Value.ofTree?_tree h.integral h.kept h.shallow

theorem Value.plain_string (depth : Nat) (s : String) : (Value.string s).Plain depth :=
  ⟨rfl, rfl, Nat.zero_le _⟩

theorem Value.plain_ofNat (depth : Nat) {n : Nat} (h : n ≤ maxSize) : (Value.ofNat n).Plain depth := by
  refine ⟨rfl, ?_, Nat.zero_le _⟩
  rw [maxSize] at h
  simp only [Value.ofNat, Value.isKept, Bool.and_eq_true, decide_eq_true_eq]
  omega

theorem Value.plain_object {depth : Nat} {members : List (String × Value)}
    (hkeys : (members.map (·.1)).Pairwise (· < ·)) (h : ∀ m ∈ members, m.2.Plain depth) :
    (Value.object members).Plain (depth + 1) := by
  refine ⟨membersIntegral_iff.2 fun m hm => (h m hm).integral, ?_,
    Nat.succ_le_succ (membersDepth_le_iff.2 fun m hm => (h m hm).shallow)⟩
  simp only [Value.isKept, Bool.and_eq_true, decide_eq_true_eq]
  exact ⟨hkeys, membersKept_iff.2 fun m hm => (h m hm).kept⟩

/-- The text of an object is read as the object with its members sorted. -/
theorem Value.parse?_object {members : List (String × Value)}
    (h : ∀ m ∈ members, m.2.Plain (maxDepth - 1)) (level : Option Nat) :
    Value.parse? (String.ofList ((Value.object members).render level)) =
      some (.object (sortMembers members)) := by
  have hi : (Value.object members).isIntegral = true :=
    membersIntegral_iff.2 fun m hm => (h m hm).integral
  rw [Value.parse?, Tree.parse?_render hi, Option.bind_some]
  exact Value.ofTree?_object fun m hm => (h m hm).ofTree?

private theorem newline_ne_digitChar : ∀ d < 16, '\n' ≠ Nat.digitChar d := by
  decide

private theorem newline_notMem_escape (c : Char) : '\n' ∉ escape c := by
  rcases escape_cases c with ⟨e, he, -, hs, -⟩ | ⟨hc, -, he⟩ | ⟨hc, -, -, -, he⟩
  · rw [he]
    intro hmem
    obtain rfl : '\n' = e := by simpa using hmem
    exact absurd hs (by simp [simpleEscape?])
  · rw [he]
    have hhigh := newline_ne_digitChar (c.toNat / 16) (by omega)
    have hlow := newline_ne_digitChar (c.toNat % 16) (by omega)
    simp [hhigh, hlow]
  · rw [he]
    rintro hmem
    obtain rfl : '\n' = c := by simpa using hmem
    exact hc (by decide)

private theorem newline_notMem_stringText (s : String) : '\n' ∉ stringText s := by
  simp [stringText, newline_notMem_escape]

private theorem newline_notMem_integerText (value : Int) : '\n' ∉ integerText value := by
  cases value with
  | ofNat n => exact Text.newline_notMem_toDigits n
  | negSucc n => simpa [integerText] using Text.newline_notMem_toDigits (n + 1)

private theorem newline_notMem_renderItems {items : List Value}
    (h : ∀ v ∈ items, '\n' ∉ v.render none) : '\n' ∉ renderItems none items := by
  induction items with
  | nil => simp [renderItems]
  | cons item items ih =>
    obtain ⟨hitem, hitems⟩ := List.forall_mem_cons.1 h
    simp [renderItems, lineBreak, hitem, ih hitems]

private theorem newline_notMem_renderMembers {members : List (String × Value)}
    (h : ∀ m ∈ members, '\n' ∉ m.2.render none) : '\n' ∉ renderMembers none members := by
  induction members with
  | nil => simp [renderMembers]
  | cons m members ih =>
    obtain ⟨hvalue, hmembers⟩ := List.forall_mem_cons.1 h
    simp [renderMembers, lineBreak, keyMark, newline_notMem_stringText, hvalue, ih hmembers]

/-- Text without line breaks stays on its line: newlines inside of strings are escaped. -/
theorem Value.newline_notMem_render {v : Value} (hv : v.isIntegral = true) :
    '\n' ∉ v.render none := by
  induction v using Value.induct with
  | null => simp [Value.render]
  | bool b => cases b <;> simp [Value.render]
  | number n =>
    cases n with
    | integer value => exact newline_notMem_integerText value
    | binary negative magnitude => cases hv
  | string s => exact newline_notMem_stringText s
  | array items ih =>
    have hitems := fun v hmem => ih v hmem (itemsIntegral_iff.1 hv v hmem)
    cases items with
    | nil => simp [Value.render]
    | cons item items =>
      obtain ⟨hitem, hitems⟩ := List.forall_mem_cons.1 hitems
      simp [Value.render, deeper, lineBreak, hitem, newline_notMem_renderItems hitems]
  | object members ih =>
    have hmembers := fun m hmem => ih m hmem (membersIntegral_iff.1 hv m hmem)
    cases members with
    | nil => simp [Value.render]
    | cons m members =>
      obtain ⟨hvalue, hmembers⟩ := List.forall_mem_cons.1 hmembers
      simp [Value.render, deeper, lineBreak, keyMark, newline_notMem_stringText, hvalue,
        newline_notMem_renderMembers hmembers]

end PercentFormat.Json
