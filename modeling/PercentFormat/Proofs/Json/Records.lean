import PercentFormat.Bytes
import PercentFormat.Json.Value
import PercentFormat.Proofs.Json.Reading

/-! Records written and read again: the fields of an object are found by their names, and texts and
integers come back as they were. -/

namespace PercentFormat.Json

/-- A reader that succeeds on every item of a list succeeds on the list. -/
theorem mapM_eq_some_map {α β : Type} {xs : List α} {f : α → Option β} {g : α → β}
    (h : ∀ x ∈ xs, f x = some (g x)) : xs.mapM f = some (xs.map g) := by
  induction xs with
  | nil => rfl
  | cons x xs ih =>
    obtain ⟨hx, hxs⟩ := List.forall_mem_cons.1 h
    rw [List.mapM_cons, hx, ih hxs]
    rfl

/-- Each result of reading a list is the result of reading one of its items. -/
theorem exists_of_mem_mapM {α β : Type} {xs : List α} {f : α → Option β} {ys : List β}
    (h : xs.mapM f = some ys) {y : β} (hy : y ∈ ys) : ∃ x ∈ xs, f x = some y := by
  induction xs generalizing ys with
  | nil =>
    cases h
    cases hy
  | cons x xs ih =>
    rw [List.mapM_cons] at h
    obtain ⟨z, hz, h⟩ := Option.bind_eq_some_iff.1 h
    obtain ⟨zs, hzs, h⟩ := Option.bind_eq_some_iff.1 h
    cases h
    rcases List.mem_cons.1 hy with rfl | hy
    · exact ⟨x, List.mem_cons_self, hz⟩
    · obtain ⟨x', hx', hf⟩ := ih hzs hy
      exact ⟨x', List.mem_cons_of_mem _ hx', hf⟩

@[simp] theorem Value.text?_tree (s : String) : (Value.string s).tree.text? = some s := rfl

@[simp] theorem Value.items?_tree (items : List Value) :
    (Value.array items).tree.items? = some (items.map Value.tree) := by
  rw [Value.tree, itemTrees_eq_map]
  rfl

/-- Items that are read one by one as they were written are read together. -/
theorem mapM_tree_eq_some {α : Type} {toJson : α → Value} {ofTree? : Tree → Option α} {xs : List α}
    (h : ∀ x ∈ xs, ofTree? (toJson x).tree = some x) :
    ((xs.map toJson).map Value.tree).mapM ofTree? = some xs := by
  have hread := mapM_eq_some_map h
  rw [List.map_id'] at hread
  rw [List.map_map, List.mapM_map]
  exact hread

theorem foldl_toDigits (n : Nat) :
    (Nat.toDigits 10 n).foldl (fun v d => v * 10 + digitOf d) 0 = n := by
  have h := Nat.ofDigitChars_ten_toDigits (n := n)
  rw [Nat.ofDigitChars_eq_foldl] at h
  simp only [Nat.mul_comm 10] at h
  exact h

/-- A negative integer has a digit other than zero, so minus zero is not written. -/
@[simp] theorem Value.integer?_tree (value : Int) :
    (Value.number (.integer value)).tree.integer? = some value := by
  cases value with
  | ofNat n => simp [Value.tree, Number.literal, integerLiteral, Tree.integer?, foldl_toDigits]
  | negSucc n =>
    simp [Value.tree, Number.literal, integerLiteral, Tree.integer?, foldl_toDigits,
      Int.negSucc_eq]

theorem Tree.size?_le {t : Tree} {n : Nat} (h : t.size? = some n) : n ≤ maxSize := by
  obtain ⟨value, -, h⟩ := Option.bind_eq_some_iff.1 h
  split at h
  · next hrange =>
    simp only [Bool.and_eq_true, decide_eq_true_eq] at hrange
    cases h
    rw [maxSize]
    omega
  · cases h

theorem Value.size?_tree {n : Nat} (hn : n ≤ maxSize) : (Value.ofNat n).tree.size? = some n := by
  have hrange : (0 ≤ (n : Int) && (n : Int) < 0x10000000000000000) = true := by
    rw [maxSize] at hn
    simp only [Bool.and_eq_true, decide_eq_true_eq]
    omega
  rw [Value.ofNat, Tree.size?, Value.integer?_tree, Option.bind_eq_bind, Option.bind_some,
    if_pos hrange, Int.toNat_natCast]

@[simp] theorem Value.int32?_tree (value : Int32) :
    (Value.number (.integer value.toInt)).tree.int32? = some value := by
  have hrange : (-0x80000000 ≤ value.toInt && value.toInt < 0x80000000) = true := by
    have hlow := value.le_toInt
    have hhigh := value.toInt_lt
    simp only [Bool.and_eq_true, decide_eq_true_eq]
    omega
  rw [Tree.int32?, Value.integer?_tree, Option.bind_eq_bind, Option.bind_some, if_pos hrange,
    Int32.ofInt_toInt]

private theorem filter_key {members : List (String × Value)} (h : (members.map (·.1)).Nodup)
    (name : String) :
    members.filter (·.1 == name) = (members.lookup name).toList.map ((name, ·)) := by
  induction members with
  | nil => rfl
  | cons m members ih =>
    obtain ⟨key, value⟩ := m
    obtain ⟨hkey, hnodup⟩ := List.nodup_cons.1 h
    by_cases hname : name = key
    · subst hname
      have hnone : members.filter (·.1 == name) = [] := by
        rw [List.filter_eq_nil_iff]
        intro m hm heq
        exact hkey (List.mem_map.2 ⟨m, hm, eq_of_beq heq⟩)
      simp [hnone]
    · have hne : (name == key) = false := beq_false_of_ne hname
      have hne' : (key == name) = false := beq_false_of_ne (Ne.symm hname)
      simp [List.lookup_cons, hne, hne', ih hnodup]

/-- A field is found by its name if no two members have one key. -/
theorem Value.fields?_tree {members : List (String × Value)} (h : (members.map (·.1)).Nodup)
    (names : List String) :
    (Value.object members).tree.fields? names =
      some (names.map fun name => (members.lookup name).map Value.tree) := by
  have hfound : ∀ name, (members.map fun m => (m.1, m.2.tree)).filter (·.1 == name) =
      (members.lookup name).toList.map fun value => (name, value.tree) := by
    intro name
    rw [List.filter_map]
    show (members.filter (·.1 == name)).map _ = _
    rw [filter_key h, List.map_map]
    rfl
  rw [Value.tree, memberTrees_eq_map, Tree.fields?, List.mapM_map,
    mapM_eq_some_map (g := fun m => (m.1, m.2.tree)) fun _ _ => ?_]
  · refine mapM_eq_some_map fun name _ => ?_
    simp only [hfound]
    cases members.lookup name <;> rfl
  · rfl

end PercentFormat.Json
