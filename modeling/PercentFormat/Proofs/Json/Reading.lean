import PercentFormat.Proofs.Json.Tokens

/-! Values written and read again: the text of a value without binary numbers, on one line or on
many, reads as the tree of that value. -/

namespace PercentFormat.Json

/-- How a number is written. Nothing is claimed of a binary number. -/
def Number.literal : Number → Literal
  | .integer value => integerLiteral value
  | .binary negative _ => ⟨negative, [], [], none⟩

mutual

/-- Whether every number in a value is an integer. -/
def Value.isIntegral : Value → Bool
  | .number (.binary _ _) => false
  | .array items => itemsIntegral items
  | .object members => membersIntegral members
  | _ => true

def itemsIntegral : List Value → Bool
  | [] => true
  | item :: items => item.isIntegral && itemsIntegral items

def membersIntegral : List (String × Value) → Bool
  | [] => true
  | (_, value) :: members => value.isIntegral && membersIntegral members

end

mutual

/-- The tree of a value. -/
def Value.tree : Value → Tree
  | .null => .null
  | .bool value => .bool value
  | .number n => .number n.literal
  | .string s => .string (some s)
  | .array items => .array (itemTrees items)
  | .object members => .object (memberTrees members)

def itemTrees : List Value → List Tree
  | [] => []
  | item :: items => item.tree :: itemTrees items

def memberTrees : List (String × Value) → List (Option String × Tree)
  | [] => []
  | (key, value) :: members => (some key, value.tree) :: memberTrees members

end

mutual

/-- The tokens of a value. -/
def Value.tokens : Value → List Token
  | .null => [.null]
  | .bool value => [.bool value]
  | .number n => [.number n.literal]
  | .string s => [.string (some s)]
  | .array [] => [.openBracket, .closeBracket]
  | .array (item :: items) =>
    .openBracket :: item.tokens ++ itemTokens items ++ [.closeBracket]
  | .object [] => [.openBrace, .closeBrace]
  | .object ((key, value) :: members) =>
    .openBrace :: .string (some key) :: .colon :: value.tokens ++ memberTokens members
      ++ [.closeBrace]

/-- The tokens of the items after the first one. -/
def itemTokens : List Value → List Token
  | [] => []
  | item :: items => .comma :: item.tokens ++ itemTokens items

/-- The tokens of the members after the first one. -/
def memberTokens : List (String × Value) → List Token
  | [] => []
  | (key, value) :: members =>
    .comma :: .string (some key) :: .colon :: value.tokens ++ memberTokens members

end

theorem itemTrees_eq_map (items : List Value) : itemTrees items = items.map Value.tree := by
  induction items with
  | nil => rfl
  | cons item items ih => rw [itemTrees, ih, List.map_cons]

theorem memberTrees_eq_map (members : List (String × Value)) :
    memberTrees members = members.map fun m => (some m.1, m.2.tree) := by
  induction members with
  | nil => rfl
  | cons m members ih => rw [memberTrees, ih, List.map_cons]

theorem itemsIntegral_iff {items : List Value} :
    itemsIntegral items = true ↔ ∀ v ∈ items, v.isIntegral = true := by
  induction items with
  | nil => simp [itemsIntegral]
  | cons item items ih => simp [itemsIntegral, ih]

theorem membersIntegral_iff {members : List (String × Value)} :
    membersIntegral members = true ↔ ∀ m ∈ members, m.2.isIntegral = true := by
  induction members with
  | nil => simp [membersIntegral]
  | cons m members ih => simp [membersIntegral, ih]

/-- Induction on a value: what holds of the parts of a container holds of the container. -/
@[elab_as_elim]
theorem Value.induct {motive : Value → Prop} (null : motive .null) (bool : ∀ b, motive (.bool b))
    (number : ∀ n, motive (.number n)) (string : ∀ s, motive (.string s))
    (array : ∀ items, (∀ v ∈ items, motive v) → motive (.array items))
    (object : ∀ members, (∀ m ∈ members, motive m.2) → motive (.object members)) (v : Value) :
    motive v :=
  @Value.rec motive (fun items => ∀ v ∈ items, motive v) (fun members => ∀ m ∈ members, motive m.2)
    (fun m => motive m.2) null bool number string array object
    (fun _ hv => absurd hv List.not_mem_nil)
    (fun _ _ hitem hitems => List.forall_mem_cons.2 ⟨hitem, hitems⟩)
    (fun _ hm => absurd hm List.not_mem_nil)
    (fun _ _ hm hmembers => List.forall_mem_cons.2 ⟨hm, hmembers⟩)
    (fun _ _ hv => hv) v

/-- The tokens of the value are read as its tree, whatever follows them. -/
def Value.Reads (v : Value) : Prop :=
  ∀ (fuel : Nat) (rest : List Token), 2 * v.tokens.length ≤ fuel →
    readValue? fuel (v.tokens ++ rest) = some (v.tree, rest)

theorem readItems?_itemTokens {item : Value} {items : List Value} (hitem : item.Reads)
    (hitems : ∀ v ∈ items, v.Reads) (fuel : Nat) (rest : List Token)
    (hf : 2 * (item.tokens ++ itemTokens items).length < fuel) :
    readItems? fuel (item.tokens ++ itemTokens items ++ .closeBracket :: rest) =
      some (itemTrees (item :: items), rest) := by
  obtain _ | fuel := fuel
  · exact absurd hf (Nat.not_lt_zero _)
  induction items generalizing item fuel with
  | nil =>
    simp only [itemTokens, List.append_nil] at hf ⊢
    rw [readItems?, hitem fuel _ (by omega)]
    rfl
  | cons next items ih =>
    simp only [itemTokens, List.length_append, List.length_cons] at hf
    simp only [itemTokens, List.append_assoc, List.cons_append]
    rw [readItems?, hitem fuel _ (by omega)]
    obtain _ | fuel := fuel
    · omega
    have hnext := List.forall_mem_cons.1 hitems
    have := ih hnext.1 hnext.2 fuel (by rw [List.length_append]; omega)
    rw [List.append_assoc] at this
    simp only [this]
    rfl

theorem readMembers?_memberTokens (key : String) {value : Value} {members : List (String × Value)}
    (hvalue : value.Reads) (hmembers : ∀ m ∈ members, m.2.Reads) (fuel : Nat) (rest : List Token)
    (hf : 2 * (value.tokens ++ memberTokens members).length < fuel) :
    readMembers? fuel (.string (some key) :: .colon ::
        (value.tokens ++ memberTokens members ++ .closeBrace :: rest)) =
      some (memberTrees ((key, value) :: members), rest) := by
  obtain _ | fuel := fuel
  · exact absurd hf (Nat.not_lt_zero _)
  induction members generalizing key value fuel with
  | nil =>
    simp only [memberTokens, List.append_nil] at hf ⊢
    rw [readMembers?, hvalue fuel _ (by omega)]
    rfl
  | cons next members ih =>
    simp only [memberTokens, List.length_append, List.length_cons] at hf
    simp only [memberTokens, List.append_assoc, List.cons_append]
    rw [readMembers?, hvalue fuel _ (by omega)]
    obtain _ | fuel := fuel
    · omega
    have hnext := List.forall_mem_cons.1 hmembers
    have := ih next.1 hnext.1 hnext.2 fuel (by rw [List.length_append]; omega)
    rw [List.append_assoc] at this
    simp only [this]
    rfl

/-- No value starts where an array ends. -/
private theorem tokens_eq_cons (v : Value) : ∃ t ts, v.tokens = t :: ts ∧ t ≠ .closeBracket := by
  unfold Value.tokens
  split <;> exact ⟨_, _, rfl, by simp⟩

theorem Value.reads (v : Value) : v.Reads := by
  induction v using Value.induct with
  | null | bool | number | string =>
    intro fuel rest hf
    obtain _ | fuel := fuel
    · exact absurd hf (by simp [Value.tokens])
    · rfl
  | array items ih =>
    intro fuel rest hf
    obtain _ | fuel := fuel
    · cases items <;> exact absurd hf (by simp [Value.tokens])
    cases items with
    | nil => rfl
    | cons item items =>
      have hitems := List.forall_mem_cons.1 ih
      simp only [Value.tokens, List.length_append, List.length_cons] at hf
      have hread := readItems?_itemTokens hitems.1 hitems.2 fuel rest
        (by rw [List.length_append]; omega)
      obtain ⟨t, ts, hts, ht⟩ := tokens_eq_cons item
      rw [hts] at hread
      simp only [Value.tokens, hts, List.cons_append, List.append_assoc, List.nil_append] at hread ⊢
      rw [readValue?, hread]
      · rfl
      · intro _ h
        exact ht (List.cons.inj h).1
  | object members ih =>
    intro fuel rest hf
    obtain _ | fuel := fuel
    · cases members <;> exact absurd hf (by simp [Value.tokens])
    cases members with
    | nil => rfl
    | cons m members =>
      have hmembers := List.forall_mem_cons.1 ih
      simp only [Value.tokens, List.length_append, List.length_cons] at hf
      have hread := readMembers?_memberTokens m.1 hmembers.1 hmembers.2 fuel rest
        (by rw [List.length_append]; omega)
      simp only [Value.tokens, List.cons_append, List.append_assoc, List.nil_append] at hread ⊢
      rw [readValue?, hread]
      · rfl
      · intro _ h
        cases h

/-- The text of the value is made of its tokens, whatever separate text follows it. -/
def Value.Renders (v : Value) : Prop :=
  ∀ (level : Option Nat) {rest : List Char} {ts : List Token}, Tokenizes rest ts → Separates rest →
    Tokenizes (v.render level ++ rest) (v.tokens ++ ts)

private theorem separates_lineBreak (level : Option Nat) {c : Char} {rest : List Char}
    (h : Separates (c :: rest)) : Separates (lineBreak level ++ c :: rest) := by
  cases level with
  | none => exact h
  | some level => exact separates_cons (by decide)

/-- The items after the first one start with a comma, and what follows them closes the array. -/
theorem Tokenizes.items {items : List Value} (hitems : ∀ v ∈ items, v.Renders) (level : Option Nat)
    {rest : List Char} {ts : List Token} (h : Tokenizes rest ts) (hr : Separates rest) :
    Tokenizes (renderItems level items ++ rest) (itemTokens items ++ ts) ∧
      Separates (renderItems level items ++ rest) := by
  induction items with
  | nil => exact ⟨h, hr⟩
  | cons item items ih =>
    obtain ⟨hitem, hitems⟩ := List.forall_mem_cons.1 hitems
    obtain ⟨htok, hsep⟩ := ih hitems
    simp only [renderItems, itemTokens, List.cons_append, List.append_assoc]
    exact ⟨.cons rfl rfl (.lineBreak level (hitem level htok hsep)), separates_cons (by decide)⟩

theorem Tokenizes.members {members : List (String × Value)} (hmembers : ∀ m ∈ members, m.2.Renders)
    (level : Option Nat) {rest : List Char} {ts : List Token} (h : Tokenizes rest ts)
    (hr : Separates rest) :
    Tokenizes (renderMembers level members ++ rest) (memberTokens members ++ ts) ∧
      Separates (renderMembers level members ++ rest) := by
  induction members with
  | nil => exact ⟨h, hr⟩
  | cons m members ih =>
    obtain ⟨hvalue, hmembers⟩ := List.forall_mem_cons.1 hmembers
    obtain ⟨htok, hsep⟩ := ih hmembers
    simp only [renderMembers, memberTokens, List.cons_append, List.append_assoc]
    exact ⟨.cons rfl rfl (.lineBreak level (.string m.1 (.keyMark level (hvalue level htok hsep)))),
      separates_cons (by decide)⟩

theorem Value.renders {v : Value} (hv : v.isIntegral = true) : v.Renders := by
  induction v using Value.induct with
  | null =>
    intro level rest ts h hr
    exact .token rfl rfl (Nat.le_add_right _ 3) h
  | bool b =>
    intro level rest ts h hr
    cases b with
    | true => exact .token rfl rfl (Nat.le_add_right _ 3) h
    | false => exact .token rfl rfl (Nat.le_add_right _ 4) h
  | number n =>
    intro level rest ts h hr
    cases n with
    | integer value => exact .integer value h hr
    | binary negative magnitude => cases hv
  | string s =>
    intro level rest ts h hr
    exact .string s h
  | array items ih =>
    intro level rest ts h hr
    cases items with
    | nil => exact .cons rfl rfl (.cons rfl rfl h)
    | cons item items =>
      have hitems := List.forall_mem_cons.1 fun v hmem => ih v hmem (itemsIntegral_iff.1 hv v hmem)
      have hclose : Separates (']' :: rest) := separates_cons (by decide)
      obtain ⟨htok, hsep⟩ := Tokenizes.items hitems.2 (deeper level)
        (.lineBreak level (.cons rfl rfl h)) (separates_lineBreak level hclose)
      simp only [Value.render, Value.tokens, List.cons_append, List.append_assoc, List.nil_append]
      exact .cons rfl rfl (.lineBreak _ (hitems.1 _ htok hsep))
  | object members ih =>
    intro level rest ts h hr
    cases members with
    | nil => exact .cons rfl rfl (.cons rfl rfl h)
    | cons m members =>
      have hmembers :=
        List.forall_mem_cons.1 fun v hmem => ih v hmem (membersIntegral_iff.1 hv v hmem)
      have hclose : Separates ('\x7d' :: rest) := separates_cons (by decide)
      obtain ⟨htok, hsep⟩ := Tokenizes.members hmembers.2 (deeper level)
        (.lineBreak level (.cons rfl rfl h)) (separates_lineBreak level hclose)
      simp only [Value.render, Value.tokens, List.cons_append, List.append_assoc, List.nil_append]
      exact .cons rfl rfl
        (.lineBreak _ (.string m.1 (.keyMark _ (hmembers.1 _ htok hsep))))

/-- What is written for a value is read as its tree. -/
theorem Tree.parse?_render {v : Value} (hv : v.isIntegral = true) (level : Option Nat) :
    Tree.parse? (String.ofList (v.render level)) = some v.tree := by
  have htok := Value.renders hv level .nil separates_nil
  have hread := v.reads (2 * v.tokens.length) [] (Nat.le_refl _)
  simp only [List.append_nil] at htok hread
  rw [Tree.parse?, String.toList_ofList, htok.tokens?_eq, Option.bind_eq_bind, Option.bind_some,
    hread]

end PercentFormat.Json
