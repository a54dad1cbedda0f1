import PercentFormat.Fixture.Suite
import PercentFormat.Proofs.Json.Records

/-! Suites written and read again: the text of a suite reads as that suite, with every character of
its texts and every integer, as long as its sizes are numbers of 64 bits. -/

namespace PercentFormat.Fixture
open Json

/-- An argument is read by the name of its type. -/
theorem Arg.ofTree?_tagged (type : String) (value : Value) :
    Arg.ofTree? (Value.object [("type", .string type), ("value", value)]).tree =
      if type = "char" then (singleChar? value.tree).map .char
      else if type = "int" then value.tree.int32?.map .int
      else if type = "str" then value.tree.text?.map .str
      else none := by
  have hfields : (Value.object [("type", .string type), ("value", value)]).tree.fields?
      ["type", "value"] = some [some (Value.string type).tree, some value.tree] := by
    rw [Value.fields?_tree (by simp)]
    simp [List.lookup_cons]
  have htype : typeName? (Value.object [("type", .string type), ("value", value)]).tree
      (Value.string type).tree = some type := rfl
  simp only [Arg.ofTree?, hfields, htype, Option.bind_eq_bind, Option.bind_some]

theorem Arg.ofTree?_toJson (a : Arg) : Arg.ofTree? a.toJson.tree = some a := by
  cases a with
  | char c =>
    have hsingle : singleChar? (Value.string (String.singleton c)).tree = some c := by
      simp [singleChar?]
    simp [Arg.toJson, Arg.ofTree?_tagged, hsingle]
  | int value => simp [Arg.toJson, Arg.ofTree?_tagged]
  | str text => simp [Arg.toJson, Arg.ofTree?_tagged]

/-- The sizes of a case are numbers of 64 bits. -/
structure Case.Sized (c : Case) : Prop where
  length : c.expectedLength ≤ maxSize
  diagnostics : c.expectedDiagnostics ≤ maxSize

/-- A case is read field by field. -/
theorem Case.ofTree?_eq_some {t name template args output length diagnostics : Tree}
    {items : List Tree} {c : Case}
    (hfields : t.fields?
        ["name", "template", "args", "expected_output", "expected_len", "expected_diagnostics"] =
      some [some name, some template, some args, some output, some length, some diagnostics])
    (hname : name.text? = some c.name) (htemplate : template.text? = some c.template)
    (hitems : args.items? = some items) (hargs : items.mapM Arg.ofTree? = some c.args)
    (houtput : output.text? = some c.expectedOutput)
    (hlength : length.size? = some c.expectedLength)
    (hdiagnostics : diagnostics.size? = some c.expectedDiagnostics) :
    Case.ofTree? t = some c := by
  simp [Case.ofTree?, hfields, hname, htemplate, hitems, hargs, houtput, hlength, hdiagnostics]

theorem Case.ofTree?_toJson {c : Case} (h : c.Sized) : Case.ofTree? c.toJson.tree = some c := by
  refine Case.ofTree?_eq_some ?_ (Value.text?_tree _) (Value.text?_tree _) (Value.items?_tree _)
    (mapM_tree_eq_some fun a _ => a.ofTree?_toJson) (Value.text?_tree _)
    (Value.size?_tree h.length) (Value.size?_tree h.diagnostics)
  rw [Case.toJson, Value.fields?_tree (by simp)]
  simp [List.lookup_cons]

theorem Suite.ofTree?_toJson {s : Suite} (h : ∀ c ∈ s.cases, c.Sized) :
    Suite.ofTree? s.toJson.tree = some s := by
  have hcases : ((s.cases.map Case.toJson).map Value.tree).mapM Case.ofTree? = some s.cases :=
    mapM_tree_eq_some fun c hc => Case.ofTree?_toJson (h c hc)
  rw [Suite.toJson, Suite.ofTree?, Value.fields?_tree (by simp)]
  simp [List.lookup_cons, -List.map_map, -List.mapM_map, hcases]

theorem Arg.isIntegral_toJson (a : Arg) : a.toJson.isIntegral = true := by
  cases a <;> rfl

theorem Case.isIntegral_toJson (c : Case) : c.toJson.isIntegral = true := by
  simp [Case.toJson, Value.ofNat, Value.isIntegral, membersIntegral, itemsIntegral_iff,
    Arg.isIntegral_toJson]

theorem Suite.isIntegral_toJson (s : Suite) : s.toJson.isIntegral = true := by
  simp [Suite.toJson, Value.isIntegral, membersIntegral, itemsIntegral_iff, Case.isIntegral_toJson]

theorem Suite.parse?_text {s : Suite} (h : ∀ c ∈ s.cases, c.Sized) :
    Suite.parse? s.text = some s := by
  rw [Suite.parse?, Suite.text, Value.pretty, Tree.parse?_render s.isIntegral_toJson]
  exact Suite.ofTree?_toJson h

theorem Case.sized_of_ofTree? {t : Tree} {c : Case} (h : Case.ofTree? t = some c) : c.Sized := by
  simp only [Case.ofTree?, Option.bind_eq_bind, Option.bind_eq_some_iff] at h
  obtain ⟨fields, -, h⟩ := h
  split at h
  · next name template args output length diagnostics =>
    simp only [Option.bind_eq_some_iff] at h
    obtain ⟨_, -, _, -, _, -, _, -, _, -, _, -, _, -, _, -, _, -, _, -, size, hsize, h⟩ := h
    cases diagnostics with
    | none =>
      cases h
      exact ⟨Tree.size?_le hsize, Nat.zero_le _⟩
    | some t =>
      obtain ⟨count, hcount, h⟩ := Option.bind_eq_some_iff.1 h
      cases h
      exact ⟨Tree.size?_le hsize, Tree.size?_le hcount⟩
  · cases h

/-- Whatever text a suite is read from, its sizes are numbers of 64 bits. -/
theorem Suite.sized_of_parse? {text : String} {s : Suite} (h : Suite.parse? text = some s) :
    ∀ c ∈ s.cases, c.Sized := by
  intro c hc
  obtain ⟨t, -, h⟩ := Option.bind_eq_some_iff.1 h
  simp only [Suite.ofTree?, Option.bind_eq_bind, Option.bind_eq_some_iff] at h
  obtain ⟨fields, -, h⟩ := h
  split at h
  · next version family capturedAt cases =>
    simp only [Option.bind_eq_some_iff] at h
    obtain ⟨_, -, _, -, _, -, _, -, _, -, _, -, _, -, items, -, found, hfound, h⟩ := h
    cases h
    obtain ⟨t, -, ht⟩ := exists_of_mem_mapM hfound hc
    exact Case.sized_of_ofTree? ht
  · cases h

/-- A suite is read back from its text, equal in every field, exactly when the text can hold its
sizes. -/
theorem Suite.parse?_text_eq_some_iff (s : Suite) :
    Suite.parse? s.text = some s ↔ ∀ c ∈ s.cases, c.Sized :=
  ⟨Suite.sized_of_parse?, Suite.parse?_text⟩

/-- Everything that is escaped, both bounds of the numbers, and empty lists. -/
theorem Suite.parse?_text_eq_some_iff_extremes :
    let s : Suite := ⟨"\"v\\1\"", "\x08\t\n\x0c\r\x00\x1f\x7f", "é→😀", [
      ⟨"", "%c%d%s", [.char '"', .int (-2147483648), .str "\\u0000"], "", 18446744073709551615, 0⟩,
      ⟨"empty", "", [], "", 0, 18446744073709551615⟩]⟩
    Suite.parse? s.text = some s := by
  intro s
  refine (Suite.parse?_text_eq_some_iff s).2 fun c hc => ?_
  simp only [s, List.mem_cons, List.not_mem_nil, or_false] at hc
  rcases hc with rfl | rfl
  · exact ⟨by decide, by decide⟩
  · exact ⟨by decide, by decide⟩

end PercentFormat.Fixture
