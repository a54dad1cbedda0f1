import PercentFormat.FileTree
import PercentFormat.Proofs.Lines

/-! Paths that end with a file name. Another extension changes that name and nothing in front of
it. -/

namespace PercentFormat.Path

/-- What can stand in front of a file name. -/
def IsParent (parent : List Char) : Prop := parent = [] ∨ ∃ front, parent = front ++ ['/']

/-- A name that is that of a file: it does not stay in place or go up. -/
structure IsFileName (name : List Char) : Prop where
  ne_nil : name ≠ []
  slash : '/' ∉ name
  ne_dot : name ≠ ['.']
  ne_up : name ≠ ['.', '.']

theorem exists_parent {path : List Char} (hne : path ≠ []) (hlast : path.getLast? ≠ some '/') :
    ∃ parent name, path = parent ++ name ∧ IsParent parent ∧ name ≠ [] ∧ '/' ∉ name := by
  induction path with
  | nil => exact absurd rfl hne
  | cons c rest ih =>
    by_cases hrest : rest = []
    · subst hrest
      refine ⟨[], [c], rfl, .inl rfl, List.cons_ne_nil _ _, fun h => hlast ?_⟩
      rw [List.getLast?_singleton, List.mem_singleton.1 h]
    · rw [List.getLast?_cons_of_ne_nil hrest] at hlast
      obtain ⟨parent, name, rfl, hparent, hname, hslash⟩ := ih hrest hlast
      rcases hparent with rfl | ⟨front, rfl⟩
      · by_cases hc : c = '/'
        · exact ⟨['/'], name, by rw [hc]; rfl, .inr ⟨[], rfl⟩, hname, hslash⟩
        · exact ⟨[], c :: name, rfl, .inl rfl, List.cons_ne_nil _ _, by simp [Ne.symm hc, hslash]⟩
      · exact ⟨c :: front ++ ['/'], name, rfl, .inr ⟨c :: front, rfl⟩, hname, hslash⟩

private theorem bne_of_mem_reverse {mark : Char} {cs : List Char} (h : mark ∉ cs) :
    ∀ c ∈ cs.reverse, (c != mark) = true := by
  intro c hc
  rw [bne_iff_ne]
  rintro rfl
  exact h (List.mem_reverse.1 hc)

section
variable {parent name : List Char}

/-- The last name of a path is found behind those of what stands in front of it. -/
theorem names_append (hparent : IsParent parent) (hne : name ≠ []) (hslash : '/' ∉ name) :
    names (String.ofList (parent ++ name)) =
      names (String.ofList parent) ++ [String.ofList name] := by
  have hname : name.isEmpty = false := List.isEmpty_eq_false_iff.2 hne
  simp only [names, String.toList_ofList]
  rcases hparent with rfl | ⟨front, rfl⟩
  · rw [List.nil_append, Text.splitAt_of_notMem hslash]
    simp [hname, Text.splitAt]
  · rw [List.append_assoc, List.singleton_append, Text.splitAt_append, Text.splitAt_append,
      Text.splitAt_of_notMem hslash]
    simp [hname, Text.splitAt]

theorem isAbsolute_append (hparent : IsParent parent) (hslash : '/' ∉ name) :
    isAbsolute (String.ofList (parent ++ name)) = isAbsolute (String.ofList parent) := by
  simp only [isAbsolute, String.toList_ofList]
  rcases hparent with rfl | ⟨front, rfl⟩
  · cases name with
    | nil => rfl
    | cons c name => simpa using Ne.symm (List.ne_and_not_mem_of_not_mem_cons hslash).1
  · simp

private theorem takeWhile_reverse_append (hparent : IsParent parent) (hslash : '/' ∉ name) :
    (name.reverse ++ parent.reverse).takeWhile (· != '/') = name.reverse := by
  rw [List.takeWhile_append_of_pos (bne_of_mem_reverse hslash)]
  rcases hparent with rfl | ⟨front, rfl⟩ <;> simp

/-- A name is not trimmed off, unless it stays in place. -/
private theorem trimTail_reverse_append (parent : List Char) (hne : name ≠ []) (hslash : '/' ∉ name)
    (hdot : name ≠ ['.']) :
    trimTail (name.reverse ++ parent.reverse) = name.reverse ++ parent.reverse := by
  generalize hback : name.reverse = back
  obtain rfl : name = back.reverse := by rw [← hback, List.reverse_reverse]
  rw [List.mem_reverse] at hslash
  generalize hall : back ++ parent.reverse = all
  fun_cases trimTail all with
  | case1 rest =>
    cases back with
    | nil => exact absurd rfl hne
    | cons c back => cases hall; simp at hslash
  | case2 rest =>
    rcases back with _ | ⟨c, _ | ⟨d, back⟩⟩
    · exact absurd rfl hne
    · obtain rfl : c = '.' := (List.cons.inj hall).1
      exact absurd rfl hdot
    · cases hall; simp at hslash
  | case3 => rfl

private theorem splitFile?_append (hparent : IsParent parent) (hname : IsFileName name) :
    splitFile? (parent ++ name) = some (parent, name) := by
  have htrim := trimTail_reverse_append parent hname.ne_nil hname.slash hname.ne_dot
  have htake := takeWhile_reverse_append hparent hname.slash
  have hfile : name ∉ [[], ['.'], ['.', '.']] := by
    simp [hname.ne_nil, hname.ne_dot, hname.ne_up]
  simp only [splitFile?, List.reverse_append, htrim, htake, List.reverse_reverse, hfile, if_false]
  simp

private theorem splitFile?_append_up (hparent : IsParent parent) :
    splitFile? (parent ++ ['.', '.']) = none := by
  have hslash : '/' ∉ ['.', '.'] := by decide
  have htrim : trimTail (parent ++ ['.', '.']).reverse = ['.', '.'].reverse ++ parent.reverse := by
    rw [List.reverse_append]
    exact trimTail_reverse_append parent (by decide) hslash (by decide)
  simp only [splitFile?, htrim, takeWhile_reverse_append hparent hslash]
  rfl

end

section
variable {stem extension : List Char}

private theorem takeWhile_reverse_dot (hdot : '.' ∉ extension) (stem : List Char) :
    (stem ++ '.' :: extension).reverse.takeWhile (· != '.') = extension.reverse := by
  rw [List.reverse_append, List.reverse_cons, List.append_assoc,
    List.takeWhile_append_of_pos (bne_of_mem_reverse hdot)]
  simp

theorem splitName_append (hstem : stem ≠ []) (hdot : '.' ∉ extension) :
    splitName (stem ++ '.' :: extension) = (stem, some extension) := by
  have hlength : (stem ++ '.' :: extension).length - extension.length - 1 = stem.length := by
    simp only [List.length_append, List.length_cons]
    omega
  simp only [splitName, takeWhile_reverse_dot hdot, List.reverse_reverse, hlength, List.take_left]
  rw [if_neg]
  simp [hstem]
  omega

/-- A name is all stem, or it has a last dot with a stem in front of it. -/
theorem splitName_cases (name : List Char) :
    splitName name = (name, none) ∨
      ∃ stem extension, stem ≠ [] ∧ '.' ∉ extension ∧ name = stem ++ '.' :: extension := by
  by_cases hmem : '.' ∈ name
  · obtain ⟨back, front, hback, hdot⟩ := List.eq_append_cons_of_mem (List.mem_reverse.2 hmem)
    have hname : name = front.reverse ++ '.' :: back.reverse := by
      rw [← List.reverse_inj, hback]
      simp
    rw [← List.mem_reverse] at hdot
    by_cases hfront : front = []
    · left
      subst hfront
      rw [hname, splitName, takeWhile_reverse_dot hdot]
      simp
    · exact .inr ⟨front.reverse, back.reverse, by simpa using hfront, hdot, hname⟩
  · left
    have hall : name.reverse.takeWhile (· != '.') = name.reverse := by
      rw [← List.append_nil name.reverse, List.takeWhile_append_of_pos (bne_of_mem_reverse hmem)]
      rfl
    simp [splitName, hall]

theorem splitName_fst_isPrefix (name : List Char) : (splitName name).1 <+: name := by
  rcases splitName_cases name with hnone | ⟨stem, extension, hstem, hdot, rfl⟩
  · exact ⟨[], by simp [hnone]⟩
  · rw [splitName_append hstem hdot]
    exact List.prefix_append _ _

end

/-- What a path with a file name becomes with another extension. A stem that is only a dot goes up
instead. -/
theorem withExtension_cases {path : String} {parent name : List Char}
    (hpath : path.toList = parent ++ name) (hparent : IsParent parent) (hname : IsFileName name)
    (extension : String) :
    (withExtension extension path).toList = parent ++ ['.', '.'] ∨
      (withExtension extension path).toList =
        parent ++ ((splitName name).1 ++ '.' :: extension.toList) := by
  have hsplit := splitFile?_append hparent hname
  rcases splitName_cases name with hnone | ⟨stem, old, hstem, hdot, rfl⟩
  · right
    simp [withExtension, dropExtension, setExtension, hpath, hsplit, hnone]
  · have hdrop : dropExtension path.toList = parent ++ (stem ++ ['.']) := by
      have hfront : parent ++ (stem ++ '.' :: old) = (parent ++ (stem ++ ['.'])) ++ old := by simp
      rw [dropExtension, hpath, hsplit]
      simp only [Option.bind_some, splitName_append hstem hdot]
      rw [hfront, List.length_append, Nat.add_sub_cancel, List.take_left]
    by_cases hne : stem = ['.']
    · left
      subst hne
      simp [withExtension, hdrop, setExtension, splitFile?_append_up hparent]
    · right
      have hfile : IsFileName (stem ++ ['.']) := by
        have hlength : 1 ≤ stem.length := List.length_pos_iff.2 hstem
        refine ⟨by simp, fun h => hname.slash ?_, fun h => ?_, fun h => ?_⟩
        · exact List.mem_append_left _ (by simpa using h)
        · simpa [hstem] using congrArg List.length h
        · exact hne (List.append_inj_left' h rfl)
      have hagain : splitName (stem ++ ['.']) = (stem, some []) :=
        splitName_append hstem List.not_mem_nil
      simp [withExtension, hdrop, setExtension, splitFile?_append hparent hfile,
        splitName_append hstem hdot, hagain]

end PercentFormat.Path
