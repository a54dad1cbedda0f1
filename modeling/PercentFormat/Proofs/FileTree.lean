import PercentFormat.FileTree
import PercentFormat.Proofs.Paths
import PercentFormat.Proofs.Step

/-! Files written and read by path: what was written is read again, and no other file changes.
Writing a file never changes where a path leads that leads somewhere. -/

namespace PercentFormat.FileTree

/-- A name that is not too long for a directory. -/
def fits (name : String) : Prop := (Utf8.encode name).length ≤ maxName

instance (name : String) : Decidable (fits name) := inferInstanceAs (Decidable (_ ≤ _))

private theorem child_eq_ok_iff {t : FileTree} {dir : Location} {name : String} {found : Option Node} :
    t.child dir name = .ok found ↔ fits name ∧ t.get? (dir ++ [name]) = found := by
  unfold child fits
  split
  · next h => exact iff_of_false nofun fun hfits => absurd hfits.1 (Nat.not_le.2 h)
  · next h => simp [Nat.le_of_not_lt h]

/-- A directory that is there can be entered, and nothing else. -/
private theorem walk_cons_eq_ok_iff {t : FileTree} {dir last : Location} {name : String}
    {names : List String} (hdot : name ≠ ".") (hup : name ≠ "..") :
    t.walk dir (name :: names) = .ok last ↔
      fits name ∧ t.get? (dir ++ [name]) = some .directory ∧
        t.walk (dir ++ [name]) names = .ok last := by
  rw [walk, if_neg hdot, if_neg hup, ← and_assoc, ← child_eq_ok_iff]
  rcases t.child dir name with fault | _ | content | _ <;> simp

/-- A tree that has the directories of another one, and files at other places perhaps. -/
def SameDirectories (t u : FileTree) : Prop :=
  t.home = u.home ∧ ∀ l, t.get? l = some .directory ↔ u.get? l = some .directory

theorem SameDirectories.refl (t : FileTree) : t.SameDirectories t := ⟨rfl, fun _ => Iff.rfl⟩

theorem SameDirectories.trans {t u v : FileTree} (h : t.SameDirectories u)
    (h' : u.SameDirectories v) : t.SameDirectories v :=
  ⟨h.1.trans h'.1, fun l => (h.2 l).trans (h'.2 l)⟩

theorem walk_of_sameDirectories {t u : FileTree} (h : t.SameDirectories u) (dir last : Location)
    (names : List String) : t.walk dir names = .ok last ↔ u.walk dir names = .ok last := by
  induction names generalizing dir with
  | nil => rfl
  | cons name names ih =>
    by_cases hdot : name = "."
    · rw [walk, walk, if_pos hdot, if_pos hdot]
      exact ih dir
    · by_cases hup : name = ".."
      · rw [walk, walk, if_neg hdot, if_neg hdot, if_pos hup, if_pos hup]
        exact ih dir.dropLast
      · rw [walk_cons_eq_ok_iff hdot hup, walk_cons_eq_ok_iff hdot hup, h.2, ih]

/-- The place that the last name of a path has in a directory. -/
def placeAt (path : String) (dir : Location) : Place :=
  match (Path.names path).getLast? with
  | none => .directory dir
  | some name =>
    if name = "." then .directory dir
    else if name = ".." then .directory dir.dropLast
    else .entry dir name (Path.endsWithSlash path)

private theorem placeAt_eq_entry_iff {path name : String} {dir last : Location} {slash : Bool} :
    placeAt path dir = .entry last name slash ↔
      (Path.names path).getLast? = some name ∧ name ≠ "." ∧ name ≠ ".." ∧ dir = last ∧
        Path.endsWithSlash path = slash := by
  unfold placeAt
  cases (Path.names path).getLast? with
  | none => simp
  | some found => grind

/-- Where a path leads is where the names in front of its last one lead. -/
theorem locate_eq (t : FileTree) {path : String} (hempty : path ≠ "")
    (hlong : (Utf8.encode path).length ≤ maxPath) :
    t.locate path =
      (t.walk (if Path.isAbsolute path then [] else t.home) (Path.names path).dropLast).map
        (placeAt path) := by
  have hempty' : path.isEmpty = false := by simpa using hempty
  simp only [locate, hempty', Nat.not_lt.2 hlong, Bool.false_eq_true, if_false]
  cases t.walk (if Path.isAbsolute path then [] else t.home) (Path.names path).dropLast with
  | error fault => rfl
  | ok dir =>
    simp only [ok_bind, Except.map, placeAt]
    cases (Path.names path).getLast? with
    | none => rfl
    | some name =>
      by_cases hdot : name = "."
      · subst hdot
        rfl
      · by_cases hup : name = ".."
        · subst hup
          rfl
        · simp only [hdot, hup, decide_false, Bool.or_self, Bool.false_eq_true, if_false]
          rfl

theorem locate_eq_ok_iff {t : FileTree} {path : String} {place : Place} :
    t.locate path = .ok place ↔
      path ≠ "" ∧ (Utf8.encode path).length ≤ maxPath ∧
        ∃ dir, t.walk (if Path.isAbsolute path then [] else t.home) (Path.names path).dropLast =
          .ok dir ∧ placeAt path dir = place := by
  by_cases hempty : path = ""
  · subst hempty
    exact iff_of_false nofun fun h => h.1 rfl
  by_cases hlong : maxPath < (Utf8.encode path).length
  · have hempty' : path.isEmpty = false := by simpa using hempty
    refine iff_of_false ?_ fun h => absurd h.2.1 (Nat.not_le.2 hlong)
    simp only [locate, hempty', hlong, if_true]
    exact nofun
  · rw [t.locate_eq hempty (Nat.le_of_not_lt hlong)]
    simp only [ne_eq, hempty, not_false_eq_true, Nat.le_of_not_lt hlong, true_and]
    cases t.walk (if Path.isAbsolute path then [] else t.home) (Path.names path).dropLast <;>
      simp [Except.map]

theorem locate_of_sameDirectories {t u : FileTree} (h : t.SameDirectories u) {path : String}
    {place : Place} : t.locate path = .ok place ↔ u.locate path = .ok place := by
  simp only [locate_eq_ok_iff, walk_of_sameDirectories h, h.1]

/-- Two paths that do not lead to one place. -/
def Apart (t : FileTree) (p q : String) : Prop :=
  ∀ place, t.locate p = .ok place → t.locate q ≠ .ok place

theorem Apart.symm {t : FileTree} {p q : String} (h : t.Apart p q) : t.Apart q p :=
  fun place hq hp => h place hp hq

theorem apart_of_sameDirectories {t u : FileTree} (h : t.SameDirectories u) {p q : String} :
    t.Apart p q ↔ u.Apart p q := by
  simp only [Apart, ne_eq, locate_of_sameDirectories h]

theorem apart_of_name_ne {t : FileTree} {p q a b : String} {dir last : Location} {slash slash' : Bool}
    (hp : t.locate p = .ok (.entry dir a slash)) (hq : t.locate q = .ok (.entry last b slash'))
    (hne : a ≠ b) : t.Apart p q := by
  intro place hplace hplace'
  cases hp.symm.trans hplace
  cases hq.symm.trans hplace'
  exact hne rfl

/-- A file is read where a path leads to its name and no slash follows it. -/
theorem read_eq_ok_iff {t : FileTree} {path : String} {content : Bytes} :
    t.read path = .ok content ↔ ∃ dir name, t.locate path = .ok (.entry dir name false) ∧
      fits name ∧ t.get? (dir ++ [name]) = some (.file content) := by
  rw [read]
  constructor
  · intro h
    obtain ⟨place, hplace, h⟩ := exists_of_bind_ok h
    cases place with
    | directory l => cases h
    | entry dir name slash =>
      obtain ⟨found, hchild, h⟩ := exists_of_bind_ok h
      obtain ⟨hfits, rfl⟩ := child_eq_ok_iff.1 hchild
      split at h
      · cases h
      · cases h
      · next held hheld =>
        cases slash
        · cases h
          exact ⟨dir, name, hplace, hfits, hheld⟩
        · cases h
  · rintro ⟨dir, name, hplace, hfits, hheld⟩
    rw [hplace, ok_bind]
    simp only [child_eq_ok_iff.2 ⟨hfits, hheld⟩]
    rfl

/-- A file is written where a path leads to a name that is not that of a directory. -/
theorem write_eq_ok_iff {t after : FileTree} {path : String} {content : Bytes} :
    t.write path content = .ok after ↔ ∃ dir name, t.locate path = .ok (.entry dir name false) ∧
      fits name ∧ t.get? (dir ++ [name]) ≠ some .directory ∧
      t.put (dir ++ [name]) (.file content) = after := by
  rw [write]
  constructor
  · intro h
    obtain ⟨place, hplace, h⟩ := exists_of_bind_ok h
    rcases place with l | ⟨dir, name, _ | _⟩
    · cases h
    · obtain ⟨found, hchild, h⟩ := exists_of_bind_ok h
      obtain ⟨hfits, rfl⟩ := child_eq_ok_iff.1 hchild
      refine ⟨dir, name, hplace, hfits, ?_⟩
      split at h
      · cases h
      · next hdir => exact ⟨hdir, Except.ok.inj h⟩
    · cases h
  · rintro ⟨dir, name, hplace, hfits, hdir, rfl⟩
    rw [hplace, ok_bind]
    simp only [child_eq_ok_iff.2 ⟨hfits, rfl⟩, ok_bind]
    rfl

/-- A path to which a file can be written. -/
def Accepts (t : FileTree) (path : String) : Prop :=
  ∃ dir name, t.locate path = .ok (.entry dir name false) ∧ fits name ∧
    t.get? (dir ++ [name]) ≠ some .directory

theorem Accepts.exists_write {t : FileTree} {path : String} (h : t.Accepts path) (content : Bytes) :
    ∃ after, t.write path content = .ok after := by
  obtain ⟨dir, name, hplace, hfits, hdir⟩ := h
  exact ⟨_, write_eq_ok_iff.2 ⟨dir, name, hplace, hfits, hdir, rfl⟩⟩

theorem accepts_of_sameDirectories {t u : FileTree} (h : t.SameDirectories u) {path : String} :
    t.Accepts path ↔ u.Accepts path := by
  simp only [Accepts, locate_of_sameDirectories h, ne_eq, h.2]

/-- Putting a file where no directory stands keeps all directories. -/
theorem sameDirectories_put {t : FileTree} {dir : Location} {name : String}
    (hdir : t.get? (dir ++ [name]) ≠ some .directory) (content : Bytes) :
    (t.put (dir ++ [name]) (.file content)).SameDirectories t := by
  refine ⟨rfl, fun l => ?_⟩
  by_cases hl : l = dir ++ [name]
  · subst hl
    rw [get?_put_self _ _ _ (by simp)]
    exact iff_of_false nofun hdir
  · rw [get?_put_of_ne _ _ _ _ hl]

theorem sameDirectories_write {t after : FileTree} {path : String} {content : Bytes}
    (h : t.write path content = .ok after) : after.SameDirectories t := by
  obtain ⟨dir, name, -, -, hdir, rfl⟩ := write_eq_ok_iff.1 h
  exact sameDirectories_put hdir content

/-- What was written is read. -/
theorem read_write_self {t after : FileTree} {path : String} {content : Bytes}
    (h : t.write path content = .ok after) : after.read path = .ok content := by
  have hsame := sameDirectories_write h
  obtain ⟨dir, name, hplace, hfits, -, rfl⟩ := write_eq_ok_iff.1 h
  refine read_eq_ok_iff.2 ⟨dir, name, (locate_of_sameDirectories hsame).2 hplace, hfits, ?_⟩
  exact get?_put_self _ _ _ (by simp)

/-- What a path reads that leads to another place does not change. -/
theorem read_write_of_apart {t after : FileTree} {path other : String} {content : Bytes}
    (h : t.write path content = .ok after) (hapart : t.Apart other path) (held : Bytes) :
    after.read other = .ok held ↔ t.read other = .ok held := by
  have hsame := sameDirectories_write h
  obtain ⟨dir, name, hplace, -, -, rfl⟩ := write_eq_ok_iff.1 h
  simp only [read_eq_ok_iff, locate_of_sameDirectories hsame]
  refine exists_congr fun d => exists_congr fun n => and_congr_right fun hother =>
    and_congr_right fun _ => ?_
  rw [get?_put_of_ne]
  intro hl
  obtain ⟨rfl, hn⟩ := List.append_inj' hl rfl
  cases hn
  exact hapart _ hother hplace

/-- A file that is read stays one, whatever file is written. -/
theorem exists_read_write {t after : FileTree} {path other : String} {content held : Bytes}
    (h : t.write path content = .ok after) (hread : t.read other = .ok held) :
    ∃ now, after.read other = .ok now := by
  by_cases hlocate : t.locate other = t.locate path
  · have hsame := sameDirectories_write h
    obtain ⟨dir, name, hplace, hfile⟩ := read_eq_ok_iff.1 (read_write_self h)
    rw [locate_of_sameDirectories hsame, ← hlocate, ← locate_of_sameDirectories hsame] at hplace
    exact ⟨content, read_eq_ok_iff.2 ⟨dir, name, hplace, hfile⟩⟩
  · have hapart : t.Apart other path := fun place hother hpath =>
      hlocate (hother.trans hpath.symm)
    exact ⟨held, (read_write_of_apart h hapart held).2 hread⟩

/-- What is written behind the end is added. -/
theorem splice_length (old content : Bytes) : splice old old.length content = old ++ content := by
  unfold splice
  split
  · next h => rw [h, List.append_nil]
  · simp

/-- As many bytes are replaced at the start as are written there. -/
theorem splice_zero {content front : Bytes} (hne : content ≠ [])
    (h : content.length = front.length) (back : Bytes) :
    splice (front ++ back) 0 content = content ++ back := by
  rw [splice, if_neg hne, Nat.zero_add, h, List.drop_left]
  simp

/-- A file that is read can be written over. -/
theorem write_of_read {t : FileTree} {path : String} {held : Bytes} (h : t.read path = .ok held)
    (offset : Nat) (content : Bytes) :
    t.write path (splice held offset content) = .ok (t.overwrite path offset content) := by
  obtain ⟨dir, name, hplace, hfits, hfile⟩ := read_eq_ok_iff.1 h
  have hwrite : t.write path (splice held offset content) =
      .ok (t.put (dir ++ [name]) (.file (splice held offset content))) :=
    write_eq_ok_iff.2 ⟨dir, name, hplace, hfits, by simp [hfile], rfl⟩
  rw [overwrite, h]
  simp only [hwrite]
  rfl

/-- A path that leads to an entry ends with the name of it, which is a file name. -/
private theorem exists_parent_of_locate {t : FileTree} {path name : String} {dir : Location}
    (h : t.locate path = .ok (.entry dir name false)) :
    ∃ parent, path.toList = parent ++ name.toList ∧ Path.IsParent parent ∧
      Path.IsFileName name.toList := by
  obtain ⟨hempty, -, d, -, hplace⟩ := locate_eq_ok_iff.1 h
  obtain ⟨hlast, hdot, hup, -, hslash⟩ := placeAt_eq_entry_iff.1 hplace
  have hend : path.toList.getLast? ≠ some '/' := by simpa [Path.endsWithSlash] using hslash
  obtain ⟨parent, file, hpath, hparent, hne, hfile⟩ :=
    Path.exists_parent (by simpa using hempty) hend
  obtain rfl : file = name.toList := by
    rw [← String.ofList_toList (s := path), hpath, Path.names_append hparent hne hfile,
      List.getLast?_concat] at hlast
    rw [← Option.some.inj hlast, String.toList_ofList]
  refine ⟨parent, hpath, hparent, hne, hfile, ?_, ?_⟩
  · exact fun h => hdot (String.toList_inj.1 h)
  · exact fun h => hup (String.toList_inj.1 h)

/-- The directory of an entry depends on what stands in front of its name only. -/
theorem walk_of_locate {t : FileTree} {path name : String} {parent file : List Char}
    {dir : Location} {slash : Bool} (hpath : path.toList = parent ++ file)
    (hparent : Path.IsParent parent) (hne : file ≠ []) (hfile : '/' ∉ file)
    (h : t.locate path = .ok (.entry dir name slash)) :
    t.walk (if Path.isAbsolute (String.ofList parent) then [] else t.home)
      (Path.names (String.ofList parent)) = .ok dir ∧ name.toList = file ∧ name ≠ ".." := by
  obtain ⟨-, -, d, hwalk, hplace⟩ := locate_eq_ok_iff.1 h
  obtain ⟨hlast, -, hup, rfl, -⟩ := placeAt_eq_entry_iff.1 hplace
  rw [← String.ofList_toList (s := path), hpath, Path.names_append hparent hne hfile] at hwalk hlast
  rw [Path.isAbsolute_append hparent hfile, List.dropLast_concat] at hwalk
  rw [List.getLast?_concat] at hlast
  refine ⟨hwalk, ?_, hup⟩
  rw [← Option.some.inj hlast, String.toList_ofList]

/-- A path with another extension leads to the directory that the path led to. -/
theorem locate_withExtension {t : FileTree} {path extension name file : String}
    {dir last : Location} {slash : Bool} (hslash : '/' ∉ extension.toList)
    (h : t.locate path = .ok (.entry dir name false))
    (h' : t.locate (Path.withExtension extension path) = .ok (.entry last file slash)) :
    last = dir ∧ file.toList = (Path.splitName name.toList).1 ++ '.' :: extension.toList ∧
      (file = name → Path.withExtension extension path = path) := by
  obtain ⟨parent, hpath, hparent, hname⟩ := exists_parent_of_locate h
  obtain ⟨hwalk, -, -⟩ := walk_of_locate hpath hparent hname.ne_nil hname.slash h
  rcases Path.withExtension_cases hpath hparent hname extension with hup | hext
  · obtain ⟨-, hfile, hne⟩ := walk_of_locate hup hparent (by simp) (by decide) h'
    exact absurd (String.toList_inj.1 hfile) hne
  · have hstem : '/' ∉ (Path.splitName name.toList).1 := fun hmem =>
      hname.slash ((Path.splitName_fst_isPrefix name.toList).subset hmem)
    obtain ⟨hwalk', hfile, -⟩ :=
      walk_of_locate hext hparent (by simp) (by simp [hstem, hslash]) h'
    refine ⟨Except.ok.inj (hwalk'.symm.trans hwalk), hfile, fun hsame => ?_⟩
    rw [← String.toList_inj, hext, hpath, ← hfile, hsame]

end PercentFormat.FileTree
