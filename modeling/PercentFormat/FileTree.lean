import PercentFormat.Fault
import PercentFormat.Text

/-! Paths as text, and a tree of files with what reading and writing by path do to it. -/

namespace PercentFormat.Path

/-- The names of a path. Repeated slashes and slashes at the ends give none. -/
def names (path : String) : List String :=
  ((Text.splitAt '/' path.toList).filter (!·.isEmpty)).map String.ofList

def isAbsolute (path : String) : Bool := path.toList.head? == some '/'

def endsWithSlash (path : String) : Bool := path.toList.getLast? == some '/'

/-- The names of a path, without those that stay in place. Only at the front of a relative path
such a name is kept. -/
def components (path : String) : List String :=
  match names path with
  | [] => []
  | first :: rest =>
    let rest := rest.filter (· != ".")
    if first == "." && isAbsolute path then rest else first :: rest

def ofComponents (absolute : Bool) (parts : List String) : String :=
  (if absolute then "/" else "") ++ "/".intercalate parts

/-- A path inside a directory. An absolute path stays what it is. -/
def join (dir path : String) : String :=
  if isAbsolute path then path
  else if dir.isEmpty || endsWithSlash dir then dir ++ path
  else dir ++ "/" ++ path

/-- What stands in front of the last dot of a name, and what stands behind it. A name with no dot,
or with its only dot in front, is all stem. -/
def splitName (name : List Char) : List Char × Option (List Char) :=
  let extension := (name.reverse.takeWhile (· != '.')).reverse
  let stem := name.take (name.length - extension.length - 1)
  if extension.length = name.length || stem.isEmpty then (name, none) else (stem, some extension)

def hasExtension (extension name : String) : Bool :=
  (splitName name.toList).2 == some extension.toList

/-- The reversed text of a path without slashes at the end, or names there that stay in place. -/
def trimTail : List Char → List Char
  | '/' :: rest => trimTail rest
  | '.' :: '/' :: rest => trimTail rest
  | rest => rest

/-- The file name of a path, and what stands in front of it. Names that stay in place or go up are
no file names. -/
def splitFile? (path : List Char) : Option (List Char × List Char) :=
  let reversed := trimTail path.reverse
  let name := (reversed.takeWhile (· != '/')).reverse
  if name ∈ [[], ['.'], ['.', '.']] then none
  else some ((reversed.drop name.length).reverse, name)

/-- Puts an extension in the place of the one that a file name has. A path without a file name stays
what it is. -/
def setExtension (extension path : List Char) : List Char :=
  match splitFile? path with
  | none => path
  | some (parent, name) => parent ++ (splitName name).1 ++ '.' :: extension

/-- A path without the letters of its extension. Its dot stays, so that what is left can be a name
that goes up. -/
def dropExtension (path : List Char) : List Char :=
  match (splitFile? path).bind fun (_, name) => (splitName name).2 with
  | none => path
  | some extension => path.take (path.length - extension.length)

/-- A path with another extension. First its own one is dropped, then the new one is set if there is
still a file name. -/
def withExtension (extension path : String) : String :=
  String.ofList (setExtension extension.toList (dropExtension path.toList))

end PercentFormat.Path

namespace PercentFormat

inductive Node where
  | file (content : Bytes)
  | directory
  deriving DecidableEq, Repr

abbrev Location := List String

/-- Files and directories by their location. The root is always there. -/
structure FileTree where
  home : Location := []
  nodes : List (Location × Node) := []
  deriving DecidableEq, Repr

namespace FileTree

def get? (t : FileTree) (l : Location) : Option Node :=
  if l.isEmpty then some .directory else t.nodes.lookup l

def put (t : FileTree) (l : Location) (node : Node) : FileTree :=
  { t with nodes := (l, node) :: t.nodes.filter (·.1 != l) }

def namesIn (t : FileTree) (dir : Location) : List String :=
  t.nodes.filterMap fun (l, _) => if l.dropLast == dir then l.getLast? else none

def maxName : Nat := 255

def maxPath : Nat := 4095

def child (t : FileTree) (dir : Location) (name : String) : Except IoFault (Option Node) :=
  if maxName < (Utf8.encode name).length then .error .nameTooLong else .ok (t.get? (dir ++ [name]))

def walk (t : FileTree) : Location → List String → Except IoFault Location
  | dir, [] => .ok dir
  | dir, name :: rest =>
    if name = "." then t.walk dir rest
    else if name = ".." then t.walk dir.dropLast rest
    else
      match t.child dir name with
      | .error fault => .error fault
      | .ok none => .error .notFound
      | .ok (some (.file _)) => .error .notADirectory
      | .ok (some .directory) => t.walk (dir ++ [name]) rest

/-- What a path names. -/
inductive Place where
  | directory (location : Location)
  /-- A name in a directory. With a slash behind it, it can only be that of a directory. -/
  | entry (dir : Location) (name : String) (slash : Bool)
  deriving DecidableEq, Repr

/-- Finds the place of a path. What stands under its last name is not looked at. -/
def locate (t : FileTree) (path : String) : Except IoFault Place := do
  if path.isEmpty then throw .notFound
  if maxPath < (Utf8.encode path).length then throw .nameTooLong
  let names := Path.names path
  let dir ← t.walk (if Path.isAbsolute path then [] else t.home) names.dropLast
  match names.getLast? with
  | none => return .directory dir
  | some name =>
    if name = "." || name = ".." then return .directory (← t.walk dir [name])
    else return .entry dir name (Path.endsWithSlash path)

def read (t : FileTree) (path : String) : Except IoFault Bytes := do
  match ← t.locate path with
  | .directory _ => throw .isADirectory
  | .entry dir name slash =>
    match ← t.child dir name with
    | none => throw .notFound
    | some .directory => throw .isADirectory
    | some (.file content) => if slash then throw .notADirectory else return content

def readText (t : FileTree) (path : String) : Except IoFault String := do
  match Utf8.decode? (← t.read path) with
  | some text => .ok text
  | none => .error .invalidText

/-- Creates a file with the content, or replaces what it held. A slash behind the name is refused
before anything is looked up. -/
def write (t : FileTree) (path : String) (content : Bytes) : Except IoFault FileTree := do
  match ← t.locate path with
  | .directory _ => throw .isADirectory
  | .entry _ _ true => throw .isADirectory
  | .entry dir name false =>
    match ← t.child dir name with
    | some .directory => throw .isADirectory
    | _ => return t.put (dir ++ [name]) (.file content)

/-- Bytes with others written over them from an offset on. Zeros fill the gap to an offset behind
their end. -/
def splice (old : Bytes) (offset : Nat) (content : Bytes) : Bytes :=
  if content = [] then old
  else old.take offset ++ List.replicate (offset - old.length) 0 ++ content
    ++ old.drop (offset + content.length)

def overwrite (t : FileTree) (path : String) (offset : Nat) (content : Bytes) : FileTree :=
  match t.read path with
  | .ok old => ((t.write path (splice old offset content)).toOption).getD t
  | .error _ => t

def openDir (t : FileTree) (path : String) : Except IoFault Location := do
  match ← t.locate path with
  | .directory dir => return dir
  | .entry dir name _ =>
    match ← t.child dir name with
    | none => throw .notFound
    | some (.file _) => throw .notADirectory
    | some .directory => return dir ++ [name]

def list (t : FileTree) (path : String) : Except IoFault (List String) := do
  let dir ← t.openDir path
  return (t.namesIn dir).mergeSort fun a b => decide (a ≤ b)

def makeDir (t : FileTree) (path : String) : Except IoFault FileTree := do
  match ← t.locate path with
  | .directory _ => throw .alreadyExists
  | .entry dir name _ =>
    match ← t.child dir name with
    | none => return t.put (dir ++ [name]) .directory
    | some _ => throw .alreadyExists

def isDir (t : FileTree) (path : String) : Bool := (t.openDir path).toOption.isSome

def ensureDir (t : FileTree) (path : String) : Except IoFault FileTree :=
  match t.makeDir path with
  | .ok t => .ok t
  | .error fault => if t.isDir path then .ok t else .error fault

/-- Creates a directory, and those that lead to it, whose names stand in reverse. -/
def makeDirsFrom (t : FileTree) (absolute : Bool) (path : String) :
    List String → Except IoFault FileTree
  | [] => t.ensureDir path
  | name :: rest =>
    match t.ensureDir path with
    | .error .notFound =>
      (t.makeDirsFrom absolute (Path.ofComponents absolute (name :: rest).reverse) rest).bind
        fun t => t.ensureDir path
    | result => result

/-- Creates a directory and those that lead to it, where they are not there yet. -/
def makeDirs (t : FileTree) (path : String) : Except IoFault FileTree :=
  t.makeDirsFrom (Path.isAbsolute path) path (Path.components path).reverse.tail

theorem get?_put_self (t : FileTree) (l : Location) (node : Node) (h : l ≠ []) :
    (t.put l node).get? l = some node := by
  simp [get?, put, h]

/-- Filtering out one key does not change what is found under another. -/
theorem lookup_filter_of_ne {α : Type} (nodes : List (Location × α)) (l k : Location) (h : k ≠ l) :
    (nodes.filter (·.1 != l)).lookup k = nodes.lookup k := by
  induction nodes with
  | nil => rfl
  | cons n rest ih =>
    obtain ⟨m, a⟩ := n
    by_cases hm : m = l
    · simpa [hm, List.lookup_cons, beq_false_of_ne h] using ih
    · cases hk : k == m <;> simp [hm, List.lookup_cons, hk, ih]

theorem get?_put_of_ne (t : FileTree) (l k : Location) (node : Node) (h : k ≠ l) :
    (t.put l node).get? k = t.get? k := by
  simp [get?, put, List.lookup_cons, beq_false_of_ne h, lookup_filter_of_ne t.nodes l k h]

end FileTree

end PercentFormat
