import PercentFormat.Calendar
import PercentFormat.Command.Run

/-! The program: it looks at the files that a command needs, runs the command on them, and writes
down what changed. -/

namespace PercentFormat.Main

def locationText (l : Location) : String := Path.ofComponents true l

def nodeAt (l : Location) : IO (Option Node) := do
  try
    let place ← IO.FS.realPath (locationText l)
    if ← place.isDir then return some .directory
    return some (.file (← IO.FS.readBinFile place).toList)
  catch _ => return none

def observe (t : FileTree) (l : Location) : IO FileTree := do
  match ← nodeAt l with
  | some node => return if l.isEmpty then t else t.put l node
  | none => return t

def follow (l : Location) (name : String) : Location :=
  if name = "." then l else if name = ".." then l.dropLast else l ++ [name]

def locationOf (t : FileTree) (path : String) : Location :=
  (Path.names path).foldl follow (if Path.isAbsolute path then [] else t.home)

def observePath (t : FileTree) (path : String) : IO FileTree := do
  let start := if Path.isAbsolute path then [] else t.home
  let (t, _) ← (Path.names path).foldlM
    (fun (t, l) name => do return (← observe t (follow l name), follow l name)) (t, start)
  return t

def observeFolder (t : FileTree) (path : String) : IO FileTree := do
  let dir := locationOf t path
  try
    let entries ← (← IO.FS.realPath (locationText dir)).readDir
    entries.toList.foldlM (fun t entry => observe t (dir ++ [entry.fileName])) t
  catch _ => return t

def snapshot (home : Location) (command : Command) : IO FileTree := do
  let above := (List.range home.length).map fun n => (home.take (n + 1), Node.directory)
  let t ← command.paths.foldlM observePath { home, nodes := above }
  command.folders.foldlM observeFolder t

def store (before after : FileTree) : IO Unit :=
  after.nodes.reverse.forM fun (l, node) => do
    if before.get? l != some node then
      match node with
      | .directory => IO.FS.createDirAll (locationText l)
      | .file content => IO.FS.writeBinFile (locationText l) ⟨content.toArray⟩

def host : IO Host := do
  try
    let self ← IO.FS.realPath "/proc/self"
    let clock := (← self.metadata).modified
    let now := (Instant.ofClock clock.sec clock.nsec.toNat).text
    return ⟨"run-" ++ self.fileName.getD "0", fun _ => now, fun _ => 0⟩
  catch _ => return ⟨"run-0", fun _ => (Instant.ofClock 0 0).text, fun _ => 0⟩

def environment : IO Environment := do
  return { mode := (← IO.getEnv "SPRINTER_MODE").map Utf8.encode
           channel := (← IO.getEnv "SPRINTER_DIAG").map Utf8.encode }

def usage : String :=
  "usage: capture --output DIR [--family NAME] [--acceptance-only]\n"
    ++ "       verify --fixture DIR [--policy POLICY] [--report FILE] [--log FILE]"
    ++ " [--timestamp TEXT]\n"
    ++ "       oracle [--all]\n"
    ++ "       render TEMPLATE [--arg ARG]... [--policy POLICY]\n"
    ++ "       validate-log --log FILE\n"

/-- Runs a command on the files of the machine. How long a suite takes is measured on a run of its
own. -/
def execute (command : Command) : IO UInt32 := do
  let home := Path.names (← IO.currentDir).toString
  let before ← snapshot home command
  let machine ← host
  let env ← environment
  let started ← IO.monoNanosNow
  let _ ← IO.lazyPure fun _ => (command.run machine env before).exitCode
  let ended ← IO.monoNanosNow
  let latency := UInt64.ofNatClamp (ended - started)
  let outcome := command.run { machine with latency := fun _ => latency } env before
  store before outcome.tree
  (← IO.getStdout).write ⟨outcome.output.toArray⟩
  (← IO.getStderr).putStr outcome.errorText
  return outcome.exitCode.toUInt32

end PercentFormat.Main

def main (args : List String) : IO UInt32 := do
  match PercentFormat.Command.parse? args with
  | some command => PercentFormat.Main.execute command
  | none =>
    (← IO.getStderr).putStr PercentFormat.Main.usage
    return 2
