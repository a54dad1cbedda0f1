import PercentFormat.Fault
import PercentFormat.FileTree
import PercentFormat.Fixture.Suite

/-! Commands: how a command line is read, and what a command leaves behind. -/

namespace PercentFormat

inductive Command where
  | capture (output family : String) (acceptanceOnly : Bool)
  | verify (fixture policy : String) (report log timestamp : Option String)
  | compare (all : Bool)
  | render (template : String) (args : List Fixture.Arg) (policy : Option String)
  | validateLog (log : String)
  deriving DecidableEq, Repr

namespace Command

inductive Shape where
  | flag
  | valued
  deriving DecidableEq, Repr

structure Words where
  flags : List String := []
  values : List (String × String) := []
  positionals : List String := []
  deriving DecidableEq, Repr

def looksLikeOption (word : List Char) : Bool :=
  match word with
  | '-' :: _ :: _ => true
  | _ => false

/-- The name of an option that is written with its value, and the value behind the equals sign. -/
def splitOption (word : List Char) : String × Option String :=
  (String.ofList (word.takeWhile (· != '=')),
    match word.dropWhile (· != '=') with
    | [] => none
    | _ :: value => some (String.ofList value))

/-- Takes words apart. Behind two dashes every word is a positional one. -/
def scanWords (shapes : List (String × Shape)) (found : Words) : List String → Option Words
  | [] => some found
  | word :: rest =>
    match word.toList with
    | ['-', '-'] => some { found with positionals := found.positionals ++ rest }
    | '-' :: '-' :: option =>
      let (name, value?) := splitOption option
      match shapes.lookup name, value?, rest with
      | some .flag, none, rest =>
        scanWords shapes { found with flags := found.flags ++ [name] } rest
      | some .valued, some value, rest =>
        scanWords shapes { found with values := found.values ++ [(name, value)] } rest
      | some .valued, none, value :: rest =>
        if looksLikeOption value.toList then none
        else scanWords shapes { found with values := found.values ++ [(name, value)] } rest
      | _, _, _ => none
    | chars =>
      if looksLikeOption chars then none
      else scanWords shapes { found with positionals := found.positionals ++ [word] } rest

namespace Words

def all (w : Words) (name : String) : List String :=
  (w.values.filter (·.1 == name)).map (·.2)

def optional? (w : Words) (name : String) : Option (Option String) :=
  match w.all name with
  | [] => some none
  | [value] => some (some value)
  | _ => none

def required? (w : Words) (name : String) : Option String := (w.optional? name).join

def flag? (w : Words) (name : String) : Option Bool :=
  match w.flags.filter (· == name) with
  | [] => some false
  | [_] => some true
  | _ => none

def path? (value : String) : Option String := if value.isEmpty then none else some value

def requiredPath? (w : Words) (name : String) : Option String := (w.required? name).bind path?

def optionalPath? (w : Words) (name : String) : Option (Option String) := do
  match ← w.optional? name with
  | none => return none
  | some value => return some (← path? value)

def noPositionals? (w : Words) : Option Unit := if w.positionals.isEmpty then some () else none

end Words

def captureOfWords? (words : List String) : Option Command := do
  let w ← scanWords [("output", .valued), ("family", .valued), ("acceptance-only", .flag)] {} words
  w.noPositionals?
  return .capture (← w.requiredPath? "output") ((← w.optional? "family").getD "printf")
    (← w.flag? "acceptance-only")

def verifyOfWords? (words : List String) : Option Command := do
  let w ← scanWords [("fixture", .valued), ("policy", .valued), ("report", .valued),
    ("log", .valued), ("timestamp", .valued)] {} words
  w.noPositionals?
  return .verify (← w.requiredPath? "fixture") ((← w.optional? "policy").getD "continue")
    (← w.optionalPath? "report") (← w.optionalPath? "log") (← w.optional? "timestamp")

def compareOfWords? (words : List String) : Option Command := do
  let w ← scanWords [("all", .flag)] {} words
  w.noPositionals?
  return .compare (← w.flag? "all")

def renderOfWords? (words : List String) : Option Command := do
  let w ← scanWords [("arg", .valued), ("policy", .valued)] {} words
  let [template] := w.positionals | none
  return .render template (← (w.all "arg").mapM Fixture.Arg.parse?) (← w.optional? "policy")

def validateLogOfWords? (words : List String) : Option Command := do
  let w ← scanWords [("log", .valued)] {} words
  w.noPositionals?
  return .validateLog (← w.requiredPath? "log")

/-- Reads a command line. A line with a mistake in it is no command. -/
def parse? : List String → Option Command
  | [] => none
  | name :: words =>
    if name = "capture" then captureOfWords? words
    else if name = "verify" then verifyOfWords? words
    else if name = "oracle" then compareOfWords? words
    else if name = "render" then renderOfWords? words
    else if name = "validate-log" then validateLogOfWords? words
    else none

end Command

inductive Failure where
  | io (fault : IoFault)
  | fault (fault : Fault)
  | format (error : FormatError)
  | violations (count : Nat)
  deriving DecidableEq, Repr

def Failure.inspect : Failure → String
  | .io f => f.inspect
  | .fault f => f.inspect
  | .format error => error.inspect
  | .violations count => Text.quoted s!"{count} schema violations"

/-- What a command leaves behind. -/
structure Outcome where
  tree : FileTree
  output : Bytes := []
  notes : List String := []
  failure : Option Failure := none
  deriving DecidableEq, Repr

namespace Outcome

def exitCode (o : Outcome) : Nat := if o.failure.isSome then 1 else 0

/-- The text for the error stream. A failure is its last line. -/
def errorText (o : Outcome) : String :=
  String.join ((o.notes ++ (o.failure.map fun f => "Error: " ++ f.inspect).toList).map (· ++ "\n"))

end Outcome

end PercentFormat
