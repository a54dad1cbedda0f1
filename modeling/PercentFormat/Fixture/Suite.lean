import PercentFormat.Fault
import PercentFormat.Json.Value

/-! Fixture suites: cases with their arguments and expected results, and their JSON form. -/

namespace PercentFormat.Fixture

inductive Arg where
  | char (char : Char)
  | int (value : Int32)
  | str (text : String)
  deriving DecidableEq, Repr

def Arg.inspect : Arg → String
  | .char c => inspectTuple "Char" (Text.quotedChar c)
  | .int value => inspectTuple "Int" (toString value.toInt)
  | .str text => inspectTuple "Str" (Text.quoted text)

/-- The argument for the formatter. A character must be ASCII. -/
def Arg.toArgument : Arg → Except Fault Argument
  | .char c => if c.toNat < 0x80 then .ok (.char (UInt8.ofNat c.toNat)) else .error (.wideChar c)
  | .int value => .ok (.int value)
  | .str text => .ok (.text (Utf8.encode text))

/-- The arguments for the formatter, or the first fault among them. -/
def toArguments (args : List Arg) : Except Fault (List Argument) := args.mapM Arg.toArgument

def digitsValue? (cs : List Char) : Option Nat :=
  if cs.isEmpty || !cs.all Char.isDigit then none
  else some (cs.foldl (fun value c => value * 10 + (c.toNat - 0x30)) 0)

def readInt32? (cs : List Char) : Option Int32 := do
  let value : Int ← match cs with
    | '-' :: digits => (digitsValue? digits).map fun n => -(n : Int)
    | '+' :: digits => (digitsValue? digits).map fun n => (n : Int)
    | digits => (digitsValue? digits).map fun n => (n : Int)
  if -0x80000000 ≤ value && value < 0x80000000 then some (Int32.ofInt value) else none

/-- Reads the part of an argument behind its tag. Blanks around an integer do not count. -/
def readTagged? (tag value : List Char) : Option Arg :=
  match tag, value with
  | ['c'], [c] => some (.char c)
  | ['d'], digits => (readInt32? (Text.trimList digits)).map .int
  | ['x'], digits => (readInt32? (Text.trimList digits)).map .int
  | ['s'], text => some (.str (String.ofList text))
  | _, _ => none

/-- Reads an argument from its written form: a tag, a colon, and the value. -/
def Arg.parse? (input : String) : Option Arg :=
  match input.toList.dropWhile (· != ':') with
  | [] => none
  | _ :: value => readTagged? (input.toList.takeWhile (· != ':')) value

def Arg.parse (input : String) : Except Fault Arg :=
  match Arg.parse? input with
  | some arg => .ok arg
  | none => .error (.badArgument input)

open Json

/-- A call and what is expected of it. -/
structure Case where
  name : String
  template : String
  args : List Arg
  expectedOutput : String
  expectedLength : Nat
  expectedDiagnostics : Nat
  deriving DecidableEq, Repr

structure Suite where
  version : String
  family : String
  capturedAt : String
  cases : List Case
  deriving DecidableEq, Repr

def Arg.toJson : Arg → Value
  | .char c => .object [("type", .string "char"), ("value", .string (String.singleton c))]
  | .int value => .object [("type", .string "int"), ("value", .number (.integer value.toInt))]
  | .str text => .object [("type", .string "str"), ("value", .string text)]

def Case.toJson (c : Case) : Value :=
  .object [("name", .string c.name), ("template", .string c.template),
    ("args", .array (c.args.map Arg.toJson)), ("expected_output", .string c.expectedOutput),
    ("expected_len", .ofNat c.expectedLength),
    ("expected_diagnostics", .ofNat c.expectedDiagnostics)]

def Suite.toJson (s : Suite) : Value :=
  .object [("version", .string s.version), ("family", .string s.family),
    ("captured_at", .string s.capturedAt), ("cases", .array (s.cases.map Case.toJson))]

def Suite.text (s : Suite) : String := s.toJson.pretty

def singleChar? (t : Tree) : Option Char := do
  match (← t.text?).toList with
  | [char] => some char
  | _ => none

/-- The name of an argument's type. In an array it is a string, in an object it may also be written
as an alternative without contents. -/
def typeName? (argument type : Tree) : Option String :=
  match argument with
  | .array _ => type.text?
  | _ => type.name?

/-- Reads an argument: its type by name, then a value of that type. -/
def Arg.ofTree? (t : Tree) : Option Arg := do
  let [type, value] ← t.fields? ["type", "value"] | none
  let name ← typeName? t (← type)
  let value ← value
  if name = "char" then (singleChar? value).map .char
  else if name = "int" then value.int32?.map .int
  else if name = "str" then value.text?.map .str
  else none

/-- Reads a case. Only the number of diagnostics may be absent, and is zero then. -/
def Case.ofTree? (t : Tree) : Option Case := do
  let [name, template, args, output, length, diagnostics] ← t.fields?
    ["name", "template", "args", "expected_output", "expected_len", "expected_diagnostics"] | none
  let name ← (← name).text?
  let template ← (← template).text?
  let args ← (← (← args).items?).mapM Arg.ofTree?
  let output ← (← output).text?
  let length ← (← length).size?
  let diagnostics ← match diagnostics with
    | none => some 0
    | some t => t.size?
  return ⟨name, template, args, output, length, diagnostics⟩

def Suite.ofTree? (t : Tree) : Option Suite := do
  let [version, family, capturedAt, cases] ← t.fields?
    ["version", "family", "captured_at", "cases"] | none
  let version ← (← version).text?
  let family ← (← family).text?
  let capturedAt ← (← capturedAt).text?
  let cases ← (← (← cases).items?).mapM Case.ofTree?
  return ⟨version, family, capturedAt, cases⟩

def Suite.parse? (text : String) : Option Suite := (Tree.parse? text).bind Suite.ofTree?

end PercentFormat.Fixture
