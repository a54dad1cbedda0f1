import PercentFormat.Bytes

/-! Typed arguments, and the width and the conversion that the bytes after a percent sign ask for. -/

namespace PercentFormat

inductive Argument where
  | char (byte : UInt8)
  | int (value : Int32)
  | text (bytes : Bytes)
  deriving DecidableEq, Repr

inductive Argument.Kind where
  | char
  | int
  | text
  deriving DecidableEq, Repr

def Argument.Kind.name : Argument.Kind → String
  | .char => "char"
  | .int => "int"
  | .text => "text"

def Argument.kind : Argument → Argument.Kind
  | .char _ => .char
  | .int _ => .int
  | .text _ => .text

/-- What the last byte of a directive asks for. -/
inductive Conversion where
  | percent
  | char
  | decimal
  | text
  | hex
  | unknown (letter : UInt8)
  deriving DecidableEq, Repr

/-- The conversion of a last byte. The doubled percent sign is not read here. -/
def Conversion.ofLetter (letter : UInt8) : Conversion :=
  if letter = 0x63 then .char
  else if letter = 0x64 then .decimal
  else if letter = 0x73 then .text
  else if letter = 0x78 then .hex
  else .unknown letter

/-- The type of argument that a conversion takes, if it takes one. -/
def Conversion.expected? : Conversion → Option Argument.Kind
  | .char => some .char
  | .decimal => some .int
  | .hex => some .int
  | .text => some .text
  | .percent => none
  | .unknown _ => none

structure Directive where
  width : Nat
  conversion : Conversion
  malformed : Bytes
  deriving DecidableEq, Repr

def saturatingAdd (a b : Nat) : Nat := min (a + b) maxSize

def saturatingMul (a b : Nat) : Nat := min (a * b) maxSize

/-- Ten to the given power, or the largest size from the twentieth power on. -/
def placeValue (place : Nat) : Nat := if place < 20 then Nat.pow 10 place else maxSize

/-- Takes one more byte on the left into account: how many bytes were read, and the width so far.
A byte that is no digit still fills its place. -/
def widen (b : UInt8) (read : Nat × Nat) : Nat × Nat :=
  (read.1 + 1,
    if isDigit b then saturatingAdd read.2 (saturatingMul (digitValue b) (placeValue read.1))
    else read.2)

/-- The width that the bytes before a conversion letter denote, each digit by its place. -/
def widthOf (bytes : Bytes) : Nat := (bytes.foldr widen (0, 0)).2

/-- Reads the code of a directive: everything behind its percent sign, the last byte included.
An empty code is no directive. -/
def Directive.parse? (code : Bytes) : Option Directive :=
  match code.getLast? with
  | none => none
  | some letter =>
    if code = [percentSign] then some ⟨0, .percent, []⟩
    else
      some ⟨widthOf code.dropLast, .ofLetter letter, code.dropLast.filter (!isDigit ·)⟩

end PercentFormat
