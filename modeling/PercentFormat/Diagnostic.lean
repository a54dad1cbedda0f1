import PercentFormat.Bytes
import PercentFormat.Directive
import PercentFormat.Text

/-! What can be wrong with a directive, how it is told, and how often it was. -/

namespace PercentFormat

inductive Diagnostic.Kind where
  | malformedWidthDigit (byte : UInt8)
  | unknownConversion (letter : UInt8)
  | emptyDirective
  | missingArgument (expected : Argument.Kind)
  /-- The next argument has another type. It is consumed. -/
  | argumentMismatch (expected found : Argument.Kind)
  deriving DecidableEq, Repr

/-- A complaint about the directive whose percent sign stands at `offset`. -/
structure Diagnostic where
  kind : Diagnostic.Kind
  offset : Nat
  deriving DecidableEq, Repr

inductive Diagnostic.Class where
  | malformedWidth
  | unknownConversion
  | emptyDirective
  | missingArgument
  | argumentMismatch
  deriving DecidableEq, Repr

def Diagnostic.Kind.category : Diagnostic.Kind → Diagnostic.Class
  | .malformedWidthDigit _ => .malformedWidth
  | .unknownConversion _ => .unknownConversion
  | .emptyDirective => .emptyDirective
  | .missingArgument _ => .missingArgument
  | .argumentMismatch _ _ => .argumentMismatch

def Diagnostic.category (d : Diagnostic) : Diagnostic.Class := d.kind.category

/-- The line that a diagnostic leaves on the diagnostic channel. -/
inductive Marker where
  | width (byte : UInt8)
  | plain
  deriving DecidableEq, Repr

def Marker.line : Marker → Bytes
  | .width byte => Utf8.encode "ERROR: " ++ [byte, 0x0A]
  | .plain => Utf8.encode "ERROR\n"

/-- The marker of a diagnostic. Only a malformed width shows its byte. -/
def Diagnostic.marker (d : Diagnostic) : Marker :=
  match d.kind with
  | .malformedWidthDigit byte => .width byte
  | _ => .plain

def Diagnostic.Kind.message : Diagnostic.Kind → String
  | .malformedWidthDigit byte => "'" ++ Text.escapeByte byte ++ "' is not a width digit"
  | .unknownConversion letter => "unknown conversion '" ++ Text.escapeByte letter ++ "'"
  | .emptyDirective => "'%' at end of template"
  | .missingArgument expected => "missing " ++ expected.name ++ " argument"
  | .argumentMismatch expected found =>
    "expected " ++ expected.name ++ " argument, found " ++ found.name

def Diagnostic.message (d : Diagnostic) : String :=
  "offset " ++ toString d.offset ++ ": " ++ d.kind.message

/-- How many diagnostics of each class were raised. Each count wraps around at 64 bits. -/
structure Counters where
  total : UInt64 := 0
  malformedWidth : UInt64 := 0
  unknownConversion : UInt64 := 0
  emptyDirective : UInt64 := 0
  missingArgument : UInt64 := 0
  argumentMismatch : UInt64 := 0
  abortedCalls : UInt64 := 0
  deriving DecidableEq, Repr

namespace Counters

def record (c : Counters) (category : Diagnostic.Class) : Counters :=
  let c := { c with total := c.total + 1 }
  match category with
  | .malformedWidth => { c with malformedWidth := c.malformedWidth + 1 }
  | .unknownConversion => { c with unknownConversion := c.unknownConversion + 1 }
  | .emptyDirective => { c with emptyDirective := c.emptyDirective + 1 }
  | .missingArgument => { c with missingArgument := c.missingArgument + 1 }
  | .argumentMismatch => { c with argumentMismatch := c.argumentMismatch + 1 }

def recordAbort (c : Counters) : Counters := { c with abortedCalls := c.abortedCalls + 1 }

def toList (c : Counters) : List UInt64 :=
  [c.total, c.malformedWidth, c.unknownConversion, c.emptyDirective, c.missingArgument,
    c.argumentMismatch, c.abortedCalls]

end Counters

end PercentFormat
