import PercentFormat.Format

/-! What can go wrong around the formatter, how it is told, and how it is written out constructor by
constructor when a command fails. -/

namespace PercentFormat

inductive IoFault where
  | notFound
  | alreadyExists
  | notADirectory
  | isADirectory
  | nameTooLong
  | invalidText
  | refused
  deriving DecidableEq, Repr

/-- What an operating system says of a failure: its code, the kind, and the wording. -/
def IoFault.system? : IoFault → Option (Nat × String × String)
  | .notFound => some (2, "NotFound", "No such file or directory")
  | .alreadyExists => some (17, "AlreadyExists", "File exists")
  | .notADirectory => some (20, "NotADirectory", "Not a directory")
  | .isADirectory => some (21, "IsADirectory", "Is a directory")
  | .nameTooLong => some (36, "InvalidFilename", "File name too long")
  | .invalidText => none
  | .refused => none

def IoFault.kind (f : IoFault) : String :=
  match f.system?, f with
  | some (_, kind, _), _ => kind
  | none, .invalidText => "InvalidData"
  | none, _ => "Other"

def IoFault.message (f : IoFault) : String :=
  match f.system?, f with
  | some (code, _, wording), _ => s!"{wording} (os error {code})"
  | none, .invalidText => "stream did not contain valid UTF-8"
  | none, _ => "refused"

inductive Fault where
  | io (fault : IoFault)
  | json
  | format (error : FormatError)
  | wideChar (char : Char)
  | badArgument (input : String)
  | unsupported (template reason : String)
  /-- A field that the reference formatter cannot pad. Such a call has no result at all. -/
  | unrenderable
  | noFixtures (dir : String)
  | verificationFailed (failed total : Nat)
  deriving DecidableEq, Repr

/-- The wording of a fault. Of a JSON fault only its kind is said. -/
def Fault.message : Fault → String
  | .io fault => "io: " ++ fault.message
  | .json => "json"
  | .format error => "format: " ++ error.message
  | .wideChar char => "char argument " ++ Text.quotedChar char ++ " is not ASCII"
  | .badArgument input =>
    "bad argument '" ++ input ++ "': expected c:<char>, d:<int> or s:<text>"
  | .unsupported template reason =>
    "reference formatter cannot render " ++ Text.quoted template ++ ": " ++ reason
  | .unrenderable => "width out of range"
  | .noFixtures dir => "no fixture JSON files found in " ++ dir
  | .verificationFailed failed total => s!"{failed} of {total} cases failed"

def inspectRecord (name : String) (fields : List (String × String)) : String :=
  name ++ " \x7b " ++ ", ".intercalate (fields.map fun (field, value) => field ++ ": " ++ value)
    ++ " \x7d"

def inspectTuple (name value : String) : String := name ++ "(" ++ value ++ ")"

def Argument.Kind.inspect : Argument.Kind → String
  | .char => "Char"
  | .int => "Int"
  | .text => "Text"

def Diagnostic.Kind.inspect : Diagnostic.Kind → String
  | .malformedWidthDigit byte => inspectTuple "MalformedWidthDigit" (toString byte.toNat)
  | .unknownConversion letter => inspectTuple "UnknownConversion" (toString letter.toNat)
  | .emptyDirective => "EmptyDirective"
  | .missingArgument expected => inspectRecord "MissingArgument" [("expected", expected.inspect)]
  | .argumentMismatch expected found =>
    inspectRecord "ArgumentMismatch" [("expected", expected.inspect), ("found", found.inspect)]

def Diagnostic.inspect (d : Diagnostic) : String :=
  inspectRecord "Diagnostic" [("kind", d.kind.inspect), ("offset", toString d.offset)]

def FormatError.inspect : FormatError → String
  | .aborted diagnostic => inspectTuple "Aborted" diagnostic.inspect
  | .outputTooLarge limit => inspectRecord "OutputTooLarge" [("limit", toString limit)]
  | .directiveTooLong offset limit =>
    inspectRecord "DirectiveTooLong" [("offset", toString offset), ("limit", toString limit)]
  | .bufferTooSmall needed available =>
    inspectRecord "BufferTooSmall"
      [("needed", toString needed), ("available", toString available)]

def IoFault.inspect (f : IoFault) : String :=
  match f.system? with
  | some (code, kind, wording) =>
    inspectRecord "Os"
      [("code", toString code), ("kind", kind), ("message", Text.quoted wording)]
  | none => inspectRecord "Error" [("kind", f.kind), ("message", Text.quoted f.message)]

def Fault.inspect : Fault → String
  | .io fault => inspectTuple "Io" fault.inspect
  | .json => "Json"
  | .format error => inspectTuple "Format" error.inspect
  | .wideChar char => inspectTuple "WideChar" (Text.quotedChar char)
  | .badArgument input => inspectRecord "BadArgument" [("input", Text.quoted input)]
  | .unsupported template reason =>
    inspectRecord "Unsupported" [("template", Text.quoted template), ("reason", Text.quoted reason)]
  | .unrenderable => "Unrenderable"
  | .noFixtures dir => inspectTuple "NoFixtures" (Text.quoted dir)
  | .verificationFailed failed total =>
    inspectRecord "VerificationFailed" [("failed", toString failed), ("total", toString total)]

end PercentFormat
