import PercentFormat.Bytes
import PercentFormat.Directive
import PercentFormat.Fixture.Suite
import PercentFormat.Reference

/-! Calls without an expectation: suites recorded from them, checks of both formatters side by side, and
samples for measuring the formatter. -/

namespace PercentFormat.Fixture

structure TestVector where
  name : String
  template : String
  args : List Arg
  deriving DecidableEq, Repr

/-- The vectors that every release has to render, in their fixed order. -/
def acceptanceVectors : List TestVector :=
  [⟨"empty", "", []⟩,
    ⟨"literal_only", "A long text without %%-signs.", []⟩,
    ⟨"one_char", "One char: '%c'.", [.char 'x']⟩,
    ⟨"two_chars", "Two chars: '%c' and '%c'.", [.char 'x', .char 'y']⟩,
    ⟨"padded_chars", "Three chars: '%c', '%2c' and '%4c'.", [.char 'x', .char 'y', .char 'z']⟩,
    ⟨"escapes", "Legal %s are '%%%%', '%1cc', '%%d', '%%s' and '%%x'.",
      [.str "%-directives", .char '%']⟩,
    ⟨"strings", "Three texts: '%s', '%s' and '%4s'.",
      [.str "abc...æøå", .str "alpha -> omega", .str ""]⟩,
    ⟨"percentages", "A rise of %d%% beats one of %d%%!", [.int 27, .int 8]⟩,
    ⟨"negatives", "The number %d lies in the interval %d-%d.",
      [.int (-2230), .int (-10000), .int (-1000)]⟩,
    ⟨"widths", "The numbers are %0d, %12d and %209d.", [.int 0, .int 1000, .int 1000000000]⟩,
    ⟨"largest_positive", "The %2s number is %1001d.", [.str "largest positive", .int 2147483647]⟩,
    ⟨"second_most_negative", "The second %s number is %d (-%d).",
      [.str "most negative", .int (-2147483647), .int 1]⟩,
    ⟨"most_negative", "The very %s number is %d.", [.str "most negative", .int (-2147483648)]⟩,
    ⟨"zero_hex", "%d = 0x%x", [.int 0, .int 0]⟩,
    ⟨"hex", "%d = 0x%1x", [.int 1234, .int 1234]⟩,
    ⟨"negative_hex", "%4d = 0x%8x", [.int (-88), .int (-88)]⟩]

def edgeVectors : List TestVector :=
  [⟨"lone_escape", "%%", []⟩,
    ⟨"min_hex", "%x", [.int (-2147483648)]⟩,
    ⟨"minus_one_hex", "%10x", [.int (-1)]⟩,
    ⟨"max_hex", "%x", [.int 2147483647]⟩,
    ⟨"min_padded", "[%12d]", [.int (-2147483648)]⟩,
    ⟨"no_truncation", "%3s|%1d", [.str "truncate me", .int 123456]⟩,
    ⟨"adjacent", "%c%d%s%x", [.char 'a', .int 1, .str "b", .int 12]⟩,
    ⟨"zero_width_char", "%0c%00c", [.char 'p', .char 'q']⟩,
    ⟨"padded_empty", "<%8s>", [.str ""]⟩]

def builtinVectors : List TestVector := acceptanceVectors ++ edgeVectors

def suiteVersion : String := "v1"

/-- A vector with the expectation that the reference formatter gives it. -/
def TestVector.capture (v : TestVector) : Except Fault Case := do
  let output ← Reference.format v.template v.args
  return ⟨v.name, v.template, v.args, output, (Utf8.encode output).length, 0⟩

def capture (family capturedAt : String) (vectors : List TestVector) : Except Fault Suite := do
  let cases ← vectors.mapM TestVector.capture
  return ⟨suiteVersion, family, capturedAt, cases⟩

end PercentFormat.Fixture

namespace PercentFormat

open Fixture (TestVector toArguments)

/-- What both formatters made of one vector. -/
structure Check where
  number : Nat
  name : String
  actual : String
  expected : String
  actualLength : Nat
  expectedLength : Nat
  deriving DecidableEq, Repr

namespace Check

def passed (c : Check) : Bool :=
  c.actual == c.expected && c.actualLength == c.expectedLength

def label (c : Check) : String :=
  let number := toString c.number
  "Test " ++ (if number.length < 2 then " " ++ number else number)

/-- The report lines of a check: one if it passed, else one for each difference. -/
def lines (c : Check) : List String :=
  if c.passed then [c.label ++ " OK."]
  else
    (if c.actual = c.expected then []
      else [c.label ++ ": text is \"" ++ c.actual ++ "\" but should be \"" ++ c.expected ++ "\"."])
    ++ (if c.actualLength = c.expectedLength then []
      else [c.label ++ s!": length is {c.actualLength} but should be {c.expectedLength}."])

end Check

def Check.ofVector (number : Nat) (v : TestVector) : Except Fault Check := do
  let expected ← Reference.format v.template v.args
  let args ← toArguments v.args
  let f ← (formatQuietly {} (Utf8.encode v.template) args).mapError .format
  return ⟨number, v.name, Utf8.decodeLossy f.bytes, expected, f.bytes.length,
    (Utf8.encode expected).length⟩

/-- Checks vectors in order, or gives the first fault among them. -/
def Check.ofVectors (vectors : List TestVector) : Except Fault (List Check) :=
  (vectors.zipIdx 1).mapM fun (v, number) => Check.ofVector number v

structure Workload where
  name : String
  template : Bytes
  args : List Argument
  deriving DecidableEq, Repr

def workloads : List Workload :=
  [⟨"literal", Utf8.encode "A long text without any directives at all.", []⟩,
    ⟨"char", Utf8.encode "chars: '%c', '%2c' and '%4c'.", [.char 0x78, .char 0x79, .char 0x7A]⟩,
    ⟨"decimal", Utf8.encode "%d lies in %d-%d.", [.int (-2230), .int (-10000), .int (-1000)]⟩,
    ⟨"hex", Utf8.encode "%4d = 0x%8x", [.int (-88), .int (-88)]⟩,
    ⟨"string", Utf8.encode "'%s', '%s' and '%4s'.",
      [.text (Utf8.encode "abc"), .text (Utf8.encode "alpha -> omega"), .text []]⟩,
    ⟨"wide", Utf8.encode "%1001d", [.int 2147483647]⟩]

end PercentFormat
