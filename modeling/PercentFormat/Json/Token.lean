/-! The tokens of JSON text: punctuation, literals, numbers and strings. -/

namespace PercentFormat.Json

/-- A number as it is written. The fraction is empty when there is none. -/
structure Literal where
  negative : Bool
  whole : List Char
  fraction : List Char
  exponent : Option (Bool × List Char)
  deriving DecidableEq, Repr

inductive Token where
  | openBracket
  | closeBracket
  | openBrace
  | closeBrace
  | comma
  | colon
  | null
  | bool (value : Bool)
  | number (literal : Literal)
  /-- A string, or nothing when one of its escapes is half of a pair. -/
  | string (text : Option String)
  deriving DecidableEq, Repr

def isSpace (c : Char) : Bool := c == ' ' || c == '\t' || c == '\n' || c == '\r'

def hexValue? (c : Char) : Option Nat :=
  if '0' ≤ c && c ≤ '9' then some (c.toNat - 0x30)
  else if 'a' ≤ c && c ≤ 'f' then some (c.toNat - 0x57)
  else if 'A' ≤ c && c ≤ 'F' then some (c.toNat - 0x37)
  else none

def hexQuad? (a b c d : Char) : Option Nat := do
  let a ← hexValue? a
  let b ← hexValue? b
  let c ← hexValue? c
  let d ← hexValue? d
  return ((a * 16 + b) * 16 + c) * 16 + d

def simpleEscape? (c : Char) : Option Char :=
  if c = '"' then some '"'
  else if c = '\\' then some '\\'
  else if c = '/' then some '/'
  else if c = 'b' then some '\x08'
  else if c = 'f' then some '\x0c'
  else if c = 'n' then some '\n'
  else if c = 'r' then some '\r'
  else if c = 't' then some '\t'
  else none

/-- A piece of a string: a character, or a 16-bit unit that an escape names. -/
inductive Piece where
  | char (c : Char)
  | unit (u : Nat)
  deriving DecidableEq, Repr

/-- Reads a string up to its closing quotation mark. Control characters must be escaped. -/
def readPieces : List Char → Option (List Piece × List Char)
  | [] => none
  | '"' :: rest => some ([], rest)
  | '\\' :: 'u' :: a :: b :: c :: d :: rest => do
    let u ← hexQuad? a b c d
    let (pieces, left) ← readPieces rest
    return (.unit u :: pieces, left)
  | '\\' :: e :: rest => do
    let c ← simpleEscape? e
    let (pieces, left) ← readPieces rest
    return (.char c :: pieces, left)
  | c :: rest =>
    if c = '\\' || c.toNat < 0x20 then none
    else do
      let (pieces, left) ← readPieces rest
      return (.char c :: pieces, left)

def isHigh (u : Nat) : Bool := 0xD800 ≤ u && u < 0xDC00

def isLow (u : Nat) : Bool := 0xDC00 ≤ u && u < 0xE000

/-- Joins the units of pairs. There is no text when half of a pair stands alone. -/
def joinPieces? : List Piece → Option (List Char)
  | [] => some []
  | .char c :: rest => (joinPieces? rest).map (c :: ·)
  | .unit h :: .unit l :: rest =>
    if isHigh h then
      if isLow l then
        (joinPieces? rest).map (Char.ofNat (0x10000 + (h - 0xD800) * 0x400 + (l - 0xDC00)) :: ·)
      else none
    else if isLow h then none
    else (joinPieces? (.unit l :: rest)).map (Char.ofNat h :: ·)
  | .unit u :: rest =>
    if isHigh u || isLow u then none else (joinPieces? rest).map (Char.ofNat u :: ·)

def joinText? (pieces : List Piece) : Option String := (joinPieces? pieces).map String.ofList

def readDigits? (cs : List Char) : Option (List Char × List Char) :=
  let digits := cs.takeWhile Char.isDigit
  if digits.isEmpty then none else some (digits, cs.dropWhile Char.isDigit)

/-- Reads the digits before the point: a single zero, or digits that do not start with one. -/
def readWhole? (cs : List Char) : Option (List Char × List Char) := do
  let (digits, rest) ← readDigits? cs
  if digits.head? = some '0' && digits ≠ ['0'] then none else some (digits, rest)

def readFraction? : List Char → Option (List Char × List Char)
  | '.' :: rest => readDigits? rest
  | cs => some ([], cs)

def readPower? : List Char → Option ((Bool × List Char) × List Char)
  | '-' :: rest => (readDigits? rest).map fun (digits, left) => ((true, digits), left)
  | '+' :: rest => (readDigits? rest).map fun (digits, left) => ((false, digits), left)
  | cs => (readDigits? cs).map fun (digits, left) => ((false, digits), left)

def readExponent? : List Char → Option (Option (Bool × List Char) × List Char)
  | 'e' :: rest => (readPower? rest).map fun (power, left) => (some power, left)
  | 'E' :: rest => (readPower? rest).map fun (power, left) => (some power, left)
  | cs => some (none, cs)

def readUnsigned? (negative : Bool) (cs : List Char) : Option (Literal × List Char) := do
  let (whole, cs) ← readWhole? cs
  let (fraction, cs) ← readFraction? cs
  let (exponent, cs) ← readExponent? cs
  return (⟨negative, whole, fraction, exponent⟩, cs)

def readToken? (c : Char) (cs : List Char) : Option (Token × List Char) :=
  match c, cs with
  | '[', rest => some (.openBracket, rest)
  | ']', rest => some (.closeBracket, rest)
  | '\x7b', rest => some (.openBrace, rest)
  | '\x7d', rest => some (.closeBrace, rest)
  | ',', rest => some (.comma, rest)
  | ':', rest => some (.colon, rest)
  | 'n', 'u' :: 'l' :: 'l' :: rest => some (.null, rest)
  | 't', 'r' :: 'u' :: 'e' :: rest => some (.bool true, rest)
  | 'f', 'a' :: 'l' :: 's' :: 'e' :: rest => some (.bool false, rest)
  | '"', rest => (readPieces rest).map fun (pieces, left) => (.string (joinText? pieces), left)
  | '-', rest => (readUnsigned? true rest).map fun (literal, left) => (.number literal, left)
  | c, rest => (readUnsigned? false (c :: rest)).map fun (literal, left) => (.number literal, left)

/-- The tokens of a text, put behind those already read, which stand in reverse. Each step reads at
least one character, so `fuel` never runs out when it is the length of the text. -/
def tokensOnto? (fuel : Nat) (read : List Token) (cs : List Char) : Option (List Token) :=
  match fuel, cs with
  | _, [] => some read.reverse
  | 0, _ :: _ => none
  | fuel + 1, c :: rest =>
    if isSpace c then tokensOnto? fuel read rest
    else
      match readToken? c rest with
      | none => none
      | some (token, left) => tokensOnto? fuel (token :: read) left

def tokens? (cs : List Char) : Option (List Token) := tokensOnto? cs.length [] cs

end PercentFormat.Json
