import PercentFormat.Json.Token

/-! JSON numbers: what a literal denotes, and how a number is written. Binary numbers of 64 bits are
written as the shortest decimal that reads back as the same one. -/

namespace PercentFormat.Json

/-- The number `mantissa * 2 ^ exponent`. The mantissa has 53 bits, or fewer when the exponent is
the least one, -1074. -/
structure Binary64 where
  mantissa : Nat
  exponent : Int
  deriving DecidableEq, Repr

namespace Binary64

def zero : Binary64 := ⟨0, -1074⟩

/-- The quotient `num / den`, rounded to the nearest natural number, a half to the even one. -/
def roundDiv (num den : Nat) : Nat :=
  let below := num / den
  let twice := 2 * (num % den)
  if twice < den || (twice == den && below % 2 == 0) then below else below + 1

def scale (num den : Nat) (power : Int) : Nat × Nat :=
  match power with
  | .ofNat n => (num, den <<< n)
  | .negSucc n => (num <<< (n + 1), den)

def hiddenBit : Nat := 0x10000000000000

/-- The exponent at which the mantissa of `num / den` has 53 bits, or the least one. -/
def exponentOf (num den : Nat) : Int :=
  let guess : Int := (num.log2 : Int) - (den.log2 : Int) - 52
  let (n, d) := scale num den guess
  max (if n < hiddenBit * d then guess - 1 else guess) (-1074)

/-- The number nearest to `num / den`, of two the one with an even mantissa. There is none when the
fraction is too large. -/
def ofFraction? (num den : Nat) : Option Binary64 :=
  if num = 0 then some zero
  else
    let e := exponentOf num den
    let (n, d) := scale num den e
    let m := roundDiv n d
    let (m, e) := if m = 2 * hiddenBit then (hiddenBit, e + 1) else (m, e)
    if 971 < e then none else some ⟨m, e⟩

def toFraction (x : Binary64) : Nat × Nat := scale x.mantissa 1 (-x.exponent)

def mul? (x y : Binary64) : Option Binary64 :=
  let (a, b) := x.toFraction
  let (c, d) := y.toFraction
  ofFraction? (a * c) (b * d)

def div? (x y : Binary64) : Option Binary64 :=
  let (a, b) := x.toFraction
  let (c, d) := y.toFraction
  ofFraction? (a * d) (b * c)

end Binary64

end PercentFormat.Json

namespace PercentFormat.Json.Binary64

structure Decimal where
  digits : Nat
  exponent : Int
  deriving DecidableEq, Repr

def Decimal.toFraction (d : Decimal) : Nat × Nat :=
  match d.exponent with
  | .ofNat n => (d.digits * Nat.pow 10 n, 1)
  | .negSucc n => (d.digits, Nat.pow 10 (n + 1))

/-- Four times the mantissa, and the ends of the interval of numbers that round to it, in the same
unit. Below a power of two the neighbour is half as far. -/
def interval (x : Binary64) : Nat × Nat × Nat :=
  let low := if x.mantissa = hiddenBit && x.exponent != -1074 then 4 * x.mantissa - 1
    else 4 * x.mantissa - 2
  (low, 4 * x.mantissa, 4 * x.mantissa + 2)

/-- Whether a decimal rounds to the number. The ends of the interval do if the mantissa is even. -/
def roundsFrom (x : Binary64) (d : Decimal) : Bool :=
  let (low, _, high) := x.interval
  let (n, m) := d.toFraction
  let (a, b) := scale 1 1 (2 - x.exponent)
  -- The interval is from `low * a / b` to `high * a / b`.
  if x.mantissa % 2 = 0 then low * a * m ≤ n * b && n * b ≤ high * a * m
  else low * a * m < n * b && n * b < high * a * m

/-- The multiple of `10 ^ power` that rounds to the number and is nearest to it, if there is one. -/
def onGrid? (x : Binary64) (power : Int) : Option Decimal :=
  let (n, m) := x.toFraction
  let (u, w) := Decimal.toFraction ⟨1, power⟩
  let below := n * w / (m * u)
  let rest := n * w % (m * u)
  let near := if 2 * rest < m * u || (2 * rest == m * u && below % 2 == 0) then below else below + 1
  let far := if near = below then below + 1 else below
  if x.roundsFrom ⟨near, power⟩ then some ⟨near, power⟩
  else if x.roundsFrom ⟨far, power⟩ then some ⟨far, power⟩
  else none

/-- Looks for a decimal that rounds to the number, from the coarsest grid to finer ones. -/
def search (x : Binary64) (fuel : Nat) (power : Int) : Decimal :=
  match fuel with
  | 0 => ⟨0, 0⟩
  | fuel + 1 =>
    match x.onGrid? power with
    | some d => d
    | none => search x fuel (power - 1)

/-- The decimal with the fewest digits that rounds to the number; of several the nearest one. -/
def shortest (x : Binary64) : Decimal :=
  if x.mantissa = 0 then ⟨0, 0⟩ else x.search 1100 309

end PercentFormat.Json.Binary64

namespace PercentFormat.Json

/-- A number: an integer of 64 bits, signed or not, or a binary floating-point number. -/
inductive Number where
  | integer (value : Int)
  | binary (negative : Bool) (magnitude : Binary64)
  deriving DecidableEq, Repr

def maxSignificand : Nat := 0xFFFFFFFFFFFFFFFF

def digitOf (c : Char) : Nat := c.toNat - 0x30

/-- Appends digits to a significand while they fit. From the first one that does not fit on, they
are only counted. -/
def gather (significand : Nat) : List Char → Nat × Nat
  | [] => (significand, 0)
  | d :: ds =>
    if significand * 10 + digitOf d ≤ maxSignificand then gather (significand * 10 + digitOf d) ds
    else (significand, ds.length + 1)

/-- The power of ten as a binary number, up to the largest one that has one. -/
def tenPower (n : Nat) : Binary64 := (Binary64.ofFraction? (Nat.pow 10 n) 1).getD .zero

def lower? (x : Binary64) : Option Binary64 := x.div? (tenPower 308)

/-- A significand times a power of ten. It is rounded first, then multiplied or divided by the
rounded power, in steps where the power is too small to be a binary number. There is none when it
is too large. -/
def scaled? (x : Binary64) (exponent : Int) : Option Binary64 :=
  if x.mantissa = 0 then some x
  else if 308 < exponent then none
  else if 0 ≤ exponent then x.mul? (tenPower exponent.toNat)
  else if -308 ≤ exponent then x.div? (tenPower exponent.natAbs)
  else (lower? x).bind fun y => scaled? y (exponent + 308)
termination_by exponent.natAbs
decreasing_by omega

def maxExponent : Nat := 0x7FFFFFFF

/-- The exponent of a literal, if its digits stay within the largest one. -/
def exponentValue? (digits : List Char) : Option Nat :=
  let value := digits.foldl (fun v d => v * 10 + digitOf d) 0
  if value ≤ maxExponent then some value else none

/-- The magnitude of a significand with the point shifted by `shift`, and the exponent of the
literal. An exponent beyond the largest one makes the number too large, or zero. -/
def magnitude? (significand : Nat) (shift : Int) (exponent : Option (Bool × List Char)) :
    Option Binary64 := do
  let x ← Binary64.ofFraction? significand 1
  match exponent with
  | none => scaled? x shift
  | some (negative, digits) =>
    match exponentValue? digits with
    | some power => scaled? x (if negative then shift - power else shift + power)
    | none => if significand != 0 && !negative then none else some .zero

/-- The number that a literal denotes. A literal without fraction and exponent is an integer if it
fits one; minus zero is not an integer. There is no number when the literal is too large. -/
def Number.ofLiteral? (l : Literal) : Option Number :=
  let (whole, dropped) := gather 0 l.whole
  let exact := l.fraction.isEmpty && l.exponent.isNone && dropped == 0
  if exact && !l.negative then some (.integer whole)
  else if exact && 0 < whole && whole ≤ 0x8000000000000000 then some (.integer (-whole))
  else
    let (significand, ignored) := gather whole l.fraction
    let shift : Int := dropped - (l.fraction.length - ignored : Nat)
    (magnitude? significand shift l.exponent).map (.binary l.negative)

/-- The digits of a decimal with the point in its place, always with a digit on both sides; from
`10 ^ 16` on and below `10 ^ -5` with an exponent. -/
def decimalText (d : Binary64.Decimal) : List Char :=
  let digits := Nat.toDigits 10 d.digits
  let leading : Int := digits.length - 1 + d.exponent
  if -5 ≤ leading && leading ≤ 15 then
    if 0 ≤ d.exponent then digits ++ List.replicate d.exponent.toNat '0' ++ ['.', '0']
    else if 0 ≤ leading then
      digits.take (leading.toNat + 1) ++ '.' :: digits.drop (leading.toNat + 1)
    else '0' :: '.' :: List.replicate (leading.natAbs - 1) '0' ++ digits
  else
    let mantissa := match digits with
      | [d] => [d]
      | d :: ds => d :: '.' :: ds
      | [] => []
    mantissa ++ 'e' :: (if leading < 0 then '-' else '+') :: Nat.toDigits 10 leading.natAbs

def integerText (value : Int) : List Char :=
  match value with
  | .ofNat n => Nat.toDigits 10 n
  | .negSucc n => '-' :: Nat.toDigits 10 (n + 1)

def Number.text : Number → List Char
  | .integer value => integerText value
  | .binary negative magnitude =>
    let unsigned := decimalText magnitude.shortest
    if negative then '-' :: unsigned else unsigned

end PercentFormat.Json
