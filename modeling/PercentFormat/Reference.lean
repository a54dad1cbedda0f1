import PercentFormat.Fixture.Suite

/-! A second formatter, on text. It renders well-formed calls only and serves as their meaning. -/

namespace PercentFormat.Reference

open Fixture (Arg)

inductive Refusal where
  | widthOverflow
  | unfinished
  | widthBeforePercent
  | noArgument (conversion : Char)
  | wrongArgument (conversion : Char) (arg : Arg)
  | unusedArgument (arg : Arg)
  | tooWide
  deriving DecidableEq, Repr

def Refusal.message : Refusal → String
  | .widthOverflow => "width overflows usize"
  | .unfinished => "template ends inside a directive"
  | .widthBeforePercent => "width before '%%'"
  | .noArgument conversion => "no argument for '%" ++ String.singleton conversion ++ "'"
  | .wrongArgument conversion arg =>
    "'%" ++ String.singleton conversion ++ "' with argument " ++ arg.inspect
  | .unusedArgument arg => "unused argument " ++ arg.inspect
  | .tooWide => "width out of range"

def untilNul (cs : List Char) : List Char := cs.takeWhile (· != '\x00')

def maxPadding : Nat := 65535

def alignRight (width : Nat) (text : List Char) : List Char :=
  List.replicate (width - text.length) ' ' ++ text

def decimal (v : Int32) : List Char :=
  if v.toInt < 0 then '-' :: Nat.toDigits 10 v.toInt.natAbs else Nat.toDigits 10 v.toInt.natAbs

def hexadecimal (v : Int32) : List Char := Nat.toDigits 16 v.toUInt32.toNat

def field (width : Nat) (text : List Char) : Except Refusal (List Char) :=
  if maxPadding < width then .error .tooWide else .ok (alignRight width text)

/-- What a conversion renders from its argument. The width of a text counts its bytes. -/
def convert (conversion : Char) (width : Nat) (arg : Arg) : Except Refusal (List Char) :=
  match conversion, arg with
  | 'c', .char char =>
    if char.toNat < 0x80 then field width [char] else .error (.wrongArgument 'c' (.char char))
  | 'd', .int value => field width (decimal value)
  | 'x', .int value => field width (hexadecimal value)
  | 's', .str text =>
    let shown := untilNul text.toList
    let padding := width - (Utf8.encode (String.ofList shown)).length
    if maxPadding < padding then .error .tooWide
    else .ok (List.replicate padding ' ' ++ shown)
  | conversion, arg => .error (.wrongArgument conversion arg)

def widthValue (digits : List Char) : Nat :=
  digits.foldl (fun width d => width * 10 + (d.toNat - 0x30)) 0

/-- Reads the directive behind a percent sign, and renders it. Left are the template behind it and
the arguments that were not taken. -/
def directive (cs : List Char) (args : List Arg) :
    Except Refusal (List Char × List Char × List Arg) :=
  let digits := cs.takeWhile Char.isDigit
  if maxSize < widthValue digits then .error .widthOverflow
  else
    match cs.dropWhile Char.isDigit, args with
    | [], _ => .error .unfinished
    | '%' :: rest, args =>
      if digits.isEmpty then .ok (['%'], rest, args) else .error .widthBeforePercent
    | conversion :: _, [] => .error (.noArgument conversion)
    | conversion :: rest, arg :: args =>
      (convert conversion (widthValue digits) arg).map fun text => (text, rest, args)

private theorem length_rest_lt {c : Char} {cs rest : List Char}
    (h : cs.dropWhile Char.isDigit = c :: rest) : rest.length < cs.length := by
  have := (List.dropWhile_sublist Char.isDigit (l := cs)).length_le
  rw [h, List.length_cons] at this
  omega

theorem length_directive_lt {cs text rest : List Char} {args left : List Arg}
    (h : directive cs args = .ok (text, rest, left)) : rest.length < cs.length := by
  unfold directive at h
  simp only at h
  split at h
  · cases h
  · split at h
    · cases h
    · next rest' _ hd =>
      split at h
      · cases h; exact length_rest_lt hd
      · cases h
    · cases h
    · next c rest' arg args' hne hd =>
      cases hc : convert c (widthValue (cs.takeWhile Char.isDigit)) arg with
      | error e => rw [hc] at h; cases h
      | ok t => rw [hc] at h; cases h; exact length_rest_lt hd

/-- Renders a template behind what was rendered already, which stands in reverse. All arguments
must be taken. -/
def renderOnto (done cs : List Char) (args : List Arg) : Except Refusal (List Char) :=
  match cs with
  | [] =>
    match args with
    | [] => .ok done.reverse
    | arg :: _ => .error (.unusedArgument arg)
  | c :: cs =>
    if c = '%' then
      match h : directive cs args with
      | .error refusal => .error refusal
      | .ok (text, rest, left) =>
        have := length_directive_lt h
        renderOnto (text.reverse ++ done) rest left
    else renderOnto (c :: done) cs args
termination_by cs.length
decreasing_by
  all_goals simp only [List.length_cons]; omega

/-- The text of a call, or why it is not rendered. The template ends at its first NUL. -/
def render (template : String) (args : List Arg) : Except Refusal String :=
  (renderOnto [] (untilNul template.toList) args).map String.ofList

/-- The text of a call, or the fault that it is. -/
def format (template : String) (args : List Arg) : Except Fault String :=
  match render template args with
  | .ok text => .ok text
  | .error .tooWide => .error .unrenderable
  | .error refusal =>
    .error (.unsupported (String.ofList (untilNul template.toList)) refusal.message)

end PercentFormat.Reference
