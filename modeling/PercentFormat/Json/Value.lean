import PercentFormat.Json.Number
import PercentFormat.Json.Token

/-! JSON text as a tree, with numbers and repeated keys as they are written; the values that trees denote;
and records, whose fields have known types. -/

namespace PercentFormat.Json

/-- A JSON text. Numbers are not evaluated, keys keep their order and may repeat, and a string has
no text when one of its escapes is half of a pair. -/
inductive Tree where
  | null
  | bool (value : Bool)
  | number (literal : Literal)
  | string (text : Option String)
  | array (items : List Tree)
  | object (members : List (Option String × Tree))
  deriving Repr

mutual

/-- Reads one value. The fuel bounds the number of nested calls. -/
def readValue? (fuel : Nat) (tokens : List Token) : Option (Tree × List Token) :=
  match fuel, tokens with
  | 0, _ => none
  | _ + 1, .null :: rest => some (.null, rest)
  | _ + 1, .bool value :: rest => some (.bool value, rest)
  | _ + 1, .number literal :: rest => some (.number literal, rest)
  | _ + 1, .string text :: rest => some (.string text, rest)
  | _ + 1, .openBracket :: .closeBracket :: rest => some (.array [], rest)
  | fuel + 1, .openBracket :: rest =>
    (readItems? fuel rest).map fun (items, left) => (.array items, left)
  | _ + 1, .openBrace :: .closeBrace :: rest => some (.object [], rest)
  | fuel + 1, .openBrace :: rest =>
    (readMembers? fuel rest).map fun (members, left) => (.object members, left)
  | _ + 1, _ => none

/-- Reads the items of an array, at least one, up to its closing bracket. -/
def readItems? (fuel : Nat) (tokens : List Token) : Option (List Tree × List Token) :=
  match fuel with
  | 0 => none
  | fuel + 1 =>
    match readValue? fuel tokens with
    | some (item, .closeBracket :: rest) => some ([item], rest)
    | some (item, .comma :: rest) =>
      (readItems? fuel rest).map fun (items, left) => (item :: items, left)
    | _ => none

/-- Reads the members of an object, at least one, up to its closing brace. -/
def readMembers? (fuel : Nat) (tokens : List Token) :
    Option (List (Option String × Tree) × List Token) :=
  match fuel, tokens with
  | fuel + 1, .string key :: .colon :: rest =>
    match readValue? fuel rest with
    | some (value, .closeBrace :: rest) => some ([(key, value)], rest)
    | some (value, .comma :: rest) =>
      (readMembers? fuel rest).map fun (members, left) => ((key, value) :: members, left)
    | _ => none
  | _, _ => none

end

def Tree.parse? (text : String) : Option Tree := do
  let tokens ← tokens? text.toList
  match readValue? (2 * tokens.length) tokens with
  | some (tree, []) => some tree
  | _ => none

/-- A JSON value. The members of an object have an order. -/
inductive Value where
  | null
  | bool (value : Bool)
  | number (number : Number)
  | string (text : String)
  | array (items : List Value)
  | object (members : List (String × Value))
  deriving Repr

def Value.ofNat (n : Nat) : Value := .number (.integer n)

/-- A character of a string. Only the quotation mark, the backslash and control characters are
escaped. -/
def escape (c : Char) : List Char :=
  if c = '"' then ['\\', '"']
  else if c = '\\' then ['\\', '\\']
  else if c = '\x08' then ['\\', 'b']
  else if c = '\t' then ['\\', 't']
  else if c = '\n' then ['\\', 'n']
  else if c = '\x0c' then ['\\', 'f']
  else if c = '\r' then ['\\', 'r']
  else if c.toNat < 0x20 then
    ['\\', 'u', '0', '0', Nat.digitChar (c.toNat / 16), Nat.digitChar (c.toNat % 16)]
  else [c]

def stringText (s : String) : List Char := '"' :: s.toList.flatMap escape ++ ['"']

/-- What stands before an item: nothing, or a new line that is indented to its level. -/
def lineBreak : Option Nat → List Char
  | none => []
  | some level => '\n' :: List.replicate (2 * level) ' '

def deeper (level : Option Nat) : Option Nat := level.map (· + 1)

def keyMark : Option Nat → List Char
  | none => [':']
  | some _ => [':', ' ']

mutual

/-- The text of a value. With a level, each item of a container has a line of its own. -/
def Value.render (level : Option Nat) : Value → List Char
  | .null => ['n', 'u', 'l', 'l']
  | .bool true => ['t', 'r', 'u', 'e']
  | .bool false => ['f', 'a', 'l', 's', 'e']
  | .number n => n.text
  | .string s => stringText s
  | .array [] => ['[', ']']
  | .array (item :: items) =>
    '[' :: lineBreak (deeper level) ++ item.render (deeper level)
      ++ renderItems (deeper level) items ++ lineBreak level ++ [']']
  | .object [] => ['\x7b', '\x7d']
  | .object ((key, value) :: members) =>
    '\x7b' :: lineBreak (deeper level) ++ stringText key ++ keyMark level
      ++ value.render (deeper level) ++ renderMembers (deeper level) members
      ++ lineBreak level ++ ['\x7d']

def renderItems (level : Option Nat) : List Value → List Char
  | [] => []
  | item :: items => ',' :: lineBreak level ++ item.render level ++ renderItems level items

def renderMembers (level : Option Nat) : List (String × Value) → List Char
  | [] => []
  | (key, value) :: members =>
    ',' :: lineBreak level ++ stringText key ++ keyMark level ++ value.render level
      ++ renderMembers level members

end

def Value.compact (v : Value) : String := String.ofList (v.render none)

def Value.pretty (v : Value) : String := String.ofList (v.render (some 0))

/-- Puts a member in its place among members sorted by key. It takes the place of one with the same
key. -/
def insertMember (key : String) (value : Value) : List (String × Value) → List (String × Value)
  | [] => [(key, value)]
  | (k, v) :: rest =>
    if key < k then (key, value) :: (k, v) :: rest
    else if key = k then (key, value) :: rest
    else (k, v) :: insertMember key value rest

/-- Members sorted by key. Of several with one key the last one counts. -/
def sortMembers (members : List (String × Value)) : List (String × Value) :=
  members.foldl (fun sorted m => insertMember m.1 m.2 sorted) []

mutual

/-- The value of a tree with at most `depth` containers one inside the other. -/
def Value.ofTree? (depth : Nat) : Tree → Option Value
  | .null => some .null
  | .bool value => some (.bool value)
  | .number literal => (Number.ofLiteral? literal).map .number
  | .string text => text.map .string
  | .array items => if depth = 0 then none else (itemsOfTrees? (depth - 1) items).map .array
  | .object members =>
    if depth = 0 then none
    else (membersOfTrees? (depth - 1) members).map fun members => .object (sortMembers members)

def itemsOfTrees? (depth : Nat) : List Tree → Option (List Value)
  | [] => some []
  | tree :: trees => do
    let value ← Value.ofTree? depth tree
    let values ← itemsOfTrees? depth trees
    return value :: values

/-- The members of an object, in the order in which they are written. -/
def membersOfTrees? (depth : Nat) : List (Option String × Tree) → Option (List (String × Value))
  | [] => some []
  | (key, tree) :: members => do
    let key ← key
    let value ← Value.ofTree? depth tree
    let members ← membersOfTrees? depth members
    return (key, value) :: members

end

def maxDepth : Nat := 127

/-- Reads a value of any form. The members of objects are sorted by key, and of several with one key
the last one counts. -/
def Value.parse? (text : String) : Option Value :=
  (Tree.parse? text).bind (Value.ofTree? maxDepth)

def Value.get? (v : Value) (key : String) : Option Value :=
  match v with
  | .object members => (members.find? (·.1 == key)).map (·.2)
  | _ => none

def Tree.text? : Tree → Option String
  | .string text => text
  | _ => none

def Tree.items? : Tree → Option (List Tree)
  | .array items => some items
  | _ => none

/-- An integer, written without fraction and exponent. Minus zero is no integer. -/
def Tree.integer? : Tree → Option Int
  | .number literal =>
    if literal.fraction.isEmpty && literal.exponent.isNone then
      let value := literal.whole.foldl (fun v d => v * 10 + digitOf d) 0
      if literal.negative then if value = 0 then none else some (-value) else some value
    else none
  | _ => none

def Tree.size? (t : Tree) : Option Nat := do
  let value ← t.integer?
  if 0 ≤ value && value < 0x10000000000000000 then some value.toNat else none

def Tree.int32? (t : Tree) : Option Int32 := do
  let value ← t.integer?
  if -0x80000000 ≤ value && value < 0x80000000 then some (Int32.ofInt value) else none

/-- The name of an alternative without contents: a string, or an object whose only key it is and
whose value is null. -/
def Tree.name? : Tree → Option String
  | .string text => text
  | .object [(key, .null)] => key
  | _ => none

/-- The fields of a record in the order of their names, each absent or present. A record is an
object, in which other keys are passed over and a repeated field is refused, or an array of the
first fields. -/
def Tree.fields? (names : List String) : Tree → Option (List (Option Tree))
  | .object members => do
    let members ← members.mapM fun (key, tree) => key.map (·, tree)
    names.mapM fun name =>
      match members.filter (·.1 == name) with
      | [] => some none
      | [(_, tree)] => some (some tree)
      | _ => none
  | .array items =>
    if items.length ≤ names.length then
      some (items.map some ++ List.replicate (names.length - items.length) none)
    else none
  | _ => none

end PercentFormat.Json
