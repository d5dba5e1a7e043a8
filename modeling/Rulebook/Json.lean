import Rulebook.RuleSet

/-!
# JSON

The text form of a compiled rule set and of a report. This module provides:

* `Json` — a tree whose objects keep the order of their members;
* `Json.ofValue` — a document as JSON, or the `Json.Fault` that one of its keys has no text;
* `Json.compact` — the text without blanks, the form of an artifact; and
* `Json.pretty` — the text with one item a line, two blanks a level.
-/

namespace Rulebook

/-- A JSON tree. -/
inductive Json where
  | null
  | bool (b : Bool)
  | number (n : Number)
  | string (s : String)
  | array (items : List Json)
  | object (members : List (String × Json))
deriving Inhabited

namespace Json

/-- Why a document has no JSON form. -/
inductive Fault where
  /-- A key is a NaN or an infinity. -/
  | keyNotFinite
  /-- A key is null, a list, a mapping or a tagged value. -/
  | keyNotText
deriving DecidableEq

/-- The fault in words. -/
def Fault.message : Fault → String
  | .keyNotFinite => "float key must be finite (got NaN or +/-inf)"
  | .keyNotText => "key must be a string"

/-- A number's text; what is not finite has none. -/
def numberText? : Number → Option String
  | .integer n => some (toString n)
  | .float (.finite negative significand exponent _) =>
    some (Layout.json.write negative significand exponent)
  | .float _ => none

/-- The member name a key becomes. -/
def memberName : Value → Except Fault String
  | .string s => .ok s
  | .bool b => .ok (Value.boolText b)
  | .number n =>
    match numberText? n with
    | some text => .ok text
    | none => .error .keyNotFinite
  | _ => .error .keyNotText

mutual

/-- A document as JSON. A tagged value is an object with one member named like the tag. -/
def ofValue : Value → Except Fault Json
  | .null => .ok .null
  | .bool b => .ok (.bool b)
  | .number n => .ok (.number n)
  | .string s => .ok (.string s)
  | .list items => (ofItems items).map .array
  | .mapping entries => (ofEntries entries).map .object
  | .tagged tag content => (ofValue content).map fun j => .object [(Value.tagText tag, j)]

/-- The items as JSON, or the first fault. -/
def ofItems : List Value → Except Fault (List Json)
  | [] => .ok []
  | v :: rest =>
    match ofValue v with
    | .error fault => .error fault
    | .ok j => (ofItems rest).map (j :: ·)

/-- The entries as members, or the first fault; a key comes before its value. -/
def ofEntries : List (Value × Value) → Except Fault (List (String × Json))
  | [] => .ok []
  | (k, v) :: rest =>
    match memberName k with
    | .error fault => .error fault
    | .ok name =>
      match ofValue v with
      | .error fault => .error fault
      | .ok j => (ofEntries rest).map ((name, j) :: ·)

end

/-! ## Text -/

/-- A hexadecimal digit, lower case. -/
def hexDigit (n : Nat) : Char :=
  (Nat.toDigits 16 n).getLastD '0'

/-- How a character stands between quotes. -/
def escape (c : Char) : List Char :=
  if c = '"' then ['\\', '"']
  else if c = '\\' then ['\\', '\\']
  else if c = '\x08' then ['\\', 'b']
  else if c = '\x0c' then ['\\', 'f']
  else if c = '\n' then ['\\', 'n']
  else if c = '\r' then ['\\', 'r']
  else if c = '\t' then ['\\', 't']
  else if c.toNat < 0x20 then ['\\', 'u', '0', '0', hexDigit (c.toNat / 16), hexDigit (c.toNat % 16)]
  else [c]

/-- A string between quotes. -/
def quote (s : String) : List Char :=
  '"' :: (s.toList.flatMap escape ++ ['"'])

/-- What is neither an array nor an object; a number that is not finite is null. -/
def numberChars (n : Number) : List Char :=
  match numberText? n with
  | some text => text.toList
  | none => "null".toList

/-- Texts with a separator between them. -/
def separated (separator : List Char) : List (List Char) → List Char
  | [] => []
  | [text] => text
  | text :: rest => text ++ separator ++ separated separator rest

mutual

/-- The characters without blanks. -/
def compactChars : Json → List Char
  | .null => "null".toList
  | .bool b => (Value.boolText b).toList
  | .number n => numberChars n
  | .string s => quote s
  | .array items => '[' :: (separated [','] (compactItems items) ++ [']'])
  | .object members => '\x7b' :: (separated [','] (compactMembers members) ++ ['\x7d'])

/-- The items' characters. -/
def compactItems : List Json → List (List Char)
  | [] => []
  | j :: rest => compactChars j :: compactItems rest

/-- The members' characters. -/
def compactMembers : List (String × Json) → List (List Char)
  | [] => []
  | (name, j) :: rest => (quote name ++ ':' :: compactChars j) :: compactMembers rest

end

/-- The text without blanks. -/
def compact (j : Json) : String :=
  String.ofList j.compactChars

/-- A new line that starts `depth` levels in. -/
def newLine (depth : Nat) : List Char :=
  '\n' :: List.replicate (2 * depth) ' '

/-- Parts between brackets, each on a line of its own; no parts stand as the bare brackets. -/
def block (depth : Nat) (left right : Char) (parts : List (List Char)) : List Char :=
  if parts.isEmpty then [left, right]
  else left :: (newLine (depth + 1) ++ separated (',' :: newLine (depth + 1)) parts ++ newLine depth ++ [right])

mutual

/-- The characters with one item a line, for a tree that stands `depth` levels in. -/
def prettyChars (depth : Nat) : Json → List Char
  | .array items => block depth '[' ']' (prettyItems (depth + 1) items)
  | .object members => block depth '\x7b' '\x7d' (prettyMembers (depth + 1) members)
  | .null => "null".toList
  | .bool b => (Value.boolText b).toList
  | .number n => numberChars n
  | .string s => quote s

/-- The items' characters. -/
def prettyItems (depth : Nat) : List Json → List (List Char)
  | [] => []
  | j :: rest => prettyChars depth j :: prettyItems depth rest

/-- The members' characters. -/
def prettyMembers (depth : Nat) : List (String × Json) → List (List Char)
  | [] => []
  | (name, j) :: rest => (quote name ++ ':' :: ' ' :: prettyChars depth j) :: prettyMembers depth rest

end

/-- The text with one item a line. -/
def pretty (j : Json) : String :=
  String.ofList (j.prettyChars 0)

end Json

/-- A rule set as an artifact: one object whose members are the rules in order. -/
def RuleSet.json (rules : RuleSet) : Except Json.Fault String :=
  (Json.ofValue rules.toValue).map Json.compact

end Rulebook
