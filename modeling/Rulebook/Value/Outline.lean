import Rulebook.Text.Hidden
import Rulebook.Value

/-!
# Outlines of values

A diagnostic that has to name a value which is no scalar shows its outline: the kind of each part, spelled out,
with strings quoted. This module provides `Text.quoted` and `Value.outline`.
-/

namespace Rulebook

namespace Text

/-- How a character stands in a quoted string: by a short escape, by its code, or as itself. -/
def quotedChar (c : Char) : List Char :=
  if c = '\x00' then ['\\', '0']
  else if c = '\t' then ['\\', 't']
  else if c = '\r' then ['\\', 'r']
  else if c = '\n' then ['\\', 'n']
  else if c = '"' ∨ c = '\\' then ['\\', c]
  else if isHidden c then '\\' :: 'u' :: '\x7b' :: (Nat.toDigits 16 c.toNat ++ ['\x7d'])
  else [c]

/-- The string between quotes. -/
def quoted (s : String) : String :=
  String.ofList ('"' :: (s.toList.flatMap quotedChar ++ ['"']))

end Text

namespace Value

/-- A scalar with the name of its kind, or bare where it stands as a key. -/
def scalarOutline (bare : Bool) (kind text : String) : String :=
  if bare then text else kind ++ "(" ++ text ++ ")"

mutual

/-- The value with the kinds of its parts spelled out; a `bare` scalar stands without its kind. -/
def outlineAs (bare : Bool) : Value → String
  | .null => "Null"
  | .bool b => scalarOutline bare "Bool" (boolText b)
  | .number n => scalarOutline bare "Number" n.text
  | .string s => scalarOutline bare "String" (Text.quoted s)
  | .list items => "Sequence [" ++ String.intercalate ", " (outlineItems items) ++ "]"
  | .mapping entries => "Mapping \x7b" ++ String.intercalate ", " (outlineEntries entries) ++ "\x7d"
  | .tagged tag content =>
    "TaggedValue \x7b tag: " ++ tagText tag ++ ", value: " ++ content.outlineAs false ++ " \x7d"

/-- The items' outlines. -/
def outlineItems : List Value → List String
  | [] => []
  | v :: rest => v.outlineAs false :: outlineItems rest

/-- The entries' outlines, with bare scalars as keys. -/
def outlineEntries : List (Value × Value) → List String
  | [] => []
  | (k, v) :: rest => (k.outlineAs true ++ ": " ++ v.outlineAs false) :: outlineEntries rest

end

/-- The outline of a value. -/
def outline (v : Value) : String :=
  v.outlineAs false

example : (Value.list [.string "a\n", .mapping [(.bool true, .null)]]).outline =
    "Sequence [String(\"a\\n\"), Mapping \x7btrue: Null\x7d]" := by
  decide +kernel

end Value

end Rulebook
