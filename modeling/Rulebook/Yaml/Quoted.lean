import Rulebook.Yaml.Gap

/-!
# Quoted scalars

Between single quotes a quote is written twice and everything else stands for itself; between double quotes a
backslash starts an escape. Line breaks fold in both. This module provides `Quoted.scanSingle?`,
`Quoted.scanDouble?` and `Quoted.escape?`.
-/

namespace Rulebook

namespace Yaml

namespace Quoted

/-- A scalar and the place after its closing quote. -/
abbrev Result := Option (String × Cursor)

/-- The scalar whose reversed text so far, and the gap after it, are given; single quotes. The flag tells that
the character here is the second quote of a pair. -/
def singleFrom (paired : Bool) (gap : Gap) (reversed : List Char) : List Char → Position → Result
  | [], _ => none
  | c :: rest, p =>
    if paired then singleFrom false .none (c :: gap.appendTo reversed) rest (p.after c)
    else if isSpace c then singleFrom false (gap.add c) reversed rest (p.after c)
    else if p.column == 0 && atDocumentMarker (c :: rest) then none
    else if c = '\'' then
      if rest.head? = some '\'' then singleFrom true gap reversed rest (p.after c)
      else some (String.ofList (gap.appendTo reversed).reverse, ⟨rest, p.after c⟩)
    else singleFrom false .none (c :: gap.appendTo reversed) rest (p.after c)

/-- The scalar after an opening single quote. -/
def scanSingle? (c : Cursor) : Result :=
  singleFrom false .none [] c.rest c.position

/-- The value of a hexadecimal digit. -/
def hexDigit? (c : Char) : Option Nat :=
  if c.isDigit then some (c.toNat - '0'.toNat)
  else if 'a' ≤ c ∧ c ≤ 'f' then some (c.toNat - 'a'.toNat + 10)
  else if 'A' ≤ c ∧ c ≤ 'F' then some (c.toNat - 'A'.toNat + 10)
  else none

/-- The value of hexadecimal digits, read from the left onto `value`. -/
def hexValue? (value : Nat) : List Char → Option Nat
  | [] => some value
  | c :: rest => (hexDigit? c).bind fun digit => hexValue? (16 * value + digit) rest

/-- The character whose code is written with the first `count` characters. -/
def charOfCode? (count : Nat) (chars : List Char) : Option Char :=
  if chars.length < count then none
  else
    (hexValue? 0 (chars.take count)).bind fun n =>
      if h : n.isValidChar then some (Char.ofNatAux n h) else none

/-- The escapes of one letter. -/
def letterEscapes : List (Char × Char) :=
  [('0', '\x00'), ('a', '\x07'), ('b', '\x08'), ('t', '\t'), ('\t', '\t'), ('n', '\n'), ('v', '\x0b'),
    ('f', '\x0c'), ('r', '\r'), ('e', '\x1b'), (' ', ' '), ('"', '"'), ('/', '/'), ('\\', '\\'),
    ('N', '\u0085'), ('_', '\u00a0'), ('L', '\u2028'), ('P', '\u2029')]

/-- The character that an escape stands for, and how many characters follow its backslash. -/
def escape? : List Char → Option (Char × Nat)
  | [] => none
  | 'x' :: rest => (charOfCode? 2 rest).map (·, 3)
  | 'u' :: rest => (charOfCode? 4 rest).map (·, 5)
  | 'U' :: rest => (charOfCode? 8 rest).map (·, 9)
  | c :: _ => (letterEscapes.lookup c).map (·, 1)

/-- The scalar whose reversed text so far, and the gap after it, are given; double quotes. The first `skip`
characters belong to an escape that has been read. -/
def doubleFrom (skip : Nat) (gap : Gap) (reversed : List Char) : List Char → Position → Result
  | [], _ => none
  | c :: rest, p =>
    match skip with
    | more + 1 => doubleFrom more gap reversed rest (p.after c)
    | 0 =>
      if isSpace c then doubleFrom 0 (gap.add c) reversed rest (p.after c)
      else if p.column == 0 && atDocumentMarker (c :: rest) then none
      else if c = '"' then some (String.ofList (gap.appendTo reversed).reverse, ⟨rest, p.after c⟩)
      else if c = '\\' then
        if rest.head?.any isBreak then
          doubleFrom 1 (.lines none []) (gap.appendTo reversed) rest (p.after c)
        else
          match escape? rest with
          | none => none
          | some (escaped, count) =>
            doubleFrom count .none (escaped :: gap.appendTo reversed) rest (p.after c)
      else doubleFrom 0 .none (c :: gap.appendTo reversed) rest (p.after c)

/-- The scalar after an opening double quote. -/
def scanDouble? (c : Cursor) : Result :=
  doubleFrom 0 .none [] c.rest c.position

end Quoted

end Yaml

end Rulebook
