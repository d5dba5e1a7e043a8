/-!
# Names in messages

Programs show the names of files and other texts in their messages in such a way that they could be written in a script.
This module provides:

* `Quoting.shown` — a text as it is, or in quotes if it needs them;
* `Quoting.always` — a text in quotes in any case; and
* `Quoting.plain` — a text between single quotes, for what is no name of a file.
-/

namespace Rulebook

namespace Shell

namespace Quoting

/-- The letters after a backslash for control characters. -/
def controls : List (Char × Char) :=
  [('\x07', 'a'), ('\x08', 'b'), ('\t', 't'), ('\n', 'n'), ('\x0b', 'v'), ('\x0c', 'f'), ('\r', 'r')]

/-- Is the character shown as it is? -/
def isPrinted (c : Char) : Bool :=
  32 ≤ c.toNat && c.toNat < 127

/-- A character that is not shown as it is. -/
def escaped (c : Char) : List Char :=
  match controls.lookup c with
  | some letter => ['\\', letter]
  | none =>
    let digit (n : Nat) : Char := Char.ofNat ('0'.toNat + n % 8)
    ['\\', digit (c.toNat / 64), digit (c.toNat / 8), digit c.toNat]

/-- Does a character ask for quotes? `isFirst` and `isOnly` tell where it stands. -/
def asksForQuotes (isFirst isOnly : Bool) (c : Char) : Bool :=
  !isPrinted c || " !\"$&()*;<=>?[^\x60|'\\:".toList.contains c || (isFirst && (c == '#' || c == '~')) ||
    (isOnly && (c == '\x7b' || c == '\x7d'))

/-- Does the text need quotes? -/
def needsQuotes (text : List Char) : Bool :=
  match text with
  | [] => true
  | c :: rest => asksForQuotes true rest.isEmpty c || rest.any (asksForQuotes false false)

/-- May the text stand between double quotes, where that spares escapes? -/
def fitsDoubleQuotes (text : List Char) : Bool :=
  text.contains '\'' && text.all fun c => isPrinted c && !"!\"$&()*;<=>?[\\^\x60|\x7b\x7d".toList.contains c

/-- What stands between single quotes, which are closed around what cannot stand there. -/
def insideQuotes (isEscaping : Bool) : List Char → List Char
  | [] => []
  | c :: rest =>
    if c = '\'' then (if isEscaping then "''".toList else []) ++ "'\\''".toList ++ insideQuotes false rest
    else if isPrinted c then (if isEscaping then "''".toList else []) ++ c :: insideQuotes false rest
    else (if isEscaping then [] else "'$'".toList) ++ escaped c ++ insideQuotes true rest

/-- The text in quotes. -/
def always (text : String) : String :=
  let chars := text.toList
  if fitsDoubleQuotes chars then "\"" ++ text ++ "\"" else "'" ++ String.ofList (insideQuotes false chars) ++ "'"

/-- The text, in quotes if it needs them. -/
def shown (text : String) : String :=
  if needsQuotes text.toList then always text else text

/-- The text between single quotes. -/
def plain (text : String) : String :=
  let inner := text.toList.flatMap fun c =>
    if c = '\'' ∨ c = '\\' then ['\\', c] else if isPrinted c then [c] else escaped c
  "'" ++ String.ofList inner ++ "'"

end Quoting

end Shell

end Rulebook
