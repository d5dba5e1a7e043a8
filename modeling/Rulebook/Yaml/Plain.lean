import Rulebook.Yaml.Gap

/-!
# Plain scalars

A plain scalar stands without quotes. It ends before a comment, before a colon that a space follows, at a line
that is not indented enough or holds a document marker and, in a flow collection, at a character that delimits
it. This module provides `Plain` and `Plain.scan?`.
-/

namespace Rulebook

namespace Yaml

/-- A plain scalar, whether a line break stood behind it, and the place after it. -/
structure Plain where
  text : String
  endsLine : Bool
  after : Cursor

namespace Plain

/-- How the next word starts. -/
inductive Start where
  | goesOn
  | ends
  | refused

/-- What a character that is no white space does to the scalar, which stands inside a flow collection or not.
`chars` begins with the character. -/
def start (flow : Bool) (chars : List Char) : Start :=
  match chars with
  | ':' :: next :: _ =>
    if flow && (isFlowIndicator next || next == '?') then .refused
    else if isSpace next then .ends
    else .goesOn
  | [':'] => .ends
  | c :: _ => if flow && isFlowIndicator c then .ends else .goesOn
  | [] => .ends

/-- Does the scalar end before a word, for what stands between them and for the place of the word? -/
def endsBefore (flow : Bool) (indent : Nat) (gap : Gap) (column : Nat) (chars : List Char) : Bool :=
  !gap.isNone &&
    ((!flow && column < indent) || (column == 0 && atDocumentMarker chars) || chars.head? == some '#')

/-- The scalar whose reversed text so far, and the gap after it, are given. A tab before a word that is not
indented enough is refused. -/
def scanFrom (flow : Bool) (indent : Nat) (gap : Gap) (reversed : List Char) :
    List Char → Position → Option Plain
  | [], p => some ⟨String.ofList reversed.reverse, gap.isLines, ⟨[], p⟩⟩
  | c :: rest, p =>
    if isSpace c then
      if c == '\t' && gap.isLines && p.column < indent then none
      else scanFrom flow indent (gap.add c) reversed rest (p.after c)
    else if endsBefore flow indent gap p.column (c :: rest) then
      some ⟨String.ofList reversed.reverse, gap.isLines, ⟨c :: rest, p⟩⟩
    else
      match start flow (c :: rest) with
      | .refused => none
      | .ends => some ⟨String.ofList reversed.reverse, gap.isLines, ⟨c :: rest, p⟩⟩
      | .goesOn => scanFrom flow indent .none (c :: gap.appendTo reversed) rest (p.after c)

/-- The plain scalar that starts here; its further lines are indented by `indent` columns at least. -/
def scan? (flow : Bool) (indent : Nat) (c : Cursor) : Option Plain :=
  scanFrom flow indent .none [] c.rest c.position

end Plain

end Yaml

end Rulebook
