/-!
# Places where a match can end

A pattern may match the start of an input in several ways. This module provides `Marks`, which tells for each place of
an input whether a match can end there, and what the pieces of patterns do to it. Since all ways are followed at once,
matching takes time in proportion to the pattern and the input, and never more.
-/

namespace Rulebook

/-- For each place of an input, from its start to its end: can a match end here? -/
abbrev Marks := List Bool

namespace Marks

/-- Only the start is marked. -/
def start {α : Type} (input : List α) : Marks :=
  true :: input.map fun _ => false

/-- No place is marked. -/
def none {α : Type} (input : List α) : Marks :=
  false :: input.map fun _ => false

/-- The places marked in one or the other. -/
def or (a b : Marks) : Marks :=
  List.zipWith Bool.or a b

/-- The places after one element of a kind. -/
def one {α : Type} (isIn : α → Bool) (input : List α) (marks : Marks) : Marks :=
  false :: List.zipWith (fun element marked => marked && isIn element) input marks

/-- The places after elements of a kind, any number of them; `reached` tells that the place before these was
reached. -/
def manyFrom {α : Type} (isIn : α → Bool) (reached : Bool) : List α → Marks → Marks
  | element :: input, marked :: marks =>
    (reached || marked) :: manyFrom isIn ((reached || marked) && isIn element) input marks
  | [], [marked] => [reached || marked]
  | _, _ => []

/-- The places after elements of a kind, any number of them. -/
def many {α : Type} (isIn : α → Bool) (input : List α) (marks : Marks) : Marks :=
  manyFrom isIn false input marks

/-- The places after any elements. -/
def any {α : Type} (input : List α) (marks : Marks) : Marks :=
  many (fun _ => true) input marks

/-- Is the end marked? -/
def atEnd (marks : Marks) : Bool :=
  marks.getLastD false

end Marks

end Rulebook
