import Rulebook.Value

/-!
# Rule sets

A rule set gives each rule name, a string, its entry: a formula or a mapping of attributes. This module
provides:

* `RuleSet` — entries in order, no name twice, which is part of the type;
* `RuleSet.insert`, `RuleSet.get?`, `RuleSet.names` — the operations of an ordered map;
* `Value.normalizeKeys` — scalar keys become strings, at every depth reached through mappings and lists; and
* `RuleSet.ofValue` — the rule set a document describes, or the `RuleSet.Fault` that it is none.
-/

namespace Rulebook

/-- Rules by name, in the order in which the names were first given. -/
structure RuleSet where
  entries : List (String × Value)
  distinct : (entries.map Prod.fst).Nodup

namespace RuleSet

/-- No rules. -/
def empty : RuleSet :=
  ⟨[], .nil⟩

instance : Inhabited RuleSet := ⟨empty⟩

/-- The rule names in order. -/
def names (rules : RuleSet) : List String :=
  rules.entries.map Prod.fst

/-- The number of rules. -/
def size (rules : RuleSet) : Nat :=
  rules.entries.length

/-- Is there no rule? -/
def isEmpty (rules : RuleSet) : Bool :=
  rules.entries.isEmpty

/-- The entry of a rule. -/
def get? (rules : RuleSet) (name : String) : Option Value :=
  Entries.get? (· == ·) name rules.entries

/-- Is the rule defined? -/
def contains (rules : RuleSet) (name : String) : Bool :=
  Entries.contains (· == ·) name rules.entries

theorem contains_eq_mem (name : String) (entries : List (String × Value)) :
    Entries.contains (· == ·) name entries = decide (name ∈ entries.map Prod.fst) := by
  induction entries with
  | nil => rfl
  | cons entry rest ih =>
    obtain ⟨k, v⟩ := entry
    by_cases hk : k = name
    · simp [Entries.contains, Entries.get?_cons, hk]
    · simp only [Entries.contains] at ih
      simp [Entries.contains, Entries.get?_cons, hk, ih, Ne.symm hk]

/-- Give a rule an entry: in place if the rule is defined, else as the last rule. -/
def insert (rules : RuleSet) (name : String) (rule : Value) : RuleSet where
  entries := Entries.put (· == ·) name rule rules.entries
  distinct := by
    rw [Entries.map_fst_put, contains_eq_mem]
    by_cases h : name ∈ rules.entries.map Prod.fst
    · simpa [h] using rules.distinct
    · simp only [h, decide_false, Bool.false_eq_true, if_false]
      exact List.nodup_append.2 ⟨rules.distinct, by simp, by rintro a ha b hb rfl; simp_all⟩

/-- Insert entries one after the other. -/
def insertAll (rules : RuleSet) (entries : List (String × Value)) : RuleSet :=
  entries.foldl (fun rules entry => rules.insert entry.1 entry.2) rules

/-- The rule set as a document: a mapping whose keys are the names. -/
def toValue (rules : RuleSet) : Value :=
  .mapping (rules.entries.map fun entry => (.string entry.1, entry.2))

/-- Equality of rule sets, whatever the order of the rules. -/
def same (a b : RuleSet) : Bool :=
  a.toValue.same b.toValue

end RuleSet

/-! ## Normal keys -/

namespace Value

/-- A scalar key becomes the string that stands for it; any other key stays. -/
def normalKey (key : Value) : Value :=
  match key.keyText? with
  | some name => .string name
  | none => key

mutual

/-- Every key below the value in its normal form, as far as mappings and lists reach. Of keys that become
equal the first keeps its place and the last its value. -/
def normalizeKeys : Value → Value
  | .mapping entries => ofPairs (normalizeEntries entries)
  | .list items => .list (normalizeItems items)
  | v => v

/-- Each item with normal keys. -/
def normalizeItems : List Value → List Value
  | [] => []
  | v :: rest => v.normalizeKeys :: normalizeItems rest

/-- Each entry with its key in normal form and its value with normal keys. -/
def normalizeEntries : List (Value × Value) → List (Value × Value)
  | [] => []
  | (k, v) :: rest => (k.normalKey, v.normalizeKeys) :: normalizeEntries rest

end

end Value

/-! ## Reading a document -/

namespace RuleSet

/-- Why a document is not a rule set. -/
inductive Fault where
  /-- The document is neither null nor a mapping. -/
  | notMapping (document : Value)
  /-- A rule's name is null, a list or a mapping. -/
  | nameNotScalar (key : Value)

/-- The fault in words. -/
def Fault.message : Fault → String
  | .notMapping document => "expected a mapping of rule names, found " ++ document.kind
  | .nameNotScalar key => "rule names must be scalars, found " ++ key.kind

/-- The entries with their names as text, or the first key that is no name. -/
def nameEntries : List (Value × Value) → Except Fault (List (String × Value))
  | [] => .ok []
  | (key, rule) :: rest =>
    match key.keyText? with
    | none => .error (.nameNotScalar key)
    | some name =>
      match nameEntries rest with
      | .error fault => .error fault
      | .ok named => .ok ((name, rule.normalizeKeys) :: named)

/-- The rule set of a document. Null is the empty one; names of different kinds with one text are one rule. -/
def ofValue : Value → Except Fault RuleSet
  | .null => .ok empty
  | .mapping entries => (nameEntries entries).map empty.insertAll
  | document => .error (.notMapping document)

end RuleSet

end Rulebook
