import Rulebook.Proofs.Outcome
import Rulebook.Proofs.Pairs

/-!
# Laws of rule sets

Rule names are strings, so the laws of ordered maps hold of every name. This module provides look-up after
`RuleSet.insert`, the names it leaves, and `RuleSet.ext_get?`: a rule set is its names in order and what
look-up says of each. It also says which rules the entries of a document give (`RuleSet.nameEntries_eq_ok_iff`).
-/

namespace Rulebook

namespace RuleSet

theorem exact_name (name : String) : Entries.Exact (· == ·) name :=
  fun _ => beq_iff_eq

theorem isSome_get?_iff (rules : RuleSet) (name : String) :
    (rules.get? name).isSome = true ↔ name ∈ rules.names :=
  Entries.isSome_get?_iff (exact_name name) rules.entries

theorem mem_names_of_get? {rules : RuleSet} {name : String} {rule : Value} (h : rules.get? name = some rule) :
    name ∈ rules.names :=
  (isSome_get?_iff rules name).1 (by rw [h]; rfl)

theorem get?_eq_none_iff (rules : RuleSet) (name : String) : rules.get? name = none ↔ name ∉ rules.names := by
  rw [← isSome_get?_iff, Option.not_isSome_iff_eq_none]

theorem get?_insert_self (rules : RuleSet) (name : String) (rule : Value) :
    (rules.insert name rule).get? name = some rule :=
  Entries.get?_put_self (exact_name name) rule rules.entries

theorem get?_insert_of_ne (rules : RuleSet) {name other : String} (hne : name ≠ other) (rule : Value) :
    (rules.insert name rule).get? other = rules.get? other :=
  Entries.get?_put_of_ne (exact_name name) (exact_name other) hne rule rules.entries

/-- To give a rule that is defined another entry leaves the names. -/
theorem names_insert_of_mem (rules : RuleSet) {name : String} (h : name ∈ rules.names) (rule : Value) :
    (rules.insert name rule).names = rules.names := by
  have hcontains : Entries.contains (· == ·) name rules.entries = true :=
    (isSome_get?_iff rules name).2 h
  rw [names, insert, Entries.map_fst_put, if_pos hcontains, List.append_nil]
  rfl

/-- A rule set is its names in order and the entry of each. -/
theorem ext_get? {a b : RuleSet} (hnames : a.names = b.names) (hget : ∀ name, a.get? name = b.get? name) :
    a = b := by
  cases a with
  | mk first hfirst =>
      cases b with
      | mk second hsecond =>
          obtain rfl : first = second :=
            Entries.ext_of_exact hnames hfirst (fun name _ => exact_name name) fun name _ => hget name
          rfl

/-- To give a rule the entry that it has changes nothing. -/
theorem insert_of_get? {rules : RuleSet} {name : String} {rule : Value} (h : rules.get? name = some rule) :
    rules.insert name rule = rules := by
  refine ext_get? (names_insert_of_mem rules (mem_names_of_get? h) rule) fun other => ?_
  by_cases hname : name = other
  · subst hname
    rw [get?_insert_self, h]
  · exact get?_insert_of_ne rules hname rule

/-! ### Reading a document -/

/-- The rule that an entry of a document gives, under the text of its key. -/
def ruleOf? (entry : Value × Value) : Option (String × Value) :=
  entry.1.keyText?.map fun name => (name, entry.2.normalizeKeys)

theorem ruleOf?_eq_some_iff {entry : Value × Value} {rule : String × Value} :
    ruleOf? entry = some rule ↔ entry.1.keyText? = some rule.1 ∧ rule.2 = entry.2.normalizeKeys := by
  obtain ⟨name, value⟩ := rule
  rw [ruleOf?, Option.map_eq_some_iff]
  constructor
  · rintro ⟨name', hkey, heq⟩
    obtain ⟨rfl, rfl⟩ := Prod.mk.inj heq
    exact ⟨hkey, rfl⟩
  · rintro ⟨hkey, rfl⟩
    exact ⟨name, hkey, rfl⟩

/-- Entries are named when each of them gives a rule. -/
theorem nameEntries_eq_ok_iff {entries : List (Value × Value)} {named : List (String × Value)} :
    nameEntries entries = .ok named ↔ entries.map ruleOf? = named.map some := by
  induction entries generalizing named with
  | nil => cases named <;> simp [nameEntries]
  | cons entry rest ih =>
      obtain ⟨key, value⟩ := entry
      rw [nameEntries, List.map_cons]
      cases hkey : key.keyText? with
      | none => cases named <;> simp [ruleOf?, hkey]
      | some name =>
          have hrule : ruleOf? (key, value) = some (name, value.normalizeKeys) := by simp [ruleOf?, hkey]
          rw [hrule]
          cases hrest : nameEntries rest with
          | error fault =>
              have hno : ∀ others : List (String × Value), rest.map ruleOf? ≠ others.map some := fun others heq => by
                rw [ih.2 heq] at hrest
                cases hrest
              cases named <;> simp [hno]
          | ok others => cases named <;> simp [ih.1 hrest, List.map_inj_right]

theorem insertAll_entries (rules : RuleSet) (entries : List (String × Value)) :
    (rules.insertAll entries).entries =
      entries.foldl (fun entries entry => Entries.put (· == ·) entry.1 entry.2 entries) rules.entries := by
  induction entries generalizing rules with
  | nil => rfl
  | cons entry rest ih => exact ih (rules.insert entry.1 entry.2)

/-- Entries that name no rule twice are the rules they give. -/
theorem insertAll_empty {named : List (String × Value)} (h : (named.map Prod.fst).Nodup) :
    (empty.insertAll named).entries = named := by
  rw [insertAll_entries]
  refine Entries.foldl_put_of_distinct [] ?_
  exact (List.pairwise_map.1 h).imp fun hne => beq_false_of_ne hne

theorem ext_entries {a b : RuleSet} (h : a.entries = b.entries) : a = b := by
  cases a
  cases b
  exact (mk.injEq ..).mpr h

/-- The entries of a rule set, inserted one after the other, are the rule set. -/
theorem insertAll_empty_entries (rules : RuleSet) : empty.insertAll rules.entries = rules :=
  ext_entries (insertAll_empty rules.distinct)

end RuleSet

end Rulebook
