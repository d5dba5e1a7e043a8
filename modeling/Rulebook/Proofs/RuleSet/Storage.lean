import Mathlib.Data.Set.List
import Rulebook.Proofs.Fragment.Merge
import Rulebook.Proofs.Overlay.Fitting

/-!
# Rules in a mapping of values

The names in a `RuleSet` are strings by their type, and no name stands twice. A mapping of values promises neither: its
keys are values of any kind, and whoever takes the rules out of it passes over a key that is no string. An operation on
such a mapping that let another key in would lose rules without an error. This module shows that none does. It
provides:

* `Stored` — rules in a mapping of values, with all that can be done to them: `Stored.ofValue`, `Stored.insert`,
  `Stored.replace`, `Stored.merge`, `Stored.overlay`, and `Stored.names`, `Stored.rows`, `Stored.items` to take them
  out;
* `RuleSet.stored` — a rule set as such a mapping, with one lemma for each operation: it does to the mapping what is
  done to the rule set;
* `Stored.Reached` — what operations lead to, in any order and number, and `Stored.reached_iff`, by induction on how it
  was reached: these are the rule sets; and
* `Stored.Lawful` and `Stored.reached_lawful` — what is reached is an ordered map from which nothing is lost.
-/

namespace Rulebook

namespace Value

/-- The text of a string, possibly tagged. -/
def string? (v : Value) : Option String :=
  match v.untag with
  | .string s => some s
  | _ => none

theorem same_string (s t : String) : same (.string t) (.string s) = (t == s) := by
  rw [same]

end Value

namespace Overlay

/-- One entry of a localization merged into rules of any form, of which it is known how a rule is looked up and how it
is put in the place of another. -/
def entryStepOn {α : Type} (get? : α → String → Option Value) (put : α → String → Value → α) (options : Options)
    (item : Value × Value) (rules : α) : Progress α :=
  match item.1.keyText? with
  | none => tolerate options (.invalidEntry item.1.outline) rules
  | some rule =>
    match get? rules rule with
    | none => if options.prune then .ok (rules, .pruned) else .error (.unknownRule rule)
    | some target =>
      match item.2 with
      | .mapping localized =>
        (attributes options rule localized target).map fun (merged, done) => (put rules rule merged, done.closeEntry)
      | .null => .ok (rules, .zero)
      | _ => tolerate options (.invalidEntry rule) rules

theorem entryStep_eq (options : Options) : entryStep options = entryStepOn RuleSet.get? RuleSet.insert options :=
  rfl

/-- Rules of two forms stay alike if look-up finds the same in both and `put` keeps them alike. -/
theorem entryStepOn_agree {α β : Type} {R : α → β → Prop} {get₁ : α → String → Option Value}
    {get₂ : β → String → Option Value} {put₁ : α → String → Value → α} {put₂ : β → String → Value → β}
    (hget : ∀ {first second} name, R first second → get₂ second name = get₁ first name)
    (hput : ∀ {first second} name rule, R first second → R (put₁ first name rule) (put₂ second name rule))
    (options : Options) (item : Value × Value) {first : α} {second : β} (h : R first second) :
    Agree R (entryStepOn get₁ put₁ options item first) (entryStepOn get₂ put₂ options item second) := by
  rw [entryStepOn, entryStepOn]
  cases item.1.keyText? with
  | none => exact tolerate_agree _ h
  | some name =>
      dsimp only
      rw [hget name h]
      cases get₁ first name with
      | none =>
          dsimp only
          split
          · exact .ok .pruned h
          · exact .error _
      | some target =>
          cases item.2 with
          | mapping localized =>
              dsimp only
              cases attributes options name localized target with
              | error error => exact .error error
              | ok progress => exact .ok progress.2.closeEntry (hput name progress.1 h)
          | null => exact .ok .zero h
          | _ => exact tolerate_agree _ h

end Overlay

/-- Rules in a mapping of values, in order. -/
structure Stored where
  entries : List (Value × Value)

namespace Stored

/-- No rules. -/
def empty : Stored :=
  ⟨[]⟩

/-- The number of entries. -/
def size (stored : Stored) : Nat :=
  stored.entries.length

/-! ### Taking the rules out -/

/-- The names that are found. -/
def names (stored : Stored) : List String :=
  stored.entries.filterMap fun entry => entry.1.string?

/-- The rules that are found with their names. -/
def rows (stored : Stored) : List (String × Value) :=
  stored.entries.filterMap fun entry => entry.1.string?.map fun name => (name, entry.2)

/-- The rules that are found when the mapping is taken apart. A tag makes a key another one here. -/
def items (stored : Stored) : List (String × Value) :=
  stored.entries.filterMap fun entry =>
    match entry.1 with
    | .string name => some (name, entry.2)
    | _ => none

/-- The entry under a name. -/
def get? (stored : Stored) (name : String) : Option Value :=
  Value.lookup? (.string name) stored.entries

/-! ### Putting rules in -/

/-- Put an entry under a name. -/
def put (stored : Stored) (name : String) (rule : Value) : Stored :=
  ⟨Value.put (.string name) rule stored.entries⟩

/-- Put an entry under a name, with the one that was there before. -/
def insert (stored : Stored) (name : String) (rule : Value) : Option Value × Stored :=
  (stored.get? name, stored.put name rule)

/-- Change the entry under a name if there is one. -/
def replace (stored : Stored) (name : String) (change : Value → Value) : Stored :=
  match stored.get? name with
  | none => stored
  | some rule => stored.put name (change rule)

/-- Insert rules one after the other. -/
def insertAll (stored : Stored) (items : List (String × Value)) : Stored :=
  items.foldl (fun stored item => (stored.insert item.1 item.2).2) stored

/-- Put each entry of a document under the text of its key; the first key without a text is a fault. -/
def readAll : List (Value × Value) → Stored → Except RuleSet.Fault Stored
  | [], stored => .ok stored
  | (key, rule) :: rest, stored =>
    match key.keyText? with
    | none => .error (.nameNotScalar key)
    | some name => readAll rest (stored.put name rule.normalizeKeys)

/-- The rules of a document. -/
def ofValue : Value → Except RuleSet.Fault Stored
  | .null => .ok empty
  | .mapping entries => readAll entries empty
  | document => .error (.notMapping document)

/-- What is found in each part, inserted in order. -/
def merge (parts : List Stored) : Stored :=
  parts.foldl (fun merged part => merged.insertAll part.items) empty

theorem merge_concat (parts : List Stored) (part : Stored) :
    merge (parts ++ [part]) = (merge parts).insertAll part.items := by
  rw [merge, List.foldl_append]
  rfl

/-- The rules with a localization laid over them. -/
def overlay (stored : Stored) (options : Overlay.Options) (localization : Localization) : Overlay.Progress Stored :=
  Overlay.steps (Overlay.entryStepOn get? put options) localization.entries stored

end Stored

/-! ### A rule set as a mapping -/

namespace RuleSet

/-- The rules under keys that are strings, as the document `RuleSet.toValue` has them. -/
def stored (rules : RuleSet) : Stored :=
  ⟨rules.entries.map fun entry => (.string entry.1, entry.2)⟩

theorem rows_stored (rules : RuleSet) : rules.stored.rows = rules.entries := by
  rw [Stored.rows, stored, List.filterMap_map]
  exact List.filterMap_some

theorem items_stored (rules : RuleSet) : rules.stored.items = rules.entries := by
  rw [Stored.items, stored, List.filterMap_map]
  exact List.filterMap_some

theorem names_stored (rules : RuleSet) : rules.stored.names = rules.names := by
  rw [Stored.names, stored, List.filterMap_map, names, ← List.filterMap_eq_map]
  rfl

theorem get?_stored (rules : RuleSet) (name : String) : rules.stored.get? name = rules.get? name :=
  Entries.get?_map_fst (Value.same_string name) rules.entries

theorem put_stored (rules : RuleSet) (name : String) (rule : Value) :
    rules.stored.put name rule = (rules.insert name rule).stored :=
  congrArg Stored.mk (Entries.put_map_fst (Value.same_string name) rule rules.entries)

theorem insert_stored (rules : RuleSet) (name : String) (rule : Value) :
    rules.stored.insert name rule = (rules.get? name, (rules.insert name rule).stored) := by
  rw [Stored.insert, get?_stored, put_stored]

theorem replace_stored (rules : RuleSet) (name : String) (change : Value → Value) :
    rules.stored.replace name change =
      match rules.get? name with
      | none => rules.stored
      | some rule => (rules.insert name (change rule)).stored := by
  rw [Stored.replace, get?_stored]
  cases rules.get? name with
  | none => rfl
  | some rule => exact put_stored rules name (change rule)

theorem insertAll_stored (rules : RuleSet) (items : List (String × Value)) :
    rules.stored.insertAll items = (rules.insertAll items).stored := by
  induction items generalizing rules with
  | nil => rfl
  | cons item rest ih =>
      obtain ⟨name, rule⟩ := item
      calc rules.stored.insertAll ((name, rule) :: rest)
          = (rules.stored.put name rule).insertAll rest := rfl
        _ = (rules.insert name rule).stored.insertAll rest := by rw [put_stored]
        _ = ((rules.insert name rule).insertAll rest).stored := ih _

theorem readAll_stored (rules : RuleSet) (entries : List (Value × Value)) :
    Stored.readAll entries rules.stored =
      (nameEntries entries).map fun named => (rules.insertAll named).stored := by
  induction entries generalizing rules with
  | nil => rfl
  | cons entry rest ih =>
      obtain ⟨key, rule⟩ := entry
      rw [Stored.readAll, nameEntries]
      cases key.keyText? with
      | none => rfl
      | some name =>
          dsimp only
          rw [put_stored, ih]
          cases nameEntries rest <;> rfl

/-- A document gives the same rules, or is at fault for the same reason. -/
theorem ofValue_stored (document : Value) : Stored.ofValue document = (ofValue document).map stored := by
  cases document with
  | mapping entries =>
      rw [Stored.ofValue, ofValue, show Stored.empty = empty.stored from rfl, readAll_stored]
      cases nameEntries entries <;> rfl
  | _ => rfl

theorem merge_stored (fragments : List Fragment) :
    Stored.merge (fragments.map fun fragment => fragment.rules.stored) = (Fragment.merge fragments).stored := by
  induction fragments using List.reverseRecOn with
  | nil => rfl
  | append_singleton fragments fragment ih =>
      rw [List.map_append, List.map_singleton, Stored.merge_concat, ih, items_stored, insertAll_stored,
        Fragment.merge_concat]

/-- A localization does the same, or does not fit for the same reason. -/
theorem overlay_stored (options : Overlay.Options) (localization : Localization) (rules : RuleSet) :
    rules.stored.overlay options localization =
      (Overlay.apply options localization rules).map fun progress => (progress.1.stored, progress.2) := by
  have hagree : Overlay.Agree (fun rules stored => rules.stored = stored)
      (Overlay.apply options localization rules) (rules.stored.overlay options localization) := by
    rw [Overlay.apply, Overlay.entries, Overlay.entryStep_eq]
    refine Overlay.steps_agree (fun item _ _ hstored => Overlay.entryStepOn_agree ?_ ?_ options item hstored)
      localization.entries rfl
    · rintro rules _ name rfl
      exact get?_stored rules name
    · rintro rules _ name rule rfl
      exact (put_stored rules name rule).symm
  generalize Overlay.apply options localization rules = applied at hagree ⊢
  generalize rules.stored.overlay options localization = overlaid at hagree ⊢
  cases hagree with
  | error error => rfl
  | ok done hstored =>
      rw [← hstored]
      rfl

end RuleSet

/-! ### What is reached -/

namespace Stored

/-- Rules that operations lead to, in any order and any number. -/
inductive Reached : Stored → Prop where
  | empty : Reached empty
  | read {document : Value} {stored : Stored} (h : ofValue document = .ok stored) : Reached stored
  | insert {stored : Stored} (h : Reached stored) (name : String) (rule : Value) :
    Reached (stored.insert name rule).2
  | replace {stored : Stored} (h : Reached stored) (name : String) (change : Value → Value) :
    Reached (stored.replace name change)
  | merge {parts : List Stored} (h : ∀ part ∈ parts, Reached part) : Reached (merge parts)
  | overlay {stored last : Stored} {options : Overlay.Options} {localization : Localization} {done : Overlay.Stats}
    (h : Reached stored) (hlast : stored.overlay options localization = .ok (last, done)) : Reached last

/-- Each operation leads from rule sets to a rule set. -/
theorem Reached.exists_rules {stored : Stored} (h : Reached stored) : ∃ rules : RuleSet, rules.stored = stored := by
  induction h with
  | empty => exact ⟨.empty, rfl⟩
  | read h =>
      rw [RuleSet.ofValue_stored, map_eq_ok_iff] at h
      obtain ⟨rules, -, rfl⟩ := h
      exact ⟨rules, rfl⟩
  | insert _ name rule ih =>
      obtain ⟨rules, rfl⟩ := ih
      exact ⟨rules.insert name rule, (RuleSet.put_stored rules name rule).symm⟩
  | replace _ name change ih =>
      obtain ⟨rules, rfl⟩ := ih
      rw [RuleSet.replace_stored]
      cases rules.get? name with
      | none => exact ⟨rules, rfl⟩
      | some rule => exact ⟨rules.insert name (change rule), rfl⟩
  | @merge parts _ ih =>
      -- The parts are rule sets, so they are the rules of fragments.
      have hparts : parts ∈ Set.range (List.map fun fragment : Fragment => fragment.rules.stored) := by
        rw [Set.range_list_map]
        intro part hpart
        obtain ⟨rules, hrules⟩ := ih part hpart
        exact ⟨⟨"", rules⟩, hrules⟩
      obtain ⟨fragments, rfl⟩ := hparts
      exact ⟨Fragment.merge fragments, (RuleSet.merge_stored fragments).symm⟩
  | overlay _ hlast ih =>
      obtain ⟨rules, rfl⟩ := ih
      rw [RuleSet.overlay_stored, map_eq_ok_iff] at hlast
      obtain ⟨progress, -, hlast⟩ := hlast
      exact ⟨progress.1, congrArg Prod.fst hlast⟩

theorem reached_insertAll {stored : Stored} (h : Reached stored) (items : List (String × Value)) :
    Reached (stored.insertAll items) := by
  induction items generalizing stored with
  | nil => exact h
  | cons item rest ih => exact ih (h.insert item.1 item.2)

/-- The rule sets, and no other mappings, are reached. -/
theorem reached_iff {stored : Stored} : Reached stored ↔ ∃ rules : RuleSet, rules.stored = stored := by
  refine ⟨Reached.exists_rules, ?_⟩
  rintro ⟨rules, rfl⟩
  have hreached : Reached (RuleSet.empty.stored.insertAll rules.entries) := reached_insertAll .empty _
  rwa [RuleSet.insertAll_stored, RuleSet.insertAll_empty_entries] at hreached

/-! ### Ordered maps -/

/-- The mapping is an ordered map with strings for keys, and nothing in it is passed over. -/
structure Lawful (stored : Stored) : Prop where
  /-- Every key is a string. -/
  named : ∀ entry ∈ stored.entries, ∃ name, entry.1 = .string name
  /-- No key stands twice. -/
  distinct : Entries.Distinct Value.same stored.entries
  /-- As many names are found as there are entries, and as many rules. -/
  counted : stored.names.length = stored.size ∧ stored.rows.length = stored.size
  /-- The names are the keys, in order. -/
  names : stored.names.map Value.string = stored.entries.map Prod.fst
  /-- The rules with their names are the entries, in order. -/
  rows : stored.rows.map (fun row => (.string row.1, row.2)) = stored.entries
  /-- They are the same when the mapping is taken apart. -/
  items : stored.items = stored.rows
  /-- An entry under a name that is there takes the place of the old one, which is given back; all others stay. -/
  insert_known : ∀ name ∈ stored.names, ∀ rule, ∃ left old right,
    stored.entries = left ++ (.string name, old) :: right ∧
      stored.insert name rule = (some old, ⟨left ++ (.string name, rule) :: right⟩)
  /-- An entry under a new name comes last. -/
  insert_new : ∀ name ∉ stored.names, ∀ rule,
    stored.insert name rule = (none, ⟨stored.entries ++ [(.string name, rule)]⟩)
  /-- What is taken out and inserted into nothing, rule by rule, is the same mapping in the same order. -/
  rebuilt : empty.insertAll stored.items = stored

end Stored

theorem RuleSet.lawful_stored (rules : RuleSet) : rules.stored.Lawful where
  named := List.forall_mem_map.2 fun entry _ => ⟨entry.1, rfl⟩
  distinct := by
    refine List.pairwise_map.2 ((List.pairwise_map.1 rules.distinct).imp fun {first second} hne => ?_)
    rw [Value.same_string]
    exact beq_false_of_ne hne
  counted := by
    rw [names_stored, rows_stored, names, Stored.size, stored, List.length_map, List.length_map]
    exact ⟨rfl, rfl⟩
  names := by
    rw [names_stored, names, stored, List.map_map, List.map_map]
    rfl
  rows := by
    rw [rows_stored]
    rfl
  items := by rw [items_stored, rows_stored]
  insert_known := by
    intro name hname rule
    rw [names_stored, ← isSome_get?_iff, ← get?_stored] at hname
    obtain ⟨old, hget⟩ := Option.isSome_iff_exists.1 hname
    obtain ⟨left, right, hsplit, hleft⟩ := Entries.exists_split_of_get?_eq_some (Value.exact_string name) hget
    refine ⟨left, old, right, hsplit, ?_⟩
    rw [Stored.insert, hget, Stored.put, hsplit, Value.put, Entries.put_split (Value.exact_string name) rule old hleft]
  insert_new := by
    intro name hname rule
    rw [names_stored, ← get?_eq_none_iff, ← get?_stored] at hname
    rw [Stored.insert, hname, Stored.put, Value.put, Entries.put_of_get?_eq_none rule hname]
  rebuilt := by
    rw [items_stored, show Stored.empty = empty.stored from rfl, insertAll_stored, insertAll_empty_entries]

namespace Stored

/-- **Rule sets are ordered maps.** However rules were reached, their mapping has strings for keys, all different, and
everything in it is found in order. To insert an entry under a name that is there replaces that entry in its place and
gives it back, and under a new name appends it; and the rules taken out and inserted again give the same mapping. It is
the mapping of a rule set, which inserts in the same way and has the same rules. -/
theorem reached_lawful {stored : Stored} (h : Reached stored) :
    stored.Lawful ∧ ∃ rules : RuleSet, rules.stored = stored ∧ RuleSet.empty.insertAll stored.items = rules ∧
      ∀ name rule, stored.insert name rule = (rules.get? name, (rules.insert name rule).stored) := by
  obtain ⟨rules, rfl⟩ := h.exists_rules
  refine ⟨rules.lawful_stored, rules, rfl, ?_, rules.insert_stored⟩
  rw [RuleSet.items_stored, RuleSet.insertAll_empty_entries]

/-- A name in two spellings, of which the second has the entry that stays. -/
def twoSpellings : Value :=
  .mapping [(.number (.integer 1), .null), (.string "a", .null), (.string "1", .mapping [(.string "t", .string "x")])]

/-- The rules of it, localized, with one more that is new, and merged with others that define one of them anew. -/
def mergedRules : Stored :=
  ⟨[(.string "1", .mapping [(.string "t", .string "y")]), (.string "a", .bool true), (.string "b", .null)]⟩

theorem reached_lawful_mergedRules : Reached mergedRules ∧ mergedRules.Lawful := by
  have hread : ofValue twoSpellings =
      .ok ⟨[(.string "1", .mapping [(.string "t", .string "x")]), (.string "a", .null)]⟩ := rfl
  have hlocalized : overlay ⟨[(.string "1", .mapping [(.string "t", .string "x")]), (.string "a", .null)]⟩ .strict
      ⟨[(.number (.integer 1), .mapping [(.string "t", .string "y")])]⟩ =
      .ok (⟨[(.string "1", .mapping [(.string "t", .string "y")]), (.string "a", .null)]⟩, ⟨1, 1, 0, 0, 0⟩) := rfl
  have hinserted : Reached ⟨[(.string "1", .mapping [(.string "t", .string "y")]), (.string "a", .null),
      (.string "b", .null)]⟩ := ((Reached.read hread).overlay hlocalized).insert "b" .null
  have hother : Reached ⟨[(.string "a", .bool true)]⟩ := Reached.empty.insert "a" (.bool true)
  have hmerged : Reached mergedRules :=
    @Reached.merge [_, _] (List.forall_mem_cons.2 ⟨hinserted, List.forall_mem_singleton.2 hother⟩)
  exact ⟨hmerged, (reached_lawful hmerged).1⟩

end Stored

end Rulebook
