import Rulebook.Fragment
import Rulebook.Proofs.RuleSet

/-!
# What a merge of fragments holds

A merge puts rule set after rule set, and putting one after another is an operation with laws of its own. This module
provides:

* `RuleSet.names_insertAll` and `RuleSet.get?_insertAll` — the names of two rule sets, each where it comes first, and
  the entry that the later one has, if it has one;
* `RuleSet.insertAll_insertAll` — it does not matter which of three rule sets are put together first; and
* `Fragment.merge_lastWins` — a merge of fragments holds the names in the order of their first definition, each with
  the entry of its last one, and a merge of merges is the merge of everything.
-/

namespace Rulebook

/-! ### Names where they come first -/

section

variable {α : Type} [BEq α] [LawfulBEq α]

theorem eraseDups_concat (first : List α) (x : α) :
    (first ++ [x]).eraseDups = if x ∈ first then first.eraseDups else first.eraseDups ++ [x] := by
  rw [List.eraseDups_append]
  split <;> simp_all [List.removeAll, List.eraseDups_cons]

theorem eraseDups_of_nodup {names : List α} (h : names.Nodup) : names.eraseDups = names := by
  induction names using List.reverseRecOn with
  | nil => rfl
  | append_singleton names name ih =>
      obtain ⟨hnames, -, hapart⟩ := List.nodup_append.1 h
      have hfresh : name ∉ names := fun hmem => hapart name hmem name List.mem_cons_self rfl
      rw [eraseDups_concat, if_neg hfresh, ih hnames]

/-- Names that are repeated in the first of two lists are repeated in both together. -/
theorem eraseDups_eraseDups_append (first second : List α) :
    (first.eraseDups ++ second).eraseDups = (first ++ second).eraseDups := by
  induction second using List.reverseRecOn with
  | nil =>
      rw [List.append_nil, List.append_nil]
      induction first using List.reverseRecOn with
      | nil => rfl
      | append_singleton first x ih =>
          rw [eraseDups_concat]
          split
          · exact ih
          · next hx => rw [eraseDups_concat, if_neg (by rwa [List.mem_eraseDups]), ih]
  | append_singleton second x ih =>
      rw [← List.append_assoc, ← List.append_assoc, eraseDups_concat, eraseDups_concat, ih]
      simp only [List.mem_append, List.mem_eraseDups]

/-- So are names that are repeated in the second. -/
theorem eraseDups_append_eraseDups (first second : List α) :
    (first ++ second.eraseDups).eraseDups = (first ++ second).eraseDups := by
  induction second using List.reverseRecOn with
  | nil => rfl
  | append_singleton second x ih =>
      rw [eraseDups_concat, ← List.append_assoc first second, eraseDups_concat]
      by_cases hx : x ∈ second
      · rw [if_pos hx, if_pos (List.mem_append_right first hx), ih]
      · rw [if_neg hx, ← List.append_assoc, eraseDups_concat, ih]
        simp only [List.mem_append, List.mem_eraseDups]

end

/-! ### One rule set after another -/

namespace RuleSet

theorem eraseDups_names (rules : RuleSet) : rules.names.eraseDups = rules.names :=
  eraseDups_of_nodup rules.distinct

theorem names_insert (rules : RuleSet) (name : String) (rule : Value) :
    (rules.insert name rule).names = (rules.names ++ [name]).eraseDups := by
  rw [eraseDups_concat, eraseDups_names]
  by_cases h : name ∈ rules.names
  · rw [if_pos h, names_insert_of_mem rules h]
  · have hnone : rules.get? name = none := (get?_eq_none_iff rules name).2 h
    have hentries : (rules.insert name rule).entries = rules.entries ++ [(name, rule)] :=
      Entries.put_of_get?_eq_none rule hnone
    rw [if_neg h, names, hentries, List.map_append]
    rfl

theorem names_insertAll (rules : RuleSet) (entries : List (String × Value)) :
    (rules.insertAll entries).names = (rules.names ++ entries.map Prod.fst).eraseDups := by
  induction entries generalizing rules with
  | nil =>
      rw [List.map_nil, List.append_nil, eraseDups_names]
      rfl
  | cons entry rest ih =>
      calc (rules.insertAll (entry :: rest)).names
          = ((rules.insert entry.1 entry.2).names ++ rest.map Prod.fst).eraseDups := ih _
        _ = ((rules.names ++ [entry.1]).eraseDups ++ rest.map Prod.fst).eraseDups := by rw [names_insert]
        _ = (rules.names ++ [entry.1] ++ rest.map Prod.fst).eraseDups := eraseDups_eraseDups_append _ _
        _ = (rules.names ++ (entry :: rest).map Prod.fst).eraseDups := by simp

theorem get?_insertAll (rules : RuleSet) {entries : List (String × Value)} (h : (entries.map Prod.fst).Nodup)
    (name : String) :
    (rules.insertAll entries).get? name = (Entries.get? (· == ·) name entries).or (rules.get? name) := by
  induction entries generalizing rules with
  | nil => rfl
  | cons entry rest ih =>
      obtain ⟨other, rule⟩ := entry
      obtain ⟨hfresh, hrest⟩ := List.nodup_cons.1 h
      rw [show rules.insertAll ((other, rule) :: rest) = (rules.insert other rule).insertAll rest from rfl,
        ih (rules.insert other rule) hrest, Entries.get?_cons]
      by_cases hname : other = name
      · -- The name is not among the others, so its entry is the one that is inserted here.
        subst hname
        have hnone : Entries.get? (· == ·) other rest = none := by
          rw [← Option.not_isSome_iff_eq_none, Entries.isSome_get?_iff (exact_name other)]
          exact hfresh
        rw [hnone, get?_insert_self, if_pos (beq_self_eq_true other)]
        rfl
      · rw [get?_insert_of_ne rules hname, if_neg (by simpa using hname)]

/-- Of three rule sets in a row the first two or the last two may be put together first. -/
theorem insertAll_insertAll (first second third : RuleSet) :
    first.insertAll (second.insertAll third.entries).entries =
      (first.insertAll second.entries).insertAll third.entries := by
  refine ext_get? ?_ fun name => ?_
  · have hsecond : (second.insertAll third.entries).entries.map Prod.fst =
        (second.names ++ third.names).eraseDups := names_insertAll second third.entries
    have hfirst : (first.insertAll second.entries).names = (first.names ++ second.names).eraseDups :=
      names_insertAll first second.entries
    rw [names_insertAll, names_insertAll, hsecond, hfirst, eraseDups_append_eraseDups, eraseDups_eraseDups_append,
      List.append_assoc]
    rfl
  · have hsecond : Entries.get? (· == ·) name (second.insertAll third.entries).entries =
        (third.get? name).or (second.get? name) := get?_insertAll second third.distinct name
    have hfirst : (first.insertAll second.entries).get? name = (second.get? name).or (first.get? name) :=
      get?_insertAll first second.distinct name
    rw [get?_insertAll first (RuleSet.distinct _), get?_insertAll _ third.distinct, hsecond, hfirst, Option.or_assoc]
    rfl

end RuleSet

/-! ### Fragments -/

namespace Fragment

theorem merge_concat (fragments : List Fragment) (fragment : Fragment) :
    merge (fragments ++ [fragment]) = (merge fragments).insertAll fragment.rules.entries := by
  rw [merge, List.foldl_append]
  rfl

theorem names_merge (fragments : List Fragment) :
    (merge fragments).names = (fragments.flatMap fun fragment => fragment.rules.names).eraseDups := by
  induction fragments using List.reverseRecOn with
  | nil => rfl
  | append_singleton fragments fragment ih =>
      rw [merge_concat, RuleSet.names_insertAll, ih, eraseDups_eraseDups_append, List.flatMap_append,
        List.flatMap_singleton]
      rfl

theorem get?_merge (fragments : List Fragment) (name : String) :
    (merge fragments).get? name = (fragments.filterMap fun fragment => fragment.rules.get? name).getLast? := by
  induction fragments using List.reverseRecOn with
  | nil => rfl
  | append_singleton fragments fragment ih =>
      have hlast : Entries.get? (· == ·) name fragment.rules.entries = fragment.rules.get? name := rfl
      rw [merge_concat, RuleSet.get?_insertAll _ fragment.rules.distinct, ih, List.filterMap_append,
        List.getLast?_append, hlast]
      cases hget : fragment.rules.get? name <;> simp [hget]

theorem merge_append (first second : List Fragment) :
    merge (first ++ second) = (merge first).insertAll (merge second).entries := by
  induction second using List.reverseRecOn with
  | nil =>
      rw [List.append_nil]
      rfl
  | append_singleton second fragment ih =>
      rw [← List.append_assoc, merge_concat, merge_concat, ih, RuleSet.insertAll_insertAll]

/-- **Fragments are merged rule by rule, and the last one wins.** A merge has the names of all fragments, each where it
comes first, and gives each name the entry of the last fragment that has one, as a whole. To merge the fragments in
groups, each under a name of its own, and then what the groups gave, makes no difference. -/
theorem merge_lastWins (fragments : List Fragment) (groups : List (String × List Fragment)) :
    (merge fragments).names = (fragments.flatMap fun fragment => fragment.rules.names).eraseDups ∧
      (∀ name, (merge fragments).get? name =
        (fragments.filterMap fun fragment => fragment.rules.get? name).getLast?) ∧
      merge (groups.map fun group => ⟨group.1, merge group.2⟩) = merge (groups.flatMap Prod.snd) := by
  refine ⟨names_merge fragments, get?_merge fragments, ?_⟩
  induction groups using List.reverseRecOn with
  | nil => rfl
  | append_singleton groups group ih =>
      rw [List.map_append, List.map_singleton, merge_concat, ih, List.flatMap_append, List.flatMap_singleton,
        merge_append]

end Fragment

end Rulebook
