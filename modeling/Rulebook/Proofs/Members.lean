import Rulebook.Json
import Rulebook.Proofs.NormalKeys
import Rulebook.Proofs.RuleSet

/-!
# Names of members

Keys that differ may become members of one name: the number 1 and the text `1` do. This module says when that happens
and when it does not. It provides:

* `Json.NoRepeats` — no object of a tree has two members of one name;
* `Value.NamesDistinct` — the same of the value that the tree is made of (`Json.noRepeats_iff`); and
* `Value.namesDistinct_normalizeKeys` — to normalize its keys gives a value different names, unless a tagged value in
  it, which normalization leaves as it is, has one name twice.
-/

namespace Rulebook

open Value (sizeOf_lt_of_mem_entries HasNormalKeys)

namespace Json

theorem sizeOf_lt_of_mem_members {member : String × Json} {members : List (String × Json)} (h : member ∈ members) :
    sizeOf member.2 < sizeOf members := by
  have hmember := List.sizeOf_lt_of_mem h
  rw [Prod.mk.sizeOf_spec] at hmember
  omega

/-- No object, at any depth, has two members of one name. -/
def NoRepeats : Json → Prop
  | .array items => ∀ item ∈ items, item.NoRepeats
  | .object members => (members.map Prod.fst).Nodup ∧ ∀ member ∈ members, member.2.NoRepeats
  | _ => True
termination_by j => sizeOf j
decreasing_by
  · exact Nat.lt_of_lt_of_le (List.sizeOf_lt_of_mem ‹_›) (by simp)
  · exact Nat.lt_of_lt_of_le (sizeOf_lt_of_mem_members ‹_›) (by simp)

end Json

namespace Value

/-- The names of the members that entries become; an entry whose key has no such name is left out. -/
def memberNames (entries : List (Value × Value)) : List String :=
  entries.filterMap fun entry => (Json.memberName entry.1).toOption

/-- No two entries of a mapping, at any depth, become members of one name. -/
def NamesDistinct : Value → Prop
  | .list items => ∀ item ∈ items, item.NamesDistinct
  | .mapping entries => (memberNames entries).Nodup ∧ ∀ entry ∈ entries, entry.2.NamesDistinct
  | .tagged _ content => content.NamesDistinct
  | _ => True
termination_by v => sizeOf v
decreasing_by
  · exact Nat.lt_of_lt_of_le (List.sizeOf_lt_of_mem ‹_›) (by simp)
  · exact Nat.lt_of_lt_of_le (sizeOf_lt_of_mem_entries ‹_›).2 (by simp)
  · rw [tagged.sizeOf_spec]
    omega

/-- No two entries of a mapping below a tag become members of one name, as far as mappings and lists lead to tags. -/
def TaggedDistinct : Value → Prop
  | .list items => ∀ item ∈ items, item.TaggedDistinct
  | .mapping entries => ∀ entry ∈ entries, entry.2.TaggedDistinct
  | .tagged _ content => content.NamesDistinct
  | _ => True
termination_by v => sizeOf v
decreasing_by
  · exact Nat.lt_of_lt_of_le (List.sizeOf_lt_of_mem ‹_›) (by simp)
  · exact Nat.lt_of_lt_of_le (sizeOf_lt_of_mem_entries ‹_›).2 (by simp)

end Value

/-! ### A value and its tree -/

namespace Json

/-- Items become items, one each. -/
theorem ofItems_eq_ok {items : List Value} {trees : List Json} (h : ofItems items = .ok trees) :
    List.Forall₂ (fun item tree => ofValue item = .ok tree) items trees := by
  induction items generalizing trees with
  | nil =>
      rw [ofItems, Except.ok.injEq] at h
      subst h
      exact .nil
  | cons item rest ih =>
      rw [ofItems] at h
      cases hitem : ofValue item with
      | error fault =>
          rw [hitem] at h
          cases h
      | ok tree =>
          rw [hitem] at h
          cases hrest : ofItems rest with
          | error fault =>
              simp only [hrest] at h
              cases h
          | ok trees' =>
              simp only [hrest] at h
              obtain rfl := Except.ok.inj h
              exact .cons hitem (ih hrest)

/-- Entries become members, one each. -/
theorem ofEntries_eq_ok {entries : List (Value × Value)} {members : List (String × Json)}
    (h : ofEntries entries = .ok members) :
    List.Forall₂ (fun entry member => memberName entry.1 = .ok member.1 ∧ ofValue entry.2 = .ok member.2)
      entries members := by
  induction entries generalizing members with
  | nil =>
      rw [ofEntries, Except.ok.injEq] at h
      subst h
      exact .nil
  | cons entry rest ih =>
      obtain ⟨key, value⟩ := entry
      rw [ofEntries] at h
      cases hname : memberName key with
      | error fault =>
          rw [hname] at h
          cases h
      | ok name =>
          rw [hname] at h
          cases hvalue : ofValue value with
          | error fault =>
              simp only [hvalue] at h
              cases h
          | ok tree =>
              simp only [hvalue] at h
              cases hrest : ofEntries rest with
              | error fault =>
                  rw [hrest] at h
                  cases h
              | ok members' =>
                  rw [hrest] at h
                  obtain rfl := Except.ok.inj h
                  exact .cons ⟨hname, hvalue⟩ (ih hrest)

/-- What is true of one side of each pair exactly when it is of the other is true of all or of not all on both
sides. -/
theorem forall₂_iff {α β : Type} {R : α → β → Prop} {P : α → Prop} {Q : β → Prop} {first : List α} {second : List β}
    (h : List.Forall₂ R first second) (hiff : ∀ a ∈ first, ∀ b, R a b → (P a ↔ Q b)) :
    (∀ a ∈ first, P a) ↔ ∀ b ∈ second, Q b := by
  induction h with
  | nil => simp
  | cons hab _ ih =>
      rw [List.forall_mem_cons, List.forall_mem_cons, hiff _ List.mem_cons_self _ hab,
        ih fun a ha => hiff a (List.mem_cons_of_mem _ ha)]

/-- All names of the members are names that the entries become. -/
theorem memberNames_eq_map {entries : List (Value × Value)} {members : List (String × Json)}
    (h : List.Forall₂ (fun entry member => memberName entry.1 = .ok member.1 ∧ ofValue entry.2 = .ok member.2)
      entries members) : Value.memberNames entries = members.map Prod.fst := by
  induction h with
  | nil => rfl
  | cons hmember _ ih =>
      rw [Value.memberNames, List.filterMap_cons_some (by rw [hmember.1]; rfl), List.map_cons]
      exact congrArg _ ih

/-- A tree repeats no name if the value that it is made of has none twice. -/
theorem noRepeats_iff {v : Value} {tree : Json} (h : ofValue v = .ok tree) : tree.NoRepeats ↔ v.NamesDistinct := by
  induction v using Value.inductOn generalizing tree with
  | list items ih =>
      rw [ofValue] at h
      cases hitems : ofItems items with
      | error fault =>
          rw [hitems] at h
          cases h
      | ok trees =>
          rw [hitems] at h
          obtain rfl := Except.ok.inj h
          rw [NoRepeats, Value.NamesDistinct]
          exact (forall₂_iff (ofItems_eq_ok hitems) fun item hitem _ htree => (ih item hitem htree).symm).symm
  | mapping entries ih =>
      rw [ofValue] at h
      cases hentries : ofEntries entries with
      | error fault =>
          rw [hentries] at h
          cases h
      | ok members =>
          rw [hentries] at h
          obtain rfl := Except.ok.inj h
          have hmembers := ofEntries_eq_ok hentries
          rw [NoRepeats, Value.NamesDistinct, memberNames_eq_map hmembers]
          refine and_congr_right fun _ => Iff.symm ?_
          exact forall₂_iff hmembers fun entry hentry _ hmember => ((ih entry hentry).2 hmember.2).symm
  | tagged tag content ih =>
      rw [ofValue] at h
      cases hcontent : ofValue content with
      | error fault =>
          rw [hcontent] at h
          cases h
      | ok tree' =>
          rw [hcontent] at h
          obtain rfl := Except.ok.inj h
          rw [NoRepeats, Value.NamesDistinct, ← ih hcontent]
          simp
  | _ =>
      rw [ofValue, Except.ok.injEq] at h
      subst h
      simp [NoRepeats, Value.NamesDistinct]

end Json

/-! ### Names from normal keys -/

namespace Value

/-- A normal key with a name is the name. -/
theorem eq_string_of_memberName {key : Value} {name : String} (hkey : key.normalKey = key)
    (h : Json.memberName key = .ok name) : key = .string name := by
  cases key with
  | string s => rw [Except.ok.inj h]
  | bool b => cases hkey
  | number n => cases hkey
  | _ => cases h

theorem toOption_eq_some {result : Except Json.Fault String} {name : String} :
    result.toOption = some name ↔ result = .ok name := by
  cases result <;> simp [Except.toOption]

theorem mem_memberNames {entries : List (Value × Value)} {name : String} :
    name ∈ memberNames entries ↔ ∃ entry ∈ entries, Json.memberName entry.1 = .ok name := by
  simp only [memberNames, List.mem_filterMap, toOption_eq_some]

/-- Distinct keys that are normal have distinct names. -/
theorem nodup_memberNames {entries : List (Value × Value)} (h : HasNormalKeys entries)
    (hdistinct : Entries.Distinct same entries) : (memberNames entries).Nodup := by
  refine List.pairwise_filterMap.2 (hdistinct.imp_of_mem ?_)
  rintro first second hfirst hsecond hne name hname name' hname' rfl
  obtain hfirst' := eq_string_of_memberName (h first hfirst) (toOption_eq_some.1 hname)
  obtain hsecond' := eq_string_of_memberName (h second hsecond) (toOption_eq_some.1 hname')
  rw [hfirst', hsecond', (exact_string name).self] at hne
  cases hne

/-- To normalize its keys gives a value different names if no tagged value has one name twice. -/
theorem namesDistinct_normalizeKeys {v : Value} (h : v.TaggedDistinct) : v.normalizeKeys.NamesDistinct := by
  induction v using inductOn with
  | list items ih =>
      rw [TaggedDistinct] at h
      rw [normalizeKeys_list, NamesDistinct, List.forall_mem_map]
      exact fun item hitem => ih item hitem (h item hitem)
  | mapping entries ih =>
      rw [TaggedDistinct] at h
      rw [normalizeKeys_mapping, NamesDistinct]
      refine ⟨nodup_memberNames (hasNormalKeys_normalized entries) (distinct_normalized entries), ?_⟩
      intro entry hentry
      obtain ⟨-, before, hbefore, hvalue⟩ := of_mem_normalized hentry
      exact hvalue ▸ (ih before hbefore).2 (h before hbefore)
  | tagged tag content _ =>
      rw [TaggedDistinct] at h
      rwa [normalizeKeys, NamesDistinct]
      all_goals exact fun _ => Value.noConfusion
  | _ => simp [normalizeKeys, NamesDistinct]

end Value

end Rulebook
