import Rulebook.Proofs.NormalKeys
import Rulebook.Proofs.RuleSet

/-!
# The normal form of rules that were read

To read a document makes its keys normal, but only where mappings and lists lead to: what stands under a tag is left as
it is, and so is a key that is no scalar, with all that is in it. This module provides:

* `Value.Normal` — every mapping in a value has normal keys, and its two parts, `Value.NormalInReach` for the mappings
  that reading gets to and `Value.NormalBeyond` for all others;
* `RuleSet.ofValue_normalForm` — what reading gets to is normal, so that it is the rest which decides whether the rules
  are, and to read them again changes nothing; and
* `RuleSet.not_normal_tagged` — a key that stays a number.
-/

namespace Rulebook

namespace Value

/-- Every mapping in the value has normal keys: at every depth, below tags, and inside keys. -/
def Normal : Value → Prop
  | .list items => ∀ item ∈ items, item.Normal
  | .mapping entries => HasNormalKeys entries ∧ ∀ entry ∈ entries, entry.1.Normal ∧ entry.2.Normal
  | .tagged _ content => content.Normal
  | _ => True
termination_by v => sizeOf v
decreasing_by
  · exact Nat.lt_of_lt_of_le (List.sizeOf_lt_of_mem ‹_›) (by simp)
  · exact Nat.lt_of_lt_of_le (sizeOf_lt_of_mem_entries ‹_›).1 (by simp)
  · exact Nat.lt_of_lt_of_le (sizeOf_lt_of_mem_entries ‹_›).2 (by simp)
  · rw [tagged.sizeOf_spec]
    omega

/-- Every mapping has normal keys to which mappings lead by their values and lists by their items. -/
def NormalInReach : Value → Prop
  | .list items => ∀ item ∈ items, item.NormalInReach
  | .mapping entries => HasNormalKeys entries ∧ ∀ entry ∈ entries, entry.2.NormalInReach
  | _ => True
termination_by v => sizeOf v
decreasing_by
  · exact Nat.lt_of_lt_of_le (List.sizeOf_lt_of_mem ‹_›) (by simp)
  · exact Nat.lt_of_lt_of_le (sizeOf_lt_of_mem_entries ‹_›).2 (by simp)

/-- Every mapping has normal keys that stands, below those, under a tag or inside a key. A scalar key counts as its
text. -/
def NormalBeyond : Value → Prop
  | .list items => ∀ item ∈ items, item.NormalBeyond
  | .mapping entries => ∀ entry ∈ entries, entry.1.normalKey.Normal ∧ entry.2.NormalBeyond
  | .tagged _ content => content.Normal
  | _ => True
termination_by v => sizeOf v
decreasing_by
  · exact Nat.lt_of_lt_of_le (List.sizeOf_lt_of_mem ‹_›) (by simp)
  · exact Nat.lt_of_lt_of_le (sizeOf_lt_of_mem_entries ‹_›).2 (by simp)

/-- The mappings in a value are those in reach and those beyond. -/
theorem normal_iff (v : Value) : v.Normal ↔ v.NormalInReach ∧ v.NormalBeyond := by
  induction v using inductOn with
  | list items ih =>
      rw [Normal, NormalInReach, NormalBeyond, ← forall₂_and]
      exact forall₂_congr ih
  | mapping entries ih =>
      rw [Normal, NormalInReach, NormalBeyond, and_assoc]
      refine and_congr_right fun hkeys => ?_
      rw [← forall₂_and]
      refine forall₂_congr fun entry hentry => ?_
      rw [(ih entry hentry).2, hkeys entry hentry]
      tauto
  | tagged tag content _ => simp [Normal, NormalInReach, NormalBeyond]
  | _ => simp [Normal, NormalInReach, NormalBeyond]

/-- Normalization makes normal what it gets to. -/
theorem normalInReach_normalizeKeys (v : Value) : v.normalizeKeys.NormalInReach := by
  induction v using inductOn with
  | list items ih =>
      rw [normalizeKeys_list, NormalInReach, List.forall_mem_map]
      exact ih
  | mapping entries ih =>
      rw [normalizeKeys_mapping, NormalInReach]
      refine ⟨hasNormalKeys_normalized entries, fun entry hentry => ?_⟩
      obtain ⟨-, before, hbefore, hvalue⟩ := of_mem_normalized hentry
      rw [hvalue]
      exact (ih before hbefore).2
  | _ => simp [normalizeKeys, NormalInReach]

/-- Normalization adds nothing to what it leaves as it is. -/
theorem NormalBeyond.normalizeKeys {v : Value} (h : v.NormalBeyond) : v.normalizeKeys.NormalBeyond := by
  induction v using inductOn with
  | list items ih =>
      rw [NormalBeyond] at h
      rw [normalizeKeys_list, NormalBeyond, List.forall_mem_map]
      exact fun item hitem => ih item hitem (h item hitem)
  | mapping entries ih =>
      rw [NormalBeyond] at h
      rw [normalizeKeys_mapping, NormalBeyond]
      intro entry hentry
      obtain ⟨⟨before, hbefore, hkey⟩, before', hbefore', hvalue⟩ := of_mem_normalized hentry
      rw [hkey, hvalue, normalKey_normalKey]
      exact ⟨(h before hbefore).1, (ih before' hbefore').2 (h before' hbefore').2⟩
  | _ => exact h

end Value

namespace RuleSet

variable {document : Value} {rules : RuleSet}

/-- Every rule is an entry of the document with normal keys. -/
theorem exists_of_mem_ofValue (h : ofValue document = .ok rules) {rule : String × Value}
    (hrule : rule ∈ rules.entries) :
    ∃ entries, document = .mapping entries ∧ ∃ before ∈ entries, rule.2 = before.2.normalizeKeys := by
  cases document with
  | null =>
      obtain rfl := Except.ok.inj h
      cases hrule
  | mapping entries =>
      rw [ofValue, map_eq_ok_iff] at h
      obtain ⟨named, hnamed, rfl⟩ := h
      rw [insertAll_entries] at hrule
      obtain ⟨-, hvalue⟩ := Entries.of_mem_ofPairs hrule
      obtain ⟨given, hgiven, hvalue⟩ := List.mem_map.1 hvalue
      have hsome : some given ∈ entries.map ruleOf? :=
        nameEntries_eq_ok_iff.1 hnamed ▸ List.mem_map_of_mem hgiven
      obtain ⟨before, hbefore, hrule'⟩ := List.mem_map.1 hsome
      exact ⟨entries, rfl, before, hbefore, hvalue ▸ (ruleOf?_eq_some_iff.1 hrule').2⟩
  | _ => cases h

theorem hasNormalKeys_toValue (rules : RuleSet) :
    Value.HasNormalKeys (rules.entries.map fun rule => (.string rule.1, rule.2)) :=
  List.forall_mem_map.2 fun _ _ => rfl

theorem normalInReach_toValue (h : ofValue document = .ok rules) : rules.toValue.NormalInReach := by
  rw [toValue, Value.NormalInReach, List.forall_mem_map]
  refine ⟨hasNormalKeys_toValue rules, fun rule hrule => ?_⟩
  obtain ⟨-, -, before, -, hvalue⟩ := exists_of_mem_ofValue h hrule
  rw [hvalue]
  exact Value.normalInReach_normalizeKeys before.2

theorem normalBeyond_toValue (h : ofValue document = .ok rules) (hbeyond : document.NormalBeyond) :
    rules.toValue.NormalBeyond := by
  rw [toValue, Value.NormalBeyond, List.forall_mem_map]
  intro rule hrule
  obtain ⟨entries, rfl, before, hbefore, hvalue⟩ := exists_of_mem_ofValue h hrule
  rw [Value.NormalBeyond] at hbeyond
  refine ⟨by simp [Value.normalKey, Value.keyText?, Value.Normal], ?_⟩
  rw [hvalue]
  exact (hbeyond before hbefore).2.normalizeKeys

/-- Rules with normal keys are read as they are. -/
theorem ofValue_toValue (hnormal : ∀ rule ∈ rules.entries, rule.2.normalizeKeys = rule.2) :
    ofValue rules.toValue = .ok rules := by
  have hnamed : nameEntries (rules.entries.map fun rule => (.string rule.1, rule.2)) = .ok rules.entries := by
    rw [nameEntries_eq_ok_iff, List.map_map]
    refine List.map_congr_left fun rule hrule => ruleOf?_eq_some_iff.2 ⟨rfl, ?_⟩
    exact (hnormal rule hrule).symm
  rw [toValue, ofValue, hnamed]
  exact congrArg Except.ok (insertAll_empty_entries rules)

/-- **The normal form of rules.** Of the rules that a document gives, every mapping has normal keys that mappings and
lists lead to. So all their mappings have normal keys exactly when those do that stand under tags or inside keys, as
they do if the ones in the document do. And the rules, read as a document, give the same rules in the same order. -/
theorem ofValue_normalForm (h : ofValue document = .ok rules) :
    rules.toValue.NormalInReach ∧ (rules.toValue.Normal ↔ rules.toValue.NormalBeyond) ∧
      (document.NormalBeyond → rules.toValue.Normal) ∧ ofValue rules.toValue = .ok rules := by
  have hreach := normalInReach_toValue h
  have hiff : rules.toValue.Normal ↔ rules.toValue.NormalBeyond :=
    (Value.normal_iff rules.toValue).trans (and_iff_right hreach)
  refine ⟨hreach, hiff, fun hbeyond => hiff.2 (normalBeyond_toValue h hbeyond), ofValue_toValue fun rule hrule => ?_⟩
  obtain ⟨-, -, before, -, hvalue⟩ := exists_of_mem_ofValue h hrule
  rw [hvalue, Value.normalizeKeys_normalizeKeys]

/-! ### Keys that are no strings -/

/-- Keys of all kinds in mappings, in a list and in names, and a tagged value with a key that is a string. -/
def mixedDocument : Value :=
  .mapping [(.number (.integer 1), .null),
    (.string "1", .mapping [(.bool true, .string "x"), (.string "true", .string "y"), (.null, .null),
      (.string "b", .list [.mapping [(.tagged "k" (.number (.integer 2)), .null)]]),
      (.string "c", .tagged "t" (.mapping [(.string "d", .null)]))])]

/-- What it gives. -/
def mixedRules : RuleSet :=
  ⟨[("1", .mapping [(.string "true", .string "y"), (.null, .null),
    (.string "b", .list [.mapping [(.string "2", .null)]]),
    (.string "c", .tagged "t" (.mapping [(.string "d", .null)]))])], by decide⟩

theorem ofValue_normalForm_mixed :
    ofValue mixedDocument = .ok mixedRules ∧ mixedDocument.NormalBeyond ∧ mixedRules.toValue.Normal ∧
      ofValue mixedRules.toValue = .ok mixedRules := by
  have hread : ofValue mixedDocument = .ok mixedRules := rfl
  have hbeyond : mixedDocument.NormalBeyond := by
    simp [mixedDocument, Value.NormalBeyond, Value.Normal, Value.HasNormalKeys, Value.normalKey, Value.keyText?]
  obtain ⟨-, -, hnormal, hagain⟩ := ofValue_normalForm hread
  exact ⟨hread, hbeyond, hnormal hbeyond, hagain⟩

/-- The number 1 as a key below a tag. -/
def taggedNumber : Value :=
  .tagged "t" (.mapping [(.number (.integer 1), .string "a")])

/-- It stays a number. -/
theorem not_normal_tagged :
    ofValue (.mapping [(.string "r", taggedNumber)]) = .ok ⟨[("r", taggedNumber)], by decide⟩ ∧
      ¬ (⟨[("r", taggedNumber)], by decide⟩ : RuleSet).toValue.Normal := by
  refine ⟨rfl, ?_⟩
  simp [toValue, taggedNumber, Value.Normal, Value.HasNormalKeys, Value.normalKey, Value.keyText?]

end RuleSet

end Rulebook
