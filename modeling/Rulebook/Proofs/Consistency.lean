import Rulebook.Consistency
import Rulebook.Proofs.Overlay.Fitting

/-!
# What a consistent rule set can take

A rule set without problems has mappings wherever its rules have suggestions, so keys of the right number should be
enough to localize them. They are for a rule's own suggestions. For those in a mosaique the check looks through a
tag of the mosaique and the merge does not. This module provides:

* `Consistency.Place` — the two places where a rule has suggestions, and what the check and the merge see there;
* `Consistency.exists_entries` — at both places, what a rule set without problems has is a mapping;
* `Overlay.apply_strict_single` — an overlay of one attribute of one rule is the merge of that attribute; and
* `Consistency.localizable_iff` — keys are laid over suggestions of a rule set without problems exactly when they
  are as many and no mosaique around them is tagged (`Consistency.tagged_mosaique_refused`).
-/

namespace Rulebook

namespace Overlay

/-! ### One attribute of one rule -/

/-- A localization of one attribute of one rule. -/
def single (ruleKey attributeKey value : Value) : Localization :=
  ⟨[(ruleKey, .mapping [(attributeKey, value)])]⟩

theorem attributeStep_strict (rule : String) (item : Value × Value) (target : Value) :
    attributeStep .strict rule item target = mergeAttribute rule item.1 item.2 target := by
  unfold attributeStep
  cases mergeAttribute rule item.1 item.2 target <;> rfl

theorem steps_singleton {α β : Type} (step : α → β → Progress β) (item : α) (state : β) :
    steps step [item] state = step item state := by
  cases hstep : step item state with
  | error error => exact steps_cons_of_error hstep
  | ok progress => exact steps_cons_of_ok hstep

/-- The strict overlay of one attribute merges it into its rule, or fails as the merge does. -/
theorem apply_strict_single {base : RuleSet} {ruleKey attributeKey value rule : Value} {name : String}
    (hkey : ruleKey.keyText? = some name) (hrule : base.get? name = some rule) :
    apply .strict (single ruleKey attributeKey value) base =
      (mergeAttribute name attributeKey value rule).map fun progress =>
        (base.insert name progress.1, progress.2.closeEntry) := by
  rw [apply, single, entries, steps_singleton, entryStep_of_mapping hkey hrule rfl, attributes, steps_singleton,
    attributeStep_strict]

end Overlay

namespace Consistency

open Attribute (Texts suggestionsName mosaiqueName nestedPath classify readKeys readKeys_eq_ok_iff keysFault?
  unlessFault)

/-! ### What the check says of a rule -/

/-- A rule of a rule set without problems has none. -/
theorem ruleProblems_eq_nil {root? : Option String} {base : RuleSet} {name : String} {rule : Value}
    (hbase : problems root? base = []) (hrule : base.get? name = some rule) : ruleProblems name rule = [] := by
  obtain ⟨left, right, hentries, -⟩ := Entries.exists_split_of_get?_eq_some (RuleSet.exact_name name) hrule
  have hall := List.flatMap_eq_nil_iff.1 (List.append_eq_nil_iff.1 hbase).2
  exact hall (name, rule) (by rw [hentries]; exact List.mem_append_right left List.mem_cons_self)

/-- A rule without problems that has attributes at all is a mapping under no tag. -/
theorem exists_attributes {name field : String} {rule value : Value} (h : ruleProblems name rule = [])
    (hget : rule.get? field = some value) : ∃ attributes, rule = .mapping attributes := by
  cases rule with
  | mapping attributes => exact ⟨attributes, rfl⟩
  | list items => cases h
  | tagged tag content => cases h
  | _ => cases hget

theorem exists_entries_of_mappingProblems {name path : String} {value : Value}
    (h : mappingProblems name path value = []) : ∃ entries, value.entries? = some entries := by
  rw [mappingProblems] at h
  split at h
  · next hmapping => exact Option.isSome_iff_exists.1 hmapping
  · cases h

/-! ### The two places of suggestions -/

/-- Where a rule has suggestions. -/
inductive Place where
  /-- Among the attributes of the rule. -/
  | own
  /-- In the rule's mosaique. -/
  | nested

namespace Place

/-- The attribute of a localization that has the keys for this place. -/
def attributeName : Place → String
  | .own => suggestionsName
  | .nested => mosaiqueName

/-- The place as errors name it. -/
def path : Place → String
  | .own => suggestionsName
  | .nested => nestedPath

/-- What a rule has there, as the check finds it. -/
def suggestions? (rule : Value) : Place → Option Value
  | .own => rule.get? suggestionsName
  | .nested => (rule.get? mosaiqueName).bind (·.get? suggestionsName)

/-- The list of keys that the attribute of a localization has for this place. -/
def keyList? (value : Value) : Place → Option Value
  | .own => some value
  | .nested => value.get? suggestionsName

/-- Is the mapping that holds the suggestions one under no tag? Of a rule without problems that is asked for the
mosaique only. -/
def isBare (rule : Value) : Place → Bool
  | .own => true
  | .nested => rule.offer.bareMosaique

/-- Other keys for the suggestions there. -/
def change (keys : List String) : Place → Attribute
  | .own => .suggestions keys
  | .nested => .mosaique keys

end Place

/-- Where a rule set without problems has suggestions, they are a mapping, possibly tagged, in a rule that is a
mapping under no tag. -/
theorem exists_entries {root? : Option String} {base : RuleSet} {name : String} {rule suggestions : Value}
    {place : Place} (hbase : problems root? base = []) (hrule : base.get? name = some rule)
    (hsuggestions : place.suggestions? rule = some suggestions) :
    rule.isBareMapping = true ∧ ∃ entries, suggestions.entries? = some entries := by
  have hproblems := ruleProblems_eq_nil hbase hrule
  cases place with
  | own =>
      obtain ⟨attributes, rfl⟩ := exists_attributes hproblems hsuggestions
      have hown : suggestionsProblems name attributes = [] := (List.append_eq_nil_iff.1 hproblems).1
      have hlookup : Value.lookup? (.string suggestionsName) attributes = some suggestions := hsuggestions
      rw [suggestionsProblems, hlookup] at hown
      exact ⟨rfl, exists_entries_of_mappingProblems hown⟩
  | nested =>
      obtain ⟨mosaique, hmosaique, hget⟩ := Option.bind_eq_some_iff.1 hsuggestions
      obtain ⟨attributes, rfl⟩ := exists_attributes hproblems hmosaique
      have hnested : mosaiqueProblems name attributes = [] := (List.append_eq_nil_iff.1 hproblems).2
      have hlookup : Value.lookup? (.string mosaiqueName) attributes = some mosaique := hmosaique
      obtain ⟨fields, hfields, hinner⟩ := Option.bind_eq_some_iff.1 hget
      simp only [mosaiqueProblems, hlookup, hfields, hinner] at hnested
      exact ⟨rfl, exists_entries_of_mappingProblems hnested⟩

/-! ### What the merge says of a rule -/

theorem classify_place (place : Place) {name : String} {value list : Value} (hlist : place.keyList? value = some list) :
    classify name place.attributeName value = (readKeys name place.path list).map place.change := by
  cases place with
  | own =>
      obtain rfl := Option.some.inj hlist
      rfl
  | nested =>
      have hget : value.get? suggestionsName = some list := hlist
      rw [Place.attributeName, classify, if_neg (by decide), if_neg (by decide), if_pos rfl, hget]
      rfl

/-- Keys for suggestions of a rule without problems fit when they are as many, and the mosaique is bare. -/
theorem fault?_place (place : Place) {name : String} {rule suggestions : Value} {base : List (Value × Value)}
    (hbare : rule.isBareMapping = true) (hsuggestions : place.suggestions? rule = some suggestions)
    (hbase : suggestions.entries? = some base) (keys : List String) :
    (place.change keys).fault? name rule.offer =
      keysFault? name place.path keys (some base.length)
        (if place.isBare rule then none else some (.missingSuggestions name place.path)) := by
  cases place with
  | own =>
      obtain ⟨attributes, rfl⟩ := Value.isBareMapping_iff.1 hbare
      have hcount : (Value.mapping attributes).offer.suggestions = some base.length := by
        have hget : (Value.mapping attributes).get? suggestionsName = some suggestions := hsuggestions
        rw [Value.offer, hget, Option.bind_some, hbase]
        rfl
      rw [Place.change, Attribute.fault?, hcount]
      rfl
  | nested =>
      have hcount : rule.offer.nested = some base.length := by
        have hget : (rule.get? mosaiqueName).bind (·.get? suggestionsName) = some suggestions := hsuggestions
        rw [Value.offer, hget, Option.bind_some, hbase]
        rfl
      rw [Place.change, Attribute.fault?, hcount]
      rfl

theorem stats_change (place : Place) (keys : List String) : (place.change keys).stats = .applied := by
  cases place <;> rfl

/-- What an attribute with keys for a place does to a rule that has suggestions there. -/
theorem mergeAttribute_place {place : Place} (name : String) {rule suggestions : Value} {base : List (Value × Value)}
    (hbare : rule.isBareMapping = true) (hsuggestions : place.suggestions? rule = some suggestions)
    (hbase : suggestions.entries? = some base) {attributeKey value list : Value} {keys : List String}
    (hattribute : attributeKey.keyText? = some place.attributeName) (hlist : place.keyList? value = some list)
    (hkeys : Texts list keys) :
    Overlay.mergeAttribute name attributeKey value rule =
      unlessFault
        (keysFault? name place.path keys (some base.length)
          (if place.isBare rule then none else some (.missingSuggestions name place.path)))
        ((place.change keys).applied place.attributeName rule, .applied) := by
  have hclassify : classify name place.attributeName value = .ok (place.change keys) := by
    rw [classify_place place hlist, readKeys_eq_ok_iff.2 hkeys]
    rfl
  rw [Overlay.mergeAttribute_of_classify hattribute hclassify, fault?_place place hbare hsuggestions hbase,
    stats_change]

/-- What is merged for a place was read as keys. -/
theorem texts_of_mergeAttribute {place : Place} {name : String} {rule merged attributeKey value list : Value}
    {done : Overlay.Stats} (hattribute : attributeKey.keyText? = some place.attributeName)
    (hlist : place.keyList? value = some list)
    (h : Overlay.mergeAttribute name attributeKey value rule = .ok (merged, done)) : ∃ keys, Texts list keys := by
  obtain ⟨read, change, hread, hclassify, -⟩ := Overlay.mergeAttribute_eq_ok_iff.1 h
  obtain rfl := Option.some.inj (hattribute.symm.trans hread)
  rw [classify_place place hlist] at hclassify
  cases hkeys : readKeys name place.path list with
  | error error =>
      rw [hkeys] at hclassify
      cases hclassify
  | ok keys => exact ⟨keys, readKeys_eq_ok_iff.1 hkeys⟩

/-! ### Keys for a consistent rule set -/

/-- The list consists of scalars with different texts, as many as the mapping has entries. -/
def Fits (list : Value) (entries : List (Value × Value)) : Prop :=
  ∃ keys, Texts list keys ∧ keys.length = entries.length

/-- In a rule set without problems, the suggestions at either place are a mapping. A strict overlay with a list for
them succeeds exactly when the list fits and the mosaique, where it is one, is not tagged. A list that fits is refused
for the tag alone. -/
theorem localizable_iff {root? : Option String} {base : RuleSet} {name : String} {rule suggestions : Value}
    {place : Place} (hbase : problems root? base = []) (hrule : base.get? name = some rule)
    (hsuggestions : place.suggestions? rule = some suggestions) {ruleKey attributeKey value list : Value}
    (hname : ruleKey.keyText? = some name) (hattribute : attributeKey.keyText? = some place.attributeName)
    (hlist : place.keyList? value = some list) :
    ∃ entries, suggestions.entries? = some entries ∧
      ((∃ rules, Overlay.apply .strict (Overlay.single ruleKey attributeKey value) base =
            .ok (rules, ⟨1, 1, 0, 0, 0⟩)) ↔ Fits list entries ∧ place.isBare rule = true) ∧
        (Fits list entries → place.isBare rule = false →
          Overlay.apply .strict (Overlay.single ruleKey attributeKey value) base =
            .error (.missingSuggestions name place.path)) := by
  obtain ⟨hbare, entries, hentries⟩ := exists_entries hbase hrule hsuggestions
  refine ⟨entries, hentries, ?_⟩
  rw [Overlay.apply_strict_single hname hrule]
  -- With keys that were read, all is said by the fault: their number first, and then the tag.
  have hmerge := fun keys (hkeys : Texts list keys) =>
    mergeAttribute_place name hbare hsuggestions hentries hattribute hlist hkeys
  refine ⟨⟨?_, ?_⟩, ?_⟩
  · rintro ⟨rules, happly⟩
    cases hm : Overlay.mergeAttribute name attributeKey value rule with
    | error error =>
        rw [hm] at happly
        cases happly
    | ok progress =>
        obtain ⟨merged, done⟩ := progress
        obtain ⟨keys, hkeys⟩ := texts_of_mergeAttribute hattribute hlist hm
        rw [hmerge keys hkeys] at hm
        by_cases hlength : keys.length = entries.length
        · refine ⟨⟨keys, hkeys, hlength⟩, ?_⟩
          by_contra htagged
          simp [keysFault?, hlength, htagged, unlessFault] at hm
        · simp [keysFault?, hlength, unlessFault] at hm
  · rintro ⟨⟨keys, hkeys, hlength⟩, hfree⟩
    refine ⟨base.insert name ((place.change keys).applied place.attributeName rule), ?_⟩
    simp only [hmerge keys hkeys, keysFault?, hlength, hfree, if_true, unlessFault]
    rfl
  · rintro ⟨keys, hkeys, hlength⟩ htagged
    simp only [hmerge keys hkeys, keysFault?, hlength, htagged, if_true, Bool.false_eq_true, if_false, unlessFault]
    rfl

/-- Suggestions under a tag, a mosaique, and a mosaique under a tag. -/
def sampleBase : RuleSet :=
  ⟨[("salaire", .mapping [(.string "suggestions", .tagged "euros" (.mapping [(.string "smic", .string "1500"),
      (.string "cadre", .string "3000")]))]),
    ("prime", .mapping [(.string "mosaique", .mapping [(.string "suggestions", .mapping [(.string "oui", .null)])])]),
    ("bonus", .mapping [(.string "mosaique",
      .tagged "choix" (.mapping [(.string "suggestions", .mapping [(.string "oui", .null)])]))])], by decide⟩

theorem localizable_iff_sample :
    (∃ rules, Overlay.apply .strict (Overlay.single (.string "salaire") (.string "suggestions")
        (.list [.string "minimum", .bool true])) sampleBase = .ok (rules, ⟨1, 1, 0, 0, 0⟩)) ∧
      (∃ rules, Overlay.apply .strict (Overlay.single (.string "prime") (.string "mosaique")
        (.mapping [(.string "suggestions", .list [.string "yes"])])) sampleBase = .ok (rules, ⟨1, 1, 0, 0, 0⟩)) ∧
      Overlay.apply .strict (Overlay.single (.string "bonus") (.string "mosaique")
        (.mapping [(.string "suggestions", .list [.string "yes"])])) sampleBase =
          .error (.missingSuggestions "bonus" "mosaique.suggestions") := by
  have hbase : problems (some "salaire") sampleBase = [] := rfl
  have htwo : Texts (.list [.string "minimum", .bool true]) ["minimum", "true"] := ⟨_, rfl, rfl, by decide⟩
  have hone : Texts (.list [.string "yes"]) ["yes"] := ⟨_, rfl, rfl, by decide⟩
  obtain ⟨salaire, hsalaire, hown, -⟩ := @localizable_iff _ _ "salaire" _ _ .own hbase rfl rfl (.string "salaire")
    (.string "suggestions") (.list [.string "minimum", .bool true]) _ rfl rfl rfl
  obtain ⟨prime, hprime, hnested, -⟩ := @localizable_iff _ _ "prime" _ _ .nested hbase rfl rfl (.string "prime")
    (.string "mosaique") (.mapping [(.string "suggestions", .list [.string "yes"])]) _ rfl rfl rfl
  obtain ⟨bonus, hbonus, -, htagged⟩ := @localizable_iff _ _ "bonus" _ _ .nested hbase rfl rfl (.string "bonus")
    (.string "mosaique") (.mapping [(.string "suggestions", .list [.string "yes"])]) _ rfl rfl rfl
  obtain rfl := Option.some.inj hsalaire
  obtain rfl := Option.some.inj hprime
  obtain rfl := Option.some.inj hbonus
  exact ⟨hown.2 ⟨⟨_, htwo, rfl⟩, rfl⟩, hnested.2 ⟨⟨_, hone, rfl⟩, rfl⟩, htagged ⟨_, hone, rfl⟩ rfl⟩

/-- The check finds no problem, there is one key for the one suggestion, and the overlay fails all the same. -/
theorem tagged_mosaique_refused :
    problems (some "salaire") sampleBase = [] ∧
      (∃ rule suggestions, sampleBase.get? "bonus" = some rule ∧
        Place.suggestions? rule .nested = some suggestions ∧
          suggestions.entries? = some [(.string "oui", .null)]) ∧
        Texts (.list [.string "yes"]) ["yes"] ∧
          Overlay.apply .strict (Overlay.single (.string "bonus") (.string "mosaique")
            (.mapping [(.string "suggestions", .list [.string "yes"])])) sampleBase =
              .error (.missingSuggestions "bonus" "mosaique.suggestions") :=
  ⟨rfl, ⟨_, _, rfl, rfl, rfl⟩, ⟨_, rfl, rfl, by decide⟩, rfl⟩

end Consistency

end Rulebook
