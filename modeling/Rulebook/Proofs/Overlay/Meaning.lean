import Rulebook.Proofs.Overlay.Projection

/-!
# What a strict overlay means

The outcome of a strict overlay, said without running it. For each rule, take the attributes that the
localization gives it, by name and in document order, references left out (`Localization.given`). If there are
none the rule is as it was; else it has the attributes it had, in their order, and after them the new ones in
the order in which they were first given, and every attribute has the value given last, where suggestions, of
the rule or of its mosaique, stand for the keys alone. `Localized` says this of one rule and
`apply_strict_meaning` that an overlay does it for every rule.
-/

namespace Rulebook

namespace Localization

/-- An attribute by name; a reference, or what has no name, is none. -/
def named? (item : Value × Value) : Option (String × Value) :=
  item.1.keyText?.bind fun name => if Attribute.isReferenceName name then none else some (name, item.2)

/-- The attributes that a localization gives a rule, in document order and without references. -/
def given (rule : String) (localization : Localization) : List (String × Value) :=
  (localization.attributesFor rule).filterMap named?

end Localization

namespace Overlay

open Attribute (Texts Reads suggestionsName mosaiqueName isReferenceName)

/-- The value given last for a name. -/
def lastGiven? (name : String) (given : List (String × Value)) : Option Value :=
  (given.filter fun item => item.1 == name).getLast?.map Prod.snd

/-- The names given that the rule has no attribute for, each once, in the order in which they come first. -/
def newNames (given : List (String × Value)) (before : Value) : List String :=
  ((given.map Prod.fst).filter fun name => (before.get? name).isNone).eraseDups

/-- `after` is a mapping of the texts of a list, in their order, to the values of `before`, in theirs. -/
def Rebinds (list before after : Value) : Prop :=
  ∃ keys base, Texts list keys ∧ before.entries? = some base ∧ keys.length = base.length ∧
    after = .mapping ((keys.map Value.string).zip (base.map Prod.snd))

/-- What becomes of one attribute, from the value given last for its name, if there is one, and the value that
the rule had for it, if it had one. -/
inductive Revised (name : String) : Option Value → Option Value → Option Value → Prop where
  /-- What is not given stays. -/
  | kept (before : Option Value) : Revised name none before before
  /-- Suggestions get other keys. -/
  | suggestions {list old new : Value} (hname : name = suggestionsName) (hrebinds : Rebinds list old new) :
      Revised name (some list) (some old) (some new)
  /-- The suggestions of a mosaique get other keys, in their place; its other fields stay. -/
  | mosaique {value list old new : Value} {before after : List (Value × Value)} (hname : name = mosaiqueName)
      (hlist : value.get? suggestionsName = some list) (hrebinds : Rebinds list old new)
      (hreplaced : Entries.Replaced (.string suggestionsName) old new before after) :
      Revised name (some value) (some (.mapping before)) (some (.mapping after))
  /-- Any other attribute has the value that is given. -/
  | plain {value : Value} (before : Option Value) (hsuggestions : name ≠ suggestionsName)
      (hmosaique : name ≠ mosaiqueName) : Revised name (some value) before (some value)

/-- `after` is the rule `before` with the attributes given laid over it. -/
structure Localized (given : List (String × Value)) (before after : Value) : Prop where
  /-- The rule was a mapping, possibly tagged, or null. -/
  holds : before.Holds
  /-- The tags around a mapping stay; null, tagged or not, starts as the empty mapping under no tag. -/
  frame : Value.SameFrame before after
  /-- The keys stay in their order, and the new names follow. -/
  keys : after.fields.map Prod.fst = before.fields.map Prod.fst ++ (newNames given before).map Value.string
  /-- Every attribute has the value that the last one given for its name says. -/
  values : ∀ name, Revised name (lastGiven? name given) (before.get? name) (after.get? name)
  /-- Entries whose key is no string stay. -/
  others : (after.fields.filter fun field => !field.1.isText) = before.fields.filter fun field => !field.1.isText

/-! ### The last of several -/

theorem lastGiven?_cons (name other : String) (value : Value) (given : List (String × Value)) :
    lastGiven? name ((other, value) :: given) =
      (lastGiven? name given).or (if other = name then some value else none) := by
  unfold lastGiven?
  by_cases hname : other = name
  · subst hname
    rw [List.filter_cons, if_pos (beq_self_eq_true other), List.getLast?_cons, if_pos rfl]
    cases (given.filter fun item => item.1 == other).getLast? <;> rfl
  · rw [List.filter_cons, if_neg (by simpa using hname), if_neg hname, Option.or_none]

theorem Rebinds.trans {list list' first second third : Value} (h₁ : Rebinds list first second)
    (h₂ : Rebinds list' second third) : Rebinds list' first third := by
  obtain ⟨keys, base, -, hbase, hlen, rfl⟩ := h₁
  obtain ⟨keys', base', htexts', hbase', hlen', rfl⟩ := h₂
  obtain rfl := Option.some.inj hbase'
  have hvalues : ((keys.map Value.string).zip (base.map Prod.snd)).map Prod.snd = base.map Prod.snd :=
    List.map_snd_zip (by simp [hlen])
  refine ⟨keys', base, htexts', hbase, ?_, by rw [hvalues]⟩
  simpa [hlen] using hlen'

theorem Revised.eq_of_none {name : String} {before after : Option Value} (h : Revised name none before after) :
    after = before := by
  cases h
  rfl

/-- Of two values given for one name the later stands. -/
theorem Revised.trans {name : String} {value value' : Value} {first second third : Option Value}
    (h₁ : Revised name (some value) first second) (h₂ : Revised name (some value') second third) :
    Revised name (some value') first third := by
  cases h₂ with
  | plain _ hsuggestions hmosaique => exact .plain first hsuggestions hmosaique
  | suggestions hname hrebinds =>
      cases h₁ with
      | suggestions _ hrebinds' => exact .suggestions hname (hrebinds'.trans hrebinds)
      | mosaique hname' => exact absurd (hname.symm.trans hname') (by decide)
      | plain _ hsuggestions => exact absurd hname hsuggestions
  | mosaique hname hlist hrebinds hreplaced =>
      cases h₁ with
      | suggestions hname' => exact absurd (hname.symm.trans hname') (by decide)
      | plain _ _ hmosaique => exact absurd hname hmosaique
      | mosaique _ _ hrebinds' hreplaced' =>
          have hexact := Value.exact_string suggestionsName
          obtain ⟨hold', rfl⟩ := (Entries.replaced_iff hexact).1 hreplaced'
          obtain ⟨hold, rfl⟩ := (Entries.replaced_iff hexact).1 hreplaced
          rw [Entries.get?_put_self hexact, Option.some.injEq] at hold
          subst hold
          refine .mosaique hname hlist (hrebinds'.trans hrebinds) ((Entries.replaced_iff hexact).2 ⟨hold', ?_⟩)
          exact Entries.put_put_self hexact _ _ _

/-! ### One attribute -/

/-- One attribute set, its new value being what the old one becomes. -/
theorem localized_setField {name : String} {value new before : Value} (h : before.Holds)
    (hrevised : Revised name (some value) (before.get? name) (some new)) :
    Localized [(name, value)] before (before.setField name new) where
  holds := h
  frame := Value.sameFrame_setField h new
  keys := by
    rw [Value.fields_setField h, Entries.map_fst_put, Value.contains_fields, newNames]
    cases hget : before.get? name <;> simp [hget, List.eraseDups_cons]
  values := fun other => by
    rw [lastGiven?_cons]
    by_cases hname : name = other
    · subst hname
      rw [if_pos rfl, Value.get?_setField_self h]
      exact hrevised
    · rw [if_neg hname, Value.get?_setField_of_ne h hname]
      exact .kept _
  others := by
    rw [Value.fields_setField h]
    exact Entries.filter_put (fun key => !key.isText) (Value.exact_string name) rfl new before.fields

/-- One attribute that fits, merged. -/
theorem localized_applied {rule name : String} {value before : Value} {change : Attribute}
    (hreads : Reads name value change) (hname : isReferenceName name = false)
    (hfits : change.fault? rule before.offer = none) :
    Localized [(name, value)] before (change.applied name before) := by
  cases hreads with
  | reference href =>
      rw [hname] at href
      cases href
  | plain _ hsuggestions hmosaique =>
      exact localized_setField (Value.holds_of_takesAttributes (Attribute.plain_fits_iff.1 hfits))
        (.plain _ hsuggestions hmosaique)
  | @suggestions keys hkey hkeys =>
      subst hkey
      obtain ⟨old, base, hold, hbase, hlen, -⟩ := Attribute.suggestions_fit_iff.1 hfits
      refine localized_setField (Value.holds_of_get? (by rw [hold]; rfl)) ?_
      rw [hold, Option.getD_some, Attribute.revised, Attribute.rebound, Value.fields_of_entries? hbase]
      exact .suggestions rfl ⟨keys, base, hkeys, hbase, hlen, rfl⟩
  | @mosaique list keys hkey hlist hkeys =>
      subst hkey
      obtain ⟨fields, old, base, hm, hold, hbase, hlen⟩ := Attribute.mosaique_fits_iff.1 hfits
      refine localized_setField (Value.holds_of_get? (by rw [hm]; rfl)) ?_
      rw [hm, Option.getD_some, Attribute.revised, hold, Option.getD_some, Attribute.rebound,
        Value.fields_of_entries? hbase]
      refine .mosaique rfl hlist ⟨keys, base, hkeys, hbase, hlen, rfl⟩ ?_
      exact (Entries.replaced_iff (Value.exact_string suggestionsName)).2 ⟨hold, rfl⟩

/-! ### One after the other -/

/-- The names that are new after one attribute was set are those that were new before, without its own. -/
theorem newNames_cons {name : String} {value new before : Value} (h : before.Holds)
    (given : List (String × Value)) :
    newNames ((name, value) :: given) before =
      newNames [(name, value)] before ++ newNames given (before.setField name new) := by
  have hget : ∀ other, ((before.setField name new).get? other).isNone =
      ((before.get? other).isNone && !other == name) := by
    intro other
    by_cases hname : name = other
    · subst hname
      rw [Value.get?_setField_self h, beq_self_eq_true, Bool.not_true, Bool.and_false]
      rfl
    · rw [Value.get?_setField_of_ne h hname, beq_false_of_ne (Ne.symm hname), Bool.not_false, Bool.and_true]
  unfold newNames
  simp only [hget, List.map_cons, List.map_nil]
  -- A new name goes to the front and out of what follows; one that the rule has is in neither.
  cases hnone : (before.get? name).isNone with
  | true =>
      rw [List.filter_cons, if_pos hnone, List.filter_cons, if_pos hnone, List.eraseDups_cons,
        List.eraseDups_cons, List.filter_filter]
      simp only [List.filter_nil, List.eraseDups_nil, List.singleton_append, Bool.and_comm]
  | false =>
      have hkeep : ∀ other, ((before.get? other).isNone && !other == name) = (before.get? other).isNone := by
        intro other
        by_cases hname : other = name
        · rw [hname, hnone, Bool.false_and]
        · rw [beq_false_of_ne hname, Bool.not_false, Bool.and_true]
      simp [hnone, hkeep]

/-- One attribute and then others make all of them. -/
theorem Localized.cons {name : String} {value new before after : Value} {given : List (String × Value)}
    (h : Localized [(name, value)] before (before.setField name new))
    (hrest : Localized given (before.setField name new) after) :
    Localized ((name, value) :: given) before after where
  holds := h.holds
  frame := h.frame.trans hrest.frame (Value.isNull_setField h.holds new)
  keys := by
    rw [hrest.keys, h.keys, newNames_cons h.holds given, List.map_append, List.append_assoc]
  values := fun other => by
    have hfirst := h.values other
    have hsecond := hrest.values other
    rw [lastGiven?_cons] at hfirst ⊢
    -- The value given last is one of the others, or the first if none of them is for this name.
    cases hlast : lastGiven? other given with
    | none =>
        rw [hlast] at hsecond
        rwa [Option.none_or, hsecond.eq_of_none]
    | some last =>
        rw [hlast] at hsecond
        rw [Option.some_or]
        by_cases hname : name = other
        · rw [if_pos hname] at hfirst
          exact hfirst.trans hsecond
        · rw [if_neg hname] at hfirst
          rwa [hfirst.eq_of_none] at hsecond
  others := hrest.others.trans h.others

/-! ### A run -/

theorem classify_of_isReferenceName {rule name : String} {value : Value} (h : isReferenceName name = true) :
    Attribute.classify rule name value = .ok .reference := by
  rw [Attribute.classify, if_pos h]

/-- What a strict run over attributes means. -/
theorem attributes_localized {prune : Bool} {rule : String} {items : List (Value × Value)} {before after : Value}
    {done : Stats} (h : attributes ⟨false, prune⟩ rule items before = .ok (after, done)) :
    (items.filterMap Localization.named? = [] → after = before) ∧
      (items.filterMap Localization.named? ≠ [] →
        Localized (items.filterMap Localization.named?) before after) := by
  induction items generalizing before done with
  | nil =>
      obtain ⟨rfl, -⟩ := Prod.mk.inj (Except.ok.inj h)
      exact ⟨fun _ => rfl, fun hne => absurd rfl hne⟩
  | cons item rest ih =>
      obtain ⟨key, value⟩ := item
      obtain ⟨next, done₁, done₂, hstep, hrest, -⟩ := steps_cons_eq_ok_iff.1 h
      have hmerge : mergeAttribute rule key value before = .ok (next, done₁) := by
        rcases attributeStep_cases hstep with hm | ⟨hlenient, -⟩
        · exact hm
        · cases hlenient
      obtain ⟨name, change, hkey, hc, hfits, rfl, -⟩ := mergeAttribute_eq_ok_iff.1 hmerge
      cases hname : isReferenceName name with
      | true =>
          -- A reference is passed over, by the run and by the list of what is given.
          obtain rfl := Except.ok.inj (hc.symm.trans (classify_of_isReferenceName hname))
          have hnone : Localization.named? (key, value) = none := by simp [Localization.named?, hkey, hname]
          rw [List.filterMap_cons_none hnone]
          exact ih hrest
      | false =>
          have hsome : Localization.named? (key, value) = some (name, value) := by
            simp [Localization.named?, hkey, hname]
          rw [List.filterMap_cons_some hsome]
          refine ⟨fun hnil => absurd hnil (List.cons_ne_nil _ _), fun _ => ?_⟩
          have hreads := Attribute.reads_of_classify hc
          have hfirst := localized_applied hreads hname hfits
          obtain ⟨hempty, hothers⟩ := ih hrest
          by_cases hgiven : rest.filterMap Localization.named? = []
          · rw [hgiven, hempty hgiven]
            exact hfirst
          · rw [Attribute.applied_eq_setField hreads hname] at hfirst hothers
            exact hfirst.cons (hothers hgiven)

/-- **What a strict overlay means.** The rule names stay. A rule that the localization gives no attribute stays
as it is; any other is the base rule with the attributes given laid over it. -/
theorem apply_strict_meaning {localization : Localization} {base rules : RuleSet} {stats : Stats}
    (h : apply .strict localization base = .ok (rules, stats)) :
    rules.names = base.names ∧
      ∀ name before, base.get? name = some before → ∃ after, rules.get? name = some after ∧
        (localization.given name = [] → after = before) ∧
        (localization.given name ≠ [] → Localized (localization.given name) before after) := by
  refine ⟨entries_names h, fun name before hget => ?_⟩
  obtain ⟨after, done, hafter, hrun⟩ := apply_rule h hget
  exact ⟨after, hafter, attributes_localized hrun⟩

/-! ### A worked overlay -/

/-- A rule with suggestions under a tag and a mosaique, and a rule without entry. -/
def sampleBase : RuleSet :=
  ⟨[("salaire", .mapping [(.string "titre", .string "Salaire"), (.string "titre.ref", .string "fr"),
      (.string "suggestions", .tagged "euros" (.mapping [(.string "smic", .string "1500"),
        (.string "cadre", .string "3000")])),
      (.string "mosaique", .mapping [(.string "suggestions", .mapping [(.string "oui", .bool true)]),
        (.string "total", .null)])]),
    ("prime", .null)], by decide⟩

/-- The first rule stands under two spellings of its name, with suggestions in the one and a mosaique in the
other. -/
def sampleLocalization : Localization :=
  ⟨[(.string "salaire", .mapping [(.string "suggestions", .list [.string "minimum", .bool true]),
      (.string "titre.ref", .string "Salaire"), (.string "note", .string "gross")]),
    (.string "prime", .mapping [(.string "titre", .string "Bonus")]),
    (.tagged "en" (.string "salaire"), .mapping [(.string "titre", .string "Salary"),
      (.string "mosaique", .mapping [(.string "suggestions", .list [.string "yes"])])])]⟩

/-- The first laid under the second. -/
def sampleRules : RuleSet :=
  ⟨[("salaire", .mapping [(.string "titre", .string "Salary"), (.string "titre.ref", .string "fr"),
      (.string "suggestions", .mapping [(.string "minimum", .string "1500"), (.string "true", .string "3000")]),
      (.string "mosaique", .mapping [(.string "suggestions", .mapping [(.string "yes", .bool true)]),
        (.string "total", .null)]),
      (.string "note", .string "gross")]),
    ("prime", .mapping [(.string "titre", .string "Bonus")])], by decide⟩

theorem sample_names : isReferenceName "titre.ref" = true ∧ isReferenceName "titre" = false ∧
    isReferenceName "note" = false ∧ isReferenceName "suggestions" = false ∧ isReferenceName "mosaique" = false := by
  decide

theorem apply_sample : apply .strict sampleLocalization sampleBase = .ok (sampleRules, ⟨3, 5, 1, 0, 0⟩) := by
  simp [apply, entries, steps, entryStep, attributes, attributeStep, mergeAttribute, Attribute.classify, sample_names,
    suggestionsName, mosaiqueName, Attribute.readKeys, Attribute.readKeysFrom, Attribute.merge, Attribute.rebind,
    Attribute.setAttribute, Attribute.attributesOf, Value.keyText?, Value.boolText, Value.items?, Value.entries?,
    Value.untag, Value.isNull, Value.get?, Value.same, Value.mapEntries, Value.ofPairs, Entries.ofPairs,
    Entries.get?_cons, Entries.put_cons, RuleSet.get?, RuleSet.insert, Except.map, sampleBase, sampleLocalization,
    sampleRules]
  rfl

theorem apply_strict_meaning_sample :
    apply .strict sampleLocalization sampleBase = .ok (sampleRules, ⟨3, 5, 1, 0, 0⟩) ∧
      Localized (sampleLocalization.given "prime") .null (.mapping [(.string "titre", .string "Bonus")]) := by
  have hrules : sampleRules.get? "prime" = some (.mapping [(.string "titre", .string "Bonus")]) := rfl
  obtain ⟨after, hafter, -, hlocalized⟩ := (apply_strict_meaning apply_sample).2 "prime" .null rfl
  obtain rfl := Option.some.inj (hrules.symm.trans hafter)
  refine ⟨apply_sample, hlocalized ?_⟩
  simp [Localization.given, Localization.attributesFor, Localization.heldFor, Localization.named?,
    sampleLocalization, Value.keyText?, sample_names]

end Overlay

end Rulebook
