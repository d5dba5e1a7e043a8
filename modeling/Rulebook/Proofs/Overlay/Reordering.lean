import Mathlib.Data.List.Basic
import Rulebook.Proofs.Fields.Order
import Rulebook.Proofs.Outcome
import Rulebook.Proofs.Overlay.Counting
import Rulebook.Proofs.Overlay.Idempotence

/-!
# The order of a localization

The order of a localization's entries does not matter, as long as no two of them are for one rule, and the order of the
attributes in an entry shows in no more than the order of the attributes that are new to the rule. That is so however
strictly the localization is applied, and for localizations that fail too, though which fault is found first may change.

What an overlay counts, and whether it succeeds, does not depend on any order, since no step changes what the others ask
of a rule (`entries_counts?_eq`). What it makes of a rule is a run over the attributes of one entry, and such a run sets
fields whose values can be read off the rule as it was at the start (`makeAll_settle_eq`).
-/

namespace Rulebook

namespace Localization

/-- No two items have one name. Items without a name may be several. -/
def NamesApart (items : List (Value × Value)) : Prop :=
  (items.filterMap fun item => item.1.keyText?).Nodup

instance (items : List (Value × Value)) : Decidable (NamesApart items) :=
  inferInstanceAs (Decidable (List.Nodup _))

/-- The same entry with its attributes in another order. -/
structure SameAttributes (entry other : Value × Value) : Prop where
  key : other.1 = entry.1
  /-- The values are mappings below the same tags, or one value that is none. -/
  frame : other.2 = entry.2.mapEntries fun _ => other.2.fields
  attributes : entry.2.fields.Perm other.2.fields

/-- The same entries in another order, each with its attributes in another order. -/
def Reordered (localization other : Localization) : Prop :=
  ∃ middle : List (Value × Value),
    localization.entries.Perm middle ∧ List.Forall₂ SameAttributes middle other.entries

variable {items others : List (Value × Value)} {item : Value × Value}

theorem NamesApart.perm (h : NamesApart items) (hperm : items.Perm others) : NamesApart others :=
  (hperm.filterMap _).nodup_iff.1 h

theorem NamesApart.tail (h : NamesApart (item :: items)) : NamesApart items :=
  h.sublist ((List.sublist_cons_self item items).filterMap _)

theorem NamesApart.head (h : NamesApart (item :: items)) {other : Value × Value} (hother : other ∈ items)
    {name : String} (hname : item.1.keyText? = some name) : other.1.keyText? ≠ some name := by
  intro heq
  have hnames : (item :: items).filterMap (fun item => item.1.keyText?) =
      name :: items.filterMap fun item => item.1.keyText? := List.filterMap_cons_some hname
  unfold NamesApart at h
  rw [hnames, List.nodup_cons] at h
  exact h.1 (List.mem_filterMap.2 ⟨other, hother, heq⟩)

/-! ### The attributes for one rule -/

/-- Of two entries that are not for one rule, one at least holds nothing for it. -/
theorem heldFor_apart {first second : Value × Value}
    (h : ∀ name, first.1.keyText? = some name → second.1.keyText? ≠ some name) (rule : String) :
    heldFor rule first = [] ∨ heldFor rule second = [] := by
  by_cases hfirst : first.1.keyText? = some rule
  · exact .inr (heldFor_of_key_ne (h rule hfirst))
  · exact .inl (heldFor_of_key_ne hfirst)

/-- So what the entries hold for a rule does not depend on their order. -/
theorem flatMap_heldFor_perm (hperm : items.Perm others) (hapart : NamesApart items) (rule : String) :
    items.flatMap (heldFor rule) = others.flatMap (heldFor rule) := by
  induction hperm with
  | nil => rfl
  | cons entry _ ih => rw [List.flatMap_cons, List.flatMap_cons, ih hapart.tail]
  | swap first second rest =>
      simp only [List.flatMap_cons]
      rcases heldFor_apart (fun name => hapart.head List.mem_cons_self) rule with hnone | hnone <;> simp [hnone]
  | trans h₁ _ ih₁ ih₂ => exact (ih₁ hapart).trans (ih₂ (hapart.perm h₁))

/-- They are the attributes of one entry, if there are any. -/
theorem flatMap_heldFor_cases (hapart : NamesApart items) (rule : String) :
    items.flatMap (heldFor rule) = [] ∨
      ∃ entry ∈ items, entry.2 = .mapping (items.flatMap (heldFor rule)) := by
  induction items with
  | nil => exact .inl rfl
  | cons entry rest ih =>
      rw [List.flatMap_cons]
      by_cases hnone : heldFor rule entry = []
      · rw [hnone, List.nil_append]
        exact (ih hapart.tail).imp id fun ⟨other, hother, hvalue⟩ => ⟨other, List.mem_cons_of_mem _ hother, hvalue⟩
      · -- The entry holds attributes for the rule, so the others hold none.
        have hrest : rest.flatMap (heldFor rule) = [] := by
          rw [List.flatMap_eq_nil_iff]
          intro other hother
          exact (heldFor_apart (fun name => hapart.head hother) rule).resolve_left hnone
        rw [hrest, List.append_nil]
        obtain ⟨key, value⟩ := entry
        cases value with
        | mapping attributes =>
            refine .inr ⟨_, List.mem_cons_self, ?_⟩
            by_cases hkey : key.keyText? = some rule
            · rw [heldFor_of_mapping hkey rfl]
            · exact absurd (heldFor_of_key_ne hkey) hnone
        | _ => exact absurd rfl hnone

/-- With the attributes in another order an entry is of the same kind. -/
theorem SameAttributes.cases {entry other : Value × Value} (h : SameAttributes entry other) :
    (∃ attributes attributes', entry.2 = .mapping attributes ∧ other.2 = .mapping attributes' ∧
        attributes.Perm attributes') ∨
      (entry.2 = .null ∧ other.2 = .null) ∨ (Overlay.Malformed entry.2 ∧ Overlay.Malformed other.2) := by
  have hframe := h.frame
  have hattributes := h.attributes
  rcases Overlay.value_cases entry.2 with ⟨attributes, hvalue⟩ | hnull | hmalformed
  · rw [hvalue] at hframe hattributes
    exact .inl ⟨attributes, other.2.fields, hvalue, hframe, hattributes⟩
  · rw [hnull] at hframe
    exact .inr (.inl ⟨hnull, hframe⟩)
  · refine .inr (.inr ⟨hmalformed, ?_⟩)
    rw [hframe]
    exact hmalformed.mapEntries _

theorem SameAttributes.heldFor_perm {entry other : Value × Value} (h : SameAttributes entry other) (rule : String) :
    (heldFor rule entry).Perm (heldFor rule other) := by
  rcases h.cases with ⟨attributes, attributes', hvalue, hvalue', hperm⟩ | ⟨hvalue, hvalue'⟩ | ⟨hvalue, hvalue'⟩
  · by_cases hkey : entry.1.keyText? = some rule
    · rw [heldFor_of_mapping hkey hvalue, heldFor_of_mapping (h.key ▸ hkey) hvalue']
      exact hperm
    · rw [heldFor_of_key_ne hkey, heldFor_of_key_ne (h.key ▸ hkey)]
  · rw [heldFor_of_not_mapping (by simp [hvalue]), heldFor_of_not_mapping (by simp [hvalue'])]
  · rw [heldFor_of_not_mapping hvalue.1, heldFor_of_not_mapping hvalue'.1]

theorem flatMap_heldFor_sameAttributes (h : List.Forall₂ SameAttributes items others) (rule : String) :
    (items.flatMap (heldFor rule)).Perm (others.flatMap (heldFor rule)) := by
  induction h with
  | nil => exact .nil
  | cons hentry _ ih =>
      rw [List.flatMap_cons, List.flatMap_cons]
      exact (hentry.heldFor_perm rule).append ih

end Localization

namespace Overlay

open Attribute (isReferenceName)
open Rulebook.Localization (NamesApart SameAttributes Reordered)

variable {options : Options} {rule : String} {items others : List (Value × Value)}

/-! ### What is counted -/

theorem attributes_counts?_eq (options : Options) (rule : String) (items : List (Value × Value)) (target : Value) :
    counts? (attributes options rule items target) =
      Stats.sum? (items.map fun item => counts? (attributeStep options rule item target)) :=
  counts?_steps attributeStep_agree attributeStep_offer items target

theorem entries_counts?_eq (options : Options) (items : List (Value × Value)) (rules : RuleSet) :
    counts? (entries options items rules) =
      Stats.sum? (items.map fun item => counts? (entryStep options item rules)) :=
  counts?_steps entryStep_agree entryStep_sameOffers items rules

theorem attributes_counts?_perm (h : items.Perm others) (target : Value) :
    counts? (attributes options rule items target) = counts? (attributes options rule others target) := by
  rw [attributes_counts?_eq, attributes_counts?_eq]
  exact Stats.sum?_perm (h.map _)

theorem entries_counts?_perm (h : items.Perm others) (rules : RuleSet) :
    counts? (entries options items rules) = counts? (entries options others rules) := by
  rw [entries_counts?_eq, entries_counts?_eq]
  exact Stats.sum?_perm (h.map _)

/-- An entry counts the same with its attributes in another order. -/
theorem entryStep_counts?_sameAttributes {entry other : Value × Value} (h : SameAttributes entry other)
    (rules : RuleSet) : counts? (entryStep options entry rules) = counts? (entryStep options other rules) := by
  have hsame : other.1.keyText? = entry.1.keyText? := by rw [h.key]
  cases hkey : entry.1.keyText? with
  | none => rw [entryStep_of_nameless hkey, entryStep_of_nameless (hsame.trans hkey), h.key]
  | some rule =>
      have hkey' : other.1.keyText? = some rule := hsame.trans hkey
      cases hrule : rules.get? rule with
      | none => rw [entryStep_of_unknown hkey hrule, entryStep_of_unknown hkey' hrule]
      | some target =>
          rcases h.cases with ⟨attributes, attributes', hvalue, hvalue', hperm⟩ | ⟨hvalue, hvalue'⟩ | ⟨hvalue, hvalue'⟩
          · rw [entryStep_of_mapping hkey hrule hvalue, entryStep_of_mapping hkey' hrule hvalue',
              counts?_map (rules.insert rule) Stats.closeEntry, counts?_map (rules.insert rule) Stats.closeEntry,
              attributes_counts?_perm hperm]
          · rw [entryStep_of_null hkey hrule hvalue, entryStep_of_null hkey' hrule hvalue']
          · rw [entryStep_of_malformed hkey hrule hvalue, entryStep_of_malformed hkey' hrule hvalue']

theorem entries_counts?_sameAttributes (h : List.Forall₂ SameAttributes items others) (rules : RuleSet) :
    counts? (entries options items rules) = counts? (entries options others rules) := by
  rw [entries_counts?_eq, entries_counts?_eq]
  congr 1
  induction h with
  | nil => rfl
  | cons hentry _ ih => rw [List.map_cons, List.map_cons, entryStep_counts?_sameAttributes hentry, ih]

/-- Merges that count the same end in the same way, with states that are compared if both succeed. -/
theorem sameEnd_of_counts? {β : Type} {R : β → β → Prop} {first second : Progress β}
    (h : counts? first = counts? second)
    (hstate : ∀ {state state' done}, first = .ok (state, done) → second = .ok (state', done) → R state state') :
    SameEnd (fun a b => R a.1 b.1 ∧ a.2 = b.2) first second := by
  cases first with
  | error error =>
      cases second with
      | error error' => exact .error error error'
      | ok progress => cases h
  | ok progress =>
      cases second with
      | error error => cases h
      | ok progress' =>
          obtain ⟨state, done⟩ := progress
          obtain ⟨state', done'⟩ := progress'
          obtain rfl : done = done' := Option.some.inj h
          exact .ok ⟨hstate rfl rfl, rfl⟩

/-! ### What is made of a rule -/

/-- The attribute that an item sets, and the value that it gives it, if it sets one. -/
def setting? (rule : String) (target : Value) (item : Value × Value) : Option (String × Value) :=
  item.1.keyText?.bind fun name =>
    match Attribute.classify rule name item.2 with
    | .error _ => none
    | .ok change =>
      if !isReferenceName name && (change.fault? rule target.offer).isNone then
        some (name, change.revised ((target.get? name).getD .null))
      else none

theorem setting?_eq_some_iff {target : Value} {item : Value × Value} {name : String} {value : Value} :
    setting? rule target item = some (name, value) ↔
      ∃ change, Sets rule item target.offer name change ∧ value = change.revised ((target.get? name).getD .null) := by
  constructor
  · intro h
    obtain ⟨name', hkey, h⟩ := Option.bind_eq_some_iff.1 h
    cases hread : Attribute.classify rule name' item.2 with
    | error error =>
        rw [hread] at h
        cases h
    | ok change =>
        simp only [hread, Option.ite_none_right_eq_some, Bool.and_eq_true, Bool.not_eq_true',
          Option.isNone_iff_eq_none, Option.some.injEq, Prod.mk.injEq] at h
        obtain ⟨⟨hreference, hfits⟩, rfl, hvalue⟩ := h
        exact ⟨change, ⟨hkey, hread, hreference, hfits⟩, hvalue.symm⟩
  · rintro ⟨change, ⟨hkey, hread, hreference, hfits⟩, rfl⟩
    simp [setting?, hkey, hread, hreference, hfits]

theorem setting?_name {target : Value} {item : Value × Value} {setting : String × Value}
    (h : setting? rule target item = some setting) : item.1.keyText? = some setting.1 := by
  obtain ⟨name, value⟩ := setting
  obtain ⟨change, hsets, -⟩ := setting?_eq_some_iff.1 h
  exact hsets.named

/-- An item sets its attribute, or nothing. -/
theorem settle_eq_setFields (rule : String) (item : Value × Value) (target : Value) :
    settle rule item target = target.setFields (setting? rule target item).toList := by
  cases hsetting : setting? rule target item with
  | some setting =>
      obtain ⟨name, value⟩ := setting
      obtain ⟨change, hsets, rfl⟩ := setting?_eq_some_iff.1 hsetting
      exact hsets.settle_eq
  | none =>
      rcases sets_or_inert rule item target.offer with ⟨name, change, hsets⟩ | hinert
      · rw [setting?_eq_some_iff.2 ⟨change, hsets, rfl⟩] at hsetting
        cases hsetting
      · exact hinert target rfl

/-- What an item sets is not changed by an item of another name. -/
theorem setting?_settle {item other : Value × Value} (target : Value)
    (hapart : ∀ name, item.1.keyText? = some name → other.1.keyText? ≠ some name) :
    setting? rule (settle rule item target) other = setting? rule target other := by
  unfold setting?
  rw [settle_offer]
  cases hother : other.1.keyText? with
  | none => rfl
  | some name =>
      have hget : (settle rule item target).get? name = target.get? name := by
        rcases sets_or_inert rule item target.offer with ⟨name', change, hsets⟩ | hinert
        · rw [hsets.settle_eq]
          refine Value.get?_setField_of_ne hsets.holds (fun heq => ?_) _
          exact hapart name' hsets.named (heq ▸ hother)
        · rw [hinert target rfl]
      rw [Option.bind_some, Option.bind_some, hget]

/-- Items of different names set what each of them would set in the rule as it was. -/
theorem makeAll_settle_eq (hapart : NamesApart items) (target : Value) :
    makeAll (settle rule) items target = target.setFields (items.filterMap (setting? rule target)) := by
  induction items generalizing target with
  | nil => rfl
  | cons item rest ih =>
      -- What the others set is read off the rule as it was before the first item.
      have hrest : rest.filterMap (setting? rule (settle rule item target)) = rest.filterMap (setting? rule target) :=
        List.filterMap_congr fun other hother => setting?_settle target fun name => hapart.head hother
      have hfirst : (item :: rest).filterMap (setting? rule target) =
          (setting? rule target item).toList ++ rest.filterMap (setting? rule target) := by
        cases hsetting : setting? rule target item with
        | none => exact List.filterMap_cons_none hsetting
        | some setting => exact List.filterMap_cons_some hsetting
      calc makeAll (settle rule) (item :: rest) target
          = makeAll (settle rule) rest (settle rule item target) := rfl
        _ = (settle rule item target).setFields (rest.filterMap (setting? rule target)) := by
            rw [ih hapart.tail, hrest]
        _ = target.setFields ((item :: rest).filterMap (setting? rule target)) := by
            rw [hfirst, Value.setFields_append, settle_eq_setFields]

/-- The attributes set have different names, if the items have. -/
theorem nodup_settings (hapart : NamesApart items) (target : Value) :
    ((items.filterMap (setting? rule target)).map Prod.fst).Nodup := by
  induction items with
  | nil => exact .nil
  | cons item rest ih =>
      cases hsetting : setting? rule target item with
      | none =>
          rw [List.filterMap_cons_none hsetting]
          exact ih hapart.tail
      | some setting =>
          rw [List.filterMap_cons_some hsetting, List.map_cons, List.nodup_cons]
          refine ⟨fun hmem => ?_, ih hapart.tail⟩
          obtain ⟨setting', hsetting', hname⟩ := List.mem_map.1 hmem
          obtain ⟨other, hother, hset⟩ := List.mem_filterMap.1 hsetting'
          exact hapart.head hother (setting?_name hsetting) (hname ▸ setting?_name hset)

/-- A rule in which anything is set holds attributes. -/
theorem holds_of_settings {target : Value} (h : items.filterMap (setting? rule target) ≠ []) : target.Holds := by
  obtain ⟨⟨name, value⟩, hsetting⟩ := List.exists_mem_of_ne_nil _ h
  obtain ⟨item, -, hitem⟩ := List.mem_filterMap.1 hsetting
  obtain ⟨change, hsets, -⟩ := setting?_eq_some_iff.1 hitem
  exact hsets.holds

/-- Runs over the same attributes in two orders leave rules that differ in the order of the new attributes. -/
theorem attributes_upToNew {target merged merged' : Value} {done done' : Stats}
    (h : attributes options rule items target = .ok (merged, done))
    (h' : attributes options rule others target = .ok (merged', done')) (hperm : items.Perm others)
    (hapart : NamesApart items) : Value.UpToNew target merged merged' := by
  rw [attributes_eq_makeAll h, attributes_eq_makeAll h', makeAll_settle_eq hapart,
    makeAll_settle_eq (hapart.perm hperm)]
  exact Value.upToNew_setFields holds_of_settings (nodup_settings hapart target) (hperm.filterMap _)

/-! ### Overlays -/

/-- Rules that came of `base` in two ways, and are the same but for the order of the attributes that are new. -/
def RulesUpToNew (base first second : RuleSet) : Prop :=
  first.names = base.names ∧ second.names = base.names ∧
    ∀ name before, base.get? name = some before →
      ∃ after after', first.get? name = some after ∧ second.get? name = some after' ∧
        Value.UpToNew before after after'

theorem apply_perm {localization other : Localization} {base rules rules' : RuleSet} {stats stats' : Stats}
    (h : apply options localization base = .ok (rules, stats)) (h' : apply options other base = .ok (rules', stats'))
    (hperm : localization.entries.Perm other.entries) (hapart : NamesApart localization.entries) : rules = rules' := by
  refine RuleSet.ext_get? ((entries_names h).trans (entries_names h').symm) fun name => ?_
  cases hbase : base.get? name with
  | none =>
      have hunknown : name ∉ base.names := (base.get?_eq_none_iff name).1 hbase
      rw [(rules.get?_eq_none_iff name).2 (entries_names h ▸ hunknown),
        (rules'.get?_eq_none_iff name).2 (entries_names h' ▸ hunknown)]
  | some before =>
      obtain ⟨after, done, hafter, hrun⟩ := apply_rule h hbase
      obtain ⟨after', done', hafter', hrun'⟩ := apply_rule h' hbase
      have hsame : localization.attributesFor name = other.attributesFor name :=
        Localization.flatMap_heldFor_perm hperm hapart name
      rw [hsame, hrun'] at hrun
      obtain ⟨rfl, -⟩ := Prod.mk.inj (Except.ok.inj hrun)
      rw [hafter, hafter']

theorem apply_upToNew {localization other : Localization} {base rules rules' : RuleSet} {stats stats' : Stats}
    (h : apply options localization base = .ok (rules, stats)) (h' : apply options other base = .ok (rules', stats'))
    (hreordered : Reordered localization other) (hapart : NamesApart localization.entries)
    (hattributes : ∀ entry ∈ localization.entries, ∀ attributes, entry.2 = .mapping attributes →
      NamesApart attributes) :
    RulesUpToNew base rules rules' := by
  refine ⟨entries_names h, entries_names h', fun name before hbase => ?_⟩
  obtain ⟨after, done, hafter, hrun⟩ := apply_rule h hbase
  obtain ⟨after', done', hafter', hrun'⟩ := apply_rule h' hbase
  obtain ⟨middle, hperm, hentries⟩ := hreordered
  -- With the entries in another order the rule is given the same attributes, and then in another order themselves.
  have hheld : (localization.attributesFor name).Perm (other.attributesFor name) := by
    have hsame : localization.attributesFor name = middle.flatMap (Localization.heldFor name) :=
      Localization.flatMap_heldFor_perm hperm hapart name
    rw [hsame]
    exact Localization.flatMap_heldFor_sameAttributes hentries name
  have hnames : NamesApart (localization.attributesFor name) := by
    rcases Localization.flatMap_heldFor_cases hapart name with hnone | ⟨entry, hentry, hvalue⟩
    · rw [Localization.attributesFor, hnone]
      exact .nil
    · exact hattributes entry hentry _ hvalue
  exact ⟨after, after', hafter, hafter', attributes_upToNew hrun hrun' hheld hnames⟩

/-- **The order of a localization does not matter.** Take any base, any options, and a localization in which no two
entries are for one rule. With its entries in another order, both overlays fail or both succeed, and then they give the
same rules and count the same. If in each entry no two attributes have one name, then the attributes too may be in
another order: again both overlays fail or both succeed, and then they count the same, and the rules are the same up to
the order of the attributes that are new to a rule. -/
theorem apply_reordered (options : Options) (base : RuleSet) {localization other : Localization}
    (hapart : NamesApart localization.entries) :
    (localization.entries.Perm other.entries →
      SameEnd (fun first second => first.1 = second.1 ∧ first.2 = second.2) (apply options localization base)
        (apply options other base)) ∧
      ((∀ entry ∈ localization.entries, ∀ attributes, entry.2 = .mapping attributes → NamesApart attributes) →
        Reordered localization other →
          SameEnd (fun first second => RulesUpToNew base first.1 second.1 ∧ first.2 = second.2)
            (apply options localization base) (apply options other base)) := by
  constructor
  · intro hperm
    refine sameEnd_of_counts? (entries_counts?_perm hperm base) fun h h' => ?_
    exact apply_perm h h' hperm hapart
  · intro hattributes hreordered
    have hcounts : counts? (apply options localization base) = counts? (apply options other base) := by
      obtain ⟨middle, hperm, hentries⟩ := hreordered
      exact (entries_counts?_perm hperm base).trans (entries_counts?_sameAttributes hentries base)
    exact sameEnd_of_counts? hcounts fun h h' => apply_upToNew h h' hreordered hapart hattributes

/-- Two rules, one with two attributes that are new to it. -/
def sampleForward : Localization :=
  ⟨[(.string "salaire", .mapping [(.string "note", .string "gross"), (.string "unité", .string "€")]),
    (.string "prime", .mapping [(.string "titre", .string "Bonus")])]⟩

/-- The same, backward. -/
def sampleBackward : Localization :=
  ⟨[(.string "prime", .mapping [(.string "titre", .string "Bonus")]),
    (.string "salaire", .mapping [(.string "unité", .string "€"), (.string "note", .string "gross")])]⟩

theorem reordered_sample : Reordered sampleForward sampleBackward := by
  refine ⟨_, .swap _ _ _, .cons ⟨rfl, rfl, .refl _⟩ (.cons ⟨rfl, rfl, ?_⟩ .nil)⟩
  exact .swap _ _ _

theorem apply_reordered_sample :
    NamesApart sampleForward.entries ∧ Reordered sampleForward sampleBackward ∧
      ∃ rules rules', apply .strict sampleForward sampleBase = .ok (rules, ⟨2, 3, 0, 0, 0⟩) ∧
        apply .strict sampleBackward sampleBase = .ok (rules', ⟨2, 3, 0, 0, 0⟩) ∧
          RulesUpToNew sampleBase rules rules' := by
  have hapart : NamesApart sampleForward.entries := by decide
  have hattributes : ∀ entry ∈ sampleForward.entries, ∀ attributes, entry.2 = .mapping attributes →
      NamesApart attributes := by
    intro entry hentry attributes hvalue
    rcases List.mem_pair.1 hentry with rfl | rfl
    · cases hvalue
      decide
    · cases hvalue
      decide
  have hend := (apply_reordered .strict sampleBase hapart).2 hattributes reordered_sample
  refine ⟨hapart, reordered_sample, _, _, rfl, rfl, ?_⟩
  cases hend with
  | ok h => exact h.1

end Overlay

end Rulebook
