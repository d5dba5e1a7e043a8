import Mathlib.Data.List.Nodup
import Rulebook.Json
import Rulebook.Proofs.NormalKeys
import Rulebook.Proofs.Overlay.Meaning

/-!
# Laying a document over its own rules

A document that is read as rules and then laid over them as a localization, with nothing left of it but its plain
attributes, changes nothing but how keys are spelled: the rules have normal keys at every depth, and the values that
the overlay copies have the keys of the document. This module provides:

* `GivesRules` and `plainPart` — the documents in question, and what is left of one;
* `apply_plainPart_succeeds` — the overlay fits;
* `Echoes` — what it leaves of one rule (`echoes_of_attributes`); and
* `apply_plainPart` — with its keys made normal the outcome is the rules again, and it is the rules as they were exactly
  when the values that are copied have normal keys already.
-/

namespace Rulebook

namespace Localization

open Attribute (IsPlainName)

/-- An attribute by name, if it is a plain one. -/
def plain? (item : Value × Value) : Option (String × Value) :=
  item.1.keyText?.bind fun name => if IsPlainName name then some (name, item.2) else none

/-- An entry of a document with its plain attributes only. -/
def plainEntry (entry : Value × Value) : Value × Value :=
  (entry.1, entry.2.mapEntries fun items => items.filter fun item => (plain? item).isSome)

/-- A document with the plain attributes of its rules only. -/
def plainPart (document : List (Value × Value)) : Localization :=
  ⟨document.map plainEntry⟩

theorem plain?_eq_some_iff {item : Value × Value} {given : String × Value} :
    plain? item = some given ↔ item.1.keyText? = some given.1 ∧ IsPlainName given.1 ∧ item.2 = given.2 := by
  obtain ⟨name, value⟩ := given
  simp only [plain?, Option.bind_eq_some_iff, Option.ite_none_right_eq_some, Option.some.injEq, Prod.mk.injEq]
  constructor
  · rintro ⟨name', hkey, hplain, rfl, hvalue⟩
    exact ⟨hkey, hplain, hvalue⟩
  · rintro ⟨hkey, hplain, hvalue⟩
    exact ⟨name, hkey, hplain, rfl, hvalue⟩

/-- No plain attribute is a reference. -/
theorem filterMap_named?_plain (items : List (Value × Value)) :
    (items.filter fun item => (plain? item).isSome).filterMap named? = items.filterMap plain? := by
  have hnamed : ∀ item, (if (plain? item).isSome then named? item else none) = plain? item := by
    intro item
    cases hitem : plain? item with
    | none => rfl
    | some given =>
        obtain ⟨hkey, ⟨hreference, -⟩, hvalue⟩ := plain?_eq_some_iff.1 hitem
        simp [named?, hkey, hreference, hvalue]
  rw [List.filterMap_filter, funext hnamed]

end Localization

namespace Overlay

open Attribute (IsPlainName suggestionsName mosaiqueName)
open Rulebook.Localization (plain? plainEntry plainPart heldFor)

/-- The rules of the document have names, no two with one text, and are mappings under no tag of attributes that have
names. -/
structure GivesRules (document : List (Value × Value)) : Prop where
  named : ∀ entry ∈ document, entry.1.keyText?.isSome = true
  distinct : (document.map fun entry => entry.1.keyText?).Nodup
  attributes : ∀ entry ∈ document, ∃ items, entry.2 = .mapping items ∧ ∀ item ∈ items, item.1.keyText?.isSome = true

/-- The value of the plain attribute of a name, the last one if the name comes several times. -/
def lastPlain? (name : String) (items : List (Value × Value)) : Option Value :=
  lastGiven? name (items.filterMap plain?)

/-! ### The overlay fits -/

section Succeeds

variable {items : List (Value × Value)}

/-- Plain attributes fit every rule that takes attributes. -/
theorem attributes_plain_succeed (options : Options) (rule : String)
    (hitems : ∀ item ∈ items, (plain? item).isSome = true) {target : Value}
    (htarget : target.offer.takesAttributes = true) :
    ∃ merged done, attributes options rule items target = .ok (merged, done) := by
  refine steps_succeed (P := fun state : Value => state.offer.takesAttributes = true) ?_ htarget
  intro item hitem state hstate
  obtain ⟨⟨name, value⟩, hplain⟩ := Option.isSome_iff_exists.1 (hitems item hitem)
  obtain ⟨hkey, hname, -⟩ := Localization.plain?_eq_some_iff.1 hplain
  have hmerge : mergeAttribute rule item.1 item.2 state =
      .ok ((Attribute.plain item.2).applied name state, Attribute.stats (.plain item.2)) :=
    mergeAttribute_eq_ok_iff.2 ⟨name, _, hkey, hname.classify rule item.2, Attribute.plain_fits_iff.2 hstate, rfl, rfl⟩
  refine ⟨_, _, by rw [attributeStep, hmerge], ?_⟩
  rw [← mergeAttribute_offer hmerge]
  exact hstate

/-- Entries with plain attributes fit rules that take them. -/
theorem entries_plain_succeed (options : Options) {base : RuleSet}
    (hitems : ∀ entry ∈ items, ∃ rule target localized, entry.1.keyText? = some rule ∧ base.get? rule = some target ∧
      target.offer.takesAttributes = true ∧ entry.2 = .mapping localized ∧
      ∀ item ∈ localized, (plain? item).isSome = true) :
    ∃ rules stats, entries options items base = .ok (rules, stats) := by
  refine steps_succeed (P := SameOffers base) ?_ (SameOffers.refl base)
  intro entry hentry state hstate
  obtain ⟨rule, target, localized, hkey, hrule, htakes, hvalue, hplain⟩ := hitems entry hentry
  obtain ⟨target', hrule', hoffer⟩ := hstate.get?_eq_some hrule
  have htakes' : target'.offer.takesAttributes = true := by rw [← hoffer, htakes]
  obtain ⟨merged, done, hmerged⟩ := attributes_plain_succeed options rule hplain htakes'
  have hstep : entryStep options entry state = .ok (state.insert rule merged, done.closeEntry) :=
    entryStep_eq_ok_iff.2 (.merged hkey hrule' hvalue hmerged)
  exact ⟨_, _, hstep, hstate.trans (entryStep_sameOffers hstep)⟩

end Succeeds

/-! ### The last of several -/

section Last

variable {name : String} {items : List (Value × Value)}

theorem lastGiven?_concat (name other : String) (value : Value) (given : List (String × Value)) :
    lastGiven? name (given ++ [(other, value)]) = if other = name then some value else lastGiven? name given := by
  unfold lastGiven?
  rw [List.filter_append]
  by_cases hname : other = name <;> simp [hname]

theorem mem_of_lastGiven? {given : List (String × Value)} {value : Value} (h : lastGiven? name given = some value) :
    (name, value) ∈ given := by
  obtain ⟨item, hitem, rfl⟩ := Option.map_eq_some_iff.1 h
  obtain ⟨hmem, hname⟩ := List.mem_filter.1 (List.mem_of_getLast? hitem)
  exact eq_of_beq hname ▸ hmem

theorem isSome_lastGiven? {given : List (String × Value)} (h : name ∈ given.map Prod.fst) :
    (lastGiven? name given).isSome = true := by
  obtain ⟨item, hitem, hname⟩ := List.mem_map.1 h
  have hne : given.filter (fun item => item.1 == name) ≠ [] :=
    List.ne_nil_of_mem (List.mem_filter.2 ⟨hitem, beq_iff_eq.2 hname⟩)
  rw [lastGiven?, Option.isSome_map, List.getLast?_eq_some_getLast hne]
  rfl

theorem isPlainName_of_lastPlain? {value : Value} (h : lastPlain? name items = some value) : IsPlainName name := by
  obtain ⟨item, -, hplain⟩ := List.mem_filterMap.1 (mem_of_lastGiven? h)
  exact (Localization.plain?_eq_some_iff.1 hplain).2.1

/-- The value that the rules have for a plain attribute is the last one given, with normal keys. -/
theorem get?_of_lastPlain? (hitems : ∀ item ∈ items, item.1.keyText?.isSome = true) {value : Value}
    (h : lastPlain? name items = some value) :
    (Value.mapping items).normalizeKeys.get? name = some value.normalizeKeys := by
  have hname := isPlainName_of_lastPlain? h
  induction items using List.reverseRecOn with
  | nil => cases h
  | append_singleton items item ih =>
      obtain ⟨other, hkey⟩ := Option.isSome_iff_exists.1 (hitems item (by simp))
      rw [Value.get?_normalizeKeys_concat hkey]
      rw [lastPlain?, List.filterMap_append] at h
      by_cases hother : other = name
      · subst hother
        have hplain : plain? item = some (other, item.2) :=
          Localization.plain?_eq_some_iff.2 ⟨hkey, hname, rfl⟩
        rw [List.filterMap_cons_some hplain, List.filterMap_nil, lastGiven?_concat, if_pos rfl,
          Option.some.injEq] at h
        rw [if_pos rfl, h]
      · rw [if_neg hother]
        refine ih (fun item hitem => hitems item (by simp [hitem])) ?_
        -- The last item is for another name, or for none.
        cases hplain : plain? item with
        | none => rwa [List.filterMap_cons_none hplain, List.filterMap_nil, List.append_nil] at h
        | some given =>
            have hgiven : given.1 = other :=
              Option.some.inj ((Localization.plain?_eq_some_iff.1 hplain).1.symm.trans hkey)
            rwa [List.filterMap_cons_some hplain, List.filterMap_nil, lastGiven?_concat,
              if_neg (hgiven ▸ hother)] at h

end Last

/-! ### One rule -/

/-- What the overlay leaves of a rule: its keys in their order, with the plain attributes as the document has them. -/
structure Echoes (items : List (Value × Value)) (after : Value) : Prop where
  keys : ∃ fields, after = .mapping fields ∧ fields.map Prod.fst = (Value.normalized items).map Prod.fst
  values : ∀ name, after.get? name = (lastPlain? name items).or ((Value.mapping items).normalizeKeys.get? name)

section Echoes

variable {items : List (Value × Value)} {after : Value}

theorem Revised.eq_of_isPlainName {name : String} {value : Value} {before after : Option Value}
    (h : Revised name (some value) before after) (hname : IsPlainName name) : after = some value := by
  cases h with
  | suggestions heq => exact absurd heq hname.2.1
  | mosaique heq => exact absurd heq hname.2.2
  | plain => rfl

/-- A run over the plain attributes of a rule echoes them. -/
theorem echoes_of_attributes (hitems : ∀ item ∈ items, item.1.keyText?.isSome = true) {rule : String} {done : Stats}
    (h : attributes .strict rule (items.filter fun item => (plain? item).isSome)
      (Value.mapping items).normalizeKeys = .ok (after, done)) : Echoes items after := by
  have hmeaning := attributes_localized h
  rw [Localization.filterMap_named?_plain] at hmeaning
  obtain ⟨hnothing, hlocalized⟩ := hmeaning
  by_cases hgiven : items.filterMap plain? = []
  · rw [hnothing hgiven]
    refine ⟨⟨_, Value.normalizeKeys_mapping items, rfl⟩, fun name => ?_⟩
    rw [lastPlain?, hgiven]
    rfl
  · have hrule := hlocalized hgiven
    -- Every attribute that is given is one that the rule has.
    have hnew : newNames (items.filterMap plain?) (Value.mapping items).normalizeKeys = [] := by
      have hhas : ∀ name ∈ (items.filterMap plain?).map Prod.fst,
          ¬ ((Value.mapping items).normalizeKeys.get? name).isNone = true := by
        intro name hname
        obtain ⟨value, hvalue⟩ := Option.isSome_iff_exists.1 (isSome_lastGiven? hname)
        rw [get?_of_lastPlain? hitems hvalue]
        exact Bool.false_ne_true
      rw [newNames, List.filter_eq_nil_iff.2 hhas]
      rfl
    have hframe := hrule.frame
    have hkeys := hrule.keys
    rw [Value.normalizeKeys_mapping] at hframe hkeys
    rw [← Value.normalizeKeys_mapping, hnew, List.map_nil, List.append_nil] at hkeys
    refine ⟨⟨after.fields, hframe, by rw [hkeys, Value.normalizeKeys_mapping]; rfl⟩, fun name => ?_⟩
    have hvalues := hrule.values name
    rw [lastPlain?]
    cases hlast : lastGiven? name (items.filterMap plain?) with
    | none =>
        rw [hlast] at hvalues
        exact hvalues.eq_of_none
    | some value =>
        rw [hlast] at hvalues
        exact hvalues.eq_of_isPlainName (isPlainName_of_lastPlain? hlast)

/-- With normal keys, what is left of a rule is the rule. -/
theorem Echoes.normalizeKeys_eq (h : Echoes items after)
    (hitems : ∀ item ∈ items, item.1.keyText?.isSome = true) :
    after.normalizeKeys = (Value.mapping items).normalizeKeys := by
  obtain ⟨fields, rfl, hkeys⟩ := h.keys
  have hfields : Value.normalized fields = fields.map fun field => (field.1, field.2.normalizeKeys) :=
    Value.normalized_of_hasNormalKeys
      ((Value.hasNormalKeys_congr hkeys).2 (Value.hasNormalKeys_normalized items))
      ((Entries.distinct_congr hkeys).2 (Value.distinct_normalized items))
  rw [Value.normalizeKeys_mapping, hfields]
  refine Value.eq_normalizeKeys_of_get? hitems ?_ fun name => ?_
  · rw [List.map_map]
    exact hkeys
  · have hget : (Value.mapping (fields.map fun field => (field.1, field.2.normalizeKeys))).get? name =
        ((Value.mapping fields).get? name).map Value.normalizeKeys := Entries.get?_map_snd _ _ _
    rw [hget, h.values name]
    cases hlast : lastPlain? name items with
    | some value => rw [Option.some_or, Option.map_some, get?_of_lastPlain? hitems hlast]
    | none =>
        rw [Option.none_or]
        cases hfound : (Value.mapping items).normalizeKeys.get? name with
        | none => rfl
        | some found => rw [Option.map_some, Value.normalizeKeys_of_get? hfound]

/-- What is left of a rule is the rule exactly when the attributes that are given have normal keys. -/
theorem Echoes.eq_iff (h : Echoes items after) (hitems : ∀ item ∈ items, item.1.keyText?.isSome = true) :
    after = (Value.mapping items).normalizeKeys ↔
      ∀ name value, lastPlain? name items = some value → value.normalizeKeys = value := by
  obtain ⟨fields, rfl, hkeys⟩ := h.keys
  constructor
  · intro heq name value hlast
    have hget := h.values name
    rw [heq, hlast, Option.some_or, get?_of_lastPlain? hitems hlast, Option.some.injEq] at hget
    exact hget
  · intro hnormal
    refine Value.eq_normalizeKeys_of_get? hitems hkeys fun name => ?_
    rw [h.values name]
    cases hlast : lastPlain? name items with
    | some value => rw [Option.some_or, get?_of_lastPlain? hitems hlast, hnormal name value hlast]
    | none => rw [Option.none_or]

end Echoes

/-! ### The document -/

section Document

variable {document : List (Value × Value)} {entry : Value × Value} {items : List (Value × Value)} {name : String}

/-- The document gives a rule set, each entry the rule of its name. -/
theorem GivesRules.reads (h : GivesRules document) :
    ∃ base : RuleSet, RuleSet.ofValue (.mapping document) = .ok base ∧
      document.map RuleSet.ruleOf? = base.entries.map some := by
  have hnamed : ∀ entry ∈ document, entry.1.keyText? = some (entry.1.keyText?.getD "") := by
    intro entry hentry
    obtain ⟨name, hname⟩ := Option.isSome_iff_exists.1 (h.named entry hentry)
    rw [hname, Option.getD_some]
  let named : List (String × Value) := document.map fun entry => (entry.1.keyText?.getD "", entry.2.normalizeKeys)
  have hrules : document.map RuleSet.ruleOf? = named.map some := by
    rw [List.map_map]
    exact List.map_congr_left fun entry hentry => RuleSet.ruleOf?_eq_some_iff.2 ⟨hnamed entry hentry, rfl⟩
  have hdistinct : (named.map Prod.fst).Nodup := by
    refine List.Nodup.of_map some ?_
    rw [List.map_map, List.map_map]
    have hkeys := List.map_congr_left hnamed
    exact hkeys ▸ h.distinct
  refine ⟨RuleSet.empty.insertAll named, ?_, by rw [RuleSet.insertAll_empty hdistinct, hrules]⟩
  rw [RuleSet.ofValue, RuleSet.nameEntries_eq_ok_iff.2 hrules]
  rfl

/-- What a rule set has for the name of an entry. -/
theorem get?_of_reads {base : RuleSet} (h : document.map RuleSet.ruleOf? = base.entries.map some)
    (hentry : entry ∈ document) (hname : entry.1.keyText? = some name) :
    base.get? name = some entry.2.normalizeKeys := by
  have hrule : some (name, entry.2.normalizeKeys) ∈ base.entries.map some :=
    h ▸ List.mem_map.2 ⟨entry, hentry, RuleSet.ruleOf?_eq_some_iff.2 ⟨hname, rfl⟩⟩
  obtain ⟨rule, hmem, heq⟩ := List.mem_map.1 hrule
  exact Entries.get?_of_mem (RuleSet.exact_name name) base.distinct (Option.some.inj heq ▸ hmem)

/-- Every rule is that of an entry. -/
theorem exists_entry_of_reads {base : RuleSet} (h : document.map RuleSet.ruleOf? = base.entries.map some)
    (hname : name ∈ base.names) : ∃ entry ∈ document, entry.1.keyText? = some name := by
  obtain ⟨rule, hrule, rfl⟩ := List.mem_map.1 hname
  have hsome : some rule ∈ document.map RuleSet.ruleOf? := h ▸ List.mem_map_of_mem hrule
  obtain ⟨entry, hentry, hgives⟩ := List.mem_map.1 hsome
  exact ⟨entry, hentry, (RuleSet.ruleOf?_eq_some_iff.1 hgives).1⟩

/-- The attributes that are left for a rule are the plain ones of its entry. -/
theorem attributesFor_plainPart (h : GivesRules document) (hentry : entry ∈ document)
    (hname : entry.1.keyText? = some name) (hitems : entry.2 = .mapping items) :
    (plainPart document).attributesFor name = items.filter fun item => (plain? item).isSome := by
  obtain ⟨left, right, rfl⟩ := List.mem_iff_append.1 hentry
  have hothers : ∀ other : Value × Value, other ∈ left ∨ other ∈ right → heldFor name (plainEntry other) = [] := by
    intro other hother
    refine Localization.heldFor_of_key_ne fun heq => ?_
    have hdistinct := h.distinct
    rw [List.map_append, List.map_cons, List.nodup_append, List.nodup_cons, hname] at hdistinct
    obtain ⟨-, ⟨hright, -⟩, hleft⟩ := hdistinct
    rcases hother with hother | hother
    · exact hleft _ (List.mem_map.2 ⟨other, hother, heq⟩) _ List.mem_cons_self rfl
    · exact hright (List.mem_map.2 ⟨other, hother, heq⟩)
  have hheld : heldFor name (plainEntry entry) = items.filter fun item => (plain? item).isSome :=
    Localization.heldFor_of_mapping hname (by rw [plainEntry, hitems]; rfl)
  rw [Localization.attributesFor, plainPart, List.flatMap_map, List.flatMap_append, List.flatMap_cons, hheld,
    List.flatMap_eq_nil_iff.2 fun other hother => hothers other (.inl hother),
    List.flatMap_eq_nil_iff.2 fun other hother => hothers other (.inr hother), List.nil_append, List.append_nil]

/-- The plain part of a document fits the rules of the document. -/
theorem apply_plainPart_succeeds (h : GivesRules document) {base : RuleSet}
    (hreads : document.map RuleSet.ruleOf? = base.entries.map some) (options : Options) :
    ∃ rules stats, apply options (plainPart document) base = .ok (rules, stats) := by
  refine entries_plain_succeed options fun given hgiven => ?_
  obtain ⟨entry, hentry, rfl⟩ := List.mem_map.1 hgiven
  obtain ⟨name, hname⟩ := Option.isSome_iff_exists.1 (h.named entry hentry)
  obtain ⟨items, hitems, -⟩ := h.attributes entry hentry
  refine ⟨name, _, _, hname, get?_of_reads hreads hentry hname, ?_, by rw [plainEntry, hitems]; rfl, ?_⟩
  · rw [hitems, Value.normalizeKeys_mapping]
    rfl
  · exact fun item hitem => (List.mem_filter.1 hitem).2

/-- What is left of each rule echoes its attributes. -/
theorem echoes_of_apply (h : GivesRules document) {base rules : RuleSet} {stats : Stats}
    (hreads : document.map RuleSet.ruleOf? = base.entries.map some)
    (happly : apply .strict (plainPart document) base = .ok (rules, stats)) (hentry : entry ∈ document)
    (hname : entry.1.keyText? = some name) (hitems : entry.2 = .mapping items)
    (hnamed : ∀ item ∈ items, item.1.keyText?.isSome = true) :
    ∃ after, rules.get? name = some after ∧ Echoes items after := by
  obtain ⟨after, done, hafter, hrun⟩ := apply_rule happly (hitems ▸ get?_of_reads hreads hentry hname)
  rw [attributesFor_plainPart h hentry hname hitems] at hrun
  exact ⟨after, hafter, echoes_of_attributes hnamed hrun⟩

/-- **Own attributes change no rule.** The plain attributes of a document, laid over the rules of the document, fit.
The rules and their order stay, and with normal keys each rule is what it was; the outcome is the rules as they were
exactly when every value that is given has normal keys. -/
theorem apply_plainPart (h : GivesRules document) :
    ∃ base rules stats, RuleSet.ofValue (.mapping document) = .ok base ∧
      apply .strict (plainPart document) base = .ok (rules, stats) ∧ rules.names = base.names ∧
      (∀ name, (rules.get? name).map Value.normalizeKeys = base.get? name) ∧
      (rules = base ↔ ∀ entry ∈ document, ∀ items, entry.2 = .mapping items →
        ∀ name value, lastPlain? name items = some value → value.normalizeKeys = value) := by
  obtain ⟨base, hbase, hreads⟩ := h.reads
  obtain ⟨rules, stats, happly⟩ := apply_plainPart_succeeds h hreads .strict
  have hnames : rules.names = base.names := entries_names happly
  -- A name is that of an entry or of no rule at all.
  have hcases : ∀ name, (∃ entry ∈ document, ∃ items after, entry.2 = .mapping items ∧
      (∀ item ∈ items, item.1.keyText?.isSome = true) ∧ base.get? name = some (Value.mapping items).normalizeKeys ∧
      rules.get? name = some after ∧ Echoes items after) ∨ base.get? name = none ∧ rules.get? name = none := by
    intro name
    by_cases hname : name ∈ base.names
    · obtain ⟨entry, hentry, hkey⟩ := exists_entry_of_reads hreads hname
      obtain ⟨items, hitems, hnamed⟩ := h.attributes entry hentry
      obtain ⟨after, hafter, hecho⟩ := echoes_of_apply h hreads happly hentry hkey hitems hnamed
      exact .inl ⟨entry, hentry, items, after, hitems, hnamed, hitems ▸ get?_of_reads hreads hentry hkey, hafter, hecho⟩
    · exact .inr ⟨(RuleSet.get?_eq_none_iff base name).2 hname,
        (RuleSet.get?_eq_none_iff rules name).2 (hnames ▸ hname)⟩
  refine ⟨base, rules, stats, hbase, happly, hnames, fun name => ?_, ?_, ?_⟩
  · rcases hcases name with ⟨_, _, items, after, _, hnamed, hget, hafter, hecho⟩ | ⟨hget, hafter⟩
    · rw [hget, hafter, Option.map_some, hecho.normalizeKeys_eq hnamed]
    · rw [hget, hafter]
      rfl
  · intro heq entry hentry items hitems
    obtain ⟨name, hname⟩ := Option.isSome_iff_exists.1 (h.named entry hentry)
    obtain ⟨items', hitems', hnamed⟩ := h.attributes entry hentry
    obtain rfl := Value.mapping.inj (hitems.symm.trans hitems')
    obtain ⟨after, hafter, hecho⟩ := echoes_of_apply h hreads happly hentry hname hitems hnamed
    rw [heq, get?_of_reads hreads hentry hname, hitems, Option.some.injEq] at hafter
    exact (hecho.eq_iff hnamed).1 hafter.symm
  · intro hnormal
    refine RuleSet.ext_get? hnames fun name => ?_
    rcases hcases name with ⟨entry, hentry, items, after, hitems, hnamed, hget, hafter, hecho⟩ | ⟨hget, hafter⟩
    · rw [hget, hafter, (hecho.eq_iff hnamed).2 (hnormal entry hentry items hitems)]
    · rw [hget, hafter]

end Document

/-! ### A worked document -/

/-- Attributes under two spellings of one name, and suggestions with a key that is no string. -/
def spelledDocument : List (Value × Value) :=
  [(.string "a", .mapping [(.number (.integer 1), .string "x"),
      (.string "suggestions", .mapping [(.number (.integer 2), .null)]), (.string "1", .string "y")]),
    (.bool true, .mapping [(.string "titre", .mapping [(.string "1", .null)])])]

theorem apply_plainPart_spelled : GivesRules spelledDocument ∧ ∃ base stats,
    RuleSet.ofValue (.mapping spelledDocument) = .ok base ∧
      apply .strict (plainPart spelledDocument) base = .ok (base, stats) := by
  have hgives : GivesRules spelledDocument := by
    constructor <;> simp [spelledDocument, Value.keyText?, Value.boolText, or_imp, forall_and]
  refine ⟨hgives, ?_⟩
  obtain ⟨base, rules, stats, hbase, happly, -, -, hiff⟩ := apply_plainPart hgives
  have hone : Number.text (.integer 1) = "1" := by decide
  have hplain : IsPlainName "1" ∧ IsPlainName "titre" ∧ ¬ IsPlainName "suggestions" := by decide
  obtain rfl : rules = base := by
    refine hiff.2 ?_
    simp [spelledDocument, lastPlain?, lastGiven?, plain?, Value.keyText?, hone, hplain, Value.normalizeKeys,
      Value.normalizeEntries, Value.normalKey, Value.ofPairs, Entries.ofPairs, or_imp, forall_and]
  exact ⟨rules, stats, hbase, happly⟩

/-- An attribute whose value has two spellings of one key. -/
def nestedDocument : List (Value × Value) :=
  [(.string "r", .mapping [(.string "x", .mapping [(.number (.integer 1), .string "a"), (.string "1", .string "b")])])]

/-- Below an attribute the rules have one key where the overlay has both. -/
theorem apply_plainPart_nested : GivesRules nestedDocument ∧ ∃ base rules stats,
    RuleSet.ofValue (.mapping nestedDocument) = .ok base ∧
      apply .strict (plainPart nestedDocument) base = .ok (rules, stats) ∧
      base.json = .ok "\x7b\"r\":\x7b\"x\":\x7b\"1\":\"b\"\x7d\x7d\x7d" ∧
      rules.json = .ok "\x7b\"r\":\x7b\"x\":\x7b\"1\":\"a\",\"1\":\"b\"\x7d\x7d\x7d" := by
  have hgives : GivesRules nestedDocument := by
    constructor <;> simp [nestedDocument, Value.keyText?]
  exact ⟨hgives, _, _, _, rfl, rfl, rfl, rfl⟩

end Overlay

end Rulebook
