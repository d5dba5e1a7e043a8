import Rulebook.Proofs.Offer
import Rulebook.Proofs.Overlay.Steps
import Rulebook.Proofs.RuleSet

/-!
# What an overlay depends on

Which attributes and entries of a localization fit, and so what an overlay counts or why it fails, depends on
the rules only through their offers, and an overlay leaves the offers as they are. This module proves both, from
one attribute to a whole localization. It provides:

* `mergeAttribute_eq_ok_iff` — what it takes to merge one attribute, and what that gives;
* `EntryDone`, `EntryFailed` — what the step over an entry can do and why it can fail, which is all there is to
  know of it (`entryStep_spec`);
* `attributes_offer`, `entries_sameOffers` — a run leaves the offers; and
* `attributes_agree`, `entries_agree` — runs from rules with the same offers do the same.
-/

namespace Rulebook

/-- What the merge of an attribute counts as. -/
def Attribute.stats : Attribute → Overlay.Stats
  | .reference => .reference
  | _ => .applied

namespace Overlay

open Attribute (unlessFault)

/-! ### What does not fit -/

section Tolerate

variable {options : Options} {α β : Type}

theorem tolerate_eq_ok_iff {error : Error} {unchanged next : α} {done : Stats} :
    tolerate options error unchanged = .ok (next, done) ↔
      options.lenient = true ∧ next = unchanged ∧ done = .skipped := by
  unfold tolerate
  cases options.lenient <;> simp [eq_comm]

theorem tolerate_eq_error_iff {error error' : Error} {unchanged : α} :
    tolerate options error unchanged = .error error' ↔ options.lenient = false ∧ error' = error := by
  unfold tolerate
  cases options.lenient <;> simp [eq_comm]

theorem tolerate_agree {R : α → β → Prop} (error : Error) {unchanged : α} {unchanged' : β}
    (h : R unchanged unchanged') :
    Agree R (tolerate options error unchanged) (tolerate options error unchanged') := by
  unfold tolerate
  cases options.lenient with
  | true => exact .ok .skipped h
  | false => exact .error error

end Tolerate

/-! ### One attribute -/

section Attribute

variable {options : Options} {rule : String} {key value target : Value}

/-- Merging an attribute that was read is to ask whether it fits. -/
theorem mergeAttribute_of_classify {name : String} {change : Attribute} (hkey : key.keyText? = some name)
    (hc : Attribute.classify rule name value = .ok change) (target : Value) :
    mergeAttribute rule key value target =
      unlessFault (change.fault? rule target.offer) (change.applied name target, change.stats) := by
  have hmerge := Attribute.merge_eq (Attribute.reads_of_classify hc) rule target
  unfold mergeAttribute
  simp only [hkey, hc]
  cases change with
  | reference => rfl
  | _ =>
      simp only [hmerge, unlessFault]
      split <;> rfl

/-- An attribute is merged when it has a name, can be read, and fits. -/
theorem mergeAttribute_eq_ok_iff {merged : Value} {done : Stats} :
    mergeAttribute rule key value target = .ok (merged, done) ↔
      ∃ name change, key.keyText? = some name ∧ Attribute.classify rule name value = .ok change ∧
        change.fault? rule target.offer = none ∧ merged = change.applied name target ∧ done = change.stats := by
  constructor
  · intro h
    cases hkey : key.keyText? with
    | none => simp [mergeAttribute, hkey] at h
    | some name =>
        cases hc : Attribute.classify rule name value with
        | error error => simp [mergeAttribute, hkey, hc] at h
        | ok change =>
            rw [mergeAttribute_of_classify hkey hc] at h
            cases hfault : change.fault? rule target.offer with
            | some error =>
                rw [hfault] at h
                cases h
            | none =>
                rw [hfault] at h
                obtain ⟨rfl, rfl⟩ := Prod.mk.inj (Except.ok.inj h)
                exact ⟨name, change, rfl, hc, hfault, rfl, rfl⟩
  · rintro ⟨name, change, hkey, hc, hfault, rfl, rfl⟩
    rw [mergeAttribute_of_classify hkey hc, hfault]
    rfl

/-- Two rules with the same offer. -/
def SameOffer (first second : Value) : Prop :=
  first.offer = second.offer

theorem mergeAttribute_offer {merged : Value} {done : Stats}
    (h : mergeAttribute rule key value target = .ok (merged, done)) : SameOffer target merged := by
  obtain ⟨name, change, -, hc, hfits, rfl, -⟩ := mergeAttribute_eq_ok_iff.1 h
  exact (Attribute.offer_applied (Attribute.reads_of_classify hc) hfits).symm

theorem mergeAttribute_agree (rule : String) (key value : Value) {first second : Value}
    (h : SameOffer first second) :
    Agree SameOffer (mergeAttribute rule key value first) (mergeAttribute rule key value second) := by
  cases hkey : key.keyText? with
  | none =>
      simp only [mergeAttribute, hkey]
      exact .error _
  | some name =>
      cases hc : Attribute.classify rule name value with
      | error error =>
          simp only [mergeAttribute, hkey, hc]
          exact .error error
      | ok change =>
          rw [mergeAttribute_of_classify hkey hc, mergeAttribute_of_classify hkey hc, ← h]
          cases hfault : change.fault? rule first.offer with
          | some error => exact .error error
          | none =>
              have hreads := Attribute.reads_of_classify hc
              refine .ok _ ?_
              calc (change.applied name first).offer = first.offer := Attribute.offer_applied hreads hfault
                _ = second.offer := h
                _ = (change.applied name second).offer := (Attribute.offer_applied hreads (h ▸ hfault)).symm

/-- A step over an attribute either merges it or, if that is tolerated, leaves the rule. -/
theorem attributeStep_cases {item : Value × Value} {next : Value} {done : Stats}
    (h : attributeStep options rule item target = .ok (next, done)) :
    mergeAttribute rule item.1 item.2 target = .ok (next, done) ∨
      (options.lenient = true ∧ (∃ error, mergeAttribute rule item.1 item.2 target = .error error) ∧
        next = target ∧ done = .skipped) := by
  unfold attributeStep at h
  cases hm : mergeAttribute rule item.1 item.2 target with
  | ok progress =>
      rw [hm] at h
      exact .inl h
  | error error =>
      rw [hm] at h
      obtain ⟨hlenient, rfl, rfl⟩ := tolerate_eq_ok_iff.1 h
      exact .inr ⟨hlenient, ⟨error, rfl⟩, rfl, rfl⟩

/-- A step over an attribute fails when the attribute cannot be merged and that is not tolerated. -/
theorem attributeStep_eq_error_iff {item : Value × Value} {error : Error} :
    attributeStep options rule item target = .error error ↔
      options.lenient = false ∧ mergeAttribute rule item.1 item.2 target = .error error := by
  unfold attributeStep
  cases hm : mergeAttribute rule item.1 item.2 target with
  | ok progress => simp
  | error error' =>
      refine tolerate_eq_error_iff.trans (and_congr_right fun _ => ?_)
      rw [Except.error.injEq, eq_comm]

theorem attributeStep_offer {item : Value × Value} {next : Value} {done : Stats}
    (h : attributeStep options rule item target = .ok (next, done)) : SameOffer target next := by
  rcases attributeStep_cases h with hm | ⟨-, -, rfl, -⟩
  · exact mergeAttribute_offer hm
  · rfl

theorem attributeStep_agree (item : Value × Value) (first second : Value) (h : SameOffer first second) :
    Agree SameOffer (attributeStep options rule item first) (attributeStep options rule item second) := by
  have hmerge := mergeAttribute_agree rule item.1 item.2 h
  unfold attributeStep
  generalize mergeAttribute rule item.1 item.2 first = progress at hmerge ⊢
  generalize mergeAttribute rule item.1 item.2 second = progress' at hmerge ⊢
  cases hmerge with
  | ok done hnext => exact .ok done hnext
  | error error => exact tolerate_agree error h

end Attribute

/-! ### The attributes of an entry -/

section Attributes

variable {options : Options} {rule : String} {items : List (Value × Value)}

theorem attributes_offer {target merged : Value} {done : Stats}
    (h : attributes options rule items target = .ok (merged, done)) : SameOffer target merged :=
  steps_relate (R := SameOffer) (fun _ => rfl) Eq.trans attributeStep_offer h

theorem attributes_agree (options : Options) (rule : String) (items : List (Value × Value)) {first second : Value}
    (h : SameOffer first second) :
    Agree SameOffer (attributes options rule items first) (attributes options rule items second) :=
  steps_agree attributeStep_agree items h

end Attributes

/-! ### One entry -/

/-- An entry whose value holds no attributes and is not null. -/
def Malformed (value : Value) : Prop :=
  (∀ localized, value ≠ .mapping localized) ∧ value ≠ .null

/-- What the step over an entry does when it succeeds: what it leaves and what it counts. -/
inductive EntryDone (options : Options) (item : Value × Value) (rules : RuleSet) : RuleSet → Stats → Prop where
  /-- The key is no name. -/
  | nameless (hkey : item.1.keyText? = none) (hlenient : options.lenient = true) :
      EntryDone options item rules rules .skipped
  /-- The rule is not defined. -/
  | unknown {rule : String} (hkey : item.1.keyText? = some rule) (hrule : rules.get? rule = none)
      (hprune : options.prune = true) : EntryDone options item rules rules .pruned
  /-- The attributes are merged into the rule. -/
  | merged {rule : String} {target merged : Value} {localized : List (Value × Value)} {done : Stats}
      (hkey : item.1.keyText? = some rule) (hrule : rules.get? rule = some target)
      (hvalue : item.2 = .mapping localized)
      (hmerged : attributes options rule localized target = .ok (merged, done)) :
      EntryDone options item rules (rules.insert rule merged) done.closeEntry
  /-- The entry is empty. -/
  | empty {rule : String} {target : Value} (hkey : item.1.keyText? = some rule)
      (hrule : rules.get? rule = some target) (hvalue : item.2 = .null) :
      EntryDone options item rules rules .zero
  /-- The entry holds no attributes. -/
  | malformed {rule : String} {target : Value} (hkey : item.1.keyText? = some rule)
      (hrule : rules.get? rule = some target) (hvalue : Malformed item.2) (hlenient : options.lenient = true) :
      EntryDone options item rules rules .skipped

/-- Why the step over an entry fails. -/
inductive EntryFailed (options : Options) (item : Value × Value) (rules : RuleSet) : Error → Prop where
  /-- The key is no name. -/
  | nameless (hkey : item.1.keyText? = none) (hstrict : options.lenient = false) :
      EntryFailed options item rules (.invalidEntry item.1.outline)
  /-- The rule is not defined. -/
  | unknown {rule : String} (hkey : item.1.keyText? = some rule) (hrule : rules.get? rule = none)
      (hprune : options.prune = false) : EntryFailed options item rules (.unknownRule rule)
  /-- An attribute cannot be merged. -/
  | merge {rule : String} {target : Value} {localized : List (Value × Value)} {error : Error}
      (hkey : item.1.keyText? = some rule) (hrule : rules.get? rule = some target)
      (hvalue : item.2 = .mapping localized) (herror : attributes options rule localized target = .error error) :
      EntryFailed options item rules error
  /-- The entry holds no attributes. -/
  | malformed {rule : String} {target : Value} (hkey : item.1.keyText? = some rule)
      (hrule : rules.get? rule = some target) (hvalue : Malformed item.2) (hstrict : options.lenient = false) :
      EntryFailed options item rules (.invalidEntry rule)

section Entry

variable {options : Options} {item : Value × Value} {rules : RuleSet}

theorem entryStep_of_nameless (hkey : item.1.keyText? = none) :
    entryStep options item rules = tolerate options (.invalidEntry item.1.outline) rules := by
  rw [entryStep, hkey]

theorem entryStep_of_unknown {rule : String} (hkey : item.1.keyText? = some rule)
    (hrule : rules.get? rule = none) :
    entryStep options item rules =
      if options.prune then .ok (rules, .pruned) else .error (.unknownRule rule) := by
  simp only [entryStep, hkey, hrule]

theorem entryStep_of_mapping {rule : String} {target : Value} {localized : List (Value × Value)}
    (hkey : item.1.keyText? = some rule) (hrule : rules.get? rule = some target)
    (hvalue : item.2 = .mapping localized) :
    entryStep options item rules =
      (attributes options rule localized target).map fun progress =>
        (rules.insert rule progress.1, progress.2.closeEntry) := by
  simp only [entryStep, hkey, hrule, hvalue]

theorem entryStep_of_null {rule : String} {target : Value} (hkey : item.1.keyText? = some rule)
    (hrule : rules.get? rule = some target) (hvalue : item.2 = .null) :
    entryStep options item rules = .ok (rules, .zero) := by
  simp only [entryStep, hkey, hrule, hvalue]

theorem entryStep_of_malformed {rule : String} {target : Value} (hkey : item.1.keyText? = some rule)
    (hrule : rules.get? rule = some target) (hvalue : Malformed item.2) :
    entryStep options item rules = tolerate options (.invalidEntry rule) rules := by
  obtain ⟨key, value⟩ := item
  obtain ⟨hmapping, hnull⟩ := hvalue
  simp only [entryStep, hkey, hrule]

/-- An entry that holds attributes, an empty one, or one that is malformed. -/
theorem value_cases (value : Value) :
    (∃ localized, value = .mapping localized) ∨ value = .null ∨ Malformed value := by
  cases value with
  | mapping localized => exact .inl ⟨localized, rfl⟩
  | null => exact .inr (.inl rfl)
  | _ => exact .inr (.inr ⟨fun _ => Value.noConfusion, Value.noConfusion⟩)

/-- Other attributes, below tags or not, do not mend an entry. -/
theorem Malformed.mapEntries {value : Value} (h : Malformed value)
    (change : List (Value × Value) → List (Value × Value)) : Malformed (value.mapEntries change) := by
  cases value with
  | mapping attributes => exact absurd rfl (h.1 attributes)
  | tagged tag content => exact ⟨fun _ => Value.noConfusion, Value.noConfusion⟩
  | _ => exact h

/-- The step over an entry does one of the things that it can do, or fails for one of the reasons that it has. -/
theorem entryStep_spec (options : Options) (item : Value × Value) (rules : RuleSet) :
    (∃ next done, entryStep options item rules = .ok (next, done) ∧ EntryDone options item rules next done) ∨
      ∃ error, entryStep options item rules = .error error ∧ EntryFailed options item rules error := by
  cases hkey : item.1.keyText? with
  | none =>
      rw [entryStep_of_nameless hkey]
      cases hlenient : options.lenient with
      | true => exact .inl ⟨rules, .skipped, tolerate_eq_ok_iff.2 ⟨hlenient, rfl, rfl⟩, .nameless hkey hlenient⟩
      | false => exact .inr ⟨_, tolerate_eq_error_iff.2 ⟨hlenient, rfl⟩, .nameless hkey hlenient⟩
  | some rule =>
      cases hrule : rules.get? rule with
      | none =>
          rw [entryStep_of_unknown hkey hrule]
          cases hprune : options.prune with
          | true => exact .inl ⟨rules, .pruned, rfl, .unknown hkey hrule hprune⟩
          | false => exact .inr ⟨.unknownRule rule, rfl, .unknown hkey hrule hprune⟩
      | some target =>
          rcases value_cases item.2 with ⟨localized, hvalue⟩ | hvalue | hvalue
          · rw [entryStep_of_mapping hkey hrule hvalue]
            cases hm : attributes options rule localized target with
            | ok progress => exact .inl ⟨_, _, rfl, .merged hkey hrule hvalue hm⟩
            | error error => exact .inr ⟨error, rfl, .merge hkey hrule hvalue hm⟩
          · rw [entryStep_of_null hkey hrule hvalue]
            exact .inl ⟨rules, .zero, rfl, .empty hkey hrule hvalue⟩
          · rw [entryStep_of_malformed hkey hrule hvalue]
            cases hlenient : options.lenient with
            | true =>
                exact .inl ⟨rules, .skipped, tolerate_eq_ok_iff.2 ⟨hlenient, rfl, rfl⟩,
                  .malformed hkey hrule hvalue hlenient⟩
            | false =>
                exact .inr ⟨_, tolerate_eq_error_iff.2 ⟨hlenient, rfl⟩, .malformed hkey hrule hvalue hlenient⟩

theorem entryStep_eq_ok_iff {next : RuleSet} {done : Stats} :
    entryStep options item rules = .ok (next, done) ↔ EntryDone options item rules next done := by
  constructor
  · intro h
    rcases entryStep_spec options item rules with ⟨next', done', hok, hdone⟩ | ⟨error, herror, -⟩
    · obtain ⟨rfl, rfl⟩ := Prod.mk.inj (Except.ok.inj (hok.symm.trans h))
      exact hdone
    · cases herror.symm.trans h
  · intro h
    cases h with
    | nameless hkey hlenient =>
        rw [entryStep_of_nameless hkey]
        exact tolerate_eq_ok_iff.2 ⟨hlenient, rfl, rfl⟩
    | unknown hkey hrule hprune => rw [entryStep_of_unknown hkey hrule, if_pos hprune]
    | merged hkey hrule hvalue hmerged =>
        rw [entryStep_of_mapping hkey hrule hvalue, hmerged]
        rfl
    | empty hkey hrule hvalue => exact entryStep_of_null hkey hrule hvalue
    | malformed hkey hrule hvalue hlenient =>
        rw [entryStep_of_malformed hkey hrule hvalue]
        exact tolerate_eq_ok_iff.2 ⟨hlenient, rfl, rfl⟩

theorem entryStep_eq_error_iff {error : Error} :
    entryStep options item rules = .error error ↔ EntryFailed options item rules error := by
  constructor
  · intro h
    rcases entryStep_spec options item rules with ⟨next, done, hok, -⟩ | ⟨error', herror, hfailed⟩
    · cases hok.symm.trans h
    · obtain rfl := Except.error.inj (herror.symm.trans h)
      exact hfailed
  · intro h
    cases h with
    | nameless hkey hstrict =>
        rw [entryStep_of_nameless hkey]
        exact tolerate_eq_error_iff.2 ⟨hstrict, rfl⟩
    | unknown hkey hrule hprune => rw [entryStep_of_unknown hkey hrule, if_neg (by simp [hprune])]
    | merge hkey hrule hvalue herror =>
        rw [entryStep_of_mapping hkey hrule hvalue, herror]
        rfl
    | malformed hkey hrule hvalue hstrict =>
        rw [entryStep_of_malformed hkey hrule hvalue]
        exact tolerate_eq_error_iff.2 ⟨hstrict, rfl⟩

end Entry

/-! ### The entries of a localization -/

/-- Two rule sets that define the same rules, with the same offers. -/
def SameOffers (first second : RuleSet) : Prop :=
  ∀ name, (first.get? name).map Value.offer = (second.get? name).map Value.offer

section Entries

variable {options : Options} {rules last : RuleSet} {done : Stats} {items : List (Value × Value)}

theorem SameOffers.refl (rules : RuleSet) : SameOffers rules rules :=
  fun _ => rfl

theorem SameOffers.trans {first second third : RuleSet} (h₁ : SameOffers first second)
    (h₂ : SameOffers second third) : SameOffers first third :=
  fun name => (h₁ name).trans (h₂ name)

theorem SameOffers.get?_eq_none {first second : RuleSet} (h : SameOffers first second) {name : String}
    (hget : first.get? name = none) : second.get? name = none := by
  have hname := h name
  rw [hget, Option.map_none] at hname
  exact Option.map_eq_none_iff.1 hname.symm

theorem SameOffers.get?_eq_some {first second : RuleSet} (h : SameOffers first second) {name : String}
    {target : Value} (hget : first.get? name = some target) :
    ∃ target', second.get? name = some target' ∧ SameOffer target target' := by
  have hname := h name
  rw [hget, Option.map_some] at hname
  obtain ⟨target', hget', hoffer⟩ := Option.map_eq_some_iff.1 hname.symm
  exact ⟨target', hget', hoffer.symm⟩

theorem SameOffers.insert {first second : RuleSet} (h : SameOffers first second) {rule : String}
    {target target' : Value} (hoffer : SameOffer target target') :
    SameOffers (first.insert rule target) (second.insert rule target') := by
  intro name
  by_cases hname : rule = name
  · subst hname
    rw [RuleSet.get?_insert_self, RuleSet.get?_insert_self, Option.map_some, Option.map_some, hoffer]
  · rw [RuleSet.get?_insert_of_ne first hname, RuleSet.get?_insert_of_ne second hname]
    exact h name

/-- To give a rule another entry with the same offer leaves the offers. -/
theorem SameOffers.of_insert {rule : String} {target merged : Value} (hget : rules.get? rule = some target)
    (hoffer : SameOffer target merged) : SameOffers rules (rules.insert rule merged) := by
  intro name
  by_cases hname : rule = name
  · subst hname
    rw [RuleSet.get?_insert_self, hget, Option.map_some, Option.map_some, hoffer]
  · rw [RuleSet.get?_insert_of_ne rules hname]

theorem entryStep_sameOffers {item : Value × Value} (h : entryStep options item rules = .ok (last, done)) :
    SameOffers rules last := by
  cases entryStep_eq_ok_iff.1 h with
  | merged hkey hrule hvalue hmerged => exact .of_insert hrule (attributes_offer hmerged)
  | _ => exact .refl rules

/-- An overlay leaves what every rule offers to be localized. -/
theorem entries_sameOffers (h : entries options items rules = .ok (last, done)) : SameOffers rules last :=
  steps_relate SameOffers.refl SameOffers.trans entryStep_sameOffers h

theorem entryStep_names {item : Value × Value} (h : entryStep options item rules = .ok (last, done)) :
    rules.names = last.names := by
  cases entryStep_eq_ok_iff.1 h with
  | merged hkey hrule hvalue hmerged =>
      exact (rules.names_insert_of_mem (RuleSet.mem_names_of_get? hrule) _).symm
  | _ => rfl

/-- An overlay leaves the rule names and their order. -/
theorem entries_names (h : entries options items rules = .ok (last, done)) : last.names = rules.names :=
  (steps_relate (R := fun a b => a.names = b.names) (fun _ => rfl) Eq.trans entryStep_names h).symm

theorem entryStep_agree (item : Value × Value) (first second : RuleSet) (h : SameOffers first second) :
    Agree SameOffers (entryStep options item first) (entryStep options item second) := by
  cases hkey : item.1.keyText? with
  | none =>
      rw [entryStep_of_nameless hkey, entryStep_of_nameless hkey]
      exact tolerate_agree _ h
  | some rule =>
      cases hrule : first.get? rule with
      | none =>
          rw [entryStep_of_unknown hkey hrule, entryStep_of_unknown hkey (h.get?_eq_none hrule)]
          cases options.prune with
          | true => exact .ok .pruned h
          | false => exact .error (.unknownRule rule)
      | some target =>
          obtain ⟨target', hrule', hoffer⟩ := h.get?_eq_some hrule
          rcases value_cases item.2 with ⟨localized, hvalue⟩ | hvalue | hvalue
          · rw [entryStep_of_mapping hkey hrule hvalue, entryStep_of_mapping hkey hrule' hvalue]
            have hattributes := attributes_agree options rule localized hoffer
            generalize attributes options rule localized target = progress at hattributes ⊢
            generalize attributes options rule localized target' = progress' at hattributes ⊢
            cases hattributes with
            | error error => exact .error error
            | ok done hmerged => exact .ok done.closeEntry (h.insert hmerged)
          · rw [entryStep_of_null hkey hrule hvalue, entryStep_of_null hkey hrule' hvalue]
            exact .ok .zero h
          · rw [entryStep_of_malformed hkey hrule hvalue, entryStep_of_malformed hkey hrule' hvalue]
            exact tolerate_agree _ h

/-- An overlay does the same to rule sets with the same offers, or fails on both for the same reason. -/
theorem entries_agree (options : Options) (items : List (Value × Value)) {first second : RuleSet}
    (h : SameOffers first second) :
    Agree SameOffers (entries options items first) (entries options items second) :=
  steps_agree entryStep_agree items h

end Entries

end Overlay

end Rulebook
