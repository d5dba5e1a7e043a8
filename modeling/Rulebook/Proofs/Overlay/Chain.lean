import Rulebook.Proofs.Overlay.Meaning

/-!
# What no chain of overlays changes

Overlays may be laid one over the other, each with its own localization and its own options (`Reaches`). However
long the chain is, a rule keeps the values of its suggestions in their order and under distinct keys, all of its
mosaique but the keys of the suggestions there, and its references (`Preserved`). The relation composes, so it is
enough that one attribute keeps it: `preserved_of_merge` says so, `preserved_apply` carries it through one
overlay, and `reaches_preserves` through a chain.
-/

namespace Rulebook

namespace Value

/-- Is the value the name? -/
def isNamed (name : String) (key : Value) : Bool :=
  same key (.string name)

/-- Does the key mark a reference, in whatever spelling? -/
def isReferenceKey (key : Value) : Bool :=
  match key.keyText? with
  | none => false
  | some name => Attribute.isReferenceName name

/-- The references of a rule. -/
def references (rule : Value) : List (Value × Value) :=
  rule.fields.filter fun field => field.1.isReferenceKey

end Value

namespace Overlay

open Attribute (suggestionsName mosaiqueName isReferenceName)

/-- Rule sets that a chain of overlays makes of a base. -/
inductive Reaches (base : RuleSet) : RuleSet → Prop where
  /-- No overlay at all. -/
  | base : Reaches base base
  /-- One overlay more. -/
  | overlay {rules next : RuleSet} {stats : Stats} (options : Options) (localization : Localization)
      (hreaches : Reaches base rules) (happly : apply options localization rules = .ok (next, stats)) :
      Reaches base next

/-- A mapping stays one, with its values in their order, and no key comes twice if none did, as in every well
formed document. -/
def Rekeyed (before after : Value) : Prop :=
  ∀ old, before.entries? = some old → ∃ new, after.entries? = some new ∧
    new.map Prod.snd = old.map Prod.snd ∧
    (Entries.Distinct Value.same old → Entries.Distinct Value.same new)

/-- A field that is there stays, and its value in relation to what it was. -/
def KeepsField (name : String) (R : Value → Value → Prop) (before after : Value) : Prop :=
  ∀ old, before.get? name = some old → ∃ new, after.get? name = some new ∧ R old new

/-- What is kept of a mosaique: of its suggestions the values, of all else everything. -/
structure KeptMosaique (before after : Value) : Prop where
  suggestions : KeepsField suggestionsName Rekeyed before after
  /-- The tags stay; what is no mapping stays as a whole. -/
  frame : after = before.mapEntries fun _ => after.fields
  /-- The keys stay in their places. -/
  keys : after.fields.map Prod.fst = before.fields.map Prod.fst
  /-- Beside the suggestions every field keeps its value. -/
  others : (after.fields.filter fun field => !field.1.isNamed suggestionsName) =
    before.fields.filter fun field => !field.1.isNamed suggestionsName

/-- What is kept of a rule. -/
structure Preserved (before after : Value) : Prop where
  suggestions : KeepsField suggestionsName Rekeyed before after
  mosaique : KeepsField mosaiqueName KeptMosaique before after
  references : after.references = before.references

/-! ### What is kept composes -/

theorem Rekeyed.refl (v : Value) : Rekeyed v v :=
  fun old hold => ⟨old, hold, rfl, id⟩

theorem Rekeyed.trans {first second third : Value} (h₁ : Rekeyed first second) (h₂ : Rekeyed second third) :
    Rekeyed first third := by
  intro old hold
  obtain ⟨middle, hmiddle, hvalues, hdistinct⟩ := h₁ old hold
  obtain ⟨new, hnew, hvalues', hdistinct'⟩ := h₂ middle hmiddle
  exact ⟨new, hnew, hvalues'.trans hvalues, fun h => hdistinct' (hdistinct h)⟩

section KeepsField

variable {name : String} {R : Value → Value → Prop}

theorem KeepsField.refl (hrefl : ∀ v, R v v) (v : Value) : KeepsField name R v v :=
  fun old hold => ⟨old, hold, hrefl old⟩

theorem KeepsField.trans {first second third : Value} (h₁ : KeepsField name R first second)
    (h₂ : KeepsField name R second third) (htrans : ∀ {a b c}, R a b → R b c → R a c) :
    KeepsField name R first third := by
  intro old hold
  obtain ⟨middle, hmiddle, hfirst⟩ := h₁ old hold
  obtain ⟨new, hnew, hsecond⟩ := h₂ middle hmiddle
  exact ⟨new, hnew, htrans hfirst hsecond⟩

end KeepsField

theorem KeptMosaique.refl (v : Value) : KeptMosaique v v where
  suggestions := .refl Rekeyed.refl v
  frame := (Value.mapEntries_fields v).symm
  keys := rfl
  others := rfl

theorem KeptMosaique.trans {first second third : Value} (h₁ : KeptMosaique first second)
    (h₂ : KeptMosaique second third) : KeptMosaique first third where
  suggestions := h₁.suggestions.trans h₂.suggestions Rekeyed.trans
  frame := by
    calc third = second.mapEntries fun _ => third.fields := h₂.frame
      _ = (first.mapEntries fun _ => second.fields).mapEntries fun _ => third.fields := by rw [← h₁.frame]
      _ = first.mapEntries fun _ => third.fields := Value.mapEntries_mapEntries _ _ _
  keys := h₂.keys.trans h₁.keys
  others := h₂.others.trans h₁.others

theorem Preserved.refl (v : Value) : Preserved v v where
  suggestions := .refl Rekeyed.refl v
  mosaique := .refl KeptMosaique.refl v
  references := rfl

theorem Preserved.trans {first second third : Value} (h₁ : Preserved first second)
    (h₂ : Preserved second third) : Preserved first third where
  suggestions := h₁.suggestions.trans h₂.suggestions Rekeyed.trans
  mosaique := h₁.mosaique.trans h₂.mosaique KeptMosaique.trans
  references := h₂.references.trans h₁.references

/-! ### One attribute -/

/-- Other keys for suggestions: the texts of a list are distinct, whatever the list looked like. -/
theorem rekeyed_of_rebinds {list before after : Value} (h : Rebinds list before after) :
    Rekeyed before after := by
  obtain ⟨keys, base, ⟨-, -, -, hnodup⟩, hbase, hlen, rfl⟩ := h
  intro old hold
  obtain rfl := Option.some.inj (hbase.symm.trans hold)
  exact ⟨_, rfl, List.map_snd_zip (by simp [hlen]), fun _ => Attribute.distinct_zip hnodup _⟩

/-- A mosaique with other suggestions in their place. -/
theorem keptMosaique_of_replaced {list old new : Value} {before after : List (Value × Value)}
    (hrebinds : Rebinds list old new)
    (hreplaced : Entries.Replaced (.string suggestionsName) old new before after) :
    KeptMosaique (.mapping before) (.mapping after) := by
  have hexact := Value.exact_string suggestionsName
  obtain ⟨hget, rfl⟩ := (Entries.replaced_iff hexact).1 hreplaced
  refine ⟨?suggestions, rfl, ?keys, ?others⟩
  case suggestions =>
    intro found hfound
    obtain rfl : old = found := Option.some.inj (hget.symm.trans hfound)
    exact ⟨new, Entries.get?_put_self hexact new before, rekeyed_of_rebinds hrebinds⟩
  case keys =>
    have hcontains : Entries.contains Value.same (.string suggestionsName) before = true := by
      rw [Entries.contains, hget]
      rfl
    calc (Value.put (.string suggestionsName) new before).map Prod.fst
        = before.map Prod.fst ++
            if Entries.contains Value.same (.string suggestionsName) before then []
            else [.string suggestionsName] := Entries.map_fst_put _ _ _ _
      _ = before.map Prod.fst := by rw [if_pos hcontains, List.append_nil]
  case others =>
    exact Entries.filter_put (fun key => !key.isNamed suggestionsName) hexact (by decide) new before

/-- What becomes of suggestions by an attribute of any name. -/
theorem rekeyed_of_revised {given after : Option Value} {old : Value}
    (h : Revised suggestionsName given (some old) after) : ∃ new, after = some new ∧ Rekeyed old new := by
  cases h with
  | kept => exact ⟨old, rfl, .refl old⟩
  | suggestions _ hrebinds => exact ⟨_, rfl, rekeyed_of_rebinds hrebinds⟩
  | mosaique hname => exact absurd hname (by decide)
  | plain _ hsuggestions => exact absurd rfl hsuggestions

/-- What becomes of a mosaique by an attribute of any name. -/
theorem keptMosaique_of_revised {given after : Option Value} {old : Value}
    (h : Revised mosaiqueName given (some old) after) : ∃ new, after = some new ∧ KeptMosaique old new := by
  cases h with
  | kept => exact ⟨old, rfl, .refl old⟩
  | suggestions hname => exact absurd hname (by decide)
  | mosaique _ _ hrebinds hreplaced => exact ⟨_, rfl, keptMosaique_of_replaced hrebinds hreplaced⟩
  | plain _ _ hmosaique => exact absurd rfl hmosaique

/-- One attribute merged, of whatever name and value. -/
theorem preserved_of_merge {rule : String} {key value before after : Value} {done : Stats}
    (h : mergeAttribute rule key value before = .ok (after, done)) : Preserved before after := by
  obtain ⟨name, change, -, hc, hfits, rfl, -⟩ := mergeAttribute_eq_ok_iff.1 h
  cases hname : isReferenceName name with
  | true =>
      obtain rfl := Except.ok.inj (hc.symm.trans (classify_of_isReferenceName hname))
      exact .refl before
  | false =>
      have hreads := Attribute.reads_of_classify hc
      have hlocalized := localized_applied hreads hname hfits
      refine ⟨fun old hold => ?_, fun old hold => ?_, ?_⟩
      · have hrevised := hlocalized.values suggestionsName
        rw [hold] at hrevised
        exact rekeyed_of_revised hrevised
      · have hrevised := hlocalized.values mosaiqueName
        rw [hold] at hrevised
        exact keptMosaique_of_revised hrevised
      · -- The attribute is set under its name, and its name marks no reference.
        rw [Attribute.applied_eq_setField hreads hname, Value.references,
          Value.fields_setField hlocalized.holds]
        exact Entries.filter_put Value.isReferenceKey (Value.exact_string name) hname _ _

theorem attributeStep_preserved {options : Options} {rule : String} {item : Value × Value} {before after : Value}
    {done : Stats} (h : attributeStep options rule item before = .ok (after, done)) : Preserved before after := by
  rcases attributeStep_cases h with hmerge | ⟨-, -, rfl, -⟩
  · exact preserved_of_merge hmerge
  · exact .refl _

/-! ### Overlays -/

/-- One overlay, seen from one rule. -/
theorem preserved_apply {options : Options} {localization : Localization} {rules next : RuleSet} {stats : Stats}
    (h : apply options localization rules = .ok (next, stats)) {name : String} {before : Value}
    (hget : rules.get? name = some before) : ∃ after, next.get? name = some after ∧ Preserved before after := by
  obtain ⟨after, done, hafter, hrun⟩ := apply_rule h hget
  exact ⟨after, hafter, steps_relate Preserved.refl Preserved.trans attributeStep_preserved hrun⟩

/-- **What no chain of overlays changes.** The rule names stay in their order, and of every rule its references
and the values of its suggestions stay, and its mosaique but for the keys of the suggestions there. -/
theorem reaches_preserves {base rules : RuleSet} (h : Reaches base rules) :
    rules.names = base.names ∧
      ∀ name before, base.get? name = some before →
        ∃ after, rules.get? name = some after ∧ Preserved before after := by
  induction h with
  | base => exact ⟨rfl, fun name before hget => ⟨before, hget, .refl before⟩⟩
  | overlay options localization _ happly ih =>
      obtain ⟨hnames, hrules⟩ := ih
      refine ⟨(entries_names happly).trans hnames, fun name before hget => ?_⟩
      obtain ⟨middle, hmiddle, hfirst⟩ := hrules name before hget
      obtain ⟨after, hafter, hsecond⟩ := preserved_apply happly hmiddle
      exact ⟨after, hafter, hfirst.trans hsecond⟩

theorem reaches_preserves_sample :
    Reaches sampleBase sampleRules ∧
      ∃ after, sampleRules.get? "salaire" = some after ∧
        after.references = [(.string "titre.ref", .string "fr")] := by
  have hreaches : Reaches sampleBase sampleRules :=
    .overlay ⟨true, true⟩ .empty (.overlay .strict sampleLocalization .base apply_sample) rfl
  obtain ⟨after, hafter, hpreserved⟩ := (reaches_preserves hreaches).2 "salaire" _ rfl
  refine ⟨hreaches, after, hafter, hpreserved.references.trans ?_⟩
  simp [Value.references, Value.fields, Value.entries?, Value.untag, Value.isReferenceKey, Value.keyText?, sample_names]

end Overlay

end Rulebook
