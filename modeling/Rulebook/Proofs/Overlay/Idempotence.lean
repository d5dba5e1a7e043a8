import Mathlib.Data.List.Induction
import Rulebook.Proofs.Overlay.Meaning

/-!
# Laying a localization over its own outcome

To apply a localization a second time, with the same options, changes nothing and counts the same
(`apply_idempotent`). That the second run does what the first did follows from the offers, which an overlay
leaves as they are; that it changes nothing is shown here, in two parts:

* `foldl_absorbed` — a run of changes is absorbed by its own outcome when a change that was made once may change
  places with any other, or make up for it; and
* `absorbing_settle` — merging attributes is such a run: changes of one attribute replace each other, those of
  different ones do not meet, and a change that was made leaves an attribute in its place.
-/

namespace Rulebook

namespace Overlay

open Attribute (Reads isReferenceName)

/-! ### Runs that are absorbed -/

section Absorbing

variable {ι β : Type} {change : ι → β → β} {Fits : β → Prop} {Made : ι → β → Prop}

/-- Changes to states that fit; `Made i` says of a state that the change `i` was made to it at some time. -/
structure Absorbing (change : ι → β → β) (Fits : β → Prop) (Made : ι → β → Prop) : Prop where
  fits : ∀ {i s}, Fits s → Fits (change i s)
  made : ∀ {i s}, Fits s → Made i (change i s)
  stays : ∀ {i j s}, Fits s → Made i s → Made i (change j s)
  twice : ∀ {i s}, Fits s → change i (change i s) = change i s
  exchange : ∀ {i j s}, Fits s → Made i s →
    change i (change j s) = change j (change i s) ∨ change i (change j s) = change i s

/-- Make changes one after the other. -/
def makeAll (change : ι → β → β) (items : List ι) (state : β) : β :=
  items.foldl (fun state item => change item state) state

theorem makeAll_append (change : ι → β → β) (first second : List ι) (state : β) :
    makeAll change (first ++ second) state = makeAll change second (makeAll change first state) :=
  List.foldl_append

theorem Absorbing.fits_all (h : Absorbing change Fits Made) (items : List ι) {state : β} (hs : Fits state) :
    Fits (makeAll change items state) := by
  induction items generalizing state with
  | nil => exact hs
  | cons item rest ih => exact ih (h.fits hs)

theorem Absorbing.stays_all (h : Absorbing change Fits Made) {i : ι} (items : List ι) {state : β}
    (hs : Fits state) (hmade : Made i state) : Made i (makeAll change items state) := by
  induction items generalizing state with
  | nil => exact hmade
  | cons item rest ih => exact ih (h.fits hs) (h.stays hs hmade)

/-- After a run every change of it was made. -/
theorem Absorbing.made_all (h : Absorbing change Fits Made) {i : ι} {items : List ι} (hmem : i ∈ items)
    {state : β} (hs : Fits state) : Made i (makeAll change items state) := by
  induction items generalizing state with
  | nil => cases hmem
  | cons item rest ih =>
      rcases List.mem_cons.1 hmem with rfl | hrest
      · exact h.stays_all rest (h.fits hs) (h.made hs)
      · exact ih hrest (h.fits hs)

/-- A change that is made at the end need not be made at the start, if all in between were made before. -/
theorem Absorbing.drop_first (h : Absorbing change Fits Made) (i : ι) (items : List ι) {state : β}
    (hs : Fits state) (hmade : ∀ j ∈ items, Made j state) :
    change i (makeAll change items (change i state)) = change i (makeAll change items state) := by
  induction items generalizing state with
  | nil => exact h.twice hs
  | cons j rest ih =>
      have hj : Made j state := hmade j List.mem_cons_self
      rcases h.exchange (j := i) hs hj with hswap | habsorb
      · have hrest : ∀ k ∈ rest, Made k (change j state) := fun k hk =>
          h.stays hs (hmade k (List.mem_cons_of_mem _ hk))
        calc change i (makeAll change rest (change j (change i state)))
            = change i (makeAll change rest (change i (change j state))) := by rw [hswap]
          _ = change i (makeAll change rest (change j state)) := ih (h.fits hs) hrest
      · exact congrArg (fun s => change i (makeAll change rest s)) habsorb

/-- To make all changes again changes nothing. -/
theorem Absorbing.foldl_absorbed (h : Absorbing change Fits Made) (items : List ι) {state : β} (hs : Fits state) :
    makeAll change items (makeAll change items state) = makeAll change items state := by
  -- The induction takes the last change off: it is dropped in front, and the others are absorbed.
  induction items using List.reverseRecOn with
  | nil => rfl
  | append_singleton items i ih =>
      have hbefore : ∀ s, makeAll change (items ++ [i]) s = change i (makeAll change items s) := fun s =>
        makeAll_append change items [i] s
      rw [hbefore, hbefore]
      have hmade : ∀ j ∈ items, Made j (makeAll change items state) := fun j hj => h.made_all hj hs
      calc change i (makeAll change items (change i (makeAll change items state)))
          = change i (makeAll change items (makeAll change items state)) :=
            h.drop_first i items (h.fits_all items hs) hmade
        _ = change i (makeAll change items state) := by rw [ih]

end Absorbing

/-! ### Merging attributes -/

/-- The rule after one attribute: merged into it if it fits, else as it was. -/
def settle (rule : String) (item : Value × Value) (target : Value) : Value :=
  match mergeAttribute rule item.1 item.2 target with
  | .ok (merged, _) => merged
  | .error _ => target

/-- The item sets an attribute of every rule with this offer: it is no reference, can be read, and fits. -/
structure Sets (rule : String) (item : Value × Value) (offer : Offer) (name : String) (change : Attribute) :
    Prop where
  named : item.1.keyText? = some name
  read : Attribute.classify rule name item.2 = .ok change
  noReference : isReferenceName name = false
  fits : change.fault? rule offer = none

variable {rule : String} {item : Value × Value}

theorem Sets.reads {offer : Offer} {name : String} {change : Attribute} (h : Sets rule item offer name change) :
    Reads name item.2 change :=
  Attribute.reads_of_classify h.read

/-- An item sets an attribute of all rules with one offer, or changes none of them. -/
theorem sets_or_inert (rule : String) (item : Value × Value) (offer : Offer) :
    (∃ name change, Sets rule item offer name change) ∨
      ∀ target : Value, target.offer = offer → settle rule item target = target := by
  by_cases hsets : ∃ name change, Sets rule item offer name change
  · exact .inl hsets
  · refine .inr fun target hoffer => ?_
    unfold settle
    cases hm : mergeAttribute rule item.1 item.2 target with
    | error error => rfl
    | ok progress =>
        obtain ⟨merged, done⟩ := progress
        obtain ⟨name, change, hkey, hc, hfits, rfl, -⟩ := mergeAttribute_eq_ok_iff.1 hm
        cases hname : isReferenceName name with
        | true =>
            obtain rfl := Except.ok.inj (hc.symm.trans (classify_of_isReferenceName hname))
            rfl
        | false => exact absurd ⟨name, change, hkey, hc, hname, hoffer ▸ hfits⟩ hsets

theorem Sets.settle_eq {target : Value} {name : String} {change : Attribute}
    (h : Sets rule item target.offer name change) :
    settle rule item target = target.setField name (change.revised ((target.get? name).getD .null)) := by
  have hm : mergeAttribute rule item.1 item.2 target = .ok (change.applied name target, change.stats) :=
    mergeAttribute_eq_ok_iff.2 ⟨name, change, h.named, h.read, h.fits, rfl, rfl⟩
  rw [settle, hm, ← Attribute.applied_eq_setField h.reads h.noReference]

theorem settle_offer (target : Value) : (settle rule item target).offer = target.offer := by
  unfold settle
  cases hm : mergeAttribute rule item.1 item.2 target with
  | error error => rfl
  | ok progress => exact (mergeAttribute_offer hm).symm

/-- A rule in which an attribute can be set holds attributes. -/
theorem Sets.holds {target : Value} {name : String} {change : Attribute}
    (h : Sets rule item target.offer name change) : target.Holds :=
  (localized_applied h.reads h.noReference h.fits).holds

/-- Values keep their order under any keys, so keys given before do not show. -/
theorem rebound_rebound {keys keys' : List String} {old : Value} {base : List (Value × Value)}
    (hbase : old.entries? = some base) (hlen : keys.length = base.length) :
    Attribute.rebound keys' (Attribute.rebound keys old) = Attribute.rebound keys' old := by
  have hvalues : ((keys.map Value.string).zip (base.map Prod.snd)).map Prod.snd = base.map Prod.snd :=
    List.map_snd_zip (by simp [hlen])
  rw [Attribute.rebound, Attribute.fields_rebound, Value.fields_of_entries? hbase, hvalues, Attribute.rebound,
    Value.fields_of_entries? hbase]

/-- What an attribute becomes does not depend on what it became before. -/
theorem revised_revised {name : String} {value value' target : Value} {change change' : Attribute}
    (hreads : Reads name value change) (hreads' : Reads name value' change')
    (hname : isReferenceName name = false) (hfits : change.fault? rule target.offer = none) :
    change'.revised (change.revised ((target.get? name).getD .null)) =
      change'.revised ((target.get? name).getD .null) := by
  cases hreads' with
  | reference href =>
      rw [hname] at href
      cases href
  | plain hreference hsuggestions hmosaique => rfl
  | suggestions hkey hkeys =>
      subst hkey
      obtain ⟨keys, rfl⟩ := hreads.of_suggestions
      obtain ⟨old, base, hold, hbase, hlen, -⟩ := Attribute.suggestions_fit_iff.1 hfits
      rw [hold]
      exact rebound_rebound hbase hlen
  | mosaique hkey hlist hkeys =>
      subst hkey
      obtain ⟨keys, rfl⟩ := hreads.of_mosaique
      obtain ⟨fields, old, base, hm, hold, hbase, hlen⟩ := Attribute.mosaique_fits_iff.1 hfits
      have hfields : (Value.mapping fields).Holds := Value.holds_of_entries? rfl
      rw [hm, Option.getD_some, Attribute.revised, Attribute.revised, Attribute.revised,
        Value.get?_setField_self hfields, hold, Option.getD_some, Option.getD_some, rebound_rebound hbase hlen]
      exact Value.setField_setField_self hfields _ _

/-- The change of an item was made to a rule: the attribute that it sets is there. -/
def MadeTo (rule : String) (item : Value × Value) (target : Value) : Prop :=
  ∀ name change, Sets rule item target.offer name change → (target.get? name).isSome = true

theorem isSome_get?_settle {name : String} {target : Value} (h : (target.get? name).isSome = true) :
    ((settle rule item target).get? name).isSome = true := by
  rcases sets_or_inert rule item target.offer with ⟨other, change, hsets⟩ | hinert
  · rw [hsets.settle_eq]
    by_cases hname : other = name
    · rw [hname, Value.get?_setField_self (hsets.holds)]
      rfl
    · rwa [Value.get?_setField_of_ne hsets.holds hname]
  · rwa [hinert target rfl]

/-- Two changes, of which the first was made to the rule before. -/
theorem settle_exchange {first second : Value × Value} {target : Value} (hmade : MadeTo rule first target) :
    settle rule first (settle rule second target) = settle rule second (settle rule first target) ∨
      settle rule first (settle rule second target) = settle rule first target := by
  have hoffer : ∀ item, (settle rule item target).offer = target.offer := fun item => settle_offer target
  rcases sets_or_inert rule first target.offer with ⟨name, change, hfirst⟩ | hinert
  · rcases sets_or_inert rule second target.offer with ⟨other, change', hsecond⟩ | hinert'
    · have hfirst' : Sets rule first (settle rule second target).offer name change := by rwa [hoffer]
      have hsecond' : Sets rule second (settle rule first target).offer other change' := by rwa [hoffer]
      rw [hfirst'.settle_eq, hsecond'.settle_eq, hfirst.settle_eq, hsecond.settle_eq]
      -- At one name the later change stands; at two, nothing is appended for the first, which is there.
      by_cases hname : name = other
      · subst hname
        right
        rw [Value.get?_setField_self hsecond.holds, Option.getD_some, Value.setField_setField_self hsecond.holds,
          revised_revised hsecond.reads hfirst.reads hfirst.noReference hsecond.fits]
      · left
        rw [Value.get?_setField_of_ne hsecond.holds (Ne.symm hname), Value.get?_setField_of_ne hfirst.holds hname]
        exact Value.setField_comm hname (hmade name change hfirst) _ _
    · rw [hinert' target rfl, hinert' _ (hoffer first)]
      exact .inl rfl
  · rw [hinert target rfl, hinert _ (hoffer second)]
    exact .inl rfl

/-- The attributes merged into a rule make a run that its own outcome absorbs. -/
theorem absorbing_settle (rule : String) (offer : Offer) :
    Absorbing (settle rule) (fun target => target.offer = offer) (MadeTo rule) where
  fits := fun {item target} hoffer => (settle_offer target).trans hoffer
  made := fun {item target} _ name change hsets => by
    rw [settle_offer] at hsets
    rw [hsets.settle_eq, Value.get?_setField_self hsets.holds]
    rfl
  stays := fun {item other target} _ hmade name change hsets => by
    rw [settle_offer] at hsets
    exact isSome_get?_settle (hmade name change hsets)
  twice := fun {item target} _ => by
    rcases sets_or_inert rule item target.offer with ⟨name, change, hsets⟩ | hinert
    · have hsets' : Sets rule item (settle rule item target).offer name change := by rwa [settle_offer]
      rw [hsets'.settle_eq, hsets.settle_eq, Value.get?_setField_self hsets.holds, Option.getD_some,
        Value.setField_setField_self hsets.holds,
        revised_revised hsets.reads hsets.reads hsets.noReference hsets.fits]
    · rw [hinert target rfl, hinert target rfl]
  exchange := fun _ hmade => settle_exchange hmade

/-! ### Runs -/

/-- What a run over attributes leaves, whatever it skips. -/
theorem attributes_eq_makeAll {options : Options} {items : List (Value × Value)} {target merged : Value}
    {done : Stats} (h : attributes options rule items target = .ok (merged, done)) :
    merged = makeAll (settle rule) items target := by
  induction items generalizing target done with
  | nil =>
      obtain ⟨rfl, -⟩ := Prod.mk.inj (Except.ok.inj h)
      rfl
  | cons item rest ih =>
      obtain ⟨next, done₁, done₂, hstep, hrest, -⟩ := steps_cons_eq_ok_iff.1 h
      have hnext : next = settle rule item target := by
        unfold settle
        rcases attributeStep_cases hstep with hm | ⟨-, ⟨error, hm⟩, hnext, -⟩
        · rw [hm]
        · rw [hm, hnext]
      rw [ih hrest, hnext]
      rfl

/-- A second run over the same attributes changes nothing and counts the same. -/
theorem attributes_absorbed {options : Options} {items : List (Value × Value)} {target merged : Value}
    {done : Stats} (h : attributes options rule items target = .ok (merged, done)) :
    attributes options rule items merged = .ok (merged, done) := by
  have hagree := attributes_agree options rule items (attributes_offer h)
  rw [h] at hagree
  obtain ⟨again, hagain, -⟩ := hagree.of_ok
  have heq : again = merged := by
    rw [attributes_eq_makeAll hagain, attributes_eq_makeAll h]
    exact (absorbing_settle rule target.offer).foldl_absorbed items rfl
  rw [hagain, heq]

/-- **A second overlay changes nothing.** Whatever the options, to lay a localization over its own outcome
succeeds, gives the same rules, and counts the same. -/
theorem apply_idempotent {options : Options} {localization : Localization} {base rules : RuleSet} {stats : Stats}
    (h : apply options localization base = .ok (rules, stats)) :
    apply options localization rules = .ok (rules, stats) := by
  have hagree := entries_agree options localization.entries (entries_sameOffers h)
  rw [show entries options localization.entries base = .ok (rules, stats) from h] at hagree
  obtain ⟨again, hagain, -⟩ := hagree.of_ok
  -- The second run succeeds and counts the same by the offers; what it leaves is compared rule by rule.
  have heq : again = rules := by
    refine RuleSet.ext_get? (entries_names hagain) fun name => ?_
    cases hget : rules.get? name with
    | none =>
        rw [RuleSet.get?_eq_none_iff, entries_names hagain, ← RuleSet.get?_eq_none_iff, hget]
    | some rule =>
        have hmem : name ∈ base.names := entries_names h ▸ RuleSet.mem_names_of_get? hget
        obtain ⟨target, htarget⟩ := Option.isSome_iff_exists.1 ((RuleSet.isSome_get?_iff base name).2 hmem)
        obtain ⟨merged, done, hmerged, hrun⟩ := apply_rule h htarget
        obtain rfl := Option.some.inj (hmerged.symm.trans hget)
        obtain ⟨merged', done', hmerged', hrun'⟩ := apply_rule hagain hget
        rw [attributes_absorbed hrun] at hrun'
        obtain ⟨rfl, -⟩ := Prod.mk.inj (Except.ok.inj hrun')
        exact hmerged'
  subst heq
  exact hagain

theorem apply_idempotent_sample :
    apply .strict sampleLocalization sampleBase = .ok (sampleRules, ⟨3, 5, 1, 0, 0⟩) ∧
      apply .strict sampleLocalization sampleRules = .ok (sampleRules, ⟨3, 5, 1, 0, 0⟩) :=
  ⟨apply_sample, apply_idempotent apply_sample⟩

end Overlay

end Rulebook
