import Rulebook.Attribute
import Rulebook.Proofs.Fields

/-!
# When an attribute fits a rule

Whether a localized attribute can be merged into a rule depends on little of the rule: whether it takes
attributes, how many suggestions it has and how many its mosaique has. That much is the rule's `Offer`. This
module provides:

* `Attribute.Reads` — what the name and the value of an attribute are read as, said without the reader;
* `Attribute.fault?` — the reason why an attribute does not fit an offer, if there is one;
* `Attribute.merge_eq` — merging is that test followed by `Attribute.applied`, one field set; and
* `Attribute.offer_applied` — a merge leaves the offer as it is, so that what fits a rule fits it for good.
-/

namespace Rulebook

open Overlay (Error)

/-- What a rule has for localized attributes to fit. -/
structure Offer where
  /-- The rule is null or a mapping, and a mapping stands under no tag. -/
  takesAttributes : Bool
  /-- The number of suggestions, where there is a mapping of them. -/
  suggestions : Option Nat
  /-- The number of suggestions of the mosaique, where there is a mapping of them. -/
  nested : Option Nat
  /-- The mosaique is a mapping under no tag. -/
  bareMosaique : Bool
deriving DecidableEq

namespace Value

/-- A mapping under no tag. -/
def isBareMapping : Value → Bool
  | .mapping _ => true
  | _ => false

/-- What the rule has for localized attributes. -/
def offer (rule : Value) : Offer where
  takesAttributes := rule.opened.isBareMapping
  suggestions := ((rule.get? Attribute.suggestionsName).bind entries?).map List.length
  nested :=
    (((rule.get? Attribute.mosaiqueName).bind (·.get? Attribute.suggestionsName)).bind entries?).map List.length
  bareMosaique := ((rule.get? Attribute.mosaiqueName).map isBareMapping).getD false

theorem isBareMapping_iff {v : Value} : v.isBareMapping = true ↔ ∃ es, v = .mapping es := by
  cases v <;> simp [isBareMapping]

theorem isBareMapping_mapEntries (change : List (Value × Value) → List (Value × Value)) (v : Value) :
    (v.mapEntries change).isBareMapping = v.isBareMapping := by
  cases v <;> rfl

theorem holds_of_takesAttributes {v : Value} (h : v.offer.takesAttributes = true) : v.Holds := by
  obtain ⟨es, hes⟩ := isBareMapping_iff.1 h
  rw [Holds, hes]
  rfl

end Value

namespace Attribute

/-! ### Reading an attribute -/

/-- The list, possibly tagged, consists of scalars; these are their texts, no text twice. -/
def Texts (list : Value) (keys : List String) : Prop :=
  ∃ items, list.items? = some items ∧ items.map Value.keyText? = keys.map some ∧ keys.Nodup

theorem readKeysFrom_eq_ok {rule path : String} {index : Nat} {seen : List String} {items : List Value}
    {keys : List String} (h : readKeysFrom rule path index seen items = .ok keys) :
    items.map Value.keyText? = keys.map some ∧ keys.Nodup ∧ ∀ key ∈ keys, key ∉ seen := by
  -- That no text is among those seen before is what makes the texts distinct one step earlier.
  induction items generalizing index seen keys with
  | nil =>
      cases h
      simp
  | cons item rest ih =>
      rw [readKeysFrom] at h
      cases htext : item.keyText? with
      | none =>
          rw [htext] at h
          cases h
      | some key =>
          rw [htext] at h
          by_cases hseen : key ∈ seen
          · simp [hseen] at h
          · simp only [hseen, if_false] at h
            cases hrest : readKeysFrom rule path (index + 1) (key :: seen) rest with
            | error error =>
                rw [hrest] at h
                cases h
            | ok others =>
                rw [hrest] at h
                obtain rfl := Except.ok.inj h
                obtain ⟨htexts, hnodup, hfresh⟩ := ih hrest
                refine ⟨by simp [htext, htexts], List.nodup_cons.2 ⟨fun hmem => ?_, hnodup⟩, ?_⟩
                · exact hfresh key hmem List.mem_cons_self
                · intro other hother
                  rcases List.mem_cons.1 hother with rfl | hother
                  · exact hseen
                  · exact fun hmem => hfresh other hother (List.mem_cons_of_mem _ hmem)

theorem texts_of_readKeys {rule path : String} {value : Value} {keys : List String}
    (h : readKeys rule path value = .ok keys) : Texts value keys := by
  rw [readKeys] at h
  cases hitems : value.items? with
  | none =>
      rw [hitems] at h
      cases h
  | some items =>
      rw [hitems] at h
      obtain ⟨htexts, hnodup, -⟩ := readKeysFrom_eq_ok h
      exact ⟨items, hitems, htexts, hnodup⟩

theorem readKeysFrom_of_texts {rule path : String} {index : Nat} {seen : List String} {items : List Value}
    {keys : List String} (htexts : items.map Value.keyText? = keys.map some) (hnodup : keys.Nodup)
    (hfresh : ∀ key ∈ keys, key ∉ seen) : readKeysFrom rule path index seen items = .ok keys := by
  induction items generalizing index seen keys with
  | nil =>
      obtain rfl := List.map_eq_nil_iff.1 htexts.symm
      rfl
  | cons item rest ih =>
      cases keys with
      | nil => cases htexts
      | cons key keys =>
          obtain ⟨htext, hrest⟩ := List.cons.inj htexts
          obtain ⟨hkey, hkeys⟩ := List.nodup_cons.1 hnodup
          have hseen : ∀ other ∈ keys, other ∉ key :: seen := by
            intro other hother hmem
            rcases List.mem_cons.1 hmem with rfl | hmem
            · exact hkey hother
            · exact hfresh other (List.mem_cons_of_mem _ hother) hmem
          rw [readKeysFrom, htext]
          simp only [if_neg (hfresh key List.mem_cons_self), ih hrest hkeys hseen]
          rfl

/-- Keys are read from a list of scalars with different texts and from nothing else. -/
theorem readKeys_eq_ok_iff {rule path : String} {value : Value} {keys : List String} :
    readKeys rule path value = .ok keys ↔ Texts value keys := by
  refine ⟨texts_of_readKeys, ?_⟩
  rintro ⟨items, hitems, htexts, hnodup⟩
  simp only [readKeys, hitems]
  exact readKeysFrom_of_texts htexts hnodup fun _ _ => List.not_mem_nil

/-- How an attribute of this name and value merges. -/
inductive Reads (name : String) (value : Value) : Attribute → Prop where
  | reference (hname : isReferenceName name = true) : Reads name value .reference
  | suggestions {keys : List String} (hname : name = suggestionsName) (hkeys : Texts value keys) :
      Reads name value (.suggestions keys)
  | mosaique {list : Value} {keys : List String} (hname : name = mosaiqueName)
      (hlist : value.get? suggestionsName = some list) (hkeys : Texts list keys) :
      Reads name value (.mosaique keys)
  | plain (hreference : isReferenceName name = false) (hsuggestions : name ≠ suggestionsName)
      (hmosaique : name ≠ mosaiqueName) : Reads name value (.plain value)

/-- What stands under the name of the suggestions is read as keys for them. -/
theorem Reads.of_suggestions {value : Value} {change : Attribute} (h : Reads suggestionsName value change) :
    ∃ keys, change = .suggestions keys := by
  cases h with
  | reference hname => exact absurd hname (by decide)
  | suggestions _ _ => exact ⟨_, rfl⟩
  | mosaique hname => exact absurd hname (by decide)
  | plain _ hsuggestions => exact absurd rfl hsuggestions

/-- What stands under the name of the mosaique is read as keys for its suggestions. -/
theorem Reads.of_mosaique {value : Value} {change : Attribute} (h : Reads mosaiqueName value change) :
    ∃ keys, change = .mosaique keys := by
  cases h with
  | reference hname => exact absurd hname (by decide)
  | suggestions hname => exact absurd hname (by decide)
  | mosaique _ _ _ => exact ⟨_, rfl⟩
  | plain _ _ hmosaique => exact absurd rfl hmosaique

theorem reads_of_classify {rule name : String} {value : Value} {change : Attribute}
    (h : classify rule name value = .ok change) : Reads name value change := by
  unfold classify at h
  by_cases href : isReferenceName name = true
  · rw [if_pos href] at h
    obtain rfl := Except.ok.inj h
    exact .reference href
  rw [if_neg href] at h
  by_cases hs : name = suggestionsName
  · rw [if_pos hs] at h
    cases hkeys : readKeys rule suggestionsName value with
    | error error =>
        rw [hkeys] at h
        cases h
    | ok keys =>
        rw [hkeys] at h
        obtain rfl := Except.ok.inj h
        exact .suggestions hs (texts_of_readKeys hkeys)
  rw [if_neg hs] at h
  by_cases hm : name = mosaiqueName
  · rw [if_pos hm] at h
    cases hlist : value.get? suggestionsName with
    | none =>
        rw [hlist] at h
        cases h
    | some list =>
        simp only [hlist] at h
        cases hkeys : readKeys rule nestedPath list with
        | error error =>
            rw [hkeys] at h
            cases h
        | ok keys =>
            rw [hkeys] at h
            obtain rfl := Except.ok.inj h
            exact .mosaique hm hlist (texts_of_readKeys hkeys)
  · rw [if_neg hm] at h
    obtain rfl := Except.ok.inj h
    exact .plain (Bool.eq_false_iff.2 href) hs hm

/-- The name is that of an attribute whose value is taken as it is. -/
def IsPlainName (name : String) : Prop :=
  isReferenceName name = false ∧ name ≠ suggestionsName ∧ name ≠ mosaiqueName

instance (name : String) : Decidable (IsPlainName name) :=
  inferInstanceAs (Decidable (_ ∧ _))

theorem IsPlainName.classify {name : String} (h : IsPlainName name) (rule : String) (value : Value) :
    classify rule name value = .ok (.plain value) := by
  obtain ⟨hreference, hsuggestions, hmosaique⟩ := h
  rw [Attribute.classify, if_neg (by simp [hreference]), if_neg hsuggestions, if_neg hmosaique]

/-! ### Fitting an offer -/

/-- Why keys do not fit so many suggestions, `fits` being all else that is asked. -/
def keysFault? (rule path : String) (keys : List String) (suggestions : Option Nat) (fits : Option Error) :
    Option Error :=
  match suggestions with
  | none => some (.missingSuggestions rule path)
  | some count => if keys.length = count then fits else some (.countMismatch rule path count keys.length)

/-- Why an attribute does not fit an offer. -/
def fault? (rule : String) (offer : Offer) : Attribute → Option Error
  | .reference => none
  | .plain _ => if offer.takesAttributes then none else some (.notAttributeMapping rule)
  | .suggestions keys =>
    keysFault? rule suggestionsName keys offer.suggestions
      (if offer.takesAttributes then none else some (.notAttributeMapping rule))
  | .mosaique keys =>
    keysFault? rule nestedPath keys offer.nested
      (if offer.bareMosaique then none else some (.missingSuggestions rule nestedPath))

/-- A result, unless there is a fault. -/
def unlessFault {α : Type} (fault : Option Error) (result : α) : Except Error α :=
  match fault with
  | some error => .error error
  | none => .ok result

/-- The values of a mapping in their order, under other keys. -/
def rebound (keys : List String) (old : Value) : Value :=
  .mapping ((keys.map Value.string).zip (old.fields.map Prod.snd))

/-- The new value of the attribute, from the old one. -/
def revised (change : Attribute) (old : Value) : Value :=
  match change with
  | .reference => old
  | .plain value => value
  | .suggestions keys => rebound keys old
  | .mosaique keys => old.setField suggestionsName (rebound keys ((old.get? suggestionsName).getD .null))

/-- The rule with an attribute that fits merged into it. -/
def applied (name : String) (change : Attribute) (target : Value) : Value :=
  match change with
  | .reference => target
  | change => target.setField name (change.revised ((target.get? name).getD .null))

theorem applied_eq_setField {name : String} {value : Value} {change : Attribute} (h : Reads name value change)
    (hname : isReferenceName name = false) (target : Value) :
    change.applied name target = target.setField name (change.revised ((target.get? name).getD .null)) := by
  cases h with
  | reference href =>
      rw [hname] at href
      cases href
  | _ => rfl

theorem distinct_zip {keys : List String} (hk : keys.Nodup) (values : List Value) :
    Entries.Distinct Value.same ((keys.map Value.string).zip values) := by
  induction keys generalizing values with
  | nil => exact List.Pairwise.nil
  | cons key rest ih =>
      cases values with
      | nil => exact List.Pairwise.nil
      | cons value values =>
          obtain ⟨hkey, hrest⟩ := List.nodup_cons.1 hk
          refine List.pairwise_cons.2 ⟨?_, ih hrest values⟩
          rintro ⟨k, v⟩ hmem
          obtain ⟨other, hother, rfl⟩ := List.mem_map.1 (List.of_mem_zip hmem).1
          refine (Value.exact_string other).of_ne fun heq => hkey ?_
          exact Value.string.inj heq ▸ hother

theorem fields_rebound (keys : List String) (old : Value) :
    (rebound keys old).fields = (keys.map Value.string).zip (old.fields.map Prod.snd) :=
  rfl

/-- As many keys as values make as many suggestions. -/
theorem count_rebound {keys : List String} {old : Value} {base : List (Value × Value)}
    (hold : old.entries? = some base) (h : keys.length = base.length) :
    (rebound keys old).entries?.map List.length = old.entries?.map List.length := by
  have hentries : (rebound keys old).entries? = some ((keys.map Value.string).zip (base.map Prod.snd)) := by
    rw [rebound, Value.fields_of_entries? hold]
    rfl
  rw [hentries, hold, Option.map_some, Option.map_some, List.length_zip, List.length_map, List.length_map, h,
    Nat.min_self]

theorem rebind_eq {keys : List String} (hk : keys.Nodup) (rule path : String) {old : Value}
    {base : List (Value × Value)} (hold : old.entries? = some base) :
    rebind rule path base keys =
      if keys.length = base.length then .ok (rebound keys old)
      else .error (.countMismatch rule path base.length keys.length) := by
  rw [rebind, Value.ofPairs, Entries.ofPairs_of_distinct (distinct_zip hk _), rebound,
    Value.fields_of_entries? hold]

theorem setAttribute_eq (rule name : String) (value target : Value) :
    setAttribute rule name value target =
      if target.offer.takesAttributes then .ok (target.setField name value)
      else .error (.notAttributeMapping rule) := by
  unfold setAttribute attributesOf
  cases hnull : target.isNull with
  | true =>
      have htakes : target.offer.takesAttributes = true := by
        rw [Value.offer, Value.opened_of_isNull hnull]
        rfl
      rw [if_pos rfl, if_pos htakes, Value.setField, Value.opened_of_isNull hnull]
      rfl
  | false =>
      rw [if_neg Bool.false_ne_true, Value.offer, Value.setField, Value.opened_of_not_isNull hnull]
      cases target <;> rfl

/-- Both ways of rebinding suggestions ask first whether there are as many as keys, and then, in `finish`, what
else they need. -/
theorem rebind_into_eq {keys : List String} (hk : keys.Nodup) (rule path : String) {old : Option Value}
    {finish : Value → Except Error Value} {fits : Option Error} {merged : Value}
    (hfinish : ∀ value, old = some value → value.entries?.isSome = true →
      finish (rebound keys value) = unlessFault fits merged) :
    (match old.bind Value.entries? with
      | none => Except.error (Error.missingSuggestions rule path)
      | some base =>
        match rebind rule path base keys with
        | .error error => .error error
        | .ok rebound => finish rebound) =
      unlessFault (keysFault? rule path keys ((old.bind Value.entries?).map List.length) fits) merged := by
  cases old with
  | none => rfl
  | some value =>
      rw [Option.bind_some]
      cases hbase : value.entries? with
      | none => rfl
      | some base =>
          simp only [Option.map_some, keysFault?, rebind_eq hk rule path hbase]
          by_cases hlen : keys.length = base.length
          · rw [if_pos hlen, if_pos hlen]
            exact hfinish value rfl (by rw [hbase]; rfl)
          · rw [if_neg hlen, if_neg hlen]
            rfl

/-- Merging is to ask whether the attribute fits the rule's offer, and to set one field if it does. -/
theorem merge_eq {name : String} {value : Value} {change : Attribute} (h : Reads name value change)
    (rule : String) (target : Value) :
    change.merge rule name target =
      unlessFault (change.fault? rule target.offer) (change.applied name target) := by
  cases h with
  | reference hname => rfl
  | plain hreference hsuggestions hmosaique =>
      rw [merge, setAttribute_eq, fault?]
      split <;> rfl
  | @suggestions keys hname hkeys =>
      subst hname
      obtain ⟨items, -, -, hnodup⟩ := hkeys
      refine rebind_into_eq hnodup rule suggestionsName fun old hold _ => ?_
      rw [setAttribute_eq, applied, hold, Option.getD_some, revised]
      · split <;> rfl
      · intro hc
        cases hc
  | @mosaique list keys hname hlist hkeys =>
      subst hname
      obtain ⟨items, -, -, hnodup⟩ := hkeys
      refine rebind_into_eq hnodup rule nestedPath fun old hold _ => ?_
      -- Suggestions were found below the mosaique, so there is one.
      cases hmosaique : target.get? mosaiqueName with
      | none =>
          rw [hmosaique] at hold
          cases hold
      | some mosaique =>
          rw [hmosaique, Option.bind_some] at hold
          have hn : target.isNull = false := Value.isNull_of_get? hmosaique
          have hbare : target.offer.bareMosaique = mosaique.isBareMapping := by
            rw [Value.offer, hmosaique, Option.map_some, Option.getD_some]
          rw [hbare, applied, hmosaique, Option.getD_some, revised, hold, Option.getD_some]
          · cases mosaique with
            | mapping fields =>
                rw [Value.setField, Value.opened_of_not_isNull hn]
                rfl
            | _ => rfl
          · intro hc
            cases hc

/-! ### What fits -/

section Fits

variable {rule : String} {target : Value} {keys : List String}

theorem plain_fits_iff {value : Value} :
    fault? rule target.offer (.plain value) = none ↔ target.offer.takesAttributes = true := by
  simp [fault?]

theorem keysFault?_eq_none_iff {path : String} {old : Option Value} {fits : Option Error} :
    keysFault? rule path keys ((old.bind Value.entries?).map List.length) fits = none ↔
      ∃ value base, old = some value ∧ value.entries? = some base ∧ keys.length = base.length ∧ fits = none := by
  cases old with
  | none => simp [keysFault?]
  | some value =>
      cases hbase : value.entries? with
      | none => simp [keysFault?, hbase]
      | some base => by_cases hlen : keys.length = base.length <;> simp [keysFault?, hbase, hlen]

theorem suggestions_fit_iff :
    fault? rule target.offer (.suggestions keys) = none ↔
      ∃ old base, target.get? suggestionsName = some old ∧ old.entries? = some base ∧
        keys.length = base.length ∧ target.offer.takesAttributes = true := by
  refine keysFault?_eq_none_iff.trans ?_
  simp

theorem mosaique_fits_iff :
    fault? rule target.offer (.mosaique keys) = none ↔
      ∃ fields old base, target.get? mosaiqueName = some (.mapping fields) ∧
        (Value.mapping fields).get? suggestionsName = some old ∧ old.entries? = some base ∧
          keys.length = base.length := by
  refine keysFault?_eq_none_iff.trans ?_
  constructor
  · rintro ⟨old, base, hold, hbase, hlen, hbare⟩
    cases hm : target.get? mosaiqueName with
    | none =>
        rw [hm] at hold
        cases hold
    | some mosaique =>
        rw [hm, Option.bind_some] at hold
        have hmapping : mosaique.isBareMapping = true := by simpa [Value.offer, hm] using hbare
        obtain ⟨fields, rfl⟩ := Value.isBareMapping_iff.1 hmapping
        exact ⟨fields, old, base, rfl, hold, hbase, hlen⟩
  · rintro ⟨fields, old, base, hm, hold, hbase, hlen⟩
    refine ⟨old, base, ?_, hbase, hlen, ?_⟩
    · rw [hm, Option.bind_some, hold]
    · simp [Value.offer, hm, Value.isBareMapping]

end Fits

/-! ### A merge leaves the offer -/

theorem takesAttributes_setField {target : Value} (h : target.Holds) (name : String) (value : Value) :
    (target.setField name value).offer.takesAttributes = target.offer.takesAttributes := by
  rw [Value.offer, Value.opened_setField h]
  exact Value.isBareMapping_mapEntries _ _

/-- A field beside the suggestions and the mosaique is no part of the offer. -/
theorem offer_setField_of_ne {target : Value} (h : target.Holds) {name : String} (hs : name ≠ suggestionsName)
    (hm : name ≠ mosaiqueName) (value : Value) : (target.setField name value).offer = target.offer := by
  have htakes := takesAttributes_setField h name value
  have hsuggestions := Value.get?_setField_of_ne h hs value
  have hmosaique := Value.get?_setField_of_ne h hm value
  simp only [Value.offer, Offer.mk.injEq] at htakes ⊢
  simp only [htakes, hsuggestions, hmosaique, and_self]

/-- Suggestions may be replaced by as many. -/
theorem offer_setField_suggestions {target old new : Value} (hold : target.get? suggestionsName = some old)
    (hcount : new.entries?.map List.length = old.entries?.map List.length) :
    (target.setField suggestionsName new).offer = target.offer := by
  have h : target.Holds := Value.holds_of_get? (by rw [hold]; rfl)
  have htakes := takesAttributes_setField h suggestionsName new
  have hsuggestions : (target.setField suggestionsName new).get? suggestionsName = some new :=
    Value.get?_setField_self h new
  have hmosaique : (target.setField suggestionsName new).get? mosaiqueName = target.get? mosaiqueName :=
    Value.get?_setField_of_ne h (by decide) new
  simp only [Value.offer, Offer.mk.injEq] at htakes ⊢
  simp only [htakes, hsuggestions, hmosaique, hold, Option.bind_some, hcount, and_self]

/-- A mosaique may be replaced by one with as many suggestions that is as bare. -/
theorem offer_setField_mosaique {target old new : Value} (hold : target.get? mosaiqueName = some old)
    (hcount : ((new.get? suggestionsName).bind Value.entries?).map List.length =
      ((old.get? suggestionsName).bind Value.entries?).map List.length)
    (hbare : new.isBareMapping = old.isBareMapping) :
    (target.setField mosaiqueName new).offer = target.offer := by
  have h : target.Holds := Value.holds_of_get? (by rw [hold]; rfl)
  have htakes := takesAttributes_setField h mosaiqueName new
  have hmosaique : (target.setField mosaiqueName new).get? mosaiqueName = some new :=
    Value.get?_setField_self h new
  have hsuggestions : (target.setField mosaiqueName new).get? suggestionsName = target.get? suggestionsName :=
    Value.get?_setField_of_ne h (by decide) new
  simp only [Value.offer, Offer.mk.injEq] at htakes ⊢
  simp only [htakes, hsuggestions, hmosaique, hold, Option.bind_some, Option.map_some, hcount, hbare, and_self]

/-- Merging an attribute that fits leaves the offer: whatever fitted the rule still fits, and nothing else. -/
theorem offer_applied {name : String} {value : Value} {change : Attribute} (h : Reads name value change)
    {rule : String} {target : Value} (hfits : change.fault? rule target.offer = none) :
    (change.applied name target).offer = target.offer := by
  cases h with
  | reference hname => rfl
  | plain hreference hsuggestions hmosaique =>
      exact offer_setField_of_ne (Value.holds_of_takesAttributes (plain_fits_iff.1 hfits)) hsuggestions hmosaique _
  | @suggestions keys hname hkeys =>
      subst hname
      obtain ⟨old, base, hold, hbase, hlen, -⟩ := suggestions_fit_iff.1 hfits
      refine offer_setField_suggestions hold ?_
      rw [hold, Option.getD_some]
      exact count_rebound hbase hlen
  | @mosaique list keys hname hlist hkeys =>
      subst hname
      obtain ⟨fields, old, base, hm, hold, hbase, hlen⟩ := mosaique_fits_iff.1 hfits
      have hfields : (Value.mapping fields).Holds := Value.holds_of_entries? rfl
      refine offer_setField_mosaique hm ?_ ?_
      · rw [hm, Option.getD_some, revised, Value.get?_setField_self hfields, hold, Option.getD_some,
          Option.bind_some, Option.bind_some]
        exact count_rebound hbase hlen
      · rw [hm, Option.getD_some, revised, Value.setField, Value.isBareMapping_mapEntries]
        rfl

end Attribute

end Rulebook
