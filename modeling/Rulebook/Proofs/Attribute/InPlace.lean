import Rulebook.Proofs.Offer

/-!
# Merging an attribute in its place

`Attribute.merge` gives the rule with the attribute merged into it, or an error. Where the rule is a document that is
changed in its place, one write after the other, an error might come after the first of them. That it does not is shown
here. This module provides:

* `InPlace` — work on a document in its place, in which what was written before a failure stays written;
* `Attribute.mergeInPlace` — the merge as such work, with a write wherever there is one;
* `Value.FieldSet` and `Attribute.Changes` — a document in which one field was set, and what each kind of attribute may
  change; and
* `Attribute.mergeInPlace_atomic` — a merge that fails has changed nothing, and one that succeeds has set one field, as
  `merge` would have.

Nothing is assumed of the attribute: its keys may repeat, and it need not have been read from a localization.
-/

namespace Rulebook

open Overlay (Error)

/-- Work on a document in its place. A failure ends it and undoes nothing. -/
abbrev InPlace := ExceptT Error (StateM Value)

namespace InPlace

variable {α β : Type}

/-- The result of work on a document, or its failure, and what the document is then. -/
def start (work : InPlace α) (document : Value) : Except Error α × Value :=
  Id.run (work.run.run document)

variable {document : Value}

@[simp] theorem start_pure (result : α) : start (pure result) document = (.ok result, document) := rfl

@[simp] theorem start_get : start get document = (.ok document, document) := rfl

@[simp] theorem start_set (after : Value) : start (set after) document = (.ok ⟨⟩, after) := rfl

@[simp] theorem start_throw (error : Error) : start (throw error : InPlace α) document = (.error error, document) := rfl

@[simp] theorem start_ofExcept (result : Except Error α) :
    start (ofExcept result) document = (result, document) := by
  cases result <;> rfl

/-- What comes next works on the document as it is by then, unless there was a failure. -/
@[simp] theorem start_bind (work : InPlace α) (next : α → InPlace β) :
    start (work >>= next) document =
      match start work document with
      | (.error error, after) => (.error error, after)
      | (.ok result, after) => start (next result) after := by
  simp only [start, ExceptT.run_bind, StateT.run_bind, Id.run_bind]
  cases Id.run (work.run.run document) with
  | mk result after => cases result <;> rfl

end InPlace

/-! ### One field set -/

namespace Value

/-- `after` is the document `before` with the value `new` for the field: in the place of the old one, or behind all
others. A null, tagged or not, counts as a mapping without fields; of any mapping the tags stay, and so do all other
fields and their order. -/
structure FieldSet (name : String) (new before after : Value) : Prop where
  holds : before.Holds
  frame : SameFrame before after
  fields : (∃ old, Entries.Replaced (.string name) old new before.fields after.fields) ∨
    (before.get? name = none ∧ after.fields = before.fields ++ [(.string name, new)])

theorem fieldSet_setField {before : Value} (h : before.Holds) (name : String) (new : Value) :
    FieldSet name new before (before.setField name new) where
  holds := h
  frame := sameFrame_setField h new
  fields := by
    rw [fields_setField h]
    cases hget : before.get? name with
    | some old =>
        rw [get?_eq_lookup?_fields] at hget
        exact .inl ⟨old, (Entries.replaced_iff (exact_string name)).2 ⟨hget, rfl⟩⟩
    | none =>
        refine .inr ⟨rfl, ?_⟩
        rw [get?_eq_lookup?_fields] at hget
        exact Entries.put_of_get?_eq_none new hget

end Value

namespace Attribute

open InPlace (start)

/-! ### Merging -/

/-- The attributes of the rule in its place, which becomes a mapping first if it is null. -/
def openInPlace (rule : String) : InPlace (List (Value × Value)) := do
  if (← get).isNull then
    set (Value.mapping [])
  match ← get with
  | .mapping attributes => return attributes
  | _ => throw (.notAttributeMapping rule)

/-- Set an attribute of the rule in its place. -/
def setInPlace (rule name : String) (value : Value) : InPlace Unit := do
  let attributes ← openInPlace rule
  set (Value.mapping (Value.put (.string name) value attributes))

/-- Merge the attribute into the rule in its place. -/
def mergeInPlace (rule name : String) (change : Attribute) : InPlace Unit := do
  match change with
  | .reference => return
  | .plain value => setInPlace rule name value
  | .suggestions keys =>
    match ((← get).get? suggestionsName).bind Value.entries? with
    | none => throw (.missingSuggestions rule suggestionsName)
    | some base =>
      let rebound ← ofExcept (rebind rule suggestionsName base keys)
      setInPlace rule suggestionsName rebound
  | .mosaique keys =>
    match (((← get).get? mosaiqueName).bind (·.get? suggestionsName)).bind Value.entries? with
    | none => throw (.missingSuggestions rule nestedPath)
    | some base =>
      let rebound ← ofExcept (rebind rule nestedPath base keys)
      match (← get).get? mosaiqueName with
      | some (.mapping fields) =>
        modify (Value.mapEntries (Value.put (.string mosaiqueName)
          (.mapping (Value.put (.string suggestionsName) rebound fields))))
      | _ => throw (.missingSuggestions rule nestedPath)

/-- What is left of a document by work that has the effect of a function: its result, or the document itself. -/
def outcome (result : Except Error Value) (document : Value) : Except Error Unit × Value :=
  match result with
  | .error error => (.error error, document)
  | .ok after => (.ok (), after)

/-- A null is written to before it is asked whether the rule takes attributes, but then it does. -/
theorem start_setInPlace (rule name : String) (value target : Value) :
    start (setInPlace rule name value) target = outcome (setAttribute rule name value target) target := by
  unfold setAttribute attributesOf
  cases hnull : target.isNull with
  | true =>
      simp [setInPlace, openInPlace, hnull, outcome, Except.map]
  | false =>
      cases target <;> simp [setInPlace, openInPlace, hnull, outcome, Except.map]

/-- The merge in its place does what the function says, and a failure leaves the document as it was. -/
theorem start_mergeInPlace (rule name : String) (change : Attribute) (target : Value) :
    start (change.mergeInPlace rule name) target = outcome (change.merge rule name target) target := by
  cases change with
  | reference => rfl
  | plain value => exact start_setInPlace rule name value target
  | suggestions keys =>
      unfold mergeInPlace merge
      simp only [InPlace.start_bind, InPlace.start_get]
      cases (target.get? suggestionsName).bind Value.entries? with
      | none => rfl
      | some base =>
          simp only [InPlace.start_bind, InPlace.start_ofExcept]
          cases rebind rule suggestionsName base keys with
          | error error => rfl
          | ok rebound => exact start_setInPlace rule suggestionsName rebound target
  | mosaique keys =>
      unfold mergeInPlace merge
      simp only [InPlace.start_bind, InPlace.start_get]
      cases ((target.get? mosaiqueName).bind (·.get? suggestionsName)).bind Value.entries? with
      | none => rfl
      | some base =>
          simp only [InPlace.start_bind, InPlace.start_ofExcept, InPlace.start_get]
          cases rebind rule nestedPath base keys with
          | error error => rfl
          | ok rebound =>
              dsimp only
              cases target.get? mosaiqueName with
              | none => rfl
              | some mosaique => cases mosaique <;> rfl

/-! ### What a merge changes -/

/-- What a merge that succeeds makes of the rule `before`: nothing else than the one field that the attribute is for. -/
inductive Changes (rule name : String) (before : Value) : Attribute → Value → Prop where
  /-- Nothing. -/
  | reference : Changes rule name before .reference before
  /-- The attribute of the name has the value. -/
  | plain {value after : Value} (h : Value.FieldSet name value before after) :
      Changes rule name before (.plain value) after
  /-- The suggestions have the keys. -/
  | suggestions {keys : List String} {old rebound after : Value} {base : List (Value × Value)}
      (hold : before.get? suggestionsName = some old) (hbase : old.entries? = some base)
      (hrebound : rebind rule suggestionsName base keys = .ok rebound)
      (h : Value.FieldSet suggestionsName rebound before after) : Changes rule name before (.suggestions keys) after
  /-- The suggestions of the mosaique have the keys; the mosaique is a mapping without a tag. -/
  | mosaique {keys : List String} {fields base : List (Value × Value)} {old rebound mosaique after : Value}
      (hmosaique : before.get? mosaiqueName = some (.mapping fields))
      (hold : (Value.mapping fields).get? suggestionsName = some old) (hbase : old.entries? = some base)
      (hrebound : rebind rule nestedPath base keys = .ok rebound)
      (hnested : Value.FieldSet suggestionsName rebound (.mapping fields) mosaique)
      (h : Value.FieldSet mosaiqueName mosaique before after) : Changes rule name before (.mosaique keys) after

variable {rule name : String} {target after : Value}

theorem fieldSet_of_setAttribute {value : Value} (h : setAttribute rule name value target = .ok after) :
    Value.FieldSet name value target after := by
  rw [setAttribute_eq] at h
  by_cases htakes : target.offer.takesAttributes = true
  · rw [if_pos htakes] at h
    obtain rfl := Except.ok.inj h
    exact Value.fieldSet_setField (Value.holds_of_takesAttributes htakes) name value
  · rw [if_neg htakes] at h
    cases h

/-- Both ways of rebinding suggestions that succeed have found a mapping of them and as many keys. -/
theorem exists_of_rebind {path : String} {keys : List String} {old : Option Value}
    {finish : Value → Except Error Value}
    (h : (match old.bind Value.entries? with
      | none => Except.error (Error.missingSuggestions rule path)
      | some base =>
        match rebind rule path base keys with
        | .error error => .error error
        | .ok rebound => finish rebound) = .ok after) :
    ∃ value base rebound, old = some value ∧ value.entries? = some base ∧
      rebind rule path base keys = .ok rebound ∧ finish rebound = .ok after := by
  cases hbase : old.bind Value.entries? with
  | none => simp [hbase] at h
  | some base =>
      obtain ⟨value, hvalue, hentries⟩ := Option.bind_eq_some_iff.1 hbase
      simp only [hbase] at h
      cases hrebound : rebind rule path base keys with
      | error error => simp [hrebound] at h
      | ok rebound =>
          rw [hrebound] at h
          exact ⟨value, base, rebound, hvalue, hentries, hrebound, h⟩

theorem merge_changes {change : Attribute} (h : change.merge rule name target = .ok after) :
    Changes rule name target change after := by
  cases change with
  | reference =>
      obtain rfl := Except.ok.inj h
      exact .reference
  | plain value => exact .plain (fieldSet_of_setAttribute h)
  | suggestions keys =>
      obtain ⟨old, base, rebound, hold, hbase, hrebound, hset⟩ := exists_of_rebind h
      exact .suggestions hold hbase hrebound (fieldSet_of_setAttribute hset)
  | mosaique keys =>
      obtain ⟨old, base, rebound, hfound, hbase, hrebound, hset⟩ := exists_of_rebind h
      obtain ⟨mosaique, hmosaique, hold⟩ := Option.bind_eq_some_iff.1 hfound
      rw [hmosaique] at hset
      -- The suggestions were found below tags that the last test does not look through.
      cases mosaique with
      | mapping fields =>
          have hn : target.isNull = false := Value.isNull_of_get? hmosaique
          have hholds : target.Holds := Value.holds_of_get? (by rw [hmosaique]; rfl)
          have hafter : after =
              target.setField mosaiqueName ((Value.mapping fields).setField suggestionsName rebound) := by
            rw [Value.setField.eq_1 target, Value.opened_of_not_isNull hn]
            exact (Except.ok.inj hset).symm
          have hfields : (Value.mapping fields).Holds := Value.holds_of_entries? rfl
          have hnested := Value.fieldSet_setField hfields suggestionsName rebound
          rw [hafter]
          exact .mosaique hmosaique hold hbase hrebound hnested (Value.fieldSet_setField hholds mosaiqueName _)
      | _ => cases hset

/-- **A merge that fails has changed nothing.** Take any attribute, whether it was read or not, any names and any
document. If the merge fails in its place, then for the reason for which `merge` fails, and the document is what it was,
down to the order of keys and to tags. If it succeeds, the document is what `merge` gives, which differs from what it
was in no more than the one field that the attribute is for. -/
theorem mergeInPlace_atomic (rule name : String) (change : Attribute) (target : Value) :
    match start (change.mergeInPlace rule name) target with
    | (.error error, after) => after = target ∧ change.merge rule name target = .error error
    | (.ok _, after) => Changes rule name target change after ∧ change.merge rule name target = .ok after := by
  rw [start_mergeInPlace]
  cases hmerge : change.merge rule name target with
  | error error => exact ⟨rfl, rfl⟩
  | ok after => exact ⟨merge_changes hmerge, rfl⟩

end Attribute

end Rulebook
