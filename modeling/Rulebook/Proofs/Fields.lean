import Rulebook.Proofs.Entries

/-!
# Fields of a value

A rule that can hold attributes is a mapping, possibly below tags, or null, which stands for a rule without any.
This module provides:

* `Value.fields` — the entries of such a value, with look-up by name read off them;
* `Value.opened` — the value with a mapping in place of null, the form that every change starts from; and
* `Value.setField` — one field set, with the laws of a map: what it says about look-up, what a second setting
  does, and that the tags around the fields stay.
-/

namespace Rulebook

namespace Value

theorem exact_string (name : String) : Entries.Exact same (.string name) :=
  fun v => same_string_iff name v

theorem exact_string_ne {name other : String} (hne : name ≠ other) :
    Value.string name ≠ Value.string other :=
  fun h => hne (Value.string.inj h)

/-! ### Entries below tags -/

theorem entries?_mapEntries (change : List (Value × Value) → List (Value × Value)) :
    ∀ v : Value, (v.mapEntries change).entries? = v.entries?.map change
  | .mapping _ => rfl
  | .tagged _ content => entries?_mapEntries change content
  | .null => rfl
  | .bool _ => rfl
  | .number _ => rfl
  | .string _ => rfl
  | .list _ => rfl

theorem mapEntries_mapEntries (first second : List (Value × Value) → List (Value × Value)) :
    ∀ v : Value, (v.mapEntries first).mapEntries second = v.mapEntries fun es => second (first es)
  | .mapping _ => rfl
  | .tagged tag content => congrArg (Value.tagged tag) (mapEntries_mapEntries first second content)
  | .null => rfl
  | .bool _ => rfl
  | .number _ => rfl
  | .string _ => rfl
  | .list _ => rfl

/-- Only what a change does to the entries that are there counts. -/
theorem mapEntries_congr {first second : List (Value × Value) → List (Value × Value)} :
    ∀ {v : Value}, (∀ es, v.entries? = some es → first es = second es) →
      v.mapEntries first = v.mapEntries second
  | .mapping es, h => congrArg Value.mapping (h es rfl)
  | .tagged tag content, h =>
      congrArg (Value.tagged tag) (mapEntries_congr (v := content) fun es hes => h es hes)
  | .null, _ => rfl
  | .bool _, _ => rfl
  | .number _, _ => rfl
  | .string _, _ => rfl
  | .list _, _ => rfl

/-- What is null, under tags or not, has no entries. -/
theorem entries?_of_isNull {v : Value} (h : v.isNull = true) : v.entries? = none := by
  unfold isNull at h
  unfold entries?
  split at h <;> simp_all

theorem isNull_of_entries? {v : Value} {es : List (Value × Value)} (h : v.entries? = some es) :
    v.isNull = false := by
  cases hn : v.isNull with
  | false => rfl
  | true =>
      rw [entries?_of_isNull hn] at h
      cases h

/-! ### Fields -/

/-- The entries of a mapping, possibly tagged; any other value has none. -/
def fields (v : Value) : List (Value × Value) :=
  v.entries?.getD []

theorem fields_of_entries? {v : Value} {es : List (Value × Value)} (h : v.entries? = some es) :
    v.fields = es := by
  rw [fields, h, Option.getD_some]

/-- To put the fields that a value has where they are changes nothing. -/
theorem mapEntries_fields : ∀ v : Value, v.mapEntries (fun _ => v.fields) = v
  | .mapping _ => rfl
  | .tagged tag content => congrArg (Value.tagged tag) (mapEntries_fields content)
  | .null => rfl
  | .bool _ => rfl
  | .number _ => rfl
  | .string _ => rfl
  | .list _ => rfl

theorem get?_eq_lookup?_fields (v : Value) (name : String) : v.get? name = lookup? (.string name) v.fields := by
  unfold get? fields
  cases v.entries? <;> rfl

theorem contains_fields (v : Value) (name : String) :
    Entries.contains same (.string name) v.fields = (v.get? name).isSome := by
  rw [get?_eq_lookup?_fields]
  rfl

/-- The value that changes of fields start from: null, tagged or not, becomes the empty mapping. -/
def opened (v : Value) : Value :=
  if v.isNull then .mapping [] else v

/-- The value holds attributes or is null, below tags or not. -/
def Holds (v : Value) : Prop :=
  v.opened.isMapping = true

theorem opened_of_not_isNull {v : Value} (h : v.isNull = false) : v.opened = v := by
  rw [opened, h, if_neg Bool.false_ne_true]

theorem opened_of_isNull {v : Value} (h : v.isNull = true) : v.opened = .mapping [] := by
  rw [opened, h, if_pos rfl]

theorem entries?_opened {v : Value} (h : v.Holds) : v.opened.entries? = some v.fields := by
  cases hn : v.isNull with
  | true =>
      rw [opened_of_isNull hn, fields, entries?_of_isNull hn]
      rfl
  | false =>
      rw [Holds, opened_of_not_isNull hn, isMapping, Option.isSome_iff_exists] at h
      obtain ⟨es, hes⟩ := h
      rw [opened_of_not_isNull hn, hes, fields_of_entries? hes]

theorem holds_of_entries? {v : Value} {es : List (Value × Value)} (h : v.entries? = some es) : v.Holds := by
  rw [Holds, opened_of_not_isNull (isNull_of_entries? h), isMapping, h]
  rfl

theorem holds_of_get? {v : Value} {name : String} (h : (v.get? name).isSome = true) : v.Holds := by
  cases hv : v.entries? with
  | some es => exact holds_of_entries? hv
  | none =>
      rw [get?, hv] at h
      cases h

theorem isNull_of_get? {v found : Value} {name : String} (h : v.get? name = some found) : v.isNull = false := by
  cases hv : v.entries? with
  | some es => exact isNull_of_entries? hv
  | none =>
      rw [get?, hv] at h
      cases h

/-- A string. -/
def isText : Value → Bool
  | .string _ => true
  | _ => false

/-! ### One field set -/

/-- The value with a field set: in place if the field is there, else as the last one. -/
def setField (v : Value) (name : String) (value : Value) : Value :=
  v.opened.mapEntries (put (.string name) value)

variable {v : Value} {name other : String}

theorem entries?_setField (h : v.Holds) (value : Value) :
    (v.setField name value).entries? = some (put (.string name) value v.fields) := by
  rw [setField, entries?_mapEntries, entries?_opened h, Option.map_some]

theorem fields_setField (h : v.Holds) (value : Value) :
    (v.setField name value).fields = put (.string name) value v.fields :=
  fields_of_entries? (entries?_setField h value)

theorem isNull_setField (h : v.Holds) (value : Value) : (v.setField name value).isNull = false :=
  isNull_of_entries? (entries?_setField h value)

/-- A field that was set is no longer in need of opening. -/
theorem opened_setField (h : v.Holds) (value : Value) :
    (v.setField name value).opened = v.setField name value :=
  opened_of_not_isNull (isNull_setField h value)

theorem get?_setField_self (h : v.Holds) (value : Value) : (v.setField name value).get? name = some value := by
  rw [get?_eq_lookup?_fields, fields_setField h]
  exact Entries.get?_put_self (exact_string name) value v.fields

theorem get?_setField_of_ne (h : v.Holds) (hne : name ≠ other) (value : Value) :
    (v.setField name value).get? other = v.get? other := by
  rw [get?_eq_lookup?_fields, get?_eq_lookup?_fields, fields_setField h]
  exact Entries.get?_put_of_ne (exact_string name) (exact_string other) (exact_string_ne hne) value v.fields

theorem setField_setField (h : v.Holds) (first value : Value) :
    (v.setField other first).setField name value =
      v.opened.mapEntries fun es => put (.string name) value (put (.string other) first es) := by
  rw [setField.eq_1 (v.setField other first), opened_setField h]
  exact mapEntries_mapEntries _ _ _

/-- Of two settings of one field the second stands. -/
theorem setField_setField_self (h : v.Holds) (first value : Value) :
    (v.setField name first).setField name value = v.setField name value := by
  rw [setField_setField h]
  exact mapEntries_congr fun es _ => Entries.put_put_self (exact_string name) value first es

/-- Settings of two fields may change places if the first field is there already. -/
theorem setField_comm (hne : name ≠ other) (hget : (v.get? name).isSome = true) (value second : Value) :
    (v.setField other second).setField name value = (v.setField name value).setField other second := by
  have h : v.Holds := holds_of_get? hget
  rw [get?_eq_lookup?_fields] at hget
  rw [setField_setField h, setField_setField h]
  refine mapEntries_congr fun es hes => ?_
  rw [entries?_opened h, Option.some.injEq] at hes
  subst hes
  exact Entries.put_comm (exact_string name) (exact_string other) (exact_string_ne hne) value second hget

/-! ### The frame around the fields -/

/-- `after` has the tags of `before`, with other fields inside; of a null, tagged or not, no tag is left. -/
def SameFrame (before after : Value) : Prop :=
  after = before.opened.mapEntries fun _ => after.fields

theorem sameFrame_setField (h : v.Holds) (value : Value) : SameFrame v (v.setField name value) := by
  rw [SameFrame, fields_setField h, setField]
  refine mapEntries_congr fun es hes => ?_
  rw [entries?_opened h, Option.some.injEq] at hes
  rw [hes]

/-- Frames compose once the value in the middle is no null. -/
theorem SameFrame.trans {first second third : Value} (h₁ : SameFrame first second)
    (h₂ : SameFrame second third) (hn : second.isNull = false) : SameFrame first third := by
  rw [SameFrame, opened_of_not_isNull hn] at h₂
  rw [SameFrame]
  calc third = second.mapEntries fun _ => third.fields := h₂
    _ = (first.opened.mapEntries fun _ => second.fields).mapEntries fun _ => third.fields := by rw [← h₁]
    _ = first.opened.mapEntries fun _ => third.fields := mapEntries_mapEntries _ _ _

end Value

end Rulebook
