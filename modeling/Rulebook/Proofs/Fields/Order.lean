import Rulebook.Proofs.Fields

/-!
# Fields set in another order

Fields of different names can be set in any order. The fields that the value had before keep their places, so they come
out the same; those that are new stand behind them, in the order in which they were set. This module provides:

* `Value.putAll` and `Value.setFields` — several fields set, one after the other;
* `Value.putAll_split` — the fields that are there are changed, and the others follow; and
* `Value.upToNew_setFields` — in whatever order they are set, the results are the same up to the order of the fields
  that are new (`Value.UpToNew`).
-/

namespace Rulebook

namespace Value

variable {fields more : List (Value × Value)} {given other : List (String × Value)}

/-- Is there a field of the name? -/
def hasField (fields : List (Value × Value)) (name : String) : Bool :=
  Entries.contains same (.string name) fields

/-- The fields with others put among them, one after the other. -/
def putAll (given : List (String × Value)) (fields : List (Value × Value)) : List (Value × Value) :=
  given.foldl (fun fields item => put (.string item.1) item.2 fields) fields

theorem putAll_cons (name : String) (value : Value) (given : List (String × Value)) (fields : List (Value × Value)) :
    putAll ((name, value) :: given) fields = putAll given (put (.string name) value fields) :=
  rfl

/-! ### Which fields there are -/

theorem hasField_put_of_ne {name other : String} (hne : name ≠ other) (value : Value) :
    hasField (put (.string name) value fields) other = hasField fields other :=
  congrArg Option.isSome
    (Entries.get?_put_of_ne (exact_string name) (exact_string other) (exact_string_ne hne) value fields)

/-- To change a field that is there leaves the fields that there are. -/
theorem hasField_put_of_hasField {name : String} (h : hasField fields name = true) (value : Value) (other : String) :
    hasField (put (.string name) value fields) other = hasField fields other := by
  by_cases hname : name = other
  · subst hname
    rw [h, hasField, Entries.contains, Entries.get?_put_self (exact_string name)]
    rfl
  · exact hasField_put_of_ne hname value

theorem put_of_hasField_eq_false {name : String} (h : hasField fields name = false) (value : Value) :
    put (.string name) value fields = fields ++ [(.string name, value)] :=
  Entries.put_of_get?_eq_none value (Option.not_isSome_iff_eq_none.1 (Bool.eq_false_iff.1 h))

/-! ### Fields that are there -/

/-- Every one of the fields is there. -/
def AllThere (given : List (String × Value)) (fields : List (Value × Value)) : Prop :=
  ∀ item ∈ given, hasField fields item.1 = true

theorem AllThere.tail {name : String} {value : Value} (h : AllThere ((name, value) :: given) fields) :
    AllThere given (put (.string name) value fields) := by
  intro item hitem
  rw [hasField_put_of_hasField (h _ List.mem_cons_self)]
  exact h item (List.mem_cons_of_mem _ hitem)

theorem putAll_append (h : AllThere given fields) : putAll given (fields ++ more) = putAll given fields ++ more := by
  induction given generalizing fields with
  | nil => rfl
  | cons item rest ih =>
      obtain ⟨name, value⟩ := item
      have hname : Entries.contains same (.string name) fields = true := h _ List.mem_cons_self
      have hput : put (.string name) value (fields ++ more) = put (.string name) value fields ++ more :=
        Entries.put_append hname value more
      rw [putAll_cons, putAll_cons, hput, ih h.tail]

theorem map_fst_putAll (h : AllThere given fields) : (putAll given fields).map Prod.fst = fields.map Prod.fst := by
  induction given generalizing fields with
  | nil => rfl
  | cons item rest ih =>
      obtain ⟨name, value⟩ := item
      have hname : Entries.contains same (.string name) fields = true := h _ List.mem_cons_self
      rw [putAll_cons, ih h.tail, Entries.map_fst_put, if_pos hname, List.append_nil]

/-- Fields that are there can be changed in any order. -/
theorem putAll_perm (hperm : given.Perm other) (hnodup : (given.map Prod.fst).Nodup) (h : AllThere given fields) :
    putAll given fields = putAll other fields := by
  induction hperm generalizing fields with
  | nil => rfl
  | cons item _ ih => exact ih (List.nodup_cons.1 hnodup).2 h.tail
  | swap first second rest =>
      have hne : first.1 ≠ second.1 := by
        intro heq
        simp [heq] at hnodup
      have hthere : (lookup? (.string first.1) fields).isSome = true :=
        h first (List.mem_cons_of_mem _ List.mem_cons_self)
      -- The field that is put first in one order is there already, so it is not appended in the other.
      have hcomm := Entries.put_comm (exact_string first.1) (exact_string second.1) (exact_string_ne hne) first.2
        second.2 hthere
      exact congrArg (putAll rest) hcomm
  | trans h₁ _ ih₁ ih₂ =>
      rw [ih₁ hnodup h]
      exact ih₂ ((h₁.map Prod.fst).nodup_iff.1 hnodup) fun item hitem => h item (h₁.mem_iff.2 hitem)

/-! ### Fields that are there and fields that are new -/

/-- The fields of the names that are there. -/
def thereIn (fields : List (Value × Value)) (given : List (String × Value)) : List (String × Value) :=
  given.filter fun item => hasField fields item.1

/-- The fields of the other names, as they are appended. -/
def newIn (fields : List (Value × Value)) (given : List (String × Value)) : List (Value × Value) :=
  (given.filter fun item => !hasField fields item.1).map fun item => (.string item.1, item.2)

theorem allThere_thereIn (fields : List (Value × Value)) (given : List (String × Value)) :
    AllThere (thereIn fields given) fields :=
  fun _ hitem => (List.mem_filter.1 hitem).2

/-- Fields of different names: those that are there are changed in their places, and the others follow. -/
theorem putAll_split (hnodup : (given.map Prod.fst).Nodup) (fields : List (Value × Value)) :
    putAll given fields = putAll (thereIn fields given) fields ++ newIn fields given := by
  induction given generalizing fields with
  | nil => exact (List.append_nil fields).symm
  | cons item rest ih =>
      obtain ⟨name, value⟩ := item
      obtain ⟨hfresh, hrest⟩ := List.nodup_cons.1 hnodup
      -- What is there of the rest is not changed by a field of another name.
      have hsame : ∀ other ∈ rest,
          hasField (put (.string name) value fields) other.1 = hasField fields other.1 := by
        intro other hother
        refine hasField_put_of_ne (fun heq => hfresh ?_) value
        exact List.mem_map.2 ⟨other, hother, heq.symm⟩
      have hthere : thereIn (put (.string name) value fields) rest = thereIn fields rest :=
        List.filter_congr hsame
      have hnew : newIn (put (.string name) value fields) rest = newIn fields rest :=
        congrArg _ (List.filter_congr fun other hother => congrArg not (hsame other hother))
      rw [putAll_cons, ih hrest, hthere, hnew]
      by_cases hname : hasField fields name = true
      · have hfirst : thereIn fields ((name, value) :: rest) = (name, value) :: thereIn fields rest :=
          List.filter_cons_of_pos hname
        have hothers : newIn fields ((name, value) :: rest) = newIn fields rest := by
          unfold newIn
          rw [List.filter_cons_of_neg (by simp [hname])]
        rw [hfirst, hothers, putAll_cons]
      · rw [Bool.not_eq_true] at hname
        have hothers : thereIn fields ((name, value) :: rest) = thereIn fields rest :=
          List.filter_cons_of_neg (by simp [hname])
        have hfirst : newIn fields ((name, value) :: rest) = (.string name, value) :: newIn fields rest := by
          unfold newIn
          rw [List.filter_cons_of_pos (by simp [hname]), List.map_cons]
        rw [hothers, hfirst, put_of_hasField_eq_false hname, putAll_append (allThere_thereIn fields rest),
          List.append_assoc, List.singleton_append]

/-- In another order: what was there is the same, and the others are the same up to their order. -/
theorem putAll_reordered (hperm : given.Perm other) (hnodup : (given.map Prod.fst).Nodup)
    (fields : List (Value × Value)) :
    ∃ kept new new', putAll given fields = kept ++ new ∧ putAll other fields = kept ++ new' ∧
      kept.map Prod.fst = fields.map Prod.fst ∧ new.Perm new' := by
  have hthere : (thereIn fields given).Perm (thereIn fields other) := hperm.filter _
  have hnew : (newIn fields given).Perm (newIn fields other) := (hperm.filter _).map _
  have hnames : ((thereIn fields given).map Prod.fst).Nodup := hnodup.sublist (List.filter_sublist.map Prod.fst)
  have hnodup' : (other.map Prod.fst).Nodup := (hperm.map Prod.fst).nodup_iff.1 hnodup
  refine ⟨putAll (thereIn fields given) fields, newIn fields given, newIn fields other, putAll_split hnodup fields, ?_,
    map_fst_putAll (allThere_thereIn fields given), hnew⟩
  rw [putAll_split hnodup', putAll_perm hthere hnames (allThere_thereIn fields given)]

/-! ### Values -/

/-- What `first` and `second`, which both came of `before`, have in common: they are the same but for the order of the
fields that `before` does not have. -/
structure UpToNew (before first second : Value) : Prop where
  /-- The tags around the fields are the same, and so is a value without fields. -/
  frame : second = first.mapEntries fun _ => second.fields
  /-- The fields that were there come first and are the same, in their places; the new ones are the same in some
  order. -/
  fields : ∃ kept new new', first.fields = kept ++ new ∧ second.fields = kept ++ new' ∧
    kept.map Prod.fst = before.fields.map Prod.fst ∧ new.Perm new'

theorem UpToNew.refl (v : Value) : UpToNew v v v where
  frame := (mapEntries_fields v).symm
  fields := ⟨v.fields, [], [], (List.append_nil _).symm, (List.append_nil _).symm, rfl, .nil⟩

/-- The value with fields set, one after the other. -/
def setFields (v : Value) (given : List (String × Value)) : Value :=
  given.foldl (fun v item => v.setField item.1 item.2) v

theorem setFields_append (v : Value) (given other : List (String × Value)) :
    v.setFields (given ++ other) = (v.setFields given).setFields other :=
  List.foldl_append

variable {v : Value}

theorem holds_setField (h : v.Holds) (name : String) (value : Value) : (v.setField name value).Holds :=
  holds_of_entries? (entries?_setField h value)

theorem fields_setFields (h : v.Holds) (given : List (String × Value)) :
    (v.setFields given).fields = putAll given v.fields := by
  induction given generalizing v with
  | nil => rfl
  | cons item rest ih =>
      have hrest := ih (holds_setField h item.1 item.2)
      rwa [fields_setField h] at hrest

theorem sameFrame_setFields (h : v.Holds) (item : String × Value) (rest : List (String × Value)) :
    SameFrame v (v.setFields (item :: rest)) := by
  induction rest generalizing v item with
  | nil => exact sameFrame_setField h item.2
  | cons next rest ih =>
      -- After the first field the value is no null, so the frames compose.
      have hfirst : SameFrame v (v.setField item.1 item.2) := sameFrame_setField h item.2
      exact hfirst.trans (ih (holds_setField h item.1 item.2) next) (isNull_setField h item.2)

/-- Two values in the frame of one are in each other's. -/
theorem SameFrame.eq_mapEntries {first second : Value} (h₁ : SameFrame v first) (h₂ : SameFrame v second) :
    second = first.mapEntries fun _ => second.fields := by
  calc second = v.opened.mapEntries fun _ => second.fields := h₂
    _ = (v.opened.mapEntries fun _ => first.fields).mapEntries fun _ => second.fields :=
        (mapEntries_mapEntries (fun _ => first.fields) (fun _ => second.fields) v.opened).symm
    _ = first.mapEntries fun _ => second.fields := by rw [← h₁]

/-- Fields of different names, set in any order. -/
theorem upToNew_setFields (h : given ≠ [] → v.Holds) (hnodup : (given.map Prod.fst).Nodup) (hperm : given.Perm other) :
    UpToNew v (v.setFields given) (v.setFields other) := by
  by_cases hgiven : given = []
  · subst hgiven
    obtain rfl := List.nil_perm.1 hperm
    exact .refl v
  · have hother : other ≠ [] := by
      intro heq
      subst heq
      exact hgiven hperm.eq_nil
    obtain ⟨item, rest, rfl⟩ := List.exists_cons_of_ne_nil hgiven
    obtain ⟨item', rest', rfl⟩ := List.exists_cons_of_ne_nil hother
    have hv : v.Holds := h hgiven
    constructor
    · exact (sameFrame_setFields hv item rest).eq_mapEntries (sameFrame_setFields hv item' rest')
    · rw [fields_setFields hv, fields_setFields hv]
      exact putAll_reordered hperm hnodup v.fields

end Value

end Rulebook
