import Rulebook.Proofs.Offer
import Rulebook.Proofs.Outcome

/-!
# What a list of keys is read as

`Attribute.readKeys` goes through a list once, counts its items and remembers the texts that it has met. None of this
shows in what it gives, which can be told from the texts of the items alone. This module provides:

* `KeyFault` and `FirstKeyFault` — what is wrong with one item of a list, and with the first with which something is;
* `readKeys_eq_error_iff` — reading fails for that fault, or for want of a list;
* `rebind_of_texts` — keys that were read take the place of as many others, and no value is lost; and
* `readKeys_exact` — all that there is to know of reading.
-/

namespace Rulebook

namespace Attribute

open Overlay (Error)

variable {rule path : String}

/-! ### Faults -/

/-- What is wrong with the item at a position, by the texts of all items: it has none, or an item before it has the
same. -/
inductive KeyFault (rule path : String) (texts : List (Option String)) (index : Nat) : Error → Prop where
  /-- The item is no scalar. -/
  | noText (htext : texts[index]? = some none) : KeyFault rule path texts index (.invalidKey rule path index)
  /-- The text stands before. -/
  | repeated {key : String} {earlier : Nat} (htext : texts[index]? = some (some key)) (hearlier : earlier < index)
      (hsame : texts[earlier]? = some (some key)) : KeyFault rule path texts index (.duplicateKey rule path key)

/-- What is wrong at the least position at which something is. -/
def FirstKeyFault (rule path : String) (texts : List (Option String)) (error : Error) : Prop :=
  ∃ index, KeyFault rule path texts index error ∧ ∀ earlier < index, ∀ other, ¬ KeyFault rule path texts earlier other

section Faults

variable {texts : List (Option String)} {index : Nat} {error other : Error}

/-- Only one thing can be wrong with an item. -/
theorem KeyFault.unique (h : KeyFault rule path texts index error) (hother : KeyFault rule path texts index other) :
    error = other := by
  cases h with
  | noText htext =>
      cases hother with
      | noText _ => rfl
      | repeated htext' => simp [htext] at htext'
  | repeated htext _ _ =>
      cases hother with
      | noText htext' => simp [htext] at htext'
      | repeated htext' _ _ =>
          rw [htext, Option.some.injEq, Option.some.injEq] at htext'
          rw [htext']

theorem FirstKeyFault.unique (h : FirstKeyFault rule path texts error) (hother : FirstKeyFault rule path texts other) :
    error = other := by
  obtain ⟨index, hfault, hfirst⟩ := h
  obtain ⟨index', hfault', hfirst'⟩ := hother
  rcases Nat.lt_trichotomy index index' with hlt | rfl | hlt
  · exact absurd hfault (hfirst' index hlt error)
  · exact hfault.unique hfault'
  · exact absurd hfault' (hfirst index' hlt other)

/-- Different texts are at fault nowhere. -/
theorem not_keyFault {keys : List String} (hnodup : keys.Nodup) :
    ¬ KeyFault rule path (keys.map some) index error := by
  intro h
  cases h with
  | noText htext => simp [List.getElem?_map] at htext
  | @repeated key earlier htext hearlier hsame =>
      have hhere : keys[index]? = some key := by simpa [List.getElem?_map] using htext
      have hthere : keys[earlier]? = some key := by simpa [List.getElem?_map] using hsame
      obtain ⟨hbound, -⟩ := List.getElem?_eq_some_iff.1 hthere
      have hsamePlace : earlier = index := (List.getElem?_inj hbound hnodup).1 (hthere.trans hhere.symm)
      omega

/-- Nor is a text that is not among those before it. -/
theorem not_keyFault_of_fresh {before after : List (Option String)} {key : String} (hfresh : some key ∉ before) :
    ¬ KeyFault rule path (before ++ some key :: after) before.length error := by
  intro h
  cases h with
  | noText htext => simp at htext
  | repeated htext hearlier hsame =>
      rw [List.getElem?_append_left hearlier] at hsame
      simp at htext
      exact hfresh (htext ▸ List.mem_of_getElem? hsame)

end Faults

/-! ### Reading -/

/-- The reader fails at the first item that is at fault. Among the texts before there is no fault yet, and they are the
ones that it has seen. -/
theorem readKeysFrom_eq_error (before : List (Option String)) {seen : List String} {items : List Value} {error : Error}
    (hseen : ∀ key, key ∈ seen ↔ some key ∈ before)
    (hclean : ∀ earlier < before.length, ∀ other,
      ¬ KeyFault rule path (before ++ items.map Value.keyText?) earlier other)
    (h : readKeysFrom rule path before.length seen items = .error error) :
    FirstKeyFault rule path (before ++ items.map Value.keyText?) error := by
  induction items generalizing before seen with
  | nil => cases h
  | cons item rest ih =>
      rw [readKeysFrom] at h
      rw [List.map_cons] at hclean ⊢
      cases htext : item.keyText? with
      | none =>
          rw [htext] at h hclean
          obtain rfl := Except.error.inj h
          exact ⟨before.length, .noText (by simp), hclean⟩
      | some key =>
          rw [htext] at h hclean
          dsimp only at h
          by_cases hmem : key ∈ seen
          · rw [if_pos hmem] at h
            obtain rfl := Except.error.inj h
            obtain ⟨earlier, hsame⟩ := List.mem_iff_getElem?.1 ((hseen key).1 hmem)
            obtain ⟨hbound, -⟩ := List.getElem?_eq_some_iff.1 hsame
            refine ⟨before.length, .repeated (by simp) hbound ?_, hclean⟩
            rw [List.getElem?_append_left hbound, hsame]
          · -- The text joins those before, and is at fault no more than they are.
            rw [if_neg hmem] at h
            have hrest := map_eq_error_iff.1 h
            have hfresh : some key ∉ before := fun hbefore => hmem ((hseen key).2 hbefore)
            have hlength : (before ++ [some key]).length = before.length + 1 := by simp
            rw [List.append_cons] at hclean ⊢
            rw [← hlength] at hrest
            refine ih _ (fun other => ?_) (fun earlier hearlier other => ?_) hrest
            · simp [hseen, or_comm]
            · rw [hlength] at hearlier
              rcases Nat.lt_succ_iff_lt_or_eq.1 hearlier with hlt | rfl
              · exact hclean earlier hlt other
              · rw [← List.append_cons]
                exact not_keyFault_of_fresh hfresh

/-- Reading fails for want of a list, or for the first fault in it. -/
theorem readKeys_eq_error_iff {value : Value} {error : Error} :
    readKeys rule path value = .error error ↔
      (value.items? = none ∧ error = .expectedKeyList rule path) ∨
        ∃ items, value.items? = some items ∧ FirstKeyFault rule path (items.map Value.keyText?) error := by
  cases hitems : value.items? with
  | none => simp [readKeys, hitems, eq_comm]
  | some items =>
      have hread : readKeys rule path value = readKeysFrom rule path 0 [] items := by rw [readKeys, hitems]
      have hfails : ∀ {error}, readKeys rule path value = .error error →
          FirstKeyFault rule path (items.map Value.keyText?) error := by
        intro error h
        rw [hread] at h
        exact readKeysFrom_eq_error [] (by simp) (by simp) h
      constructor
      · intro h
        exact .inr ⟨items, rfl, hfails h⟩
      · rintro (⟨hnone, -⟩ | ⟨_, hsome, hfirst⟩)
        · cases hnone
        · obtain rfl := Option.some.inj hsome
          cases hresult : readKeys rule path value with
          | error other => rw [(hfails hresult).unique hfirst]
          | ok keys =>
              -- What is read has no fault.
              obtain ⟨_, hsame, htexts, hnodup⟩ := texts_of_readKeys hresult
              obtain rfl := Option.some.inj (hitems.symm.trans hsame)
              obtain ⟨index, hfault, -⟩ := hfirst
              rw [htexts] at hfault
              exact absurd hfault (not_keyFault hnodup)

/-! ### Rebinding -/

/-- Keys that were read take the place of as many others: a mapping has the keys in their order, each once, and the
values that it had. -/
theorem rebind_of_texts {value : Value} {keys : List String} (h : Texts value keys) {base : List (Value × Value)}
    (hcount : base.length = keys.length) :
    ∃ fields, rebind rule path base keys = .ok (.mapping fields) ∧ fields.length = base.length ∧
      fields.map Prod.fst = keys.map Value.string ∧ fields.map Prod.snd = base.map Prod.snd := by
  obtain ⟨items, -, -, hnodup⟩ := h
  have hrebind : rebind rule path base keys = .ok (rebound keys (.mapping base)) := by
    have hentries : (Value.mapping base).entries? = some base := rfl
    rw [rebind_eq hnodup rule path hentries, if_pos hcount.symm]
  have hlength : (keys.map Value.string).length = (base.map Prod.snd).length := by simp [hcount]
  refine ⟨_, hrebind, ?_, List.map_fst_zip (Nat.le_of_eq hlength), List.map_snd_zip (Nat.le_of_eq hlength.symm)⟩
  rw [Value.fields_of_entries? rfl, List.length_zip, hlength, Nat.min_self, List.length_map]

/-- **Key lists are read exactly.** From a list of scalars, tagged or not, whose texts are different, and from nothing
else, these texts are read in their order. Of any other list the first item that is no scalar or repeats a text is the
error, and what is no list is one as a whole. And keys that were read can be given to any mapping of as many entries,
which then has as many still. -/
theorem readKeys_exact (rule path : String) (value : Value) :
    (∀ keys, readKeys rule path value = .ok keys ↔ Texts value keys) ∧
      (∀ error, readKeys rule path value = .error error ↔
        (value.items? = none ∧ error = .expectedKeyList rule path) ∨
          ∃ items, value.items? = some items ∧ FirstKeyFault rule path (items.map Value.keyText?) error) ∧
      ∀ keys, readKeys rule path value = .ok keys → ∀ base : List (Value × Value), base.length = keys.length →
        ∃ fields, rebind rule path base keys = .ok (.mapping fields) ∧ fields.length = base.length ∧
          fields.map Prod.fst = keys.map Value.string ∧ fields.map Prod.snd = base.map Prod.snd := by
  refine ⟨fun keys => readKeys_eq_ok_iff, fun error => readKeys_eq_error_iff, fun keys hkeys base hcount => ?_⟩
  exact rebind_of_texts (texts_of_readKeys hkeys) hcount

/-- Scalars of three kinds in a tagged list, given to suggestions. -/
theorem readKeys_exact_mixed :
    readKeys "r" "suggestions" (.tagged "t" (.list [.string "low", .number (.integer 2), .tagged "k" (.bool true)])) =
        .ok ["low", "2", "true"] ∧
      ∃ fields, rebind "r" "suggestions" [(.string "a", .null), (.null, .string "x"), (.list [], .null)]
          ["low", "2", "true"] = .ok (.mapping fields) ∧ fields.length = 3 ∧
        fields.map Prod.fst = ["low", "2", "true"].map Value.string ∧
        fields.map Prod.snd = [.null, .string "x", .null] := by
  have hread : readKeys "r" "suggestions"
      (.tagged "t" (.list [.string "low", .number (.integer 2), .tagged "k" (.bool true)])) =
        .ok ["low", "2", "true"] := by rfl
  exact ⟨hread, (readKeys_exact "r" "suggestions" _).2.2 _ hread _ rfl⟩

end Attribute

end Rulebook
