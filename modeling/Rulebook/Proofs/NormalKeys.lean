import Rulebook.Proofs.Fields
import Rulebook.Proofs.Pairs

/-!
# Normal keys

A key is normal if it is a string or has no text. `Value.normalizeKeys` makes the keys of a value normal as far as
mappings and lists reach. This module provides:

* `Value.inductOn` — induction over a value, with a hypothesis for every item of a list and for both sides of every
  entry of a mapping;
* `Value.HasNormalKeys` — what the entries of a mapping have after that, and what it says of the key of a name; and
* `Value.normalizeKeys_normalizeKeys` — to do it again changes nothing.
-/

namespace Rulebook

namespace Value

/-! ### Induction -/

theorem sizeOf_lt_of_mem_entries {entry : Value × Value} {entries : List (Value × Value)} (h : entry ∈ entries) :
    sizeOf entry.1 < sizeOf entries ∧ sizeOf entry.2 < sizeOf entries := by
  have hentry := List.sizeOf_lt_of_mem h
  rw [Prod.mk.sizeOf_spec] at hentry
  omega

/-- Induction over a value: a list has the property if its items have it, a mapping if the keys and the values of its
entries have it, and a tagged value if its content has it. -/
theorem inductOn {motive : Value → Prop} (null : motive .null) (bool : ∀ b, motive (.bool b))
    (number : ∀ n, motive (.number n)) (string : ∀ s, motive (.string s))
    (list : ∀ items, (∀ item ∈ items, motive item) → motive (.list items))
    (mapping : ∀ entries, (∀ entry ∈ entries, motive entry.1 ∧ motive entry.2) → motive (.mapping entries))
    (tagged : ∀ tag content, motive content → motive (.tagged tag content)) : ∀ v, motive v
  | .null => null
  | .bool b => bool b
  | .number n => number n
  | .string s => string s
  | .list items => list items fun item _ => inductOn null bool number string list mapping tagged item
  | .mapping entries => mapping entries fun entry _ =>
      ⟨inductOn null bool number string list mapping tagged entry.1,
        inductOn null bool number string list mapping tagged entry.2⟩
  | .tagged tag content => tagged tag content (inductOn null bool number string list mapping tagged content)
termination_by v => sizeOf v
decreasing_by
  · exact Nat.lt_of_lt_of_le (List.sizeOf_lt_of_mem ‹item ∈ items›) (by simp)
  · exact Nat.lt_of_lt_of_le (sizeOf_lt_of_mem_entries ‹entry ∈ entries›).1 (by simp)
  · exact Nat.lt_of_lt_of_le (sizeOf_lt_of_mem_entries ‹entry ∈ entries›).2 (by simp)
  · rw [Value.tagged.sizeOf_spec]
    omega

/-! ### Keys -/

theorem normalKey_of_keyText? {key : Value} {name : String} (h : key.keyText? = some name) :
    key.normalKey = .string name := by
  rw [normalKey, h]

theorem normalKey_of_keyText?_eq_none {key : Value} (h : key.keyText? = none) : key.normalKey = key := by
  rw [normalKey, h]

theorem normalKey_normalKey (key : Value) : key.normalKey.normalKey = key.normalKey := by
  cases h : key.keyText? with
  | none => rw [normalKey_of_keyText?_eq_none h, normalKey_of_keyText?_eq_none h]
  | some name =>
      rw [normalKey_of_keyText? h]
      rfl

/-- The keys of the entries are normal. -/
def HasNormalKeys (entries : List (Value × Value)) : Prop :=
  ∀ entry ∈ entries, entry.1.normalKey = entry.1

theorem hasNormalKeys_put {entries : List (Value × Value)} (h : HasNormalKeys entries) (name : String) (value : Value) :
    HasNormalKeys (put (.string name) value entries) := by
  intro entry hentry
  rcases Entries.mem_put hentry with hentry | ⟨-, hkey | hkey⟩
  · exact h entry hentry
  · rw [hkey]
    rfl
  · obtain ⟨other, hother, hkey⟩ := List.mem_map.1 hkey
    exact hkey ▸ h other hother

/-! ### Values -/

theorem normalizeItems_eq_map (items : List Value) : normalizeItems items = items.map normalizeKeys := by
  induction items with
  | nil => rfl
  | cons item rest ih => rw [normalizeItems, ih, List.map_cons]

theorem normalizeEntries_eq_map (entries : List (Value × Value)) :
    normalizeEntries entries = entries.map fun entry => (entry.1.normalKey, entry.2.normalizeKeys) := by
  induction entries with
  | nil => rfl
  | cons entry rest ih =>
      obtain ⟨key, value⟩ := entry
      rw [normalizeEntries, ih, List.map_cons]

/-- The entries that a mapping has once its keys are normal. -/
def normalized (entries : List (Value × Value)) : List (Value × Value) :=
  Entries.ofPairs same (normalizeEntries entries)

theorem normalizeKeys_mapping (entries : List (Value × Value)) :
    (mapping entries).normalizeKeys = .mapping (normalized entries) := by
  rw [normalizeKeys, ofPairs, normalized]

theorem normalizeKeys_list (items : List Value) :
    (list items).normalizeKeys = .list (items.map normalizeKeys) := by
  rw [normalizeKeys, normalizeItems_eq_map]

theorem distinct_normalized (entries : List (Value × Value)) : Entries.Distinct same (normalized entries) :=
  Entries.distinct_ofPairs _

/-- An entry after normalization has the key of one entry before and the value of one, though not always the same. -/
theorem of_mem_normalized {entries : List (Value × Value)} {entry : Value × Value} (h : entry ∈ normalized entries) :
    (∃ before ∈ entries, entry.1 = before.1.normalKey) ∧ ∃ before ∈ entries, entry.2 = before.2.normalizeKeys := by
  obtain ⟨hkey, hvalue⟩ := Entries.of_mem_ofPairs h
  rw [normalizeEntries_eq_map, List.map_map] at hkey hvalue
  obtain ⟨before, hbefore, hkey⟩ := List.mem_map.1 hkey
  obtain ⟨before', hbefore', hvalue⟩ := List.mem_map.1 hvalue
  exact ⟨⟨before, hbefore, hkey.symm⟩, before', hbefore', hvalue.symm⟩

theorem hasNormalKeys_normalized (entries : List (Value × Value)) : HasNormalKeys (normalized entries) := by
  intro entry hentry
  obtain ⟨⟨before, -, hkey⟩, -⟩ := of_mem_normalized hentry
  rw [hkey, normalKey_normalKey]

/-- Entries whose keys are normal and distinct keep their keys, and their values are normalized. -/
theorem normalized_of_hasNormalKeys {entries : List (Value × Value)} (h : HasNormalKeys entries)
    (hdistinct : Entries.Distinct same entries) :
    normalized entries = entries.map fun entry => (entry.1, entry.2.normalizeKeys) := by
  have hentries : normalizeEntries entries = entries.map fun entry => (entry.1, entry.2.normalizeKeys) := by
    rw [normalizeEntries_eq_map]
    exact List.map_congr_left fun entry hentry => by rw [h entry hentry]
  rw [normalized, hentries]
  exact Entries.ofPairs_of_distinct (List.pairwise_map.2 hdistinct)

/-- The keys of the entries decide whether they are normal. -/
theorem hasNormalKeys_congr {entries others : List (Value × Value)}
    (h : entries.map Prod.fst = others.map Prod.fst) : HasNormalKeys entries ↔ HasNormalKeys others := by
  have hkeys : ∀ entries : List (Value × Value),
      HasNormalKeys entries ↔ ∀ key ∈ entries.map Prod.fst, key.normalKey = key := fun entries => by
    rw [List.forall_mem_map, HasNormalKeys]
  rw [hkeys, hkeys, h]

/-- What has normal keys keeps them. -/
theorem normalizeKeys_normalizeKeys (v : Value) : v.normalizeKeys.normalizeKeys = v.normalizeKeys := by
  induction v using inductOn with
  | list items ih =>
      rw [normalizeKeys_list, normalizeKeys_list, List.map_map]
      exact congrArg list (List.map_congr_left ih)
  | mapping entries ih =>
      rw [normalizeKeys_mapping, normalizeKeys_mapping,
        normalized_of_hasNormalKeys (hasNormalKeys_normalized entries) (distinct_normalized entries)]
      refine congrArg mapping ?_
      have hfixed : ∀ entry ∈ normalized entries, (entry.1, entry.2.normalizeKeys) = entry := by
        intro entry hentry
        obtain ⟨-, before, hbefore, hvalue⟩ := of_mem_normalized hentry
        rw [hvalue, (ih before hbefore).2, ← hvalue]
      calc (normalized entries).map (fun entry => (entry.1, entry.2.normalizeKeys))
          = (normalized entries).map id := List.map_congr_left hfixed
        _ = normalized entries := List.map_id _
  | _ => rfl

/-- What look-up finds under normal keys has normal keys. -/
theorem normalizeKeys_of_get? {entries : List (Value × Value)} {name : String} {found : Value}
    (h : (mapping entries).normalizeKeys.get? name = some found) : found.normalizeKeys = found := by
  rw [normalizeKeys_mapping] at h
  obtain ⟨left, right, hsplit, -⟩ := Entries.exists_split_of_get?_eq_some (exact_string name) h
  have hfound : (Value.string name, found) ∈ normalized entries := by
    rw [hsplit]
    simp
  obtain ⟨-, before, -, hvalue⟩ := of_mem_normalized hfound
  rw [show found = before.2.normalizeKeys from hvalue, normalizeKeys_normalizeKeys]

/-! ### Entries whose keys have texts -/

section Named

variable {entries : List (Value × Value)} {name other : String}

/-- The keys are names once they are normal. -/
theorem key_of_mem_normalized (h : ∀ entry ∈ entries, entry.1.keyText?.isSome = true) {entry : Value × Value}
    (hentry : entry ∈ normalized entries) : ∃ name, entry.1 = .string name := by
  obtain ⟨⟨before, hbefore, hkey⟩, -⟩ := of_mem_normalized hentry
  obtain ⟨name, hname⟩ := Option.isSome_iff_exists.1 (h before hbefore)
  exact ⟨name, hkey.trans (normalKey_of_keyText? hname)⟩

/-- An entry more gives its name its value, and leaves what stands under other names. -/
theorem get?_normalizeKeys_concat {entry : Value × Value} (h : entry.1.keyText? = some other) :
    (mapping (entries ++ [entry])).normalizeKeys.get? name =
      if other = name then some entry.2.normalizeKeys else (mapping entries).normalizeKeys.get? name := by
  have hput : normalized (entries ++ [entry]) =
      put (.string other) entry.2.normalizeKeys (normalized entries) := by
    rw [normalized, normalized, normalizeEntries_eq_map, normalizeEntries_eq_map, List.map_append, List.map_singleton,
      Entries.ofPairs_concat, normalKey_of_keyText? h]
  rw [normalizeKeys_mapping, normalizeKeys_mapping, hput]
  by_cases hname : other = name
  · subst hname
    rw [if_pos rfl]
    exact Entries.get?_put_self (exact_string other) _ _
  · rw [if_neg hname]
    exact Entries.get?_put_of_ne (exact_string other) (exact_string name) (exact_string_ne hname) _ _

/-- Mappings whose keys are those of normalized entries are equal if they have the same values under all names. -/
theorem eq_normalizeKeys_of_get? (h : ∀ entry ∈ entries, entry.1.keyText?.isSome = true) {fields : List (Value × Value)}
    (hkeys : fields.map Prod.fst = (normalized entries).map Prod.fst)
    (hget : ∀ name, (mapping fields).get? name = (mapping entries).normalizeKeys.get? name) :
    mapping fields = (mapping entries).normalizeKeys := by
  have hstring : ∀ key ∈ fields.map Prod.fst, ∃ name, key = .string name := by
    rw [hkeys, List.forall_mem_map]
    exact fun entry hentry => key_of_mem_normalized h hentry
  have hexact : ∀ key ∈ fields.map Prod.fst, Entries.Exact same key := fun key hkey => by
    obtain ⟨name, rfl⟩ := hstring key hkey
    exact exact_string name
  have hdistinct : Entries.Distinct same fields := (Entries.distinct_congr hkeys).2 (distinct_normalized entries)
  have hnodup := Entries.nodup_of_distinct (fun entry hentry => hexact _ (List.mem_map_of_mem hentry)) hdistinct
  rw [normalizeKeys_mapping] at hget ⊢
  refine congrArg mapping (Entries.ext_of_exact hkeys hnodup hexact fun key hkey => ?_)
  obtain ⟨name, rfl⟩ := hstring key hkey
  exact hget name

end Named

end Value

end Rulebook
