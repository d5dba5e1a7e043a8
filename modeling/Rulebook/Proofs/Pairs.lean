import Mathlib.Data.List.Induction
import Rulebook.Proofs.Entries

/-!
# Pairs put in order

`Entries.ofPairs` makes a map of pairs that may name a key several times: the key stands where it came first, with the
value that came last. This module provides:

* `ofPairs_concat` — one pair more is one `put` more;
* `distinct_ofPairs` and `of_mem_ofPairs` — no key stands twice, and keys and values are among those of the pairs;
* `get?_map_fst` and `put_map_fst` — the same entries under other keys; and
* `ext_of_exact` — a map whose keys are exact is its keys in order and what look-up says of each.
-/

namespace Rulebook

namespace Entries

variable {α β : Type} {same : α → α → Bool} {key : α} {value : β} {entries : List (α × β)}

/-! ### What `put` leaves -/

theorem mem_put {entry : α × β} (h : entry ∈ put same key value entries) :
    entry ∈ entries ∨ entry.2 = value ∧ (entry.1 = key ∨ entry.1 ∈ entries.map Prod.fst) := by
  induction entries with
  | nil =>
      obtain rfl := List.mem_singleton.1 h
      exact .inr ⟨rfl, .inl rfl⟩
  | cons first rest ih =>
      obtain ⟨k, v⟩ := first
      rw [put_cons] at h
      split at h
      · rcases List.mem_cons.1 h with rfl | h
        · exact .inr ⟨rfl, .inr List.mem_cons_self⟩
        · exact .inl (List.mem_cons_of_mem _ h)
      · rcases List.mem_cons.1 h with rfl | h
        · exact .inl List.mem_cons_self
        · rcases ih h with h | ⟨hvalue, hkey⟩
          · exact .inl (List.mem_cons_of_mem _ h)
          · exact .inr ⟨hvalue, hkey.imp_right (List.mem_cons_of_mem _)⟩

/-- The key that is put is compared with every key that is there. -/
theorem distinct_put (h : Distinct same entries) : Distinct same (put same key value entries) := by
  induction entries with
  | nil => exact List.pairwise_singleton _ _
  | cons first rest ih =>
      obtain ⟨k, v⟩ := first
      obtain ⟨hfirst, hrest⟩ := List.pairwise_cons.1 h
      rw [put_cons]
      split
      · exact List.pairwise_cons.2 ⟨hfirst, hrest⟩
      · next hk =>
          refine List.pairwise_cons.2 ⟨fun entry hentry => ?_, ih hrest⟩
          rcases mem_put hentry with hentry | ⟨-, rfl | hkey⟩
          · exact hfirst entry hentry
          · exact Bool.eq_false_iff.2 hk
          · obtain ⟨other, hother, hkey⟩ := List.mem_map.1 hkey
            exact hkey ▸ hfirst other hother

/-! ### Pairs -/

theorem ofPairs_concat (pairs : List (α × β)) (pair : α × β) :
    ofPairs same (pairs ++ [pair]) = put same pair.1 pair.2 (ofPairs same pairs) := by
  rw [ofPairs, List.foldl_append]
  rfl

theorem distinct_ofPairs (pairs : List (α × β)) : Distinct same (ofPairs same pairs) := by
  induction pairs using List.reverseRecOn with
  | nil => exact List.Pairwise.nil
  | append_singleton pairs pair ih =>
      rw [ofPairs_concat]
      exact distinct_put ih

/-- Keys and values are among those of the pairs, though not always those of one pair. -/
theorem of_mem_ofPairs {entry : α × β} (h : entry ∈ ofPairs same pairs) :
    entry.1 ∈ pairs.map Prod.fst ∧ entry.2 ∈ pairs.map Prod.snd := by
  induction pairs using List.reverseRecOn generalizing entry with
  | nil => cases h
  | append_singleton pairs pair ih =>
      rw [ofPairs_concat] at h
      rw [List.map_append, List.map_append, List.mem_append, List.mem_append]
      rcases mem_put h with h | ⟨hvalue, hkey | hkey⟩
      · exact (ih h).imp .inl .inl
      · exact ⟨.inr (by simp [hkey]), .inr (by simp [hvalue])⟩
      · obtain ⟨other, hother, hkey⟩ := List.mem_map.1 hkey
        exact ⟨.inl (hkey ▸ (ih hother).1), .inr (by simp [hvalue])⟩

/-! ### Look-up and equality -/

/-- An entry is found if no key stands twice. -/
theorem get?_of_mem (h : Exact same key) (hdistinct : (entries.map Prod.fst).Nodup) (hmem : (key, value) ∈ entries) :
    get? same key entries = some value := by
  obtain ⟨left, right, rfl⟩ := List.mem_iff_append.1 hmem
  rw [List.map_append, List.nodup_append] at hdistinct
  refine get?_split h value fun entry hentry => ?_
  exact hdistinct.2.2 entry.1 (List.mem_map_of_mem hentry) key (by simp)

/-- A change of values changes what look-up finds. -/
theorem get?_map_snd {γ : Type} (change : β → γ) (key : α) (entries : List (α × β)) :
    get? same key (entries.map fun entry => (entry.1, change entry.2)) = (get? same key entries).map change := by
  induction entries with
  | nil => rfl
  | cons entry rest ih =>
      rw [List.map_cons, get?_cons, get?_cons, ih]
      split <;> rfl

/-- Keys under other names that are told apart in the same way: look-up finds the same. -/
theorem get?_map_fst {γ : Type} {same' : γ → γ → Bool} {rename : α → γ}
    (hsame : ∀ k, same' (rename k) (rename key) = same k key) (entries : List (α × β)) :
    get? same' (rename key) (entries.map fun entry => (rename entry.1, entry.2)) = get? same key entries := by
  induction entries with
  | nil => rfl
  | cons entry rest ih =>
      obtain ⟨k, v⟩ := entry
      rw [List.map_cons, get?_cons, get?_cons, hsame, ih]

/-- And `put` changes the same entry. -/
theorem put_map_fst {γ : Type} {same' : γ → γ → Bool} {rename : α → γ}
    (hsame : ∀ k, same' (rename k) (rename key) = same k key) (value : β) (entries : List (α × β)) :
    put same' (rename key) value (entries.map fun entry => (rename entry.1, entry.2)) =
      (put same key value entries).map fun entry => (rename entry.1, entry.2) := by
  induction entries with
  | nil => rfl
  | cons entry rest ih =>
      obtain ⟨k, v⟩ := entry
      rw [List.map_cons, put_cons, put_cons, hsame, ih]
      split <;> rfl

/-- Whether keys are distinct is a matter of the keys alone. -/
theorem distinct_congr {others : List (α × β)} (h : entries.map Prod.fst = others.map Prod.fst) :
    Distinct same entries ↔ Distinct same others := by
  have hkeys : ∀ entries : List (α × β),
      Distinct same entries ↔ (entries.map Prod.fst).Pairwise fun a b => same a b = false := fun entries => by
    rw [List.pairwise_map, Distinct]
  rw [hkeys, hkeys, h]

/-- Keys that are exact are distinct if no two are equal. -/
theorem nodup_of_distinct (hexact : ∀ entry ∈ entries, Exact same entry.1) (h : Distinct same entries) :
    (entries.map Prod.fst).Nodup := by
  refine List.pairwise_map.2 (h.imp_of_mem fun {first second} hfirst _ hne heq => ?_)
  rw [← heq, (hexact first hfirst).self] at hne
  cases hne

/-- Two maps with the same keys in the same order are equal if look-up cannot tell them apart. -/
theorem ext_of_exact {first second : List (α × β)} (hkeys : first.map Prod.fst = second.map Prod.fst)
    (hdistinct : (first.map Prod.fst).Nodup) (hexact : ∀ key ∈ first.map Prod.fst, Exact same key)
    (hget : ∀ key ∈ first.map Prod.fst, get? same key first = get? same key second) : first = second := by
  induction first generalizing second with
  | nil => exact (List.map_eq_nil_iff.1 hkeys.symm).symm
  | cons entry rest ih =>
      cases second with
      | nil => cases hkeys
      | cons entry' rest' =>
          obtain ⟨key, value⟩ := entry
          obtain ⟨key', value'⟩ := entry'
          obtain ⟨rfl, hrest⟩ := List.cons.inj hkeys
          obtain ⟨hfresh, hdistinct'⟩ := List.nodup_cons.1 hdistinct
          have hself := (hexact key List.mem_cons_self).self
          have hhead := hget key List.mem_cons_self
          rw [get?_cons, get?_cons, if_pos hself, if_pos hself, Option.some.injEq] at hhead
          subst hhead
          refine congrArg _ (ih hrest hdistinct' (fun other h => hexact other (List.mem_cons_of_mem _ h)) ?_)
          intro other hother
          -- The key heads both lists and no key comes twice, so the other key is another one.
          have hne : key ≠ other := fun heq => hfresh (heq ▸ hother)
          have hno := (hexact other (List.mem_cons_of_mem _ hother)).of_ne hne
          have hcons := hget other (List.mem_cons_of_mem _ hother)
          rwa [get?_cons, get?_cons, if_neg (by simp [hno]), if_neg (by simp [hno])] at hcons

end Entries

end Rulebook
