import Rulebook.RuleSet

/-!
# Laws of ordered maps

`Entries.put` and `Entries.get?` compare keys by a relation that need not be equality. The laws here are about
a key for which it is: one that `same` relates to itself and to nothing else (`Entries.Exact`). The names of
rules and of attributes are such keys, whatever the other keys of a document look like. This module provides:

* look-up after `put`, at the key and beside it, and `put` for a key that has an entry as the replacement of a
  value in its place (`Entries.Replaced`);
* what a second `put` does: at the same key it replaces the first, at another key the two change places once the
  key has an entry; and
* what `put` keeps: the keys in their order, the entries that a test on keys leaves out, and pairs that are
  distinct already.
-/

namespace Rulebook

namespace Entries

variable {α β : Type} {same : α → α → Bool} {key other : α}

/-- The relation takes no other key for this one. -/
def Exact (same : α → α → Bool) (key : α) : Prop :=
  ∀ k, same k key = true ↔ k = key

theorem Exact.self (h : Exact same key) : same key key = true :=
  (h key).2 rfl

theorem Exact.of_ne (h : Exact same key) (hne : other ≠ key) : same other key = false :=
  Bool.eq_false_iff.2 fun hs => hne ((h other).1 hs)

/-! ### Look-up -/

/-- A key has an entry exactly when it is among the keys. -/
theorem isSome_get?_iff (h : Exact same key) (entries : List (α × β)) :
    (get? same key entries).isSome = true ↔ key ∈ entries.map Prod.fst := by
  induction entries with
  | nil => simp
  | cons entry rest ih =>
      obtain ⟨k, v⟩ := entry
      by_cases hk : k = key
      · subst hk
        simp [get?_cons, h.self]
      · simp [get?_cons, h.of_ne hk, ih, Ne.symm hk]

/-- The entry that a look-up finds, between the entries before it, which have other keys, and those after it. -/
theorem exists_split_of_get?_eq_some (h : Exact same key) {entries : List (α × β)} {value : β}
    (hget : get? same key entries = some value) :
    ∃ left right, entries = left ++ (key, value) :: right ∧ ∀ entry ∈ left, entry.1 ≠ key := by
  induction entries with
  | nil => cases hget
  | cons entry rest ih =>
      obtain ⟨k, v⟩ := entry
      by_cases hk : k = key
      · subst hk
        rw [get?_cons, if_pos h.self, Option.some.injEq] at hget
        exact ⟨[], rest, by rw [hget]; rfl, by simp⟩
      · rw [get?_cons, if_neg (by simp [h.of_ne hk])] at hget
        obtain ⟨left, right, rfl, hleft⟩ := ih hget
        refine ⟨(k, v) :: left, right, rfl, ?_⟩
        intro entry hentry
        rcases List.mem_cons.1 hentry with rfl | hentry
        · exact hk
        · exact hleft entry hentry

/-- `put` changes the entry that look-up finds and no other. -/
theorem put_split (h : Exact same key) {left right : List (α × β)} (value old : β)
    (hleft : ∀ entry ∈ left, entry.1 ≠ key) :
    put same key value (left ++ (key, old) :: right) = left ++ (key, value) :: right := by
  induction left with
  | nil => simp [put_cons, h.self]
  | cons entry left ih =>
      obtain ⟨k, v⟩ := entry
      have hk : k ≠ key := hleft (k, v) (by simp)
      rw [List.cons_append, put_cons, if_neg (by simp [h.of_ne hk]),
        ih fun entry hentry => hleft entry (List.mem_cons_of_mem _ hentry)]
      rfl

theorem get?_split (h : Exact same key) {left right : List (α × β)} (value : β)
    (hleft : ∀ entry ∈ left, entry.1 ≠ key) :
    get? same key (left ++ (key, value) :: right) = some value := by
  induction left with
  | nil => simp [get?_cons, h.self]
  | cons entry left ih =>
      obtain ⟨k, v⟩ := entry
      have hk : k ≠ key := hleft (k, v) (by simp)
      rw [List.cons_append, get?_cons, if_neg (by simp [h.of_ne hk])]
      exact ih fun entry hentry => hleft entry (List.mem_cons_of_mem _ hentry)

/-- `after` is `before` with another value in the place of one entry, the first with the key. -/
def Replaced (key : α) (old new : β) (before after : List (α × β)) : Prop :=
  ∃ left right, before = left ++ (key, old) :: right ∧ after = left ++ (key, new) :: right ∧
    ∀ entry ∈ left, entry.1 ≠ key

/-- To replace a value is to `put` another one for a key that has an entry. -/
theorem replaced_iff (h : Exact same key) {old new : β} {before after : List (α × β)} :
    Replaced key old new before after ↔
      get? same key before = some old ∧ after = put same key new before := by
  constructor
  · rintro ⟨left, right, rfl, rfl, hleft⟩
    exact ⟨get?_split h old hleft, (put_split h new old hleft).symm⟩
  · rintro ⟨hget, rfl⟩
    obtain ⟨left, right, rfl, hleft⟩ := exists_split_of_get?_eq_some h hget
    exact ⟨left, right, rfl, put_split h new old hleft, hleft⟩

theorem get?_put_self (h : Exact same key) (value : β) (entries : List (α × β)) :
    get? same key (put same key value entries) = some value := by
  induction entries with
  | nil => simp [get?_cons, h.self]
  | cons entry rest ih =>
      obtain ⟨k, v⟩ := entry
      by_cases hk : k = key
      · subst hk
        simp [put_cons, get?_cons, h.self]
      · simp [put_cons, get?_cons, h.of_ne hk, ih]

theorem get?_put_of_ne (h : Exact same key) (hother : Exact same other) (hne : key ≠ other) (value : β)
    (entries : List (α × β)) :
    get? same other (put same key value entries) = get? same other entries := by
  induction entries with
  | nil => simp [get?_cons, hother.of_ne hne]
  | cons entry rest ih =>
      obtain ⟨k, v⟩ := entry
      by_cases hk : k = key
      · subst hk
        simp [put_cons, get?_cons, h.self, hother.of_ne hne]
      · simp [put_cons, get?_cons, h.of_ne hk, ih]

/-! ### Two changes -/

/-- Of two changes at one key the second stands. -/
theorem put_put_self (h : Exact same key) (value first : β) (entries : List (α × β)) :
    put same key value (put same key first entries) = put same key value entries := by
  induction entries with
  | nil => simp [put_cons, h.self]
  | cons entry rest ih =>
      obtain ⟨k, v⟩ := entry
      by_cases hk : k = key
      · subst hk
        simp [put_cons, h.self]
      · simp [put_cons, h.of_ne hk, ih]

/-- Changes at two keys may change places if the first key has an entry: the new entry of the other key comes
last in both orders. -/
theorem put_comm (h : Exact same key) (hother : Exact same other) (hne : key ≠ other) (value second : β)
    {entries : List (α × β)} (hget : (get? same key entries).isSome = true) :
    put same key value (put same other second entries) =
      put same other second (put same key value entries) := by
  induction entries with
  | nil => cases hget
  | cons entry rest ih =>
      obtain ⟨k, v⟩ := entry
      by_cases hk : k = key
      · subst hk
        simp [put_cons, h.self, hother.of_ne hne]
      · have hrest : (get? same key rest).isSome = true := by
          rwa [get?_cons, if_neg (by simp [h.of_ne hk])] at hget
        by_cases ho : k = other
        · subst ho
          simp [put_cons, hother.self, h.of_ne hk]
        · simp [put_cons, h.of_ne hk, hother.of_ne ho, ih hrest]

/-! ### What a change keeps -/

/-- A key that has an entry is found before anything that is appended. -/
theorem put_append {entries : List (α × β)} (h : contains same key entries = true) (value : β)
    (more : List (α × β)) : put same key value (entries ++ more) = put same key value entries ++ more := by
  induction entries with
  | nil => cases h
  | cons entry rest ih =>
      obtain ⟨k, v⟩ := entry
      rw [List.cons_append, put_cons, put_cons]
      by_cases hk : same k key = true
      · rw [if_pos hk, if_pos hk]
        rfl
      · have hrest : contains same key rest = true := by
          rwa [contains, get?_cons, if_neg hk] at h
        rw [if_neg hk, if_neg hk, ih hrest]
        rfl

/-- The entries that a test on keys picks out stay as they are if the test does not pick the key. -/
theorem filter_put (pick : α → Bool) (h : Exact same key) (hpick : pick key = false) (value : β)
    (entries : List (α × β)) :
    (put same key value entries).filter (fun entry => pick entry.1) =
      entries.filter (fun entry => pick entry.1) := by
  induction entries with
  | nil => simp [hpick]
  | cons entry rest ih =>
      obtain ⟨k, v⟩ := entry
      by_cases hk : k = key
      · subst hk
        simp [put_cons, h.self, hpick]
      · simp [put_cons, h.of_ne hk, List.filter_cons, ih]

/-- Pairs that are distinct are the map they describe. -/
theorem foldl_put_of_distinct (entries : List (α × β)) :
    ∀ {pairs : List (α × β)}, Distinct same (entries ++ pairs) →
      pairs.foldl (fun entries pair => put same pair.1 pair.2 entries) entries = entries ++ pairs
  | [], _ => by simp
  | (k, v) :: rest, hd => by
      -- The key of the next pair is none of those that are there, so `put` appends it.
      have hnone : get? same k entries = none := by
        have hbefore : ∀ entry ∈ entries, same entry.1 k = false := fun entry hentry =>
          (List.pairwise_append.1 hd).2.2 entry hentry (k, v) (by simp)
        clear hd
        induction entries with
        | nil => rfl
        | cons entry entries ih =>
            rw [get?_cons, if_neg (by simp [hbefore entry (by simp)])]
            exact ih fun entry hentry => hbefore entry (List.mem_cons_of_mem _ hentry)
      have hd' : Distinct same ((entries ++ [(k, v)]) ++ rest) := by
        rwa [List.append_assoc, List.singleton_append]
      rw [List.foldl_cons, put_of_get?_eq_none v hnone, foldl_put_of_distinct _ hd', List.append_assoc,
        List.singleton_append]

theorem ofPairs_of_distinct {pairs : List (α × β)} (hd : Distinct same pairs) : ofPairs same pairs = pairs :=
  foldl_put_of_distinct [] hd

end Entries

end Rulebook
