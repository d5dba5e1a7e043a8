/-!
# Entries in order

An ordered map is the list of its entries, at most one for each key. Keys are compared by a relation `same`,
which need not be equality. This module provides:

* `Entries.get?` and `Entries.contains` — look-up of a key;
* `Entries.put` — give a key a value: in place if the key has an entry, else at the end;
* `Entries.ofPairs` — the map that results when pairs are put in order; and
* `Entries.Distinct` — no two entries have the same key, which `put` keeps.
-/

namespace Rulebook

namespace Entries

variable {α β : Type}

/-- The value of the first entry whose key is `key`. -/
def get? (same : α → α → Bool) (key : α) : List (α × β) → Option β
  | [] => none
  | (k, v) :: rest => if same k key then some v else get? same key rest

/-- Is there an entry for the key? -/
def contains (same : α → α → Bool) (key : α) (entries : List (α × β)) : Bool :=
  (get? same key entries).isSome

/-- Give `key` the value `value`. An entry that is there keeps its place and its own spelling of the key; a
new one goes to the end. -/
def put (same : α → α → Bool) (key : α) (value : β) : List (α × β) → List (α × β)
  | [] => [(key, value)]
  | (k, v) :: rest => if same k key then (k, value) :: rest else (k, v) :: put same key value rest

/-- Put the pairs one after the other: a key stands where it came first, with the value that came last. -/
def ofPairs (same : α → α → Bool) (pairs : List (α × β)) : List (α × β) :=
  pairs.foldl (fun entries pair => put same pair.1 pair.2 entries) []

/-- No two entries have the same key. -/
def Distinct (same : α → α → Bool) (entries : List (α × β)) : Prop :=
  entries.Pairwise fun a b => same a.1 b.1 = false

instance (same : α → α → Bool) (entries : List (α × β)) : Decidable (Distinct same entries) :=
  inferInstanceAs (Decidable (List.Pairwise _ _))

@[simp] theorem get?_nil (same : α → α → Bool) (key : α) : get? same key ([] : List (α × β)) = none :=
  rfl

theorem get?_cons (same : α → α → Bool) (key k : α) (v : β) (rest : List (α × β)) :
    get? same key ((k, v) :: rest) = if same k key then some v else get? same key rest :=
  rfl

@[simp] theorem put_nil (same : α → α → Bool) (key : α) (value : β) :
    put same key value [] = [(key, value)] :=
  rfl

theorem put_cons (same : α → α → Bool) (key k : α) (value v : β) (rest : List (α × β)) :
    put same key value ((k, v) :: rest) =
      if same k key then (k, value) :: rest else (k, v) :: put same key value rest :=
  rfl

/-- Without an entry for the key, `put` appends one. -/
theorem put_of_get?_eq_none {same : α → α → Bool} {key : α} {entries : List (α × β)} (value : β)
    (h : get? same key entries = none) : put same key value entries = entries ++ [(key, value)] := by
  induction entries with
  | nil => rfl
  | cons entry rest ih =>
    obtain ⟨k, v⟩ := entry
    by_cases hk : same k key <;> simp_all [get?_cons, put_cons]

/-- The keys stay as they are, except that a new key comes last. -/
theorem map_fst_put (same : α → α → Bool) (key : α) (value : β) (entries : List (α × β)) :
    (put same key value entries).map Prod.fst =
      entries.map Prod.fst ++ if contains same key entries then [] else [key] := by
  induction entries with
  | nil => rfl
  | cons entry rest ih =>
    obtain ⟨k, v⟩ := entry
    by_cases hk : same k key
    · simp [contains, get?_cons, put_cons, hk]
    · simp only [put_cons, hk, Bool.false_eq_true, if_false, List.map_cons, List.cons_append, ih]
      have hc : contains same key ((k, v) :: rest) = contains same key rest := by
        simp [contains, get?_cons, hk]
      simp [hc]

end Entries

end Rulebook
