import Rulebook.Proofs.NormalForm
import Rulebook.Proofs.Fragment.Merge

/-!
# What a document is read as

Keys that are spelled differently may be one key once they are read. Such a key stands where it came first, and has what
was given for it last. That is so of the names of rules, and of the keys of every mapping that mappings and lists lead
to. This module provides:

* `Entries.GivenLast` — the value that pairs give a key last, and `Entries.ofPairs_eq_map`, by which the map of the
  pairs is their keys, each where it came first and with this value;
* `Value.Normalizes` — the normal form of a value, told by first places and last values; and
* `RuleSet.ofValue_loads` — which documents are read, and what they give.
-/

namespace Rulebook

/-! ### First places and last values -/

namespace Entries

variable {α β γ : Type} {same : α → α → Bool} {key : α} {value : β} {pairs : List (α × β)}

/-- The pairs give the key the value, and no pair after that gives it another. -/
def GivenLast (pairs : List (α × β)) (key : α) (value : β) : Prop :=
  ∃ left right, pairs = left ++ (key, value) :: right ∧ ∀ pair ∈ right, pair.1 ≠ key

theorem GivenLast.mem (h : GivenLast pairs key value) : (key, value) ∈ pairs := by
  obtain ⟨left, right, rfl, -⟩ := h
  exact List.mem_append_right _ List.mem_cons_self

theorem givenLast_iff (h : Exact same key) : GivenLast pairs key value ↔ get? same key pairs.reverse = some value := by
  constructor
  · rintro ⟨left, right, rfl, hright⟩
    rw [List.reverse_append, List.reverse_cons, List.append_assoc]
    exact get?_split h value fun pair hpair => hright pair (List.mem_reverse.1 hpair)
  · intro hget
    obtain ⟨left, right, hpairs, hleft⟩ := exists_split_of_get?_eq_some h hget
    refine ⟨right.reverse, left.reverse, ?_, fun pair hpair => hleft pair (List.mem_reverse.1 hpair)⟩
    rw [← List.reverse_reverse pairs, hpairs, List.reverse_append, List.reverse_cons, List.append_assoc]
    rfl

theorem exact_beq [BEq α] [LawfulBEq α] (key : α) : Exact (· == ·) key :=
  fun _ => beq_iff_eq

theorem GivenLast.unique {other : β} (h : GivenLast pairs key value) (hother : GivenLast pairs key other) :
    value = other := by
  classical
  rw [givenLast_iff (exact_beq key)] at h hother
  exact Option.some.inj (h.symm.trans hother)

/-- Every key of the pairs is given something last. -/
theorem exists_given [Inhabited β] (pairs : List (α × β)) :
    ∃ given : α → β, ∀ pair ∈ pairs, GivenLast pairs pair.1 (given pair.1) := by
  classical
  refine ⟨fun key => (get? (· == ·) key pairs.reverse).getD default, fun pair hpair => ?_⟩
  have hkey : pair.1 ∈ pairs.reverse.map Prod.fst := List.mem_map_of_mem (List.mem_reverse.2 hpair)
  obtain ⟨value, hvalue⟩ := Option.isSome_iff_exists.1 ((isSome_get?_iff (exact_beq pair.1) _).2 hkey)
  dsimp only
  rw [givenLast_iff (exact_beq pair.1), hvalue, Option.getD_some]

/-- A change of the values changes what is given last. -/
theorem givenLast_map_snd_iff {change : β → γ} {changed : γ} :
    GivenLast (pairs.map fun pair => (pair.1, change pair.2)) key changed ↔
      ∃ value, GivenLast pairs key value ∧ change value = changed := by
  classical
  simp only [givenLast_iff (exact_beq key), ← List.map_reverse, get?_map_snd, Option.map_eq_some_iff]

/-- In the map of the pairs a key has what was given last for it. -/
theorem get?_ofPairs (hexact : ∀ key, Exact same key) (key : α) (pairs : List (α × β)) :
    get? same key (ofPairs same pairs) = get? same key pairs.reverse := by
  induction pairs using List.reverseRecOn with
  | nil => rfl
  | append_singleton pairs pair ih =>
      rw [ofPairs_concat, List.reverse_concat, get?_cons]
      by_cases hkey : pair.1 = key
      · subst hkey
        rw [get?_put_self (hexact _), if_pos (hexact _).self]
      · rw [get?_put_of_ne (hexact _) (hexact _) hkey, ih, if_neg (by simp [(hexact _).of_ne hkey])]

/-- The keys of the map stand where they came first. -/
theorem keys_ofPairs [BEq α] [LawfulBEq α] (pairs : List (α × β)) :
    (ofPairs (· == ·) pairs).map Prod.fst = (pairs.map Prod.fst).eraseDups := by
  induction pairs using List.reverseRecOn with
  | nil => rfl
  | append_singleton pairs pair ih =>
      have hmem : contains (· == ·) pair.1 (ofPairs (· == ·) pairs) = true ↔ pair.1 ∈ pairs.map Prod.fst := by
        rw [contains, isSome_get?_iff (exact_beq _), ih, List.mem_eraseDups]
      rw [ofPairs_concat, map_fst_put, ih, List.map_append, List.map_singleton, eraseDups_concat]
      simp only [hmem]
      split <;> simp

/-- So the map is these keys, each with what was given last for it. -/
theorem ofPairs_eq_map [BEq α] [LawfulBEq α] {given : α → β}
    (h : ∀ pair ∈ pairs, GivenLast pairs pair.1 (given pair.1)) :
    ofPairs (· == ·) pairs = (pairs.map Prod.fst).eraseDups.map fun key => (key, given key) := by
  have hnodup : ((ofPairs (· == ·) pairs).map Prod.fst).Nodup :=
    nodup_of_distinct (fun entry _ => exact_beq entry.1) (distinct_ofPairs pairs)
  have hgiven : ∀ entry ∈ ofPairs (· == ·) pairs, (entry.1, given entry.1) = entry := by
    rintro ⟨key, value⟩ hentry
    obtain ⟨pair, hpair, hkey⟩ := List.mem_map.1 (of_mem_ofPairs hentry).1
    obtain rfl : pair.1 = key := hkey
    have hlast := h pair hpair
    have hget := get?_of_mem (exact_beq pair.1) hnodup hentry
    rw [get?_ofPairs exact_beq, ← givenLast_iff (exact_beq pair.1)] at hget
    rw [hlast.unique hget]
  calc ofPairs (· == ·) pairs
      = (ofPairs (· == ·) pairs).map id := (List.map_id _).symm
    _ = (ofPairs (· == ·) pairs).map fun entry => (entry.1, given entry.1) := (List.map_congr_left hgiven).symm
    _ = ((ofPairs (· == ·) pairs).map Prod.fst).map fun key => (key, given key) := by rw [List.map_map]; rfl
    _ = (pairs.map Prod.fst).eraseDups.map fun key => (key, given key) := by rw [keys_ofPairs]

/-- Relations that agree on the key and on those that are there put it in the same place. -/
theorem put_congr {same' : α → α → Bool} {entries : List (α × β)}
    (h : ∀ entry ∈ entries, same entry.1 key = same' entry.1 key) :
    put same key value entries = put same' key value entries := by
  induction entries with
  | nil => rfl
  | cons entry rest ih =>
      obtain ⟨hfirst, hrest⟩ := List.forall_mem_cons.1 h
      rw [put_cons, put_cons, hfirst, ih hrest]

/-- Relations that agree on earlier keys and later ones make the same map. -/
theorem ofPairs_congr {same' : α → α → Bool} (h : pairs.Pairwise fun a b => same a.1 b.1 = same' a.1 b.1) :
    ofPairs same pairs = ofPairs same' pairs := by
  induction pairs using List.reverseRecOn with
  | nil => rfl
  | append_singleton pairs pair ih =>
      obtain ⟨hpairs, -, hlast⟩ := List.pairwise_append.1 h
      rw [ofPairs_concat, ofPairs_concat, ih hpairs]
      refine put_congr fun entry hentry => ?_
      obtain ⟨earlier, hearlier, hkey⟩ := List.mem_map.1 (of_mem_ofPairs hentry).1
      exact hkey ▸ hlast earlier hearlier pair List.mem_cons_self

end Entries

/-! ### Equality of values -/

namespace Value

variable {v w : Value} {entries : List (Value × Value)}

theorem sameItems_refl {items : List Value} (h : ∀ item ∈ items, same item item = true) :
    sameItems items items = true := by
  induction items with
  | nil => rfl
  | cons item rest ih =>
      obtain ⟨hitem, hrest⟩ := List.forall_mem_cons.1 h
      rw [sameItems, hitem, ih hrest]
      rfl

theorem entriesIn_iff {others : List (Value × Value)} :
    entriesIn others entries = true ↔
      ∀ entry ∈ entries, ∃ other ∈ others, same entry.1 other.1 = true ∧ same entry.2 other.2 = true := by
  induction entries with
  | nil => simp [entriesIn]
  | cons entry rest ih => simp [entriesIn, ih]

/-- Every value equals itself. -/
theorem same_refl (v : Value) : same v v = true := by
  induction v using inductOn with
  | list items ih => rw [same, sameItems_refl ih]
  | mapping entries ih =>
      have hentries : entriesIn entries entries = true :=
        entriesIn_iff.2 fun entry hentry => ⟨entry, hentry, ih entry hentry⟩
      rw [same, hentries, beq_self_eq_true, Bool.and_self]
  | tagged tag content ih => rw [same, ih, beq_self_eq_true, Bool.and_self]
  | _ => simp [same]

/-- Of keys that are not equal, the normal forms are equal only if they are one. -/
theorem same_normalKey_iff (h : same v w = false) :
    same v.normalKey w.normalKey = true ↔ v.normalKey = w.normalKey := by
  refine ⟨fun hsame => ?_, fun heq => heq ▸ same_refl _⟩
  cases hw : w.keyText? with
  | some name =>
      rw [normalKey_of_keyText? hw] at hsame ⊢
      exact (same_string_iff name _).1 hsame
  | none =>
      rw [normalKey_of_keyText?_eq_none hw] at hsame
      cases hv : v.keyText? with
      | some name =>
          -- A string equals nothing that has no text.
          rw [normalKey_of_keyText? hv] at hsame
          cases w <;> simp [same, keyText?] at hsame hw
      | none =>
          rw [normalKey_of_keyText?_eq_none hv, h] at hsame
          cases hsame

theorem wellFormed_list_iff {items : List Value} : (list items).WellFormed ↔ ∀ item ∈ items, item.WellFormed := by
  rw [WellFormed]
  induction items with
  | nil => simp [ItemsWellFormed]
  | cons item rest ih => rw [ItemsWellFormed, ih, List.forall_mem_cons]

theorem wellFormed_mapping_iff : (mapping entries).WellFormed ↔
    Entries.Distinct same entries ∧ ∀ entry ∈ entries, entry.1.WellFormed ∧ entry.2.WellFormed := by
  rw [WellFormed]
  refine and_congr_right' ?_
  induction entries with
  | nil => simp [EntriesWellFormed]
  | cons entry rest ih =>
      obtain ⟨key, value⟩ := entry
      rw [EntriesWellFormed, ih, List.forall_mem_cons, and_assoc]

theorem WellFormed.fields : ∀ {v : Value}, v.WellFormed → ∀ entry ∈ v.fields, entry.2.WellFormed
  | .mapping _, h => fun entry hentry => ((wellFormed_mapping_iff.1 h).2 entry hentry).2
  | .tagged _ content, h => WellFormed.fields (v := content) (by rwa [WellFormed] at h)
  | .null, _ => nofun
  | .bool _, _ => nofun
  | .number _, _ => nofun
  | .string _, _ => nofun
  | .list _, _ => nofun

/-! ### The normal form of a value -/

/-- What the entries of a mapping give for keys in their normal form. -/
def givenPairs (entries : List (Value × Value)) : List (Value × Value) :=
  entries.map fun entry => (entry.1.normalKey, entry.2)

open Classical in
/-- `Normalizes v w` says that `w` is the normal form of `v`. A mapping has the normal forms of its keys, each once and
where it comes first, and under each of them the normal form of the value that is given last for it. A list has the
normal forms of its items, and all else stays as it is. -/
inductive Normalizes : Value → Value → Prop where
  | mapping {entries : List (Value × Value)} {given after : Value → Value}
      (hgiven : ∀ entry ∈ givenPairs entries, Entries.GivenLast (givenPairs entries) entry.1 (given entry.1))
      (hafter : ∀ entry ∈ givenPairs entries, Normalizes (given entry.1) (after entry.1)) :
      Normalizes (.mapping entries)
        (.mapping (((givenPairs entries).map Prod.fst).eraseDups.map fun key => (key, after key)))
  | list {items : List Value} {after : Value → Value} (hafter : ∀ item ∈ items, Normalizes item (after item)) :
      Normalizes (.list items) (.list (items.map after))
  | other {v : Value} (hmapping : ∀ entries, v ≠ .mapping entries) (hlist : ∀ items, v ≠ .list items) : Normalizes v v

/-- No two keys of a mapping are equal, so the relation by which its normal form is made is equality on these. -/
theorem normalized_eq_map (h : Entries.Distinct same entries) {given : Value → Value}
    (hgiven : ∀ entry ∈ givenPairs entries, Entries.GivenLast (givenPairs entries) entry.1 (given entry.1)) :
    open Classical in normalized entries =
      ((givenPairs entries).map Prod.fst).eraseDups.map fun key => (key, (given key).normalizeKeys) := by
  classical
  have hpairs : normalizeEntries entries = (givenPairs entries).map fun pair => (pair.1, pair.2.normalizeKeys) := by
    rw [normalizeEntries_eq_map, givenPairs, List.map_map]
    rfl
  have hsame : (normalizeEntries entries).Pairwise fun a b => same a.1 b.1 = (a.1 == b.1) := by
    rw [normalizeEntries_eq_map, List.pairwise_map]
    exact h.imp fun hne => Bool.eq_iff_iff.2 ((same_normalKey_iff hne).trans beq_iff_eq.symm)
  have hkeys : (normalizeEntries entries).map Prod.fst = (givenPairs entries).map Prod.fst := by
    rw [hpairs, List.map_map]
    rfl
  rw [normalized, Entries.ofPairs_congr hsame, ← hkeys]
  refine Entries.ofPairs_eq_map fun pair hpair => ?_
  rw [hpairs] at hpair ⊢
  obtain ⟨before, hbefore, rfl⟩ := List.mem_map.1 hpair
  exact Entries.givenLast_map_snd_iff.2 ⟨_, hgiven before hbefore, rfl⟩

theorem normalizes_normalizeKeys (h : v.WellFormed) : Normalizes v v.normalizeKeys := by
  induction v using inductOn with
  | list items ih =>
      rw [normalizeKeys_list]
      exact .list fun item hitem => ih item hitem (wellFormed_list_iff.1 h item hitem)
  | mapping entries ih =>
      obtain ⟨hdistinct, hentries⟩ := wellFormed_mapping_iff.1 h
      obtain ⟨given, hgiven⟩ := Entries.exists_given (givenPairs entries)
      rw [normalizeKeys_mapping, normalized_eq_map hdistinct hgiven]
      refine .mapping hgiven fun entry hentry => ?_
      -- What is given last for a key is the value of an entry of the mapping.
      obtain ⟨before, hbefore, heq⟩ := List.mem_map.1 (hgiven entry hentry).mem
      obtain ⟨-, hvalue⟩ := Prod.mk.inj heq
      rw [← hvalue]
      exact (ih before hbefore).2 (hentries before hbefore).2
  | _ => exact .other nofun nofun

/-- A value has one normal form. -/
theorem Normalizes.unique {w' : Value} (h : Normalizes v w) (h' : Normalizes v w') : w = w' := by
  classical
  induction h generalizing w' with
  | mapping hgiven hafter ih =>
      cases h' with
      | mapping hgiven' hafter' =>
          refine congrArg Value.mapping (List.map_congr_left fun key hkey => ?_)
          obtain ⟨entry, hentry, rfl⟩ := List.mem_map.1 (List.mem_eraseDups.1 hkey)
          have hsame := (hgiven entry hentry).unique (hgiven' entry hentry)
          rw [ih entry hentry (hsame ▸ hafter' entry hentry)]
      | other hmapping _ => exact absurd rfl (hmapping _)
  | list hafter ih =>
      cases h' with
      | list hafter' =>
          exact congrArg Value.list (List.map_congr_left fun item hitem => ih item hitem (hafter' item hitem))
      | other _ hlist => exact absurd rfl (hlist _)
  | other hmapping hlist =>
      cases h' with
      | mapping _ _ => exact absurd rfl (hmapping _)
      | list _ => exact absurd rfl (hlist _)
      | other _ _ => rfl

theorem normalizes_iff (h : v.WellFormed) : Normalizes v w ↔ w = v.normalizeKeys :=
  ⟨fun hw => hw.unique (normalizes_normalizeKeys h), fun hw => hw ▸ normalizes_normalizeKeys h⟩

end Value

/-! ### Rule sets -/

namespace RuleSet

variable {document : Value} {entries : List (Value × Value)} {named : List (String × Value)} {rules : RuleSet}

/-- What the entries of a document give for names. -/
def givenRules (entries : List (Value × Value)) : List (String × Value) :=
  entries.filterMap fun entry => entry.1.keyText?.map fun name => (name, entry.2)

theorem nameEntries_eq_ok_iff_named :
    nameEntries entries = .ok named ↔
      (∀ entry ∈ entries, entry.1.keyText?.isSome = true) ∧
        named = (givenRules entries).map fun rule => (rule.1, rule.2.normalizeKeys) := by
  have hrules : (givenRules entries).map (fun rule => (rule.1, rule.2.normalizeKeys)) = entries.filterMap ruleOf? := by
    rw [givenRules, List.map_filterMap]
    simp only [Option.map_map]
    rfl
  rw [nameEntries_eq_ok_iff, hrules]
  constructor
  · intro heq
    have hnamed : named = (named.map some).filterMap id := by simp
    refine ⟨fun entry hentry => ?_, by rw [hnamed, ← heq, List.filterMap_map]; rfl⟩
    obtain ⟨rule, -, hrule⟩ := List.mem_map.1 (heq ▸ List.mem_map_of_mem hentry : ruleOf? entry ∈ named.map some)
    rw [(ruleOf?_eq_some_iff.1 hrule.symm).1]
    rfl
  · rintro ⟨hall, rfl⟩
    rw [List.map_filterMap_some_eq_filter_map_isSome, eq_comm, List.filter_eq_self, List.forall_mem_map]
    intro entry hentry
    rw [ruleOf?, Option.isSome_map]
    exact hall entry hentry

/-- A document is read if it is null or a mapping whose keys have texts. -/
theorem ofValue_succeeds_iff :
    (∃ rules, ofValue document = .ok rules) ↔
      document = .null ∨
        ∃ entries, document = .mapping entries ∧ ∀ entry ∈ entries, entry.1.keyText?.isSome = true := by
  cases document with
  | null => simp [ofValue]
  | mapping entries =>
      constructor
      · intro h
        obtain ⟨rules, h⟩ := h
        rw [ofValue, map_eq_ok_iff] at h
        obtain ⟨named, hnamed, -⟩ := h
        exact .inr ⟨entries, rfl, (nameEntries_eq_ok_iff_named.1 hnamed).1⟩
      · rintro (h | ⟨entries', h, hnamed⟩)
        · cases h
        · obtain rfl := Value.mapping.inj h
          rw [ofValue, nameEntries_eq_ok_iff_named.2 ⟨hnamed, rfl⟩]
          exact ⟨_, rfl⟩
  | _ => simp [ofValue]

/-- The rules of a document are what it gives for names, in the order of the names. -/
theorem entries_ofValue (h : ofValue document = .ok rules) :
    rules.entries = Entries.ofPairs (· == ·)
      ((givenRules document.fields).map fun rule => (rule.1, rule.2.normalizeKeys)) := by
  cases document with
  | null =>
      obtain rfl := Except.ok.inj h
      rfl
  | mapping entries =>
      rw [ofValue, map_eq_ok_iff] at h
      obtain ⟨named, hnamed, rfl⟩ := h
      obtain ⟨-, rfl⟩ := nameEntries_eq_ok_iff_named.1 hnamed
      exact insertAll_entries empty _
  | _ => cases h

theorem get?_ofValue_eq_some_iff (h : ofValue document = .ok rules) {name : String} {rule : Value} :
    rules.get? name = some rule ↔
      ∃ value, Entries.GivenLast (givenRules document.fields) name value ∧ value.normalizeKeys = rule := by
  rw [get?, entries_ofValue h, Entries.get?_ofPairs exact_name, ← Entries.givenLast_iff (exact_name name),
    Entries.givenLast_map_snd_iff]

theorem names_ofValue (h : ofValue document = .ok rules) :
    rules.names = ((givenRules document.fields).map Prod.fst).eraseDups := by
  rw [names, entries_ofValue h, Entries.keys_ofPairs, List.map_map]
  rfl

/-- What a well-formed document gives for names is well formed. -/
theorem wellFormed_of_givenLast (hform : document.WellFormed) {name : String} {value : Value}
    (h : Entries.GivenLast (givenRules document.fields) name value) : value.WellFormed := by
  obtain ⟨entry, hentry, hgiven⟩ := List.mem_filterMap.1 h.mem
  obtain ⟨name', -, heq⟩ := Option.map_eq_some_iff.1 hgiven
  obtain ⟨-, rfl⟩ := Prod.mk.inj heq
  exact hform.fields entry hentry

/-- A rule of a well-formed document is the normal form of what is given for its name last. -/
theorem get?_ofValue_normalizes (hform : document.WellFormed) (h : ofValue document = .ok rules) {name : String}
    {rule : Value} :
    rules.get? name = some rule ↔
      ∃ value, Entries.GivenLast (givenRules document.fields) name value ∧ Value.Normalizes value rule := by
  rw [get?_ofValue_eq_some_iff h]
  refine exists_congr fun value => and_congr_right fun hlast => ?_
  rw [Value.normalizes_iff (wellFormed_of_givenLast hform hlast), eq_comm]

/-- **Loading goes by first places and last values.** A document in which no mapping has two entries with one key, as it
is with every document that a text is read as (`Yaml.wellFormed_of_read?`), is loaded if it is null or a mapping whose
keys all have texts, and not otherwise. The names of the rules are then the texts of its keys, each once and where it
comes first. A rule is the normal form of the value that the document gives for its name last; so in every mapping to
which mappings and lists lead the keys are normal, each once and where it comes first, and each has the normal form of
the value that was given for it last. -/
theorem ofValue_loads (hform : document.WellFormed) :
    ((∃ rules, ofValue document = .ok rules) ↔
        document = .null ∨
          ∃ entries, document = .mapping entries ∧ ∀ entry ∈ entries, entry.1.keyText?.isSome = true) ∧
      ∀ rules, ofValue document = .ok rules →
        rules.names = ((givenRules document.fields).map Prod.fst).eraseDups ∧
          ∀ name rule, rules.get? name = some rule ↔
            ∃ value, Entries.GivenLast (givenRules document.fields) name value ∧ Value.Normalizes value rule := by
  exact ⟨ofValue_succeeds_iff, fun rules h => ⟨names_ofValue h, fun name rule => get?_ofValue_normalizes hform h⟩⟩

theorem ofValue_loads_mixed :
    mixedDocument.WellFormed ∧ ofValue mixedDocument = .ok mixedRules ∧ mixedRules.names = ["1", "1"].eraseDups ∧
      ∃ value, Entries.GivenLast (givenRules mixedDocument.fields) "1" value ∧
        Value.Normalizes value (mixedRules.entries.head (by decide)).2 := by
  have hform : mixedDocument.WellFormed := by
    simp [mixedDocument, Value.WellFormed, Value.EntriesWellFormed, Value.ItemsWellFormed, Entries.Distinct, Value.same]
  have hread : ofValue mixedDocument = .ok mixedRules := rfl
  obtain ⟨-, hloads⟩ := ofValue_loads hform
  obtain ⟨hnames, hrules⟩ := hloads mixedRules hread
  exact ⟨hform, hread, hnames, (hrules "1" _).1 rfl⟩

end RuleSet

end Rulebook
