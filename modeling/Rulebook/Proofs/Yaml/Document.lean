import Rulebook.Fragment.Reading
import Rulebook.Proofs.Outcome
import Rulebook.Proofs.RuleSet.Loading

/-!
# Documents are well formed

A mapping that repeats a key is refused when it is read, so no mapping in the value of a text has two entries with one
key (`Yaml.wellFormed_of_read?`). So what is said of loading well-formed documents is said of texts
(`RuleSet.parse_loads`).
-/

namespace Rulebook

/-- A key that has no entry is the key of none. -/
theorem Entries.same_of_not_contains {α β : Type} {same : α → α → Bool} {key : α} {entries : List (α × β)}
    (h : contains same key entries = false) : ∀ entry ∈ entries, same entry.1 key = false := by
  induction entries with
  | nil => exact nofun
  | cons entry rest ih =>
      rw [contains, get?_cons] at h
      split at h
      · cases h
      · next hentry => exact List.forall_mem_cons.2 ⟨Bool.eq_false_iff.2 hentry, ih h⟩

namespace Yaml

namespace Document

variable {α β : Type} {left more : Nat} {value : Value}

/-! ### Reading step by step -/

theorem reading_bind_eq_some_iff {first : Reading α} {next : α → Reading β} {result : β × Nat} :
    (first >>= next) left = some result ↔ ∃ a more, first left = some (a, more) ∧ next a more = some result := by
  show (first left).bind (fun progress => next progress.1 progress.2) = some result ↔ _
  rw [Option.bind_eq_some_iff, Prod.exists]

theorem reading_pure_eq_some_iff {a b : α} : (pure a : Reading α) left = some (b, more) ↔ a = b ∧ left = more := by
  show some (a, left) = some (b, more) ↔ _
  simp

/-- What holds of everything that is read holds of each item of a list that is read. -/
theorem forall_mem_of_mapM {P : β → Prop} {read : α → Reading β} {items : List α} {values : List β}
    (hread : ∀ item ∈ items, ∀ {left more value}, read item left = some (value, more) → P value)
    (h : items.mapM read left = some (values, more)) : ∀ value ∈ values, P value := by
  induction items generalizing left more values with
  | nil =>
      rw [List.mapM_nil, reading_pure_eq_some_iff] at h
      rw [← h.1]
      exact nofun
  | cons item rest ih =>
      obtain ⟨hitem, hrest⟩ := List.forall_mem_cons.1 hread
      rw [List.mapM_cons, reading_bind_eq_some_iff] at h
      obtain ⟨first, middle, hfirst, h⟩ := h
      obtain ⟨others, last, hothers, h⟩ := reading_bind_eq_some_iff.1 h
      rw [reading_pure_eq_some_iff] at h
      rw [← h.1]
      exact List.forall_mem_cons.2 ⟨hitem hfirst, ih (fun other hother => hrest other hother) hothers⟩

/-! ### Scalars -/

theorem wellFormed_underTag (properties : Properties Nat) (h : value.WellFormed) :
    (underTag properties value).WellFormed := by
  unfold underTag
  split
  · rwa [Value.WellFormed]
  · exact h

theorem wellFormed_plain? {text : String} (h : Resolution.plain? text = some value) : value.WellFormed := by
  unfold Resolution.plain? at h
  grind [Value.WellFormed]

theorem wellFormed_tagged? {tag : Tag} {text : String} (h : Resolution.tagged? tag text = some value) :
    value.WellFormed := by
  unfold Resolution.tagged? at h
  grind [Value.WellFormed, Option.map_eq_some_iff]

theorem wellFormed_scalar? {properties : Properties Nat} {plain : Bool} {text : String}
    (h : scalar? properties plain text = some value) : value.WellFormed := by
  have huntagged : ∀ {value}, (if plain then Resolution.plain? text else some (.string text)) = some value →
      value.WellFormed := by
    intro value h
    split at h
    · exact wellFormed_plain? h
    · obtain rfl := Option.some.inj h
      trivial
  cases htag : properties.tag? with
  | none =>
      simp only [scalar?, htag] at h
      exact huntagged h
  | some tag =>
      simp only [scalar?, htag] at h
      split at h
      · obtain ⟨untagged, hvalue, rfl⟩ := Option.map_eq_some_iff.1 h
        exact wellFormed_underTag properties (huntagged hvalue)
      · exact wellFormed_tagged? h

theorem wellFormed_readScalar {properties : Properties Nat} {plain : Bool} {text : String}
    (h : (scalar? properties plain text).map (·, left) = some (value, more)) : value.WellFormed := by
  obtain ⟨scalar, hscalar, heq⟩ := Option.map_eq_some_iff.1 h
  obtain ⟨rfl, -⟩ := Prod.mk.inj heq
  exact wellFormed_scalar? hscalar

/-! ### Collections -/

/-- An entry more, with a key that is not there yet. -/
theorem wellFormed_concat {entries : List (Value × Value)} {entry : Value × Value}
    (h : (Value.mapping entries).WellFormed) (hkey : entry.1.WellFormed) (hvalue : entry.2.WellFormed)
    (hfresh : ∀ other ∈ entries, Value.same other.1 entry.1 = false) :
    (Value.mapping (entries ++ [entry])).WellFormed := by
  rw [Value.wellFormed_mapping_iff] at h ⊢
  refine ⟨List.pairwise_append.2 ⟨h.1, List.pairwise_singleton _ _, fun other hother => ?_⟩, ?_⟩
  · exact List.forall_mem_singleton.2 (hfresh other hother)
  · exact List.forall_mem_append.2 ⟨h.2, List.forall_mem_singleton.2 ⟨hkey, hvalue⟩⟩

/-- The entries read so far make a well-formed mapping, and still do with the next one, whose key is none of theirs. -/
theorem wellFormed_readEntries {read : Node Nat → Reading Value} {reversed result : List (Value × Value)}
    {entries : List (Node Nat × Node Nat)}
    (hread : ∀ node, ∀ {left more value}, read node left = some (value, more) → value.WellFormed)
    (hreversed : (Value.mapping reversed.reverse).WellFormed)
    (h : readEntries read reversed entries left = some (result, more)) : (Value.mapping result).WellFormed := by
  induction entries generalizing reversed left with
  | nil =>
      rw [readEntries, reading_pure_eq_some_iff] at h
      rwa [← h.1]
  | cons entry rest ih =>
      rw [readEntries, reading_bind_eq_some_iff] at h
      obtain ⟨key, keyLeft, hkey, h⟩ := h
      split at h
      · cases h
      · next hfresh =>
          obtain ⟨value, valueLeft, hvalue, h⟩ := reading_bind_eq_some_iff.1 h
          refine ih ?_ h
          rw [List.reverse_cons]
          refine wellFormed_concat hreversed (hread _ hkey) (hread _ hvalue) fun other hother => ?_
          exact Entries.same_of_not_contains (Bool.eq_false_iff.2 hfresh) other (List.mem_reverse.1 hother)

/-- The induction is on the depth to which collections may nest, since aliases are followed into other nodes. -/
theorem wellFormed_readNode (document : Document) (depth : Nat) (node : Node Nat) {left more : Nat} {value : Value}
    (h : readNode document depth node left = some (value, more)) : value.WellFormed := by
  induction depth generalizing node left more value with
  | zero =>
      rw [readNode, reading_bind_eq_some_iff] at h
      obtain ⟨target, middle, -, h⟩ := h
      cases target with
      | scalar properties plain text => exact wellFormed_readScalar h
      | _ => cases h
  | succ depth ih =>
      rw [readNode, reading_bind_eq_some_iff] at h
      obtain ⟨target, middle, -, h⟩ := h
      cases target with
      | scalar properties plain text => exact wellFormed_readScalar h
      | sequence properties items =>
          obtain ⟨values, last, hvalues, h⟩ := reading_bind_eq_some_iff.1 h
          rw [reading_pure_eq_some_iff] at h
          rw [← h.1]
          refine wellFormed_underTag properties (Value.wellFormed_list_iff.2 ?_)
          exact forall_mem_of_mapM (fun item _ => ih item) hvalues
      | mapping properties entries =>
          obtain ⟨fields, last, hfields, h⟩ := reading_bind_eq_some_iff.1 h
          rw [reading_pure_eq_some_iff] at h
          rw [← h.1]
          refine wellFormed_underTag properties (wellFormed_readEntries ih ?_ hfields)
          exact Value.wellFormed_mapping_iff.2 ⟨.nil, nofun⟩
      | _ => cases h

end Document

/-- What a text is read as is well formed. -/
theorem wellFormed_of_read? {text : String} {value : Value} (h : read? text = some value) : value.WellFormed := by
  obtain ⟨document, -, hvalue⟩ := Option.bind_eq_some_iff.1 h
  unfold Document.value? at hvalue
  split at hvalue
  · obtain rfl := Option.some.inj hvalue
    trivial
  · obtain ⟨⟨read, left⟩, hread, rfl⟩ := Option.map_eq_some_iff.1 hvalue
    exact Document.wellFormed_readNode _ _ _ hread

end Yaml

/-! ### The rules in a text -/

namespace RuleSet

variable {text : String} {rules : RuleSet}

/-- A text holds rules if it is read as a document that gives them. -/
theorem parse_eq_ok_iff :
    parse text = .ok rules ↔ ∃ document, Yaml.read? text = some document ∧ ofValue document = .ok rules := by
  rw [parse]
  cases Yaml.read? text with
  | none => simp
  | some document => simp only [mapError_eq_ok_iff, Option.some.injEq, exists_eq_left']

/-- The names of the rules in a text are the texts of the keys, each where it comes first; and a rule is the normal form
of the value that comes last for its name. -/
theorem parse_loads (h : parse text = .ok rules) :
    ∃ document, Yaml.read? text = some document ∧
      (document = .null ∨
        ∃ entries, document = .mapping entries ∧ ∀ entry ∈ entries, entry.1.keyText?.isSome = true) ∧
      rules.names = ((givenRules document.fields).map Prod.fst).eraseDups ∧
      ∀ name rule, rules.get? name = some rule ↔
        ∃ value, Entries.GivenLast (givenRules document.fields) name value ∧ Value.Normalizes value rule := by
  obtain ⟨document, hread, hrules⟩ := parse_eq_ok_iff.1 h
  refine ⟨document, hread, ofValue_succeeds_iff.1 ⟨rules, hrules⟩, names_ofValue hrules, fun name rule => ?_⟩
  exact get?_ofValue_normalizes (Yaml.wellFormed_of_read? hread) hrules

end RuleSet

end Rulebook
