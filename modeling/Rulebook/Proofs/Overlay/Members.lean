import Rulebook.Fragment
import Rulebook.Proofs.Json.Text
import Rulebook.Proofs.Overlay.Fitting

/-!
# Names of members in artifacts

In the artifact of merged fragments, and of every overlay on them, no object has two members of one name, provided that
no value in which keys are not normalized has one name twice: no tagged value of a document, and no value that a
localization gives a plain attribute. The invariant is `Value.Tidy`: a rule has distinct names, and if it takes
attributes then its own keys are normal, so that the name of a new attribute is a new name. This module provides:

* `RuleSet.tidy_merge` — the rules of documents are tidy;
* `Value.Tidy.applied` and `Overlay.apply_tidy` — an attribute that is merged, and a whole overlay, keep them so; and
* `RuleSet.artifact_noRepeats` — what follows for artifacts, and a tagged value below which a name does come twice.
-/

namespace Rulebook

open Attribute (Reads IsPlainName isReferenceName suggestionsName mosaiqueName)

namespace Value

variable {v value : Value} {name : String} {entries : List (Value × Value)}

/-! ### Names below tags -/

/-- The names that entries become are different, also below each of them. -/
def EntriesDistinct (entries : List (Value × Value)) : Prop :=
  (memberNames entries).Nodup ∧ ∀ entry ∈ entries, entry.2.NamesDistinct

theorem namesDistinct_mapping : (mapping entries).NamesDistinct ↔ EntriesDistinct entries := by
  rw [NamesDistinct, EntriesDistinct]

theorem namesDistinct_tagged (tag : String) : (tagged tag v).NamesDistinct ↔ v.NamesDistinct := by
  rw [NamesDistinct]

theorem entriesDistinct_of_entries? : ∀ {v : Value}, v.NamesDistinct → v.entries? = some entries →
    EntriesDistinct entries
  | .mapping _, h, hentries => Option.some.inj hentries ▸ namesDistinct_mapping.1 h
  | .tagged tag content, h, hentries =>
      entriesDistinct_of_entries? (v := content) ((namesDistinct_tagged tag).1 h) hentries
  | .null, _, hentries => nomatch hentries
  | .bool _, _, hentries => nomatch hentries
  | .number _, _, hentries => nomatch hentries
  | .string _, _, hentries => nomatch hentries
  | .list _, _, hentries => nomatch hentries

theorem entriesDistinct_nil : EntriesDistinct [] :=
  ⟨List.nodup_nil, fun _ h => nomatch h⟩

theorem entriesDistinct_fields (h : v.NamesDistinct) : EntriesDistinct v.fields := by
  cases hentries : v.entries? with
  | none =>
      rw [fields, hentries]
      exact entriesDistinct_nil
  | some entries => exact fields_of_entries? hentries ▸ entriesDistinct_of_entries? h hentries

theorem namesDistinct_of_get? {found : Value} (h : v.NamesDistinct) (hget : v.get? name = some found) :
    found.NamesDistinct := by
  rw [get?_eq_lookup?_fields] at hget
  obtain ⟨left, right, hsplit, -⟩ := Entries.exists_split_of_get?_eq_some (exact_string name) hget
  exact (entriesDistinct_fields h).2 (.string name, found) (by rw [hsplit]; simp)

/-- A change of entries that leaves distinct names leaves the whole value with distinct names. -/
theorem namesDistinct_mapEntries {change : List (Value × Value) → List (Value × Value)} :
    ∀ {v : Value}, v.NamesDistinct → (∀ entries, v.entries? = some entries → EntriesDistinct (change entries)) →
      (v.mapEntries change).NamesDistinct
  | .mapping entries, _, hchange => namesDistinct_mapping.2 (hchange entries rfl)
  | .tagged tag _, h, hchange =>
      (namesDistinct_tagged tag).2 (namesDistinct_mapEntries ((namesDistinct_tagged tag).1 h) hchange)
  | .null, h, _ => h
  | .bool _, h, _ => h
  | .number _, h, _ => h
  | .string _, h, _ => h
  | .list _, h, _ => h

/-! ### One field set -/

theorem memberNames_eq_filterMap (entries : List (Value × Value)) :
    memberNames entries = (entries.map Prod.fst).filterMap fun key => (Json.memberName key).toOption := by
  rw [List.filterMap_map]
  rfl

/-- A field that is there keeps its name, and a new one has a new name if all keys are normal. -/
theorem nodup_memberNames_put (h : (memberNames entries).Nodup)
    (hplace : Entries.contains same (.string name) entries = true ∨ HasNormalKeys entries) :
    (memberNames (put (.string name) value entries)).Nodup := by
  rw [memberNames_eq_filterMap, Entries.map_fst_put, List.filterMap_append, ← memberNames_eq_filterMap]
  cases hcontains : Entries.contains same (.string name) entries with
  | true => simpa using h
  | false =>
      have hnormal : HasNormalKeys entries := hplace.resolve_left (by simp [hcontains])
      have hfresh : name ∉ memberNames entries := by
        intro hname
        obtain ⟨entry, hentry, hname⟩ := mem_memberNames.1 hname
        have hkey : Value.string name ∈ entries.map Prod.fst :=
          eq_string_of_memberName (hnormal entry hentry) hname ▸ List.mem_map_of_mem hentry
        rw [Entries.contains, (Entries.isSome_get?_iff (exact_string name) entries).2 hkey] at hcontains
        cases hcontains
      refine List.nodup_append.2 ⟨h, List.pairwise_singleton _ _, fun other hother last hlast heq => hfresh ?_⟩
      obtain rfl : last = name := List.mem_singleton.1 hlast
      exact heq ▸ hother

theorem entriesDistinct_put (h : EntriesDistinct entries) (hvalue : value.NamesDistinct)
    (hplace : Entries.contains same (.string name) entries = true ∨ HasNormalKeys entries) :
    EntriesDistinct (put (.string name) value entries) := by
  refine ⟨nodup_memberNames_put h.1 hplace, fun entry hentry => ?_⟩
  rcases Entries.mem_put hentry with hentry | ⟨hvalue', -⟩
  · exact h.2 entry hentry
  · exact hvalue' ▸ hvalue

theorem namesDistinct_setField (h : v.NamesDistinct) (hholds : v.Holds) (hvalue : value.NamesDistinct)
    (hplace : (v.get? name).isSome = true ∨ HasNormalKeys v.fields) : (v.setField name value).NamesDistinct := by
  have hopened : v.opened.NamesDistinct := by
    unfold opened
    split
    · exact namesDistinct_mapping.2 entriesDistinct_nil
    · exact h
  refine namesDistinct_mapEntries hopened fun entries hentries => ?_
  rw [entries?_opened hholds, Option.some.injEq] at hentries
  subst hentries
  exact entriesDistinct_put (entriesDistinct_fields h) hvalue (by rwa [contains_fields])

/-! ### Tidy rules -/

/-- A rule whose names are different and stay so: attributes go into it only where all keys are normal. -/
structure Tidy (rule : Value) : Prop where
  distinct : rule.NamesDistinct
  normal : rule.offer.takesAttributes = true → HasNormalKeys rule.fields

theorem hasNormalKeys_nil : HasNormalKeys [] :=
  fun _ h => nomatch h

/-- A rule as documents give it is tidy. -/
theorem tidy_normalizeKeys (h : v.TaggedDistinct) : v.normalizeKeys.Tidy where
  distinct := namesDistinct_normalizeKeys h
  normal := fun htakes => by
    cases hnull : v.normalizeKeys.isNull with
    | true =>
        rw [fields, entries?_of_isNull hnull]
        exact hasNormalKeys_nil
    | false =>
        rw [offer, opened_of_not_isNull hnull] at htakes
        obtain ⟨entries, hentries⟩ := isBareMapping_iff.1 htakes
        rw [hentries]
        -- Only a mapping under no tag is normalized to one.
        cases v with
        | mapping before =>
            rw [normalizeKeys_mapping, Value.mapping.injEq] at hentries
            exact hentries ▸ hasNormalKeys_normalized before
        | list items =>
            rw [normalizeKeys_list] at hentries
            cases hentries
        | _ => cases hentries

/-- A tidy rule stays tidy if one of its attributes is changed, or one is added where attributes go in. -/
theorem Tidy.setField (h : v.Tidy) (hholds : v.Holds) (hvalue : value.NamesDistinct)
    (hplace : (v.get? name).isSome = true ∨ v.offer.takesAttributes = true) : (v.setField name value).Tidy where
  distinct := namesDistinct_setField h.distinct hholds hvalue (hplace.imp_right h.normal)
  normal := fun htakes => by
    rw [Attribute.takesAttributes_setField hholds] at htakes
    rw [fields_setField hholds]
    exact hasNormalKeys_put (h.normal htakes) name value

/-- Suggestions under other keys have different names if the keys are different. -/
theorem namesDistinct_rebound {keys : List String} (hkeys : keys.Nodup) (h : v.NamesDistinct) :
    (Attribute.rebound keys v).NamesDistinct := by
  rw [Attribute.rebound, namesDistinct_mapping]
  refine ⟨nodup_memberNames (fun entry hentry => ?_) (Attribute.distinct_zip hkeys _), fun entry hentry => ?_⟩
  · obtain ⟨key, -, hkey⟩ := List.mem_map.1 (List.of_mem_zip hentry).1
    rw [← hkey]
    rfl
  · obtain ⟨field, hfield, hvalue⟩ := List.mem_map.1 (List.of_mem_zip hentry).2
    exact hvalue ▸ (entriesDistinct_fields h).2 field hfield

/-- An attribute that is merged leaves a tidy rule tidy, whatever it is, if the value of a plain one has distinct
names. -/
theorem Tidy.applied (h : v.Tidy) {rule : String} {change : Attribute} (hreads : Reads name value change)
    (hvalue : IsPlainName name → value.NamesDistinct) (hfits : change.fault? rule v.offer = none) :
    (change.applied name v).Tidy := by
  cases hreads with
  | reference hname => exact h
  | plain hreference hsuggestions hmosaique =>
      have htakes := Attribute.plain_fits_iff.1 hfits
      exact h.setField (holds_of_takesAttributes htakes) (hvalue ⟨hreference, hsuggestions, hmosaique⟩) (.inr htakes)
  | @suggestions keys hname hkeys =>
      subst hname
      obtain ⟨items, -, -, hnodup⟩ := hkeys
      obtain ⟨old, base, hold, -⟩ := Attribute.suggestions_fit_iff.1 hfits
      have hsome : (v.get? suggestionsName).isSome = true := by rw [hold]; rfl
      refine h.setField (holds_of_get? hsome) ?_ (.inl hsome)
      rw [hold, Option.getD_some]
      exact namesDistinct_rebound hnodup (namesDistinct_of_get? h.distinct hold)
  | @mosaique list keys hname hlist hkeys =>
      subst hname
      obtain ⟨items, -, -, hnodup⟩ := hkeys
      obtain ⟨fields, old, base, hm, hold, -⟩ := Attribute.mosaique_fits_iff.1 hfits
      have hsome : (v.get? mosaiqueName).isSome = true := by rw [hm]; rfl
      have hfields : (Value.mapping fields).NamesDistinct := namesDistinct_of_get? h.distinct hm
      refine h.setField (holds_of_get? hsome) ?_ (.inl hsome)
      rw [hm, Option.getD_some, Attribute.revised, hold, Option.getD_some]
      exact namesDistinct_setField hfields (holds_of_entries? rfl)
        (namesDistinct_rebound hnodup (namesDistinct_of_get? hfields hold)) (.inl (by rw [hold]; rfl))

end Value

/-! ### Rule sets -/

namespace RuleSet

variable {rules : RuleSet} {document : Value}

/-- Every rule is tidy. -/
def Tidy (rules : RuleSet) : Prop :=
  ∀ entry ∈ rules.entries, entry.2.Tidy

theorem Tidy.get? (h : rules.Tidy) {name : String} {rule : Value} (hget : rules.get? name = some rule) :
    rule.Tidy := by
  obtain ⟨left, right, hsplit, -⟩ := Entries.exists_split_of_get?_eq_some (exact_name name) hget
  exact h (name, rule) (by rw [hsplit]; simp)

theorem Tidy.insert (h : rules.Tidy) (name : String) {rule : Value} (hrule : rule.Tidy) :
    (rules.insert name rule).Tidy := by
  intro entry hentry
  rcases Entries.mem_put hentry with hentry | ⟨hvalue, -⟩
  · exact h entry hentry
  · exact hvalue ▸ hrule

theorem Tidy.insertAll (h : rules.Tidy) {entries : List (String × Value)} (hentries : ∀ entry ∈ entries, entry.2.Tidy) :
    (rules.insertAll entries).Tidy := by
  induction entries generalizing rules with
  | nil => exact h
  | cons entry rest ih =>
      exact ih (h.insert entry.1 (hentries entry List.mem_cons_self)) fun other hother =>
        hentries other (List.mem_cons_of_mem _ hother)

theorem tidy_empty : empty.Tidy :=
  fun _ h => nomatch h

/-- The rules of a document are tidy. -/
theorem tidy_ofValue (h : document.TaggedDistinct) (hread : ofValue document = .ok rules) : rules.Tidy := by
  cases document with
  | null =>
      obtain rfl := Except.ok.inj hread
      exact tidy_empty
  | mapping entries =>
      rw [Value.TaggedDistinct] at h
      rw [ofValue] at hread
      cases hnamed : nameEntries entries with
      | error fault =>
          rw [hnamed] at hread
          cases hread
      | ok named =>
          rw [hnamed] at hread
          obtain rfl := Except.ok.inj hread
          refine tidy_empty.insertAll fun rule hrule => ?_
          have hsome : some rule ∈ entries.map ruleOf? := nameEntries_eq_ok_iff.1 hnamed ▸ List.mem_map_of_mem hrule
          obtain ⟨entry, hentry, hgives⟩ := List.mem_map.1 hsome
          exact (ruleOf?_eq_some_iff.1 hgives).2 ▸ Value.tidy_normalizeKeys (h entry hentry)
  | _ => cases hread

/-- A fragment has the rules of a document. -/
def Reads (document : Value) (fragment : Fragment) : Prop :=
  ofValue document = .ok fragment.rules

/-- The rules of documents, merged, are tidy. -/
theorem tidy_merge {documents : List Value} {fragments : List Fragment}
    (hread : List.Forall₂ Reads documents fragments) (h : ∀ document ∈ documents, document.TaggedDistinct) :
    (Fragment.merge fragments).Tidy := by
  have hmerge : ∀ {merged : RuleSet}, merged.Tidy →
      (fragments.foldl (fun merged fragment => merged.insertAll fragment.rules.entries) merged).Tidy := by
    induction hread with
    | nil => exact id
    | @cons document fragment documents fragments hread _ ih =>
        intro merged hmerged
        have hrules : fragment.rules.Tidy := tidy_ofValue (h document List.mem_cons_self) hread
        exact ih (fun other hother => h other (List.mem_cons_of_mem _ hother)) (hmerged.insertAll hrules)
  exact hmerge tidy_empty

end RuleSet

/-! ### Overlays -/

namespace Localization

/-- The values for plain attributes among the items have distinct names. -/
def PlainItemsDistinct (items : List (Value × Value)) : Prop :=
  ∀ item ∈ items, ∀ name, item.1.keyText? = some name → IsPlainName name → item.2.NamesDistinct

/-- Every value for a plain attribute has distinct names. -/
def PlainDistinct (localization : Localization) : Prop :=
  ∀ entry ∈ localization.entries, ∀ items, entry.2 = .mapping items → PlainItemsDistinct items

end Localization

namespace Overlay

variable {options : Options} {rule : String} {items : List (Value × Value)}

/-- A run over attributes leaves a tidy rule tidy. -/
theorem attributes_tidy {target merged : Value} {done : Stats}
    (hitems : Localization.PlainItemsDistinct items)
    (h : attributes options rule items target = .ok (merged, done)) (htarget : target.Tidy) : merged.Tidy := by
  refine steps_keep (fun item hitem state next done hstep hstate => ?_) h htarget
  rcases attributeStep_cases hstep with hm | ⟨-, -, rfl, -⟩
  · obtain ⟨name, change, hkey, hc, hfits, rfl, -⟩ := mergeAttribute_eq_ok_iff.1 hm
    exact hstate.applied (Attribute.reads_of_classify hc) (hitems item hitem name hkey) hfits
  · exact hstate

/-- An overlay leaves tidy rules tidy. -/
theorem apply_tidy {localization : Localization} {base rules : RuleSet} {stats : Stats}
    (hplain : localization.PlainDistinct) (h : apply options localization base = .ok (rules, stats))
    (hbase : base.Tidy) : rules.Tidy := by
  refine steps_keep (fun entry hentry state next done hstep hstate => ?_) h hbase
  cases entryStep_eq_ok_iff.1 hstep with
  | merged hkey hrule hvalue hmerged =>
      exact hstate.insert _ (attributes_tidy (hplain entry hentry _ hvalue) hmerged (hstate.get? hrule))
  | _ => exact hstate

end Overlay

/-! ### Artifacts -/

namespace RuleSet

variable {rules : RuleSet}

/-- The artifact of the rules, where there is one, is the text of a tree, and no tree with this text repeats a name. -/
def ArtifactNoRepeats (rules : RuleSet) : Prop :=
  ∀ text, rules.json = .ok text →
    (∃ tree : Json, tree.compact = text) ∧ ∀ tree : Json, tree.compact = text → tree.NoRepeats

theorem namesDistinct_toValue : rules.toValue.NamesDistinct ↔ ∀ entry ∈ rules.entries, entry.2.NamesDistinct := by
  have hnames : Value.memberNames (rules.entries.map fun entry => (Value.string entry.1, entry.2)) = rules.names := by
    rw [Value.memberNames, List.filterMap_map]
    exact congrFun (List.filterMap_eq_map (f := Prod.fst)) rules.entries
  rw [toValue, Value.namesDistinct_mapping, Value.EntriesDistinct, hnames, List.forall_mem_map]
  exact and_iff_right rules.distinct

/-- An artifact has no repeated names exactly when no rule has a name twice. -/
theorem artifactNoRepeats_iff {text : String} (htext : rules.json = .ok text) :
    rules.ArtifactNoRepeats ↔ ∀ entry ∈ rules.entries, entry.2.NamesDistinct := by
  obtain ⟨tree, htree, hcompact⟩ : ∃ tree, Json.ofValue rules.toValue = .ok tree ∧ tree.compact = text := by
    rw [json] at htext
    cases htree : Json.ofValue rules.toValue with
    | error fault =>
        rw [htree] at htext
        cases htext
    | ok tree =>
        rw [htree] at htext
        exact ⟨tree, rfl, Except.ok.inj htext⟩
  rw [← namesDistinct_toValue, ← Json.noRepeats_iff htree]
  constructor
  · exact fun h => (h text htext).2 tree hcompact
  · intro hno text' htext'
    obtain rfl := Except.ok.inj (htext.symm.trans htext')
    exact ⟨⟨tree, hcompact⟩, fun other hother =>
      (Json.noRepeats_iff_of_compact (hother.trans hcompact.symm)).2 hno⟩

theorem Tidy.artifact (h : rules.Tidy) : rules.ArtifactNoRepeats := fun text htext =>
  (artifactNoRepeats_iff htext).2 (fun entry hentry => (h entry hentry).distinct) text htext

/-- **Artifacts repeat no name.** If no tagged value of the documents has one name twice, then in the text of the
artifact of their rules, where there is one, no object has; nor does one in the artifact of the rules under a
localization in which no value for a plain attribute has one name twice. -/
theorem artifact_noRepeats {documents : List Value} {fragments : List Fragment}
    (hread : List.Forall₂ Reads documents fragments) (htagged : ∀ document ∈ documents, document.TaggedDistinct) :
    (Fragment.merge fragments).ArtifactNoRepeats ∧
      ∀ (options : Overlay.Options) (localization : Localization) (rules : RuleSet) (stats : Overlay.Stats),
        localization.PlainDistinct →
          Overlay.apply options localization (Fragment.merge fragments) = .ok (rules, stats) →
            rules.ArtifactNoRepeats := by
  have hbase : (Fragment.merge fragments).Tidy := tidy_merge hread htagged
  exact ⟨hbase.artifact, fun _ _ _ _ hplain happly => (Overlay.apply_tidy hplain happly hbase).artifact⟩

/-! ### Names below tags and in localizations -/

/-- Two spellings of one key, and a tagged value with keys that are no strings. -/
def spelledDocument : Value :=
  .mapping [(.string "a", .mapping [(.number (.integer 1), .string "x"), (.string "1", .string "y"),
    (.string "b", .tagged "t" (.mapping [(.number (.integer 1), .null), (.string "2", .null)]))])]

def spelledFragment : Fragment where
  source := "a.yaml"
  rules := ⟨[("a", .mapping [(.string "1", .string "y"),
    (.string "b", .tagged "t" (.mapping [(.number (.integer 1), .null), (.string "2", .null)]))])], by decide⟩

/-- A plain attribute whose value has keys that are no strings. -/
def spelledLocalization : Localization :=
  ⟨[(.string "a", .mapping [(.string "c", .mapping [(.number (.integer 1), .null), (.bool true, .null)])])]⟩

theorem artifact_noRepeats_spelled : Reads spelledDocument spelledFragment ∧ ∃ rules stats baseText text,
    Overlay.apply .strict spelledLocalization (Fragment.merge [spelledFragment]) = .ok (rules, stats) ∧
      (Fragment.merge [spelledFragment]).json = .ok baseText ∧ (Fragment.merge [spelledFragment]).ArtifactNoRepeats ∧
      rules.json = .ok text ∧ rules.ArtifactNoRepeats := by
  have hone : Int.repr 1 ≠ "2" ∧ Int.repr 1 ≠ "true" := by decide
  have htagged : spelledDocument.TaggedDistinct := by
    simp [spelledDocument, Value.TaggedDistinct, Value.NamesDistinct, Value.memberNames, Json.memberName,
      Json.numberText?, Except.toOption, hone]
  have hplain : spelledLocalization.PlainDistinct := by
    simp [spelledLocalization, Localization.PlainDistinct, Localization.PlainItemsDistinct, Value.NamesDistinct,
      Value.memberNames, Json.memberName, Json.numberText?, Value.boolText, Except.toOption, hone]
  have hreads : List.Forall₂ Reads [spelledDocument] [spelledFragment] := .cons rfl .nil
  obtain ⟨hbase, hoverlay⟩ := artifact_noRepeats hreads (by simpa using htagged)
  exact ⟨rfl, _, _, _, _, rfl, rfl, hbase, rfl, hoverlay .strict spelledLocalization _ _ hplain rfl⟩

/-- Two spellings of one key. -/
def twoSpellings : Value :=
  .mapping [(.number (.integer 1), .string "a"), (.string "1", .string "b")]

theorem not_namesDistinct_twoSpellings : ¬ twoSpellings.NamesDistinct := by
  have hone : Int.repr 1 = "1" := by decide
  simp [twoSpellings, Value.NamesDistinct, Value.memberNames, Json.memberName, Json.numberText?, Except.toOption, hone]

/-- The rules of a document with two spellings of one key below a tag. -/
def taggedFragment : Fragment where
  source := "a.yaml"
  rules := ⟨[("r", .tagged "t" twoSpellings)], by decide⟩

/-- Below a tag both spellings stay, and the artifact has one name twice. -/
theorem artifact_repeats_tagged : Reads (.mapping [(.string "r", .tagged "t" twoSpellings)]) taggedFragment ∧
    (Fragment.merge [taggedFragment]).json = .ok "\x7b\"r\":\x7b\"!t\":\x7b\"1\":\"a\",\"1\":\"b\"\x7d\x7d\x7d" ∧
    ¬ (Fragment.merge [taggedFragment]).ArtifactNoRepeats := by
  refine ⟨rfl, rfl, fun hno => not_namesDistinct_twoSpellings ?_⟩
  exact (Value.namesDistinct_tagged "t").1 ((artifactNoRepeats_iff rfl).1 hno ("r", _) List.mem_cons_self)

end RuleSet

end Rulebook
