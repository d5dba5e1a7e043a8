import Rulebook.Proofs.Overlay.Chain

/-!
# References are inert

A reference is a note in a localization on what an attribute was made from. An overlay passes over it, whatever rule
it stands under, whatever its value is and however its name is spelled. So a localization does the same with its
references and without them. This module provides:

* `Localization.withoutReferences` — the localization without them, and `Localization.referencesUnder`, those that stand
  under rules which are defined;
* `Overlay.Passes` — two merges that differ by references passed over and by nothing else, which `Overlay.steps_passes`
  carries from the items of a run to the run, once for attributes and once for entries; and
* `Overlay.references_inert` — the law for whole overlays, with any options.
-/

namespace Rulebook

namespace Localization

/-- An entry without the references among its attributes. It stays an entry if it has no others. -/
def bareEntry (entry : Value × Value) : Value × Value :=
  match entry.2 with
  | .mapping attributes => (entry.1, .mapping (attributes.filter fun field => !field.1.isReferenceKey))
  | _ => entry

/-- The localization without references. -/
def withoutReferences (localization : Localization) : Localization :=
  ⟨localization.entries.map bareEntry⟩

/-- The references that an entry holds for a rule of the names. -/
def heldReferences (names : List String) (entry : Value × Value) : List (Value × Value) :=
  match entry.1.keyText?, entry.2 with
  | some rule, .mapping attributes =>
    if rule ∈ names then attributes.filter fun field => field.1.isReferenceKey else []
  | _, _ => []

/-- The references that the localization holds for rules of the names. -/
def referencesUnder (names : List String) (localization : Localization) : List (Value × Value) :=
  localization.entries.flatMap (heldReferences names)

variable {names : List String} {entry : Value × Value} {rule : String}

theorem heldReferences_of_nameless (hkey : entry.1.keyText? = none) : heldReferences names entry = [] := by
  rw [heldReferences, hkey]

theorem heldReferences_of_unknown (hkey : entry.1.keyText? = some rule) (hrule : rule ∉ names) :
    heldReferences names entry = [] := by
  obtain ⟨key, value⟩ := entry
  cases value with
  | mapping attributes => simp only [heldReferences, hkey, if_neg hrule]
  | _ => simp only [heldReferences, hkey]

theorem heldReferences_of_mapping {attributes : List (Value × Value)} (hkey : entry.1.keyText? = some rule)
    (hrule : rule ∈ names) (hvalue : entry.2 = .mapping attributes) :
    heldReferences names entry = attributes.filter fun field => field.1.isReferenceKey := by
  simp only [heldReferences, hkey, hvalue, if_pos hrule]

theorem heldReferences_of_not_mapping (hvalue : ∀ attributes, entry.2 ≠ .mapping attributes) :
    heldReferences names entry = [] := by
  obtain ⟨key, value⟩ := entry
  cases value with
  | mapping attributes => exact absurd rfl (hvalue attributes)
  | _ => cases hkey : key.keyText? <;> simp only [heldReferences, hkey]

theorem bareEntry_of_mapping {attributes : List (Value × Value)} (hvalue : entry.2 = .mapping attributes) :
    bareEntry entry = (entry.1, .mapping (attributes.filter fun field => !field.1.isReferenceKey)) := by
  rw [bareEntry, hvalue]

theorem bareEntry_of_not_mapping (hvalue : ∀ attributes, entry.2 ≠ .mapping attributes) : bareEntry entry = entry := by
  obtain ⟨key, value⟩ := entry
  cases value with
  | mapping attributes => exact absurd rfl (hvalue attributes)
  | _ => rfl

theorem key_bareEntry (entry : Value × Value) : (bareEntry entry).1 = entry.1 := by
  obtain ⟨key, value⟩ := entry
  cases value <;> rfl

end Localization

namespace Overlay

open Attribute (isReferenceName)
open Rulebook.Localization (bareEntry heldReferences)

/-- The same counters, with no reference passed over. -/
def Stats.withoutReferences (s : Stats) : Stats :=
  { s with referencesSkipped := 0 }

theorem Stats.withoutReferences_add (a b : Stats) :
    (a + b).withoutReferences = a.withoutReferences + b.withoutReferences :=
  rfl

theorem Stats.withoutReferences_of_eq_zero {s : Stats} (h : s.referencesSkipped = 0) : s.withoutReferences = s := by
  rw [withoutReferences, ← h]

/-! ### Merges that differ by references -/

/-- The second merge ends as the first does, but where the first passes over `count` references it passes over none. -/
def Passes {β : Type} (count : Nat) (first second : Progress β) : Prop :=
  match first with
  | .error error => second = .error error
  | .ok (state, done) => second = .ok (state, done.withoutReferences) ∧ done.referencesSkipped = count

section Steps

variable {α β γ : Type} {step : α → β → Progress β}

/-- A merge that passes over no reference. -/
theorem Passes.self {progress : Progress β}
    (h : ∀ state done, progress = .ok (state, done) → done.referencesSkipped = 0) : Passes 0 progress progress := by
  cases hprogress : progress with
  | error error => rfl
  | ok result =>
      obtain ⟨state, done⟩ := result
      have hnone : done.referencesSkipped = 0 := h state done hprogress
      exact ⟨by rw [Stats.withoutReferences_of_eq_zero hnone], hnone⟩

/-- Two runs differ by references if their items do, one by one. The second run may leave an item out over which the
first passes without a change. -/
theorem steps_passes {P : β → Prop} {trim : α → Option α} {references : α → List γ}
    (hkeep : ∀ {item state next done}, P state → step item state = .ok (next, done) → P next)
    (hdrop : ∀ {item state}, P state → trim item = none → ∃ done, step item state = .ok (state, done) ∧
      done.withoutReferences = .zero ∧ done.referencesSkipped = (references item).length)
    (hstep : ∀ {item item' state}, P state → trim item = some item' →
      Passes (references item).length (step item state) (step item' state))
    (items : List α) {state : β} (hstate : P state) :
    Passes (items.flatMap references).length (steps step items state) (steps step (items.filterMap trim) state) := by
  induction items generalizing state with
  | nil => exact ⟨rfl, rfl⟩
  | cons item rest ih =>
      rw [List.flatMap_cons, List.length_append]
      cases htrim : trim item with
      | none =>
          obtain ⟨done, hok, hzero, hcount⟩ := hdrop hstate htrim
          have hrest := ih hstate
          rw [List.filterMap_cons_none htrim, steps_cons_of_ok hok]
          cases hfirst : steps step rest state with
          | error error =>
              rw [hfirst] at hrest
              exact hrest
          | ok progress =>
              obtain ⟨last, further⟩ := progress
              rw [hfirst] at hrest
              obtain ⟨hsecond, hfurther⟩ := hrest
              refine ⟨?_, by rw [Stats.referencesSkipped_add, hcount, hfurther]⟩
              rw [hsecond, Stats.withoutReferences_add, hzero, Stats.zero_add]
      | some item' =>
          have hitem := hstep hstate htrim
          rw [List.filterMap_cons_some htrim]
          cases hnext : step item state with
          | error error =>
              rw [hnext] at hitem
              rw [steps_cons_of_error hnext]
              exact steps_cons_of_error hitem
          | ok progress =>
              obtain ⟨next, done⟩ := progress
              rw [hnext] at hitem
              obtain ⟨hnext', hcount⟩ := hitem
              have hrest := ih (hkeep hstate hnext)
              rw [steps_cons_of_ok hnext, steps_cons_of_ok hnext']
              cases hfirst : steps step rest next with
              | error error =>
                  rw [hfirst] at hrest
                  rw [show steps step (rest.filterMap trim) next = .error error from hrest]
                  rfl
              | ok progress =>
                  obtain ⟨last, further⟩ := progress
                  rw [hfirst] at hrest
                  obtain ⟨hsecond, hfurther⟩ := hrest
                  refine ⟨?_, by rw [Stats.referencesSkipped_add, hcount, hfurther]⟩
                  rw [hsecond]
                  rfl

end Steps

/-! ### Attributes -/

section Attributes

variable {options : Options} {rule : String} {item : Value × Value} {target : Value}

theorem tolerate_passes {β : Type} (options : Options) (error : Error) (unchanged : β) :
    Passes 0 (tolerate options error unchanged) (tolerate options error unchanged) := by
  refine .self fun state done h => ?_
  obtain ⟨-, -, rfl⟩ := tolerate_eq_ok_iff.1 h
  rfl

/-- The step over a reference does nothing but count it, whatever the rule and the value are. -/
theorem attributeStep_of_isReferenceKey (h : item.1.isReferenceKey = true) :
    attributeStep options rule item target = .ok (target, .reference) := by
  rw [Value.isReferenceKey] at h
  cases hkey : item.1.keyText? with
  | none =>
      rw [hkey] at h
      cases h
  | some name =>
      rw [hkey] at h
      simp only [attributeStep, mergeAttribute, hkey, classify_of_isReferenceName h]

/-- The step over any other attribute counts no reference. -/
theorem attributeStep_passes (h : item.1.isReferenceKey = false) :
    Passes 0 (attributeStep options rule item target) (attributeStep options rule item target) := by
  refine .self fun next done hstep => ?_
  rcases attributeStep_cases hstep with hmerge | ⟨-, -, -, rfl⟩
  · obtain ⟨name, change, hkey, hc, -, -, rfl⟩ := mergeAttribute_eq_ok_iff.1 hmerge
    have hname : isReferenceName name = false := by rwa [Value.isReferenceKey, hkey] at h
    cases Attribute.reads_of_classify hc with
    | reference hreference =>
        rw [hname] at hreference
        cases hreference
    | _ => rfl
  · rfl

theorem attributes_passes (options : Options) (rule : String) (items : List (Value × Value)) (target : Value) :
    Passes (items.filter fun field => field.1.isReferenceKey).length (attributes options rule items target)
      (attributes options rule (items.filter fun field => !field.1.isReferenceKey) target) := by
  have hreferences : (items.filter fun field => field.1.isReferenceKey) =
      items.flatMap fun item => [item].filter fun field => field.1.isReferenceKey := by
    rw [← List.filter_flatMap, List.flatMap_singleton']
  have hothers : (items.filter fun field => !field.1.isReferenceKey) =
      items.filterMap (Option.guard fun field => !field.1.isReferenceKey) := by
    rw [List.filterMap_eq_filter]
  rw [hreferences, hothers]
  refine steps_passes (P := fun _ => True) (fun _ _ => trivial) (fun {item state} _ htrim => ?_)
    (fun {item item' state} _ htrim => ?_) items trivial
  · have hreference : item.1.isReferenceKey = true := by simpa [Option.guard] using htrim
    exact ⟨.reference, attributeStep_of_isReferenceKey hreference, rfl, by simp [hreference, Stats.reference]⟩
  · obtain ⟨hreference, rfl⟩ : item.1.isReferenceKey = false ∧ item = item' := by
      simpa [Option.guard] using htrim
    simpa [hreference] using attributeStep_passes hreference

end Attributes

/-! ### Entries -/

/-- The step over an entry passes over the references that it holds for a rule, and does the same without them. -/
theorem entryStep_passes (options : Options) (entry : Value × Value) {rules : RuleSet} {names : List String}
    (hnames : rules.names = names) :
    Passes (heldReferences names entry).length (entryStep options entry rules)
      (entryStep options (bareEntry entry) rules) := by
  have hbare : (bareEntry entry).1.keyText? = entry.1.keyText? := by rw [Localization.key_bareEntry]
  cases hkey : entry.1.keyText? with
  | none =>
      rw [Localization.heldReferences_of_nameless hkey, entryStep_of_nameless hkey,
        entryStep_of_nameless (hbare.trans hkey), Localization.key_bareEntry]
      exact tolerate_passes options _ rules
  | some rule =>
      cases hrule : rules.get? rule with
      | none =>
          have hunknown : rule ∉ names := hnames ▸ (rules.get?_eq_none_iff rule).1 hrule
          rw [Localization.heldReferences_of_unknown hkey hunknown, entryStep_of_unknown hkey hrule,
            entryStep_of_unknown (hbare.trans hkey) hrule]
          cases options.prune with
          | true => exact ⟨rfl, rfl⟩
          | false => rfl
      | some target =>
          have hknown : rule ∈ names := hnames ▸ RuleSet.mem_names_of_get? hrule
          rcases value_cases entry.2 with ⟨localized, hvalue⟩ | hnull | hmalformed
          · have hmerged := attributes_passes options rule localized target
            rw [Localization.heldReferences_of_mapping hkey hknown hvalue, entryStep_of_mapping hkey hrule hvalue,
              entryStep_of_mapping (hbare.trans hkey) hrule (by rw [Localization.bareEntry_of_mapping hvalue])]
            cases hfirst : attributes options rule localized target with
            | error error =>
                rw [hfirst] at hmerged
                exact congrArg _ hmerged
            | ok progress =>
                obtain ⟨merged, done⟩ := progress
                rw [hfirst] at hmerged
                obtain ⟨hsecond, hcount⟩ := hmerged
                exact ⟨by rw [hsecond]; rfl, hcount⟩
          · have hvalue : ∀ attributes, entry.2 ≠ .mapping attributes := by simp [hnull]
            rw [Localization.heldReferences_of_not_mapping hvalue, Localization.bareEntry_of_not_mapping hvalue,
              entryStep_of_null hkey hrule hnull]
            exact ⟨rfl, rfl⟩
          · rw [Localization.heldReferences_of_not_mapping hmalformed.1,
              Localization.bareEntry_of_not_mapping hmalformed.1, entryStep_of_malformed hkey hrule hmalformed]
            exact tolerate_passes options _ rules

/-- **References are inert.** For every base, every localization and all options: an overlay of the localization
without its references fails for the reason for which one with them fails, or gives the same rules. It counts no
reference, where the other counts those under rules that are defined, and all else it counts alike. -/
theorem references_inert (options : Options) (localization : Localization) (base : RuleSet) :
    match apply options localization base with
    | .error error => apply options localization.withoutReferences base = .error error
    | .ok (rules, stats) =>
      apply options localization.withoutReferences base = .ok (rules, { stats with referencesSkipped := 0 }) ∧
        stats.referencesSkipped = (localization.referencesUnder base.names).length := by
  have hentries : localization.withoutReferences.entries = localization.entries.filterMap (some ∘ bareEntry) := by
    rw [List.filterMap_eq_map]
    rfl
  have hpasses : Passes (localization.referencesUnder base.names).length (apply options localization base)
      (apply options localization.withoutReferences base) := by
    rw [apply, apply, hentries]
    -- The names stay those of the base, so each entry finds the rule it is for defined or not, as at the start.
    refine steps_passes (P := fun rules => rules.names = base.names) (fun hnames hstep => ?_) (fun _ htrim => ?_)
      (fun hnames htrim => ?_) localization.entries rfl
    · exact (entryStep_names hstep).symm.trans hnames
    · cases htrim
    · obtain rfl := Option.some.inj htrim
      exact entryStep_passes options _ hnames
  cases happly : apply options localization base with
  | error error =>
      rw [happly] at hpasses
      exact hpasses
  | ok progress =>
      rw [happly] at hpasses
      exact hpasses

end Overlay

end Rulebook
