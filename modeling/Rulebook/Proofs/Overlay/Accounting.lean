import Rulebook.Proofs.Overlay.Counting
import Rulebook.Proofs.Overlay.Leniency

/-!
# What becomes of each item

An overlay that succeeds counts every item of the localization once. The items are the attributes in entries of rules
that are defined, the entries that are skipped as a whole, because their key is no name or because they hold no
attributes, and the entries of rules that are not defined. This module provides:

* `Localization.attributesUnder`, `Localization.isNameless`, `Localization.isMalformed`, `Localization.isUnknown` — the
  items, told apart without running the overlay;
* `entries_handled`, `entries_pruned` — the first three kinds are merged, passed over or skipped, the last is dropped;
* `entries_idle` — what merges no attribute changes nothing; and
* `stats_account` — all of it, for whole overlays with any options.
-/

namespace Rulebook

namespace Localization

/-- The attributes that an entry holds for a rule of the names. -/
def heldUnder (names : List String) (entry : Value × Value) : List (Value × Value) :=
  match entry.1.keyText?, entry.2 with
  | some rule, .mapping attributes => if rule ∈ names then attributes else []
  | _, _ => []

/-- The attributes that the localization holds for rules of the names. -/
def attributesUnder (names : List String) (localization : Localization) : List (Value × Value) :=
  localization.entries.flatMap (heldUnder names)

/-- The key of the entry is no name. -/
def isNameless (entry : Value × Value) : Bool :=
  entry.1.keyText?.isNone

/-- The entry is for a rule, and for none of the names. -/
def isUnknown (names : List String) (entry : Value × Value) : Bool :=
  match entry.1.keyText? with
  | none => false
  | some rule => rule ∉ names

/-- The entry is for a rule of the names, and neither a mapping of attributes nor null. -/
def isMalformed (names : List String) (entry : Value × Value) : Bool :=
  match entry.1.keyText?, entry.2 with
  | none, _ => false
  | some _, .mapping _ => false
  | some _, .null => false
  | some rule, _ => rule ∈ names

end Localization

namespace Overlay

open Rulebook.Localization (heldUnder isNameless isUnknown isMalformed)

/-- The items that were merged, passed over or skipped. -/
def Stats.handled (s : Stats) : Nat :=
  s.attributesApplied + s.referencesSkipped + s.attributesSkipped

theorem Stats.handled_add (a b : Stats) : (a + b).handled = a.handled + b.handled := by
  simp only [handled, attributesApplied_add, referencesSkipped_add, attributesSkipped_add]
  omega

/-! ### Attributes -/

section Attributes

variable {options : Options} {rule : String} {items : List (Value × Value)} {target merged : Value} {done : Stats}

/-- A step over an attribute counts one thing, and what it counts as no merge leaves the rule. -/
theorem attributeStep_counts {item : Value × Value} (h : attributeStep options rule item target = .ok (merged, done)) :
    done = .applied ∨ (merged = target ∧ (done = .reference ∨ done = .skipped)) := by
  rcases attributeStep_cases h with hm | ⟨-, -, rfl, rfl⟩
  · obtain ⟨name, change, -, -, -, rfl, rfl⟩ := mergeAttribute_eq_ok_iff.1 hm
    cases change with
    | reference => exact .inr ⟨rfl, .inl rfl⟩
    | _ => exact .inl rfl
  · exact .inr ⟨rfl, .inr rfl⟩

theorem attributes_handled (h : attributes options rule items target = .ok (merged, done)) :
    done.handled = items.length := by
  have hadditive : Additive Stats.handled (List.length (α := Value × Value)) := by
    refine ⟨rfl, Stats.handled_add, rfl, fun item rest => ?_⟩
    simp only [List.length_cons, List.length_nil]
    omega
  refine steps_measure (P := fun _ => True) hadditive (fun _ _ => trivial) (fun _ hstep => ?_) trivial h
  rcases attributeStep_counts hstep with rfl | ⟨-, rfl | rfl⟩ <;> rfl

/-- Attributes are never dropped. -/
theorem attributes_pruned (h : attributes options rule items target = .ok (merged, done)) :
    done.unknownRulesPruned = 0 := by
  have hadditive : Additive Stats.unknownRulesPruned (fun _ : List (Value × Value) => 0) :=
    ⟨rfl, Stats.unknownRulesPruned_add, rfl, fun _ _ => rfl⟩
  refine steps_measure (P := fun _ => True) hadditive (fun _ _ => trivial) (fun _ hstep => ?_) trivial h
  rcases attributeStep_counts hstep with rfl | ⟨-, rfl | rfl⟩ <;> rfl

theorem attributes_idle (h : attributes options rule items target = .ok (merged, done)) : Idle target merged done := by
  refine steps_idle (fun {item state next done} hstep hnone => ?_) h
  rcases attributeStep_counts hstep with rfl | ⟨rfl, rfl | rfl⟩
  · simp [Stats.applied] at hnone
  · exact ⟨rfl, rfl⟩
  · exact ⟨rfl, rfl⟩

end Attributes

/-! ### Entries -/

section Entries

variable {options : Options} {items : List (Value × Value)} {rules last : RuleSet} {total : Stats}

/-- Entries are handled as many times as there are attributes under rules of the names and entries that are skipped as a
whole. -/
def handledUnder (names : List String) (items : List (Value × Value)) : Nat :=
  (items.flatMap (heldUnder names)).length + items.countP isNameless + items.countP (isMalformed names)

/-- The names stay, so an item that comes later is of the kind that it was of at the start. -/
theorem entryStep_keepsNames {item : Value × Value} {names : List String} (hnames : rules.names = names)
    (h : entryStep options item rules = .ok (last, total)) : last.names = names :=
  (entryStep_names h).symm.trans hnames

theorem entryStep_handled {item : Value × Value} (h : entryStep options item rules = .ok (last, total)) :
    total.handled = handledUnder rules.names [item] := by
  obtain ⟨key, value⟩ := item
  unfold handledUnder
  cases entryStep_eq_ok_iff.1 h with
  | nameless hkey _ => simp [heldUnder, isNameless, isMalformed, hkey, Stats.handled, Stats.skipped, Stats.zero]
  | @unknown rule hkey hrule _ =>
      have hunknown : rule ∉ rules.names := (rules.get?_eq_none_iff rule).1 hrule
      cases value <;>
        simp [heldUnder, isNameless, isMalformed, hkey, hunknown, Stats.handled, Stats.pruned, Stats.zero]
  | merged hkey hrule hvalue hmerged =>
      have hknown := RuleSet.mem_names_of_get? hrule
      have hlength := attributes_handled hmerged
      obtain rfl : value = _ := hvalue
      simpa [heldUnder, isNameless, isMalformed, hkey, hknown, Stats.closeEntry, Stats.handled] using hlength
  | empty hkey hrule hvalue =>
      obtain rfl : value = _ := hvalue
      simp [heldUnder, isNameless, isMalformed, hkey, Stats.handled, Stats.zero]
  | malformed hkey hrule hvalue _ =>
      have hknown := RuleSet.mem_names_of_get? hrule
      obtain ⟨hmapping, hnull⟩ := hvalue
      cases value with
      | mapping attributes => exact absurd rfl (hmapping attributes)
      | null => exact absurd rfl hnull
      | _ => simp [heldUnder, isNameless, isMalformed, hkey, hknown, Stats.handled, Stats.skipped, Stats.zero]

theorem entries_handled (h : entries options items rules = .ok (last, total)) :
    total.handled = handledUnder rules.names items := by
  have hadditive : Additive Stats.handled (handledUnder rules.names) := by
    refine ⟨rfl, Stats.handled_add, rfl, fun item rest => ?_⟩
    simp only [handledUnder, List.flatMap_cons, List.flatMap_nil, List.append_nil, List.length_append,
      List.countP_cons, List.countP_nil]
    omega
  refine steps_measure (P := fun state => state.names = rules.names) hadditive entryStep_keepsNames
    (fun hnames hstep => ?_) rfl h
  exact hnames ▸ entryStep_handled hstep

theorem entryStep_pruned {item : Value × Value} (h : entryStep options item rules = .ok (last, total)) :
    total.unknownRulesPruned = [item].countP (isUnknown rules.names) := by
  cases entryStep_eq_ok_iff.1 h with
  | nameless hkey _ => simp [isUnknown, hkey, Stats.skipped, Stats.zero]
  | @unknown rule hkey hrule _ =>
      have hunknown : rule ∉ rules.names := (rules.get?_eq_none_iff rule).1 hrule
      simp [isUnknown, hkey, hunknown, Stats.pruned]
  | merged hkey hrule _ hmerged =>
      have hnone := attributes_pruned hmerged
      simpa [isUnknown, hkey, RuleSet.mem_names_of_get? hrule, Stats.closeEntry] using hnone
  | empty hkey hrule _ => simp [isUnknown, hkey, RuleSet.mem_names_of_get? hrule, Stats.zero]
  | malformed hkey hrule _ _ => simp [isUnknown, hkey, RuleSet.mem_names_of_get? hrule, Stats.skipped, Stats.zero]

theorem entries_pruned (h : entries options items rules = .ok (last, total)) :
    total.unknownRulesPruned = items.countP (isUnknown rules.names) := by
  have hadditive : Additive Stats.unknownRulesPruned (List.countP (isUnknown rules.names)) := by
    refine ⟨rfl, Stats.unknownRulesPruned_add, rfl, fun item rest => ?_⟩
    simp only [List.countP_cons, List.countP_nil]
    omega
  refine steps_measure (P := fun state => state.names = rules.names) hadditive entryStep_keepsNames
    (fun hnames hstep => ?_) rfl h
  exact hnames ▸ entryStep_pruned hstep

theorem entryStep_idle {item : Value × Value} (h : entryStep options item rules = .ok (last, total)) :
    Idle rules last total := by
  intro hnone
  cases entryStep_eq_ok_iff.1 h with
  | @merged rule target merged localized done hkey hrule _ hmerged =>
      have hnone' : done.attributesApplied = 0 := hnone
      obtain ⟨rfl, -⟩ := attributes_idle hmerged hnone'
      exact ⟨RuleSet.insert_of_get? hrule, if_pos hnone'⟩
  | _ => exact ⟨rfl, rfl⟩

/-- Where no attribute is merged, the rules stay and none of them is counted. -/
theorem entries_idle (h : entries options items rules = .ok (last, total)) : Idle rules last total :=
  steps_idle entryStep_idle h

end Entries

/-! ### Overlays -/

/-- Nothing is skipped by an overlay that is not lenient. -/
theorem apply_skipped {options : Options} {localization : Localization} {base rules : RuleSet} {stats : Stats}
    (h : apply options localization base = .ok (rules, stats)) (hstrict : options.lenient = false) :
    stats.attributesSkipped = 0 := by
  obtain ⟨lenient, prune⟩ := options
  obtain rfl : lenient = false := hstrict
  exact ((apply_refines prune localization base rules stats).1 h).2

/-- **The counters account for every item.** Of an overlay that succeeds, with any options: what is merged, passed over
and skipped are the attributes under rules that are defined, the entries without a name, and the entries of rules that
are defined which hold no attributes; what is dropped are the entries of rules that are not defined; nothing is skipped
unless the overlay is lenient; and if nothing is merged, no rule is counted and the rules are those of the base. -/
theorem stats_account {options : Options} {localization : Localization} {base rules : RuleSet} {stats : Stats}
    (h : apply options localization base = .ok (rules, stats)) :
    stats.attributesApplied + stats.referencesSkipped + stats.attributesSkipped =
        (localization.attributesUnder base.names).length + localization.entries.countP isNameless +
          localization.entries.countP (isMalformed base.names) ∧
      stats.unknownRulesPruned = localization.entries.countP (isUnknown base.names) ∧
      (options.lenient = false → stats.attributesSkipped = 0) ∧
      (stats.attributesApplied = 0 → stats.rulesLocalized = 0 ∧ rules = base) := by
  refine ⟨entries_handled h, entries_pruned h, apply_skipped h, fun hnone => ?_⟩
  obtain ⟨hrules, hcount⟩ := entries_idle h hnone
  exact ⟨hcount, hrules⟩

/-- Attributes that fit, that are passed over and that do not fit, and entries of every kind. -/
def sampleMixed : Localization :=
  ⟨[(.string "prime", .mapping [(.string "titre", .string "Bonus"), (.string "titre.ref", .string "Prime"),
      (.string "suggestions", .list []), (.null, .null)]),
    (.list [], .mapping [(.string "titre", .null)]), (.string "fantôme", .string "Boo"), (.string "salaire", .null),
    (.string "salaire", .tagged "en" (.mapping []))]⟩

theorem stats_account_sample :
    apply ⟨true, true⟩ sampleMixed sampleBase =
        .ok (sampleBase.insert "prime" (.mapping [(.string "titre", .string "Bonus")]), ⟨1, 1, 1, 4, 1⟩) ∧
      (sampleMixed.attributesUnder sampleBase.names).length = 4 ∧ 1 + 1 + 4 = 4 + 1 + 1 ∧
        (1 : Nat) = sampleMixed.entries.countP (isUnknown sampleBase.names) := by
  have happly : apply ⟨true, true⟩ sampleMixed sampleBase =
      .ok (sampleBase.insert "prime" (.mapping [(.string "titre", .string "Bonus")]), ⟨1, 1, 1, 4, 1⟩) := rfl
  obtain ⟨hhandled, hpruned, -, -⟩ := stats_account happly
  exact ⟨happly, rfl, hhandled, hpruned⟩

end Overlay

end Rulebook
