import Rulebook.Proofs.Overlay.Accounting

/-!
# Dropping entries and deleting them

An overlay may drop the entries of rules that are not defined. That is no more than to delete them first: the names of
the rules stay, so which entries go is settled before the first of them is merged. This module provides:

* `Localization.unknownEntries` and `Localization.withoutUnknown` — the entries in question, and the localization
  without them;
* `steps_passOver` — a run that passes over some of its items, beside a run over the others, for steps of any kind; and
* `prune_eq_delete` — an overlay that drops the entries and one of the localization without them have one outcome.
-/

namespace Rulebook

namespace Localization

/-- The entries of rules that are none of the names. -/
def unknownEntries (names : List String) (localization : Localization) : List (Value × Value) :=
  localization.entries.filter (isUnknown names)

/-- The localization without them. -/
def withoutUnknown (names : List String) (localization : Localization) : Localization :=
  ⟨localization.entries.filter fun entry => !isUnknown names entry⟩

theorem isUnknown_of_nameless {names : List String} {entry : Value × Value} (hkey : entry.1.keyText? = none) :
    isUnknown names entry = false := by
  rw [isUnknown, hkey]

theorem isUnknown_eq_true_iff {names : List String} {entry : Value × Value} :
    isUnknown names entry = true ↔ ∃ rule, entry.1.keyText? = some rule ∧ rule ∉ names := by
  cases hkey : entry.1.keyText? with
  | none => simp [isUnknown, hkey]
  | some rule => simp [isUnknown, hkey]

/-- Without the entries of unknown rules there is none left. -/
theorem countP_withoutUnknown (names : List String) (localization : Localization) :
    (localization.withoutUnknown names).entries.countP (isUnknown names) = 0 := by
  rw [List.countP_eq_zero]
  intro entry hentry
  have hkept := (List.mem_filter.1 hentry).2
  simpa using hkept

end Localization

namespace Overlay

open Rulebook.Localization (isUnknown)

/-- So many entries more that were dropped. -/
def Stats.droppedToo (count : Nat) (s : Stats) : Stats :=
  { s with unknownRulesPruned := count + s.unknownRulesPruned }

theorem Stats.pruned_add_droppedToo (count : Nat) (s : Stats) :
    pruned + s.droppedToo count = s.droppedToo (count + 1) := by
  refine ext (Nat.zero_add _) (Nat.zero_add _) (Nat.zero_add _) (Nat.zero_add _) ?_
  simp only [unknownRulesPruned_add, droppedToo, pruned]
  omega

theorem Stats.add_droppedToo (count : Nat) (a b : Stats) : a + b.droppedToo count = (a + b).droppedToo count := by
  refine ext rfl rfl rfl rfl ?_
  simp only [unknownRulesPruned_add, droppedToo]
  omega

/-- A run that drops some of its items has the outcome of another over the rest, with what it drops counted. The steps
need to be alike only in states that the other run can come to. -/
theorem steps_passOver {α β : Type} {step other : α → β → Progress β} {drops : α → Bool} {P : β → Prop}
    (hkeep : ∀ {item state next done}, P state → other item state = .ok (next, done) → P next)
    (hdrop : ∀ {item state}, P state → drops item = true → step item state = .ok (state, .pruned))
    (hstep : ∀ {item state}, P state → drops item = false → step item state = other item state) (items : List α)
    {state : β} (hstate : P state) :
    steps step items state =
      (steps other (items.filter fun item => !drops item) state).map fun progress =>
        (progress.1, progress.2.droppedToo (items.filter drops).length) := by
  induction items generalizing state with
  | nil => rfl
  | cons item rest ih =>
      by_cases hdrops : drops item = true
      · -- The item goes from the second run, and the first counts one more.
        have hothers : ((item :: rest).filter fun item => !drops item) = rest.filter fun item => !drops item :=
          List.filter_cons_of_neg (by simp [hdrops])
        have hdropped : (item :: rest).filter drops = item :: rest.filter drops := List.filter_cons_of_pos hdrops
        rw [hothers, hdropped, steps_cons_of_ok (hdrop hstate hdrops), ih hstate]
        cases steps other (rest.filter fun item => !drops item) state with
        | error error => rfl
        | ok progress => simp only [Except.map, List.length_cons, Stats.pruned_add_droppedToo]
      · have hkeeps : drops item = false := Bool.eq_false_iff.2 hdrops
        have hothers : ((item :: rest).filter fun item => !drops item) = item :: rest.filter fun item => !drops item :=
          List.filter_cons_of_pos (by simp [hkeeps])
        have hdropped : (item :: rest).filter drops = rest.filter drops := List.filter_cons_of_neg hdrops
        rw [hothers, hdropped]
        have hitem := hstep hstate hkeeps
        cases hnext : other item state with
        | error error =>
            rw [steps_cons_of_error (hitem.trans hnext), steps_cons_of_error hnext]
            rfl
        | ok progress =>
            obtain ⟨next, done⟩ := progress
            rw [steps_cons_of_ok (hitem.trans hnext), steps_cons_of_ok hnext, ih (hkeep hstate hnext)]
            cases steps other (rest.filter fun item => !drops item) next with
            | error error => rfl
            | ok progress => simp only [Except.map, Stats.add_droppedToo]

section Entry

variable {item : Value × Value} {rules : RuleSet} {names : List String}

theorem entryStep_of_isUnknown (lenient : Bool) (hnames : rules.names = names) (h : isUnknown names item = true) :
    entryStep ⟨lenient, true⟩ item rules = .ok (rules, .pruned) := by
  obtain ⟨rule, hkey, hunknown⟩ := Localization.isUnknown_eq_true_iff.1 h
  have hrule : rules.get? rule = none := (rules.get?_eq_none_iff rule).2 (hnames ▸ hunknown)
  rw [entryStep_of_unknown hkey hrule, if_pos rfl]

/-- Of an entry whose key is no name, or whose rule is defined, it is never asked whether such entries are dropped. -/
theorem entryStep_of_not_isUnknown (lenient : Bool) (hnames : rules.names = names) (h : isUnknown names item = false) :
    entryStep ⟨lenient, true⟩ item rules = entryStep ⟨lenient, false⟩ item rules := by
  cases hkey : item.1.keyText? with
  | none =>
      rw [entryStep_of_nameless hkey, entryStep_of_nameless hkey]
      rfl
  | some rule =>
      have hknown : rule ∈ rules.names := by
        rw [hnames]
        simpa [isUnknown, hkey] using h
      obtain ⟨target, hrule⟩ := Option.isSome_iff_exists.1 ((rules.isSome_get?_iff rule).2 hknown)
      simp only [entryStep, hkey, hrule]
      rfl

end Entry

/-- **To drop the entries of rules that are not defined is to delete them.** For every base, every localization and
either way of treating what does not fit: an overlay that drops such entries fails for the reason for which one of the
localization without them fails, or gives the same rules. It counts the entries that it drops, where the other counts
none, and all else it counts alike. An entry whose key is no name is none of them. -/
theorem prune_eq_delete (lenient : Bool) (localization : Localization) (base : RuleSet) :
    (match apply ⟨lenient, true⟩ localization base with
      | .error error => apply ⟨lenient, false⟩ (localization.withoutUnknown base.names) base = .error error
      | .ok (rules, stats) =>
        apply ⟨lenient, false⟩ (localization.withoutUnknown base.names) base =
            .ok (rules, { stats with unknownRulesPruned := 0 }) ∧
          stats.unknownRulesPruned = (localization.unknownEntries base.names).length) ∧
      ∀ entry ∈ localization.entries, entry.1.keyText? = none →
        entry ∈ (localization.withoutUnknown base.names).entries ∧
          ∀ rules, entryStep ⟨lenient, true⟩ entry rules = entryStep ⟨lenient, false⟩ entry rules := by
  constructor
  · have hrun : apply ⟨lenient, true⟩ localization base =
        (apply ⟨lenient, false⟩ (localization.withoutUnknown base.names) base).map fun progress =>
          (progress.1, progress.2.droppedToo (localization.unknownEntries base.names).length) :=
      steps_passOver (P := fun rules => rules.names = base.names) entryStep_keepsNames
        (entryStep_of_isUnknown lenient) (entryStep_of_not_isUnknown lenient) localization.entries rfl
    rw [hrun]
    cases hdeleted : apply ⟨lenient, false⟩ (localization.withoutUnknown base.names) base with
    | error error => rfl
    | ok progress =>
        obtain ⟨rules, stats⟩ := progress
        have hnone : stats.unknownRulesPruned = 0 :=
          (entries_pruned hdeleted).trans (localization.countP_withoutUnknown base.names)
        refine ⟨?_, ?_⟩
        · rw [Stats.droppedToo, ← hnone]
        · rw [Stats.droppedToo, hnone, Nat.add_zero]
  · intro entry hentry hkey
    have hkept : isUnknown base.names entry = false := Localization.isUnknown_of_nameless hkey
    refine ⟨List.mem_filter.2 ⟨hentry, by rw [hkept]; rfl⟩, fun rules => ?_⟩
    exact entryStep_of_not_isUnknown lenient rfl (Localization.isUnknown_of_nameless hkey)

theorem prune_eq_delete_sample :
    apply ⟨true, true⟩ sampleMixed sampleBase =
        .ok (sampleBase.insert "prime" (.mapping [(.string "titre", .string "Bonus")]), ⟨1, 1, 1, 4, 1⟩) ∧
      apply ⟨true, false⟩ (sampleMixed.withoutUnknown sampleBase.names) sampleBase =
        .ok (sampleBase.insert "prime" (.mapping [(.string "titre", .string "Bonus")]), ⟨1, 1, 1, 4, 0⟩) ∧
        ((.list [], .mapping [(.string "titre", .null)]) : Value × Value) ∈
          (sampleMixed.withoutUnknown sampleBase.names).entries := by
  obtain ⟨⟨hdeleted, -⟩, hnameless⟩ := prune_eq_delete true sampleMixed sampleBase
  exact ⟨rfl, hdeleted, (hnameless _ (List.mem_cons_of_mem _ List.mem_cons_self) rfl).1⟩

end Overlay

end Rulebook
