import Rulebook.Proofs.Overlay.Meaning

/-!
# Lenient and strict overlays

A lenient overlay goes on where a strict one ends, so the two run side by side up to the first item that does not
fit. This module proves what that makes of them, for either way of treating rules that are not defined:

* `apply_refines` — a strict overlay succeeds when the lenient one skips nothing, with the same outcome;
* `apply_lenient_eq_error_iff` — a lenient overlay fails for a rule that is not defined and for nothing else;
* `apply_trimmed` — without the items that the lenient overlay skips, the strict one does as much; and
* `apply_strict_eq_error_iff` — a strict overlay fails for the first fault that the lenient one meets.

Each is proved for steps of any kind first, and used twice: for the attributes of an entry and for entries.
-/

namespace Rulebook

namespace Overlay

/-- The same counters, with nothing skipped. -/
def Stats.noneSkipped (s : Stats) : Stats :=
  { s with attributesSkipped := 0 }

theorem Stats.noneSkipped_add (a b : Stats) : (a + b).noneSkipped = a.noneSkipped + b.noneSkipped :=
  rfl

section Steps

variable {α β : Type} {strict lenient : α → β → Progress β}

/-! ### Success -/

/-- The first merge succeeds when the second does without skipping anything, and then with the same outcome. -/
def Refines (first second : Progress β) : Prop :=
  ∀ state done, first = .ok (state, done) ↔ second = .ok (state, done) ∧ done.attributesSkipped = 0

theorem Refines.of_ok {state : β} {done : Stats} (h : done.attributesSkipped = 0) :
    Refines (.ok (state, done)) (.ok (state, done)) := by
  intro last total
  constructor
  · intro heq
    obtain ⟨rfl, rfl⟩ := Prod.mk.inj (Except.ok.inj heq)
    exact ⟨rfl, h⟩
  · exact And.left

theorem tolerate_refines (prune : Bool) (error : Error) (unchanged : β) :
    Refines (tolerate ⟨false, prune⟩ error unchanged) (tolerate ⟨true, prune⟩ error unchanged) := by
  intro state done
  constructor
  · intro h
    cases h
  · rintro ⟨h, hclean⟩
    obtain ⟨-, -, rfl⟩ := tolerate_eq_ok_iff.1 h
    cases hclean

/-- Runs refine each other when their steps do. -/
theorem steps_refines (hstep : ∀ item state, Refines (strict item state) (lenient item state)) (items : List α)
    (state : β) : Refines (steps strict items state) (steps lenient items state) := by
  induction items generalizing state with
  | nil => exact .of_ok rfl
  | cons item rest ih =>
      intro last total
      rw [steps_cons_eq_ok_iff, steps_cons_eq_ok_iff]
      constructor
      · rintro ⟨next, done, further, hnext, hlast, rfl⟩
        obtain ⟨hnext', hclean⟩ := (hstep item state next done).1 hnext
        obtain ⟨hlast', hclean'⟩ := (ih next last further).1 hlast
        exact ⟨⟨next, done, further, hnext', hlast', rfl⟩, by simp [hclean, hclean']⟩
      · rintro ⟨⟨next, done, further, hnext, hlast, rfl⟩, hclean⟩
        obtain ⟨hclean₁, hclean₂⟩ : done.attributesSkipped = 0 ∧ further.attributesSkipped = 0 := by
          simpa using hclean
        exact ⟨next, done, further, (hstep item state next done).2 ⟨hnext, hclean₁⟩,
          (ih next last further).2 ⟨hlast, hclean₂⟩, rfl⟩

/-! ### What is left when the skipped items go -/

/-- The items of a run as `trim` leaves them, on the states that the run gives them. -/
def trimmed (step : α → β → Progress β) (trim : α → β → Option α) : List α → β → List α
  | [], _ => []
  | item :: rest, state =>
    match step item state with
    | .error _ => []
    | .ok (next, _) => (trim item state).toList ++ trimmed step trim rest next

/-- A run over trimmed items does the same, if it does for one item what the first run did but for skipping, and
an item goes only if it was skipped. -/
theorem steps_trimmed {trim : α → β → Option α}
    (hstep : ∀ {item state next done}, lenient item state = .ok (next, done) →
      (trim item state = none ∧ next = state ∧ done = .skipped) ∨
        ∃ item', trim item state = some item' ∧ strict item' state = .ok (next, done.noneSkipped))
    {items : List α} {state last : β} {total : Stats} (h : steps lenient items state = .ok (last, total)) :
    steps strict (trimmed lenient trim items state) state = .ok (last, total.noneSkipped) := by
  induction items generalizing state total with
  | nil =>
      obtain ⟨rfl, rfl⟩ := Prod.mk.inj (Except.ok.inj h)
      rfl
  | cons item rest ih =>
      obtain ⟨next, done, further, hnext, hrest, rfl⟩ := steps_cons_eq_ok_iff.1 h
      have hlast := ih hrest
      rw [Stats.noneSkipped_add]
      simp only [trimmed, hnext]
      -- An item that goes left the state as it was and counted as skipped only.
      rcases hstep hnext with ⟨htrim, rfl, rfl⟩ | ⟨item', htrim, hitem⟩
      · rw [htrim, Option.toList_none, List.nil_append, hlast]
        exact congrArg (fun total => Except.ok (last, total)) (Stats.zero_add _).symm
      · rw [htrim, Option.toList_some, List.singleton_append]
        exact steps_cons_eq_ok_iff.2 ⟨next, _, _, hitem, hlast, rfl⟩

/-! ### The first fault -/

/-- The merge stops, or skips something. -/
def Stumbles (progress : Progress β) : Prop :=
  ∀ state done, progress = .ok (state, done) → done.attributesSkipped ≠ 0

theorem Refines.stumbles {first second : Progress β} (h : Refines first second) {error : Error}
    (herror : first = .error error) : Stumbles second := by
  intro state done hsecond hclean
  rw [(h state done).2 ⟨hsecond, hclean⟩] at herror
  cases herror

/-- The first item at which a run stops or skips something, and the fault that it meets there. -/
def FirstFault (step : α → β → Progress β) (fault : α → β → Error → Prop) (items : List α) (state : β)
    (error : Error) : Prop :=
  ∃ before item after middle done, items = before ++ item :: after ∧
    steps step before state = .ok (middle, done) ∧ done.attributesSkipped = 0 ∧
    Stumbles (step item middle) ∧ fault item middle error

/-- A run whose steps fail for faults fails for the first fault that a run beside it meets. -/
theorem steps_eq_error_iff_firstFault {fault : α → β → Error → Prop}
    (hstep : ∀ item state, Refines (strict item state) (lenient item state))
    (hfault : ∀ item state error, strict item state = .error error ↔ fault item state error) {items : List α}
    {state : β} {error : Error} :
    steps strict items state = .error error ↔ FirstFault lenient fault items state error := by
  rw [steps_eq_error_iff]
  constructor
  · rintro ⟨before, item, after, middle, done, rfl, hbefore, hitem⟩
    obtain ⟨hbefore', hclean⟩ := (steps_refines hstep before state middle done).1 hbefore
    exact ⟨before, item, after, middle, done, rfl, hbefore', hclean, (hstep item middle).stumbles hitem,
      (hfault item middle error).1 hitem⟩
  · rintro ⟨before, item, after, middle, done, rfl, hbefore, hclean, -, hitem⟩
    exact ⟨before, item, after, middle, done, rfl,
      (steps_refines hstep before state middle done).2 ⟨hbefore, hclean⟩, (hfault item middle error).2 hitem⟩

end Steps

/-! ### The attributes of an entry -/

section Attributes

variable {rule : String} {target : Value} {prune : Bool}

theorem attributesSkipped_mergeAttribute {key value merged : Value} {done : Stats}
    (h : mergeAttribute rule key value target = .ok (merged, done)) : done.attributesSkipped = 0 := by
  obtain ⟨name, change, -, -, -, -, rfl⟩ := mergeAttribute_eq_ok_iff.1 h
  cases change <;> rfl

theorem attributeStep_refines (prune : Bool) (rule : String) (item : Value × Value) (target : Value) :
    Refines (attributeStep ⟨false, prune⟩ rule item target) (attributeStep ⟨true, prune⟩ rule item target) := by
  unfold attributeStep
  cases hm : mergeAttribute rule item.1 item.2 target with
  | error error => exact tolerate_refines prune error target
  | ok progress => exact .of_ok (attributesSkipped_mergeAttribute hm)

/-- Why an attribute cannot be merged into a rule. -/
def attributeFault (rule : String) (item : Value × Value) (target : Value) (error : Error) : Prop :=
  mergeAttribute rule item.1 item.2 target = .error error

theorem attributeStep_strict_eq_error_iff (item : Value × Value) (target : Value) (error : Error) :
    attributeStep ⟨false, prune⟩ rule item target = .error error ↔ attributeFault rule item target error :=
  attributeStep_eq_error_iff.trans (and_iff_right rfl)

/-- A lenient run over attributes succeeds, whatever they are. -/
theorem attributes_lenient (prune : Bool) (rule : String) (items : List (Value × Value)) (target : Value) :
    ∃ merged done, attributes ⟨true, prune⟩ rule items target = .ok (merged, done) := by
  cases h : attributes ⟨true, prune⟩ rule items target with
  | ok progress => exact ⟨progress.1, progress.2, rfl⟩
  | error error =>
      obtain ⟨before, item, after, middle, done, -, -, hitem⟩ := steps_eq_error_iff.1 h
      obtain ⟨hstrict, -⟩ := attributeStep_eq_error_iff.1 hitem
      cases hstrict

/-- An attribute, unless it cannot be merged. -/
def trimAttribute (rule : String) (item : Value × Value) (target : Value) : Option (Value × Value) :=
  match mergeAttribute rule item.1 item.2 target with
  | .ok _ => some item
  | .error _ => none

/-- The attributes that a lenient run does not skip. -/
def trimAttributes (prune : Bool) (rule : String) : List (Value × Value) → Value → List (Value × Value) :=
  trimmed (attributeStep ⟨true, prune⟩ rule) (trimAttribute rule)

theorem attributes_trimmed {items : List (Value × Value)} {merged : Value} {done : Stats}
    (h : attributes ⟨true, prune⟩ rule items target = .ok (merged, done)) :
    attributes ⟨false, prune⟩ rule (trimAttributes prune rule items target) target =
      .ok (merged, done.noneSkipped) := by
  refine steps_trimmed (fun {item state next done} hstep => ?_) h
  rcases attributeStep_cases hstep with hm | ⟨-, ⟨error, hm⟩, rfl, rfl⟩
  · have hclean : done.noneSkipped = done := by
      rw [Stats.noneSkipped, ← attributesSkipped_mergeAttribute hm]
    refine .inr ⟨item, by rw [trimAttribute, hm], ?_⟩
    rw [attributeStep, hm, hclean]
  · exact .inl ⟨by rw [trimAttribute, hm], rfl, rfl⟩

end Attributes

/-! ### One entry -/

section Entry

variable {item : Value × Value} {rules : RuleSet} {prune : Bool}

theorem entryStep_refines (prune : Bool) (item : Value × Value) (rules : RuleSet) :
    Refines (entryStep ⟨false, prune⟩ item rules) (entryStep ⟨true, prune⟩ item rules) := by
  intro next done
  rw [entryStep_eq_ok_iff, entryStep_eq_ok_iff]
  constructor
  · intro h
    cases h with
    | nameless _ hlenient => cases hlenient
    | malformed _ _ _ hlenient => cases hlenient
    | unknown hkey hrule hprune => exact ⟨.unknown hkey hrule hprune, rfl⟩
    | empty hkey hrule hvalue => exact ⟨.empty hkey hrule hvalue, rfl⟩
    | merged hkey hrule hvalue hmerged =>
        obtain ⟨hmerged', hclean⟩ := (steps_refines (attributeStep_refines prune _) _ _ _ _).1 hmerged
        exact ⟨.merged hkey hrule hvalue hmerged', hclean⟩
  · rintro ⟨h, hclean⟩
    cases h with
    | nameless => cases hclean
    | malformed => cases hclean
    | unknown hkey hrule hprune => exact .unknown hkey hrule hprune
    | empty hkey hrule hvalue => exact .empty hkey hrule hvalue
    | merged hkey hrule hvalue hmerged =>
        exact .merged hkey hrule hvalue
          ((steps_refines (attributeStep_refines prune _) _ _ _ _).2 ⟨hmerged, hclean⟩)

/-- A lenient overlay fails at an entry for a rule that is not defined and for nothing else. -/
theorem entryStep_lenient_eq_error_iff {error : Error} :
    entryStep ⟨true, prune⟩ item rules = .error error ↔
      prune = false ∧ ∃ rule, item.1.keyText? = some rule ∧ rule ∉ rules.names ∧ error = .unknownRule rule := by
  rw [entryStep_eq_error_iff]
  constructor
  · intro h
    cases h with
    | nameless _ hstrict => cases hstrict
    | malformed _ _ _ hstrict => cases hstrict
    | unknown hkey hrule hprune => exact ⟨hprune, _, hkey, (rules.get?_eq_none_iff _).1 hrule, rfl⟩
    | merge _ _ _ herror =>
        obtain ⟨merged, done, hmerged⟩ := attributes_lenient prune _ _ _
        rw [hmerged] at herror
        cases herror
  · rintro ⟨hprune, rule, hkey, hrule, rfl⟩
    exact .unknown hkey ((rules.get?_eq_none_iff rule).2 hrule) hprune

/-- What is wrong with an entry, or with the first of its attributes that cannot be merged. -/
inductive EntryFault (prune : Bool) (item : Value × Value) (rules : RuleSet) : Error → Prop where
  /-- The key is no name. -/
  | nameless (hkey : item.1.keyText? = none) : EntryFault prune item rules (.invalidEntry item.1.outline)
  /-- The rule is not defined, and such entries are not dropped. -/
  | unknown {rule : String} (hkey : item.1.keyText? = some rule) (hrule : rules.get? rule = none)
      (hprune : prune = false) : EntryFault prune item rules (.unknownRule rule)
  /-- The entry holds no attributes. -/
  | malformed {rule : String} {target : Value} (hkey : item.1.keyText? = some rule)
      (hrule : rules.get? rule = some target) (hvalue : Malformed item.2) :
      EntryFault prune item rules (.invalidEntry rule)
  /-- An attribute cannot be merged, after all before it were. -/
  | merge {rule : String} {target : Value} {localized : List (Value × Value)} {error : Error}
      (hkey : item.1.keyText? = some rule) (hrule : rules.get? rule = some target)
      (hvalue : item.2 = .mapping localized)
      (hfault : FirstFault (attributeStep ⟨true, prune⟩ rule) (attributeFault rule) localized target error) :
      EntryFault prune item rules error

theorem attributes_strict_eq_error_iff {rule : String} {localized : List (Value × Value)} {target : Value}
    {error : Error} :
    attributes ⟨false, prune⟩ rule localized target = .error error ↔
      FirstFault (attributeStep ⟨true, prune⟩ rule) (attributeFault rule) localized target error :=
  steps_eq_error_iff_firstFault (attributeStep_refines prune rule) attributeStep_strict_eq_error_iff

theorem entryStep_strict_eq_error_iff (item : Value × Value) (rules : RuleSet) (error : Error) :
    entryStep ⟨false, prune⟩ item rules = .error error ↔ EntryFault prune item rules error := by
  rw [entryStep_eq_error_iff]
  constructor
  · intro h
    cases h with
    | nameless hkey => exact .nameless hkey
    | unknown hkey hrule hprune => exact .unknown hkey hrule hprune
    | malformed hkey hrule hvalue => exact .malformed hkey hrule hvalue
    | merge hkey hrule hvalue herror => exact .merge hkey hrule hvalue (attributes_strict_eq_error_iff.1 herror)
  · intro h
    cases h with
    | nameless hkey => exact .nameless hkey rfl
    | unknown hkey hrule hprune => exact .unknown hkey hrule hprune
    | malformed hkey hrule hvalue => exact .malformed hkey hrule hvalue rfl
    | merge hkey hrule hvalue hfault => exact .merge hkey hrule hvalue (attributes_strict_eq_error_iff.2 hfault)

/-- An entry with the attributes that a lenient overlay does not skip, unless it skips the entry as a whole. -/
def trimEntry (prune : Bool) (item : Value × Value) (rules : RuleSet) : Option (Value × Value) :=
  match item.1.keyText? with
  | none => none
  | some rule =>
    match rules.get? rule with
    | none => some item
    | some target =>
      match item.2 with
      | .mapping localized => some (item.1, .mapping (trimAttributes prune rule localized target))
      | .null => some item
      | _ => none

/-- An entry goes if it is skipped as a whole; else, without the attributes that are skipped, it does as much. -/
theorem entryStep_trimmed {next : RuleSet} {done : Stats}
    (h : entryStep ⟨true, prune⟩ item rules = .ok (next, done)) :
    (trimEntry prune item rules = none ∧ next = rules ∧ done = .skipped) ∨
      ∃ item', trimEntry prune item rules = some item' ∧
        entryStep ⟨false, prune⟩ item' rules = .ok (next, done.noneSkipped) := by
  cases entryStep_eq_ok_iff.1 h with
  | nameless hkey => exact .inl ⟨by rw [trimEntry, hkey], rfl, rfl⟩
  | @malformed rule target hkey hrule hvalue =>
      refine .inl ⟨?_, rfl, rfl⟩
      obtain ⟨key, value⟩ := item
      obtain ⟨hmapping, hnull⟩ := hvalue
      simp only [trimEntry, hkey, hrule]
  | unknown hkey hrule hprune =>
      refine .inr ⟨item, by simp only [trimEntry, hkey, hrule], ?_⟩
      rw [entryStep_of_unknown hkey hrule, if_pos hprune]
      rfl
  | empty hkey hrule hvalue =>
      refine .inr ⟨item, by simp only [trimEntry, hkey, hrule, hvalue], ?_⟩
      rw [entryStep_of_null hkey hrule hvalue]
      rfl
  | @merged rule target merged localized done hkey hrule hvalue hmerged =>
      have hdone : EntryDone ⟨false, prune⟩ (item.1, .mapping (trimAttributes prune rule localized target)) rules
          (rules.insert rule merged) done.noneSkipped.closeEntry :=
        .merged hkey hrule rfl (attributes_trimmed hmerged)
      exact .inr ⟨_, by simp only [trimEntry, hkey, hrule, hvalue], entryStep_eq_ok_iff.2 hdone⟩

end Entry

/-! ### Overlays -/

/-- The localization without the entries and the attributes that a lenient overlay skips. -/
def trimLocalization (prune : Bool) (localization : Localization) (base : RuleSet) : Localization :=
  ⟨trimmed (entryStep ⟨true, prune⟩) (trimEntry prune) localization.entries base⟩

/-- The rule is that of the first entry, in document order, whose rule is not defined. -/
def FirstUnknown (localization : Localization) (base : RuleSet) (rule : String) : Prop :=
  ∃ before item after, localization.entries = before ++ item :: after ∧ item.1.keyText? = some rule ∧
    rule ∉ base.names ∧ ∀ earlier ∈ before, ∀ name, earlier.1.keyText? = some name → name ∈ base.names

section Apply

variable {prune : Bool} {localization : Localization} {base : RuleSet}

/-- A strict overlay succeeds when the lenient one skips nothing, with the same outcome. -/
theorem apply_refines (prune : Bool) (localization : Localization) (base : RuleSet) :
    Refines (apply ⟨false, prune⟩ localization base) (apply ⟨true, prune⟩ localization base) :=
  steps_refines (entryStep_refines prune) localization.entries base

/-- Entries that a lenient overlay takes one by one, none being dropped, are of rules that are defined. -/
theorem entries_lenient_known {before : List (Value × Value)} {middle : RuleSet} {done : Stats}
    (h : entries ⟨true, false⟩ before base = .ok (middle, done)) :
    ∀ earlier ∈ before, ∀ name, earlier.1.keyText? = some name → name ∈ base.names := by
  intro earlier hearlier name hname
  obtain ⟨left, right, rfl⟩ := List.append_of_mem hearlier
  obtain ⟨rules, done₁, done₂, hleft, hright, -⟩ := steps_append_eq_ok_iff.1 h
  obtain ⟨next, done₃, done₄, hitem, -, -⟩ := steps_cons_eq_ok_iff.1 hright
  refine Classical.byContradiction fun hmem => ?_
  have herror : entryStep ⟨true, false⟩ earlier rules = .error (.unknownRule name) :=
    entryStep_lenient_eq_error_iff.2 ⟨rfl, name, hname, by rwa [entries_names hleft], rfl⟩
  rw [herror] at hitem
  cases hitem

/-- A lenient overlay fails for the first rule that is not defined, if entries of such rules are not dropped. -/
theorem apply_lenient_eq_error_iff {error : Error} :
    apply ⟨true, prune⟩ localization base = .error error ↔
      prune = false ∧ ∃ rule, FirstUnknown localization base rule ∧ error = .unknownRule rule := by
  constructor
  · intro h
    obtain ⟨before, item, after, middle, done, hitems, hbefore, hitem⟩ := steps_eq_error_iff.1 h
    obtain ⟨rfl, rule, hkey, hrule, rfl⟩ := entryStep_lenient_eq_error_iff.1 hitem
    rw [entries_names hbefore] at hrule
    exact ⟨rfl, rule, ⟨before, item, after, hitems, hkey, hrule, entries_lenient_known hbefore⟩, rfl⟩
  · rintro ⟨rfl, rule, ⟨before, item, after, hitems, hkey, hrule, hknown⟩, rfl⟩
    -- Nothing before the entry stops the run: that would take a rule that is not defined.
    have hbefore : ∃ middle done, entries ⟨true, false⟩ before base = .ok (middle, done) := by
      cases h : entries ⟨true, false⟩ before base with
      | ok progress => exact ⟨progress.1, progress.2, rfl⟩
      | error error =>
          obtain ⟨left, earlier, right, rules, done, rfl, hleft, hearlier⟩ := steps_eq_error_iff.1 h
          obtain ⟨-, name, hname, hmem, -⟩ := entryStep_lenient_eq_error_iff.1 hearlier
          rw [entries_names hleft] at hmem
          exact absurd (hknown earlier (by simp) name hname) hmem
    obtain ⟨middle, done, hmiddle⟩ := hbefore
    refine steps_eq_error_iff.2 ⟨before, item, after, middle, done, hitems, hmiddle, ?_⟩
    exact entryStep_lenient_eq_error_iff.2 ⟨rfl, rule, hkey, by rwa [entries_names hmiddle], rfl⟩

/-- A lenient overlay that drops the entries of rules that are not defined always succeeds. -/
theorem apply_lenient_prune (localization : Localization) (base : RuleSet) :
    ∃ rules stats, apply ⟨true, true⟩ localization base = .ok (rules, stats) := by
  cases h : apply ⟨true, true⟩ localization base with
  | ok progress => exact ⟨progress.1, progress.2, rfl⟩
  | error error =>
      obtain ⟨hprune, -⟩ := apply_lenient_eq_error_iff.1 h
      cases hprune

/-- Without what the lenient overlay skips, the strict one does as much. -/
theorem apply_trimmed {rules : RuleSet} {stats : Stats}
    (h : apply ⟨true, prune⟩ localization base = .ok (rules, stats)) :
    apply ⟨false, prune⟩ (trimLocalization prune localization base) base = .ok (rules, stats.noneSkipped) :=
  steps_trimmed entryStep_trimmed h

/-- A strict overlay fails for the first fault that the lenient one meets. -/
theorem apply_strict_eq_error_iff {error : Error} :
    apply ⟨false, prune⟩ localization base = .error error ↔
      FirstFault (entryStep ⟨true, prune⟩) (EntryFault prune) localization.entries base error :=
  steps_eq_error_iff_firstFault (entryStep_refines prune) entryStep_strict_eq_error_iff

end Apply

/-- **A lenient overlay refines a strict one.** For either way of treating rules that are not defined:
a strict overlay succeeds when the lenient one skips nothing, with the same outcome; a lenient overlay fails for
the first rule that is not defined and for nothing else, and never if such entries are dropped; without what a
lenient overlay skips, a strict one has its outcome; and a strict overlay fails for the first fault that the
lenient one meets. -/
theorem lenient_refines_strict (prune : Bool) (localization : Localization) (base : RuleSet) :
    (∀ rules stats, apply ⟨false, prune⟩ localization base = .ok (rules, stats) ↔
        apply ⟨true, prune⟩ localization base = .ok (rules, stats) ∧ stats.attributesSkipped = 0) ∧
      (∀ error, apply ⟨true, prune⟩ localization base = .error error ↔
        prune = false ∧ ∃ rule, FirstUnknown localization base rule ∧ error = .unknownRule rule) ∧
      (∃ rules stats, apply ⟨true, true⟩ localization base = .ok (rules, stats)) ∧
      (∀ rules stats, apply ⟨true, prune⟩ localization base = .ok (rules, stats) →
        apply ⟨false, prune⟩ (trimLocalization prune localization base) base =
          .ok (rules, stats.noneSkipped)) ∧
      ∀ error, apply ⟨false, prune⟩ localization base = .error error ↔
        FirstFault (entryStep ⟨true, prune⟩) (EntryFault prune) localization.entries base error :=
  ⟨apply_refines prune localization base, fun _ => apply_lenient_eq_error_iff,
    apply_lenient_prune localization base, fun _ _ => apply_trimmed, fun _ => apply_strict_eq_error_iff⟩

/-- An attribute that fits, and after it an attribute and an entry without a name. -/
def sampleFaulty : Localization :=
  ⟨[(.string "prime", .mapping [(.string "titre", .string "Bonus"), (.null, .null)]), (.null, .null)]⟩

theorem lenient_refines_strict_sample :
    apply ⟨true, false⟩ sampleFaulty sampleBase =
        .ok (sampleBase.insert "prime" (.mapping [(.string "titre", .string "Bonus")]), ⟨1, 1, 0, 2, 0⟩) ∧
      apply ⟨false, false⟩ ⟨[(.string "prime", .mapping [(.string "titre", .string "Bonus")])]⟩ sampleBase =
        .ok (sampleBase.insert "prime" (.mapping [(.string "titre", .string "Bonus")]), ⟨1, 1, 0, 0, 0⟩) := by
  obtain ⟨-, -, -, htrimmed, -⟩ := lenient_refines_strict false sampleFaulty sampleBase
  exact ⟨rfl, htrimmed _ _ rfl⟩

end Overlay

end Rulebook
