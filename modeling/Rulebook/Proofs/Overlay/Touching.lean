import Mathlib.Data.List.Dedup
import Mathlib.Data.List.Perm.Subperm
import Rulebook.Proofs.Overlay.Accounting
import Rulebook.Proofs.Overlay.Reordering

/-!
# The rules that an overlay touches

An entry of a localization touches a rule if at least one of its attributes is merged into it. Whether it does can be
told from the base, since no merge changes what a rule offers. This module provides:

* `touched` — the rules that the entries touch, one for each entry that touches one;
* `attributes_applied`, `entries_rulesLocalized` — a run merges the attributes that fit, and counts one rule for each
  entry that touches one;
* `mem_touched_iff` — the rules touched are those into which, in the course of the run, an attribute is merged
  (`Receives`); and
* `rulesLocalized_counts` — so a rule is counted once for each entry that touches it, and not once for all of them.
-/

namespace Rulebook

namespace Overlay

open Rulebook.Localization (NamesApart)

/-! ### Touching -/

/-- The attribute is merged into a rule with that entry. -/
def isMerged (rule : String) (target : Value) (item : Value × Value) : Bool :=
  match mergeAttribute rule item.1 item.2 target with
  | .ok (_, done) => done = .applied
  | .error _ => false

/-- The rule that an entry touches: it is defined, and one of the attributes that the entry holds is merged into it. -/
def touched? (base : RuleSet) (entry : Value × Value) : Option String :=
  match entry.1.keyText?, entry.2 with
  | some rule, .mapping localized =>
    if (base.get? rule).any fun target => localized.any (isMerged rule target) then some rule else none
  | _, _ => none

/-- The rules that the entries of a localization touch, in the order of the entries. -/
def touched (base : RuleSet) (localization : Localization) : List String :=
  localization.entries.filterMap (touched? base)

/-- The overlay comes to an attribute of an entry for the rule, and merges it. -/
inductive Receives (options : Options) (localization : Localization) (base : RuleSet) (rule : String) : Prop where
  | intro {before after first rest : List (Value × Value)} {key : Value} {item : Value × Value} {rules : RuleSet}
      {target current merged : Value} {done done' : Stats}
      (hentries : localization.entries = before ++ (key, .mapping (first ++ item :: rest)) :: after)
      (hkey : key.keyText? = some rule)
      (hbefore : entries options before base = .ok (rules, done))
      (hrule : rules.get? rule = some target)
      (hfirst : attributes options rule first target = .ok (current, done'))
      (hmerged : mergeAttribute rule item.1 item.2 current = .ok (merged, .applied)) :
      Receives options localization base rule

section

variable {options : Options} {rule : String} {target current merged : Value} {item : Value × Value} {done : Stats}

theorem isMerged_iff :
    isMerged rule target item = true ↔
      ∃ merged, mergeAttribute rule item.1 item.2 target = .ok (merged, .applied) := by
  unfold isMerged
  cases mergeAttribute rule item.1 item.2 target with
  | error error => simp
  | ok progress => simp [Prod.ext_iff]

/-- Rules with the same offer take the same attributes. -/
theorem isMerged_congr (h : SameOffer target current) : isMerged rule target item = isMerged rule current item := by
  have hagree := mergeAttribute_agree rule item.1 item.2 h
  unfold isMerged
  generalize mergeAttribute rule item.1 item.2 target = first at hagree ⊢
  generalize mergeAttribute rule item.1 item.2 current = second at hagree ⊢
  cases hagree <;> rfl

theorem attributeStep_applied (h : attributeStep options rule item target = .ok (merged, done)) :
    done.attributesApplied = [item].countP (isMerged rule target) := by
  rcases attributeStep_cases h with hmerge | ⟨-, ⟨error, hmerge⟩, -, rfl⟩
  · obtain ⟨name, change, -, -, -, -, rfl⟩ := mergeAttribute_eq_ok_iff.1 hmerge
    cases change <;> simp [isMerged, hmerge, Attribute.stats, Stats.reference, Stats.applied, Stats.zero]
  · simp [isMerged, hmerge, Stats.skipped, Stats.zero]

/-- A run over attributes merges those that fit the rule as it was at the start. -/
theorem attributes_applied {items : List (Value × Value)}
    (h : attributes options rule items target = .ok (merged, done)) :
    done.attributesApplied = items.countP (isMerged rule target) := by
  have hadditive : Additive Stats.attributesApplied (List.countP (isMerged rule target)) := by
    refine ⟨rfl, Stats.attributesApplied_add, rfl, fun item rest => ?_⟩
    simp only [List.countP_cons, List.countP_nil]
    omega
  refine steps_measure (P := SameOffer target) hadditive (fun hoffer hstep => hoffer.trans (attributeStep_offer hstep))
    (fun hoffer hstep => ?_) rfl h
  rw [attributeStep_applied hstep]
  exact List.countP_congr fun _ _ => by rw [isMerged_congr hoffer]

/-- It merges none if none fits. -/
theorem attributesApplied_eq_zero_iff {items : List (Value × Value)}
    (h : attributes options rule items target = .ok (merged, done)) :
    done.attributesApplied = 0 ↔ items.any (isMerged rule target) = false := by
  rw [attributes_applied h, List.countP_eq_zero, List.any_eq_false]

end

/-! ### Entries that touch a rule -/

section

variable {options : Options} {base rules next last : RuleSet} {item : Value × Value} {items : List (Value × Value)}
  {rule name : String} {done total : Stats}

theorem touched?_eq_some_iff :
    touched? base item = some rule ↔
      item.1.keyText? = some rule ∧ ∃ target localized, base.get? rule = some target ∧ item.2 = .mapping localized ∧
        localized.any (isMerged rule target) = true := by
  unfold touched?
  constructor
  · intro h
    split at h
    · next rule' localized hkey hvalue =>
        split at h
        · next hany =>
            obtain rfl := Option.some.inj h
            obtain ⟨target, hrule, hmerged⟩ := (Option.any_eq_true _ _).1 hany
            exact ⟨hkey, target, localized, hrule, hvalue, hmerged⟩
        · cases h
    · cases h
  · rintro ⟨hkey, target, localized, hrule, hvalue, hmerged⟩
    simp [hkey, hvalue, hrule, hmerged]

theorem touched?_of_mapping {target : Value} {localized : List (Value × Value)} (hkey : item.1.keyText? = some rule)
    (hrule : rules.get? rule = some target) (hvalue : item.2 = .mapping localized) :
    touched? rules item = if localized.any (isMerged rule target) then some rule else none := by
  simp only [touched?, hkey, hvalue, hrule, Option.any_some]

/-- Which rules are touched is a matter of what they offer. -/
theorem touched?_congr (h : SameOffers base rules) : touched? rules item = touched? base item := by
  have hany : ∀ (rule : String) (localized : List (Value × Value)),
      ((rules.get? rule).any fun target => localized.any (isMerged rule target)) =
        (base.get? rule).any fun target => localized.any (isMerged rule target) := by
    intro rule localized
    cases hrule : base.get? rule with
    | none => rw [h.get?_eq_none hrule]
    | some target =>
        obtain ⟨current, hcurrent, hoffer⟩ := h.get?_eq_some hrule
        have hsame : isMerged rule current = isMerged rule target := funext fun _ => (isMerged_congr hoffer).symm
        rw [hcurrent, Option.any_some, Option.any_some, hsame]
  unfold touched?
  simp only [hany]

/-- An entry counts as one rule if it touches one. -/
theorem entryStep_rulesLocalized (h : entryStep options item rules = .ok (next, done)) :
    done.rulesLocalized = ([item].filterMap (touched? rules)).length := by
  cases entryStep_eq_ok_iff.1 h with
  | nameless hkey _ => simp [touched?, hkey, Stats.skipped, Stats.zero]
  | unknown hkey hrule _ => cases hvalue : item.2 <;> simp [touched?, hkey, hvalue, hrule, Stats.pruned, Stats.zero]
  | empty hkey _ hvalue => simp [touched?, hkey, hvalue, Stats.zero]
  | malformed hkey _ hvalue _ =>
      have hnone : touched? rules item = none := by
        refine Option.eq_none_iff_forall_ne_some.2 fun rule htouched => ?_
        obtain ⟨-, -, localized, -, hmapping, -⟩ := touched?_eq_some_iff.1 htouched
        exact hvalue.1 localized hmapping
      simp [hnone, Stats.skipped, Stats.zero]
  | @merged rule target merged localized done hkey hrule hvalue hmerged =>
      rw [List.filterMap_cons, touched?_of_mapping hkey hrule hvalue]
      cases hany : localized.any (isMerged rule target) with
      | true =>
          have hsome : done.attributesApplied ≠ 0 := fun hnone => by
            rw [(attributesApplied_eq_zero_iff hmerged).1 hnone] at hany
            cases hany
          exact if_neg hsome
      | false => exact if_pos ((attributesApplied_eq_zero_iff hmerged).2 hany)

/-- A run counts one rule for each entry that touches one. -/
theorem entries_rulesLocalized (h : entries options items base = .ok (last, total)) :
    total.rulesLocalized = (items.filterMap (touched? base)).length := by
  have hadditive : Additive Stats.rulesLocalized fun items => (items.filterMap (touched? base)).length := by
    refine ⟨rfl, Stats.rulesLocalized_add, rfl, fun item rest => ?_⟩
    rw [← List.singleton_append, List.filterMap_append, List.length_append]
  refine steps_measure (P := SameOffers base) hadditive
    (fun hoffers hstep => hoffers.trans (entryStep_sameOffers hstep)) (fun hoffers hstep => ?_) (.refl base) h
  have hsame : touched? _ = touched? base := funext fun _ => touched?_congr hoffers
  rw [entryStep_rulesLocalized hstep, hsame]

/-! ### Rules that are not touched -/

/-- A rule that an entry does not touch stays as it is. -/
theorem entryStep_untouched (h : entryStep options item rules = .ok (next, done))
    (hname : touched? rules item ≠ some name) : next.get? name = rules.get? name := by
  cases entryStep_eq_ok_iff.1 h with
  | @merged rule target merged localized done hkey hrule hvalue hmerged =>
      by_cases heq : rule = name
      · subst heq
        rw [touched?_of_mapping hkey hrule hvalue] at hname
        have hnone : localized.any (isMerged rule target) = false := by
          by_contra hany
          exact hname (if_pos (Bool.of_not_eq_false hany))
        obtain ⟨rfl, -⟩ := attributes_idle hmerged ((attributesApplied_eq_zero_iff hmerged).2 hnone)
        rw [RuleSet.insert_of_get? hrule]
      · exact RuleSet.get?_insert_of_ne rules heq merged
  | _ => rfl

theorem entries_untouched (h : entries options items base = .ok (last, total))
    (hname : name ∉ items.filterMap (touched? base)) : last.get? name = base.get? name := by
  have hkeep : SameOffers base last ∧ last.get? name = base.get? name := by
    refine steps_keep (P := fun state => SameOffers base state ∧ state.get? name = base.get? name) ?_ h
      ⟨.refl base, rfl⟩
    rintro item hitem state next done hstep ⟨hoffers, hget⟩
    have hno : touched? state item ≠ some name := by
      rw [touched?_congr hoffers]
      exact fun htouched => hname (List.mem_filterMap.2 ⟨item, hitem, htouched⟩)
    exact ⟨hoffers.trans (entryStep_sameOffers hstep), (entryStep_untouched hstep hno).trans hget⟩
  exact hkeep.2

/-- The rules touched are rules of the base. -/
theorem touched_subset {localization : Localization} : touched base localization ⊆ base.names := by
  intro rule hrule
  obtain ⟨entry, -, hentry⟩ := List.mem_filterMap.1 hrule
  obtain ⟨-, target, -, hget, -, -⟩ := touched?_eq_some_iff.1 hentry
  exact RuleSet.mem_names_of_get? hget

/-- Entries for different rules touch different rules. -/
theorem touched_nodup {localization : Localization} (hapart : NamesApart localization.entries) :
    (touched base localization).Nodup := by
  refine List.pairwise_filterMap.2 ((List.pairwise_filterMap.1 hapart).imp fun hnames rule hrule rule' hrule' => ?_)
  exact hnames rule (touched?_eq_some_iff.1 hrule).1 rule' (touched?_eq_some_iff.1 hrule').1

end

/-! ### Rules that receive an attribute -/

section

variable {options : Options} {localization : Localization} {base rules : RuleSet} {rule : String} {stats : Stats}

/-- A rule that receives an attribute is touched. -/
theorem Receives.mem_touched (h : Receives options localization base rule) : rule ∈ touched base localization := by
  cases h with
  | @intro before after first rest key item rules target current merged _ _ hentries hkey hbefore hrule hrun hmerged =>
      have hmem : (key, .mapping (first ++ item :: rest)) ∈ localization.entries :=
        hentries ▸ List.mem_append_right _ List.mem_cons_self
      refine List.mem_filterMap.2 ⟨_, hmem, ?_⟩
      rw [← touched?_congr (entries_sameOffers hbefore)]
      refine touched?_eq_some_iff.2 ⟨hkey, target, _, hrule, rfl, List.any_eq_true.2 ⟨item, by simp, ?_⟩⟩
      rw [isMerged_congr (attributes_offer hrun)]
      exact isMerged_iff.2 ⟨merged, hmerged⟩

/-- The rules touched are those that receive an attribute in the course of the run. -/
theorem mem_touched_iff (h : apply options localization base = .ok (rules, stats)) :
    rule ∈ touched base localization ↔ Receives options localization base rule := by
  refine ⟨fun hrule => ?_, Receives.mem_touched⟩
  obtain ⟨⟨key, value⟩, hentry, htouched⟩ := List.mem_filterMap.1 hrule
  obtain ⟨before, after, middle, done, next, further, hentries, hbefore, hstep⟩ := steps_come h hentry
  rw [← touched?_congr (entries_sameOffers hbefore)] at htouched
  obtain ⟨hkey, target, localized, hget, hvalue, hany⟩ := touched?_eq_some_iff.1 htouched
  obtain rfl : value = .mapping localized := hvalue
  obtain ⟨item, hitem, hmerged⟩ := List.any_eq_true.1 hany
  rw [entryStep_of_mapping hkey hget rfl] at hstep
  cases hrun : attributes options rule localized target with
  | error error =>
      rw [hrun] at hstep
      cases hstep
  | ok progress =>
      obtain ⟨first, rest, current, done', next', further', rfl, hfirst, -⟩ := steps_come hrun hitem
      rw [isMerged_congr (attributes_offer hfirst)] at hmerged
      obtain ⟨merged, hmerged⟩ := isMerged_iff.1 hmerged
      exact .intro hentries hkey hbefore hget hfirst hmerged

/-- **Rules are counted by entry.** Of an overlay that succeeds, with any options: the rules touched are those that
receive an attribute in the course of the run, every rule that is not what it was in the base is one of them, and there
are no more of them than rules in the base. What the overlay counts is not these rules but the entries that touch one.
That is the same number exactly if no two entries touch one rule, as is so if no two are for one rule, and a greater one
otherwise. -/
theorem rulesLocalized_counts (h : apply options localization base = .ok (rules, stats)) :
    stats.rulesLocalized = (touched base localization).length ∧
      (∀ rule, rule ∈ touched base localization ↔ Receives options localization base rule) ∧
      (∀ rule, rules.get? rule ≠ base.get? rule → rule ∈ touched base localization) ∧
      (touched base localization).dedup.length ≤ base.size ∧
      (touched base localization).dedup.length ≤ stats.rulesLocalized ∧
      (stats.rulesLocalized = (touched base localization).dedup.length ↔ (touched base localization).Nodup) ∧
      (NamesApart localization.entries → (touched base localization).Nodup) := by
  have hcount : stats.rulesLocalized = (touched base localization).length := entries_rulesLocalized h
  have hdedup : (touched base localization).dedup.Sublist (touched base localization) := List.dedup_sublist _
  refine ⟨hcount, fun rule => mem_touched_iff h, fun rule hchanged => ?_, ?_, hcount ▸ hdedup.length_le, ⟨fun heq => ?_,
    fun hnodup => ?_⟩, touched_nodup⟩
  · by_contra hno
    exact hchanged (entries_untouched h hno)
  · have hbase : (touched base localization).dedup ⊆ base.names :=
      List.Subset.trans (List.dedup_subset _) touched_subset
    calc (touched base localization).dedup.length
        ≤ base.names.length := ((List.nodup_dedup _).subperm hbase).length_le
      _ = base.size := List.length_map _
  · rw [← hdedup.eq_of_length (heq.symm.trans hcount)]
    exact List.nodup_dedup _
  · rw [hnodup.dedup, hcount]

theorem rulesLocalized_counts_forward :
    ∃ rules, apply .strict sampleForward sampleBase = .ok (rules, ⟨2, 3, 0, 0, 0⟩) ∧
      NamesApart sampleForward.entries ∧ 2 = (touched sampleBase sampleForward).dedup.length ∧
        Receives .strict sampleForward sampleBase "prime" := by
  have hapart : NamesApart sampleForward.entries := by decide
  obtain ⟨rules, happly⟩ : ∃ rules, apply .strict sampleForward sampleBase = .ok (rules, ⟨2, 3, 0, 0, 0⟩) := ⟨_, rfl⟩
  obtain ⟨-, hreceives, -, -, -, hcounts, hnodup⟩ := rulesLocalized_counts happly
  exact ⟨rules, happly, hapart, hcounts.2 (hnodup hapart), (hreceives "prime").1 (by decide)⟩

/-- One rule, whose name looks like a number. -/
def numberedBase : RuleSet :=
  ⟨[("1", .mapping [(.string "titre", .string "A")])], by decide⟩

/-- Two entries for it, one for each way to write the key. -/
def numberedTwice : Localization :=
  ⟨[(.number (.integer 1), .mapping [(.string "titre", .string "B")]),
    (.string "1", .mapping [(.string "titre", .string "C")])]⟩

/-- The one rule there is counts as two. -/
theorem rule_counted_twice :
    ∃ rules stats, apply .strict numberedTwice numberedBase = .ok (rules, stats) ∧
      stats.rulesLocalized = 2 ∧ numberedBase.size = 1 ∧ (touched numberedBase numberedTwice).dedup = ["1"] :=
  ⟨_, ⟨2, 2, 0, 0, 0⟩, rfl, rfl, rfl, rfl⟩

end

end Overlay

end Rulebook
