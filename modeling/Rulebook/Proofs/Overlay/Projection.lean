import Rulebook.Proofs.Overlay.Fitting

/-!
# An overlay rule by rule

Entries of a localization for different rules do not meet: seen from one rule, an overlay is a run over the
attributes that all entries of that rule hold, one after the other. This module provides
`Localization.attributesFor`, those attributes, and `entries_rule`, which says so; every statement about the
rules of an overlay is then one about runs over attributes.
-/

namespace Rulebook

namespace Localization

/-- The attributes an entry holds for a rule. -/
def heldFor (rule : String) (entry : Value × Value) : List (Value × Value) :=
  match entry.2 with
  | .mapping attributes => if entry.1.keyText? = some rule then attributes else []
  | _ => []

/-- The attributes a localization holds for a rule: those of all its entries, in document order. -/
def attributesFor (rule : String) (localization : Localization) : List (Value × Value) :=
  localization.entries.flatMap (heldFor rule)

variable {rule : String} {entry : Value × Value}

theorem heldFor_of_key_ne (h : entry.1.keyText? ≠ some rule) : heldFor rule entry = [] := by
  obtain ⟨key, value⟩ := entry
  cases value with
  | mapping attributes => exact if_neg h
  | _ => rfl

theorem heldFor_of_not_mapping (h : ∀ attributes, entry.2 ≠ .mapping attributes) : heldFor rule entry = [] := by
  obtain ⟨key, value⟩ := entry
  cases value with
  | mapping attributes => exact absurd rfl (h attributes)
  | _ => rfl

theorem heldFor_of_mapping {attributes : List (Value × Value)} (hkey : entry.1.keyText? = some rule)
    (hvalue : entry.2 = .mapping attributes) : heldFor rule entry = attributes := by
  rw [heldFor, hvalue]
  exact if_pos hkey

end Localization

namespace Overlay

open Rulebook.Localization (heldFor)

variable {options : Options} {rules last : RuleSet} {done : Stats}

/-- What one entry does to one rule: it merges the attributes it holds for the rule. -/
theorem entryStep_rule {item : Value × Value} (h : entryStep options item rules = .ok (last, done))
    {name : String} {target : Value} (hget : rules.get? name = some target) :
    ∃ merged done', last.get? name = some merged ∧
      attributes options name (heldFor name item) target = .ok (merged, done') := by
  -- All entries but one that is merged leave the rules, and what they hold for the rule is nothing.
  have unchanged : heldFor name item = [] → ∃ merged done', rules.get? name = some merged ∧
      attributes options name (heldFor name item) target = .ok (merged, done') := by
    intro hheld
    rw [hheld]
    exact ⟨target, .zero, hget, rfl⟩
  cases entryStep_eq_ok_iff.1 h with
  | nameless hkey _ => exact unchanged (Localization.heldFor_of_key_ne (by simp [hkey]))
  | unknown hkey hrule _ =>
      refine unchanged (Localization.heldFor_of_key_ne ?_)
      rintro heq
      obtain rfl := Option.some.inj (hkey.symm.trans heq)
      rw [hget] at hrule
      cases hrule
  | empty _ _ hvalue => exact unchanged (Localization.heldFor_of_not_mapping (by simp [hvalue]))
  | malformed _ _ hvalue _ => exact unchanged (Localization.heldFor_of_not_mapping hvalue.1)
  | @merged rule target' merged localized done hkey hrule hvalue hmerged =>
      by_cases hname : rule = name
      · subst hname
        obtain rfl := Option.some.inj (hget.symm.trans hrule)
        rw [Localization.heldFor_of_mapping hkey hvalue]
        exact ⟨merged, done, RuleSet.get?_insert_self _ _ _, hmerged⟩
      · have hheld : heldFor name item = [] := Localization.heldFor_of_key_ne (by simp [hkey, hname])
        rw [hheld, RuleSet.get?_insert_of_ne rules hname]
        exact ⟨target, .zero, hget, rfl⟩

/-- What an overlay does to one rule: it merges the attributes that the localization holds for the rule. -/
theorem entries_rule {items : List (Value × Value)} (h : entries options items rules = .ok (last, done))
    {name : String} {target : Value} (hget : rules.get? name = some target) :
    ∃ merged done', last.get? name = some merged ∧
      attributes options name (items.flatMap (heldFor name)) target = .ok (merged, done') := by
  induction items generalizing rules target done with
  | nil =>
      obtain ⟨rfl, -⟩ := Prod.mk.inj (Except.ok.inj h)
      exact ⟨target, .zero, hget, rfl⟩
  | cons item rest ih =>
      obtain ⟨next, done₁, done₂, hitem, hrest, -⟩ := steps_cons_eq_ok_iff.1 h
      obtain ⟨middle, done₃, hmiddle, hheld⟩ := entryStep_rule hitem hget
      obtain ⟨merged, done₄, hlast, hothers⟩ := ih hrest hmiddle
      exact ⟨merged, done₃ + done₄, hlast, steps_append_eq_ok_iff.2 ⟨middle, done₃, done₄, hheld, hothers, rfl⟩⟩

/-- An overlay, seen from one rule of the base. -/
theorem apply_rule {localization : Localization} (h : apply options localization rules = .ok (last, done))
    {name : String} {target : Value} (hget : rules.get? name = some target) :
    ∃ merged done', last.get? name = some merged ∧
      attributes options name (localization.attributesFor name) target = .ok (merged, done') :=
  entries_rule h hget

end Overlay

end Rulebook
