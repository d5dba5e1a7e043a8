import Rulebook.Proofs.Overlay.Steps

/-!
# What a run counts

A run adds up what its steps count, so a statement about counters is one about single steps. This module says so three
times, of any steps:

* `steps_measure` — a number that adds up over counters, and one that adds up over items, are the same for a run if they
  are for each of its steps;
* `steps_idle` — a run that merges nothing leaves everything, if such a step does; and
* `counts?_steps` — where the steps of a run do not meet, each counts what it would have counted at the start, so the
  order of the items does not show in the counters (`sum?_perm`), nor in whether the run succeeds.
-/

namespace Rulebook

namespace Overlay

theorem Stats.add_left_comm (a b c : Stats) : a + (b + c) = b + (a + c) :=
  ext (Nat.add_left_comm _ _ _) (Nat.add_left_comm _ _ _) (Nat.add_left_comm _ _ _) (Nat.add_left_comm _ _ _)
    (Nat.add_left_comm _ _ _)

section

variable {α β γ : Type} {step : α → β → Progress β}

/-! ### Sums -/

/-- A number of counters and a number of items that both add up. -/
structure Additive (measure : Stats → Nat) (weight : List α → Nat) : Prop where
  zero : measure .zero = 0
  add : ∀ a b, measure (a + b) = measure a + measure b
  nil : weight [] = 0
  cons : ∀ item rest, weight (item :: rest) = weight [item] + weight rest

/-- What each step counts for its item, the run counts for all of them. -/
theorem steps_measure {P : β → Prop} {measure : Stats → Nat} {weight : List α → Nat} (h : Additive measure weight)
    (hkeep : ∀ {item state next done}, P state → step item state = .ok (next, done) → P next)
    (hstep : ∀ {item state next done}, P state → step item state = .ok (next, done) → measure done = weight [item])
    {items : List α} {state last : β} {total : Stats} (hstate : P state)
    (hrun : steps step items state = .ok (last, total)) : measure total = weight items := by
  induction items generalizing state total with
  | nil =>
      obtain ⟨-, rfl⟩ := Prod.mk.inj (Except.ok.inj hrun)
      rw [h.zero, h.nil]
  | cons item rest ih =>
      obtain ⟨next, done, further, hnext, hrest, rfl⟩ := steps_cons_eq_ok_iff.1 hrun
      have hlast : measure further = weight rest := ih (hkeep hstate hnext) hrest
      rw [h.add, h.cons, hstep hstate hnext, hlast]

/-- A step that merges nothing leaves the state, and counts no rule. -/
def Idle (before after : β) (done : Stats) : Prop :=
  done.attributesApplied = 0 → after = before ∧ done.rulesLocalized = 0

/-- A run that merges nothing is one of steps that merge nothing. -/
theorem steps_idle (hstep : ∀ {item state next done}, step item state = .ok (next, done) → Idle state next done)
    {items : List α} {state last : β} {total : Stats} (hrun : steps step items state = .ok (last, total)) :
    Idle state last total := by
  induction items generalizing state total with
  | nil =>
      intro _
      obtain ⟨rfl, rfl⟩ := Prod.mk.inj (Except.ok.inj hrun)
      exact ⟨rfl, rfl⟩
  | cons item rest ih =>
      intro hnone
      obtain ⟨next, done, further, hnext, hrest, rfl⟩ := steps_cons_eq_ok_iff.1 hrun
      rw [Stats.attributesApplied_add] at hnone
      obtain ⟨rfl, hfirst⟩ := hstep hnext (by omega)
      obtain ⟨rfl, hothers⟩ := ih hrest (by omega)
      exact ⟨rfl, by rw [Stats.rulesLocalized_add, hfirst, hothers]⟩

/-! ### Steps that do not meet -/

/-- What a merge counts, if it succeeds. -/
def counts? (progress : Progress β) : Option Stats :=
  match progress with
  | .error _ => none
  | .ok (_, done) => some done

@[simp] theorem counts?_error (error : Error) : counts? (.error error : Progress β) = none := rfl

@[simp] theorem counts?_ok (state : β) (done : Stats) : counts? (.ok (state, done)) = some done := rfl

theorem counts?_map (state : β → γ) (change : Stats → Stats) (progress : Progress β) :
    counts? (progress.map fun result => (state result.1, change result.2)) = (counts? progress).map change := by
  cases progress <;> rfl

/-- Merges that agree count the same. -/
theorem Agree.counts?_eq {R : β → γ → Prop} {first : Progress β} {second : Progress γ} (h : Agree R first second) :
    counts? first = counts? second := by
  cases h <;> rfl

/-- The sum of counters, if all of them are there. -/
def Stats.sum? : List (Option Stats) → Option Stats
  | [] => some .zero
  | none :: _ => none
  | some done :: rest => (sum? rest).map (done + ·)

/-- In a sum the order does not matter, nor where something is missing. -/
theorem Stats.sum?_perm {first second : List (Option Stats)} (h : first.Perm second) : sum? first = sum? second := by
  induction h with
  | nil => rfl
  | cons entry _ ih =>
      cases entry with
      | none => rfl
      | some done => rw [sum?, sum?, ih]
  | swap a b rest =>
      cases a <;> cases b <;> simp only [sum?, Option.map_none]
      cases sum? rest with
      | none => rfl
      | some total => simp only [Option.map_some, Stats.add_left_comm]
  | trans _ _ ih₁ ih₂ => exact ih₁.trans ih₂

/-- A run whose steps leave what the others ask of the state counts the sum of what each would count at the start, and
succeeds if each would succeed there. -/
theorem counts?_steps {R : β → β → Prop}
    (hagree : ∀ item first second, R first second → Agree R (step item first) (step item second))
    (hkeep : ∀ {item state next done}, step item state = .ok (next, done) → R state next) (items : List α) (state : β) :
    counts? (steps step items state) = Stats.sum? (items.map fun item => counts? (step item state)) := by
  induction items generalizing state with
  | nil => rfl
  | cons item rest ih =>
      rw [List.map_cons]
      cases hitem : step item state with
      | error error =>
          rw [steps_cons_of_error hitem]
          rfl
      | ok progress =>
          obtain ⟨next, done⟩ := progress
          -- The rest counts from the next state on what it would count from this one.
          have hrest : (rest.map fun other => counts? (step other next)) =
              rest.map fun other => counts? (step other state) := by
            refine List.map_congr_left fun other _ => ?_
            exact (hagree other state next (hkeep hitem)).counts?_eq.symm
          have hsum : counts? (steps step (item :: rest) state) = (counts? (steps step rest next)).map (done + ·) := by
            rw [steps_cons_of_ok hitem]
            exact counts?_map id (done + ·) _
          rw [hsum, ih next, hrest]
          rfl

end

end Overlay

end Rulebook
