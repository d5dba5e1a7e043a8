import Rulebook.Overlay

/-!
# Runs of steps

An overlay is `Overlay.steps` twice: over the entries of a localization and, inside an entry, over its
attributes. What holds of both is said here once, of any step:

* a run that succeeds, split into its first step and the rest, or into two parts;
* a run that fails, split at the step that fails (`steps_eq_error_iff`);
* what every step keeps is kept by the run (`steps_keep`, `steps_relate`), and a run succeeds whose steps all do
  (`steps_succeed`); and
* two runs over the same items whose steps agree on related states agree as a whole (`Agree`, `steps_agree`).
-/

namespace Rulebook

namespace Overlay

namespace Stats

theorem ext {a b : Stats} (h₁ : a.rulesLocalized = b.rulesLocalized)
    (h₂ : a.attributesApplied = b.attributesApplied) (h₃ : a.referencesSkipped = b.referencesSkipped)
    (h₄ : a.attributesSkipped = b.attributesSkipped) (h₅ : a.unknownRulesPruned = b.unknownRulesPruned) :
    a = b := by
  cases a
  cases b
  simp_all

@[simp] theorem rulesLocalized_add (a b : Stats) :
    (a + b).rulesLocalized = a.rulesLocalized + b.rulesLocalized := rfl

@[simp] theorem attributesApplied_add (a b : Stats) :
    (a + b).attributesApplied = a.attributesApplied + b.attributesApplied := rfl

@[simp] theorem referencesSkipped_add (a b : Stats) :
    (a + b).referencesSkipped = a.referencesSkipped + b.referencesSkipped := rfl

@[simp] theorem attributesSkipped_add (a b : Stats) :
    (a + b).attributesSkipped = a.attributesSkipped + b.attributesSkipped := rfl

@[simp] theorem unknownRulesPruned_add (a b : Stats) :
    (a + b).unknownRulesPruned = a.unknownRulesPruned + b.unknownRulesPruned := rfl

theorem zero_add (a : Stats) : zero + a = a :=
  ext (Nat.zero_add _) (Nat.zero_add _) (Nat.zero_add _) (Nat.zero_add _) (Nat.zero_add _)

theorem add_assoc (a b c : Stats) : a + b + c = a + (b + c) :=
  ext (Nat.add_assoc _ _ _) (Nat.add_assoc _ _ _) (Nat.add_assoc _ _ _) (Nat.add_assoc _ _ _)
    (Nat.add_assoc _ _ _)

end Stats

variable {α β γ : Type} {step : α → β → Progress β}

/-! ### A run and its parts -/

@[simp] theorem steps_nil (state : β) : steps step [] state = .ok (state, .zero) := rfl

theorem steps_cons_of_error {item : α} {rest : List α} {state : β} {error : Error}
    (h : step item state = .error error) : steps step (item :: rest) state = .error error := by
  rw [steps, h]

theorem steps_cons_of_ok {item : α} {rest : List α} {state next : β} {done : Stats}
    (h : step item state = .ok (next, done)) :
    steps step (item :: rest) state =
      (steps step rest next).map fun progress => (progress.1, done + progress.2) := by
  rw [steps, h]
  cases hr : steps step rest next <;> simp only [hr] <;> rfl

/-- A run succeeds when its first step does and the rest does from there. -/
theorem steps_cons_eq_ok_iff {item : α} {rest : List α} {state last : β} {total : Stats} :
    steps step (item :: rest) state = .ok (last, total) ↔
      ∃ next done further, step item state = .ok (next, done) ∧
        steps step rest next = .ok (last, further) ∧ total = done + further := by
  constructor
  · intro h
    cases hstep : step item state with
    | error error =>
        rw [steps_cons_of_error hstep] at h
        cases h
    | ok progress =>
        obtain ⟨next, done⟩ := progress
        rw [steps_cons_of_ok hstep] at h
        cases hrest : steps step rest next with
        | error error =>
            rw [hrest] at h
            cases h
        | ok progress =>
            obtain ⟨last', further⟩ := progress
            rw [hrest] at h
            obtain ⟨rfl, rfl⟩ := Prod.mk.inj (Except.ok.inj h)
            exact ⟨next, done, further, rfl, hrest, rfl⟩
  · rintro ⟨next, done, further, hstep, hrest, rfl⟩
    rw [steps_cons_of_ok hstep, hrest]
    rfl

/-- A run over two parts is a run over the first and then one over the second. -/
theorem steps_append_eq_ok_iff {before after : List α} {state last : β} {total : Stats} :
    steps step (before ++ after) state = .ok (last, total) ↔
      ∃ middle done further, steps step before state = .ok (middle, done) ∧
        steps step after middle = .ok (last, further) ∧ total = done + further := by
  induction before generalizing state total with
  | nil =>
      constructor
      · intro h
        exact ⟨state, .zero, total, rfl, h, (Stats.zero_add total).symm⟩
      · rintro ⟨middle, done, further, hm, hf, rfl⟩
        obtain ⟨rfl, rfl⟩ := Prod.mk.inj (Except.ok.inj hm)
        rwa [Stats.zero_add]
  | cons item before ih =>
      rw [List.cons_append, steps_cons_eq_ok_iff]
      constructor
      · rintro ⟨next, done, further, hn, hrest, rfl⟩
        obtain ⟨middle, done', further', hm, hf, rfl⟩ := ih.1 hrest
        exact ⟨middle, done + done', further', steps_cons_eq_ok_iff.2 ⟨next, done, done', hn, hm, rfl⟩, hf,
          (Stats.add_assoc _ _ _).symm⟩
      · rintro ⟨middle, total', further', hm, hf, rfl⟩
        obtain ⟨next, done, done', hn, hbefore, rfl⟩ := steps_cons_eq_ok_iff.1 hm
        exact ⟨next, done, done' + further', hn, ih.2 ⟨middle, done', further', hbefore, hf, rfl⟩,
          Stats.add_assoc _ _ _⟩

/-- A run that succeeds comes to each of its items, and takes the step over it. -/
theorem steps_come {items : List α} {item : α} {state last : β} {total : Stats}
    (h : steps step items state = .ok (last, total)) (hitem : item ∈ items) :
    ∃ before after middle done next further, items = before ++ item :: after ∧
      steps step before state = .ok (middle, done) ∧ step item middle = .ok (next, further) := by
  obtain ⟨before, after, rfl⟩ := List.append_of_mem hitem
  obtain ⟨middle, done, _, hbefore, hrest, -⟩ := steps_append_eq_ok_iff.1 h
  obtain ⟨next, further, _, hstep, -, -⟩ := steps_cons_eq_ok_iff.1 hrest
  exact ⟨before, after, middle, done, next, further, rfl, hbefore, hstep⟩

/-- A run fails at one item: the items before it succeed, and its step fails on what they gave. -/
theorem steps_eq_error_iff {items : List α} {state : β} {error : Error} :
    steps step items state = .error error ↔
      ∃ before item after middle done, items = before ++ item :: after ∧
        steps step before state = .ok (middle, done) ∧ step item middle = .error error := by
  induction items generalizing state with
  | nil => simp
  | cons first rest ih =>
      constructor
      · -- Either the first step fails, or the rest does from what the step left.
        intro h
        cases hstep : step first state with
        | error error' =>
            rw [steps_cons_of_error hstep] at h
            exact ⟨[], first, rest, state, .zero, rfl, rfl, by rw [hstep, h]⟩
        | ok progress =>
            obtain ⟨next, done⟩ := progress
            rw [steps_cons_of_ok hstep] at h
            have hrest : steps step rest next = .error error := by
              cases hr : steps step rest next with
              | error error' =>
                  rw [hr] at h
                  exact h
              | ok progress =>
                  rw [hr] at h
                  cases h
            obtain ⟨before, item, after, middle, done', rfl, hm, hi⟩ := ih.1 hrest
            exact ⟨first :: before, item, after, middle, done + done', rfl,
              steps_cons_eq_ok_iff.2 ⟨next, done, done', hstep, hm, rfl⟩, hi⟩
      · rintro ⟨before, item, after, middle, done, heq, hm, hi⟩
        cases before with
        | nil =>
            obtain ⟨rfl, rfl⟩ := List.cons.inj heq
            obtain ⟨rfl, rfl⟩ := Prod.mk.inj (Except.ok.inj hm)
            exact steps_cons_of_error hi
        | cons head before =>
            obtain ⟨rfl, hrest⟩ := List.cons.inj heq
            obtain ⟨next, done', further, hn, hbefore, rfl⟩ := steps_cons_eq_ok_iff.1 hm
            rw [steps_cons_of_ok hn, ih.2 ⟨before, item, after, middle, further, hrest, hbefore, hi⟩]
            rfl

/-! ### What a run keeps -/

/-- What every step over one of the items keeps holds at the end of a run if it holds at the start. -/
theorem steps_keep {P : β → Prop} {items : List α}
    (hstep : ∀ item ∈ items, ∀ {state next done}, step item state = .ok (next, done) → P state → P next)
    {state last : β} {total : Stats} (h : steps step items state = .ok (last, total)) (hstate : P state) :
    P last := by
  induction items generalizing state total with
  | nil =>
      obtain ⟨rfl, -⟩ := Prod.mk.inj (Except.ok.inj h)
      exact hstate
  | cons item rest ih =>
      obtain ⟨next, done, further, hn, hrest, -⟩ := steps_cons_eq_ok_iff.1 h
      have hnext : P next := hstep item List.mem_cons_self hn hstate
      exact ih (fun other hother => hstep other (List.mem_cons_of_mem _ hother)) hrest hnext

/-- A run succeeds if, from states of a kind that steps keep, no step over one of the items fails. -/
theorem steps_succeed {P : β → Prop} {items : List α}
    (hstep : ∀ item ∈ items, ∀ {state}, P state → ∃ next done, step item state = .ok (next, done) ∧ P next)
    {state : β} (hstate : P state) : ∃ last total, steps step items state = .ok (last, total) := by
  induction items generalizing state with
  | nil => exact ⟨state, .zero, rfl⟩
  | cons item rest ih =>
      obtain ⟨next, done, hn, hnext⟩ := hstep item List.mem_cons_self hstate
      obtain ⟨last, further, hrest⟩ := ih (fun other hother => hstep other (List.mem_cons_of_mem _ hother)) hnext
      exact ⟨last, done + further, steps_cons_eq_ok_iff.2 ⟨next, done, further, hn, hrest, rfl⟩⟩

/-- A relation that every step keeps between what it finds and what it leaves holds for a whole run. -/
theorem steps_relate {R : β → β → Prop} (hrefl : ∀ state, R state state)
    (htrans : ∀ {a b c}, R a b → R b c → R a c)
    (hstep : ∀ {item state next done}, step item state = .ok (next, done) → R state next)
    {items : List α} {state last : β} {total : Stats} (h : steps step items state = .ok (last, total)) :
    R state last :=
  steps_keep (P := R state) (fun _ _ _ _ _ hn hR => htrans hR (hstep hn)) h (hrefl state)

/-! ### Two runs side by side -/

/-- Two merges agree: they fail for the same reason, or both succeed, have done the same, and leave related
states. -/
inductive Agree (R : β → γ → Prop) : Progress β → Progress γ → Prop where
  | error (error : Error) : Agree R (.error error) (.error error)
  | ok {state : β} {state' : γ} (done : Stats) (h : R state state') : Agree R (.ok (state, done)) (.ok (state', done))

theorem Agree.of_ok {R : β → γ → Prop} {progress : Progress γ} {state : β} {done : Stats}
    (h : Agree R (.ok (state, done)) progress) : ∃ state', progress = .ok (state', done) ∧ R state state' := by
  cases h with
  | ok _ hR => exact ⟨_, rfl, hR⟩

/-- Runs agree when their steps do. -/
theorem steps_agree {R : β → γ → Prop} {step' : α → γ → Progress γ}
    (hstep : ∀ item state state', R state state' → Agree R (step item state) (step' item state'))
    (items : List α) {state : β} {state' : γ} (h : R state state') :
    Agree R (steps step items state) (steps step' items state') := by
  induction items generalizing state state' with
  | nil => exact .ok .zero h
  | cons item rest ih =>
      have hitem := hstep item state state' h
      simp only [steps]
      -- The results become variables, so that their agreement can be taken apart.
      generalize step item state = first at hitem ⊢
      generalize step' item state' = second at hitem ⊢
      cases hitem with
      | error error => exact .error error
      | @ok next next' done hnext =>
          have hrest := ih hnext
          dsimp only
          generalize steps step rest next = first at hrest ⊢
          generalize steps step' rest next' = second at hrest ⊢
          cases hrest with
          | error error => exact .error error
          | ok further hlast => exact .ok (done + further) hlast

end Overlay

end Rulebook
