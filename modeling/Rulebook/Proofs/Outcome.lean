/-!
# Results that may be errors

What a change of the result leaves of an error, and `SameEnd`, by which two results are compared that both fail, for
whatever reasons, or both are there.
-/

namespace Rulebook

theorem map_eq_ok_iff {ε α β : Type} {change : α → β} {result : Except ε α} {changed : β} :
    result.map change = .ok changed ↔ ∃ value, result = .ok value ∧ change value = changed := by
  cases result <;> simp [Except.map]

theorem map_eq_error_iff {ε α β : Type} {change : α → β} {result : Except ε α} {error : ε} :
    result.map change = .error error ↔ result = .error error := by
  cases result <;> simp [Except.map]

theorem mapError_eq_ok_iff {ε δ α : Type} {change : ε → δ} {result : Except ε α} {value : α} :
    result.mapError change = .ok value ↔ result = .ok value := by
  cases result with
  | error error =>
      constructor
      · intro h
        cases h
      · intro h
        cases h
  | ok found =>
      show Except.ok found = .ok value ↔ _
      rw [Except.ok.injEq, Except.ok.injEq]

/-- Two results end in the same way: both are errors, whatever they are, or both are there and related. -/
inductive SameEnd {ε α : Type} (R : α → α → Prop) : Except ε α → Except ε α → Prop where
  | error (first second : ε) : SameEnd R (.error first) (.error second)
  | ok {first second : α} (h : R first second) : SameEnd R (.ok first) (.ok second)

theorem SameEnd.exists_error {ε α : Type} {R : α → α → Prop} {error : ε} {result : Except ε α}
    (h : SameEnd R (.error error) result) : ∃ other, result = .error other := by
  cases h with
  | error _ other => exact ⟨other, rfl⟩

theorem SameEnd.eq_ok {ε α : Type} {a : α} {result : Except ε α} (h : SameEnd Eq (.ok a) result) : result = .ok a := by
  cases h with
  | ok h => rw [h]

end Rulebook
