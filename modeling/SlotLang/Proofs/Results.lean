/-!
# Results of computations

Facts about computations that may fail, of whatever kind their values and errors are.
-/

namespace SlotLang

/-- Two computations in a row went well if and only if both did. -/
theorem bind_eq_ok {ε α β : Type} {first : Except ε α} {next : α → Except ε β} {b : β} :
    first >>= next = .ok b ↔ ∃ a, first = .ok a ∧ next a = .ok b := by
  cases first with
  | error error => simp [bind, Except.bind]
  | ok a => simp [bind, Except.bind]

/-- The first of two computations that failed decides the error. -/
theorem bind_eq_error {ε α β : Type} {first : Except ε α} {next : α → Except ε β} {error : ε} :
    first >>= next = .error error ↔
      first = .error error ∨ ∃ a, first = .ok a ∧ next a = .error error := by
  cases first with
  | error other => simp [bind, Except.bind]
  | ok a => simp [bind, Except.bind]

@[simp] theorem mapError_ok {ε δ α : Type} (f : ε → δ) (a : α) :
    (Except.ok a).mapError f = .ok a := rfl

@[simp] theorem mapError_error {ε δ α : Type} (f : ε → δ) (error : ε) :
    (Except.error error : Except ε α).mapError f = .error (f error) := rfl

/-- Another error in place of the old one changes nothing for a result. -/
theorem mapError_eq_ok {ε δ α : Type} {result : Except ε α} {f : ε → δ} {a : α} :
    result.mapError f = .ok a ↔ result = .ok a := by
  cases result with
  | error error => exact ⟨nofun, nofun⟩
  | ok value =>
      constructor
      · intro hvalue
        cases hvalue
        rfl
      · intro hvalue
        cases hvalue
        rfl

/-- The error of a computation, put in place of the old one. -/
theorem mapError_eq_error {ε δ α : Type} {result : Except ε α} {f : ε → δ} {error : δ} :
    result.mapError f = .error error ↔ ∃ other, result = .error other ∧ f other = error := by
  cases result with
  | error other => simp
  | ok value => simp

/-- A result that is computed without its error. -/
theorem eq_ok_of_toOption {ε α : Type} {result : Except ε α} {a : α}
    (hresult : result.toOption = some a) : result = .ok a := by
  cases result with
  | ok value => cases hresult; rfl
  | error error => cases hresult

theorem exists_eq_ok_of_toOption {ε α : Type} {result : Except ε α}
    (hresult : result.toOption.isSome = true) : ∃ a, result = .ok a := by
  cases result with
  | ok value => exact ⟨value, rfl⟩
  | error error => cases hresult

end SlotLang
