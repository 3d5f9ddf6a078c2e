/-! When computations that can fail succeed. -/
set_option autoImplicit false

namespace BrowserFlow

variable {ε δ α β : Type}

theorem bind_ok_iff (first : Except ε α) (next : α → Except ε β) (result : β) :
    (first >>= next) = .ok result ↔ ∃ value, first = .ok value ∧ next value = .ok result := by
  cases first with
  | ok value => simp [bind, Except.bind]
  | error error => simp [bind, Except.bind]

theorem map_ok_iff (first : Except ε α) (f : α → β) (result : β) :
    first.map f = .ok result ↔ ∃ value, first = .ok value ∧ f value = result := by
  cases first <;> simp [Except.map]

theorem any_ok (found : Except ε α) (test : α → Bool) (holds : found.toOption.any test = true) :
    ∃ value, found = .ok value ∧ test value = true := by
  cases found with
  | ok value => exact ⟨value, rfl, holds⟩
  | error error => cases holds

theorem map_error_ok_iff (found : Except ε α) (f : ε → δ) (value : α) :
    found.mapError f = .ok value ↔ found = .ok value := by
  cases found with
  | ok given =>
      constructor
      · intro same
        cases same
        rfl
      · intro same
        cases same
        rfl
  | error error => exact ⟨nofun, nofun⟩

end BrowserFlow
