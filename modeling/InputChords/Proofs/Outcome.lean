/-! Successes that are made of successes. -/

namespace InputChords

theorem bind_eq_ok {ε α β : Type} {first : Except ε α} {next : α → Except ε β} {y : β}
    (done : first.bind next = .ok y) : ∃ x, first = .ok x ∧ next x = .ok y := by
  cases first with
  | error e => cases done
  | ok x => exact ⟨x, rfl, done⟩

theorem map_eq_ok {ε α β : Type} {first : Except ε α} {f : α → β} {y : β}
    (done : first.map f = .ok y) : ∃ x, first = .ok x ∧ y = f x := by
  cases first with
  | error e => cases done
  | ok x =>
      cases done
      exact ⟨x, rfl, rfl⟩

theorem mapError_eq_ok {ε ε' α : Type} {first : Except ε α} {f : ε → ε'} {x : α}
    (done : first.mapError f = .ok x) : first = .ok x := by
  cases first with
  | error e => cases done
  | ok y =>
      cases done
      rfl

theorem ok_of_toOption {ε α : Type} {r : Except ε α} {x : α} (found : r.toOption = some x) :
    r = .ok x := by
  cases r with
  | error e => cases found
  | ok y =>
      cases found
      rfl

end InputChords
