import InputChords.Chord.Fold
import InputChords.Chord.Render

/-! The walk over a chord computes what recursion on the shape of the chord computes. -/

namespace InputChords.Chord

variable {σ α : Type}

theorem fold_eq_value (m : Meaning σ α) (t : Chord σ) : t.fold m = t.value m := by
  unfold fold
  split
  next values walked =>
    obtain ⟨x, known, rfl⟩ := value_of_walk walked
    rw [known]
    rfl
  next v walked => rw [stray_of_walk walked]
  next walked => exact absurd walked (walk_ne_noValue m t)

theorem fold_of_sound (m : Meaning σ α) {t : Chord σ} (sound : t.Sound) :
    ∃ x, t.fold m = .ok x := by
  rw [fold_eq_value]
  induction t with
  | atom a => exact ⟨m.atom a, rfl⟩
  | stray v => exact sound.elim
  | not t ih =>
      obtain ⟨x, operand⟩ := ih sound
      exact ⟨m.not t x, by rw [value, operand]; rfl⟩
  | join c l r left right =>
      obtain ⟨x, onLeft⟩ := left sound.1
      obtain ⟨y, onRight⟩ := right sound.2
      exact ⟨m.join c l r x y, by rw [value, onLeft, onRight]; rfl⟩

end InputChords.Chord
