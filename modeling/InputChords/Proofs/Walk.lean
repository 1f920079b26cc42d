import InputChords.Proofs.IllFormed

/-! The walk over a chord does with a list of tasks and a list of values what recursion on the shape
of the chord does. It never takes a value that is not there, and ends with one value or at the
leftmost stray value. -/

namespace InputChords

/-- A walk over a sound chord ends with one value, the one that recursion gives. Any other walk
stops at the leftmost stray value and fails for it; the fault names this value. -/
theorem fold_structural {α : Type} (m : Chord.Meaning Value α) (t : Chord Value) :
    Chord.walk m [.visit t] [] ≠ .error .noValue ∧
    (t.Sound → ∃ x, t.value m = .ok x ∧ Chord.walk m [.visit t] [] = .ok [x] ∧
      t.fold m = .ok x) ∧
    (¬ t.Sound → ∃ v, t.strays.head? = some v ∧
      Chord.walk m [.visit t] [] = .error (.stray v) ∧ t.fold m = .error v ∧
      (∃ fault, Value.sound (t.fold m) = .error fault ∧ fault.Names v) ∧
      ∀ text, v.described = .ok text → Value.sound (t.fold m) = .error (.notAChord text)) := by
  refine ⟨Chord.walk_ne_noValue m t, ?_, ?_⟩
  · intro sound
    obtain ⟨x, folded⟩ := Chord.fold_of_sound m sound
    have known : t.value m = .ok x := by rw [← Chord.fold_eq_value, folded]
    refine ⟨x, known, ?_, folded⟩
    rw [Chord.walk_single, known]
  · intro ill
    obtain ⟨v, leftmost⟩ : ∃ v, t.strays.head? = some v := by
      rw [Chord.sound_iff_strays] at ill
      exact ⟨_, List.head?_eq_some_head ill⟩
    have folded : t.fold m = .error v :=
      Chord.fold_of_stray m ((t.firstStray?_eq_head?).trans leftmost)
    have failed : Value.sound (t.fold m) = .error (v.blame .notAChord) := by rw [folded]; rfl
    refine ⟨v, leftmost, ?_, folded, ?_, ?_⟩
    · rw [Chord.walk_single, ← Chord.fold_eq_value, folded]
    · exact ⟨_, failed, v.names_blame⟩
    · intro text described
      rw [failed, Value.blame, described]

/-- The leaves of a chord, from left to right, and a chord with two stray values. -/
theorem fold_structural_two_strays :
    let m : Chord.Meaning Value (List Atom) :=
      ⟨fun a => [a], fun _ inside => inside, fun _ _ _ left right => left ++ right⟩
    let a : Atom := .key (.letter 0)
    let b : Atom := .key (.letter 1)
    let t : Chord Value := .join .and (.not (.atom a)) (.join .or (.atom b) (.atom .drag))
    let ill : Chord Value := .join .or (.not (.stray (.text "x"))) (.stray (.text "y"))
    t.Sound ∧ Chord.walk m [.visit t] [] = .ok [[a, b, .drag]] ∧
      t.fold m = .ok [a, b, .drag] ∧
      ¬ ill.Sound ∧ Chord.walk m [.visit ill] [] = .error (.stray (.text "x")) ∧
      Value.sound (ill.fold m) = .error (.notAChord "'x'") := by
  intro m a b t ill
  have sound : t.Sound := ⟨trivial, trivial, trivial⟩
  have strayed : ¬ ill.Sound := fun sound => sound.1
  obtain ⟨x, known, walked, folded⟩ := (fold_structural m t).2.1 sound
  have leaves : t.value m = .ok [a, b, .drag] := rfl
  rw [leaves] at known
  cases known
  obtain ⟨v, leftmost, stopped, _, _, cited⟩ := (fold_structural m ill).2.2 strayed
  cases leftmost
  have quoted : (Value.text "x").described = .ok "'x'" := by rfl
  exact ⟨sound, walked, folded, strayed, stopped, cited "'x'" quoted⟩

/-- The value that stops a walk is not always what the fault is about: a number may be too long to
be cited, and a list may hold a chord that has a stray value itself. -/
theorem fold_cites_other :
    let m : Chord.Meaning Value Nat := ⟨fun _ => 1, fun _ n => n + 1, fun _ _ _ l r => max l r + 1⟩
    let long : Value := .whole (10 ^ Decimal.wholeDigitLimit)
    let outer : Value := .list [.tree (.not (.stray (.text "x")))]
    (Chord.stray long).strays.head? = some long ∧
      Value.sound ((Chord.stray long).fold m) = .error .wholeNotWritable ∧
      (Chord.not (.stray outer)).strays.head? = some outer ∧
      Value.sound ((Chord.not (.stray outer)).fold m) = .error (.notAChord "'x'") := by
  intro m long outer
  have unwritable : long.described = .error .wholeNotWritable :=
    Value.described_unwritable Decimal.power_not_writable
  have unreadable : outer.described = .error (.notAChord "'x'") := by rfl
  refine ⟨rfl, ?_, rfl, ?_⟩
  · rw [Chord.fold_of_stray m (v := long) rfl, Value.sound, Value.blame, unwritable]
  · rw [Chord.fold_of_stray m (v := outer) rfl, Value.sound, Value.blame, unreadable]

end InputChords
