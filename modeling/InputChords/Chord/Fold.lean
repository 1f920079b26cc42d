import InputChords.Chord

/-! Bottom-up evaluation of chords. A chain of many terms is as deep as it is long, so the walk
keeps the tasks that are left in a list, and the values of the parts that are done in another. -/

namespace InputChords.Chord

variable {σ α : Type}

structure Meaning (σ α : Type) where
  atom : Atom → α
  not : Chord σ → α → α
  join : Connective → Chord σ → Chord σ → α → α → α

def value (m : Meaning σ α) : Chord σ → Except σ α
  | atom a => .ok (m.atom a)
  | not t => do return m.not t (← t.value m)
  | join c l r => do return m.join c l r (← l.value m) (← r.value m)
  | stray v => .error v

inductive Task (σ : Type) where
  | visit (t : Chord σ)
  | negate (operand : Chord σ)
  | combine (c : Connective) (left right : Chord σ)

inductive Halt (σ : Type) where
  | stray (value : σ)
  | noValue

/-- How many tasks come of a chord: a leaf is visited, every other node is visited and then worked
out once its parts are done. -/
def turns : Chord σ → Nat
  | atom _ => 1
  | not t => t.turns + 2
  | join _ l r => l.turns + r.turns + 2
  | stray _ => 1

def Task.turns : Task σ → Nat
  | visit t => t.turns
  | negate _ => 1
  | combine _ _ _ => 1

/-- Does one task after the other. `values` has the value that was done last in front. -/
def walk (m : Meaning σ α) (tasks : List (Task σ)) (values : List α) :
    Except (Halt σ) (List α) :=
  match tasks, values with
  | [], values => .ok values
  | .visit (.atom a) :: tasks, values => walk m tasks (m.atom a :: values)
  | .visit (.not t) :: tasks, values => walk m (.visit t :: .negate t :: tasks) values
  | .visit (.join c l r) :: tasks, values =>
    walk m (.visit l :: .visit r :: .combine c l r :: tasks) values
  | .visit (.stray v) :: _, _ => .error (.stray v)
  | .negate t :: tasks, x :: values => walk m tasks (m.not t x :: values)
  | .combine c l r :: tasks, y :: x :: values => walk m tasks (m.join c l r x y :: values)
  | _, _ => .error .noValue
termination_by (tasks.map Task.turns).foldr (· + ·) 0
decreasing_by
  all_goals simp [Task.turns, turns]
  all_goals omega

/-- The tasks of a chord are done before all others and leave its value on top. -/
theorem walk_visit (m : Meaning σ α) (t : Chord σ) (tasks : List (Task σ)) (values : List α) :
    walk m (.visit t :: tasks) values =
      match t.value m with
      | .ok x => walk m tasks (x :: values)
      | .error v => .error (.stray v) := by
  induction t generalizing tasks values with
  | atom a => rw [walk, value]
  | stray v => rw [walk, value]
  | not t ih =>
      rw [walk, ih, value]
      cases t.value m with
      | error v => rfl
      | ok x =>
          show walk m (.negate t :: tasks) (x :: values) = walk m tasks (m.not t x :: values)
          rw [walk]
  | join c l r left right =>
      rw [walk, left, value]
      cases l.value m with
      | error v => rfl
      | ok x =>
          show walk m (.visit r :: .combine c l r :: tasks) (x :: values) = _
          rw [right]
          cases r.value m with
          | error v => rfl
          | ok y =>
              show walk m (.combine c l r :: tasks) (y :: x :: values) =
                walk m tasks (m.join c l r x y :: values)
              rw [walk]

theorem walk_single (m : Meaning σ α) (t : Chord σ) :
    walk m [.visit t] [] =
      match t.value m with
      | .ok x => .ok [x]
      | .error v => .error (.stray v) := by
  rw [walk_visit]
  cases t.value m with
  | error v => rfl
  | ok x =>
      show walk m [] [x] = .ok [x]
      rw [walk]

theorem value_of_walk {m : Meaning σ α} {t : Chord σ} {values : List α}
    (walked : walk m [.visit t] [] = .ok values) : ∃ x, t.value m = .ok x ∧ values = [x] := by
  rw [walk_single] at walked
  cases known : t.value m with
  | error v =>
      rw [known] at walked
      cases walked
  | ok x =>
      rw [known] at walked
      cases walked
      exact ⟨x, rfl, rfl⟩

theorem stray_of_walk {m : Meaning σ α} {t : Chord σ} {v : σ}
    (walked : walk m [.visit t] [] = .error (.stray v)) : t.value m = .error v := by
  rw [walk_single] at walked
  cases known : t.value m with
  | error w =>
      rw [known] at walked
      cases walked
      rfl
  | ok x =>
      rw [known] at walked
      cases walked

theorem values_ne_nil {m : Meaning σ α} {t : Chord σ} {values : List α}
    (walked : walk m [.visit t] [] = .ok values) : values ≠ [] := by
  obtain ⟨x, _, rfl⟩ := value_of_walk walked
  exact List.cons_ne_nil x []

theorem walk_ne_noValue (m : Meaning σ α) (t : Chord σ) :
    walk m [.visit t] [] ≠ .error .noValue := by
  rw [walk_single]
  cases t.value m <;> simp

def fold (m : Meaning σ α) (t : Chord σ) : Except σ α :=
  match walked : walk m [.visit t] [] with
  | .ok values => .ok (values.getLast (values_ne_nil walked))
  | .error (.stray v) => .error v
  | .error .noValue => (walk_ne_noValue m t walked).elim

def depth (t : Chord σ) : Except σ Nat :=
  t.fold ⟨fun _ => 1, fun _ n => n + 1, fun _ _ _ l r => max l r + 1⟩

/-- Both sides of a connective are always evaluated, so a stray value is never passed over. -/
def eval (active : AtomSet) (t : Chord σ) : Except σ Bool :=
  t.fold ⟨fun a => decide (a ∈ active), fun _ b => !b, fun c _ _ l r =>
    match c with
    | .and => l && r
    | .or => l || r⟩

end InputChords.Chord
