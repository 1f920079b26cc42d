import InputChords.Proofs.Build
import InputChords.Proofs.Edits

/-! Values as a host hands them in: a chord has no stray root, and what is stray is no chord.
Each of them is written in one way only, and tables that are edited with such values bind
nothing else. -/

namespace InputChords

variable {κ : Type}

def Chord.isStray {σ : Type} : Chord σ → Bool
  | stray _ => true
  | _ => false

namespace Value

def isTree : Value → Bool
  | tree _ => true
  | _ => false

mutual

def wellFormed : Value → Bool
  | list items => wellFormedList items
  | dict entries => wellFormedEntries entries
  | tree t => !t.isStray && wellFormedChord t
  | _ => true

def wellFormedList : List Value → Bool
  | [] => true
  | v :: rest => wellFormed v && wellFormedList rest

def wellFormedEntries : List (String × Value) → Bool
  | [] => true
  | (_, v) :: rest => wellFormed v && wellFormedEntries rest

def wellFormedChord : Chord Value → Bool
  | .atom _ => true
  | .not t => wellFormedChord t
  | .join _ l r => wellFormedChord l && wellFormedChord r
  | .stray v => !v.isTree && wellFormed v

end

theorem ofChord_of_not_stray {t : Chord Value} (chord : t.isStray = false) :
    ofChord t = tree t := by
  cases t with
  | stray v => cases chord
  | _ => rfl

theorem asChord_of_not_tree {v : Value} (other : v.isTree = false) : v.asChord = .stray v := by
  cases v with
  | tree t => cases other
  | _ => rfl

theorem ofChord_asChord {v : Value} (formed : v.wellFormed = true) : ofChord v.asChord = v := by
  cases kind : v.isTree with
  | false =>
      rw [asChord_of_not_tree kind]
      rfl
  | true =>
      cases v with
      | tree t =>
          rw [wellFormed, Bool.and_eq_true, Bool.not_eq_true'] at formed
          exact ofChord_of_not_stray formed.1
      | _ => cases kind

theorem asChord_ofChord {t : Chord Value} (formed : wellFormedChord t = true) :
    (ofChord t).asChord = t := by
  cases t with
  | stray v =>
      rw [wellFormedChord, Bool.and_eq_true, Bool.not_eq_true'] at formed
      exact asChord_of_not_tree formed.1
  | _ => rfl

theorem wellFormedChord_asChord {v : Value} (formed : v.wellFormed = true) :
    wellFormedChord v.asChord = true := by
  cases kind : v.isTree with
  | false =>
      rw [asChord_of_not_tree kind, wellFormedChord, kind, formed]
      rfl
  | true =>
      cases v with
      | tree t => exact (Bool.and_eq_true _ _ ▸ formed).2
      | _ => cases kind

theorem wellFormed_ofChord {t : Chord Value} (formed : wellFormedChord t = true) :
    (ofChord t).wellFormed = true := by
  cases t with
  | stray v => exact (Bool.and_eq_true _ _ ▸ formed).2
  | _ => exact formed

theorem wellFormed_closed : Chord.Closed (fun t => wellFormed (tree t) = true) where
  ofAtom a := by
    rw [Chord.ofAtom]
    cases a.parts <;> rfl
  not t inside := (Bool.and_eq_true _ _ ▸ inside).2
  join c l r left right := by
    rw [wellFormed, Bool.and_eq_true] at left right
    simp [wellFormed, wellFormedChord, Chord.isStray, left.2, right.2]

end Value

def Edit.wellFormed : Edit κ → Bool
  | bindChord _ v => v.wellFormed
  | bind _ v => v.wellFormed
  | unbind _ => true

theorem Edit.wellFormed_of_outcome {e : Edit κ} {t : Chord Value} (handed : e.wellFormed = true)
    (binds : e.outcome = .ok (some t)) : (Value.tree t).wellFormed = true := by
  cases e with
  | unbind action => cases binds
  | bind action v =>
      cases v with
      | text expression =>
          cases parsed : (parse expression : Except CompileError (Option (Chord Value))) with
          | error e =>
              rw [outcome, parsed] at binds
              cases binds
          | ok known =>
              rw [outcome, parsed] at binds
              cases binds
              exact parse_closed Value.wellFormed_closed expression t parsed
      | _ => cases binds
  | bindChord action v =>
      cases v with
      | tree u =>
          cases u with
          | stray v => cases binds
          | _ =>
              cases binds
              exact handed
      | _ => cases binds

namespace Bindings

variable [DecidableEq κ]

def WellFormed (b : Bindings κ) : Prop :=
  ∀ action t, b.get? action = some t → (Value.tree t).wellFormed = true

theorem wellFormed_empty (trace : Bool) :
    (empty (κ := κ) trace).WellFormed := by
  intro action t bound
  cases bound

theorem WellFormed.edited {b : Bindings κ} (formed : b.WellFormed) {e : Edit κ}
    (handed : e.wellFormed = true) : (b.edited e).WellFormed := by
  rw [Bindings.edited]
  cases outcome : e.outcome with
  | error fault => exact formed
  | ok known =>
      cases known with
      | none =>
          intro action t bound
          rw [get?_erase] at bound
          by_cases removed : action = e.action
          · rw [if_pos removed] at bound
            cases bound
          · rw [if_neg removed] at bound
            exact formed action t bound
      | some u =>
          intro action t bound
          rw [get?_put] at bound
          by_cases here : action = e.action
          · rw [if_pos here] at bound
            cases bound
            exact Edit.wellFormed_of_outcome handed outcome
          · rw [if_neg here] at bound
            exact formed action t bound

theorem WellFormed.foldl {b : Bindings κ} (formed : b.WellFormed) (edits : List (Edit κ))
    (handed : ∀ e ∈ edits, e.wellFormed = true) : (edits.foldl Bindings.edited b).WellFormed := by
  induction edits generalizing b with
  | nil => exact formed
  | cons e rest ih =>
      have here := formed.edited (handed e (List.mem_cons_self ..))
      exact ih here fun other member => handed other (.tail _ member)

end Bindings

theorem afterAll_edits_wellFormed [DecidableEq κ] [Quotable κ] (s : Session κ) (trace : Bool)
    (edits : List (Edit κ)) (fresh : s.tracker.bindings = some (.empty trace))
    (handed : ∀ e ∈ edits, e.wellFormed = true) :
    ∃ b, (afterAll (edits.map Edit.act) s).tracker.bindings = some b ∧ b.WellFormed := by
  rw [tracker_afterAll_edits edits s _ fresh]
  exact ⟨_, rfl, (Bindings.wellFormed_empty trace).foldl edits handed⟩

end InputChords
