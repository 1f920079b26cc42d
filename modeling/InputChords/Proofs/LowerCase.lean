import InputChords.Text.Case

/-! Lower case is settled: a text in lower case stays as it is. This takes that no capital is mapped
to another capital. -/

namespace InputChords.Text

/-- The code points that have another lower case: the capitals of ASCII, the one character that
becomes two, and the runs of all others. -/
def capitals : List CaseRun := ⟨65, 90, 1, 32⟩ :: ⟨304, 304, 1, 0⟩ :: lowerRuns

namespace CaseRun

variable {run other : CaseRun} {code : Nat}

theorem holds_iff : run.holds code = true ↔
    run.first ≤ code ∧ code ≤ run.last ∧ (code - run.first) % run.step = 0 := by
  simp [holds, and_assoc]

def target (run : CaseRun) (code : Nat) : Nat := (code + run.shift).toNat

/-- What the run maps to lies before or behind the other run, or between its code points. -/
def apart (run other : CaseRun) : Bool :=
  (run.target run.last).blt other.first || other.last.blt (run.target run.first) ||
    decide (other.step = 2 ∧ run.target run.first % 2 ≠ other.first % 2 ∧
      (run.step = 2 ∨ run.first = run.last))

def Proper (run : CaseRun) : Prop :=
  0 ≤ run.first + run.shift ∧
    (run.target run.last < 0xd800 ∨
      (0xdfff < run.target run.first ∧ run.target run.last < 0x110000))

instance (run : CaseRun) : Decidable run.Proper := inferInstanceAs (Decidable (_ ∧ _))

theorem not_holds_of_apart (apart : run.apart other = true) (proper : run.Proper)
    (held : run.holds code = true) : other.holds (run.target code) = false := by
  rw [Bool.eq_false_iff]
  intro taken
  obtain ⟨positive, -⟩ := proper
  rw [holds_iff] at held taken
  simp only [CaseRun.apart, Bool.or_eq_true, Nat.blt_eq, decide_eq_true_eq, or_assoc] at apart
  simp only [target] at apart taken
  rcases apart with before | behind | ⟨even, parity, steps⟩
  · omega
  · omega
  · rw [even] at taken
    rcases steps with step | single
    · rw [step] at held
      omega
    · omega

theorem toNat_ofNat_target (proper : run.Proper) (held : run.holds code = true) :
    (Char.ofNat (run.target code)).toNat = run.target code := by
  have valid : (run.target code).isValidChar := by
    rw [holds_iff] at held
    simp only [Proper, target] at proper
    simp only [target, Nat.isValidChar]
    omega
  rw [Char.ofNat, dif_pos valid]
  rfl

end CaseRun

-- All runs are compared with all others, which is why `apart` computes.
theorem lowerRuns_settled :
    ∀ run ∈ lowerRuns, run.Proper ∧ capitals.all run.apart = true := by
  decide +kernel

def IsLower (c : Char) : Prop := c ≠ 'Σ' ∧ lowerChar c = [c]

instance (c : Char) : Decidable (IsLower c) := inferInstanceAs (Decidable (_ ∧ _))

theorem isLower_toLower (c : Char) (ascii : c.toNat < 128) : IsLower c.toLower := by
  have all : ∀ n : Fin 128, IsLower (Char.ofNat n).toLower := by decide +kernel
  have here := all ⟨c.toNat, ascii⟩
  rwa [Char.ofNat_toNat] at here

theorem isLower_of_not_holds (c : Char) (plain : ∀ run ∈ capitals, run.holds c.toNat = false) :
    IsLower c := by
  obtain ⟨letter, dotted, others⟩ := by simpa only [capitals, List.forall_mem_cons] using plain
  have sigma : c ≠ 'Σ' := by
    rintro rfl
    obtain ⟨run, member, held⟩ : ∃ run ∈ lowerRuns, run.holds 'Σ'.toNat = true := by decide
    exact Bool.eq_false_iff.mp (others run member) held
  refine ⟨sigma, ?_⟩
  unfold lowerChar
  by_cases ascii : c.toNat < 128
  · have small : ∀ n : Fin 128, (CaseRun.mk 65 90 1 32).holds n = false →
        (Char.ofNat n).toLower = Char.ofNat n := by decide +kernel
    have same := small ⟨c.toNat, ascii⟩ letter
    rw [Char.ofNat_toNat] at same
    rw [if_pos ascii, same]
  · have none : lowerRuns.find? (·.holds c.toNat) = none :=
      List.find?_eq_none.mpr fun run member => Bool.eq_false_iff.mp (others run member)
    have twofold : c ≠ 'İ' := by
      rintro rfl
      exact absurd dotted (by decide)
    rw [if_neg ascii, if_neg twofold, shifted, none]

theorem isLower_lowerChar (c : Char) (sigma : c ≠ 'Σ') : ∀ d ∈ lowerChar c, IsLower d := by
  unfold lowerChar
  split
  · rename_i ascii
    simpa using isLower_toLower c ascii
  · split
    · rw [List.forall_mem_cons, List.forall_mem_singleton]
      decide
    · rename_i ascii dotted
      rw [List.forall_mem_singleton, shifted]
      cases found : lowerRuns.find? (·.holds c.toNat) with
      | none =>
          have same : lowerChar c = [c] := by
            rw [lowerChar, if_neg ascii, if_neg dotted, shifted, found]
          exact ⟨sigma, same⟩
      | some run =>
          have held := List.find?_some found
          obtain ⟨proper, apart⟩ := lowerRuns_settled run (List.mem_of_find?_eq_some found)
          apply isLower_of_not_holds
          intro other member
          show other.holds (Char.ofNat (run.target c.toNat)).toNat = false
          rw [CaseRun.toNat_ofNat_target proper held]
          exact CaseRun.not_holds_of_apart (List.all_eq_true.mp apart other member) proper held

theorem isLower_lowerFrom (inWord : Bool) (cs : List Char) :
    ∀ c ∈ lowerFrom inWord cs, IsLower c := by
  induction cs generalizing inWord with
  | nil => simp [lowerFrom]
  | cons c rest ih =>
      rw [lowerFrom]
      split
      · rw [List.forall_mem_cons]
        refine ⟨?_, ih true⟩
        split <;> decide
      · rename_i sigma
        split
        · rename_i letter
          rw [List.forall_mem_cons]
          exact ⟨isLower_toLower c (by simpa using (Bool.and_eq_true_iff.mp letter).1), ih true⟩
        · rw [List.forall_mem_append]
          exact ⟨isLower_lowerChar c sigma, ih _⟩

theorem lowerFrom_of_isLower (inWord : Bool) (cs : List Char) (plain : ∀ c ∈ cs, IsLower c) :
    lowerFrom inWord cs = cs := by
  induction cs generalizing inWord with
  | nil => rfl
  | cons c rest ih =>
      obtain ⟨⟨sigma, same⟩, later⟩ := List.forall_mem_cons.mp plain
      rw [lowerFrom, if_neg sigma, same]
      split
      · rename_i letter
        have ascii : c.toNat < 128 := by simpa using (Bool.and_eq_true_iff.mp letter).1
        rw [lowerChar, if_pos ascii] at same
        rw [List.singleton_inj.mp same, ih _ later]
      · rw [ih _ later, List.singleton_append]

theorem lower_lower (s : String) : lower (lower s) = lower s := by
  rw [lower, lower, String.toList_ofList,
    lowerFrom_of_isLower false _ (isLower_lowerFrom false s.toList)]

end InputChords.Text
