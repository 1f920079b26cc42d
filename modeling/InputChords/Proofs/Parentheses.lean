import Mathlib.Data.List.Basic
import InputChords.Proofs.Reorder

/-! Parentheses are matched as if nothing else stood between them: the ones that wait are the ones
that are still open, whatever operators wait with them. Which parentheses are open is a matter of
counting. -/

namespace InputChords

namespace Token

/-- So many parentheses are still to be closed, and all others are closed in the tokens. -/
def Balanced : Nat → List Token → Prop
  | depth, [] => depth = 0
  | depth, token :: rest =>
    match token.kind with
    | .opening => Balanced (depth + 1) rest
    | .closing => ∃ outer, depth = outer + 1 ∧ Balanced outer rest
    | _ => Balanced depth rest

def openings (tokens : List Token) : Nat := tokens.countP (·.kind = .opening)

def closings (tokens : List Token) : Nat := tokens.countP (·.kind = .closing)

/-- The number of closing parentheses that close nothing. -/
def excess : List Token → Nat
  | [] => 0
  | token :: rest =>
    match token.kind with
    | .opening => excess rest - 1
    | .closing => excess rest + 1
    | _ => excess rest

def unclosed : List Token → List Token
  | [] => []
  | token :: rest =>
    if token.kind = .opening ∧ excess rest = 0 then token :: unclosed rest else unclosed rest

/-- The parentheses that are open after the tokens, the last one first, or the first closing one
that closes nothing. -/
def stillOpen (opened : List Token) : List Token → Except Token (List Token)
  | [] => .ok opened
  | token :: rest =>
    match token.kind with
    | .opening => stillOpen (token :: opened) rest
    | .closing =>
      match opened with
      | [] => .error token
      | _ :: outer => stillOpen outer rest
    | _ => stillOpen opened rest

def Overclosed (tokens : List Token) : Prop := openings tokens < closings tokens

/-- What follows an opening parenthesis closes it, with balanced tokens in between. -/
def Closes (rest : List Token) : Prop :=
  ∃ inner closing outer, rest = inner ++ closing :: outer ∧ closing.kind = .closing ∧
    Balanced 0 inner

section Counts

variable (token : Token) (rest : List Token)

theorem openings_cons :
    openings (token :: rest) = openings rest + if token.kind = .opening then 1 else 0 := by
  simp [openings, List.countP_cons]

theorem closings_cons :
    closings (token :: rest) = closings rest + if token.kind = .closing then 1 else 0 := by
  simp [closings, List.countP_cons]

end Counts

theorem forall_prefix_cons {P : List Token → Prop} (token : Token) (rest : List Token)
    (empty : P []) : (∀ p, p <+: token :: rest → P p) ↔ ∀ p, p <+: rest → P (token :: p) := by
  constructor
  · intro all p starts
    exact all _ (List.cons_prefix_cons.mpr ⟨rfl, starts⟩)
  · intro all p starts
    cases p with
    | nil => exact empty
    | cons first p =>
        obtain ⟨rfl, inside⟩ := List.cons_prefix_cons.mp starts
        exact all p inside

theorem excess_le_iff (tokens : List Token) (depth : Nat) :
    excess tokens ≤ depth ↔ ∀ p, p <+: tokens → closings p ≤ openings p + depth := by
  induction tokens generalizing depth with
  | nil => simp [excess, closings, openings]
  | cons token rest ih =>
      cases kind : token.kind with
      | opening =>
          have less : excess rest - 1 ≤ depth ↔ excess rest ≤ depth + 1 := Nat.sub_le_iff_le_add
          rw [forall_prefix_cons token rest (by simp [closings])]
          simp only [excess, kind, less, ih, openings_cons, closings_cons]
          simp [Nat.add_assoc, Nat.add_comm 1]
      | closing =>
          simp only [excess, kind]
          cases depth with
          | zero =>
              -- The closing parenthesis alone is a prefix that closes too much.
              have first : [token] <+: token :: rest := ⟨rest, rfl⟩
              have tooMany : ¬ closings [token] ≤ openings [token] := by
                simp [openings, closings, kind]
              exact ⟨fun none => (nomatch none), fun all => absurd (all _ first) tooMany⟩
          | succ depth =>
              rw [forall_prefix_cons token rest (by simp [closings])]
              simp only [Nat.add_le_add_iff_right, ih, openings_cons, closings_cons, kind]
              simp [← Nat.add_assoc]
      | _ =>
          rw [forall_prefix_cons token rest (by simp [closings])]
          simp only [excess, kind, ih, openings_cons, closings_cons]
          simp

theorem excess_append (depth : Nat) (inner rest : List Token) (balanced : Balanced depth inner) :
    excess (inner ++ rest) = excess rest + depth := by
  induction inner generalizing depth with
  | nil =>
      cases balanced
      rfl
  | cons token inner ih =>
      cases kind : token.kind with
      | opening =>
          simp only [Balanced, kind] at balanced
          simp only [List.cons_append, excess, kind, ih (depth + 1) balanced]
          rfl
      | closing =>
          simp only [Balanced, kind] at balanced
          obtain ⟨outer, rfl, balanced⟩ := balanced
          simp only [List.cons_append, excess, kind, ih outer balanced]
          rfl
      | _ =>
          simp only [Balanced, kind] at balanced
          simp only [List.cons_append, excess, kind, ih depth balanced]

theorem exists_closing (depth : Nat) (rest : List Token) (tooMany : depth < excess rest) :
    ∃ inner closing outer, rest = inner ++ closing :: outer ∧ closing.kind = .closing ∧
      Balanced depth inner := by
  induction rest generalizing depth with
  | nil => cases tooMany
  | cons token rest ih =>
      cases kind : token.kind with
      | opening =>
          simp only [excess, kind] at tooMany
          obtain ⟨inner, closing, outer, rfl, isClosing, balanced⟩ :=
            ih (depth + 1) (by omega)
          exact ⟨token :: inner, closing, outer, rfl, isClosing, by simpa only [Balanced, kind]⟩
      | closing =>
          simp only [excess, kind] at tooMany
          cases depth with
          | zero => exact ⟨[], token, rest, rfl, kind, rfl⟩
          | succ depth =>
              obtain ⟨inner, closing, outer, rfl, isClosing, balanced⟩ :=
                ih depth (Nat.lt_of_succ_lt_succ tooMany)
              refine ⟨token :: inner, closing, outer, rfl, isClosing, ?_⟩
              simp only [Balanced, kind]
              exact ⟨depth, rfl, balanced⟩
      | _ =>
          simp only [excess, kind] at tooMany
          obtain ⟨inner, closing, outer, rfl, isClosing, balanced⟩ := ih depth tooMany
          exact ⟨token :: inner, closing, outer, rfl, isClosing, by simpa only [Balanced, kind]⟩

theorem closes_iff (rest : List Token) : Closes rest ↔ 0 < excess rest := by
  constructor
  · rintro ⟨inner, closing, outer, rfl, isClosing, balanced⟩
    rw [excess_append 0 inner _ balanced]
    simp only [excess, isClosing]
    omega
  · exact exists_closing 0 rest

theorem length_unclosed (tokens : List Token) :
    (unclosed tokens).length + closings tokens = openings tokens + excess tokens := by
  induction tokens with
  | nil => rfl
  | cons token rest ih =>
      simp only [unclosed, excess, openings_cons, closings_cons]
      cases kind : token.kind with
      | opening =>
          by_cases kept : excess rest = 0
          · simp [kept]
            omega
          · simp [kept]
            omega
      | closing =>
          simp
          omega
      | _ => simpa using ih

theorem excess_eq_zero_iff (tokens : List Token) :
    excess tokens = 0 ↔ ∀ p, p <+: tokens → ¬ Overclosed p := by
  rw [← Nat.le_zero, excess_le_iff]
  simp only [Overclosed, Nat.not_lt, Nat.add_zero]

theorem unclosed_last (tokens others : List Token) (opening : Token)
    (last : (unclosed tokens).reverse = opening :: others) :
    ∃ before after, tokens = before ++ opening :: after ∧ opening.kind = .opening ∧
      excess after = 0 ∧ unclosed after = [] := by
  induction tokens generalizing others with
  | nil => cases last
  | cons token rest ih =>
      have later (others : List Token) (last : (unclosed rest).reverse = opening :: others) :
          ∃ before after, token :: rest = before ++ opening :: after ∧ opening.kind = .opening ∧
            excess after = 0 ∧ unclosed after = [] := by
        obtain ⟨before, after, rfl, found⟩ := ih others last
        exact ⟨token :: before, after, rfl, found⟩
      by_cases kept : token.kind = .opening ∧ excess rest = 0
      · rw [unclosed, if_pos kept, List.reverse_cons] at last
        cases inside : (unclosed rest).reverse with
        | nil =>
            rw [inside] at last
            cases last
            exact ⟨[], rest, rfl, kept.1, kept.2, List.reverse_eq_nil_iff.mp inside⟩
        | cons first others =>
            rw [inside] at last
            cases last
            exact later others inside
      · rw [unclosed, if_neg kept] at last
        exact later others last

theorem closes_of_unclosed (between later : List Token) (other : Token)
    (isOpening : other.kind = .opening) (none : unclosed (between ++ other :: later) = []) :
    Closes later := by
  rw [closes_iff]
  induction between with
  | nil =>
      by_contra kept
      have found : unclosed (other :: later) = other :: unclosed later := by
        rw [unclosed, if_pos ⟨isOpening, Nat.eq_zero_of_not_pos kept⟩]
      rw [List.nil_append, found] at none
      cases none
  | cons token between ih =>
      rw [List.cons_append, unclosed] at none
      split at none
      · cases none
      · exact ih none

theorem stillOpen_ok (opened tokens : List Token) (enough : excess tokens ≤ opened.length) :
    stillOpen opened tokens =
      .ok ((unclosed tokens).reverse ++ opened.drop (excess tokens)) := by
  induction tokens generalizing opened with
  | nil => rfl
  | cons token rest ih =>
      cases kind : token.kind with
      | opening =>
          simp only [excess, kind] at enough
          have more : excess rest ≤ (token :: opened).length := by
            rw [List.length_cons]
            omega
          simp only [stillOpen, kind, ih _ more, excess, unclosed, true_and]
          cases deep : excess rest with
          | zero => simp
          | succ depth => simp
      | closing =>
          simp only [excess, kind] at enough
          cases opened with
          | nil => cases enough
          | cons top outer =>
              have later := ih outer (Nat.le_of_succ_le_succ enough)
              simp only [stillOpen, kind, excess, unclosed, later]
              simp
      | _ =>
          simp only [excess, kind] at enough
          simp only [stillOpen, kind, excess, unclosed, ih opened enough]
          simp

theorem balanced_iff (depth : Nat) (tokens : List Token) :
    Balanced depth tokens ↔ excess tokens = depth ∧ unclosed tokens = [] := by
  induction tokens generalizing depth with
  | nil => simp [Balanced, excess, unclosed, eq_comm]
  | cons token rest ih =>
      cases kind : token.kind with
      | opening =>
          simp only [Balanced, excess, unclosed, kind, ih, true_and]
          cases excess rest <;> simp
      | closing =>
          simp only [Balanced, excess, unclosed, kind, ih]
          simp
          tauto
      | _ =>
          simp only [Balanced, excess, unclosed, kind, ih]
          simp

theorem stillOpen_balanced (opened inner rest : List Token)
    (balanced : Balanced opened.length inner) :
    stillOpen opened (inner ++ rest) = stillOpen [] rest := by
  induction inner generalizing opened with
  | nil => rw [List.length_eq_zero_iff.mp balanced, List.nil_append]
  | cons token inner ih =>
      cases kind : token.kind with
      | opening =>
          simp only [Balanced, kind] at balanced
          simp only [List.cons_append, stillOpen, kind]
          exact ih (token :: opened) balanced
      | closing =>
          simp only [Balanced, kind] at balanced
          obtain ⟨depth, same, balanced⟩ := balanced
          obtain ⟨top, outer, rfl⟩ := List.exists_cons_of_length_eq_add_one same
          cases same
          simp only [List.cons_append, stillOpen, kind]
          exact ih outer balanced
      | _ =>
          simp only [Balanced, kind] at balanced
          simp only [List.cons_append, stillOpen, kind]
          exact ih opened balanced

theorem stillOpen_error (tokens : List Token) (tooMany : 0 < excess tokens) :
    ∃ before closing after, tokens = before ++ closing :: after ∧ closing.kind = .closing ∧
      Balanced 0 before ∧ stillOpen [] tokens = .error closing := by
  obtain ⟨before, closing, after, rfl, isClosing, balanced⟩ := exists_closing 0 tokens tooMany
  refine ⟨before, closing, after, rfl, isClosing, balanced, ?_⟩
  rw [stillOpen_balanced [] before _ balanced]
  simp only [stillOpen, isClosing]

def opened (waiting : List Token) : List Token := waiting.filter (·.kind = .opening)

theorem opened_operators (released left : List Token)
    (operators : ∀ t ∈ released, t.kind.isOperator = true) :
    opened (released ++ left) = opened left := by
  have none : released.filter (·.kind = .opening) = [] := by
    apply List.filter_eq_nil_iff.mpr
    intro t member
    simp [Kind.ne_opening_of_operator (operators t member)]
  rw [opened, List.filter_append, none, List.nil_append, opened]

theorem opened_opening (top : Token) (waiting : List Token) (opening : top.kind = .opening) :
    opened (top :: waiting) = top :: opened waiting :=
  List.filter_cons_of_pos (by simp [opening])

theorem stillOpen_plain (outer rest : List Token) (token : Token)
    (plain : token.isParenthesis = false) :
    stillOpen outer (token :: rest) = stillOpen outer rest := by
  cases kind : token.kind <;> simp_all [stillOpen, isParenthesis]

def Settles (e : String) (outcome : Except Token (List Token))
    (result : Except CompileError (List Token)) : Prop :=
  match outcome with
  | .error closing => result = .error (.rejected (.blame .unopened e closing))
  | .ok (opening :: _) => result = .error (.rejected (.blame .unclosed e opening))
  | .ok [] => ∃ polish, result = .ok polish

theorem reorderFrom_settles (e : String) (waiting output tokens : List Token)
    (waits : ∀ t ∈ waiting, t.Waits) :
    Settles e (stillOpen (opened waiting) tokens) (reorderFrom e waiting output tokens) := by
  -- Operators come and go on the stack without a change to the parentheses that wait on it.
  induction tokens generalizing waiting output with
  | nil =>
      rw [stillOpen]
      rcases reorderFrom_end e output waiting waits with ⟨operators, done⟩ |
        ⟨released, opening, outer, rfl, operators, isOpening, stopped⟩
      · have none := opened_operators waiting [] operators
        rw [List.append_nil] at none
        rw [none, done]
        exact ⟨_, rfl⟩
      · rw [opened_operators _ _ operators, opened_opening _ _ isOpening, stopped]
        exact rfl
  | cons token rest ih =>
      rcases token.kind.sorts with keyword | isOpening | isClosing | operator
      · have plain : token.isParenthesis = false := by simp [isParenthesis, keyword]
        rw [reorderFrom_keyword _ _ _ _ _ keyword, stillOpen_plain _ _ _ plain]
        exact ih waiting (token :: output) waits
      · have pushed := ih (token :: waiting) output
          (List.forall_mem_cons.mpr ⟨Or.inl isOpening, waits⟩)
        rw [opened_opening _ _ isOpening] at pushed
        rw [reorderFrom_opening _ _ _ _ _ isOpening]
        simp only [stillOpen, isOpening]
        exact pushed
      · rcases reorderFrom_close e output waiting rest token isClosing waits with
          ⟨operators, stopped⟩ | ⟨released, opening, outer, rfl, operators, isOpening, step⟩
        · have none := opened_operators waiting [] operators
          rw [List.append_nil] at none
          rw [none, stopped]
          simp only [stillOpen, isClosing, opened, List.filter_nil]
          exact rfl
        · have below : ∀ t ∈ outer, t.Waits := fun t member => waits t (by simp [member])
          rw [opened_operators _ _ operators, opened_opening _ _ isOpening, step]
          simp only [stillOpen, isClosing]
          exact ih outer _ below
      · obtain ⟨released, left, rfl, operators, step⟩ :=
          reorderFrom_operator e output waiting rest token operator waits
        have below : ∀ t ∈ token :: left, t.Waits :=
          List.forall_mem_cons.mpr ⟨Or.inr operator, fun t member => waits t (by simp [member])⟩
        have pushed := ih (token :: left) (released.reverse ++ output) below
        have same : opened (token :: left) = opened left :=
          opened_operators [token] left (by simpa using operator)
        rw [same] at pushed
        rw [step, opened_operators _ _ operators,
          stillOpen_plain _ _ _ (plain_of_operator operator)]
        exact pushed

theorem overclosed_of_balanced (before : List Token) (closing : Token)
    (isClosing : closing.kind = .closing) (balanced : Balanced 0 before) :
    Overclosed (before ++ [closing]) := by
  obtain ⟨level, closed⟩ := (balanced_iff 0 before).mp balanced
  have counted := length_unclosed before
  rw [closed, level, List.length_nil] at counted
  simp [Overclosed, openings, closings, List.countP_append, isClosing] at counted ⊢
  omega

theorem reorder_settles (e : String) (tokens : List Token) :
    Settles e (stillOpen [] tokens) (reorder e tokens) :=
  reorderFrom_settles e [] [] tokens (by simp)

theorem reorder_unopened (e : String) (tokens : List Token) (tooMany : 0 < excess tokens) :
    ∃ before closing after, tokens = before ++ closing :: after ∧ closing.kind = .closing ∧
      Balanced 0 before ∧ reorder e tokens = .error (.rejected (.blame .unopened e closing)) := by
  obtain ⟨before, closing, after, split, isClosing, balanced, stopped⟩ :=
    stillOpen_error tokens tooMany
  have settled := reorder_settles e tokens
  rw [stopped] at settled
  exact ⟨before, closing, after, split, isClosing, balanced, settled⟩

theorem reorder_unclosed (e : String) (tokens : List Token) (level : excess tokens = 0)
    (notClosed : unclosed tokens ≠ []) :
    ∃ before opening after, tokens = before ++ opening :: after ∧ opening.kind = .opening ∧
      excess after = 0 ∧ unclosed after = [] ∧
      reorder e tokens = .error (.rejected (.blame .unclosed e opening)) := by
  obtain ⟨opening, others, last⟩ :=
    List.exists_cons_of_ne_nil (mt List.reverse_eq_nil_iff.mp notClosed)
  obtain ⟨before, after, split, isOpening, kept, closed⟩ := unclosed_last tokens others opening last
  have settled := reorder_settles e tokens
  rw [stillOpen_ok [] tokens (Nat.le_of_eq level), last, List.drop_nil, List.append_nil] at settled
  exact ⟨before, opening, after, split, isOpening, kept, closed, settled⟩

theorem parentheses_cases (tokens : List Token) :
    0 < excess tokens ∨ (excess tokens = 0 ∧ unclosed tokens ≠ []) ∨ Balanced 0 tokens := by
  rw [balanced_iff]
  by_cases closed : unclosed tokens = [] <;> simp [closed] <;> omega

theorem balanced_of_reorder (e : String) (tokens polish : List Token)
    (done : reorder e tokens = .ok polish) : Balanced 0 tokens := by
  rcases parentheses_cases tokens with tooMany | ⟨level, notClosed⟩ | balanced
  · obtain ⟨_, _, _, _, _, _, stopped⟩ := reorder_unopened e tokens tooMany
    rw [stopped] at done
    cases done
  · obtain ⟨_, _, _, _, _, _, _, stopped⟩ := reorder_unclosed e tokens level notClosed
    rw [stopped] at done
    cases done
  · exact balanced

theorem reorder_balanced (e : String) (tokens : List Token) (balanced : Balanced 0 tokens) :
    ∃ polish, reorder e tokens = .ok polish ∧ polish.Perm (proper tokens) := by
  obtain ⟨level, closed⟩ := (balanced_iff 0 tokens).mp balanced
  have settled := reorder_settles e tokens
  rw [stillOpen_ok [] tokens (Nat.le_of_eq level), closed, List.drop_nil, List.reverse_nil,
    List.append_nil] at settled
  obtain ⟨polish, done⟩ := settled
  exact ⟨polish, done, reorderFrom_perm e [] [] tokens polish (by simp) done⟩

end Token

end InputChords
