import InputChords.Proofs.Build
import InputChords.Proofs.Parentheses

/-! A pair of parentheses around balanced tokens only says that they belong together. Whoever says
it twice, or says it of a single keyword or of everything, gets the same chord or the same error,
even if the other tokens are ill-formed. -/

namespace InputChords

variable {σ : Type}

namespace Token

/-- As many parentheses are closed as opened, and never more of them on the way. -/
def Matched (tokens : List Token) : Prop :=
  (∀ p, p <+: tokens → ¬ Overclosed p) ∧ openings tokens = closings tokens

theorem matched_iff (tokens : List Token) : Matched tokens ↔ Balanced 0 tokens := by
  have counted := length_unclosed tokens
  rw [Matched, ← excess_eq_zero_iff, balanced_iff]
  constructor
  · rintro ⟨level, same⟩
    exact ⟨level, List.eq_nil_of_length_eq_zero (by omega)⟩
  · rintro ⟨level, closed⟩
    rw [closed, level, List.length_nil] at counted
    exact ⟨level, by omega⟩

/-- Behind the waiting tokens, `inner` leaves the operators `left` above a boundary and puts `out`
out, and neither depends on what is below the boundary. -/
def Spans (e : String) (waiting inner left out : List Token) : Prop :=
  (∀ t ∈ left, t.kind.isOperator = true) ∧ ∀ below output rest, Looser 2 below →
    reorderFrom e (waiting ++ below) output (inner ++ rest) =
      reorderFrom e (left ++ below) (out ++ output) rest

section Spans

variable {e : String} {waiting inner left out : List Token} {token : Token}

theorem spans_nil (operators : ∀ t ∈ left, t.kind.isOperator = true) : Spans e left [] left [] :=
  ⟨operators, fun _ _ _ _ => rfl⟩

theorem Spans.keyword (spans : Spans e waiting inner left out) (isName : token.kind = .keyword) :
    Spans e waiting (token :: inner) left (out ++ [token]) := by
  refine ⟨spans.1, fun below output rest looser => ?_⟩
  rw [List.cons_append, reorderFrom_keyword _ _ _ _ _ isName, spans.2 below _ rest looser,
    List.append_assoc]
  rfl

theorem Spans.opening (spans : Spans e (token :: waiting) inner left out)
    (isOpening : token.kind = .opening) : Spans e waiting (token :: inner) left out := by
  refine ⟨spans.1, fun below output rest looser => ?_⟩
  rw [List.cons_append, reorderFrom_opening _ _ _ _ _ isOpening]
  exact spans.2 below output rest looser

/-- The closing parenthesis releases the operators down to the one it belongs to. -/
theorem Spans.closing (spans : Spans e waiting inner left out) (isClosing : token.kind = .closing)
    (opening : Token) (isOpening : opening.kind = .opening) (released : List Token)
    (operators : ∀ t ∈ released, t.kind.isOperator = true) :
    Spans e (released ++ opening :: waiting) (token :: inner) left (out ++ released.reverse) := by
  refine ⟨spans.1, fun below output rest looser => ?_⟩
  have found := releaseGroup_operators output (opening :: (waiting ++ below)) released operators
  rw [releaseGroup, if_pos isOpening] at found
  rw [List.append_assoc, List.cons_append, List.cons_append,
    reorderFrom_closing _ _ _ _ _ isClosing _ _ found, spans.2 below _ rest looser,
    List.append_assoc]

end Spans

theorem exists_spans (e : String) (waiting inner : List Token) (waits : ∀ t ∈ waiting, t.Waits)
    (balanced : Balanced (opened waiting).length inner) :
    ∃ left out, Spans e waiting inner left out := by
  -- The opening parentheses among `waiting` are the ones that `inner` has still to close.
  induction inner generalizing waiting with
  | nil =>
      refine ⟨waiting, [], spans_nil ?_⟩
      intro t member
      have none : opened waiting = [] := List.eq_nil_of_length_eq_zero balanced
      have notOpening := List.filter_eq_nil_iff.mp none t member
      exact (waits t member).resolve_left (by simpa using notOpening)
  | cons token inner ih =>
      rcases token.kind.sorts with isName | isOpening | isClosing | operator
      · simp only [Balanced, isName] at balanced
        obtain ⟨left, out, spans⟩ := ih waiting waits balanced
        exact ⟨left, _, spans.keyword isName⟩
      · simp only [Balanced, isOpening] at balanced
        rw [← List.length_cons (a := token), ← opened_opening _ _ isOpening] at balanced
        obtain ⟨left, out, spans⟩ :=
          ih (token :: waiting) (List.forall_mem_cons.mpr ⟨Or.inl isOpening, waits⟩) balanced
        exact ⟨left, out, spans.opening isOpening⟩
      · simp only [Balanced, isClosing] at balanced
        obtain ⟨depth, same, balanced⟩ := balanced
        rcases waiting_split waiting waits with allOperators |
          ⟨released, opening, outer, rfl, operators, isOpening⟩
        · have none := opened_operators waiting [] allOperators
          rw [List.append_nil] at none
          rw [none] at same
          cases same
        · rw [opened_operators _ _ operators, opened_opening _ _ isOpening] at same
          cases same
          have outside : ∀ t ∈ outer, t.Waits := fun t member => waits t (by simp [member])
          obtain ⟨left, out, spans⟩ := ih outer outside balanced
          exact ⟨left, _, spans.closing isClosing opening isOpening released operators⟩
      · obtain ⟨released, kept, rfl, operators, step⟩ :=
          reorderFrom_operator_above e waiting token operator waits
        have below : ∀ t ∈ token :: kept, t.Waits :=
          List.forall_mem_cons.mpr ⟨Or.inr operator, fun t member => waits t (by simp [member])⟩
        have same : opened (token :: kept) = opened (released ++ kept) :=
          (opened_operators [token] kept (by simpa using operator)).trans
            (opened_operators released kept operators).symm
        have plain : Balanced (opened (token :: kept)).length inner := by
          rw [same]
          cases kind : token.kind <;> simp_all [Balanced, Kind.isOperator]
        obtain ⟨left, out, spans⟩ := ih (token :: kept) below plain
        refine ⟨left, out ++ released.reverse, spans.1, fun below output rest looser => ?_⟩
        rw [List.cons_append, step below output _ looser, List.append_assoc]
        exact spans.2 below (released.reverse ++ output) rest looser

theorem reorderFrom_group (e : String) (inner : List Token) (balanced : Balanced 0 inner) :
    ∃ out, (∀ opening closing waiting output rest, opening.kind = .opening →
        closing.kind = .closing →
        reorderFrom e waiting output (opening :: (inner ++ closing :: rest)) =
          reorderFrom e waiting (out ++ output) rest) ∧
      reorder e inner = reorderFrom e [] out [] := by
  obtain ⟨left, out, operators, done⟩ := exists_spans e [] inner (by simp) balanced
  refine ⟨left.reverse ++ out, ?_, ?_⟩
  · intro opening closing waiting output rest isOpening isClosing
    have inside := done (opening :: waiting) output (closing :: rest)
      (looser_opening 2 opening waiting isOpening (by decide))
    have found := releaseGroup_operators (out ++ output) (opening :: waiting) left operators
    rw [releaseGroup, if_pos isOpening] at found
    rw [reorderFrom_opening _ _ _ _ _ isOpening, List.append_assoc]
    calc
      _ = reorderFrom e (left ++ opening :: waiting) (out ++ output) (closing :: rest) := inside
      _ = _ := reorderFrom_closing _ _ _ _ _ isClosing _ _ found
  · have whole := done [] [] [] trivial
    have ended := releaseAll_operators e out [] left operators
    simp only [List.append_nil] at whole ended
    rw [reorder]
    calc
      _ = reorderFrom e left out [] := whole
      _ = _ := ended

/-- What cannot be told apart behind any stack cannot be told apart behind any tokens. -/
theorem reorderFrom_congr (e : String) (before first second : List Token)
    (same : ∀ waiting output,
      reorderFrom e waiting output first = reorderFrom e waiting output second)
    (waiting output : List Token) :
    reorderFrom e waiting output (before ++ first) =
      reorderFrom e waiting output (before ++ second) := by
  induction before generalizing waiting output with
  | nil => exact same waiting output
  | cons token before ih =>
      rw [List.cons_append, List.cons_append]
      cases kind : token.kind with
      | keyword =>
          rw [reorderFrom_keyword _ _ _ _ _ kind, reorderFrom_keyword _ _ _ _ _ kind, ih]
      | opening =>
          rw [reorderFrom_opening _ _ _ _ _ kind, reorderFrom_opening _ _ _ _ _ kind, ih]
      | closing =>
          cases found : releaseGroup output waiting with
          | none =>
              rw [reorderFrom_unopened _ _ _ _ _ kind found,
                reorderFrom_unopened _ _ _ _ _ kind found]
          | some state =>
              rw [reorderFrom_closing _ _ _ _ _ kind _ _ found,
                reorderFrom_closing _ _ _ _ _ kind _ _ found, ih]
      | join c =>
          rw [reorderFrom_join _ _ _ _ _ c kind, reorderFrom_join _ _ _ _ _ c kind]
          simp only [ih]
      | not =>
          rw [reorderFrom_not _ _ _ _ _ kind, reorderFrom_not _ _ _ _ _ kind]
          simp only [ih]

/-- A second pair of parentheses around matched tokens, a pair around a keyword and a pair around
everything make no difference, neither to the chord nor to the error. -/
theorem compile_grouped (e : String) :
    (∀ (before inner after : List Token) (outer inside inside' outer' opening closing : Token),
      Matched inner → outer.kind = .opening → inside.kind = .opening → inside'.kind = .closing →
      outer'.kind = .closing → opening.kind = .opening → closing.kind = .closing →
      (compile e (before ++ outer :: inside :: (inner ++ inside' :: outer' :: after)) :
        Except CompileError (Option (Chord σ))) =
      compile e (before ++ opening :: (inner ++ closing :: after))) ∧
    (∀ (before after : List Token) (name opening closing : Token), name.kind = .keyword →
      opening.kind = .opening → closing.kind = .closing →
      (compile e (before ++ opening :: name :: closing :: after) :
        Except CompileError (Option (Chord σ))) =
      compile e (before ++ name :: after)) ∧
    (∀ (inner : List Token) (opening closing : Token), Matched inner → opening.kind = .opening →
      closing.kind = .closing →
      (compile e (opening :: (inner ++ [closing])) : Except CompileError (Option (Chord σ))) =
      compile e inner) := by
  refine ⟨?_, ?_, ?_⟩
  · intro before inner after outer inside inside' outer' opening closing matched isOuter isInside
      isInside' isOuter' isOpening isClosing
    obtain ⟨out, group, _⟩ := reorderFrom_group e inner ((matched_iff inner).mp matched)
    have same (waiting output : List Token) :
        reorderFrom e waiting output (outer :: inside :: (inner ++ inside' :: outer' :: after)) =
        reorderFrom e waiting output (opening :: (inner ++ closing :: after)) := by
      rw [reorderFrom_opening _ _ _ _ _ isOuter, group inside inside' _ output _ isInside isInside',
        group opening closing waiting output after isOpening isClosing]
      exact reorderFrom_closing _ _ _ _ _ isOuter' waiting _
        (by rw [releaseGroup, if_pos isOuter])
    rw [compile, compile, reorder, reorder, reorderFrom_congr e before _ _ same]
  · intro before after name opening closing isName isOpening isClosing
    have same (waiting output : List Token) :
        reorderFrom e waiting output (opening :: name :: closing :: after) =
        reorderFrom e waiting output (name :: after) := by
      rw [reorderFrom_opening _ _ _ _ _ isOpening, reorderFrom_keyword _ _ _ _ _ isName,
        reorderFrom_keyword _ _ _ _ _ isName]
      exact reorderFrom_closing _ _ _ _ _ isClosing waiting _
        (by rw [releaseGroup, if_pos isOpening])
    rw [compile, compile, reorder, reorder, reorderFrom_congr e before _ _ same]
  · intro inner opening closing matched isOpening isClosing
    obtain ⟨out, group, whole⟩ := reorderFrom_group e inner ((matched_iff inner).mp matched)
    rw [compile, compile, whole, reorder, group opening closing [] [] [] isOpening isClosing,
      List.append_nil]

/-- The groups of `!((A +)))`, of `+(A` and of `((A +))`. -/
theorem compile_grouped_ill_formed :
    Matched [⟨.keyword, "A", 3⟩, ⟨.join .and, "+", 5⟩] ∧
    (compile "!((A +)))" [⟨.not, "!", 0⟩, ⟨.opening, "(", 1⟩, ⟨.opening, "(", 2⟩,
        ⟨.keyword, "A", 3⟩, ⟨.join .and, "+", 5⟩, ⟨.closing, ")", 6⟩, ⟨.closing, ")", 7⟩,
        ⟨.closing, ")", 8⟩] : Except CompileError (Option (Chord Empty))) =
      compile "!((A +)))" [⟨.not, "!", 0⟩, ⟨.opening, "(", 1⟩, ⟨.keyword, "A", 3⟩,
        ⟨.join .and, "+", 5⟩, ⟨.closing, ")", 7⟩, ⟨.closing, ")", 8⟩] ∧
    (compile "+((A)" [⟨.join .and, "+", 0⟩, ⟨.opening, "(", 1⟩, ⟨.opening, "(", 2⟩,
        ⟨.keyword, "A", 3⟩, ⟨.closing, ")", 4⟩] : Except CompileError (Option (Chord Empty))) =
      compile "+((A)" [⟨.join .and, "+", 0⟩, ⟨.opening, "(", 1⟩, ⟨.keyword, "A", 3⟩] ∧
    (compile "(A +)" [⟨.opening, "(", 2⟩, ⟨.keyword, "A", 3⟩, ⟨.join .and, "+", 5⟩,
        ⟨.closing, ")", 6⟩] : Except CompileError (Option (Chord Empty))) =
      compile "(A +)" [⟨.keyword, "A", 3⟩, ⟨.join .and, "+", 5⟩] := by
  have matched : Matched [⟨.keyword, "A", 3⟩, ⟨.join .and, "+", 5⟩] := by
    rw [matched_iff]
    rfl
  refine ⟨matched, ?_, ?_, ?_⟩
  · exact (compile_grouped "!((A +)))").1 [⟨.not, "!", 0⟩]
      [⟨.keyword, "A", 3⟩, ⟨.join .and, "+", 5⟩] [⟨.closing, ")", 8⟩]
      ⟨.opening, "(", 1⟩ ⟨.opening, "(", 2⟩ ⟨.closing, ")", 6⟩
      ⟨.closing, ")", 7⟩ ⟨.opening, "(", 1⟩ ⟨.closing, ")", 7⟩ matched rfl rfl rfl rfl rfl rfl
  · exact (compile_grouped "+((A)").2.1 [⟨.join .and, "+", 0⟩, ⟨.opening, "(", 1⟩] []
      ⟨.keyword, "A", 3⟩ ⟨.opening, "(", 2⟩ ⟨.closing, ")", 4⟩ rfl rfl rfl
  · exact (compile_grouped "(A +)").2.2 [⟨.keyword, "A", 3⟩, ⟨.join .and, "+", 5⟩]
      ⟨.opening, "(", 2⟩ ⟨.closing, ")", 6⟩ matched rfl rfl

end Token

end InputChords
