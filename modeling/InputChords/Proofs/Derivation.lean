import InputChords.Proofs.Build
import InputChords.Proofs.Fold
import InputChords.Proofs.Grammar
import InputChords.Proofs.Names
import InputChords.Proofs.Reorder

/-! An expression of the grammar is parsed as its derivation is read, and the chord holds when the
derivation does. -/

namespace InputChords

variable {σ : Type}

namespace Chord

theorem eval_atom (active : AtomSet) (a : Atom) :
    (atom a : Chord σ).eval active = .ok (decide (a ∈ active)) := by
  rw [eval, fold_eq_value, value]

theorem eval_not (active : AtomSet) (t : Chord σ) (b : Bool) (value_t : t.eval active = .ok b) :
    (not t).eval active = .ok (!b) := by
  rw [eval, fold_eq_value] at value_t ⊢
  rw [value, value_t]
  rfl

theorem eval_join (active : AtomSet) (c : Connective) (l r : Chord σ) (x y : Bool)
    (left : l.eval active = .ok x) (right : r.eval active = .ok y) :
    (join c l r).eval active = .ok (c.apply x y) := by
  rw [eval, fold_eq_value] at left right ⊢
  rw [value, left, right]
  cases c <;> rfl

theorem eval_ofAtom (active : AtomSet) (a : Atom) :
    (ofAtom a : Chord σ).eval active = .ok (a.holds active) := by
  unfold ofAtom Atom.holds
  cases a.parts with
  | none => exact eval_atom active a
  | some both => exact eval_join _ _ _ _ _ _ (eval_atom active both.1) (eval_atom active both.2)

end Chord

namespace Grammar

/-- The lowest priority among the signs of a part that stand outside of all parentheses. Operands
have no such signs. -/
def Part.level : Part → Nat
  | .run c => c.level
  | .term => 4
  | .operand => 5

theorem Part.level_item (c : Connective) : (Part.item c).level = c.level + 1 := by
  cases c <;> rfl

namespace Phrase

variable {p : Part}

theorem polish_ne_nil (d : Phrase p) : d.polish ≠ [] := by
  induction d with
  | one first ih => exact ih
  | more run sign isSign next => simp [polish]
  | plain operand ih => exact ih
  | negated sign isSign operand => simp [polish]
  | keyword name isName => simp [polish]
  | group opening isOpening inner closing isClosing ih => exact ih

/-- A phrase comes out in operand order, whatever waits below it, as soon as something follows that
releases its own signs. -/
theorem reorderFrom_phrase (e : String) (d : Phrase p) (waiting output rest : List Token)
    (looser : Token.Looser p.level waiting) (releases : Token.Releases p.level rest) :
    Token.reorderFrom e waiting output (d.tokens ++ rest) =
      Token.reorderFrom e waiting (d.polish.reverse ++ output) rest := by
  -- Signs further inside bind tighter, so they never release what waits and are released by the
  -- signs around them.
  induction d generalizing waiting output rest with
  | @one c first ih =>
      have bound : (Part.run c).level ≤ (Part.item c).level := by
        rw [Part.level_item]
        exact Nat.le_succ _
      exact ih waiting output rest (looser.mono bound) (releases.mono bound)
  | @more c run sign isSign next ihRun ihNext =>
      have above : c.level < (Part.item c).level := by
        rw [Part.level_item]
        exact Nat.lt_succ_self _
      have signReleases : Token.Releases c.level (sign :: (next.tokens ++ rest)) :=
        Or.inr ⟨c, isSign, Nat.le_refl _⟩
      calc
        _ = Token.reorderFrom e waiting output (run.tokens ++ (sign :: (next.tokens ++ rest))) := by
          simp only [tokens, List.append_assoc, List.cons_append]
        _ = Token.reorderFrom e (sign :: waiting) (run.polish.reverse ++ output)
            (next.tokens ++ rest) := by
          rw [ihRun waiting output _ looser signReleases]
          exact Token.reorderFrom_push_join _ _ _ _ _ c isSign looser
        _ = Token.reorderFrom e (sign :: waiting)
            (next.polish.reverse ++ (run.polish.reverse ++ output)) rest :=
          ihNext _ _ _ (Token.looser_join _ c _ _ isSign above) (releases.mono (Nat.le_of_lt above))
        _ = Token.reorderFrom e waiting
            (sign :: (next.polish.reverse ++ (run.polish.reverse ++ output))) rest :=
          Token.reorderFrom_release e _ _ _ _ c.level c.level (by simp [isSign])
            (by rw [isSign, Token.Kind.priority_join]) (Nat.le_refl _) releases
        _ = _ := by simp only [polish, List.reverse_append, List.reverse_cons, List.reverse_nil,
            List.nil_append, List.append_assoc, List.cons_append]
  | plain operand ih =>
      have bound : Part.term.level ≤ Part.operand.level := by decide
      exact ih waiting output rest (looser.mono bound) (releases.mono bound)
  | negated sign isSign operand ih =>
      have above : Part.term.level < Part.operand.level := by decide
      calc
        _ = Token.reorderFrom e (sign :: waiting) output (operand.tokens ++ rest) := by
          rw [tokens, List.cons_append]
          exact Token.reorderFrom_push_not _ _ _ _ _ isSign looser
        _ = Token.reorderFrom e (sign :: waiting) (operand.polish.reverse ++ output) rest :=
          ih _ _ _ (Token.looser_not _ _ _ isSign above) (releases.mono (Nat.le_of_lt above))
        _ = Token.reorderFrom e waiting (sign :: (operand.polish.reverse ++ output)) rest :=
          Token.reorderFrom_release e _ _ _ _ Part.term.level Part.term.level (by simp [isSign])
            (by rw [isSign]; rfl) (Nat.le_refl _) releases
        _ = _ := by simp only [polish, List.reverse_append, List.reverse_cons, List.reverse_nil,
            List.nil_append, List.cons_append]
  | keyword name isName => exact Token.reorderFrom_keyword e waiting output rest name isName
  | group opening isOpening inner closing isClosing ih =>
      have inside : Token.Looser (Part.run .or).level (opening :: waiting) :=
        Token.looser_opening _ _ _ isOpening (by decide)
      have found : Token.releaseGroup (inner.polish.reverse ++ output) (opening :: waiting) =
          some (waiting, inner.polish.reverse ++ output) := by
        simp only [Token.releaseGroup, isOpening, if_true]
      calc
        _ = Token.reorderFrom e (opening :: waiting) output
            (inner.tokens ++ (closing :: rest)) := by
          rw [tokens, List.cons_append, Token.reorderFrom_opening _ _ _ _ _ isOpening,
            List.append_assoc]
          rfl
        _ = Token.reorderFrom e (opening :: waiting) (inner.polish.reverse ++ output)
            (closing :: rest) := ih _ _ _ inside (Or.inl isClosing)
        _ = Token.reorderFrom e waiting (inner.polish.reverse ++ output) rest :=
          Token.reorderFrom_closing e _ _ _ _ isClosing _ _ found

theorem reorder_phrase (e : String) (d : Derivation) :
    Token.reorder e d.tokens = .ok d.polish := by
  have whole := reorderFrom_phrase e d [] [] [] trivial trivial
  rw [List.append_nil, List.append_nil] at whole
  rw [Token.reorder, whole, Token.reorderFrom, Token.releaseAll, List.reverse_reverse]

theorem reduceAll_phrase (e : String) (d : Phrase p) (operands : List (Chord σ))
    (rest : List Token) :
    Token.reduceAll e operands (d.polish ++ rest) =
      match d.chord with
      | .ok t => Token.reduceAll e (t :: operands) rest
      | .error k => .error (.rejected (.blame .invalidKeyword e k)) := by
  induction d generalizing operands rest with
  | one first ih => exact ih operands rest
  | @more c run sign isSign next ihRun ihNext =>
      rw [polish, List.append_assoc, List.append_assoc, ihRun]
      simp only [chord]
      cases run.chord with
      | error k => rfl
      | ok l =>
          simp only [bind, Except.bind]
          rw [ihNext]
          cases next.chord with
          | error k => rfl
          | ok r => exact Token.reduceAll_join e operands rest sign c isSign l r
  | plain operand ih => exact ih operands rest
  | negated sign isSign operand ih =>
      rw [polish, List.append_assoc, ih]
      simp only [chord]
      cases operand.chord with
      | error k => rfl
      | ok t => exact Token.reduceAll_not e operands rest sign isSign t
  | keyword name isName => exact Token.reduceAll_keyword e operands rest name isName
  | group opening isOpening inner closing isClosing ih => exact ih operands rest

theorem find_unknown (d : Phrase p) :
    d.tokens.find? Token.isUnknown =
      match (d.chord : Except Token (Chord σ)) with
      | .ok _ => none
      | .error k => some k := by
  induction d with
  | one first ih => exact ih
  | @more c run sign isSign next ihRun ihNext =>
      have known : sign.isUnknown = false := by simp [Token.isUnknown, isSign]
      rw [tokens, List.find?_append, ihRun, List.find?_cons_of_neg (by simp [known]), ihNext]
      simp only [chord]
      cases run.chord with
      | error k => rfl
      | ok l => cases next.chord <;> rfl
  | plain operand ih => exact ih
  | negated sign isSign operand ih =>
      have known : sign.isUnknown = false := by simp [Token.isUnknown, isSign]
      rw [tokens, List.find?_cons_of_neg (by simp [known]), ih]
      simp only [chord]
      cases operand.chord <;> rfl
  | keyword name isName =>
      simp only [tokens, chord, Token.leaf, List.find?_cons, List.find?_nil, Token.isUnknown,
        isName]
      cases resolveAtom name.text <;> rfl
  | group opening isOpening inner closing isClosing ih =>
      have known : opening.isUnknown = false := by simp [Token.isUnknown, isOpening]
      have knownToo : closing.isUnknown = false := by simp [Token.isUnknown, isClosing]
      rw [tokens, List.find?_cons_of_neg (by simp [known]), List.find?_append, ih,
        List.find?_cons_of_neg (by simp [knownToo]), List.find?_nil, Option.or_none]
      rfl

theorem eval_chord (active : AtomSet) (d : Phrase p) (t : Chord σ) (reading : d.chord = .ok t) :
    t.eval active = .ok (d.holds active) := by
  induction d generalizing t with
  | one first ih => exact ih t reading
  | more run sign isSign next ihRun ihNext =>
      obtain ⟨l, left, reading⟩ := bind_eq_ok reading
      obtain ⟨r, right, reading⟩ := bind_eq_ok reading
      cases reading
      exact Chord.eval_join _ _ _ _ _ _ (ihRun l left) (ihNext r right)
  | plain operand ih => exact ih t reading
  | negated sign isSign operand ih =>
      obtain ⟨u, inside, reading⟩ := bind_eq_ok reading
      cases reading
      exact Chord.eval_not _ _ _ (ih u inside)
  | keyword name isName =>
      simp only [chord, Token.leaf] at reading
      simp only [holds]
      cases found : resolveAtom name.text with
      | none =>
          rw [found] at reading
          cases reading
      | some a =>
          rw [found] at reading
          cases reading
          exact Chord.eval_ofAtom active a
  | group opening isOpening inner closing isClosing ih => exact ih t reading

theorem parse_eq_chord (e : String) (d : Derivation) (derives : d.tokens = Token.tokenize e) :
    (parse e : Except CompileError (Option (Chord σ))) =
      match d.chord with
      | .ok t => .ok (some t)
      | .error k => .error (.rejected (.blame .invalidKeyword e k)) := by
  have reduced := reduceAll_phrase (σ := σ) e d [] []
  rw [List.append_nil] at reduced
  have ordered : Token.reorder e (Token.tokenize e) = .ok d.polish := by
    rw [← derives, reorder_phrase]
  rw [parse_of_reorder e d.polish ordered, Token.build_of_ne_nil e _ d.polish_ne_nil, reduced]
  cases d.chord with
  | error k => rfl
  | ok t => rfl

/-- An expression of the grammar whose keywords are all known has the chord that its derivation is
read as, and this chord holds exactly when the derivation does. Otherwise its leftmost unknown
keyword is blamed. -/
theorem parse_derivation (e : String) (d : Derivation) (derives : d.tokens = Token.tokenize e) :
    ((∀ k ∈ Token.tokenize e, k.isUnknown = false) → ∃ t : Chord σ, d.chord = .ok t ∧
      parse e = .ok (some t) ∧ ∀ active, t.eval active = .ok (d.holds active)) ∧
    ∀ k, (Token.tokenize e).find? Token.isUnknown = some k →
      (parse e : Except CompileError (Option (Chord σ))) =
        .error (.rejected ⟨.invalidKeyword, e, some k.text, some k.position⟩) := by
  have parsed := parse_eq_chord (σ := σ) e d derives
  have unknown := find_unknown (σ := σ) d
  rw [derives] at unknown
  cases reading : (d.chord : Except Token (Chord σ)) with
  | ok t =>
      rw [reading] at parsed unknown
      constructor
      · intro known
        exact ⟨t, rfl, parsed, fun active => eval_chord active d t reading⟩
      · intro k found
        rw [unknown] at found
        cases found
  | error k =>
      rw [reading] at parsed unknown
      constructor
      · intro known
        have found := List.find?_some unknown
        rw [known k (List.mem_of_find?_eq_some unknown)] at found
        cases found
      · intro other found
        rw [unknown] at found
        cases found
        exact parsed

/-- `A | !(B + Ctrl)` has known keywords only, while nothing goes by the name `_`. -/
theorem parse_derivation_known_and_unknown :
    (∃ t : Chord Empty, parse "A | !(B + Ctrl)" = .ok (some t) ∧ ∀ active,
      t.eval active = .ok (decide (.key (.letter 0) ∈ active) ||
        !(decide (.key (.letter 1) ∈ active) &&
          (decide (.key (.modifier .ctrl (some .left)) ∈ active) ||
            decide (.key (.modifier .ctrl (some .right)) ∈ active))))) ∧
    (parse "A + _" : Except CompileError (Option (Chord Empty))) =
      .error (.rejected ⟨.invalidKeyword, "A + _", some "_", some 4⟩) := by
  have a : resolveAtom "A" = some (.key (.letter 0)) := resolveAtom_key (.letter 0)
  have b : resolveAtom "B" = some (.key (.letter 1)) := resolveAtom_key (.letter 1)
  have ctrl : resolveAtom "Ctrl" = some (.key (.modifier .ctrl none)) :=
    resolveAtom_key (.modifier .ctrl none)
  have unknown : resolveAtom "_" = none := by
    rw [resolveAtom, if_pos (by decide +kernel)]
  constructor
  · let inner : Derivation := .one (.more (.one (.plain (.keyword ⟨.keyword, "B", 6⟩ rfl)))
      ⟨.join .and, "+", 8⟩ rfl (.plain (.keyword ⟨.keyword, "Ctrl", 10⟩ rfl)))
    let whole : Derivation := .more (.one (.one (.plain (.keyword ⟨.keyword, "A", 0⟩ rfl))))
      ⟨.join .or, "|", 2⟩ rfl (.one (.negated ⟨.not, "!", 4⟩ rfl
        (.group ⟨.opening, "(", 5⟩ rfl inner ⟨.closing, ")", 14⟩ rfl)))
    have derives : whole.tokens = Token.tokenize "A | !(B + Ctrl)" := by decide +kernel
    have known : ∀ k ∈ Token.tokenize "A | !(B + Ctrl)", k.isUnknown = false := by
      rw [← derives]
      simp [whole, inner, tokens, Token.isUnknown, a, b, ctrl]
    obtain ⟨t, _, parsed, meaning⟩ := (parse_derivation (σ := Empty) _ whole derives).1 known
    refine ⟨t, parsed, fun active => ?_⟩
    rw [meaning active]
    simp [whole, inner, holds, a, b, ctrl, Atom.holds, Atom.parts, Connective.apply]
  · let whole : Derivation := .one (.more (.one (.plain (.keyword ⟨.keyword, "A", 0⟩ rfl)))
      ⟨.join .and, "+", 2⟩ rfl (.plain (.keyword ⟨.keyword, "_", 4⟩ rfl)))
    have derives : whole.tokens = Token.tokenize "A + _" := by decide +kernel
    have found : (Token.tokenize "A + _").find? Token.isUnknown = some ⟨.keyword, "_", 4⟩ := by
      rw [← derives]
      simp [whole, tokens, Token.isUnknown, a, unknown]
    exact (parse_derivation (σ := Empty) _ whole derives).2 _ found
end Phrase

end Grammar

end InputChords
