import InputChords.Proofs.Grammar
import InputChords.Proofs.Outcome

/-! What one token does to the operands, and what all chords that are read have in common. -/

namespace InputChords

variable {σ : Type}

structure Chord.Closed (P : Chord σ → Prop) : Prop where
  ofAtom : ∀ a, P (.ofAtom a)
  not : ∀ t, P t → P (.not t)
  join : ∀ c l r, P l → P r → P (.join c l r)

namespace Token

section Reduce

variable (e : String) (operands : List (Chord σ)) (rest : List Token) (token : Token)

theorem reduceAll_keyword (isName : token.kind = .keyword) :
    reduceAll e operands (token :: rest) =
      match token.leaf with
      | .ok t => reduceAll e (t :: operands) rest
      | .error k => .error (.rejected (.blame .invalidKeyword e k)) := by
  simp only [reduceAll, reduce, isName, leaf, resolveKeyword]
  cases resolveAtom token.text <;> rfl

theorem reduceAll_known (isName : token.kind = .keyword) (a : Atom)
    (known : resolveAtom token.text = some a) :
    reduceAll e operands (token :: rest) = reduceAll e (.ofAtom a :: operands) rest := by
  rw [reduceAll_keyword e operands rest token isName, leaf, known]

theorem reduceAll_join (c : Connective) (isSign : token.kind = .join c) (l r : Chord σ) :
    reduceAll e (r :: l :: operands) (token :: rest) =
      reduceAll e (.join c l r :: operands) rest := by
  simp only [reduceAll, reduce, isSign]
  rfl

theorem reduceAll_not (isSign : token.kind = .not) (t : Chord σ) :
    reduceAll e (t :: operands) (token :: rest) = reduceAll e (.not t :: operands) rest := by
  simp only [reduceAll, reduce, isSign]
  rfl

end Reduce

inductive Reduces (token : Token) : List (Chord σ) → List (Chord σ) → Prop where
  | join (c : Connective) (isSign : token.kind = .join c) (l r : Chord σ) (rest : List (Chord σ)) :
    Reduces token (r :: l :: rest) (.join c l r :: rest)
  | not (isSign : token.kind = .not) (t : Chord σ) (rest : List (Chord σ)) :
    Reduces token (t :: rest) (.not t :: rest)
  | keyword (isName : token.kind = .keyword) (a : Atom) (known : resolveAtom token.text = some a)
    (operands : List (Chord σ)) : Reduces token operands (.ofAtom a :: operands)

theorem reduces_of_ok (e : String) (operands reduced : List (Chord σ)) (token : Token)
    (done : reduce e operands token = .ok reduced) : Reduces token operands reduced := by
  cases kind : token.kind with
  | join c =>
      rcases operands with _ | ⟨r, _ | ⟨l, rest⟩⟩ <;> simp only [reduce, kind] at done <;>
        cases done
      exact .join c kind l r rest
  | not =>
      rcases operands with _ | ⟨t, rest⟩ <;> simp only [reduce, kind] at done <;> cases done
      exact .not kind t rest
  | keyword =>
      simp only [reduce, kind, resolveKeyword] at done
      cases known : resolveAtom token.text with
      | none =>
          rw [known] at done
          cases done
      | some a =>
          rw [known] at done
          cases done
          exact .keyword kind a known operands
  | opening =>
      simp only [reduce, kind] at done
      cases done
  | closing =>
      simp only [reduce, kind] at done
      cases done

section Closed

variable {P : Chord σ → Prop}

theorem Reduces.closed (closed : Chord.Closed P) {operands reduced : List (Chord σ)} {token : Token}
    (step : Reduces token operands reduced) (before : ∀ t ∈ operands, P t) :
    ∀ t ∈ reduced, P t := by
  cases step with
  | join c isSign l r rest =>
      obtain ⟨right, before⟩ := List.forall_mem_cons.mp before
      obtain ⟨left, before⟩ := List.forall_mem_cons.mp before
      exact List.forall_mem_cons.mpr ⟨closed.join c l r left right, before⟩
  | not isSign t rest =>
      obtain ⟨inside, before⟩ := List.forall_mem_cons.mp before
      exact List.forall_mem_cons.mpr ⟨closed.not t inside, before⟩
  | keyword isName a known => exact List.forall_mem_cons.mpr ⟨closed.ofAtom a, before⟩

theorem reduceAll_closed (closed : Chord.Closed P) (e : String) (operands reduced : List (Chord σ))
    (tokens : List Token) (before : ∀ t ∈ operands, P t)
    (done : reduceAll e operands tokens = .ok reduced) : ∀ t ∈ reduced, P t := by
  induction tokens generalizing operands with
  | nil =>
      cases done
      exact before
  | cons token rest ih =>
      rw [reduceAll] at done
      obtain ⟨next, step, done⟩ := bind_eq_ok done
      exact ih next ((reduces_of_ok e operands next token step).closed closed before) done

end Closed

theorem build_of_ne_nil (e : String) (tokens : List Token) (some_token : tokens ≠ []) :
    (build e tokens : Except CompileError (Option (Chord σ))) =
      (reduceAll e [] tokens).bind fun
        | [t] => .ok (some t)
        | _ => .error (.rejected ⟨.malformed, e, none, none⟩) := by
  cases tokens with
  | nil => exact absurd rfl some_token
  | cons token rest => rfl

theorem reduceAll_of_build (e : String) (tokens : List Token) (t : Chord σ)
    (built : build e tokens = .ok (some t)) : reduceAll e [] tokens = .ok [t] := by
  cases tokens with
  | nil => cases built
  | cons token rest =>
      rw [build_of_ne_nil e _ (List.cons_ne_nil token rest)] at built
      obtain ⟨operands, reduced, built⟩ := bind_eq_ok built
      rcases operands with _ | ⟨first, _ | ⟨second, others⟩⟩ <;> cases built
      exact reduced

theorem build_closed {P : Chord σ → Prop} (closed : Chord.Closed P) (e : String)
    (tokens : List Token) (t : Chord σ) (built : build e tokens = .ok (some t)) : P t := by
  have reduced := reduceAll_of_build e tokens t built
  exact reduceAll_closed closed e [] [t] tokens (by simp) reduced t (List.mem_singleton_self t)

/-- The chord of tokens in the order of an expression, which is only cited in errors. -/
def compile (e : String) (tokens : List Token) : Except CompileError (Option (Chord σ)) :=
  (reorder e tokens).bind (build e)

end Token

theorem parse_eq_compile (e : String) :
    (parse e : Except CompileError (Option (Chord σ))) = Token.compile e (Token.tokenize e) := rfl

theorem parse_of_reorder (e : String) (polish : List Token)
    (ordered : Token.reorder e (Token.tokenize e) = .ok polish) :
    (parse e : Except CompileError (Option (Chord σ))) = Token.build e polish := by
  rw [parse, ordered]
  rfl

theorem parse_closed {P : Chord σ → Prop} (closed : Chord.Closed P) (e : String) (t : Chord σ)
    (parsed : parse e = .ok (some t)) : P t := by
  rw [parse] at parsed
  obtain ⟨polish, _, built⟩ := bind_eq_ok parsed
  exact Token.build_closed closed e polish t built

end InputChords
