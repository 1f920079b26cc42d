import Mathlib
import InputChords.Proofs.Parentheses
import InputChords.Proofs.RoundTrip

/-! Nothing is dropped, doubled or moved on the way from the tokens of an expression to its chord,
even where an operator stands in an unusual place. Operators wait and are released in an order that
depends on all of them, but no operand ever passes another one. -/

namespace InputChords

variable {σ : Type}

def Atom.leaves (a : Atom) : List Atom :=
  match a.parts with
  | none => [a]
  | some (first, second) => [first, second]

namespace Chord

def leaves : Chord σ → List Atom
  | atom a => [a]
  | not t => t.leaves
  | join _ l r => l.leaves ++ r.leaves
  | stray _ => []

def joins (c : Connective) : Chord σ → Nat
  | atom _ => 0
  | not t => t.joins c
  | join d l r => l.joins c + r.joins c + if d = c then 1 else 0
  | stray _ => 0

def negations : Chord σ → Nat
  | atom _ => 0
  | not t => t.negations + 1
  | join _ l r => l.negations + r.negations
  | stray _ => 0

theorem leaves_ofAtom (a : Atom) : (ofAtom a : Chord σ).leaves = a.leaves := by
  unfold ofAtom Atom.leaves
  cases a.parts with
  | none => rfl
  | some both => rfl

theorem joins_ofAtom (c : Connective) (a : Atom) :
    (ofAtom a : Chord σ).joins c = if c = .or ∧ a.isComposite = true then 1 else 0 := by
  unfold ofAtom Atom.isComposite
  cases a.parts with
  | none => simp [joins]
  | some both => cases c <;> simp [joins]

theorem negations_ofAtom (a : Atom) : (ofAtom a : Chord σ).negations = 0 := by
  unfold ofAtom
  cases a.parts with
  | none => rfl
  | some both => rfl

end Chord

namespace Token

def occurrences (kind : Kind) (tokens : List Token) : Nat := tokens.countP (·.kind = kind)

theorem reorderFrom_keywords (e : String) (waiting output tokens polish : List Token)
    (waits : ∀ t ∈ waiting, t.Waits) (done : reorderFrom e waiting output tokens = .ok polish) :
    keywords polish = keywords output.reverse ++ keywords tokens := by
  obtain ⟨late, rfl, _, named⟩ := reorderFrom_rest e waiting output tokens polish waits done
  rw [keywords_append, named]

theorem occurrences_proper (kind : Kind) (tokens : List Token) (notOpening : kind ≠ .opening)
    (notClosing : kind ≠ .closing) :
    occurrences kind (proper tokens) = occurrences kind tokens := by
  rw [occurrences, occurrences, proper, List.countP_filter]
  apply List.countP_congr
  intro t _
  constructor
  · intro both
    exact (Bool.and_eq_true_iff.mp both).1
  · intro same
    have kept : t.isParenthesis = false := by
      rw [isParenthesis, of_decide_eq_true same]
      simp [notOpening, notClosing]
    simpa [kept] using same

/-- The tokens take the operands from the first list to the second, with these atoms for their
keywords. -/
structure Accounts (tokens : List Token) (atoms : List Atom) (operands reduced : List (Chord σ)) :
    Prop where
  resolved : (keywords tokens).map (fun k => resolveAtom k.text) = atoms.map some
  leaves : reduced.reverse.flatMap Chord.leaves =
    operands.reverse.flatMap Chord.leaves ++ atoms.flatMap Atom.leaves
  joins : ∀ c, (reduced.map (Chord.joins c)).sum = (operands.map (Chord.joins c)).sum
    + occurrences (.join c) tokens + if c = .or then atoms.countP Atom.isComposite else 0
  negations : (reduced.map Chord.negations).sum =
    (operands.map Chord.negations).sum + occurrences .not tokens

theorem Accounts.nil (operands : List (Chord σ)) : Accounts [] [] operands operands where
  resolved := rfl
  leaves := by simp
  joins c := by simp [occurrences]
  negations := by simp [occurrences]

theorem Accounts.append {first second : List Token} {atoms others : List Atom}
    {operands middle reduced : List (Chord σ)} (here : Accounts first atoms operands middle)
    (later : Accounts second others middle reduced) :
    Accounts (first ++ second) (atoms ++ others) operands reduced where
  resolved := by
    rw [keywords_append, List.map_append, here.resolved, later.resolved, List.map_append]
  leaves := by rw [later.leaves, here.leaves, List.flatMap_append, List.append_assoc]
  joins c := by
    rw [later.joins, here.joins, occurrences, occurrences, occurrences, List.countP_append,
      List.countP_append]
    split <;> omega
  negations := by
    rw [later.negations, here.negations, occurrences, occurrences, occurrences, List.countP_append]
    omega

theorem Reduces.accounts {token : Token} {operands reduced : List (Chord σ)}
    (step : Reduces token operands reduced) : ∃ atoms, Accounts [token] atoms operands reduced := by
  cases step with
  | join c isSign l r rest =>
      refine ⟨[], ?_, ?_, ?_, ?_⟩
      · rw [keywords_other token [] (by simp [isSign])]
        rfl
      · simp [Chord.leaves]
      · intro d
        simp [Chord.joins, occurrences, isSign]
        omega
      · simp [Chord.negations, occurrences, isSign]
        omega
  | not isSign t rest =>
      refine ⟨[], ?_, ?_, ?_, ?_⟩
      · rw [keywords_other token [] (by simp [isSign])]
        rfl
      · simp [Chord.leaves]
      · intro d
        simp [Chord.joins, occurrences, isSign]
      · simp [Chord.negations, occurrences, isSign]
        omega
  | keyword isName a known =>
      refine ⟨[a], ?_, ?_, ?_, ?_⟩
      · rw [keywords_cons token [] isName, List.map_cons, known]
        rfl
      · simp [Chord.leaves_ofAtom]
      · intro d
        cases d <;> simp [Chord.joins_ofAtom, occurrences, isName, List.countP_cons, Nat.add_comm]
      · simp [Chord.negations_ofAtom, occurrences, isName]

theorem reduceAll_accounts (e : String) (operands reduced : List (Chord σ)) (tokens : List Token)
    (done : reduceAll e operands tokens = .ok reduced) :
    ∃ atoms, Accounts tokens atoms operands reduced := by
  induction tokens generalizing operands with
  | nil =>
      cases done
      exact ⟨[], .nil _⟩
  | cons token rest ih =>
      rw [reduceAll] at done
      obtain ⟨next, step, done⟩ := bind_eq_ok done
      obtain ⟨atoms, here⟩ := (reduces_of_ok e operands next token step).accounts
      obtain ⟨others, later⟩ := ih next done
      exact ⟨atoms ++ others, here.append later⟩

end Token

/-- The leaves of a chord that is read are the atoms of the keywords, in the order of the keywords,
with both sides for a composite. It has as many negations and connectives as the expression has
signs, and an `or` for each composite. -/
theorem parse_leaves (e : String) (t : Chord σ) (parsed : parse e = .ok (some t)) :
    t.Sound ∧ ∃ atoms : List Atom,
      (Token.keywords (Token.tokenize e)).map (fun k => resolveAtom k.text) = atoms.map some ∧
      t.leaves = atoms.flatMap Atom.leaves ∧
      t.joins .and = Token.occurrences (.join .and) (Token.tokenize e) ∧
      t.joins .or = Token.occurrences (.join .or) (Token.tokenize e)
        + atoms.countP Atom.isComposite ∧
      t.negations = Token.occurrences .not (Token.tokenize e) := by
  have sound := parse_closed Grammar.closed_sound e t parsed
  rw [parse] at parsed
  obtain ⟨polish, ordered, built⟩ := bind_eq_ok parsed
  obtain ⟨atoms, account⟩ :=
    Token.reduceAll_accounts e [] [t] polish (Token.reduceAll_of_build e polish t built)
  have same := Token.reorderFrom_perm e [] [] _ polish (by simp) ordered
  have names := Token.reorderFrom_keywords e [] [] _ polish (by simp) ordered
  have counted (kind : Token.Kind) (notOpening : kind ≠ .opening) (notClosing : kind ≠ .closing) :
      Token.occurrences kind polish = Token.occurrences kind (Token.tokenize e) :=
    (same.countP_eq _).trans (Token.occurrences_proper kind _ notOpening notClosing)
  have resolved := account.resolved
  rw [names] at resolved
  refine ⟨sound, atoms, resolved, ?_, ?_, ?_, ?_⟩
  · simpa using account.leaves
  · simpa [counted] using account.joins .and
  · simpa [counted] using account.joins .or
  · simpa [counted] using account.negations

/-- In `+ !Ctrl A` the negation ends up at `A`, and yet `Ctrl` comes first. -/
theorem parse_leaves_signs_first :
    ∃ t : Chord Empty, parse "+ !Ctrl A" = .ok (some t) ∧
      t.leaves = [.key (.modifier .ctrl (some .left)), .key (.modifier .ctrl (some .right)),
        .key (.letter 0)] ∧
      t.joins .and = 1 ∧ t.joins .or = 1 ∧ t.negations = 1 := by
  have a : resolveAtom "A" = some (.key (.letter 0)) := resolveAtom_key (.letter 0)
  have ctrl : resolveAtom "Ctrl" = some (.key (.modifier .ctrl none)) :=
    resolveAtom_key (.modifier .ctrl none)
  have lexed : Token.tokenize "+ !Ctrl A" = [⟨.join .and, "+", 0⟩, ⟨.not, "!", 2⟩,
      ⟨.keyword, "Ctrl", 3⟩, ⟨.keyword, "A", 8⟩] := by decide +kernel
  have ordered : Token.reorder "+ !Ctrl A" (Token.tokenize "+ !Ctrl A") =
      .ok [⟨.keyword, "Ctrl", 3⟩, ⟨.keyword, "A", 8⟩, ⟨.not, "!", 2⟩, ⟨.join .and, "+", 0⟩] := by
    rw [lexed]
    rfl
  have parsed : (parse "+ !Ctrl A" : Except CompileError (Option (Chord Empty))) =
      .ok (some (.join .and (.ofAtom (.key (.modifier .ctrl none)))
        (.not (.ofAtom (.key (.letter 0)))))) := by
    rw [parse_of_reorder _ _ ordered, Token.build_of_ne_nil _ _ (List.cons_ne_nil _ _),
      Token.reduceAll_known _ _ _ ⟨.keyword, "Ctrl", 3⟩ rfl _ ctrl,
      Token.reduceAll_known _ _ _ ⟨.keyword, "A", 8⟩ rfl _ a,
      Token.reduceAll_not _ _ _ ⟨.not, "!", 2⟩ rfl,
      Token.reduceAll_join _ _ _ ⟨.join .and, "+", 0⟩ .and rfl]
    rfl
  obtain ⟨_, atoms, resolved, leaves, ands, ors, negations⟩ := parse_leaves _ _ parsed
  have known : atoms = [.key (.modifier .ctrl none), .key (.letter 0)] := by
    have found : atoms.map some = [.key (.modifier .ctrl none), .key (.letter 0)].map some := by
      rw [← resolved, lexed]
      simp [Token.keywords, ctrl, a]
    exact List.map_injective_iff.mpr (fun _ _ same => Option.some.inj same) found
  rw [lexed] at ands ors negations
  rw [known] at leaves ors
  exact ⟨_, parsed, leaves, ands, ors, negations⟩

end InputChords
