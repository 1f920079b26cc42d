import InputChords.Proofs.Derivation
import InputChords.Proofs.Parentheses

/-! Accepted expressions outside of the grammar. Operators are only counted against their operands,
not placed between them, so balanced parentheses and enough operands let an expression through. It
belongs to the grammar when, besides, each token may stand after the one before it. -/

namespace InputChords

namespace Token

namespace Kind

def startsOperand : Kind → Bool
  | keyword => true
  | opening => true
  | _ => false

/-- The ends of an expression count as parentheses around it. -/
def mayPrecede : Kind → Kind → Bool
  | keyword, join _ => true
  | keyword, next => next == closing
  | closing, join _ => true
  | closing, next => next == closing
  | not, next => next.startsOperand
  | _, next => next.startsOperand || next == not

end Kind

def placed (previous : Kind) : List Token → Bool
  | [] => previous.mayPrecede .closing
  | token :: rest => previous.mayPrecede token.kind && placed token.kind rest

theorem placed_join (c : Connective) (tokens : List Token) :
    placed (.join c) tokens = placed .opening tokens := by
  cases tokens <;> rfl

theorem placed_closing (tokens : List Token) : placed .closing tokens = placed .keyword tokens := by
  cases tokens with
  | nil => rfl
  | cons token rest =>
      simp only [placed]
      cases token.kind <;> rfl

end Token

namespace Grammar

def Part.before : Part → Token.Kind
  | .operand => .not
  | _ => .opening

theorem Part.before_item (c : Connective) : (Part.item c).before = .opening := by
  cases c <;> rfl

/-- The part could not go on. -/
def Part.StopsAt (p : Part) (rest : List Token) : Prop :=
  ∀ c sign tail, rest = sign :: tail → sign.kind = .join c → c.level < p.level

namespace Phrase

theorem placed_operand (d : Phrase .operand) (rest : List Token) :
    Token.placed .opening (d.tokens ++ rest) = Token.placed .not (d.tokens ++ rest) := by
  cases d with
  | keyword name isName => simp [tokens, Token.placed, isName, Token.Kind.mayPrecede,
      Token.Kind.startsOperand]
  | group opening isOpening inner closing isClosing => simp [tokens, Token.placed, isOpening,
      Token.Kind.mayPrecede, Token.Kind.startsOperand]

/-- A phrase is well placed, and what follows it stands as after a keyword. -/
theorem placed_phrase {p : Part} (d : Phrase p) (rest : List Token) :
    Token.placed p.before (d.tokens ++ rest) = Token.placed .keyword rest := by
  induction d generalizing rest with
  | @one c first ih =>
      rw [← ih rest, Part.before_item]
      rfl
  | @more c run sign isSign next ihRun ihNext =>
      have after : Token.placed .keyword (sign :: (next.tokens ++ rest)) =
          Token.placed (.join c) (next.tokens ++ rest) := by
        simp [Token.placed, isSign, Token.Kind.mayPrecede]
      rw [tokens, List.append_assoc, List.cons_append, ihRun, after, Token.placed_join,
        ← Part.before_item c]
      exact ihNext rest
  | plain operand ih =>
      rw [← ih rest]
      exact placed_operand operand rest
  | negated sign isSign operand ih =>
      rw [← ih rest]
      simp [tokens, Part.before, Token.placed, isSign, Token.Kind.mayPrecede]
  | keyword name isName =>
      simp [tokens, Part.before, Token.placed, isName, Token.Kind.mayPrecede,
        Token.Kind.startsOperand]
  | group opening isOpening inner closing isClosing ih =>
      have inside := ih (closing :: rest)
      have outside : Token.placed .keyword (closing :: rest) = Token.placed .keyword rest := by
        rw [← Token.placed_closing rest]
        simp [Token.placed, isClosing, Token.Kind.mayPrecede]
      rw [outside] at inside
      rw [← inside]
      simp [tokens, Part.before, Token.placed, isOpening, Token.Kind.mayPrecede,
        Token.Kind.startsOperand]

def prepend {c : Connective} (first : Phrase (Part.item c)) (sign : Token)
    (isSign : sign.kind = .join c) : Phrase (.run c) → Phrase (.run c)
  | one next => more (one first) sign isSign next
  | more run nextSign isNextSign next =>
    more (prepend first sign isSign run) nextSign isNextSign next

theorem tokens_prepend {c : Connective} (first : Phrase (Part.item c)) (sign : Token)
    (isSign : sign.kind = .join c) : ∀ run : Phrase (.run c),
    (prepend first sign isSign run).tokens = first.tokens ++ sign :: run.tokens
  | one next => by rw [prepend, tokens, tokens, tokens]
  | more run nextSign isNextSign next => by
      rw [prepend, tokens, tokens_prepend first sign isSign run, tokens, List.append_assoc,
        List.cons_append]

end Phrase

def Starts (p : Part) (tokens : List Token) : Prop :=
  ∀ depth, Token.placed p.before tokens = true → Token.Balanced depth tokens →
    ∃ (d : Phrase p) (rest : List Token), tokens = d.tokens ++ rest ∧
      Token.placed .keyword rest = true ∧ Token.Balanced depth rest ∧ p.StopsAt rest

theorem Part.StopsAt.closes {left : List Token} (stopped : (Part.run .or).StopsAt left)
    (placed : Token.placed .keyword left = true) :
    left = [] ∨ ∃ closing rest, left = closing :: rest ∧ closing.kind = .closing ∧
      Token.placed .keyword rest = true := by
  cases left with
  | nil => exact Or.inl rfl
  | cons token rest =>
      right
      simp only [Token.placed, Bool.and_eq_true] at placed
      obtain ⟨after, placed⟩ := placed
      cases kind : token.kind with
      | join c =>
          have below := stopped c token rest rfl kind
          cases c <;> exact absurd below (by decide)
      | closing =>
          rw [kind, Token.placed_closing] at placed
          exact ⟨token, rest, rfl, kind, placed⟩
      | keyword => rw [kind] at after; cases after
      | opening => rw [kind] at after; cases after
      | not => rw [kind] at after; cases after

theorem starts_operand (tokens : List Token)
    (inside : ∀ opening rest, tokens = opening :: rest → Starts (.run .or) rest) :
    Starts .operand tokens := by
  intro depth placed balanced
  cases tokens with
  | nil => cases placed
  | cons token rest =>
      have stops (rest : List Token) : Part.operand.StopsAt rest := by
        intro c sign tail _ _
        cases c <;> decide
      simp only [Token.placed, Bool.and_eq_true] at placed
      obtain ⟨here, next⟩ := placed
      cases kind : token.kind with
      | keyword =>
          rw [kind] at next
          simp only [Token.Balanced, kind] at balanced
          exact ⟨.keyword token kind, rest, rfl, next, balanced, stops rest⟩
      | opening =>
          rw [kind] at next
          simp only [Token.Balanced, kind] at balanced
          obtain ⟨inner, left, split, placedLeft, balancedLeft, stopped⟩ :=
            inside token rest rfl (depth + 1) next balanced
          rcases stopped.closes placedLeft with rfl | ⟨closing, left, rfl, isClosing, placedLeft⟩
          · cases balancedLeft
          · simp only [Token.Balanced, isClosing] at balancedLeft
            obtain ⟨outer, same, balancedLeft⟩ := balancedLeft
            cases same
            refine ⟨.group token kind inner closing isClosing, left, ?_, placedLeft, balancedLeft,
              stops left⟩
            rw [Phrase.tokens, split, List.cons_append, List.append_assoc]
            rfl
      | closing => rw [kind] at here; cases here
      | join c => rw [kind] at here; cases here
      | not => rw [kind] at here; cases here

theorem starts_term (tokens : List Token) (here : Starts .operand tokens)
    (next : ∀ sign rest, tokens = sign :: rest → Starts .operand rest) : Starts .term tokens := by
  intro depth placed balanced
  have stops (rest : List Token) : Part.term.StopsAt rest := by
    intro c sign tail _ _
    cases c <;> decide
  cases tokens with
  | nil => cases placed
  | cons token rest =>
      by_cases isSign : token.kind = .not
      · simp only [Token.placed, isSign, Bool.and_eq_true] at placed
        simp only [Token.Balanced, isSign] at balanced
        obtain ⟨operand, left, split, placedLeft, balancedLeft, _⟩ :=
          next token rest rfl depth placed.2 balanced
        refine ⟨.negated token isSign operand, left, ?_, placedLeft, balancedLeft, stops left⟩
        rw [Phrase.tokens, split, List.cons_append]
      · have placedOperand : Token.placed .not (token :: rest) = true := by
          simpa [Token.placed, Part.before, Token.Kind.mayPrecede, isSign] using placed
        obtain ⟨operand, left, split, placedLeft, balancedLeft, _⟩ :=
          here depth placedOperand balanced
        exact ⟨.plain operand, left, split, placedLeft, balancedLeft, stops left⟩

theorem starts_run (c : Connective) (tokens : List Token) (first : Starts (Part.item c) tokens)
    (shorter : ∀ later : List Token, later.length < tokens.length → Starts (.run c) later) :
    Starts (.run c) tokens := by
  intro depth placed balanced
  obtain ⟨item, left, split, placedLeft, balancedLeft, stopped⟩ :=
    first depth (by rwa [Part.before_item]) balanced
  by_cases goesOn : ∃ sign later, left = sign :: later ∧ sign.kind = .join c
  · obtain ⟨sign, later, rfl, isSign⟩ := goesOn
    simp only [Token.placed, isSign, Bool.and_eq_true] at placedLeft
    rw [Token.placed_join] at placedLeft
    simp only [Token.Balanced, isSign] at balancedLeft
    have less : later.length < tokens.length := by
      rw [split, List.length_append, List.length_cons]
      omega
    obtain ⟨run, last, splitLater, placedLast, balancedLast, stoppedLast⟩ :=
      shorter later less depth placedLeft.2 balancedLeft
    refine ⟨Phrase.prepend item sign isSign run, last, ?_, placedLast, balancedLast, stoppedLast⟩
    rw [Phrase.tokens_prepend, split, splitLater, List.append_assoc, List.cons_append]
  · refine ⟨.one item, left, split, placedLeft, balancedLeft, ?_⟩
    intro other sign later next isSign
    have below := stopped other sign later next isSign
    have different : other ≠ c := by
      rintro rfl
      exact goesOn ⟨sign, later, next, isSign⟩
    rw [Part.level_item] at below
    have unequal : other.level ≠ c.level := by
      intro same
      cases other <;> cases c <;> first | exact different rfl | cases same
    show other.level < c.level
    omega

theorem starts (p : Part) (tokens : List Token) : Starts p tokens := by
  -- The inside of a group and the rest of a run have fewer tokens; within the same tokens, operands
  -- come before terms and these before runs.
  induction length : tokens.length using Nat.strongRecOn generalizing p tokens with
  | _ n ih =>
      have shorter (p : Part) (later : List Token) (less : later.length < tokens.length) :
          Starts p later := ih later.length (length ▸ less) p later rfl
      have tail (p : Part) (token : Token) (rest : List Token) (split : tokens = token :: rest) :
          Starts p rest := shorter p rest (by rw [split, List.length_cons]; omega)
      have operand := starts_operand tokens (tail (.run .or))
      have term := starts_term tokens operand (tail .operand)
      have ands := starts_run .and tokens term (shorter (.run .and))
      have ors := starts_run .or tokens ands (shorter (.run .or))
      cases p with
      | run c => cases c <;> assumption
      | term => exact term
      | operand => exact operand

theorem exists_derivation (tokens : List Token) (placed : Token.placed .opening tokens = true)
    (balanced : Token.Balanced 0 tokens) : ∃ d : Derivation, d.tokens = tokens := by
  obtain ⟨d, rest, split, after, closed, stopped⟩ := starts (.run .or) tokens 0 placed balanced
  rcases stopped.closes after with rfl | ⟨closing, rest, rfl, isClosing, _⟩
  · exact ⟨d, by rw [split, List.append_nil]⟩
  · simp only [Token.Balanced, isClosing] at closed
    obtain ⟨outer, same, _⟩ := closed
    cases same

/-- An accepted expression belongs to the grammar exactly if its tokens are well placed. -/
theorem derivable_iff_placed {σ : Type} (e : String) (t : Chord σ)
    (parsed : parse e = .ok (some t)) :
    (∃ d : Derivation, d.tokens = Token.tokenize e) ↔
      Token.placed .opening (Token.tokenize e) = true := by
  constructor
  · rintro ⟨d, derives⟩
    have whole := Phrase.placed_phrase d []
    rw [List.append_nil, derives] at whole
    exact whole
  · intro placed
    obtain ⟨polish, reordered, _⟩ := bind_eq_ok parsed
    exact exists_derivation _ placed (Token.balanced_of_reorder e _ polish reordered)

/-- Nothing stands between the parentheses of `A ()`. -/
theorem empty_group_accepted :
    (parse "A ()" : Except CompileError (Option (Chord Empty))) =
      .ok (some (.atom (.key (.letter 0)))) ∧
    ¬ ∃ d : Derivation, d.tokens = Token.tokenize "A ()" := by
  have a : resolveAtom "A" = some (.key (.letter 0)) := resolveAtom_key (.letter 0)
  have lexed : Token.tokenize "A ()" =
      [⟨.keyword, "A", 0⟩, ⟨.opening, "(", 2⟩, ⟨.closing, ")", 3⟩] := by decide +kernel
  have ordered : Token.reorder "A ()" (Token.tokenize "A ()") = .ok [⟨.keyword, "A", 0⟩] := by
    rw [lexed]
    rfl
  have parsed : (parse "A ()" : Except CompileError (Option (Chord Empty))) =
      .ok (some (.atom (.key (.letter 0)))) := by
    rw [parse_of_reorder _ _ ordered, Token.build_of_ne_nil _ _ (List.cons_ne_nil _ _),
      Token.reduceAll_known _ _ _ ⟨.keyword, "A", 0⟩ rfl _ a]
    rfl
  refine ⟨parsed, ?_⟩
  rw [derivable_iff_placed "A ()" _ parsed, lexed]
  decide

/-- The sign of `+ A B` stands before both of its operands. -/
theorem leading_sign_accepted :
    (parse "+ A B" : Except CompileError (Option (Chord Empty))) =
      .ok (some (.join .and (.atom (.key (.letter 0))) (.atom (.key (.letter 1))))) ∧
    ¬ ∃ d : Derivation, d.tokens = Token.tokenize "+ A B" := by
  have a : resolveAtom "A" = some (.key (.letter 0)) := resolveAtom_key (.letter 0)
  have b : resolveAtom "B" = some (.key (.letter 1)) := resolveAtom_key (.letter 1)
  have lexed : Token.tokenize "+ A B" =
      [⟨.join .and, "+", 0⟩, ⟨.keyword, "A", 2⟩, ⟨.keyword, "B", 4⟩] := by decide +kernel
  have ordered : Token.reorder "+ A B" (Token.tokenize "+ A B") =
      .ok [⟨.keyword, "A", 2⟩, ⟨.keyword, "B", 4⟩, ⟨.join .and, "+", 0⟩] := by
    rw [lexed]
    rfl
  constructor
  · rw [parse_of_reorder _ _ ordered, Token.build_of_ne_nil _ _ (List.cons_ne_nil _ _),
      Token.reduceAll_known _ _ _ ⟨.keyword, "A", 2⟩ rfl _ a,
      Token.reduceAll_known _ _ _ ⟨.keyword, "B", 4⟩ rfl _ b, Token.reduceAll_join _ _ _ _ _ rfl]
    rfl
  · rintro ⟨d, derives⟩
    have whole := d.placed_phrase []
    rw [List.append_nil, derives, lexed] at whole
    cases whole
end Grammar

end InputChords
