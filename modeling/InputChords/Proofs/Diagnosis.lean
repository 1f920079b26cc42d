import InputChords.Proofs.Parentheses
import InputChords.Proofs.RoundTrip
import InputChords.Proofs.Scan

/-! What parsing makes of any text, however ill-formed: the tokens are cited where they stand in the
text, an error blames one that its reason fits, and parentheses are judged before all else. -/

namespace InputChords

variable {σ : Type}

namespace Token

/-- The text holds the token at its position. -/
def Cited (chars : List Char) (t : Token) : Prop :=
  ∃ n : Nat, t.position = n ∧ (chars.drop n).take t.text.length = t.text.toList

theorem cited_of_split (before piece after : List Char) (kind : Kind) (text : String)
    (same : text.toList = piece) :
    Cited (before ++ (piece ++ after)) ⟨kind, text, (before.length : Nat)⟩ := by
  subst same
  refine ⟨before.length, rfl, ?_⟩
  rw [List.drop_left, ← String.length_toList, List.take_left]

theorem cited_flush (before word after : List Char) (found : List Token)
    (cited : ∀ t ∈ found, Cited (before ++ (word.reverse ++ after)) t) :
    ∀ t ∈ flush (before.length + word.length) word found,
      Cited (before ++ (word.reverse ++ after)) t := by
  rw [flush]
  split
  · exact cited
  · refine List.forall_mem_cons.mpr ⟨?_, cited⟩
    rw [Nat.add_sub_cancel]
    exact cited_of_split before word.reverse after .keyword _ (String.toList_ofList)

theorem cited_scan (before word rest : List Char) (found : List Token)
    (cited : ∀ t ∈ found, Cited (before ++ (word.reverse ++ rest)) t) :
    ∀ t ∈ scan (before.length + word.length) word found rest,
      Cited (before ++ (word.reverse ++ rest)) t := by
  induction rest generalizing before word found with
  | nil =>
      intro t member
      exact cited_flush before word [] found cited t (List.mem_reverse.mp member)
  | cons c rest ih =>
      have flushed := cited_flush before word (c :: rest) found cited
      -- Behind a symbol or a separator no word is under way.
      have moved : before ++ (word.reverse ++ c :: rest) =
          (before ++ word.reverse ++ [c]) ++ ([].reverse ++ rest) := by simp
      have width : before.length + word.length + 1 =
          (before ++ word.reverse ++ [c]).length + ([] : List Char).length := by
        simp [Nat.add_assoc]
      cases symbol : symbolKind? c with
      | some kind =>
          rw [scan_symbol _ _ _ _ c kind symbol]
          have here : Cited (before ++ (word.reverse ++ c :: rest))
              ⟨kind, String.singleton c, (before.length + word.length : Nat)⟩ := by
            have split := cited_of_split (before ++ word.reverse) [c] rest kind
              (String.singleton c) (String.toList_singleton c)
            rw [List.append_assoc, List.length_append, List.length_reverse] at split
            exact split
          have both := List.forall_mem_cons.mpr ⟨here, flushed⟩
          rw [moved] at both ⊢
          rw [width]
          exact ih _ [] _ both
      | none =>
          by_cases separator : isSeparator c = true
          · rw [scan_separator _ _ _ _ c symbol separator]
            rw [moved] at flushed ⊢
            rw [width]
            exact ih _ [] _ flushed
          · have letter : isKeywordChar c = true := by
              simp [isKeywordChar, symbol, separator]
            have longer : before ++ (word.reverse ++ c :: rest) =
                before ++ ((c :: word).reverse ++ rest) := by simp
            rw [scan_letter _ _ _ _ c letter]
            rw [longer] at cited ⊢
            exact ih before (c :: word) found cited

theorem cited_tokenize (e : String) : ∀ t ∈ tokenize e, Cited e.toList t :=
  cited_scan [] [] e.toList [] (by simp)

end Token

namespace ParseError

def Reason.Fits : Reason → Token → Prop
  | unopened, t => t.kind = .closing
  | unclosed, t => t.kind = .opening
  | unexpectedOperator, t => t.kind.isOperator = true
  | invalidKeyword, t => t.kind = .keyword ∧ resolveAtom t.text = none
  | unreadable, _ => False
  | malformed, _ => False

theorem Reason.Fits.not_about_parentheses {reason : Reason} {t : Token} (fits : reason.Fits t)
    (plain : t.isParenthesis = false) : reason ≠ .unopened ∧ reason ≠ .unclosed := by
  constructor
  · rintro rfl
    have closing : t.kind = .closing := fits
    simp [Token.isParenthesis, closing] at plain
  · rintro rfl
    have opening : t.kind = .opening := fits
    simp [Token.isParenthesis, opening] at plain

end ParseError

namespace Token

theorem reduce_cases (e : String) (operands : List (Chord σ)) (token : Token)
    (plain : token.isParenthesis = false) :
    (∃ reduced, reduce e operands token = .ok reduced) ∨
      ∃ reason : ParseError.Reason, reason.Fits token ∧
        reduce e operands token = .error (.rejected (.blame reason e token)) := by
  cases kind : token.kind with
  | join c =>
      have operator : token.kind.isOperator = true := by rw [kind]; rfl
      rcases operands with _ | ⟨right, _ | ⟨left, others⟩⟩
      · exact Or.inr ⟨.unexpectedOperator, operator, by simp only [reduce, kind]⟩
      · exact Or.inr ⟨.unexpectedOperator, operator, by simp only [reduce, kind]⟩
      · exact Or.inl ⟨.join c left right :: others, by simp only [reduce, kind]⟩
  | not =>
      have operator : token.kind.isOperator = true := by rw [kind]; rfl
      cases operands with
      | nil => exact Or.inr ⟨.unexpectedOperator, operator, by simp only [reduce, kind]⟩
      | cons operand others => exact Or.inl ⟨.not operand :: others, by simp only [reduce, kind]⟩
  | keyword =>
      simp only [reduce, kind, resolveKeyword]
      cases known : resolveAtom token.text with
      | some a => exact Or.inl ⟨.ofAtom a :: operands, rfl⟩
      | none => exact Or.inr ⟨.invalidKeyword, ⟨kind, known⟩, rfl⟩
  | opening => simp [isParenthesis, kind] at plain
  | closing => simp [isParenthesis, kind] at plain

theorem reduceAll_cases (e : String) (operands : List (Chord σ)) (tokens : List Token)
    (plain : ∀ t ∈ tokens, t.isParenthesis = false) :
    (∃ reduced, reduceAll e operands tokens = .ok reduced) ∨
      ∃ t ∈ tokens, ∃ reason : ParseError.Reason, reason.Fits t ∧
        reduceAll e operands tokens = .error (.rejected (.blame reason e t)) := by
  induction tokens generalizing operands with
  | nil => exact Or.inl ⟨operands, rfl⟩
  | cons token rest ih =>
      obtain ⟨here, later⟩ := List.forall_mem_cons.mp plain
      rw [reduceAll]
      rcases reduce_cases e operands token here with ⟨next, step⟩ | ⟨reason, fits, stopped⟩
      · rw [step]
        rcases ih next later with ⟨reduced, done⟩ | ⟨t, member, reason, fits, stopped⟩
        · exact Or.inl ⟨reduced, done⟩
        · exact Or.inr ⟨t, List.mem_cons_of_mem _ member, reason, fits, stopped⟩
      · rw [stopped]
        exact Or.inr ⟨token, List.mem_cons_self .., reason, fits, rfl⟩

inductive Builds (e : String) (tokens : List Token) :
    Except CompileError (Option (Chord σ)) → Prop where
  | nothing (empty : tokens = []) : Builds e tokens (.ok none)
  | chord (filled : tokens ≠ []) (t : Chord σ) : Builds e tokens (.ok (some t))
  | malformed (filled : tokens ≠ []) :
    Builds e tokens (.error (.rejected ⟨.malformed, e, none, none⟩))
  | blamed (reason : ParseError.Reason) (t : Token) (member : t ∈ tokens) (fits : reason.Fits t) :
    Builds e tokens (.error (.rejected (.blame reason e t)))

theorem Builds.perm {e : String} {first second : List Token}
    {outcome : Except CompileError (Option (Chord σ))} (builds : Builds e first outcome)
    (same : first.Perm second) : Builds e second outcome := by
  have kept (filled : first ≠ []) : second ≠ [] := fun empty => filled (empty ▸ same).eq_nil
  cases builds with
  | nothing empty => exact .nothing (empty ▸ same).nil_eq.symm
  | chord filled t => exact .chord (kept filled) t
  | malformed filled => exact .malformed (kept filled)
  | blamed reason t member fits => exact .blamed reason t (same.mem_iff.mp member) fits

theorem builds_build (e : String) (tokens : List Token)
    (plain : ∀ t ∈ tokens, t.isParenthesis = false) :
    Builds e tokens (build e tokens : Except CompileError (Option (Chord σ))) := by
  by_cases empty : tokens = []
  · subst empty
    exact .nothing rfl
  · rw [build_of_ne_nil e tokens empty]
    rcases reduceAll_cases (σ := σ) e [] tokens plain with
      ⟨operands, done⟩ | ⟨t, member, reason, fits, stopped⟩
    · rw [done]
      rcases operands with _ | ⟨t, _ | ⟨second, others⟩⟩
      · exact .malformed empty
      · exact .chord empty t
      · exact .malformed empty
    · rw [stopped]
      exact .blamed reason t member fits

end Token

/-- An error that blames no token, or one that fits the reason and is cited where it stands. -/
inductive ParseError.Accurate (e : String) : ParseError → Prop where
  | malformed : Accurate e ⟨.malformed, e, none, none⟩
  | blame (reason : Reason) (t : Token) (member : t ∈ Token.tokenize e)
    (cited : t.Cited e.toList) (fits : reason.Fits t) : Accurate e (.blame reason e t)

theorem accurate_of_member (e : String) (reason : ParseError.Reason) (t : Token)
    (member : t ∈ Token.tokenize e) (fits : reason.Fits t) :
    ParseError.Accurate e (.blame reason e t) :=
  .blame reason t member (Token.cited_tokenize e t member) fits

theorem parse_of_rejected (e : String) (err : CompileError)
    (stopped : Token.reorder e (Token.tokenize e) = .error err) :
    (parse e : Except CompileError (Option (Chord σ))) = .error err := by
  rw [parse, stopped]
  rfl

theorem mem_proper (t : Token) (tokens : List Token) :
    t ∈ Token.proper tokens ↔ t ∈ tokens ∧ t.isParenthesis = false := by
  simp [Token.proper]

theorem proper_eq_nil_iff (tokens : List Token) : Token.proper tokens = [] ↔
    ∀ t ∈ tokens, t.kind ≠ .keyword ∧ t.kind.isOperator = false := by
  rw [Token.proper, List.filter_eq_nil_iff]
  refine forall₂_congr fun t _ => ?_
  cases kind : t.kind <;> simp [Token.isParenthesis, Token.Kind.isOperator, kind]

theorem builds_parse (e : String) (balanced : Token.Balanced 0 (Token.tokenize e)) :
    Token.Builds e (Token.proper (Token.tokenize e))
      (parse e : Except CompileError (Option (Chord σ))) := by
  obtain ⟨polish, ordered, same⟩ := Token.reorder_balanced e _ balanced
  have plain : ∀ t ∈ polish, t.isParenthesis = false :=
    fun t member => ((mem_proper t _).mp (same.mem_iff.mp member)).2
  rw [parse_of_reorder e polish ordered]
  exact (Token.builds_build e polish plain).perm same

/-- Every expression is read as nothing or as a sound chord, or is rejected with an accurate
error. -/
theorem parse_outcome (e : String) :
    (parse e : Except CompileError (Option (Chord σ))) = .ok none ∨
    (∃ t : Chord σ, parse e = .ok (some t) ∧ t.Sound) ∨
    ∃ err : ParseError, err.Accurate e ∧
      (parse e : Except CompileError (Option (Chord σ))) = .error (.rejected err) := by
  rcases Token.parentheses_cases (Token.tokenize e) with tooMany | ⟨level, notClosed⟩ | balanced
  · obtain ⟨before, closing, after, split, isClosing, _, stopped⟩ :=
      Token.reorder_unopened e _ tooMany
    have member : closing ∈ Token.tokenize e := by simp [split]
    have accurate := accurate_of_member e .unopened closing member isClosing
    exact Or.inr (Or.inr ⟨_, accurate, parse_of_rejected e _ stopped⟩)
  · obtain ⟨before, opening, after, split, isOpening, _, _, stopped⟩ :=
      Token.reorder_unclosed e _ level notClosed
    have member : opening ∈ Token.tokenize e := by simp [split]
    have accurate := accurate_of_member e .unclosed opening member isOpening
    exact Or.inr (Or.inr ⟨_, accurate, parse_of_rejected e _ stopped⟩)
  · have builds := builds_parse (σ := σ) e balanced
    have sound := parse_closed (σ := σ) Grammar.closed_sound e
    generalize (parse e : Except CompileError (Option (Chord σ))) = outcome at builds sound
    cases builds with
    | nothing _ => exact Or.inl rfl
    | chord _ t => exact Or.inr (Or.inl ⟨t, rfl, sound t rfl⟩)
    | malformed _ => exact Or.inr (Or.inr ⟨_, .malformed, rfl⟩)
    | blamed reason t member fits =>
        have found := ((mem_proper t _).mp member).1
        exact Or.inr (Or.inr ⟨_, accurate_of_member e reason t found fits, rfl⟩)

/-- Parentheses are judged first and by themselves. The first closing one that is too many is
blamed, or else the last opening one that is not closed. With all of them matched no parenthesis is
blamed, and an expression is read as nothing exactly if it has no keyword and no operator. -/
theorem parse_parentheses (e : String) :
    ((∃ p, p <+: Token.tokenize e ∧ Token.Overclosed p) →
      ∃ before closing after, Token.tokenize e = before ++ closing :: after ∧
        closing.kind = .closing ∧ Token.Overclosed (before ++ [closing]) ∧
        (∀ p, p <+: before → ¬ Token.Overclosed p) ∧
        (parse e : Except CompileError (Option (Chord σ))) =
          .error (.rejected ⟨.unopened, e, some closing.text, some closing.position⟩)) ∧
    ((∀ p, p <+: Token.tokenize e → ¬ Token.Overclosed p) →
      Token.closings (Token.tokenize e) < Token.openings (Token.tokenize e) →
      ∃ before opening after, Token.tokenize e = before ++ opening :: after ∧
        opening.kind = .opening ∧ ¬ Token.Closes after ∧
        (∀ between other later, after = between ++ other :: later → other.kind = .opening →
          Token.Closes later) ∧
        (parse e : Except CompileError (Option (Chord σ))) =
          .error (.rejected ⟨.unclosed, e, some opening.text, some opening.position⟩)) ∧
    ((∀ p, p <+: Token.tokenize e → ¬ Token.Overclosed p) →
      Token.openings (Token.tokenize e) ≤ Token.closings (Token.tokenize e) →
      (∀ err, (parse e : Except CompileError (Option (Chord σ))) = .error (.rejected err) →
        err.reason ≠ .unopened ∧ err.reason ≠ .unclosed) ∧
      ((parse e : Except CompileError (Option (Chord σ))) = .ok none ↔
        ∀ t ∈ Token.tokenize e, t.kind ≠ .keyword ∧ t.kind.isOperator = false)) := by
  have counted := Token.length_unclosed (Token.tokenize e)
  refine ⟨?_, ?_, ?_⟩
  · rintro ⟨p, starts, overclosed⟩
    have tooMany : 0 < Token.excess (Token.tokenize e) := by
      apply Nat.pos_of_ne_zero
      intro level
      exact (Token.excess_eq_zero_iff _).mp level p starts overclosed
    obtain ⟨before, closing, after, split, isClosing, balanced, stopped⟩ :=
      Token.reorder_unopened e _ tooMany
    have level := ((Token.balanced_iff 0 before).mp balanced).1
    exact ⟨before, closing, after, split, isClosing,
      Token.overclosed_of_balanced before closing isClosing balanced,
      (Token.excess_eq_zero_iff before).mp level, parse_of_rejected e _ stopped⟩
  · intro fine more
    have level := (Token.excess_eq_zero_iff _).mpr fine
    have notClosed : Token.unclosed (Token.tokenize e) ≠ [] := by
      intro closed
      rw [closed, level, List.length_nil] at counted
      omega
    obtain ⟨before, opening, after, split, isOpening, kept, closed, stopped⟩ :=
      Token.reorder_unclosed e _ level notClosed
    refine ⟨before, opening, after, split, isOpening, ?_, ?_, parse_of_rejected e _ stopped⟩
    · rw [Token.closes_iff, kept]
      exact Nat.lt_irrefl 0
    · rintro between other later rfl isOpeningToo
      exact Token.closes_of_unclosed between later other isOpeningToo closed
  · intro fine enough
    have level := (Token.excess_eq_zero_iff _).mpr fine
    have closed : Token.unclosed (Token.tokenize e) = [] := by
      rw [level] at counted
      exact List.eq_nil_of_length_eq_zero (by omega)
    have balanced := (Token.balanced_iff 0 _).mpr ⟨level, closed⟩
    have builds := builds_parse (σ := σ) e balanced
    rw [← proper_eq_nil_iff]
    generalize (parse e : Except CompileError (Option (Chord σ))) = outcome at builds
    cases builds with
    | nothing empty => simp [empty]
    | chord filled t => simp [filled]
    | malformed filled => simp [filled]
    | blamed reason t member fits =>
        have plain := ((mem_proper t _).mp member).2
        have filled : Token.proper (Token.tokenize e) ≠ [] := List.ne_nil_of_mem member
        refine ⟨?_, by simp [filled]⟩
        rintro err same
        cases same
        exact fits.not_about_parentheses plain

/-- Three expressions with more faults than one, or with nothing but parentheses. -/
theorem parse_parentheses_blamed :
    (parse "_ + ) !" : Except CompileError (Option (Chord Empty))) =
      .error (.rejected ⟨.unopened, "_ + ) !", some ")", some 4⟩) ∧
    (parse "( _ ()" : Except CompileError (Option (Chord Empty))) =
      .error (.rejected ⟨.unclosed, "( _ ()", some "(", some 0⟩) ∧
    (parse "(())" : Except CompileError (Option (Chord Empty))) = .ok none := by
  refine ⟨?_, ?_, ?_⟩
  · have lexed : Token.tokenize "_ + ) !" = [⟨.keyword, "_", 0⟩, ⟨.join .and, "+", 2⟩,
        ⟨.closing, ")", 4⟩, ⟨.not, "!", 6⟩] := by decide +kernel
    have tooMany : ∃ p, p <+: Token.tokenize "_ + ) !" ∧ Token.Overclosed p := by
      rw [lexed]
      exact ⟨_, List.prefix_rfl, by unfold Token.Overclosed; decide⟩
    obtain ⟨before, closing, after, split, isClosing, _, _, parsed⟩ :=
      (parse_parentheses (σ := Empty) "_ + ) !").1 tooMany
    have member : closing ∈ Token.tokenize "_ + ) !" := by simp [split]
    have same : closing = ⟨.closing, ")", 4⟩ := by
      rw [lexed] at member
      simp only [List.mem_cons, List.not_mem_nil, or_false] at member
      rcases member with rfl | rfl | rfl | rfl <;> first | rfl | cases isClosing
    rw [parsed, same]
  · have lexed : Token.tokenize "( _ ()" = [⟨.opening, "(", 0⟩, ⟨.keyword, "_", 2⟩,
        ⟨.opening, "(", 4⟩, ⟨.closing, ")", 5⟩] := by decide +kernel
    have level : ∀ p, p <+: Token.tokenize "( _ ()" → ¬ Token.Overclosed p := by
      rw [lexed, ← Token.excess_eq_zero_iff]
      rfl
    have more : Token.closings (Token.tokenize "( _ ()") <
        Token.openings (Token.tokenize "( _ ()") := by
      rw [lexed]
      decide
    obtain ⟨before, opening, after, split, isOpening, kept, _, parsed⟩ :=
      (parse_parentheses (σ := Empty) "( _ ()").2.1 level more
    rw [lexed] at split
    have same : opening = ⟨.opening, "(", 0⟩ := by
      rcases before with _ | ⟨first, _ | ⟨second, _ | ⟨third, _ | ⟨fourth, before⟩⟩⟩⟩
      · cases split
        rfl
      · cases split
        cases isOpening
      · cases split
        exact absurd ⟨[], ⟨.closing, ")", 5⟩, [], rfl, rfl, rfl⟩ kept
      · cases split
        cases isOpening
      · cases before <;> cases split
    rw [parsed, same]
  · have lexed : Token.tokenize "(())" = [⟨.opening, "(", 0⟩, ⟨.opening, "(", 1⟩,
        ⟨.closing, ")", 2⟩, ⟨.closing, ")", 3⟩] := by decide +kernel
    have level : ∀ p, p <+: Token.tokenize "(())" → ¬ Token.Overclosed p := by
      rw [lexed, ← Token.excess_eq_zero_iff]
      rfl
    have enough : Token.openings (Token.tokenize "(())") ≤
        Token.closings (Token.tokenize "(())") := by
      rw [lexed]
      decide
    refine ((parse_parentheses (σ := Empty) "(())").2.2 level enough).2.mpr ?_
    rw [lexed]
    decide

end InputChords
