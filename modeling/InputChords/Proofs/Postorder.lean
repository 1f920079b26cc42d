import Mathlib.Data.List.Basic
import Mathlib.Data.List.Forall2
import Mathlib.Data.List.Induction
import InputChords.Proofs.Build
import InputChords.Proofs.Names
import InputChords.Proofs.Reorder

/-! Operand order is the postorder of a tree. The operands that wait are trees whose postorders make
up the tokens read so far, one after the other: an operator that finds too few of them is to blame,
and at the end exactly one must be left. -/

namespace InputChords

variable {σ : Type}

namespace Token

def Kind.arity : Kind → Nat
  | join _ => 2
  | not => 1
  | _ => 0

def Kind.gain : Kind → Int
  | join _ => -1
  | keyword => 1
  | _ => 0

def height : List Token → Int
  | [] => 0
  | token :: rest => token.kind.gain + height rest

/-- What is wrong with a token after the ones before it. -/
inductive Stops (before : List Token) (token : Token) : ParseError.Reason → Prop where
  | unknown (noAtom : token.isUnknown = true) : Stops before token .invalidKeyword
  | few (operator : token.kind.isOperator = true) (missing : height before < token.kind.arity) :
    Stops before token .unexpectedOperator

def Complete (tokens : List Token) : Prop :=
  ∀ before token after reason, tokens = before ++ token :: after → ¬ Stops before token reason

/-- A tree of tokens: keywords at the leaves, and each operator above its operands. -/
inductive Formula where
  | keyword (name : Token) (isName : name.kind = .keyword)
  | not (sign : Token) (isSign : sign.kind = .not) (operand : Formula)
  | join (c : Connective) (sign : Token) (isSign : sign.kind = .join c) (left right : Formula)

namespace Formula

def postorder : Formula → List Token
  | keyword name _ => [name]
  | not sign _ operand => operand.postorder ++ [sign]
  | join _ sign _ left right => left.postorder ++ right.postorder ++ [sign]

def chord : Formula → Except Token (Chord σ)
  | keyword name _ => name.leaf
  | not _ _ operand => do return .not (← operand.chord)
  | join c _ _ left right => do return .join c (← left.chord) (← right.chord)

theorem reduceAll_postorder (e : String) (f : Formula) (operands : List (Chord σ))
    (rest : List Token) :
    reduceAll e operands (f.postorder ++ rest) =
      match f.chord with
      | .ok t => reduceAll e (t :: operands) rest
      | .error k => .error (.rejected (.blame .invalidKeyword e k)) := by
  induction f generalizing operands rest with
  | keyword name isName => exact reduceAll_keyword e operands rest name isName
  | not sign isSign operand ih =>
      rw [postorder, List.append_assoc, ih]
      simp only [chord]
      cases operand.chord with
      | error k => rfl
      | ok t => exact reduceAll_not e operands rest sign isSign t
  | join c sign isSign left right ihLeft ihRight =>
      rw [postorder, List.append_assoc, List.append_assoc, ihLeft]
      simp only [chord]
      cases left.chord with
      | error k => rfl
      | ok l =>
          simp only [bind, Except.bind]
          rw [ihRight]
          cases right.chord with
          | error k => rfl
          | ok r => exact reduceAll_join e operands rest sign c isSign l r

theorem chord_of_known (f : Formula) (known : ∀ k ∈ f.postorder, k.isUnknown = false) :
    ∃ t : Chord σ, f.chord = .ok t := by
  induction f with
  | keyword name isName =>
      have here : name.isUnknown = false := known name (List.mem_singleton_self name)
      cases found : resolveAtom name.text with
      | some a => exact ⟨.ofAtom a, by rw [chord, leaf, found]⟩
      | none => simp [isUnknown, isName, found] at here
  | not sign isSign operand ih =>
      obtain ⟨t, inside⟩ := ih fun k member => known k (List.mem_append_left _ member)
      exact ⟨.not t, by rw [chord, inside]; rfl⟩
  | join c sign isSign left right ihLeft ihRight =>
      have knownBoth : ∀ k ∈ left.postorder ++ right.postorder, k.isUnknown = false :=
        fun k member => known k (List.mem_append_left _ member)
      obtain ⟨l, onLeft⟩ := ihLeft fun k member => knownBoth k (List.mem_append_left _ member)
      obtain ⟨r, onRight⟩ := ihRight fun k member => knownBoth k (List.mem_append_right _ member)
      exact ⟨.join c l r, by rw [chord, onLeft, onRight]; rfl⟩

def root : Formula → Token
  | keyword name _ => name
  | not sign _ _ => sign
  | join _ sign _ _ _ => sign

def parts : Formula → List Formula
  | keyword _ _ => []
  | not _ _ operand => [operand]
  | join _ _ _ left right => [left, right]

abbrev listed (forest : List Formula) : List Token := forest.flatMap postorder

theorem postorder_eq (f : Formula) : f.postorder = listed f.parts ++ [f.root] := by
  cases f <;> simp [postorder, parts, root]

theorem length_parts (f : Formula) : f.parts.length = f.root.kind.arity := by
  cases f with
  | keyword name isName => simp [parts, root, isName, Kind.arity]
  | not sign isSign operand => simp [parts, root, isSign, Kind.arity]
  | join c sign isSign left right => simp [parts, root, isSign, Kind.arity]

theorem eq_of_root (f g : Formula) (root : f.root = g.root) (parts : f.parts = g.parts) :
    f = g := by
  cases f with
  | keyword name isName => cases g <;> simp_all [Formula.root, Formula.parts]
  | not sign isSign operand => cases g <;> simp_all [Formula.root, Formula.parts]
  | join c sign isSign left right =>
      cases g with
      | keyword name isName => cases parts
      | not other isOther operand => cases parts
      | join d other isOther left' right' =>
          cases root
          cases parts
          rw [isSign] at isOther
          cases isOther
          rfl

theorem listed_eq_nil (forest : List Formula) (empty : listed forest = []) : forest = [] := by
  cases forest with
  | nil => rfl
  | cons f rest =>
      rw [listed, List.flatMap_cons, postorder_eq, List.append_assoc] at empty
      exact absurd empty (by simp)

theorem listed_eq_snoc (forest : List Formula) (tokens : List Token) (token : Token)
    (same : listed forest = tokens ++ [token]) :
    ∃ init f, forest = init ++ [f] ∧ f.root = token ∧ listed (init ++ f.parts) = tokens := by
  rcases List.eq_nil_or_concat' forest with rfl | ⟨init, f, rfl⟩
  · simp at same
  · rw [listed, List.flatMap_append, List.flatMap_singleton, postorder_eq,
      ← List.append_assoc] at same
    obtain ⟨front, last⟩ := List.append_inj' same rfl
    refine ⟨init, f, rfl, List.singleton_inj.mp last, ?_⟩
    rw [listed, List.flatMap_append]
    exact front

theorem listed_inj (first second : List Formula) (same : listed first = listed second) :
    first = second := by
  generalize tokens : listed second = list at same
  induction list using List.reverseRecOn generalizing first second with
  | nil => rw [listed_eq_nil first same, listed_eq_nil second tokens]
  | append_singleton list token ih =>
      obtain ⟨init, f, rfl, root, front⟩ := listed_eq_snoc first list token same
      obtain ⟨others, g, rfl, rootToo, frontToo⟩ := listed_eq_snoc second list token tokens
      have roots : f.root = g.root := root.trans rootToo.symm
      have width : f.parts.length = g.parts.length := by rw [length_parts, length_parts, roots]
      obtain ⟨inits, parts⟩ := List.append_inj' (ih _ _ frontToo front) width
      rw [inits, eq_of_root f g roots parts]

theorem postorder_inj (f g : Formula) (same : f.postorder = g.postorder) : f = g := by
  have forests : listed [f] = listed [g] := by simpa [listed] using same
  exact List.singleton_inj.mp (listed_inj _ _ forests)

theorem exists_root (token : Token) (plain : token.isParenthesis = false) (forest : List Formula)
    (enough : token.kind.arity ≤ forest.length) :
    ∃ (init : List Formula) (f : Formula), forest = init ++ f.parts ∧ f.root = token := by
  cases kind : token.kind with
  | join c =>
      rw [kind] at enough
      rcases List.eq_nil_or_concat' forest with rfl | ⟨front, right, rfl⟩
      · cases enough
      · rcases List.eq_nil_or_concat' front with rfl | ⟨init, left, rfl⟩
        · simp [Kind.arity] at enough
        · exact ⟨init, .join c token kind left right, by simp [parts], rfl⟩
  | not =>
      rw [kind] at enough
      rcases List.eq_nil_or_concat' forest with rfl | ⟨init, operand, rfl⟩
      · cases enough
      · exact ⟨init, .not token kind operand, rfl, rfl⟩
  | keyword => exact ⟨forest, .keyword token kind, by simp [parts], rfl⟩
  | opening => simp [isParenthesis, kind] at plain
  | closing => simp [isParenthesis, kind] at plain

end Formula

section Height

theorem height_append (first second : List Token) :
    height (first ++ second) = height first + height second := by
  induction first with
  | nil => simp [height]
  | cons token rest ih => rw [List.cons_append, height, ih, height, Int.add_assoc]

theorem height_singleton (token : Token) : height [token] = token.kind.gain := by
  simp [height]

theorem Complete.of_append {first second : List Token} (complete : Complete (first ++ second)) :
    Complete first := by
  intro before token after reason split
  apply complete before token (after ++ second) reason
  rw [split, List.append_assoc, List.cons_append]

theorem complete_nil : Complete [] := by
  intro before token after reason split
  simp at split

theorem Complete.snoc {tokens : List Token} (complete : Complete tokens) (last : Token)
    (fine : ∀ reason, ¬ Stops tokens last reason) : Complete (tokens ++ [last]) := by
  intro before token after reason split
  rcases List.eq_nil_or_concat' after with rfl | ⟨init, final, rfl⟩
  · obtain ⟨rfl, same⟩ := List.append_inj' split rfl
    cases same
    exact fine reason
  · rw [← List.cons_append, ← List.append_assoc] at split
    obtain ⟨rfl, _⟩ := List.append_inj' split rfl
    exact complete before token init reason rfl

/-- If anything is wrong with the tokens, something is wrong with one of them first. -/
theorem complete_or_stops (tokens : List Token) : Complete tokens ∨
    ∃ before token after reason, tokens = before ++ token :: after ∧ Complete before ∧
      Stops before token reason := by
  induction tokens using List.reverseRecOn with
  | nil => exact .inl complete_nil
  | append_singleton tokens last ih =>
      rcases ih with complete | ⟨before, token, after, reason, rfl, complete, stops⟩
      · by_cases stopped : ∃ reason, Stops tokens last reason
        · obtain ⟨reason, stops⟩ := stopped
          exact .inr ⟨tokens, last, [], reason, rfl, complete, stops⟩
        · exact .inl (complete.snoc last fun reason stops => stopped ⟨reason, stops⟩)
      · exact .inr ⟨before, token, after ++ [last], reason, by simp, complete, stops⟩

end Height

theorem gain_eq (token : Token) (plain : token.isParenthesis = false) :
    token.kind.gain = 1 - token.kind.arity := by
  cases kind : token.kind with
  | join c => rfl
  | not => rfl
  | keyword => rfl
  | opening => simp [isParenthesis, kind] at plain
  | closing => simp [isParenthesis, kind] at plain

theorem exists_forest (tokens : List Token) (plain : ∀ t ∈ tokens, t.isParenthesis = false)
    (complete : Complete tokens) :
    ∃ forest, Formula.listed forest = tokens ∧ height tokens = forest.length := by
  induction tokens using List.reverseRecOn with
  | nil => exact ⟨[], rfl, rfl⟩
  | append_singleton tokens token ih =>
      obtain ⟨forest, listed, count⟩ :=
        ih (fun t member => plain t (List.mem_append_left _ member)) complete.of_append
      have here : token.isParenthesis = false := plain token (by simp)
      have enough : token.kind.arity ≤ forest.length := by
        by_contra few
        cases operator : token.kind.isOperator with
        | true =>
            apply complete tokens token [] .unexpectedOperator rfl
            exact .few operator (by omega)
        | false =>
            have none : token.kind.arity = 0 := by
              cases kind : token.kind <;> simp_all [Kind.isOperator, Kind.arity]
            omega
      obtain ⟨init, f, rfl, root⟩ := Formula.exists_root token here forest enough
      refine ⟨init ++ [f], ?_, ?_⟩
      · rw [Formula.listed, List.flatMap_append, List.flatMap_singleton, Formula.postorder_eq,
          ← List.append_assoc, ← List.flatMap_append, root]
        rw [Formula.listed] at listed
        rw [listed]
      · rw [height_append, count, height_singleton, gain_eq token here, ← root,
          ← Formula.length_parts, List.length_append, List.length_append, List.length_singleton]
        push_cast
        omega

theorem reduceAll_listed (e : String) (forest : List Formula)
    (known : ∀ k ∈ Formula.listed forest, k.isUnknown = false) (operands : List (Chord σ)) :
    ∃ ts : List (Chord σ), List.Forall₂ (fun f t => f.chord = .ok t) forest ts ∧
      ∀ rest, reduceAll e operands (Formula.listed forest ++ rest) =
        reduceAll e (ts.reverse ++ operands) rest := by
  induction forest generalizing operands with
  | nil => exact ⟨[], .nil, fun rest => rfl⟩
  | cons f forest ih =>
      have split : Formula.listed (f :: forest) = f.postorder ++ Formula.listed forest :=
        List.flatMap_cons
      rw [split] at known
      obtain ⟨t, here⟩ := f.chord_of_known (σ := σ) fun k member =>
        known k (List.mem_append_left _ member)
      obtain ⟨ts, later, reduced⟩ := ih
        (fun k member => known k (List.mem_append_right _ member)) (t :: operands)
      refine ⟨t :: ts, .cons here later, ?_⟩
      intro rest
      rw [split, List.append_assoc, f.reduceAll_postorder, here]
      simp only
      rw [reduced, List.reverse_cons, List.append_assoc]
      rfl

theorem Complete.known {tokens : List Token} (complete : Complete tokens) :
    ∀ k ∈ tokens, k.isUnknown = false := by
  intro k member
  obtain ⟨before, after, split⟩ := List.append_of_mem member
  by_contra unknown
  exact complete before k after .invalidKeyword split (.unknown (by simpa using unknown))

theorem reduceAll_complete (e : String) (tokens : List Token)
    (plain : ∀ t ∈ tokens, t.isParenthesis = false) (complete : Complete tokens) :
    ∃ (forest : List Formula) (ts : List (Chord σ)), Formula.listed forest = tokens ∧
      height tokens = forest.length ∧ List.Forall₂ (fun f t => f.chord = .ok t) forest ts ∧
      ∀ rest, reduceAll e [] (tokens ++ rest) = reduceAll e ts.reverse rest := by
  obtain ⟨forest, rfl, count⟩ := exists_forest tokens plain complete
  obtain ⟨ts, paired, reduced⟩ := reduceAll_listed (σ := σ) e forest complete.known []
  rw [List.append_nil] at reduced
  exact ⟨forest, ts, rfl, count, paired, reduced⟩

theorem build_of_stops (e : String) (before after : List Token) (token : Token)
    (reason : ParseError.Reason) (plain : ∀ t ∈ before, t.isParenthesis = false)
    (complete : Complete before) (stops : Stops before token reason) :
    (build e (before ++ token :: after) : Except CompileError (Option (Chord σ))) =
      .error (.rejected (.blame reason e token)) := by
  obtain ⟨forest, ts, _, count, paired, reduced⟩ :=
    reduceAll_complete (σ := σ) e before plain complete
  have width : ts.reverse.length = forest.length := by
    rw [List.length_reverse, paired.length_eq]
  have stopped : reduce e ts.reverse token = .error (.rejected (.blame reason e token)) := by
    generalize ts.reverse = operands at width
    cases stops with
    | unknown noAtom =>
        simp only [isUnknown, Bool.and_eq_true, beq_iff_eq, Option.isNone_iff_eq_none] at noAtom
        obtain ⟨isName, noAtom⟩ := noAtom
        simp only [reduce, isName, resolveKeyword, noAtom]
        rfl
    | few operator missing =>
        rw [count, ← width] at missing
        cases kind : token.kind with
        | join c =>
            rw [kind] at missing
            rcases operands with _ | ⟨r, _ | ⟨l, rest⟩⟩
            · simp only [reduce, kind]
            · simp only [reduce, kind]
            · simp [Kind.arity] at missing
              omega
        | not =>
            rw [kind] at missing
            rcases operands with _ | ⟨t, rest⟩
            · simp only [reduce, kind]
            · simp [Kind.arity] at missing
              omega
        | keyword => simp [kind, Kind.isOperator] at operator
        | opening => simp [kind, Kind.isOperator] at operator
        | closing => simp [kind, Kind.isOperator] at operator
  rw [build_of_ne_nil e _ (by simp), reduced, reduceAll, stopped]
  rfl

theorem build_of_complete (e : String) (tokens : List Token) (filled : tokens ≠ [])
    (plain : ∀ t ∈ tokens, t.isParenthesis = false) (complete : Complete tokens) :
    1 ≤ height tokens ∧
    (2 ≤ height tokens → (build e tokens : Except CompileError (Option (Chord σ))) =
      .error (.rejected ⟨.malformed, e, none, none⟩)) ∧
    (height tokens = 1 → ∃ (f : Formula) (t : Chord σ), f.postorder = tokens ∧ f.chord = .ok t ∧
      build e tokens = .ok (some t)) := by
  obtain ⟨forest, ts, rfl, count, paired, reduced⟩ :=
    reduceAll_complete (σ := σ) e tokens plain complete
  have left := reduced []
  rw [List.append_nil, reduceAll] at left
  rw [build_of_ne_nil e _ filled, left, count]
  have width := paired.length_eq
  refine ⟨?_, ?_, ?_⟩
  · have some_tree : forest ≠ [] := by
      rintro rfl
      exact filled rfl
    have long := List.length_pos_iff.mpr some_tree
    omega
  · intro many
    rcases ts with _ | ⟨first, _ | ⟨second, others⟩⟩
    · rfl
    · simp only [List.length_singleton] at width
      omega
    · rcases operands : (first :: second :: others).reverse with _ | ⟨last, _ | ⟨previous, more⟩⟩
      · rfl
      · have one := congrArg List.length operands
        simp at one
      · rfl
  · intro single
    obtain ⟨f, rfl⟩ := List.length_eq_one_iff.mp (by omega : forest.length = 1)
    obtain ⟨t, _, here, nothing, rfl⟩ := List.forall₂_cons_left_iff.mp paired
    cases nothing
    exact ⟨f, t, by simp [Formula.listed], here, rfl⟩

theorem Formula.build_postorder (e : String) (f : Formula)
    (known : ∀ k ∈ f.postorder, k.isUnknown = false) :
    ∃ t : Chord σ, f.chord = .ok t ∧ build e f.postorder = .ok (some t) := by
  obtain ⟨t, chord⟩ := f.chord_of_known (σ := σ) known
  have reduced := f.reduceAll_postorder (σ := σ) e [] []
  rw [List.append_nil, chord] at reduced
  refine ⟨t, chord, ?_⟩
  rw [build_of_ne_nil e _ (by rw [postorder_eq]; simp), reduced]
  rfl

end Token

/-- Tokens in operand order are read as the tree that they are the postorder of. Otherwise the
first token is blamed that is unknown or lacks operands, or operands are left over. -/
theorem build_inverts_postorder (e : String) :
    (∀ tokens : List Token, (∀ t ∈ tokens, t.isParenthesis = false) →
      (∀ before token after reason, tokens = before ++ token :: after → Token.Complete before →
        Token.Stops before token reason →
        (Token.build e tokens : Except CompileError (Option (Chord σ))) =
          .error (.rejected (.blame reason e token))) ∧
      (¬ Token.Complete tokens → ∃ before token after reason, tokens = before ++ token :: after ∧
        Token.Complete before ∧ Token.Stops before token reason) ∧
      (tokens = [] → (Token.build e tokens : Except CompileError (Option (Chord σ))) = .ok none) ∧
      (Token.Complete tokens → tokens ≠ [] → 1 ≤ Token.height tokens ∧
        (2 ≤ Token.height tokens →
          (Token.build e tokens : Except CompileError (Option (Chord σ))) =
            .error (.rejected ⟨.malformed, e, none, none⟩)) ∧
        (Token.height tokens = 1 → ∃ (f : Token.Formula) (t : Chord σ), f.postorder = tokens ∧
          (∀ g : Token.Formula, g.postorder = tokens → g = f) ∧ f.chord = .ok t ∧
          Token.build e tokens = .ok (some t))) ∧
      ((Token.build e tokens : Except CompileError (Option (Chord σ))) =
          .error (.rejected ⟨.malformed, e, none, none⟩) →
        Token.Complete tokens ∧ 2 ≤ Token.height tokens)) ∧
    ∀ f : Token.Formula, (∀ k ∈ f.postorder, k.isUnknown = false) →
      ∃ t : Chord σ, f.chord = .ok t ∧ Token.build e f.postorder = .ok (some t) := by
  refine ⟨?_, fun f => f.build_postorder e⟩
  intro tokens plain
  have stopped : ∀ before token after reason, tokens = before ++ token :: after →
      Token.Complete before → Token.Stops before token reason →
      (Token.build e tokens : Except CompileError (Option (Chord σ))) =
        .error (.rejected (.blame reason e token)) := by
    intro before token after reason split complete stops
    rw [split] at plain ⊢
    apply Token.build_of_stops e before after token reason _ complete stops
    exact fun t member => plain t (List.mem_append_left _ member)
  refine ⟨stopped, ?_, ?_, ?_, ?_⟩
  · intro wrong
    exact (Token.complete_or_stops tokens).resolve_left wrong
  · intro empty
    rw [empty]
    rfl
  · intro complete filled
    obtain ⟨some_left, many, single⟩ :=
      Token.build_of_complete (σ := σ) e tokens filled plain complete
    refine ⟨some_left, many, ?_⟩
    intro one
    obtain ⟨f, t, listed, chord, built⟩ := single one
    refine ⟨f, t, listed, ?_, chord, built⟩
    intro g listedToo
    exact Token.Formula.postorder_inj g f (listedToo.trans listed.symm)
  · intro malformed
    rcases Token.complete_or_stops tokens with
      complete | ⟨before, token, after, reason, split, complete, stops⟩
    · refine ⟨complete, ?_⟩
      have filled : tokens ≠ [] := by
        rintro rfl
        cases malformed
      obtain ⟨some_left, _, single⟩ :=
        Token.build_of_complete (σ := σ) e tokens filled plain complete
      by_contra few
      obtain ⟨f, t, _, _, built⟩ := single (by omega)
      rw [malformed] at built
      cases built
    · rw [stopped before token after reason split complete stops] at malformed
      cases malformed

/-- In `A + _` the sign comes too early, and is blamed before the unknown keyword behind it. -/
theorem build_inverts_postorder_sign :
    let a : Token := ⟨.keyword, "A", 0⟩
    let b : Token := ⟨.keyword, "B", 2⟩
    let plus : Token := ⟨.join .and, "+", 4⟩
    let bang : Token := ⟨.not, "!", 6⟩
    let unknown : Token := ⟨.keyword, "_", 8⟩
    let e := "A B + ! _"
    (Token.build e [a, plus, unknown] : Except CompileError (Option (Chord Empty))) =
      .error (.rejected ⟨.unexpectedOperator, e, some "+", some 4⟩) ∧
    (Token.build e [a, b] : Except CompileError (Option (Chord Empty))) =
      .error (.rejected ⟨.malformed, e, none, none⟩) ∧
    ∃ f : Token.Formula, f.postorder = [a, b, bang, plus] ∧
      (Token.build e f.postorder : Except CompileError (Option (Chord Empty))) =
        .ok (some (.join .and (.atom (.key (.letter 0))) (.not (.atom (.key (.letter 1)))))) := by
  intro a b plus bang unknown e
  have keyA : resolveAtom "A" = some (.key (.letter 0)) := resolveAtom_key (.letter 0)
  have keyB : resolveAtom "B" = some (.key (.letter 1)) := resolveAtom_key (.letter 1)
  have knownA : a.isUnknown = false := by simp [a, Token.isUnknown, keyA]
  have knownB : b.isUnknown = false := by simp [b, Token.isUnknown, keyB]
  have fine (before : List Token) (k : Token) (known : k.isUnknown = false)
      (isName : k.kind = .keyword) : ∀ reason, ¬ Token.Stops before k reason := by
    intro reason stops
    cases stops with
    | unknown noAtom => simp [known] at noAtom
    | few operator => simp [isName, Token.Kind.isOperator] at operator
  have first : Token.Complete [a] := Token.complete_nil.snoc a (fine [] a knownA rfl)
  have both : Token.Complete [a, b] := first.snoc b (fine [a] b knownB rfl)
  obtain ⟨main, back⟩ := build_inverts_postorder (σ := Empty) e
  refine ⟨?_, ?_, ?_⟩
  · have early : Token.Stops [a] plus .unexpectedOperator := .few rfl (by decide)
    exact (main [a, plus, unknown] (by simp [a, plus, unknown, Token.isParenthesis])).1 [a] plus
      [unknown] .unexpectedOperator rfl first early
  · have outcome := (main [a, b] (by simp [a, b, Token.isParenthesis])).2.2.2.1 both (by simp)
    exact outcome.2.1 (by decide)
  · let f : Token.Formula := .join .and plus rfl (.keyword a rfl) (.not bang rfl (.keyword b rfl))
    have known : ∀ k ∈ f.postorder, k.isUnknown = false := by
      simp [f, Token.Formula.postorder, a, b, plus, bang, Token.isUnknown, keyA, keyB]
    have leafA : (a.leaf : Except Token (Chord Empty)) = .ok (.atom (.key (.letter 0))) := by
      rw [Token.leaf, keyA]
      rfl
    have leafB : (b.leaf : Except Token (Chord Empty)) = .ok (.atom (.key (.letter 1))) := by
      rw [Token.leaf, keyB]
      rfl
    obtain ⟨t, chord, built⟩ := back f known
    rw [Token.Formula.chord, Token.Formula.chord, Token.Formula.chord, Token.Formula.chord, leafA,
      leafB] at chord
    rw [← Except.ok.inj chord] at built
    exact ⟨f, rfl, built⟩

end InputChords
