import Mathlib
import InputChords.Proofs.Lockstep

/-! The same expression written in other ways: letters in another case, keywords with more or fewer
underscores and hyphens, other blanks between the tokens. All of them are read alike. -/

namespace InputChords

variable {σ : Type}

namespace Text

theorem isAlpha_iff (c : Char) :
    c.isAlpha = true ↔ (65 ≤ c.toNat ∧ c.toNat ≤ 90) ∨ (97 ≤ c.toNat ∧ c.toNat ≤ 122) := by
  simp [Char.isAlpha, Char.isUpper, Char.isLower, UInt32.le_iff_toNat_le]

theorem toLower_of_not_isUpper (c : Char) (plain : c.isUpper = false) : c.toLower = c := by
  have outside : ¬ (c.val ≥ 'A'.val ∧ c.val ≤ 'Z'.val) := of_decide_eq_false plain
  rw [Char.toLower, dif_neg outside]

theorem isAlpha_toLower (c : Char) : c.toLower.isAlpha = c.isAlpha := by
  cases upper : c.isUpper with
  | false => rw [toLower_of_not_isUpper c upper]
  | true =>
      have bounds : c.val ≥ 'A'.val ∧ c.val ≤ 'Z'.val := of_decide_eq_true upper
      have above : 65 ≤ c.toNat := UInt32.le_iff_toNat_le.mp bounds.1
      have below : c.toNat ≤ 90 := UInt32.le_iff_toNat_le.mp bounds.2
      have moved : c.toLower.toNat = c.toNat + 32 := by
        have shift : ('a'.val - 'A'.val).toNat = 32 := by decide
        rw [Char.toLower, dif_pos bounds]
        show (c.val + ('a'.val - 'A'.val)).toNat = c.toNat + 32
        rw [UInt32.toNat_add, shift, Char.toNat_val]
        omega
      rw [Bool.eq_iff_iff, isAlpha_iff, isAlpha_iff, moved]
      omega

theorem eq_or_isAlpha (c d : Char) (same : c.toLower = d.toLower) :
    c = d ∨ (c.isAlpha = true ∧ d.isAlpha = true) := by
  have both : d.isAlpha = c.isAlpha := by rw [← isAlpha_toLower d, ← same, isAlpha_toLower]
  cases alpha : c.isAlpha with
  | true => exact Or.inr ⟨rfl, both.trans alpha⟩
  | false =>
      have unchanged (x : Char) (plain : x.isAlpha = false) : x.toLower = x :=
        toLower_of_not_isUpper x (Bool.or_eq_false_iff.mp plain).1
      rw [unchanged c alpha, unchanged d (both.trans alpha)] at same
      exact Or.inl same

theorem letter_classes (c : Char) (alpha : c.isAlpha = true) :
    isCased c = true ∧ isCaseIgnorable c = false ∧ Token.isKeywordChar c = true := by
  have all : ∀ n : Fin 123, (Char.ofNat n).isAlpha = true → isCased (Char.ofNat n) = true ∧
      isCaseIgnorable (Char.ofNat n) = false ∧ Token.isKeywordChar (Char.ofNat n) = true := by
    decide +kernel
  have small : c.toNat < 123 := by
    rcases (isAlpha_iff c).mp alpha with ⟨_, bound⟩ | ⟨_, bound⟩ <;> omega
  have here := all ⟨c.toNat, small⟩
  rw [Char.ofNat_toNat] at here
  exact here alpha

theorem wordContinues_cons (c : Char) (rest : List Char) :
    wordContinues (c :: rest) = if isCaseIgnorable c then wordContinues rest else isCased c := by
  cases passed : isCaseIgnorable c <;> simp [wordContinues, passed]

theorem wordContinues_congr (cs ds : List Char) (same : cs.map Char.toLower = ds.map Char.toLower) :
    wordContinues cs = wordContinues ds := by
  induction cs generalizing ds with
  | nil => rw [List.map_eq_nil_iff.mp same.symm]
  | cons c cs ih =>
      obtain ⟨d, ds, rfl, here, later⟩ := List.map_eq_cons_iff.mp same.symm
      rw [wordContinues_cons, wordContinues_cons, ih ds later.symm]
      rcases eq_or_isAlpha c d here.symm with rfl | ⟨alpha, alphaToo⟩
      · rfl
      · rw [(letter_classes c alpha).1, (letter_classes c alpha).2.1, (letter_classes d alphaToo).1,
          (letter_classes d alphaToo).2.1]

theorem lowerFrom_letter (inWord : Bool) (c : Char) (rest : List Char) (alpha : c.isAlpha = true) :
    lowerFrom inWord (c :: rest) = c.toLower :: lowerFrom true rest := by
  have ascii : c.toNat < 128 := by
    rcases (isAlpha_iff c).mp alpha with ⟨_, bound⟩ | ⟨_, bound⟩ <;> omega
  have notSigma : c ≠ 'Σ' := by
    rintro rfl
    exact absurd ascii (by decide)
  rw [lowerFrom, if_neg notSigma, if_pos (by simp [ascii, alpha])]

/-- The case of ASCII letters is lost, and they do not decide how other letters are lowered. -/
theorem lowerFrom_congr (inWord : Bool) (cs ds : List Char)
    (same : cs.map Char.toLower = ds.map Char.toLower) :
    lowerFrom inWord cs = lowerFrom inWord ds := by
  induction cs generalizing inWord ds with
  | nil => rw [List.map_eq_nil_iff.mp same.symm]
  | cons c cs ih =>
      obtain ⟨d, ds, rfl, here, later⟩ := List.map_eq_cons_iff.mp same.symm
      rcases eq_or_isAlpha c d here.symm with rfl | ⟨alpha, alphaToo⟩
      · simp only [lowerFrom, wordContinues_congr cs ds later.symm, ih _ ds later.symm]
      · rw [lowerFrom_letter _ c cs alpha, lowerFrom_letter _ d ds alphaToo, here,
          ih true ds later.symm]

end Text

namespace Token

def bare (word : List Char) : List Char :=
  (word.filter fun c => c != '_' && c != '-').map Char.toLower

def outline (t : Token) : Kind × List Char := (t.kind, bare t.text.toList)

/-- One change in the writing: a letter in another case, one underscore or hyphen more in a keyword,
or one separator more between two tokens. -/
inductive Retouched : List Char → List Char → Prop where
  | letter (before after : List Char) (c d : Char) (same : c.toLower = d.toLower) :
    Retouched (before ++ c :: after) (before ++ d :: after)
  | mark (before after : List Char) (c : Char) (isMark : c = '_' ∨ c = '-')
    (inside : ¬ EndsWord before.reverse ∨ ¬ EndsWord after) :
    Retouched (before ++ after) (before ++ c :: after)
  | blank (before after : List Char) (c : Char) (isBlank : isSeparator c = true)
    (between : EndsWord before.reverse ∨ EndsWord after) :
    Retouched (before ++ after) (before ++ c :: after)

theorem bare_append (first second : List Char) :
    bare (first ++ second) = bare first ++ bare second := by
  rw [bare, List.filter_append, List.map_append, bare, bare]

theorem bare_reverse (word : List Char) : bare word.reverse = (bare word).reverse := by
  rw [bare, List.filter_reverse, List.map_reverse, bare]

theorem bare_cons (c : Char) (word : List Char) : bare (c :: word) = bare [c] ++ bare word :=
  bare_append [c] word

theorem bare_mark (c : Char) (isMark : c = '_' ∨ c = '-') : bare [c] = [] := by
  rcases isMark with rfl | rfl <;> rfl

theorem bare_letter (c d : Char) (same : c.toLower = d.toLower) : bare [c] = bare [d] := by
  rcases Text.eq_or_isAlpha c d same with rfl | ⟨alpha, alphaToo⟩
  · rfl
  · have kept (x : Char) (alpha : x.isAlpha = true) : bare [x] = [x.toLower] := by
      have noUnderscore : x ≠ '_' := by
        rintro rfl
        cases alpha
      have noHyphen : x ≠ '-' := by
        rintro rfl
        cases alpha
      simp [bare, noUnderscore, noHyphen]
    rw [kept c alpha, kept d alphaToo, same]

theorem isKeywordChar_congr (c d : Char) (same : c.toLower = d.toLower) :
    c = d ∨ (isKeywordChar c = true ∧ isKeywordChar d = true) := by
  rcases Text.eq_or_isAlpha c d same with equal | ⟨alpha, alphaToo⟩
  · exact Or.inl equal
  · exact Or.inr ⟨(Text.letter_classes c alpha).2.2, (Text.letter_classes d alphaToo).2.2⟩

theorem lower_normalize_congr (first second : String)
    (same : bare first.toList = bare second.toList) :
    Text.lower (normalizeKeyword first) = Text.lower (normalizeKeyword second) := by
  rw [Text.lower, Text.lower, normalizeKeyword, normalizeKeyword, String.toList_ofList,
    String.toList_ofList, Text.lowerFrom_congr false _ _ same]

theorem alike_of_outline (t u : Token) (same : t.outline = u.outline) : t.Alike u where
  kind := congrArg Prod.fst same
  keyword _ := lower_normalize_congr _ _ (congrArg Prod.snd same)

theorem forall_alike_of_outline (tokens others : List Token)
    (same : tokens.map outline = others.map outline) : List.Forall₂ Alike tokens others := by
  induction tokens generalizing others with
  | nil => rw [List.map_eq_nil_iff.mp same.symm]; exact .nil
  | cons t tokens ih =>
      obtain ⟨u, others, rfl, here, later⟩ := List.map_eq_cons_iff.mp same.symm
      exact .cons (alike_of_outline t u here.symm) (ih others later.symm)

/-- Where the scan stands, as far as outlines show it. -/
structure SameOutline (word word' : List Char) (found found' : List Token) : Prop where
  begun : word.isEmpty = word'.isEmpty
  word : bare word = bare word'
  found : found.map outline = found'.map outline

section Scan

variable {position position' : Nat} {word word' : List Char} {found found' : List Token}

theorem SameOutline.flush (same : SameOutline word word' found found') :
    (flush position word found).map outline = (flush position' word' found').map outline := by
  rw [Token.flush, Token.flush, same.begun]
  split
  · exact same.found
  · simp only [List.map_cons, outline, String.toList_ofList, bare_reverse, same.word, same.found]

theorem SameOutline.scan (rest : List Char) (same : SameOutline word word' found found') :
    (scan position word found rest).map outline =
      (scan position' word' found' rest).map outline := by
  induction rest generalizing position position' word word' found found' with
  | nil =>
      rw [Token.scan, Token.scan, List.map_reverse, List.map_reverse, same.flush]
  | cons c rest ih =>
      cases symbol : symbolKind? c with
      | some kind =>
          rw [scan_symbol _ _ _ _ c kind symbol, scan_symbol _ _ _ _ c kind symbol]
          apply ih
          refine ⟨rfl, rfl, ?_⟩
          rw [List.map_cons, List.map_cons, same.flush]
          rfl
      | none =>
          by_cases separator : isSeparator c = true
          · rw [scan_separator _ _ _ _ c symbol separator,
              scan_separator _ _ _ _ c symbol separator]
            exact ih ⟨rfl, rfl, same.flush⟩
          · have letter : isKeywordChar c = true := by simp [isKeywordChar, symbol, separator]
            rw [scan_letter _ _ _ _ c letter, scan_letter _ _ _ _ c letter]
            refine ih ⟨rfl, ?_, same.found⟩
            rw [bare_cons, same.word, ← bare_cons]

end Scan

theorem scan_before (before : List Char) :
    ∃ position word found, (word.isEmpty = true ↔ EndsWord before.reverse) ∧
      ∀ rest, scan 0 [] [] (before ++ rest) = scan position word found rest := by
  induction before using List.reverseRecOn with
  | nil => exact ⟨0, [], [], by simp [EndsWord], fun rest => rfl⟩
  | append_singleton before c ih =>
      obtain ⟨position, word, found, _, step⟩ := ih
      have split (rest : List Char) : before ++ [c] ++ rest = before ++ c :: rest := by simp
      have ends : EndsWord (c :: before.reverse) ↔ isKeywordChar c = false := Iff.rfl
      cases symbol : symbolKind? c with
      | some kind =>
          refine ⟨position + 1, [],
            ⟨kind, String.singleton c, position⟩ :: flush position word found, ?_, fun rest => ?_⟩
          · simp [ends, isKeywordChar, symbol]
          · rw [split, step, scan_symbol _ _ _ _ c kind symbol]
      | none =>
          by_cases separator : isSeparator c = true
          · refine ⟨position + 1, [], flush position word found, ?_, fun rest => ?_⟩
            · simp [ends, isKeywordChar, symbol, separator]
            · rw [split, step, scan_separator _ _ _ _ c symbol separator]
          · have letter : isKeywordChar c = true := by simp [isKeywordChar, symbol, separator]
            refine ⟨position + 1, c :: word, found, ?_, fun rest => ?_⟩
            · simp [ends, letter]
            · rw [split, step, scan_letter _ _ _ _ c letter]

theorem Retouched.outline {first second : List Char} (change : Retouched first second) :
    (scan 0 [] [] first).map Token.outline = (scan 0 [] [] second).map Token.outline := by
  cases change with
  | letter before after c d same =>
      obtain ⟨position, word, found, _, step⟩ := scan_before before
      rcases isKeywordChar_congr c d same with rfl | ⟨letter, letterToo⟩
      · rfl
      · rw [step, step, scan_letter _ _ _ _ c letter, scan_letter _ _ _ _ d letterToo]
        apply SameOutline.scan
        exact ⟨rfl, by rw [bare_cons, bare_letter c d same, ← bare_cons], rfl⟩
  | mark before after c isMark inside =>
      obtain ⟨position, word, found, begun, step⟩ := scan_before before
      have letter : isKeywordChar c = true := by rcases isMark with rfl | rfl <;> rfl
      have same : bare word = bare (c :: word) := by rw [bare_cons, bare_mark c isMark]; rfl
      rw [step, step, scan_letter _ _ _ _ c letter]
      rcases inside with behind | ahead
      · -- The mark goes on with a word that is under way.
        apply SameOutline.scan
        refine ⟨?_, same, rfl⟩
        rw [← begun, Bool.not_eq_true] at behind
        rw [behind]
        rfl
      · -- The mark comes before the first character of a word, or before a later one.
        cases after with
        | nil => exact absurd trivial ahead
        | cons d after =>
            have letterToo : isKeywordChar d = true := by simpa [EndsWord] using ahead
            rw [scan_letter _ _ _ _ d letterToo, scan_letter _ _ _ _ d letterToo]
            apply SameOutline.scan
            exact ⟨rfl, by rw [bare_cons, same, ← bare_cons], rfl⟩
  | blank before after c isBlank between =>
      obtain ⟨position, word, found, begun, step⟩ := scan_before before
      have symbol : symbolKind? c = none := by
        simp only [isSeparator, Bool.or_eq_true, decide_eq_true_eq] at isBlank
        rcases isBlank with (rfl | rfl) | rfl <;> rfl
      rw [step, step, scan_separator _ _ _ _ c symbol isBlank]
      have ended : scan position word found after =
          scan position [] (flush position word found) after := by
        rcases between with behind | ahead
        · rw [← begun, List.isEmpty_iff] at behind
          rw [behind, flush_nil]
        · exact scan_flush _ _ _ _ ahead
      rw [ended]
      exact SameOutline.scan _ ⟨rfl, rfl, rfl⟩

theorem outline_of_retouched {first second : List Char}
    (changes : Relation.EqvGen Retouched first second) :
    (scan 0 [] [] first).map outline = (scan 0 [] [] second).map outline := by
  induction changes with
  | rel _ _ change => exact change.outline
  | refl _ => rfl
  | symm _ _ _ ih => exact ih.symm
  | trans _ _ _ _ _ here later => exact here.trans later

theorem forall_paired (tokens others : List Token) (alike : List.Forall₂ Alike tokens others) :
    List.Forall₂ (fun t u => ∃ i : Nat, tokens[i]? = some t ∧ others[i]? = some u ∧ t.Alike u)
      tokens others := by
  induction alike with
  | nil => exact .nil
  | cons here _ ih =>
      refine .cons ⟨0, rfl, rfl, here⟩ (ih.imp ?_)
      rintro t u ⟨i, first, second, same⟩
      exact ⟨i + 1, first, second, same⟩

end Token

/-- Readings of `e` and `f` that differ only in the expression and the tokens that errors cite. -/
inductive ReadAlike (e f : String) : Except CompileError (Option (Chord σ)) →
    Except CompileError (Option (Chord σ)) → Prop where
  | read (t : Option (Chord σ)) : ReadAlike e f (.ok t) (.ok t)
  | malformed : ReadAlike e f (.error (.rejected ⟨.malformed, e, none, none⟩))
      (.error (.rejected ⟨.malformed, f, none, none⟩))
  | blamed (reason : ParseError.Reason) (i : Nat) (t u : Token)
    (first : (Token.tokenize e)[i]? = some t) (second : (Token.tokenize f)[i]? = some u) :
    ReadAlike e f (.error (.rejected (.blame reason e t))) (.error (.rejected (.blame reason f u)))

theorem rejected_of_parse (e : String) (err : CompileError)
    (stopped : (parse e : Except CompileError (Option (Chord σ))) = .error err) :
    ∃ reason, err = .rejected reason := by
  rcases Token.parentheses_cases (Token.tokenize e) with tooMany | ⟨level, notClosed⟩ | balanced
  · obtain ⟨_, _, _, _, _, _, rejected⟩ := Token.reorder_unopened e _ tooMany
    rw [parse_of_rejected e _ rejected] at stopped
    cases stopped
    exact ⟨_, rfl⟩
  · obtain ⟨_, _, _, _, _, _, _, rejected⟩ := Token.reorder_unclosed e _ level notClosed
    rw [parse_of_rejected e _ rejected] at stopped
    cases stopped
    exact ⟨_, rfl⟩
  · have builds := builds_parse (σ := σ) e balanced
    rw [stopped] at builds
    cases builds <;> exact ⟨_, rfl⟩

theorem readAlike_of_alike (e f : String)
    (alike : List.Forall₂ Token.Alike (Token.tokenize e) (Token.tokenize f)) :
    ReadAlike e f (parse e : Except CompileError (Option (Chord σ))) (parse f) := by
  have lockstep := Token.compile_lockstep (σ := σ) (fun t u ⟨_, _, _, same⟩ => same) e f
    (Token.forall_paired _ _ alike)
  have outside := rejected_of_parse (σ := σ) e
  rw [← parse_eq_compile, ← parse_eq_compile] at lockstep
  generalize (parse e : Except CompileError (Option (Chord σ))) = outcome at lockstep outside ⊢
  generalize (parse f : Except CompileError (Option (Chord σ))) = other at lockstep ⊢
  cases lockstep with
  | @ok t _ same => cases same; exact .read t
  | blamed reason paired =>
      obtain ⟨i, first, second, _⟩ := paired
      exact .blamed reason i _ _ first second
  | malformed => exact .malformed
  | @internal err _ never =>
      obtain ⟨reason, rejected⟩ := outside err rfl
      exact absurd rejected (never reason)

/-- Parsing looks at kinds and at bare keywords only, so changes in the writing are lost on it. -/
theorem parse_respelled :
    (∀ e f : String, List.Forall₂ Token.Alike (Token.tokenize e) (Token.tokenize f) →
      ReadAlike e f (parse e : Except CompileError (Option (Chord σ))) (parse f)) ∧
    ∀ e f : String, Relation.EqvGen Token.Retouched e.toList f.toList →
      ReadAlike e f (parse e : Except CompileError (Option (Chord σ))) (parse f) := by
  refine ⟨readAlike_of_alike, fun e f changes => readAlike_of_alike e f ?_⟩
  exact Token.forall_alike_of_outline _ _ (Token.outline_of_retouched changes)

/-- One change of each kind, and the sign that lacks an operand is blamed where it stands then. -/
theorem parse_respelled_sign :
    List.Forall₂ Token.Alike (Token.tokenize "A+") (Token.tokenize "-a +") ∧
    Relation.EqvGen Token.Retouched "A+".toList "-a +".toList ∧
    ReadAlike "A+" "-a +" (parse "A+" : Except CompileError (Option (Chord Empty)))
      (parse "-a +") ∧
    (parse "-a +" : Except CompileError (Option (Chord Empty))) =
      .error (.rejected ⟨.unexpectedOperator, "-a +", some "+", some 3⟩) := by
  have lexed : Token.tokenize "A+" = [⟨.keyword, "A", 0⟩, ⟨.join .and, "+", 1⟩] := by
    decide +kernel
  have lexedToo : Token.tokenize "-a +" = [⟨.keyword, "-a", 0⟩, ⟨.join .and, "+", 3⟩] := by
    decide +kernel
  have alike : List.Forall₂ Token.Alike (Token.tokenize "A+") (Token.tokenize "-a +") := by
    rw [lexed, lexedToo]
    exact .cons ⟨rfl, fun _ => by decide +kernel⟩ (.cons ⟨rfl, nofun⟩ .nil)
  have changes : Relation.EqvGen Token.Retouched "A+".toList "-a +".toList := by
    have chars : "A+".toList = ['A', '+'] := by decide +kernel
    have charsToo : "-a +".toList = ['-', 'a', ' ', '+'] := by decide +kernel
    rw [chars, charsToo]
    have letter : Token.Retouched ['A', '+'] ['a', '+'] := .letter [] ['+'] 'A' 'a' rfl
    have mark : Token.Retouched ['a', '+'] ['-', 'a', '+'] :=
      .mark [] ['a', '+'] '-' (Or.inr rfl)
        (Or.inr (show ¬ Token.isKeywordChar 'a' = false by decide))
    have blank : Token.Retouched ['-', 'a', '+'] ['-', 'a', ' ', '+'] :=
      .blank ['-', 'a'] ['+'] ' ' rfl (Or.inr rfl)
    exact .trans _ _ _ (.trans _ _ _ (.rel _ _ letter) (.rel _ _ mark)) (.rel _ _ blank)
  have parsed : (parse "A+" : Except CompileError (Option (Chord Empty))) =
      .error (.rejected ⟨.unexpectedOperator, "A+", some "+", some 1⟩) := by
    have known : resolveAtom "A" = some (.key (.letter 0)) := resolveAtom_key (.letter 0)
    have ordered : Token.reorder "A+" (Token.tokenize "A+") =
        .ok [⟨.keyword, "A", 0⟩, ⟨.join .and, "+", 1⟩] := by
      rw [lexed]
      rfl
    rw [parse_of_reorder _ _ ordered, Token.build_of_ne_nil _ _ (List.cons_ne_nil _ _),
      Token.reduceAll_known _ _ _ ⟨.keyword, "A", 0⟩ rfl _ known]
    rfl
  have byChanges := (parse_respelled (σ := Empty)).2 "A+" "-a +" changes
  refine ⟨alike, changes, byChanges, ?_⟩
  have byTokens := (parse_respelled (σ := Empty)).1 "A+" "-a +" alike
  generalize (parse "-a +" : Except CompileError (Option (Chord Empty))) = outcome at byTokens
  generalize (parse "A+" : Except CompileError (Option (Chord Empty))) = first
    at parsed byTokens
  cases byTokens with
  | read t => cases parsed
  | malformed => simp at parsed
  | blamed reason i t u here there =>
      simp only [ParseError.blame, Except.error.injEq, CompileError.rejected.injEq,
        ParseError.mk.injEq, Option.some.injEq] at parsed
      obtain ⟨rfl, _, sign, _⟩ := parsed
      rw [lexed] at here
      rw [lexedToo] at there
      rcases i with _ | _ | i
      · cases here
        exact absurd sign (by decide)
      · cases there
        rfl
      · cases here

end InputChords
