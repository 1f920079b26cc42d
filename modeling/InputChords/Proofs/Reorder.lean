import InputChords.Token.Polish

/-! What one token does to the waiting operators and to the output, and what the output is made
of. -/

namespace InputChords

def Connective.level : Connective → Nat
  | .or => 2
  | .and => 3

namespace Token

theorem Kind.priority_join (c : Connective) : (Kind.join c).priority = .ok c.level := by
  cases c <;> rfl

/-- Nothing that waits is released by an operator of this priority. -/
def Looser (level : Nat) : List Token → Prop
  | [] => True
  | top :: _ => ∃ priority, top.kind.priority = .ok priority ∧ priority < level

/-- What follows releases every operator of this priority or a higher one. -/
def Releases (level : Nat) : List Token → Prop
  | [] => True
  | next :: _ => next.kind = .closing ∨ ∃ c : Connective, next.kind = .join c ∧ c.level ≤ level

theorem Looser.mono {low high : Nat} {waiting : List Token} (looser : Looser low waiting)
    (bound : low ≤ high) : Looser high waiting := by
  cases waiting with
  | nil => trivial
  | cons top waiting =>
      obtain ⟨priority, known, below⟩ := looser
      exact ⟨priority, known, Nat.lt_of_lt_of_le below bound⟩

theorem Releases.mono {low high : Nat} {rest : List Token} (releases : Releases low rest)
    (bound : low ≤ high) : Releases high rest := by
  cases rest with
  | nil => trivial
  | cons next rest =>
      rcases releases with closing | ⟨c, sign, below⟩
      · exact Or.inl closing
      · exact Or.inr ⟨c, sign, Nat.le_trans below bound⟩

theorem looser_opening (level : Nat) (token : Token) (waiting : List Token)
    (opening : token.kind = .opening) (above : 1 < level) : Looser level (token :: waiting) :=
  ⟨1, by rw [opening]; rfl, above⟩

theorem looser_join (level : Nat) (c : Connective) (token : Token) (waiting : List Token)
    (sign : token.kind = .join c) (above : c.level < level) : Looser level (token :: waiting) :=
  ⟨c.level, by rw [sign, Kind.priority_join], above⟩

theorem looser_not (level : Nat) (token : Token) (waiting : List Token) (sign : token.kind = .not)
    (above : 4 < level) : Looser level (token :: waiting) :=
  ⟨4, by rw [sign]; rfl, above⟩

theorem releaseTighter_looser (level : Nat) (output waiting : List Token)
    (looser : Looser level waiting) :
    releaseTighter level output waiting = .ok (waiting, output) := by
  cases waiting with
  | nil => rfl
  | cons top waiting =>
      obtain ⟨priority, known, below⟩ := looser
      have stays : ¬ level ≤ priority := by omega
      simp only [releaseTighter, known, bind, Except.bind, stays, if_false]
      rfl

theorem releaseTighter_tighter (level priority : Nat) (output waiting : List Token) (top : Token)
    (known : top.kind.priority = .ok priority) (tighter : level ≤ priority) :
    releaseTighter level output (top :: waiting) =
      releaseTighter level (top :: output) waiting := by
  simp only [releaseTighter, known, bind, Except.bind, tighter, if_true]

section Step

variable (e : String) (waiting output rest : List Token) (token : Token)

theorem reorderFrom_keyword (keyword : token.kind = .keyword) :
    reorderFrom e waiting output (token :: rest) =
      reorderFrom e waiting (token :: output) rest := by
  simp only [reorderFrom, keyword]

theorem reorderFrom_opening (opening : token.kind = .opening) :
    reorderFrom e waiting output (token :: rest) =
      reorderFrom e (token :: waiting) output rest := by
  simp only [reorderFrom, opening]

theorem reorderFrom_closing (closing : token.kind = .closing) (outer released : List Token)
    (found : releaseGroup output waiting = some (outer, released)) :
    reorderFrom e waiting output (token :: rest) = reorderFrom e outer released rest := by
  simp only [reorderFrom, closing, found]

theorem reorderFrom_unopened (closing : token.kind = .closing)
    (missing : releaseGroup output waiting = none) :
    reorderFrom e waiting output (token :: rest) =
      .error (.rejected (.blame .unopened e token)) := by
  simp only [reorderFrom, closing, missing]

theorem reorderFrom_join (c : Connective) (sign : token.kind = .join c) :
    reorderFrom e waiting output (token :: rest) =
      (releaseTighter c.level output waiting).bind fun (waiting, output) =>
        reorderFrom e (token :: waiting) output rest := by
  simp only [reorderFrom, sign, Kind.priority_join]
  rfl

theorem reorderFrom_not (sign : token.kind = .not) :
    reorderFrom e waiting output (token :: rest) =
      (releaseTighter 4 output waiting).bind fun (waiting, output) =>
        reorderFrom e (token :: waiting) output rest := by
  simp only [reorderFrom, sign]
  rfl

theorem reorderFrom_push_join (c : Connective) (sign : token.kind = .join c)
    (looser : Looser c.level waiting) :
    reorderFrom e waiting output (token :: rest) =
      reorderFrom e (token :: waiting) output rest := by
  rw [reorderFrom_join _ _ _ _ _ c sign, releaseTighter_looser _ _ _ looser]
  rfl

theorem reorderFrom_push_not (sign : token.kind = .not) (looser : Looser 4 waiting) :
    reorderFrom e waiting output (token :: rest) =
      reorderFrom e (token :: waiting) output rest := by
  rw [reorderFrom_not _ _ _ _ _ sign, releaseTighter_looser _ _ _ looser]
  rfl

end Step

theorem reorderFrom_release (e : String) (waiting output rest : List Token) (operator : Token)
    (level priority : Nat) (isOperator : operator.kind ≠ .opening)
    (known : operator.kind.priority = .ok priority) (tighter : level ≤ priority)
    (releases : Releases level rest) :
    reorderFrom e (operator :: waiting) output rest =
      reorderFrom e waiting (operator :: output) rest := by
  cases rest with
  | nil => simp only [reorderFrom, releaseAll, isOperator, if_false]
  | cons next rest =>
      rcases releases with closing | ⟨c, sign, below⟩
      · simp only [reorderFrom, closing, releaseGroup, isOperator, if_false]
      · rw [reorderFrom_join _ _ _ _ _ c sign, reorderFrom_join _ _ _ _ _ c sign,
          releaseTighter_tighter _ _ _ _ _ known (Nat.le_trans below tighter)]

def Waits (t : Token) : Prop := t.kind = .opening ∨ t.kind.isOperator = true

theorem Kind.sorts (kind : Kind) :
    kind = .keyword ∨ kind = .opening ∨ kind = .closing ∨ kind.isOperator = true := by
  cases kind <;> simp [isOperator]

theorem Kind.ne_opening_of_operator {kind : Kind} (operator : kind.isOperator = true) :
    kind ≠ .opening := by
  rintro rfl
  cases operator

theorem Waits.priority {t : Token} (waits : t.Waits) :
    ∃ priority, t.kind.priority = .ok priority ∧ (1 < priority → t.kind.isOperator = true) := by
  rcases waits with opening | operator
  · rw [opening]
    exact ⟨1, rfl, fun above => absurd above (Nat.lt_irrefl 1)⟩
  · cases kind : t.kind with
    | join c => exact ⟨c.level, Kind.priority_join c, fun _ => rfl⟩
    | not => exact ⟨4, rfl, fun _ => rfl⟩
    | opening => rw [kind] at operator; cases operator
    | closing => rw [kind] at operator; cases operator
    | keyword => rw [kind] at operator; cases operator

/-- Only operators are released, the last one first, and what is below a boundary does not
matter. -/
theorem releaseTighter_split (level : Nat) (waiting : List Token) (above : 1 < level)
    (waits : ∀ t ∈ waiting, t.Waits) :
    ∃ released left, waiting = released ++ left ∧ (∀ t ∈ released, t.kind.isOperator = true) ∧
      ∀ below output, Looser level below → releaseTighter level output (waiting ++ below) =
        .ok (left ++ below, released.reverse ++ output) := by
  induction waiting with
  | nil =>
      exact ⟨[], [], rfl, by simp, fun below output looser => releaseTighter_looser _ _ _ looser⟩
  | cons top waiting ih =>
      obtain ⟨here, later⟩ := List.forall_mem_cons.mp waits
      obtain ⟨priority, known, operator⟩ := here.priority
      by_cases tighter : level ≤ priority
      · obtain ⟨released, left, split, operators, done⟩ := ih later
        refine ⟨top :: released, left, by rw [split, List.cons_append], ?_, ?_⟩
        · exact List.forall_mem_cons.mpr ⟨operator (Nat.lt_of_lt_of_le above tighter), operators⟩
        · intro below output looser
          rw [List.cons_append, releaseTighter_tighter _ _ _ _ _ known tighter,
            done below _ looser, List.reverse_cons, List.append_assoc]
          rfl
      · have looser (below : List Token) : Looser level (top :: waiting ++ below) :=
          ⟨priority, known, Nat.lt_of_not_le tighter⟩
        exact ⟨[], top :: waiting, rfl, by simp,
          fun below output _ => releaseTighter_looser _ _ _ (looser below)⟩

theorem waiting_split (waiting : List Token) (waits : ∀ t ∈ waiting, t.Waits) :
    (∀ t ∈ waiting, t.kind.isOperator = true) ∨
      ∃ released opening outer, waiting = released ++ opening :: outer ∧
        (∀ t ∈ released, t.kind.isOperator = true) ∧ opening.kind = .opening := by
  induction waiting with
  | nil => exact Or.inl (by simp)
  | cons top waiting ih =>
      obtain ⟨here, later⟩ := List.forall_mem_cons.mp waits
      rcases here with opening | operator
      · exact Or.inr ⟨[], top, waiting, rfl, by simp, opening⟩
      · rcases ih later with operators | ⟨released, opening, outer, split, operators, kind⟩
        · exact Or.inl (List.forall_mem_cons.mpr ⟨operator, operators⟩)
        · refine Or.inr ⟨top :: released, opening, outer, by rw [split, List.cons_append], ?_, kind⟩
          exact List.forall_mem_cons.mpr ⟨operator, operators⟩

section Released

variable (e : String) (output waiting rest : List Token) (token : Token)

theorem releaseGroup_operators (released : List Token)
    (operators : ∀ t ∈ released, t.kind.isOperator = true) :
    releaseGroup output (released ++ waiting) =
      releaseGroup (released.reverse ++ output) waiting := by
  induction released generalizing output with
  | nil => rfl
  | cons top released ih =>
      obtain ⟨here, later⟩ := List.forall_mem_cons.mp operators
      rw [List.cons_append, releaseGroup, if_neg (Kind.ne_opening_of_operator here), ih _ later,
        List.reverse_cons, List.append_assoc]
      rfl

theorem releaseAll_operators (released : List Token)
    (operators : ∀ t ∈ released, t.kind.isOperator = true) :
    releaseAll e output (released ++ waiting) =
      releaseAll e (released.reverse ++ output) waiting := by
  induction released generalizing output with
  | nil => rfl
  | cons top released ih =>
      obtain ⟨here, later⟩ := List.forall_mem_cons.mp operators
      rw [List.cons_append, releaseAll, if_neg (Kind.ne_opening_of_operator here), ih _ later,
        List.reverse_cons, List.append_assoc]
      rfl

theorem reorderFrom_operator_above (operator : token.kind.isOperator = true)
    (waits : ∀ t ∈ waiting, t.Waits) :
    ∃ released left, waiting = released ++ left ∧ (∀ t ∈ released, t.kind.isOperator = true) ∧
      ∀ below output rest, Looser 2 below →
        reorderFrom e (waiting ++ below) output (token :: rest) =
          reorderFrom e (token :: (left ++ below)) (released.reverse ++ output) rest := by
  have step : ∃ level, 2 ≤ level ∧ ∀ waiting output rest,
      reorderFrom e waiting output (token :: rest) =
        (releaseTighter level output waiting).bind fun (waiting, output) =>
          reorderFrom e (token :: waiting) output rest := by
    cases kind : token.kind with
    | join c =>
        exact ⟨c.level, by cases c <;> decide, fun _ _ _ => reorderFrom_join _ _ _ _ _ c kind⟩
    | not => exact ⟨4, by decide, fun _ _ _ => reorderFrom_not _ _ _ _ _ kind⟩
    | opening => rw [kind] at operator; cases operator
    | closing => rw [kind] at operator; cases operator
    | keyword => rw [kind] at operator; cases operator
  obtain ⟨level, above, step⟩ := step
  obtain ⟨released, left, split, operators, done⟩ := releaseTighter_split level waiting above waits
  refine ⟨released, left, split, operators, fun below output rest looser => ?_⟩
  rw [step, done below output (looser.mono above)]
  rfl

theorem reorderFrom_operator (operator : token.kind.isOperator = true)
    (waits : ∀ t ∈ waiting, t.Waits) :
    ∃ released left, waiting = released ++ left ∧ (∀ t ∈ released, t.kind.isOperator = true) ∧
      reorderFrom e waiting output (token :: rest) =
        reorderFrom e (token :: left) (released.reverse ++ output) rest := by
  obtain ⟨released, left, split, operators, step⟩ :=
    reorderFrom_operator_above e waiting token operator waits
  have bottom := step [] output rest trivial
  rw [List.append_nil, List.append_nil] at bottom
  exact ⟨released, left, split, operators, bottom⟩

theorem reorderFrom_close (isClosing : token.kind = .closing) (waits : ∀ t ∈ waiting, t.Waits) :
    ((∀ t ∈ waiting, t.kind.isOperator = true) ∧ reorderFrom e waiting output (token :: rest) =
      .error (.rejected (.blame .unopened e token))) ∨
    ∃ released opening outer, waiting = released ++ opening :: outer ∧
      (∀ t ∈ released, t.kind.isOperator = true) ∧ opening.kind = .opening ∧
      reorderFrom e waiting output (token :: rest) =
        reorderFrom e outer (released.reverse ++ output) rest := by
  rcases waiting_split waiting waits with operators |
    ⟨released, opening, outer, rfl, operators, isOpening⟩
  · have missing := releaseGroup_operators output [] waiting operators
    rw [List.append_nil] at missing
    exact Or.inl ⟨operators, reorderFrom_unopened _ _ _ _ _ isClosing missing⟩
  · have found := releaseGroup_operators output (opening :: outer) released operators
    rw [releaseGroup, if_pos isOpening] at found
    exact Or.inr ⟨released, opening, outer, rfl, operators, isOpening,
      reorderFrom_closing _ _ _ _ _ isClosing _ _ found⟩

theorem reorderFrom_end (waits : ∀ t ∈ waiting, t.Waits) :
    ((∀ t ∈ waiting, t.kind.isOperator = true) ∧
      reorderFrom e waiting output [] = .ok (output.reverse ++ waiting)) ∨
    ∃ released opening outer, waiting = released ++ opening :: outer ∧
      (∀ t ∈ released, t.kind.isOperator = true) ∧ opening.kind = .opening ∧
      reorderFrom e waiting output [] = .error (.rejected (.blame .unclosed e opening)) := by
  rw [reorderFrom]
  rcases waiting_split waiting waits with operators |
    ⟨released, opening, outer, rfl, operators, isOpening⟩
  · have all := releaseAll_operators e output [] waiting operators
    rw [List.append_nil, releaseAll, List.reverse_append, List.reverse_reverse] at all
    exact Or.inl ⟨operators, all⟩
  · have stopped := releaseAll_operators e output (opening :: outer) released operators
    rw [releaseAll, if_pos isOpening] at stopped
    exact Or.inr ⟨released, opening, outer, rfl, operators, isOpening, stopped⟩

end Released

def isParenthesis (t : Token) : Bool := t.kind == .opening || t.kind == .closing

theorem plain_of_operator {t : Token} (operator : t.kind.isOperator = true) :
    t.isParenthesis = false := by
  cases kind : t.kind <;> simp_all [isParenthesis, Kind.isOperator]

def proper (tokens : List Token) : List Token := tokens.filter (!·.isParenthesis)

theorem proper_operators (released left : List Token)
    (operators : ∀ t ∈ released, t.kind.isOperator = true) :
    proper (released ++ left) = released ++ proper left := by
  have all : released.filter (!·.isParenthesis) = released := by
    apply List.filter_eq_self.mpr
    intro t member
    simp [plain_of_operator (operators t member)]
  rw [proper, List.filter_append, all, proper]

theorem proper_plain (token : Token) (rest : List Token) (plain : token.isParenthesis = false) :
    proper (token :: rest) = token :: proper rest :=
  List.filter_cons_of_pos (by simp [plain])

theorem proper_parenthesis (token : Token) (rest : List Token)
    (parenthesis : token.isParenthesis = true) : proper (token :: rest) = proper rest :=
  List.filter_cons_of_neg (by simp [parenthesis])

theorem proper_append (first second : List Token) :
    proper (first ++ second) = proper first ++ proper second :=
  List.filter_append ..

def keywords (tokens : List Token) : List Token := tokens.filter (·.kind = .keyword)

section Keywords

variable (token : Token) (first second : List Token)

theorem keywords_append : keywords (first ++ second) = keywords first ++ keywords second :=
  List.filter_append ..

theorem keywords_cons (isName : token.kind = .keyword) :
    keywords (token :: first) = token :: keywords first :=
  List.filter_cons_of_pos (by simp [isName])

theorem keywords_other (isOther : token.kind ≠ .keyword) :
    keywords (token :: first) = keywords first :=
  List.filter_cons_of_neg (by simp [isOther])

theorem keywords_operators (operators : ∀ t ∈ first, t.kind.isOperator = true) :
    keywords first = [] := by
  apply List.filter_eq_nil_iff.mpr
  intro t member isName
  have operator := operators t member
  rw [of_decide_eq_true isName] at operator
  cases operator

end Keywords

/-- The tokens put out some of themselves and of those that wait, and leave the others waiting,
whatever the output and the rest are. -/
structure Puts (e : String) (waiting tokens out left : List Token) : Prop where
  waits : ∀ t ∈ left, t.Waits
  kept : (out ++ proper left).Perm (proper waiting ++ proper tokens)
  named : keywords out = keywords tokens
  runs : ∀ output rest, reorderFrom e waiting output (tokens ++ rest) =
    reorderFrom e left (out.reverse ++ output) rest

theorem Puts.append {e : String} {waiting first second out out' left left' : List Token}
    (here : Puts e waiting first out left) (later : Puts e left second out' left') :
    Puts e waiting (first ++ second) (out ++ out') left' where
  waits := later.waits
  kept := by
    rw [proper_append, List.append_assoc, ← List.append_assoc (proper waiting)]
    calc
      (out ++ (out' ++ proper left')).Perm (out ++ (proper left ++ proper second)) :=
        later.kept.append_left out
      _ = out ++ proper left ++ proper second := (List.append_assoc ..).symm
      (out ++ proper left ++ proper second).Perm _ := here.kept.append_right (proper second)
  named := by rw [keywords_append, keywords_append, here.named, later.named]
  runs output rest := by
    rw [List.append_assoc, here.runs, later.runs, List.reverse_append, List.append_assoc]

theorem reorderFrom_step (e : String) (waiting : List Token) (token : Token)
    (waits : ∀ t ∈ waiting, t.Waits) :
    (∀ output rest, reorderFrom e waiting output (token :: rest) =
      .error (.rejected (.blame .unopened e token))) ∨
    ∃ out left, Puts e waiting [token] out left := by
  rcases token.kind.sorts with isName | isOpening | isClosing | operator
  · have plain : token.isParenthesis = false := by simp [isParenthesis, isName]
    refine Or.inr ⟨[token], waiting, waits, ?_, rfl,
      fun _ _ => reorderFrom_keyword _ _ _ _ _ isName⟩
    rw [proper_plain token [] plain]
    exact List.perm_append_comm
  · have dropped : token.isParenthesis = true := by simp [isParenthesis, isOpening]
    refine Or.inr ⟨[], token :: waiting, List.forall_mem_cons.mpr ⟨Or.inl isOpening, waits⟩, ?_,
      (keywords_other token [] (by simp [isOpening])).symm,
      fun _ _ => reorderFrom_opening _ _ _ _ _ isOpening⟩
    rw [proper_parenthesis _ _ dropped, proper_parenthesis _ _ dropped]
    simp [proper]
  · have dropped : token.isParenthesis = true := by simp [isParenthesis, isClosing]
    rcases waiting_split waiting waits with operators |
      ⟨released, opening, outer, rfl, operators, isOpening⟩
    · refine Or.inl fun output rest => reorderFrom_unopened _ _ _ _ _ isClosing ?_
      have missing := releaseGroup_operators output [] waiting operators
      rwa [List.append_nil] at missing
    · have droppedToo : opening.isParenthesis = true := by simp [isParenthesis, isOpening]
      refine Or.inr ⟨released, outer, fun t member => waits t (by simp [member]), ?_, ?_, ?_⟩
      · rw [proper_parenthesis _ _ dropped, proper_operators _ _ operators,
          proper_parenthesis _ _ droppedToo]
        simp [proper]
      · rw [keywords_operators _ operators, keywords_other token [] (by simp [isClosing])]
        rfl
      · intro output rest
        have found := releaseGroup_operators output (opening :: outer) released operators
        rw [releaseGroup, if_pos isOpening] at found
        exact reorderFrom_closing _ _ _ _ _ isClosing _ _ found
  · obtain ⟨released, kept, rfl, operators, step⟩ :=
      reorderFrom_operator_above e waiting token operator waits
    refine Or.inr ⟨released, token :: kept, ?_, ?_, ?_, ?_⟩
    · exact List.forall_mem_cons.mpr ⟨Or.inr operator, fun t member => waits t (by simp [member])⟩
    · have plain := plain_of_operator operator
      rw [proper_plain _ _ plain, proper_plain _ _ plain, proper_operators _ _ operators,
        List.append_assoc]
      exact (List.perm_append_singleton token (proper kept)).symm.append_left released
    · rw [keywords_operators _ operators, keywords_operators [token] (by simpa using operator)]
    · intro output rest
      have bottom := step [] output rest trivial
      rwa [List.append_nil, List.append_nil] at bottom

theorem reorderFrom_prefix (e : String) (first waiting : List Token)
    (waits : ∀ t ∈ waiting, t.Waits) :
    (∃ err, ∀ output rest, reorderFrom e waiting output (first ++ rest) = .error err) ∨
    ∃ out left, Puts e waiting first out left := by
  induction first generalizing waiting with
  | nil => exact Or.inr ⟨[], waiting, waits, by simp [proper], rfl, fun _ _ => rfl⟩
  | cons token first ih =>
      rcases reorderFrom_step e waiting token waits with stopped | ⟨out, left, here⟩
      · exact Or.inl ⟨_, fun output rest => stopped output (first ++ rest)⟩
      · rcases ih left here.waits with ⟨err, stopped⟩ | ⟨out', left', later⟩
        · refine Or.inl ⟨err, fun output rest => ?_⟩
          rw [List.cons_append, ← List.singleton_append, here.runs, stopped]
        · exact Or.inr ⟨_, left', here.append later⟩

theorem puts_of_ok {e : String} {waiting output first rest polish : List Token}
    (waits : ∀ t ∈ waiting, t.Waits)
    (done : reorderFrom e waiting output (first ++ rest) = .ok polish) :
    ∃ out left, Puts e waiting first out left ∧
      reorderFrom e left (out.reverse ++ output) rest = .ok polish := by
  rcases reorderFrom_prefix e first waiting waits with ⟨err, stopped⟩ | ⟨out, left, puts⟩
  · rw [stopped] at done
    cases done
  · exact ⟨out, left, puts, (puts.runs output rest).symm.trans done⟩

theorem reorderFrom_rest (e : String) (waiting output tokens polish : List Token)
    (waits : ∀ t ∈ waiting, t.Waits) (done : reorderFrom e waiting output tokens = .ok polish) :
    ∃ late, polish = output.reverse ++ late ∧ late.Perm (proper waiting ++ proper tokens) ∧
      keywords late = keywords tokens := by
  rw [← List.append_nil tokens] at done
  obtain ⟨out, left, puts, done⟩ := puts_of_ok waits done
  rcases reorderFrom_end e (out.reverse ++ output) left puts.waits with ⟨operators, ended⟩ |
    ⟨_, _, _, _, _, _, stopped⟩
  · rw [ended] at done
    cases done
    have whole : proper left = left := by simpa [proper] using proper_operators left [] operators
    refine ⟨out ++ left, by simp, ?_, ?_⟩
    · have kept := puts.kept
      rwa [whole] at kept
    · rw [keywords_append, puts.named, keywords_operators left operators, List.append_nil]
  · rw [stopped] at done
    cases done

theorem reorderFrom_perm (e : String) (waiting output tokens polish : List Token)
    (waits : ∀ t ∈ waiting, t.Waits) (done : reorderFrom e waiting output tokens = .ok polish) :
    polish.Perm (output ++ (proper waiting ++ proper tokens)) := by
  obtain ⟨late, rfl, kept, _⟩ := reorderFrom_rest e waiting output tokens polish waits done
  exact output.reverse_perm.append kept

end Token

end InputChords
