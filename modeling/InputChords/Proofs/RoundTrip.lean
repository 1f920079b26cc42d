import InputChords.Proofs.Derivation
import InputChords.Proofs.Scan

/-! Chords that are written down are read back. The text of a chord is scanned into the tokens of a
phrase, whatever was found before it and as long as nothing is glued to its end. -/

namespace InputChords

variable {σ : Type}

namespace Atom

theorem names_letters (a : Atom) : ∀ name ∈ a.names, ∀ c ∈ name.toList,
    Token.isKeywordChar c = true := by
  have letters : (all.all fun b => b.names.all fun name => name.toList.all Token.isKeywordChar) =
      true := by decide +kernel
  intro name named
  have ofAtom := List.all_eq_true.mp letters a (mem_all a)
  have ofName := List.all_eq_true.mp ofAtom name named
  exact List.all_eq_true.mp ofName

end Atom

namespace Chord

def expand : Chord σ → Chord σ
  | atom a => ofAtom a
  | not t => not t.expand
  | join c l r => join c l.expand r.expand
  | stray v => stray v

def Elementary : Chord σ → Prop
  | atom a => a.isComposite = false
  | not t => t.Elementary
  | join _ l r => l.Elementary ∧ r.Elementary
  | stray _ => True

def isNot : Chord σ → Bool
  | not _ => true
  | _ => false

theorem expand_of_elementary (t : Chord σ) (elementary : t.Elementary) : t.expand = t := by
  induction t with
  | atom a =>
      have single : a.parts = none := by
        rw [Elementary, Atom.isComposite] at elementary
        exact Option.not_isSome_iff_eq_none.mp (by simp [elementary])
      rw [expand, ofAtom, single]
  | not t ih => rw [expand, ih elementary]
  | join c l r left right => rw [expand, left elementary.1, right elementary.2]
  | stray v => rfl

theorem ofAtom_elementary (a : Atom) : (ofAtom a : Chord σ).Elementary := by
  unfold ofAtom
  cases parts : a.parts with
  | none =>
      show a.isComposite = false
      rw [Atom.isComposite, parts]
      rfl
  | some both =>
      obtain ⟨first, second⟩ := both
      obtain ⟨left, right⟩ := Atom.parts_of_part parts
      constructor
      · show first.isComposite = false
        rw [Atom.isComposite, left]
        rfl
      · show second.isComposite = false
        rw [Atom.isComposite, right]
        rfl

theorem render_atom (a : Atom) : (atom a : Chord σ).render = .ok a.displayName := by
  rw [render, fold_eq_value, value]

theorem render_not (t : Chord σ) :
    (not t).render = t.render.bind fun text => .ok (renderNot t text) := by
  rw [render, render, fold_eq_value, fold_eq_value, value]
  rfl

theorem render_join (c : Connective) (l r : Chord σ) :
    (join c l r).render = l.render.bind fun left => r.render.bind fun right =>
      .ok ("(" ++ left ++ " " ++ Connective.symbol c ++ " " ++ right ++ ")") := by
  rw [render, render, render, fold_eq_value, fold_eq_value, fold_eq_value, value]
  rfl

theorem render_of_sound (t : Chord σ) (sound : t.Sound) : ∃ text, t.render = .ok text :=
  fold_of_sound _ sound

end Chord

namespace Grammar

/-- The text is scanned into the tokens of a phrase that is read as the chord. -/
def Reads (p : Part) (text : List Char) (t : Chord σ) : Prop :=
  ∀ position found rest, Token.EndsWord rest → ∃ d : Phrase p,
    Token.scan position [] found (text ++ rest) =
      Token.scan (position + text.length) [] (d.tokens.reverse ++ found) rest ∧ d.chord = .ok t

theorem reads_name (a : Atom) :
    Reads .operand a.displayName.toList (Chord.ofAtom a : Chord σ) := by
  intro position found rest ends
  have named := displayName_mem a
  refine ⟨.keyword ⟨.keyword, a.displayName, position⟩ rfl, ?_, ?_⟩
  · exact Token.scan_name position rest found _ (Atom.names_filled a _ named)
      (Atom.names_letters a _ named) ends
  · rw [Phrase.chord, Token.leaf, resolveAtom_displayName]

theorem Reads.plain {text : List Char} {t : Chord σ} (reads : Reads .operand text t) :
    Reads .term text t := by
  intro position found rest ends
  obtain ⟨d, scanned, reading⟩ := reads position found rest ends
  exact ⟨.plain d, scanned, reading⟩

theorem Reads.one {c : Connective} {text : List Char} {t : Chord σ}
    (reads : Reads (Part.item c) text t) : Reads (.run c) text t := by
  intro position found rest ends
  obtain ⟨d, scanned, reading⟩ := reads position found rest ends
  exact ⟨.one d, scanned, reading⟩

theorem Reads.ands {text : List Char} {t : Chord σ} (reads : Reads .term text t) :
    Reads (.run .and) text t :=
  Reads.one (c := .and) reads

theorem Reads.ors {text : List Char} {t : Chord σ} (reads : Reads (.run .and) text t) :
    Reads (.run .or) text t :=
  Reads.one (c := .or) reads

theorem Reads.negated {text : List Char} {t : Chord σ} (reads : Reads .operand text t) :
    Reads .term ('!' :: text) (.not t) := by
  intro position found rest ends
  let sign : Token := ⟨.not, "!", position⟩
  obtain ⟨d, scanned, reading⟩ := reads (position + 1) (sign :: found) rest ends
  refine ⟨.negated sign rfl d, ?_, ?_⟩
  · have width : position + ('!' :: text).length = position + 1 + text.length := by
      rw [List.length_cons]
      omega
    rw [List.cons_append, Token.scan_symbol _ _ _ _ '!' .not rfl, width, Phrase.tokens,
      List.reverse_cons, List.append_assoc]
    exact scanned
  · rw [Phrase.chord, reading]
    rfl

theorem Reads.group {text : List Char} {t : Chord σ} (reads : Reads (.run .or) text t) :
    Reads .operand ('(' :: (text ++ [')'])) t := by
  intro position found rest _
  let opening : Token := ⟨.opening, "(", position⟩
  let closing : Token := ⟨.closing, ")", (position + 1 + text.length : Nat)⟩
  have closes : Token.EndsWord (')' :: rest) := by rfl
  obtain ⟨d, scanned, reading⟩ := reads (position + 1) (opening :: found) (')' :: rest) closes
  refine ⟨.group opening rfl d closing rfl, ?_, reading⟩
  have width : position + ('(' :: (text ++ [')'])).length = position + 1 + text.length + 1 := by
    rw [List.length_cons, List.length_append, List.length_singleton]
    omega
  calc
    _ = Token.scan (position + 1) [] (opening :: found) (text ++ ')' :: rest) := by
      rw [List.cons_append, Token.scan_symbol _ _ _ _ '(' .opening rfl, List.append_assoc]
      rfl
    _ = Token.scan (position + 1 + text.length + 1) []
        (closing :: (d.tokens.reverse ++ opening :: found)) rest := by
      rw [scanned, Token.scan_symbol _ _ _ _ ')' .closing rfl]
      rfl
    _ = _ := by
      rw [width, Phrase.tokens, List.reverse_cons, List.reverse_append, List.append_assoc,
        List.append_assoc]
      rfl

def sign : Connective → Char
  | .and => '+'
  | .or => '|'

theorem symbolKind_sign (c : Connective) : Token.symbolKind? (sign c) = some (.join c) := by
  cases c <;> rfl

theorem Reads.join {c : Connective} {first second : List Char} {l r : Chord σ}
    (left : Reads (.run c) first l) (right : Reads (Part.item c) second r) :
    Reads (.run c) (first ++ ' ' :: sign c :: ' ' :: second) (.join c l r) := by
  intro position found rest ends
  let between : Nat := position + first.length + 1
  let token : Token := ⟨.join c, String.singleton (sign c), between⟩
  have blank : Token.EndsWord (' ' :: sign c :: ' ' :: (second ++ rest)) := by rfl
  obtain ⟨run, scannedRun, readingRun⟩ := left position found _ blank
  obtain ⟨next, scannedNext, readingNext⟩ :=
    right (between + 2) (token :: (run.tokens.reverse ++ found)) rest ends
  refine ⟨.more run token rfl next, ?_, ?_⟩
  · have width : position + (first ++ ' ' :: sign c :: ' ' :: second).length =
        between + 2 + second.length := by
      rw [List.length_append, List.length_cons, List.length_cons, List.length_cons]
      omega
    calc
      _ = Token.scan (position + first.length) [] (run.tokens.reverse ++ found)
          (' ' :: sign c :: ' ' :: (second ++ rest)) := by
        rw [List.append_assoc]
        exact scannedRun
      _ = Token.scan (between + 2) [] (token :: (run.tokens.reverse ++ found))
          (second ++ rest) := by
        rw [Token.scan_separator _ _ _ _ ' ' rfl rfl,
          Token.scan_symbol _ _ _ _ (sign c) (.join c) (symbolKind_sign c),
          Token.scan_separator _ _ _ _ ' ' rfl rfl]
        rfl
      _ = _ := by
        rw [scannedNext, width, Phrase.tokens, List.reverse_append, List.reverse_cons,
          List.append_assoc, List.append_assoc]
        rfl
  · rw [Phrase.chord, readingRun, readingNext]
    rfl

theorem renderNot_negated (t : Chord σ) (inner : String) (negated : t.isNot = true) :
    (Chord.renderNot t inner).toList = '!' :: '(' :: (inner.toList ++ [')']) := by
  cases t with
  | not t => simp [Chord.renderNot, String.toList_append]
  | atom a => cases negated
  | join c l r => cases negated
  | stray v => cases negated

theorem renderNot_plain (t : Chord σ) (inner : String) (plain : t.isNot = false) :
    (Chord.renderNot t inner).toList = '!' :: inner.toList := by
  cases t with
  | not t => cases plain
  | atom a => simp [Chord.renderNot, String.toList_append]
  | join c l r => simp [Chord.renderNot, String.toList_append]
  | stray v => simp [Chord.renderNot, String.toList_append]

theorem reads_render (t : Chord σ) (text : String) (rendered : t.render = .ok text) :
    Reads .term text.toList t.expand ∧
      (t.isNot = false → Reads .operand text.toList t.expand) := by
  induction t generalizing text with
  | atom a =>
      rw [Chord.render_atom] at rendered
      cases rendered
      exact ⟨(reads_name a).plain, fun _ => reads_name a⟩
  | not t ih =>
      rw [Chord.render_not] at rendered
      obtain ⟨inner, renderedInner, rendered⟩ := bind_eq_ok rendered
      cases rendered
      obtain ⟨term, operand⟩ := ih inner renderedInner
      refine ⟨?_, fun plain => nomatch plain⟩
      cases negated : t.isNot with
      | true =>
          rw [renderNot_negated t inner negated]
          exact term.ands.ors.group.negated
      | false =>
          rw [renderNot_plain t inner negated]
          exact (operand negated).negated
  | join c l r left right =>
      rw [Chord.render_join] at rendered
      obtain ⟨first, renderedLeft, rendered⟩ := bind_eq_ok rendered
      obtain ⟨second, renderedRight, rendered⟩ := bind_eq_ok rendered
      cases rendered
      -- A single `+` is a run of terms within a run of one, a single `|` a run of runs of one term.
      have run : Reads (.run .or) (first.toList ++ ' ' :: sign c :: ' ' :: second.toList)
          (.join c l.expand r.expand) := by
        have leftTerm := (left first renderedLeft).1
        have rightTerm := (right second renderedRight).1
        cases c with
        | and => exact (leftTerm.ands.join rightTerm).ors
        | or => exact leftTerm.ands.ors.join rightTerm.ands
      have same :
          ("(" ++ first ++ " " ++ Chord.Connective.symbol c ++ " " ++ second ++ ")").toList =
            '(' :: ((first.toList ++ ' ' :: sign c :: ' ' :: second.toList) ++ [')']) := by
        cases c <;> simp [Chord.Connective.symbol, sign, String.toList_append]
      rw [same]
      exact ⟨run.group.plain, fun _ => run.group⟩
  | stray v =>
      rw [Chord.render, Chord.fold_eq_value, Chord.value] at rendered
      cases rendered

theorem parse_reads (text : String) (t : Chord σ) (reads : Reads (.run .or) text.toList t) :
    parse text = .ok (some t) := by
  obtain ⟨d, scanned, reading⟩ := reads 0 [] [] trivial
  have derives : d.tokens = Token.tokenize text := by
    rw [List.append_nil, List.append_nil] at scanned
    rw [Token.tokenize, scanned, Token.scan, Token.flush_nil, List.reverse_reverse]
  rw [d.parse_eq_chord text derives, reading]

theorem parse_of_render (t : Chord σ) (text : String) (rendered : t.render = .ok text) :
    parse text = .ok (some t.expand) :=
  parse_reads text t.expand (reads_render t text rendered).1.ands.ors

theorem closed_sound : Chord.Closed (Chord.Sound : Chord σ → Prop) where
  ofAtom := Chord.ofAtom_sound
  not _ inside := inside
  join _ _ _ left right := ⟨left, right⟩

theorem closed_elementary : Chord.Closed (Chord.Elementary : Chord σ → Prop) where
  ofAtom := Chord.ofAtom_elementary
  not _ inside := inside
  join _ _ _ left right := ⟨left, right⟩

/-- A chord is read back from its text up to its composite leaves. Chords that were read have no
such leaves, so they are read back as they are, and are always written the same. -/
theorem parse_render :
    (∀ t : Chord σ, t.Sound → ∃ text, t.render = .ok text ∧ parse text = .ok (some t.expand) ∧
      (t.Elementary → parse text = .ok (some t))) ∧
    ∀ (e : String) (t : Chord σ), parse e = .ok (some t) → t.Elementary ∧
      ∃ text, t.render = .ok text ∧
        (parse text : Except CompileError (Option (Chord σ))) = parse e ∧
        ∀ again : Chord σ, parse text = .ok (some again) → again.render = .ok text := by
  constructor
  · intro t sound
    obtain ⟨text, rendered⟩ := t.render_of_sound sound
    have back := parse_of_render t text rendered
    refine ⟨text, rendered, back, ?_⟩
    intro elementary
    rw [back, t.expand_of_elementary elementary]
  · intro e t parsed
    have elementary := parse_closed closed_elementary e t parsed
    obtain ⟨text, rendered⟩ := t.render_of_sound (parse_closed closed_sound e t parsed)
    have back := parse_of_render t text rendered
    rw [t.expand_of_elementary elementary] at back
    refine ⟨elementary, text, rendered, by rw [back, parsed], ?_⟩
    intro again parsedAgain
    rw [back] at parsedAgain
    cases parsedAgain
    exact rendered

/-- The composite of two negations is read back with its two keys, which are then written apart. -/
theorem parse_render_negations :
    (Chord.not (.not (.atom (.key (.modifier .ctrl none)))) : Chord Empty).render =
      .ok "!(!Ctrl)" ∧
    (parse "!(!Ctrl)" : Except CompileError (Option (Chord Empty))) =
      .ok (some (.not (.not (.join .or (.atom (.key (.modifier .ctrl (some .left))))
        (.atom (.key (.modifier .ctrl (some .right)))))))) ∧
    (parse "!(!(LCtrl | RCtrl))" : Except CompileError (Option (Chord Empty))) =
      parse "!(!Ctrl)" := by
  let ctrl (side : Option Side) : Chord Empty := .atom (.key (.modifier .ctrl side))
  let keys := (Chord.join .or (ctrl (some .left)) (ctrl (some .right))).not.not
  have shown (side : Option Side) :
      (ctrl side).render = .ok (Key.modifier .ctrl side).name := by
    rw [Chord.render_atom, displayName_key]
  have written : (ctrl none).not.not.render = .ok "!(!Ctrl)" := by
    rw [Chord.render_not, Chord.render_not, shown]
    rfl
  have writtenApart : keys.render = .ok "!(!(LCtrl | RCtrl))" := by
    rw [Chord.render_not, Chord.render_not, Chord.render_join, shown, shown]
    rfl
  obtain ⟨text, rendered, parsed, _⟩ := (parse_render (σ := Empty)).1 (ctrl none).not.not trivial
  rw [written] at rendered
  cases rendered
  obtain ⟨_, text, rendered, same, _⟩ := (parse_render (σ := Empty)).2 _ keys parsed
  rw [writtenApart] at rendered
  cases rendered
  exact ⟨written, parsed, same⟩

end Grammar

end InputChords
