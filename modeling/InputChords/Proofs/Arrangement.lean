import InputChords.Proofs.Grouping
import InputChords.Proofs.Leaves
import InputChords.Proofs.Lockstep

/-! Operand order is one arrangement of the places of keywords and operators. Nothing overtakes a
keyword on the way, and nothing that stands in a group leaves it late. The kinds alone decide on the
arrangement, so tokens of the same kinds are arranged alike. -/

namespace InputChords.Token

section Order

variable {e : String} {tokens polish : List Token}

theorem sublist_pair {α : Type} {first second : List α} {x y : α} (here : x ∈ first)
    (there : y ∈ second) : [x, y].Sublist (first ++ second) :=
  (List.singleton_sublist.mpr here).append (List.singleton_sublist.mpr there)

theorem mem_proper_of_plain {t : Token} (member : t ∈ tokens) (plain : t.isParenthesis = false) :
    t ∈ proper tokens :=
  (mem_proper t tokens).mpr ⟨member, plain⟩

theorem sublist_of_keyword {before after : List Token} {name t : Token}
    (done : reorder e (before ++ name :: after) = .ok polish) (isName : name.kind = .keyword)
    (member : t ∈ after) (plain : t.isParenthesis = false) : [name, t].Sublist polish := by
  rw [List.append_cons] at done
  obtain ⟨out, left, puts, done⟩ := puts_of_ok (by simp) done
  obtain ⟨late, rfl, later, _⟩ := reorderFrom_rest e left _ after polish puts.waits done
  have plainName : name.isParenthesis = false := by simp [isParenthesis, isName]
  have early : name ∈ out ++ proper left :=
    puts.kept.mem_iff.mpr (mem_proper_of_plain (by simp) plainName)
  -- A keyword does not wait, so it is put out at once.
  have notWaiting : name ∉ proper left := by
    intro waiting
    rcases puts.waits name ((mem_proper name left).mp waiting).1 with isOpening | operator
    · rw [isName] at isOpening
      cases isOpening
    · rw [isName] at operator
      cases operator
  have put : name ∈ out := (List.mem_append.mp early).resolve_right notWaiting
  have follows : t ∈ late :=
    later.mem_iff.mpr (List.mem_append_right _ (mem_proper_of_plain member plain))
  rw [List.append_nil, List.reverse_reverse]
  exact sublist_pair put follows

theorem sublist_of_group {before inner after : List Token} {opening closing s t : Token}
    (done : reorder e (before ++ opening :: (inner ++ closing :: after)) = .ok polish)
    (isOpening : opening.kind = .opening) (isClosing : closing.kind = .closing)
    (balanced : Balanced 0 inner) (inside : s ∈ inner) (plain : s.isParenthesis = false)
    (behind : t ∈ after) (plainToo : t.isParenthesis = false) : [s, t].Sublist polish := by
  obtain ⟨out, left, puts, done⟩ := puts_of_ok (by simp) done
  obtain ⟨put, group, whole⟩ := reorderFrom_group e inner balanced
  rw [group opening closing left _ after isOpening isClosing] at done
  obtain ⟨late, rfl, later, _⟩ := reorderFrom_rest e left _ after polish puts.waits done
  have alone : reorder e inner = .ok put.reverse := whole
  have early : s ∈ put :=
    List.mem_reverse.mp <| (reorderFrom_perm e [] [] inner _ (by simp) alone).mem_iff.mpr
      (mem_proper_of_plain inside plain)
  have follows : t ∈ late :=
    later.mem_iff.mpr (List.mem_append_right _ (mem_proper_of_plain behind plainToo))
  exact sublist_pair (by simp [early]) follows

end Order

/-- The tokens with their places for positions, which tells equal ones apart. -/
def numbered (tokens : List Token) : List Token := tokens.mapIdx fun i t => { t with position := i }

def place (t : Token) : Nat := t.position.toNat

def PlainAt (tokens : List Token) (i : Nat) : Prop :=
  ∃ t, tokens[i]? = some t ∧ t.isParenthesis = false

def KeywordAt (tokens : List Token) (i : Nat) : Prop :=
  ∃ t, tokens[i]? = some t ∧ t.kind = .keyword

/-- The parenthesis at the second place closes the one at the first. -/
def PairAt (tokens : List Token) (p q : Nat) : Prop :=
  ∃ opening closing, tokens[p]? = some opening ∧ opening.kind = .opening ∧
    tokens[q]? = some closing ∧ closing.kind = .closing ∧ p < q ∧
    Matched ((tokens.take q).drop (p + 1))

/-- An order of the places of all keywords and operators. -/
structure Arranged (tokens : List Token) (order : List Nat) : Prop where
  once : order.Nodup
  all : ∀ i, i ∈ order ↔ PlainAt tokens i
  behind : ∀ i j, i < j → KeywordAt tokens i → PlainAt tokens j → [i, j].Sublist order
  grouped : ∀ p q i j, PairAt tokens p q → p < i → i < q → q < j → PlainAt tokens i →
    PlainAt tokens j → [i, j].Sublist order

theorem eq_take_cons_drop {α : Type} {l : List α} {i : Nat} {x : α} (found : l[i]? = some x) :
    l = l.take i ++ x :: l.drop (i + 1) := by
  obtain ⟨bound, rfl⟩ := List.getElem?_eq_some_iff.mp found
  rw [← List.drop_eq_getElem_cons bound, List.take_append_drop]

theorem mem_drop_of_getElem? {α : Type} {l : List α} {n i : Nat} {x : α} (found : l[i]? = some x)
    (bound : n ≤ i) : x ∈ l.drop n := by
  apply List.mem_iff_getElem?.mpr
  exact ⟨i - n, by rw [List.getElem?_drop, Nat.add_sub_cancel' bound, found]⟩

theorem balanced_congr {first second : List Token} (same : first.map (·.kind) = second.map (·.kind))
    (depth : Nat) :
    Balanced depth first ↔ Balanced depth second := by
  induction first generalizing second depth with
  | nil => rw [List.map_eq_nil_iff.mp same.symm]
  | cons token first ih =>
      obtain ⟨other, rest, rfl, here, later⟩ := List.map_eq_cons_iff.mp same.symm
      simp only [Balanced, here, ih later.symm]

section Numbered

variable {e : String} {tokens polish : List Token}

theorem getElem?_numbered {i : Nat} {t : Token} (found : tokens[i]? = some t) :
    (numbered tokens)[i]? = some { t with position := (i : Int) } := by
  rw [numbered, List.getElem?_mapIdx, found]
  rfl

theorem of_getElem?_numbered {i : Nat} {u : Token} (found : (numbered tokens)[i]? = some u) :
    ∃ t, tokens[i]? = some t ∧ u = { t with position := (i : Int) } := by
  rw [numbered, List.getElem?_mapIdx] at found
  obtain ⟨t, here, rfl⟩ := Option.map_eq_some_iff.mp found
  exact ⟨t, here, rfl⟩

theorem place_numbered : (numbered tokens).map place = List.range tokens.length := by
  apply List.ext_getElem
  · simp [numbered]
  · intro i bound _
    simp [numbered, place]

theorem kind_numbered : (numbered tokens).map (·.kind) = tokens.map (·.kind) := by
  apply List.ext_getElem <;> simp [numbered]

theorem nodup_places : ((proper (numbered tokens)).map place).Nodup := by
  have some_places : ((proper (numbered tokens)).map place).Sublist (List.range tokens.length) := by
    rw [← place_numbered]
    exact List.filter_sublist.map place
  exact List.nodup_range.sublist some_places

theorem mem_places (i : Nat) : i ∈ (proper (numbered tokens)).map place ↔ PlainAt tokens i := by
  constructor
  · intro member
    obtain ⟨u, plain, rfl⟩ := List.mem_map.mp member
    obtain ⟨listed, plain⟩ := (mem_proper u _).mp plain
    obtain ⟨i, found⟩ := List.mem_iff_getElem?.mp listed
    obtain ⟨t, here, rfl⟩ := of_getElem?_numbered found
    exact ⟨t, here, plain⟩
  · rintro ⟨t, here, plain⟩
    have listed := List.mem_of_getElem? (getElem?_numbered here)
    exact List.mem_map.mpr ⟨_, mem_proper_of_plain listed plain, rfl⟩

theorem places_of_keyword (done : reorder e (numbered tokens) = .ok polish) {i j : Nat}
    (before : i < j) (keyword : KeywordAt tokens i) (plain : PlainAt tokens j) :
    [i, j].Sublist (polish.map place) := by
  obtain ⟨name, here, isName⟩ := keyword
  obtain ⟨t, there, plain⟩ := plain
  rw [eq_take_cons_drop (getElem?_numbered here)] at done
  have behind := mem_drop_of_getElem? (getElem?_numbered there) before
  exact (sublist_of_keyword done isName behind plain).map place

theorem places_of_pair (done : reorder e (numbered tokens) = .ok polish) {p q i j : Nat}
    (pair : PairAt tokens p q) (after : p < i) (inside : i < q) (behind : q < j)
    (plain : PlainAt tokens i) (plainToo : PlainAt tokens j) :
    [i, j].Sublist (polish.map place) := by
  obtain ⟨opening, closing, first, isOpening, last, isClosing, before, matched⟩ := pair
  obtain ⟨s, here, plain⟩ := plain
  obtain ⟨t, there, plainToo⟩ := plainToo
  have atFirst : ((numbered tokens).take q)[p]? = some { opening with position := (p : Int) } := by
    rw [List.getElem?_take_of_lt before, getElem?_numbered first]
  have within : ((numbered tokens).take q)[i]? = some { s with position := (i : Int) } := by
    rw [List.getElem?_take_of_lt inside, getElem?_numbered here]
  have split := eq_take_cons_drop (getElem?_numbered last)
  rw [eq_take_cons_drop atFirst, List.append_assoc] at split
  rw [split] at done
  have sameKinds : (((numbered tokens).take q).drop (p + 1)).map (·.kind) =
      ((tokens.take q).drop (p + 1)).map (·.kind) := by
    rw [List.map_drop, List.map_take, kind_numbered, List.map_drop, List.map_take]
  have balanced := (balanced_congr sameKinds 0).mpr ((matched_iff _).mp matched)
  exact (sublist_of_group done isOpening isClosing balanced (mem_drop_of_getElem? within after)
    plain (mem_drop_of_getElem? (getElem?_numbered there) behind) plainToo).map place

theorem arranged_of_numbered (done : reorder e (numbered tokens) = .ok polish) :
    Arranged tokens (polish.map place) where
  once := ((reorderFrom_perm e [] [] _ _ (by simp) done).map place).nodup_iff.mpr nodup_places
  all i := ((reorderFrom_perm e [] [] _ _ (by simp) done).map place).mem_iff.trans (mem_places i)
  behind _ _ := places_of_keyword done
  grouped _ _ _ _ := places_of_pair done

theorem forall_numbered (tokens : List Token) :
    List.Forall₂ (fun t u => t.kind = u.kind ∧ tokens[u.place]? = some t) tokens
      (numbered tokens) := by
  rw [List.forall₂_iff_get]
  refine ⟨by simp [numbered], fun i bound _ => ?_⟩
  simp [numbered, place]

theorem reorder_numbered (done : reorder e tokens = .ok polish) :
    ∃ listed, reorder e (numbered tokens) = .ok listed ∧
      polish.map some = (listed.map place).map (tokens[·]?) := by
  have lockstep := reorderFrom_lockstep (fun t u pair => pair.1) e e .nil .nil
    (forall_numbered tokens)
  rw [← reorder, done, ← reorder] at lockstep
  generalize reorder e (numbered tokens) = other at lockstep ⊢
  cases lockstep with
  | ok paired =>
      refine ⟨_, rfl, ?_⟩
      have places := paired.imp fun t u pair => pair.2.symm
      rw [List.map_map, ← List.forall₂_eq_eq_eq, List.forall₂_map_left_iff,
        List.forall₂_map_right_iff]
      exact places

end Numbered

section Renamed

variable {tokens : List Token} (f : Token → Token)

theorem stillOpen_map (outer : List Token) (kinds : ∀ t ∈ tokens, (f t).kind = t.kind) :
    stillOpen (outer.map f) (tokens.map f) =
      match stillOpen outer tokens with
      | .ok left => .ok (left.map f)
      | .error closing => .error (f closing) := by
  induction tokens generalizing outer with
  | nil => rfl
  | cons token rest ih =>
      obtain ⟨here, later⟩ := List.forall_mem_cons.mp kinds
      cases kind : token.kind with
      | opening =>
          simp only [List.map_cons, stillOpen, here, kind]
          exact ih (token :: outer) later
      | closing =>
          cases outer with
          | nil => simp only [List.map_cons, List.map_nil, stillOpen, here, kind]
          | cons top outer =>
              simp only [List.map_cons, stillOpen, here, kind]
              exact ih outer later
      | _ =>
          simp only [List.map_cons, stillOpen, here, kind]
          exact ih outer later

theorem reorder_map_of_ok {e : String} {polish : List Token}
    (kinds : ∀ t ∈ tokens, (f t).kind = t.kind) (done : reorder e tokens = .ok polish) :
    reorder e (tokens.map f) = .ok (polish.map f) := by
  let renames (t u : Token) : Prop := t ∈ tokens ∧ u = f t
  have same : ∀ t u, renames t u → t.kind = u.kind := by
    rintro t u ⟨member, rfl⟩
    exact (kinds t member).symm
  have paired : List.Forall₂ renames tokens (tokens.map f) :=
    List.forall₂_map_right_iff.mpr (List.forall₂_same.mpr fun t member => ⟨member, rfl⟩)
  have lockstep : Lockstep renames e e (List.Forall₂ renames) (reorder e tokens)
      (reorder e (tokens.map f)) := reorderFrom_lockstep same e e .nil .nil paired
  rw [done] at lockstep
  generalize reorder e (tokens.map f) = other at lockstep ⊢
  cases lockstep with
  | ok ordered =>
      have renamed := ordered.imp fun t u pair => pair.2.symm
      rw [← List.forall₂_map_left_iff, List.forall₂_eq_eq_eq] at renamed
      rw [renamed]

/-- A parenthesis is blamed, and a renaming of the tokens renames it. -/
theorem reorder_map_of_error {e : String} {err : CompileError}
    (kinds : ∀ t ∈ tokens, (f t).kind = t.kind) (failed : reorder e tokens = .error err) :
    ∃ (reason : ParseError.Reason) (t : Token), t ∈ tokens ∧ reason.Fits t ∧
      err = .rejected (.blame reason e t) ∧
      reorder e (tokens.map f) = .error (.rejected (.blame reason e (f t))) := by
  have settled := reorder_settles e tokens
  have renamed := reorder_settles e (tokens.map f)
  have opened := stillOpen_map f [] kinds
  rw [List.map_nil] at opened
  rw [opened] at renamed
  rcases parentheses_cases tokens with tooMany | ⟨level, notClosed⟩ | balanced
  · obtain ⟨before, closing, after, split, isClosing, _, stopped⟩ :=
      stillOpen_error tokens tooMany
    rw [stopped] at settled renamed
    have blamed := Except.error.inj (failed.symm.trans settled)
    exact ⟨.unopened, closing, by simp [split], isClosing, blamed, renamed⟩
  · obtain ⟨opening, others, last⟩ :=
      List.exists_cons_of_ne_nil (mt List.reverse_eq_nil_iff.mp notClosed)
    obtain ⟨before, after, split, isOpening, _, _⟩ := unclosed_last tokens others opening last
    have left := stillOpen_ok [] tokens (Nat.le_of_eq level)
    rw [last, List.drop_nil, List.append_nil] at left
    rw [left] at settled renamed
    have blamed := Except.error.inj (failed.symm.trans settled)
    exact ⟨.unclosed, opening, by simp [split], isOpening, blamed, renamed⟩
  · obtain ⟨polish, done, _⟩ := reorder_balanced e tokens balanced
    rw [done] at failed
    cases failed

end Renamed

/-- Operand order is a permutation of the keywords and operators that keeps the keywords in their
order, lets nothing overtake a keyword and closes every group before it goes on. It looks at kinds
alone: whoever renames the tokens renames the result, or the parenthesis that is blamed. -/
theorem reorder_arranged (e : String) (tokens : List Token) :
    (∀ polish, reorder e tokens = .ok polish →
      polish.Perm (proper tokens) ∧ keywords polish = keywords tokens ∧
      ∃ order, Arranged tokens order ∧ polish.map some = order.map (tokens[·]?)) ∧
    ∀ f : Token → Token, (∀ t ∈ tokens, (f t).kind = t.kind) →
      (∀ polish, reorder e tokens = .ok polish → reorder e (tokens.map f) = .ok (polish.map f)) ∧
      ∀ err, reorder e tokens = .error err →
        ∃ (reason : ParseError.Reason) (t : Token), t ∈ tokens ∧ reason.Fits t ∧
          err = .rejected (.blame reason e t) ∧
          reorder e (tokens.map f) = .error (.rejected (.blame reason e (f t))) := by
  constructor
  · intro polish done
    have perm := reorderFrom_perm e [] [] tokens polish (by simp) done
    have order := reorderFrom_keywords e [] [] tokens polish (by simp) done
    obtain ⟨listed, numberedDone, same⟩ := reorder_numbered done
    exact ⟨perm, order, _, arranged_of_numbered numberedDone, same⟩
  · intro f kinds
    exact ⟨fun polish => reorder_map_of_ok f kinds, fun err => reorder_map_of_error f kinds⟩

/-- In `!(A + A) | A` both sums and names are the same tokens wherever they stand; in `A)` the
parenthesis that is too many gets another text. -/
theorem reorder_arranged_equal_tokens :
    let a : Token := ⟨.keyword, "A", 0⟩
    let bang : Token := ⟨.not, "!", 0⟩
    let plus : Token := ⟨.join .and, "+", 0⟩
    let bar : Token := ⟨.join .or, "|", 0⟩
    let opening : Token := ⟨.opening, "(", 0⟩
    let closing : Token := ⟨.closing, ")", 0⟩
    let tokens := [bang, opening, a, plus, a, closing, bar, a]
    let rename (t : Token) : Token := { t with text := "x" }
    (∃ order, Arranged tokens order ∧ [3, 7].Sublist order ∧
      [a, a, plus, bang, a, bar].map some = order.map (tokens[·]?)) ∧
    reorder "" (tokens.map rename) = .ok ([a, a, plus, bang, a, bar].map rename) ∧
    reorder "" [rename a, rename closing] =
      .error (.rejected ⟨.unopened, "", some "x", some 0⟩) := by
  intro a bang plus bar opening closing tokens rename
  have done : reorder "" tokens = .ok [a, a, plus, bang, a, bar] := rfl
  have failed : reorder "" [a, closing] = .error (.rejected (.blame .unopened "" closing)) := rfl
  obtain ⟨_, _, order, arranged, same⟩ := (reorder_arranged "" tokens).1 _ done
  have pair : PairAt tokens 1 5 :=
    ⟨opening, closing, rfl, rfl, rfl, rfl, by decide, (matched_iff [a, plus, a]).mpr rfl⟩
  have grouped := arranged.grouped 1 5 3 7 pair (by decide) (by decide) (by decide)
    ⟨plus, rfl, rfl⟩ ⟨a, rfl, rfl⟩
  have renamed := ((reorder_arranged "" tokens).2 rename fun _ _ => rfl).1 _ done
  obtain ⟨reason, t, member, fits, blamed, stopped⟩ :=
    ((reorder_arranged "" [a, closing]).2 rename fun _ _ => rfl).2 _ failed
  refine ⟨⟨order, arranged, grouped, same⟩, renamed, ?_⟩
  simp only [ParseError.blame, CompileError.rejected.injEq, ParseError.mk.injEq] at blamed
  obtain ⟨rfl, _⟩ := blamed
  simp only [List.mem_cons, List.not_mem_nil, or_false] at member
  rcases member with rfl | rfl
  · cases fits
  · exact stopped

end InputChords.Token
