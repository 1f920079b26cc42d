import Mathlib
import InputChords.Proofs.Diagnosis

/-! Two token lists that are told apart by their texts and positions alone are compiled step for
step in the same way: the stacks hold tokens from the same places, and so does an error. -/

namespace InputChords

variable {σ : Type}

/-- The tokens cannot be told apart by what they are read as. -/
structure Token.Alike (t u : Token) : Prop where
  kind : t.kind = u.kind
  keyword : t.kind = .keyword →
    Text.lower (normalizeKeyword t.text) = Text.lower (normalizeKeyword u.text)

theorem Text.lowerFrom_eq_nil_iff (inWord : Bool) (cs : List Char) :
    Text.lowerFrom inWord cs = [] ↔ cs = [] := by
  cases cs with
  | nil => simp [Text.lowerFrom]
  | cons c rest =>
      have filled : Text.lowerChar c ≠ [] := by
        unfold Text.lowerChar
        split
        · simp
        · split <;> simp
      simp only [Text.lowerFrom, List.cons_ne_nil, iff_false]
      split
      · simp
      · split
        · simp
        · simp [filled]

theorem resolveAtom_congr (first second : String)
    (same : Text.lower (normalizeKeyword first) = Text.lower (normalizeKeyword second)) :
    resolveAtom first = resolveAtom second := by
  have emptiness (s : String) : s.isEmpty = (Text.lower s).toList.isEmpty := by
    rw [Text.lower, String.toList_ofList, Bool.eq_iff_iff, List.isEmpty_iff,
      Text.lowerFrom_eq_nil_iff, String.isEmpty_iff, String.toList_eq_nil_iff]
  simp only [resolveAtom, AliasTable.lookup, emptiness, same]

/-- The same outcome of two expressions, up to what `R` and `S` relate. Errors other than rejections
are left open. -/
inductive Lockstep (R : Token → Token → Prop) (e f : String) {α β : Type} (S : α → β → Prop) :
    Except CompileError α → Except CompileError β → Prop where
  | ok {x : α} {y : β} (same : S x y) : Lockstep R e f S (.ok x) (.ok y)
  | blamed (reason : ParseError.Reason) {t u : Token} (paired : R t u) :
    Lockstep R e f S (.error (.rejected (.blame reason e t)))
      (.error (.rejected (.blame reason f u)))
  | malformed : Lockstep R e f S (.error (.rejected ⟨.malformed, e, none, none⟩))
      (.error (.rejected ⟨.malformed, f, none, none⟩))
  | internal {first second : CompileError} (outside : ∀ err, first ≠ .rejected err) :
    Lockstep R e f S (.error first) (.error second)

theorem Lockstep.bind {R : Token → Token → Prop} {e f : String} {α β γ δ : Type} {S : α → β → Prop}
    {T : γ → δ → Prop} {x : Except CompileError α} {y : Except CompileError β}
    {g : α → Except CompileError γ} {h : β → Except CompileError δ} (first : Lockstep R e f S x y)
    (later : ∀ a b, S a b → Lockstep R e f T (g a) (h b)) :
    Lockstep R e f T (x.bind g) (y.bind h) := by
  cases first with
  | ok same => exact later _ _ same
  | blamed reason paired => exact .blamed reason paired
  | malformed => exact .malformed
  | internal outside => exact .internal outside

namespace Token

theorem Kind.priority_ne_rejected (kind : Kind) (err : ParseError) :
    kind.priority ≠ .error (.rejected err) := by
  cases kind with
  | join c => cases c <;> nofun
  | _ => nofun

section Reorder

variable {R : Token → Token → Prop} (kinds : ∀ t u, R t u → t.kind = u.kind) (e f : String)
include kinds

abbrev BothPaired (R : Token → Token → Prop) (p q : List Token × List Token) : Prop :=
  List.Forall₂ R p.1 q.1 ∧ List.Forall₂ R p.2 q.2

theorem releaseTighter_lockstep (level : Nat) {output output' waiting waiting' : List Token}
    (out : List.Forall₂ R output output') (stack : List.Forall₂ R waiting waiting') :
    Lockstep R e f (BothPaired R) (releaseTighter level output waiting)
      (releaseTighter level output' waiting') := by
  induction stack generalizing output output' with
  | nil => exact .ok ⟨.nil, out⟩
  | @cons top top' waiting waiting' here below ih =>
      simp only [releaseTighter, kinds top top' here]
      cases known : top'.kind.priority with
      | error err =>
          refine .internal fun rejected same => ?_
          exact Kind.priority_ne_rejected top'.kind rejected (same ▸ known)
      | ok priority =>
          by_cases tighter : level ≤ priority
          · simp only [bind, Except.bind, tighter, if_true]
            exact ih (.cons here out)
          · simp only [bind, Except.bind, tighter, if_false]
            exact .ok ⟨.cons here below, out⟩

theorem releaseGroup_lockstep {output output' waiting waiting' : List Token}
    (out : List.Forall₂ R output output') (stack : List.Forall₂ R waiting waiting') :
    Option.Rel (BothPaired R) (releaseGroup output waiting) (releaseGroup output' waiting') := by
  induction stack generalizing output output' with
  | nil => exact .none
  | @cons top top' waiting waiting' here below ih =>
      rw [releaseGroup, releaseGroup, kinds top top' here]
      by_cases opening : top'.kind = .opening
      · rw [if_pos opening, if_pos opening]
        exact .some ⟨below, out⟩
      · rw [if_neg opening, if_neg opening]
        exact ih (.cons here out)

theorem releaseAll_lockstep {output output' waiting waiting' : List Token}
    (out : List.Forall₂ R output output') (stack : List.Forall₂ R waiting waiting') :
    Lockstep R e f (List.Forall₂ R) (releaseAll e output waiting)
      (releaseAll f output' waiting') := by
  induction stack generalizing output output' with
  | nil => exact .ok (List.rel_reverse out)
  | @cons top top' waiting waiting' here below ih =>
      rw [releaseAll, releaseAll, kinds top top' here]
      by_cases opening : top'.kind = .opening
      · rw [if_pos opening, if_pos opening]
        exact .blamed .unclosed here
      · rw [if_neg opening, if_neg opening]
        exact ih (.cons here out)

theorem reorderFrom_lockstep {output output' waiting waiting' tokens tokens' : List Token}
    (out : List.Forall₂ R output output') (stack : List.Forall₂ R waiting waiting')
    (left : List.Forall₂ R tokens tokens') :
    Lockstep R e f (List.Forall₂ R) (reorderFrom e waiting output tokens)
      (reorderFrom f waiting' output' tokens') := by
  -- Only kinds decide what a step does, and `R` keeps them.
  induction left generalizing waiting waiting' output output' with
  | nil => exact releaseAll_lockstep kinds e f out stack
  | @cons token token' rest rest' here later ih =>
      have next (p q : List Token × List Token) (paired : BothPaired R p q) :
          Lockstep R e f (List.Forall₂ R) (reorderFrom e (token :: p.1) p.2 rest)
            (reorderFrom f (token' :: q.1) q.2 rest') := ih paired.2 (.cons here paired.1)
      have same := kinds token token' here
      cases kind : token.kind with
      | keyword =>
          rw [reorderFrom_keyword _ _ _ _ _ kind, reorderFrom_keyword _ _ _ _ _ (same ▸ kind)]
          exact ih (.cons here out) stack
      | opening =>
          rw [reorderFrom_opening _ _ _ _ _ kind, reorderFrom_opening _ _ _ _ _ (same ▸ kind)]
          exact ih out (.cons here stack)
      | closing =>
          have released := releaseGroup_lockstep kinds out stack
          cases found : releaseGroup output waiting with
          | none =>
              rw [found] at released
              have foundToo : releaseGroup output' waiting' = none := by
                cases other : releaseGroup output' waiting' with
                | none => rfl
                | some state => rw [other] at released; cases released
              rw [reorderFrom_unopened _ _ _ _ _ kind found,
                reorderFrom_unopened _ _ _ _ _ (same ▸ kind) foundToo]
              exact .blamed .unopened here
          | some state =>
              cases other : releaseGroup output' waiting' with
              | none => rw [found, other] at released; cases released
              | some state' =>
                  rw [found, other] at released
                  cases released with
                  | some paired =>
                      rw [reorderFrom_closing _ _ _ _ _ kind _ _ found,
                        reorderFrom_closing _ _ _ _ _ (same ▸ kind) _ _ other]
                      exact ih paired.2 paired.1
      | join c =>
          rw [reorderFrom_join _ _ _ _ _ c kind, reorderFrom_join _ _ _ _ _ c (same ▸ kind)]
          exact (releaseTighter_lockstep kinds e f c.level out stack).bind next
      | not =>
          rw [reorderFrom_not _ _ _ _ _ kind, reorderFrom_not _ _ _ _ _ (same ▸ kind)]
          exact (releaseTighter_lockstep kinds e f 4 out stack).bind next

end Reorder

section Build

variable {R : Token → Token → Prop} (alike : ∀ t u, R t u → t.Alike u) (e f : String)
include alike

theorem reduce_lockstep (operands : List (Chord σ)) {token token' : Token} (here : R token token') :
    Lockstep R e f Eq (reduce e operands token) (reduce f operands token') := by
  have same := (alike token token' here).kind
  have known := (alike token token' here).keyword
  cases kind : token.kind with
  | join c =>
      rw [kind] at same
      rcases operands with _ | ⟨r, _ | ⟨l, rest⟩⟩
      · simp only [reduce, kind, ← same]
        exact .blamed .unexpectedOperator here
      · simp only [reduce, kind, ← same]
        exact .blamed .unexpectedOperator here
      · simp only [reduce, kind, ← same]
        exact .ok rfl
  | not =>
      rw [kind] at same
      rcases operands with _ | ⟨t, rest⟩
      · simp only [reduce, kind, ← same]
        exact .blamed .unexpectedOperator here
      · simp only [reduce, kind, ← same]
        exact .ok rfl
  | keyword =>
      rw [kind] at same
      simp only [reduce, kind, ← same, resolveKeyword, resolveAtom_congr _ _ (known kind)]
      cases resolveAtom token'.text with
      | none => exact .blamed .invalidKeyword here
      | some a => exact .ok rfl
  | opening =>
      rw [kind] at same
      simp only [reduce, kind, ← same]
      exact .internal fun _ rejected => CompileError.noConfusion rejected
  | closing =>
      rw [kind] at same
      simp only [reduce, kind, ← same]
      exact .internal fun _ rejected => CompileError.noConfusion rejected

theorem reduceAll_lockstep (operands : List (Chord σ)) {tokens tokens' : List Token}
    (paired : List.Forall₂ R tokens tokens') :
    Lockstep R e f Eq (reduceAll e operands tokens) (reduceAll f operands tokens') := by
  induction paired generalizing operands with
  | nil => exact .ok rfl
  | cons here later ih =>
      refine (reduce_lockstep alike e f operands here).bind fun next next' same => ?_
      rw [same]
      exact ih next'

theorem build_lockstep {tokens tokens' : List Token} (paired : List.Forall₂ R tokens tokens') :
    Lockstep R e f Eq (build e tokens : Except CompileError (Option (Chord σ)))
      (build f tokens') := by
  cases paired with
  | nil => exact .ok rfl
  | cons here later =>
      rw [build_of_ne_nil e _ (List.cons_ne_nil _ _), build_of_ne_nil f _ (List.cons_ne_nil _ _)]
      have reduced := reduceAll_lockstep (σ := σ) alike e f [] (.cons here later)
      refine reduced.bind fun operands operands' same => ?_
      subst same
      rcases operands with _ | ⟨t, _ | ⟨second, others⟩⟩
      · exact .malformed
      · exact .ok rfl
      · exact .malformed

theorem compile_lockstep {tokens tokens' : List Token} (paired : List.Forall₂ R tokens tokens') :
    Lockstep R e f Eq (compile e tokens : Except CompileError (Option (Chord σ)))
      (compile f tokens') :=
  (reorderFrom_lockstep (fun t u pair => (alike t u pair).kind) e f .nil .nil paired).bind
    fun _ _ ordered => build_lockstep alike e f ordered

end Build

end Token

end InputChords
