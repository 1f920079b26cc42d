import Mathlib.Data.List.TakeWhile
import InputChords.Command
import InputChords.Proofs.Outcome

/-! Command lines of plain words. A word that does not start with a minus is no switch, so the words
of a command that evaluates an expression under some names are read as such a command. -/

namespace InputChords.Command

namespace Word

theorem roleOf_plain (g : Grammar) (text : String) (plain : "-".isPrefixOf text = false) :
    roleOf g text = .ok .plain := by
  simp [roleOf, plain]

theorem classify_cons (g : Grammar) (text : String) (rest : List String) (role : Role)
    (words : List Word) (inside : text ≠ "--") (here : roleOf g text = .ok role)
    (later : classify g rest = .ok words) :
    classify g (text :: rest) = .ok (⟨text, role⟩ :: words) := by
  rw [classify, if_neg inside, here, later]
  rfl

theorem ne_separator (text : String) (plain : "-".isPrefixOf text = false) : text ≠ "--" := by
  rintro rfl
  have starts : "-".isPrefixOf "--" = true := by decide +kernel
  rw [starts] at plain
  cases plain

theorem classify_plain (g : Grammar) (texts : List String)
    (plain : ∀ text ∈ texts, "-".isPrefixOf text = false) :
    classify g texts = .ok (texts.map fun text => ⟨text, .plain⟩) := by
  induction texts with
  | nil => rfl
  | cons text rest ih =>
      obtain ⟨here, later⟩ := List.forall_mem_cons.mp plain
      exact classify_cons g text rest .plain _ (ne_separator text here) (roleOf_plain g text here)
        (ih later)

end Word

namespace Reading

theorem readFrom_positional (g : Grammar) (p : Positional) (found : Reading) (fuel n : Nat)
    (w : Word) (rest : List Word) (plain : w.role = .plain) (taken : take p (w :: rest) = some n) :
    readFrom g (some p) found (fuel + 1) (w :: rest) =
      readFrom g none { found with positional := some (argument p ((w :: rest).take n)) } fuel
        ((w :: rest).drop n) := by
  simp [readFrom, plain, taken]

theorem readFrom_many (g : Grammar) (waiting : Option Positional) (found : Reading) (fuel : Nat)
    (names : List String) (name : String) (texts : List String) :
    readFrom g waiting found (fuel + 1)
        (⟨name, .switch ⟨name :: names, .many, none⟩ name none⟩ :: texts.map fun t => ⟨t, .plain⟩) =
      readFrom g waiting { found with switches := found.switches.put name texts } fuel [] := by
  have all : (texts.map fun t => (⟨t, .plain⟩ : Word)).takeWhile Word.isPlain =
      texts.map fun t => ⟨t, .plain⟩ := by
    apply List.takeWhile_eq_self_iff.mpr
    intro w member
    obtain ⟨t, _, rfl⟩ := List.mem_map.mp member
    rfl
  have nothing : (texts.map fun t => (⟨t, .plain⟩ : Word)).drop texts.length = [] :=
    List.drop_eq_nil_of_le (by simp)
  simp [readFrom, arguments, all, allowed, nothing, bind, Except.bind, Function.comp_def]

end Reading

namespace Request

theorem readWith_eval (e : String) (names : List String)
    (plain : ∀ text ∈ e :: names, "-".isPrefixOf text = false) :
    readWith evalGrammar (e :: "--active" :: names) =
      .ok ⟨[("--active", names)], some [e], false⟩ := by
  obtain ⟨here, later⟩ := List.forall_mem_cons.mp plain
  have switch : Word.roleOf evalGrammar "--active" =
      .ok (.switch ⟨["--active"], .many, none⟩ "--active" none) :=
    ok_of_toOption (by decide +kernel)
  have words := Word.classify_cons evalGrammar e _ .plain _ (Word.ne_separator e here)
    (Word.roleOf_plain _ e here) (Word.classify_cons evalGrammar "--active" names _ _ (by decide)
      switch (Word.classify_plain evalGrammar names later))
  have only : Reading.argument .one [⟨e, .plain⟩] = [e] := by
    apply List.erase_of_not_mem
    simpa using (Word.ne_separator e here).symm
  rw [readWith, Reading.ofWords, words]
  show (Reading.readFrom evalGrammar (some .one) ⟨[], none, false⟩ _ (_ :: _)).bind _ = _
  rw [Reading.readFrom_positional _ _ _ _ 1 _ _ rfl rfl]
  show (Reading.readFrom evalGrammar none ⟨[], some (Reading.argument .one [⟨e, .plain⟩]), false⟩ _
    (⟨"--active", _⟩ :: _)).bind _ = _
  rw [List.length_cons, List.length_cons, Reading.readFrom_many, only]
  rfl

end Request

theorem ofWords_eval (e : String) (names : List String)
    (plain : ∀ text ∈ e :: names, "-".isPrefixOf text = false) :
    Invocation.ofWords ("eval" :: e :: "--active" :: names) =
      .ok ⟨none, none, "json", .eval e names⟩ := by
  obtain ⟨here, later⟩ := List.forall_mem_cons.mp plain
  have unknown : Word.roleOf Invocation.grammar "--active" = .ok .unknown :=
    ok_of_toOption (by decide +kernel)
  have command : "-".isPrefixOf "eval" = false := by decide +kernel
  have words := Word.classify_cons Invocation.grammar "eval" _ .plain _ (by decide)
    (Word.roleOf_plain _ _ command)
    (Word.classify_cons Invocation.grammar e _ .plain _ (Word.ne_separator e here)
      (Word.roleOf_plain _ e here) (Word.classify_cons Invocation.grammar "--active" names _ _
        (by decide) unknown (Word.classify_plain _ names later)))
  have read : Reading.ofWords Invocation.grammar ("eval" :: e :: "--active" :: names) =
      .ok ⟨[], some ("eval" :: e :: "--active" :: names), false⟩ := by
    rw [Reading.ofWords, words]
    show Reading.readFrom _ (some .command) _ _ (_ :: _) = _
    rw [Reading.readFrom_positional _ _ _ _ _ _ _ rfl rfl, List.take_length, List.drop_length]
    simp [Reading.argument, Reading.readFrom, Function.comp_def]
  rw [Invocation.ofWords, read]
  show (Request.ofWords ("eval" :: e :: "--active" :: names)).bind _ = _
  rw [Request.ofWords, Request.readWith_eval e names plain]
  rfl

end InputChords.Command
