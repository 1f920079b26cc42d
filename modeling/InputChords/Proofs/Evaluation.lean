import InputChords.Proofs.CommandLine
import InputChords.Proofs.Relevance
import InputChords.Proofs.Shadowing
import InputChords.Proofs.Spelling

/-! What the command that evaluates an expression answers. Expressions are judged before names,
names before values, and of the names only the atoms count that they stand for together. -/

namespace InputChords.Command

/-- The atoms that a name stands for: both sides of a composite. -/
def named (name : String) : List Atom := (resolveAtom name).elim [] Atom.leaves

/-- The atoms that are active under these names. -/
def activated (names : List String) : AtomSet := .ofList (names.flatMap named)

def Known (names : List String) : Prop := ∀ name ∈ names, (resolveAtom name).isSome = true

theorem mem_activated (names : List String) (b : Atom) :
    b ∈ activated names ↔ ∃ name ∈ names, ∃ a, resolveAtom name = some a ∧ b ∈ a.leaves := by
  rw [activated, AtomSet.mem_ofList, List.mem_flatMap]
  refine exists_congr fun name => and_congr_right fun _ => ?_
  cases found : resolveAtom name with
  | none => simp [named, found]
  | some a => simp [named, found]

theorem activated_cons (name : String) (rest : List String) (a : Atom)
    (found : resolveAtom name = some a) :
    activated (name :: rest) = .ofList a.leaves ∪ activated rest := by
  apply AtomSet.ext
  intro b
  simp only [activated, AtomSet.mem_union, AtomSet.mem_ofList, List.flatMap_cons, List.mem_append,
    named, found, Option.elim]

theorem atoms_ofAtom (a : Atom) :
    (Chord.ofAtom a : Chord Value).atoms = .ok (.ofList a.leaves) := by
  rw [Chord.atoms_of_sound _ (Chord.ofAtom_sound a), Chord.leaves_ofAtom]

theorem activeSet_cons (name : String) (rest : List String) (a : Atom)
    (found : resolveAtom name = some a) :
    activeSet (name :: rest) = (activeSet rest).map (AtomSet.ofList a.leaves ∪ ·) := by
  have stands : (resolveKeyword name : Option (Chord Value)) = some (.ofAtom a) := by
    rw [resolveKeyword, found]
    rfl
  simp only [activeSet, stands, atoms_ofAtom]
  cases activeSet rest <;> rfl

theorem activeSet_of_known (names : List String) (known : Known names) :
    activeSet names = .ok (activated names) := by
  induction names with
  | nil =>
      have nothing : activated [] = ∅ := by
        apply AtomSet.ext
        intro b
        simp [activated, AtomSet.mem_ofList, AtomSet.not_mem_empty]
      rw [nothing]
      rfl
  | cons name rest ih =>
      obtain ⟨here, later⟩ := List.forall_mem_cons.mp known
      obtain ⟨a, found⟩ := Option.isSome_iff_exists.mp here
      rw [activeSet_cons name rest a found, ih later, activated_cons name rest a found]
      rfl

theorem activeSet_of_unknown (names : List String) (name : String)
    (first : names.find? (fun n => (resolveAtom n).isNone) = some name) :
    activeSet names = .error name := by
  induction names with
  | nil => cases first
  | cons other rest ih =>
      cases found : resolveAtom other with
      | none =>
          rw [List.find?_cons_of_pos (by simp [found])] at first
          cases first
          simp [activeSet, resolveKeyword, found]
      | some a =>
          rw [List.find?_cons_of_neg (by simp [found])] at first
          rw [activeSet_cons other rest a found, ih first]
          rfl

theorem holds_of_parse (e : String) (t : Option (Chord Value)) (parsed : parse e = .ok t)
    (active : AtomSet) : holds active t = t.any (·.holds active) := by
  cases t with
  | none => rfl
  | some t =>
      rw [holds, t.eval_of_sound active (parse_closed Grammar.closed_sound e t parsed)]
      rfl

section Eval

variable (trace : Bool) (e : String) (names : List String)

def answer (b : Bool) : String := if b then "true" else "false"

theorem eval_of_rejected (err : CompileError)
    (stopped : (parse e : Except CompileError (Option (Chord Value))) = .error err) :
    ∃ reason, err = .rejected reason ∧
      eval trace e names =
        ⟨[rejectedLine reason], (Parsing.run trace e : Parsing Value).records, 1⟩ := by
  obtain ⟨reason, rfl⟩ := rejected_of_parse e err stopped
  refine ⟨reason, rfl, ?_⟩
  simp only [eval, Parsing.run_outcome, stopped, outcomeLine]

theorem eval_of_unknown (t : Option (Chord Value)) (parsed : parse e = .ok t) (name : String)
    (first : names.find? (fun n => (resolveAtom n).isNone) = some name) :
    eval trace e names = ⟨["error unknown active input " ++ Text.quote name],
      (Parsing.run trace e : Parsing Value).records, 1⟩ := by
  simp only [eval, Parsing.run_outcome, parsed, activeSet_of_unknown names name first]

theorem eval_of_known (t : Option (Chord Value)) (parsed : parse e = .ok t) (known : Known names) :
    eval trace e names = ⟨[answer (t.any (·.holds (activated names)))],
      (Parsing.run trace e : Parsing Value).records, 0⟩ := by
  simp only [eval, Parsing.run_outcome, parsed, activeSet_of_known names known,
    holds_of_parse e t parsed, answer]

theorem eval_congr_names (others : List String) (known : Known names) (knownToo : Known others)
    (same : ∀ b, b ∈ activated names ↔ b ∈ activated others) :
    eval trace e names = eval trace e others := by
  cases parsed : (parse e : Except CompileError (Option (Chord Value))) with
  | error err =>
      obtain ⟨reason, rfl, here⟩ := eval_of_rejected trace e names err parsed
      obtain ⟨_, equal, there⟩ := eval_of_rejected trace e others _ parsed
      cases equal
      rw [here, there]
  | ok t =>
      rw [eval_of_known trace e names t parsed known,
        eval_of_known trace e others t parsed knownToo,
        AtomSet.ext same]

theorem eval_of_members (others : List String) (known : Known names)
    (same : ∀ name, name ∈ names ↔ name ∈ others) :
    eval trace e names = eval trace e others := by
  apply eval_congr_names trace e names others known
  · intro name member
    exact known name ((same name).mpr member)
  · intro b
    simp only [mem_activated, same]

theorem eval_replace (before first second after : List String)
    (known : Known (before ++ first ++ after)) (knownToo : Known second)
    (alike : first.flatMap named = second.flatMap named) :
    eval trace e (before ++ first ++ after) = eval trace e (before ++ second ++ after) := by
  apply eval_congr_names trace e _ _ known
  · intro name member
    rcases List.mem_append.mp member with inside | later
    · rcases List.mem_append.mp inside with earlier | here
      · exact known name (List.mem_append_left _ (List.mem_append_left _ earlier))
      · exact knownToo name here
    · exact known name (List.mem_append_right _ later)
  · intro b
    simp only [activated, List.flatMap_append, alike]

end Eval

theorem named_of_goesBy (a : Atom) (name : String) (known : a.GoesBy name)
    (apart : ¬ a.Shadowed name) : resolveAtom name = some a ∧ named name = a.leaves := by
  have found := (resolveAtom_or_shadowed a name known).resolve_right apart
  refine ⟨found, ?_⟩
  rw [named, found]
  rfl

theorem holds_ofAtom (active : AtomSet) (a : Atom) (within : ∀ b ∈ a.leaves, b ∈ active) :
    (Chord.ofAtom a : Chord Value).holds active = true := by
  unfold Chord.ofAtom
  unfold Atom.leaves at within
  cases sides : a.parts with
  | none =>
      rw [sides] at within
      exact decide_eq_true (within a (List.mem_singleton_self a))
  | some both =>
      rw [sides] at within
      have first := within both.1 (List.mem_cons_self ..)
      simp [Chord.holds, Connective.apply, first]

theorem parse_keyword (name : String) (a : Atom) (found : resolveAtom name = some a)
    (single : Token.tokenize name = [⟨.keyword, name, 0⟩]) :
    (parse name : Except CompileError (Option (Chord Value))) = .ok (some (.ofAtom a)) := by
  let d : Grammar.Derivation := .one (.one (.plain (.keyword ⟨.keyword, name, 0⟩ rfl)))
  have reading : d.chord = .ok (.ofAtom a : Chord Value) := by
    simp only [d, Grammar.Phrase.chord, Token.leaf, found]
  have derives : d.tokens = Token.tokenize name := single.symm
  rw [Grammar.Phrase.parse_eq_chord name d derives, reading]

theorem eval_self (trace : Bool) (name : String) (a : Atom) (found : resolveAtom name = some a)
    (single : Token.tokenize name = [⟨.keyword, name, 0⟩]) :
    eval trace name [name] = ⟨["true"], (Parsing.run trace name : Parsing Value).records, 0⟩ := by
  have known : Known [name] := by simp [Known, found]
  have within : ∀ b ∈ a.leaves, b ∈ activated [name] := by
    intro b leaf
    exact (mem_activated [name] b).mpr ⟨name, List.mem_singleton_self name, a, found, leaf⟩
  rw [eval_of_known trace name [name] _ (parse_keyword name a found single) known]
  simp only [Option.any_some, holds_ofAtom _ a within, answer, if_true]

theorem run_of_read (env : Environment) (stamp : Log.Stamp) (disk : Log.Disk) (p : Log.Pipeline)
    (words : List String) (i : Invocation) (level : String) (settings : Settings)
    (read : Invocation.ofWords words = .ok i) (fallback : Settings.levelName env "INFO" = .ok level)
    (loaded : Settings.load env = .ok settings)
    (opened : (openLog ((nonEmpty i.logLevel).getD level) i disk p).2 = none) :
    ∃ r, run env stamp disk p words = .ok r ∧
      r.output = String.join ((i.request.run settings.parseTrace).lines.map (· ++ "\n")) ∧
      r.status = (i.request.run settings.parseTrace).status := by
  rw [run, read, fallback, loaded]
  simp only [Except.mapError, bind, Except.bind, opened]
  exact ⟨_, rfl, rfl, rfl⟩

/-- An expression that cannot be read is reported, whatever the names are. Otherwise the first
name that stands for no atom is reported. With none of either the answer is whether there is a
chord and it holds under the atoms of all names, so that names may change places, be repeated,
give way to other names of their atoms and, for a composite, to names of its two sides, shadowed
names apart. A keyword holds under itself. All this is what the whole command prints and the
status it ends with. -/
theorem evaluation_under_names :
    (∀ (trace : Bool) (e : String) (names : List String) (err : CompileError),
      (parse e : Except CompileError (Option (Chord Value))) = .error err →
      ∃ reason, err = .rejected reason ∧ (eval trace e names).lines = [rejectedLine reason] ∧
        (eval trace e names).status = 1) ∧
    (∀ (trace : Bool) (e : String) (names : List String) (t : Option (Chord Value)) (name : String),
      parse e = .ok t → names.find? (fun n => (resolveAtom n).isNone) = some name →
      (eval trace e names).lines = ["error unknown active input " ++ Text.quote name] ∧
        (eval trace e names).status = 1) ∧
    (∀ (trace : Bool) (e : String) (names : List String) (t : Option (Chord Value)),
      parse e = .ok t → Known names →
      (eval trace e names).lines = [answer (t.any (·.holds (activated names)))] ∧
        (eval trace e names).status = 0) ∧
    (∀ (names : List String) (b : Atom),
      b ∈ activated names ↔ ∃ name ∈ names, ∃ a, resolveAtom name = some a ∧ b ∈ a.leaves) ∧
    (∀ (trace : Bool) (e : String) (names others : List String),
      Known names → (∀ name, name ∈ names ↔ name ∈ others) →
      eval trace e names = eval trace e others) ∧
    (∀ (trace : Bool) (e : String) (before after : List String) (m n : String) (a : Atom),
      Known (before ++ [m] ++ after) → resolveAtom m = some a → a.GoesBy n → ¬ a.Shadowed n →
      eval trace e (before ++ [m] ++ after) = eval trace e (before ++ [n] ++ after)) ∧
    (∀ (trace : Bool) (e : String) (before after : List String) (m l r : String) (a x y : Atom),
      Known (before ++ [m] ++ after) → resolveAtom m = some a → a.parts = some (x, y) →
      x.GoesBy l → ¬ x.Shadowed l → y.GoesBy r → ¬ y.Shadowed r →
      eval trace e (before ++ [m] ++ after) = eval trace e (before ++ [l, r] ++ after)) ∧
    (∀ (trace : Bool) (name : String) (a : Atom),
      resolveAtom name = some a → Token.tokenize name = [⟨.keyword, name, 0⟩] →
      (eval trace name [name]).lines = ["true"] ∧ (eval trace name [name]).status = 0) ∧
    (∀ (e : String) (names : List String), (∀ text ∈ e :: names, "-".isPrefixOf text = false) →
      Invocation.ofWords ("eval" :: e :: "--active" :: names) =
        .ok ⟨none, none, "json", .eval e names⟩) ∧
    ∀ (env : Environment) (stamp : Log.Stamp) (disk : Log.Disk) (p : Log.Pipeline)
      (words : List String) (i : Invocation) (e : String) (names : List String) (level : String)
      (settings : Settings),
      Invocation.ofWords words = .ok i → i.request = .eval e names →
      Settings.levelName env "INFO" = .ok level → Settings.load env = .ok settings →
      (openLog ((nonEmpty i.logLevel).getD level) i disk p).2 = none →
      ∃ r, run env stamp disk p words = .ok r ∧
        r.output = String.join ((eval settings.parseTrace e names).lines.map (· ++ "\n")) ∧
        r.status = (eval settings.parseTrace e names).status := by
  refine ⟨?_, ?_, ?_, mem_activated, ?_, ?_, ?_, ?_, ofWords_eval, ?_⟩
  · intro trace e names err stopped
    obtain ⟨reason, rejected, reported⟩ := eval_of_rejected trace e names err stopped
    rw [reported]
    exact ⟨reason, rejected, rfl, rfl⟩
  · intro trace e names t name parsed first
    rw [eval_of_unknown trace e names t parsed name first]
    exact ⟨rfl, rfl⟩
  · intro trace e names t parsed known
    rw [eval_of_known trace e names t parsed known]
    exact ⟨rfl, rfl⟩
  · intro trace e names others known same
    exact eval_of_members trace e names others known same
  · intro trace e before after m n a known found goesBy apart
    obtain ⟨foundToo, leaves⟩ := named_of_goesBy a n goesBy apart
    apply eval_replace trace e before [m] [n] after known
    · simp [Known, foundToo]
    · simp [named, found, foundToo]
  · intro trace e before after m l r a x y known found sides left leftApart right rightApart
    obtain ⟨foundLeft, _⟩ := named_of_goesBy x l left leftApart
    obtain ⟨foundRight, _⟩ := named_of_goesBy y r right rightApart
    obtain ⟨single, singleToo⟩ := Atom.parts_of_part sides
    apply eval_replace trace e before [m] [l, r] after known
    · simp [Known, foundLeft, foundRight]
    · simp [named, found, foundLeft, foundRight, Atom.leaves, sides, single, singleToo]
  · intro trace name a found single
    rw [eval_self trace name a found single]
    exact ⟨rfl, rfl⟩
  · intro env stamp disk p words i e names level settings read asked fallback loaded opened
    have whole := run_of_read env stamp disk p words i level settings read fallback loaded opened
    rw [asked] at whole
    exact whole

/-- Nothing goes by the name `_`, and nothing is opened before `)`. -/
theorem evaluation_under_names_click :
    (eval false ")" ["_"]).status = 1 ∧
    (eval false "Click" ["Click", "_"]).lines = ["error unknown active input '_'"] ∧
    (eval false "Click" ["Click"]).lines = ["true"] ∧
    eval false "Click" ["Click", "A"] = eval false "Click" ["A", "Click", "A"] ∧
    eval false "Click" ["A", "Click"] = eval false "Click" ["A", "mouse_left"] ∧
    eval false "A + Ctrl" ["A", "Ctrl"] = eval false "A + Ctrl" ["A", "L-Ctrl", "rcontrol"] ∧
    ∃ r, run [] ⟨"T", "T"⟩ .ready .start ["eval", "Click", "--active", "Click"] = .ok r ∧
      r.output = "true\n" ∧ r.status = 0 := by
  have resolves (a : Atom) (name : String) (known : a.GoesBy name) (apart : ¬ a.Shadowed name) :
      resolveAtom name = some a := (named_of_goesBy a name known apart).1
  have letter := resolves (.key (.letter 0)) "A" (by decide +kernel) (by decide +kernel)
  have click := resolves (.click .left) "Click" (by decide +kernel) (by decide +kernel)
  have ctrl := resolves (.key (.modifier .ctrl none)) "Ctrl" (by decide +kernel) (by decide +kernel)
  have nameless : resolveAtom "_" = none := by
    rw [resolveAtom, if_pos (by decide +kernel)]
  have single : Token.tokenize "Click" = [⟨.keyword, "Click", 0⟩] := by decide +kernel
  have parsed := parse_keyword "Click" _ click single
  have unopened : Token.reorder ")" (Token.tokenize ")") =
      .error (.rejected ⟨.unopened, ")", some ")", some 0⟩) := by
    have tokens : Token.tokenize ")" = [⟨.closing, ")", 0⟩] := by decide +kernel
    rw [tokens]
    rfl
  obtain ⟨rejected, unknown, _, _, permuted, aliased, sided, self, read, whole⟩ :=
    evaluation_under_names
  obtain ⟨printed, done⟩ := self false "Click" _ click single
  refine ⟨?_, ?_, printed, ?_, ?_, ?_, ?_⟩
  · obtain ⟨_, _, _, failed⟩ := rejected false ")" ["_"] _ (parse_of_rejected ")" _ unopened)
    exact failed
  · have first : ["Click", "_"].find? (fun n => (resolveAtom n).isNone) = some "_" := by
      simp [click, nameless]
    obtain ⟨reported, _⟩ := unknown false "Click" _ _ _ parsed first
    rw [reported]
    decide +kernel
  · apply permuted
    · simp [Known, click, letter]
    · intro name
      simp [or_comm]
  · exact aliased false "Click" ["A"] [] "Click" "mouse_left" _ (by simp [Known, click, letter])
      click (by decide +kernel) (by decide +kernel)
  · exact sided false "A + Ctrl" ["A"] [] "Ctrl" "L-Ctrl" "rcontrol" _ _ _
      (by simp [Known, ctrl, letter]) ctrl rfl (by decide +kernel) (by decide +kernel)
      (by decide +kernel) (by decide +kernel)
  · have words := read "Click" ["Click"] (by decide +kernel)
    obtain ⟨settings, loaded⟩ : ∃ settings, Settings.load [] = .ok settings := ⟨_, rfl⟩
    obtain ⟨r, ran, output, status⟩ :=
      whole [] ⟨"T", "T"⟩ .ready .start _ _ "Click" ["Click"] "INFO"
      settings words rfl rfl loaded (by decide +kernel)
    obtain ⟨lines, exit⟩ := self settings.parseTrace "Click" _ click single
    refine ⟨r, ran, ?_, ?_⟩
    · rw [output, lines]
      decide +kernel
    · rw [status, exit]

/-- `MouseLeft` is a name of the movement that `MouseMoveLeft` stands for, and with `MouseRight` it
names the two sides of `MouseHorizontal`. But these names are asked of clicks first, and neither
chord holds under them. -/
theorem evaluation_under_shadowed_names :
    resolveAtom "MouseMoveLeft" = some (.movement (.toward .left)) ∧
    (Atom.movement (.toward .left)).GoesBy "MouseLeft" ∧
    (Atom.movement (.toward .right)).GoesBy "MouseRight" ∧
    Known ["MouseLeft", "MouseRight"] ∧
    (eval false "MouseMoveLeft" ["MouseMoveLeft"]).lines = ["true"] ∧
    (eval false "MouseMoveLeft" ["MouseLeft"]).lines = ["false"] ∧
    (eval false "MouseHorizontal" ["MouseHorizontal"]).lines = ["true"] ∧
    (eval false "MouseHorizontal" ["MouseLeft", "MouseRight"]).lines = ["false"] := by
  have resolves (a : Atom) (name : String) (known : a.GoesBy name) (apart : ¬ a.Shadowed name) :
      resolveAtom name = some a := (named_of_goesBy a name known apart).1
  have left := resolves (.movement (.toward .left)) "MouseMoveLeft" (by decide +kernel)
    (by decide +kernel)
  have horizontal := resolves (.movement (.along .horizontal)) "MouseHorizontal" (by decide +kernel)
    (by decide +kernel)
  have leftClick := resolves (.click .left) "MouseLeft" (by decide +kernel) (by decide +kernel)
  have rightClick := resolves (.click .right) "MouseRight" (by decide +kernel) (by decide +kernel)
  have tokens : Token.tokenize "MouseMoveLeft" = [⟨.keyword, "MouseMoveLeft", 0⟩] := by
    decide +kernel
  have tokensToo : Token.tokenize "MouseHorizontal" = [⟨.keyword, "MouseHorizontal", 0⟩] := by
    decide +kernel
  have known : Known ["MouseLeft", "MouseRight"] := by simp [Known, leftClick, rightClick]
  have knownLeft : Known ["MouseLeft"] := by simp [Known, leftClick]
  have clicks : activated ["MouseLeft", "MouseRight"] = .ofList [.click .left, .click .right] := by
    simp [activated, named, leftClick, rightClick, Atom.leaves, Atom.parts]
  have click : activated ["MouseLeft"] = .ofList [.click .left] := by
    simp [activated, named, leftClick, Atom.leaves, Atom.parts]
  refine ⟨left, by decide +kernel, by decide +kernel, known, ?_, ?_, ?_, ?_⟩
  · rw [eval_self false _ _ left tokens]
  · rw [eval_of_known false _ _ _ (parse_keyword _ _ left tokens) knownLeft, click]
    rfl
  · rw [eval_self false _ _ horizontal tokensToo]
  · rw [eval_of_known false _ _ _ (parse_keyword _ _ horizontal tokensToo) known, clicks]
    rfl

end InputChords.Command
