import InputChords.Command
import InputChords.Proofs.LogSetup

/-! The log of a process that runs several commands. Each command opens the log, says what it does
and shuts the log down, so that a command without a file meets what the commands before it left. -/

namespace InputChords.Command

open Log

def Invocation.opening (level : String) (disk : Disk) (i : Invocation) : Call :=
  match nonEmpty i.logFile with
  | some file => .configure ⟨level, "text", some file, i.logFormat⟩ disk
  | none => .setup level

def LogsToFile (words : List String) : Prop :=
  ∃ i, Invocation.ofWords words = .ok i ∧ (nonEmpty i.logFile).isSome = true

/-- The state of the log after commands that one process runs one after the other, each with what
the system says about its file. -/
def session (env : Environment) (stamp : Stamp) (p : Pipeline)
    (commands : List (Disk × List String)) : Except Refusal Pipeline :=
  commands.foldlM (fun p command => (run env stamp command.1 p command.2).map (·.log)) p

section Records

def Plain (r : Record) : Prop := r.level = .debug ∧ r.extras = []

theorem plain_debug (logger message : String) : Plain (debug logger message) := ⟨rfl, rfl⟩

theorem plain_parsing (trace : Bool) (expression : String) :
    ∀ r ∈ (Parsing.run trace expression : Parsing Value).records, Plain r := by
  have failures {α : Type} (outcome : Except CompileError α) :
      ∀ r ∈ Parsing.failureRecords outcome, Plain r := by
    intro r member
    unfold Parsing.failureRecords at member
    split at member
    · rw [List.mem_singleton.mp member]
      exact plain_debug _ _
    · cases member
  unfold Parsing.run
  dsimp only
  split
  · exact failures _
  · intro r member
    rcases List.mem_append.mp member with traced | failed
    · split at traced
      · rw [List.mem_singleton.mp traced]
        exact plain_debug _ _
      · cases traced
    · exact failures _ r failed

theorem plain_report (trace : Bool) (request : Request) :
    ∀ r ∈ (request.run trace).records, Plain r := by
  cases request with
  | check expressions =>
      intro r member
      obtain ⟨parsing, listed, found⟩ := List.mem_flatMap.mp member
      obtain ⟨expression, -, rfl⟩ := List.mem_map.mp listed
      exact plain_parsing trace expression r found
  | eval expression names =>
      have same : (eval trace expression names).records =
          (Parsing.run trace expression : Parsing Value).records := by
        unfold eval
        dsimp only
        split
        · rfl
        · split <;> rfl
      show ∀ r ∈ (eval trace expression names).records, Plain r
      rw [same]
      exact plain_parsing trace expression
  | aliases category =>
      have quiet : (aliases category).records = [] := by
        unfold aliases
        split
        · rfl
        · split <;> rfl
      show ∀ r ∈ (aliases category).records, Plain r
      rw [quiet]
      exact fun r member => absurd member List.not_mem_nil
  | ambiguities =>
      have quiet (found : List (String × List Category)) : (sharedNames found).records = [] := by
        cases found <;> rfl
      show ∀ r ∈ (sharedNames _).records, Plain r
      rw [quiet]
      exact fun r member => absurd member List.not_mem_nil

theorem play_plain (p : Pipeline) (stamp : Stamp) (records : List Record)
    (plain : ∀ r ∈ records, Plain r) :
    p.play (records.map (.log stamp)) = .ok (p.logAll stamp records) := by
  induction records generalizing p with
  | nil => rfl
  | cons r rest ih =>
      have bare := (plain r List.mem_cons_self).2
      have logged : p.call (.log stamp r) = .ok (p.log stamp r).1 := by
        show Pipeline.unlessFault (p.log stamp r) = _
        unfold Pipeline.log
        rw [bare]
        split <;> rfl
      rw [List.map_cons, Pipeline.play, logged]
      exact ih _ fun other member => plain other (List.mem_cons_of_mem _ member)

end Records

theorem call_opening {p opened : Pipeline} {level : String} {disk : Disk} {i : Invocation}
    (kept : openLog level i disk p = (opened, none)) :
    p.call (i.opening level disk) = .ok opened := by
  unfold openLog at kept
  unfold Invocation.opening
  cases file : nonEmpty i.logFile with
  | none =>
      rw [file] at kept
      exact congrArg Pipeline.unlessFault kept
  | some name =>
      rw [file] at kept
      exact congrArg Pipeline.unlessFault kept

section Run

variable {env : Environment} {stamp : Stamp} {disk : Disk} {p : Pipeline} {words : List String}
  {r : Result}

theorem run_log (ran : run env stamp disk p words = .ok r) :
    ∃ i level first rest opened written, Invocation.ofWords words = .ok i ∧
      p.call (i.opening level disk) = .ok opened ∧ (∀ record ∈ first :: rest, Plain record) ∧
      opened.play ((first :: rest).map (.log stamp)) = .ok written ∧ r.log = written.shutdown := by
  unfold run at ran
  obtain ⟨i, read, ran⟩ := bind_eq_ok ran
  obtain ⟨fallback, -, ran⟩ := bind_eq_ok ran
  obtain ⟨settings, -, ran⟩ := bind_eq_ok ran
  cases state : openLog ((nonEmpty i.logLevel).getD fallback) i disk p with
  | mk opened fault =>
      rw [state] at ran
      cases fault with
      | some fault => cases ran
      | none =>
          cases ran
          have plain : ∀ record ∈ debug logger ("cli_command command=" ++ i.request.name) ::
              (i.request.run settings.parseTrace).records, Plain record := by
            rw [List.forall_mem_cons]
            exact ⟨plain_debug _ _, plain_report _ _⟩
          exact ⟨i, _, _, _, opened, _, mapError_eq_ok read, call_opening state, plain,
            play_plain opened stamp _ plain, rfl⟩

end Run

theorem opening_of_file {i : Invocation} (filed : (nonEmpty i.logFile).isSome = true)
    (level : String) (disk : Disk) :
    ∃ c : Config, c.path.isSome = true ∧ i.opening level disk = .configure c disk := by
  obtain ⟨file, named⟩ := Option.isSome_iff_exists.mp filed
  refine ⟨⟨level, "text", some file, i.logFormat⟩, ?_, by rw [Invocation.opening, named]⟩
  unfold nonEmpty at named
  have filled := (Option.filter_eq_some_iff.mp named).2
  simp [Config.path, Option.filter, filled]

theorem opening_of_no_file {i : Invocation} (unfiled : nonEmpty i.logFile = none) (level : String)
    (disk : Disk) : i.opening level disk = .setup level := by
  rw [Invocation.opening, unfiled]

theorem logsToFile_iff {words : List String} {i : Invocation}
    (read : Invocation.ofWords words = .ok i) :
    LogsToFile words ↔ (nonEmpty i.logFile).isSome = true := by
  constructor
  · rintro ⟨j, again, filed⟩
    rw [read] at again
    cases again
    exact filed
  · exact fun filed => ⟨i, read, filed⟩

/-- What commands leave: a file that was closed once one of them had a file, and otherwise nothing
but a console. -/
structure Left (commands : List (Disk × List String)) (regime : Regime) : Prop where
  stopped : (∃ c, regime = .stopped c) ↔ ∃ command ∈ commands, LogsToFile command.2
  console : ∀ c disk, regime = .live c disk → c.path = none

section Next

variable {commands : List (Disk × List String)} {words : List String} {regime : Regime}
  {i : Invocation}

theorem next_setup_of_console (console : ∀ c disk, regime = .live c disk → c.path = none)
    (level : String) :
    (regime.next (.setup level)).next .shutdown =
      if regime = .bare then .live (.minimal level) .ready else regime := by
  cases regime with
  | bare => rfl
  | stopped c => rfl
  | live c disk =>
      have unfiled := console c disk rfl
      simp [Regime.next, unfiled]

theorem Left.command (left : Left commands regime) (read : Invocation.ofWords words = .ok i)
    (level : String) (disk : Disk) :
    Left (commands ++ [(disk, words)]) ((regime.next (i.opening level disk)).next .shutdown) := by
  have either : (∃ command ∈ commands ++ [(disk, words)], LogsToFile command.2) ↔
      (∃ command ∈ commands, LogsToFile command.2) ∨ LogsToFile words := by
    simp only [List.mem_append, List.mem_singleton, or_and_right, exists_or, exists_eq_left]
  cases file : nonEmpty i.logFile with
  | some name =>
      have filed : (nonEmpty i.logFile).isSome = true := by rw [file]; rfl
      obtain ⟨c, path, opening⟩ := opening_of_file filed level disk
      have closed : (regime.next (i.opening level disk)).next .shutdown = .stopped c := by
        rw [opening]
        show (if c.path.isSome && true then _ else _) = _
        rw [path]
        rfl
      rw [closed]
      exact ⟨iff_of_true ⟨c, rfl⟩ (either.mpr (.inr ((logsToFile_iff read).mpr filed))), nofun⟩
  | none =>
      have unfiled : ¬ LogsToFile words := by
        rw [logsToFile_iff read, file]
        decide
      -- only a log that nothing was set up on changes, and a console has nothing to shut down
      rw [opening_of_no_file file level, next_setup_of_console left.console]
      split
      · next bare =>
          have before := left.stopped
          rw [bare] at before
          refine ⟨?_, fun c disk live => by cases live; rfl⟩
          rw [either, ← before]
          simp [unfiled]
      · refine ⟨?_, left.console⟩
        rw [either, ← left.stopped]
        simp [unfiled]

theorem foldl_logs_shutdown (regime : Regime) (stamp : Stamp) (records : List Record) :
    ((records.map (.log stamp)).foldl Regime.next regime).next .shutdown =
      regime.next .shutdown := by
  induction records generalizing regime with
  | nil => rfl
  | cons r rest ih => exact (ih _).trans (regime.next_log_shutdown stamp r)

theorem Left.run {env : Environment} {stamp : Stamp} {disk : Disk} {p : Pipeline} {r : Result}
    (left : Left commands regime) (obeys : p.Obeys regime)
    (ran : Command.run env stamp disk p words = .ok r) :
    ∃ after, r.log.Obeys after ∧ Left (commands ++ [(disk, words)]) after := by
  obtain ⟨i, level, first, rest, opened, written, read, opening, -, logged, done⟩ := run_log ran
  have still := ((obeys.call _ opening).play logged).1.call .shutdown rfl
  rw [foldl_logs_shutdown] at still
  refine ⟨_, ?_, left.command read level disk⟩
  rw [done]
  exact still

end Next

theorem Plain.takes {r : Record} (plain : Plain r) (p : Pipeline) :
    p.takes r = p.enabled .debug := by
  rw [Pipeline.takes, Record.isLost, plain.1, plain.2]
  exact Bool.and_true _

end InputChords.Command
