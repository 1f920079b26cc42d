import Mathlib.Data.List.Induction
import InputChords.Log.Pipeline
import InputChords.Proofs.Outcome

/-! Runs of a log as the calls that a program makes. Where records go depends on the last
configuration that was put in place and on what became of its file since, and on nothing else that
was called before. -/

namespace InputChords.Log

namespace Config

def rootLevel (c : Config) : Option Level :=
  match LevelName.of c.level with
  | .level level => some level
  | .unknown => some .info
  | .template => none
  | .styles => none

def Denied (c : Config) (disk : Disk) : Prop := c.path.isSome = true ∧ disk.denial.isSome = true

/-- The records that are let in, and that the handler does not drop. -/
def admits (c : Config) (r : Record) : Bool :=
  c.rootLevel.any (fun level => decide (0 < r.level.rank ∧ level.rank ≤ r.level.rank)) &&
    !r.isLost (some c.handler)

end Config

theorem Config.handler_of_path {c : Config} (filed : c.path.isSome = true) :
    c.handler = .queue := by
  rw [handler, if_pos filed]

theorem Config.listener_of_unfiled {c : Config} (unfiled : ¬ c.path.isSome = true) (disk : Disk) :
    c.listener disk = none := by
  rw [listener, Option.not_isSome_iff_eq_none.mp unfiled, Option.map_none]

theorem Config.filter_listener (c : Config) (disk : Disk) :
    (c.listener disk).filter (·.opens) = if disk.opens then c.listener disk else none := by
  rw [listener]
  cases c.path <;> cases disk.opens <;> rfl

inductive Call where
  | configure (config : Config) (disk : Disk)
  | setup (level : String)
  | shutdown
  | log (stamp : Stamp) (r : Record)

/-- After the call nothing is written to the file of the configuration any more, or to its
console. -/
def Config.closes (c : Config) (disk : Disk) : Call → Bool
  | .shutdown => true
  | .log _ r => !disk.opens && c.admits r
  | _ => false

/-- The file was shut down, or it could not be opened for the first record. -/
def Config.Closed (c : Config) (disk : Disk) (later : List Call) : Prop :=
  c.path.isSome = true ∧ ∃ call ∈ later, c.closes disk call = true

instance (c : Config) (disk : Disk) (later : List Call) : Decidable (c.Closed disk later) :=
  inferInstanceAs (Decidable (_ ∧ _))

theorem Config.closed_iff_of_opens {c : Config} {disk : Disk} (opens : disk.opens = true)
    (later : List Call) :
    c.Closed disk later ↔ c.path.isSome = true ∧ Call.shutdown ∈ later := by
  have only (call : Call) : c.closes disk call = true ↔ call = .shutdown := by
    cases call <;> simp [closes, opens]
  simp only [Closed, only, exists_eq_right]

namespace Pipeline

def unlessFault : Pipeline × Option PipelineFault → Except PipelineFault Pipeline
  | (p, none) => .ok p
  | (_, some fault) => .error fault

def call (p : Pipeline) : Call → Except PipelineFault Pipeline
  | .configure config disk => unlessFault (p.configure config disk)
  | .setup level => unlessFault (p.setup level)
  | .shutdown => .ok p.shutdown
  | .log stamp r => unlessFault (p.log stamp r)

def play (p : Pipeline) : List Call → Except PipelineFault Pipeline
  | [] => .ok p
  | c :: rest => (p.call c).bind fun q => q.play rest

theorem play_append (p : Pipeline) (first second : List Call) :
    p.play (first ++ second) = (p.play first).bind fun q => q.play second := by
  induction first generalizing p with
  | nil => rfl
  | cons c rest ih =>
      rw [List.cons_append, play, play]
      cases p.call c with
      | error fault => rfl
      | ok q => exact ih q

theorem play_snoc_eq_ok {p q : Pipeline} {calls : List Call} {c : Call}
    (played : p.play (calls ++ [c]) = .ok q) :
    ∃ between, p.play calls = .ok between ∧ between.call c = .ok q := by
  rw [play_append] at played
  obtain ⟨between, first, last⟩ := bind_eq_ok played
  obtain ⟨_, called, done⟩ := bind_eq_ok last
  cases done
  exact ⟨between, first, called⟩

def takes (p : Pipeline) (r : Record) : Bool := p.enabled r.level && !r.isLost p.handler

section Steps

variable (p : Pipeline) (c : Config) (disk : Disk) (stamp : Stamp) (r : Record)

inductive Ends : Pipeline × Option PipelineFault → Prop where
  | denied (denied : c.Denied disk) (reason : String) : Ends (p.shutdown, some (.denied reason))
  | levelless (allowed : ¬ c.Denied disk) (unknown : c.rootLevel = none)
    (fault : PipelineFault) : Ends (p.bare, some fault)
  | installed (allowed : ¬ c.Denied disk) (level : Level) (known : c.rootLevel = some level) :
    Ends (p.install c disk level, none)

theorem ends_configure : p.Ends c disk (p.configure c disk) := by
  have denied_iff : c.Denied disk ↔ (c.path.bind fun _ => disk.denial).isSome = true := by
    rw [Config.Denied]
    cases c.path <;> simp
  rw [configure]
  cases refused : c.path.bind fun _ => disk.denial with
  | some reason => exact .denied (denied_iff.mpr (by rw [refused]; rfl)) reason
  | none =>
      have allowed : ¬ c.Denied disk := by rw [denied_iff, refused]; exact Bool.false_ne_true
      have sets : c.rootLevel = _ := Config.rootLevel.eq_1 c
      cases named : LevelName.of c.level <;> rw [named] at sets
      · exact .installed allowed _ sets
      · exact .levelless allowed sets _
      · exact .levelless allowed sets _
      · exact .installed allowed _ sets

theorem configure_of_level {level : Level} (allowed : ¬ c.Denied disk)
    (known : c.rootLevel = some level) : p.configure c disk = (p.install c disk level, none) := by
  have ends := p.ends_configure c disk
  generalize p.configure c disk = result at ends
  cases ends with
  | denied denied reason => exact absurd denied allowed
  | levelless _ unknown fault =>
      rw [known] at unknown
      cases unknown
  | installed _ other set =>
      rw [known] at set
      cases set
      rfl

theorem call_configure_ok {q : Pipeline} (done : p.call (.configure c disk) = .ok q) :
    ∃ level, c.rootLevel = some level ∧ q = p.install c disk level := by
  change unlessFault (p.configure c disk) = _ at done
  have ends := p.ends_configure c disk
  generalize p.configure c disk = result at ends done
  cases ends with
  | denied _ reason => cases done
  | levelless _ _ fault => cases done
  | installed _ level known =>
      cases done
      exact ⟨level, known, rfl⟩

theorem call_setup_handled (name : String) (handled : p.handler.isSome = true) :
    p.call (.setup name) = .ok p := by
  show unlessFault (p.setup name) = _
  rw [setup, if_pos handled]
  rfl

theorem call_setup_bare (name : String) (bare : p.handler = none) :
    p.call (.setup name) = p.call (.configure (.minimal name) .ready) := by
  show unlessFault (p.setup name) = _
  rw [setup, if_neg (by simp [bare])]
  rfl

theorem call_log_of_level {q done : Pipeline} (logged : p.call (.log stamp r) = .ok done)
    (same : q.level = p.level) :
    q.call (.log stamp r) = .ok (if q.takes r then q.emit stamp r else q) := by
  change unlessFault (p.log stamp r) = _ at logged
  show unlessFault (q.log stamp r) = _
  have equally : q.enabled r.level = p.enabled r.level := by rw [enabled, enabled, same]
  unfold log at logged ⊢
  rw [takes, equally]
  cases enabled : p.enabled r.level with
  | false => rfl
  | true =>
      rw [enabled] at logged
      cases reserved : r.extras.find? fun extra => isReserved extra.1 with
      | none => cases r.isLost q.handler <;> rfl
      | some extra =>
          rw [reserved] at logged
          cases logged

theorem call_log_ok {q : Pipeline} (done : p.call (.log stamp r) = .ok q) :
    q = if p.takes r then p.emit stamp r else p := by
  rw [p.call_log_of_level stamp r done rfl] at done
  cases done
  rfl

theorem emit_controls : (p.emit stamp r).level = p.level ∧
    (p.emit stamp r).handler = p.handler ∧
    (p.emit stamp r).listener =
      if p.handler = some .queue then p.listener.filter (·.opens) else p.listener := by
  rw [emit]
  cases handled : p.handler with
  | none =>
      dsimp only
      split <;> exact ⟨rfl, handled, rfl⟩
  | some handler =>
      cases handler with
      | console format => exact ⟨rfl, handled, rfl⟩
      | queue =>
          dsimp only
          rw [hear]
          cases heard : p.listener with
          | none => exact ⟨rfl, handled, heard⟩
          | some l =>
              dsimp only
              rw [take]
              cases opens : l.opens <;> simp [writeFile, writeConsole, shutdown, heard, handled,
                Option.filter, opens]

end Steps

def Queued (p : Pipeline) : Prop := p.listener.isSome = true → p.handler = some .queue

section Queued

variable {p : Pipeline}

theorem queued_shutdown (p : Pipeline) : p.shutdown.Queued := nofun

theorem queued_configure (p : Pipeline) (c : Config) (disk : Disk) :
    (p.configure c disk).1.Queued := by
  have ends := p.ends_configure c disk
  generalize p.configure c disk = result at ends
  cases ends with
  | denied _ reason => exact p.queued_shutdown
  | levelless _ _ fault => exact nofun
  | installed _ level _ =>
      intro heard
      rw [install, Config.listener, Option.isSome_map] at heard
      exact congrArg some (Config.handler_of_path heard)

theorem Queued.setup (queued : p.Queued) (name : String) : (p.setup name).1.Queued := by
  rw [Pipeline.setup]
  split
  · exact queued
  · exact p.queued_configure _ _

theorem Queued.emit (queued : p.Queued) (stamp : Stamp) (r : Record) : (p.emit stamp r).Queued := by
  obtain ⟨-, handler, listener⟩ := p.emit_controls stamp r
  intro heard
  rw [handler]
  by_cases waits : p.handler = some .queue
  · exact waits
  · rw [listener, if_neg waits] at heard
    exact queued heard

theorem Queued.log (queued : p.Queued) (stamp : Stamp) (r : Record) : (p.log stamp r).1.Queued := by
  rw [Pipeline.log]
  split
  · split
    · exact queued
    · dsimp only
      split
      · exact queued
      · exact queued.emit stamp r
  · exact queued

end Queued

end Pipeline

/-- What becomes of the records of a run from here on. -/
inductive Regime where
  | bare
  | live (c : Config) (disk : Disk)
  | stopped (c : Config)
  deriving DecidableEq, Repr

namespace Regime

def next : Regime → Call → Regime
  | _, .configure c disk => live c disk
  | bare, .setup name => live (.minimal name) .ready
  | live c disk, call => if c.path.isSome && c.closes disk call then stopped c else live c disk
  | regime, _ => regime

def after (calls : List Call) : Regime := calls.foldl next bare

theorem after_snoc (calls : List Call) (call : Call) :
    after (calls ++ [call]) = (after calls).next call := by
  rw [after, List.foldl_append]
  rfl

end Regime

def Pipeline.Obeys (p : Pipeline) : Regime → Prop
  | .bare => p.level = .warning ∧ p.handler = none ∧ p.listener = none
  | .live c disk =>
    c.rootLevel = some p.level ∧ p.handler = some c.handler ∧ p.listener = c.listener disk
  | .stopped c => c.rootLevel = some p.level ∧ p.handler = some .queue ∧ p.listener = none

namespace Pipeline

variable {p q : Pipeline} {regime : Regime}

theorem Obeys.handler_eq_none (obeys : p.Obeys regime) : p.handler = none ↔ regime = .bare := by
  cases regime with
  | bare => simp [obeys.2.1]
  | live c disk => simp [obeys.2.1]
  | stopped c => simp [obeys.2.1]

theorem Obeys.takes {c : Config} {disk : Disk} (obeys : p.Obeys (.live c disk)) (r : Record) :
    p.takes r = c.admits r := by
  rw [Config.admits, Pipeline.takes, obeys.1, obeys.2.1]
  rfl

theorem Obeys.log (obeys : p.Obeys regime) {stamp : Stamp} {r : Record}
    (done : p.call (.log stamp r) = .ok q) : q.Obeys (regime.next (.log stamp r)) := by
  obtain ⟨level, handler, listener⟩ := p.emit_controls stamp r
  rw [p.call_log_ok stamp r done]
  cases regime with
  | bare =>
      obtain ⟨warning, unhandled, unheard⟩ := obeys
      rw [unhandled, if_neg nofun] at listener
      split
      · exact ⟨level.trans warning, handler.trans unhandled, listener.trans unheard⟩
      · exact ⟨warning, unhandled, unheard⟩
  | stopped c =>
      obtain ⟨known, queued, unheard⟩ := obeys
      rw [queued, if_pos rfl, unheard] at listener
      split
      · exact ⟨by rw [level, known], handler.trans queued, listener⟩
      · exact ⟨known, queued, unheard⟩
  | live c disk =>
      have admitted := obeys.takes r
      obtain ⟨known, handled, heard⟩ := obeys
      have next : (Regime.live c disk).next (.log stamp r) =
          if c.path.isSome && (!disk.opens && c.admits r) then .stopped c else .live c disk := rfl
      rw [admitted, next]
      cases c.admits r with
      | false =>
          simp only [Bool.and_false, Bool.false_eq_true, if_false]
          exact ⟨known, handled, heard⟩
      | true =>
          have still : c.rootLevel = some (p.emit stamp r).level := by rw [level, known]
          have same := handler.trans handled
          rw [heard, c.filter_listener] at listener
          rw [if_pos rfl, Bool.and_true]
          -- only a listener whose file does not open goes
          by_cases filed : c.path.isSome = true
          · have queue := c.handler_of_path filed
            rw [handled, queue, if_pos rfl] at listener
            rw [filed, Bool.true_and]
            cases opens : disk.opens <;> rw [opens] at listener
            · exact ⟨still, by rw [same, queue], listener⟩
            · exact ⟨still, same, listener⟩
          · rw [c.listener_of_unfiled filed, ite_self, ite_self] at listener
            rw [Bool.eq_false_iff.mpr filed, Bool.false_and]
            exact ⟨still, same, listener.trans (c.listener_of_unfiled filed disk).symm⟩

theorem Obeys.call (obeys : p.Obeys regime) (c : Call) (done : p.call c = .ok q) :
    q.Obeys (regime.next c) := by
  cases c with
  | configure c disk =>
      obtain ⟨level, known, rfl⟩ := p.call_configure_ok c disk done
      cases regime <;> exact ⟨known, rfl, rfl⟩
  | setup name =>
      cases regime with
      | bare =>
          rw [p.call_setup_bare name obeys.2.1] at done
          obtain ⟨level, known, rfl⟩ := p.call_configure_ok _ _ done
          exact ⟨known, rfl, rfl⟩
      | live c disk =>
          rw [p.call_setup_handled name (by simp [obeys.2.1])] at done
          cases done
          simp only [Regime.next, Config.closes, Bool.and_false, Bool.false_eq_true, if_false]
          exact obeys
      | stopped c =>
          rw [p.call_setup_handled name (by simp [obeys.2.1])] at done
          cases done
          exact obeys
  | shutdown =>
      cases done
      cases regime with
      | bare => exact ⟨obeys.1, obeys.2.1, rfl⟩
      | live c disk =>
          obtain ⟨known, handler, listener⟩ := obeys
          have next : (Regime.live c disk).next .shutdown =
              if c.path.isSome && true then .stopped c else .live c disk := rfl
          rw [next, Bool.and_true]
          by_cases filed : c.path.isSome = true
          · rw [if_pos filed]
            exact ⟨known, handler.trans (by rw [c.handler_of_path filed]), rfl⟩
          · rw [if_neg filed]
            exact ⟨known, handler, (c.listener_of_unfiled filed disk).symm⟩
      | stopped c => exact ⟨obeys.1, obeys.2.1, rfl⟩
  | log stamp r => exact obeys.log done

/-- The last configuration and what became of its file since are all that counts. -/
theorem obeys_play {calls : List Call} {p : Pipeline} (played : start.play calls = .ok p) :
    p.Obeys (.after calls) := by
  induction calls using List.reverseRecOn generalizing p with
  | nil =>
      cases played
      exact ⟨rfl, rfl, rfl⟩
  | append_singleton calls c ih =>
      obtain ⟨between, first, last⟩ := play_snoc_eq_ok played
      rw [Regime.after_snoc]
      exact (ih first).call c last

end Pipeline

/-- The call puts a configuration in place. A setup does so where there is no handler. -/
inductive Call.Installs (earlier : List Call) : Call → Config → Disk → Prop where
  | configure (c : Config) (disk : Disk) : Installs earlier (.configure c disk) c disk
  | setup (name : String) {p : Pipeline} (played : Pipeline.start.play earlier = .ok p)
    (bare : p.handler = none) : Installs earlier (.setup name) (.minimal name) .ready

/-- One of the calls put `c` in place, and none of the calls `later` that were made since is a
configuration. -/
def InForce (calls : List Call) (c : Config) (disk : Disk) (later : List Call) : Prop :=
  ∃ earlier call, calls = earlier ++ call :: later ∧ call.Installs earlier c disk ∧
    ∀ other place, Call.configure other place ∉ later

theorem Call.Installs.inForce {earlier : List Call} {call : Call} {c : Config} {disk : Disk}
    (installs : call.Installs earlier c disk) : InForce (earlier ++ [call]) c disk [] :=
  ⟨earlier, call, rfl, installs, fun _ _ => List.not_mem_nil⟩

theorem InForce.snoc {calls later : List Call} {c : Config} {disk : Disk}
    (force : InForce calls c disk later) {call : Call}
    (kept : ∀ other place, call ≠ .configure other place) :
    InForce (calls ++ [call]) c disk (later ++ [call]) := by
  obtain ⟨earlier, installer, rfl, installs, keptBefore⟩ := force
  refine ⟨earlier, installer, by simp, installs, ?_⟩
  intro other place member
  rcases List.mem_append.mp member with before | here
  · exact keptBefore other place before
  · exact kept other place (List.mem_singleton.mp here).symm

theorem Config.closed_snoc {c : Config} {disk : Disk} {later : List Call} {call : Call} :
    c.Closed disk (later ++ [call]) ↔
      c.Closed disk later ∨ (c.path.isSome = true ∧ c.closes disk call = true) := by
  simp only [Closed, List.mem_append, List.mem_singleton, or_and_right, exists_or, exists_eq_left,
    and_or_left]

namespace Regime

theorem foldl_next (c : Config) (disk : Disk) (later : List Call)
    (kept : ∀ other place, Call.configure other place ∉ later) :
    later.foldl next (live c disk) = if c.Closed disk later then stopped c else live c disk := by
  -- on the calls from the last one back, for the regime that it meets
  induction later using List.reverseRecOn with
  | nil => simp [Config.Closed]
  | append_singleton later call ih =>
      have keptBefore : ∀ other place, Call.configure other place ∉ later :=
        fun other place member => kept other place (List.mem_append_left _ member)
      have step (regime : Regime) : regime = live c disk ∨ regime = stopped c →
          regime.next call =
            if regime = stopped c ∨ (c.path.isSome = true ∧ c.closes disk call = true)
            then stopped c else live c disk := by
        rintro (rfl | rfl) <;> cases call with
        | configure other place =>
            exact absurd (List.mem_append_right _ (List.mem_singleton_self _)) (kept other place)
        | _ => simp [next]
      rw [List.foldl_append, ih keptBefore, List.foldl_cons, List.foldl_nil]
      simp only [Config.closed_snoc]
      by_cases closed : c.Closed disk later
      · rw [if_pos closed, step _ (.inr rfl), if_pos (.inl rfl), if_pos (.inl closed)]
      · rw [if_neg closed, step _ (.inl rfl)]
        simp [closed]

theorem after_of_inForce {calls later : List Call} {c : Config} {disk : Disk}
    (force : InForce calls c disk later) :
    after calls = if c.Closed disk later then stopped c else live c disk := by
  obtain ⟨earlier, call, rfl, installs, kept⟩ := force
  have installed : (after earlier).next call = live c disk := by
    cases installs with
    | configure => cases after earlier <;> rfl
    | setup name played unhandled =>
        rw [(Pipeline.obeys_play played).handler_eq_none.mp unhandled]
        rfl
  calc
    after (earlier ++ call :: later) = later.foldl next ((after earlier).next call) := by
      rw [after, List.foldl_append, List.foldl_cons]
      rfl
    _ = _ := by rw [installed, foldl_next c disk later kept]

end Regime

end InputChords.Log
