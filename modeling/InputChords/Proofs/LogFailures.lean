import InputChords.Proofs.LogSetup

/-! Configurations that fail. The listener is stopped before anything can fail, and the handlers are
gone before the level is set, so a failure leaves the log as it was only where there was nothing
left to lose. -/

namespace InputChords.Log

namespace Pipeline

def attempt (p : Pipeline) : Call → Pipeline × Option PipelineFault
  | .configure c disk => p.configure c disk
  | .setup level => p.setup level
  | .shutdown => (p.shutdown, none)
  | .log stamp r => p.log stamp r

/-- The states of a log that is never given up, whatever fails. -/
inductive Reached : Pipeline → Prop where
  | start : Reached start
  | attempt {p : Pipeline} (reached : p.Reached) (call : Call) : (p.attempt call).1.Reached

variable {p : Pipeline}

theorem Reached.queued (reached : p.Reached) : p.Queued := by
  induction reached with
  | start => nofun
  | @attempt p reached call ih =>
      cases call with
      | configure c disk => exact p.queued_configure c disk
      | setup level => exact ih.setup level
      | shutdown => exact p.queued_shutdown
      | log stamp r => exact ih.log stamp r

theorem LevelName.rank_le (name : String) {level : Level}
    (named : LevelName.of name = .level level) :
    level.rank ≤ Level.critical.rank := by
  unfold LevelName.of at named
  dsimp only at named
  split at named
  · cases named
    decide
  · split at named
    · cases named
      decide
    · split at named
      · cases named
      · split at named
        · cases named
        · split at named
          · next found =>
              cases named
              exact (by decide : ∀ entry ∈ Level.named, entry.2.rank ≤ Level.critical.rank) _
                ((Named.get?_eq_some_iff (by decide) _ _).mp found)
          · cases named

theorem configure_rank_le (bounded : p.level.rank ≤ Level.critical.rank) (c : Config)
    (disk : Disk) :
    (p.configure c disk).1.level.rank ≤ Level.critical.rank := by
  rw [configure]
  split
  · exact bounded
  · split
    · next named => exact LevelName.rank_le c.level named
    · exact (by decide : Level.info.rank ≤ Level.critical.rank)
    · exact bounded
    · exact bounded

theorem Reached.rank_le (reached : p.Reached) : p.level.rank ≤ Level.critical.rank := by
  induction reached with
  | start => decide
  | @attempt p reached call ih =>
      cases call with
      | configure c disk => exact configure_rank_le ih c disk
      | setup level =>
          show (p.setup level).1.level.rank ≤ _
          rw [setup]
          split
          · exact ih
          · exact configure_rank_le ih _ _
      | shutdown => exact ih
      | log stamp r =>
          show (p.log stamp r).1.level.rank ≤ _
          have same : (p.log stamp r).1.level = p.level := by
            rw [log]
            split
            · split
              · rfl
              · dsimp only
                split
                · rfl
                · exact (p.emit_controls stamp r).1
            · rfl
          rw [same]
          exact ih

/-- Whatever the one log takes, the other one takes too, and it leaves the same on every sink. -/
def DeliversAs (q p : Pipeline) : Prop :=
  ∀ stamp r left, p.call (.log stamp r) = .ok left →
    ∃ now, q.call (.log stamp r) = .ok now ∧ ∀ sink, now.written sink = left.written sink

def loud : Record := ⟨.critical, "", "", [], none, none⟩

theorem call_log_loud (bounded : p.level.rank ≤ Level.critical.rank) (stamp : Stamp) :
    p.call (.log stamp loud) = .ok (p.emit stamp loud) := by
  have enabled : p.enabled loud.level = true := decide_eq_true ⟨by decide, bounded⟩
  show unlessFault (p.log stamp loud) = _
  rw [log, if_pos enabled]
  rfl

theorem DeliversAs.loud {q : Pipeline} (same : q.DeliversAs p)
    (bounded : p.level.rank ≤ Level.critical.rank) (level : q.level = p.level) (sink : Sink) :
    (q.emit ⟨"", ""⟩ loud).written sink = (p.emit ⟨"", ""⟩ loud).written sink := by
  obtain ⟨now, logged, written⟩ := same _ _ _ (call_log_loud bounded ⟨"", ""⟩)
  rw [call_log_loud (level ▸ bounded)] at logged
  cases logged
  exact written sink

theorem emit_heard {l : Listener} (queued : p.handler = some .queue) (heard : p.listener = some l)
    (stamp : Stamp) (r : Record) :
    (p.emit stamp r).written .console =
      p.written .console ++ linesOf (l.console.render stamp r.queued) := by
  rw [emit, queued]
  dsimp only
  rw [hear, heard]
  exact p.written_take l stamp r.queued .console

theorem emit_shutdown (queued : p.handler = some .queue) (stamp : Stamp) (r : Record) :
    p.shutdown.emit stamp r = p.shutdown := by
  rw [emit, shutdown, queued]
  rfl

theorem emit_bare (stamp : Stamp) (r : Record) (sink : Sink) :
    (if p.bare.takes r then p.bare.emit stamp r else p.bare).written sink =
      p.written sink ++ if p.enabled r.level then Regime.bare.share stamp r sink else [] := by
  have taken : p.bare.takes r = (p.enabled r.level && !r.isLost none) := rfl
  have emitted : p.bare.emit stamp r =
      if Level.warning.rank ≤ r.level.rank then p.bare.writeConsole r.text else p.bare := rfl
  rw [taken, emitted]
  cases sink <;> cases p.enabled r.level <;> cases lost : r.isLost none <;>
    by_cases loud : Level.warning.rank ≤ r.level.rank <;>
    simp [Regime.share, written_writeConsole, written_bare, lost, loud]

theorem shutdown_of_unheard (unheard : p.listener = none) : p.shutdown = p := by
  rw [shutdown, ← unheard]

theorem bare_of_unhandled (unhandled : p.handler = none) (unheard : p.listener = none) :
    p.bare = p := by
  rw [bare, ← unhandled, ← unheard]

theorem Reached.unheard_of_deliversAs (reached : p.Reached) (same : p.shutdown.DeliversAs p) :
    p.listener = none := by
  cases heard : p.listener with
  | none => rfl
  | some l =>
      have queued := reached.queued (by rw [heard]; rfl)
      have lost := same.loud reached.rank_le rfl .console
      rw [emit_shutdown queued, emit_heard queued heard, written_shutdown] at lost
      exact absurd (List.append_right_eq_self.mp lost.symm) (linesOf_ne_nil _)

theorem emit_bare_loud :
    (p.bare.emit ⟨"", ""⟩ loud).written .console = p.written .console ++ [""] :=
  rfl

theorem render_loud (format : Format) : linesOf (format.render ⟨"", ""⟩ loud) ≠ [""] := by
  cases format <;> decide +kernel

theorem unhandled_of_deliversAs_bare (bounded : p.level.rank ≤ Level.critical.rank)
    (same : p.bare.DeliversAs p) : p.handler = none := by
  have written := same.loud bounded rfl .console
  rw [emit_bare_loud] at written
  cases handled : p.handler with
  | none => rfl
  | some handler =>
      cases handler with
      | console format =>
          have formatted : (p.emit ⟨"", ""⟩ loud).written .console =
              p.written .console ++ linesOf (format.render ⟨"", ""⟩ loud) := by
            rw [emit, handled]
            rfl
          rw [formatted] at written
          exact absurd (List.append_cancel_left written).symm (render_loud format)
      | queue =>
          cases heard : p.listener with
          | none =>
              have lost : p.emit ⟨"", ""⟩ loud = p := by rw [emit, handled, hear, heard]
              rw [lost] at written
              exact absurd (List.append_right_eq_self.mp written) (List.cons_ne_nil _ _)
          | some l =>
              rw [emit_heard handled heard] at written
              exact absurd (List.append_cancel_left written).symm (render_loud l.console)

theorem DeliversAs.refl (p : Pipeline) : p.DeliversAs p :=
  fun _ _ left logged => ⟨left, logged, fun _ => rfl⟩

/-- What a configuration that failed makes of a log. -/
structure Failed (denied : Prop) (p q : Pipeline) : Prop where
  level : q.level = p.level
  written : ∀ sink, q.written sink = p.written sink
  unheard : q.listener = none
  kept : denied → q.handler = p.handler
  cleared : ¬ denied → q.handler = none
  unchanged : q = p ↔ p.listener = none ∧ (denied ∨ p.handler = none)
  delivers : q.DeliversAs p ↔ q = p
  silent : denied → p.listener.isSome = true → ∀ stamp r left, q.call (.log stamp r) = .ok left →
    ∀ sink, left.written sink = p.written sink
  message : ¬ denied → ∀ stamp r left, q.call (.log stamp r) = .ok left → ∀ sink,
    left.written sink =
      p.written sink ++ if p.enabled r.level then Regime.bare.share stamp r sink else []

theorem Reached.failed_shutdown (reached : p.Reached) {denied : Prop} (here : denied) :
    Failed denied p p.shutdown where
  level := rfl
  written := written_shutdown
  unheard := rfl
  kept _ := rfl
  cleared allowed := absurd here allowed
  unchanged := by
    constructor
    · intro same
      exact ⟨by rw [← same]; rfl, .inl here⟩
    · exact fun ⟨unheard, _⟩ => shutdown_of_unheard unheard
  delivers := by
    constructor
    · exact fun same => shutdown_of_unheard (reached.unheard_of_deliversAs same)
    · intro same
      rw [same]
      exact .refl p
  silent _ heard stamp r left logged sink := by
    rw [p.shutdown.call_log_ok stamp r logged, emit_shutdown (reached.queued heard), ite_self]
    exact written_shutdown sink
  message allowed := absurd here allowed

theorem Reached.failed_bare (reached : p.Reached) {denied : Prop} (allowed : ¬ denied) :
    Failed denied p p.bare where
  level := rfl
  written := written_bare
  unheard := rfl
  kept here := absurd here allowed
  cleared _ := rfl
  unchanged := by
    constructor
    · intro same
      exact ⟨by rw [← same]; rfl, .inr (by rw [← same]; rfl)⟩
    · exact fun ⟨unheard, unhandled⟩ => bare_of_unhandled (unhandled.resolve_left allowed) unheard
  delivers := by
    constructor
    · intro same
      have unhandled := unhandled_of_deliversAs_bare reached.rank_le same
      refine bare_of_unhandled unhandled ?_
      by_contra heard
      rw [reached.queued (Option.isSome_iff_ne_none.mpr heard)] at unhandled
      cases unhandled
    · intro same
      rw [same]
      exact .refl p
  silent here := absurd here allowed
  message _ stamp r left logged sink := by
    rw [p.bare.call_log_ok stamp r logged]
    exact emit_bare stamp r sink

/-- A configuration fails if the folder of its file is denied or its level is none, and this is what
it leaves: the listener is stopped in any case, and the handlers are lost with the level. Nothing
changes only where no listener ran and the handlers were kept or there were none, and nowhere else
are records delivered as before. -/
theorem failed_configuration (reached : p.Reached) (c : Config) (disk : Disk) :
    ((p.configure c disk).2.isSome = true ↔ c.Denied disk ∨ c.rootLevel = none) ∧
    ((p.configure c disk).2.isSome = true → Failed (c.Denied disk) p (p.configure c disk).1) := by
  have ends := p.ends_configure c disk
  generalize p.configure c disk = result at ends
  cases ends with
  | denied denied reason =>
      exact ⟨⟨fun _ => .inl denied, fun _ => rfl⟩, fun _ => reached.failed_shutdown denied⟩
  | levelless allowed unknown fault =>
      exact ⟨⟨fun _ => .inr unknown, fun _ => rfl⟩, fun _ => reached.failed_bare allowed⟩
  | installed allowed level known =>
      refine ⟨⟨nofun, ?_⟩, nofun⟩
      rintro (denied | unknown)
      · exact absurd denied allowed
      · rw [known] at unknown
        cases unknown

/-- The name of a text is taken for that of a level. -/
theorem failed_configuration_of_template :
    let running := (start.configure ⟨"INFO", "text", some "x.log", "text"⟩ .ready).1
    let broken := running.configure ⟨"basic_format", "text", none, "json"⟩ .ready
    running.Reached ∧ running.handler = some .queue ∧ broken.2 = some .unknownLevel ∧
      broken.1.handler = none ∧ ¬ broken.1.DeliversAs running := by
  intro running broken
  have reached : running.Reached :=
    .attempt .start (.configure ⟨"INFO", "text", some "x.log", "text"⟩ .ready)
  have queued : running.handler = some .queue := by decide +kernel
  have fault : broken.2 = some .unknownLevel := by decide +kernel
  have failed := (failed_configuration reached ⟨"basic_format", "text", none, "json"⟩ .ready).2
    (by decide +kernel)
  have cleared : broken.1.handler = none := failed.cleared (fun denied => nomatch denied.2)
  refine ⟨reached, queued, fault, cleared, fun same => ?_⟩
  have unchanged : broken.1 = running := failed.delivers.mp same
  rw [unchanged, queued] at cleared
  cases cleared

/-- The log was fine before. -/
theorem failed_configuration_loses_error :
    let error : Record := ⟨.error, "app", "lost", [], none, none⟩
    let running := (start.configure ⟨"INFO", "text", some "x.log", "text"⟩ .ready).1
    let broken := running.configure ⟨"basic_format", "text", none, "json"⟩ .ready
    running.Reached ∧ broken.2.isSome = true ∧ broken.1.handler ≠ running.handler ∧
      broken.1.listener ≠ running.listener ∧
      (running.log ⟨"T", "T"⟩ error).1.written (.file "x.log") = ["T ERROR app: lost"] ∧
      (broken.1.log ⟨"T", "T"⟩ error).1.written (.file "x.log") = [] := by
  intro error running broken
  exact ⟨.attempt .start (.configure ⟨"INFO", "text", some "x.log", "text"⟩ .ready),
    by decide +kernel, by decide +kernel, by decide +kernel, by decide +kernel, by decide +kernel⟩

end Pipeline

end InputChords.Log
