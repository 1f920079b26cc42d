import InputChords.Proofs.LogCalls

/-! What the records of a run leave on the console and in files: each sink holds the lines of the
records in the order in which they were logged, and which lines those are is settled by the calls
made before. -/

namespace InputChords.Log

inductive Sink where
  | console
  | file (name : String)
  deriving DecidableEq, Repr

def Pipeline.written (p : Pipeline) : Sink → List String
  | .console => p.console
  | .file name => (p.files.get? name).getD []

namespace Config

def brought (c : Config) (r : Record) : Record := if c.path.isSome then r.queued else r

def lines (c : Config) (disk : Disk) (stamp : Stamp) (r : Record) : Sink → List String
  | .console => linesOf ((Format.ofName c.console).render stamp (c.brought r))
  | .file name =>
    if c.path = some name ∧ disk.opens = true then
      linesOf ((Format.ofName c.fileFormat).render stamp
        ((c.brought r).stamped stamp (.ofName c.console)))
    else []

end Config

/-- What a record adds to a sink. Where nothing was put in place, a warning or worse still leaves
its text on the console. -/
def Regime.share (stamp : Stamp) (r : Record) : Regime → Sink → List String
  | bare, .console =>
    if Level.warning.rank ≤ r.level.rank ∧ r.isLost none = false then linesOf r.text else []
  | bare, .file _ => []
  | live c disk, sink => if c.admits r then c.lines disk stamp r sink else []
  | stopped _, _ => []

def Regime.gain (regime : Regime) (sink : Sink) : Call → List String
  | .log stamp r => regime.share stamp r sink
  | _ => []

namespace Pipeline

variable {p q : Pipeline} {regime : Regime}

theorem written_writeConsole (text : String) (sink : Sink) :
    (p.writeConsole text).written sink =
      p.written sink ++ if sink = .console then linesOf text else [] := by
  cases sink with
  | console => rfl
  | file name => simp [written, writeConsole]

theorem written_writeFile (file text : String) (sink : Sink) :
    (p.writeFile file text).written sink =
      p.written sink ++ if sink = .file file then linesOf text else [] := by
  cases sink with
  | console => simp [written, writeFile]
  | file name =>
      by_cases same : name = file
      · subst same
        simp [written, writeFile, Named.get?_put]
      · simp [written, writeFile, Named.get?_put, same]

theorem written_shutdown (sink : Sink) : p.shutdown.written sink = p.written sink := by
  cases sink <;> rfl

theorem written_bare (sink : Sink) : p.bare.written sink = p.written sink := by
  cases sink <;> rfl

theorem written_take (l : Listener) (stamp : Stamp) (r : Record) (sink : Sink) :
    (p.take l stamp r).written sink = p.written sink ++
      match sink with
      | .console => linesOf (l.console.render stamp r)
      | .file name =>
        if l.file = name ∧ l.opens = true then
          linesOf (l.fileFormat.render stamp (r.stamped stamp l.console))
        else [] := by
  rw [take]
  cases opens : l.opens with
  | true =>
      cases sink with
      | console => simp [written_writeFile, written_writeConsole]
      | file name => simp [written_writeFile, written_writeConsole, eq_comm]
  | false =>
      cases sink with
      | console => simp [written_shutdown, written_writeConsole]
      | file name => simp [written_shutdown, written_writeConsole]

theorem Obeys.takes_bare (obeys : p.Obeys .bare) (r : Record) :
    p.takes r = true ↔ Level.warning.rank ≤ r.level.rank ∧ r.isLost none = false := by
  have positive : Level.warning.rank ≤ r.level.rank → 0 < r.level.rank := by
    show (30 : Int) ≤ _ → _
    omega
  rw [Pipeline.takes, Pipeline.enabled, obeys.1, obeys.2.1, Bool.and_eq_true,
    decide_eq_true_eq, Bool.not_eq_true']
  tauto

theorem Obeys.written_log (obeys : p.Obeys regime) {stamp : Stamp} {r : Record}
    (done : p.call (.log stamp r) = .ok q) (sink : Sink) :
    q.written sink = p.written sink ++ regime.share stamp r sink := by
  rw [p.call_log_ok stamp r done]
  cases regime with
  | bare =>
      have taken := obeys.takes_bare r
      by_cases loud : p.takes r = true
      · have both := taken.mp loud
        rw [if_pos loud, emit, obeys.2.1]
        simp only [both.1, if_true, written_writeConsole]
        cases sink <;> simp [Regime.share, both]
      · rw [if_neg loud]
        rw [taken] at loud
        cases sink <;> simp [Regime.share, loud]
  | stopped c =>
      obtain ⟨-, queued, unheard⟩ := obeys
      have silent : p.emit stamp r = p := by rw [emit, queued, hear, unheard]
      rw [silent, ite_self, Regime.share, List.append_nil]
  | live c disk =>
      rw [obeys.takes r, Regime.share]
      cases c.admits r with
      | false => simp
      | true =>
          obtain ⟨-, handler, listener⟩ := obeys
          -- with a file the record goes through the queue, without one to the console directly
          rw [if_pos rfl, if_pos rfl, emit, handler, Config.handler]
          cases file : c.path with
          | none => cases sink <;> simp [written_writeConsole, Config.lines, Config.brought, file]
          | some name =>
              rw [Config.listener, file, Option.map_some] at listener
              simp only [Option.isSome_some, if_true, hear, listener, written_take]
              cases sink <;> simp [Config.lines, Config.brought, file]

theorem written_install (c : Config) (disk : Disk) (level : Level) (sink : Sink) :
    (p.install c disk level).written sink = p.written sink := by
  cases sink <;> rfl

theorem Obeys.written_call (obeys : p.Obeys regime) {call : Call} (done : p.call call = .ok q)
    (sink : Sink) : q.written sink = p.written sink ++ regime.gain sink call := by
  cases call with
  | configure c disk =>
      obtain ⟨level, -, rfl⟩ := p.call_configure_ok c disk done
      simp only [written_install, Regime.gain, List.append_nil]
  | setup name =>
      simp only [Regime.gain, List.append_nil]
      cases handler : p.handler with
      | none =>
          rw [p.call_setup_bare name handler] at done
          obtain ⟨level, -, rfl⟩ := p.call_configure_ok _ _ done
          exact written_install _ _ level sink
      | some h =>
          rw [p.call_setup_handled name (by simp [handler])] at done
          cases done
          rfl
  | shutdown =>
      cases done
      exact (written_shutdown sink).trans (List.append_nil _).symm
  | log stamp r => exact obeys.written_log done sink

end Pipeline

/-- A record of a run, with the calls that were made before it. -/
structure Entry where
  earlier : List Call
  stamp : Stamp
  record : Record

namespace Entry

def share (e : Entry) (sink : Sink) : List String :=
  (Regime.after e.earlier).share e.stamp e.record sink

def allAfter (earlier : List Call) : List Call → List Entry
  | [] => []
  | .log stamp r :: rest => ⟨earlier, stamp, r⟩ :: allAfter (earlier ++ [.log stamp r]) rest
  | call :: rest => allAfter (earlier ++ [call]) rest

def all (calls : List Call) : List Entry := allAfter [] calls

theorem allAfter_append (earlier first second : List Call) :
    allAfter earlier (first ++ second) =
      allAfter earlier first ++ allAfter (earlier ++ first) second := by
  induction first generalizing earlier with
  | nil => simp [allAfter]
  | cons call rest ih =>
      cases call <;> simp [allAfter, ih, List.append_assoc]

theorem mem_allAfter {e : Entry} {earlier calls : List Call} :
    e ∈ allAfter earlier calls ↔
      ∃ first last, calls = first ++ .log e.stamp e.record :: last ∧
        e.earlier = earlier ++ first := by
  constructor
  · intro member
    induction calls generalizing earlier with
    | nil => cases member
    | cons call rest ih =>
        have later (found : e ∈ allAfter (earlier ++ [call]) rest) :
            ∃ first last, call :: rest = first ++ .log e.stamp e.record :: last ∧
              e.earlier = earlier ++ first := by
          obtain ⟨first, last, rfl, before⟩ := ih found
          exact ⟨call :: first, last, rfl, by rw [before, List.append_assoc]; rfl⟩
        cases call with
        | log stamp r =>
            rcases List.mem_cons.mp member with rfl | found
            · exact ⟨[], rest, rfl, (List.append_nil _).symm⟩
            · exact later found
        | configure c disk => exact later member
        | setup name => exact later member
        | shutdown => exact later member
  · rintro ⟨first, last, rfl, before⟩
    rw [allAfter_append, allAfter, ← before]
    exact List.mem_append_right _ List.mem_cons_self

theorem mem_all {e : Entry} {calls : List Call} :
    e ∈ all calls ↔ ∃ last, calls = e.earlier ++ .log e.stamp e.record :: last := by
  rw [all, mem_allAfter]
  constructor
  · rintro ⟨first, last, cut, before⟩
    rw [List.nil_append] at before
    exact ⟨last, before ▸ cut⟩
  · rintro ⟨last, cut⟩
    exact ⟨e.earlier, last, cut, rfl⟩

def lines (calls : List Call) (sink : Sink) : List String := (all calls).flatMap (·.share sink)

end Entry

end InputChords.Log
