import InputChords.Proofs.LogSinks

/-! The queue between the loggers and a listener that writes at its own pace. However the two take
turns, once the records under way are written the sinks hold what they would hold if each record
were written at once. -/

namespace InputChords.Log

/-- A log with the records that were put on its queue and are not written yet. -/
structure Relay where
  pipeline : Pipeline
  queue : List (Stamp × Record)

/-- The program and the listener take turns in any order. -/
inductive Move where
  | call (c : Call)
  | handle

def Move.calls (moves : List Move) : List Call :=
  moves.filterMap fun
    | .call c => some c
    | .handle => none

namespace Pipeline

def hearAll (p : Pipeline) (queue : List (Stamp × Record)) : Pipeline :=
  queue.foldl (fun p waiting => p.hear waiting.1 waiting.2) p

variable (p : Pipeline) (queue : List (Stamp × Record))

end Pipeline

namespace Relay

def start : Relay := ⟨.start, []⟩

/-- The log once the listener has written all that it can. -/
def settled (s : Relay) : Pipeline := s.pipeline.hearAll s.queue

def stop (s : Relay) : Relay :=
  match s.pipeline.listener with
  | some _ => ⟨s.settled.shutdown, []⟩
  | none => s

def configure (s : Relay) (c : Config) (disk : Disk) : Except PipelineFault Relay :=
  (s.stop.pipeline.call (.configure c disk)).map fun p => ⟨p, []⟩

def setup (s : Relay) (level : String) : Except PipelineFault Relay :=
  if s.pipeline.handler.isSome then .ok s else s.configure (.minimal level) .ready

def log (s : Relay) (stamp : Stamp) (r : Record) : Except PipelineFault Relay :=
  (s.pipeline.call (.log stamp r)).map fun p =>
    if s.pipeline.handler = some .queue ∧ s.pipeline.takes r = true then
      { s with queue := s.queue ++ [(stamp, r.queued)] }
    else { s with pipeline := p }

def handle (s : Relay) : Relay :=
  match s.pipeline.listener, s.queue with
  | some _, waiting :: rest => ⟨s.pipeline.hear waiting.1 waiting.2, rest⟩
  | _, _ => s

def move (s : Relay) : Move → Except PipelineFault Relay
  | .call (.configure c disk) => s.configure c disk
  | .call (.setup level) => s.setup level
  | .call .shutdown => .ok s.stop
  | .call (.log stamp r) => s.log stamp r
  | .handle => .ok s.handle

def run (s : Relay) : List Move → Except PipelineFault Relay
  | [] => .ok s
  | m :: rest => (s.move m).bind fun t => t.run rest

section Settled

variable {s t : Relay}

end Settled

end Relay

end InputChords.Log
