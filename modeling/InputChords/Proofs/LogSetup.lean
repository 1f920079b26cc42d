import InputChords.Proofs.LogSinks

/-! Whether records are still written after a setup. A shutdown leaves the queue of its
configuration on the loggers, and so does a file that cannot be opened; a setup takes that for a log
that works, and only a configuration replaces it. -/

namespace InputChords.Log

theorem linesOf_ne_nil (text : String) : linesOf text ≠ [] := by
  rw [linesOf, ne_eq, List.map_eq_nil_iff]
  exact List.splitOn_ne_nil _ _

namespace Regime

variable {regime : Regime} {p : Pipeline} {stamp : Stamp} {r : Record}

/-- Whether its file opens or not, a configuration that is shut down writes nothing any more. -/
theorem next_log_shutdown (regime : Regime) (stamp : Stamp) (r : Record) :
    (regime.next (.log stamp r)).next .shutdown = regime.next .shutdown := by
  cases regime with
  | bare => rfl
  | stopped c => rfl
  | live c disk =>
      show Regime.next
        (if c.path.isSome && (!disk.opens && c.admits r) then stopped c else live c disk) _ =
        (live c disk).next _
      split
      · next closed =>
          have filed : c.path.isSome = true := (Bool.and_eq_true_iff.mp closed).1
          show stopped c = if c.path.isSome && true then _ else _
          rw [filed]
          rfl
      · rfl

end Regime

namespace Pipeline

variable {p q : Pipeline} {regime : Regime} {stamp : Stamp}

theorem Obeys.play (obeys : p.Obeys regime) {calls : List Call} (played : p.play calls = .ok q) :
    q.Obeys (calls.foldl Regime.next regime) ∧ ∀ sink, p.written sink <+: q.written sink := by
  induction calls generalizing p regime with
  | nil =>
      cases played
      exact ⟨obeys, fun _ => List.prefix_rfl⟩
  | cons call rest ih =>
      obtain ⟨between, called, later⟩ := bind_eq_ok played
      obtain ⟨last, further⟩ := ih (obeys.call call called) later
      refine ⟨last, fun sink => List.IsPrefix.trans ?_ (further sink)⟩
      rw [obeys.written_call called sink]
      exact List.prefix_append _ _

end Pipeline

end InputChords.Log
