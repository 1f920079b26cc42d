import InputChords.Proofs.JsonText
import InputChords.Proofs.LogSinks

/-! What a record leaves in a file in JSON: one line, which depends on the format of the console
beside the file, since a plain console leaves its time stamp on the record. -/

namespace InputChords.Log

theorem linesOf_of_oneLine {text : String} (one : Text.OneLine text) : linesOf text = [text] := by
  rw [linesOf, List.splitOn_eq_singleton one, List.map_singleton, String.ofList_toList]

/-- The line of a record behind a console of some format. A caller's `taskName` is no field. -/
def Line.beside (console : Format) (stamp : Stamp) (r : Record) : Line :=
  ⟨.text r.level.name, .text r.logger, r.text,
    (r.extras.filter fun extra => extra.1 != "taskName") ++
      match console with
      | .plain => [("asctime", .text stamp.plain)]
      | .json => [], none⟩

namespace Pipeline

variable {p q : Pipeline} {stamp : Stamp} {r : Record}

theorem unreserved_of_call_log (enabled : p.enabled r.level = true)
    (logged : p.call (.log stamp r) = .ok q) : ∀ extra ∈ r.extras, isReserved extra.1 = false := by
  change unlessFault (p.log stamp r) = _ at logged
  unfold log at logged
  rw [enabled, if_pos rfl] at logged
  cases reserved : r.extras.find? fun extra => isReserved extra.1 with
  | none => simpa using reserved
  | some extra =>
      rw [reserved] at logged
      cases logged

theorem hidden_of_unreserved {name : String} (unreserved : isReserved name = false) :
    hiddenNames.contains name = (name == "taskName") := by
  simp only [isReserved, Bool.or_eq_false_iff, decide_eq_false_iff_not] at unreserved
  obtain ⟨⟨message, -⟩, own⟩ := unreserved
  rw [List.contains_eq_mem, decide_eq_false_iff_not] at own
  rw [hiddenNames, List.contains_eq_mem, Bool.eq_iff_iff]
  simp [own, message]

theorem shown_of_unreserved (unreserved : ∀ extra ∈ r.extras, isReserved extra.1 = false) :
    Line.shown r = r.extras.filter fun extra => extra.1 != "taskName" := by
  apply List.filter_congr
  intro extra member
  rw [hidden_of_unreserved (unreserved extra member)]
  rfl

theorem ofRecord_stamped (unreserved : ∀ extra ∈ r.extras, isReserved extra.1 = false)
    (console : Format) :
    Line.ofRecord (r.queued.stamped stamp console) = Line.beside console stamp r := by
  have shown : Line.shown r.queued = _ := shown_of_unreserved (r := r.queued) unreserved
  cases console with
  | json =>
      rw [Record.stamped, Line.ofRecord, shown, Line.beside, List.append_nil]
      rfl
  | plain =>
      have fresh : "asctime" ∉ Named.names r.extras := by
        intro found
        obtain ⟨extra, member, same⟩ := List.mem_map.mp found
        have reserved := unreserved extra member
        rw [same] at reserved
        exact absurd reserved (by decide)
      have stamped : r.queued.stamped stamp .plain =
          { r.queued with extras := r.queued.extras ++ [("asctime", .text stamp.plain)] } := by
        rw [Record.stamped]
        exact congrArg (fun extras => { r.queued with extras := extras })
          (Named.put_of_fresh _ fresh)
      have further :
          Line.shown { r.queued with extras := r.queued.extras ++ [("asctime", .text stamp.plain)] }
          = Line.shown r.queued ++ [("asctime", .text stamp.plain)] := List.filter_append _ _
      rw [stamped, Line.ofRecord, further, shown, Line.beside]
      rfl

end Pipeline

namespace Line

theorem beside_plain_fields (stamp : Stamp) (r : Record) :
    (beside .plain stamp r).fields =
      (beside .json stamp r).fields ++ [("asctime", .text stamp.plain)] := by
  simp [beside]

def head (stamp : Stamp) (r : Record) : List (String × Json) :=
  [("ts", .text stamp.iso), ("level", .text r.level.name), ("logger", .text r.logger),
    ("msg", .text r.text)]

theorem render_beside (console : Format) (stamp : Stamp) (r : Record) :
    (beside console stamp r).render stamp =
      (Json.object (head stamp r ++
        if (beside console stamp r).fields.isEmpty then []
        else [("fields", .object (beside console stamp r).fields)])).render :=
  congrArg (fun fields => (Json.object fields).render) (List.append_nil _)

theorem length_beside_lt (stamp : Stamp) (r : Record) :
    ((beside .json stamp r).render stamp).length <
      ((beside .plain stamp r).render stamp).length := by
  have stamped := beside_plain_fields stamp r
  have present : (beside .plain stamp r).fields.isEmpty = false := by simp [stamped]
  rw [render_beside, render_beside, present]
  -- without fields the line gets a field more, otherwise the object of the fields does
  cases empty : (beside .json stamp r).fields.isEmpty with
  | true =>
      rw [if_pos rfl, List.append_nil]
      exact Json.length_render_lt_snoc (head stamp r) "fields" _
  | false =>
      rw [stamped]
      exact Json.length_render_object_lt (head stamp r) "fields" (Json.length_render_lt_snoc _ _ _)

theorem beside_render_inj {stamp : Stamp} {r : Record} {console other : Format} :
    (beside console stamp r).render stamp = (beside other stamp r).render stamp ↔
      console = other := by
  constructor
  · intro same
    have apart := length_beside_lt stamp r
    cases console <;> cases other
    · rfl
    · rw [same] at apart
      exact absurd apart (Nat.lt_irrefl _)
    · rw [same] at apart
      exact absurd apart (Nat.lt_irrefl _)
    · rfl
  · rintro rfl
    rfl

end Line

/-- A record is let in where the file of the configuration is written in JSON. -/
structure JsonFile (c : Config) (file : String) (stamp : Stamp) (r : Record) (p q : Pipeline) :
    Prop where
  running : ∃ calls disk later, Pipeline.start.play calls = .ok p ∧ InForce calls c disk later ∧
    disk.opens = true ∧ Call.shutdown ∉ later
  named : c.path = some file
  json : Format.ofName c.fileFormat = .json
  taken : p.takes r = true
  logged : p.call (.log stamp r) = .ok q

theorem JsonFile.written {c : Config} {file : String} {stamp : Stamp} {r : Record} {p q : Pipeline}
    (filed : JsonFile c file stamp r p q) :
    q.written (.file file) =
      p.written (.file file) ++ [(Line.beside (.ofName c.console) stamp r).render stamp] := by
  obtain ⟨calls, disk, later, played, force, opens, up⟩ := filed.running
  have running : ¬ c.Closed disk later := by
    rw [Config.closed_iff_of_opens opens]
    exact fun closed => up closed.2
  have obeys := Pipeline.obeys_play played
  rw [Regime.after_of_inForce force, if_neg running] at obeys
  have enabled := (Bool.and_eq_true_iff.mp filed.taken).1
  have unreserved := Pipeline.unreserved_of_call_log enabled filed.logged
  have brought : c.brought r = r.queued := by
    rw [Config.brought, filed.named]
    rfl
  rw [obeys.written_log filed.logged, Regime.share, ← obeys.takes, filed.taken, if_pos rfl,
    Config.lines, if_pos ⟨filed.named, opens⟩, filed.json, Format.render, brought,
    Pipeline.ofRecord_stamped unreserved]
  exact congrArg _ (linesOf_of_oneLine (Json.oneLine_render _))

/-- A record adds one line to a file in JSON. Its fields are what the caller attached, and the time
stamp of the console if that is plain: beside two consoles the lines are the same exactly if the
consoles have one format. -/
theorem json_line_beside_console {c c' : Config} {file file' : String} {stamp : Stamp} {r : Record}
    {p q p' q' : Pipeline} (first : JsonFile c file stamp r p q)
    (second : JsonFile c' file' stamp r p' q') :
    ∃ line line' : Line,
      q.written (.file file) = p.written (.file file) ++ [line.render stamp] ∧
      q'.written (.file file') = p'.written (.file file') ++ [line'.render stamp] ∧
      line = .beside (.ofName c.console) stamp r ∧ line' = .beside (.ofName c'.console) stamp r ∧
      (line.render stamp = line'.render stamp ↔
        Format.ofName c.console = Format.ofName c'.console) :=
  ⟨_, _, first.written, second.written, rfl, rfl, Line.beside_render_inj⟩

theorem json_line_beside_two_formats :
    ∃ p q p' q' : Pipeline, ∃ line line' : Line,
      q.written (.file "x.log") = p.written (.file "x.log") ++ [line.render ⟨"T", "U"⟩] ∧
      q'.written (.file "y.log") = p'.written (.file "y.log") ++ [line'.render ⟨"T", "U"⟩] ∧
      line.render ⟨"T", "U"⟩ ≠ line'.render ⟨"T", "U"⟩ := by
  let r : Record := ⟨.info, "app", "hi", [("user", .text "ada")], some "boom", none⟩
  have filed (c : Config) (file : String) (configured : c.rootLevel = some .info)
      (named : c.path = some file) (json : Format.ofName c.fileFormat = .json) :
      JsonFile c file ⟨"T", "U"⟩ r (Pipeline.start.install c .ready .info)
        ((Pipeline.start.install c .ready .info).emit ⟨"T", "U"⟩ r) := by
    have queue : c.handler = .queue := c.handler_of_path (by rw [named]; rfl)
    have taken : (Pipeline.start.install c .ready .info).takes r = true := by
      show (_ && !r.isLost (some c.handler)) = true
      rw [queue]
      rfl
    refine ⟨⟨[.configure c .ready], .ready, [], ?_,
      (@Call.Installs.configure [] c .ready).inForce, rfl, List.not_mem_nil⟩, named, json, taken,
      ?_⟩
    · show (Pipeline.unlessFault (Pipeline.start.configure c .ready)).bind _ = _
      rw [Pipeline.start.configure_of_level c .ready (fun denied => nomatch denied.2) configured]
      rfl
    · show Pipeline.unlessFault (_, none) = _
      rw [(rfl : Pipeline.handler _ = some c.handler), queue]
      rfl
  have first := filed ⟨"INFO", "text", some "x.log", "json"⟩ "x.log" rfl rfl rfl
  have second := filed ⟨"INFO", "json", some "y.log", "json"⟩ "y.log" rfl rfl rfl
  obtain ⟨line, line', left, right, -, -, same⟩ := json_line_beside_console first second
  exact ⟨_, _, _, _, line, line', left, right, fun equal => absurd (same.mp equal) (by decide)⟩

/-- Nothing was attached to the record, and yet its line has a field beside a plain console. -/
theorem json_line_reads_console :
    ∃ p q : Pipeline,
      Pipeline.start.play [.configure ⟨"INFO", "text", some "x.log", "json"⟩ .ready,
        .log ⟨"T", "U"⟩ ⟨.info, "app", "hi", [], none, none⟩] = .ok p ∧
      Pipeline.start.play [.configure ⟨"INFO", "json", some "x.log", "json"⟩ .ready,
        .log ⟨"T", "U"⟩ ⟨.info, "app", "hi", [], none, none⟩] = .ok q ∧
      p.written (.file "x.log") = ["\x7b\"ts\": \"U\", \"level\": \"INFO\", \"logger\": \"app\", "
        ++ "\"msg\": \"hi\", \"fields\": \x7b\"asctime\": \"T\"\x7d\x7d"] ∧
      q.written (.file "x.log") = ["\x7b\"ts\": \"U\", \"level\": \"INFO\", \"logger\": \"app\", "
        ++ "\"msg\": \"hi\"\x7d"] := by
  refine ⟨_, _, rfl, rfl, ?_, ?_⟩
  · decide +kernel
  · decide +kernel

end InputChords.Log
