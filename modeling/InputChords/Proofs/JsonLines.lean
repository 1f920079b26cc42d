import InputChords.Proofs.JsonRead
import InputChords.Proofs.LogLines
import InputChords.Proofs.Unwritable

/-! JSON lines keep what they are made from. A line is read back as an object with the level, the
logger, the message and the extras of its record, so records that differ in any of these have
different lines, and no line is taken for two. -/

namespace InputChords

namespace Value

mutual

def Plain : Value → Prop
  | null => True
  | bool _ => True
  | number (.whole n) => Decimal.Writable n
  | text _ => True
  | list items => PlainList items
  | dict entries => (Named.names entries).Nodup ∧ PlainEntries entries
  | _ => False

def PlainList : List Value → Prop
  | [] => True
  | v :: rest => v.Plain ∧ PlainList rest

def PlainEntries : List (String × Value) → Prop
  | [] => True
  | (_, v) :: rest => v.Plain ∧ PlainEntries rest

end

mutual

def ofJson : Json → Value
  | .null => null
  | .bool b => bool b
  | .whole n => number (.whole n.value)
  | .real x => number (.real x)
  | .text s => text s
  | .list items => list (ofJsonList items)
  | .object fields => dict (ofJsonFields fields)

def ofJsonList : List Json → List Value
  | [] => []
  | item :: rest => ofJson item :: ofJsonList rest

def ofJsonFields : List (String × Json) → List (String × Value)
  | [] => []
  | (name, item) :: rest => (name, ofJson item) :: ofJsonFields rest

end

theorem names_ofJsonFields (fields : List (String × Json)) :
    Named.names (ofJsonFields fields) = Named.names fields := by
  induction fields with
  | nil => rfl
  | cons field rest ih =>
      simp only [Named.names] at ih
      rw [ofJsonFields, Named.names, List.map_cons, ih]
      rfl

mutual

theorem toJson_plain (v : Value) (plain : v.Plain) :
    ∃ j, v.toJson = .ok j ∧ j.Plain ∧ ofJson j = v := by
  match v with
  | null => exact ⟨.null, rfl, trivial, rfl⟩
  | bool b => exact ⟨.bool b, rfl, trivial, rfl⟩
  | number (.whole n) =>
      have numeral : written n = .ok ⟨n, plain⟩ := by
        rw [written, (Decimal.Whole.of?_eq_some_iff n ⟨n, plain⟩).mpr rfl]
      exact ⟨.whole ⟨n, plain⟩, by rw [toJson, numeral]; rfl, trivial, rfl⟩
  | text s => exact ⟨.text s, rfl, trivial, rfl⟩
  | list items =>
      obtain ⟨forms, written, plainForms, meant⟩ := toJsonList_plain items plain
      exact ⟨.list forms, by rw [toJson, written]; rfl, plainForms, by rw [ofJson, meant]⟩
  | dict entries =>
      obtain ⟨forms, written, plainForms, meant⟩ := toJsonEntries_plain entries plain.2
      have distinct : (Named.names forms).Nodup := by
        rw [← names_ofJsonFields, meant]
        exact plain.1
      exact ⟨.object forms, by rw [toJson, written]; rfl, ⟨distinct, plainForms⟩,
        by rw [ofJson, meant]⟩

theorem toJsonList_plain (items : List Value) (plain : PlainList items) :
    ∃ forms, toJsonList items = .ok forms ∧ Json.PlainList forms ∧ ofJsonList forms = items := by
  match items with
  | [] => exact ⟨[], rfl, trivial, rfl⟩
  | v :: rest =>
      obtain ⟨form, here, plainForm, meant⟩ := toJson_plain v plain.1
      obtain ⟨forms, later, plainForms, meantLater⟩ := toJsonList_plain rest plain.2
      exact ⟨form :: forms, by rw [toJsonList, here, later]; rfl, ⟨plainForm, plainForms⟩,
        by rw [ofJsonList, meant, meantLater]⟩

theorem toJsonEntries_plain (entries : List (String × Value)) (plain : PlainEntries entries) :
    ∃ forms, toJsonEntries entries = .ok forms ∧ Json.PlainFields forms ∧
      ofJsonFields forms = entries := by
  match entries with
  | [] => exact ⟨[], rfl, trivial, rfl⟩
  | (name, v) :: rest =>
      obtain ⟨form, here, plainForm, meant⟩ := toJson_plain v plain.1
      obtain ⟨forms, later, plainForms, meantLater⟩ := toJsonEntries_plain rest plain.2
      exact ⟨(name, form) :: forms, by rw [toJsonEntries, here, later]; rfl,
        ⟨plainForm, plainForms⟩, by rw [ofJsonFields, meant, meantLater]⟩

end

mutual

theorem toJson_ofJson (j : Json) : (ofJson j).toJson = .ok j := by
  match j with
  | .null | .bool _ | .real _ | .text _ => rfl
  | .whole n =>
      have numeral : written n.value = .ok n := by
        rw [written, (Decimal.Whole.of?_eq_some_iff n.value n).mpr rfl]
      rw [ofJson, toJson, numeral]
      rfl
  | .list items =>
      rw [ofJson, toJson, toJsonList_ofJsonList items]
      rfl
  | .object fields =>
      rw [ofJson, toJson, toJsonEntries_ofJsonFields fields]
      rfl

theorem toJsonList_ofJsonList (items : List Json) : toJsonList (ofJsonList items) = .ok items := by
  match items with
  | [] => rfl
  | item :: rest =>
      rw [ofJsonList, toJsonList, toJson_ofJson item, toJsonList_ofJsonList rest]
      rfl

theorem toJsonEntries_ofJsonFields (fields : List (String × Json)) :
    toJsonEntries (ofJsonFields fields) = .ok fields := by
  match fields with
  | [] => rfl
  | (name, item) :: rest =>
      rw [ofJsonFields, toJsonEntries, toJson_ofJson item, toJsonEntries_ofJsonFields rest]
      rfl

end

mutual

theorem plain_ofJson (j : Json) (plain : j.Plain) : (ofJson j).Plain := by
  match j with
  | .null | .bool _ | .text _ => trivial
  | .whole n => exact n.writable
  | .real _ => exact plain.elim
  | .list items => exact plainList_ofJsonList items plain
  | .object fields =>
      refine ⟨?_, plainEntries_ofJsonFields fields plain.2⟩
      rw [names_ofJsonFields]
      exact plain.1

theorem plainList_ofJsonList (items : List Json) (plain : Json.PlainList items) :
    PlainList (ofJsonList items) := by
  match items with
  | [] => trivial
  | item :: rest => exact ⟨plain_ofJson item plain.1, plainList_ofJsonList rest plain.2⟩

theorem plainEntries_ofJsonFields (fields : List (String × Json))
    (plain : Json.PlainFields fields) :
    PlainEntries (ofJsonFields fields) := by
  match fields with
  | [] => trivial
  | (_, item) :: rest => exact ⟨plain_ofJson item plain.1, plainEntries_ofJsonFields rest plain.2⟩

end

end Value

namespace Log

/-- What the author of a record gives: its level, its logger, the message, the extras and what it is
to show as its exception. -/
structure Content where
  level : String
  logger : String
  message : String
  extras : Named String Value
  exception : Attachment

namespace Content

/-- The extras are plain values under names that are free, and what stands for an exception can be
written. -/
structure Proper (c : Content) : Prop where
  distinct : (Named.names c.extras).Nodup
  outside : ∀ name ∈ Named.names c.extras, name ∉ hiddenNames
  unshadowed : Draft.messageMethod ∉ Named.names c.extras
  plain : Value.PlainEntries c.extras
  shown : ∃ text, c.exception.written = .ok text

/-- The template and the values that go with it make the message. -/
def Fills (c : Content) (template : Value) (arguments : Arguments) : Prop :=
  (do Template.fill (← template.printed) arguments) = Except.ok c.message

def draft (c : Content) (template : Value) (arguments : Arguments) : Draft :=
  c.extras.foldl (fun d extra => d.attach extra.1 extra.2)
    ⟨.text c.level, .text c.logger, template, arguments, [], c.exception⟩

/-- An object in which the parts of a record are found again. -/
structure Kept (c : Content) (object : Named String Value) : Prop where
  level : object.get? "level" = some (.text c.level)
  logger : object.get? "logger" = some (.text c.logger)
  message : object.get? "msg" = some (.text c.message)
  fields : object.get? "fields" = if c.extras.isEmpty then none else some (.dict c.extras)
  exception : (object.get? "exc_info").isSome = c.exception.counts
  written : ∃ shown, c.exception.written = .ok shown ∧ object.get? "exc_info" = shown.map .text

end Content

theorem Attachment.isSome_of_written {e : Attachment} {shown : Option String}
    (written : e.written = .ok shown) : shown.isSome = e.counts := by
  unfold Attachment.written at written
  cases counted : e.counts with
  | false =>
      rw [counted] at written
      cases written
      rfl
  | true =>
      rw [counted] at written
      cases e with
      | exception text =>
          cases written
          rfl
      | value v =>
          obtain ⟨text, _, rfl⟩ := map_eq_ok written
          rfl

theorem Draft.attach_outside (d : Draft) {name : String} (v : Value)
    (outside : name ∉ hiddenNames) :
    d.attach name v = { d with fields := d.fields.put name v } := by
  have apart {other : String} (hidden : other ∈ hiddenNames) : name ≠ other :=
    fun same => outside (same ▸ hidden)
  rw [attach, if_neg (apart (by decide)), if_neg (apart (by decide)), if_neg (apart (by decide)),
    if_neg (apart (by decide)), if_neg (apart (by decide)), if_neg (by rwa [List.contains_iff_mem])]

theorem Draft.attachAll_outside (d : Draft) (extras : Named String Value)
    (distinct : (Named.names (d.fields ++ extras)).Nodup)
    (outside : ∀ name ∈ Named.names extras, name ∉ hiddenNames) :
    extras.foldl (fun d extra => d.attach extra.1 extra.2) d =
      { d with fields := d.fields ++ extras } := by
  induction extras generalizing d with
  | nil => rw [List.foldl_nil, List.append_nil]
  | cons extra rest ih =>
      rw [Named.names, List.map_cons, List.forall_mem_cons] at outside
      have fresh := Named.fresh_of_nodup distinct
      rw [List.append_cons] at distinct
      rw [List.foldl_cons, attach_outside d _ outside.1, Named.put_of_fresh _ fresh,
        ih _ distinct outside.2, List.append_assoc]
      rfl

namespace Content

variable {c : Content}

theorem Proper.draft_eq (proper : c.Proper) (template : Value) (arguments : Arguments) :
    c.draft template arguments =
      ⟨.text c.level, .text c.logger, template, arguments, c.extras, c.exception⟩ :=
  Draft.attachAll_outside _ c.extras proper.distinct proper.outside

/-- What the line of a record is read back as. -/
def object (c : Content) (stamp : Stamp) (shown : Option String) : Named String Value :=
  [("ts", .text stamp.iso), ("level", .text c.level), ("logger", .text c.logger),
    ("msg", .text c.message)]
  ++ (if c.extras.isEmpty then [] else [("fields", .dict c.extras)])
  ++ (shown.map fun text => ("exc_info", .text text)).toList

theorem kept_object (c : Content) (stamp : Stamp) {shown : Option String}
    (written : c.exception.written = .ok shown) : c.Kept (c.object stamp shown) := by
  have found : (c.object stamp shown).get? "exc_info" = shown.map .text := by
    obtain ⟨level, logger, message, extras, exception⟩ := c
    cases extras <;> cases shown <;> rfl
  have others : (c.object stamp shown).get? "fields" =
      if c.extras.isEmpty then none else some (.dict c.extras) := by
    obtain ⟨level, logger, message, extras, exception⟩ := c
    cases extras <;> cases shown <;> rfl
  refine ⟨rfl, rfl, rfl, others, ?_, shown, written, found⟩
  rw [found, Option.isSome_map]
  exact Attachment.isSome_of_written written

def line (c : Content) (fields : Named String Json) (shown : Option String) : Line :=
  ⟨.text c.level, .text c.logger, c.message, fields, shown⟩

theorem line_plain (c : Content) (stamp : Stamp) {fields : Named String Json}
    (shown : Option String) (distinct : (Named.names fields).Nodup)
    (plain : Json.PlainFields fields) :
    ((c.line fields shown).toJson stamp).Plain := by
  have object : Json.Plain (.object fields) := ⟨distinct, plain⟩
  cases fields <;> cases shown
  · exact ⟨(by decide : ["ts", "level", "logger", "msg"].Nodup), trivial, trivial, trivial, trivial,
      trivial⟩
  · exact ⟨(by decide : ["ts", "level", "logger", "msg", "exc_info"].Nodup), trivial, trivial,
      trivial, trivial, trivial, trivial⟩
  · exact ⟨(by decide : ["ts", "level", "logger", "msg", "fields"].Nodup), trivial, trivial,
      trivial, trivial, object, trivial⟩
  · exact ⟨(by decide : ["ts", "level", "logger", "msg", "fields", "exc_info"].Nodup), trivial,
      trivial, trivial, trivial, object, trivial, trivial⟩

theorem ofJson_line (c : Content) (stamp : Stamp) (shown : Option String)
    {fields : Named String Json} (meant : Value.ofJsonFields fields = c.extras) :
    Value.ofJson ((c.line fields shown).toJson stamp) = .dict (c.object stamp shown) := by
  obtain ⟨level, logger, message, extras, exception⟩ := c
  change Value.ofJsonFields fields = extras at meant
  rw [← meant]
  cases fields <;> cases shown <;> rfl

theorem Proper.line_draft (proper : c.Proper) {template : Value} {arguments : Arguments}
    (filled : c.Fills template arguments) {fields : Named String Json}
    (entries : Value.toJsonEntries c.extras = .ok fields) {shown : Option String}
    (written : c.exception.written = .ok shown) :
    (c.draft template arguments).line = .ok (c.line fields shown) := by
  have unshadowed : Named.get? c.extras Draft.messageMethod = none := by
    rw [Named.get?, List.lookup_eq_none_iff]
    intro entry member
    rw [bne_iff_ne]
    exact fun same => proper.unshadowed (List.mem_map.mpr ⟨entry, member, same.symm⟩)
  have message : (c.draft template arguments).message = .ok c.message := by
    rw [proper.draft_eq, Draft.message, unshadowed]
    exact filled
  rw [Draft.line, message, proper.draft_eq]
  show (Attachment.written c.exception).bind _ = _
  rw [written]
  show (Value.toJsonEntries c.extras).bind _ = _
  rw [entries]
  rfl

theorem Proper.render_draft (proper : c.Proper) {template : Value} {arguments : Arguments}
    (filled : c.Fills template arguments) (stamp : Stamp) {shown : Option String}
    (written : c.exception.written = .ok shown) :
    ∃ json : Json, (c.draft template arguments).render stamp = .ok json.render ∧
      (Json.read json.render).map Value.ofJson = some (.dict (c.object stamp shown)) := by
  obtain ⟨fields, entries, plain, meant⟩ := Value.toJsonEntries_plain c.extras proper.plain
  have distinct : (Named.names fields).Nodup := by
    rw [← Value.names_ofJsonFields, meant]
    exact proper.distinct
  refine ⟨(c.line fields shown).toJson stamp, ?_, ?_⟩
  · rw [Draft.render, proper.line_draft filled entries written]
    rfl
  · rw [Json.read_render (c.line_plain stamp shown distinct plain), Option.map_some,
      c.ofJson_line stamp shown meant]

def extrasOf : Option Value → Named String Value
  | some (.dict extras) => extras
  | _ => []

theorem Kept.extras_eq {object : Named String Value} (kept : c.Kept object) :
    c.extras = extrasOf (object.get? "fields") := by
  rw [kept.fields]
  cases c.extras <;> rfl

theorem Kept.unique {c d : Content} {object : Named String Value} (first : c.Kept object)
    (second : d.Kept object) : c.level = d.level ∧ c.logger = d.logger ∧ c.message = d.message ∧
      c.extras = d.extras ∧ c.exception.written = d.exception.written := by
  have texts {s t : String} {name : String} (here : object.get? name = some (.text s))
      (there : object.get? name = some (.text t)) : s = t :=
    Value.text.inj (Option.some.inj (here.symm.trans there))
  refine ⟨texts first.level second.level, texts first.logger second.logger,
    texts first.message second.message, ?_, ?_⟩
  · calc
      c.extras = extrasOf (object.get? "fields") := first.extras_eq
      _ = d.extras := second.extras_eq.symm
  · obtain ⟨shown, written, found⟩ := first.written
    obtain ⟨shown', written', found'⟩ := second.written
    have same : shown = shown' :=
      Option.map_injective (fun _ _ => Value.text.inj) (found.symm.trans found')
    rw [written, written', same]

end Content

def Content.ofRecord (r : Record) : Content :=
  ⟨r.level.name, r.logger, r.message, Value.ofJsonFields (Line.shown r),
    match r.exception with
    | some written => .exception written
    | none => .value .null⟩

theorem Content.proper_ofRecord (r : Record) (distinct : (Named.names r.extras).Nodup)
    (plain : Json.PlainFields (Line.shown r)) (kept : r.isLost none = false) :
    (Content.ofRecord r).Proper := by
  have names : Named.names (Content.ofRecord r).extras = (Line.shown r).map (·.1) :=
    Value.names_ofJsonFields (Line.shown r)
  refine ⟨?_, ?_, ?_, Value.plainEntries_ofJsonFields _ plain, ?_⟩
  · rw [names]
    exact distinct.sublist (List.Sublist.map _ List.filter_sublist)
  · rw [names]
    intro name member
    obtain ⟨extra, shown, same⟩ := List.mem_map.mp member
    have outside := (List.mem_filter.mp shown).2
    rw [Bool.not_eq_true', List.contains_eq_mem, decide_eq_false_iff_not, same] at outside
    exact outside
  · rw [names]
    intro member
    obtain ⟨extra, shown, same⟩ := List.mem_map.mp member
    have lost := List.any_eq_false.mp kept extra (List.mem_of_mem_filter shown)
    rw [same] at lost
    exact lost rfl
  · rw [ofRecord]
    cases r.exception with
    | none => exact ⟨none, rfl⟩
    | some text => exact ⟨some text, rfl⟩

theorem Content.render_ofRecord (r : Record) (distinct : (Named.names r.extras).Nodup)
    (plain : Json.PlainFields (Line.shown r)) (kept : r.isLost none = false) (stamp : Stamp) :
    ((Content.ofRecord r).draft (.text r.message) (.ofList [])).render stamp =
      .ok (Format.render stamp r .json) := by
  have filled : (Content.ofRecord r).Fills (.text r.message) (.ofList []) := rfl
  have written : (Content.ofRecord r).exception.written = .ok r.exception := by
    rw [ofRecord]
    cases r.exception <;> rfl
  have proper := proper_ofRecord r distinct plain kept
  rw [Draft.render, proper.line_draft filled (Value.toJsonEntries_ofJsonFields _) written]
  rfl

open Content in
/-- A record whose extras are plain values under free names has a line in printable ASCII. The line
is read back as an object that keeps the record, so no other record has the same line. -/
theorem json_lines_faithful (c : Content) (proper : c.Proper) (template : Value)
    (arguments : Arguments) (filled : c.Fills template arguments) (stamp : Stamp) :
    ∃ line, (c.draft template arguments).render stamp = .ok line ∧
      (∀ char ∈ line.toList, 0x20 ≤ char.toNat ∧ char.toNat ≤ 0x7e) ∧ linesOf line = [line] ∧
      (∃ object, (Json.read line).map Value.ofJson = some (.dict object) ∧ c.Kept object) ∧
      ∀ (d : Content) (template' : Value) (arguments' : Arguments) (stamp' : Stamp), d.Proper →
        d.Fills template' arguments' → (d.draft template' arguments').render stamp' = .ok line →
        c.level = d.level ∧ c.logger = d.logger ∧ c.message = d.message ∧ c.extras = d.extras ∧
          c.exception.written = d.exception.written := by
  obtain ⟨shown, written⟩ := proper.shown
  obtain ⟨json, rendered, object⟩ := proper.render_draft filled stamp written
  have kept := c.kept_object stamp written
  refine ⟨json.render, rendered, ?_, linesOf_of_oneLine (Json.oneLine_render json),
    ⟨c.object stamp shown, object, kept⟩, ?_⟩
  · intro char member
    obtain ⟨low, high⟩ := Json.ascii_render json char member
    exact ⟨low, Nat.le_of_lt_succ high⟩
  · intro d template' arguments' stamp' proper' filled' same
    obtain ⟨shown', written'⟩ := proper'.shown
    obtain ⟨json', rendered', object'⟩ := proper'.render_draft filled' stamp' written'
    rw [rendered', Except.ok.injEq] at same
    rw [same, object, Option.some.injEq, Value.dict.injEq] at object'
    have kept' := d.kept_object stamp' written'
    rw [← object'] at kept'
    exact kept.unique kept'

/-- A line end, a quote and a character of two units in the message, nested extras and an error. -/
theorem json_lines_faithful_two_lines :
    let c : Content := ⟨"INFO", "app", "one\n\"two\" 😀  7",
      [("user", .dict [("ids", .list [.whole (-12), .null]), ("é", .bool true)])],
      .exception "ValueError: boom"⟩
    let values : Arguments := .ofList [.text "\"two\"", .whole 7]
    ∃ line, (c.draft (.text "one\n%s 😀%3d") values).render ⟨"T", "U"⟩ = .ok line ∧
      linesOf line = [line] ∧
      ∃ object, (Json.read line).map Value.ofJson = some (.dict object) ∧ c.Kept object := by
  intro c values
  have writable : Decimal.Writable (-12) := by decide
  have proper : c.Proper := ⟨by decide, by decide, by decide,
    ⟨⟨by decide, ⟨writable, trivial, trivial⟩, trivial, trivial⟩, trivial⟩, _, rfl⟩
  have filled : c.Fills (.text "one\n%s 😀%3d") values := by
    unfold Content.Fills
    rfl
  obtain ⟨line, rendered, -, one, read, -⟩ :=
    json_lines_faithful c proper _ _ filled ⟨"T", "U"⟩
  exact ⟨line, rendered, one, read⟩

theorem Draft.render_unwritable (stamp : Stamp) {n : Int} (unwritable : ¬ Decimal.Writable n)
    (level logger message : String) {name : String} (free : name ≠ messageMethod) :
    Draft.render stamp ⟨.text level, .text logger, .text message, .some [], [(name, .whole n)],
      .value .null⟩ = .error .wholeNotWritable := by
  have entries : Value.toJsonEntries [(name, .whole n)] = .error .wholeNotWritable := by
    rw [Value.toJsonEntries, Value.whole, Value.toJson, Value.written_unwritable unwritable]
    rfl
  rw [Draft.render, Draft.line, Draft.message, Named.get?_cons, if_neg free.symm]
  show ((Value.toJsonEntries [(name, .whole n)]).bind _).bind _ = _
  rw [entries]
  rfl

/-- The record has no line where an extra stands in the place of the method that makes the message,
or is a whole number without a numeral. A record that is to show an exception where there is none
has a line that shows one. -/
theorem json_lines_miss :
    let draft (extras : Named String Value) (exception : Attachment) : Draft :=
      Content.draft ⟨"INFO", "app", "hi", extras, exception⟩ (.text "hi") (.ofList [])
    (draft [("getMessage", .whole 1)] (.value .null)).render ⟨"T", "U"⟩ =
      .error (.notCallable "int") ∧
    (draft [("n", .whole (10 ^ Decimal.wholeDigitLimit))] (.value .null)).render ⟨"T", "U"⟩ =
      .error .wholeNotWritable ∧
    (draft [] .nothing).render ⟨"T", "U"⟩ =
      .ok ("\x7b\"ts\": \"U\", \"level\": \"INFO\", \"logger\": \"app\", \"msg\": \"hi\", "
        ++ "\"exc_info\": \"NoneType: None\"\x7d") := by
  intro draft
  refine ⟨rfl, ?_, rfl⟩
  exact Draft.render_unwritable ⟨"T", "U"⟩ Decimal.power_not_writable "INFO" "app" "hi" (by decide)

end Log

end InputChords
