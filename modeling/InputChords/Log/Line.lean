import InputChords.Log.Record
import InputChords.Log.Template
import InputChords.Value.AsJson

/-! Log records written as lines, in plain text or in JSON. -/

namespace InputChords.Log

structure Stamp where
  plain : String
  iso : String
  deriving DecidableEq, Repr

def plainText (stamp : Stamp) (r : Record) : String :=
  stamp.plain ++ " " ++ r.level.name ++ " " ++ r.logger ++ ": " ++ r.text

def ownNames : List String :=
  ["name", "msg", "args", "levelname", "levelno", "pathname", "filename", "module", "exc_info",
    "exc_text", "stack_info", "lineno", "funcName", "created", "msecs", "relativeCreated",
    "thread", "threadName", "processName", "process"]

def hiddenNames : List String := ownNames ++ ["taskName", "message"]

structure Line where
  level : Json
  logger : Json
  message : String
  fields : Named String Json
  exception : Option String

namespace Line

def toJson (stamp : Stamp) (line : Line) : Json :=
  .object (
    [("ts", .text stamp.iso), ("level", line.level), ("logger", line.logger),
      ("msg", .text line.message)]
    ++ (if line.fields.isEmpty then [] else [("fields", .object line.fields)])
    ++ (line.exception.map fun text => ("exc_info", .text text)).toList)

def render (stamp : Stamp) (line : Line) : String := (line.toJson stamp).render

def shown (r : Record) : List (String × Json) :=
  r.extras.filter fun extra => !hiddenNames.contains extra.1

def ofRecord (r : Record) : Line :=
  ⟨.text r.level.name, .text r.logger, r.message, shown r, r.exception⟩

end Line

inductive Attachment where
  | exception (written : String)
  | value (v : Value)

namespace Attachment

/-- A record that is to show an exception where there is none gets three nulls. -/
def nothing : Attachment := value (.list [.null, .null, .null])

def counts : Attachment → Bool
  | exception _ => true
  | value v => v.truthy

/-- Of three values the last one is taken for where the exception comes from, and the one before it
for the exception. -/
def writtenOf : Value → Except Fault String
  | .list (_ :: v :: .null :: _) =>
    match v with
    | .null => .ok "NoneType: None"
    | v => .error (.noAttribute v.kindName "__suppress_context__")
  | .list (_ :: _ :: v :: _) => .error (.noAttribute v.kindName "tb_frame")
  | .list _ => .error (.indexOutOfRange "list ")
  | .text s =>
    if s.length < 3 then .error (.indexOutOfRange "string ")
    else .error (.noAttribute "str" "tb_frame")
  | .bytes data =>
    if data.length < 3 then .error (.indexOutOfRange "")
    else .error (.noAttribute "int" "tb_frame")
  | .dict _ => .error (.missingIndex 2)
  | v => .error (.notSubscriptable v.kindName)

def written (e : Attachment) : Except Fault (Option String) :=
  if e.counts then
    match e with
    | exception text => .ok (some text)
    | value v => (writtenOf v).map some
  else .ok none

end Attachment

structure Draft where
  level : Value
  logger : Value
  template : Value
  arguments : Arguments
  fields : Named String Value
  exception : Attachment

namespace Draft

/-- The method of a record that makes its message. An extra of that name stands before it. -/
def messageMethod : String := "getMessage"

def attach (d : Draft) (name : String) (v : Value) : Draft :=
  if name = "levelname" then { d with level := v }
  else if name = "name" then { d with logger := v }
  else if name = "msg" then { d with template := v }
  else if name = "args" then { d with arguments := .single v }
  else if name = "exc_info" then { d with exception := .value v }
  else if hiddenNames.contains name then d
  else { d with fields := d.fields.put name v }

def message (d : Draft) : Except Fault String :=
  match d.fields.get? messageMethod with
  | some v => .error (.notCallable v.kindName)
  | none => do Template.fill (← d.template.printed) d.arguments

def line (d : Draft) : Except Fault Line := do
  let message ← d.message
  let exception ← d.exception.written
  let level ← d.level.toJson
  let logger ← d.logger.toJson
  let fields ← Value.toJsonEntries d.fields
  return ⟨level, logger, message, fields, exception⟩

def render (stamp : Stamp) (d : Draft) : Except Fault String := do
  return (← d.line).render stamp

end Draft

end InputChords.Log
