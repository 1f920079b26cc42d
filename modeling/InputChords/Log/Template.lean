import InputChords.Log.Conversion
import InputChords.Named

/-! Message templates: percent conversions replaced by the values that go with the message. -/

namespace InputChords.Log

inductive Arguments where
  | some (values : List Value)
  | single (v : Value)

namespace Arguments

/-- One dictionary that is not empty is taken for itself. -/
def ofList : List Value → Arguments
  | [.dict (entry :: entries)] => single (.dict (entry :: entries))
  | values => some values

def values : Arguments → List Value
  | some values => values
  | single v => [v]

/-- The template is left as it is where there is nothing to fill it with. -/
def isEmpty : Arguments → Bool
  | some values => values.isEmpty
  | single v => !v.truthy

def subject : Arguments → Option Value
  | some _ => none
  | single (.list items) => Option.some (.list items)
  | single (.dict entries) => Option.some (.dict entries)
  | single (.bytes data) => Option.some (.bytes data)
  | single _ => none

end Arguments

namespace Template

def item (key : String) : Value → Except Fault Value
  | .dict entries =>
    match Named.get? entries key with
    | some v => .ok v
    | none => .error (.missingKey key)
  | .list _ => .error (.textAsIndex "list")
  | .bytes _ => .error (.textAsIndex "byte")
  | v => .error (.notSubscriptable v.kindName)

inductive Mode where
  | literal
  | conversion (conv : Conversion)
  | key (depth : Nat) (name : List Char)

def fillFrom (subject : Option Value) (mode : Mode) (index : Nat) (pending : List Value) :
    List Char → Except Fault (List Char)
  | [] =>
    match mode with
    | .literal => if subject.isNone && !pending.isEmpty then .error .manyArguments else .ok []
    | .conversion _ => .error .cutTemplate
    | .key _ _ => .error .cutTemplateKey
  | c :: rest =>
    match mode with
    | .literal =>
      if c = '%' then fillFrom subject (.conversion .opened) (index + 1) pending rest
      else do return c :: (← fillFrom subject .literal (index + 1) pending rest)
    | .conversion conv =>
      if conv.phase = .start && c = '%' then do
        return '%' :: (← fillFrom subject .literal (index + 1) pending rest)
      else if conv.phase = .start && c = '(' then
        if subject.isNone then .error .notAMapping
        else fillFrom subject (.key 0 []) (index + 1) pending rest
      else do
        match ← conv.read c pending with
        | (some next, pending) => fillFrom subject (.conversion next) (index + 1) pending rest
        | (none, []) => .error .fewArguments
        | (none, v :: more) =>
          let piece ← Conversion.convert conv.layout c index v
          if subject.isSome && !more.isEmpty then .error .manyArguments
          else return piece ++ (← fillFrom subject .literal (index + 1) more rest)
    | .key depth name =>
      if c = '(' then fillFrom subject (.key (depth + 1) (c :: name)) (index + 1) pending rest
      else if c != ')' then fillFrom subject (.key depth (c :: name)) (index + 1) pending rest
      else if depth != 0 then
        fillFrom subject (.key (depth - 1) (c :: name)) (index + 1) pending rest
      else do
        let v ← item (String.ofList name.reverse) (subject.getD .null)
        fillFrom subject (.conversion ⟨.plain, .flags⟩) (index + 1) [v] rest

def fill (template : String) (arguments : Arguments) : Except Fault String :=
  if arguments.isEmpty then .ok template
  else
    (fillFrom arguments.subject .literal 0 arguments.values template.toList).map String.ofList

def wholeText (v : Value) : Except Fault String :=
  (Conversion.convert .plain 'd' 0 v).map String.ofList

end Template

end InputChords.Log
