import InputChords.Named
import InputChords.Text.Digit

/-! Words of a command line read by a grammar: switches, some with arguments, and one positional
argument. -/

namespace InputChords.Command

inductive Arity where
  | none | one | many
  deriving DecidableEq, Repr

/-- A switch goes by any of its names. A long name may be cut short as long as only one switch has
a name that starts so. With `choices` only these arguments are allowed. -/
structure Switch where
  names : List String
  arity : Arity
  choices : Option (List String)
  deriving DecidableEq, Repr

inductive Positional where
  | one
  | oneOrMore
  | command
  deriving DecidableEq, Repr

structure Grammar where
  switches : List Switch
  positional : Option Positional
  deriving DecidableEq, Repr

def helpSwitch : Switch := ⟨["-h", "--help"], .none, none⟩

structure Attached where
  byEquals : Bool
  text : String
  deriving DecidableEq, Repr

inductive Role where
  | plain
  | separator
  | switch (s : Switch) (name : String) (attached : Option Attached)
  | unknown
  deriving DecidableEq, Repr

structure Word where
  text : String
  role : Role
  deriving DecidableEq, Repr

inductive Stop where
  | usage | help
  deriving DecidableEq, Repr

namespace Word

def isLong (text : String) : Bool := "--".isPrefixOf text

def splitEquals (text : String) : String × Option Attached :=
  let cs := text.toList
  let name := String.ofList (cs.takeWhile (· != '='))
  match cs.dropWhile (· != '=') with
  | [] => (name, none)
  | _ :: rest => (name, some ⟨true, String.ofList rest⟩)

/-- A minus, digits, and at most one point with digits behind it. A line end may follow. -/
def isNegativeNumber (text : String) : Bool :=
  match text.toList with
  | '-' :: body =>
    let body := if body.getLast? = some '\n' then body.dropLast else body
    match body.dropWhile Text.isDigit with
    | [] => !body.isEmpty
    | '.' :: fraction => !fraction.isEmpty && fraction.all Text.isDigit
    | _ => false
  | _ => false

def namesOf (g : Grammar) : List (String × Switch) :=
  g.switches.flatMap fun s => s.names.map fun name => (name, s)

def candidates (g : Grammar) (text : String) : List Role :=
  if isLong text then
    let (start, attached) := splitEquals text
    (namesOf g).filterMap fun (name, s) =>
      if start.isPrefixOf name then some (.switch s name attached) else none
  else
    let short := String.ofList (text.toList.take 2)
    (namesOf g).filterMap fun (name, s) =>
      if name = short then some (.switch s name (some ⟨false, String.ofList (text.toList.drop 2)⟩))
      else if text.isPrefixOf name then some (.switch s name none)
      else none

def roleOf (g : Grammar) (text : String) : Except Stop Role :=
  let known (name : String) := (namesOf g).lookup name
  if !"-".isPrefixOf text then .ok .plain
  else
    match known text with
    | some s => .ok (.switch s text none)
    | none =>
      if text = "-" then .ok .plain
      else
        match splitEquals text with
        | (name, some attached) =>
          match known name with
          | some s => .ok (.switch s name (some attached))
          | none => guess g text
        | _ => guess g text
where
  guess (g : Grammar) (text : String) : Except Stop Role :=
    match candidates g text with
    | [role] => .ok role
    | _ :: _ => .error .usage
    | [] =>
      if isNegativeNumber text || text.toList.contains ' ' then .ok .plain else .ok .unknown

def classify (g : Grammar) : List String → Except Stop (List Word)
  | [] => .ok []
  | text :: rest =>
    if text = "--" then .ok (⟨text, .separator⟩ :: rest.map fun later => ⟨later, .plain⟩)
    else do return ⟨text, ← roleOf g text⟩ :: (← classify g rest)

def isPlain (w : Word) : Bool := w.role == .plain

def isSwitch (w : Word) : Bool :=
  match w.role with
  | .switch _ _ _ => true
  | .unknown => true
  | _ => false

end Word

structure Reading where
  switches : Named String (List String)
  positional : Option (List String)
  leftOver : Bool
  deriving DecidableEq, Repr

namespace Reading

def take (p : Positional) (words : List Word) : Option Nat :=
  let lead := (words.takeWhile fun w => w.role == .separator).length
  match words.drop lead with
  | [] => none
  | first :: rest =>
    if !first.isPlain then none
    else
      match p with
      | .one => some (lead + 1 + (rest.takeWhile fun w => w.role == .separator).length)
      | .oneOrMore => some (lead + 1 + (rest.takeWhile fun w => !w.isSwitch).length)
      | .command => some words.length

def argument (p : Positional) (words : List Word) : List String :=
  let texts := words.map (·.text)
  match p with
  | .command => texts
  | _ => texts.erase "--"

/-- Short names without arguments may share a word: `attached` is what stands behind the name. -/
def stopAt (g : Grammar) : Bool → List Char → Stop
  | _, [] => .usage
  | byEquals, c :: rest =>
    if byEquals || c = '-' then .usage
    else if !((Word.namesOf g).lookup (String.ofList ['-', c])).isSome then .help
    else
      match rest with
      | [] => .help
      | '=' :: rest => stopAt g true rest
      | rest => stopAt g false rest

def arguments (g : Grammar) (s : Switch) (name : String) (attached : Option Attached)
    (rest : List Word) : Except Stop (List String × Nat) :=
  match s.arity, attached with
  | .none, none => .error .help
  | .none, some a =>
    if Word.isLong name then .error .usage else .error (stopAt g a.byEquals a.text.toList)
  | _, some a => .ok ([a.text], 0)
  | .one, none =>
    match rest with
    | w :: _ => if w.isPlain then .ok ([w.text], 1) else .error .usage
    | [] => .error .usage
  | .many, none =>
    let taken := rest.takeWhile Word.isPlain
    .ok (taken.map (·.text), taken.length)

def allowed (s : Switch) (values : List String) : Bool :=
  match s.choices with
  | none => true
  | some choices => values.all choices.contains

/-- Reads words until they are used up. `fuel` bounds the number of steps, each of which uses a
word. -/
def readFrom (g : Grammar) (waiting : Option Positional) (found : Reading) :
    Nat → List Word → Except Stop Reading
  | 0, _ => .ok found
  | _ + 1, [] => if waiting.isSome then .error .usage else .ok found
  | fuel + 1, w :: rest =>
    match w.role with
    | .switch s name attached => do
      let (values, count) ← arguments g s name attached rest
      if !allowed s values then .error .usage
      else
        let key := s.names.headD name
        readFrom g waiting { found with switches := found.switches.put key values } fuel
          (rest.drop count)
    | .unknown => readFrom g waiting { found with leftOver := true } fuel rest
    | _ =>
      match waiting.bind fun p => (take p (w :: rest)).map fun n => (p, n) with
      | some (p, n) =>
        readFrom g none { found with positional := some (argument p ((w :: rest).take n)) } fuel
          ((w :: rest).drop n)
      | none => readFrom g waiting { found with leftOver := true } fuel rest

/-- Reads all words; a switch that is given twice counts the second time. -/
def ofWords (g : Grammar) (texts : List String) : Except Stop Reading := do
  let words ← Word.classify g texts
  readFrom g g.positional ⟨[], none, false⟩ (words.length + 1) words

def one? (r : Reading) (name : String) : Option String := (r.switches.get? name).bind (·.head?)

def many (r : Reading) (name : String) : List String := (r.switches.get? name).getD []

end Reading

end InputChords.Command
