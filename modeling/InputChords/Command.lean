import InputChords.Command.Arguments
import InputChords.Log.Pipeline
import InputChords.Parse
import InputChords.Chord.Atoms

/-! The commands: checking and evaluating expressions, listing names. -/

namespace InputChords.Command

structure Report where
  lines : List String
  records : List Log.Record
  status : Nat

def rejectedLine (e : ParseError) : String :=
  "error kind=" ++ e.kindName ++ " message=" ++ e.message

/-- Of the errors that reading an expression gives only a rejection is ever met. -/
def outcomeLine (shown : Option (Chord Value) → String) :
    Except CompileError (Option (Chord Value)) → String
  | .ok t => shown t
  | .error (.rejected e) => rejectedLine e
  | .error e => e.message

def rendered (t : Option (Chord Value)) : String := (Chord.renderOptional t).toOption.getD ""

def checkedLine (t : Option (Chord Value)) : String :=
  let text := rendered t
  if text.isEmpty then "<empty>" else text

def check (trace : Bool) (expressions : List String) : Report :=
  let parsings : List (Parsing Value) := expressions.map (Parsing.run trace)
  let failed := parsings.any fun p => !p.outcome.isOk
  ⟨parsings.map fun p => outcomeLine checkedLine p.outcome, parsings.flatMap (·.records),
    if failed then 1 else 0⟩

def activeSet : List String → Except String AtomSet
  | [] => .ok ∅
  | name :: rest =>
    match (resolveKeyword name : Option (Chord Value)) with
    | none => .error name
    | some t => do
      let others ← activeSet rest
      return (t.atoms.toOption.getD ∅) ∪ others

def holds (active : AtomSet) : Option (Chord Value) → Bool
  | none => false
  | some t => (t.eval active).toOption.getD false

def eval (trace : Bool) (expression : String) (names : List String) : Report :=
  let parsing : Parsing Value := Parsing.run trace expression
  match parsing.outcome with
  | .error e => ⟨[outcomeLine rendered (.error e)], parsing.records, 1⟩
  | .ok t =>
    match activeSet names with
    | .error name => ⟨["error unknown active input " ++ Text.quote name], parsing.records, 1⟩
    | .ok active => ⟨[if holds active t then "true" else "false"], parsing.records, 0⟩

def category? (name : String) : Option Category :=
  let wanted := Text.lower (normalizeKeyword name)
  Category.all.find? fun c => Text.lower c.name = wanted

def aliasLines (c : Category) : List String :=
  ("[" ++ c.name ++ "]") ::
    (Atom.ofCategory c).map fun a => a.name ++ ": " ++ ", ".intercalate a.names

def aliases : Option String → Report
  | none => ⟨Category.all.flatMap aliasLines, [], 0⟩
  | some name =>
    match category? name with
    | some c => ⟨aliasLines c, [], 0⟩
    | none =>
      ⟨["error unknown category " ++ Text.quote name ++ "; expected one of: "
        ++ ", ".intercalate (Category.all.map Category.name)], [], 1⟩

def ambiguityLine (found : String × List Category) : String :=
  found.1 ++ ": " ++ ", ".intercalate (found.2.map Category.name)
    ++ (match found.2 with
      | winner :: _ => " (resolves to " ++ winner.name ++ ")"
      | [] => "")

def sharedNames : List (String × List Category) → Report
  | [] => ⟨["No cross-category aliases."], [], 0⟩
  | found => ⟨found.map ambiguityLine, [], 0⟩

def ambiguities : Report := sharedNames (InputChords.ambiguities AliasTable.builtin)

def Request.run (trace : Bool) : Request → Report
  | .check expressions => Command.check trace expressions
  | .eval expression names => Command.eval trace expression names
  | .aliases category => Command.aliases category
  | .ambiguities => Command.ambiguities

structure Result where
  output : String
  status : Nat
  log : Log.Pipeline

inductive Refusal where
  | stop (s : Stop)
  | settings (f : Fault)
  | log (f : Log.PipelineFault)
  deriving DecidableEq, Repr

def nonEmpty (text : Option String) : Option String := text.filter fun s => !s.isEmpty

/-- With a file the log goes there too; without one an existing log is kept. -/
def openLog (level : String) (i : Invocation) (disk : Log.Disk) (p : Log.Pipeline) :
    Log.Pipeline × Option Log.PipelineFault :=
  match nonEmpty i.logFile with
  | some file => p.configure ⟨level, "text", some file, i.logFormat⟩ disk
  | none => p.setup level

def logger : String := "chordbind.cli"

def run (env : Environment) (stamp : Log.Stamp) (disk : Log.Disk) (p : Log.Pipeline)
    (words : List String) : Except Refusal Result := do
  let i ← (Invocation.ofWords words).mapError .stop
  let fallback ← (Settings.levelName env "INFO").mapError .settings
  let settings ← (Settings.load env).mapError .settings
  let (opened, fault) := openLog ((nonEmpty i.logLevel).getD fallback) i disk p
  match fault with
  | some f => .error (.log f)
  | none =>
    let report := i.request.run settings.parseTrace
    let start := Log.debug logger ("cli_command command=" ++ i.request.name)
    let written := opened.logAll stamp (start :: report.records)
    return ⟨String.join (report.lines.map (· ++ "\n")), report.status, written.shutdown⟩

end InputChords.Command
