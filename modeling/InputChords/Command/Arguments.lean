import InputChords.Command.Words

/-! The command line: switches for the log, then one of four commands with its own arguments. -/

namespace InputChords.Command

inductive Request where
  | check (expressions : List String)
  | eval (expression : String) (active : List String)
  | aliases (category : Option String)
  | ambiguities
  deriving DecidableEq, Repr

structure Invocation where
  logLevel : Option String
  logFile : Option String
  logFormat : String
  request : Request
  deriving DecidableEq, Repr

namespace Request

def name : Request → String
  | check _ => "check"
  | eval _ _ => "eval"
  | aliases _ => "aliases"
  | ambiguities => "ambiguities"

def checkGrammar : Grammar := ⟨[helpSwitch], some .oneOrMore⟩

def evalGrammar : Grammar := ⟨[helpSwitch, ⟨["--active"], .many, none⟩], some .one⟩

def aliasesGrammar : Grammar := ⟨[helpSwitch, ⟨["--category"], .one, none⟩], none⟩

def ambiguitiesGrammar : Grammar := ⟨[helpSwitch], none⟩

def readWith (g : Grammar) (words : List String) : Except Stop Reading := do
  let r ← Reading.ofWords g words
  if r.leftOver then .error .usage else return r

def ofWords : List String → Except Stop Request
  | "check" :: rest => do
    let r ← readWith checkGrammar rest
    return .check (r.positional.getD [])
  | "eval" :: rest => do
    let r ← readWith evalGrammar rest
    return .eval ((r.positional.getD []).headD "") (r.many "--active")
  | "aliases" :: rest => do
    let r ← readWith aliasesGrammar rest
    return .aliases (r.one? "--category")
  | "ambiguities" :: rest => do
    let _ ← readWith ambiguitiesGrammar rest
    return .ambiguities
  | _ => .error .usage

end Request

namespace Invocation

def grammar : Grammar :=
  ⟨[helpSwitch, ⟨["--log-level"], .one, none⟩, ⟨["--log-file"], .one, none⟩,
    ⟨["--log-format"], .one, some ["json", "text"]⟩], some .command⟩

def ofWords (words : List String) : Except Stop Invocation := do
  let r ← Reading.ofWords grammar words
  let request ← Request.ofWords (r.positional.getD [])
  if r.leftOver then .error .usage
  else
    return ⟨r.one? "--log-level", r.one? "--log-file", (r.one? "--log-format").getD "json", request⟩

end Invocation

end InputChords.Command
