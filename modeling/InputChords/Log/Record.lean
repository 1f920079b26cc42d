import InputChords.Json
import InputChords.Named

/-! Log records and their levels. -/

namespace InputChords.Log

structure Level where
  rank : Int
  writable : Decimal.Writable rank
  deriving Repr

namespace Level

theorem ext_iff (l m : Level) : l.rank = m.rank ↔ l = m := by
  cases l
  cases m
  rw [mk.injEq]

instance : DecidableEq Level := fun l m => decidable_of_decidable_of_iff (ext_iff l m)

def notset : Level := ⟨0, by decide⟩

def debug : Level := ⟨10, by decide⟩

def info : Level := ⟨20, by decide⟩

def warning : Level := ⟨30, by decide⟩

def error : Level := ⟨40, by decide⟩

def critical : Level := ⟨50, by decide⟩

def named : Named String Level :=
  [("NOTSET", notset), ("DEBUG", debug), ("INFO", info), ("WARNING", warning), ("ERROR", error),
    ("CRITICAL", critical)]

def name (l : Level) : String :=
  match named.find? fun entry => entry.2.rank = l.rank with
  | some (name, _) => name
  | none => "Level " ++ toString l.rank

end Level

/-- The message has its values filled in, and `extras` are what a caller attached, in JSON form. An
exception and a stack come as what is written of them. -/
structure Record where
  level : Level
  logger : String
  message : String
  extras : List (String × Json)
  exception : Option String
  stack : Option String

def debug (logger message : String) : Record := ⟨.debug, logger, message, [], none, none⟩

def below (text more : String) : String :=
  if text.toList.getLast? = some '\n' then text ++ more else text ++ "\n" ++ more

namespace Record

def text (r : Record) : String := (r.exception.toList ++ r.stack.toList).foldl below r.message

def queued (r : Record) : Record := { r with message := r.text, exception := none, stack := none }

end Record

end InputChords.Log
