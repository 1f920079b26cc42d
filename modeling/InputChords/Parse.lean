import InputChords.Catalog.Resolve
import InputChords.Log.Record
import InputChords.Token.Polish

/-! Expressions read as chords: tokens, operand order, reduction of the operands. -/

namespace InputChords

variable {σ : Type}

namespace Token

def reduce (expression : String) (operands : List (Chord σ)) (token : Token) :
    Except CompileError (List (Chord σ)) :=
  match token.kind, operands with
  | .join c, right :: left :: rest => .ok (.join c left right :: rest)
  | .join _, _ => .error (.rejected (.blame .unexpectedOperator expression token))
  | .not, operand :: rest => .ok (.not operand :: rest)
  | .not, [] => .error (.rejected (.blame .unexpectedOperator expression token))
  | .keyword, operands =>
    match resolveKeyword token.text with
    | some t => .ok (t :: operands)
    | none => .error (.rejected (.blame .invalidKeyword expression token))
  | .opening, _ => .error (.misplacedParenthesis token.text)
  | .closing, _ => .error (.misplacedParenthesis token.text)

def reduceAll (expression : String) : List (Chord σ) → List Token →
    Except CompileError (List (Chord σ))
  | operands, [] => .ok operands
  | operands, token :: rest => do reduceAll expression (← reduce expression operands token) rest

def build (expression : String) : List Token → Except CompileError (Option (Chord σ))
  | [] => .ok none
  | tokens => do
    match ← reduceAll expression [] tokens with
    | [t] => return some t
    | _ => .error (.rejected ⟨.malformed, expression, none, none⟩)

end Token

def parse (expression : String) : Except CompileError (Option (Chord σ)) := do
  Token.build expression (← Token.reorder expression (Token.tokenize expression))

structure Parsing (σ : Type) where
  records : List Log.Record
  outcome : Except CompileError (Option (Chord σ))

namespace Parsing

def logger : String := "chordbind.runtime.parser"

def failureRecord (e : ParseError) : Log.Record :=
  Log.debug logger ("expression_parse_failed kind=" ++ e.kindName
    ++ " fragment=" ++ ((e.fragment.map Text.quote).getD "None")
    ++ " position=" ++ ((e.position.map toString).getD "None")
    ++ " expression=" ++ Text.quote e.expression)

def texts (tokens : List Token) : String := " ".intercalate (tokens.map (·.text))

def orderRecord (expression : String) (tokens polish : List Token) : Log.Record :=
  Log.debug logger ("expression_postfix expression=" ++ Text.quote expression
    ++ " tokens=" ++ texts tokens ++ " postfix=" ++ texts polish)

def failureRecords {α : Type} : Except CompileError α → List Log.Record
  | .error (.rejected e) => [failureRecord e]
  | _ => []

def run (trace : Bool) (expression : String) : Parsing σ :=
  let tokens := Token.tokenize expression
  match Token.reorder expression tokens with
  | .error e => ⟨failureRecords (.error e : Except CompileError Unit), .error e⟩
  | .ok polish =>
    let outcome := Token.build expression polish
    ⟨(if trace then [orderRecord expression tokens polish] else []) ++ failureRecords outcome,
      outcome⟩

theorem run_outcome (trace : Bool) (expression : String) :
    (run trace expression : Parsing σ).outcome = parse expression := by
  cases h : Token.reorder expression (Token.tokenize expression) <;>
    simp [run, parse, h, bind, Except.bind]

end Parsing

end InputChords
