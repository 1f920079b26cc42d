import InputChords.Token

/-! What is wrong with an expression that cannot be read. -/

namespace InputChords

inductive ParseError.Reason where
  | unreadable | unopened | unclosed | unexpectedOperator | invalidKeyword | malformed
  deriving DecidableEq, Repr

/-- The blamed fragment and its position, where a single token is to blame. -/
structure ParseError where
  reason : ParseError.Reason
  expression : String
  fragment : Option String
  position : Option Int
  deriving DecidableEq, Repr

namespace ParseError

def Reason.kindName : Reason → String
  | unopened => "unopened_closing_parenthesis"
  | unclosed => "unclosed_opening_parenthesis"
  | unexpectedOperator => "unexpected_operator"
  | invalidKeyword => "invalid_keyword"
  | unreadable => "malformed_expression"
  | malformed => "malformed_expression"

def kindName (e : ParseError) : String := e.reason.kindName

def blame (reason : Reason) (expression : String) (token : Token) : ParseError :=
  ⟨reason, expression, some token.text, some token.position⟩

def operator? (e : ParseError) : Option String :=
  if e.reason = .unexpectedOperator then e.fragment else none

def keyword? (e : ParseError) : Option String :=
  if e.reason = .invalidKeyword then e.fragment else none

def fragmentText (e : ParseError) : String := e.fragment.getD "None"

def message (e : ParseError) : String :=
  match e.reason with
  | .unreadable => "Could not parse input `" ++ e.expression ++ "`"
  | .unopened => "Unopened closing parenthesis in input `" ++ e.expression ++ "`"
  | .unclosed => "Unclosed opening parenthesis in input `" ++ e.expression ++ "`"
  | .unexpectedOperator =>
    "Unexpected `" ++ e.fragmentText ++ "` operator for input `" ++ e.expression ++ "`"
  | .invalidKeyword =>
    "Invalid keyword `" ++ e.fragmentText ++ "` in input `" ++ e.expression ++ "`"
  | .malformed => "Something went wrong parsing the input `" ++ e.expression
    ++ "`. Is there a mismatched amount of input keywords?"

end ParseError

/-- The last two arise only from token lists that no expression has. -/
inductive CompileError where
  | rejected (e : ParseError)
  | noPriority (kind : Token.Kind)
  | misplacedParenthesis (text : String)
  deriving DecidableEq, Repr

end InputChords
