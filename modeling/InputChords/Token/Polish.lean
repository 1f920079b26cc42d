import InputChords.ParseError
import InputChords.Text.Quoted

/-! Tokens in operand order: every operator stands after its operands, and parentheses are gone. -/

namespace InputChords

namespace Token

/-- Operators of a higher priority bind tighter. Parentheses are below all of them, which makes
them a boundary. -/
def Kind.priority : Kind → Except CompileError Nat
  | opening => .ok 1
  | closing => .ok 1
  | join .or => .ok 2
  | join .and => .ok 3
  | not => .ok 4
  | keyword => .error (.noPriority keyword)

/-- Moves the waiting operators that bind at least as tight as `level` to the output. -/
def releaseTighter (level : Nat) (output : List Token) :
    List Token → Except CompileError (List Token × List Token)
  | [] => .ok ([], output)
  | top :: waiting => do
    if level ≤ (← top.kind.priority) then releaseTighter level (top :: output) waiting
    else return (top :: waiting, output)

def releaseGroup (output : List Token) : List Token → Option (List Token × List Token)
  | [] => none
  | top :: waiting =>
    if top.kind = .opening then some (waiting, output) else releaseGroup (top :: output) waiting

def releaseAll (expression : String) (output : List Token) :
    List Token → Except CompileError (List Token)
  | [] => .ok output.reverse
  | top :: waiting =>
    if top.kind = .opening then .error (.rejected (.blame .unclosed expression top))
    else releaseAll expression (top :: output) waiting

/-- `waiting` holds operators and open parentheses, the last one first; `output` is reversed. -/
def reorderFrom (expression : String) (waiting output : List Token) :
    List Token → Except CompileError (List Token)
  | [] => releaseAll expression output waiting
  | token :: rest =>
    match token.kind with
    | .keyword => reorderFrom expression waiting (token :: output) rest
    | .opening => reorderFrom expression (token :: waiting) output rest
    | .closing =>
      match releaseGroup output waiting with
      | none => .error (.rejected (.blame .unopened expression token))
      | some (waiting, output) => reorderFrom expression waiting output rest
    | kind => do
      let (waiting, output) ← releaseTighter (← kind.priority) output waiting
      reorderFrom expression (token :: waiting) output rest

def reorder (expression : String) (tokens : List Token) : Except CompileError (List Token) :=
  reorderFrom expression [] [] tokens

end Token

def CompileError.message : CompileError → String
  | rejected e => e.message
  | noPriority kind => "token kind " ++ kind.name
    ++ " has no priority; expected one of `(`, `)`, `|`, `+`, `!`"
  | misplacedParenthesis text =>
    "parenthesis token " ++ Text.quote text ++ " cannot appear in postfix order"

end InputChords
