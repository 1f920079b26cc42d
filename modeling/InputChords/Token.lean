import InputChords.Chord

/-! The tokens of an expression: symbols of one character, and keywords made of everything between
symbols and separators. -/

namespace InputChords

namespace Token

inductive Kind where
  | join (c : Connective)
  | not
  | opening
  | closing
  | keyword
  deriving DecidableEq, Repr

namespace Kind

def isOperator : Kind → Bool
  | join _ => true
  | not => true
  | _ => false

def name : Kind → String
  | join .and => "AND"
  | join .or => "OR"
  | not => "NOT"
  | opening => "OPEN_PAREN"
  | closing => "CLOSE_PAREN"
  | keyword => "KEYWORD"

def all : List Kind := [join .and, join .or, not, opening, closing, keyword]

end Kind

end Token

/-- `position` counts the characters before the token. -/
structure Token where
  kind : Token.Kind
  text : String
  position : Int
  deriving DecidableEq, Repr

namespace Token

def symbolKind? (c : Char) : Option Kind :=
  if c = '+' then some (.join .and)
  else if c = '|' then some (.join .or)
  else if c = '!' then some .not
  else if c = '(' then some .opening
  else if c = ')' then some .closing
  else none

/-- Tabs and all other blanks belong to keywords. -/
def isSeparator (c : Char) : Bool := c = ' ' || c = '\n' || c = '\r'

def isKeywordChar (c : Char) : Bool := (symbolKind? c).isNone && !isSeparator c

def flush (position : Nat) (word : List Char) (found : List Token) : List Token :=
  if word.isEmpty then found
  else ⟨.keyword, String.ofList word.reverse, (position - word.length : Nat)⟩ :: found

/-- `position` is where the next character stands; `found` lists the tokens so far, last one
first. -/
def scan (position : Nat) (word : List Char) (found : List Token) : List Char → List Token
  | [] => (flush position word found).reverse
  | c :: rest =>
    match symbolKind? c with
    | some kind =>
      scan (position + 1) []
        (⟨kind, String.singleton c, position⟩ :: flush position word found) rest
    | none =>
      if isSeparator c then scan (position + 1) [] (flush position word found) rest
      else scan (position + 1) (c :: word) found rest

def tokenize (expression : String) : List Token := scan 0 [] [] expression.toList

end Token

end InputChords
