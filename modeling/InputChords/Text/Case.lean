import InputChords.Text.CaseTable

/-! Lower and upper case of whole texts: one character may become several, and a capital sigma
becomes a final sigma at the end of a word. -/

namespace InputChords.Text

def shifted (runs : List CaseRun) (c : Char) : Char :=
  match runs.find? (·.holds c.toNat) with
  | some run => Char.ofNat (c.toNat + run.shift).toNat
  | none => c

def isCased (c : Char) : Bool := within casedRanges c.toNat

def isCaseIgnorable (c : Char) : Bool := within caseIgnorableRanges c.toNat

/-- Lower case away from any word: `İ` is the one character that becomes two. -/
def lowerChar (c : Char) : List Char :=
  if c.toNat < 128 then [c.toLower]
  else if c = 'İ' then ['i', '\u0307']
  else [shifted lowerRuns c]

def wordContinues (rest : List Char) : Bool :=
  match rest.dropWhile isCaseIgnorable with
  | c :: _ => isCased c
  | [] => false

def lowerFrom (inWord : Bool) : List Char → List Char
  | [] => []
  | c :: rest =>
    if c = 'Σ' then
      (if inWord && !wordContinues rest then 'ς' else 'σ') :: lowerFrom true rest
    else if c.toNat < 128 && c.isAlpha then c.toLower :: lowerFrom true rest
    else lowerChar c ++ lowerFrom (if isCaseIgnorable c then inWord else isCased c) rest

def lower (s : String) : String := String.ofList (lowerFrom false s.toList)

def upperChar (c : Char) : List Char :=
  if c.toNat < 128 then [c.toUpper]
  else match upperExpansions.lookup c.toNat with
    | some codes => codes.map Char.ofNat
    | none => [shifted upperRuns c]

def upper (s : String) : String := String.ofList (s.toList.flatMap upperChar)

end InputChords.Text
