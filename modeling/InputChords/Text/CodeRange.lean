/-! Ranges of code points, the form in which character classes are listed. -/

namespace InputChords.Text

abbrev CodeRange := Nat × Nat

def within (ranges : List CodeRange) (code : Nat) : Bool :=
  ranges.any fun range => range.1 ≤ code && code ≤ range.2

end InputChords.Text
