/-! White space around texts. -/

namespace InputChords.Text

/-- The separator controls of ASCII count as blank, as does every Unicode space. -/
def isBlank (c : Char) : Bool :=
  let code := c.toNat
  (9 ≤ code && code ≤ 13) || (28 ≤ code && code ≤ 32) || code == 0x85 || code == 0xa0
    || code == 0x1680 || (0x2000 ≤ code && code ≤ 0x200a) || code == 0x2028 || code == 0x2029
    || code == 0x202f || code == 0x205f || code == 0x3000

def stripWith (blank : Char → Bool) (cs : List Char) : List Char :=
  (((cs.dropWhile blank).reverse).dropWhile blank).reverse

def strip (s : String) : String := String.ofList (stripWith isBlank s.toList)

end InputChords.Text
