import InputChords.Token

/-! What single characters and whole words do to the tokens found so far. -/

namespace InputChords.Token

/-- A word cannot go on into this text. -/
def EndsWord : List Char → Prop
  | [] => True
  | c :: _ => isKeywordChar c = false

section Step

variable (position : Nat) (word rest : List Char) (found : List Token)

theorem flush_nil : flush position [] found = found := rfl

theorem scan_symbol (c : Char) (kind : Kind) (symbol : symbolKind? c = some kind) :
    scan position word found (c :: rest) =
      scan (position + 1) [] (⟨kind, String.singleton c, position⟩ :: flush position word found)
        rest := by
  simp only [scan, symbol]

theorem scan_separator (c : Char) (plain : symbolKind? c = none)
    (separator : isSeparator c = true) :
    scan position word found (c :: rest) =
      scan (position + 1) [] (flush position word found) rest := by
  simp only [scan, plain, separator, if_true]

theorem scan_letter (c : Char) (letter : isKeywordChar c = true) :
    scan position word found (c :: rest) = scan (position + 1) (c :: word) found rest := by
  rw [isKeywordChar, Bool.and_eq_true] at letter
  have plain : symbolKind? c = none := Option.isNone_iff_eq_none.mp letter.1
  have inside : isSeparator c = false := by simpa using letter.2
  simp only [scan, plain, inside, Bool.false_eq_true, if_false]

theorem scan_letters (letters : List Char) (all : ∀ c ∈ letters, isKeywordChar c = true) :
    scan position word found (letters ++ rest) =
      scan (position + letters.length) (letters.reverse ++ word) found rest := by
  induction letters generalizing position word with
  | nil => rfl
  | cons c cs ih =>
      have here := all c (List.mem_cons_self ..)
      have allLater : ∀ d ∈ cs, isKeywordChar d = true :=
        fun d member => all d (List.mem_cons_of_mem c member)
      have later := ih (position + 1) (c :: word) allLater
      rw [List.cons_append, scan_letter _ _ _ _ c here, later, List.length_cons, List.reverse_cons,
        List.append_assoc, Nat.add_assoc, Nat.add_comm 1]
      rfl

theorem scan_flush (ends : EndsWord rest) :
    scan position word found rest = scan position [] (flush position word found) rest := by
  cases rest with
  | nil => rfl
  | cons c rest =>
      cases symbol : symbolKind? c with
      | some kind =>
          rw [scan_symbol _ _ _ _ c kind symbol, scan_symbol _ _ _ _ c kind symbol, flush_nil]
      | none =>
          have separator : isSeparator c = true := by
            rw [EndsWord, isKeywordChar, symbol] at ends
            simpa using ends
          rw [scan_separator _ _ _ _ c symbol separator, scan_separator _ _ _ _ c symbol separator,
            flush_nil]

theorem scan_name (name : String) (filled : name.isEmpty = false)
    (all : ∀ c ∈ name.toList, isKeywordChar c = true) (ends : EndsWord rest) :
    scan position [] found (name.toList ++ rest) =
      scan (position + name.toList.length) [] (⟨.keyword, name, position⟩ :: found) rest := by
  have some_letter : name.toList.reverse ≠ [] := by
    intro none
    have empty : name.toList = [] := List.reverse_eq_nil_iff.mp none
    rw [String.toList_eq_nil_iff.mp empty] at filled
    cases filled
  have flushed : flush (position + name.toList.length) name.toList.reverse found =
      ⟨.keyword, name, position⟩ :: found := by
    rw [flush, if_neg (by simpa using some_letter), List.reverse_reverse, String.ofList_toList,
      List.length_reverse, Nat.add_sub_cancel]
  rw [scan_letters _ _ _ _ _ all, List.append_nil, scan_flush _ _ _ _ ends, flushed]

end Step

end InputChords.Token
