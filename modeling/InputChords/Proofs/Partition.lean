import Mathlib.Data.List.Perm.Basic
import Mathlib.Data.List.Nodup
import InputChords.Proofs.Diagnosis

/-! The tokens of a text as its one partition: symbols stand alone, keywords are as long as they can
be, and all that is left over separates. Texts that do not meet inside of a keyword are partitioned
one by one. -/

namespace InputChords.Token

def Covers (t : Token) (i : Nat) : Prop := t.position ≤ i ∧ i < t.position + t.text.length

/-- A single symbol, of the kind that it stands for. -/
def IsSymbol (t : Token) : Prop := ∃ c, symbolKind? c = some t.kind ∧ t.text = String.singleton c

/-- A keyword that has symbols, separators or the ends of the text for its neighbours. -/
structure IsWord (chars : List Char) (t : Token) : Prop where
  kind : t.kind = .keyword
  filled : 1 ≤ t.text.length
  before : ∀ (i : Nat) c, i + 1 = t.position → chars[i]? = some c → isKeywordChar c = false
  after : ∀ (i : Nat) c, i = t.position + t.text.length → chars[i]? = some c →
    isKeywordChar c = false

structure Partition (chars : List Char) (tokens : List Token) : Prop where
  increasing : tokens.Pairwise fun t u => t.position < u.position
  disjoint : tokens.Pairwise fun t u => ∀ i, ¬ (t.Covers i ∧ u.Covers i)
  cited : ∀ t ∈ tokens, t.Cited chars
  covered : ∀ (i : Nat) c, chars[i]? = some c →
    ((∃ t ∈ tokens, t.Covers i) ↔ isSeparator c = false)
  symbol : ∀ (i : Nat) c kind, chars[i]? = some c → symbolKind? c = some kind →
    ∃ t ∈ tokens, t.Covers i ∧ t.kind = kind ∧ t.text.length = 1
  other : ∀ t ∈ tokens, t.IsSymbol ∨ t.IsWord chars

def shift (width : Nat) (t : Token) : Token := { t with position := t.position + width }

section Characters

theorem endsWord_iff (chars : List Char) :
    EndsWord chars ↔ ∀ c, chars[0]? = some c → isKeywordChar c = false := by
  cases chars with
  | nil => simp [EndsWord]
  | cons c rest => simp [EndsWord]

theorem endsWord_reverse_iff (chars : List Char) : EndsWord chars.reverse ↔
    ∀ (i : Nat) c, i + 1 = chars.length → chars[i]? = some c → isKeywordChar c = false := by
  rcases List.eq_nil_or_concat' chars with rfl | ⟨init, last, rfl⟩
  · simp [EndsWord]
  · have shown : EndsWord (init ++ [last]).reverse ↔ isKeywordChar last = false := by
      rw [List.reverse_concat]
      rfl
    rw [shown]
    constructor
    · intro ends i c final found
      rw [List.length_append, List.length_singleton] at final
      obtain rfl : i = init.length := by omega
      rw [List.getElem?_concat_length] at found
      cases found
      exact ends
    · intro ends
      exact ends init.length last (by simp) List.getElem?_concat_length

theorem symbol_parted (c : Char) (kind : Kind) (symbol : symbolKind? c = some kind) :
    isSeparator c = false ∧ isKeywordChar c = false ∧ kind ≠ .keyword := by
  have signs : c = '+' ∨ c = '|' ∨ c = '!' ∨ c = '(' ∨ c = ')' := by
    by_contra none
    simp only [not_or] at none
    simp [symbolKind?, none] at symbol
  refine ⟨?_, by simp [isKeywordChar, symbol], ?_⟩
  · rcases signs with rfl | rfl | rfl | rfl | rfl <;> rfl
  · rintro rfl
    rcases signs with rfl | rfl | rfl | rfl | rfl <;> cases symbol

theorem letter_parted (c : Char) (letter : isKeywordChar c = true) :
    isSeparator c = false ∧ symbolKind? c = none := by
  rw [isKeywordChar, Bool.and_eq_true] at letter
  exact ⟨by simpa using letter.2, by simpa using letter.1⟩

end Characters

theorem covers_symbol (kind : Kind) (c : Char) (i : Nat) :
    Covers ⟨kind, String.singleton c, i⟩ i := by
  refine ⟨le_refl _, ?_⟩
  show (i : Int) < i + (String.singleton c).length
  rw [String.length_singleton]
  omega

section Cited

variable {chars : List Char} {t u : Token}

theorem Cited.getElem? (cited : t.Cited chars) :
    ∃ n : Nat, t.position = n ∧
      ∀ (j : Nat) c, t.text.toList[j]? = some c → chars[n + j]? = some c := by
  obtain ⟨n, position, same⟩ := cited
  refine ⟨n, position, ?_⟩
  intro j c found
  have inside : j < t.text.length := by
    rw [← String.length_toList]
    exact (List.getElem?_eq_some_iff.mp found).1
  rw [← same, List.getElem?_take_of_lt inside, List.getElem?_drop] at found
  exact found

theorem Cited.char (cited : t.Cited chars) (i : Nat) (covers : t.Covers i) :
    ∃ c ∈ t.text.toList, chars[i]? = some c := by
  obtain ⟨n, position, same⟩ := cited.getElem?
  obtain ⟨low, high⟩ := covers
  rw [position] at low high
  obtain ⟨j, rfl⟩ : ∃ j, i = n + j := ⟨i - n, by omega⟩
  have inside : j < t.text.toList.length := by
    rw [String.length_toList]
    omega
  exact ⟨t.text.toList[j], List.getElem_mem inside, same j _ (List.getElem?_eq_getElem inside)⟩

theorem Cited.eq_of_place (cited : t.Cited chars) (citedToo : u.Cited chars)
    (kind : t.kind = u.kind) (position : t.position = u.position)
    (length : t.text.length = u.text.length) : t = u := by
  obtain ⟨n, here, text⟩ := cited
  obtain ⟨m, there, textToo⟩ := citedToo
  have same : n = m := by omega
  have texts : t.text = u.text := by
    apply String.toList_injective
    rw [← text, ← textToo, length, same]
  cases t
  cases u
  simp_all

end Cited

/-- What the text alone says of a token. -/
structure Lexeme (chars : List Char) (t : Token) : Prop where
  cited : t.Cited chars
  whole : t.IsSymbol ∨ t.IsWord chars ∧ ∀ c ∈ t.text.toList, isKeywordChar c = true

section Lexeme

variable {chars : List Char} {t u : Token}

theorem IsSymbol.length (symbol : t.IsSymbol) : t.text.length = 1 := by
  obtain ⟨c, _, text⟩ := symbol
  rw [text, String.length_singleton]

theorem Lexeme.filled (lexeme : Lexeme chars t) : 1 ≤ t.text.length := by
  rcases lexeme.whole with symbol | ⟨word, _⟩
  · exact symbol.length.ge
  · exact word.filled

theorem IsWord.bounds (word : t.IsWord chars) (cited : t.Cited chars) (citedToo : u.Cited chars)
    (letters : ∀ c ∈ u.text.toList, isKeywordChar c = true) (i : Nat) (covers : t.Covers i)
    (coversToo : u.Covers i) :
    t.position ≤ u.position ∧ u.position + u.text.length ≤ t.position + t.text.length := by
  have letter (j : Nat) (inside : u.Covers j) :
      ∃ c, chars[j]? = some c ∧ isKeywordChar c = true := by
    obtain ⟨c, member, found⟩ := citedToo.char j inside
    exact ⟨c, found, letters c member⟩
  obtain ⟨low, high⟩ := covers
  obtain ⟨lowToo, highToo⟩ := coversToo
  obtain ⟨n, position, _⟩ := cited
  obtain ⟨m, positionToo, _⟩ := citedToo
  constructor
  · by_contra later
    have before : ((n - 1 : Nat) : Int) + 1 = t.position := by omega
    obtain ⟨c, found, isLetter⟩ := letter (n - 1) ⟨by omega, by omega⟩
    rw [word.before _ c before found] at isLetter
    cases isLetter
  · by_contra longer
    have after : ((n + t.text.length : Nat) : Int) = t.position + t.text.length := by omega
    obtain ⟨c, found, isLetter⟩ := letter (n + t.text.length) ⟨by omega, by omega⟩
    rw [word.after _ c after found] at isLetter
    cases isLetter

theorem IsSymbol.at (symbol : t.IsSymbol) (cited : t.Cited chars) (i : Nat) (covers : t.Covers i) :
    ∃ c, chars[i]? = some c ∧ symbolKind? c = some t.kind := by
  obtain ⟨c, kind, text⟩ := symbol
  obtain ⟨d, member, found⟩ := cited.char i covers
  rw [text, String.toList_singleton, List.mem_singleton] at member
  rw [member] at found
  exact ⟨c, found, kind⟩

theorem IsSymbol.not_covers (symbol : t.IsSymbol) (cited : t.Cited chars) (citedToo : u.Cited chars)
    (letters : ∀ c ∈ u.text.toList, isKeywordChar c = true) (i : Nat) (covers : t.Covers i) :
    ¬ u.Covers i := by
  intro coversToo
  obtain ⟨c, found, kind⟩ := symbol.at cited i covers
  obtain ⟨d, member, foundToo⟩ := citedToo.char i coversToo
  rw [found] at foundToo
  cases foundToo
  have noLetter := (symbol_parted c _ kind).2.1
  rw [letters c member] at noLetter
  cases noLetter

theorem Lexeme.eq_of_covers (here : Lexeme chars t) (there : Lexeme chars u) (i : Nat)
    (covers : t.Covers i) (coversToo : u.Covers i) : t = u := by
  rcases here.whole with symbol | ⟨word, letters⟩
  · rcases there.whole with symbolToo | ⟨_, letters⟩
    · obtain ⟨c, found, kind⟩ := symbol.at here.cited i covers
      obtain ⟨d, foundToo, kindToo⟩ := symbolToo.at there.cited i coversToo
      rw [found] at foundToo
      cases foundToo
      rw [kind] at kindToo
      have length := symbol.length
      have lengthToo := symbolToo.length
      obtain ⟨low, high⟩ := covers
      obtain ⟨lowToo, highToo⟩ := coversToo
      exact here.cited.eq_of_place there.cited (Option.some.inj kindToo) (by omega) (by omega)
    · exact absurd coversToo (symbol.not_covers here.cited there.cited letters i covers)
  · rcases there.whole with symbol | ⟨wordToo, lettersToo⟩
    · exact absurd covers (symbol.not_covers there.cited here.cited letters i coversToo)
    · have within := word.bounds here.cited there.cited lettersToo i covers coversToo
      have withinToo := wordToo.bounds there.cited here.cited letters i coversToo covers
      exact here.cited.eq_of_place there.cited (word.kind.trans wordToo.kind.symm) (by omega)
        (by omega)

end Lexeme

namespace Partition

variable {chars : List Char} {tokens : List Token}

theorem eq_of_covers (partition : Partition chars tokens) (t u : Token) (member : t ∈ tokens)
    (memberToo : u ∈ tokens) (i : Nat) (covers : t.Covers i) (coversToo : u.Covers i) : t = u := by
  by_contra different
  have symmetric : Std.Symm fun t u : Token => ∀ i, ¬ (t.Covers i ∧ u.Covers i) :=
    ⟨fun _ _ apart i both => apart i both.symm⟩
  exact partition.disjoint.forall member memberToo different i ⟨covers, coversToo⟩

theorem lexeme (partition : Partition chars tokens) (t : Token) (member : t ∈ tokens) :
    Lexeme chars t := by
  refine ⟨partition.cited t member, (partition.other t member).imp_right ?_⟩
  intro word
  refine ⟨word, ?_⟩
  intro c inside
  obtain ⟨j, inside⟩ := List.mem_iff_getElem?.mp inside
  obtain ⟨n, position, same⟩ := (partition.cited t member).getElem?
  have found := same j c inside
  have bound : j < t.text.length := by
    rw [← String.length_toList]
    exact (List.getElem?_eq_some_iff.mp inside).1
  have covers : t.Covers (n + j) := ⟨by omega, by omega⟩
  have noSeparator := (partition.covered _ c found).mp ⟨t, member, covers⟩
  cases symbol : symbolKind? c with
  | none => simp [isKeywordChar, symbol, noSeparator]
  | some kind =>
      obtain ⟨u, alone, coversToo, sameKind, _⟩ := partition.symbol _ c kind found symbol
      have itself := partition.eq_of_covers u t alone member (n + j) coversToo covers
      have isName : kind = .keyword := by
        rw [← sameKind, itself]
        exact word.kind
      exact absurd isName (symbol_parted c kind symbol).2.2

theorem mem_iff (partition : Partition chars tokens) (t : Token) :
    t ∈ tokens ↔ Lexeme chars t := by
  constructor
  · exact partition.lexeme t
  · intro lexeme
    obtain ⟨n, position, _⟩ := lexeme.cited
    have filled := lexeme.filled
    have covers : t.Covers n := ⟨by omega, by omega⟩
    obtain ⟨c, inside, found⟩ := lexeme.cited.char n covers
    have covered : isSeparator c = false := by
      rcases lexeme.whole with symbol | ⟨_, letters⟩
      · obtain ⟨d, foundToo, kind⟩ := symbol.at lexeme.cited n covers
        rw [found] at foundToo
        cases foundToo
        exact (symbol_parted c _ kind).1
      · exact (letter_parted c (letters c inside)).1
    obtain ⟨u, member, coversToo⟩ := (partition.covered n c found).mpr covered
    rw [lexeme.eq_of_covers (partition.lexeme u member) n covers coversToo]
    exact member

/-- The lexemes of a text in their order are its only partition. -/
theorem unique {others : List Token} (partition : Partition chars tokens)
    (another : Partition chars others) : tokens = others := by
  have distinct (list : List Token) (ordered : list.Pairwise fun t u => t.position < u.position) :
      list.Nodup := by
    apply ordered.imp
    intro t u less same
    rw [same] at less
    exact lt_irrefl _ less
  have members : ∀ t, t ∈ tokens ↔ t ∈ others := by
    intro t
    rw [partition.mem_iff, another.mem_iff]
  have same : tokens.Perm others :=
    (List.perm_ext_iff_of_nodup (distinct _ partition.increasing)
      (distinct _ another.increasing)).mpr members
  apply same.eq_of_pairwise ?_ partition.increasing another.increasing
  intro t u _ _ less more
  exact absurd less (lt_asymm more)

theorem nil : Partition [] [] where
  increasing := .nil
  disjoint := .nil
  cited := by simp
  covered := by simp
  symbol := by simp
  other := by simp

theorem separator (c : Char) (plain : symbolKind? c = none) (separates : isSeparator c = true) :
    Partition [c] [] where
  increasing := .nil
  disjoint := .nil
  cited := by simp
  covered i d found := by
    obtain rfl := List.mem_singleton.mp (List.mem_of_getElem? found)
    simp [separates]
  symbol i d kind found symbol := by
    obtain rfl := List.mem_singleton.mp (List.mem_of_getElem? found)
    rw [plain] at symbol
    cases symbol
  other := by simp

theorem sign (c : Char) (kind : Kind) (symbol : symbolKind? c = some kind) :
    Partition [c] [⟨kind, String.singleton c, (0 : Nat)⟩] where
  increasing := List.pairwise_singleton _ _
  disjoint := List.pairwise_singleton _ _
  cited t member := by
    rw [List.mem_singleton.mp member]
    exact cited_of_split [] [c] [] kind (String.singleton c) (String.toList_singleton c)
  covered i d found := by
    obtain ⟨bound, same⟩ := List.getElem?_eq_some_iff.mp found
    obtain rfl : i = 0 := by simpa using bound
    cases same
    exact iff_of_true ⟨_, List.mem_singleton_self _, covers_symbol kind c 0⟩
      (symbol_parted c kind symbol).1
  symbol i d other found symbolToo := by
    obtain ⟨bound, same⟩ := List.getElem?_eq_some_iff.mp found
    obtain rfl : i = 0 := by simpa using bound
    cases same
    rw [List.getElem_cons_zero, symbol] at symbolToo
    cases symbolToo
    exact ⟨_, List.mem_singleton_self _, covers_symbol kind c 0, rfl, String.length_singleton⟩
  other t member := by
    rw [List.mem_singleton.mp member]
    exact .inl ⟨c, symbol, rfl⟩

theorem word (w : List Char) (filled : w ≠ []) (letters : ∀ c ∈ w, isKeywordChar c = true) :
    Partition w [⟨.keyword, String.ofList w, (0 : Nat)⟩] where
  increasing := List.pairwise_singleton _ _
  disjoint := List.pairwise_singleton _ _
  cited t member := by
    rw [List.mem_singleton.mp member]
    have split := cited_of_split [] w [] .keyword (String.ofList w) String.toList_ofList
    rwa [List.nil_append, List.append_nil] at split
  covered i c found := by
    have inside := (List.getElem?_eq_some_iff.mp found).1
    have covers : Covers ⟨.keyword, String.ofList w, (0 : Nat)⟩ i := by
      simp [Covers, inside]
    have letter := letters c (List.mem_of_getElem? found)
    exact iff_of_true ⟨_, List.mem_singleton_self _, covers⟩ (letter_parted c letter).1
  symbol i c kind found symbol := by
    have letter := letters c (List.mem_of_getElem? found)
    rw [(letter_parted c letter).2] at symbol
    cases symbol
  other t member := by
    rw [List.mem_singleton.mp member]
    refine .inr ⟨rfl, ?_, ?_, ?_⟩
    · rw [String.length_ofList]
      exact List.length_pos_iff.mpr filled
    · intro i c before
      simp only at before
      omega
    · intro i c after found
      have inside := (List.getElem?_eq_some_iff.mp found).1
      simp only [String.length_ofList] at after
      omega

end Partition

/-! Two texts side by side. -/

section Append

variable {first second : List Char} {t : Token}

theorem getElem?_append_cases {i : Nat} {c : Char} (found : (first ++ second)[i]? = some c) :
    first[i]? = some c ∨ ∃ j, i = first.length + j ∧ second[j]? = some c := by
  rw [List.getElem?_append] at found
  split at found
  · exact .inl found
  · refine .inr ⟨i - first.length, by omega, found⟩

theorem Lexeme.inside (lexeme : Lexeme first t) :
    ∃ n : Nat, t.position = n ∧ n + t.text.length ≤ first.length := by
  obtain ⟨n, position, _⟩ := lexeme.cited
  have filled := lexeme.filled
  have last : t.Covers (n + t.text.length - 1) := ⟨by omega, by omega⟩
  obtain ⟨c, _, found⟩ := lexeme.cited.char _ last
  have bound := (List.getElem?_eq_some_iff.mp found).1
  exact ⟨n, position, by omega⟩

theorem Lexeme.cited_append (lexeme : Lexeme first t) : t.Cited (first ++ second) := by
  obtain ⟨n, position, within⟩ := lexeme.inside
  obtain ⟨m, positionToo, same⟩ := lexeme.cited
  obtain rfl : m = n := by omega
  refine ⟨m, position, ?_⟩
  rw [List.drop_append_of_le_length (by omega), List.take_append_of_le_length, same]
  rw [List.length_drop]
  omega

theorem Cited.shift (cited : t.Cited second) : (t.shift first.length).Cited (first ++ second) := by
  obtain ⟨n, position, same⟩ := cited
  refine ⟨first.length + n, ?_, ?_⟩
  · simp only [Token.shift]
    omega
  · rw [List.drop_length_add_append]
    exact same

theorem covers_shift (width i : Nat) : (t.shift width).Covers (width + i) ↔ t.Covers i := by
  simp only [Covers, Token.shift]
  omega

theorem Lexeme.lt_length (lexeme : Lexeme first t) (i : Nat) (covers : t.Covers i) :
    i < first.length := by
  obtain ⟨n, position, within⟩ := lexeme.inside
  obtain ⟨low, high⟩ := covers
  omega

theorem Lexeme.exists_of_covers (lexeme : Lexeme second t) (width i : Nat)
    (covers : (t.shift width).Covers i) : ∃ j, i = width + j ∧ t.Covers j := by
  obtain ⟨n, position, _⟩ := lexeme.cited
  have low : width ≤ i := by
    have start := covers.1
    simp only [Token.shift] at start
    omega
  obtain ⟨j, rfl⟩ := Nat.exists_eq_add_of_le low
  exact ⟨j, rfl, (covers_shift width j).mp covers⟩

/-- Only a word that reaches the end of the first text could be made longer by the second one. -/
theorem Lexeme.other_append (lexeme : Lexeme first t)
    (apart : EndsWord first.reverse ∨ EndsWord second) :
    t.IsSymbol ∨ t.IsWord (first ++ second) := by
  refine lexeme.whole.imp_right ?_
  intro ⟨word, letters⟩
  obtain ⟨n, position, within⟩ := lexeme.inside
  refine ⟨word.kind, word.filled, ?_, ?_⟩
  · intro i c before found
    rcases getElem?_append_cases found with inFirst | ⟨j, rfl, _⟩
    · exact word.before i c before inFirst
    · omega
  · intro i c after found
    rcases getElem?_append_cases found with inFirst | ⟨j, rfl, inSecond⟩
    · exact word.after i c after inFirst
    · obtain rfl : j = 0 := by omega
      rcases apart with ends | ends
      · have filled := word.filled
        have last : t.Covers (first.length - 1) := ⟨by omega, by omega⟩
        obtain ⟨d, inside, foundToo⟩ := lexeme.cited.char _ last
        have noLetter := (endsWord_reverse_iff first).mp ends _ d (by omega) foundToo
        rw [letters d inside] at noLetter
        cases noLetter
      · exact (endsWord_iff second).mp ends c inSecond

theorem Lexeme.other_shift (lexeme : Lexeme second t)
    (apart : EndsWord first.reverse ∨ EndsWord second) :
    (t.shift first.length).IsSymbol ∨ (t.shift first.length).IsWord (first ++ second) := by
  refine lexeme.whole.imp_right ?_
  intro ⟨word, letters⟩
  obtain ⟨n, position, within⟩ := lexeme.inside
  refine ⟨word.kind, word.filled, ?_, ?_⟩
  · intro i c before found
    simp only [Token.shift] at before
    rcases getElem?_append_cases found with inFirst | ⟨j, rfl, inSecond⟩
    · have bound := (List.getElem?_eq_some_iff.mp inFirst).1
      rcases apart with ends | ends
      · exact (endsWord_reverse_iff first).mp ends i c (by omega) inFirst
      · have filled := word.filled
        have start : t.Covers 0 := ⟨by omega, by omega⟩
        obtain ⟨d, inside, foundToo⟩ := lexeme.cited.char 0 start
        have noLetter := (endsWord_iff second).mp ends d foundToo
        rw [letters d inside] at noLetter
        cases noLetter
    · exact word.before j c (by omega) inSecond
  · intro i c after found
    simp only [Token.shift] at after
    rcases getElem?_append_cases found with inFirst | ⟨j, rfl, inSecond⟩
    · have bound := (List.getElem?_eq_some_iff.mp inFirst).1
      omega
    · exact word.after j c (by omega) inSecond

section Covered

variable {tokens others : List Token}

/-- What covers a place of the first text is not one of the tokens that were moved. -/
theorem Partition.exists_covers_first (later : Partition second others) {i : Nat}
    (inFirst : i < first.length) :
    (∃ t ∈ tokens ++ others.map (shift first.length), t.Covers i) ↔ ∃ t ∈ tokens, t.Covers i := by
  constructor
  · intro ⟨t, member, covers⟩
    rcases List.mem_append.mp member with member | member
    · exact ⟨t, member, covers⟩
    · obtain ⟨v, inOthers, rfl⟩ := List.mem_map.mp member
      obtain ⟨j, rfl, _⟩ := (later.lexeme v inOthers).exists_of_covers _ i covers
      omega
  · intro ⟨t, member, covers⟩
    exact ⟨t, List.mem_append_left _ member, covers⟩

theorem Partition.exists_covers_second (here : Partition first tokens) (j : Nat) :
    (∃ t ∈ tokens ++ others.map (shift first.length), t.Covers (first.length + j)) ↔
      ∃ t ∈ others, t.Covers j := by
  constructor
  · intro ⟨t, member, covers⟩
    rcases List.mem_append.mp member with member | member
    · have bound := (here.lexeme t member).lt_length _ covers
      omega
    · obtain ⟨v, inOthers, rfl⟩ := List.mem_map.mp member
      exact ⟨v, inOthers, (covers_shift _ j).mp covers⟩
  · intro ⟨t, member, covers⟩
    have moved := List.mem_map_of_mem (f := shift first.length) member
    exact ⟨_, List.mem_append_right _ moved, (covers_shift _ j).mpr covers⟩

end Covered

theorem Partition.append {tokens others : List Token} (here : Partition first tokens)
    (later : Partition second others) (apart : EndsWord first.reverse ∨ EndsWord second) :
    Partition (first ++ second) (tokens ++ others.map (shift first.length)) where
  increasing := by
    rw [List.pairwise_append, List.pairwise_map]
    refine ⟨here.increasing, ?_, ?_⟩
    · apply later.increasing.imp
      intro t u less
      simp only [shift]
      omega
    · intro t member u memberToo
      obtain ⟨v, inOthers, rfl⟩ := List.mem_map.mp memberToo
      obtain ⟨n, position, within⟩ := (here.lexeme t member).inside
      obtain ⟨m, positionToo, _⟩ := later.cited v inOthers
      have filled := (here.lexeme t member).filled
      simp only [shift]
      omega
  disjoint := by
    rw [List.pairwise_append, List.pairwise_map]
    refine ⟨here.disjoint, ?_, ?_⟩
    · apply later.disjoint.imp_of_mem
      intro t u member _ disjoint i both
      obtain ⟨j, rfl, covers⟩ := (later.lexeme t member).exists_of_covers _ i both.1
      exact disjoint j ⟨covers, (covers_shift _ j).mp both.2⟩
    · intro t member u memberToo i both
      obtain ⟨v, inOthers, rfl⟩ := List.mem_map.mp memberToo
      have bound := (here.lexeme t member).lt_length i both.1
      obtain ⟨j, rfl, _⟩ := (later.lexeme v inOthers).exists_of_covers _ i both.2
      omega
  cited t member := by
    rcases List.mem_append.mp member with member | member
    · exact (here.lexeme t member).cited_append
    · obtain ⟨v, inOthers, rfl⟩ := List.mem_map.mp member
      exact (later.cited v inOthers).shift
  covered i c found := by
    rcases getElem?_append_cases found with inFirst | ⟨j, rfl, inSecond⟩
    · have bound := (List.getElem?_eq_some_iff.mp inFirst).1
      rw [later.exists_covers_first bound]
      exact here.covered i c inFirst
    · rw [here.exists_covers_second j]
      exact later.covered j c inSecond
  symbol i c kind found symbol := by
    rcases getElem?_append_cases found with inFirst | ⟨j, rfl, inSecond⟩
    · obtain ⟨t, member, alone⟩ := here.symbol i c kind inFirst symbol
      exact ⟨t, List.mem_append_left _ member, alone⟩
    · obtain ⟨t, member, covers, alone⟩ := later.symbol j c kind inSecond symbol
      have moved : t.shift first.length ∈ others.map (shift first.length) :=
        List.mem_map_of_mem member
      exact ⟨_, List.mem_append_right _ moved, (covers_shift _ j).mpr covers, alone⟩
  other t member := by
    rcases List.mem_append.mp member with member | member
    · exact (here.lexeme t member).other_append apart
    · obtain ⟨v, inOthers, rfl⟩ := List.mem_map.mp member
      exact (later.lexeme v inOthers).other_shift apart

end Append

/-! The scan goes on with the partition of what it has read. -/

section Scan

theorem partition_flush (before word : List Char) (found : List Token)
    (read : Partition before found.reverse) (parted : EndsWord before.reverse)
    (letters : ∀ c ∈ word, isKeywordChar c = true) :
    Partition (before ++ word.reverse)
      (flush (before.length + word.length) word found).reverse := by
  by_cases begun : word = []
  · subst begun
    rw [flush_nil, List.reverse_nil, List.append_nil]
    exact read
  · have filled : word.reverse ≠ [] := by simpa using begun
    have lettersToo : ∀ c ∈ word.reverse, isKeywordChar c = true := by simpa using letters
    have joined := read.append (.word word.reverse filled lettersToo) (.inl parted)
    have place : (before.length + word.length - word.length : Nat) = before.length := by omega
    rw [flush, if_neg (by simpa using begun), List.reverse_cons, place]
    simpa [shift] using joined

theorem partition_scan (before word rest : List Char) (found : List Token)
    (read : Partition before found.reverse) (parted : EndsWord before.reverse)
    (letters : ∀ c ∈ word, isKeywordChar c = true) :
    Partition (before ++ word.reverse ++ rest)
      (scan (before.length + word.length) word found rest) := by
  induction rest generalizing before word found with
  | nil =>
      rw [List.append_nil, scan]
      exact partition_flush before word found read parted letters
  | cons c rest ih =>
      have flushed := partition_flush before word found read parted letters
      have width : (before ++ word.reverse).length = before.length + word.length := by simp
      have split : before ++ word.reverse ++ c :: rest =
          (before ++ word.reverse ++ [c]) ++ ([] : List Char).reverse ++ rest := by simp
      have place : before.length + word.length + 1 =
          (before ++ word.reverse ++ [c]).length + ([] : List Char).length := by
        rw [List.length_append, width]
        rfl
      -- Neither a symbol nor a separator leaves a word under way.
      have ends (noLetter : isKeywordChar c = false) :
          EndsWord (before ++ word.reverse ++ [c]).reverse := by
        rw [List.reverse_concat]
        exact noLetter
      cases symbol : symbolKind? c with
      | some kind =>
          have noLetter := (symbol_parted c kind symbol).2.1
          have longer := flushed.append (.sign c kind symbol) (.inr noLetter)
          rw [scan_symbol _ _ _ _ c kind symbol, split, place]
          apply ih _ _ _ _ (ends noLetter) (by simp)
          rw [List.reverse_cons]
          simpa [shift, width] using longer
      | none =>
          by_cases separator : isSeparator c = true
          · have noLetter : isKeywordChar c = false := by simp [isKeywordChar, separator]
            have longer := flushed.append (.separator c symbol separator) (.inr noLetter)
            rw [scan_separator _ _ _ _ c symbol separator, split, place]
            apply ih _ _ _ _ (ends noLetter) (by simp)
            simpa using longer
          · have letter : isKeywordChar c = true := by simp [isKeywordChar, symbol, separator]
            have more := ih before (c :: word) found read parted
              (List.forall_mem_cons.mpr ⟨letter, letters⟩)
            rw [scan_letter _ _ _ _ c letter]
            simpa [Nat.add_assoc] using more

end Scan

theorem partition_tokenize (e : String) : Partition e.toList (tokenize e) :=
  partition_scan [] [] e.toList [] .nil trivial (by simp)

/-- The tokens of a text are the only partition of it into symbols and words. Those of two texts
that do not meet inside of a word follow each other. -/
theorem tokenize_partition :
    (∀ (e : String) (tokens : List Token), tokens = tokenize e ↔ Partition e.toList tokens) ∧
    ∀ e f : String, EndsWord e.toList.reverse ∨ EndsWord f.toList →
      tokenize (e ++ f) = tokenize e ++ (tokenize f).map (shift e.length) := by
  constructor
  · intro e tokens
    constructor
    · intro same
      rw [same]
      exact partition_tokenize e
    · intro partition
      exact partition.unique (partition_tokenize e)
  · intro e f apart
    have joined := (partition_tokenize e).append (partition_tokenize f) apart
    rw [← String.toList_append, String.length_toList] at joined
    exact (partition_tokenize (e ++ f)).unique joined

/-- A tab belongs to a keyword, and `_` may begin one. -/
theorem tokenize_partition_glued :
    (EndsWord "A\t+".toList.reverse ∨ EndsWord "_B! (".toList) ∧
    tokenize ("A\t+" ++ "_B! (") = [⟨.keyword, "A\t", 0⟩, ⟨.join .and, "+", 2⟩,
      ⟨.keyword, "_B", 3⟩, ⟨.not, "!", 5⟩, ⟨.opening, "(", 7⟩] ∧
    Partition "A\t+".toList [⟨.keyword, "A\t", 0⟩, ⟨.join .and, "+", 2⟩] := by
  have first : tokenize "A\t+" = [⟨.keyword, "A\t", 0⟩, ⟨.join .and, "+", 2⟩] := by
    decide +kernel
  have second : tokenize "_B! (" =
      [⟨.keyword, "_B", 0⟩, ⟨.not, "!", 2⟩, ⟨.opening, "(", 4⟩] := by decide +kernel
  have chars : "A\t+".toList = ['A', '\t', '+'] := by decide +kernel
  have apart : EndsWord "A\t+".toList.reverse ∨ EndsWord "_B! (".toList := by
    rw [chars]
    exact .inl (show isKeywordChar '+' = false by decide)
  refine ⟨apart, ?_, ?_⟩
  · rw [tokenize_partition.2 _ _ apart, first, second]
    rfl
  · exact (tokenize_partition.1 _ _).mp first.symm

end InputChords.Token
