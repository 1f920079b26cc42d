import Mathlib.Data.List.TakeWhile
import InputChords.Json.Read
import InputChords.Proofs.JsonText

/-! The text of a JSON value is read back as the value. Each piece of a text is read on its own,
whatever follows it; only a scalar needs something behind it that ends it. -/

namespace InputChords

namespace Text

theorem hex_one {n : Nat} (small : n < 16) : hex 1 n = [Nat.digitChar n] := by
  simp [hex, Nat.toDigits_of_lt_base small]

theorem hex_succ {width : Nat} (wide : 0 < width) (n : Nat) :
    hex (width + 1) n = hex width (n / 16) ++ [Nat.digitChar (n % 16)] := by
  by_cases small : n < 16
  · obtain ⟨width, rfl⟩ := Nat.exists_eq_add_one_of_ne_zero (Nat.ne_of_gt wide)
    rw [Nat.div_eq_of_lt small, Nat.mod_eq_of_lt small]
    simp [hex, Nat.toDigits_of_lt_base small, List.replicate_succ']
  · have digits : Nat.toDigits 16 n = Nat.toDigits 16 (n / 16) ++ [Nat.digitChar (n % 16)] := by
      rw [Nat.toDigits_eq_if (by decide), if_neg small]
    simp only [hex, digits, List.length_append, List.length_singleton, Nat.add_sub_add_right,
      List.append_assoc]

theorem hex_four {unit : Nat} (small : unit < 0x10000) :
    hex 4 unit = [Nat.digitChar (unit / 4096), Nat.digitChar (unit / 256 % 16),
      Nat.digitChar (unit / 16 % 16), Nat.digitChar (unit % 16)] := by
  have top : unit / 16 / 16 / 16 < 16 := by omega
  rw [hex_succ (by decide), hex_succ (by decide), hex_succ (by decide), hex_one top]
  simp only [Nat.div_div_eq_div_mul, List.cons_append, List.nil_append]

end Text

namespace Json

theorem hexDigit?_digitChar {d : Nat} (small : d < 16) : hexDigit? (Nat.digitChar d) = some d := by
  have each : ∀ d < 16, hexDigit? (Nat.digitChar d) = some d := by decide
  exact each d small

theorem tokensFrom_cons {mode next : Mode} {c : Char} {tokens : List Token}
    (step : mode.step c = some (tokens, next)) (rest : List Char) :
    tokensFrom mode (c :: rest) = (tokensFrom next rest).map (tokens ++ ·) := by
  rw [tokensFrom, step]
  show (tokensFrom next rest).bind _ = _
  cases tokensFrom next rest <;> rfl

theorem map_append_append (first second : List Token) (later : Option (List Token)) :
    (later.map (second ++ ·)).map (first ++ ·) = later.map (first ++ second ++ ·) := by
  cases later <;> simp

/-- The characters `cs` give `tokens` on the way from one mode to another, whatever follows. -/
def Mode.Reads (mode : Mode) (cs : List Char) (tokens : List Token) (next : Mode) : Prop :=
  ∀ rest, tokensFrom mode (cs ++ rest) = (tokensFrom next rest).map (tokens ++ ·)

namespace Mode.Reads

variable {mode middle next : Mode} {cs ds : List Char} {first second : List Token}

theorem nil : mode.Reads [] [] mode := by
  intro rest
  simp

theorem append (left : mode.Reads cs first middle) (right : middle.Reads ds second next) :
    mode.Reads (cs ++ ds) (first ++ second) next := by
  intro rest
  rw [List.append_assoc, left, right, map_append_append]

theorem cons {c : Char} (step : mode.step c = some (first, middle))
    (right : middle.Reads ds second next) : mode.Reads (c :: ds) (first ++ second) next := by
  intro rest
  rw [List.cons_append, tokensFrom_cons step, right, map_append_append]

theorem single {c : Char} (step : mode.step c = some (first, next)) :
    mode.Reads [c] first next := by
  have read := cons step nil
  rwa [List.append_nil] at read

end Mode.Reads

/-! ## Texts -/

section Texts

variable (read : List Char)

theorem step_digit (first : Option Nat) {left d : Nat} (more : left ≠ 1) (value : Nat)
    (small : d < 16) :
    (Mode.text read (.unit first left value)).step (Nat.digitChar d) =
      some ([], .text read (.unit first (left - 1) (16 * value + d))) := by
  simp [Mode.step, Spot.step, hexDigit?_digitChar small, more]

theorem step_lastDigit (first : Option Nat) {d : Nat} (value : Nat) (small : d < 16) :
    (Mode.text read (.unit first 1 value)).step (Nat.digitChar d) =
      (Mode.unit read first (16 * value + d)).map fun next => ([], next) := by
  simp [Mode.step, Spot.step, hexDigit?_digitChar small]

theorem reads_hex (first : Option Nat) {unit : Nat} (small : unit < 0x10000) {next : Mode}
    (meant : Mode.unit read first unit = some next) :
    (Mode.text read (.unit first 4 0)).Reads (Text.hex 4 unit) [] next := by
  have value : 16 * (16 * (16 * (16 * 0 + unit / 4096) + unit / 256 % 16) + unit / 16 % 16) +
      unit % 16 = unit := by omega
  have last := step_lastDigit read first
    (16 * (16 * (16 * 0 + unit / 4096) + unit / 256 % 16) + unit / 16 % 16)
    (Nat.mod_lt unit (by decide))
  rw [value, meant] at last
  rw [Text.hex_four small]
  apply Mode.Reads.cons (step_digit read first (by decide) 0 (by omega))
  apply Mode.Reads.cons (step_digit read first (by decide) _ (by omega))
  apply Mode.Reads.cons (step_digit read first (by decide) _ (by omega))
  exact Mode.Reads.single last

theorem reads_escapeUnit {unit : Nat} (small : unit < 0x10000) {next : Mode}
    (meant : Mode.unit read none unit = some next) :
    (Mode.text read .plain).Reads (escapeUnit unit) [] next := by
  have backslash : (Mode.text read .plain).step '\\' = some ([], .text read .backslash) := rfl
  have letter : (Mode.text read .backslash).step 'u' = some ([], .text read (.unit none 4 0)) := rfl
  exact .cons backslash (.cons letter (reads_hex read none small meant))

theorem reads_lowUnit {high unit : Nat} (small : unit < 0x10000) {next : Mode}
    (meant : Mode.unit read (some high) unit = some next) :
    (Mode.text read (.high high)).Reads (escapeUnit unit) [] next := by
  have backslash : (Mode.text read (.high high)).step '\\' =
      some ([], .text read (.highBackslash high)) := rfl
  have letter : (Mode.text read (.highBackslash high)).step 'u' =
      some ([], .text read (.unit (some high) 4 0)) := rfl
  exact .cons backslash (.cons letter (reads_hex read (some high) small meant))

theorem not_half (c : Char) : isHigh c.toNat = false ∧ isLow c.toNat = false := by
  have valid : c.toNat < 0xd800 ∨ 0xdfff < c.toNat ∧ c.toNat < 0x110000 := c.valid
  simp only [isHigh, isLow, Bool.and_eq_false_iff, decide_eq_false_iff_not]
  omega

theorem reads_escapeCode (c : Char) :
    (Mode.text read .plain).Reads (escapeCode c.toNat) [] (.text (c :: read) .plain) := by
  have valid : c.toNat < 0xd800 ∨ 0xdfff < c.toNat ∧ c.toNat < 0x110000 := c.valid
  unfold escapeCode
  split
  · rename_i small
    apply reads_escapeUnit read small
    rw [Mode.unit, (not_half c).1, (not_half c).2, Char.ofNat_toNat]
    rfl
  · rename_i large
    generalize high : 0xd800 + (c.toNat - 0x10000) / 0x400 = first
    generalize low : 0xdc00 + (c.toNat - 0x10000) % 0x400 = second
    have isFirst : isHigh first = true := by
      simp only [isHigh, Bool.and_eq_true, decide_eq_true_eq]
      omega
    have isSecond : isLow second = true := by
      simp only [isLow, Bool.and_eq_true, decide_eq_true_eq]
      omega
    have whole : paired first second = c.toNat := by
      unfold paired
      omega
    apply Mode.Reads.append (reads_escapeUnit read (by omega) (by rw [Mode.unit, isFirst]; rfl))
    apply reads_lowUnit read (by omega)
    rw [Mode.unit, isSecond, whole, Char.ofNat_toNat]
    rfl

theorem reads_escaped {letter c : Char} (meant : escaped? letter = some c) :
    (Mode.text read .plain).Reads ['\\', letter] [] (.text (c :: read) .plain) := by
  have backslash : (Mode.text read .plain).step '\\' = some ([], .text read .backslash) := rfl
  have other : letter ≠ 'u' := by
    intro same
    rw [same] at meant
    cases meant
  apply Mode.Reads.cons backslash
  apply Mode.Reads.single
  rw [Mode.step, Spot.step, if_neg other, meant]
  · rfl
  · nofun

theorem reads_plain {c : Char} (mark : c ≠ '\x22') (backslash : c ≠ '\\') (printed : 32 ≤ c.toNat) :
    (Mode.text read .plain).Reads [c] [] (.text (c :: read) .plain) := by
  apply Mode.Reads.single
  rw [Mode.step, if_neg mark, Spot.step, if_neg backslash, if_neg (Nat.not_lt.mpr printed)]
  rfl

theorem reads_escapeChar (c : Char) :
    (Mode.text read .plain).Reads (escapeChar c) [] (.text (c :: read) .plain) := by
  have letter {letter meant : Char} (same : c = meant) (escape : escaped? letter = some meant) :
      (Mode.text read .plain).Reads ['\\', letter] [] (.text (c :: read) .plain) := by
    rw [same]
    exact reads_escaped read escape
  have ofCode {code : Nat} (same : c.toNat = code) : c = Char.ofNat code := by
    rw [← same, Char.ofNat_toNat]
  unfold escapeChar
  split_ifs with mark backslash line back tab backspace feed printed
  · exact letter mark rfl
  · exact letter backslash rfl
  · exact letter line rfl
  · exact letter back rfl
  · exact letter tab rfl
  · exact letter (ofCode backspace) rfl
  · exact letter (ofCode feed) rfl
  · rw [Bool.and_eq_true, decide_eq_true_eq] at printed
    exact reads_plain read mark backslash printed.1
  · exact reads_escapeCode read c

theorem reads_escapeChars (cs : List Char) :
    (Mode.text read .plain).Reads (cs.flatMap escapeChar) []
      (.text (cs.reverse ++ read) .plain) := by
  induction cs generalizing read with
  | nil => exact .nil
  | cons c rest ih =>
      rw [List.flatMap_cons, List.reverse_cons, List.append_assoc]
      exact (reads_escapeChar read c).append (ih (c :: read))

end Texts

theorem reads_quote (s : String) : Mode.between.Reads (quote s).toList [.text s] .between := by
  have opening : Mode.between.step '\x22' = some ([], .text [] .plain) := rfl
  have closing : (Mode.text s.toList.reverse .plain).step '\x22' =
      some ([.text s], .between) := by
    rw [Mode.step, if_pos rfl, List.reverse_reverse, String.ofList_toList]
  have chars := reads_escapeChars [] s.toList
  rw [List.append_nil] at chars
  rw [quote, String.toList_ofList]
  exact .cons opening (chars.append (.single closing))

/-! ## Scalars -/

theorem eq_zero_of_head {n : Nat} (zero : (Nat.toDigits 10 n).head? = some '0') : n = 0 := by
  induction n using Nat.strongRecOn with
  | ind n ih =>
      rw [Nat.toDigits_eq_if (by decide)] at zero
      split at zero
      · rename_i small
        have each : ∀ d < 10, [Nat.digitChar d].head? = some '0' → d = 0 := by decide
        exact each n small zero
      · rename_i large
        have filled : Nat.toDigits 10 (n / 10) ≠ [] := Nat.toDigits_ne_nil
        rw [List.head?_append_of_ne_nil _ filled] at zero
        have none := ih (n / 10) (by omega) zero
        omega

theorem unsigned?_toDigits (negative : Bool) (n : Nat) :
    unsigned? negative (Nat.toDigits 10 n) =
      (Decimal.Whole.of? (if negative then -n else n)).map .whole := by
  have digits : ∀ c ∈ Nat.toDigits 10 n, c.isDigit = true :=
    fun c member => Nat.isDigit_of_mem_toDigits (by decide) (by decide) member
  have taken : (Nat.toDigits 10 n).takeWhile (·.isDigit) = Nat.toDigits 10 n :=
    List.takeWhile_eq_self_iff.mpr digits
  have dropped : (Nat.toDigits 10 n).dropWhile (·.isDigit) = [] :=
    List.dropWhile_eq_nil_iff.mpr digits
  have leading : ((Nat.toDigits 10 n).isEmpty ||
      (decide ((Nat.toDigits 10 n).head? = some '0') && Nat.toDigits 10 n != ['0'])) = false := by
    rw [Bool.or_eq_false_iff, Bool.and_eq_false_imp]
    refine ⟨by simp [Nat.toDigits_ne_nil], fun zero => ?_⟩
    rw [eq_zero_of_head (of_decide_eq_true zero)]
    rfl
  have value : Nat.ofDigitChars 10 (Nat.toDigits 10 n) 0 = n :=
    Nat.ofDigitChars_toDigits (by decide) (by decide)
  rw [unsigned?, taken, dropped, leading, value]
  rfl

def inNumeral (c : Char) : Bool := c.isDigit || c = '-'

def breaks : List Char := [' ', '\t', '\n', '\r', '\x22', '[', ']', '\x7b', '\x7d', ',', ':']

theorem mem_breaks {c : Char} (ends : isBreak c = true) : c ∈ breaks := by
  by_contra other
  simp only [breaks, List.mem_cons, List.not_mem_nil, or_false, not_or] at other
  simp [isBreak, isSpace, Token.ofMark?, other] at ends

theorem unbroken_of_numeral {cs : List Char} (numeral : cs.all inNumeral = true) :
    cs.any isBreak = false := by
  have apart : breaks.all (fun c => !inNumeral c) = true := by decide
  rw [List.any_eq_false]
  intro c member ends
  have here := List.all_eq_true.mp apart c (mem_breaks ends)
  rw [List.all_eq_true.mp numeral c member] at here
  cases here

theorem numeral_toDigits (n : Nat) : (Nat.toDigits 10 n).all inNumeral = true := by
  apply List.all_eq_true.mpr
  intro c member
  rw [inNumeral, Nat.isDigit_of_mem_toDigits (by decide) (by decide) member, Bool.true_or]

theorem numeral_cases (n : Int) : ∃ c rest, (toString n).toList = c :: rest ∧
    (c :: rest).all inNumeral = true ∧
      number? (c :: rest) = (Decimal.Whole.of? n).map .whole := by
  cases n with
  | ofNat n =>
      have numeral := numeral_toDigits n
      have value := unsigned?_toDigits false n
      have written : (toString (Int.ofNat n)).toList = Nat.toDigits 10 n := by
        show (toString n).toList = _
        rw [Nat.toString_eq_ofList_toDigits, String.toList_ofList]
      cases spelt : Nat.toDigits 10 n with
      | nil => exact absurd spelt Nat.toDigits_ne_nil
      | cons c rest =>
          have digit : c.isDigit = true := by
            apply Nat.isDigit_of_mem_toDigits (b := 10) (n := n) (by decide) (by decide)
            rw [spelt]
            exact List.mem_cons_self
          have noSign : c ≠ '-' := by
            rintro rfl
            cases digit
          rw [spelt] at numeral value
          refine ⟨c, rest, written.trans spelt, numeral, ?_⟩
          rw [number?, value]
          · rfl
          · exact fun more same => noSign (List.cons.inj same).1
  | negSucc n =>
      refine ⟨'-', Nat.toDigits 10 (n + 1), ?_, ?_, unsigned?_toDigits true (n + 1)⟩
      · show ("-" ++ toString (n + 1)).toList = _
        rw [String.toList_append, Nat.toString_eq_ofList_toDigits, String.toList_ofList,
          String.toList_ofList]
        rfl
      · rw [List.all_cons, numeral_toDigits]
        rfl

theorem scalar?_number {c : Char} {rest : List Char} (numeral : inNumeral c = true) :
    scalar? (c :: rest) = number? (c :: rest) := by
  have other {d : Char} (letter : inNumeral d = false) (more : List Char) :
      c :: rest ≠ d :: more := by
    intro same
    rw [← (List.cons.inj same).1, numeral] at letter
    cases letter
  rw [scalar?, if_neg (other rfl _), if_neg (other rfl _), if_neg (other rfl _)]

def Ends : List Char → Prop
  | [] => True
  | c :: _ => isBreak c = true

theorem tokensFrom_scalar {read cs rest : List Char} {value : Json}
    (inside : cs.any isBreak = false) (meant : scalar? (read.reverse ++ cs) = some value)
    (ends : Ends rest) :
    tokensFrom (.scalar read) (cs ++ rest) =
      (tokensFrom .between rest).map ([.scalar value] ++ ·) := by
  induction cs generalizing read with
  | nil =>
      rw [List.append_nil] at meant
      cases rest with
      | nil =>
          rw [List.nil_append, tokensFrom, Mode.finish, meant]
          rfl
      | cons c rest =>
          -- the character that ends the scalar may begin a token itself
          have here : isBreak c = true := ends
          have step : (Mode.scalar read).step c =
              some ([.scalar value] ++ (Mode.start c).1, (Mode.start c).2) := by
            rw [Mode.step, if_pos here, meant]
            rfl
          have begins : Mode.between.step c = some ((Mode.start c).1, (Mode.start c).2) := rfl
          rw [List.nil_append, tokensFrom_cons step, tokensFrom_cons begins, map_append_append]
  | cons c cs ih =>
      rw [List.any_cons, Bool.or_eq_false_iff] at inside
      have step : (Mode.scalar read).step c = some ([], .scalar (c :: read)) := by
        rw [Mode.step, if_neg (by simp [inside.1])]
      rw [List.cons_append, tokensFrom_cons step,
        ih inside.2 (by rwa [List.reverse_cons, List.append_assoc]), map_append_append]
      rfl

/-! ## Tokens -/

/-- The characters `cs` give `tokens` if something follows them that may stand behind a scalar. -/
def Lexes (cs : List Char) (tokens : List Token) : Prop :=
  ∀ rest, Ends rest →
    tokensFrom .between (cs ++ rest) = (tokensFrom .between rest).map (tokens ++ ·)

theorem lexes_scalar {c : Char} {cs : List Char} {value : Json}
    (inside : (c :: cs).any isBreak = false) (meant : scalar? (c :: cs) = some value) :
    Lexes (c :: cs) [.scalar value] := by
  intro rest ends
  rw [List.any_cons, Bool.or_eq_false_iff] at inside
  have begins : Mode.between.step c = some ([], .scalar [c]) := by
    have here := inside.1
    simp only [isBreak, Bool.or_eq_false_iff, decide_eq_false_iff_not, Option.isSome_eq_false_iff,
      Option.isNone_iff_eq_none] at here
    simp [Mode.step, Mode.start, here]
  rw [List.cons_append, tokensFrom_cons begins,
    tokensFrom_scalar inside.2 (by exact meant) ends, map_append_append]
  rfl

theorem Mode.Reads.lexes {cs : List Char} {tokens : List Token}
    (reads : Mode.between.Reads cs tokens .between) : Lexes cs tokens :=
  fun rest _ => reads rest

theorem Lexes.append {cs ds : List Char} {c : Char} {first second : List Token}
    (left : Lexes cs first) (ends : isBreak c = true) (right : Lexes (c :: ds) second) :
    Lexes (cs ++ c :: ds) (first ++ second) := by
  intro rest behind
  have here : Ends (c :: ds ++ rest) := ends
  rw [List.append_assoc, left _ here, right rest behind, map_append_append]

theorem Mode.Reads.before {cs ds : List Char} {first second : List Token}
    (left : Mode.between.Reads cs first .between) (right : Lexes ds second) :
    Lexes (cs ++ ds) (first ++ second) := by
  intro rest behind
  rw [List.append_assoc, left, right rest behind, map_append_append]

theorem lexes_whole (n : Decimal.Whole) : Lexes n.text.toList [.scalar (.whole n)] := by
  obtain ⟨c, rest, written, numeral, value⟩ := numeral_cases n.value
  rw [(Decimal.Whole.of?_eq_some_iff n.value n).mpr rfl] at value
  rw [Decimal.Whole.text, written]
  apply lexes_scalar (unbroken_of_numeral numeral)
  rw [List.all_cons, Bool.and_eq_true] at numeral
  rw [scalar?_number numeral.1, value]
  rfl

def separate : List (List Token) → List Token
  | [] => []
  | [last] => last
  | first :: second :: rest => first ++ .comma :: separate (second :: rest)

mutual

def tokens : Json → List Token
  | text s => [.text s]
  | list items => .openList :: (separate (tokensList items) ++ [.closeList])
  | object fields => .openObject :: (separate (tokensFields fields) ++ [.closeObject])
  | v => [.scalar v]

def tokensList : List Json → List (List Token)
  | [] => []
  | item :: rest => item.tokens :: tokensList rest

def tokensFields : List (String × Json) → List (List Token)
  | [] => []
  | (name, item) :: rest => (.text name :: .colon :: item.tokens) :: tokensFields rest

end

mutual

/-- Without reals, and without two fields of one name in an object. -/
def Plain : Json → Prop
  | real _ => False
  | list items => PlainList items
  | object fields => (Named.names fields).Nodup ∧ PlainFields fields
  | _ => True

def PlainList : List Json → Prop
  | [] => True
  | item :: rest => item.Plain ∧ PlainList rest

def PlainFields : List (String × Json) → Prop
  | [] => True
  | (_, item) :: rest => item.Plain ∧ PlainFields rest

end

theorem reads_comma : Mode.between.Reads [',', ' '] [.comma] .between :=
  .cons (rfl : Mode.between.step ',' = some ([.comma], .between)) (.single rfl)

theorem Lexes.comma {first rest : String} {tokens later : List Token}
    (left : Lexes first.toList tokens) (right : Lexes rest.toList later) :
    Lexes (first ++ ", " ++ rest).toList (tokens ++ .comma :: later) := by
  rw [String.append_assoc, String.toList_append, String.toList_append]
  exact left.append rfl (reads_comma.before right)

theorem Lexes.enclosed {inside opening closing : String} {open' close : Char} {first last : Token}
    {tokens : List Token} (inner : Lexes inside.toList tokens) (opens : opening.toList = [open'])
    (closes : closing.toList = [close])
    (begins : Mode.between.step open' = some ([first], .between))
    (ends : Mode.between.step close = some ([last], .between)) (apart : isBreak close = true) :
    Lexes (opening ++ inside ++ closing).toList (first :: (tokens ++ [last])) := by
  rw [String.append_assoc, String.toList_append, String.toList_append, opens, closes]
  exact (Mode.Reads.single begins).before (inner.append apart (Mode.Reads.single ends).lexes)

theorem Lexes.field {item : String} {tokens : List Token} (name : String)
    (value : Lexes item.toList tokens) :
    Lexes (quote name ++ ": " ++ item).toList (.text name :: .colon :: tokens) := by
  have colon : Mode.between.Reads [':', ' '] [.colon] .between :=
    .cons (rfl : Mode.between.step ':' = some ([.colon], .between)) (.single rfl)
  rw [String.append_assoc, String.toList_append, String.toList_append]
  exact (reads_quote name).before (colon.before value)

theorem lexes_nil : Lexes [] [] := Mode.Reads.nil.lexes

mutual

theorem lexes_render (j : Json) (plain : j.Plain) : Lexes j.render.toList j.tokens := by
  match j with
  | null => exact lexes_scalar rfl rfl
  | bool true => exact lexes_scalar rfl rfl
  | bool false => exact lexes_scalar rfl rfl
  | whole n =>
      rw [render, tokens]
      exact lexes_whole n
      all_goals nofun
  | real x => exact plain.elim
  | text s =>
      rw [render, tokens]
      exact (reads_quote s).lexes
  | list items =>
      rw [render, tokens]
      exact (lexes_renderList items plain).enclosed rfl rfl rfl rfl rfl
  | object fields =>
      rw [render, tokens]
      exact (lexes_renderFields fields plain.2).enclosed rfl rfl rfl rfl rfl

theorem lexes_renderList (items : List Json) (plain : PlainList items) :
    Lexes (", ".intercalate (renderList items)).toList (separate (tokensList items)) := by
  match items with
  | [] => exact lexes_nil
  | [item] =>
      rw [renderList, renderList, String.intercalate_singleton]
      exact lexes_render item plain.1
  | item :: second :: rest =>
      rw [renderList, renderList, String.intercalate_cons_cons]
      exact (lexes_render item plain.1).comma (lexes_renderList (second :: rest) plain.2)

theorem lexes_renderFields (fields : List (String × Json)) (plain : PlainFields fields) :
    Lexes (", ".intercalate (renderFields fields)).toList (separate (tokensFields fields)) := by
  match fields with
  | [] => exact lexes_nil
  | [(name, item)] =>
      rw [renderFields, renderFields, String.intercalate_singleton]
      exact (lexes_render item plain.1).field name
  | (name, item) :: second :: rest =>
      rw [renderFields, renderFields, String.intercalate_cons_cons]
      exact ((lexes_render item plain.1).field name).comma
        (lexes_renderFields (second :: rest) plain.2)

end

theorem tokensFrom_render {j : Json} (plain : j.Plain) :
    tokensFrom .between j.render.toList = some j.tokens := by
  have lexes := lexes_render j plain [] trivial
  rw [List.append_nil, tokensFrom, Mode.finish, Option.map_some, List.append_nil] at lexes
  exact lexes

/-! ## Values -/

namespace Reader

def Takes (r : Reader) (tokens : List Token) (next : Reader) : Prop :=
  tokens.foldlM step r = some next

namespace Takes

variable {r middle next : Reader} {first second : List Token}

theorem append (left : r.Takes first middle) (right : middle.Takes second next) :
    r.Takes (first ++ second) next := by
  rw [Takes, List.foldlM_append, left]
  exact right

theorem cons {token : Token} (stepped : r.step token = some middle)
    (right : middle.Takes second next) : r.Takes (token :: second) next := by
  rw [Takes, List.foldlM_cons, stepped]
  exact right

theorem single {token : Token} (stepped : r.step token = some next) : r.Takes [token] next :=
  cons stepped rfl

end Takes

end Reader

def Stage.Expects (stage : Stage) : Prop := stage = .value ∨ stage = .firstItem

theorem step_value {stage : Stage} (expects : stage.Expects) (frames : List Frame) (token : Token)
    (opens : token ≠ .closeList) :
    Reader.step ⟨stage, frames⟩ token = Reader.value frames token := by
  cases expects with
  | inl value => rw [value]; rfl
  | inr firstItem =>
      rw [firstItem]
      cases frames with
      | nil => cases token <;> rfl
      | cons frame frames => cases frame <;> cases token <;> first | rfl | exact absurd rfl opens

theorem step_open {stage : Stage} (expects : stage.Expects) (frames : List Frame) :
    Reader.step ⟨stage, frames⟩ .openList = some ⟨.firstItem, .list [] :: frames⟩ ∧
      Reader.step ⟨stage, frames⟩ .openObject = some ⟨.firstName, frames⟩ :=
  ⟨step_value expects frames .openList nofun, step_value expects frames .openObject nofun⟩

def Stage.Continues (stage : Stage) (done : Named String Json) : Prop :=
  stage = .name done ∨ stage = .firstName ∧ done = []

theorem step_name {stage : Stage} {done : Named String Json} (continues : stage.Continues done)
    (name : String) (frames : List Frame) :
    Reader.step ⟨stage, frames⟩ (.text name) = some ⟨.named done name, frames⟩ := by
  cases continues with
  | inl further => rw [further]; rfl
  | inr first => rw [first.1, first.2]; rfl

theorem step_behindField {done rest : Named String Json} {name : String} {item : Json}
    (distinct : (Named.names (done ++ (name, item) :: rest)).Nodup) (frames : List Frame) :
    Reader.step ⟨.behind item, .field done name :: frames⟩ .comma =
        some ⟨.name (done ++ [(name, item)]), frames⟩ ∧
      Reader.step ⟨.behind item, .field done name :: frames⟩ .closeObject =
        some ⟨.behind (.object (done ++ [(name, item)])), frames⟩ := by
  rw [← Named.put_of_fresh item (Named.fresh_of_nodup distinct)]
  exact ⟨rfl, rfl⟩

mutual

/-- The tokens of a value are put together to the value, whatever is open around it. The first item
of a list is read in another stage than the later ones, hence `stage`. -/
theorem takes_tokens (j : Json) (plain : j.Plain) {stage : Stage} (expects : stage.Expects)
    (frames : List Frame) : Reader.Takes ⟨stage, frames⟩ j.tokens ⟨.behind j, frames⟩ := by
  match j with
  | null => exact .single (step_value expects frames _ nofun)
  | bool b => exact .single (step_value expects frames _ nofun)
  | whole n => exact .single (step_value expects frames _ nofun)
  | real x => exact .single (step_value expects frames _ nofun)
  | text s => exact .single (step_value expects frames _ nofun)
  | list [] => exact .cons (step_open expects frames).1 (.single rfl)
  | list (item :: rest) =>
      apply Reader.Takes.cons (step_open expects frames).1
      exact takes_items (item :: rest) nofun plain (.inr rfl) [] frames
  | object [] => exact .cons (step_open expects frames).2 (.single rfl)
  | object (field :: rest) =>
      apply Reader.Takes.cons (step_open expects frames).2
      exact takes_fields (field :: rest) nofun plain.2 (.inr ⟨rfl, rfl⟩) plain.1 frames

theorem takes_items (items : List Json) (filled : items ≠ []) (plain : PlainList items)
    {stage : Stage} (expects : stage.Expects) (done : List Json) (frames : List Frame) :
    Reader.Takes ⟨stage, .list done :: frames⟩ (separate (tokensList items) ++ [.closeList])
      ⟨.behind (.list (done ++ items)), frames⟩ := by
  match items with
  | [] => exact absurd rfl filled
  | [item] =>
      have last := takes_tokens item plain.1 expects (.list done :: frames)
      exact last.append (.single rfl)
  | item :: second :: rest =>
      have here := takes_tokens item plain.1 expects (.list done :: frames)
      have later := takes_items (second :: rest) nofun plain.2 (.inl rfl) (done ++ [item]) frames
      rw [List.append_assoc] at later
      rw [tokensList, tokensList, separate, List.append_assoc]
      exact here.append (.cons rfl later)

theorem takes_fields (fields : List (String × Json)) (filled : fields ≠ [])
    (plain : PlainFields fields) {stage : Stage} {done : Named String Json}
    (continues : stage.Continues done) (distinct : (Named.names (done ++ fields)).Nodup)
    (frames : List Frame) :
    Reader.Takes ⟨stage, frames⟩ (separate (tokensFields fields) ++ [.closeObject])
      ⟨.behind (.object (done ++ fields)), frames⟩ := by
  match fields with
  | [] => exact absurd rfl filled
  | [(name, item)] =>
      have value := takes_tokens item plain.1 (.inl rfl) (.field done name :: frames)
      have last := (step_behindField distinct frames).2
      exact .cons (step_name continues name frames) (.cons rfl (value.append (.single last)))
  | (name, item) :: second :: rest =>
      have value := takes_tokens item plain.1 (.inl rfl) (.field done name :: frames)
      have comma := (step_behindField distinct frames).1
      rw [List.append_cons] at distinct
      have later := takes_fields (second :: rest) nofun plain.2 (.inl rfl) distinct frames
      rw [List.append_assoc] at later
      rw [tokensFields, tokensFields, separate, List.append_assoc]
      exact .cons (step_name continues name frames) (.cons rfl (value.append (.cons comma later)))

end

theorem read_render {j : Json} (plain : j.Plain) : read j.render = some j := by
  have taken : j.tokens.foldlM Reader.step .start = some ⟨.behind j, []⟩ :=
    takes_tokens j plain (.inl rfl) []
  rw [read, tokensFrom_render plain]
  show (j.tokens.foldlM Reader.step .start).bind _ = _
  rw [taken]
  rfl

-- What others write is read as well.
example : (read "\t\x7b \"\\u0061\" : [10 , -0,\"\\/\\uD83D\\uDE00\"] \x7d").map render =
    some "\x7b\"a\": [10, 0, \"/\\ud83d\\ude00\"]\x7d" := by decide +kernel

end Json

end InputChords
