import Mathlib.Data.List.Basic
import InputChords.Json

/-! The text of a JSON value is printable ASCII, so it stands on one line, and it grows with each
field of an object. -/

namespace InputChords

namespace Text

def IsAscii (c : Char) : Prop := 32 ≤ c.toNat ∧ c.toNat < 127

instance (c : Char) : Decidable (IsAscii c) :=
  inferInstanceAs (Decidable (32 ≤ c.toNat ∧ c.toNat < 127))

def AllAscii (cs : List Char) : Prop := ∀ c ∈ cs, IsAscii c

instance (cs : List Char) : Decidable (AllAscii cs) := List.decidableBAll IsAscii cs

def Ascii (text : String) : Prop := AllAscii text.toList

instance (text : String) : Decidable (Ascii text) :=
  inferInstanceAs (Decidable (AllAscii text.toList))

theorem allAscii_append {first second : List Char} :
    AllAscii (first ++ second) ↔ AllAscii first ∧ AllAscii second :=
  List.forall_mem_append

theorem allAscii_replicate {c : Char} (ascii : IsAscii c) (n : Nat) :
    AllAscii (List.replicate n c) := by
  intro d member
  rwa [List.eq_of_mem_replicate member]

def OneLine (text : String) : Prop := '\n' ∉ text.toList

theorem Ascii.oneLine {text : String} (ascii : Ascii text) : OneLine text :=
  fun found => absurd (ascii '\n' found) (by decide)

theorem ascii_ofList {cs : List Char} (each : AllAscii cs) : Ascii (String.ofList cs) := by
  rwa [Ascii, String.toList_ofList]

theorem Ascii.append {first second : String} (left : Ascii first) (right : Ascii second) :
    Ascii (first ++ second) := by
  rw [Ascii, String.toList_append, allAscii_append]
  exact ⟨left, right⟩

theorem Ascii.intercalate {separator : String} {texts : List String} (between : Ascii separator)
    (each : ∀ text ∈ texts, Ascii text) : Ascii (separator.intercalate texts) := by
  induction texts with
  | nil =>
      rw [String.intercalate_nil]
      decide
  | cons text rest ih =>
      have here := each text List.mem_cons_self
      cases rest with
      | nil => rwa [String.intercalate_singleton]
      | cons next rest =>
          rw [String.intercalate_cons_cons]
          exact (here.append between).append
            (ih fun other member => each other (List.mem_cons_of_mem _ member))

theorem isAscii_digitChar {d : Nat} (small : d < 16) : IsAscii (Nat.digitChar d) := by
  have each : ∀ d < 16, IsAscii (Nat.digitChar d) := by decide
  exact each d small

theorem allAscii_toDigits {base : Nat} (n : Nat) (large : 1 < base) (small : base ≤ 16) :
    AllAscii (Nat.toDigits base n) := by
  induction n using Nat.strongRecOn with
  | ind n ih =>
      have digit {d : Nat} (less : d < 16) : AllAscii [Nat.digitChar d] :=
        List.forall_mem_singleton.mpr (isAscii_digitChar less)
      rw [Nat.toDigits_eq_if large]
      split
      · exact digit (by omega)
      · have last : n % base < 16 := Nat.lt_of_lt_of_le (Nat.mod_lt n (by omega)) small
        exact allAscii_append.mpr ⟨ih _ (Nat.div_lt_self (by omega) large), digit last⟩

theorem allAscii_hex (width n : Nat) : AllAscii (hex width n) :=
  allAscii_append.mpr
    ⟨allAscii_replicate (by decide) _, allAscii_toDigits n (by decide) (by decide)⟩

theorem ascii_toString_nat (n : Nat) : Ascii (toString n) := by
  rw [Nat.toString_eq_ofList_toDigits]
  exact ascii_ofList (allAscii_toDigits n (by decide) (by decide))

theorem ascii_toString_int (n : Int) : Ascii (toString n) := by
  cases n with
  | ofNat n => exact ascii_toString_nat n
  | negSucc n =>
      show Ascii ("-" ++ toString (n + 1))
      exact Ascii.append (by decide) (ascii_toString_nat _)

end Text

open Text

namespace Decimal

theorem ascii_positional (digits : Nat) (scale : Int) : Ascii (positional digits scale) := by
  have ds : AllAscii (Nat.toDigits 10 digits) := allAscii_toDigits digits (by decide) (by decide)
  have zeros (n : Nat) : AllAscii (List.replicate n '0') := allAscii_replicate (by decide) n
  have taken (n : Nat) : Ascii (String.ofList ((Nat.toDigits 10 digits).take n)) :=
    ascii_ofList fun c member => ds c (List.mem_of_mem_take member)
  have dropped (n : Nat) : Ascii (String.ofList ((Nat.toDigits 10 digits).drop n)) :=
    ascii_ofList fun c member => ds c (List.mem_of_mem_drop member)
  simp only [positional]
  split
  · split
    · exact Ascii.append (by decide) (ascii_ofList (allAscii_append.mpr ⟨zeros _, ds⟩))
    · split
      · exact ((taken _).append (by decide)).append (dropped _)
      · exact Ascii.append (ascii_ofList (allAscii_append.mpr ⟨ds, zeros _⟩)) (by decide)
  · apply Ascii.append
    · apply Ascii.append
      · apply (taken 1).append
        split
        · decide
        · exact Ascii.append (by decide) (dropped 1)
      · split <;> decide
    · split
      · exact Ascii.append (by decide) (ascii_toString_nat _)
      · exact ascii_toString_nat _

theorem ascii_realText (x : Float) : Ascii (realText x) := by
  unfold realText
  split
  · decide
  · split <;> decide
  · rename_i negative mantissa exponent _
    have sign : Ascii (if negative = true then "-" else "") := by split <;> decide
    dsimp only
    split
    · exact sign.append (by decide)
    · exact sign.append (ascii_positional _ _)

end Decimal

namespace Json

theorem allAscii_escapeUnit (unit : Nat) : AllAscii (escapeUnit unit) :=
  allAscii_append.mpr ⟨(by decide : AllAscii ['\\', 'u']), allAscii_hex 4 unit⟩

theorem allAscii_escapeCode (code : Nat) : AllAscii (escapeCode code) := by
  unfold escapeCode
  split
  · exact allAscii_escapeUnit _
  · exact allAscii_append.mpr ⟨allAscii_escapeUnit _, allAscii_escapeUnit _⟩

theorem allAscii_escapeChar (c : Char) : AllAscii (escapeChar c) := by
  unfold escapeChar
  repeat (split; · decide)
  split
  · rename_i plain
    rw [Bool.and_eq_true, decide_eq_true_eq, decide_eq_true_eq] at plain
    exact List.forall_mem_singleton.mpr plain
  · exact allAscii_escapeCode _

theorem ascii_quote (s : String) : Ascii (quote s) := by
  have escaped : AllAscii (s.toList.flatMap escapeChar) := by
    intro d member
    obtain ⟨c, _, here⟩ := List.mem_flatMap.mp member
    exact allAscii_escapeChar c d here
  have mark : AllAscii ['\x22'] := by decide
  exact ascii_ofList (allAscii_append.mpr ⟨mark, allAscii_append.mpr ⟨escaped, mark⟩⟩)

theorem ascii_realText (x : Float) : Ascii (realText x) := by
  unfold realText
  split
  · decide
  · split <;> decide
  · exact Decimal.ascii_realText x

mutual

theorem ascii_render (j : Json) : Ascii j.render := by
  match j with
  | null => rw [render]; decide
  | bool b => cases b <;> (rw [render]; decide)
  | whole n =>
      rw [render]
      exact ascii_toString_int n.value
  | real x =>
      rw [render]
      exact ascii_realText x
  | text s =>
      rw [render]
      exact ascii_quote s
  | list items =>
      have comma : Ascii ", " := by decide
      rw [render]
      exact Ascii.append (Ascii.append (by decide) (comma.intercalate (ascii_renderList items)))
        (by decide)
  | object fields =>
      have comma : Ascii ", " := by decide
      rw [render]
      exact Ascii.append
        (Ascii.append (by decide) (comma.intercalate (ascii_renderFields fields))) (by decide)

theorem ascii_renderList (items : List Json) : ∀ text ∈ renderList items, Ascii text := by
  match items with
  | [] => simp [renderList]
  | item :: rest =>
      rw [renderList, List.forall_mem_cons]
      exact ⟨ascii_render item, ascii_renderList rest⟩

theorem ascii_renderFields (fields : List (String × Json)) :
    ∀ text ∈ renderFields fields, Ascii text := by
  match fields with
  | [] => simp [renderFields]
  | (name, item) :: rest =>
      rw [renderFields, List.forall_mem_cons]
      have field : Ascii (quote name ++ ": " ++ render item) :=
        ((ascii_quote name).append (by decide)).append (ascii_render item)
      exact ⟨field, ascii_renderFields rest⟩

end

theorem oneLine_render (j : Json) : OneLine j.render := (ascii_render j).oneLine

theorem renderFields_append (first second : List (String × Json)) :
    renderFields (first ++ second) = renderFields first ++ renderFields second := by
  induction first with
  | nil => rfl
  | cons field rest ih => rw [List.cons_append, renderFields, renderFields, ih, List.cons_append]

theorem renderFields_eq_nil {fields : List (String × Json)} :
    renderFields fields = [] ↔ fields = [] := by
  cases fields <;> simp [renderFields]

theorem render_object_snoc (fields : List (String × Json)) (name : String) (item : Json) :
    render (.object (fields ++ [(name, item)])) =
      "\x7b" ++ (", ".intercalate (renderFields fields) ++ (if fields = [] then "" else ", ")) ++
        (quote name ++ ": " ++ render item) ++ "\x7d" := by
  rw [render, renderFields_append]
  have last : renderFields [(name, item)] = [quote name ++ ": " ++ render item] := rfl
  by_cases none : fields = []
  · subst none
    rw [last, if_pos rfl]
    simp [renderFields]
  · rw [String.intercalate_append_of_ne_nil (by rwa [ne_eq, renderFields_eq_nil]) (by simp [last]),
      last, String.intercalate_singleton, if_neg none]
    simp only [String.append_assoc]

theorem length_render_lt_snoc (fields : List (String × Json)) (name : String) (item : Json) :
    (render (.object fields)).length < (render (.object (fields ++ [(name, item)]))).length := by
  rw [render_object_snoc, render]
  have colon : ": ".length = 2 := rfl
  simp only [String.length_append, colon]
  omega

theorem length_render_object_lt (fields : List (String × Json)) (name : String) {small large : Json}
    (longer : small.render.length < large.render.length) :
    (render (.object (fields ++ [(name, small)]))).length <
      (render (.object (fields ++ [(name, large)]))).length := by
  rw [render_object_snoc, render_object_snoc]
  simp only [String.length_append]
  omega

end Json

end InputChords
