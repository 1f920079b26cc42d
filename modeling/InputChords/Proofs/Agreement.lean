import InputChords.Chord.Hash
import InputChords.Proofs.Relevance
import InputChords.Value.Equal

/-! Equality of chords. The comparison works through a list of pairs and passes over a pair that is
one and the same object. It finds two chords equal exactly if they have the same node at every
place; equal chords have equal hashes, so the set of two chords has one member exactly if they are
equal. -/

namespace InputChords

namespace Chord

variable {σ ι η : Type}

inductive Node where
  | atom (a : Atom)
  | not
  | join (c : Connective)

def node? : Chord σ → Option Node
  | atom a => some (.atom a)
  | not _ => some .not
  | join c _ _ => some (.join c)
  | stray _ => none

def part? : Chord σ → Turn → Option (Chord σ)
  | not t, .operand => some t
  | join _ l _, .left => some l
  | join _ _ r, .right => some r
  | _, _ => none

def at? (t : Chord σ) : Place → Option (Chord σ)
  | [] => some t
  | turn :: up => (t.at? up).bind fun u => u.part? turn

def nodeAt? (t : Chord σ) (place : Place) : Option Node := (t.at? place).bind node?

theorem at?_cons {t u : Chord σ} {up : Place} (found : t.at? up = some u) (turn : Turn) :
    t.at? (turn :: up) = u.part? turn := by
  rw [at?, found]
  rfl

/-- A place lists the turns from the last one back; here the first one is split off. -/
theorem at?_concat (t : Chord σ) (place : Place) (turn : Turn) :
    t.at? (place ++ [turn]) = (t.part? turn).bind fun u => u.at? place := by
  induction place with
  | nil => cases part : t.part? turn <;> simp [at?, part]
  | cons next place ih =>
      rw [List.cons_append, at?, ih, Option.bind_assoc]
      rfl

theorem nodeAt?_concat {t u : Chord σ} {turn : Turn} (part : t.part? turn = some u)
    (place : Place) : t.nodeAt? (place ++ [turn]) = u.nodeAt? place := by
  rw [nodeAt?, at?_concat, part]
  rfl

theorem nodeAt?_part {a b u v : Chord σ} {turn : Turn}
    (nodes : ∀ place, a.nodeAt? place = b.nodeAt? place) (first : a.part? turn = some u)
    (second : b.part? turn = some v) (place : Place) : u.nodeAt? place = v.nodeAt? place := by
  rw [← nodeAt?_concat first, nodes, nodeAt?_concat second]

theorem eq_of_nodes {a b : Chord σ} (sound : a.Sound)
    (nodes : ∀ place, a.nodeAt? place = b.nodeAt? place) : a = b := by
  have root : a.node? = b.node? := nodes []
  induction a generalizing b with
  | atom x =>
      cases b with
      | atom y =>
          cases root
          rfl
      | _ => cases root
  | not t ih =>
      cases b with
      | not u =>
          have below := nodeAt?_part nodes (rfl : t.not.part? .operand = some t) rfl
          rw [ih sound below (below [])]
      | _ => cases root
  | join c l r left right =>
      cases b with
      | join d l' r' =>
          have onLeft := nodeAt?_part nodes (rfl : (join c l r).part? .left = some l) rfl
          have onRight := nodeAt?_part nodes (rfl : (join c l r).part? .right = some r) rfl
          cases root
          rw [left sound.1 onLeft (onLeft []), right sound.2 onRight (onRight [])]
      | _ => cases root
  | stray v => exact sound.elim

/-- `shared` marks only places where the two chords have the same part. -/
def Consistent (shared : Place → Bool) (a b : Chord σ) : Prop :=
  ∀ place u v, a.at? place = some u → b.at? place = some v → shared place = true → u = v

theorem agreeAll_cons_of {shared : Place → Bool} {a b : Chord σ}
    (consistent : Consistent shared a b) (same : σ → σ → Bool) {place : Place} {u v : Chord σ}
    (first : a.at? place = some u) (second : b.at? place = some v) (rest : List (Pair σ))
    (apart : shared place = false → (agreeAll shared same (⟨place, u, v⟩ :: rest) = true ↔
      u = v ∧ agreeAll shared same rest = true)) :
    agreeAll shared same (⟨place, u, v⟩ :: rest) = true ↔
      u = v ∧ agreeAll shared same rest = true := by
  cases here : shared place with
  | false => exact apart here
  | true =>
      rw [and_iff_right (consistent place u v first second here), agreeAll.eq_def]
      simp only [here, if_true]

theorem agreeAll_cons {shared : Place → Bool} {a b : Chord σ} (consistent : Consistent shared a b)
    (same : σ → σ → Bool) {place : Place} {u v : Chord σ} (sound : u.Sound)
    (first : a.at? place = some u) (second : b.at? place = some v) (rest : List (Pair σ)) :
    agreeAll shared same (⟨place, u, v⟩ :: rest) = true ↔
      u = v ∧ agreeAll shared same rest = true := by
  induction u generalizing place v rest with
  | stray w => exact sound.elim
  | atom x =>
      apply agreeAll_cons_of consistent same first second
      intro apart
      cases v <;> simp [agreeAll, apart]
  | not t ih =>
      apply agreeAll_cons_of consistent same first second
      intro apart
      cases v with
      | not u =>
          have parts := ih sound (at?_cons first .operand) (at?_cons second .operand) rest
          simp [agreeAll, apart, parts]
      | _ => simp [agreeAll, apart]
  | join c l r left right =>
      apply agreeAll_cons_of consistent same first second
      intro apart
      cases v with
      | join d l' r' =>
          have onRight := right sound.2 (at?_cons first .right) (at?_cons second .right) rest
          have onLeft := left sound.1 (at?_cons first .left) (at?_cons second .left)
            (⟨.right :: place, r, r'⟩ :: rest)
          simp [agreeAll, apart, onLeft, onRight, and_assoc]
      | _ => simp [agreeAll, apart]

theorem agree_iff {shared : Place → Bool} {a b : Chord σ} (consistent : Consistent shared a b)
    (same : σ → σ → Bool) (sound : a.Sound) : a.agree shared same b = true ↔ a = b := by
  rw [agree, agreeAll_cons consistent same sound rfl rfl, agreeAll, and_iff_left rfl]

theorem exists_hashes {shared : Place → Bool} {a b : Chord σ} (consistent : Consistent shared a b)
    (mixing : Mixing η) (same : σ → σ → Bool) (soundA : a.Sound) (soundB : b.Sound) :
    ∃ x y, a.hash mixing = .ok x ∧ b.hash mixing = .ok y ∧
      (a.agree shared same b = true → x = y) := by
  obtain ⟨x, hashA⟩ : ∃ x, a.hash mixing = .ok x := fold_of_sound _ soundA
  obtain ⟨y, hashB⟩ : ∃ y, b.hash mixing = .ok y := fold_of_sound _ soundB
  refine ⟨x, y, hashA, hashB, ?_⟩
  intro agreed
  rw [(agree_iff consistent same soundA).mp agreed, hashB] at hashA
  exact (Except.ok.inj hashA).symm

/-- The hashes never keep equal chords apart, so the set has two members only if the chords differ;
chords that differ are both members even if their hashes collide. -/
theorem countDistinct_eq [DecidableEq η] {shared : Place → Bool} {a b : Chord σ}
    (consistent : Consistent shared a b) (mixing : Mixing η) (same : σ → σ → Bool)
    (soundA : a.Sound) (soundB : b.Sound) :
    a.countDistinct mixing shared same b = .ok (if a.agree shared same b then 1 else 2) := by
  obtain ⟨x, y, hashA, hashB, equal⟩ := exists_hashes consistent mixing same soundA soundB
  have found : (x = y ∧ a.agree shared same b = true) ↔ a.agree shared same b = true :=
    and_iff_right_of_imp equal
  show (a.hash mixing).bind _ = _
  rw [hashA]
  show (b.hash mixing).bind _ = _
  rw [hashB]
  simp only [Except.bind, pure, Except.pure, found]

/-- The objects that a chord is made of. `store` says which chord an object is; one object may
stand at any number of places. -/
structure Objects (store : ι → Chord σ) (t : Chord σ) where
  object : Place → ι
  stored : ∀ place u, t.at? place = some u → store (object place) = u

namespace Objects

variable {store : ι → Chord σ} {a b : Chord σ}

def shared [DecidableEq ι] (first : Objects store a) (second : Objects store b) (place : Place) :
    Bool :=
  decide (first.object place = second.object place)

theorem consistent [DecidableEq ι] (first : Objects store a) (second : Objects store b) :
    Consistent (first.shared second) a b := by
  intro place u v atFirst atSecond here
  calc
    u = store (first.object place) := (first.stored place u atFirst).symm
    _ = store (second.object place) := congrArg store (of_decide_eq_true here)
    _ = v := second.stored place v atSecond

def unique (t : Chord σ) : Objects id t where
  object place := (t.at? place).getD t
  stored place u found := by rw [found]; rfl

end Objects

end Chord

namespace Value

theorem hashable_tree (t : Chord Value) : hashable (.tree t) = (sound t.depth).map fun _ => () := by
  rw [hashable]
  cases sound t.depth <;> rfl

/-- The set of two chords can be told without their hashes. It fails where a hash fails, and for the
same reason. -/
theorem countDistinct_tree {η : Type} [DecidableEq η] (mixing : Chord.Mixing η)
    {shared : Chord.Place → Bool} {a b : Chord Value} (consistent : Chord.Consistent shared a b) :
    countDistinct shared (.tree a) (.tree b) =
      sound (a.countDistinct mixing shared sameStray b) := by
  rw [countDistinct, hashable_tree, hashable_tree]
  cases strayA : a.firstStray? with
  | some v =>
      have depthA : a.depth = .error v := Chord.fold_of_stray _ strayA
      have hashA : a.hash mixing = .error v := Chord.fold_of_stray _ strayA
      rw [Chord.countDistinct, hashA, depthA]
      rfl
  | none =>
      have soundA := (Chord.firstStray?_eq_none_iff a).mp strayA
      obtain ⟨m, depthA⟩ : ∃ m, a.depth = .ok m := Chord.fold_of_sound _ soundA
      obtain ⟨x, hashA⟩ : ∃ x, a.hash mixing = .ok x := Chord.fold_of_sound _ soundA
      rw [depthA]
      cases strayB : b.firstStray? with
      | some v =>
          have depthB : b.depth = .error v := Chord.fold_of_stray _ strayB
          have hashB : b.hash mixing = .error v := Chord.fold_of_stray _ strayB
          rw [Chord.countDistinct, hashA, hashB, depthB]
          rfl
      | none =>
          have soundB := (Chord.firstStray?_eq_none_iff b).mp strayB
          obtain ⟨n, depthB⟩ : ∃ n, b.depth = .ok n := Chord.fold_of_sound _ soundB
          rw [depthB, Chord.countDistinct_eq consistent mixing sameStray soundA soundB]
          rfl

end Value

open Chord in
/-- Two chords without stray values are equal exactly if they have the same nodes, whichever objects
they share, and the set of the two has one member exactly if they are equal. -/
theorem equality_structural {ι η : Type} [DecidableEq ι] [DecidableEq η] {store : ι → Chord Value}
    {a b : Chord Value} (first : Objects store a) (second : Objects store b) (mixing : Mixing η)
    (soundA : a.Sound) (soundB : b.Sound) :
    let equal := Value.agrees (first.shared second) (.tree a) (.tree b)
    (equal = true ↔ a = b) ∧
    (equal = true ↔ ∀ place, a.nodeAt? place = b.nodeAt? place) ∧
    equal = Value.agrees (fun _ => false) (.tree a) (.tree b) ∧
    (∃ x y, a.hash mixing = .ok x ∧ b.hash mixing = .ok y ∧ (equal = true → x = y)) ∧
    a.countDistinct mixing (first.shared second) Value.sameStray b =
      .ok (if equal then 1 else 2) ∧
    Value.countDistinct (first.shared second) (.tree a) (.tree b) =
      .ok (if equal then 1 else 2) := by
  have consistent := first.consistent second
  have apart : Consistent (fun _ => false) a b := fun _ _ _ _ _ here => nomatch here
  have structural := agree_iff consistent Value.sameStray soundA
  have unshared := agree_iff apart Value.sameStray soundA
  have counted := countDistinct_eq consistent mixing Value.sameStray soundA soundB
  refine ⟨structural, structural.trans ⟨fun same => ?_, eq_of_nodes soundA⟩,
    Bool.eq_iff_iff.mpr (structural.trans unshared.symm),
    exists_hashes consistent mixing Value.sameStray soundA soundB, counted, ?_⟩
  · intro place
    rw [same]
  · rw [Value.countDistinct_tree mixing consistent, counted]
    rfl

open Chord in
/-- All parts that the two chords have in common are shared, and all hashes collide. -/
theorem equality_structural_colliding_hashes :
    letI := Classical.typeDecidableEq (Chord Value)
    let part : Chord Value := .not (.atom (.key .tab))
    let a := join .and part (join .or part (.atom .drag))
    let b := join .and part (join .and part (.atom .drag))
    let shared := (Objects.unique a).shared (Objects.unique b)
    shared [.left] = true ∧ shared [.left, .right] = true ∧
      Value.agrees shared (.tree a) (.tree b) = false ∧
      a.countDistinct ⟨fun _ => 0, fun _ => 0, fun _ _ _ => 0⟩ shared Value.sameStray b =
        .ok 2 := by
  let := Classical.typeDecidableEq (Chord Value)
  intro part a b shared
  obtain ⟨structural, _, _, _, counted, _⟩ :=
    equality_structural (Objects.unique a) (Objects.unique b)
      (⟨fun _ => 0, fun _ => 0, fun _ _ _ => 0⟩ : Mixing Nat)
      ⟨trivial, trivial, trivial⟩ ⟨trivial, trivial, trivial⟩
  have differ : Value.agrees shared (.tree a) (.tree b) = false :=
    Bool.eq_false_iff.mpr fun agreed => by simpa [a, b] using structural.mp agreed
  refine ⟨decide_eq_true rfl, decide_eq_true rfl, differ, ?_⟩
  rw [counted, differ]
  rfl

end InputChords
