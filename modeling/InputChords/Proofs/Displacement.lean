import InputChords.Proofs.MotionAtoms
import InputChords.Proofs.WholeReal

/-! The way of the pointer in whole coordinates. What the movements of a frame add up to is the
distance between two places, whatever lies between them. -/

namespace InputChords

variable {κ : Type}

namespace Number

instance (x : Float) (n : Int) : Decidable (IsWhole x n) :=
  inferInstanceAs (Decidable (compareWhole n x = some .eq))

def whole? (x : Float) : Option Int :=
  match Value.truncate x with
  | .ok n => if IsWhole x n then some n else none
  | .error _ => none

theorem IsWhole.truncate {x : Float} {n : Int} (whole : IsWhole x n) :
    Value.truncate x = .ok n := by
  rw [IsWhole, compareWhole] at whole
  rw [Value.truncate]
  cases parts : Decimal.parts x with
  | nan => simp [parts] at whole
  | infinite negative => cases negative <;> simp [parts] at whole
  | finite negative mantissa exponent =>
      simp only [parts, Option.some.injEq, Int.compare_eq_eq] at whole
      have positive : Int.pow 2 (-exponent).toNat ≠ 0 := (Int.pow_pos (by decide)).ne'
      have quotient : n * Int.pow 2 (-exponent).toNat / Int.pow 2 (-exponent).toNat = n :=
        Int.mul_ediv_cancel n positive
      cases negative with
      | false =>
          simp only [Bool.false_eq_true, if_false] at whole ⊢
          rw [← whole, quotient]
      | true =>
          simp only [if_true] at whole ⊢
          have size : mantissa * Int.pow 2 exponent.toNat = -n * Int.pow 2 (-exponent).toNat := by
            rw [Int.neg_mul, whole, Int.neg_mul, Int.neg_neg]
          rw [size, Int.mul_ediv_cancel _ positive, Int.neg_neg]

theorem whole?_eq_some {x : Float} {n : Int} : whole? x = some n ↔ IsWhole x n := by
  rw [whole?]
  constructor
  · intro found
    split at found
    · split at found
      · cases found
        assumption
      · cases found
    · cases found
  · intro whole
    simp only [whole.truncate, if_pos whole]

end Number

open Number (IsWhole)

def Value.coordinate? (v : Value) : Option Int :=
  match v.toReal with
  | .ok x => Number.whole? x
  | .error _ => none

theorem Value.coordinate?_eq_some {v : Value} {n : Int} :
    v.coordinate? = some n ↔ ∃ x, v.toReal = .ok x ∧ IsWhole x n := by
  rw [coordinate?]
  cases v.toReal with
  | error fault => simp
  | ok x => simp [Number.whole?_eq_some]

theorem Value.coordinate?_whole {n : Int} (short : n.natAbs < 2 ^ 53) :
    (Value.whole n).coordinate? = some n := by
  have whole := Number.isWhole_ofInt short
  refine coordinate?_eq_some.mpr ⟨Float.ofInt n, ?_, whole⟩
  show realOverflow (Number.ofWhole n) = _
  rw [Number.ofWhole]
  rw [IsWhole, Number.compareWhole] at whole
  cases parts : Decimal.parts (Float.ofInt n) with
  | infinite negative => cases negative <;> simp [parts] at whole
  | nan => rfl
  | finite negative mantissa exponent => rfl

abbrev Place := Int × Int

namespace Place

/-- Not so far out that the distance to another such place is no longer exact. -/
def Near (p : Place) : Prop := p.1.natAbs ≤ 2 ^ 51 ∧ p.2.natAbs ≤ 2 ^ 51

instance (p : Place) : Decidable p.Near := inferInstanceAs (Decidable (_ ∧ _))

/-- From the last place before to the last place of these, or from the first of these if there is
no place before. -/
def displacement (earlier here : List Place) : Place :=
  match here.getLast?, earlier.getLast?.or here.head? with
  | some last, some origin => last - origin
  | _, _ => 0

def stride : Option Place → Place → Place
  | some origin, p => p - origin
  | none, _ => 0

theorem displacement_nil (earlier : List Place) : displacement earlier [] = 0 := rfl

theorem displacement_snoc (earlier here : List Place) (p : Place) :
    displacement earlier (here ++ [p]) =
      displacement earlier here + stride (earlier ++ here).getLast? p := by
  rcases List.eq_nil_or_concat here with rfl | ⟨init, q, rfl⟩
  · cases before : earlier.getLast? with
    | none => simp [displacement, stride, before]
    | some origin => simp [displacement, stride, before]
  · have head : (init ++ [q] ++ [p]).head? = (init ++ [q]).head? := by
      rw [List.head?_append, Option.or_of_isSome (by simp)]
    obtain ⟨origin, start⟩ :
        ∃ origin, earlier.getLast?.or (init ++ [q]).head? = some origin :=
      Option.isSome_iff_exists.mp (by simp)
    rw [List.concat_eq_append, displacement, displacement, head, start]
    simp [stride]

theorem displacement_append (earlier here later : List Place) :
    displacement earlier (here ++ later) =
      displacement earlier here + displacement (earlier ++ here) later := by
  induction later using List.reverseRecOn with
  | nil => rw [List.append_nil, displacement_nil, add_zero]
  | append_singleton init p ih =>
      rw [← List.append_assoc, displacement_snoc, displacement_snoc, ih, add_assoc,
        List.append_assoc earlier here init]

def displacements (earlier : List Place) : List (List Place) → List Place
  | [] => []
  | here :: rest => displacement earlier here :: displacements (earlier ++ here) rest

theorem sum_displacements (earlier : List Place) (frames : List (List Place)) :
    (displacements earlier frames).sum = displacement earlier frames.flatten := by
  induction frames generalizing earlier with
  | nil => rfl
  | cons here rest ih =>
      rw [displacements, List.sum_cons, ih, List.flatten_cons, displacement_append]

theorem Near.fits {p : Place} (near : p.Near) : p.1.natAbs < 2 ^ 53 ∧ p.2.natAbs < 2 ^ 53 := by
  obtain ⟨across, along⟩ := near
  omega

theorem Near.sub {p q : Place} (here : p.Near) (there : q.Near) :
    (p - q).1.natAbs < 2 ^ 53 ∧ (p - q).2.natAbs < 2 ^ 53 := by
  obtain ⟨across, along⟩ := here
  obtain ⟨across', along'⟩ := there
  simp only [Prod.fst_sub, Prod.snd_sub]
  omega

theorem displacement_bound {earlier here : List Place} (near : ∀ p ∈ earlier ++ here, p.Near) :
    (displacement earlier here).1.natAbs < 2 ^ 53 ∧
      (displacement earlier here).2.natAbs < 2 ^ 53 := by
  rw [displacement]
  split
  · rename_i last origin atEnd atStart
    have origin_near : origin.Near := by
      rcases Option.or_eq_some_iff.mp atStart with before | ⟨_, first⟩
      · exact near origin (List.mem_append_left _ (List.mem_of_getLast? before))
      · exact near origin (List.mem_append_right _ (List.mem_of_head? first))
    exact (near last (List.mem_append_right _ (List.mem_of_getLast? atEnd))).sub origin_near
  · decide

end Place

namespace Direction

def reach (p : Place) : Direction → Int
  | right => p.1
  | left => -p.1
  | down => p.2
  | up => -p.2

theorem beyond_iff_reach {x y : Float} {p : Place} (across : IsWhole x p.1) (along : IsWhole y p.2)
    (threshold : Number) (d : Direction) :
    d.Beyond threshold.neg threshold x y ↔ threshold.lt (.whole (d.reach p)) = true := by
  cases d with
  | left => rw [Beyond, Number.real_lt across, Number.whole_lt_neg, reach]
  | right => rw [Beyond, Number.lt_real across, reach]
  | up => rw [Beyond, Number.real_lt along, Number.whole_lt_neg, reach]
  | down => rw [Beyond, Number.lt_real along, reach]

end Direction

def Deed.place? : Deed κ → Option Place
  | moveTo x y =>
    match x.coordinate?, y.coordinate? with
    | some across, some along => some (across, along)
    | _, _ => none
  | _ => none

theorem Deed.place?_moveTo {x y : Value} {p : Place} (across : x.coordinate? = some p.1)
    (along : y.coordinate? = some p.2) : (moveTo (κ := κ) x y).place? = some p := by
  rw [place?, across, along]

/-- The call does not move the pointer but to such a place. -/
def Deed.Placed : Deed κ → Prop
  | addMotion _ _ => False
  | moveTo x y => ∃ p : Place, p.Near ∧ x.coordinate? = some p.1 ∧ y.coordinate? = some p.2
  | _ => True

theorem Deed.placed_whole {across along : Int} (near : Place.Near (across, along)) :
    (Deed.moveTo (κ := κ) (.whole across) (.whole along)).Placed :=
  ⟨(across, along), near, Value.coordinate?_whole near.fits.1, Value.coordinate?_whole near.fits.2⟩

def Turn.place? (turn : Turn κ) : Option Place := turn.deed.place?

def Scene.places (scene : Scene κ) : List Place := scene.turns.filterMap Turn.place?

namespace Tracker

theorem pointer_moveTo (t : Tracker κ) (x y : Float) : (t.moveTo x y).pointer = some (x, y) := by
  rw [moveTo]
  cases t.strokeTo x y <;> rfl

theorem motion_moveTo_first {t : Tracker κ} (x y : Float) (first : t.pointer = none) :
    (t.moveTo x y).motion = t.motion := by
  simp [moveTo, strokeTo, first]

theorem motion_moveTo {t : Tracker κ} (x y : Float) {origin : Float × Float}
    (last : t.pointer = some origin) :
    (t.moveTo x y).motion = ⟨t.motion.dx + (x - origin.1), t.motion.dy + (y - origin.2)⟩ := by
  simp only [moveTo, strokeTo, last, Option.map_some, addMotion]
  exact Travel.add_read _ _ _ _ rfl rfl

def IsAt (t : Tracker κ) : Option Place → Prop :=
  Option.Rel (fun seen p => IsWhole seen.1 p.1 ∧ IsWhole seen.2 p.2) t.pointer

def Moved (t : Tracker κ) (p : Place) : Prop := IsWhole t.motion.dx p.1 ∧ IsWhole t.motion.dy p.2

theorem moved_none : IsWhole Travel.none.dx 0 ∧ IsWhole Travel.none.dy 0 :=
  ⟨Number.isWhole_zero (s := .positive) rfl, Number.isWhole_zero (s := .positive) rfl⟩

structure Follows (earlier here : List Place) (t : Tracker κ) : Prop where
  pointer : t.IsAt (earlier ++ here).getLast?
  motion : t.Moved (Place.displacement earlier here)
  near : ∀ p ∈ earlier ++ here, p.Near

namespace Follows

variable {earlier here : List Place} {t : Tracker κ}

theorem moveTo (follows : t.Follows earlier here) {x y : Float} {p : Place} (near : p.Near)
    (across : IsWhole x p.1) (along : IsWhole y p.2) :
    (t.moveTo x y).Follows earlier (here ++ [p]) := by
  have all : ∀ q ∈ earlier ++ (here ++ [p]), q.Near := by
    intro q member
    rw [← List.append_assoc] at member
    rcases List.mem_append.mp member with before | last
    · exact follows.near q before
    · exact List.mem_singleton.mp last ▸ near
  refine ⟨?_, ?_, all⟩
  · rw [IsAt, pointer_moveTo, ← List.append_assoc, List.getLast?_concat]
    exact .some ⟨across, along⟩
  · -- Neither the distance so far nor the one to the next place is too long to be exact.
    have before := Place.displacement_bound follows.near
    have bound := Place.displacement_bound all
    have pointer := follows.pointer
    rw [Place.displacement_snoc] at bound ⊢
    cases last : (earlier ++ here).getLast? with
    | none =>
        rw [last, IsAt] at pointer
        generalize seen : t.pointer = origin at pointer
        cases pointer
        rw [Moved, motion_moveTo_first x y seen, Place.stride, add_zero]
        exact follows.motion
    | some q =>
        rw [last] at bound
        rw [last, IsAt] at pointer
        generalize seen : t.pointer = origin at pointer
        cases pointer with
        | some whole =>
            have step := near.sub (follows.near q (List.mem_of_getLast? last))
            have first := across.sub whole.1 near.fits.1 step.1
            have second := along.sub whole.2 near.fits.2 step.2
            rw [Moved, motion_moveTo x y seen]
            exact ⟨follows.motion.1.add first before.1 bound.1,
              follows.motion.2.add second before.2 bound.2⟩

theorem rest (follows : t.Follows earlier here) {u : Tracker κ} (pointer : u.pointer = t.pointer)
    (motion : u.motion = t.motion) : u.Follows earlier here := by
  refine ⟨?_, ?_, follows.near⟩
  · rw [IsAt, pointer]
    exact follows.pointer
  · rw [Moved, motion]
    exact follows.motion

theorem after (follows : t.Follows earlier here) {d : Deed κ} (placed : d.Placed) :
    (d.after t).Follows earlier (here ++ d.place?.toList) := by
  have unplaced {u : Tracker κ} (next : u.Follows earlier here) :
      u.Follows earlier (here ++ (none : Option Place).toList) := by
    rwa [Option.toList_none, List.append_nil]
  have leaves := d.leaves_after t
  cases d with
  | addMotion dx dy => exact absurd placed id
  | moveTo x y =>
      obtain ⟨p, near, across, along⟩ := placed
      obtain ⟨a, readX, wholeX⟩ := Value.coordinate?_eq_some.mp across
      obtain ⟨b, readY, wholeY⟩ := Value.coordinate?_eq_some.mp along
      rw [Deed.place?_moveTo across along, Deed.after, readX, readY]
      exact follows.moveTo near wholeX wholeY
  | press v =>
      refine unplaced ?_
      generalize Deed.after _ t = u at leaves ⊢
      cases leaves with
      | nothing => exact follows
      | hold => exact follows.rest rfl rfl
      | click second free timed => cases second <;> exact follows.rest rfl rfl
  | _ =>
      refine unplaced ?_
      generalize Deed.after _ t = u at leaves ⊢
      cases leaves <;> exact follows.rest rfl rfl

theorem chained {turns : List (Turn κ)} {u : Tracker κ} (chain : Chained id t turns u)
    (placed : ∀ turn ∈ turns, turn.deed.Placed) (follows : t.Follows earlier here) :
    u.Follows earlier (here ++ turns.filterMap Turn.place?) := by
  induction turns generalizing t here with
  | nil =>
      cases chain
      rwa [List.filterMap_nil, List.append_nil]
  | cons turn rest ih =>
      obtain ⟨rfl, later⟩ := chain
      have next := follows.after (placed turn (List.mem_cons_self ..))
      have last := ih later (fun other member => placed other (.tail _ member)) next
      rw [List.append_assoc] at last
      rw [List.filterMap_cons]
      cases place : turn.place? with
      | none =>
          rw [Turn.place?] at place
          rwa [place] at last
      | some p =>
          rw [Turn.place?] at place
          rwa [place] at last

theorem snapshot [DecidableEq κ] (follows : t.Follows earlier here) {frame : Int}
    {taken : Snapshot κ} {u : Tracker κ} (done : t.snapshot frame = .ok (taken, u)) :
    u.Follows (earlier ++ here) [] := by
  obtain ⟨_, _, _, _, fresh⟩ := snapshot_eq_ok t u frame taken done
  refine ⟨?_, ?_, ?_⟩
  · rw [IsAt, (snapshot_keeps done).pointer, List.append_nil]
    exact follows.pointer
  · rw [Moved, fresh.motion]
    exact moved_none
  · rw [List.append_nil]
    exact follows.near

theorem start (settings : Settings) (bindings : Option (Bindings κ)) :
    (Tracker.start settings bindings).Follows [] [] :=
  ⟨.none, moved_none, by simp⟩

end Follows

end Tracker

def Story.scenes (st : Story κ) : List (Scene κ) := st.shots.map (·.scene) ++ [st.scene]

theorem Story.mem_scenes {st : Story κ} {scene : Scene κ} :
    scene ∈ st.scenes ↔ (∃ shot ∈ st.shots, shot.scene = scene) ∨ scene = st.scene := by
  simp [scenes]

theorem split_snoc {α : Type} {xs before after : List α} {x y : α}
    (split : xs ++ [x] = before ++ y :: after) :
    (before = xs ∧ y = x) ∨ ∃ init, xs = before ++ y :: init := by
  rcases List.append_eq_append_iff.mp split with ⟨gap, rfl, last⟩ | ⟨gap, rfl, last⟩
  · obtain rfl : gap = [] := by
      cases gap with
      | nil => rfl
      | cons z rest => simp at last
    exact .inl ⟨List.append_nil xs, (List.cons.inj last).1.symm⟩
  · cases gap with
    | nil => exact .inl ⟨(List.append_nil before).symm, (List.cons.inj last).1⟩
    | cons z rest =>
        obtain ⟨rfl, _⟩ := List.cons.inj last
        exact .inr ⟨rest, rfl⟩

namespace Story

def Follows (st : Story κ) : Prop :=
  ∀ before scene after, st.scenes = before ++ scene :: after →
    scene.now.tracker.Follows (before.flatMap Scene.places) scene.places

namespace Follows

variable {st : Story κ}

theorem last (follows : st.Follows) :
    st.scene.now.tracker.Follows ((st.shots.map (·.scene)).flatMap Scene.places) st.scene.places :=
  follows _ _ [] rfl

variable [DecidableEq κ] [Quotable κ]

theorem occur (follows : st.Follows) {o : Occurrence κ} (placed : ∀ d, o.Calls d → d.Placed) :
    (st.next (.occur o)).Follows := by
  intro before scene after split
  rcases split_snoc split with ⟨rfl, rfl⟩ | ⟨init, earlier⟩
  · have next := follows.last.chained (o.chained_turns st.scene.now) fun turn present =>
      placed turn.deed (o.calls_of_mem_turns _ turn present)
    show Tracker.Follows _ ((st.scene.turns ++ o.turns st.scene.now).filterMap _) _
    rw [List.filterMap_append]
    exact next
  · change st.shots.map (·.scene) = _ at earlier
    refine follows before scene (init ++ [st.scene]) ?_
    rw [scenes, earlier, List.append_assoc, List.cons_append]

theorem snapshot (follows : st.Follows) (frame : Int) : (st.next (.snapshot frame)).Follows := by
  cases done : st.scene.now.tracker.snapshot frame with
  | error fault =>
      rw [st.next_of_error frame fault done]
      exact follows
  | ok result =>
      obtain ⟨taken, t⟩ := result
      rw [st.next_of_ok frame taken t done]
      intro before scene after split
      have gone : (st.shots ++ [(⟨st.scene, taken⟩ : Shot κ)]).map (·.scene) = st.scenes := by
        rw [List.map_append, scenes, List.map_singleton]
      rw [scenes, gone] at split
      rcases split_snoc split with ⟨rfl, rfl⟩ | ⟨init, earlier⟩
      · rw [scenes, List.flatMap_append, List.flatMap_singleton]
        exact follows.last.snapshot done
      · exact follows before scene init earlier

end Follows

end Story

theorem story_follows [DecidableEq κ] [Quotable κ] (s : Session κ) (moments : List (Moment κ))
    (start : s.tracker.Follows [] [])
    (placed : ∀ o, .occur o ∈ moments → ∀ d, o.Calls d → d.Placed) :
    (story s moments).Follows := by
  refine story_induction s moments (motive := Story.Follows) ?_ ?_
  · intro before scene after split
    rcases split_snoc split with ⟨rfl, rfl⟩ | ⟨init, none⟩
    · exact start
    · simp at none
  · intro moment member st follows
    cases moment with
    | occur o => exact follows.occur (placed o member)
    | snapshot frame => exact follows.snapshot frame

/-- What a scene shows of the way of the pointer: where it is, how far it has come since the last
place before, and the directions in which that is far. -/
structure Scene.Displaced (threshold : Number) (earlier : List Place) (scene : Scene κ) : Prop where
  pointer : scene.now.tracker.IsAt (earlier ++ scene.places).getLast?
  motion : scene.now.tracker.Moved (Place.displacement earlier scene.places)
  active : ∀ d : Direction, .movement (.toward d) ∈ scene.now.tracker.active ↔
    threshold.lt (.whole (d.reach (Place.displacement earlier scene.places))) = true

theorem moved_each {scenes : List (Scene κ)} (earlier : List Place)
    (moved : ∀ before scene after, scenes = before ++ scene :: after → scene.now.tracker.Moved
      (Place.displacement (earlier ++ before.flatMap Scene.places) scene.places)) :
    List.Forall₂ (fun scene p => scene.now.tracker.Moved p) scenes
      (Place.displacements earlier (scenes.map Scene.places)) := by
  induction scenes generalizing earlier with
  | nil => exact .nil
  | cons first rest ih =>
      refine .cons ?_ (ih (earlier ++ first.places) ?_)
      · have here := moved [] first rest rfl
        rwa [List.flatMap_nil, List.append_nil] at here
      · intro before scene after split
        have later := moved (first :: before) scene after (by rw [split, List.cons_append])
        rwa [List.flatMap_cons, ← List.append_assoc] at later

/-- A press or a release of a button that nobody knows. -/
def InputEvent.Unmapped : InputEvent → Prop
  | pointer .move _ _ _ => False
  | pointer _ _ _ button => ∀ c, Button.ofValue button ≠ .ok (some c)
  | _ => False

theorem InputEvent.calls_of_unmapped {event : InputEvent} (unmapped : event.Unmapped) :
    (event.calls : List (Deed κ)) = [] := by
  have nothing {button : Value} (unknown : ∀ c, Button.ofValue button ≠ .ok (some c))
      (calls : Click → List (Deed κ)) : Deed.ifFound (Button.ofValue button) calls = [] := by
    refine List.eq_nil_iff_forall_not_mem.mpr fun d member => ?_
    obtain ⟨c, known, _⟩ := Deed.mem_ifFound.mp member
    exact unknown c known
  cases event with
  | pointer action x y button =>
      cases action with
      | move => exact absurd unmapped id
      | down => exact nothing unmapped _
      | up => exact nothing unmapped _
  | _ => exact absurd unmapped id

/-- In every frame the movements add up to the distance from the last place before the frame to the
last place of the frame, or from the first place ever seen, and the directions in which this is
above the threshold are active. The distances of all frames add up to the distance between the first
place and the last. Where an unknown button is pressed or released is not seen. -/
theorem motion_telescopes [DecidableEq κ] [Quotable κ] (settings : Settings)
    (bindings : Option (Bindings κ)) (log : Option (List Log.Record)) (moments : List (Moment κ))
    (notNegative : settings.movementThreshold.lt .zero = false)
    (unpressed : ∀ c, .occur (.operation (.press (.atom (.movement c)))) ∉ moments)
    (placed : ∀ o, .occur o ∈ moments → ∀ d, o.Calls d → d.Placed) :
    (∀ before scene after,
      (story ⟨.start settings bindings, log⟩ moments).scenes = before ++ scene :: after →
        scene.Displaced settings.movementThreshold (before.flatMap Scene.places)) ∧
    (∀ shot ∈ (story ⟨.start settings bindings, log⟩ moments).shots,
      shot.taken.active = shot.scene.now.tracker.active) ∧
    (∃ way : List Place,
      List.Forall₂ (fun scene p => scene.now.tracker.Moved p)
        (story ⟨.start settings bindings, log⟩ moments).scenes way ∧
      way.sum = Place.displacement []
        ((story ⟨.start settings bindings, log⟩ moments).scenes.flatMap Scene.places)) ∧
    (∀ event : InputEvent, event.Unmapped → ∀ s : Session κ,
      ((Act.consume event).after s).tracker = s.tracker ∧
      ∀ (h : CanvasHandler) (source : CanvasEvent), h.read source = .ok (some event) →
        ((h.run source).after s).tracker = s.tracker) := by
  let s : Session κ := ⟨.start settings bindings, log⟩
  have follows := story_follows s moments (.start settings bindings) placed
  obtain ⟨shots, _⟩ := story_sound s moments (Tracker.start_fresh settings bindings)
  refine ⟨?_, fun shot member => (shots shot member).active, ?_, ?_⟩
  · intro before scene after split
    have member : scene ∈ (story s moments).scenes := by
      rw [split]
      exact List.mem_append_right _ (List.mem_cons_self ..)
    have here := follows before scene after split
    refine ⟨here.pointer, here.motion, fun d => ?_⟩
    obtain ⟨within, same⟩ : scene.now.tracker.Within (∀ c, · ≠ .movement c) ∧
        scene.now.tracker.settings = settings := by
      have within := story_within (∀ c, · ≠ .movement c) settings bindings log moments
        (by rintro a physical c rfl; cases physical)
        (by rintro a pressed c rfl; exact unpressed c pressed)
      have same := story_settings s moments
      rcases Story.mem_scenes.mp member with ⟨shot, present, rfl⟩ | rfl
      · exact ⟨within.1 shot present, (same.1 shot present).2⟩
      · exact ⟨within.2, same.2.2⟩
    rw [within.mem_active_iff fun other => other _ rfl,
      Tracker.movement_mem_derived _ (same ▸ notNegative), same,
      Direction.beyond_iff_reach here.motion.1 here.motion.2]
  · refine ⟨Place.displacements [] ((story s moments).scenes.map Scene.places), ?_, ?_⟩
    · exact moved_each [] fun before scene after split => (follows before scene after split).motion
    · rw [Place.sum_displacements, List.flatMap_def]
  · intro event unmapped s
    have none := event.calls_of_unmapped (κ := κ) unmapped
    refine ⟨?_, fun h source read => ?_⟩
    · rw [Act.comesTo_consume event s, none]
      rfl
    · have calls : (h.calls source : List (Deed κ)) = [] := by
        rw [CanvasHandler.calls, read]
        exact none
      rw [h.comesTo_run source s, calls]
      rfl

/-- The pointer goes to the right in one frame and, by a detour, up and to the left in the next. A
button that nobody knows is pressed in between. -/
theorem motion_telescopes_across_frames :
    let moments : List (Moment String) := [.occur (.windowPosition (.whole 5) (.whole 5)),
      .occur (.operation (.moveTo (.whole 10) (.whole 5))),
      .occur (.operation (.consume [.pointer .down (.whole 700) (.whole 0) (.whole 9)])),
      .snapshot 1, .occur (.operation (.moveTo (.whole 40) (.whole (-7)))),
      .occur (.operation (.moveTo (.whole 8) (.whole 1))), .snapshot 2]
    ∃ first second last : Scene String,
      (story ⟨.start .standard none, none⟩ moments).scenes = [first, second, last] ∧
      first.places = [(5, 5), (10, 5)] ∧ second.places = [(40, -7), (8, 1)] ∧ last.places = [] ∧
      first.Displaced (.real 0.0) [] ∧ second.Displaced (.real 0.0) [(5, 5), (10, 5)] ∧
      (story ⟨.start .standard none, none⟩ moments).shots.map (·.taken.active.members) =
        [[.movement (.toward .right)], [.movement (.toward .up), .movement (.toward .left)]] := by
  intro moments
  have unmapped : (InputEvent.pointer .down (.whole 700) (.whole 0) (.whole 9)).Unmapped := by
    intro c known
    cases (show Except.ok none = Except.ok (some c) from known)
  have placed (o : Occurrence String) (member : .occur o ∈ moments) (d : Deed String)
      (called : o.Calls d) : d.Placed := by
    simp only [moments, List.mem_cons, Moment.occur.injEq, reduceCtorEq, List.not_mem_nil,
      or_false, false_or] at member
    rcases member with rfl | rfl | rfl | rfl | rfl
    · exact called ▸ Deed.placed_whole (by decide)
    · exact called ▸ Deed.placed_whole (by decide)
    · obtain ⟨event, here, made⟩ := called
      rw [List.mem_singleton.mp here, InputEvent.calls_of_unmapped unmapped] at made
      cases made
    · exact called ▸ Deed.placed_whole (by decide)
    · exact called ▸ Deed.placed_whole (by decide)
  obtain ⟨displaced, _⟩ := motion_telescopes .standard none none moments
    (Number.not_lt_zero_of_sign (x := 0) (by decide) (by decide)) (by simp [moments]) placed
  have places : (story ⟨.start .standard none, none⟩ moments).scenes.map Scene.places =
      [[(5, 5), (10, 5)], [(40, -7), (8, 1)], []] := by decide +kernel
  obtain ⟨first, second, last, scenes⟩ := List.length_eq_three.mp
    (by rw [← List.length_map, places]; rfl :
      (story ⟨.start .standard none, none⟩ moments).scenes.length = 3)
  rw [scenes] at places displaced
  obtain ⟨one, places⟩ := List.cons.inj places
  obtain ⟨two, places⟩ := List.cons.inj places
  refine ⟨first, second, last, scenes, one, two, (List.cons.inj places).1, ?_, ?_,
    by decide +kernel⟩
  · exact displaced [] first [second, last] rfl
  · have here := displaced [first] second [last] rfl
    rwa [List.flatMap_singleton, one] at here

end InputChords
