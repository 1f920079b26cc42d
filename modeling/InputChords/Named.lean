/-! Lists of named things in the order in which the names came up. -/

namespace InputChords

abbrev Named (κ β : Type) := List (κ × β)

namespace Named

variable {κ β : Type}

def names (xs : Named κ β) : List κ := xs.map (·.1)

variable [DecidableEq κ]

def get? (xs : Named κ β) (name : κ) : Option β := xs.lookup name

/-- A name that is there already keeps its place. -/
def put (name : κ) (value : β) : Named κ β → Named κ β
  | [] => [(name, value)]
  | (other, old) :: rest =>
    if other = name then (name, value) :: rest else (other, old) :: put name value rest

def erase (xs : Named κ β) (name : κ) : Named κ β := xs.filter fun entry => entry.1 != name

/-- Of several things of one name the last one stays, at the place of the first. -/
def ofList (entries : List (κ × β)) : Named κ β :=
  entries.foldl (fun xs entry => put entry.1 entry.2 xs) []

theorem get?_cons (key : κ) (value : β) (rest : Named κ β) (name : κ) :
    get? ((key, value) :: rest) name = if name = key then some value else get? rest name := by
  by_cases h : name = key
  · subst h
    simp [get?]
  · have different : (name == key) = false := by simp [h]
    simp [get?, List.lookup_cons, different, h]

theorem get?_put (name : κ) (value : β) (xs : Named κ β) (other : κ) :
    get? (put name value xs) other = if other = name then some value else get? xs other := by
  induction xs with
  | nil => simp [put, get?_cons]
  | cons entry rest ih =>
    obtain ⟨key, old⟩ := entry
    by_cases hk : key = name
    · subst hk
      by_cases h : other = key <;> simp [put, get?_cons, h]
    · simp only [put, hk, if_false, get?_cons, ih]
      by_cases h : other = key
      · subst h
        simp [hk]
      · simp [h]

theorem names_put (name : κ) (value : β) (xs : Named κ β) :
    names (put name value xs) = if name ∈ names xs then names xs else names xs ++ [name] := by
  induction xs with
  | nil => simp [put, names]
  | cons entry rest ih =>
    obtain ⟨key, old⟩ := entry
    simp only [names] at ih ⊢
    by_cases hk : key = name
    · simp [put, hk]
    · have different : ¬ name = key := fun h => hk h.symm
      simp only [put, hk, if_false, List.map_cons, ih, List.mem_cons, different, false_or]
      by_cases known : name ∈ rest.map (·.1) <;>
        simp only [known, if_true, if_false, List.cons_append]

theorem nodup_names_put (name : κ) (value : β) {xs : Named κ β} (distinct : (names xs).Nodup) :
    (names (put name value xs)).Nodup := by
  rw [names_put]
  split
  · exact distinct
  · next fresh =>
    rw [List.nodup_append]
    refine ⟨distinct, List.pairwise_singleton _ _, fun a known b last same => fresh ?_⟩
    rwa [← List.mem_singleton.mp last, ← same]

theorem put_of_fresh {name : κ} {xs : Named κ β} (value : β) (fresh : name ∉ names xs) :
    put name value xs = xs ++ [(name, value)] := by
  induction xs with
  | nil => rfl
  | cons entry rest ih =>
    rw [names, List.map_cons, List.mem_cons, not_or] at fresh
    rw [put, if_neg (fun same => fresh.1 same.symm), ih fresh.2]
    rfl

omit [DecidableEq κ] in
theorem fresh_of_nodup {done rest : Named κ β} {entry : κ × β}
    (distinct : (names (done ++ entry :: rest)).Nodup) : entry.1 ∉ names done := by
  rw [names, List.map_append, List.map_cons, List.nodup_append] at distinct
  intro found
  exact distinct.2.2 entry.1 found entry.1 List.mem_cons_self rfl

theorem get?_erase (xs : Named κ β) (name other : κ) :
    get? (erase xs name) other = if other = name then none else get? xs other := by
  induction xs with
  | nil => simp [erase, get?]
  | cons entry rest ih =>
    obtain ⟨key, value⟩ := entry
    simp only [erase] at ih ⊢
    by_cases hk : key = name
    · subst hk
      have gone : ((key, value) :: rest).filter (fun entry => entry.1 != key)
          = rest.filter fun entry => entry.1 != key := by simp
      rw [gone, ih, get?_cons]
      split <;> rfl
    · by_cases h : other = key
      · subst h
        simp [get?_cons, hk]
      · simp [get?_cons, hk, h, ih]

theorem get?_eq_some_iff {xs : Named κ β} (distinct : (names xs).Nodup) (name : κ) (value : β) :
    get? xs name = some value ↔ (name, value) ∈ xs := by
  induction xs with
  | nil => simp [get?]
  | cons entry rest ih =>
    obtain ⟨key, old⟩ := entry
    rw [names, List.map_cons, List.nodup_cons] at distinct
    rw [get?_cons, List.mem_cons, Prod.mk.injEq]
    split
    · next here =>
      subst here
      have absent : (name, value) ∉ rest := fun member =>
        distinct.1 (List.mem_map.mpr ⟨_, member, rfl⟩)
      simp [absent, eq_comm]
    · next other => simp [other, ih distinct.2]

end Named

end InputChords
