import Mathlib.Data.List.Induction

/-!
# Places in a tree of directories

Where a path leads is found from its components alone: a name leads down, and the component for
the parent leads up, which is nowhere else at the root. Moves that never lead above their start
can be made from any place, and end below it.
-/
namespace FsArchiver.Lib

/-- What a component of a path asks for. -/
inductive Move (ν : Type) where
  | stay
  | up
  | down (name : ν)

/-- A place: so many levels above where the path starts, and some names below. -/
structure Place (ν : Type) where
  ups : Nat
  names : List ν
  deriving DecidableEq

namespace Place

variable {ν : Type}

/-- Where a path starts. -/
def start : Place ν := ⟨0, []⟩

/-- Where a component leads; nothing is above the root. -/
def move (rooted : Bool) (place : Place ν) : Move ν → Place ν
  | .stay => place
  | .down name => { place with names := place.names ++ [name] }
  | .up =>
    match place.names with
    | [] => if rooted then place else { place with ups := place.ups + 1 }
    | _ => { place with names := place.names.dropLast }

/-- Where the components of a path lead. -/
def walk (rooted : Bool) (place : Place ν) (moves : List (Move ν)) : Place ν :=
  moves.foldl (move rooted) place

/-- A place is another one or below it. -/
def Below (inner outer : Place ν) : Prop :=
  inner.ups = outer.ups ∧ outer.names <+: inner.names

/-- On their way the moves lead above their start. -/
def Climbs (moves : List (Move ν)) : Prop := 0 < (walk false start moves).ups

instance (moves : List (Move ν)) : Decidable (Climbs moves) :=
  inferInstanceAs (Decidable (0 < _))

instance [DecidableEq ν] (inner outer : Place ν) : Decidable (Below inner outer) :=
  inferInstanceAs (Decidable (_ ∧ _))

variable {rooted : Bool} {place : Place ν} {moves : List (Move ν)} {name : ν}

@[simp] theorem walk_nil : walk rooted place [] = place := rfl

@[simp] theorem walk_cons (first : Move ν) :
    walk rooted place (first :: moves) = walk rooted (move rooted place first) moves := rfl

theorem walk_append (more : List (Move ν)) :
    walk rooted place (moves ++ more) = walk rooted (walk rooted place moves) more :=
  List.foldl_append

@[simp] theorem move_stay : move rooted place .stay = place := rfl

theorem ups_le_move (first : Move ν) : place.ups ≤ (move rooted place first).ups := by
  cases first with
  | stay => exact Nat.le_refl _
  | down name => exact Nat.le_refl _
  | up =>
    unfold move
    dsimp only
    split
    · split
      · exact Nat.le_refl _
      · exact Nat.le_succ _
    · exact Nat.le_refl _

/-- No move leads back to a level above the start. -/
theorem ups_le_walk : place.ups ≤ (walk rooted place moves).ups := by
  induction moves generalizing place with
  | nil => exact Nat.le_refl _
  | cons first moves ih => exact Nat.le_trans (ups_le_move first) ih

/-- Moves that climb go on climbing. -/
theorem Climbs.append (climbs : Climbs moves) (more : List (Move ν)) : Climbs (moves ++ more) := by
  unfold Climbs at climbs ⊢
  rw [walk_append]
  exact Nat.lt_of_lt_of_le climbs ups_le_walk

/-- Moves up from a name below. -/
theorem move_up {ups : Nat} {names : List ν} (below : names ≠ []) :
    move rooted ⟨ups, names⟩ .up = ⟨ups, names.dropLast⟩ := by
  cases names with
  | nil => exact absurd rfl below
  | cons first names => rfl

/-- Moves that do not climb lead down from any place as they do from the start. -/
theorem walk_of_not_climbs (level : ¬Climbs moves) :
    walk rooted place moves =
      { place with names := place.names ++ (walk false start moves).names } := by
  induction moves using List.reverseRecOn with
  | nil => simp [start]
  | append_singleton front last ih =>
    have levelFront : ¬Climbs front := fun climbs => level (climbs.append [last])
    have zero : (walk false start front).ups = 0 := Nat.eq_zero_of_not_pos levelFront
    rw [Climbs, walk_append] at level
    rw [walk_append, walk_append, ih levelFront]
    generalize walk false start front = reached at zero level
    obtain ⟨ups, names⟩ := reached
    cases zero
    cases last with
    | stay => rfl
    | down name => simp [move]
    | up =>
      by_cases none : names = []
      · subst none
        exact absurd Nat.one_pos level
      · have below : place.names ++ names ≠ [] := List.append_ne_nil_of_right_ne_nil _ none
        simp only [walk_cons, walk_nil, move_up none, move_up below,
          List.dropLast_append_of_ne_nil none]

/-- So they end below the place where they start. -/
theorem below_of_not_climbs (level : ¬Climbs moves) : Below (walk rooted place moves) place := by
  rw [walk_of_not_climbs level]
  exact ⟨rfl, List.prefix_append _ _⟩

/-- From a place whose name they do not know, moves that climb lead away for good. -/
theorem not_mem_of_climbs (unknown : Move.down name ∉ moves) (climbs : Climbs moves) :
    name ∉ (walk true ⟨0, [name]⟩ moves).names := by
  induction moves using List.reverseRecOn with
  | nil => exact absurd climbs (Nat.lt_irrefl 0)
  | append_singleton front last ih =>
    obtain ⟨unknown, other⟩ : Move.down name ∉ front ∧ Move.down name ≠ last := by
      simpa using unknown
    rw [walk_append]
    by_cases before : Climbs front
    · have away := ih unknown before
      generalize walk true ⟨0, [name]⟩ front = reached at away
      obtain ⟨ups, names⟩ := reached
      cases last with
      | stay => exact away
      | down name' =>
        have apart : name ≠ name' := fun same => other (congrArg Move.down same)
        simpa [move, apart] using away
      | up =>
        cases names with
        | nil => exact away
        | cons first names => exact fun member => away ((List.dropLast_subset _) member)
    · -- the last move is the one that leads above the start
      have zero : (walk false start front).ups = 0 := Nat.eq_zero_of_not_pos before
      rw [walk_of_not_climbs before]
      rw [Climbs, walk_append] at climbs
      generalize walk false start front = reached at zero climbs
      obtain ⟨ups, names⟩ := reached
      cases zero
      cases last with
      | stay => exact absurd climbs (Nat.lt_irrefl 0)
      | down name' => exact absurd climbs (Nat.lt_irrefl 0)
      | up =>
        cases names with
        | nil => simp [move]
        | cons first names => exact absurd climbs (Nat.lt_irrefl 0)

/-- They do not end below it. -/
theorem not_below_of_climbs (unknown : Move.down name ∉ moves) (climbs : Climbs moves) :
    ¬Below (walk true ⟨0, [name]⟩ moves) ⟨0, [name]⟩ := by
  intro below
  exact not_mem_of_climbs unknown climbs (below.2.subset List.mem_cons_self)

end Place

end FsArchiver.Lib
