import Mathlib.Data.List.Basic
import Mathlib.Data.List.Induction
import Mathlib.Data.List.Pairwise
import Mathlib.Data.List.Nodup

/-!
# The first entry with a key

What a history of entries answers when it is asked for the first one with a key, and when two
keys lead to the same answers.
-/
namespace FsArchiver.Lib

universe u v w

variable {Entry : Type u} {Key : Type v} {Name : Type w}

/-- Two keys tell the same entries apart. -/
def SameApart {Key' : Type*} (key : Entry → Key) (key' : Entry → Key') (entry other : Entry) : Prop :=
  key entry = key other ↔ key' entry = key' other

/-- Telling apart does not depend on the order. -/
instance {Key' : Type*} (key : Entry → Key) (key' : Entry → Key') :
    Std.Symm (SameApart key key') where
  symm _ _ same :=
    ⟨fun equal => (same.mp equal.symm).symm, fun equal => (same.mpr equal.symm).symm⟩

variable [DecidableEq Key]

/-- The first entry with a key. -/
def firstWith (key : Entry → Key) (history : List Entry) (wanted : Key) : Option Entry :=
  history.find? fun entry => key entry = wanted

/-- Without a history nothing is found. -/
@[simp] theorem firstWith_nil (key : Entry → Key) (wanted : Key) :
    firstWith key [] wanted = none := rfl

/-- A new entry is found if there was none before. -/
theorem firstWith_concat (key : Entry → Key) (history : List Entry) (entry : Entry) (wanted : Key) :
    firstWith key (history ++ [entry]) wanted =
      (firstWith key history wanted).or (if key entry = wanted then some entry else none) := by
  unfold firstWith
  rw [List.find?_append, List.find?_singleton]
  simp

/-- What was found is still found later. -/
theorem firstWith_append {key : Entry → Key} {history : List Entry} {wanted : Key} {entry : Entry}
    (found : firstWith key history wanted = some entry) (more : List Entry) :
    firstWith key (history ++ more) wanted = some entry := by
  unfold firstWith at found ⊢
  rw [List.find?_append, found, Option.some_or]

/-- What is found is in the history, under its key. -/
theorem firstWith_some {key : Entry → Key} {history : List Entry} {wanted : Key} {entry : Entry}
    (found : firstWith key history wanted = some entry) : entry ∈ history ∧ key entry = wanted :=
  ⟨List.mem_of_find?_eq_some found, by simpa using List.find?_some found⟩

/-- What is not found is not there. -/
theorem firstWith_none {key : Entry → Key} {history : List Entry} {wanted : Key} :
    firstWith key history wanted = none ↔ ∀ entry ∈ history, key entry ≠ wanted := by
  unfold firstWith
  simp

section TwoKeys

variable {Key' : Type*} [DecidableEq Key']

/-- Keys that tell an entry apart from the same ones lead it to the same one. -/
theorem firstWith_congr {key : Entry → Key} {key' : Entry → Key'} {history : List Entry}
    {entry : Entry} (same : ∀ other ∈ history, SameApart key key' other entry) :
    firstWith key history (key entry) = firstWith key' history (key' entry) := by
  induction history with
  | nil => rfl
  | cons first rest ih =>
    have onward := ih fun other member => same other (List.mem_cons_of_mem _ member)
    have here := same first List.mem_cons_self
    unfold firstWith at onward ⊢
    rw [List.find?_cons, List.find?_cons, onward]
    have equal : decide (key first = key entry) = decide (key' first = key' entry) :=
      decide_eq_decide.mpr here
    rw [equal]

/-- Two keys lead every entry of a history to the same earlier one, by its name, if and only if
they tell the same entries apart. -/
theorem firstWith_agree_iff (key : Entry → Key) (key' : Entry → Key') (name : Entry → Name)
    {history : List Entry} (distinct : (history.map name).Nodup) :
    (∀ before entry after, history = before ++ entry :: after →
      (firstWith key before (key entry)).map name = (firstWith key' before (key' entry)).map name) ↔
      history.Pairwise (SameApart key key') := by
  constructor
  · intro agree
    induction history using List.reverseRecOn with
    | nil => exact List.Pairwise.nil
    | append_singleton history entry ih =>
      have earlier : history.Pairwise (SameApart key key') := by
        refine ih ?_ ?_
        · rw [List.map_append, List.nodup_append] at distinct
          exact distinct.1
        · intro before other after split
          exact agree before other (after ++ [entry]) (by rw [split]; simp)
      rw [List.pairwise_append]
      refine ⟨earlier, List.pairwise_singleton _ _, ?_⟩
      intro other member last same
      rw [List.mem_singleton.mp same]
      have found := agree history entry [] rfl
      cases first : firstWith key history (key entry) with
      | none =>
        have first' : firstWith key' history (key' entry) = none := by
          rw [first] at found
          simpa using found.symm
        have apart := firstWith_none.mp first other member
        have apart' := firstWith_none.mp first' other member
        exact ⟨fun equal => absurd equal apart, fun equal => absurd equal apart'⟩
      | some seen =>
        obtain ⟨among, equal⟩ := firstWith_some first
        rw [first] at found
        obtain ⟨seen', first', names⟩ := Option.map_eq_some_iff.mp found.symm
        obtain ⟨among', equal'⟩ := firstWith_some first'
        rw [List.map_append, List.nodup_append] at distinct
        have one : seen' = seen := List.inj_on_of_nodup_map distinct.1 among' among names
        subst one
        unfold SameApart
        rw [← equal, ← equal']
        by_cases own : other = seen'
        · simp [own]
        · exact earlier.forall member among own
  · intro pairwise before entry after split
    rw [split, List.pairwise_append] at pairwise
    rw [firstWith_congr fun other member =>
      pairwise.2.2 other member entry List.mem_cons_self]

end TwoKeys

end FsArchiver.Lib
