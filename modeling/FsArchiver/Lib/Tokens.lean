import Mathlib.Data.List.TakeWhile

/-!
# Tokens of a text

The pieces of a list between separators, without the empty ones, and what stands behind a mark in a
list of tokens. Pieces of a concatenation are the pieces of its parts, as long as a separator stands
between them.
-/
namespace FsArchiver.Lib

variable {α : Type} {p : α → Bool}

/-! ## Pieces between separators -/

/-- The pieces that are not empty. -/
def tokens (p : α → Bool) (s : List α) : List (List α) := (s.splitOnP p).filter fun t => !t.isEmpty

theorem mem_tokens {s t : List α} : t ∈ tokens p s ↔ t ∈ s.splitOnP p ∧ t ≠ [] := by
  rw [tokens, List.mem_filter, Bool.not_eq_true', List.isEmpty_eq_false_iff]

@[simp] theorem tokens_nil : tokens p [] = [] := rfl

/-- A separator ends a piece. -/
theorem tokens_append_cons (front rest : List α) {sep : α} (cuts : p sep = true) :
    tokens p (front ++ sep :: rest) = tokens p front ++ tokens p rest := by
  unfold tokens
  rw [List.splitOnP_append_cons front rest cuts, List.filter_append]

/-- A separator in front is skipped. -/
theorem tokens_cons {sep : α} (cuts : p sep = true) (rest : List α) :
    tokens p (sep :: rest) = tokens p rest :=
  tokens_append_cons [] rest cuts

/-- Without separators there is one piece. -/
theorem tokens_of_free {s : List α} (free : ∀ a ∈ s, p a = false) (nonempty : s ≠ []) :
    tokens p s = [s] := by
  unfold tokens
  rw [List.splitOnP_eq_singleton free]
  apply List.filter_cons_of_pos
  rw [Bool.not_eq_true', List.isEmpty_eq_false_iff]
  exact nonempty

/-- Pieces have no separators. -/
theorem free_of_mem_splitOnP {s t : List α} (member : t ∈ s.splitOnP p) : ∀ a ∈ t, p a = false := by
  induction s generalizing t with
  | nil =>
    rw [List.splitOnP_nil, List.mem_singleton] at member
    rw [member]
    intro a absent
    exact absurd absent List.not_mem_nil
  | cons b s ih =>
    rw [List.splitOnP_cons_eq_if_modifyHead] at member
    split at member
    · rcases List.mem_cons.mp member with rfl | member
      · intro a absent
        exact absurd absent List.not_mem_nil
      · exact ih member
    · rename_i plain
      cases pieces : s.splitOnP p with
      | nil => exact absurd pieces (List.splitOnP_ne_nil p s)
      | cons first others =>
        rw [pieces] at member ih
        rcases List.mem_cons.mp member with rfl | member
        · intro a among
          rcases List.mem_cons.mp among with rfl | among
          · exact Bool.eq_false_iff.mpr plain
          · exact ih List.mem_cons_self a among
        · exact ih (List.mem_cons_of_mem first member)

theorem free_of_mem_tokens {s t : List α} (member : t ∈ tokens p s) : ∀ a ∈ t, p a = false :=
  free_of_mem_splitOnP (mem_tokens.mp member).1

/-- Fields with a separator between them are cut one by one. -/
theorem tokens_intercalate {sep : α} (cuts : p sep = true) (fields : List (List α)) :
    tokens p ([sep].intercalate fields) = fields.flatMap (tokens p) := by
  induction fields with
  | nil => rfl
  | cons field fields ih =>
    cases fields with
    | nil => simp [List.intercalate]
    | cons next fields =>
      rw [List.flatMap_cons, ← ih, ← tokens_append_cons _ _ cuts]
      simp [List.intercalate]

/-- What stands in fields with something between them. -/
theorem mem_intercalate {sep : List α} {fields : List (List α)} {a : α}
    (member : a ∈ sep.intercalate fields) : a ∈ sep ∨ ∃ field ∈ fields, a ∈ field := by
  induction fields with
  | nil => exact absurd member List.not_mem_nil
  | cons field fields ih =>
    cases fields with
    | nil =>
      rw [List.intercalate_singleton] at member
      exact .inr ⟨field, List.mem_cons_self, member⟩
    | cons next fields =>
      rw [List.intercalate_cons_cons, List.mem_append, List.mem_append] at member
      rcases member with (own | between) | later
      · exact .inr ⟨field, List.mem_cons_self, own⟩
      · exact .inl between
      · rcases ih later with between | ⟨other, among, own⟩
        · exact .inl between
        · exact .inr ⟨other, List.mem_cons_of_mem field among, own⟩

/-! ## Places behind a mark -/

variable [DecidableEq α] {mark : α}

/-- What stands so many places further, counted from 1, with no mark up to there. -/
def nth (mark : α) (n : Nat) (ts : List α) : Option α :=
  if mark ∈ ts.take n then none else ts[n - 1]?

/-- What stands so many places behind a mark, with no other mark in between or there, for all
marks in order. -/
def behind (mark : α) (n : Nat) : List α → List α
  | [] => []
  | t :: ts => (if t = mark then (nth mark n ts).toList else []) ++ behind mark n ts

/-- Nothing is counted over a mark. -/
theorem nth_cons_mark {n : Nat} (positive : 0 < n) (ts : List α) : nth mark n (mark :: ts) = none := by
  obtain ⟨m, rfl⟩ := Nat.exists_eq_succ_of_ne_zero (Nat.ne_of_gt positive)
  exact if_pos (by rw [List.take_succ_cons]; exact List.mem_cons_self)

theorem nth_one {t : α} (plain : t ≠ mark) (ts : List α) : nth mark 1 (t :: ts) = some t := by
  have apart : mark ∉ (t :: ts).take 1 := by
    rw [List.take_succ_cons, List.take_zero, List.mem_singleton]
    exact plain.symm
  exact if_neg apart

theorem nth_succ_succ {t : α} (plain : t ≠ mark) (n : Nat) (ts : List α) :
    nth mark (n + 2) (t :: ts) = nth mark (n + 1) ts := by
  unfold nth
  simp only [List.take_succ_cons, List.mem_cons, plain.symm, false_or]
  rfl

theorem mem_of_nth {n : Nat} (positive : 0 < n) {ts : List α} {t : α} (found : nth mark n ts = some t) :
    t ∈ ts ∧ t ≠ mark := by
  unfold nth at found
  split at found
  · cases found
  · rename_i apart
    have last : (ts.take n)[n - 1]? = some t := by
      rw [List.getElem?_take_of_lt (by omega)]
      exact found
    have member := List.mem_of_getElem? last
    exact ⟨List.mem_of_mem_take member, fun same => apart (same ▸ member)⟩

/-- What stands behind a mark is in the list, and no mark. -/
theorem mem_of_mem_behind {n : Nat} (positive : 0 < n) {ts : List α} {t : α}
    (member : t ∈ behind mark n ts) : t ∈ ts ∧ t ≠ mark := by
  induction ts with
  | nil => exact absurd member List.not_mem_nil
  | cons first ts ih =>
    rw [behind, List.mem_append] at member
    rcases member with head | later
    · split at head
      · have found := mem_of_nth positive (Option.mem_toList.mp head)
        exact ⟨List.mem_cons_of_mem first found.1, found.2⟩
      · exact absurd head List.not_mem_nil
    · have found := ih later
      exact ⟨List.mem_cons_of_mem first found.1, found.2⟩

/-- What comes in front is found in front. -/
theorem behind_append (n : Nat) (front ts : List α) :
    ∃ found, behind mark n (front ++ ts) = found ++ behind mark n ts := by
  induction front with
  | nil => exact ⟨[], rfl⟩
  | cons t front ih =>
    obtain ⟨found, rest⟩ := ih
    refine ⟨(if t = mark then (nth mark n (front ++ ts)).toList else []) ++ found, ?_⟩
    rw [List.cons_append, behind, rest, List.append_assoc]

end FsArchiver.Lib
