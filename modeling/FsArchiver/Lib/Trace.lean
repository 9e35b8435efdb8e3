import Mathlib.Data.List.Basic

/-!
# Programs that write a log

A program reads the log of what was done so far, gives a value and a log. Two judgements are
enough to reason about programs that only ever add to their log: which entries a program may
add, whatever it finds, and which value and entries it gives from one log.
-/
namespace FsArchiver.Lib

/-- A program with a log of entries. -/
structure Traced (ε α : Type) where
  /-- What it does with the log so far. -/
  run : List ε → α × List ε

namespace Traced

variable {ε α β : Type}

instance : Monad (Traced ε) where
  pure value := ⟨fun log => (value, log)⟩
  bind prog next := ⟨fun log => (next (prog.run log).1).run (prog.run log).2⟩

@[simp] theorem run_pure (value : α) (log : List ε) :
    (pure value : Traced ε α).run log = (value, log) := rfl

@[simp] theorem run_bind (prog : Traced ε α) (next : α → Traced ε β) (log : List ε) :
    (prog >>= next).run log = (next (prog.run log).1).run (prog.run log).2 := rfl

/-- Every run only adds entries, all of them allowed, and gives a value as announced. -/
def Adds (allowed : ε → Prop) (post : α → Prop) (prog : Traced ε α) : Prop :=
  ∀ log, ∃ made, (prog.run log).2 = log ++ made ∧ (∀ entry ∈ made, allowed entry) ∧ post (prog.run log).1

/-- From this log the program gives this value and adds these entries. -/
def Gives (prog : Traced ε α) (log : List ε) (value : α) (made : List ε) : Prop :=
  prog.run log = (value, log ++ made)

namespace Adds

variable {allowed : ε → Prop} {post : α → Prop} {post' : β → Prop}

theorem pure {value : α} (holds : post value) :
    Adds allowed post (Pure.pure value : Traced ε α) :=
  fun log => ⟨[], (List.append_nil log).symm, by simp, holds⟩

theorem bind {prog : Traced ε α} {next : α → Traced ε β} (first : Adds allowed post prog)
    (second : ∀ value, post value → Adds allowed post' (next value)) :
    Adds allowed post' (prog >>= next) := by
  intro log
  obtain ⟨made, added, allowedMade, holds⟩ := first log
  obtain ⟨made', added', allowedMade', holds'⟩ := second (prog.run log).1 holds (prog.run log).2
  refine ⟨made ++ made', ?_, ?_, holds'⟩
  · exact added'.trans (by rw [added, List.append_assoc])
  · intro entry member
    exact (List.mem_append.mp member).elim (allowedMade entry) (allowedMade' entry)

/-- As above, with what is known of the value in between. -/
theorem andThen (post : α → Prop) {prog : Traced ε α} {next : α → Traced ε β}
    (first : Adds allowed post prog) (second : ∀ value, post value → Adds allowed post' (next value)) :
    Adds allowed post' (prog >>= next) :=
  first.bind second

theorem ite {condition : Prop} [Decidable condition] {prog other : Traced ε α}
    (yes : condition → Adds allowed post prog) (no : ¬condition → Adds allowed post other) :
    Adds allowed post (if condition then prog else other) := by
  by_cases holds : condition
  · rw [if_pos holds]
    exact yes holds
  · rw [if_neg holds]
    exact no holds

theorem mono {wider : ε → Prop} {weaker : α → Prop} {prog : Traced ε α}
    (adds : Adds allowed post prog) (widens : ∀ entry, allowed entry → wider entry)
    (weakens : ∀ value, post value → weaker value) : Adds wider weaker prog := by
  intro log
  obtain ⟨made, added, allowedMade, holds⟩ := adds log
  exact ⟨made, added, fun entry member => widens entry (allowedMade entry member),
    weakens _ holds⟩

/-- What a run gives, for an arbitrary log. -/
theorem gives {prog : Traced ε α} (adds : Adds allowed post prog) (log : List ε) :
    ∃ value made, Gives prog log value made ∧ (∀ entry ∈ made, allowed entry) ∧ post value := by
  obtain ⟨made, added, allowedMade, holds⟩ := adds log
  exact ⟨(prog.run log).1, made, Prod.ext rfl added, allowedMade, holds⟩

/-- What is known of a run whose outcome is known. -/
theorem of_gives {prog : Traced ε α} {log made : List ε} {value : α}
    (adds : Adds allowed post prog) (gives : Gives prog log value made) :
    (∀ entry ∈ made, allowed entry) ∧ post value := by
  obtain ⟨made', added, allowedMade, holds⟩ := adds log
  rw [show prog.run log = (value, log ++ made) from gives] at added holds
  rw [List.append_cancel_left added]
  exact ⟨allowedMade, holds⟩

end Adds

/-! ## Selected entries -/

/-- Every run only adds entries, and those of a kind are exactly these, up to what is not looked
at. -/
def Picks (pick : ε → Option β) (picked : List β) (prog : Traced ε α) : Prop :=
  ∀ log, ∃ made, (prog.run log).2 = log ++ made ∧ made.filterMap pick = picked

namespace Picks

variable {γ : Type} {pick : ε → Option γ} {picked picked' : List γ}

theorem bind {prog : Traced ε α} {next : α → Traced ε β} (first : Picks pick picked prog)
    (second : ∀ value, Picks pick picked' (next value)) :
    Picks pick (picked ++ picked') (prog >>= next) := by
  intro log
  obtain ⟨made, added, filtered⟩ := first log
  obtain ⟨made', added', filtered'⟩ := second (prog.run log).1 (prog.run log).2
  refine ⟨made ++ made', ?_, ?_⟩
  · exact added'.trans (by rw [added, List.append_assoc])
  · rw [List.filterMap_append, filtered, filtered']

/-- A program that adds no entry of the kind. -/
theorem of_adds {post : α → Prop} {prog : Traced ε α}
    (adds : Adds (fun entry => pick entry = none) post prog) : Picks pick [] prog := by
  intro log
  obtain ⟨made, added, apart, -⟩ := adds log
  exact ⟨made, added, List.filterMap_eq_nil_iff.mpr apart⟩

/-- What is picked of a program is determined by one run. -/
theorem unique {prog : Traced ε α} (first : Picks pick picked prog)
    (second : Picks pick picked' prog) : picked = picked' := by
  obtain ⟨made, added, filtered⟩ := first []
  obtain ⟨made', added', filtered'⟩ := second []
  rw [added] at added'
  rw [← filtered, ← filtered', List.append_cancel_left added']

end Picks

/-! ## Conditions on the log -/

/-- From a log with the first condition the program gives a value and a log with the second. -/
def Ensures (pre : List ε → Prop) (prog : Traced ε α) (post : α → List ε → Prop) : Prop :=
  ∀ log, pre log → post (prog.run log).1 (prog.run log).2

namespace Ensures

variable {pre : List ε → Prop} {post : α → List ε → Prop} {post' : β → List ε → Prop}

theorem pure {value : α} (holds : ∀ log, pre log → post value log) :
    Ensures pre (Pure.pure value : Traced ε α) post := holds

theorem bind {prog : Traced ε α} {next : α → Traced ε β} (first : Ensures pre prog post)
    (second : ∀ value, Ensures (post value) (next value) post') :
    Ensures pre (prog >>= next) post' :=
  fun log holds => second _ _ (first log holds)

theorem ite {condition : Prop} [Decidable condition] {prog other : Traced ε α}
    (yes : condition → Ensures pre prog post) (no : ¬condition → Ensures pre other post) :
    Ensures pre (if condition then prog else other) post := by
  by_cases holds : condition
  · rw [if_pos holds]
    exact yes holds
  · rw [if_neg holds]
    exact no holds

theorem mono {weaker : α → List ε → Prop} {prog : Traced ε α} (ensures : Ensures pre prog post)
    (weakens : ∀ value log, post value log → weaker value log) : Ensures pre prog weaker :=
  fun log holds => weakens _ _ (ensures log holds)

end Ensures

namespace Gives

theorem pure (value : α) (log : List ε) : Gives (Pure.pure value : Traced ε α) log value [] := by
  unfold Gives
  rw [List.append_nil]
  rfl

theorem bind {prog : Traced ε α} {next : α → Traced ε β} {log made made' : List ε} {value : α}
    {value' : β} (first : Gives prog log value made)
    (second : Gives (next value) (log ++ made) value' made') :
    Gives (prog >>= next) log value' (made ++ made') := by
  unfold Gives at first second ⊢
  rw [run_bind, first, second, List.append_assoc]

end Gives

end Traced

end FsArchiver.Lib
