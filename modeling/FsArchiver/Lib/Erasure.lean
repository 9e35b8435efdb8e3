import FsArchiver.Lib.Trace

/-!
# Programs that do not look at some of their data

A program may carry data along that it does not look at. Then it does the same when this data is
erased, and erasing the data of its value gives the value it has then. Erasures of programs compose
as the programs do.
-/
namespace FsArchiver.Lib.Traced

variable {ε α β γ δ : Type}

/-- The second program leaves the log that the first one leaves, and its value is that of the first
one with something erased. -/
def Erases (erase : α → β) (prog : Traced ε α) (plain : Traced ε β) : Prop :=
  ∀ log, plain.run log = (erase (prog.run log).1, (prog.run log).2)

namespace Erases

variable {erase : α → β} {erase' : γ → δ} {prog : Traced ε α} {plain : Traced ε β}

/-- Nothing is erased of a program that does not carry the data. -/
theorem refl (prog : Traced ε α) : Erases id prog prog := fun _ => rfl

theorem pure (erase : α → β) (value : α) :
    Erases erase (Pure.pure value : Traced ε α) (Pure.pure (erase value)) := fun _ => rfl

theorem bind {next : α → Traced ε γ} {next' : β → Traced ε δ} (first : Erases erase prog plain)
    (second : ∀ value, Erases erase' (next value) (next' (erase value))) :
    Erases erase' (prog >>= next) (plain >>= next') := by
  intro log
  simp only [run_bind]
  rw [first log]
  exact second _ _

/-- Both programs begin with the same calls. -/
theorem andThen {start : Traced ε α} {next : α → Traced ε γ} {next' : α → Traced ε δ}
    (second : ∀ value, Erases erase' (next value) (next' value)) :
    Erases erase' (start >>= next) (start >>= next') :=
  (refl start).bind second

theorem ite {condition : Prop} [Decidable condition] {other : Traced ε α} {plain' : Traced ε β}
    (yes : condition → Erases erase prog plain) (no : ¬condition → Erases erase other plain') :
    Erases erase (if condition then prog else other) (if condition then plain else plain') := by
  by_cases holds : condition
  · rw [if_pos holds, if_pos holds]
    exact yes holds
  · rw [if_neg holds, if_neg holds]
    exact no holds

end Erases

end FsArchiver.Lib.Traced
