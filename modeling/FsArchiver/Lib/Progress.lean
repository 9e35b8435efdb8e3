import Mathlib.Algebra.BigOperators.Group.List.Basic
import FsArchiver.Lib.Transition

/-!
# Systems that come to rest

A potential is a number that every step lowers if it changes anything, but for setbacks, which gain
a bounded amount. A run can change the state only so often as its start and its setbacks pay for, so
a run that goes on must at last stay where it is; and where nothing can change any more is for the
system to say.
-/
namespace FsArchiver.Lib

variable {σ ℓ : Type*} {step : σ → ℓ → σ → Prop}

/-- No step with such a label changes the state. -/
def AtRest (step : σ → ℓ → σ → Prop) (allowed : ℓ → Prop) (s : σ) : Prop :=
  ∀ label t, allowed label → step s label t → t = s

namespace Trace

open Classical in
/-- How many steps of a run change the state. -/
noncomputable def changes : σ → List (ℓ × σ) → ℕ
  | _, [] => 0
  | start, (_, next) :: rest => (if next = start then 0 else 1) + changes next rest

/-- The changes of a run are paid for by the potential at its start and by its setbacks. -/
theorem changes_le {inv : σ → Prop} (potential : σ → ℕ) (gain : ℓ → ℕ)
    (preserved : ∀ s label t, inv s → step s label t → inv t)
    (lowers : ∀ s label t, inv s → step s label t → t ≠ s →
      potential t + 1 ≤ potential s + gain label)
    {start : σ} {trace : List (ℓ × σ)} (run : Trace step start trace) (initial : inv start) :
    changes start trace + potential (last start trace) ≤
      potential start + ((labels trace).map gain).sum := by
  induction run with
  | nil s => simp [changes, labels]
  | @cons s t label rest first tail ih =>
    have onward := ih (preserved s label t initial first)
    simp only [labels, List.map_cons, List.sum_cons, changes, last_cons] at onward ⊢
    by_cases same : t = s
    · rw [if_pos same]
      rw [same] at onward ⊢
      omega
    · have lower := lowers s label t initial first same
      rw [if_neg same]
      omega

end Trace

end FsArchiver.Lib
