import Mathlib.Data.List.Basic

/-!
# Masks of flags

Words as sets of bits: when two masks have a bit in common, and how this follows the union of masks
and the removal of masks from a word.
-/
namespace FsArchiver.Lib

/-- Two masks have a bit in common. -/
def Meets (word mask : UInt64) : Prop := word &&& mask ≠ 0

instance (word mask : UInt64) : Decidable (Meets word mask) :=
  inferInstanceAs (Decidable (word &&& mask ≠ 0))

/-- The union of masks. -/
def union (masks : List UInt64) : UInt64 := masks.foldr (· ||| ·) 0

/-- A word without the bits of masks, which are removed one mask after the other. -/
def without (word : UInt64) (masks : List UInt64) : UInt64 :=
  masks.foldl (fun word mask => word &&& ~~~mask) word

section Masks

variable {word other mask : UInt64} {masks : List UInt64}

theorem meets_comm : Meets word mask ↔ Meets mask word := by
  unfold Meets
  rw [UInt64.and_comm]

theorem not_meets_zero : ¬Meets 0 mask := by
  unfold Meets
  rw [UInt64.zero_and]
  exact fun differ => differ rfl

/-- A union meets what one of its parts meets. -/
theorem meets_or : Meets (word ||| other) mask ↔ Meets word mask ∨ Meets other mask := by
  have parts : (word ||| other) &&& mask = word &&& mask ||| other &&& mask := by
    apply UInt64.toBitVec_inj.mp
    ext i
    simp only [UInt64.toBitVec_and, UInt64.toBitVec_or, BitVec.getElem_and, BitVec.getElem_or,
      Bool.and_or_distrib_right]
  unfold Meets
  rw [parts, Ne, UInt64.or_eq_zero_iff, not_and_or]

theorem meets_union : Meets (union masks) mask ↔ ∃ part ∈ masks, Meets part mask := by
  induction masks with
  | nil =>
    constructor
    · exact fun meets => absurd meets not_meets_zero
    · rintro ⟨part, absent, _⟩
      exact absurd absent List.not_mem_nil
  | cons part masks ih =>
    have step : Meets (union (part :: masks)) mask ↔ Meets part mask ∨ Meets (union masks) mask :=
      meets_or
    rw [step, ih, List.exists_mem_cons_iff]

/-- A removed mask is not met. -/
theorem not_meets_and_not : ¬Meets (word &&& ~~~mask) mask := by
  unfold Meets
  rw [UInt64.and_assoc, UInt64.not_and_self, UInt64.and_zero]
  exact fun differ => differ rfl

/-- Removing bits makes no mask met. -/
theorem meets_of_and (meets : Meets (word &&& other) mask) : Meets word mask := by
  unfold Meets at meets ⊢
  intro none
  rw [UInt64.and_assoc, UInt64.and_comm other, ← UInt64.and_assoc, none, UInt64.zero_and] at meets
  exact meets rfl

/-- What meets a part of a mask meets the mask. -/
theorem meets_of_part (part : other &&& mask = mask) (meets : Meets word mask) :
    Meets word other := by
  unfold Meets at meets
  rw [← part, ← UInt64.and_assoc] at meets
  intro none
  rw [none, UInt64.zero_and] at meets
  exact meets rfl

/-- Removing a mask leaves the masks that have no bit in common with it. -/
theorem meets_and_not (apart : ¬Meets other mask) :
    Meets (word &&& ~~~other) mask ↔ Meets word mask := by
  have same : word &&& ~~~other &&& mask = word &&& mask := by
    have none : other &&& mask = 0 := not_not.mp apart
    apply UInt64.toBitVec_inj.mp
    ext i inside
    have bit := congrArg (fun word : UInt64 => word.toBitVec[i]) none
    simp only [UInt64.toBitVec_and, UInt64.toBitVec_not, BitVec.getElem_and, BitVec.getElem_not]
      at bit ⊢
    cases set : mask.toBitVec[i] with
    | false => rw [Bool.and_false, Bool.and_false]
    | true =>
      rw [set, Bool.and_true] at bit
      have clear : other.toBitVec[i] = false := by simpa using bit
      rw [clear, Bool.not_false, Bool.and_true]
  unfold Meets
  rw [same]

/-- None of the removed masks is met. -/
theorem not_meets_without (removed : mask ∈ masks) : ¬Meets (without word masks) mask := by
  have kept : ∀ (rest : List UInt64) (word : UInt64), ¬Meets word mask →
      ¬Meets (without word rest) mask := by
    intro rest
    induction rest with
    | nil => exact fun _ absent => absent
    | cons other rest ih =>
      exact fun word absent => ih (word &&& ~~~other) fun meets => absent (meets_of_and meets)
  induction masks generalizing word with
  | nil => exact absurd removed List.not_mem_nil
  | cons other masks ih =>
    rcases List.mem_cons.mp removed with rfl | later
    · exact kept masks (word &&& ~~~mask) not_meets_and_not
    · exact ih later

/-- A mask that has no bit in common with the removed ones is met as before. -/
theorem meets_without (apart : ∀ other ∈ masks, ¬Meets other mask) :
    Meets (without word masks) mask ↔ Meets word mask := by
  induction masks generalizing word with
  | nil => rfl
  | cons other masks ih =>
    have rest : Meets (without (word &&& ~~~other) masks) mask ↔ Meets (word &&& ~~~other) mask :=
      ih fun removed member => apart removed (List.mem_cons_of_mem _ member)
    have first : Meets (word &&& ~~~other) mask ↔ Meets word mask :=
      meets_and_not (apart other List.mem_cons_self)
    exact rest.trans first

end Masks

end FsArchiver.Lib
