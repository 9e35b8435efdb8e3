import Mathlib.Algebra.GroupWithZero.Nat
import Mathlib.Data.List.Basic

/-!
# Little-endian words and positions in a byte sequence

Words are written in base 256, least significant digit first, so their round trip is
positional arithmetic at every width. Reads at a position of a sequence either deliver exactly
the bytes asked for or nothing; the lemmas let a proof follow a reader along the parts that
lie ahead of it.
-/
namespace FsArchiver.Lib

/-- The low `width` base-256 digits of a number, low byte first. -/
def leBytes : Nat → Nat → List UInt8
  | 0, _ => []
  | width + 1, value => UInt8.ofNat value :: leBytes width (value / 256)

/-- The number whose base-256 digits are these bytes, low byte first. -/
def leNat : List UInt8 → Nat
  | [] => 0
  | digit :: rest => digit.toNat + 256 * leNat rest

@[simp] theorem length_leBytes (width value : Nat) : (leBytes width value).length = width := by
  induction width generalizing value with
  | zero => rfl
  | succ width ih => simp [leBytes, ih]

/-- Reading back the digits of a number loses exactly what the width cannot hold. -/
theorem leNat_leBytes (width value : Nat) : leNat (leBytes width value) = value % 256 ^ width := by
  induction width generalizing value with
  | zero => simp [leBytes, leNat, Nat.mod_one]
  | succ width ih =>
    simp only [leBytes, leNat, ih, UInt8.toNat_ofNat']
    calc
      value % 256 + 256 * (value / 256 % 256 ^ width) = value % (256 * 256 ^ width) :=
        Nat.mod_mul.symm
      _ = value % 256 ^ (width + 1) := congrArg (value % ·) Nat.pow_succ'.symm

/-- Digits of a number that fits are read back as the number. -/
theorem leNat_leBytes_of_lt {width value : Nat} (fits : value < 256 ^ width) :
    leNat (leBytes width value) = value := by
  rw [leNat_leBytes, Nat.mod_eq_of_lt fits]

/-- Digits of a 16-bit word are read back as the word. -/
@[simp] theorem leNat_leBytes_uint16 (word : UInt16) : leNat (leBytes 2 word.toNat) = word.toNat :=
  leNat_leBytes_of_lt word.toNat_lt

/-- Digits of a 32-bit word are read back as the word. -/
@[simp] theorem leNat_leBytes_uint32 (word : UInt32) : leNat (leBytes 4 word.toNat) = word.toNat :=
  leNat_leBytes_of_lt word.toNat_lt

/-- Digits of a 64-bit word are read back as the word. -/
@[simp] theorem leNat_leBytes_uint64 (word : UInt64) : leNat (leBytes 8 word.toNat) = word.toNat :=
  leNat_leBytes_of_lt word.toNat_lt

/-- A number is less than the base to the number of its digits. -/
theorem leNat_lt (bytes : List UInt8) : leNat bytes < 256 ^ bytes.length := by
  induction bytes with
  | nil => exact Nat.one_pos
  | cons digit rest ih =>
    have bound := digit.toNat_lt
    rw [leNat, List.length_cons, Nat.pow_succ]
    omega

/-- Bytes of one width with the same value are the same bytes. -/
theorem leNat_injective {left right : List UInt8} (same : left.length = right.length)
    (h : leNat left = leNat right) : left = right := by
  induction left generalizing right with
  | nil =>
    cases right with
    | nil => rfl
    | cons _ _ => simp at same
  | cons l ls ih =>
    cases right with
    | nil => simp at same
    | cons r rs =>
      simp only [leNat] at h
      have hl := l.toNat_lt
      have hr := r.toNat_lt
      have digit : l.toNat = r.toNat := by omega
      have rest : leNat ls = leNat rs := by omega
      rw [UInt8.toNat_inj.mp digit, ih (by simpa using same) rest]

/-- The `size` bytes at a position, or nothing when the sequence ends before them. -/
def readAt (bytes : List UInt8) (pos size : Nat) : Option (List UInt8) :=
  if size ≤ (bytes.drop pos).length then some ((bytes.drop pos).take size) else none

/-- A read delivers what lies at the position. -/
theorem readAt_of_drop {bytes part rest : List UInt8} {pos : Nat}
    (here : bytes.drop pos = part ++ rest) : readAt bytes pos part.length = some part := by
  simp [readAt, here]

/-- A delivered read says what lies at the position. -/
theorem drop_of_readAt {bytes part : List UInt8} {pos size : Nat}
    (h : readAt bytes pos size = some part) :
    part.length = size ∧ bytes.drop pos = part ++ bytes.drop (pos + size) := by
  unfold readAt at h
  split at h
  next inside =>
    cases h
    refine ⟨List.length_take_of_le inside, ?_⟩
    rw [← List.drop_drop, List.take_append_drop]
  next => cases h

/-- Behind a part that lies at a position lies what follows the part. -/
theorem drop_add_of_drop {bytes part rest : List UInt8} {pos : Nat}
    (here : bytes.drop pos = part ++ rest) : bytes.drop (pos + part.length) = rest := by
  rw [← List.drop_drop, here, List.drop_left]

end FsArchiver.Lib
