import Mathlib.Logic.Function.Basic

/-!
# A buffer in memory

The bytes from the start of a buffer on, whether they belong to it or lie behind it, and the
places that were written. A program that is given the size of its buffer keeps inside it if no
place from that size on was written.
-/
namespace FsArchiver.Lib

/-- The memory from the start of a buffer on. -/
structure Memory where
  /-- The byte at a place. -/
  cell : Nat → UInt8
  /-- The places that were written. -/
  written : List Nat

namespace Memory

variable {memory : Memory} {place size : Nat} {bytes : List UInt8}

/-- Bytes put in a row. -/
def write (memory : Memory) (place : Nat) : List UInt8 → Memory
  | [] => memory
  | byte :: rest =>
    write ⟨Function.update memory.cell place byte, memory.written ++ [place]⟩ (place + 1) rest

/-- `strnlen`. -/
def strnlen (memory : Memory) (place : Nat) : Nat → Nat
  | 0 => 0
  | size + 1 => if memory.cell place = 0 then 0 else memory.strnlen (place + 1) size + 1

/-- The first `size` bytes. -/
def front (memory : Memory) (size : Nat) : List UInt8 := (List.range size).map memory.cell

/-- Bytes in a row may be put one part after the other. -/
theorem write_append (memory : Memory) (place : Nat) (bytes more : List UInt8) :
    memory.write place (bytes ++ more) =
      (memory.write place bytes).write (place + bytes.length) more := by
  induction bytes generalizing memory place with
  | nil => rfl
  | cons byte rest ih =>
    rw [List.cons_append, write, write, ih, List.length_cons,
      show place + (rest.length + 1) = place + 1 + rest.length by omega]

/-- The places of bytes in a row. -/
theorem mem_written_write {other : Nat} :
    other ∈ (memory.write place bytes).written ↔
      other ∈ memory.written ∨ (place ≤ other ∧ other < place + bytes.length) := by
  induction bytes generalizing memory place with
  | nil =>
    simp only [write, List.length_nil, Nat.add_zero]
    constructor
    · exact .inl
    · rintro (before | ⟨low, high⟩)
      · exact before
      · omega
  | cons byte rest ih =>
    rw [write, ih, List.mem_append, List.mem_singleton, List.length_cons]
    constructor
    · rintro ((before | rfl) | ⟨low, high⟩)
      · exact .inl before
      · exact .inr ⟨Nat.le_refl _, by omega⟩
      · exact .inr ⟨by omega, by omega⟩
    · rintro (before | ⟨low, high⟩)
      · exact .inl (.inl before)
      · by_cases first : other = place
        · exact .inl (.inr first)
        · exact .inr ⟨by omega, by omega⟩

/-- No other place changes. -/
theorem cell_write_outside {other : Nat} (outside : other < place ∨ place + bytes.length ≤ other) :
    (memory.write place bytes).cell other = memory.cell other := by
  induction bytes generalizing memory place with
  | nil => rfl
  | cons byte rest ih =>
    rw [List.length_cons] at outside
    rw [write, ih (by omega)]
    exact Function.update_of_ne (by omega) ..

/-- What the places hold afterwards. -/
theorem cell_write_inside (index : Nat) (inside : index < bytes.length) :
    (memory.write place bytes).cell (place + index) = bytes[index] := by
  induction bytes generalizing memory place index with
  | nil => cases inside
  | cons byte rest ih =>
    rw [write]
    cases index with
    | zero =>
      rw [cell_write_outside (by omega)]
      exact Function.update_self ..
    | succ index =>
      rw [show place + (index + 1) = place + 1 + index by omega, ih index (by simpa using inside)]
      rfl

/-- A string that is put at the start, with its NUL, is the string there. -/
theorem front_write (inside : bytes.length ≤ size) :
    (memory.write 0 bytes).front size =
      bytes ++ (List.range (size - bytes.length)).map fun index =>
        memory.cell (bytes.length + index) := by
  apply List.ext_getElem
  · simp only [front, List.length_map, List.length_range, List.length_append]
    omega
  · intro index low high
    simp only [front, List.getElem_map, List.getElem_range]
    by_cases within : index < bytes.length
    · have here : (memory.write 0 bytes).cell (0 + index) = bytes[index] :=
        cell_write_inside index within
      rw [List.getElem_append_left within, ← here, Nat.zero_add]
    · rw [List.getElem_append_right (by omega), cell_write_outside (by omega)]
      simp only [List.getElem_map, List.getElem_range]
      rw [show bytes.length + (index - bytes.length) = index by omega]

/-- There is a string of no characters where a NUL lies. -/
theorem strnlen_of_nul (nul : memory.cell place = 0) : memory.strnlen place size = 0 := by
  cases size with
  | zero => rfl
  | succ size => rw [strnlen, if_pos nul]

end Memory

end FsArchiver.Lib
