import FsArchiver.Dico
import FsArchiver.Lib.Memory
import FsArchiver.Paths

/-!
# Joining paths in a buffer

`concatenate_paths` byte by byte. Its loop moves on the pointer to the buffer, and the bounded
append behind the loop is still given the full size of the buffer: what it may write begins behind
the first path and is as long as the whole buffer.
-/
namespace FsArchiver

open Lib

/-! ## The buffer -/

/-- The loop of `concatenate_paths`: all characters of the first path but a slash at its end. -/
def copyLoop (memory : Memory) (place : Nat) : Path → Memory × Nat
  | [] => (memory, place)
  | c :: rest =>
    if c ≠ slash ∨ rest ≠ [] then copyLoop (memory.write place [c]) (place + 1) rest
    else (memory, place)

/-- `strlcatf` with the format `%s`. -/
def strlcatf (memory : Memory) (dest destbufsize : Nat) (text : Path) : Memory :=
  let len1 := memory.strnlen dest destbufsize
  if len1 = destbufsize then memory
  else memory.write (dest + len1) (text.take (destbufsize - len1 - 1) ++ [0])

/-- `concatenate_paths`, on a buffer at the start of the memory. -/
def concatenatePathsIn (memory : Memory) (maxbufsize : Nat) (p1 p2 : Path) : Memory :=
  let memory := memory.write 0 (List.replicate maxbufsize 0)
  let (memory, buffer) := copyLoop memory 0 p1
  let memory := memory.write buffer [slash]
  strlcatf memory (buffer + 1) maxbufsize (p2.dropWhile (· = slash))

/-- The first path without a slash at its end. -/
def copied (p1 : Path) : Path := if p1.getLast? = some slash then p1.dropLast else p1

/-- The joined path and its NUL fit into the buffer. -/
def FitsJoined (maxbufsize : Nat) (p1 p2 : Path) : Prop :=
  (copied p1).length + 1 + (p2.dropWhile (· = slash)).length + 1 ≤ maxbufsize

/-- What `concatenate_paths` is to do with its buffer, whatever lies in it and behind it. -/
structure JoinsInside (cell : Nat → UInt8) (maxbufsize : Nat) (p1 p2 : Path) : Prop where
  /-- No byte behind the buffer is written. -/
  inside : ∀ place ∈ (concatenatePathsIn ⟨cell, []⟩ maxbufsize p1 p2).written, place < maxbufsize
  /-- There is a NUL in the buffer. -/
  ended : 0 ∈ (concatenatePathsIn ⟨cell, []⟩ maxbufsize p1 p2).front maxbufsize
  /-- The joined path is in the buffer if it fits. -/
  joined : FitsJoined maxbufsize p1 p2 →
    cString ((concatenatePathsIn ⟨cell, []⟩ maxbufsize p1 p2).front maxbufsize) =
      copied p1 ++ slash :: p2.dropWhile (· = slash)

section Joining

variable {memory : Memory} {maxbufsize : Nat} {p1 p2 : Path} {cell : Nat → UInt8}

/-- The loop copies the path without a slash at its end. -/
theorem copyLoop_eq (memory : Memory) (place : Nat) (p1 : Path) :
    copyLoop memory place p1 =
      (memory.write place (copied p1), place + (copied p1).length) := by
  induction p1 generalizing memory place with
  | nil => rfl
  | cons c rest ih =>
    rw [copyLoop]
    by_cases more : c ≠ slash ∨ rest ≠ []
    · have front : copied (c :: rest) = c :: copied rest := by
        unfold copied
        cases rest with
        | nil =>
          have other : c ≠ slash := more.resolve_right (· rfl)
          simp [other]
        | cons c' rest =>
          rw [List.getLast?_cons_cons, List.dropLast_cons_cons]
          split
          · rfl
          · rfl
      rw [if_pos more, ih, front, Prod.mk.injEq, List.length_cons]
      exact ⟨rfl, by omega⟩
    · rw [if_neg more]
      obtain ⟨rfl, rfl⟩ : c = slash ∧ rest = [] := by simpa using more
      rfl

/-- The joined path of the pure function. -/
theorem concatenatePaths_eq_copied (p1 p2 : Path) :
    concatenatePaths p1 p2 = copied p1 ++ slash :: p2.dropWhile (· = slash) := rfl

/-- The memory in front of the append. -/
def copiedIn (memory : Memory) (maxbufsize : Nat) (p1 : Path) : Memory :=
  (memory.write 0 (List.replicate maxbufsize 0)).write 0 (copied p1 ++ [slash])

/-- The append is given the size of the buffer at a place inside it. -/
theorem concatenatePathsIn_eq (memory : Memory) (maxbufsize : Nat) (p1 p2 : Path) :
    concatenatePathsIn memory maxbufsize p1 p2 =
      strlcatf (copiedIn memory maxbufsize p1) ((copied p1).length + 1) maxbufsize
        (p2.dropWhile (· = slash)) := by
  simp only [concatenatePathsIn, copyLoop_eq, copiedIn, Memory.write_append, Nat.zero_add]

/-- Inside the buffer the append finds a NUL. -/
theorem cell_copiedIn (inside : (copied p1).length + 1 < maxbufsize) :
    (copiedIn memory maxbufsize p1).cell ((copied p1).length + 1) = 0 := by
  rw [copiedIn, Memory.cell_write_outside (by simp)]
  have within : (copied p1).length + 1 < (List.replicate maxbufsize (0 : UInt8)).length := by
    simpa using inside
  have zero : (memory.write 0 (List.replicate maxbufsize 0)).cell (0 + ((copied p1).length + 1)) =
      (List.replicate maxbufsize 0)[(copied p1).length + 1] := Memory.cell_write_inside _ within
  rw [Nat.zero_add] at zero
  rw [zero, List.getElem_replicate]

/-- A path without a NUL is copied without one. -/
theorem noNul_copied (noNul : 0 ∉ p1) : 0 ∉ copied p1 ++ [slash] := by
  rw [List.mem_append, not_or, List.mem_singleton]
  refine ⟨fun member => noNul ?_, by decide⟩
  unfold copied at member
  split at member
  · exact (List.dropLast_sublist p1).subset member
  · exact member

/-- A joined path that fits is written inside the buffer. -/
theorem joinsInside_of_fits (noNul1 : 0 ∉ p1) (noNul2 : 0 ∉ p2)
    (fits : FitsJoined maxbufsize p1 p2) : JoinsInside cell maxbufsize p1 p2 := by
  unfold FitsJoined at fits
  have whole : concatenatePathsIn ⟨cell, []⟩ maxbufsize p1 p2 =
      ((⟨cell, []⟩ : Memory).write 0 (List.replicate maxbufsize 0)).write 0
        (copied p1 ++ slash :: p2.dropWhile (· = slash) ++ [0]) := by
    have empty : (copiedIn ⟨cell, []⟩ maxbufsize p1).strnlen ((copied p1).length + 1) maxbufsize =
        0 := Memory.strnlen_of_nul (cell_copiedIn (by omega))
    rw [concatenatePathsIn_eq, strlcatf, empty, if_neg (by omega), Nat.add_zero, Nat.sub_zero,
      List.take_of_length_le (by omega), copiedIn,
      show copied p1 ++ slash :: p2.dropWhile (· = slash) ++ [0] =
        (copied p1 ++ [slash]) ++ (p2.dropWhile (· = slash) ++ [0]) by simp,
      Memory.write_append _ _ (copied p1 ++ [slash]), Nat.zero_add, List.length_append,
      List.length_singleton]
  have size : (copied p1 ++ slash :: p2.dropWhile (· = slash) ++ [0]).length ≤ maxbufsize := by
    simp only [List.length_append, List.length_cons, List.length_nil]
    omega
  have plain : ∀ c ∈ copied p1 ++ slash :: p2.dropWhile (· = slash), decide (c ≠ 0) = true := by
    intro c member
    rw [decide_eq_true_eq]
    rintro rfl
    rw [← List.singleton_append, ← List.append_assoc] at member
    rcases List.mem_append.mp member with first | second
    · exact noNul_copied noNul1 first
    · exact noNul2 ((List.dropWhile_sublist _).subset second)
  refine ⟨fun place member => ?_, ?_, fun _ => ?_⟩
  · rw [whole, Memory.mem_written_write, Memory.mem_written_write] at member
    rcases member with (none | ⟨-, zeros⟩) | ⟨-, text⟩
    · cases none
    · simpa using zeros
    · omega
  · rw [whole, Memory.front_write size]
    simp
  · rw [whole, Memory.front_write size, cString, List.append_assoc,
      List.takeWhile_append_of_pos plain]
    simp

/-- A joined path that does not fit is written behind the buffer, or it leaves no NUL in it. -/
theorem fits_of_joinsInside (noNul : 0 ∉ p1) (joins : JoinsInside cell maxbufsize p1 p2) :
    FitsJoined maxbufsize p1 p2 := by
  have inside := joins.inside
  have ended := joins.ended
  rw [concatenatePathsIn_eq] at inside ended
  have slashes : (copied p1).length ∈ (copiedIn ⟨cell, []⟩ maxbufsize p1).written := by
    rw [copiedIn, Memory.mem_written_write]
    exact .inr ⟨Nat.zero_le _, by simp⟩
  unfold strlcatf at inside ended
  by_cases full : (copiedIn ⟨cell, []⟩ maxbufsize p1).strnlen ((copied p1).length + 1) maxbufsize =
      maxbufsize
  · -- nothing is appended: the slash is the last byte of the buffer
    rw [if_pos full] at inside ended
    have separator := inside _ slashes
    have last : (copied p1).length + 1 = maxbufsize := by
      by_contra different
      rw [Memory.strnlen_of_nul (cell_copiedIn (by omega))] at full
      omega
    have size : (copied p1 ++ [slash]).length = maxbufsize := by
      rw [List.length_append, List.length_singleton, last]
    rw [copiedIn, Memory.front_write (Nat.le_of_eq size), size, Nat.sub_self] at ended
    exact absurd (by simpa using ended) (noNul_copied noNul)
  · -- the NUL of the append is its last byte
    rw [if_neg full] at inside
    have last := inside
      ((copied p1).length + 1 +
        (copiedIn ⟨cell, []⟩ maxbufsize p1).strnlen ((copied p1).length + 1) maxbufsize +
        min (maxbufsize -
          (copiedIn ⟨cell, []⟩ maxbufsize p1).strnlen ((copied p1).length + 1) maxbufsize - 1)
          (p2.dropWhile (· = slash)).length)
      (by
        rw [Memory.mem_written_write]
        refine .inr ⟨Nat.le_add_right _ _, ?_⟩
        rw [List.length_append, List.length_take, List.length_singleton]
        omega)
    rw [Memory.strnlen_of_nul (cell_copiedIn (by omega))] at last
    unfold FitsJoined
    omega

end Joining

/-- `concatenate_paths` writes only inside its buffer, leaves a string there and joins the paths
that fit, exactly if the joined path fits. -/
theorem concatenatePaths_inside_iff (cell : Nat → UInt8) (maxbufsize : Nat) (p1 p2 : Path)
    (noNul1 : 0 ∉ p1) (noNul2 : 0 ∉ p2) :
    JoinsInside cell maxbufsize p1 p2 ↔ FitsJoined maxbufsize p1 p2 :=
  ⟨fits_of_joinsInside noNul1, joinsInside_of_fits noNul1 noNul2⟩

/-- The paths `a/` and `/b` are joined in four bytes. -/
theorem concatenatePaths_inside_four :
    JoinsInside (fun _ => 0x78) 4 [0x61, slash] [slash, 0x62] :=
  (concatenatePaths_inside_iff (fun _ => 0x78) 4 [0x61, slash] [slash, 0x62] (by decide)
    (by decide)).mpr (by unfold FitsJoined; decide)

/-- The paths `a` and `b` in three bytes: the NUL is written behind them. -/
theorem concatenatePaths_outside_three :
    ¬JoinsInside (fun _ => 0x78) 3 [0x61] [0x62] := by
  intro joins
  have behind := joins.inside 3 (by decide)
  exact Nat.lt_irrefl 3 behind

end FsArchiver
