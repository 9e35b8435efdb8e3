import FsArchiver.OperRestore

/-!
# Where small files are copied from

`regmulti_rest_getfile` takes the place of a file in the data block from the file's header, and
its size from another field of the same header. It compares them neither with the size of the
block nor with the size of the caller's buffer, which it is given.
-/
namespace FsArchiver

/-! ## The copy -/

/-- The `memcpy` of `regmulti_rest_getfile`: from this offset in the block so many bytes to the
start of the caller's buffer. -/
structure PackCopy where
  /-- Offset in the block. -/
  offset : UInt32
  /-- Number of bytes. -/
  filesize : UInt64
  deriving DecidableEq

/-- The copy lies in the bytes in use, and fits a buffer of this size. -/
structure PackCopy.Within (copy : PackCopy) (usedsize bufsize : Nat) : Prop where
  /-- What is read. -/
  source : copy.offset.toNat + copy.filesize.toNat ≤ usedsize
  /-- What is written. -/
  destination : copy.filesize.toNat ≤ bufsize

/-- The place of a file according to its header. -/
def packPlace (mem : Mem) (filehead : Dico) : Option PackCopy := do
  let filesize ← dicoGetU64 mem filehead Section.stdattr ItemKey.size
  let offset ← dicoGetU32 mem filehead Section.stdattr ItemKey.multifilesoffset
  some ⟨offset, filesize⟩

/-- The copy that a call of `regmulti_rest_getfile` makes, unless it fails. -/
def regmultiRestCopy (mem : Mem) (m : Regmulti) (index : Nat) : Option PackCopy :=
  (m.objhead[index]?).bind (packPlace mem)

/-- The bytes that a call returns are those of its copy. -/
theorem regmultiRestGetfile_eq (mem : Mem) (m : Regmulti) (index : Nat) :
    (regmultiRestGetfile mem m index).map Prod.snd =
      (regmultiRestCopy mem m index).map fun copy =>
        (List.range copy.filesize.toNat).map fun i =>
          (m.data[copy.offset.toNat + i]?).getD (mem.stack (copy.offset.toNat + i)) := by
  unfold regmultiRestGetfile regmultiRestCopy packPlace
  cases m.objhead[index]? with
  | none => rfl
  | some filehead =>
    cases size : dicoGetU64 mem filehead Section.stdattr ItemKey.size with
    | none => simp [size]
    | some filesize =>
      cases place : dicoGetU32 mem filehead Section.stdattr ItemKey.multifilesoffset with
      | none => simp [size, place]
      | some offset => simp [size, place]

/-- A copy from the bytes in use does not depend on anything else. -/
theorem slice_of_within {mem : Mem} {data : List UInt8} {copy : PackCopy} {bufsize : Nat}
    (within : copy.Within data.length bufsize) :
    ((List.range copy.filesize.toNat).map fun i =>
        (data[copy.offset.toNat + i]?).getD (mem.stack (copy.offset.toNat + i))) =
      (data.drop copy.offset.toNat).take copy.filesize.toNat := by
  have source := within.source
  apply List.ext_getElem
  · rw [List.length_map, List.length_range, List.length_take, List.length_drop]
    omega
  · intro i inside inside'
    rw [List.length_map, List.length_range] at inside
    have place : copy.offset.toNat + i < data.length := by omega
    rw [List.getElem_map, List.getElem_range, List.getElem?_eq_getElem place, Option.getD_some,
      List.getElem_take, List.getElem_drop]

/-! ## Loading a pack -/

/-- What `extractar_restore_obj_regfile_multi` loads before it takes the files apart. -/
def regmultiRestLoad (headers : List Dico) (datablock : List UInt8) : Option Regmulti := do
  let m ← headers.foldlM regmultiRestAddheader (regmultiInit maxBlkSize)
  regmultiRestSetdatablock m datablock

/-- Headers are collected in order. -/
theorem objhead_foldlM {headers : List Dico} {m m' : Regmulti}
    (loaded : headers.foldlM regmultiRestAddheader m = some m') :
    m'.objhead = m.objhead ++ headers := by
  induction headers generalizing m with
  | nil =>
    cases loaded
    exact (List.append_nil _).symm
  | cons header headers ih =>
    rw [List.foldlM_cons] at loaded
    obtain ⟨next, added, rest⟩ := Option.bind_eq_some_iff.mp loaded
    unfold regmultiRestAddheader at added
    split at added
    · cases added
    · cases added
      rw [ih rest, List.append_assoc, List.singleton_append]

/-- A loaded pack holds the headers and the block. -/
theorem regmultiRestLoad_eq {headers : List Dico} {datablock : List UInt8} {m : Regmulti}
    (loaded : regmultiRestLoad headers datablock = some m) :
    m.objhead = headers ∧ m.data = datablock := by
  obtain ⟨collected, added, filled⟩ := Option.bind_eq_some_iff.mp loaded
  have heads := objhead_foldlM added
  unfold regmultiRestSetdatablock at filled
  split at filled
  · cases filled
  · cases filled
    exact ⟨heads, rfl⟩

/-- The headers that are dequeued are collected by these calls. -/
theorem restoreHeaders_loads {count : Nat} {m m' : Regmulti} {queue queue' : List QueueData}
    (taken : restoreHeaders count m queue = (true, m', queue')) :
    ∃ headers : List Dico, headers.foldlM regmultiRestAddheader m = some m' := by
  induction count generalizing m queue with
  | zero =>
    rw [restoreHeaders] at taken
    cases taken
    exact ⟨[], rfl⟩
  | succ count ih =>
    rw [restoreHeaders] at taken
    split at taken
    · cases taken
    next head queue _ =>
    split at taken
    · cases taken
    split at taken
    · cases taken
    next next added =>
    obtain ⟨headers, rest⟩ := ih taken
    refine ⟨head.dico :: headers, ?_⟩
    rw [List.foldlM_cons, added]
    exact rest

/-- A call for a file of a loaded pack stays within the block and the caller's buffer exactly if
the place and the size in the header of the file do. Then it returns those bytes of the block. -/
theorem pack_within_iff {headers : List Dico} {datablock : List UInt8} {m : Regmulti}
    (loaded : regmultiRestLoad headers datablock = some m) (mem : Mem) (index bufsize : Nat) :
    ((∀ copy, regmultiRestCopy mem m index = some copy → copy.Within m.data.length bufsize) ↔
      ∀ header filesize offset, headers[index]? = some header →
        dicoGetU64 mem header Section.stdattr ItemKey.size = some filesize →
        dicoGetU32 mem header Section.stdattr ItemKey.multifilesoffset = some offset →
        offset.toNat + filesize.toNat ≤ datablock.length ∧ filesize.toNat ≤ bufsize) ∧
    ∀ copy, regmultiRestCopy mem m index = some copy → copy.Within m.data.length bufsize →
      (regmultiRestGetfile mem m index).map Prod.snd =
        some ((datablock.drop copy.offset.toNat).take copy.filesize.toNat) := by
  obtain ⟨heads, data⟩ := regmultiRestLoad_eq loaded
  refine ⟨?_, ?_⟩
  · unfold regmultiRestCopy
    rw [heads, data]
    constructor
    · intro within header filesize offset stored size place
      have copied : (headers[index]?).bind (packPlace mem) = some ⟨offset, filesize⟩ := by
        rw [stored, Option.bind_some, packPlace, size, place]
        rfl
      obtain ⟨source, destination⟩ := within _ copied
      exact ⟨source, destination⟩
    · intro bounds copy copied
      obtain ⟨header, stored, placed⟩ := Option.bind_eq_some_iff.mp copied
      obtain ⟨filesize, size, placed⟩ := Option.bind_eq_some_iff.mp placed
      obtain ⟨offset, place, placed⟩ := Option.bind_eq_some_iff.mp placed
      cases placed
      obtain ⟨source, destination⟩ := bounds header filesize offset stored size place
      exact ⟨source, destination⟩
  · intro copy copied within
    rw [regmultiRestGetfile_eq, copied, Option.map_some, slice_of_within within, data]

/-- The header of a small file of this size at this place. -/
def placedFile (filesize : UInt64) (offset : UInt32) : Dico :=
  dicoAddAll Dico.alloc [dicoAddU64 Section.stdattr ItemKey.size filesize,
    dicoAddU32 Section.stdattr ItemKey.multifilesoffset offset]

/-- A file of two bytes in a block of three. -/
theorem pack_within_two_of_three :
    ∃ m, regmultiRestLoad [placedFile 2 1] [7, 8, 9] = some m ∧
      (regmultiRestGetfile ⟨fun _ => 0, fun _ => 0⟩ m 0).map Prod.snd = some [8, 9] := by
  have loaded : regmultiRestLoad [placedFile 2 1] [7, 8, 9] =
      some { maxblksize := maxBlkSize, objhead := [placedFile 2 1], data := [7, 8, 9] } := rfl
  refine ⟨_, loaded, ?_⟩
  have slice := (pack_within_iff loaded ⟨fun _ => 0, fun _ => 0⟩ 0 maxSmallFileSize).2 ⟨1, 2⟩
    (by decide) ⟨by decide, by decide⟩
  exact slice

/-- A file that is larger than the block, and than the buffer of the caller. -/
theorem pack_outside_large_file :
    let mem : Mem := ⟨fun _ => 0, fun _ => 0⟩
    ∃ m, regmultiRestLoad [placedFile 131073 0] [7] = some m ∧
      regmultiRestCopy mem m 0 = some ⟨0, 131073⟩ ∧
      ¬(⟨0, 131073⟩ : PackCopy).Within m.data.length maxSmallFileSize := by
  refine ⟨{ maxblksize := maxBlkSize, objhead := [placedFile 131073 0], data := [7] }, rfl, ?_, ?_⟩
  · decide
  · intro within
    exact absurd within.destination (by decide)

end FsArchiver
