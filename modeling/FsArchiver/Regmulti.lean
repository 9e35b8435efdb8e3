import FsArchiver.Queue

/-!
# Packs of small files

`regmulti.c`: small files share one data block. When saving, headers and data are collected
and then put on the queue; when restoring, they are taken apart again. Counts and sizes have 32
bits in the source and stay below the limits checked here.
-/
namespace FsArchiver

open Lib

/-- `s_regmulti`; `maxitems` is always `FSA_MAX_SMALLFILECOUNT`. -/
structure Regmulti where
  /-- Maximum size of the data block. -/
  maxblksize : Nat
  /-- `objhead`, of which there are `count`. -/
  objhead : List Dico
  /-- The `usedsize` bytes of `data` in use. -/
  data : List UInt8

/-- `regmulti_empty`. -/
def regmultiEmpty (m : Regmulti) : Regmulti := { m with objhead := [], data := [] }

/-- `regmulti_init`. -/
def regmultiInit (maxblksize : Nat) : Regmulti :=
  { maxblksize := min maxblksize maxBlkSize, objhead := [], data := [] }

/-! ## Saving -/

/-- `regmulti_save_enough_space_for_new_file`. -/
def regmultiSaveEnoughSpaceForNewFile (m : Regmulti) (filesize : Nat) : Bool :=
  decide (m.objhead.length < maxSmallFileCount) &&
    decide (m.data.length + filesize ≤ m.maxblksize)

/-- `regmulti_save_addfile`. -/
def regmultiSaveAddfile (m : Regmulti) (header : Dico) (data : List UInt8) : Option Regmulti :=
  if m.objhead.length ≥ maxSmallFileCount then none
  else if m.data.length + data.length > m.maxblksize then none
  else some { m with objhead := m.objhead ++ [header], data := m.data ++ data }

/-- The loop of `regmulti_save_enqueue` over the headers: those put on the queue, and whether
all of them were. -/
def regmultiSaveHeaders (mem : Mem) (count : UInt32) (fsid : UInt16) :
    UInt32 → List Dico → List QueueData × Bool
  | _, [] => ([], true)
  | offset, header :: rest =>
    match dicoGetU64 mem header Section.stdattr ItemKey.size with
    | none => ([], false)
    | some filesize =>
      match dicoAddEach header [dicoAddU32 Section.stdattr ItemKey.multifilescount count,
          dicoAddU32 Section.stdattr ItemKey.multifilesoffset offset] with
      | none => ([], false)
      | some header =>
        let (pushed, ok) := regmultiSaveHeaders mem count fsid (offset + filesize.toUInt32) rest
        (.header ⟨.objt, fsid, header⟩ :: pushed, ok)

/-- `regmulti_save_enqueue`: what is put on the queue, and whether it succeeds. -/
def regmultiSaveEnqueue (mem : Mem) (m : Regmulti) (fsid : UInt16) : List QueueData × Bool :=
  if m.objhead.length = 0 then ([], true)
  else
    match regmultiSaveHeaders mem (UInt32.ofNat m.objhead.length) fsid 0 m.objhead with
    | (pushed, false) => (pushed, false)
    | (pushed, true) =>
      (pushed ++ [.block { BlockInfo.zero with
        blkdata := m.data
        blkrealsize := UInt32.ofNat m.data.length
        blkfsid := fsid }], true)

/-! ## Restoring -/

/-- `regmulti_rest_addheader`. -/
def regmultiRestAddheader (m : Regmulti) (header : Dico) : Option Regmulti :=
  if m.objhead.length ≥ maxSmallFileCount then none
  else some { m with objhead := m.objhead ++ [header] }

/-- `regmulti_rest_setdatablock`, for a block whose data has its size. -/
def regmultiRestSetdatablock (m : Regmulti) (data : List UInt8) : Option Regmulti :=
  if m.data.length + data.length > m.maxblksize then none else some { m with data }

/-- `regmulti_rest_getfile`: header and data of a file. Behind the bytes in use the block holds
whatever was there before. -/
def regmultiRestGetfile (mem : Mem) (m : Regmulti) (index : Nat) : Option (Dico × List UInt8) :=
  match m.objhead[index]? with
  | none => none
  | some filehead => do
    let filesize ← dicoGetU64 mem filehead Section.stdattr ItemKey.size
    let offset ← dicoGetU32 mem filehead Section.stdattr ItemKey.multifilesoffset
    some (filehead, (List.range filesize.toNat).map fun i =>
      (m.data[offset.toNat + i]?).getD (mem.stack (offset.toNat + i)))

end FsArchiver
