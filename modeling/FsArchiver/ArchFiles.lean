import Mathlib.Logic.Function.Basic
import FsArchiver.Lib.Failing
import FsArchiver.Paths
import FsArchiver.Splitting

/-!
# The files of an archive

`archwriter.c` and `thread_writer_fct` with the files they work on: any call may fail, a volume
path may exist, and a write may stop after some bytes. What a failed save leaves behind is
removed by `archwriter_remove`, which goes through the list of volumes; a volume that
`strlist_add` could not put there stays.
-/
namespace FsArchiver

open Lib

/-! ## The system -/

/-- What an inode may be. -/
inductive Node where
  /-- A regular file. -/
  | regular (content : List UInt8)
  /-- Anything else. -/
  | special
  deriving DecidableEq

/-- The files by inode number. -/
abbrev Disk := Nat → Option Node

/-- What the calls of a save answer, by their number. -/
structure Kernel where
  /-- The inode a path names, whether there is a file or not: without symbolic links this
  depends on the directories alone. A path may also name none, as in a missing directory. -/
  loc : Path → Option Nat
  /-- The empty path names nothing. -/
  empty : loc [] = none
  /-- `realpath`. -/
  realpath : Nat → Path → Option Path
  /-- `stat64` finds the file at a path if there is one. -/
  stats : Nat → Bool
  /-- `open64` succeeds if the path names an inode. -/
  opens : Nat → Bool
  /-- `write` stops after so many bytes. -/
  stops : Nat → Option Nat
  /-- Memory can be allocated. -/
  allocates : Nat → Bool

/-- `stat64`: what it finds at a path. `archwriter_create` takes every error for a free path. -/
def Kernel.stat64 (kernel : Kernel) (call : Nat) (path : Path) (disk : Disk) : Option Node :=
  if kernel.stats call then (kernel.loc path).bind disk else none

/-- `open64` with `O_CREAT` and `O_TRUNC`. -/
def open64 (disk : Disk) (inode : Nat) : Disk :=
  Function.update disk inode (some (match disk inode with
    | some .special => .special
    | _ => .regular []))

/-- `write` at the end of a file. -/
def appendTo (disk : Disk) (inode : Nat) (data : List UInt8) : Disk :=
  Function.update disk inode (match disk inode with
    | some (.regular content) => some (.regular (content ++ data))
    | other => other)

/-- `unlink`. -/
def unlink (kernel : Kernel) (disk : Disk) (path : Path) : Disk :=
  match kernel.loc path with
  | some inode => Function.update disk inode none
  | none => disk

/-! ## Paths and lists -/

/-- The conversion `%.2ld`. -/
def twoDigits (number : Nat) : Path :=
  let digits := (Nat.toDigits 10 number).map fun digit => digit.toNat.toUInt8
  List.replicate (2 - digits.length) 0x30 ++ digits

/-- `get_path_to_volume`, with the answer of `realpath`. -/
def getPathToVolume (realpath : Option Path) (basepath : Path) (curvol : UInt32) : Option Path :=
  if basepath.length < 4 then none
  else if curvol = 0 then some (realpath.getD (basepath.take (pathMax - 1)))
  else some ((basepath.take (basepath.length - 2) ++ twoDigits curvol.toNat).take (pathMax - 1))

/-- `strlist_add`, for which memory can be allocated or not. -/
def strlistAdd (allocates : Bool) (list : List Path) (str : Path) : List Path :=
  if str = [] ∨ str ∈ list ∨ allocates = false then list else list ++ [str]

/-- A path that is not empty comes into the list if there is memory for it. -/
theorem mem_strlistAdd {allocates : Bool} {list : List Path} {str other : Path}
    (nonempty : str ≠ []) :
    other ∈ strlistAdd allocates list str ↔ other ∈ list ∨ allocates = true ∧ other = str := by
  unfold strlistAdd
  split
  next kept =>
    rcases kept with empty | known | full
    · exact absurd empty nonempty
    · constructor
      · exact .inl
      · rintro (member | ⟨-, rfl⟩)
        · exact member
        · exact known
    · simp [full]
  next added =>
    have room : allocates = true := by
      cases allocates with
      | false => exact absurd (.inr (.inr rfl)) added
      | true => rfl
    simp [room]

/-! ## The writer -/

/-- The options of the writer in `g_options`. -/
structure WriterOptions where
  /-- Existing archives are overwritten. -/
  overwrite : Bool
  /-- Split size, or 0. -/
  splitsize : Nat

/-- `s_archwriter` and the files. -/
structure FileWriter where
  /-- Archive id. -/
  archid : UInt32
  /-- Path of the first volume. -/
  basepath : Path
  /-- Number of the current volume. -/
  curvol : UInt32
  /-- Path of the current volume. -/
  volpath : Path
  /-- The open file. -/
  archfd : Option Nat
  /-- A volume has been created. -/
  newarch : Bool
  /-- The volumes that are to be removed if the save fails. -/
  vollist : List Path
  /-- The files that `archwriter_create` has opened. The program does not keep them. -/
  created : List Nat
  /-- The files. -/
  disk : Disk
  /-- How many calls have been made. -/
  calls : Nat

/-- A function of `archwriter.c` that may fail. -/
abbrev Writing := Failing FileWriter

namespace FileWriter

open Failing

/-- `archwriter_init`, with the archive id and the path that `oper_save` sets. -/
def archwriterInit (archid : UInt32) (basepath : Path) (disk : Disk) : FileWriter :=
  { archid, basepath, curvol := 0, volpath := [], archfd := none, newarch := false
    vollist := [], created := [], disk, calls := 0 }

/-- The number of the next call. -/
def nextCall : Writing Nat := do
  let ai ← get
  modify fun ai => { ai with calls := ai.calls + 1 }
  pure ai.calls

/-- `writebuf_alloc` and `dico_alloc`. -/
def allocate (kernel : Kernel) : Writing Unit := do
  let call ← nextCall
  if kernel.allocates call then pure () else fail

/-- `archwriter_volpath`. -/
def archwriterVolpath (kernel : Kernel) : Writing Unit := do
  let call ← nextCall
  let ai ← get
  let volpath ← ofOption
    (getPathToVolume (kernel.realpath call ai.basepath) ai.basepath ai.curvol)
  modify fun ai => { ai with volpath }

/-- `archwriter_create` from `open64` on; what `strlist_add` returns is not looked at. -/
def openVolume (kernel : Kernel) (call : Nat) : Writing Unit := do
  let ai ← get
  let inode ← ofOption (kernel.loc ai.volpath)
  if kernel.opens call then
    modify fun ai =>
      { ai with
        disk := open64 ai.disk inode, archfd := some inode, newarch := true
        vollist := strlistAdd (kernel.allocates call) ai.vollist ai.volpath
        created := ai.created ++ [inode] }
  else fail

/-- `archwriter_create`. -/
def archwriterCreate (kernel : Kernel) (options : WriterOptions) : Writing Unit := do
  let call ← nextCall
  let ai ← get
  match kernel.stat64 call ai.volpath ai.disk with
  | some .special => fail
  | some (.regular _) => if options.overwrite then openVolume kernel call else fail
  | none => openVolume kernel call

/-- `archwriter_close`. -/
def archwriterClose (ai : FileWriter) : FileWriter := { ai with archfd := none }

/-- `archwriter_remove`. -/
def archwriterRemove (kernel : Kernel) (ai : FileWriter) : FileWriter :=
  let ai := ai.archwriterClose
  if ai.newarch then { ai with disk := ai.vollist.foldl (unlink kernel) ai.disk } else ai

/-- `archwriter_get_currentpos`. -/
def archwriterGetCurrentpos (ai : FileWriter) : Option Nat :=
  match ai.archfd.bind ai.disk with
  | some (.regular content) => some content.length
  | _ => none

/-- `archwriter_write_buffer`: an empty buffer is an error, and so is a short write. -/
def archwriterWriteBuffer (kernel : Kernel) (wb : List UInt8) : Writing Unit := do
  if wb.length = 0 then fail
  else do
    let call ← nextCall
    let ai ← get
    let inode ← ofOption ai.archfd
    let written := wb.take ((kernel.stops call).getD wb.length)
    modify fun ai => { ai with disk := appendTo ai.disk inode written }
    if written.length = wb.length then pure () else fail

/-- `archwriter_incvolume`. The path is computed as in `archwriter_volpath`; what this
returns is not looked at. -/
def archwriterIncvolume (kernel : Kernel) : Writing Unit := do
  modify fun ai => { ai with curvol := ai.curvol + 1 }
  attempt (archwriterVolpath kernel)

/-- `archwriter_write_volheader`. -/
def archwriterWriteVolheader (kernel : Kernel) : Writing Unit := do
  allocate kernel
  let ai ← get
  let voldico := dicoAddAll Dico.alloc (volheaderCalls ai.curvol ai.archid)
  let wb ← ofOption (writebufAddHeader [] voldico .volh ai.archid filesysidNull)
  archwriterWriteBuffer kernel wb

/-- `archwriter_write_volfooter`. -/
def archwriterWriteVolfooter (kernel : Kernel) (lastvol : Bool) : Writing Unit := do
  allocate kernel
  let ai ← get
  let voldico := dicoAddAll Dico.alloc (volfooterCalls ai.curvol ai.archid lastvol)
  let wb ← ofOption (writebufAddHeader [] voldico .volf ai.archid filesysidNull)
  archwriterWriteBuffer kernel wb

/-- `archwriter_split_check`. -/
def archwriterSplitCheck (options : WriterOptions) (ai : FileWriter) (wb : List UInt8) : Bool :=
  match ai.archwriterGetCurrentpos with
  | some cursize =>
    decide (options.splitsize > 0) && decide (cursize + wb.length > options.splitsize)
  | none => false

/-- `archwriter_split_if_necessary`. -/
def archwriterSplitIfNecessary (kernel : Kernel) (options : WriterOptions) (wb : List UInt8) :
    Writing Unit := do
  let ai ← get
  if ai.archwriterSplitCheck options wb then do
    archwriterWriteVolfooter kernel false
    modify archwriterClose
    archwriterIncvolume kernel
    archwriterCreate kernel options
    archwriterWriteVolheader kernel
  else pure ()

/-- `archwriter_dowrite_block`. -/
def archwriterDowriteBlock (kernel : Kernel) (options : WriterOptions) (blkinfo : BlockInfo) :
    Writing Unit := do
  allocate kernel
  let ai ← get
  let wb ← ofOption (writebufAddBlock [] blkinfo ai.archid blkinfo.blkfsid)
  archwriterSplitIfNecessary kernel options wb
  archwriterWriteBuffer kernel wb

/-- `archwriter_dowrite_header`. -/
def archwriterDowriteHeader (kernel : Kernel) (options : WriterOptions) (headinfo : HeadInfo) :
    Writing Unit := do
  allocate kernel
  let ai ← get
  let wb ← ofOption (writebufAddHeader [] headinfo.dico headinfo.magic ai.archid headinfo.fsid)
  archwriterSplitIfNecessary kernel options wb
  archwriterWriteBuffer kernel wb

/-- The loop of `thread_writer_fct` on what `queue_dequeue_first` gives: an item, or an error. -/
def writeItems (kernel : Kernel) (options : WriterOptions) :
    List (Option QueueData) → Writing Unit
  | [] => pure ()
  | none :: _ => fail
  | some (.block blkinfo) :: rest => do
    archwriterDowriteBlock kernel options blkinfo
    writeItems kernel options rest
  | some (.header headinfo) :: rest => do
    archwriterDowriteHeader kernel options headinfo
    writeItems kernel options rest

/-- `thread_writer_fct` up to the last footer, or to `thread_writer_fct_error`. -/
def writeArchive (kernel : Kernel) (options : WriterOptions) (items : List (Option QueueData)) :
    Writing Unit := do
  archwriterVolpath kernel
  archwriterCreate kernel options
  archwriterWriteVolheader kernel
  writeItems kernel options items
  archwriterWriteVolfooter kernel true

/-- `thread_writer_fct`: both ends close the open volume. -/
def threadWriterFct (kernel : Kernel) (options : WriterOptions) (items : List (Option QueueData))
    (ai : FileWriter) : FileWriter :=
  (writeArchive kernel options items ai).2.archwriterClose

/-- A volume is opened or refused. -/
theorem archwriterCreate_cases (kernel : Kernel) (options : WriterOptions) (ai : FileWriter) :
    archwriterCreate kernel options ai =
        openVolume kernel ai.calls { ai with calls := ai.calls + 1 } ∨
      archwriterCreate kernel options ai = (none, { ai with calls := ai.calls + 1 }) := by
  have called : nextCall ai = (some ai.calls, { ai with calls := ai.calls + 1 }) := rfl
  rw [archwriterCreate, bind_run_of called, get_bind_run]
  dsimp only
  cases kernel.stat64 ai.calls ai.volpath ai.disk with
  | none => exact .inl rfl
  | some node =>
    cases node with
    | special => exact .inr rfl
    | regular content =>
      cases options.overwrite with
      | true => exact .inl rfl
      | false => exact .inr rfl

end FileWriter

end FsArchiver
