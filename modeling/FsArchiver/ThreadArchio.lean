import FsArchiver.ArchReader
import FsArchiver.Pipeline

/-!
# The writer and the reader of archives

`archwriter.c` and `thread_archio.c` for archive files on which every system call succeeds: the
writer turns the items it dequeues into volumes, the reader turns volumes into the items it
adds to the queue.
-/
namespace FsArchiver

open Lib

/-! ## Writer -/

/-- `s_archwriter`, with the contents of the volumes in place of descriptor and paths. -/
structure ArchWriter where
  /-- Archive id. -/
  archid : UInt32
  /-- Number of the current volume. -/
  curvol : UInt32
  /-- Closed volumes, in order. -/
  closed : List (List UInt8)
  /-- Contents of the open volume. -/
  current : List UInt8

/-- `FSA_VERSION`: the characters `0.8.10-git`. -/
def version : List UInt8 := [0x30, 0x2e, 0x38, 0x2e, 0x31, 0x30, 0x2d, 0x67, 0x69, 0x74]

/-- `archwriter_write_buffer`: an empty buffer is an error. -/
def archwriterWriteBuffer (ai : ArchWriter) (wb : List UInt8) : Option ArchWriter :=
  if wb.length = 0 then none else some { ai with current := ai.current ++ wb }

/-- The items of a volume header. -/
def volheaderCalls (curvol archid : UInt32) : List DicoCall :=
  [dicoAddU32 0 VolumeKey.headVolnum curvol, dicoAddU32 0 VolumeKey.headArchid archid,
    dicoAddString 0 VolumeKey.headFileformatver fileFormat,
    dicoAddString 0 VolumeKey.headProgvercreat version]

/-- The items of a volume footer. -/
def volfooterCalls (curvol archid : UInt32) (lastvol : Bool) : List DicoCall :=
  [dicoAddU32 0 VolumeKey.footVolnum curvol, dicoAddU32 0 VolumeKey.footArchid archid,
    dicoAddU32 0 VolumeKey.footLastvol (if lastvol then 1 else 0)]

/-- `archwriter_write_volheader`. -/
def archwriterWriteVolheader (ai : ArchWriter) : Option ArchWriter := do
  let voldico := dicoAddAll Dico.alloc (volheaderCalls ai.curvol ai.archid)
  let wb ← writebufAddHeader [] voldico .volh ai.archid filesysidNull
  archwriterWriteBuffer ai wb

/-- `archwriter_write_volfooter`. -/
def archwriterWriteVolfooter (ai : ArchWriter) (lastvol : Bool) : Option ArchWriter := do
  let voldico := dicoAddAll Dico.alloc (volfooterCalls ai.curvol ai.archid lastvol)
  let wb ← writebufAddHeader [] voldico .volf ai.archid filesysidNull
  archwriterWriteBuffer ai wb

/-- `archwriter_split_check`; without a split size it is 0. -/
def archwriterSplitCheck (splitsize : Nat) (ai : ArchWriter) (wb : List UInt8) : Bool :=
  decide (splitsize > 0) && decide (ai.current.length + wb.length > splitsize)

/-- `archwriter_close` and the opening of the next volume. -/
def ArchWriter.nextVolume (ai : ArchWriter) : ArchWriter :=
  { ai with curvol := ai.curvol + 1, closed := ai.closed ++ [ai.current], current := [] }

/-- `archwriter_split_if_necessary`. -/
def archwriterSplitIfNecessary (splitsize : Nat) (ai : ArchWriter) (wb : List UInt8) :
    Option ArchWriter :=
  if archwriterSplitCheck splitsize ai wb then do
    let ai ← archwriterWriteVolfooter ai false
    archwriterWriteVolheader ai.nextVolume
  else some ai

/-- `archwriter_dowrite_block`. -/
def archwriterDowriteBlock (splitsize : Nat) (ai : ArchWriter) (blkinfo : BlockInfo) :
    Option ArchWriter := do
  let wb ← writebufAddBlock [] blkinfo ai.archid blkinfo.blkfsid
  let ai ← archwriterSplitIfNecessary splitsize ai wb
  archwriterWriteBuffer ai wb

/-- `archwriter_dowrite_header`. -/
def archwriterDowriteHeader (splitsize : Nat) (ai : ArchWriter) (headinfo : HeadInfo) :
    Option ArchWriter := do
  let wb ← writebufAddHeader [] headinfo.dico headinfo.magic ai.archid headinfo.fsid
  let ai ← archwriterSplitIfNecessary splitsize ai wb
  archwriterWriteBuffer ai wb

/-- One item in the loop of `thread_writer_fct`. -/
def writeItem (splitsize : Nat) (ai : ArchWriter) : QueueData → Option ArchWriter
  | .block blkinfo => archwriterDowriteBlock splitsize ai blkinfo
  | .header headinfo => archwriterDowriteHeader splitsize ai headinfo

/-- `thread_writer_fct` on the items it dequeues: the volumes it leaves behind. -/
def threadWriterFct (splitsize : Nat) (archid : UInt32) (items : List QueueData) :
    Option (List (List UInt8)) := do
  let ai ← archwriterWriteVolheader { archid, curvol := 0, closed := [], current := [] }
  let ai ← items.foldlM (writeItem splitsize) ai
  let ai ← archwriterWriteVolfooter ai true
  some (ai.closed ++ [ai.current])

/-! ## Reader -/

/-- An item the reader adds to the queue, with the place of its record. -/
structure Enqueued where
  /-- Number of the volume. -/
  vol : UInt32
  /-- Position of the record in the volume. -/
  start : Nat
  /-- The call that adds the item. -/
  input : Input
  deriving DecidableEq

/-- What the reader reads from. -/
structure Source where
  /-- The file that answers to the path of a volume. -/
  volume : UInt32 → Option (List UInt8)
  /-- `g_fsbitmap`: filesystems the main thread needs. -/
  fsbitmap : UInt16 → UInt8
  /-- Memory that nothing has defined. -/
  mem : Mem

/-- How an iteration of the loop of `thread_reader_fct` ends. -/
inductive Iteration where
  /-- The loop goes on. -/
  | next (item : Option Enqueued) (ai : ArchReader)
  /-- The loop or the function is left. -/
  | stop

/-- The branch for a volume footer. A missing next volume keeps the reader at its prompt, which
adds no items either. -/
def readVolfooter (src : Source) (ai : ArchReader) (d : Dico) : Iteration :=
  match dicoGetU32 src.mem d 0 VolumeKey.footLastvol with
  | none => .stop
  | some endofarchive =>
    if endofarchive = 1 then .stop
    else
      let ai := { ai with curvol := ai.curvol + 1 }
      match (src.volume ai.curvol).bind fun file =>
        (archreaderOpen ai file).bind (archreaderReadVolheader src.mem) with
      | none => .stop
      | some ai => if endofarchive = 0 then .next none ai else .stop

/-- The branch for a block header. -/
def readBlock (src : Source) (ai : ArchReader) (head : HeaderRead) : Iteration :=
  let skipblock := src.fsbitmap head.fsid = 0
  match archreaderReadBlock src.mem ai head.dico skipblock with
  | none => .stop
  | some (none, ai) => .next none ai
  | some (some (blkinfo, sumok), ai) =>
    .next (some ⟨ai.curvol, head.start, if sumok then .todo blkinfo else .ready blkinfo⟩) ai

/-- The branch for any other header. -/
def readOther (src : Source) (ai : ArchReader) (head : HeaderRead) : Iteration :=
  if head.fsid = filesysidNull ∨ src.fsbitmap head.fsid = 1 then
    .next (some ⟨ai.curvol, head.start, .header ⟨head.magic, head.fsid, head.dico⟩⟩) ai
  else .next none ai

/-- One iteration of the loop of `thread_reader_fct`. -/
def readNext (src : Source) (ai : ArchReader) : Iteration :=
  match archreaderReadHeader src.mem ai true with
  | .minor ai => .next none ai
  | .fatal => .stop
  | .ok head ai =>
    match head.magic with
    | .volf => readVolfooter src ai head.dico
    | .blkh => readBlock src ai head
    | _ => readOther src ai head

/-- The loop of `thread_reader_fct`, for at most so many iterations. -/
def readLoop (src : Source) : Nat → ArchReader → Option (List Enqueued)
  | 0, _ => none
  | fuel + 1, ai =>
    match readNext src ai with
    | .stop => some []
    | .next item ai => (readLoop src fuel ai).map (item.toList ++ ·)

/-- The reader up to its loop: the main header and the reader behind it. -/
def readStart (src : Source) : Option (Enqueued × ArchReader) := do
  let file ← src.volume 0
  let ai ← archreaderOpen archreaderInit file
  let ai ← archreaderReadVolheader src.mem ai
  match archreaderReadHeader src.mem ai false with
  | .minor _ | .fatal => none
  | .ok head ai => do
    let archid ← dicoGetU32 src.mem head.dico 0 mainArchiveid
    some (⟨ai.curvol, head.start, .header ⟨head.magic, head.fsid, head.dico⟩⟩,
      { ai with archid })

/-- `thread_reader_fct`, not interrupted by the main thread: what it adds to the queue. -/
def threadReaderFct (src : Source) (fuel : Nat) : Option (List Enqueued) :=
  match readStart src with
  | none => some []
  | some (first, ai) => (readLoop src fuel ai).map (first :: ·)

end FsArchiver
