import FsArchiver.Writebuf

/-!
# Reading records

`archreader.c`. A reader holds the contents of the open volume and its position in it. A read
that the volume cannot satisfy ends the reader in every caller, so the position it leaves
behind is not kept. Where the source reads behind a buffer or a variable that was not fully
set, the bytes come from `Mem`.
-/
namespace FsArchiver

open Lib

/-- `s_archreader`, with the open volume in place of its descriptor. -/
structure ArchReader where
  /-- Contents of the open volume. -/
  file : List UInt8
  /-- Position in the volume. -/
  pos : Nat
  /-- Archive id, or 0 while it is not known. -/
  archid : UInt32
  /-- Number of the current volume. -/
  curvol : UInt32
  /-- Detected version of the format. -/
  filefmtver : Nat
  /-- `filefmt[FSA_MAX_FILEFMTLEN]`. -/
  filefmt : List UInt8
  /-- `creatver[FSA_MAX_PROGVERLEN]`. -/
  creatver : List UInt8
  deriving DecidableEq

/-- `FSA_MAX_FILEFMTLEN`. -/
def maxFileFmtLen : Nat := 32

/-- `FSA_MAX_PROGVERLEN`. -/
def maxProgVerLen : Nat := 32

/-- How a function of the reader ends. -/
inductive Read (α : Type) where
  /-- `FSAERR_SUCCESS`. -/
  | ok (value : α) (ai : ArchReader)
  /-- `OLDERR_MINOR`: what was read is not usable, the reader goes on behind it. -/
  | minor (ai : ArchReader)
  /-- `OLDERR_FATAL`. -/
  | fatal

/-- `archreader_init`. -/
def archreaderInit : ArchReader :=
  { file := [], pos := 0, archid := 0, curvol := 0, filefmtver := 0
    filefmt := List.replicate maxFileFmtLen 0, creatver := List.replicate maxProgVerLen 0 }

/-- The characters `FsArCh_001`. -/
def fileFormat1 : List UInt8 := [0x46, 0x73, 0x41, 0x72, 0x43, 0x68, 0x5f, 0x30, 0x30, 0x31]

/-- The characters `FsArCh_00Y`. -/
def fileFormatY : List UInt8 := [0x46, 0x73, 0x41, 0x72, 0x43, 0x68, 0x5f, 0x30, 0x30, 0x59]

/-- `FSA_FILEFORMAT`: the characters `FsArCh_002`. -/
def fileFormat : List UInt8 := [0x46, 0x73, 0x41, 0x72, 0x43, 0x68, 0x5f, 0x30, 0x30, 0x32]

/-- `archreader_open` on a regular file: the version is detected from the first 64 bytes. -/
def archreaderOpen (ai : ArchReader) (file : List UInt8) : Option ArchReader := do
  let volhead ← readAt file 0 64
  let ai := { ai with file, pos := 0 }
  if (volhead.drop 40).take 10 = fileFormat1 ∨ (volhead.drop 40).take 10 = fileFormatY then
    some { ai with filefmtver := 1 }
  else if (volhead.drop 42).take 10 = fileFormat then some { ai with filefmtver := 2 }
  else none

/-- `archreader_read_data`. -/
def archreaderReadData (ai : ArchReader) (size : Nat) : Option (List UInt8 × ArchReader) :=
  (readAt ai.file ai.pos size).map fun data => (data, { ai with pos := ai.pos + size })

/-! ## Dicos -/

/-- The `size` bytes from a place in a heap buffer, and of what lies behind the buffer. -/
def heapBytes (mem : Mem) (buffer : List UInt8) (pos size : Nat) : List UInt8 :=
  (List.range size).map fun i =>
    (buffer[pos + i]?).getD (mem.heap (pos + i - buffer.length))

/-- The loop of `archreader_read_dico`: this many items from this place in the buffer. -/
def readItems (mem : Mem) (buffer : List UInt8) : Nat → Nat → Dico → Option Dico
  | 0, _, d => some d
  | count + 1, pos, d =>
    let type := UInt8.ofNat (leNat (heapBytes mem buffer pos 1))
    let sect := UInt8.ofNat (leNat (heapBytes mem buffer (pos + 1) 1))
    let key := UInt16.ofNat (leNat (heapBytes mem buffer (pos + 2) 2))
    let size := leNat (heapBytes mem buffer (pos + 4) 2)
    match dicoAddGeneric d sect key (heapBytes mem buffer (pos + 6) size) type with
    | none => none
    | some d => readItems mem buffer count (pos + 6 + size) d

/-- `archreader_read_dico`. -/
def archreaderReadDico (mem : Mem) (ai : ArchReader) : Read Dico :=
  let lenSize := if ai.filefmtver = 1 then 2 else 4
  if ai.filefmtver ≠ 1 ∧ ai.filefmtver ≠ 2 then .fatal
  else
    match archreaderReadData ai lenSize with
    | none => .fatal
    | some (len, ai) =>
      match archreaderReadData ai (leNat len) with
      | none => .fatal
      | some (buffer, ai) =>
        match archreaderReadData ai 4 with
        | none => .fatal
        | some (origsum, ai) =>
          if (fletcher32 buffer).toNat ≠ leNat origsum then .minor ai
          else
            match readItems mem buffer (leNat (heapBytes mem buffer 0 2)) 2 Dico.alloc with
            | none => .fatal
            | some d => .ok d ai

/-! ## Headers -/

/-- The search of `archreader_read_header`: the first place from here that holds a valid magic.
The source gives up at the first place with less than four bytes, from which no magic can
follow. -/
def findMagic : List UInt8 → Option (Nat × Magic)
  | [] => none
  | byte :: rest =>
    match Magic.ofBytes ((byte :: rest).take sizeofMagic) with
    | some magic => some (0, magic)
    | none => (findMagic rest).map fun found => (found.1 + 1, found.2)

/-- A header as it was read, and where its record starts. -/
structure HeaderRead where
  /-- Position of the magic. -/
  start : Nat
  /-- Type of header. -/
  magic : Magic
  /-- Filesystem id. -/
  fsid : UInt16
  /-- Contents. -/
  dico : Dico

/-- `archreader_read_header` behind the magic. -/
def readHeaderAt (mem : Mem) (ai : ArchReader) (start : Nat) (magic : Magic) : Read HeaderRead :=
  match archreaderReadData { ai with pos := start + sizeofMagic } 4 with
  | none => .fatal
  | some (archid, ai) =>
    if ai.archid ≠ 0 ∧ leNat archid ≠ ai.archid.toNat then .minor ai
    else
      match archreaderReadData ai 2 with
      | none => .fatal
      | some (fsid, ai) =>
        match archreaderReadDico mem ai with
        | .ok dico ai => .ok ⟨start, magic, UInt16.ofNat (leNat fsid), dico⟩ ai
        | .minor ai => .minor ai
        | .fatal => .fatal

/-- `archreader_read_header`. Without `allowseek` the magic must be here. -/
def archreaderReadHeader (mem : Mem) (ai : ArchReader) (allowseek : Bool) : Read HeaderRead :=
  match findMagic (ai.file.drop ai.pos) with
  | none => .fatal
  | some (offset, magic) =>
    if offset ≠ 0 ∧ allowseek = false then .fatal
    else readHeaderAt mem ai (ai.pos + offset) magic

/-! ## Volume headers -/

/-- A local array of `size` bytes into which a dico item was copied. -/
def localBuffer (mem : Mem) (size : Nat) (data : List UInt8) : List UInt8 :=
  data ++ (List.range (size - data.length)).map fun i => mem.stack (data.length + i)

/-- The comparison of `strncmp` with the size of the arrays as its bound. -/
def sameString (left right : List UInt8) : Bool := cString left = cString right

/-- `archreader_read_volheader`. -/
def archreaderReadVolheader (mem : Mem) (ai : ArchReader) : Option ArchReader :=
  match archreaderReadHeader mem ai false with
  | .minor _ | .fatal => none
  | .ok head ai => do
    if head.magic ≠ .volh then none
    let readid ← dicoGetU32 mem head.dico 0 VolumeKey.headArchid
    let ai ←
      if ai.archid = 0 then some { ai with archid := readid }
      else if readid ≠ ai.archid then none
      else some ai
    let volnum ← dicoGetU32 mem head.dico 0 VolumeKey.headVolnum
    if volnum ≠ ai.curvol then none
    let filefmt ← dicoGetData head.dico 0 VolumeKey.headFileformatver maxFileFmtLen
    let filefmt := localBuffer mem maxFileFmtLen filefmt
    let ai ←
      if ai.filefmt.head? = some 0 then some { ai with filefmt }
      else if sameString filefmt ai.filefmt then some ai
      else none
    let creatver ← dicoGetData head.dico 0 VolumeKey.headProgvercreat maxProgVerLen
    let creatver := localBuffer mem maxProgVerLen creatver
    some (if ai.creatver.head? = some 0 then { ai with creatver } else ai)

/-! ## Blocks -/

/-- The fields `archreader_read_block` gets from the block header. -/
structure BlockHead where
  /-- Offset in the file. -/
  blockoffset : UInt64
  /-- Real size. -/
  curblocksize : UInt32
  /-- Compression algorithm. -/
  compalgo : UInt16
  /-- Encryption algorithm. -/
  cryptalgo : UInt16
  /-- Stored size. -/
  finalsize : UInt32
  /-- Compressed size. -/
  compsize : UInt32
  /-- Stored checksum. -/
  arblockcsumorig : UInt32

/-- The first half of `archreader_read_block`. -/
def readBlockHead (mem : Mem) (d : Dico) : Option BlockHead := do
  let blockoffset ← dicoGetU64 mem d 0 BlockKey.blockoffset
  let curblocksize ← dicoGetU32 mem d 0 BlockKey.realsize
  if curblocksize.toNat > maxBlkSize then none
  let compalgo ← dicoGetU16 mem d 0 BlockKey.compressalgo
  let cryptalgo ← dicoGetU16 mem d 0 BlockKey.encryptalgo
  let finalsize ← dicoGetU32 mem d 0 BlockKey.arsize
  let compsize ← dicoGetU32 mem d 0 BlockKey.compsize
  let arblockcsumorig ← dicoGetU32 mem d 0 BlockKey.arcsum
  some { blockoffset, curblocksize, compalgo, cryptalgo, finalsize, compsize, arblockcsumorig }

/-- The block a block header and its stored data describe. `blkfsid` stays cleared. -/
def BlockHead.blkinfo (head : BlockHead) (blkdata : List UInt8) : BlockInfo :=
  { blkdata, blkrealsize := head.curblocksize, blkoffset := head.blockoffset
    blkarcsum := head.arblockcsumorig, blkarsize := head.finalsize
    blkcompalgo := head.compalgo, blkcompsize := head.compsize
    blkcryptalgo := head.cryptalgo, blkfsid := 0 }

/-- `archreader_read_block`: nothing for a skipped block, else the block and whether its
checksum is right. A block with a wrong checksum is replaced by zeros of its real size, and
the reader goes back to the start of its data. -/
def archreaderReadBlock (mem : Mem) (ai : ArchReader) (d : Dico) (skipblock : Bool) :
    Option (Option (BlockInfo × Bool) × ArchReader) := do
  let head ← readBlockHead mem d
  if skipblock then some (none, { ai with pos := ai.pos + head.finalsize.toNat })
  else
    let (buffer, after) ← archreaderReadData ai head.finalsize.toNat
    if fletcher32 buffer = head.arblockcsumorig then some (some (head.blkinfo buffer, true), after)
    else
      some (some (head.blkinfo (List.replicate head.curblocksize.toNat 0), false), ai)

end FsArchiver
