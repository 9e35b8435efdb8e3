import FsArchiver.Queue

/-!
# Encoding of records

`writebuf.c` and the checksum of `common.c`: the bytes of a header record and of a block
record. `headerBytes` and `blockBytes` are the layout of the two kinds of records; the
functions of the source produce them for every dico whose encoding has a 32-bit length.
-/
namespace FsArchiver

open Lib

/-! ## Checksum -/

/-- The reduction of a sum of `fletcher32` to 16 bits and its carry. -/
def fletcherReduce (sum : UInt32) : UInt32 := (sum &&& (0xffff : UInt32)) + (sum >>> (16 : UInt32))

/-- The two loops of `fletcher32`; `tlen` counts down the bytes up to the next reduction,
which also happens after the last byte. -/
def fletcherLoop : List UInt8 → Nat → UInt32 → UInt32 → UInt32 × UInt32
  | [], _, sum1, sum2 => (sum1, sum2)
  | byte :: rest, tlen, sum1, sum2 =>
    let sum1 := sum1 + byte.toUInt32
    let sum2 := sum2 + sum1
    if tlen ≤ 1 ∨ rest = [] then fletcherLoop rest 360 (fletcherReduce sum1) (fletcherReduce sum2)
    else fletcherLoop rest (tlen - 1) sum1 sum2

/-- `fletcher32`. -/
def fletcher32 (data : List UInt8) : UInt32 :=
  let sums := fletcherLoop data 360 0xffff 0xffff
  fletcherReduce sums.2 <<< 16 ||| fletcherReduce sums.1

/-! ## The functions of `writebuf.c` -/

/-- `writebuf_add_data`: an empty piece is an error. -/
def writebufAddData (wb data : List UInt8) : Option (List UInt8) :=
  if data.length = 0 then none else some (wb ++ data)

/-- An item as `writebuf_add_dico` copies it. -/
def DicoItem.encode (item : DicoItem) : List UInt8 :=
  [item.type, item.sect] ++ leBytes 2 item.key.toNat ++ leBytes 2 item.data.length ++ item.data

/-- The 32-bit sum of the sizes in `writebuf_add_dico`. -/
def Dico.headerlen (d : Dico) : UInt32 :=
  d.items.foldl (fun len item => len + 1 + 1 + 2 + 2 + UInt32.ofNat item.data.length) 2

/-- The number of items in 16 bits, then the items. -/
def Dico.encode (d : Dico) : List UInt8 :=
  leBytes 2 d.items.length ++ d.items.flatMap DicoItem.encode

/-- `writebuf_add_dico`. The buffer has `headerlen` bytes, whatever is copied to it. -/
def writebufAddDico (wb : List UInt8) (d : Dico) : Option (List UInt8) := do
  let buffer := d.encode.take d.headerlen.toNat
  let wb ← writebufAddData wb (leBytes 4 d.headerlen.toNat)
  let wb ← writebufAddData wb buffer
  writebufAddData wb (leBytes 4 (fletcher32 buffer).toNat)

/-- `writebuf_add_header`. -/
def writebufAddHeader (wb : List UInt8) (d : Dico) (magic : Magic) (archid : UInt32)
    (fsid : UInt16) : Option (List UInt8) := do
  let wb ← writebufAddData wb magic.bytes
  let wb ← writebufAddData wb (leBytes 4 archid.toNat)
  let wb ← writebufAddData wb (leBytes 2 fsid.toNat)
  writebufAddDico wb d

/-- The items of a block header. -/
def blockCalls (blkinfo : BlockInfo) : List DicoCall :=
  [dicoAddU64 0 BlockKey.blockoffset blkinfo.blkoffset,
    dicoAddU32 0 BlockKey.realsize blkinfo.blkrealsize,
    dicoAddU32 0 BlockKey.arsize blkinfo.blkarsize,
    dicoAddU32 0 BlockKey.compsize blkinfo.blkcompsize,
    dicoAddU32 0 BlockKey.arcsum blkinfo.blkarcsum,
    dicoAddU16 0 BlockKey.compressalgo blkinfo.blkcompalgo,
    dicoAddU16 0 BlockKey.encryptalgo blkinfo.blkcryptalgo]

/-- The dico of a block header. -/
def blockDico (blkinfo : BlockInfo) : Dico := dicoAddAll Dico.alloc (blockCalls blkinfo)

/-- `writebuf_add_block`. -/
def writebufAddBlock (wb : List UInt8) (blkinfo : BlockInfo) (archid : UInt32) (fsid : UInt16) :
    Option (List UInt8) :=
  if blkinfo.blkarsize = 0 then none
  else do
    let wb ← writebufAddHeader wb (blockDico blkinfo) .blkh archid fsid
    writebufAddData wb (blkinfo.blkdata.take blkinfo.blkarsize.toNat)

/-! ## The layout of records -/

/-- A dico whose item count and length fit the fields they are written to. -/
structure Dico.Fits (d : Dico) : Prop where
  /-- The item count has 16 bits. -/
  count : d.items.length < 65536
  /-- The length has 32 bits. -/
  length : d.encode.length < 4294967296

/-- The bytes of a dico: length, contents, checksum. -/
def dicoBytes (d : Dico) : List UInt8 :=
  leBytes 4 d.encode.length ++ d.encode ++ leBytes 4 (fletcher32 d.encode).toNat

/-- The bytes of a header record. -/
def headerBytes (magic : Magic) (archid : UInt32) (fsid : UInt16) (d : Dico) : List UInt8 :=
  magic.bytes ++ leBytes 4 archid.toNat ++ leBytes 2 fsid.toNat ++ dicoBytes d

/-- The bytes of a block record: a header and the stored data. -/
def blockBytes (archid : UInt32) (blkinfo : BlockInfo) : List UInt8 :=
  headerBytes .blkh archid blkinfo.blkfsid (blockDico blkinfo) ++ blkinfo.blkdata

theorem length_encodeItem (item : DicoItem) : item.encode.length = 6 + item.data.length := by
  simp only [DicoItem.encode, List.length_append, List.length_cons, List.length_nil,
    length_leBytes]

/-- The 32-bit sum is the length of the encoding, reduced to 32 bits. -/
theorem headerlen_eq (d : Dico) : d.headerlen = UInt32.ofNat d.encode.length := by
  have sum (items : List DicoItem) (start : Nat) :
      items.foldl (fun len item => len + 1 + 1 + 2 + 2 + UInt32.ofNat item.data.length)
        (UInt32.ofNat start) = UInt32.ofNat (start + (items.flatMap DicoItem.encode).length) := by
    induction items generalizing start with
    | nil => simp
    | cons item items ih =>
      have head : UInt32.ofNat start + 1 + 1 + 2 + 2 + UInt32.ofNat item.data.length =
          UInt32.ofNat (start + 1 + 1 + 2 + 2 + item.data.length) := by
        simp only [UInt32.ofNat_add]
        rfl
      rw [List.foldl_cons, head, ih, List.flatMap_cons, List.length_append, length_encodeItem]
      congr 1
      omega
  have whole := sum d.items 2
  simpa [Dico.headerlen, Dico.encode] using whole

/-- A dico that fits is written in its layout. -/
theorem writebufAddDico_eq (wb : List UInt8) {d : Dico} (fits : d.Fits) :
    writebufAddDico wb d = some (wb ++ dicoBytes d) := by
  have len : d.headerlen.toNat = d.encode.length := by
    rw [headerlen_eq, UInt32.toNat_ofNat', Nat.mod_eq_of_lt fits.length]
  have nonempty : d.encode.length ≠ 0 := by simp [Dico.encode]
  simp only [writebufAddDico, len, List.take_length, writebufAddData, length_leBytes]
  simp [nonempty, dicoBytes]

/-- A header whose dico fits is written in its layout. -/
theorem writebufAddHeader_eq (wb : List UInt8) {d : Dico} (fits : d.Fits) (magic : Magic)
    (archid : UInt32) (fsid : UInt16) :
    writebufAddHeader wb d magic archid fsid = some (wb ++ headerBytes magic archid fsid d) := by
  simp only [writebufAddHeader, writebufAddData, length_leBytes, Magic.length_bytes,
    writebufAddDico_eq _ fits]
  simp [headerBytes]

/-- A block header has all its items. -/
theorem items_blockDico (blkinfo : BlockInfo) :
    (blockDico blkinfo).items = (blockCalls blkinfo).map DicoCall.item :=
  items_dicoAddAll (show ([BlockKey.blockoffset, BlockKey.realsize, BlockKey.arsize,
    BlockKey.compsize, BlockKey.arcsum, BlockKey.compressalgo, BlockKey.encryptalgo].map
      (Prod.mk (0 : UInt8))).Nodup by decide)

end FsArchiver
