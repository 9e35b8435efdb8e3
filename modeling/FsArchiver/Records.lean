import FsArchiver.ThreadArchio

/-!
# Reading back records

A reader that stands before an encoded record reads the header or block that was encoded and
stands behind the record. The statements are about the bytes ahead of the reader, whatever
lies behind it.
-/
namespace FsArchiver

open Lib

namespace ArchReader

/-- The bytes from the position of the reader on. -/
def ahead (ai : ArchReader) : List UInt8 := ai.file.drop ai.pos

/-- The reader so many bytes further on. -/
def skip (ai : ArchReader) (size : Nat) : ArchReader := { ai with pos := ai.pos + size }

variable {ai : ArchReader}

@[simp] theorem skip_file (size : Nat) : (ai.skip size).file = ai.file := rfl
@[simp] theorem skip_pos (size : Nat) : (ai.skip size).pos = ai.pos + size := rfl
@[simp] theorem skip_archid (size : Nat) : (ai.skip size).archid = ai.archid := rfl
@[simp] theorem skip_curvol (size : Nat) : (ai.skip size).curvol = ai.curvol := rfl
@[simp] theorem skip_filefmtver (size : Nat) : (ai.skip size).filefmtver = ai.filefmtver := rfl

@[simp] theorem skip_skip (first second : Nat) :
    (ai.skip first).skip second = ai.skip (first + second) := by
  simp only [skip, Nat.add_assoc]

@[simp] theorem skip_zero : ai.skip 0 = ai := rfl

/-- Behind a part lies what follows it. -/
theorem ahead_skip {part rest : List UInt8} (here : ai.ahead = part ++ rest) :
    (ai.skip part.length).ahead = rest :=
  drop_add_of_drop here

end ArchReader

/-- Reading the part ahead. -/
theorem archreaderReadData_of_ahead {ai : ArchReader} {part rest : List UInt8} {size : Nat}
    (here : ai.ahead = part ++ rest) (count : size = part.length) :
    archreaderReadData ai size = some (part, ai.skip size) := by
  subst count
  simp only [archreaderReadData, readAt_of_drop here, Option.map_some, ArchReader.skip]

/-! ## Dicos -/

/-- Bytes that lie inside a buffer do not depend on what lies behind it. -/
theorem heapBytes_of_split (mem : Mem) (front part rest : List UInt8) {pos size : Nat}
    (start : pos = front.length) (count : size = part.length) :
    heapBytes mem (front ++ part ++ rest) pos size = part := by
  subst start count
  apply List.ext_getElem
  · simp [heapBytes]
  · intro i inside inside'
    simp only [heapBytes, List.getElem_map, List.getElem_range, List.append_assoc]
    rw [List.getElem?_append_right (by omega), Nat.add_sub_cancel_left,
      List.getElem?_append_left inside', List.getElem?_eq_getElem inside', Option.getD_some]

/-- The bytes from the start of a buffer up to its size. -/
theorem heapBytes_all (mem : Mem) (buffer : List UInt8) :
    heapBytes mem buffer 0 buffer.length = buffer := by
  have split := heapBytes_of_split mem [] buffer [] rfl rfl
  rwa [List.append_nil, List.nil_append] at split

/-- Encoded items are read back behind those already read. -/
theorem readItems_encode (mem : Mem) (items : List DicoItem) (front tail : List UInt8) (d : Dico)
    (distinct : (d.items ++ items).map DicoItem.name |>.Nodup) :
    ∃ added, readItems mem (front ++ items.flatMap DicoItem.encode ++ tail) items.length
        front.length d = some added ∧ added.items = d.items ++ items := by
  induction items generalizing front d with
  | nil => exact ⟨d, rfl, (List.append_nil _).symm⟩
  | cons item items ih =>
    have cut (before part after : List UInt8) (same : before ++ part ++ after = item.encode)
        {pos size : Nat} (start : pos = front.length + before.length) (count : size = part.length) :
        heapBytes mem (front ++ (item :: items).flatMap DicoItem.encode ++ tail) pos size = part := by
      have split : front ++ (item :: items).flatMap DicoItem.encode ++ tail =
          (front ++ before) ++ part ++ (after ++ items.flatMap DicoItem.encode ++ tail) := by
        simp only [List.flatMap_cons, ← same, List.append_assoc]
      rw [split]
      exact heapBytes_of_split mem _ _ _ (by simpa using start) count
    have split : front ++ (item :: items).flatMap DicoItem.encode ++ tail =
        front ++ item.encode ++ items.flatMap DicoItem.encode ++ tail := by
      simp only [List.flatMap_cons, List.append_assoc]
    rw [split] at cut ⊢
    generalize buffer : front ++ item.encode ++ items.flatMap DicoItem.encode ++ tail = bytes at cut
    have type : heapBytes mem bytes front.length 1 = [item.type] :=
      cut [] [item.type] _ rfl rfl rfl
    have sect : heapBytes mem bytes (front.length + 1) 1 = [item.sect] :=
      cut [item.type] [item.sect] _ rfl rfl rfl
    have key : heapBytes mem bytes (front.length + 2) 2 = leBytes 2 item.key.toNat :=
      cut [item.type, item.sect] _ (leBytes 2 item.data.length ++ item.data)
        (by simp [DicoItem.encode]) rfl (by simp)
    have size : heapBytes mem bytes (front.length + 4) 2 = leBytes 2 item.data.length :=
      cut ([item.type, item.sect] ++ leBytes 2 item.key.toNat) _ item.data
        (by simp [DicoItem.encode]) (by simp) (by simp)
    have data : heapBytes mem bytes (front.length + 6) item.data.length = item.data :=
      cut ([item.type, item.sect] ++ leBytes 2 item.key.toNat ++ leBytes 2 item.data.length) _ []
        (by simp [DicoItem.encode]) (by simp) rfl
    have sizeValue : leNat (leBytes 2 item.data.length) = item.data.length :=
      leNat_leBytes_of_lt item.size_lt
    have same : DicoItem.make item.sect item.key item.data item.type = item := by
      simp only [DicoItem.make, sizedData_of_lt item.size_lt]
    have fresh : (item.sect, item.key) ∉ d.items.map DicoItem.name := by
      rw [List.map_append, List.nodup_append] at distinct
      exact fun taken => distinct.2.2 _ taken item.name (by simp) rfl
    obtain ⟨next, added⟩ : ∃ next,
        dicoAddGeneric d item.sect item.key item.data item.type = some next := by
      simp only [dicoAddGeneric, dif_pos fresh, Option.some.injEq, exists_eq']
    have nextItems : next.items = d.items ++ [item] := by
      rw [(dicoAddGeneric_eq_some.mp added).2, same]
    obtain ⟨final, rest, finalItems⟩ := ih (front ++ item.encode) next
      (by rw [nextItems]; simpa using distinct)
    refine ⟨final, ?_, by rw [finalItems, nextItems]; simp⟩
    rw [buffer, List.length_append, length_encodeItem, ← Nat.add_assoc] at rest
    simp only [List.length_cons, readItems, type, sect, key, size, sizeValue, data,
      leNat_leBytes_uint16, UInt16.ofNat_toNat, leNat, Nat.mul_zero, Nat.add_zero,
      UInt8.ofNat_toNat, added]
    exact rest

/-- The items of an encoded dico are read back. -/
theorem readItems_dico (mem : Mem) {d : Dico} (fits : d.Fits) :
    readItems mem d.encode (leNat (heapBytes mem d.encode 0 2)) 2 Dico.alloc = some d := by
  have count : heapBytes mem d.encode 0 2 = leBytes 2 d.items.length := by
    have cut := heapBytes_of_split mem [] (leBytes 2 d.items.length)
      (d.items.flatMap DicoItem.encode) rfl (length_leBytes ..).symm
    simpa [Dico.encode] using cut
  have countValue : leNat (leBytes 2 d.items.length) = d.items.length :=
    leNat_leBytes_of_lt fits.count
  obtain ⟨read, items, same⟩ := readItems_encode mem d.items (leBytes 2 d.items.length) []
    Dico.alloc (by simpa [Dico.alloc] using d.distinct)
  have whole : read = d := Dico.ext (by simpa [Dico.alloc] using same)
  simp only [List.append_nil, length_leBytes] at items
  rw [whole] at items
  rw [count, countValue]
  exact items

/-- An encoded dico is read back. -/
theorem archreaderReadDico_of_ahead (mem : Mem) {ai : ArchReader} {d : Dico} {rest : List UInt8}
    (version : ai.filefmtver = 2) (fits : d.Fits) (here : ai.ahead = dicoBytes d ++ rest) :
    archreaderReadDico mem ai = .ok d (ai.skip (dicoBytes d).length) := by
  simp only [dicoBytes, List.append_assoc] at here
  have atBody := ArchReader.ahead_skip here
  have atSum := ArchReader.ahead_skip atBody
  simp only [length_leBytes] at atBody atSum
  have len : archreaderReadData ai 4 = some (leBytes 4 d.encode.length, ai.skip 4) :=
    archreaderReadData_of_ahead here (length_leBytes ..).symm
  have body := archreaderReadData_of_ahead atBody rfl
  have sum : archreaderReadData ((ai.skip 4).skip d.encode.length) 4 = some (leBytes 4 _, _) :=
    archreaderReadData_of_ahead atSum (length_leBytes ..).symm
  have lenValue : leNat (leBytes 4 d.encode.length) = d.encode.length :=
    leNat_leBytes_of_lt fits.length
  have items := readItems_dico mem fits
  have total : (dicoBytes d).length = 4 + d.encode.length + 4 := by
    simp only [dicoBytes, List.length_append, length_leBytes]
  rw [ArchReader.skip_skip] at body sum
  rw [ArchReader.skip_skip] at sum
  simp [archreaderReadDico, version, len, lenValue, body, sum, items, total]

/-! ## Headers -/

/-- A magic right ahead is found at once. -/
theorem findMagic_of_ahead (magic : Magic) (rest : List UInt8) :
    findMagic (magic.bytes ++ rest) = some (0, magic) := by
  cases magic <;> rfl

/-- An encoded header is read back, by a reader that knows the archive id or none. -/
theorem archreaderReadHeader_of_ahead (mem : Mem) {ai : ArchReader} {magic : Magic}
    {archid : UInt32} {fsid : UInt16} {d : Dico} {rest : List UInt8} (allowseek : Bool)
    (version : ai.filefmtver = 2) (known : ai.archid = 0 ∨ ai.archid = archid) (fits : d.Fits)
    (here : ai.ahead = headerBytes magic archid fsid d ++ rest) :
    archreaderReadHeader mem ai allowseek =
      .ok ⟨ai.pos, magic, fsid, d⟩ (ai.skip (headerBytes magic archid fsid d).length) := by
  simp only [headerBytes, List.append_assoc] at here
  have found : findMagic (ai.file.drop ai.pos) = some (0, magic) := by
    have here' := here
    rw [ArchReader.ahead] at here'
    rw [here']
    exact findMagic_of_ahead magic _
  have atId := ArchReader.ahead_skip here
  have atFsid := ArchReader.ahead_skip atId
  have atDico := ArchReader.ahead_skip atFsid
  simp only [Magic.length_bytes, length_leBytes] at atId atFsid atDico
  have id : archreaderReadData (ai.skip 4) 4 = some (leBytes 4 _, _) :=
    archreaderReadData_of_ahead atId (length_leBytes ..).symm
  have fs : archreaderReadData ((ai.skip 4).skip 4) 2 = some (leBytes 2 _, _) :=
    archreaderReadData_of_ahead atFsid (length_leBytes ..).symm
  have dico : archreaderReadDico mem (((ai.skip 4).skip 4).skip 2) = .ok d _ :=
    archreaderReadDico_of_ahead mem version fits atDico
  have matching : ¬(ai.archid ≠ 0 ∧ archid.toNat ≠ ai.archid.toNat) := by
    rintro ⟨nonzero, other⟩
    rcases known with zero | same
    · exact nonzero zero
    · exact other (congrArg UInt32.toNat same.symm)
  have total : (headerBytes magic archid fsid d).length = 10 + (dicoBytes d).length := by
    simp only [headerBytes, List.length_append, Magic.length_bytes, length_leBytes]
  rw [ArchReader.skip_skip] at fs dico
  rw [ArchReader.skip_skip] at dico
  have sought : archreaderReadHeader mem ai allowseek = readHeaderAt mem ai ai.pos magic := by
    simp [archreaderReadHeader, found]
  rw [sought, readHeaderAt, show ({ ai with pos := ai.pos + sizeofMagic } : ArchReader) = ai.skip 4
    from rfl]
  simp only [id, ArchReader.skip_archid, leNat_leBytes_uint32, if_neg matching,
    ArchReader.skip_skip, fs, dico, leNat_leBytes_uint16, UInt16.ofNat_toNat, total]

/-! ## Blocks -/

/-- A block as it is stored: its size is that of the data, its checksum is right. -/
structure BlockInfo.Stored (blkinfo : BlockInfo) : Prop where
  /-- An empty block is never stored. -/
  nonempty : blkinfo.blkarsize ≠ 0
  /-- The stored size. -/
  size : blkinfo.blkdata.length = blkinfo.blkarsize.toNat
  /-- A block is at most `FSA_MAX_BLKSIZE` bytes of a file. -/
  real : blkinfo.blkrealsize.toNat ≤ maxBlkSize
  /-- The checksum of the stored bytes. -/
  sum : blkinfo.blkarcsum = fletcher32 blkinfo.blkdata

/-- The fields of a block header. -/
def BlockInfo.head (blkinfo : BlockInfo) : BlockHead :=
  { blockoffset := blkinfo.blkoffset, curblocksize := blkinfo.blkrealsize
    compalgo := blkinfo.blkcompalgo, cryptalgo := blkinfo.blkcryptalgo
    finalsize := blkinfo.blkarsize, compsize := blkinfo.blkcompsize
    arblockcsumorig := blkinfo.blkarcsum }

/-- The dico of a block header can be encoded. -/
theorem fits_blockDico (blkinfo : BlockInfo) : (blockDico blkinfo).Fits := by
  constructor
  · rw [items_blockDico, List.length_map]
    exact (by decide : 7 < 65536)
  · simp [Dico.encode, items_blockDico, blockCalls, length_encodeItem, DicoCall.item,
      DicoItem.make, length_sizedData, dicoAddU16, dicoAddU32, dicoAddU64]

/-- The fields of an encoded block header are read back. -/
theorem readBlockHead_blockDico (mem : Mem) {blkinfo : BlockInfo}
    (real : blkinfo.blkrealsize.toNat ≤ maxBlkSize) :
    readBlockHead mem (blockDico blkinfo) = some blkinfo.head := by
  have items := items_blockDico blkinfo
  have offset : dicoGetU64 mem (blockDico blkinfo) 0 BlockKey.blockoffset = some blkinfo.blkoffset :=
    dicoGetU64_of_call items (by simp [blockCalls])
  have size : dicoGetU32 mem (blockDico blkinfo) 0 BlockKey.realsize = some blkinfo.blkrealsize :=
    dicoGetU32_of_call items (by simp [blockCalls])
  have stored : dicoGetU32 mem (blockDico blkinfo) 0 BlockKey.arsize = some blkinfo.blkarsize :=
    dicoGetU32_of_call items (by simp [blockCalls])
  have comp : dicoGetU32 mem (blockDico blkinfo) 0 BlockKey.compsize = some blkinfo.blkcompsize :=
    dicoGetU32_of_call items (by simp [blockCalls])
  have sum : dicoGetU32 mem (blockDico blkinfo) 0 BlockKey.arcsum = some blkinfo.blkarcsum :=
    dicoGetU32_of_call items (by simp [blockCalls])
  have algo : dicoGetU16 mem (blockDico blkinfo) 0 BlockKey.compressalgo = some blkinfo.blkcompalgo :=
    dicoGetU16_of_call items (by simp [blockCalls])
  have crypt : dicoGetU16 mem (blockDico blkinfo) 0 BlockKey.encryptalgo = some blkinfo.blkcryptalgo :=
    dicoGetU16_of_call items (by simp [blockCalls])
  simp [readBlockHead, offset, size, stored, comp, sum, algo, crypt, BlockInfo.head,
    Nat.not_lt.mpr real]

/-- A stored block is read back from behind its header. -/
theorem archreaderReadBlock_of_ahead (mem : Mem) {ai : ArchReader} {blkinfo : BlockInfo}
    {rest : List UInt8} (stored : blkinfo.Stored) (here : ai.ahead = blkinfo.blkdata ++ rest) :
    archreaderReadBlock mem ai (blockDico blkinfo) false =
      some (some ({ blkinfo with blkfsid := 0 }, true), ai.skip blkinfo.blkdata.length) := by
  have data : archreaderReadData ai blkinfo.blkarsize.toNat = some (blkinfo.blkdata, _) :=
    archreaderReadData_of_ahead here stored.size.symm
  simp [archreaderReadBlock, readBlockHead_blockDico mem stored.real, BlockInfo.head, data,
    BlockHead.blkinfo, ← stored.sum, stored.size]

/-- A block whose stored bytes were replaced is read as zeros, and the reader stays in front of
the bytes. -/
theorem archreaderReadBlock_of_damaged (mem : Mem) {ai : ArchReader} {blkinfo : BlockInfo}
    {data rest : List UInt8} (stored : blkinfo.Stored) (here : ai.ahead = data ++ rest)
    (size : data.length = blkinfo.blkdata.length) (damaged : fletcher32 data ≠ blkinfo.blkarcsum) :
    archreaderReadBlock mem ai (blockDico blkinfo) false =
      some (some ({ blkinfo with
        blkdata := List.replicate blkinfo.blkrealsize.toNat 0
        blkfsid := 0 }, false), ai) := by
  have read : archreaderReadData ai blkinfo.blkarsize.toNat = some (data, _) :=
    archreaderReadData_of_ahead here (by rw [size, stored.size])
  simp [archreaderReadBlock, readBlockHead_blockDico mem stored.real, BlockInfo.head, read,
    BlockHead.blkinfo, damaged]

/-! ## Items -/

/-- The bytes of an item. -/
def itemBytes (archid : UInt32) : QueueData → List UInt8
  | .block blkinfo => blockBytes archid blkinfo
  | .header headinfo => headerBytes headinfo.magic archid headinfo.fsid headinfo.dico

/-- An item the writer can be given: a stored block of a filesystem, or a header of the contents
whose dico can be encoded. -/
def QueueData.Storable : QueueData → Prop
  | .block blkinfo => blkinfo.Stored ∧ blkinfo.blkfsid.toNat < maxFsPerArch
  | .header headinfo =>
    headinfo.magic ∈ [Magic.fsin, .fsyb, .dirs, .objt, .filf, .datf] ∧
      (headinfo.fsid.toNat < maxFsPerArch ∨ headinfo.fsid = filesysidNull) ∧ headinfo.dico.Fits

/-- The call with which the reader adds an item to the queue. -/
def QueueData.readBack : QueueData → Input
  | .block blkinfo => .todo { blkinfo with blkfsid := 0 }
  | .header headinfo => .header headinfo

/-- The main thread needs every filesystem. -/
def Source.SelectsAll (src : Source) : Prop :=
  ∀ fsid : UInt16, fsid.toNat < maxFsPerArch → src.fsbitmap fsid = 1

/-- The encoded header of a block is read back; its data lies behind it. -/
theorem readBlockHeader (mem : Mem) {ai : ArchReader} {archid : UInt32} {blkinfo : BlockInfo}
    {data rest : List UInt8} (version : ai.filefmtver = 2) (known : ai.archid = archid)
    (here : ai.ahead =
      headerBytes .blkh archid blkinfo.blkfsid (blockDico blkinfo) ++ data ++ rest) :
    archreaderReadHeader mem ai true =
        .ok ⟨ai.pos, .blkh, blkinfo.blkfsid, blockDico blkinfo⟩
          (ai.skip (headerBytes .blkh archid blkinfo.blkfsid (blockDico blkinfo)).length) ∧
      (ai.skip (headerBytes .blkh archid blkinfo.blkfsid (blockDico blkinfo)).length).ahead =
        data ++ rest := by
  rw [List.append_assoc] at here
  exact ⟨archreaderReadHeader_of_ahead mem true version (.inr known) (fits_blockDico blkinfo) here,
    ArchReader.ahead_skip here⟩

/-- One iteration reads one item. -/
theorem readNext_item {src : Source} (selects : src.SelectsAll) {ai : ArchReader}
    {archid : UInt32} {item : QueueData} {rest : List UInt8} (storable : item.Storable)
    (version : ai.filefmtver = 2) (known : ai.archid = archid)
    (here : ai.ahead = itemBytes archid item ++ rest) :
    readNext src ai = .next (some ⟨ai.curvol, ai.pos, item.readBack⟩)
      (ai.skip (itemBytes archid item).length) := by
  cases item with
  | header headinfo =>
    obtain ⟨magic, fsid, dico⟩ := headinfo
    obtain ⟨content, filesystem, fits⟩ := storable
    have read : archreaderReadHeader src.mem ai true = .ok ⟨ai.pos, magic, fsid, dico⟩ _ :=
      archreaderReadHeader_of_ahead src.mem true version (.inr known) fits here
    have needed : fsid = filesysidNull ∨ src.fsbitmap fsid = 1 :=
      filesystem.symm.imp id (selects fsid)
    have other : readNext src ai = readOther src (ai.skip (headerBytes magic archid fsid dico).length)
        ⟨ai.pos, magic, fsid, dico⟩ := by
      rw [readNext, read]
      cases magic <;> first | rfl | simp at content
    rw [other, readOther, if_pos needed]
    rfl
  | block blkinfo =>
    obtain ⟨stored, filesystem⟩ := storable
    obtain ⟨read, behind⟩ := readBlockHeader src.mem version known here
    have data := archreaderReadBlock_of_ahead src.mem stored behind
    have needed : ¬src.fsbitmap blkinfo.blkfsid = 0 := by
      rw [selects _ filesystem]
      decide
    rw [readNext, read]
    simp [readBlock, needed, data, itemBytes, blockBytes, QueueData.readBack]

end FsArchiver
