import FsArchiver.Volumes

/-!
# Splitting is transparent

The volumes the writer leaves behind hold its items in order, cut at item boundaries, and a
reader of these volumes adds the same items to the queue. The first volume has to start with
the main header, which the reader expects there: a main header that does not fit into the
split size together with the volume header makes the writer change the volume in front of it.
-/
namespace FsArchiver

open Lib

/-- An item that can be written: a block with its data, or a header whose dico fits. -/
def QueueData.Encodable : QueueData → Prop
  | .block blkinfo => blkinfo.blkarsize ≠ 0 ∧ blkinfo.blkdata.length = blkinfo.blkarsize.toNat
  | .header headinfo => headinfo.dico.Fits

/-- What can be read back can be written. -/
theorem QueueData.Storable.encodable {item : QueueData} (storable : item.Storable) :
    item.Encodable := by
  cases item with
  | block blkinfo => exact ⟨storable.1.nonempty, storable.1.size⟩
  | header headinfo => exact storable.2.2

/-- Volumes that are not the last one. -/
def closedFrom (archid : UInt32) : UInt32 → List (List QueueData) → List (List UInt8)
  | _, [] => []
  | curvol, items :: rest =>
    volumeBytes archid curvol items false :: closedFrom archid (curvol + 1) rest

/-- The writer has closed volumes with these lists of items, and these items are in the open
one. -/
structure ArchWriter.Holds (archid : UInt32) (done : List (List QueueData)) (items : List QueueData)
    (ai : ArchWriter) : Prop where
  /-- The archive id. -/
  id : ai.archid = archid
  /-- Volumes are numbered from 0. -/
  vol : ai.curvol = UInt32.ofNat done.length
  /-- The closed volumes. -/
  closed : ai.closed = closedFrom archid 0 done
  /-- The open volume has no footer yet. -/
  current : ai.current = volheadBytes archid ai.curvol ++ itemsBytes archid items

variable {archid : UInt32} {done : List (List QueueData)} {items : List QueueData} {ai : ArchWriter}

/-- A closed volume more. -/
theorem closedFrom_append (curvol : UInt32) (done : List (List QueueData)) (items : List QueueData) :
    closedFrom archid curvol (done ++ [items]) = closedFrom archid curvol done ++
      [volumeBytes archid (curvol + UInt32.ofNat done.length) items false] := by
  induction done generalizing curvol with
  | nil => simp [closedFrom]
  | cons first done ih =>
    have number : curvol + 1 + UInt32.ofNat done.length =
        curvol + UInt32.ofNat (done.length + 1) := by
      rw [UInt32.ofNat_add, UInt32.add_assoc, UInt32.add_comm 1]
      rfl
    simp only [List.cons_append, closedFrom, ih, List.length_cons, number]

/-- The last volume after the closed ones. -/
theorem volumesFrom_append (curvol : UInt32) (done : List (List QueueData))
    (items : List QueueData) :
    volumesFrom archid curvol (done ++ [items]) = closedFrom archid curvol done ++
      [volumeBytes archid (curvol + UInt32.ofNat done.length) items true] := by
  induction done generalizing curvol with
  | nil => simp [closedFrom, volumesFrom]
  | cons first done ih =>
    have number : curvol + 1 + UInt32.ofNat done.length =
        curvol + UInt32.ofNat (done.length + 1) := by
      rw [UInt32.ofNat_add, UInt32.add_assoc, UInt32.add_comm 1]
      rfl
    have more : (done ++ [items]).isEmpty = false := by cases done <;> rfl
    simp [volumesFrom, closedFrom, ih, number, more]

/-! ## Writing -/

/-- Writing a buffer appends it to the open volume. -/
theorem archwriterWriteBuffer_some {ai ai' : ArchWriter} {wb : List UInt8}
    (written : archwriterWriteBuffer ai wb = some ai') :
    ai' = { ai with current := ai.current ++ wb } := by
  unfold archwriterWriteBuffer at written
  by_cases empty : wb.length = 0
  · simp [empty] at written
  · simpa [empty] using written.symm

/-- The bytes of a header are not empty. -/
theorem length_headerBytes_pos (magic : Magic) (archid : UInt32) (fsid : UInt16) (d : Dico) :
    (headerBytes magic archid fsid d).length ≠ 0 := by
  simp [headerBytes]

/-- A volume header is appended to the open volume. -/
theorem archwriterWriteVolheader_eq (ai : ArchWriter) :
    archwriterWriteVolheader ai =
      some { ai with current := ai.current ++ volheadBytes ai.archid ai.curvol } := by
  simp only [archwriterWriteVolheader, writebufAddHeader_eq [] (fits_volheader ..),
    List.nil_append, Option.bind_eq_bind, Option.bind_some, archwriterWriteBuffer,
    length_headerBytes_pos, ↓reduceIte, volheadBytes]

/-- A volume footer is appended to the open volume. -/
theorem archwriterWriteVolfooter_eq (ai : ArchWriter) (lastvol : Bool) :
    archwriterWriteVolfooter ai lastvol =
      some { ai with current := ai.current ++ volfootBytes ai.archid ai.curvol lastvol } := by
  simp only [archwriterWriteVolfooter, writebufAddHeader_eq [] (fits_volfooter ..),
    List.nil_append, Option.bind_eq_bind, Option.bind_some, archwriterWriteBuffer,
    length_headerBytes_pos, ↓reduceIte, volfootBytes]

/-- The buffer that `archwriter_dowrite_block` and `archwriter_dowrite_header` fill. -/
def QueueData.record (archid : UInt32) : QueueData → Option (List UInt8)
  | .block blkinfo => writebufAddBlock [] blkinfo archid blkinfo.blkfsid
  | .header headinfo => writebufAddHeader [] headinfo.dico headinfo.magic archid headinfo.fsid

/-- An item is split in front of and written as its record. -/
theorem writeItem_record (splitsize : Nat) (ai : ArchWriter) (item : QueueData) :
    writeItem splitsize ai item = (item.record ai.archid).bind fun wb =>
      (archwriterSplitIfNecessary splitsize ai wb).bind (archwriterWriteBuffer · wb) := by
  cases item with
  | block blkinfo => rfl
  | header headinfo => rfl

/-- The record of an item that can be encoded is its bytes. -/
theorem QueueData.Encodable.record_eq {item : QueueData} (encodable : item.Encodable)
    (archid : UInt32) :
    item.record archid = some (itemBytes archid item) ∧ (itemBytes archid item).length ≠ 0 := by
  cases item with
  | header headinfo =>
    refine ⟨?_, length_headerBytes_pos _ _ _ _⟩
    simp only [QueueData.record, writebufAddHeader_eq [] encodable, List.nil_append, itemBytes]
  | block blkinfo =>
    obtain ⟨nonempty, size⟩ := encodable
    have data : ¬blkinfo.blkdata.length = 0 := by
      rw [size]
      exact fun zero => nonempty (UInt32.toNat_inj.mp zero)
    constructor
    · simp [QueueData.record, writebufAddBlock, if_neg nonempty,
        writebufAddHeader_eq [] (fits_blockDico blkinfo), writebufAddData, ← size, data, itemBytes,
        blockBytes]
    · rw [itemBytes, blockBytes, List.length_append]
      omega

/-- An item is written as its bytes, after a split if these do not fit. -/
theorem writeItem_bytes (splitsize : Nat) (ai : ArchWriter) {item : QueueData}
    (encodable : item.Encodable) :
    writeItem splitsize ai item =
      (archwriterSplitIfNecessary splitsize ai (itemBytes ai.archid item)).map fun next =>
        { next with current := next.current ++ itemBytes ai.archid item } := by
  obtain ⟨record, nonempty⟩ := encodable.record_eq ai.archid
  simp only [writeItem_record, record, Option.bind_some, archwriterWriteBuffer, if_neg nonempty,
    Option.map_eq_bind, Function.comp_def]

/-- Writing an item appends its bytes, in a new volume if they do not fit. -/
theorem writeItem_eq (splitsize : Nat) (holds : ai.Holds archid done items) {item : QueueData}
    (encodable : item.Encodable) :
    ∃ ai', writeItem splitsize ai item = some ai' ∧
      if archwriterSplitCheck splitsize ai (itemBytes archid item) then
        ai'.Holds archid (done ++ [items]) [item]
      else ai'.Holds archid done (items ++ [item]) := by
  obtain ⟨id, vol, closed, current⟩ := holds
  rw [writeItem_bytes splitsize ai encodable, id]
  by_cases split : archwriterSplitCheck splitsize ai (itemBytes archid item) = true
  · simp only [archwriterSplitIfNecessary, if_pos split, archwriterWriteVolfooter_eq,
      Option.bind_eq_bind, Option.bind_some, archwriterWriteVolheader_eq, Option.map_some]
    refine ⟨_, rfl, id, ?_, ?_, ?_⟩
    · simp only [ArchWriter.nextVolume, vol, List.length_append, List.length_cons, List.length_nil,
        UInt32.ofNat_add]
      rfl
    · rw [closedFrom_append, ArchWriter.nextVolume, closed, current, vol, id, UInt32.zero_add]
      rfl
    · simp [ArchWriter.nextVolume, itemsBytes, id]
  · simp only [archwriterSplitIfNecessary, if_neg split, Option.map_some]
    refine ⟨_, rfl, id, vol, closed, ?_⟩
    simp [current, itemsBytes]

/-- Writing items keeps the order of all items; the first volume keeps its beginning. -/
theorem writeItems_eq (splitsize : Nat) (holds : ai.Holds archid done items)
    {more : List QueueData} (encodable : ∀ item ∈ more, item.Encodable) :
    ∃ ai' done' items', more.foldlM (writeItem splitsize) ai = some ai' ∧
      ai'.Holds archid done' items' ∧
      (done' ++ [items']).flatten = (done ++ [items]).flatten ++ more ∧
      done'.length ≤ done.length + more.length ∧
      ∀ first rest, done ++ [items] = first :: rest →
        ∃ first' rest', done' ++ [items'] = first' :: rest' ∧ first <+: first' := by
  induction more generalizing ai done items with
  | nil =>
    exact ⟨ai, done, items, rfl, holds, by simp, by simp, fun first rest same =>
      ⟨first, rest, same, List.prefix_rfl⟩⟩
  | cons item more ih =>
    obtain ⟨next, written, holds'⟩ := writeItem_eq splitsize holds
      (encodable item List.mem_cons_self)
    have onward := fun other member => encodable other (List.mem_cons_of_mem item member)
    split at holds'
    next =>
      obtain ⟨ai', done', items', all, holds'', order, bound, start⟩ := ih holds' onward
      refine ⟨ai', done', items', by simp [written, all], holds'', by simp [order], ?_, ?_⟩
      · simp only [List.length_append, List.length_cons, List.length_nil] at bound ⊢
        omega
      · intro first rest same
        exact start first (rest ++ [[item]]) (by rw [same, List.cons_append])
    next =>
      obtain ⟨ai', done', items', all, holds'', order, bound, start⟩ := ih holds' onward
      refine ⟨ai', done', items', by simp [written, all], holds'', by simp [order], ?_, ?_⟩
      · simp only [List.length_cons]
        omega
      · intro first rest same
        cases done with
        | nil =>
          cases same
          obtain ⟨first, rest, same, begins⟩ := start (items ++ [item]) [] rfl
          exact ⟨first, rest, same, (List.prefix_append _ _).trans begins⟩
        | cons closed done =>
          obtain ⟨rfl, rfl⟩ := List.cons.inj same
          exact start closed (done ++ [items ++ [item]]) rfl

/-! ## Writing and reading back -/

/-- A main header that carries the archive id and can be encoded. -/
structure HeadInfo.IsMain (headinfo : HeadInfo) (archid : UInt32) : Prop where
  /-- `FSA_MAGIC_MAIN`. -/
  magic : headinfo.magic = .main
  /-- The dico can be encoded. -/
  fits : headinfo.dico.Fits
  /-- `MAINHEADKEY_ARCHIVEID` is there with the id. -/
  id : ∃ item ∈ headinfo.dico.items, item.sect = 0 ∧ item.key = mainArchiveid ∧
    item.data = leBytes 4 archid.toNat

/-- The reader finds a list of volumes. -/
def Source.Finds (src : Source) (volumes : List (List UInt8)) : Prop :=
  ∀ curvol : UInt32, src.volume curvol = volumes[curvol.toNat]?

/-- A reader that finds the volumes is served them. -/
theorem Source.Finds.serves {src : Source} {all : List (List UInt8)} (finds : src.Finds all)
    (chunks : List (List QueueData)) (few : all.length ≤ 4294967296) (number : Nat)
    (volumes : all.drop number = volumesFrom archid (UInt32.ofNat number) chunks) :
    src.Serves archid (UInt32.ofNat number) chunks := by
  induction chunks generalizing number with
  | nil => trivial
  | cons chunk rest ih =>
    have here := congrArg (·[0]?) volumes
    have after := congrArg (·.drop 1) volumes
    simp only [List.getElem?_drop, Nat.add_zero, volumesFrom, List.getElem?_cons_zero,
      List.drop_drop, List.drop_succ_cons, List.drop_zero] at here after
    have inside : number < all.length := (List.getElem?_eq_some_iff.mp here).1
    have same : (UInt32.ofNat number).toNat = number := by
      rw [UInt32.toNat_ofNat', Nat.mod_eq_of_lt (by omega)]
    have next : UInt32.ofNat number + 1 = UInt32.ofNat (number + 1) := by
      rw [UInt32.ofNat_add]
      rfl
    refine ⟨by rw [finds, same, here], ?_⟩
    rw [next] at after ⊢
    exact ih (number + 1) after

/-- What the whole reader adds to the queue, given enough iterations. -/
def Source.Reads (src : Source) (found : List Enqueued) : Prop :=
  ∃ enough, ∀ fuel, enough ≤ fuel → threadReaderFct src fuel = some found

/-- A reading of the first volume that starts with the main header. -/
theorem Source.reads_of_start {src : Source} {ai : ArchReader} {first : Enqueued} {found : List Enqueued} (start : readStart src = some (first, ai))
    (reads : FsArchiver.Reads src ai found) : src.Reads (first :: found) := by
  obtain ⟨enough, looped⟩ := reads.loop
  exact ⟨enough, fun fuel more => by simp only [threadReaderFct, start, looped fuel more,
    Option.map_some]⟩

/-- The main header of the first volume is read. -/
theorem readStart_volume {src : Source} {main : HeadInfo} (isMain : main.IsMain archid)
    {rest : List UInt8} (served : src.volume 0 =
      some (volheadBytes archid 0 ++ (itemBytes archid (.header main) ++ rest))) :
    ∃ ai, readStart src = some (⟨0, 74, .header main⟩, ai) ∧ ai.Knows src.mem archid ∧
      ai.filefmtver = 2 ∧ ai.curvol = 0 ∧
      ai.pos = 74 + (itemBytes archid (.header main)).length ∧ ai.ahead = rest := by
  obtain ⟨ai, opened, knows, version, vol, pos, here⟩ :=
    open_volume src.mem archid 0 (itemBytes archid (.header main) ++ rest)
      (.inl (⟨rfl, rfl⟩ : archreaderInit.Fresh)) rfl
  obtain ⟨item, member, sect, key, data⟩ := isMain.id
  have id : dicoGetU32 src.mem main.dico 0 mainArchiveid = some archid :=
    dicoGetU32_of_find (by rw [← sect, ← key]; exact Dico.find_of_mem member) data
  have read : archreaderReadHeader src.mem ai false =
      .ok ⟨ai.pos, main.magic, main.fsid, main.dico⟩ _ :=
    archreaderReadHeader_of_ahead src.mem false version (.inr knows.id) isMain.fits here
  refine ⟨{ ai.skip (itemBytes archid (.header main)).length with archid }, ?_,
    ⟨rfl, knows.format⟩, version, vol, by rw [← pos]; rfl, ArchReader.ahead_skip here⟩
  rw [Option.bind_eq_some_iff] at opened
  obtain ⟨unread, opened, accepted⟩ := opened
  simp only [readStart, served, Option.bind_eq_bind, Option.bind_some, opened, accepted, read, id,
    ArchReader.skip_curvol, vol, pos]
  rfl

theorem length_volumesFrom (curvol : UInt32) (chunks : List (List QueueData)) :
    (volumesFrom archid curvol chunks).length = chunks.length := by
  induction chunks generalizing curvol with
  | nil => rfl
  | cons chunk chunks ih => simp [volumesFrom, ih]

/-- The items of a reading, without their places. -/
theorem input_place (vol : UInt32) (pos : Nat) (items : List QueueData) :
    (place archid vol pos items).map Enqueued.input = items.map QueueData.readBack := by
  induction items generalizing pos with
  | nil => rfl
  | cons item items ih => simp [place, ih]

/-- The items of a reading of several volumes, without their places. -/
theorem input_placeVolumes (vol : UInt32) (chunks : List (List QueueData)) :
    (placeVolumes archid vol chunks).map Enqueued.input =
      chunks.flatten.map QueueData.readBack := by
  induction chunks generalizing vol with
  | nil => rfl
  | cons chunk chunks ih => simp [placeVolumes, input_place, ih]

/-- Splitting is transparent: for every split size that leaves room for the main header behind
the volume header, the volumes hold the items in order, numbered from 0 and with the last
volume marked as such, and reading them with every filesystem selected adds the same items
to the queue. -/
theorem split_transparent (splitsize : Nat) (archid : UInt32) (main : HeadInfo)
    (items : List QueueData) (isMain : main.IsMain archid)
    (storable : ∀ item ∈ items, item.Storable) (few : items.length < 4294967296)
    (room : splitsize = 0 ∨ 74 + (itemBytes archid (.header main)).length ≤ splitsize) :
    ∃ chunks volumes, threadWriterFct splitsize archid (.header main :: items) = some volumes ∧
      volumes = volumesFrom archid 0 chunks ∧ chunks.flatten = .header main :: items ∧
      ∀ src : Source, src.Finds volumes → src.SelectsAll →
        ∃ found, src.Reads found ∧
          found.map Enqueued.input = (QueueData.header main :: items).map QueueData.readBack := by
  -- the volume header and the main header, both in volume 0
  have atStart : ArchWriter.Holds archid [] []
      { archid, curvol := 0, closed := [], current := [] ++ volheadBytes archid 0 } :=
    ⟨rfl, rfl, rfl, by simp [itemsBytes]⟩
  obtain ⟨first, written, holds⟩ := writeItem_eq splitsize atStart
    (show (QueueData.header main).Encodable from isMain.fits)
  have stays : archwriterSplitCheck splitsize
      { archid, curvol := 0, closed := [], current := [] ++ volheadBytes archid 0 }
      (itemBytes archid (.header main)) = false := by
    simp only [archwriterSplitCheck, List.nil_append, length_volheadBytes, gt_iff_lt,
      Bool.and_eq_false_iff, decide_eq_false_iff_not]
    omega
  rw [stays] at holds
  -- the other items
  obtain ⟨last, done, chunk, all, holds', order, bound, start⟩ := writeItems_eq splitsize
    holds (fun item (member : item ∈ items) => (storable item member).encodable)
  have volumes : threadWriterFct splitsize archid (.header main :: items) =
      some (volumesFrom archid 0 (done ++ [chunk])) := by
    simp only [threadWriterFct, archwriterWriteVolheader_eq, Option.bind_eq_bind, Option.bind_some,
      List.foldlM_cons, written, all, archwriterWriteVolfooter_eq, volumesFrom_append]
    simp [holds'.closed, holds'.current, holds'.vol, holds'.id, volumeBytes]
  refine ⟨done ++ [chunk], _, volumes, rfl, by simpa using order, fun src finds selects => ?_⟩
  obtain ⟨firstChunk, rest, chunks, begins⟩ := start [.header main] [] rfl
  obtain ⟨others, rfl⟩ := begins
  have inOrder : others ++ rest.flatten = items := by
    rw [chunks] at order
    simpa using order
  have serves := finds.serves (done ++ [chunk]) (by
    rw [length_volumesFrom, List.length_append]
    simp only [List.length_nil] at bound
    simp only [List.length_cons, List.length_nil]
    omega) 0 rfl
  rw [chunks] at serves
  obtain ⟨served, serves⟩ := serves
  simp only [volumeBytes, itemsBytes, List.singleton_append, List.flatMap_cons,
    List.append_assoc] at served
  obtain ⟨ai, started, knows, version, vol, _, here⟩ := readStart_volume isMain served
  have reads := Reads.volumes selects (fun item member => storable item (inOrder ▸ member))
    (by rw [vol]; exact serves) knows version (by rw [vol]; exact here)
  refine ⟨_, Source.reads_of_start started reads, ?_⟩
  rw [List.map_cons, List.map_append, input_place, input_placeVolumes, ← inOrder, List.map_cons,
    List.map_append]
  rfl

/-- A main header with nothing but the archive id 1. -/
def smallMain : HeadInfo :=
  { magic := .main, fsid := filesysidNull
    dico := { items := [(dicoAddU32 0 mainArchiveid 1).item], distinct := by decide } }

theorem isMain_smallMain : smallMain.IsMain 1 where
  magic := rfl
  fits := ⟨by decide, by decide⟩
  id := ⟨_, List.mem_cons_self, rfl, rfl, by decide⟩

/-- A block of so many zeros of a filesystem, stored without compression. -/
def zerosOf (fsid : UInt16) (size : Nat) : BlockInfo :=
  { BlockInfo.zero with
    blkdata := List.replicate size 0, blkarsize := UInt32.ofNat size
    blkrealsize := UInt32.ofNat size, blkcompsize := UInt32.ofNat size
    blkarcsum := fletcher32 (List.replicate size 0), blkfsid := fsid }

theorem storable_zerosOf {fsid : UInt16} {size : Nat} (known : fsid.toNat < maxFsPerArch)
    (positive : 0 < size) (small : size ≤ maxBlkSize) :
    (QueueData.block (zerosOf fsid size)).Storable := by
  have bound : maxBlkSize < 2 ^ 32 := by decide
  have arsize : (UInt32.ofNat size).toNat = size := by
    rw [UInt32.toNat_ofNat', Nat.mod_eq_of_lt (by omega)]
  refine ⟨⟨fun zero => ?_, ?_, ?_, rfl⟩, known⟩
  · have same := congrArg UInt32.toNat (show UInt32.ofNat size = 0 from zero)
    rw [arsize] at same
    exact Nat.ne_of_gt positive same
  · exact List.length_replicate.trans arsize.symm
  · show (UInt32.ofNat size).toNat ≤ maxBlkSize
    omega

/-- The record of such a block has a header of 90 bytes. -/
theorem length_zerosOf (archid : UInt32) (fsid : UInt16) (size : Nat) :
    (itemBytes archid (.block (zerosOf fsid size))).length = 90 + size := by
  have dico : (blockDico (zerosOf fsid size)).encode.length = 72 := by
    simp [Dico.encode, items_blockDico, blockCalls, length_encodeItem, DicoCall.item,
      DicoItem.make, length_sizedData, dicoAddU16, dicoAddU32, dicoAddU64]
  have data : (zerosOf fsid size).blkdata.length = size := List.length_replicate
  simp only [itemBytes, blockBytes, headerBytes, dicoBytes, dico, data, List.length_append,
    length_leBytes, Magic.length_bytes]

/-- A main header and an item that fit into the first volume, and an item that does not any more. -/
theorem two_volumes {splitsize : Nat} {main first second : QueueData} (main' : main.Encodable)
    (first' : first.Encodable) (second' : second.Encodable)
    (fits : 74 + (itemBytes archid main).length + (itemBytes archid first).length ≤ splitsize)
    (passes : splitsize < 74 + (itemBytes archid main).length + (itemBytes archid first).length +
      (itemBytes archid second).length) :
    threadWriterFct splitsize archid [main, first, second] =
      some (volumesFrom archid 0 [[main, first], [second]]) := by
  have level {ai : ArchWriter} {items : List QueueData} (holds : ai.Holds archid [] items) :
      ai.current.length = 74 + (itemsBytes archid items).length := by
    rw [holds.current, List.length_append, length_volheadBytes]
  have atStart : ArchWriter.Holds archid [] []
      { archid, curvol := 0, closed := [], current := [] ++ volheadBytes archid 0 } :=
    ⟨rfl, rfl, rfl, by simp [itemsBytes]⟩
  obtain ⟨one, writtenMain, holds⟩ := writeItem_eq splitsize atStart main'
  rw [if_neg (by
    simp only [archwriterSplitCheck, level atStart, itemsBytes, List.flatMap_nil, List.length_nil,
      Bool.and_eq_true, decide_eq_true_eq]
    omega)] at holds
  obtain ⟨two, writtenFirst, holds'⟩ := writeItem_eq splitsize holds first'
  rw [if_neg (by
    simp only [archwriterSplitCheck, level holds, itemsBytes, List.nil_append,
      List.flatMap_singleton, Bool.and_eq_true, decide_eq_true_eq]
    omega)] at holds'
  obtain ⟨three, writtenSecond, holds''⟩ := writeItem_eq splitsize holds' second'
  rw [if_pos (by
    simp only [archwriterSplitCheck, level holds', itemsBytes, List.nil_append, List.cons_append,
      List.flatMap_cons, List.flatMap_nil, List.append_nil, List.length_append, Bool.and_eq_true,
      decide_eq_true_eq]
    omega)] at holds''
  rw [show [[main, first], [second]] = [[main, first]] ++ [[second]] from rfl, volumesFrom_append]
  simp only [threadWriterFct, archwriterWriteVolheader_eq, Option.bind_eq_bind, Option.bind_some,
    List.foldlM_cons, List.foldlM_nil, Option.pure_def, writtenMain, writtenFirst, writtenSecond,
    archwriterWriteVolfooter_eq]
  simp [holds''.closed, holds''.current, holds''.vol, holds''.id, volumeBytes]

/-- A main header and two blocks of half a mebibyte, of two filesystems. -/
def twoBlocks : List QueueData := [.block (zerosOf 0 524288), .block (zerosOf 1 524288)]

theorem storable_twoBlocks : ∀ item ∈ twoBlocks, item.Storable := by
  have first := storable_zerosOf (show (0 : UInt16).toNat < maxFsPerArch by decide)
    (show 0 < 524288 by omega) (show 524288 ≤ maxBlkSize by decide)
  have second := storable_zerosOf (show (1 : UInt16).toNat < maxFsPerArch by decide)
    (show 0 < 524288 by omega) (show 524288 ≤ maxBlkSize by decide)
  exact List.forall_mem_cons.mpr ⟨first, List.forall_mem_singleton.mpr second⟩

/-- In volumes of one mebibyte the second block goes to a second volume. -/
theorem written_twoBlocks : threadWriterFct 1048576 1 (.header smallMain :: twoBlocks) =
    some (volumesFrom 1 0 [[.header smallMain, .block (zerosOf 0 524288)],
      [.block (zerosOf 1 524288)]]) := by
  obtain ⟨first, second⟩ := List.forall_mem_cons.mp storable_twoBlocks
  have main : (itemBytes 1 (.header smallMain)).length = 30 := by decide
  have header : (QueueData.header smallMain).Encodable := isMain_smallMain.fits
  apply two_volumes header first.encodable (second _ List.mem_cons_self).encodable
  · rw [main, length_zerosOf]
    omega
  · rw [main, length_zerosOf, length_zerosOf]
    omega

/-- The archive with the two blocks is read back from its two volumes. -/
theorem split_transparent_two_blocks : ∃ (volumes : List (List UInt8)) (src : Source),
    threadWriterFct 1048576 1 (.header smallMain :: twoBlocks) = some volumes ∧
      volumes = volumesFrom 1 0 [[.header smallMain, .block (zerosOf 0 524288)],
        [.block (zerosOf 1 524288)]] ∧
      src.Finds volumes ∧ src.SelectsAll ∧ ∃ found, src.Reads found ∧
        found.map Enqueued.input = [.header smallMain, .todo (zerosOf 0 524288),
          .todo { zerosOf 1 524288 with blkfsid := 0 }] := by
  have main : (itemBytes 1 (.header smallMain)).length = 30 := by decide
  obtain ⟨chunks, volumes, written, -, -, reads⟩ := split_transparent 1048576 1 smallMain twoBlocks
    isMain_smallMain storable_twoBlocks (show 2 < 4294967296 by omega) (.inr (by omega))
  obtain rfl := Option.some.inj (written.symm.trans written_twoBlocks)
  let src : Source := ⟨fun curvol => (volumesFrom 1 0 [[.header smallMain,
    .block (zerosOf 0 524288)], [.block (zerosOf 1 524288)]])[curvol.toNat]?, fun _ => 1,
    ⟨fun _ => 0, fun _ => 0⟩⟩
  exact ⟨_, src, written, rfl, fun _ => rfl, fun _ _ => rfl,
    reads src (fun _ => rfl) fun _ _ => rfl⟩

/-- A main header that does not fit into the split size with the volume header is lost: the
writer puts it into a second volume, and the reader, which expects it in the first, adds
nothing to the queue. -/
theorem main_lost {splitsize : Nat} {main : HeadInfo} (isMain : main.IsMain archid)
    (positive : 0 < splitsize)
    (wide : splitsize < 74 + (itemBytes archid (.header main)).length) :
    ∃ volumes, threadWriterFct splitsize archid [.header main] = some volumes ∧
      ∀ src : Source, src.Finds volumes → ∀ fuel, threadReaderFct src fuel = some [] := by
  have atStart : ArchWriter.Holds archid [] []
      { archid, curvol := 0, closed := [], current := [] ++ volheadBytes archid 0 } :=
    ⟨rfl, rfl, rfl, by simp [itemsBytes]⟩
  obtain ⟨last, written, holds⟩ := writeItem_eq splitsize atStart
    (show (QueueData.header main).Encodable from isMain.fits)
  have splits : archwriterSplitCheck splitsize
      { archid, curvol := 0, closed := [], current := [] ++ volheadBytes archid 0 }
      (itemBytes archid (.header main)) = true := by
    simp only [archwriterSplitCheck, List.nil_append, length_volheadBytes, gt_iff_lt,
      Bool.and_eq_true, decide_eq_true_eq]
    exact ⟨positive, wide⟩
  rw [if_pos splits] at holds
  have volumes : threadWriterFct splitsize archid [.header main] =
      some (volumesFrom archid 0 ([[]] ++ [[.header main]])) := by
    simp only [threadWriterFct, archwriterWriteVolheader_eq, Option.bind_eq_bind, Option.bind_some,
      List.foldlM_cons, List.foldlM_nil, written, Option.pure_def, archwriterWriteVolfooter_eq,
      volumesFrom_append]
    simp [holds.closed, holds.current, holds.vol, holds.id, volumeBytes]
  refine ⟨_, volumes, fun src finds fuel => ?_⟩
  have served : src.volume 0 = some (volheadBytes archid 0 ++ volfootBytes archid 0 false) := by
    rw [finds 0]
    simp [volumesFrom, volumeBytes, itemsBytes]
  obtain ⟨ai, opened, knows, version, vol, pos, here⟩ :=
    open_volume src.mem archid 0 (volfootBytes archid 0 false)
      (.inl (⟨rfl, rfl⟩ : archreaderInit.Fresh)) rfl
  rw [← List.append_nil (volfootBytes ..)] at here
  have read : archreaderReadHeader src.mem ai false = .ok ⟨ai.pos, .volf, filesysidNull, _⟩ _ :=
    archreaderReadHeader_of_ahead src.mem false version (.inr knows.id)
      (fits_volfooter 0 archid false) here
  -- a volume footer has no archive id under the key of the main header
  have missing : dicoGetU32 src.mem (dicoAddAll Dico.alloc (volfooterCalls 0 archid false)) 0
      mainArchiveid = none := by
    have absent : (dicoAddAll Dico.alloc (volfooterCalls 0 archid false)).find 0 mainArchiveid =
        none := by
      rw [Dico.find, items_volfooter]
      rfl
    simp [dicoGetU32, dicoGetWord, dicoGetData, dicoGetGeneric, absent]
  rw [Option.bind_eq_some_iff] at opened
  obtain ⟨unread, opened, accepted⟩ := opened
  have started : readStart src = none := by
    simp [readStart, served, opened, accepted, read, missing]
  rw [threadReaderFct, started]

/-- An item of the greatest size. -/
def wideItem (key : Nat) : DicoItem :=
  { type := DicType.data, sect := 1, key := UInt16.ofNat key, data := List.replicate 65535 0
    size_lt := by rw [List.length_replicate]; decide }

/-- A main header of more than one mebibyte. -/
def wideMain : HeadInfo :=
  { magic := .main, fsid := filesysidNull
    dico :=
      { items := (dicoAddU32 0 mainArchiveid 1).item :: (List.range 17).map wideItem
        distinct := by decide } }

theorem length_wideMain : wideMain.dico.encode.length = 1114209 := by
  have item : (dicoAddU32 0 mainArchiveid 1).item.encode.length = 10 := by
    rw [length_encodeItem]
    rfl
  have wide : (fun key => (wideItem key).encode.length) = fun _ => 65541 := by
    funext key
    rw [length_encodeItem, wideItem, List.length_replicate]
  simp only [wideMain, Dico.encode, List.length_append, length_leBytes, List.flatMap_cons,
    item, List.length_flatMap, List.map_map, Function.comp_def, wide, List.map_const',
    List.length_range, List.sum_replicate_nat]

theorem isMain_wideMain : wideMain.IsMain 1 where
  magic := rfl
  fits := ⟨by simp [wideMain], by rw [length_wideMain]; decide⟩
  id := ⟨(dicoAddU32 0 mainArchiveid 1).item, by simp [wideMain], rfl, rfl,
    show sizedData (leBytes 4 (1 : UInt32).toNat) = _ from sizedData_of_lt (by simp)⟩

/-- With a split size of one mebibyte the reader adds nothing to the queue from the volumes of
an archive with this main header. -/
theorem wide_main_lost : wideMain.IsMain 1 ∧
    ∃ volumes src, threadWriterFct 1048576 1 [.header wideMain] = some volumes ∧
      src.Finds volumes ∧ src.SelectsAll ∧ ∀ fuel, threadReaderFct src fuel = some [] := by
  obtain ⟨volumes, written, lost⟩ := main_lost isMain_wideMain (by decide : 0 < 1048576) (by
    simp [itemBytes, headerBytes, dicoBytes, length_wideMain])
  refine ⟨isMain_wideMain, volumes,
    ⟨fun curvol => volumes[curvol.toNat]?, fun _ => 1, ⟨fun _ => 0, fun _ => 0⟩⟩, written,
    fun _ => rfl, fun _ _ => rfl, lost _ fun _ => rfl⟩

end FsArchiver
