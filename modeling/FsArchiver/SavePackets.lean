import FsArchiver.SaveHeaders

/-!
# What a walk puts on the queue

The items of one object stand together in the queue: a header alone, a header with the blocks
of a file and its footer, or the headers of a pack with their block. Such a group is a packet.
Here every visit of a walk gets what it produces, and the walk is seen to put packets on the
queue, of which those of small files wait until their pack is full.
-/
namespace FsArchiver

open Lib

/-! ## Packets -/

/-- A small file in a pack: its header without its place in the pack, and its bytes. -/
abbrev PackEntry := Dico × List UInt8

/-- The items of one object, or of one pack of small files. -/
inductive Packet where
  /-- An object made of its header. -/
  | single (d : Dico)
  /-- A file with all its blocks, and a footer unless it is empty. -/
  | file (d : Dico) (blocks : List BlockInfo)
  /-- A file that could not be read to its end. -/
  | cut (d : Dico) (blocks : List BlockInfo)
  /-- Small files. -/
  | pack (files : List PackEntry)

/-- The bytes of a file in its blocks. -/
def blocksData (blocks : List BlockInfo) : List UInt8 := blocks.flatMap BlockInfo.blkdata

/-- The data block of a pack. -/
def packBlock (fsid : UInt16) (data : List UInt8) : BlockInfo :=
  { BlockInfo.zero with
    blkdata := data
    blkrealsize := UInt32.ofNat data.length
    blkfsid := fsid }

/-- The header of a small file with its place in the pack. -/
def placedHeader (count offset : UInt32) (d : Dico) : Dico :=
  dicoAddAll d [dicoAddU32 Section.stdattr ItemKey.multifilescount count,
    dicoAddU32 Section.stdattr ItemKey.multifilesoffset offset]

/-- The headers of a pack from an offset on. -/
def packHeaders (count : UInt32) : UInt32 → List PackEntry → List Dico
  | _, [] => []
  | offset, (d, data) :: rest =>
    placedHeader count offset d ::
      packHeaders count (offset + UInt32.ofNat data.length) rest

/-- The item of an object header. -/
def objectItem (fsid : UInt16) (d : Dico) : QueueData := .header ⟨.objt, fsid, d⟩

/-- The items of a packet. -/
def Packet.items (md5 : Md5) (fsid : UInt16) : Packet → List QueueData
  | .single d => [objectItem fsid d]
  | .file d blocks =>
    objectItem fsid d :: blocks.map .block ++
      if blocks = [] then []
      else [.header ⟨.filf, fsid, regfileFooter md5 (blocksData blocks)⟩]
  | .cut d blocks => objectItem fsid d :: blocks.map .block
  | .pack files =>
    (packHeaders (UInt32.ofNat files.length) 0 files).map (objectItem fsid) ++
      [.block (packBlock fsid (files.flatMap Prod.snd))]

/-- The items of packets in a row. -/
def packetItems (md5 : Md5) (fsid : UInt16) (packets : List Packet) : List QueueData :=
  packets.flatMap (Packet.items md5 fsid)

@[simp] theorem packetItems_append (md5 : Md5) (fsid : UInt16) (first second : List Packet) :
    packetItems md5 fsid (first ++ second) =
      packetItems md5 fsid first ++ packetItems md5 fsid second := List.flatMap_append

/-! ## Packs -/

/-- A header that `regmulti_save_enqueue` can give a place in a pack, and the data it is for. -/
structure Packable (entry : PackEntry) : Prop where
  /-- The header has the size of the data. -/
  size : ∃ item, entry.1.find Section.stdattr ItemKey.size = some item ∧
    item.data = leBytes 8 entry.2.length
  /-- The size fits its item. -/
  small : entry.2.length < maxSmallFileSize
  /-- The header has no place yet. -/
  count : entry.1.find Section.stdattr ItemKey.multifilescount = none
  offset : entry.1.find Section.stdattr ItemKey.multifilesoffset = none

/-- The size that `regmulti_save_enqueue` reads from a header. -/
theorem Packable.size_eq {entry : PackEntry} (packable : Packable entry) (mem : Mem) :
    dicoGetU64 mem entry.1 Section.stdattr ItemKey.size = some (UInt64.ofNat entry.2.length) := by
  obtain ⟨item, found, stored⟩ := packable.size
  have small := packable.small
  simp only [maxSmallFileSize] at small
  have value : (UInt64.ofNat entry.2.length).toNat = entry.2.length :=
    Nat.mod_eq_of_lt (by omega)
  exact dicoGetU64_of_find found (by rw [value, stored])

/-- A header gets its place. -/
theorem Packable.place {entry : PackEntry} (packable : Packable entry) (count offset : UInt32) :
    dicoAddEach entry.1 [dicoAddU32 Section.stdattr ItemKey.multifilescount count,
      dicoAddU32 Section.stdattr ItemKey.multifilesoffset offset] =
      some (placedHeader count offset entry.1) := by
  refine dicoAddEach_of_fresh ?_
  have noCount := Dico.find_eq_none.mp packable.count
  have noOffset := Dico.find_eq_none.mp packable.offset
  rw [List.map_append, List.nodup_append]
  refine ⟨entry.1.distinct, ?_, ?_⟩
  · change List.Nodup [(Section.stdattr, ItemKey.multifilescount),
      (Section.stdattr, ItemKey.multifilesoffset)]
    decide
  · rintro pair taken pair' new rfl
    change pair ∈ [(Section.stdattr, ItemKey.multifilescount),
      (Section.stdattr, ItemKey.multifilesoffset)] at new
    simp only [List.mem_cons, List.not_mem_nil, or_false] at new
    rcases new with rfl | rfl
    · exact noCount taken
    · exact noOffset taken

/-- The loop of `regmulti_save_enqueue` gives every header its place. -/
theorem regmultiSaveHeaders_eq (mem : Mem) (count : UInt32) (fsid : UInt16) (offset : UInt32)
    {files : List PackEntry} (packable : ∀ entry ∈ files, Packable entry) :
    regmultiSaveHeaders mem count fsid offset (files.map Prod.fst) =
      ((packHeaders count offset files).map (objectItem fsid), true) := by
  induction files generalizing offset with
  | nil => rfl
  | cons entry files ih =>
    have here := packable entry List.mem_cons_self
    have onward := ih (offset + UInt32.ofNat entry.2.length)
      (fun entry member => packable entry (List.mem_cons_of_mem _ member))
    have small := here.small
    simp only [maxSmallFileSize] at small
    have size : (UInt64.ofNat entry.2.length).toUInt32 = UInt32.ofNat entry.2.length := by
      apply UInt32.toNat_inj.mp
      simp only [UInt64.toNat_toUInt32, UInt64.toNat_ofNat', UInt32.toNat_ofNat']
      omega
    simp only [List.map_cons, regmultiSaveHeaders, here.size_eq mem, here.place, size, onward,
      packHeaders]
    rfl

/-- The small files that wait in `save->regmulti`. -/
structure Pends (opts : SaveOptions) (save : Savear) (files : List PackEntry) : Prop where
  /-- Their headers. -/
  objhead : save.regmulti.objhead = files.map Prod.fst
  /-- Their bytes. -/
  data : save.regmulti.data = files.flatMap Prod.snd
  /-- The limit of the pack. -/
  maxblksize : save.regmulti.maxblksize = min opts.datablocksize maxBlkSize
  /-- The limits are kept. -/
  count : files.length ≤ maxSmallFileCount
  room : (files.flatMap Prod.snd).length ≤ min opts.datablocksize maxBlkSize
  /-- Every file can get its place. -/
  packable : ∀ entry ∈ files, Packable entry

/-- `regmulti_save_enqueue` puts the pack on the queue. -/
theorem Pends.enqueue {opts : SaveOptions} {save : Savear} {files : List PackEntry}
    (pends : Pends opts save files) (mem : Mem) (md5 : Md5) :
    regmultiSaveEnqueue mem save.regmulti save.fsid =
      (if files = [] then [] else (Packet.pack files).items md5 save.fsid, true) := by
  unfold regmultiSaveEnqueue
  rw [pends.objhead, pends.data, List.length_map,
    regmultiSaveHeaders_eq mem _ _ 0 pends.packable]
  by_cases none : files = []
  · simp [none]
  · have positive := List.length_pos_iff.mpr none
    rw [if_neg (by omega), if_neg none]
    rfl

/-! ## What a visit produces -/

/-- `datablocksize` and `smallfilethresh` as `process_cmdline` leaves them. -/
structure SaveOptions.FromCmdline (opts : SaveOptions) : Prop where
  /-- `FSA_DEF_BLKSIZE`, or a size for one of the options `-z` and `-Z`. -/
  datablocksize : opts.datablocksize ∈ [524288, 262144, maxBlkSize]
  smallfilethresh : opts.smallfilethresh = min (opts.datablocksize / 4) maxSmallFileSize

/-- A small file fits an empty pack. -/
theorem SaveOptions.FromCmdline.fits {opts : SaveOptions} (sizes : opts.FromCmdline) {size : Nat}
    (small : size < opts.smallfilethresh) :
    size < maxSmallFileSize ∧ size ≤ min opts.datablocksize maxBlkSize := by
  have block := sizes.datablocksize
  have thresh := sizes.smallfilethresh
  simp only [List.mem_cons, List.not_mem_nil, or_false, maxBlkSize] at block
  simp only [maxBlkSize, maxSmallFileSize] at thresh ⊢
  omega

/-- What a visit adds to the queue, or to the small files that wait. -/
inductive Produced where
  | nothing
  | now (packet : Packet)
  | later (entry : PackEntry)

/-- The blocks of a file as `createar_obj_regfile_unique` reads them. -/
def readBlocks (opts : SaveOptions) (fsid : UInt16) (st : Stat)
    (file : Nat → Nat → Option (List UInt8)) : RegfileBlocks :=
  regfileBlocks fsid opts.datablocksize st.size.toNat file st.size.toNat 0 false

/-- Bytes that were read, with zeros up to a size. -/
def padded (read : List UInt8) (size : Nat) : List UInt8 :=
  read ++ List.replicate (size - read.length) 0

/-- What the contents of a file add, and whether they are all there. -/
def producedContents (md5 : Md5) (opts : SaveOptions) (fsid : UInt16) (objtype : ObjType) (d : Dico)
    (st : Stat) (calls : ObjectCalls) : Produced × Bool :=
  match objtype, calls.openFile with
  | .regfileunique, none | .regfilemulti, none => (.nothing, false)
  | .regfileunique, some file =>
    let loop := readBlocks opts fsid st file
    if loop.failed then (.now (.cut d loop.blocks), false)
    else (.now (.file d loop.blocks), loop.complete)
  | .regfilemulti, some file =>
    match readFile file 0 st.size.toNat with
    | none => (.nothing, false)
    | some read =>
      let databuf := padded read st.size.toNat
      (.later (dicoAddAll d [dicoAddData Section.stdattr ItemKey.md5sum (md5.digest databuf)],
        databuf), decide (read.length = st.size.toNat))
  | _, _ => (.now (.single d), true)

/-- What a visit adds, and whether its object counts as saved. -/
def produced (md5 : Md5) (opts : SaveOptions) (save : Savear) (relpath : Path) (st : Stat)
    (calls : ObjectCalls) : Produced × Bool :=
  if calls.isCurvol ∨ objectType opts save st = .null ∨
      attrsOk save.fstype relpath st calls = false then (.nothing, false)
  else
    producedContents md5 opts save.fsid (objectType opts save st)
      (objectDico opts save relpath st calls) st calls

/-- A small file waits with the others, or alone once they are on the queue. -/
def addEntry (maxblksize : Nat) (files : List PackEntry) (entry : PackEntry) :
    List Packet × List PackEntry :=
  if files.length < maxSmallFileCount ∧
      (files.flatMap Prod.snd).length + entry.2.length ≤ maxblksize then ([], files ++ [entry])
  else ([.pack files], [entry])

/-- The packets that a visit puts on the queue, and the small files that wait behind it. -/
def addProduced (maxblksize : Nat) (files : List PackEntry) : Produced →
    List Packet × List PackEntry
  | .nothing => ([], files)
  | .now packet => ([packet], files)
  | .later entry => addEntry maxblksize files entry

/-- The blocks of a file that was read are missing only when it is empty. -/
theorem blocks_eq_nil_iff {opts : SaveOptions} {fsid : UInt16} {st : Stat}
    {file : Nat → Nat → Option (List UInt8)}
    (whole : (readBlocks opts fsid st file).failed = false) :
    (readBlocks opts fsid st file).blocks = [] ↔ ¬st.size.toNat > 0 := by
  unfold readBlocks at whole ⊢
  cases size : st.size.toNat with
  | zero => simp [regfileBlocks]
  | succ n =>
    rw [size] at whole
    cases found : readFile file 0 (min (n + 1) opts.datablocksize) with
    | none => simp [regfileBlocks, found] at whole
    | some read =>
      simp only [regfileBlocks, Nat.zero_lt_succ, ↓reduceIte, Bool.false_eq_true, Nat.sub_zero,
        found]
      split <;> simp

/-- Items put on the queue one after the other. -/
theorem Savear.push_push (save : Savear) (first second : List QueueData) :
    (save.push first).push second = save.push (first ++ second) := by
  simp [Savear.push]

@[simp] theorem Savear.push_nil (save : Savear) : save.push [] = save := by
  simp [Savear.push]

section Contents

variable {mem : Mem} {md5 : Md5} {opts : SaveOptions} {save : Savear} {files : List PackEntry}

/-- What was put on the queue, and the small files that wait behind it. -/
structure Adds (md5 : Md5) (opts : SaveOptions) (save save' : Savear)
    (added : List Packet × List PackEntry) : Prop where
  /-- Nothing else has changed. -/
  same : save' = { save with
    pushed := save.pushed ++ packetItems md5 save.fsid added.1, regmulti := save'.regmulti }
  pends : Pends opts save' added.2

/-- Nothing is added. -/
theorem Pends.adds_nothing (pends : Pends opts save files) : Adds md5 opts save save ([], files) where
  same := by simp [packetItems]
  pends := pends

/-- Items that are put on the queue leave those alone that wait. -/
theorem Pends.pushed (pends : Pends opts save files) (items : List QueueData) :
    Pends opts (save.push items) files :=
  ⟨pends.objhead, pends.data, pends.maxblksize, pends.count, pends.room, pends.packable⟩

/-- A packet is put on the queue. -/
theorem Pends.adds_now (pends : Pends opts save files) (packet : Packet) :
    Adds md5 opts save (save.push (packet.items md5 save.fsid)) ([packet], files) where
  same := by simp [packetItems, Savear.push]
  pends := pends.pushed _

/-- A file joins those that wait, if there is room. -/
theorem Pends.add (pends : Pends opts save files) {entry : PackEntry} (packable : Packable entry)
    (count : files.length < maxSmallFileCount)
    (room : (files.flatMap Prod.snd).length + entry.2.length ≤ min opts.datablocksize maxBlkSize) :
    ∃ regmulti, regmultiSaveAddfile save.regmulti entry.1 entry.2 = some regmulti ∧
      Pends opts { save with regmulti } (files ++ [entry]) := by
  have heads : save.regmulti.objhead.length = files.length := by rw [pends.objhead, List.length_map]
  refine ⟨{ save.regmulti with
    objhead := save.regmulti.objhead ++ [entry.1], data := save.regmulti.data ++ entry.2 }, ?_, ?_⟩
  · unfold regmultiSaveAddfile
    rw [if_neg (by omega), if_neg (by rw [pends.data, pends.maxblksize]; omega)]
  · refine ⟨by simp [pends.objhead], by simp [pends.data], pends.maxblksize, ?_, ?_, ?_⟩
    · rw [List.length_append, List.length_singleton]
      omega
    · simpa using room
    · intro other member
      rcases List.mem_append.mp member with member | member
      · exact pends.packable other member
      · exact List.mem_singleton.mp member ▸ packable

/-- The pack is emptied. -/
theorem Pends.empty (pends : Pends opts save files) :
    Pends opts { save with regmulti := regmultiEmpty save.regmulti } [] :=
  ⟨rfl, rfl, pends.maxblksize, Nat.zero_le _, Nat.zero_le _, by simp⟩

/-- Whether `regmulti_save_enough_space_for_new_file` finds room. -/
theorem Pends.enoughSpace_iff (pends : Pends opts save files) (filesize : Nat) :
    regmultiSaveEnoughSpaceForNewFile save.regmulti filesize = true ↔
      files.length < maxSmallFileCount ∧
        (files.flatMap Prod.snd).length + filesize ≤ min opts.datablocksize maxBlkSize := by
  unfold regmultiSaveEnoughSpaceForNewFile
  rw [pends.objhead, pends.data, pends.maxblksize]
  simp

/-- A padded read has the size of the file. -/
theorem length_padded {file : Nat → Nat → Option (List UInt8)} {read : List UInt8} {size : Nat}
    (found : readFile file 0 size = some read) : (padded read size).length = size := by
  have short : read.length ≤ size := by
    unfold readFile at found
    obtain ⟨bytes, -, rfl⟩ := Option.map_eq_some_iff.mp found
    exact List.length_take_le size bytes
  unfold padded
  rw [List.length_append, List.length_replicate]
  omega

/-- `createar_obj_regfile_unique` puts its packet on the queue. -/
theorem createarObjRegfileUnique_adds (pends : Pends opts save files) (d : Dico) (st : Stat)
    (calls : ObjectCalls) :
    let made := producedContents md5 opts save.fsid .regfileunique d st calls
    (createarObjRegfileUnique opts md5 save d calls.openFile st.size.toNat).1 = made.2 ∧
      Adds md5 opts save (createarObjRegfileUnique opts md5 save d calls.openFile st.size.toNat).2
        (addProduced (min opts.datablocksize maxBlkSize) files made.1) := by
  cases opened : calls.openFile with
  | none =>
    simp only [producedContents, opened, createarObjRegfileUnique, addProduced, true_and]
    exact pends.adds_nothing
  | some file =>
    simp only [producedContents, opened, createarObjRegfileUnique, addProduced]
    cases failed : (readBlocks opts save.fsid st file).failed with
    | true =>
      have broken : (regfileBlocks save.fsid opts.datablocksize st.size.toNat file st.size.toNat 0
        false).failed = true := failed
      simp only [broken, ↓reduceIte, true_and]
      exact pends.adds_now (.cut d (readBlocks opts save.fsid st file).blocks)
    | false =>
      have whole : (regfileBlocks save.fsid opts.datablocksize st.size.toNat file st.size.toNat 0
        false).failed = false := failed
      have empty := blocks_eq_nil_iff failed
      have items : (save.push (.header ⟨.objt, save.fsid, d⟩ ::
          (readBlocks opts save.fsid st file).blocks.map .block)).push
          (if st.size.toNat > 0 then [.header ⟨.filf, save.fsid,
            regfileFooter md5 (blocksData (readBlocks opts save.fsid st file).blocks)⟩] else []) =
          save.push ((Packet.file d (readBlocks opts save.fsid st file).blocks).items md5 save.fsid) := by
        rw [Savear.push_push]
        by_cases positive : st.size.toNat > 0
        · rw [if_pos positive]
          simp only [Packet.items, mt empty.mp (not_not.mpr positive), ↓reduceIte]
          rfl
        · rw [if_neg positive]
          simp only [Packet.items, empty.mpr positive, ↓reduceIte]
          rfl
      have added : Adds md5 opts save (save.push
          ((Packet.file d (readBlocks opts save.fsid st file).blocks).items md5 save.fsid))
          ([.file d (readBlocks opts save.fsid st file).blocks], files) := pends.adds_now _
      rw [← items] at added
      by_cases positive : st.size.toNat > 0
      · simp only [whole, positive, Bool.false_eq_true, ↓reduceIte] at added ⊢
        exact ⟨rfl, added⟩
      · simp only [whole, positive, Bool.false_eq_true, ↓reduceIte, Savear.push_nil] at added ⊢
        exact ⟨rfl, added⟩

/-- What `createar_obj_regfile_multi` relies on in a header. -/
structure SmallHeader (d : Dico) (st : Stat) : Prop where
  size : ∃ item, d.find Section.stdattr ItemKey.size = some item ∧
    item.data = leBytes 8 st.size.toNat
  count : d.find Section.stdattr ItemKey.multifilescount = none
  offset : d.find Section.stdattr ItemKey.multifilesoffset = none

/-- The entry of a small file that was read can get a place in a pack. -/
theorem SmallHeader.packable {d : Dico} {st : Stat} (header : SmallHeader d st)
    (small : st.size.toNat < maxSmallFileSize) {databuf : List UInt8}
    (length : databuf.length = st.size.toNat) (digest : List UInt8) :
    Packable (dicoAddAll d [dicoAddData Section.stdattr ItemKey.md5sum digest], databuf) := by
  obtain ⟨item, found, stored⟩ := header.size
  refine ⟨⟨item, find_dicoAddAll_kept found, by rw [stored, length]⟩,
    Nat.lt_of_le_of_lt (Nat.le_of_eq length) small, ?_, ?_⟩
  · rw [find_dicoAddAll_other, header.count]
    simp [dicoAddData, ItemKey.md5sum, ItemKey.multifilescount]
  · rw [find_dicoAddAll_other, header.offset]
    simp [dicoAddData, ItemKey.md5sum, ItemKey.multifilesoffset]

/-- `createar_obj_regfile_multi` lets its file wait, and puts a full pack on the queue. -/
theorem createarObjRegfileMulti_adds (pends : Pends opts save files) (sizes : opts.FromCmdline)
    {d : Dico} {st : Stat} (header : SmallHeader d st)
    (small : st.size.toNat < opts.smallfilethresh) (calls : ObjectCalls) :
    let made := producedContents md5 opts save.fsid .regfilemulti d st calls
    (createarObjRegfileMulti mem md5 save d calls.openFile st.size.toNat).1 = made.2 ∧
      Adds md5 opts save (createarObjRegfileMulti mem md5 save d calls.openFile st.size.toNat).2
        (addProduced (min opts.datablocksize maxBlkSize) files made.1) := by
  obtain ⟨smallFile, fits⟩ := sizes.fits small
  cases opened : calls.openFile with
  | none =>
    simp only [producedContents, opened, createarObjRegfileMulti, addProduced, true_and]
    exact pends.adds_nothing
  | some file =>
    cases found : readFile file 0 st.size.toNat with
    | none =>
      simp only [producedContents, opened, found, createarObjRegfileMulti, addProduced, true_and]
      exact pends.adds_nothing
    | some read =>
      have length := length_padded found
      have packable := header.packable smallFile length (md5.digest (padded read st.size.toNat))
      have room := pends.enoughSpace_iff st.size.toNat
      simp only [producedContents, opened, found, createarObjRegfileMulti, addProduced, addEntry,
        length]
      by_cases enough : regmultiSaveEnoughSpaceForNewFile save.regmulti st.size.toNat = true
      · obtain ⟨count, space⟩ := room.mp enough
        obtain ⟨regmulti, added, pends'⟩ := pends.add packable count (by rw [length]; exact space)
        have added' : regmultiSaveAddfile save.regmulti (dicoAddAll d [dicoAddData Section.stdattr
            ItemKey.md5sum (md5.digest (read ++ List.replicate (st.size.toNat - read.length) 0))])
            (read ++ List.replicate (st.size.toNat - read.length) 0) = some regmulti := added
        simp only [enough, ↓reduceIte, added', count, space, and_self, true_and]
        exact ⟨by simp [packetItems], pends'⟩
      · have full := mt room.mpr enough
        have more : files ≠ [] := by
          rintro rfl
          exact full ⟨by decide, by simpa using fits⟩
        obtain ⟨regmulti, added, pends'⟩ := (pends.pushed
          ((Packet.pack files).items md5 save.fsid)).empty.add packable (by decide)
          (by rw [length]; simpa using fits)
        have added' : regmultiSaveAddfile (regmultiEmpty save.regmulti) (dicoAddAll d
            [dicoAddData Section.stdattr ItemKey.md5sum
              (md5.digest (read ++ List.replicate (st.size.toNat - read.length) 0))])
            (read ++ List.replicate (st.size.toNat - read.length) 0) = some regmulti := added
        simp only [enough, Bool.false_eq_true, ↓reduceIte, pends.enqueue mem md5, more, added', full,
          true_and]
        exact ⟨by simp [packetItems, Savear.push], pends'⟩

/-- The header of an object of a walk is what `createar_obj_regfile_multi` relies on. -/
theorem smallHeader_objectDico (opts : SaveOptions) (save : Savear) (relpath : Path) (st : Stat)
    (calls : ObjectCalls) : SmallHeader (objectDico opts save relpath st calls) st where
  size := ⟨_, find_objectDico_std opts save relpath st calls
    (dicoAddU64 Section.stdattr ItemKey.size st.size) (by simp [stdattrCalls]),
    sizedData_of_lt (Nat.lt_of_le_of_lt (Nat.le_of_eq (length_leBytes 8 _)) (by decide))⟩
  count := find_objectDico_later opts save relpath st calls (by simp)
  offset := find_objectDico_later opts save relpath st calls (by simp)

/-- A packed file is smaller than `smallfilethresh`. -/
theorem small_of_objectType {save : Savear} {st : Stat}
    (packed : objectType opts save st = .regfilemulti) : st.size.toNat < opts.smallfilethresh := by
  have regular : regfileType opts st = .regfilemulti := by
    unfold objectType at packed
    split at packed <;> first | cases packed | skip
    split at packed
    · cases packed
    · exact packed
  unfold regfileType at regular
  split at regular
  next small => exact small.2.1
  next => cases regular

/-- What is put on the queue for an object once all its attributes are read. -/
theorem saveContents_adds (pends : Pends opts save files) (sizes : opts.FromCmdline)
    {objtype : ObjType} {d : Dico} {st : Stat} (header : SmallHeader d st)
    (small : objtype = .regfilemulti → st.size.toNat < opts.smallfilethresh)
    (calls : ObjectCalls) :
    let made := producedContents md5 opts save.fsid objtype d st calls
    (saveContents mem md5 opts save objtype d st calls).1 = made.2 ∧
      Adds md5 opts save (saveContents mem md5 opts save objtype d st calls).2
        (addProduced (min opts.datablocksize maxBlkSize) files made.1) := by
  cases objtype with
  | regfileunique => exact createarObjRegfileUnique_adds pends d st calls
  | regfilemulti => exact createarObjRegfileMulti_adds pends sizes header (small rfl) calls
  | null | dir | symlink | hardlink | chardev | blockdev | fifo | socket =>
    cases calls.openFile <;> exact ⟨rfl, pends.adds_now (.single d)⟩

end Contents

/-! ## Visits -/

/-- What a visit does to the state. -/
structure VisitAdds (md5 : Md5) (opts : SaveOptions) (save save' : Savear) (relpath : Path)
    (st : Stat) (calls : ObjectCalls) (added : List Packet × List PackEntry) : Prop where
  /-- What is on the queue. -/
  pushed : save'.pushed = save.pushed ++ packetItems md5 save.fsid added.1
  /-- What waits. -/
  pends : Pends opts save' added.2
  fsid : save'.fsid = save.fsid
  fstype : save'.fstype = save.fstype
  /-- The table of links. -/
  links : save'.dichardlinks =
    if calls.isCurvol then save.dichardlinks else linksAfter save relpath st
  /-- The statistics. -/
  stats : save'.stats =
    if calls.isCurvol then save.stats.fail .regfileunique
    else if objectType opts save st = .null then save.stats
    else if (produced md5 opts save relpath st calls).2 then
      save.stats.count (objectType opts save st)
    else save.stats.fail (objectType opts save st)

/-- `createar_save_file` does what it produces, and fails only for an unknown type. -/
theorem createarSaveFile_adds {mem : Mem} {md5 : Md5} {opts : SaveOptions} {save : Savear}
    {files : List PackEntry} (pends : Pends opts save files) (sizes : opts.FromCmdline)
    (relpath : Path) (st : Stat) (calls : ObjectCalls) :
    let ran := createarSaveFile mem md5 opts save relpath st calls false
    ran.1 = (calls.isCurvol || decide (objectType opts save st ≠ .null)) ∧
      VisitAdds md5 opts save ran.2 relpath st calls
        (addProduced (min opts.datablocksize maxBlkSize) files
          (produced md5 opts save relpath st calls).1) := by
  have still : ∀ save' : Savear, save'.regmulti = save.regmulti → Pends opts save' files :=
    fun save' same => ⟨by rw [same, pends.objhead], by rw [same, pends.data],
      by rw [same, pends.maxblksize], pends.count, pends.room, pends.packable⟩
  rw [createarSaveFile_eq]
  cases curvol : calls.isCurvol with
  | true =>
    have made : produced md5 opts save relpath st calls = (.nothing, false) := by
      simp [produced, curvol]
    rw [made]
    exact ⟨rfl, by simp [addProduced, packetItems], still _ rfl, rfl, rfl, by simp [curvol],
      by simp [curvol]⟩
  | false =>
    by_cases unknown : objectType opts save st = .null
    · have made : produced md5 opts save relpath st calls = (.nothing, false) := by
        simp [produced, unknown]
      rw [made]
      simp only [unknown, Bool.false_eq_true, ↓reduceIte]
      exact ⟨rfl, by simp [addProduced, packetItems, afterStdattr], still _ rfl, rfl, rfl,
        by simp [curvol, afterStdattr], by simp [curvol, unknown, afterStdattr]⟩
    · cases attrs : attrsOk save.fstype relpath st calls with
      | false =>
        have made : produced md5 opts save relpath st calls = (.nothing, false) := by
          simp [produced, attrs]
        rw [made]
        simp only [unknown, Bool.false_eq_true, ↓reduceIte, Bool.not_false]
        refine ⟨by simp [unknown], by simp [addProduced, packetItems, afterStdattr], still _ rfl,
          rfl, rfl, by simp [curvol, afterStdattr], by simp [curvol, unknown, afterStdattr, made]⟩
      | true =>
        have made : produced md5 opts save relpath st calls = producedContents md5 opts save.fsid
            (objectType opts save st) (objectDico opts save relpath st calls) st calls := by
          simp [produced, curvol, unknown, attrs]
        obtain ⟨counted, same, pends'⟩ := @saveContents_adds mem md5 opts
          (afterStdattr save relpath st) files (still _ rfl) sizes (objectType opts save st) _ st
          (smallHeader_objectDico opts save relpath st calls) small_of_objectType calls
        have counted' : (saveContents mem md5 opts (afterStdattr save relpath st)
            (objectType opts save st) (objectDico opts save relpath st calls) st calls).1 =
            (produced md5 opts save relpath st calls).2 := by rw [made]; exact counted
        rw [made]
        simp only [unknown, Bool.false_eq_true, ↓reduceIte, Bool.not_true, counted']
        generalize saveContents mem md5 opts (afterStdattr save relpath st)
          (objectType opts save st) (objectDico opts save relpath st calls) st calls = saved at *
        rw [same] at pends' ⊢
        exact ⟨by simp [unknown], rfl, ⟨pends'.objhead, pends'.data, pends'.maxblksize, pends'.count,
          pends'.room, pends'.packable⟩, rfl, rfl, by simp [curvol, afterStdattr],
          by simp [curvol, unknown, afterStdattr]⟩

section Walk

variable (mem : Mem) (md5 : Md5) (opts : SaveOptions)

/-- What the visits of a walk produce, up to the one that ends it. -/
def visitsProduced : List Visit → Savear → List (Produced × Bool)
  | [], _ | .stop :: _, _ => []
  | .object relpath st calls :: rest, save =>
    produced md5 opts save relpath st calls ::
      match createarSaveFile mem md5 opts save relpath st calls false with
      | (false, _) => []
      | (true, save) => visitsProduced rest save

/-- The packets that a list of productions puts on the queue, and the small files that wait. -/
def packetsFrom (maxblksize : Nat) (files : List PackEntry) : List Produced →
    List Packet × List PackEntry
  | [] => ([], files)
  | made :: rest =>
    let added := addProduced maxblksize files made
    let later := packetsFrom maxblksize added.2 rest
    (added.1 ++ later.1, later.2)

/-- All packets, once the last small files are on the queue too. -/
def allPackets (maxblksize : Nat) (made : List Produced) : List Packet :=
  let added := packetsFrom maxblksize [] made
  added.1 ++ if added.2 = [] then [] else [.pack added.2]

variable {mem md5 opts}

/-- The visits put their packets on the queue. -/
theorem saveVisits_adds (sizes : opts.FromCmdline) (visits : List Visit) {save : Savear}
    {files : List PackEntry} (pends : Pends opts save files) :
    let ran := saveVisits mem md5 opts false visits save
    let added := packetsFrom (min opts.datablocksize maxBlkSize) files
      ((visitsProduced mem md5 opts visits save).map Prod.fst)
    ran.2.pushed = save.pushed ++ packetItems md5 save.fsid added.1 ∧
      Pends opts ran.2 added.2 ∧ ran.2.fsid = save.fsid := by
  induction visits generalizing save files with
  | nil => exact ⟨by simp [visitsProduced, packetsFrom, packetItems, saveVisits], pends, rfl⟩
  | cons visit rest ih =>
    cases visit with
    | stop => exact ⟨by simp [visitsProduced, packetsFrom, packetItems, saveVisits], pends, rfl⟩
    | object relpath st calls =>
      obtain ⟨-, visited⟩ := @createarSaveFile_adds mem md5 _ _ _ pends sizes relpath st calls
      simp only [saveVisits, visitsProduced, List.map_cons, packetsFrom]
      cases ran : createarSaveFile mem md5 opts save relpath st calls false with
      | mk ok save' =>
        rw [ran] at visited
        cases ok with
        | false =>
          simp only [List.map_nil, packetsFrom, List.append_nil]
          exact ⟨visited.pushed, visited.pends, visited.fsid⟩
        | true =>
          obtain ⟨pushed, pends', fsid⟩ := ih visited.pends
          refine ⟨?_, pends', fsid.trans visited.fsid⟩
          simp only
          rw [pushed, visited.pushed, visited.fsid, packetItems_append, List.append_assoc]

/-- Nothing waits when a walk starts. -/
theorem pends_walkStart (opts : SaveOptions) (save : Savear) : Pends opts (walkStart opts save) [] :=
  ⟨rfl, rfl, rfl, Nat.zero_le _, Nat.zero_le _, by simp⟩

/-- The items of visits and of the last pack are those of their packets. -/
theorem saveVisits_packets (sizes : opts.FromCmdline) (visits : List Visit) (save : Savear) :
    let walked := saveVisits mem md5 opts false visits (walkStart opts save)
    let queued := regmultiSaveEnqueue mem walked.2.regmulti walked.2.fsid
    queued.2 = true ∧ (walked.2.push queued.1).pushed = save.pushed ++ packetItems md5 save.fsid
      (allPackets (min opts.datablocksize maxBlkSize)
        ((visitsProduced mem md5 opts visits (walkStart opts save)).map Prod.fst)) := by
  obtain ⟨pushed, pends', fsid⟩ := @saveVisits_adds mem md5 opts sizes visits _ _
    (pends_walkStart opts save)
  have queued := pends'.enqueue mem md5
  simp only [queued, true_and]
  rw [Savear.push, pushed]
  have same : (walkStart opts save).fsid = save.fsid := rfl
  rw [allPackets, packetItems_append, fsid, same, List.append_assoc]
  generalize packetsFrom (min opts.datablocksize maxBlkSize) [] _ = added
  have last : (if added.2 = [] then [] else (Packet.pack added.2).items md5 save.fsid) =
      packetItems md5 save.fsid (if added.2 = [] then [] else [.pack added.2]) := by
    split <;> simp [packetItems]
  rw [last]
  rfl

/-- The items that `createar_save_directory_wrapper` puts on the queue are those of the packets
of its walk. -/
theorem createarSaveDirectoryWrapper_packets (sizes : opts.FromCmdline) (save : Savear)
    (path : Path) (dir : DirCalls) (entries : DirStream) :
    let visits := treeVisits opts path dir entries
    let wrapped := createarSaveDirectoryWrapper mem md5 opts false save path dir entries
    wrapped.1 = (saveVisits mem md5 opts false visits (walkStart opts save)).1 ∧
      wrapped.2.pushed = save.pushed ++ packetItems md5 save.fsid
        (allPackets (min opts.datablocksize maxBlkSize)
          ((visitsProduced mem md5 opts visits (walkStart opts save)).map Prod.fst)) := by
  obtain ⟨queued, pushed⟩ := @saveVisits_packets mem md5 opts sizes
    (treeVisits opts path dir entries) save
  rw [createarSaveDirectoryWrapper_eq]
  simp only [queued, Bool.and_true, true_and]
  exact pushed

end Walk

/-! ## The objects of a walk -/

/-- The headers of a packet, those of small files without their places. -/
def Packet.dicos : Packet → List Dico
  | .single d | .file d _ | .cut d _ => [d]
  | .pack files => files.map Prod.fst

/-- The header of what a visit adds. -/
def Produced.dicos : Produced → List Dico
  | .nothing => []
  | .now packet => packet.dicos
  | .later entry => [entry.1]

/-- No header is lost or doubled in the packets of a walk. -/
theorem dicos_packetsFrom (maxblksize : Nat) (files : List PackEntry) (made : List Produced) :
    ((packetsFrom maxblksize files made).1.flatMap Packet.dicos ++
      (packetsFrom maxblksize files made).2.map Prod.fst).Perm
      (files.map Prod.fst ++ made.flatMap Produced.dicos) := by
  induction made generalizing files with
  | nil => simp [packetsFrom]
  | cons first rest ih =>
    simp only [packetsFrom, List.flatMap_append, List.flatMap_cons, List.append_assoc]
    have onward := ih (addProduced maxblksize files first).2
    have here : ((addProduced maxblksize files first).1.flatMap Packet.dicos ++
        (addProduced maxblksize files first).2.map Prod.fst).Perm
        (files.map Prod.fst ++ first.dicos) := by
      cases first with
      | nothing => simp [addProduced, Produced.dicos]
      | now packet =>
        simp only [addProduced, Produced.dicos, List.flatMap_singleton]
        exact List.perm_append_comm
      | later entry =>
        simp only [addProduced, addEntry, Produced.dicos]
        split
        · simp
        · simp [Packet.dicos]
    have all := (onward.append_left ((addProduced maxblksize files first).1.flatMap Packet.dicos))
    refine all.trans ?_
    rw [← List.append_assoc, ← List.append_assoc]
    exact here.append_right _

/-- No header is lost or doubled in all packets of a walk. -/
theorem dicos_allPackets (maxblksize : Nat) (made : List Produced) :
    ((allPackets maxblksize made).flatMap Packet.dicos).Perm (made.flatMap Produced.dicos) := by
  have all := dicos_packetsFrom maxblksize [] made
  unfold allPackets
  rw [List.flatMap_append]
  have last : (if (packetsFrom maxblksize [] made).2 = [] then []
      else [Packet.pack (packetsFrom maxblksize [] made).2]).flatMap Packet.dicos =
      (packetsFrom maxblksize [] made).2.map Prod.fst := by
    split
    next none => simp [none]
    next => simp [Packet.dicos]
  rw [last]
  exact all

/-- A header in the queue is one of a packet, apart from its place in a pack. -/
def SameButPlace (d d' : Dico) : Prop :=
  d = d' ∨ ∃ count offset, d = placedHeader count offset d'

/-- The headers of a pack are those of its files with their places. -/
theorem mem_packHeaders {count offset : UInt32} {files : List PackEntry} {d : Dico}
    (member : d ∈ packHeaders count offset files) :
    ∃ entry ∈ files, ∃ offset, d = placedHeader count offset entry.1 := by
  induction files generalizing offset with
  | nil => cases member
  | cons entry files ih =>
    rcases List.mem_cons.mp member with rfl | member
    · exact ⟨entry, List.mem_cons_self, offset, rfl⟩
    · obtain ⟨entry', among, offset', same⟩ := ih member
      exact ⟨entry', List.mem_cons_of_mem _ among, offset', same⟩

/-- Every file of a pack has its header in the queue. -/
theorem placed_mem_packHeaders {count offset : UInt32} {files : List PackEntry} {entry : PackEntry}
    (member : entry ∈ files) :
    ∃ offset', placedHeader count offset' entry.1 ∈ packHeaders count offset files := by
  induction files generalizing offset with
  | nil => cases member
  | cons first files ih =>
    rcases List.mem_cons.mp member with rfl | member
    · exact ⟨offset, List.mem_cons_self⟩
    · obtain ⟨offset', among⟩ := @ih (offset + UInt32.ofNat first.2.length) member
      exact ⟨offset', List.mem_cons_of_mem _ among⟩

/-- An object header in the items of a packet. -/
theorem mem_items_of_object {md5 : Md5} {fsid fsid' : UInt16} {packet : Packet} {d : Dico}
    (member : objectItem fsid' d ∈ packet.items md5 fsid) :
    fsid' = fsid ∧ ∃ d' ∈ packet.dicos, SameButPlace d d' := by
  have apart : ∀ blocks : List BlockInfo, objectItem fsid' d ∉ blocks.map .block := by
    intro blocks among
    obtain ⟨blk, -, same⟩ := List.mem_map.mp among
    cases same
  cases packet with
  | single d' =>
    cases List.mem_singleton.mp member
    exact ⟨rfl, d, List.mem_singleton_self d, .inl rfl⟩
  | file d' blocks =>
    rcases List.mem_cons.mp member with same | among
    · cases same
      exact ⟨rfl, d, List.mem_singleton_self d, .inl rfl⟩
    · rcases List.mem_append.mp among with among | among
      · exact absurd among (apart blocks)
      · split at among
        · cases among
        · cases List.mem_singleton.mp among
  | cut d' blocks =>
    rcases List.mem_cons.mp member with same | among
    · cases same
      exact ⟨rfl, d, List.mem_singleton_self d, .inl rfl⟩
    · exact absurd among (apart blocks)
  | pack files =>
    rcases List.mem_append.mp member with among | among
    · obtain ⟨d', placed, same⟩ := List.mem_map.mp among
      cases same
      obtain ⟨entry, inPack, offset, same⟩ := mem_packHeaders placed
      exact ⟨rfl, entry.1, List.mem_map_of_mem inPack, .inr ⟨_, offset, same⟩⟩
    · cases List.mem_singleton.mp among

/-- Every header of a packet is in its items. -/
theorem object_mem_items (md5 : Md5) (fsid : UInt16) {packet : Packet} {d : Dico}
    (member : d ∈ packet.dicos) : ∃ d', objectItem fsid d' ∈ packet.items md5 fsid ∧
      SameButPlace d' d := by
  cases packet with
  | single d' | file d' blocks | cut d' blocks =>
    cases List.mem_singleton.mp member
    exact ⟨d, List.mem_cons_self, .inl rfl⟩
  | pack files =>
    obtain ⟨entry, inPack, rfl⟩ := List.mem_map.mp member
    obtain ⟨offset, placed⟩ := @placed_mem_packHeaders (UInt32.ofNat files.length) 0 files entry inPack
    exact ⟨_, List.mem_append_left _ (List.mem_map_of_mem placed), .inr ⟨_, offset, rfl⟩⟩

/-- The place in a pack changes no other item of a header. -/
theorem SameButPlace.find_eq {d d' : Dico} (same : SameButPlace d d') {key : UInt16}
    (other : key ≠ ItemKey.multifilescount ∧ key ≠ ItemKey.multifilesoffset) (sect : UInt8) :
    d.find sect key = d'.find sect key := by
  rcases same with rfl | ⟨count, offset, rfl⟩
  · rfl
  · unfold placedHeader
    rw [find_dicoAddAll_other]
    simp only [List.mem_cons, List.not_mem_nil, or_false, forall_eq_or_imp, forall_eq]
    exact ⟨fun taken => other.1 taken.1.symm, fun taken => other.2 taken.1.symm⟩

/-- The headers of a production have the attributes of the visited object. -/
theorem find_produced {md5 : Md5} {opts : SaveOptions} {save : Savear} {relpath : Path} {st : Stat}
    {calls : ObjectCalls} {d : Dico}
    (member : d ∈ (produced md5 opts save relpath st calls).1.dicos) {key : UInt16}
    {item : DicoItem} (found : (objectDico opts save relpath st calls).find Section.stdattr key =
      some item) : d.find Section.stdattr key = some item := by
  unfold produced at member
  split at member
  · cases member
  · unfold producedContents at member
    split at member
    · cases member
    · cases member
    · dsimp only at member
      split at member <;> exact List.mem_singleton.mp member ▸ found
    · split at member
      · cases member
      · rw [List.mem_singleton.mp member]
        exact find_dicoAddAll_kept found
    · exact List.mem_singleton.mp member ▸ found

/-! ## A plain system -/

/-- Memory that is zero. -/
def plainMem : Mem := ⟨fun _ => 0, fun _ => 0⟩

/-- An MD5 that is always zero. -/
def plainMd5 : Md5 := ⟨fun _ => List.replicate 16 0, length_zeroDigest⟩

/-- A directory. -/
def plainDirStat : Stat :=
  { dev := 1, mode := 0o040755, nlink := 2, uid := 0, gid := 0, rdev := 0, ino := 2, size := 4096,
    blocks := 8, atime := 0, mtime := 0 }

/-- Calls that find no attributes and no contents. -/
def plainCalls : ObjectCalls :=
  { isCurvol := false, readlink := none, linkTarget := none, xattrs := [],
    winattrs := fun _ => ⟨.error .noattr, .error .noattr⟩, openFile := none }

/-- A regular file with so many links and bytes. -/
def plainFileStat (nlink size : UInt64) : Stat where
  dev := 1
  mode := 0o100644
  nlink := nlink
  uid := 0
  gid := 0
  rdev := 0
  ino := 12
  size := size
  blocks := 8
  atime := 0
  mtime := 0

/-- A file that reads as two bytes. -/
def twoBytes : Option (Nat → Nat → Option (List UInt8)) :=
  some fun pos count => some (([0x68, 0x69].drop pos).take count)

/-- The calls on a directory that can be read. -/
def plainDirCalls : DirCalls := ⟨true, some plainDirStat, plainCalls⟩

/-- The default sizes, and nothing is excluded. -/
def plainOptions : SaveOptions :=
  { datablocksize := 524288, smallfilethresh := 131072, exclude := fun _ => false,
    allowsaverw := false }

/-- The state before anything is saved. -/
def plainSavear : Savear :=
  { fsid := 0, fstype := ⟨false, false, false⟩, objectid := 0, dichardlinks := [],
    regmulti := regmultiInit 524288, stats := {}, cost := 0, pushed := [] }

/-- The default sizes are those of `process_cmdline`. -/
theorem plainOptions_fromCmdline : plainOptions.FromCmdline := ⟨by decide, by decide⟩

end FsArchiver
