import FsArchiver.CarriedItems
import FsArchiver.PlainBlocks
import FsArchiver.SavedArchive
import FsArchiver.SelectedItems

/-!
# The items of an archive on their way

The items that `oper_save` puts on the queue are compressed, written, selected by the reader,
decompressed and restored. Each of them keeps what is needed at the other end: a header is the same
header, a block has the same data of the same size at the same place.
-/
namespace FsArchiver

open Lib

/-! ## Items as they are saved -/

/-- An item as the main thread adds it behind the main header. -/
def QueueData.Fresh : QueueData → Prop
  | .block blkinfo => blkinfo.Fresh ∧ blkinfo.blkfsid.toNat < maxFsPerArch
  | .header headinfo => headinfo.magic ∈ [Magic.fsin, .fsyb, .dirs, .objt, .filf, .datf] ∧
      (headinfo.fsid.toNat < maxFsPerArch ∨ headinfo.fsid = filesysidNull)

/-- The filesystem an item belongs to. -/
def QueueData.fsid : QueueData → UInt16
  | .block blkinfo => blkinfo.blkfsid
  | .header headinfo => headinfo.fsid

section Archive

variable {md5 : Md5} {fsid : UInt16}

/-- The blocks of a file belong to its filesystem and are full. -/
theorem Chunked.fresh {pos : Nat} {contents : List UInt8} {blocks : List BlockInfo}
    (chunked : Chunked fsid pos contents blocks)
    (small : ∀ blkinfo ∈ blocks, blkinfo.blkdata.length ≤ maxBlkSize) :
    ∀ blkinfo ∈ blocks, blkinfo.Fresh ∧ blkinfo.blkfsid = fsid := by
  induction chunked with
  | nil pos => exact fun _ none => absurd none List.not_mem_nil
  | @cons pos data rest blocks nonempty bound tail ih =>
    obtain ⟨here, later⟩ := List.forall_mem_cons.mp small
    have size : (UInt32.ofNat data.length).toNat = data.length := by
      rw [UInt32.toNat_ofNat']
      exact Nat.mod_eq_of_lt bound
    refine List.forall_mem_cons.mpr ⟨⟨⟨?_, size.symm, ?_⟩, rfl⟩, ih later⟩
    · rw [show (regfileBlock fsid pos data).blkrealsize = UInt32.ofNat data.length from rfl, size]
      exact List.length_pos_iff.mpr nonempty
    · rw [show (regfileBlock fsid pos data).blkrealsize = UInt32.ofNat data.length from rfl, size]
      exact here

/-- The block of a pack is full too. -/
theorem fresh_packBlock {objs : List SavedObj} (some : objs ≠ [])
    (packed : ∀ obj ∈ objs, obj.Packed md5)
    (room : ((objs.map SavedObj.packEntry).flatMap Prod.snd).length ≤ maxBlkSize) :
    (packBlock fsid ((objs.map SavedObj.packEntry).flatMap Prod.snd)).Fresh := by
  have positive : 0 < ((objs.map SavedObj.packEntry).flatMap Prod.snd).length := by
    cases objs with
    | nil => exact absurd rfl some
    | cons obj rest =>
      have first := List.length_pos_iff.mpr (packed obj List.mem_cons_self).nonempty
      rw [List.map_cons, List.flatMap_cons, List.length_append]
      exact Nat.lt_add_right _ first
  generalize (objs.map SavedObj.packEntry).flatMap Prod.snd = data at *
  have size : (UInt32.ofNat data.length).toNat = data.length := by
    simp only [maxBlkSize] at room
    rw [UInt32.toNat_ofNat']
    exact Nat.mod_eq_of_lt (by omega)
  refine ⟨?_, size.symm, ?_⟩
  · rw [show (packBlock fsid data).blkrealsize = UInt32.ofNat data.length from rfl, size]
    exact positive
  · rw [show (packBlock fsid data).blkrealsize = UInt32.ofNat data.length from rfl, size]
    exact room

/-- The items of a part are as the main thread adds them, for one filesystem. -/
theorem Part.WellMade.fresh {part : Part} (wellMade : part.WellMade md5 fsid)
    (small : ∀ blkinfo ∈ part.blocks, blkinfo.blkdata.length ≤ maxBlkSize)
    (few : fsid.toNat < maxFsPerArch) :
    ∀ item ∈ part.packet.items md5 fsid, item.Fresh ∧ item.fsid = fsid := by
  have header (d : Dico) : (objectItem fsid d).Fresh ∧ (objectItem fsid d).fsid = fsid :=
    ⟨⟨by simp, .inl few⟩, rfl⟩
  have blocks {contents : List UInt8} {blocks : List BlockInfo}
      (chunked : Chunked fsid 0 contents blocks)
      (small : ∀ blkinfo ∈ blocks, blkinfo.blkdata.length ≤ maxBlkSize) :
      ∀ item ∈ blocks.map QueueData.block, item.Fresh ∧ item.fsid = fsid := by
    intro item member
    obtain ⟨blkinfo, among, rfl⟩ := List.mem_map.mp member
    obtain ⟨fresh, own⟩ := chunked.fresh small blkinfo among
    exact ⟨⟨fresh, by rw [own]; exact few⟩, own⟩
  cases part with
  | single obj => exact List.forall_mem_cons.mpr ⟨header _, List.forall_mem_nil _⟩
  | file obj blocks' =>
    simp only [Part.packet, Packet.items, List.cons_append, List.forall_mem_cons,
      List.forall_mem_append]
    refine ⟨header _, blocks wellMade.2.2.2 small, ?_⟩
    split
    · exact List.forall_mem_nil _
    · exact List.forall_mem_cons.mpr ⟨⟨⟨by simp, .inl few⟩, rfl⟩, List.forall_mem_nil _⟩
  | cut obj blocks' =>
    exact List.forall_mem_cons.mpr ⟨header _, blocks wellMade.2.2.2.1 small⟩
  | pack objs =>
    simp only [Part.packet, Packet.items, List.forall_mem_append]
    constructor
    · intro item member
      obtain ⟨d, -, rfl⟩ := List.mem_map.mp member
      exact header d
    · have fresh := @fresh_packBlock md5 fsid _ wellMade.1 wellMade.2.1 wellMade.2.2.2
      exact List.forall_mem_cons.mpr ⟨⟨⟨fresh, few⟩, rfl⟩, List.forall_mem_nil _⟩

/-- The contents of a filesystem can be sent. -/
structure Sendable (md5 : Md5) (fsid : UInt16) (parts : List Part) : Prop where
  wellMade : ∀ part ∈ parts, part.WellMade md5 fsid
  small : ∀ part ∈ parts, ∀ blkinfo ∈ part.blocks, blkinfo.blkdata.length ≤ maxBlkSize

theorem SavedFs.Complete.sendable {opts : SaveOptions} {objects : List VisitedObject}
    {saved : SavedFs} (complete : saved.Complete md5 opts fsid objects) : Sendable md5 fsid saved.parts :=
  ⟨complete.wellMade, complete.blocks⟩

theorem fresh_packetItems {parts : List Part} (sendable : Sendable md5 fsid parts)
    (few : fsid.toNat < maxFsPerArch) :
    ∀ item ∈ packetItems md5 fsid (parts.map Part.packet), item.Fresh ∧ item.fsid = fsid := by
  intro item member
  obtain ⟨packet, among, inPacket⟩ := List.mem_flatMap.mp member
  obtain ⟨part, inParts, rfl⟩ := List.mem_map.mp among
  exact (sendable.wellMade part inParts).fresh (sendable.small part inParts) few item inPacket

theorem fresh_filesystemItems {parts : List Part} (sendable : Sendable md5 fsid parts)
    (few : fsid.toNat < maxFsPerArch) :
    ∀ item ∈ filesystemItems md5 fsid parts, item.Fresh ∧ item.fsid = fsid := by
  have header (magic : Magic) (content : magic ∈ [Magic.fsin, .fsyb, .dirs, .objt, .filf, .datf]) :
      (QueueData.header ⟨magic, fsid, Dico.alloc⟩).Fresh ∧
        (QueueData.header ⟨magic, fsid, Dico.alloc⟩).fsid = fsid := ⟨⟨content, .inl few⟩, rfl⟩
  simp only [filesystemItems, List.forall_mem_cons, List.forall_mem_append]
  exact ⟨header .fsyb (by simp), fresh_packetItems sendable few, header .datf (by simp),
    List.forall_mem_nil _⟩

/-- So are those of the filesystems of an archive. -/
theorem fresh_contentsFrom (needed : Nat → Bool) (archive : List SavedFs) (i : Nat)
    (sendable : ∀ j saved, archive[j]? = some saved →
      Sendable md5 (UInt16.ofNat (i + j)) saved.parts)
    (few : i + archive.length ≤ maxFsPerArch) :
    ∀ item ∈ contentsFrom md5 needed i archive, item.Fresh := by
  induction archive generalizing i with
  | nil => exact List.forall_mem_nil _
  | cons saved rest ih =>
    rw [List.length_cons] at few
    have number : (UInt16.ofNat i).toNat = i := by
      simp only [maxFsPerArch] at few
      rw [UInt16.toNat_ofNat']
      exact Nat.mod_eq_of_lt (by omega)
    rw [contentsFrom, List.forall_mem_append]
    constructor
    · split
      · intro item member
        exact (fresh_filesystemItems (sendable 0 saved rfl) (by rw [Nat.add_zero, number]; omega)
          item member).1
      · exact List.forall_mem_nil _
    · refine ih (i + 1) (fun j other found => ?_) (by omega)
      have own := sendable (j + 1) other (by simpa using found)
      rwa [show i + (j + 1) = i + 1 + j by omega] at own

theorem fresh_archiveItems {needed : Nat → Bool} {archive : List SavedFs}
    (sendable : ∀ i saved, archive[i]? = some saved → Sendable md5 (UInt16.ofNat i) saved.parts)
    (few : archive.length ≤ maxFsPerArch) :
    ∀ item ∈ archiveItems md5 needed archive, item.Fresh := by
  rw [archiveItems, List.forall_mem_append]
  constructor
  · intro item member
    obtain ⟨saved, -, rfl⟩ := List.mem_map.mp member
    exact ⟨by simp, .inr rfl⟩
  · exact fresh_contentsFrom needed archive 0 (fun j saved found => by simpa using sendable j saved found)
      (by omega)

/-! ## What the reader selects -/

/-- The reader is told which filesystems are needed. -/
def Source.Needs (src : Source) (needed : Nat → Bool) : Prop :=
  ∀ fsid : UInt16, src.fsbitmap fsid = if needed fsid.toNat then 1 else 0

variable {src : Source} {needed : Nat → Bool}

/-- An item of a filesystem is selected if the filesystem is needed. -/
theorem Source.Needs.selects (needs : src.Needs needed) {item : QueueData}
    (few : item.fsid.toNat < maxFsPerArch) : src.selects item = needed item.fsid.toNat := by
  cases item with
  | block blkinfo =>
    simp only [Source.selects, QueueData.fsid, needs blkinfo.blkfsid]
    cases needed blkinfo.blkfsid.toNat <;> rfl
  | header headinfo =>
    have own : headinfo.fsid ≠ filesysidNull := by
      intro none
      simp only [QueueData.fsid, none] at few
      exact absurd few (by decide)
    simp only [Source.selects, QueueData.fsid, needs headinfo.fsid, own, false_or]
    cases needed headinfo.fsid.toNat <;> rfl

/-- The contents of the filesystems that are needed are selected. -/
theorem filter_contentsFrom (needs : src.Needs needed) (archive : List SavedFs) (i : Nat)
    (sendable : ∀ j saved, archive[j]? = some saved →
      Sendable md5 (UInt16.ofNat (i + j)) saved.parts)
    (few : i + archive.length ≤ maxFsPerArch) :
    (contentsFrom md5 (fun _ => true) i archive).filter src.selects =
      contentsFrom md5 needed i archive := by
  induction archive generalizing i with
  | nil => rfl
  | cons saved rest ih =>
    rw [List.length_cons] at few
    have number : (UInt16.ofNat i).toNat = i := by
      simp only [maxFsPerArch] at few
      rw [UInt16.toNat_ofNat']
      exact Nat.mod_eq_of_lt (by omega)
    have here : (filesystemItems md5 (UInt16.ofNat i) saved.parts).filter src.selects =
        if needed i then filesystemItems md5 (UInt16.ofNat i) saved.parts else [] := by
      have same : ∀ item ∈ filesystemItems md5 (UInt16.ofNat i) saved.parts,
          src.selects item = needed i := by
        intro item member
        have small : (UInt16.ofNat i).toNat < maxFsPerArch := by rw [number]; omega
        have own := (fresh_filesystemItems (sendable 0 saved rfl) small item member).2
        rw [Nat.add_zero] at own
        rw [needs.selects (by rw [own]; exact small), own, number]
      rw [List.filter_congr same]
      cases needed i with
      | true => exact List.filter_true _
      | false => exact List.filter_false _
    rw [contentsFrom, contentsFrom, if_pos rfl, List.filter_append, here, ih (i + 1) ?_ (by omega)]
    intro j other found
    have own := sendable (j + 1) other (by simpa using found)
    rwa [show i + (j + 1) = i + 1 + j by omega] at own

theorem filter_archiveItems (needs : src.Needs needed) {archive : List SavedFs}
    (sendable : ∀ i saved, archive[i]? = some saved → Sendable md5 (UInt16.ofNat i) saved.parts)
    (few : archive.length ≤ maxFsPerArch) :
    (archiveItems md5 (fun _ => true) archive).filter src.selects =
      archiveItems md5 needed archive := by
  have infos : (archive.map SavedFs.infoItem).filter src.selects = archive.map SavedFs.infoItem := by
    refine List.filter_eq_self.mpr fun item member => ?_
    obtain ⟨saved, -, rfl⟩ := List.mem_map.mp member
    simp [Source.selects, SavedFs.infoItem]
  rw [archiveItems, archiveItems, List.filter_append, infos]
  rw [filter_contentsFrom needs archive 0 (fun j saved found => by simpa using sendable j saved found)
    (by omega)]

end Archive

/-! ## Items as they are stored -/

/-- The second item is the first one as it is stored. -/
inductive QueueData.StoredAs (build : Build) (lib : Decompressors) (restore : Gcrypt)
    (restoring : Options) (mem : Mem) : QueueData → QueueData → Prop
  | header (headinfo : HeadInfo) :
      StoredAs build lib restore restoring mem (.header headinfo) (.header headinfo)
  | block {blkinfo blkinfo' : BlockInfo}
      (storedAs : blkinfo.StoredAs build lib restore restoring mem blkinfo') :
      StoredAs build lib restore restoring mem (.block blkinfo) (.block blkinfo')

section Stored

variable {build : Build} {lib : Decompressors} {save restore : Gcrypt} {saving restoring : Options}
  {mem : Mem} {item stored : QueueData}

/-- What comes out of the compression threads can be stored. -/
theorem storedAs_of_yields (cipher : save.InvertedBy restore)
    (password : saving.encryptalgo = encryptBlowfish →
      restoring.encryptalgo = encryptBlowfish ∧ restoring.encryptpass = saving.encryptpass)
    (mem : Mem) (fresh : item.Fresh)
    (yields : Yields (Compressing build lib save saving) item.toDo stored) :
    item.StoredAs build lib restore restoring mem stored := by
  cases item with
  | header headinfo =>
    cases yields with
    | header => exact .header headinfo
  | block blkinfo =>
    cases yields with
    | todo success => exact .block (fresh.1.storedAs cipher password mem success)

/-- Its filesystem is the same, so that it is selected as the item is. -/
theorem QueueData.StoredAs.selects (src : Source)
    (storedAs : item.StoredAs build lib restore restoring mem stored) :
    src.selects item ↔ src.selects stored := by
  cases storedAs with
  | header headinfo => exact Iff.rfl
  | block storedAs => simp only [Source.selects, storedAs.fsid]

/-- It can be written and read if it is not empty. -/
theorem QueueData.StoredAs.storable (storedAs : item.StoredAs build lib restore restoring mem stored)
    (fresh : item.Fresh)
    (headers : ∀ headinfo, item = .header headinfo → headinfo.dico.Fits)
    (blocks : ∀ blkinfo, stored = .block blkinfo → blkinfo.blkarsize ≠ 0) : stored.Storable := by
  cases storedAs with
  | header headinfo => exact ⟨fresh.1, fresh.2, headers headinfo rfl⟩
  | block storedAs =>
    refine ⟨⟨blocks _ rfl, storedAs.size, ?_, storedAs.sum⟩, ?_⟩
    · rw [storedAs.real]
      exact fresh.1.small
    · rw [storedAs.fsid]
      exact fresh.2

/-- What comes out of the decompression threads is restored as the item would be. -/
theorem QueueData.StoredAs.plain_eq
    (storedAs : item.StoredAs build lib restore restoring mem stored) {result : QueueData}
    (yields : Yields (Decompressing build lib restore restoring mem) stored.readBack result) :
    result.plain = item.plain := by
  cases storedAs with
  | header headinfo =>
    cases yields with
    | header => rfl
  | block storedAs =>
    cases yields with
    | todo success =>
      obtain ⟨data, real, offset⟩ := storedAs.restored success
      simp only [plain_block, BlockInfo.plain, data, real, offset]

/-- An empty block is not written. -/
theorem blkarsize_of_written {splitsize : Nat} {archid : UInt32} {items : List QueueData}
    {volumes : List (List UInt8)} (written : threadWriterFct splitsize archid items = some volumes)
    {blkinfo : BlockInfo} (member : .block blkinfo ∈ items) : blkinfo.blkarsize ≠ 0 := by
  intro empty
  have refused (ai : ArchWriter) : writeItem splitsize ai (.block blkinfo) = none := by
    simp [writeItem, archwriterDowriteBlock, writebufAddBlock, empty]
  have stuck (ai : ArchWriter) : items.foldlM (writeItem splitsize) ai = none := by
    clear written
    induction items generalizing ai with
    | nil => cases member
    | cons item rest ih =>
      rw [List.foldlM_cons]
      rcases List.mem_cons.mp member with rfl | later
      · rw [refused]
        rfl
      · cases writeItem splitsize ai item with
        | none => rfl
        | some ai => exact ih later ai
  simp only [threadWriterFct, stuck, Option.bind_eq_bind, Option.bind_none, Option.bind_fun_none]
    at written
  cases written

end Stored

end FsArchiver
