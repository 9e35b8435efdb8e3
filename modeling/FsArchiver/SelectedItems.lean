import FsArchiver.Splitting

/-!
# Reading the filesystems that are needed

The main thread tells the reader in `g_fsbitmap` which filesystems it needs. The reader adds the
main header, every other header that belongs to no filesystem, and the items of the filesystems it
is told, and it steps over the rest: a header that is not needed is read and dropped, the data of a
block that is not needed is skipped.
-/
namespace FsArchiver

open Lib

/-- Whether the reader adds an item: a block of a filesystem with any bit set, or a header of no
filesystem or of one whose entry is 1. -/
def Source.selects (src : Source) : QueueData → Bool
  | .block blkinfo => decide (src.fsbitmap blkinfo.blkfsid ≠ 0)
  | .header headinfo =>
    decide (headinfo.fsid = filesysidNull ∨ src.fsbitmap headinfo.fsid = 1)

variable {src : Source} {ai : ArchReader} {archid : UInt32}

/-- The data of a block that is skipped is stepped over. -/
theorem archreaderReadBlock_skipped (mem : Mem) {blkinfo : BlockInfo} (stored : blkinfo.Stored) :
    archreaderReadBlock mem ai (blockDico blkinfo) true =
      some (none, ai.skip blkinfo.blkdata.length) := by
  simp [archreaderReadBlock, readBlockHead_blockDico mem stored.real, BlockInfo.head, stored.size,
    ArchReader.skip]

/-- One iteration reads one item, and adds it if it is needed. -/
theorem readNext_selects {item : QueueData} {rest : List UInt8} (storable : item.Storable)
    (version : ai.filefmtver = 2) (known : ai.archid = archid)
    (here : ai.ahead = itemBytes archid item ++ rest) :
    readNext src ai =
      .next (if src.selects item then some ⟨ai.curvol, ai.pos, item.readBack⟩ else none)
        (ai.skip (itemBytes archid item).length) := by
  cases item with
  | header headinfo =>
    obtain ⟨magic, fsid, dico⟩ := headinfo
    obtain ⟨content, -, fits⟩ := storable
    have read : archreaderReadHeader src.mem ai true = .ok ⟨ai.pos, magic, fsid, dico⟩ _ :=
      archreaderReadHeader_of_ahead src.mem true version (.inr known) fits here
    have other : readNext src ai = readOther src (ai.skip (headerBytes magic archid fsid dico).length)
        ⟨ai.pos, magic, fsid, dico⟩ := by
      rw [readNext, read]
      cases magic <;> first | rfl | simp at content
    rw [other, readOther]
    by_cases needed : fsid = filesysidNull ∨ src.fsbitmap fsid = 1
    · rw [if_pos needed, Source.selects, decide_eq_true needed]
      rfl
    · rw [if_neg needed, Source.selects, decide_eq_false needed]
      rfl
  | block blkinfo =>
    obtain ⟨stored, -⟩ := storable
    obtain ⟨read, behind⟩ := readBlockHeader src.mem version known here
    rw [readNext, read]
    by_cases unneeded : src.fsbitmap blkinfo.blkfsid = 0
    · simp [readBlock, unneeded, archreaderReadBlock_skipped src.mem stored, itemBytes, blockBytes,
        Source.selects]
    · have data := archreaderReadBlock_of_ahead src.mem stored behind
      simp [readBlock, unneeded, data, itemBytes, blockBytes, QueueData.readBack, Source.selects]

/-- Items ahead of the reader are read one by one; the needed ones are added. -/
theorem Reads.selected {items : List QueueData} (storable : ∀ item ∈ items, item.Storable)
    {rest : List UInt8} (version : ai.filefmtver = 2) (known : ai.archid = archid)
    (here : ai.ahead = itemsBytes archid items ++ rest) {found : List Enqueued}
    (tail : Reads src (ai.skip (itemsBytes archid items).length) found) :
    ∃ all, Reads src ai all ∧ all.map Enqueued.input =
      (items.filter src.selects).map QueueData.readBack ++ found.map Enqueued.input := by
  induction items generalizing ai with
  | nil => exact ⟨found, tail, rfl⟩
  | cons item items ih =>
    simp only [itemsBytes, List.flatMap_cons, List.append_assoc] at here
    have first : readNext src ai = _ :=
      readNext_selects (storable item List.mem_cons_self) version known here
    have tail' : Reads src ((ai.skip (itemBytes archid item).length).skip
        (itemsBytes archid items).length) found := by
      rw [ArchReader.skip_skip]
      simpa [itemsBytes] using tail
    have behind : (ai.skip (itemBytes archid item).length).filefmtver = 2 := version
    obtain ⟨others, reads, inputs⟩ := ih
      (fun other member => storable other (List.mem_cons_of_mem item member)) behind known
      (ArchReader.ahead_skip here) tail'
    refine ⟨_, .next first reads, ?_⟩
    cases needed : src.selects item with
    | true => simp [needed, inputs]
    | false => simp [needed, inputs]

/-- Behind the footer of a volume that is not the last one the reader stands at the first item of
the next volume. -/
theorem readNext_volfooter (ai : ArchReader) {next : List QueueData} {lastvol : Bool}
    (served : src.volume (ai.curvol + 1) = some (volumeBytes archid (ai.curvol + 1) next lastvol))
    (knows : ai.Knows src.mem archid) (version : ai.filefmtver = 2)
    (here : ai.ahead = volfootBytes archid ai.curvol false) :
    ∃ ai', readNext src ai = .next none ai' ∧ ai'.Knows src.mem archid ∧ ai'.filefmtver = 2 ∧
      ai'.curvol = ai.curvol + 1 ∧
      ai'.ahead = itemsBytes archid next ++ volfootBytes archid ai'.curvol lastvol := by
  rw [← List.append_nil (volfootBytes ..)] at here
  have foot : archreaderReadHeader src.mem ai true = .ok ⟨_, .volf, filesysidNull, _⟩ _ :=
    archreaderReadHeader_of_ahead src.mem true version (.inr knows.id)
      (fits_volfooter ai.curvol archid false) here
  have lastvol' : dicoGetU32 src.mem (dicoAddAll Dico.alloc (volfooterCalls ai.curvol archid false))
      0 VolumeKey.footLastvol = some 0 :=
    dicoGetU32_of_call (items_volfooter ai.curvol archid false) (by simp [volfooterCalls])
  have onward : ArchReader.Knows src.mem archid
      { ai.skip (volfootBytes archid ai.curvol false).length with curvol := ai.curvol + 1 } :=
    ⟨knows.id, knows.format⟩
  obtain ⟨ai', opened, knows', version', vol', -, here'⟩ :=
    open_volume src.mem archid (ai.curvol + 1) (itemsBytes archid next ++
      volfootBytes archid (ai.curvol + 1) lastvol) (.inr onward) rfl
  rw [volumeBytes, List.append_assoc] at served
  refine ⟨ai', ?_, knows', version', vol', by rw [here', vol']⟩
  rw [volfootBytes] at opened
  rw [readNext, foot]
  simp only [readVolfooter, lastvol', ArchReader.skip_curvol, served, Option.bind_some, opened]
  rfl

/-- Volumes are read one after the other; the needed items of all of them are added. -/
theorem Reads.selectedVolumes {items : List QueueData} {rest : List (List QueueData)}
    (storable : ∀ item ∈ items ++ rest.flatten, item.Storable)
    (serves : src.Serves archid (ai.curvol + 1) rest)
    (knows : ai.Knows src.mem archid) (version : ai.filefmtver = 2)
    (here : ai.ahead = itemsBytes archid items ++ volfootBytes archid ai.curvol rest.isEmpty) :
    ∃ found, Reads src ai found ∧ found.map Enqueued.input =
      ((items ++ rest.flatten).filter src.selects).map QueueData.readBack := by
  induction rest generalizing items ai with
  | nil =>
    have behind := ArchReader.ahead_skip here
    rw [← List.append_nil (volfootBytes ..)] at behind
    obtain ⟨found, reads, inputs⟩ := Reads.selected
      (fun item member => storable item (by simpa using member)) version knows.id here
      (.stop (readNext_volfooter_last version knows.id behind))
    exact ⟨found, reads, by simpa using inputs⟩
  | cons next rest ih =>
    have behind := ArchReader.ahead_skip here
    obtain ⟨served, serves⟩ := serves
    have knows' : (ai.skip (itemsBytes archid items).length).Knows src.mem archid :=
      ⟨knows.id, knows.format⟩
    obtain ⟨ai', step, knows', version', vol', here'⟩ :=
      readNext_volfooter (ai.skip (itemsBytes archid items).length) served knows' version behind
    rw [ArchReader.skip_curvol] at vol'
    obtain ⟨found, reads, inputs⟩ := ih
      (fun item member => storable item (List.mem_append_right _ (by simpa using member)))
      (by rw [vol']; exact serves) knows' version' here'
    obtain ⟨all, reads', inputs'⟩ := Reads.selected
      (fun item member => storable item (List.mem_append_left _ member)) version knows.id here
      (.next step reads)
    refine ⟨all, reads', ?_⟩
    rw [inputs']
    simp [inputs]

/-! ## Writing and reading a part -/

/-- The writer leaves volumes behind that hold its items in order, the first of them beginning
with the main header, if this one fits behind the volume header. -/
theorem written_volumes (splitsize : Nat) {main : HeadInfo} {items : List QueueData}
    (isMain : main.IsMain archid) (encodable : ∀ item ∈ items, item.Encodable)
    (room : splitsize = 0 ∨ 74 + (itemBytes archid (.header main)).length ≤ splitsize) :
    ∃ first rest, threadWriterFct splitsize archid (.header main :: items) =
        some (volumesFrom archid 0 ((.header main :: first) :: rest)) ∧
      first ++ rest.flatten = items ∧ rest.length ≤ items.length := by
  -- the volume header and the main header, both in volume 0
  have atStart : ArchWriter.Holds archid [] []
      { archid, curvol := 0, closed := [], current := [] ++ volheadBytes archid 0 } :=
    ⟨rfl, rfl, rfl, by simp [itemsBytes]⟩
  obtain ⟨ai, written, holds⟩ := writeItem_eq splitsize atStart
    (show (QueueData.header main).Encodable from isMain.fits)
  have stays : archwriterSplitCheck splitsize
      { archid, curvol := 0, closed := [], current := [] ++ volheadBytes archid 0 }
      (itemBytes archid (.header main)) = false := by
    simp only [archwriterSplitCheck, List.nil_append, length_volheadBytes, gt_iff_lt,
      Bool.and_eq_false_iff, decide_eq_false_iff_not]
    omega
  rw [stays] at holds
  -- the other items
  obtain ⟨last, done, chunk, all, holds', order, bound, start⟩ := writeItems_eq splitsize holds
    encodable
  obtain ⟨chunk', rest, chunks, first, begins⟩ := start [.header main] [] rfl
  subst begins
  refine ⟨first, rest, ?_, ?_, ?_⟩
  · rw [show (QueueData.header main :: first) = [.header main] ++ first from rfl, ← chunks]
    simp only [threadWriterFct, archwriterWriteVolheader_eq, Option.bind_eq_bind, Option.bind_some,
      List.foldlM_cons, written, all, archwriterWriteVolfooter_eq, volumesFrom_append]
    simp [holds'.closed, holds'.current, holds'.vol, holds'.id, volumeBytes]
  · rw [chunks] at order
    simpa using order
  · have count := congrArg List.length chunks
    simp only [List.length_append, List.length_cons, List.length_nil] at count bound
    omega

/-- From these volumes the reader adds the main header and the items that are needed. -/
theorem reads_selected (splitsize : Nat) {main : HeadInfo} {items : List QueueData}
    (isMain : main.IsMain archid) (storable : ∀ item ∈ items, item.Storable)
    (room : splitsize = 0 ∨ 74 + (itemBytes archid (.header main)).length ≤ splitsize)
    {volumes : List (List UInt8)}
    (written : threadWriterFct splitsize archid (.header main :: items) = some volumes)
    (few : volumes.length ≤ 4294967296) (finds : src.Finds volumes) :
    ∃ found, src.Reads found ∧ found.map Enqueued.input =
      .header main :: (items.filter src.selects).map QueueData.readBack := by
  obtain ⟨first, rest, volumes', order, -⟩ := written_volumes splitsize isMain
    (fun item (member : item ∈ items) => (storable item member).encodable) room
  rw [written, Option.some.injEq] at volumes'
  subst volumes'
  have serves := finds.serves ((.header main :: first) :: rest) few 0 rfl
  obtain ⟨served, serves⟩ := serves
  simp only [volumeBytes, itemsBytes, List.flatMap_cons, List.append_assoc] at served
  obtain ⟨ai, started, knows, version, vol, _, here⟩ := readStart_volume isMain served
  obtain ⟨found, reads, inputs⟩ := Reads.selectedVolumes
    (fun item member => storable item (order ▸ member)) (by rw [vol]; exact serves) knows version
    (by rw [vol]; exact here)
  refine ⟨_, Source.reads_of_start started reads, ?_⟩
  rw [List.map_cons, inputs, order]

/-- From the volumes of an archive the reader adds the main header and, in their order, exactly the
items the main thread has asked for, whatever the split size and whatever the other filesystems
hold. -/
theorem selected_items (splitsize : Nat) (archid : UInt32) (main : HeadInfo)
    (items : List QueueData) (isMain : main.IsMain archid)
    (storable : ∀ item ∈ items, item.Storable) (few : items.length + 1 < 4294967296)
    (room : splitsize = 0 ∨ 74 + (itemBytes archid (.header main)).length ≤ splitsize) :
    ∃ volumes, threadWriterFct splitsize archid (.header main :: items) = some volumes ∧
      ∀ src : Source, src.Finds volumes → ∃ found, src.Reads found ∧
        found.map Enqueued.input = .header main ::
          (items.filter src.selects).map QueueData.readBack := by
  obtain ⟨first, rest, volumes, -, bound⟩ := written_volumes splitsize isMain
    (fun item (member : item ∈ items) => (storable item member).encodable) room
  refine ⟨_, volumes, fun src finds => ?_⟩
  refine reads_selected splitsize isMain storable room volumes ?_ finds
  rw [length_volumesFrom, List.length_cons]
  omega

/-- Of two filesystems only the second is needed: the block of the first is passed over. -/
theorem selected_items_second : ∃ (volumes : List (List UInt8)) (src : Source),
    threadWriterFct 1048576 1 (.header smallMain :: twoBlocks) = some volumes ∧
      src.Finds volumes ∧ src.fsbitmap 0 = 0 ∧ src.fsbitmap 1 = 1 ∧ ∃ found, src.Reads found ∧
        found.map Enqueued.input =
          [.header smallMain, .todo { zerosOf 1 524288 with blkfsid := 0 }] := by
  have main : (itemBytes 1 (.header smallMain)).length = 30 := by decide
  obtain ⟨volumes, written, reads⟩ := selected_items 1048576 1 smallMain twoBlocks
    isMain_smallMain storable_twoBlocks (show 2 + 1 < 4294967296 by omega) (.inr (by omega))
  let src : Source := ⟨fun curvol => volumes[curvol.toNat]?, fun fsid => if fsid = 1 then 1 else 0,
    ⟨fun _ => 0, fun _ => 0⟩⟩
  exact ⟨volumes, src, written, fun _ => rfl, rfl, rfl, reads src fun _ => rfl⟩

end FsArchiver
