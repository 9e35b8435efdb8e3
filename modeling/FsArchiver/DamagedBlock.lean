import FsArchiver.Damage
import Mathlib.Tactic.IntervalCases

/-!
# Damaged data of a block

After a block with a wrong checksum the reader stands in front of the damaged data and searches
it for the next record. A valid magic in the data that no archive id follows takes the reader
eight bytes on, so that it may come out behind the start of the next record.
-/
namespace FsArchiver

open Lib

variable {src : Source} {archid : UInt32} {main : HeadInfo} {front back : List QueueData}
  {record : List UInt8} {ai : ArchReader}

/-! ## The footer of the last volume -/

/-- The bytes of a valid magic are digits and letters. -/
theorem char_of_magic {magic : Magic} {byte : UInt8} (member : byte ∈ magic.bytes) :
    0x30 ≤ byte ∧ byte ≤ 0x74 := by
  cases magic <;> simp only [Magic.bytes, List.mem_cons, List.not_mem_nil, or_false] at member <;>
    rcases member with rfl | rfl | rfl | rfl <;> decide

/-- The encoding of a volume footer. -/
theorem encode_volfooter (curvol archid : UInt32) (lastvol : Bool) :
    (dicoAddAll Dico.alloc (volfooterCalls curvol archid lastvol)).encode =
      leBytes 2 3 ++ [DicType.u32, 0, 0, 0, 4, 0] ++ leBytes 4 curvol.toNat ++
        [DicType.u32, 0, 1, 0, 4, 0] ++ leBytes 4 archid.toNat ++
        [DicType.u32, 0, 2, 0, 4, 0] ++ leBytes 4 (if lastvol then 1 else 0) := by
  rw [Dico.encode, items_volfooter]
  cases lastvol <;>
    simp [volfooterCalls, DicoCall.item, DicoItem.make, DicoItem.encode, sizedData_of_lt,
      dicoAddU32, VolumeKey.footVolnum, VolumeKey.footArchid, VolumeKey.footLastvol, leBytes]

/-- Inside the footer of the last volume nothing looks like a record. -/
theorem no_mark_in_footer {magic : Magic} {distance : Nat}
    (content : magic ≠ .volf) :
    ¬MarksRecord archid magic ((volfootBytes archid 0 true).drop distance) := by
  rintro ⟨atMagic, id⟩
  have bytes := Magic.bytes_of_ofBytes atMagic
  have chars (byte : UInt8) (member : byte ∈ ((volfootBytes archid 0 true).drop distance).take 4) :
      0x30 ≤ byte ∧ byte ≤ 0x74 := char_of_magic (bytes ▸ member)
  obtain ⟨a, b, c, d, idBytes⟩ : ∃ a b c d, leBytes 4 archid.toNat = [a, b, c, d] :=
    ⟨_, _, _, _, rfl⟩
  obtain ⟨sum, foot⟩ : ∃ sum, volfootBytes archid 0 true = [0x46, 0x73, 0x41, 0x45, a, b, c, d,
      255, 255, 32, 0, 0, 0, 3, 0, 3, 0, 0, 0, 4, 0, 0, 0, 0, 0, 3, 0, 1, 0, 4, 0, a, b, c, d,
      3, 0, 2, 0, 4, 0, 1, 0, 0, 0] ++ leBytes 4 sum := by
    refine ⟨(fletcher32 (dicoAddAll Dico.alloc (volfooterCalls 0 archid true)).encode).toNat, ?_⟩
    simp only [volfootBytes, headerBytes, dicoBytes]
    generalize fletcher32 _ = sum
    rw [encode_volfooter, idBytes]
    simp [leBytes, DicType.u32, Magic.bytes, filesysidNull]
  rcases Nat.eq_zero_or_pos distance with rfl | inside
  · -- the footer itself
    rw [foot] at bytes
    exact content (Magic.bytes_injective bytes)
  rw [foot] at chars id
  rw [idBytes] at id
  by_cases early : distance < 46
  · -- a byte that is no character, here or among those the id would have to equal
    interval_cases distance
    all_goals simp at chars id
    all_goals grind
  · have short : distance + 4 ≥ 50 := by omega
    rw [List.drop_drop, List.drop_of_length_le (by simpa using short)] at id
    cases id
/-! ## Search through bytes without records -/

/-- Searching byte by byte, and eight bytes on at a valid magic, the reader comes to the place
so many bytes further on. -/
inductive Lands : List UInt8 → Nat → Prop
  | here (bytes : List UInt8) : Lands bytes 0
  | search {byte : UInt8} {bytes : List UInt8} {distance : Nat}
      (noMagic : Magic.ofBytes ((byte :: bytes).take sizeofMagic) = none)
      (onward : Lands bytes distance) : Lands (byte :: bytes) (distance + 1)
  | falseMagic {magic : Magic} {bytes : List UInt8} {distance : Nat}
      (atMagic : Magic.ofBytes (bytes.take sizeofMagic) = some magic)
      (onward : Lands (bytes.drop 8) distance) : Lands bytes (8 + distance)

/-- No valid magic followed by the archive id in front of the place so many bytes further on. -/
def NoMark (archid : UInt32) (bytes : List UInt8) (distance : Nat) : Prop :=
  ∀ offset < distance, ∀ magic, ¬MarksRecord archid magic (bytes.drop offset)

/-- Further on there are no marks either. -/
theorem NoMark.drop {bytes : List UInt8} {size distance : Nat}
    (noMark : NoMark archid bytes (size + distance)) :
    NoMark archid (bytes.drop size) distance := by
  intro offset inside magic marks
  rw [List.drop_drop] at marks
  exact noMark (size + offset) (by omega) magic marks

/-- At a valid magic without the archive id the reader goes on by eight bytes. -/
theorem advance_of_noMark {magic : Magic} {bytes : List UInt8} {distance : Nat}
    (atMagic : Magic.ofBytes (bytes.take sizeofMagic) = some magic)
    (noMark : NoMark archid bytes distance) (ahead : 0 < distance) (room : 8 ≤ bytes.length) :
    advance src archid magic bytes = some 8 := by
  have short : ¬bytes.length < 8 := Nat.not_lt.mpr room
  have other : leNat ((bytes.drop 4).take 4) ≠ archid.toNat := by
    intro same
    exact noMark 0 ahead magic ⟨atMagic, (id_eq_iff short).mp same⟩
  simp only [advance, headerAt, if_neg short, if_pos other]

/-- A place the reader regains through bytes without marks it comes to by searching. -/
theorem Regains.lands {bytes : List UInt8} {distance : Nat}
    (regains : Regains src archid bytes distance) (noMark : NoMark archid bytes distance)
    (room : distance + 8 ≤ bytes.length) : Lands bytes distance := by
  induction regains with
  | here bytes => exact .here bytes
  | @search byte bytes distance noMagic onward ih =>
    refine .search noMagic (ih ?_ ?_)
    · rw [Nat.add_comm] at noMark
      exact noMark.drop
    · rw [List.length_cons] at room
      omega
  | @record magic bytes size distance atMagic far onward ih =>
    by_cases ahead : 0 < size + distance
    · have eight : advance src archid magic bytes = some 8 :=
        advance_of_noMark atMagic noMark ahead (by omega)
      rw [far] at eight
      cases Option.some.inj eight
      refine .falseMagic atMagic (ih noMark.drop ?_)
      rw [List.length_drop]
      omega
    · obtain ⟨rfl, rfl⟩ : size = 0 ∧ distance = 0 := by omega
      exact .here bytes

/-- Searching through bytes without marks adds nothing to the queue. -/
theorem Lands.reads {bytes : List UInt8} {distance : Nat} (lands : Lands bytes distance)
    (noMark : NoMark archid bytes distance) (room : distance + 8 ≤ bytes.length)
    (single : ai.Single src archid) (here : ai.ahead = bytes) {found : List Enqueued}
    (tail : Reads src (ai.skip distance) found) : Reads src ai found := by
  induction lands generalizing ai with
  | here bytes => exact tail
  | @search byte bytes distance noMagic onward ih =>
    have next : (ai.skip 1).ahead = bytes := by
      rw [ArchReader.ahead_skip_eq, here, List.drop_succ_cons, List.drop_zero]
    rw [Nat.add_comm] at noMark tail
    rw [← ArchReader.skip_skip] at tail
    rw [List.length_cons] at room
    have reads := ih noMark.drop (by omega) (single.skip 1) next tail
    exact reads.of_same (readNext_search here noMagic)
  | @falseMagic magic bytes distance atMagic onward ih =>
    subst here
    have far : advance src archid magic ai.ahead = some 8 :=
      advance_of_noMark atMagic noMark (by omega) (by omega)
    have step := readNext_of_magic single atMagic
    rw [far] at step
    obtain ⟨_, item, taken, marks⟩ := step
    have nothing : item = none := by
      cases item with
      | none => rfl
      | some entry =>
        obtain ⟨_, other, _, mark⟩ := marks entry rfl
        exact absurd mark (noMark 0 (by omega) other)
    rw [← ArchReader.skip_skip] at tail
    have behind : (ai.skip 8).ahead.length = ai.ahead.length - 8 := by
      rw [ArchReader.ahead_skip_eq, List.length_drop]
    have reads := ih noMark.drop (by rw [List.length_drop]; omega) (single.skip 8)
      (ArchReader.ahead_skip_eq ai 8) tail
    rw [nothing] at taken
    exact .next taken reads

/-! ## The damaged block -/

/-- The header of the record of a block. -/
def blockHeaderBytes (archid : UInt32) (blkinfo : BlockInfo) : List UInt8 :=
  headerBytes .blkh archid blkinfo.blkfsid (blockDico blkinfo)

/-- What the reader adds to the queue for a block with a wrong checksum. -/
def BlockInfo.zeroed (blkinfo : BlockInfo) : Input :=
  .ready { blkinfo with
    blkdata := List.replicate blkinfo.blkrealsize.toNat 0
    blkfsid := 0 }

/-- The reading up to the data of the damaged block, and the one behind it. -/
theorem Source.Holds.block_reading {blkinfo : BlockInfo} {data : List UInt8}
    (holds : src.Holds archid main front (blockHeaderBytes archid blkinfo ++ data) back)
    (storable : (QueueData.block blkinfo).Storable)
    (same : data.length = blkinfo.blkdata.length)
    (damaged : fletcher32 data ≠ fletcher32 blkinfo.blkdata) :
    ∃ ai : ArchReader, ai.Single src archid ∧
      ai.pos = recordStart archid main front + (blockHeaderBytes archid blkinfo).length ∧
      ai.ahead = fromRecord archid data back ∧
      (∀ rest, src.Reads (place archid 0 74 (.header main :: front) ++
        ⟨0, recordStart archid main front, blkinfo.zeroed⟩ :: rest) ↔
          FsArchiver.Reads src ai rest) ∧
      FsArchiver.Reads src (ai.skip data.length) (place archid 0 (recordStart archid main front +
        ((blockHeaderBytes archid blkinfo).length + data.length)) back) := by
  obtain ⟨ai, single, vol, pos, here, whole, behind⟩ := holds.reading
  obtain ⟨stored, filesystem⟩ := storable
  rw [stored.sum.symm] at damaged
  rw [fromRecord] at here
  obtain ⟨read, atData⟩ := readBlockHeader src.mem single.version single.id here
  have needed : ¬src.fsbitmap blkinfo.blkfsid = 0 := by
    rw [holds.selects _ filesystem]
    decide
  have block := archreaderReadBlock_of_damaged src.mem stored atData same damaged
  have step : readNext src ai =
      .next (some ⟨0, recordStart archid main front, blkinfo.zeroed⟩)
        (ai.skip (blockHeaderBytes archid blkinfo).length) := by
    rw [readNext, read]
    simp [readBlock, needed, block, vol, pos, blockHeaderBytes, BlockInfo.zeroed]
  refine ⟨ai.skip (blockHeaderBytes archid blkinfo).length, single.skip _, ?_, atData, ?_, ?_⟩
  · rw [ArchReader.skip_pos, pos]
  · intro rest
    constructor
    · intro reads
      obtain ⟨tail, fromRecord, split⟩ := (whole _).mp reads
      obtain rfl := List.append_cancel_left split
      obtain ⟨others, onward⟩ := Reads.total (single.skip (blockHeaderBytes archid blkinfo).length)
      have both := fromRecord.unique (.next step onward)
      rw [(List.cons.inj both).2]
      exact onward
    · intro reads
      exact (whole _).mpr ⟨_, .next step reads, rfl⟩
  · rw [ArchReader.skip_skip, ← List.length_append]
    exact behind

/-- Between the data and the end of the volume lies at least a footer. -/
theorem room_fromRecord (data : List UInt8) :
    data.length + 8 ≤ (fromRecord archid data back).length := by
  simp only [fromRecord, volfootBytes, headerBytes, List.length_append, Magic.length_bytes,
    length_leBytes]
  omega

/-- Behind the last item nothing is found any more. -/
theorem nothing_found {data : List UInt8} (noMark : NoMark archid (fromRecord archid data [])
    data.length) (single : ai.Single src archid) (here : ai.ahead = fromRecord archid data []) :
    Reads src ai [] := by
  obtain ⟨found, reads⟩ := Reads.total single
  cases found with
  | nil => exact reads
  | cons entry rest =>
    obtain ⟨distance, _, _, magic, content, marks⟩ :=
      Regains.of_found reads single List.mem_cons_self
    rw [here] at marks
    by_cases inside : distance < data.length
    · exact absurd marks (noMark distance inside magic)
    · have footer : (fromRecord archid data []).drop distance =
          (volfootBytes archid 0 true).drop (distance - data.length) := by
        rw [fromRecord, List.drop_append, List.drop_of_length_le (Nat.not_lt.mp inside)]
        rfl
      rw [footer] at marks
      exact absurd marks (no_mark_in_footer content)

/-- After a damaged block whose bytes hold no mark of a record, the reader adds a block of zeros
and then exactly the records that follow, if and only if there are none or the search through
the damaged bytes comes to the start of the next record. -/
theorem damaged_block_resync (src : Source) (archid : UInt32) (main : HeadInfo)
    (front back : List QueueData) (blkinfo : BlockInfo) (data : List UInt8)
    (storable : (QueueData.block blkinfo).Storable)
    (same : data.length = blkinfo.blkdata.length)
    (damaged : fletcher32 data ≠ fletcher32 blkinfo.blkdata)
    (holds : src.Holds archid main front (blockHeaderBytes archid blkinfo ++ data) back)
    (noMark : NoMark archid (fromRecord archid data back) data.length) :
    src.Reads (place archid 0 74 (.header main :: front) ++
        ⟨0, recordStart archid main front, blkinfo.zeroed⟩ ::
          place archid 0 (recordStart archid main front +
            (itemBytes archid (.block blkinfo)).length) back) ↔
      back = [] ∨ Lands (fromRecord archid data back) data.length := by
  have total : (itemBytes archid (.block blkinfo)).length =
      (blockHeaderBytes archid blkinfo).length + data.length := by
    rw [itemBytes, blockBytes, List.length_append, same, blockHeaderBytes]
  rw [total]
  obtain ⟨ai, single, pos, here, whole, behind⟩ := holds.block_reading storable same damaged
  rw [whole]
  constructor
  · intro reads
    cases back with
    | nil => exact .inl rfl
    | cons next back =>
      obtain ⟨distance, start, regains, _⟩ := Regains.of_found reads single List.mem_cons_self
      rw [pos, ← Nat.add_assoc] at start
      obtain rfl := Nat.add_left_cancel start
      rw [here] at regains
      exact .inr (regains.lands noMark (room_fromRecord data))
  · rintro (rfl | lands)
    · exact nothing_found noMark single here
    · exact lands.reads noMark (room_fromRecord data) single here behind

/-- A block of four zeros. -/
def smallBlock : BlockInfo :=
  { BlockInfo.zero with
    blkdata := [0, 0, 0, 0], blkrealsize := 4, blkarsize := 4, blkcompsize := 4
    blkarcsum := fletcher32 [0, 0, 0, 0] }

theorem storable_smallBlock : (QueueData.block smallBlock).Storable :=
  ⟨⟨by decide, by decide, by decide, rfl⟩, by decide⟩

/-- A small archive with these bytes in place of the data of its block. -/
def damagedData (data : List UInt8) : Source :=
  smallSource (blockHeaderBytes 1 smallBlock ++ data) [smallEnd]

/-- What is added to the queue of the small archive: its block with zeros, and what follows it. -/
def smallResync : List Enqueued :=
  place 1 0 74 [.header smallMain] ++ ⟨0, recordStart 1 smallMain [], smallBlock.zeroed⟩ ::
    place 1 0 (recordStart 1 smallMain [] + (itemBytes 1 (.block smallBlock)).length) [smallEnd]

/-- Four bytes that are no magic are searched one by one. -/
theorem damaged_block_resync_small : (damagedData [1, 2, 3, 4]).Reads smallResync := by
  have noMark : NoMark 1 (fromRecord 1 [1, 2, 3, 4] [smallEnd]) 4 := by
    rintro offset inside magic ⟨atMagic, _⟩
    interval_cases offset <;> cases atMagic
  have lands : Lands (fromRecord 1 [1, 2, 3, 4] [smallEnd]) 4 :=
    .search rfl (.search rfl (.search rfl (.search rfl (.here _))))
  exact (damaged_block_resync _ 1 smallMain [] [smallEnd] smallBlock [1, 2, 3, 4]
    storable_smallBlock rfl (by decide) (holds_smallSource _ storable_smallEnd) noMark).mpr
      (.inr lands)

/-- A magic right in front of the next record hides it. -/
theorem false_magic_hides_record :
    (damagedData Magic.objt.bytes).Holds 1 smallMain []
      (blockHeaderBytes 1 smallBlock ++ Magic.objt.bytes) [smallEnd] ∧
    fletcher32 Magic.objt.bytes ≠ fletcher32 smallBlock.blkdata ∧
    NoMark 1 (fromRecord 1 Magic.objt.bytes [smallEnd]) Magic.objt.bytes.length ∧
    ¬(damagedData Magic.objt.bytes).Reads smallResync := by
  have holds : (damagedData Magic.objt.bytes).Holds 1 smallMain []
      (blockHeaderBytes 1 smallBlock ++ Magic.objt.bytes) [smallEnd] :=
    holds_smallSource _ storable_smallEnd
  have damaged : fletcher32 Magic.objt.bytes ≠ fletcher32 smallBlock.blkdata := by decide
  refine ⟨holds, damaged, ?_, fun reads => ?_⟩
  · rintro offset inside magic ⟨atMagic, id⟩
    rw [Magic.length_bytes] at inside
    interval_cases offset
    · cases id
    all_goals cases atMagic
  · obtain ⟨ai, single, pos, here, whole, _⟩ :=
      holds.block_reading storable_smallBlock rfl damaged
    obtain ⟨distance, start, regains, _⟩ :=
      Regains.of_found ((whole _).mp reads) single List.mem_cons_self
    have four : distance = 4 := by
      rw [pos] at start
      exact Nat.add_left_cancel start.symm
    rw [here, four] at regains
    obtain ⟨size, rest, far, short, _⟩ :=
      regains.onward_of_magic (show _ = some Magic.objt from rfl) (by decide)
    have eight : advance (damagedData Magic.objt.bytes) 1 .objt
        (fromRecord 1 Magic.objt.bytes [smallEnd]) = some 8 := rfl
    rw [far] at eight
    cases eight
    omega

end FsArchiver
