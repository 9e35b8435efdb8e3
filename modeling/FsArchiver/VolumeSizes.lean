import FsArchiver.Splitting

/-!
# Sizes of volumes

`archwriter_split_check` compares the split size with the volume and the next record alone; the
footer that `archwriter_split_if_necessary` and `thread_writer_fct` write behind the last record
comes on top. A volume stays within the split size exactly if the level it is filled to never
reaches the last bytes in front of the split size, which the footer needs.
-/
namespace FsArchiver

open Lib

/-- The size of the record of an item. -/
def QueueData.recordSize (archid : UInt32) (item : QueueData) : Nat :=
  ((item.record archid).getD []).length

/-- The split check on sizes alone. -/
def splits (splitsize level size : Nat) : Prop := splitsize > 0 ∧ level + size > splitsize

instance (splitsize level size : Nat) : Decidable (splits splitsize level size) :=
  inferInstanceAs (Decidable (_ ∧ _))

/-- From this level on, records of these sizes never fill the open volume into the 50 bytes
below the split size. -/
def KeepsFooterRoom (splitsize : Nat) : Nat → List Nat → Prop
  | level, [] => level + 50 ≤ splitsize
  | level, size :: sizes =>
    level + 50 ≤ splitsize ∧
      KeepsFooterRoom splitsize (if splits splitsize level size then 74 + size else level + size)
        sizes

/-- The level at which the records start keeps room for the footer. -/
theorem KeepsFooterRoom.here {splitsize level : Nat} {sizes : List Nat}
    (keeps : KeepsFooterRoom splitsize level sizes) : level + 50 ≤ splitsize := by
  cases sizes with
  | nil => exact keeps
  | cons size sizes => exact keeps.1

theorem length_volfootBytes (archid curvol : UInt32) (lastvol : Bool) :
    (volfootBytes archid curvol lastvol).length = 50 := by
  have len : (dicoAddAll Dico.alloc (volfooterCalls curvol archid lastvol)).encode.length = 32 := by
    rw [Dico.encode, items_volfooter]
    rfl
  simp [volfootBytes, headerBytes, dicoBytes, len]

/-- What an item does to the sizes: either the open volume takes its record, or this volume is
closed with its footer and the record follows the header of the next one. -/
theorem writeItem_sizes {splitsize : Nat} {ai ai' : ArchWriter} {item : QueueData}
    (written : writeItem splitsize ai item = some ai') :
    ai'.archid = ai.archid ∧
      if splits splitsize ai.current.length (item.recordSize ai.archid) then
        ∃ volume, ai'.closed = ai.closed ++ [volume] ∧ volume.length = ai.current.length + 50 ∧
          ai'.current.length = 74 + item.recordSize ai.archid
      else ai'.closed = ai.closed ∧
        ai'.current.length = ai.current.length + item.recordSize ai.archid := by
  rw [writeItem_record] at written
  cases encoded : item.record ai.archid with
  | none => simp [encoded] at written
  | some wb =>
    have size : item.recordSize ai.archid = wb.length := by simp [QueueData.recordSize, encoded]
    have check : archwriterSplitCheck splitsize ai wb =
        decide (splits splitsize ai.current.length wb.length) := by
      simp [archwriterSplitCheck, splits]
    rw [size]
    by_cases full : splits splitsize ai.current.length wb.length
    · simp only [encoded, Option.bind_eq_bind, Option.bind_some, archwriterSplitIfNecessary, check,
        full, decide_true, ↓reduceIte, archwriterWriteVolfooter_eq, archwriterWriteVolheader_eq]
        at written
      rw [archwriterWriteBuffer_some written, if_pos full]
      refine ⟨rfl, _, rfl, ?_, ?_⟩
      · rw [List.length_append, length_volfootBytes]
      · simp only [ArchWriter.nextVolume, List.nil_append, List.length_append, length_volheadBytes]
    · simp only [encoded, Option.bind_eq_bind, Option.bind_some, archwriterSplitIfNecessary, check,
        full, decide_false, Bool.false_eq_true, ↓reduceIte] at written
      rw [archwriterWriteBuffer_some written, if_neg full]
      exact ⟨rfl, rfl, List.length_append⟩

/-- The closed volumes are within the split size, and so is the open one with a footer. -/
def ArchWriter.Within (splitsize : Nat) (ai : ArchWriter) : Prop :=
  (∀ volume ∈ ai.closed, volume.length ≤ splitsize) ∧ ai.current.length + 50 ≤ splitsize

/-- From the sizes of the records one sees whether the volumes stay within the split size. -/
theorem writeItems_within {splitsize : Nat} {items : List QueueData} {ai ai' : ArchWriter}
    (written : items.foldlM (writeItem splitsize) ai = some ai') :
    ai'.Within splitsize ↔ (∀ volume ∈ ai.closed, volume.length ≤ splitsize) ∧
      KeepsFooterRoom splitsize ai.current.length (items.map (QueueData.recordSize ai.archid)) := by
  induction items generalizing ai with
  | nil =>
    cases written
    rfl
  | cons item items ih =>
    rw [List.foldlM_cons, Option.bind_eq_bind, Option.bind_eq_some_iff] at written
    obtain ⟨next, first, rest⟩ := written
    obtain ⟨archid, sizes⟩ := writeItem_sizes first
    rw [ih rest, archid, List.map_cons, KeepsFooterRoom]
    split at sizes
    next full =>
      obtain ⟨volume, closed, length, level⟩ := sizes
      rw [closed, level, if_pos full]
      simp only [List.mem_append, List.mem_singleton, or_imp, forall_and, forall_eq, length,
        and_assoc]
    next fits =>
      obtain ⟨closed, level⟩ := sizes
      rw [closed, level, if_neg fits]
      refine and_congr_right fun _ => ⟨fun keeps => ⟨?_, keeps⟩, fun keeps => keeps.2⟩
      have above := keeps.here
      omega

/-- The writer leaves volumes for items that can be encoded. -/
theorem threadWriterFct_some (splitsize : Nat) (archid : UInt32) {items : List QueueData}
    (encodable : ∀ item ∈ items, item.Encodable) :
    ∃ volumes, threadWriterFct splitsize archid items = some volumes := by
  have atStart : ArchWriter.Holds archid [] []
      { archid, curvol := 0, closed := [], current := [] ++ volheadBytes archid 0 } :=
    ⟨rfl, rfl, rfl, by simp [itemsBytes]⟩
  obtain ⟨last, done, chunk, all, rest⟩ := writeItems_eq splitsize atStart encodable
  refine ⟨last.closed ++ [last.current ++ volfootBytes last.archid last.curvol true], ?_⟩
  simp only [threadWriterFct, archwriterWriteVolheader_eq, Option.bind_eq_bind, Option.bind_some,
    all, archwriterWriteVolfooter_eq]

/-- The volumes of the writer are within the split size exactly if its last state is. -/
theorem threadWriterFct_within {splitsize : Nat} {archid : UInt32} {items : List QueueData}
    {volumes : List (List UInt8)} (written : threadWriterFct splitsize archid items = some volumes) :
    ∃ ai last : ArchWriter, ai.archid = archid ∧ ai.closed = [] ∧ ai.current.length = 74 ∧
      items.foldlM (writeItem splitsize) ai = some last ∧
      ((∀ volume ∈ volumes, volume.length ≤ splitsize) ↔ last.Within splitsize) := by
  simp only [threadWriterFct, archwriterWriteVolheader_eq, Option.bind_eq_bind, Option.bind_some,
    Option.bind_eq_some_iff, archwriterWriteVolfooter_eq, List.nil_append] at written
  obtain ⟨last, all, closed⟩ := written
  refine ⟨_, last, rfl, rfl, length_volheadBytes .., all, ?_⟩
  rw [← Option.some.inj closed]
  simp only [ArchWriter.Within, List.mem_append, List.mem_singleton, or_imp, forall_and, forall_eq,
    List.length_append, length_volfootBytes]

/-- The volumes the writer leaves are within the split size exactly if no record fills the open
volume, which holds a volume header at first, into the last 50 bytes in front of it. -/
theorem volume_sizes_iff {splitsize : Nat} {archid : UInt32} {items : List QueueData}
    {volumes : List (List UInt8)} (written : threadWriterFct splitsize archid items = some volumes) :
    (∀ volume ∈ volumes, volume.length ≤ splitsize) ↔
      KeepsFooterRoom splitsize 74 (items.map (QueueData.recordSize archid)) := by
  obtain ⟨ai, last, id, closed, level, all, within⟩ := threadWriterFct_within written
  have levels := writeItems_within all
  rw [id, closed, level] at levels
  simpa [within] using levels

/-- Two blocks of half a mebibyte go to two volumes, which are within one mebibyte with their
footers. -/
theorem volume_sizes_iff_two_blocks : ∃ volumes,
    threadWriterFct 1048576 1 (.header smallMain :: twoBlocks) = some volumes ∧
      volumes.length = 2 ∧ ∀ volume ∈ volumes, volume.length ≤ 1048576 := by
  obtain ⟨first, second⟩ := List.forall_mem_cons.mp storable_twoBlocks
  have main : (QueueData.header smallMain).recordSize 1 = 30 := by decide
  have block (fsid : UInt16) (fits : (QueueData.block (zerosOf fsid 524288)).Encodable) :
      (QueueData.block (zerosOf fsid 524288)).recordSize 1 = 524378 := by
    rw [QueueData.recordSize, (fits.record_eq 1).1, Option.getD_some, length_zerosOf]
  have sizes : (QueueData.header smallMain :: twoBlocks).map (QueueData.recordSize 1) =
      [30, 524378, 524378] := by
    simp only [twoBlocks, List.map_cons, List.map_nil, main, block 0 first.encodable,
      block 1 (second _ List.mem_cons_self).encodable]
  refine ⟨_, written_twoBlocks, length_volumesFrom .., (volume_sizes_iff written_twoBlocks).mpr ?_⟩
  rw [sizes]
  simp [KeepsFooterRoom, splits]

/-- A block of so many bytes as it is stored without compression. -/
def plainBlock (size : Nat) : BlockInfo :=
  { BlockInfo.zero with
    blkdata := List.replicate size 0, blkarsize := UInt32.ofNat size
    blkrealsize := UInt32.ofNat size, blkcompsize := UInt32.ofNat size }

/-- The record of such a block has a header of 90 bytes. -/
theorem recordSize_plainBlock {size : Nat} (positive : 0 < size) (small : size < 4294967296)
    (archid : UInt32) : (QueueData.block (plainBlock size)).Encodable ∧
      (QueueData.block (plainBlock size)).recordSize archid = 90 + size := by
  have arsize : (UInt32.ofNat size).toNat = size := by
    rw [UInt32.toNat_ofNat', Nat.mod_eq_of_lt small]
  have encodable : (QueueData.block (plainBlock size)).Encodable := by
    refine ⟨fun zero => ?_, ?_⟩
    · have same := congrArg UInt32.toNat (show UInt32.ofNat size = 0 from zero)
      rw [arsize] at same
      exact Nat.ne_of_gt positive same
    · simp only [plainBlock, List.length_replicate, arsize]
  have dico : (blockDico (plainBlock size)).encode.length = 72 := by
    simp [Dico.encode, items_blockDico, blockCalls, length_encodeItem, DicoCall.item,
      DicoItem.make, length_sizedData, dicoAddU16, dicoAddU32, dicoAddU64]
  have data : (plainBlock size).blkdata.length = size := List.length_replicate ..
  refine ⟨encodable, ?_⟩
  rw [QueueData.recordSize, (encodable.record_eq archid).1]
  simp only [Option.getD_some, itemBytes, blockBytes, headerBytes, dicoBytes, dico, data,
    List.length_append, length_leBytes, Magic.length_bytes]

/-- A main header and two blocks that fill a volume of one mebibyte to the last byte: the split
check lets both blocks into the volume, and its footer comes on top. -/
theorem volume_too_large :
    (∀ item ∈ [.header smallMain, .block (plainBlock 524288), .block (plainBlock 524004)],
      74 + QueueData.recordSize 1 item + 50 ≤ 1048576) ∧
    ∃ volumes, threadWriterFct 1048576 1
        [.header smallMain, .block (plainBlock 524288), .block (plainBlock 524004)] =
      some volumes ∧ ¬∀ volume ∈ volumes, volume.length ≤ 1048576 := by
  obtain ⟨firstFits, first⟩ := recordSize_plainBlock (show 0 < 524288 by omega) (by omega) 1
  obtain ⟨secondFits, second⟩ := recordSize_plainBlock (show 0 < 524004 by omega) (by omega) 1
  have main : (QueueData.header smallMain).recordSize 1 = 30 := by decide
  have encodable : ∀ item ∈
      [QueueData.header smallMain, .block (plainBlock 524288), .block (plainBlock 524004)],
      item.Encodable := by
    simp only [List.mem_cons, List.not_mem_nil, or_false, forall_eq_or_imp, forall_eq]
    exact ⟨isMain_smallMain.fits, firstFits, secondFits⟩
  obtain ⟨volumes, written⟩ := threadWriterFct_some 1048576 1 encodable
  obtain ⟨ai, last, id, closed, level, all, within⟩ := threadWriterFct_within written
  refine ⟨by simp [main, first, second], volumes, written, fun small => ?_⟩
  have levels := (writeItems_within all).mp (within.mp small)
  simp [id, level, KeepsFooterRoom, splits, main, first, second] at levels

end FsArchiver
