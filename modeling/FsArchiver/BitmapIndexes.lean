import FsArchiver.ChangedByte
import FsArchiver.MagicSearch
import FsArchiver.ReaderRuns

/-!
# The bitmap of filesystems

The filesystem id of a header, which no checksum covers, is the index with which the loop of
`thread_reader_fct` reads `g_fsbitmap`. `NextRecord` says what the bytes of a volume have to hold
for a header with a certain id to be delivered next; which ids occur there decides whether the
indexes are in range.
-/
namespace FsArchiver

open Lib

/-! ## The indexes -/

/-- The index with which the loop reads `g_fsbitmap` for a header: the filesystem id, unless the
header is a volume footer or a global header that does not start a block. -/
def HeaderRead.bitmapIndex (head : HeaderRead) : Option UInt16 :=
  match head.magic with
  | .volf => none
  | .blkh => some head.fsid
  | _ => if head.fsid = filesysidNull then none else some head.fsid

/-- The index with which one iteration reads `g_fsbitmap`. -/
def bitmapIndex (src : Source) (ai : ArchReader) : Option UInt16 :=
  match archreaderReadHeader src.mem ai true with
  | .ok head _ => head.bitmapIndex
  | _ => none

/-- An iteration depends on the bitmap at this index only. -/
theorem readNext_bitmap (ai : ArchReader) {fsbitmap : UInt16 → UInt8}
    (same : ∀ fsid, bitmapIndex src ai = some fsid → fsbitmap fsid = src.fsbitmap fsid) :
    readNext { src with fsbitmap } ai = readNext src ai := by
  unfold readNext bitmapIndex at *
  simp only
  cases read : archreaderReadHeader src.mem ai true with
  | fatal => rfl
  | minor after => rfl
  | ok head after =>
    simp only [read] at same
    have other (index : head.bitmapIndex =
        if head.fsid = filesysidNull then none else some head.fsid) :
        readOther { src with fsbitmap } after head = readOther src after head := by
      unfold readOther
      by_cases global : head.fsid = filesysidNull
      · simp only [global, true_or, if_true]
      · rw [index, if_neg global] at same
        simp only [same head.fsid rfl]
    cases magic : head.magic with
    | volf => simp only [magic]; rfl
    | blkh =>
      have index : head.bitmapIndex = some head.fsid := by
        rw [HeaderRead.bitmapIndex, magic]
      simp only [magic, readBlock, same head.fsid index]
    | volh | main | fsin | fsyb | dirs | objt | filf | datf =>
      simp only [magic]
      apply other
      rw [HeaderRead.bitmapIndex, magic]

/-! ## The records in a volume -/

/-- Behind this place in the volume, where the search for a magic ends, the bytes hold a header
record with this magic and this filesystem id. -/
structure NextRecord (mem : Mem) (ai : ArchReader) (place : Nat) (magic : Magic) (fsid : UInt16) :
    Prop where
  /-- The first magic ahead is here. -/
  least : IsLeast (magicPlaces ai.file ai.pos) place
  magic : readAt ai.file place sizeofMagic = some magic.bytes
  /-- The id of the archive follows, if it is known. -/
  id : ∃ id, readAt ai.file (place + 4) 4 = some id ∧ (ai.archid ≠ 0 → leNat id = ai.archid.toNat)
  fsid : readAt ai.file (place + 8) 2 = some (leBytes 2 fsid.toNat)
  /-- The dico is complete, has the right checksum, and can be parsed. -/
  dico : ∃ body, ArchReader.DicoAhead { ai with pos := place + 10 } body ∧
    (readBack mem body).isSome

variable {src : Source} {mem : Mem} {ai : ArchReader}

/-- A dico is delivered where there is a record whose body can be parsed. -/
theorem archreaderReadDico_ok {d : Dico} :
    (∃ after, archreaderReadDico mem ai = .ok d after) ↔
      ∃ body, ai.DicoAhead body ∧ readBack mem body = some d := by
  constructor
  · rintro ⟨after, read⟩
    unfold archreaderReadDico at read
    simp only at read
    split at read
    · cases read
    next supported =>
    split at read
    · cases read
    next len atBody readLen =>
    obtain ⟨lenSize, lenHere, rfl⟩ := archreaderReadData_ahead readLen
    split at read
    · cases read
    next body atSum readBody =>
    obtain ⟨bodySize, bodyHere, rfl⟩ := archreaderReadData_ahead readBody
    split at read
    · cases read
    next sum after' readSum =>
    obtain ⟨sumSize, sumHere, rfl⟩ := archreaderReadData_ahead readSum
    split at read
    · cases read
    next matching =>
    split at read
    · cases read
    next items =>
    cases read
    have whole := lenHere
    rw [bodyHere, sumHere] at whole
    exact ⟨body, ⟨by omega, len, sum, _, lenSize, bodySize.symm, sumSize,
      Decidable.not_not.mp matching, whole⟩, items⟩
  · rintro ⟨body, ⟨version, len, sum, rest, lenSize, lenValue, sumSize, good, here⟩, items⟩
    have supported : ¬(ai.filefmtver ≠ 1 ∧ ai.filefmtver ≠ 2) := by omega
    have atBody := ArchReader.ahead_skip here
    have atSum := ArchReader.ahead_skip atBody
    have readLen := archreaderReadData_of_ahead here rfl
    have readBody := archreaderReadData_of_ahead atBody rfl
    have readSum := archreaderReadData_of_ahead atSum sumSize.symm
    have matching : ¬(fletcher32 body).toNat ≠ leNat sum := fun bad => bad good
    refine ⟨((ai.skip len.length).skip body.length).skip 4, ?_⟩
    rw [readBack] at items
    rw [archreaderReadDico]
    simp only [if_neg supported, ← lenSize, readLen, lenValue, readBody, readSum, if_neg matching,
      items]

/-- Where the search has ended, a header is delivered if the rest of its record is there. -/
theorem readHeaderAt_ok {place : Nat} {magic : Magic} {fsid : UInt16}
    (least : IsLeast (magicPlaces ai.file ai.pos) place)
    (found : readAt ai.file place sizeofMagic = some magic.bytes) :
    (∃ d after, readHeaderAt mem ai place magic = .ok ⟨place, magic, fsid, d⟩ after) ↔
      NextRecord mem ai place magic fsid := by
  unfold readHeaderAt archreaderReadData
  simp only [sizeofMagic]
  constructor
  · rintro ⟨d, after, read⟩
    cases readId : readAt ai.file (place + 4) 4 with
    | none => simp [readId] at read
    | some id =>
    simp only [readId, Option.map_some] at read
    by_cases other : ai.archid ≠ 0 ∧ leNat id ≠ ai.archid.toNat
    · simp [if_pos other] at read
    · rw [if_neg other] at read
      cases readFsid : readAt ai.file (place + 4 + 4) 2 with
      | none => simp [readFsid] at read
      | some word =>
      simp only [readFsid, Option.map_some] at read
      cases dico : archreaderReadDico mem { ai with pos := place + 4 + 4 + 2 } with
      | fatal => simp [dico] at read
      | minor after => simp [dico] at read
      | ok d' after' =>
        simp only [dico, Read.ok.injEq, HeaderRead.mk.injEq, true_and] at read
        obtain ⟨⟨same, rfl⟩, rfl⟩ := read
        obtain ⟨body, ahead, items⟩ := archreaderReadDico_ok.mp ⟨_, dico⟩
        refine ⟨least, found, ⟨id, readId, fun known => ?_⟩, ?_, body, ahead, by simp [items]⟩
        · simpa [known] using other
        · have two := (drop_of_readAt readFsid).1
          rw [show place + 8 = place + 4 + 4 from rfl, readFsid, ← same, Option.some.injEq]
          apply leNat_injective
          · rw [length_leBytes, two]
          · have bound : leNat word < 256 ^ 2 := two ▸ leNat_lt word
            rw [leNat_leBytes_of_lt (UInt16.toNat_lt _), UInt16.toNat_ofNat',
              Nat.mod_eq_of_lt (by simpa using bound)]
  · rintro ⟨-, -, ⟨id, readId, known⟩, readFsid, body, ahead, items⟩
    obtain ⟨d, parsed⟩ := Option.isSome_iff_exists.mp items
    obtain ⟨after, dico⟩ := archreaderReadDico_ok.mpr ⟨body, ahead, parsed⟩
    have own : ¬(ai.archid ≠ 0 ∧ leNat id ≠ ai.archid.toNat) := fun other =>
      other.2 (known other.1)
    have dico' : archreaderReadDico mem { ai with pos := place + 4 + 4 + 2 } = .ok d after := dico
    have readFsid' : readAt ai.file (place + 4 + 4) 2 = some (leBytes 2 fsid.toNat) := readFsid
    have number : leNat (leBytes 2 fsid.toNat) = fsid.toNat :=
      leNat_leBytes_of_lt (by simpa using UInt16.toNat_lt fsid)
    refine ⟨d, after, ?_⟩
    simp only [readId, Option.map_some, if_neg own, readFsid', dico', number, UInt16.ofNat_toNat]

/-- A header has the place and the magic that the search has ended with. -/
theorem place_of_readHeaderAt {place : Nat} {magic : Magic} {head : HeaderRead} {after : ArchReader}
    (read : readHeaderAt mem ai place magic = .ok head after) :
    head.start = place ∧ head.magic = magic := by
  unfold readHeaderAt at read
  split at read
  · cases read
  split at read
  · cases read
  split at read
  · cases read
  split at read
  · cases read
    exact ⟨rfl, rfl⟩
  · cases read
  · cases read

/-- The header that is delivered next is the one that the bytes of the volume hold. -/
theorem archreaderReadHeader_iff {magic : Magic} {fsid : UInt16} :
    (∃ place d after, archreaderReadHeader mem ai true = .ok ⟨place, magic, fsid, d⟩ after) ↔
      ∃ place, NextRecord mem ai place magic fsid := by
  rw [← readHeaderSeeking_eq]
  constructor
  · rintro ⟨place, d, after, read⟩
    have searched := magicTest_searches ai
    cases tested : magicTest ai true with
    | none =>
      rw [readHeaderSeeking, tested] at read
      cases read
    | some result =>
      rw [tested] at searched
      obtain ⟨least, isLeast, -⟩ := searched
      obtain ⟨magic', found, -, same⟩ := readHeaderSeeking_of_isLeast mem isLeast
      rw [same] at read
      obtain ⟨rfl, rfl⟩ := place_of_readHeaderAt read
      exact ⟨place, (readHeaderAt_ok isLeast found).mp ⟨d, after, read⟩⟩
  · rintro ⟨place, record⟩
    obtain ⟨d, after, read⟩ := (readHeaderAt_ok record.least record.magic).mpr record
    obtain ⟨magic', found, -, same⟩ := readHeaderSeeking_of_isLeast mem record.least
    rw [record.magic, Option.some.injEq] at found
    obtain rfl := Magic.bytes_injective found
    exact ⟨place, d, after, same.trans read⟩

/-! ## The indexes are in range -/

/-- The filesystem id is one that an archive can have, or the mark for global headers on a header
other than that of a block. Nothing is asked of a volume footer. -/
def Magic.Numbered (magic : Magic) (fsid : UInt16) : Prop :=
  match magic with
  | .volf => True
  | .blkh => fsid.toNat < maxFsPerArch
  | _ => fsid.toNat < maxFsPerArch ∨ fsid = filesysidNull

/-- The index of a header is in range exactly if its filesystem id is such a number. -/
theorem HeaderRead.bitmapIndex_within (head : HeaderRead) :
    (∀ fsid, head.bitmapIndex = some fsid → fsid.toNat < maxFsPerArch) ↔
      head.magic.Numbered head.fsid := by
  have other (index : head.bitmapIndex =
        if head.fsid = filesysidNull then none else some head.fsid) :
      (∀ fsid, head.bitmapIndex = some fsid → fsid.toNat < maxFsPerArch) ↔
        head.fsid.toNat < maxFsPerArch ∨ head.fsid = filesysidNull := by
    rw [index]
    by_cases global : head.fsid = filesysidNull
    · simp [global]
    · simp [global]
  unfold Magic.Numbered
  cases magic : head.magic with
  | volf => simp [HeaderRead.bitmapIndex, magic]
  | blkh => simp [HeaderRead.bitmapIndex, magic]
  | volh | main | fsin | fsyb | dirs | objt | filf | datf =>
    apply other
    rw [HeaderRead.bitmapIndex, magic]

/-- The index of an iteration is in range exactly if the record that comes next is numbered. -/
theorem bitmapIndex_within :
    (∀ fsid, bitmapIndex src ai = some fsid → fsid.toNat < maxFsPerArch) ↔
      ∀ place magic fsid, NextRecord src.mem ai place magic fsid → magic.Numbered fsid := by
  constructor
  · intro within place magic fsid record
    obtain ⟨start, d, after, read⟩ := archreaderReadHeader_iff.mpr ⟨place, record⟩
    apply (HeaderRead.bitmapIndex_within ⟨start, magic, fsid, d⟩).mp
    intro index same
    apply within
    rw [bitmapIndex, read]
    exact same
  · intro numbered fsid index
    unfold bitmapIndex at index
    split at index
    next head after read =>
      obtain ⟨place, record⟩ := archreaderReadHeader_iff.mp ⟨_, _, _, read⟩
      exact head.bitmapIndex_within.mpr (numbered place head.magic head.fsid record) fsid index
    · cases index

/-- The reader stands in the volume of its number all the time. -/
theorem volume_of_run {first : Enqueued} {trace : List (Option Enqueued × ArchReader)}
    (started : readStart src = some (first, ai)) (run : Trace (ReaderStep src) ai trace) :
    ∀ at' ∈ Trace.states ai trace, src.volume at'.curvol = some at'.file := by
  refine Trace.invariant_of_step (fun before item after serves step => ?_) run ?_
  · obtain ⟨-, ⟨-, served, curvol⟩ | ⟨-, size, -, rfl⟩⟩ := step.cases
    · rw [curvol, served]
    · exact serves
  · obtain ⟨served, curvol⟩ := readStart_served started
    rw [curvol, served]

/-- In every run of the reader, all indexes into the bitmap are in range exactly if every record
that comes next in the volume where the reader stands has a filesystem id in range, or is a global
header that does not start a block. -/
theorem bitmap_within_iff (src : Source) :
    ∀ first ai trace, readStart src = some (first, ai) → Trace (ReaderStep src) ai trace →
      ((∀ at' ∈ Trace.states ai trace, ∀ fsid, bitmapIndex src at' = some fsid →
          fsid.toNat < maxFsPerArch) ↔
        ∀ at' ∈ Trace.states ai trace, ∀ file, src.volume at'.curvol = some file →
          ∀ place magic fsid, NextRecord src.mem { at' with file } place magic fsid →
            magic.Numbered fsid) := by
  intro first ai trace started run
  have serves := volume_of_run started run
  constructor
  · intro within at' member file served place magic fsid record
    rw [serves at' member, Option.some.injEq] at served
    subst served
    exact bitmapIndex_within.mp (within at' member) place magic fsid record
  · intro numbered at' member
    exact bitmapIndex_within.mpr (numbered at' member at'.file (serves at' member))

/-- An archive with a block header that has the mark for global headers. -/
def globalBlockSource : Source where
  volume _ := some (volheadBytes 1 0 ++ (itemBytes 1 (.header smallMain) ++
    headerBytes .blkh 1 filesysidNull (blockDico BlockInfo.zero)))
  fsbitmap _ := 1
  mem := ⟨fun _ => 0, fun _ => 0⟩

/-- The header of this block is read with an index out of range. -/
theorem bitmap_outside_global_block : ∃ first ai,
    readStart globalBlockSource = some (first, ai) ∧
      bitmapIndex globalBlockSource ai = some filesysidNull ∧
      ¬filesysidNull.toNat < maxFsPerArch := by
  obtain ⟨ai, started, knows, version, -, -, here⟩ :=
    readStart_volume isMain_smallMain (show globalBlockSource.volume 0 = some _ from rfl)
  rw [← List.append_nil (headerBytes ..)] at here
  have read : archreaderReadHeader globalBlockSource.mem ai true =
      .ok ⟨ai.pos, .blkh, filesysidNull, blockDico BlockInfo.zero⟩ _ :=
    archreaderReadHeader_of_ahead globalBlockSource.mem true version (.inr knows.id)
      (fits_blockDico BlockInfo.zero) here
  refine ⟨_, ai, started, ?_, by decide⟩
  rw [bitmapIndex, read]
  rfl

/-- A volume with a data footer of the first filesystem. -/
def oneFooterSource : Source where
  volume _ := some (volumeBytes 1 0 [.header smallMain, .header ⟨.datf, 0, Dico.alloc⟩] true)
  fsbitmap _ := 1
  mem := ⟨fun _ => 0, fun _ => 0⟩

/-- The loop reads this footer and comes to the volume footer, and the only index is that of the
filesystem. -/
theorem bitmap_within_one_footer : ∃ first ai ai', readStart oneFooterSource = some (first, ai) ∧
    Trace (ReaderStep oneFooterSource) ai [(some ⟨0, 104, .header ⟨.datf, 0, Dico.alloc⟩⟩, ai')] ∧
      bitmapIndex oneFooterSource ai = some 0 ∧
      ∀ at' ∈ [ai, ai'], ∀ fsid, bitmapIndex oneFooterSource at' = some fsid →
        fsid.toNat < maxFsPerArch := by
  have served : oneFooterSource.volume 0 = some (volheadBytes 1 0 ++
      (itemBytes 1 (.header smallMain) ++ (itemBytes 1 (.header ⟨.datf, 0, Dico.alloc⟩) ++
        volfootBytes 1 0 true))) := by
    show some (volumeBytes 1 0 [.header smallMain, .header ⟨.datf, 0, Dico.alloc⟩] true) = _
    simp [volumeBytes, itemsBytes]
  obtain ⟨ai, started, knows, version, vol, pos, here⟩ := readStart_volume isMain_smallMain served
  have footer : archreaderReadHeader oneFooterSource.mem ai true =
      .ok ⟨ai.pos, .datf, 0, Dico.alloc⟩ _ :=
    archreaderReadHeader_of_ahead oneFooterSource.mem true version (.inr knows.id)
      ⟨by decide, by decide⟩ here
  have behind := ArchReader.ahead_skip here
  rw [← List.append_nil (volfootBytes ..)] at behind
  have last : archreaderReadHeader oneFooterSource.mem
      (ai.skip (itemBytes 1 (.header ⟨.datf, 0, Dico.alloc⟩)).length) true =
        .ok ⟨_, .volf, filesysidNull, _⟩ _ :=
    archreaderReadHeader_of_ahead oneFooterSource.mem true version (.inr knows.id)
      (fits_volfooter 0 1 true) behind
  have step : ReaderStep oneFooterSource ai (some ⟨0, 104, .header ⟨.datf, 0, Dico.alloc⟩⟩)
      (ai.skip (itemBytes 1 (.header ⟨.datf, 0, Dico.alloc⟩)).length) := by
    have place : 74 + (itemBytes 1 (.header smallMain)).length = 104 := by decide
    rw [ReaderStep, readNext, footer]
    simp only [readOther]
    rw [if_pos (.inr rfl), ArchReader.skip_curvol, vol, pos, place]
    rfl
  refine ⟨_, ai, _, started, .cons step (.nil _), by rw [bitmapIndex, footer]; rfl, ?_⟩
  apply (bitmap_within_iff oneFooterSource _ ai _ started (.cons step (.nil _))).mpr
  intro at' member file served' place magic fsid record
  rw [volume_of_run started (.cons step (.nil _)) at' member, Option.some.injEq] at served'
  subst served'
  obtain ⟨start, d, after, read⟩ := archreaderReadHeader_iff.mpr ⟨place, record⟩
  rcases List.mem_cons.mp member with rfl | second
  · rw [footer] at read
    cases read
    exact .inl (by decide)
  · obtain rfl := List.mem_singleton.mp second
    rw [last] at read
    cases read
    trivial

end FsArchiver
