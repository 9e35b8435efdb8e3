import FsArchiver.Volumes

/-!
# Regaining the stream

What the reader does with bytes that are not, or not any more, the records that were written.
`advance` says how far one magic takes the reader, from the bytes at that magic alone, and
`Regains` says that from the first of some bytes the reader comes to the place a given number
of bytes further on, byte by byte where there is no magic. A reader that regains the start of
a record reads everything from there on, and one that does not passes the record over.
-/
namespace FsArchiver

open Lib

/-! ## How far one magic takes the reader -/

/-- The header record at a magic. -/
inductive HeaderAt where
  /-- The volume ends inside the record, or a key comes twice in the dico. -/
  | fatal
  /-- The archive id or the checksum does not match; so many bytes are used up. -/
  | minor (size : Nat)
  /-- A valid record of this size. -/
  | ok (size : Nat) (fsid : UInt16) (d : Dico)

/-- The header record whose magic these bytes start with. -/
def headerAt (mem : Mem) (archid : UInt32) (bytes : List UInt8) : HeaderAt :=
  let len := leNat ((bytes.drop 10).take 4)
  let body := (bytes.drop 14).take len
  if bytes.length < 8 then .fatal
  else if leNat ((bytes.drop 4).take 4) ≠ archid.toNat then .minor 8
  else if bytes.length < 18 + len then .fatal
  else if (fletcher32 body).toNat ≠ leNat ((bytes.drop (14 + len)).take 4) then .minor (18 + len)
  else
    match readItems mem body (leNat (heapBytes mem body 0 2)) 2 Dico.alloc with
    | none => .fatal
    | some d => .ok (18 + len) (UInt16.ofNat (leNat ((bytes.drop 8).take 2))) d

/-- The bytes behind a valid header that belong to it: the data of a block header, unless its
checksum is wrong. A volume footer, and a block header that is not usable, end the reading. -/
def dataSize (src : Source) (magic : Magic) (fsid : UInt16) (d : Dico) (behind : List UInt8) :
    Option Nat :=
  match magic with
  | .volf => none
  | .blkh =>
    match readBlockHead src.mem d with
    | none => none
    | some head =>
      if src.fsbitmap fsid = 0 then some head.finalsize.toNat
      else if behind.length < head.finalsize.toNat then none
      else if fletcher32 (behind.take head.finalsize.toNat) = head.arblockcsumorig then
        some head.finalsize.toNat
      else some 0
  | _ => some 0

/-- How far the reader goes from the magic these bytes start with. -/
def advance (src : Source) (archid : UInt32) (magic : Magic) (bytes : List UInt8) : Option Nat :=
  match headerAt src.mem archid bytes with
  | .fatal => none
  | .minor size => some size
  | .ok size fsid d => (dataSize src magic fsid d (bytes.drop size)).map (size + ·)

/-- The reader comes from the first of these bytes to the place so many bytes further on. -/
inductive Regains (src : Source) (archid : UInt32) : List UInt8 → Nat → Prop
  | here (bytes : List UInt8) : Regains src archid bytes 0
  | search {byte : UInt8} {bytes : List UInt8} {distance : Nat}
      (noMagic : Magic.ofBytes ((byte :: bytes).take sizeofMagic) = none)
      (onward : Regains src archid bytes distance) :
      Regains src archid (byte :: bytes) (distance + 1)
  | record {magic : Magic} {bytes : List UInt8} {size distance : Nat}
      (atMagic : Magic.ofBytes (bytes.take sizeofMagic) = some magic)
      (far : advance src archid magic bytes = some size)
      (onward : Regains src archid (bytes.drop size) distance) :
      Regains src archid bytes (size + distance)

/-! ## The reader does what these definitions say -/

/-- A reader in the only volume of an archive. -/
structure ArchReader.Single (src : Source) (archid : UInt32) (ai : ArchReader) : Prop where
  /-- The archive id is known. -/
  id : ai.archid = archid
  /-- It is not the mark for an unknown id. -/
  nonzero : archid ≠ 0
  /-- The current version of the format. -/
  version : ai.filefmtver = 2
  /-- There is no further volume. -/
  alone : src.volume (ai.curvol + 1) = none

variable {src : Source} {archid : UInt32} {ai : ArchReader}

/-- A reader stays in its volume. -/
theorem ArchReader.Single.skip (single : ai.Single src archid) (size : Nat) :
    (ai.skip size).Single src archid :=
  ⟨single.id, single.nonzero, single.version, single.alone⟩

theorem ArchReader.ahead_skip_eq (ai : ArchReader) (size : Nat) :
    (ai.skip size).ahead = ai.ahead.drop size := by
  simp only [ArchReader.ahead, skip_file, skip_pos, List.drop_drop]

/-- A read delivers the bytes ahead if there are enough. -/
theorem archreaderReadData_some {ai : ArchReader} {size : Nat} (room : size ≤ ai.ahead.length) :
    archreaderReadData ai size = some (ai.ahead.take size, ai.skip size) := by
  rw [archreaderReadData, readAt, ← ArchReader.ahead, if_pos room]
  rfl

/-- A read fails if there are not enough bytes ahead. -/
theorem archreaderReadData_none {ai : ArchReader} {size : Nat} (short : ai.ahead.length < size) :
    archreaderReadData ai size = none := by
  rw [archreaderReadData, readAt, ← ArchReader.ahead, if_neg (by omega)]
  rfl

/-- Reading a dico, from the bytes ahead. -/
theorem archreaderReadDico_eq (mem : Mem) (version : ai.filefmtver = 2) {len : Nat}
    (lenValue : leNat (ai.ahead.take 4) = len) :
    archreaderReadDico mem ai =
      if ai.ahead.length < 8 + len then .fatal
      else if (fletcher32 ((ai.ahead.drop 4).take len)).toNat ≠
          leNat ((ai.ahead.drop (4 + len)).take 4) then
        .minor (ai.skip (8 + len))
      else
        match readItems mem ((ai.ahead.drop 4).take len)
          (leNat (heapBytes mem ((ai.ahead.drop 4).take len) 0 2)) 2 Dico.alloc with
        | none => .fatal
        | some d => .ok d (ai.skip (8 + len)) := by
  have supported : ¬(ai.filefmtver ≠ 1 ∧ ai.filefmtver ≠ 2) := by simp [version]
  have size : (if ai.filefmtver = 1 then 2 else 4) = 4 := by simp [version]
  have behindLen : (ai.skip 4).ahead.length = ai.ahead.length - 4 := by
    rw [ArchReader.ahead_skip_eq, List.length_drop]
  have behindBody : (ai.skip (4 + len)).ahead.length = ai.ahead.length - (4 + len) := by
    rw [ArchReader.ahead_skip_eq, List.length_drop]
  simp only [archreaderReadDico, if_neg supported, size]
  by_cases lenRoom : 4 ≤ ai.ahead.length
  · simp only [archreaderReadData_some lenRoom, lenValue]
    by_cases bodyRoom : len ≤ (ai.skip 4).ahead.length
    · simp only [archreaderReadData_some bodyRoom, ArchReader.skip_skip]
      by_cases sumRoom : 4 ≤ (ai.skip (4 + len)).ahead.length
      · have whole : ¬ai.ahead.length < 8 + len := by omega
        have total : 4 + len + 4 = 8 + len := by omega
        simp only [archreaderReadData_some sumRoom, if_neg whole, ArchReader.skip_skip,
          ArchReader.ahead_skip_eq]
        exact total ▸ rfl
      · have short : ai.ahead.length < 8 + len := by omega
        simp only [archreaderReadData_none (Nat.lt_of_not_le sumRoom), if_pos short]
    · have short : ai.ahead.length < 8 + len := by omega
      simp only [archreaderReadData_none (Nat.lt_of_not_le bodyRoom), if_pos short]
  · have short : ai.ahead.length < 8 + len := by omega
    simp only [archreaderReadData_none (Nat.lt_of_not_le lenRoom), if_pos short]

/-- A valid magic is four bytes long. -/
theorem four_le_of_magic {bytes : List UInt8} {magic : Magic}
    (atMagic : Magic.ofBytes (bytes.take sizeofMagic) = some magic) : 4 ≤ bytes.length := by
  have same := congrArg List.length (Magic.bytes_of_ofBytes atMagic)
  rw [Magic.length_bytes, List.length_take] at same
  simp only [sizeofMagic] at same
  omega

/-- A magic ahead is found at once. -/
theorem findMagic_of_magic {bytes : List UInt8} {magic : Magic}
    (atMagic : Magic.ofBytes (bytes.take sizeofMagic) = some magic) :
    findMagic bytes = some (0, magic) := by
  cases bytes with
  | nil => cases atMagic
  | cons byte rest => rw [findMagic, atMagic]

/-- Reading behind a magic, from the bytes ahead. -/
theorem readHeaderAt_eq (mem : Mem) (known : ai.archid = archid) (nonzero : archid ≠ 0)
    (version : ai.filefmtver = 2) (four : 4 ≤ ai.ahead.length) (magic : Magic) :
    readHeaderAt mem ai ai.pos magic =
      match headerAt mem archid ai.ahead with
      | .fatal => .fatal
      | .minor size => .minor (ai.skip size)
      | .ok size fsid d => .ok ⟨ai.pos, magic, fsid, d⟩ (ai.skip size) := by
  have behindMagic : (ai.skip 4).ahead.length = ai.ahead.length - 4 := by
    rw [ArchReader.ahead_skip_eq, List.length_drop]
  have behindId : (ai.skip 8).ahead.length = ai.ahead.length - 8 := by
    rw [ArchReader.ahead_skip_eq, List.length_drop]
  have behindFsid : (ai.skip 10).ahead = ai.ahead.drop 10 := ArchReader.ahead_skip_eq ai 10
  rw [readHeaderAt, show ({ ai with pos := ai.pos + sizeofMagic } : ArchReader) = ai.skip 4
    from rfl]
  by_cases idRoom : 4 ≤ (ai.skip 4).ahead.length
  · have eight : ¬ai.ahead.length < 8 := by omega
    simp only [archreaderReadData_some idRoom, ArchReader.skip_skip, ArchReader.skip_archid,
      ArchReader.ahead_skip_eq ai 4, known, headerAt, if_neg eight, Nat.reduceAdd]
    by_cases other : leNat ((ai.ahead.drop 4).take 4) = archid.toNat
    · have matching : ¬(archid ≠ 0 ∧ leNat ((ai.ahead.drop 4).take 4) ≠ archid.toNat) :=
        fun mismatch => mismatch.2 other
      have same : ¬leNat ((ai.ahead.drop 4).take 4) ≠ archid.toNat := fun mismatch =>
        mismatch other
      simp only [if_neg matching, if_neg same]
      generalize lenValue : leNat ((ai.ahead.drop 10).take 4) = len
      by_cases fsidRoom : 2 ≤ (ai.skip 8).ahead.length
      · have dico := @archreaderReadDico_eq (ai.skip 10) mem version len (behindFsid ▸ lenValue)
        simp only [behindFsid, List.length_drop, List.drop_drop, ArchReader.skip_skip,
          show 10 + (8 + len) = 18 + len by omega, show 10 + (4 + len) = 14 + len by omega,
          Nat.reduceAdd] at dico
        simp only [archreaderReadData_some fsidRoom, ArchReader.skip_skip, Nat.reduceAdd, dico,
          ArchReader.ahead_skip_eq ai 8]
        by_cases whole : ai.ahead.length < 18 + len
        · have short : ai.ahead.length - 10 < 8 + len := by omega
          simp only [if_pos whole, if_pos short]
        · have room : ¬ai.ahead.length - 10 < 8 + len := by omega
          simp only [if_neg whole, if_neg room]
          by_cases sum : (fletcher32 ((ai.ahead.drop 14).take len)).toNat ≠
              leNat ((ai.ahead.drop (14 + len)).take 4)
          · simp only [if_pos sum]
          · simp only [if_neg sum]
            cases readItems mem ((ai.ahead.drop 14).take len)
              (leNat (heapBytes mem ((ai.ahead.drop 14).take len) 0 2)) 2 Dico.alloc with
            | none => rfl
            | some d => rfl
      · have short : ai.ahead.length < 18 + len := by omega
        simp only [archreaderReadData_none (Nat.lt_of_not_le fsidRoom), if_pos short]
    · simp only [ne_eq, other, not_false_eq_true, nonzero, and_self, if_true]
  · have short : ai.ahead.length < 8 := by omega
    simp only [archreaderReadData_none (Nat.lt_of_not_le idRoom), headerAt, if_pos short]

/-- Reading a header at a magic. -/
theorem archreaderReadHeader_of_magic (single : ai.Single src archid) {magic : Magic}
    (atMagic : Magic.ofBytes (ai.ahead.take sizeofMagic) = some magic) :
    archreaderReadHeader src.mem ai true =
      match headerAt src.mem archid ai.ahead with
      | .fatal => .fatal
      | .minor size => .minor (ai.skip size)
      | .ok size fsid d => .ok ⟨ai.pos, magic, fsid, d⟩ (ai.skip size) := by
  have found : findMagic (ai.file.drop ai.pos) = some (0, magic) := findMagic_of_magic atMagic
  have sought : archreaderReadHeader src.mem ai true = readHeaderAt src.mem ai ai.pos magic := by
    simp [archreaderReadHeader, found]
  rw [sought]
  exact readHeaderAt_eq src.mem single.id single.nonzero single.version (four_le_of_magic atMagic)
    magic

/-- A valid magic followed by the archive id. -/
structure MarksRecord (archid : UInt32) (magic : Magic) (bytes : List UInt8) : Prop where
  /-- The magic. -/
  magic : Magic.ofBytes (bytes.take sizeofMagic) = some magic
  /-- The archive id. -/
  id : (bytes.drop 4).take 4 = leBytes 4 archid.toNat

/-- The archive id is compared as a number. -/
theorem id_eq_iff {bytes : List UInt8} (room : ¬bytes.length < 8) :
    leNat ((bytes.drop 4).take 4) = archid.toNat ↔
      (bytes.drop 4).take 4 = leBytes 4 archid.toNat := by
  constructor
  · intro same
    apply leNat_injective
    · rw [List.length_take, List.length_drop, length_leBytes]
      omega
    · rw [same, leNat_leBytes_uint32]
  · intro same
    rw [same, leNat_leBytes_uint32]

/-- A header record is at least eight bytes long, magic and archive id, and a valid one has the
right archive id. -/
theorem headerAt_size {mem : Mem} {bytes : List UInt8} :
    match headerAt mem archid bytes with
    | .fatal => True
    | .minor size => 8 ≤ size
    | .ok size _ _ => 8 ≤ size ∧ (bytes.drop 4).take 4 = leBytes 4 archid.toNat := by
  unfold headerAt
  by_cases short : bytes.length < 8
  · simp only [if_pos short]
  · by_cases other : leNat ((bytes.drop 4).take 4) ≠ archid.toNat
    · simp only [if_neg short, if_pos other, Nat.le_refl]
    · have id := (id_eq_iff short).mp (Decidable.not_not.mp other)
      simp only [if_neg short, if_neg other]
      generalize leNat ((bytes.drop 10).take 4) = len
      by_cases cut : bytes.length < 18 + len
      · simp only [if_pos cut]
      · by_cases sum : (fletcher32 ((bytes.drop 14).take len)).toNat ≠
            leNat ((bytes.drop (14 + len)).take 4)
        · simp only [if_neg cut, if_pos sum]
          omega
        · simp only [if_neg cut, if_neg sum]
          cases readItems mem ((bytes.drop 14).take len)
            (leNat (heapBytes mem ((bytes.drop 14).take len) 0 2)) 2 Dico.alloc with
          | none => trivial
          | some d =>
            have wide : 8 ≤ 18 + len := by omega
            exact ⟨wide, id⟩

/-- Without a further volume, a volume footer ends the reading. -/
theorem readVolfooter_alone (single : ai.Single src archid) (d : Dico) :
    readVolfooter src ai d = .stop := by
  unfold readVolfooter
  cases dicoGetU32 src.mem d 0 VolumeKey.footLastvol with
  | none => rfl
  | some endofarchive =>
    by_cases last : endofarchive = 1
    · simp only [if_pos last]
    · simp only [if_neg last, single.alone, Option.bind_none]

/-- A header of the contents is behind the reader once it is read. -/
theorem readOther_eq (src : Source) (ai : ArchReader) (head : HeaderRead) :
    ∃ item, readOther src ai head = .next item ai ∧ ∀ found ∈ item, found.start = head.start := by
  unfold readOther
  by_cases needed : head.fsid = filesysidNull ∨ src.fsbitmap head.fsid = 1
  · rw [if_pos needed]
    refine ⟨_, rfl, fun found member => ?_⟩
    rw [Option.mem_some_iff.mp member.symm]
  · rw [if_neg needed]
    exact ⟨none, rfl, fun found member => nomatch member⟩

/-- A block with a wrong checksum leaves the reader in front of the data, any other block
behind it. -/
theorem readBlock_eq (src : Source) (ai : ArchReader) (head : HeaderRead) :
    match dataSize src .blkh head.fsid head.dico ai.ahead with
    | none => readBlock src ai head = .stop
    | some size => ∃ item, readBlock src ai head = .next item (ai.skip size) ∧
        ∀ found ∈ item, found.start = head.start := by
  unfold dataSize readBlock archreaderReadBlock
  cases usable : readBlockHead src.mem head.dico with
  | none => rfl
  | some block =>
    by_cases skipped : src.fsbitmap head.fsid = 0
    · simp only [if_pos skipped]
      refine ⟨none, ?_, fun found member => nomatch member⟩
      simp [skipped, ArchReader.skip]
    · by_cases cut : ai.ahead.length < block.finalsize.toNat
      · simp [skipped, cut, archreaderReadData_none cut]
      · have room : block.finalsize.toNat ≤ ai.ahead.length := Nat.le_of_not_lt cut
        by_cases sum : fletcher32 (ai.ahead.take block.finalsize.toNat) = block.arblockcsumorig
        · simp [skipped, cut, archreaderReadData_some room, sum]
        · simp [skipped, cut, archreaderReadData_some room, sum]

/-- At a magic the reader stops, or it goes on as far as `advance` says. An item it adds to the
queue is the record here. -/
theorem readNext_of_magic (single : ai.Single src archid) {magic : Magic}
    (atMagic : Magic.ofBytes (ai.ahead.take sizeofMagic) = some magic) :
    match advance src archid magic ai.ahead with
    | none => readNext src ai = .stop
    | some size => 8 ≤ size ∧ ∃ item, readNext src ai = .next item (ai.skip size) ∧
        ∀ found ∈ item, found.start = ai.pos ∧
          ∃ magic, magic ≠ .volf ∧ MarksRecord archid magic ai.ahead := by
  have read := archreaderReadHeader_of_magic single atMagic
  have shape := @headerAt_size archid src.mem ai.ahead
  unfold advance readNext
  rw [read]
  cases record : headerAt src.mem archid ai.ahead with
  | fatal => rfl
  | minor size =>
    rw [record] at shape
    exact ⟨shape, none, rfl, fun found member => nomatch member⟩
  | ok size fsid d =>
    rw [record] at shape
    obtain ⟨wide, id⟩ : 8 ≤ size ∧ _ := shape
    have behind : (ai.skip size).ahead = ai.ahead.drop size := ArchReader.ahead_skip_eq ai size
    have other (head : HeaderRead) (start : head.start = ai.pos) (content : magic ≠ .volf) :
        8 ≤ size + 0 ∧ ∃ item, readOther src (ai.skip size) head =
          .next item (ai.skip (size + 0)) ∧ ∀ found ∈ item, found.start = ai.pos ∧
            ∃ magic, magic ≠ .volf ∧ MarksRecord archid magic ai.ahead := by
      obtain ⟨item, taken, starts⟩ := readOther_eq src (ai.skip size) head
      exact ⟨wide, item, taken, fun found member =>
        ⟨(starts found member).trans start, magic, content, atMagic, id⟩⟩
    cases magic with
    | volf => exact readVolfooter_alone (single.skip size) d
    | blkh =>
      have block := readBlock_eq src (ai.skip size) ⟨ai.pos, .blkh, fsid, d⟩
      rw [behind] at block
      show match (dataSize src .blkh fsid d (ai.ahead.drop size)).map (size + ·) with
        | none => readBlock src (ai.skip size) ⟨ai.pos, .blkh, fsid, d⟩ = .stop
        | some total => 8 ≤ total ∧ ∃ item, readBlock src (ai.skip size) ⟨ai.pos, .blkh, fsid, d⟩ =
            .next item (ai.skip total) ∧ ∀ found ∈ item, found.start = ai.pos ∧
              ∃ magic, magic ≠ .volf ∧ MarksRecord archid magic ai.ahead
      cases usable : dataSize src .blkh fsid d (ai.ahead.drop size) with
      | none => rwa [usable] at block
      | some more =>
        rw [usable] at block
        obtain ⟨item, taken, starts⟩ := block
        rw [ArchReader.skip_skip] at taken
        exact ⟨Nat.le_add_right_of_le wide, item, taken, fun found member =>
          ⟨starts found member, .blkh, by decide, atMagic, id⟩⟩
    | volh | main | fsin | fsyb | dirs | objt | filf | datf => exact other _ rfl (by decide)

/-! ## Readings from a place where records are lost -/

/-- The search ends at a valid magic. -/
theorem magic_of_findMagic {bytes : List UInt8} {offset : Nat} {magic : Magic}
    (found : findMagic bytes = some (offset, magic)) :
    Magic.ofBytes ((bytes.drop offset).take sizeofMagic) = some magic := by
  induction bytes generalizing offset with
  | nil => cases found
  | cons byte rest ih =>
    rw [findMagic] at found
    cases front : Magic.ofBytes ((byte :: rest).take sizeofMagic) with
    | some here =>
      rw [front] at found
      cases found
      exact front
    | none =>
      simp only [front, Option.map_eq_some_iff, Prod.mk.injEq] at found
      obtain ⟨⟨before, there⟩, sought, rfl, rfl⟩ := found
      exact ih sought

/-- The search passes no valid magic on its way. -/
theorem Regains.of_findMagic {bytes : List UInt8} {offset distance : Nat} {magic : Magic}
    (found : findMagic bytes = some (offset, magic))
    (onward : Regains src archid (bytes.drop offset) distance) :
    Regains src archid bytes (offset + distance) := by
  induction bytes generalizing offset with
  | nil => cases found
  | cons byte rest ih =>
    rw [findMagic] at found
    cases front : Magic.ofBytes ((byte :: rest).take sizeofMagic) with
    | some here =>
      rw [front] at found
      cases found
      rwa [Nat.zero_add]
    | none =>
      simp only [front, Option.map_eq_some_iff, Prod.mk.injEq] at found
      obtain ⟨⟨before, there⟩, sought, rfl, rfl⟩ := found
      have shift : before + 1 + distance = before + distance + 1 := by omega
      rw [shift]
      exact .search front (ih sought onward)

/-- A header is read at the next magic. -/
theorem archreaderReadHeader_eq (mem : Mem) (ai : ArchReader) :
    archreaderReadHeader mem ai true =
      match findMagic ai.ahead with
      | none => .fatal
      | some (offset, magic) => readHeaderAt mem ai (ai.pos + offset) magic := by
  unfold archreaderReadHeader ArchReader.ahead
  cases findMagic (ai.file.drop ai.pos) with
  | none => rfl
  | some found => simp

/-- The reader reads from the next magic on. -/
theorem readNext_seek {offset : Nat} {magic : Magic}
    (found : findMagic ai.ahead = some (offset, magic)) :
    readNext src ai = readNext src (ai.skip offset) := by
  have here : findMagic (ai.skip offset).ahead = some (0, magic) := by
    rw [ArchReader.ahead_skip_eq]
    exact findMagic_of_magic (magic_of_findMagic found)
  have same : archreaderReadHeader src.mem ai true =
      archreaderReadHeader src.mem (ai.skip offset) true := by
    rw [archreaderReadHeader_eq, archreaderReadHeader_eq, found, here]
    rfl
  rw [readNext, readNext, same]

/-- Where no magic is ahead, the reader might as well be a byte further on. -/
theorem readNext_search {byte : UInt8} {bytes : List UInt8} (here : ai.ahead = byte :: bytes)
    (noMagic : Magic.ofBytes ((byte :: bytes).take sizeofMagic) = none) :
    readNext src ai = readNext src (ai.skip 1) := by
  have next : (ai.skip 1).ahead = bytes := by
    rw [ArchReader.ahead_skip_eq, here, List.drop_succ_cons, List.drop_zero]
  have onward : findMagic ai.ahead = (findMagic bytes).map fun found => (found.1 + 1, found.2) := by
    rw [here, findMagic, noMagic]
  cases sought : findMagic bytes with
  | none =>
    rw [sought, Option.map_none] at onward
    rw [← next] at sought
    rw [readNext, readNext, archreaderReadHeader_eq, archreaderReadHeader_eq, onward, sought]
  | some found =>
    obtain ⟨offset, magic⟩ := found
    rw [sought, Option.map_some] at onward
    rw [← next] at sought
    rw [readNext_seek onward, readNext_seek sought, ArchReader.skip_skip, Nat.add_comm 1]

/-- One iteration stops, or it reads a record at the next magic and goes on behind it. -/
theorem readNext_cases (single : ai.Single src archid) :
    readNext src ai = .stop ∨ ∃ offset magic size item,
      findMagic ai.ahead = some (offset, magic) ∧
      advance src archid magic (ai.ahead.drop offset) = some size ∧ 8 ≤ size ∧
      readNext src ai = .next item (ai.skip (offset + size)) ∧
      ∀ found ∈ item, found.start = ai.pos + offset ∧
        ∃ magic, magic ≠ .volf ∧ MarksRecord archid magic (ai.ahead.drop offset) := by
  cases sought : findMagic ai.ahead with
  | none =>
    left
    rw [readNext, archreaderReadHeader_eq, sought]
  | some found =>
    obtain ⟨offset, magic⟩ := found
    have atMagic := magic_of_findMagic sought
    rw [← ArchReader.ahead_skip_eq] at atMagic
    have step := readNext_of_magic (single.skip offset) atMagic
    rw [ArchReader.ahead_skip_eq, ← readNext_seek sought] at step
    cases far : advance src archid magic (ai.ahead.drop offset) with
    | none =>
      rw [far] at step
      exact .inl step
    | some size =>
      rw [far] at step
      obtain ⟨wide, item, taken, starts⟩ := step
      rw [ArchReader.skip_skip] at taken
      exact .inr ⟨offset, magic, size, item, rfl, far, wide, taken, starts⟩

/-- There is at most one complete reading. -/
theorem Reads.unique {first second : List Enqueued} (one : Reads src ai first)
    (other : Reads src ai second) : first = second := by
  obtain ⟨bound, loop⟩ := one.loop
  obtain ⟨bound', loop'⟩ := other.loop
  have same := (loop _ (Nat.le_max_left bound bound')).symm.trans
    (loop' _ (Nat.le_max_right bound bound'))
  exact Option.some.inj same

/-- In a single volume every reading comes to its end: each iteration uses up bytes. -/
theorem Reads.total (single : ai.Single src archid) : ∃ found, Reads src ai found := by
  induction total : ai.ahead.length using Nat.strongRecOn generalizing ai with
  | ind bound ih =>
    rcases readNext_cases single with stopped | ⟨offset, magic, size, item, sought, _, wide, taken, _⟩
    · exact ⟨[], .stop stopped⟩
    · have some' : ai.ahead.length ≠ 0 := by
        intro empty
        rw [List.eq_nil_of_length_eq_zero empty] at sought
        cases sought
      have fewer : (ai.skip (offset + size)).ahead.length < bound := by
        rw [ArchReader.ahead_skip_eq, List.length_drop]
        omega
      obtain ⟨found, reads⟩ := ih _ fewer (single.skip _) rfl
      exact ⟨_, .next taken reads⟩

/-- A reader that regains a place adds everything from there on to the queue. -/
theorem Regains.reads {bytes : List UInt8} {distance : Nat}
    (regains : Regains src archid bytes distance) (single : ai.Single src archid)
    (here : ai.ahead = bytes) {found : List Enqueued}
    (tail : Reads src (ai.skip distance) found) : ∃ extra, Reads src ai (extra ++ found) := by
  induction regains generalizing ai with
  | here bytes => exact ⟨[], tail⟩
  | @search byte bytes distance noMagic onward ih =>
    have next : (ai.skip 1).ahead = bytes := by
      rw [ArchReader.ahead_skip_eq, here, List.drop_succ_cons, List.drop_zero]
    have shift : distance + 1 = 1 + distance := Nat.add_comm ..
    rw [shift, ← ArchReader.skip_skip] at tail
    obtain ⟨extra, reads⟩ := ih (single.skip 1) next tail
    exact ⟨extra, reads.of_same (readNext_search here noMagic)⟩
  | @record magic bytes size distance atMagic far onward ih =>
    subst here
    have step := readNext_of_magic single atMagic
    rw [far] at step
    obtain ⟨_, item, taken, _⟩ := step
    rw [← ArchReader.skip_skip] at tail
    obtain ⟨extra, reads⟩ := ih (single.skip size) (ArchReader.ahead_skip_eq ai size) tail
    exact ⟨item.toList ++ extra, by rw [List.append_assoc]; exact .next taken reads⟩

/-- Where the reader finds a record it has regained the place, and there is the mark of a
record. -/
theorem Regains.of_found {found : List Enqueued} (reads : Reads src ai found)
    (single : ai.Single src archid) {entry : Enqueued} (member : entry ∈ found) :
    ∃ distance, entry.start = ai.pos + distance ∧ Regains src archid ai.ahead distance ∧
      ∃ magic, magic ≠ .volf ∧ MarksRecord archid magic (ai.ahead.drop distance) := by
  induction reads with
  | stop stopped => cases member
  | @next ai ai' item rest taken tail ih =>
    rcases readNext_cases single with stopped | ⟨offset, magic, size, item', sought, far, _, step,
      starts⟩
    · rw [stopped] at taken
      cases taken
    · rw [step] at taken
      cases taken
      have atMagic := magic_of_findMagic sought
      rcases List.mem_append.mp member with now | later
      · obtain ⟨start, marks⟩ := starts entry (by simpa using now)
        exact ⟨offset, start, .of_findMagic sought (.here _), marks⟩
      · obtain ⟨distance, start, onward, marks⟩ := ih (single.skip _) later
        rw [ArchReader.ahead_skip_eq, ← List.drop_drop] at onward
        rw [ArchReader.ahead_skip_eq, List.drop_drop, Nat.add_assoc] at marks
        refine ⟨offset + (size + distance), ?_, .of_findMagic sought (.record atMagic far onward),
          marks⟩
        rw [start, ArchReader.skip_pos]
        omega

end FsArchiver
