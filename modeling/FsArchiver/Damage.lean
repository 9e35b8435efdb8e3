import FsArchiver.Resync
import FsArchiver.Splitting

/-!
# Damaged records

An archive of one volume in which the bytes of one record were replaced by as many others. All
other records keep their places, so a reading of the damaged archive is compared with the
places of the records of the intact one.
-/
namespace FsArchiver

open Lib

/-- The header of the record of an item. -/
def QueueData.head : QueueData → HeadInfo
  | .header headinfo => headinfo
  | .block blkinfo => ⟨.blkh, blkinfo.blkfsid, blockDico blkinfo⟩

/-- What follows the header in the record of an item. -/
def QueueData.stored : QueueData → List UInt8
  | .header _ => []
  | .block blkinfo => blkinfo.blkdata

/-- The record of an item with these bytes for the length, the contents and the checksum of its
header. -/
def recordWith (archid : UInt32) (item : QueueData) (dico : List UInt8) : List UInt8 :=
  item.head.magic.bytes ++ leBytes 4 archid.toNat ++ leBytes 2 item.head.fsid.toNat ++ dico ++
    item.stored

/-- The record of an item is the one with the bytes of its dico. -/
theorem itemBytes_eq (archid : UInt32) (item : QueueData) :
    itemBytes archid item = recordWith archid item (dicoBytes item.head.dico) := by
  cases item with
  | header headinfo =>
    simp only [itemBytes, headerBytes, recordWith, QueueData.head, QueueData.stored,
      List.append_nil]
  | block blkinfo =>
    simp only [itemBytes, blockBytes, headerBytes, recordWith, QueueData.head, QueueData.stored,
      List.append_assoc]

/-- Replaced bytes of the same length leave a record of the same length. -/
theorem length_recordWith (archid : UInt32) (item : QueueData) {dico : List UInt8}
    (same : dico.length = (dicoBytes item.head.dico).length) :
    (recordWith archid item dico).length = (itemBytes archid item).length := by
  rw [itemBytes_eq]
  simp only [recordWith, List.length_append, same]

/-- A source of one volume: a main header, items, the bytes of one record, and further items. -/
structure Source.Holds (src : Source) (archid : UInt32) (main : HeadInfo)
    (front : List QueueData) (record : List UInt8) (back : List QueueData) : Prop where
  /-- The archive id is not the mark for an unknown id. -/
  nonzero : archid ≠ 0
  /-- The main header. -/
  isMain : main.IsMain archid
  /-- The items in front of the record. -/
  frontStorable : ∀ item ∈ front, item.Storable
  /-- The items behind the record. -/
  backStorable : ∀ item ∈ back, item.Storable
  /-- Every filesystem is needed. -/
  selects : src.SelectsAll
  /-- The volume. -/
  volume : src.volume 0 = some (volheadBytes archid 0 ++
    (itemsBytes archid (.header main :: front) ++
      (record ++ (itemsBytes archid back ++ volfootBytes archid 0 true))))
  /-- There is no other volume. -/
  alone : src.volume 1 = none

/-- Where the record behind these items starts. -/
def recordStart (archid : UInt32) (main : HeadInfo) (front : List QueueData) : Nat :=
  74 + (itemsBytes archid (.header main :: front)).length

/-- The bytes from the damaged record on. -/
def fromRecord (archid : UInt32) (record : List UInt8) (back : List QueueData) : List UInt8 :=
  record ++ (itemsBytes archid back ++ volfootBytes archid 0 true)

variable {src : Source} {archid : UInt32} {main : HeadInfo} {front back : List QueueData}
  {record : List UInt8}

/-- Records lie in front of the end of the items. -/
theorem start_lt_of_place {vol : UInt32} {pos : Nat} {items : List QueueData} {entry : Enqueued}
    (member : entry ∈ place archid vol pos items) :
    entry.start < pos + (itemsBytes archid items).length := by
  induction items generalizing pos with
  | nil => cases member
  | cons item items ih =>
    have some' : (itemBytes archid item).length ≠ 0 := by
      rw [itemBytes_eq]
      simp [recordWith]
    rw [itemsBytes_cons, List.length_append]
    rcases List.mem_cons.mp member with rfl | later
    · show pos < _
      omega
    · have bound := ih later
      omega

/-- The reading up to the damaged record, and the one behind it. -/
theorem Source.Holds.reading (holds : src.Holds archid main front record back) :
    ∃ ai : ArchReader, ai.Single src archid ∧ ai.curvol = 0 ∧
      ai.pos = recordStart archid main front ∧ ai.ahead = fromRecord archid record back ∧
      (∀ found, src.Reads found ↔ ∃ tail, FsArchiver.Reads src ai tail ∧
        found = place archid 0 74 (.header main :: front) ++ tail) ∧
      FsArchiver.Reads src (ai.skip record.length)
        (place archid 0 (recordStart archid main front + record.length) back) := by
  have served := holds.volume
  rw [itemsBytes_cons, List.append_assoc] at served
  obtain ⟨ai, started, knows, version, vol, pos, here⟩ := readStart_volume holds.isMain served
  have single : ai.Single src archid :=
    ⟨knows.id, holds.nonzero, version, by rw [vol]; exact holds.alone⟩
  have behindFront := ArchReader.ahead_skip here
  have behind := ArchReader.ahead_skip behindFront
  have behindBack := ArchReader.ahead_skip behind
  refine ⟨ai.skip (itemsBytes archid front).length, single.skip _, vol, ?_, behindFront, ?_, ?_⟩
  · rw [ArchReader.skip_pos, pos, recordStart, itemsBytes_cons, List.length_append]
    omega
  · have whole (tail : List Enqueued)
        (reads : FsArchiver.Reads src (ai.skip (itemsBytes archid front).length) tail) :
        src.Reads (place archid 0 74 (.header main :: front) ++ tail) := by
      have fromMain := Reads.items holds.selects holds.frontStorable version knows.id here reads
      rw [vol, pos] at fromMain
      exact Source.reads_of_start started fromMain
    intro found
    constructor
    · rintro ⟨enough, looped⟩
      obtain ⟨tail, reads⟩ := Reads.total (single.skip (itemsBytes archid front).length)
      obtain ⟨enough', looped'⟩ := whole tail reads
      have same := (looped _ (Nat.le_max_left enough enough')).symm.trans
        (looped' _ (Nat.le_max_right enough enough'))
      exact ⟨tail, reads, Option.some.inj same⟩
    · rintro ⟨tail, reads, rfl⟩
      exact whole tail reads
  · rw [← List.append_nil (volfootBytes ..)] at behindBack
    have atRecord := single.skip (itemsBytes archid front).length
    have atBack := atRecord.skip record.length
    have atFooter := atBack.skip (itemsBytes archid back).length
    have stopped : readNext src _ = .stop :=
      readNext_volfooter_last atFooter.version atFooter.id behindBack
    have reads := Reads.items holds.selects holds.backStorable atBack.version atBack.id behind
      (.stop stopped)
    have start : ((ai.skip (itemsBytes archid front).length).skip record.length).pos =
        recordStart archid main front + record.length := by
      rw [ArchReader.skip_pos, ArchReader.skip_pos, pos, recordStart, itemsBytes_cons,
        List.length_append]
      omega
    rw [List.append_nil, start] at reads
    rw [← vol]
    exact reads

/-- A reading that finds the first record behind the damaged one has regained its place. -/
theorem Source.Holds.regains_of_found {item : QueueData}
    (holds : src.Holds archid main front record (item :: back)) {found : List Enqueued}
    (reads : src.Reads found)
    (others : (place archid 0 74 (.header main :: front) ++
      place archid 0 (recordStart archid main front + record.length) (item :: back)).Sublist found) :
    Regains src archid (fromRecord archid record (item :: back)) record.length := by
  obtain ⟨ai, single, vol, pos, here, whole, behind⟩ := holds.reading
  obtain ⟨tail, fromHere, rfl⟩ := (whole found).mp reads
  let entry : Enqueued := ⟨0, recordStart archid main front + record.length, item.readBack⟩
  have listed : entry ∈ place archid 0 (recordStart archid main front + record.length)
    (item :: back) := List.mem_cons_self
  have member := others.subset (List.mem_append_right _ listed)
  rcases List.mem_append.mp member with before | later
  · have early := start_lt_of_place before
    rw [← recordStart] at early
    have late : recordStart archid main front ≤ entry.start := Nat.le_add_right ..
    omega
  · obtain ⟨distance, start, regains, _⟩ := Regains.of_found fromHere single later
    rw [pos] at start
    have same : record.length = distance := Nat.add_left_cancel start
    rw [same, ← here]
    exact regains

/-- A damaged header costs only itself exactly when it is the last record, or when the reader,
from the damaged header on, regains the start of the record that follows. -/
theorem damaged_header_costs_itself (src : Source) (archid : UInt32) (main : HeadInfo)
    (front back : List QueueData) (item : QueueData) (dico : List UInt8)
    (same : dico.length = (dicoBytes item.head.dico).length)
    (holds : src.Holds archid main front (recordWith archid item dico) back) :
    (∃ found, src.Reads found ∧ (place archid 0 74 (.header main :: front) ++
        place archid 0 (recordStart archid main front + (itemBytes archid item).length)
          back).Sublist found) ↔
      back = [] ∨ Regains src archid (fromRecord archid (recordWith archid item dico) back)
        (itemBytes archid item).length := by
  rw [← length_recordWith archid item same]
  constructor
  · rintro ⟨found, reads, others⟩
    cases back with
    | nil => exact .inl rfl
    | cons next back => exact .inr (holds.regains_of_found reads others)
  · intro fine
    obtain ⟨ai, single, vol, pos, here, whole, behind⟩ := holds.reading
    rcases fine with rfl | regains
    · obtain ⟨tail, reads⟩ := Reads.total single
      refine ⟨_, (whole _).mpr ⟨tail, reads, rfl⟩, ?_⟩
      exact (List.Sublist.refl _).append (List.nil_sublist tail)
    · obtain ⟨extra, reads⟩ := regains.reads single here behind
      refine ⟨_, (whole _).mpr ⟨_, reads, rfl⟩, ?_⟩
      exact (List.Sublist.refl _).append (List.sublist_append_right extra _)

/-- From a magic the reader goes on as far as `advance` says. -/
theorem Regains.onward_of_magic {magic : Magic} {bytes : List UInt8} {distance : Nat}
    (atMagic : Magic.ofBytes (bytes.take sizeofMagic) = some magic)
    (regains : Regains src archid bytes distance) (ahead : 0 < distance) :
    ∃ size rest, advance src archid magic bytes = some size ∧ distance = size + rest ∧
      Regains src archid (bytes.drop size) rest := by
  cases regains with
  | here => omega
  | search noMagic onward =>
    rw [noMagic] at atMagic
    cases atMagic
  | @record other _ size rest atOther far onward =>
    have same := Option.some.inj (atOther.symm.trans atMagic)
    subst same
    exact ⟨size, rest, far, rfl, onward⟩

/-- A record whose length field reaches beyond the next record is never passed in time: the
reader consumes as many bytes as the field says, or gives up. -/
theorem Regains.length_field_le {magic : Magic} {bytes : List UInt8} {distance : Nat}
    (marks : MarksRecord archid magic bytes) (regains : Regains src archid bytes distance)
    (ahead : 0 < distance) : 18 + leNat ((bytes.drop 10).take 4) ≤ distance := by
  obtain ⟨size, rest, far, rfl, _⟩ := regains.onward_of_magic marks.magic ahead
  unfold advance headerAt at far
  generalize leNat ((bytes.drop 10).take 4) = len at far ⊢
  by_cases short : bytes.length < 8
  · simp [short] at far
  · have id := (id_eq_iff short).mpr marks.id
    by_cases cut : bytes.length < 18 + len
    · simp [short, id, cut] at far
    · by_cases sum : (fletcher32 ((bytes.drop 14).take len)).toNat ≠
          leNat ((bytes.drop (14 + len)).take 4)
      · simp only [short, id, cut, sum, ne_eq, not_true_eq_false, ↓reduceIte, not_false_eq_true,
          Option.some.injEq] at far
        omega
      · simp only [if_neg short, if_neg cut, if_neg sum, id, ne_eq, not_true_eq_false,
          ↓reduceIte] at far
        cases read : readItems src.mem ((bytes.drop 14).take len)
          (leNat (heapBytes src.mem ((bytes.drop 14).take len) 0 2)) 2 Dico.alloc with
        | none => simp [read] at far
        | some d =>
          simp only [read, Option.map_eq_some_iff] at far
          obtain ⟨more, _, rfl⟩ := far
          omega

/-- An object header that is rejected for its checksum, with its length field as it was, costs
only itself. -/
theorem regains_of_kept_length {headinfo : HeadInfo} {len body sum : List UInt8}
    (fits : headinfo.dico.Fits) (kept : len = leBytes 4 headinfo.dico.encode.length)
    (sameBody : body.length = headinfo.dico.encode.length) (sameSum : sum.length = 4)
    (rejected : (fletcher32 body).toNat ≠ leNat sum) :
    Regains src archid
      (fromRecord archid (recordWith archid (.header headinfo) (len ++ body ++ sum)) back)
      (itemBytes archid (.header headinfo)).length := by
  have total : (itemBytes archid (.header headinfo)).length = 18 + body.length + 0 := by
    simp only [itemBytes, headerBytes, dicoBytes, List.length_append, Magic.length_bytes,
      length_leBytes, sameBody]
    omega
  generalize whole : fromRecord archid (recordWith archid (.header headinfo) (len ++ body ++ sum))
    back = bytes
  simp only [fromRecord, recordWith, QueueData.head, QueueData.stored, List.append_nil,
    List.append_assoc] at whole
  have atStart : bytes.drop 0 = headinfo.magic.bytes ++ _ := whole.symm
  have atId := drop_add_of_drop atStart
  have atFsid := drop_add_of_drop atId
  have atLen := drop_add_of_drop atFsid
  have atBody := drop_add_of_drop atLen
  have atSum := drop_add_of_drop atBody
  simp only [kept, Magic.length_bytes, length_leBytes, Nat.reduceAdd] at atId atLen atBody atSum
  have long : bytes.length = 18 + body.length + (itemsBytes archid back ++
      volfootBytes archid 0 true).length := by
    simp only [← whole, kept, List.length_append, Magic.length_bytes, length_leBytes, sameSum]
    omega
  have id : (bytes.drop 4).take 4 = leBytes 4 archid.toNat := by
    rw [atId, List.take_left' (length_leBytes ..)]
  have lenValue : leNat ((bytes.drop 10).take 4) = body.length := by
    rw [atLen, List.take_left' (length_leBytes ..), sameBody, leNat_leBytes_of_lt fits.length]
  have sumValue : (bytes.drop (14 + body.length)).take 4 = sum := by
    rw [atSum, List.take_left' sameSum]
  have atMagic : Magic.ofBytes (bytes.take sizeofMagic) = some headinfo.magic := by
    have four : sizeofMagic = headinfo.magic.bytes.length := (Magic.length_bytes _).symm
    rw [← whole, four, List.take_left, Magic.ofBytes_bytes]
  have short : ¬bytes.length < 8 := by omega
  have cut : ¬bytes.length < 18 + body.length := by omega
  have far : advance src archid headinfo.magic bytes = some (18 + body.length) := by
    simp only [advance, headerAt, if_neg short, id, leNat_leBytes_uint32, ne_eq,
      not_true_eq_false, ↓reduceIte, lenValue, if_neg cut, atBody, List.take_left, sumValue,
      rejected, not_false_eq_true]
  rw [total]
  exact .record atMagic far (.here _)

/-- A source of one small volume with archive id 1. -/
def smallSource (record : List UInt8) (back : List QueueData) : Source :=
  { volume := fun curvol => if curvol = 0 then some (volheadBytes 1 0 ++
      (itemsBytes 1 [.header smallMain] ++
        (record ++ (itemsBytes 1 back ++ volfootBytes 1 0 true)))) else none
    fsbitmap := fun _ => 1
    mem := ⟨fun _ => 0, fun _ => 0⟩ }

/-- The small source holds its record. -/
theorem holds_smallSource (record : List UInt8) {back : List QueueData}
    (storable : ∀ item ∈ back, item.Storable) :
    (smallSource record back).Holds 1 smallMain [] record back where
  nonzero := by decide
  isMain := isMain_smallMain
  frontStorable := fun _ member => nomatch member
  backStorable := storable
  selects := fun _ _ => rfl
  volume := rfl
  alone := rfl

/-- An object header without items. -/
def smallObject : QueueData := .header ⟨.objt, 0, Dico.alloc⟩

/-- The end of a filesystem. -/
def smallEnd : QueueData := .header ⟨.datf, 0, Dico.alloc⟩

theorem storable_smallEnd : ∀ item ∈ [smallEnd], item.Storable := by
  intro item member
  rw [List.mem_singleton.mp member]
  exact ⟨by decide, by decide, by decide, by decide⟩

/-- A small archive with these bytes for length, contents and checksum of its object header. -/
def damagedObject (dico : List UInt8) : Source :=
  smallSource (recordWith 1 smallObject dico) [smallEnd]

/-- The records of the small archive but for the object header. -/
def smallOthers : List Enqueued :=
  place 1 0 74 [.header smallMain] ++
    place 1 0 (recordStart 1 smallMain [] + (itemBytes 1 smallObject).length) [smallEnd]

/-- With a wrong checksum the header that follows is read. -/
theorem damaged_sum_costs_itself : ∃ found,
    (damagedObject [2, 0, 0, 0, 0, 0, 0, 0, 0, 0]).Reads found ∧ smallOthers.Sublist found := by
  have regains : Regains (damagedObject [2, 0, 0, 0, 0, 0, 0, 0, 0, 0]) 1
      (fromRecord 1 (recordWith 1 smallObject [2, 0, 0, 0, 0, 0, 0, 0, 0, 0]) [smallEnd])
      (itemBytes 1 smallObject).length := by
    have far : advance (damagedObject [2, 0, 0, 0, 0, 0, 0, 0, 0, 0]) 1 .objt
        (fromRecord 1 (recordWith 1 smallObject [2, 0, 0, 0, 0, 0, 0, 0, 0, 0]) [smallEnd]) =
          some 20 := rfl
    have total : (itemBytes 1 smallObject).length = 20 + 0 := rfl
    rw [total]
    exact .record rfl far (.here _)
  exact (damaged_header_costs_itself _ 1 smallMain [] [smallEnd] smallObject
    [2, 0, 0, 0, 0, 0, 0, 0, 0, 0] rfl (holds_smallSource _ storable_smallEnd)).mpr (.inr regains)

/-- With a length beyond the end of the volume the header that follows is lost. -/
theorem damaged_length_costs_more :
    (damagedObject [255, 255, 255, 255, 0, 0, 0, 0, 0, 0]).Holds 1 smallMain []
      (recordWith 1 smallObject [255, 255, 255, 255, 0, 0, 0, 0, 0, 0]) [smallEnd] ∧
    ¬∃ found, (damagedObject [255, 255, 255, 255, 0, 0, 0, 0, 0, 0]).Reads found ∧
      smallOthers.Sublist found := by
  refine ⟨holds_smallSource _ storable_smallEnd, ?_⟩
  rintro ⟨found, reads, others⟩
  have regains := (holds_smallSource (recordWith 1 smallObject
    [255, 255, 255, 255, 0, 0, 0, 0, 0, 0]) storable_smallEnd).regains_of_found reads others
  obtain ⟨size, rest, far, _⟩ := regains.onward_of_magic (show _ = some Magic.objt from rfl)
    (by decide)
  have fatal : advance (damagedObject [255, 255, 255, 255, 0, 0, 0, 0, 0, 0]) 1 .objt
      (fromRecord 1 (recordWith 1 smallObject [255, 255, 255, 255, 0, 0, 0, 0, 0, 0])
        [smallEnd]) = none := rfl
  rw [damagedObject] at fatal
  rw [fatal] at far
  cases far

end FsArchiver
