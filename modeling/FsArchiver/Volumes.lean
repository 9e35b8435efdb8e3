import FsArchiver.Records

/-!
# Volumes

A volume is a header, whole items and a footer. The reader detects the format of a volume the
writer has opened and reads its header; from there it reads item by item up to the footer.
-/
namespace FsArchiver

open Lib

/-! ## Complete readings -/

/-- What a reader adds to the queue from a state on, until its loop ends. -/
inductive Reads (src : Source) : ArchReader → List Enqueued → Prop
  | stop {ai : ArchReader} (h : readNext src ai = .stop) : Reads src ai []
  | next {ai ai' : ArchReader} {item : Option Enqueued} {rest : List Enqueued}
      (h : readNext src ai = .next item ai') (tail : Reads src ai' rest) :
      Reads src ai (item.toList ++ rest)

/-- A complete reading is what the loop computes, given enough iterations. -/
theorem Reads.loop {src : Source} {ai : ArchReader} {found : List Enqueued}
    (reads : Reads src ai found) :
    ∃ enough, ∀ fuel, enough ≤ fuel → readLoop src fuel ai = some found := by
  induction reads with
  | stop h =>
    refine ⟨1, fun fuel enough => ?_⟩
    obtain ⟨fuel, rfl⟩ : ∃ less, fuel = less + 1 := ⟨fuel - 1, by omega⟩
    simp only [readLoop, h]
  | next h tail ih =>
    obtain ⟨bound, ih⟩ := ih
    refine ⟨bound + 1, fun fuel enough => ?_⟩
    obtain ⟨fuel, rfl⟩ : ∃ less, fuel = less + 1 := ⟨fuel - 1, by omega⟩
    simp only [readLoop, h, ih fuel (by omega), Option.map_some]

/-- A loop that ends is a complete reading. -/
theorem Reads.of_loop {src : Source} {fuel : Nat} {ai : ArchReader} {found : List Enqueued}
    (h : readLoop src fuel ai = some found) : Reads src ai found := by
  induction fuel generalizing ai found with
  | zero => cases h
  | succ fuel ih =>
    simp only [readLoop] at h
    split at h
    next stopped =>
      cases h
      exact .stop stopped
    next item ai' taken =>
      rw [Option.map_eq_some_iff] at h
      obtain ⟨rest, looped, rfl⟩ := h
      exact .next taken (ih looped)

/-- Readings depend on the iterations alone. -/
theorem Reads.of_same {src : Source} {ai ai' : ArchReader} {found : List Enqueued}
    (reads : Reads src ai' found) (same : readNext src ai = readNext src ai') :
    Reads src ai found := by
  cases reads with
  | stop stopped => exact .stop (same.trans stopped)
  | next taken tail => exact .next (same.trans taken) tail

/-- Items with the places of their records, from a position of a volume on. -/
def place (archid vol : UInt32) : Nat → List QueueData → List Enqueued
  | _, [] => []
  | pos, item :: items =>
    ⟨vol, pos, item.readBack⟩ :: place archid vol (pos + (itemBytes archid item).length) items

/-- The bytes of items in a row. -/
def itemsBytes (archid : UInt32) (items : List QueueData) : List UInt8 :=
  items.flatMap (itemBytes archid)

theorem itemsBytes_cons (archid : UInt32) (item : QueueData) (items : List QueueData) :
    itemsBytes archid (item :: items) = itemBytes archid item ++ itemsBytes archid items := rfl

/-- Items ahead of the reader are read one by one. -/
theorem Reads.items {src : Source} (selects : src.SelectsAll) {archid : UInt32}
    {items : List QueueData} (storable : ∀ item ∈ items, item.Storable) {ai : ArchReader}
    {rest : List UInt8} (version : ai.filefmtver = 2) (known : ai.archid = archid)
    (here : ai.ahead = itemsBytes archid items ++ rest) {found : List Enqueued}
    (tail : Reads src (ai.skip (itemsBytes archid items).length) found) :
    Reads src ai (place archid ai.curvol ai.pos items ++ found) := by
  induction items generalizing ai with
  | nil => exact tail
  | cons item items ih =>
    simp only [itemsBytes, List.flatMap_cons, List.append_assoc] at here
    have first := readNext_item selects (storable item List.mem_cons_self) version known here
    have behind := ArchReader.ahead_skip here
    refine .next first (ih (fun other member => storable other (List.mem_cons_of_mem item member))
      version known behind ?_)
    rw [ArchReader.skip_skip]
    simpa [itemsBytes] using tail

/-! ## Volume headers and footers -/

/-- The bytes of a volume header. -/
def volheadBytes (archid curvol : UInt32) : List UInt8 :=
  headerBytes .volh archid filesysidNull (dicoAddAll Dico.alloc (volheaderCalls curvol archid))

/-- The bytes of a volume footer. -/
def volfootBytes (archid curvol : UInt32) (lastvol : Bool) : List UInt8 :=
  headerBytes .volf archid filesysidNull
    (dicoAddAll Dico.alloc (volfooterCalls curvol archid lastvol))

/-- A volume header has all its items. -/
theorem items_volheader (curvol archid : UInt32) :
    (dicoAddAll Dico.alloc (volheaderCalls curvol archid)).items =
      (volheaderCalls curvol archid).map DicoCall.item :=
  items_dicoAddAll (show ([VolumeKey.headVolnum, VolumeKey.headArchid,
    VolumeKey.headFileformatver, VolumeKey.headProgvercreat].map
      (Prod.mk (0 : UInt8))).Nodup by decide)

/-- A volume footer has all its items. -/
theorem items_volfooter (curvol archid : UInt32) (lastvol : Bool) :
    (dicoAddAll Dico.alloc (volfooterCalls curvol archid lastvol)).items =
      (volfooterCalls curvol archid lastvol).map DicoCall.item :=
  items_dicoAddAll (show ([VolumeKey.footVolnum, VolumeKey.footArchid,
    VolumeKey.footLastvol].map (Prod.mk (0 : UInt8))).Nodup by decide)

/-- The encoding of a volume header. -/
theorem encode_volheader (curvol archid : UInt32) :
    (dicoAddAll Dico.alloc (volheaderCalls curvol archid)).encode =
      leBytes 2 4 ++ [DicType.u32, 0, 0, 0, 4, 0] ++ leBytes 4 curvol.toNat ++
        [DicType.u32, 0, 1, 0, 4, 0] ++ leBytes 4 archid.toNat ++
        [DicType.string, 0, 2, 0, 11, 0] ++ fileFormat ++ [0] ++
        [DicType.string, 0, 3, 0, 11, 0] ++ version ++ [0] := by
  rw [Dico.encode, items_volheader]
  simp [volheaderCalls, DicoCall.item, DicoItem.make,
    DicoItem.encode, sizedData_of_lt, dicoAddU32, dicoAddString, VolumeKey.headVolnum,
    VolumeKey.headArchid, VolumeKey.headFileformatver, VolumeKey.headProgvercreat, fileFormat,
    version, leBytes]

/-- The dico of a volume header can be encoded. -/
theorem fits_volheader (curvol archid : UInt32) :
    (dicoAddAll Dico.alloc (volheaderCalls curvol archid)).Fits where
  count := by rw [items_volheader]; exact (by decide : 4 < 65536)
  length := by rw [encode_volheader]; exact (by decide : 56 < 4294967296)

/-- The dico of a volume footer can be encoded. -/
theorem fits_volfooter (curvol archid : UInt32) (lastvol : Bool) :
    (dicoAddAll Dico.alloc (volfooterCalls curvol archid lastvol)).Fits where
  count := by rw [items_volfooter]; exact (by decide : 3 < 65536)
  length := by rw [Dico.encode, items_volfooter]; exact (by decide : 32 < 4294967296)

/-- The bytes in which `archreader_open` looks for the format: 40 bytes come before them and
24 after the first ten of them. -/
theorem volheadBytes_eq (archid curvol : UInt32) : ∃ front back,
    volheadBytes archid curvol = front ++ ([11, 0] ++ fileFormat ++ back) ∧
      front.length = 40 ∧ back.length = 22 := by
  refine ⟨Magic.volh.bytes ++ leBytes 4 archid.toNat ++ leBytes 2 filesysidNull.toNat ++
      leBytes 4 56 ++ leBytes 2 4 ++ [DicType.u32, 0, 0, 0, 4, 0] ++ leBytes 4 curvol.toNat ++
      [DicType.u32, 0, 1, 0, 4, 0] ++ leBytes 4 archid.toNat ++ [DicType.string, 0, 2, 0],
    [0] ++ [DicType.string, 0, 3, 0, 11, 0] ++ version ++ [0] ++ leBytes 4 (fletcher32
      (dicoAddAll Dico.alloc (volheaderCalls curvol archid)).encode).toNat, ?_, ?_, ?_⟩
  · have len : (dicoAddAll Dico.alloc (volheaderCalls curvol archid)).encode.length = 56 := by
      rw [encode_volheader]
      rfl
    rw [volheadBytes, headerBytes, dicoBytes, len, encode_volheader]
    simp only [List.append_assoc, List.cons_append, List.nil_append]
  · simp
  · simp [version]

theorem length_volheadBytes (archid curvol : UInt32) : (volheadBytes archid curvol).length = 74 := by
  obtain ⟨front, back, split, first, last⟩ := volheadBytes_eq archid curvol
  simp [split, first, last, fileFormat]

/-- A volume that starts with a volume header is opened with version 2. -/
theorem archreaderOpen_volume (ai : ArchReader) (archid curvol : UInt32) (rest : List UInt8) :
    archreaderOpen ai (volheadBytes archid curvol ++ rest) =
      some { ai with file := volheadBytes archid curvol ++ rest, pos := 0, filefmtver := 2 } := by
  obtain ⟨front, back, split, first, last⟩ := volheadBytes_eq archid curvol
  have room : 64 ≤ ((volheadBytes archid curvol ++ rest).drop 0).length := by
    simp only [List.drop_zero, List.length_append, length_volheadBytes]
    omega
  have head : readAt (volheadBytes archid curvol ++ rest) 0 64 =
      some (front ++ ([11, 0] ++ fileFormat ++ back.take 12)) := by
    rw [readAt, if_pos room, List.drop_zero, split, List.append_assoc, List.take_append, first,
      List.take_of_length_le (by omega), List.append_assoc, List.take_append,
      List.take_of_length_le (by simp [fileFormat]), List.take_append_of_le_length]
    · rfl
    · simp [last, fileFormat]
  have at40 : ((front ++ ([11, 0] ++ fileFormat ++ back.take 12)).drop 40).take 10 =
      [11, 0, 0x46, 0x73, 0x41, 0x72, 0x43, 0x68, 0x5f, 0x30] := by
    rw [← first, List.drop_left]
    rfl
  have at42 : ((front ++ ([11, 0] ++ fileFormat ++ back.take 12)).drop 42).take 10 =
      fileFormat := by
    rw [← List.append_assoc, ← List.append_assoc, List.append_assoc,
      show 42 = (front ++ [11, 0]).length by simp [first], List.drop_left]
    rfl
  have old : ¬([11, 0, 0x46, 0x73, 0x41, 0x72, 0x43, 0x68, 0x5f, 0x30] = fileFormat1 ∨
      [11, 0, 0x46, 0x73, 0x41, 0x72, 0x43, 0x68, 0x5f, 0x30] = fileFormatY) := by decide
  simp only [archreaderOpen, head, at40, at42, old, ↓reduceIte, Option.bind_eq_bind,
    Option.bind_some]

/-- What a reader knows once it has read a volume header of an archive. -/
structure ArchReader.Knows (mem : Mem) (archid : UInt32) (ai : ArchReader) : Prop where
  /-- The archive id. -/
  id : ai.archid = archid
  /-- The format the archive is based on. -/
  format : ai.filefmt = localBuffer mem maxFileFmtLen (fileFormat ++ [0])

/-- A reader that has read no volume header yet. -/
structure ArchReader.Fresh (ai : ArchReader) : Prop where
  /-- The archive id is not known. -/
  id : ai.archid = 0
  /-- Nor is the format. -/
  format : ai.filefmt.head? = some 0

/-- The header of the volume the reader expects is accepted. -/
theorem archreaderReadVolheader_of_ahead (mem : Mem) {ai : ArchReader} {archid curvol : UInt32}
    {rest : List UInt8} (before : ai.Fresh ∨ ai.Knows mem archid) (version : ai.filefmtver = 2)
    (vol : ai.curvol = curvol) (here : ai.ahead = volheadBytes archid curvol ++ rest) :
    ∃ creatver, archreaderReadVolheader mem ai =
      some { ai.skip 74 with
        archid, creatver, filefmt := localBuffer mem maxFileFmtLen (fileFormat ++ [0]) } := by
  have items := items_volheader curvol archid
  have readid : dicoGetU32 mem (dicoAddAll Dico.alloc (volheaderCalls curvol archid)) 0
      VolumeKey.headArchid = some archid := dicoGetU32_of_call items (by simp [volheaderCalls])
  have volnum : dicoGetU32 mem (dicoAddAll Dico.alloc (volheaderCalls curvol archid)) 0
      VolumeKey.headVolnum = some curvol := dicoGetU32_of_call items (by simp [volheaderCalls])
  have filefmt : dicoGetData (dicoAddAll Dico.alloc (volheaderCalls curvol archid)) 0
      VolumeKey.headFileformatver maxFileFmtLen = some (fileFormat ++ [0]) :=
    dicoGetData_of_call (dicoAddString 0 VolumeKey.headFileformatver fileFormat) items
      (by simp [volheaderCalls]) (by decide) (by decide) (by decide)
  have creatver : dicoGetData (dicoAddAll Dico.alloc (volheaderCalls curvol archid)) 0
      VolumeKey.headProgvercreat maxProgVerLen = some (FsArchiver.version ++ [0]) :=
    dicoGetData_of_call (dicoAddString 0 VolumeKey.headProgvercreat FsArchiver.version) items
      (by simp [volheaderCalls]) (by decide) (by decide) (by decide)
  have known : ai.archid = 0 ∨ ai.archid = archid :=
    before.imp (fun fresh => fresh.id) (fun knows => knows.id)
  have read : archreaderReadHeader mem ai false = .ok ⟨ai.pos, .volh, filesysidNull, _⟩ _ :=
    archreaderReadHeader_of_ahead mem false version known (fits_volheader curvol archid) here
  rw [← volheadBytes, length_volheadBytes] at read
  have named : (localBuffer mem maxFileFmtLen (fileFormat ++ [0])).head? = some 0x46 := rfl
  rw [archreaderReadVolheader, read]
  rcases before with ⟨id, format⟩ | ⟨id, format⟩
  · simp only [readid, volnum, filefmt, creatver, id, vol, ArchReader.skip]
    by_cases unset : ai.creatver.head? = some 0
    · exact ⟨localBuffer mem maxProgVerLen (FsArchiver.version ++ [0]), by simp [unset, format]⟩
    · exact ⟨ai.creatver, by simp [unset, format]⟩
  · simp only [readid, volnum, filefmt, creatver, id, format, vol, ArchReader.skip]
    by_cases unset : ai.creatver.head? = some 0
    · exact ⟨localBuffer mem maxProgVerLen (FsArchiver.version ++ [0]),
        by simp [unset, named, sameString]⟩
    · exact ⟨ai.creatver, by simp [unset, named, sameString]⟩

/-! ## Whole volumes -/

/-- The bytes of a volume: its header, whole items, its footer. -/
def volumeBytes (archid curvol : UInt32) (items : List QueueData) (lastvol : Bool) : List UInt8 :=
  volheadBytes archid curvol ++ itemsBytes archid items ++ volfootBytes archid curvol lastvol

/-- Volumes that hold these lists of items, numbered from `curvol` on; only the final one is
marked as last. -/
def volumesFrom (archid : UInt32) : UInt32 → List (List QueueData) → List (List UInt8)
  | _, [] => []
  | curvol, items :: rest =>
    volumeBytes archid curvol items rest.isEmpty :: volumesFrom archid (curvol + 1) rest

/-- The reader finds these volumes. -/
def Source.Serves (src : Source) (archid : UInt32) : UInt32 → List (List QueueData) → Prop
  | _, [] => True
  | curvol, items :: rest =>
    src.volume curvol = some (volumeBytes archid curvol items rest.isEmpty) ∧
      src.Serves archid (curvol + 1) rest

/-- The items of several volumes with the places of their records. -/
def placeVolumes (archid : UInt32) : UInt32 → List (List QueueData) → List Enqueued
  | _, [] => []
  | curvol, items :: rest =>
    place archid curvol 74 items ++ placeVolumes archid (curvol + 1) rest

/-- The footer of the final volume ends the reading. -/
theorem readNext_volfooter_last {src : Source} {ai : ArchReader} {archid curvol : UInt32}
    {rest : List UInt8} (version : ai.filefmtver = 2) (known : ai.archid = archid)
    (here : ai.ahead = volfootBytes archid curvol true ++ rest) : readNext src ai = .stop := by
  have read : archreaderReadHeader src.mem ai true = .ok ⟨ai.pos, .volf, filesysidNull, _⟩ _ :=
    archreaderReadHeader_of_ahead src.mem true version (.inr known) (fits_volfooter curvol archid true)
      here
  have lastvol : dicoGetU32 src.mem (dicoAddAll Dico.alloc (volfooterCalls curvol archid true)) 0
      VolumeKey.footLastvol = some 1 :=
    dicoGetU32_of_call (items_volfooter curvol archid true) (by simp [volfooterCalls])
  simp [readNext, read, readVolfooter, lastvol]

/-- A reader that opens the volume it expects stands behind the volume header. -/
theorem open_volume (mem : Mem) {ai : ArchReader} (archid curvol : UInt32) (rest : List UInt8)
    (before : ai.Fresh ∨ ai.Knows mem archid) (vol : ai.curvol = curvol) :
    ∃ ai', (archreaderOpen ai (volheadBytes archid curvol ++ rest)).bind
        (archreaderReadVolheader mem) = some ai' ∧ ai'.Knows mem archid ∧ ai'.filefmtver = 2 ∧
      ai'.curvol = curvol ∧ ai'.pos = 74 ∧ ai'.ahead = rest := by
  have opened := archreaderOpen_volume ai archid curvol rest
  have fresh : ArchReader.Fresh { ai with
      file := volheadBytes archid curvol ++ rest, pos := 0, filefmtver := 2 } ∨
      ArchReader.Knows mem archid { ai with
        file := volheadBytes archid curvol ++ rest, pos := 0, filefmtver := 2 } :=
    before.imp (fun fresh => ⟨fresh.id, fresh.format⟩) (fun knows => ⟨knows.id, knows.format⟩)
  have here : ArchReader.ahead { ai with
      file := volheadBytes archid curvol ++ rest, pos := 0, filefmtver := 2 } =
      volheadBytes archid curvol ++ rest := List.drop_zero
  obtain ⟨creatver, read⟩ := archreaderReadVolheader_of_ahead mem fresh rfl vol here
  rw [opened, Option.bind_some]
  refine ⟨_, read, ⟨rfl, rfl⟩, rfl, vol, rfl, ?_⟩
  have behind := ArchReader.ahead_skip here
  rw [length_volheadBytes] at behind
  exact behind

/-- Volumes are read one after the other. -/
theorem Reads.volumes {src : Source} (selects : src.SelectsAll) {archid : UInt32}
    {items : List QueueData} {rest : List (List QueueData)} {ai : ArchReader}
    (storable : ∀ item ∈ items ++ rest.flatten, item.Storable)
    (serves : src.Serves archid (ai.curvol + 1) rest)
    (knows : ai.Knows src.mem archid) (version : ai.filefmtver = 2)
    (here : ai.ahead = itemsBytes archid items ++ volfootBytes archid ai.curvol rest.isEmpty) :
    Reads src ai (place archid ai.curvol ai.pos items ++
      placeVolumes archid (ai.curvol + 1) rest) := by
  induction rest generalizing items ai with
  | nil =>
    have behind := ArchReader.ahead_skip here
    rw [← List.append_nil (volfootBytes ..)] at behind
    exact Reads.items selects (fun item member => storable item (by simpa using member)) version
      knows.id here (.stop (readNext_volfooter_last version knows.id behind))
  | cons next rest ih =>
    have behind := ArchReader.ahead_skip here
    rw [← List.append_nil (volfootBytes ..)] at behind
    refine Reads.items selects (fun item member => storable item (List.mem_append_left _ member))
      version knows.id here ?_
    obtain ⟨served, serves⟩ := serves
    have foot : archreaderReadHeader src.mem (ai.skip (itemsBytes archid items).length) true =
        .ok ⟨_, .volf, filesysidNull, _⟩ _ :=
      archreaderReadHeader_of_ahead src.mem true version (.inr knows.id)
        (fits_volfooter ai.curvol archid false) behind
    have lastvol : dicoGetU32 src.mem
        (dicoAddAll Dico.alloc (volfooterCalls ai.curvol archid false)) 0
        VolumeKey.footLastvol = some 0 :=
      dicoGetU32_of_call (items_volfooter ai.curvol archid false) (by simp [volfooterCalls])
    have onward : ArchReader.Knows src.mem archid { (ai.skip (itemsBytes archid items).length).skip
        (volfootBytes archid ai.curvol false).length with curvol := ai.curvol + 1 } :=
      ⟨knows.id, knows.format⟩
    obtain ⟨ai', opened, knows', version', vol', pos', here'⟩ :=
      open_volume src.mem archid (ai.curvol + 1) (itemsBytes archid next ++
        volfootBytes archid (ai.curvol + 1) rest.isEmpty) (.inr onward) rfl
    rw [volumeBytes, List.append_assoc] at served
    have step : readNext src (ai.skip (itemsBytes archid items).length) = .next none ai' := by
      rw [volfootBytes] at opened
      rw [readNext, foot]
      simp only [readVolfooter, lastvol, ArchReader.skip_curvol, served, Option.bind_some, opened]
      rfl
    have following := ih (fun item member => storable item (List.mem_append_right _ (by
        simpa using member))) (by rw [vol']; exact serves) knows' version'
      (by rw [vol']; exact here')
    rw [vol', pos'] at following
    exact .next step following

end FsArchiver
