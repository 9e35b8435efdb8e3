import FsArchiver.MkfsLabels
import FsArchiver.Records
import FsArchiver.VolumePaths
import Mathlib.Data.List.Infix

/-!
# Btrfs attributes in an archive

What `btrfs_getinfo` finds in a superblock is stored in a header, the header is read back, and
`btrfs_mkfs` asks for it. The sector size goes through 16 bits, the UUID is the one in `dev_item`,
and the label is between single quotes; nothing else is lost.
-/
namespace FsArchiver

open Lib Shell BtrfsFeature

/-! ## What is to be requested -/

/-- A feature that a version knows. -/
def requestedFeature (known set : Bool) (name : List UInt8) : List (List UInt8) :=
  if known then [if set then name else ascii "^" ++ name] else []

/-- The features of a superblock that a version knows. -/
def requestedFeatures (sb : BtrfsSuperBlock) (sys : BtrfsSystem) : List (List UInt8) :=
  requestedFeature (sys.btrfstoolver ≥ progver 5 12 0) (sb.incompatFlags &&& zoned ≠ 0)
    (ascii "zoned") ++
  requestedFeature (sys.btrfstoolver ≥ progver 6 7 0) (sb.incompatFlags &&& simpleQuota ≠ 0)
    (ascii "squota")

/-- The arguments for a label, a UUID, features and a sector size. -/
def attributeWords (label : List UInt8) (uuid : Uuid) (features : List (List UInt8))
    (sectorsize : Nat) : List Word :=
  [ascii "mkfs.btrfs", ascii "-f"] ++ (if label = [] then [] else [ascii "-L", label]) ++
    [ascii "-U", uuidUnparseLower uuid] ++
    (if features = [] then [] else [ascii "-O", features.flatMap (· ++ ascii ",")]) ++
    [ascii "-s", formatNat sectorsize]

/-- For every shell, the arguments for a command are these, and behind them those for the rest of
it, of which the buffers keep the beginning. -/
def Requests (requested : List Word) (rest command : List UInt8) : Prop :=
  ∃ tail, tail <+: rest ∧ (command.length + 1 < optionsSize → tail = rest) ∧
    ∀ (shell : Shell) (words : Words), wordexp shell tail = some words →
      requested.length + words.words.length < maxArgv →
        execArgv shell command = some ⟨requested ++ words.words, words.commands⟩

/-- A header with what `btrfs_getinfo` adds for a superblock. -/
structure BtrfsHeader (sb : BtrfsSuperBlock) where
  /-- What is in it before. -/
  before : Dico
  /-- The keys of `btrfs_getinfo` are free. -/
  free : ∀ call ∈ btrfsCalls sb, before.find call.sect call.key = none
  /-- What is added later. -/
  later : List DicoCall
  /-- What is written. -/
  dico : Dico
  /-- It is made of these. -/
  built : (btrfsGetinfo before sb).map (dicoAddAll · later) = some dico
  /-- It can be written. -/
  fits : dico.Fits

/-- With a dico, whatever the version and the other options are, `mkfs.btrfs` is asked for the
attributes of a superblock and this UUID. -/
def RestoresAttributes (sb : BtrfsSuperBlock) (uuid : Uuid) (mem : Mem) (d : Dico) : Prop :=
  ∀ (sys : BtrfsSystem) (partition fsoptions : List UInt8), sys.installed = true →
    ¬(sys.x = 0 ∧ sys.y = 0) →
      ∃ command, btrfsMkfs mem sys d partition fsoptions [] [] = some command ∧
        Requests (attributeWords sb.label uuid (requestedFeatures sb sys) sb.sectorsize.toNat)
          (ascii " " ++ fsoptions ++ ascii "  " ++ partition) command

/-- The attributes of a superblock, with this UUID, are requested after every header for it has been
written to an archive and read back. -/
def AttributesSurvive (sb : BtrfsSuperBlock) (uuid : Uuid) : Prop :=
  ∀ (header : BtrfsHeader sb) (wb : List UInt8) (archid : UInt32) (fsid : UInt16),
    ∃ record, writebufAddHeader wb header.dico .fsin archid fsid = some (wb ++ record) ∧
      ∀ (mem : Mem) (ai : ArchReader) (rest : List UInt8) (allowseek : Bool),
        ai.filefmtver = 2 → ai.archid = 0 ∨ ai.archid = archid → ai.ahead = record ++ rest →
          ∃ d after, archreaderReadHeader mem ai allowseek = .ok ⟨ai.pos, .fsin, fsid, d⟩ after ∧
            RestoresAttributes sb uuid mem d

/-! ## Texts of numbers and UUIDs -/

/-- Different numbers have different digits. -/
theorem formatNat_injective : Function.Injective formatNat := by
  intro left right same
  have value : ∀ number, digitsValue (formatNat number) = number := fun number => by
    rw [formatNat, digitsValue, foldl_digits _ _ fun digit member => (toNat_of_mem_toDigits member).1,
      Nat.ofDigitChars_ten_toDigits]
  rw [← value left, same, value]

/-- A number that is not negative as `long`. -/
theorem formatLong_of_lt {number : UInt64} (bound : number.toNat < 2 ^ 63) :
    formatLong number = formatNat number.toNat := by
  have same : number.toInt64.toInt = number.toNat :=
    BitVec.toInt_eq_toNat_of_lt (show 2 * number.toNat < 2 ^ 64 by omega)
  rw [formatLong, formatInt, same, if_neg (by omega), Int.natAbs_natCast]

/-- The value of a hexadecimal digit. -/
def hexValue (digit : UInt8) : Nat := if digit < 0x3a then digit.toNat - 0x30 else digit.toNat - 0x57

/-- The bytes that digits stand for. -/
def hexBytes : List UInt8 → List UInt8
  | high :: low :: digits => (16 * hexValue high + hexValue low).toUInt8 :: hexBytes digits
  | _ => []

/-- Each byte has its digits, which stand behind the dash. -/
theorem hexByte_spec (byte : UInt8) :
    (16 * hexValue (hexDigit (byte.toNat / 16)) + hexValue (hexDigit (byte.toNat % 16))).toUInt8 =
        byte ∧ ∀ digit ∈ hexByte byte, 0x2d < digit := by
  have all : ∀ n < 256, (16 * hexValue (hexDigit (n / 16)) + hexValue (hexDigit (n % 16))).toUInt8 =
      n.toUInt8 ∧ 0x2d < hexDigit (n / 16) ∧ 0x2d < hexDigit (n % 16) := by
    decide +kernel
  have here := all byte.toNat byte.toNat_lt
  rw [show byte.toNat.toUInt8 = byte from UInt8.ofNat_toNat] at here
  refine ⟨here.1, ?_⟩
  rw [hexByte, List.forall_mem_cons, List.forall_mem_singleton]
  exact here.2

/-- Digits of bytes stand for the bytes. -/
theorem hexBytes_flatMap (bytes : List UInt8) : hexBytes (bytes.flatMap hexByte) = bytes := by
  induction bytes with
  | nil => rfl
  | cons byte bytes ih =>
    show _ :: hexBytes (bytes.flatMap hexByte) = _
    rw [ih, (hexByte_spec byte).1]

theorem length_flatMap_hexByte (bytes : List UInt8) :
    (bytes.flatMap hexByte).length = 2 * bytes.length := by
  induction bytes with
  | nil => rfl
  | cons byte bytes ih =>
    rw [List.flatMap_cons, List.length_append, ih, List.length_cons]
    show 2 + _ = _
    omega

/-- Without the dashes the text of a UUID has the digits of its bytes. -/
theorem filter_uuidUnparseLower (uuid : Uuid) :
    (uuidUnparseLower uuid).filter (· ≠ 0x2d) = uuid.bytes.flatMap hexByte := by
  have digits : ∀ bytes : List UInt8,
      (bytes.flatMap hexByte).filter (· ≠ 0x2d) = bytes.flatMap hexByte := by
    intro bytes
    refine List.filter_eq_self.mpr fun digit member => ?_
    obtain ⟨byte, _, among⟩ := List.mem_flatMap.mp member
    have above := (hexByte_spec byte).2 digit among
    exact decide_eq_true fun same => absurd (same ▸ above) (by decide)
  have dash : (ascii "-").filter (· ≠ 0x2d) = [] := by decide
  unfold uuidUnparseLower
  simp only [List.filter_append, digits, dash, List.append_nil, ← List.flatMap_append]
  -- the parts in order are all bytes
  have cut : ∀ pos count next : Nat, pos + count = next → (uuid.bytes.drop pos).take count ++
      uuid.bytes.drop next = uuid.bytes.drop pos := by
    rintro pos count _ rfl
    rw [← List.drop_drop, List.take_append_drop]
  simp only [List.append_assoc]
  rw [cut 8 2 10 rfl, cut 6 2 8 rfl, cut 4 2 6 rfl, List.take_append_drop]

/-- Different UUIDs have different texts. -/
theorem uuidUnparseLower_injective : Function.Injective uuidUnparseLower := by
  intro left right same
  have bytes := congrArg (fun text => hexBytes (text.filter (· ≠ 0x2d))) same
  simp only [filter_uuidUnparseLower, hexBytes_flatMap] at bytes
  exact Uuid.ext bytes

/-- The characters of the text of a UUID. -/
theorem dash_le_of_mem_uuid {uuid : Uuid} {c : UInt8} (member : c ∈ uuidUnparseLower uuid) :
    0x2d ≤ c := by
  by_cases dash : c = 0x2d
  · rw [dash]
    exact UInt8.le_refl _
  · have kept : c ∈ (uuidUnparseLower uuid).filter (· ≠ 0x2d) :=
      List.mem_filter.mpr ⟨member, decide_eq_true dash⟩
    rw [filter_uuidUnparseLower] at kept
    obtain ⟨byte, _, among⟩ := List.mem_flatMap.mp kept
    exact UInt8.le_of_lt ((hexByte_spec byte).2 c among)

theorem length_uuidUnparseLower (uuid : Uuid) : (uuidUnparseLower uuid).length = 36 := by
  have dash : (ascii "-").length = 1 := by decide
  have length := uuid.length_eq
  simp only [uuidUnparseLower, List.length_append, length_flatMap_hexByte, List.length_take,
    List.length_drop, dash, length]
  rfl

/-! ## The header -/

section Header

variable {sb : BtrfsSuperBlock}

/-- What `btrfs_getinfo` adds is found in the header. -/
theorem BtrfsHeader.find (header : BtrfsHeader sb) {call : DicoCall} (member : call ∈ btrfsCalls sb) :
    header.dico.find call.sect call.key = some call.item := by
  have first : (btrfsCalls sb).find? (fun other => other.key = call.key ∧ other.sect = call.sect) =
      some call := by
    simp only [btrfsCalls, List.mem_cons, List.not_mem_nil, or_false] at member
    rcases member with rfl | rfl | rfl | rfl | rfl | rfl <;> rfl
  obtain ⟨info, got, built⟩ := Option.map_eq_some_iff.mp header.built
  unfold btrfsGetinfo at got
  dsimp only at got
  split at got
  · obtain rfl := Option.some.inj got
    rw [← built]
    refine find_dicoAddAll_kept (find_dicoAddAll_kept ?_)
    rw [find_dicoAddAll, header.free call member, first]
    rfl
  · cases got

/-- A number of the superblock. -/
theorem BtrfsHeader.number (header : BtrfsHeader sb) (mem : Mem) {key : UInt16} {value : UInt64}
    (member : dicoAddU64 0 key value ∈ btrfsCalls sb) :
    dicoGetU64 mem header.dico 0 key = some value :=
  dicoGetU64_of_find (header.find member)
    (show sizedData (leBytes 8 value.toNat) = _ from sizedData_of_lt (by simp))

/-- A string of the superblock. -/
theorem BtrfsHeader.string (header : BtrfsHeader sb) {key : UInt16} {text : List UInt8}
    (member : dicoAddString 0 key text ∈ btrfsCalls sb) (clean : 0 ∉ text)
    (short : text.length < 2048) : fsysString header.dico key = some text := by
  have length : (text ++ [0]).length ≤ 2048 := by
    rw [List.length_append]
    exact short
  have data : (dicoAddString 0 key text).item.data = text ++ [0] :=
    sizedData_of_lt (show (text ++ [0]).length < 65536 by omega)
  have item : header.dico.find 0 key = some (dicoAddString 0 key text).item := header.find member
  have found : dicoGetString header.dico 0 key 2048 = some (text ++ [0]) := by
    rw [dicoGetString, dicoGetData, dicoGetGeneric_of_find item (by decide) (by rwa [data]), data]
  rw [fsysString, found, Option.map_some, stringBuffer, List.append_assoc]
  exact congrArg some (cString_buffer clean _)

end Header

/-! ## The command -/

/-- The options for what is behind the label. -/
def attributeOptions (sb : BtrfsSuperBlock) (sys : BtrfsSystem) : List UInt8 :=
  ascii " -U '" ++ uuidUnparseLower sb.devItemFsid ++ ascii "' " ++
    (if requestedFeatures sb sys = [] then []
      else ascii " -O '" ++ (requestedFeatures sb sys).flatMap (· ++ ascii ",") ++ ascii "' ") ++
    (ascii " -s " ++ formatNat sb.sectorsize.toUInt16.toNat ++ ascii " ")

/-- The list of features is made of those requested; no quote is in it. -/
theorem btrfsFeatures_eq (sb : BtrfsSuperBlock) (sys : BtrfsSystem) :
    btrfsFeatures sys sb.incompatFlags = (requestedFeatures sb sys).flatMap (· ++ ascii ",") ∧
      (btrfsFeatures sys sb.incompatFlags = [] ↔ requestedFeatures sb sys = []) ∧
      quote ∉ btrfsFeatures sys sb.incompatFlags ∧
      (btrfsFeatures sys sb.incompatFlags).length ≤ 15 := by
  unfold btrfsFeatures requestedFeatures
  generalize decide (sys.btrfstoolver ≥ progver 5 12 0) = knowsZoned
  generalize decide (sys.btrfstoolver ≥ progver 6 7 0) = knowsSquota
  generalize decide (sb.incompatFlags &&& zoned ≠ 0) = isZoned
  generalize decide (sb.incompatFlags &&& simpleQuota ≠ 0) = hasSquota
  revert knowsZoned knowsSquota isZoned hasSquota
  decide +kernel

section Command

variable {sb : BtrfsSuperBlock}

/-- What `btrfs_mkfs` plans with the header. -/
theorem btrfsPlan_header (accepted : btrfsCheckCompatibility sb.compatFlags sb.incompatFlags
    sb.compatRoFlags = true) (header : BtrfsHeader sb) (mem : Mem) {sys : BtrfsSystem}
    (partition fsoptions : List UInt8) (installed : sys.installed = true)
    (parsed : ¬(sys.x = 0 ∧ sys.y = 0)) :
    ∃ plan, btrfsPlan mem sys header.dico partition fsoptions [] = some plan ∧
      plan.program = ascii "mkfs.btrfs -f " ∧ plan.before = [] ∧ plan.cut = id ∧
      plan.behind = attributeOptions sb sys ++ (ascii " " ++ fsoptions ++ ascii "  " ++ partition) := by
  have uuid : fsysString header.dico FsysHeadKey.fsuuid = some (uuidUnparseLower sb.devItemFsid) := by
    refine header.string (by simp [btrfsCalls]) (fun member => ?_) ?_
    · exact absurd (dash_le_of_mem_uuid member) (by decide)
    · rw [length_uuidUnparseLower]
      decide
  have size : dicoGetU64 mem header.dico 0 FsysHeadKey.fsbtrfssectorsize =
      some sb.sectorsize.toUInt16.toUInt64 := header.number mem (by simp [btrfsCalls])
  have compat : dicoGetU64 mem header.dico 0 FsysHeadKey.btrfsfeaturecompat =
      some sb.compatFlags := header.number mem (by simp [btrfsCalls])
  have incompat : dicoGetU64 mem header.dico 0 FsysHeadKey.btrfsfeatureincompat =
      some sb.incompatFlags := header.number mem (by simp [btrfsCalls])
  have roCompat : dicoGetU64 mem header.dico 0 FsysHeadKey.btrfsfeaturerocompat =
      some sb.compatRoFlags := header.number mem (by simp [btrfsCalls])
  have flags : btrfsStoredFlags mem header.dico =
      (sb.compatFlags, sb.incompatFlags, sb.compatRoFlags) := by
    rw [btrfsStoredFlags, compat, incompat, roCompat]
  have number : formatLong sb.sectorsize.toUInt16.toUInt64 =
      formatNat sb.sectorsize.toUInt16.toNat := by
    refine formatLong_of_lt ?_
    have bound := sb.sectorsize.toUInt16.toNat_lt
    rw [UInt16.toNat_toUInt64]
    omega
  obtain ⟨features, empty, -, -⟩ := btrfsFeatures_eq sb sys
  unfold btrfsPlan
  rw [flags, installed, size, btrfsUuidOption, uuid]
  dsimp only
  rw [if_neg (by decide), if_neg parsed, accepted, if_neg (by decide)]
  refine ⟨_, rfl, rfl, rfl, rfl, ?_⟩
  unfold MkfsPlan.behind attributeOptions
  dsimp only
  rw [if_neg (by decide), number]
  simp only [ne_eq, empty, ite_not]
  rw [features]
  have spaces : ascii "  " = ascii " " ++ ascii " " := by decide
  split
  · simp [spaces]
  · simp [spaces]

/-- What is behind the label is read as the arguments for it. -/
theorem reads_attributeOptions (sb : BtrfsSuperBlock) (sys : BtrfsSystem) :
    ReadsWords (attributeOptions sb sys) ([ascii "-U", uuidUnparseLower sb.devItemFsid] ++
      (if requestedFeatures sb sys = [] then []
        else [ascii "-O", (requestedFeatures sb sys).flatMap (· ++ ascii ",")]) ++
      [ascii "-s", formatNat sb.sectorsize.toUInt16.toNat]) := by
  have closing : ascii "' " = [quote, space] := by decide
  have uuid : ReadsWords (ascii " -U '" ++ uuidUnparseLower sb.devItemFsid ++ ascii "' ")
      [ascii "-U", uuidUnparseLower sb.devItemFsid] := by
    have opening : ascii " -U '" = [space] ++ (ascii "-U" ++ [space]) ++ [quote] := by decide
    have free : quote ∉ uuidUnparseLower sb.devItemFsid := fun member =>
      absurd (dash_le_of_mem_uuid member) (by decide)
    have name : PlainWord (ascii "-U") := by decide
    have reads := reads_quotedOption name free
    rw [opening, closing]
    simpa only [List.append_assoc] using reads
  have features : ReadsWords (if requestedFeatures sb sys = [] then []
        else ascii " -O '" ++ (requestedFeatures sb sys).flatMap (· ++ ascii ",") ++ ascii "' ")
      (if requestedFeatures sb sys = [] then []
        else [ascii "-O", (requestedFeatures sb sys).flatMap (· ++ ascii ",")]) := by
    split
    · exact fun _ _ => rfl
    · have opening : ascii " -O '" = [space] ++ (ascii "-O" ++ [space]) ++ [quote] := by decide
      obtain ⟨same, _, free, _⟩ := btrfsFeatures_eq sb sys
      have name : PlainWord (ascii "-O") := by decide
      have reads := reads_quotedOption name (same ▸ free)
      rw [opening, closing]
      simpa only [List.append_assoc] using reads
  have size : ReadsWords (ascii " -s " ++ formatNat sb.sectorsize.toUInt16.toNat ++ ascii " ")
      [ascii "-s", formatNat sb.sectorsize.toUInt16.toNat] := by
    have opening : ascii " -s " = [space] ++ (ascii "-s" ++ [space]) := by decide
    have name : PlainWord (ascii "-s") := by decide
    have reads := (reads_flag name).append
      (reads_plain (formatNat_plain sb.sectorsize.toUInt16.toNat))
    rw [opening, List.append_assoc]
    exact reads
  exact (uuid.append features).append size

/-- The command up to the sector size. -/
def attributesText (sb : BtrfsSuperBlock) (sys : BtrfsSystem) : List UInt8 :=
  ascii "mkfs.btrfs -f " ++
    (if sb.label = [] then [] else ascii " -L '" ++ sb.label ++ ascii "' ") ++
    attributeOptions sb sys

/-- The buffers have room for it. -/
theorem length_attributesText (sb : BtrfsSuperBlock) (sys : BtrfsSystem) :
    (attributesText sb sys).length + 4 < optionsSize := by
  have label : (if sb.label = [] then [] else ascii " -L '" ++ sb.label ++ ascii "' ").length <
      263 := by
    have short := sb.label_short
    have quotes : (ascii " -L '").length = 5 ∧ (ascii "' ").length = 2 := by decide
    split
    · decide
    · rw [List.length_append, List.length_append]
      omega
  have features : (if requestedFeatures sb sys = [] then []
      else ascii " -O '" ++ (requestedFeatures sb sys).flatMap (· ++ ascii ",") ++
        ascii "' ").length < 23 := by
    obtain ⟨same, _, _, short⟩ := btrfsFeatures_eq sb sys
    have quotes : (ascii " -O '").length = 5 ∧ (ascii "' ").length = 2 := by decide
    split
    · decide
    · rw [← same, List.length_append, List.length_append]
      omega
  have size : (formatNat sb.sectorsize.toUInt16.toNat).length ≤ 5 := by
    have bound := sb.sectorsize.toUInt16.toNat_lt
    rw [formatNat, List.length_map]
    exact (Nat.length_toDigits_le_iff (by decide) (by decide)).mpr (by omega)
  have others : (ascii "mkfs.btrfs -f ").length = 14 ∧ (ascii " -U '").length = 5 ∧
      (ascii "' ").length = 2 ∧ (ascii " -s ").length = 4 ∧ (ascii " ").length = 1 := by decide
  have uuid := length_uuidUnparseLower sb.devItemFsid
  have limit : optionsSize = 2048 := rfl
  unfold attributesText attributeOptions
  simp only [List.length_append] at label features ⊢
  omega

/-- The program and its first option. -/
theorem reads_program :
    ReadsWords (ascii "mkfs.btrfs -f ") [ascii "mkfs.btrfs", ascii "-f"] := by
  have name : PlainWord (ascii "mkfs.btrfs") := by decide
  exact reads_forced name

/-- It is read as the arguments for the attributes, if there is no quote in the label. -/
theorem reads_attributesText (sys : BtrfsSystem) (free : quote ∉ sb.label) :
    ReadsWords (attributesText sb sys) (attributeWords sb.label sb.devItemFsid
      (requestedFeatures sb sys) sb.sectorsize.toUInt16.toNat) := by
  have label : ReadsWords (if sb.label = [] then [] else ascii " -L '" ++ sb.label ++ ascii "' ")
      (if sb.label = [] then [] else [ascii "-L", sb.label]) := by
    split
    · exact fun _ _ => rfl
    · have opening : ascii " -L '" = [space] ++ (ascii "-L" ++ [space]) ++ [quote] := by decide
      have closing : ascii "' " = [quote, space] := by decide
      have name : PlainWord (ascii "-L") := by decide
      have reads := reads_quotedOption name free
      rw [opening, closing]
      simpa only [List.append_assoc] using reads
  have reads := (reads_program.append label).append (reads_attributeOptions sb sys)
  unfold attributesText attributeWords
  simpa only [List.append_assoc] using reads

/-- What `btrfs_mkfs` runs with the header: the beginning of this text. -/
theorem btrfsMkfs_header (accepted : btrfsCheckCompatibility sb.compatFlags sb.incompatFlags
    sb.compatRoFlags = true) (header : BtrfsHeader sb) (mem : Mem) {sys : BtrfsSystem}
    (partition fsoptions : List UInt8) (installed : sys.installed = true)
    (parsed : ¬(sys.x = 0 ∧ sys.y = 0)) :
    btrfsMkfs mem sys header.dico partition fsoptions [] [] = some ((attributesText sb sys ++
      (ascii " " ++ fsoptions ++ ascii "  " ++ partition)).take (optionsSize - 1)) := by
  obtain ⟨plan, planned, program, before, cut, behind⟩ :=
    btrfsPlan_header accepted header mem partition fsoptions installed parsed
  have label : usedLabel header.dico [] = sb.label := by
    have short := sb.label_short
    have found : fsysString header.dico FsysHeadKey.fslabel = some sb.label :=
      header.string (by simp [btrfsCalls]) sb.label_clean (by omega)
    rw [usedLabel, if_neg (by decide), found, Option.getD_some]
  have option : (plan.labelOption sb.label).flatten =
      if sb.label = [] then [] else ascii " -L '" ++ sb.label ++ ascii "' " := by
    rw [MkfsPlan.labelOption, cut]
    split
    · rfl
    · rw [List.flatten_singleton, id_eq]
  rw [btrfsMkfs, planned, Option.map_some, label, MkfsPlan.command_eq, MkfsPlan.text_eq, program,
    before, behind, option, attributesText]
  simp only [List.flatten_nil, List.append_nil, List.append_assoc]

/-! ## What is requested -/

/-- What follows a text that is read is the rest of the command. -/
theorem requests_of_reads {front rest : List UInt8} {requested : List Word}
    (reads : ReadsWords front requested) (short : front.length < optionsSize) :
    Requests requested rest ((front ++ rest).take (optionsSize - 1)) := by
  have cut : (front ++ rest).take (optionsSize - 1) =
      front ++ rest.take (optionsSize - 1 - front.length) := by
    rw [List.take_append, List.take_of_length_le (by omega)]
  rw [cut]
  refine ⟨rest.take (optionsSize - 1 - front.length), List.take_prefix _ _, fun fits => ?_, ?_⟩
  · rw [List.length_append, List.length_take] at fits
    exact List.take_of_length_le (by omega)
  · intro shell words done few
    have whole : wordexp shell (front ++ rest.take (optionsSize - 1 - front.length)) =
        some (Words.append ⟨requested, []⟩ words) := by
      rw [reads.wordexp, done, Option.map_some]
    unfold execArgv
    rw [whole]
    exact if_pos (by rwa [Words.words_append, List.length_append])

/-- The attributes are requested if none of them is lost. -/
theorem restoresAttributes_of (accepted : btrfsCheckCompatibility sb.compatFlags sb.incompatFlags
    sb.compatRoFlags = true) (header : BtrfsHeader sb) (mem : Mem)
    (size : sb.sectorsize.toNat < 65536) (free : quote ∉ sb.label) :
    RestoresAttributes sb sb.devItemFsid mem header.dico := by
  intro sys partition fsoptions installed parsed
  refine ⟨_, btrfsMkfs_header accepted header mem partition fsoptions installed parsed, ?_⟩
  have number : sb.sectorsize.toUInt16.toNat = sb.sectorsize.toNat := by
    rw [UInt32.toNat_toUInt16]
    exact Nat.mod_eq_of_lt size
  have reads := reads_attributesText sys free
  rw [number] at reads
  have short := length_attributesText sb sys
  exact requests_of_reads reads (by omega)

/-- A dico with few items can be written. -/
theorem Dico.fits_of_few {d : Dico} (few : d.items.length ≤ 65000) : d.Fits := by
  have items : ∀ items : List DicoItem, (items.flatMap DicoItem.encode).length ≤
      65541 * items.length := by
    intro items
    induction items with
    | nil => exact Nat.le_refl _
    | cons item items ih =>
      have size := item.size_lt
      rw [List.flatMap_cons, List.length_append, length_encodeItem, List.length_cons]
      omega
  have all := items d.items
  constructor
  · omega
  · rw [Dico.encode, List.length_append, length_leBytes]
    omega

/-- What is in a header with nothing else. -/
def headerCalls (sb : BtrfsSuperBlock) : List DicoCall :=
  btrfsCalls sb ++ [dicoAddU64 0 FsysHeadKey.minfsaversion (fsaVersionBuild 0 6 4 0)]

theorem items_headerCalls (sb : BtrfsSuperBlock) :
    (dicoAddAll Dico.alloc (headerCalls sb)).items = (headerCalls sb).map DicoCall.item := by
  have distinct : ([(0, 5), (0, 6), (0, 18), (0, 21), (0, 22), (0, 23), (0, 25)] :
      List (UInt8 × UInt16)).Nodup := by decide
  exact items_dicoAddAll distinct

/-- A header with nothing else in it. -/
def plainHeader (sb : BtrfsSuperBlock) (accepted : btrfsCheckCompatibility sb.compatFlags
    sb.incompatFlags sb.compatRoFlags = true) : BtrfsHeader sb where
  before := Dico.alloc
  free _ _ := rfl
  later := []
  dico := dicoAddAll Dico.alloc (headerCalls sb)
  built := by
    have together : dicoAddAll Dico.alloc (headerCalls sb) = dicoAddAll (dicoAddAll Dico.alloc
        (btrfsCalls sb)) [dicoAddU64 0 FsysHeadKey.minfsaversion (fsaVersionBuild 0 6 4 0)] :=
      List.foldl_append ..
    rw [btrfsGetinfo, if_pos accepted, together, Option.map_some]
    exact congrArg some (List.foldl_nil ..)
  fits := by
    refine Dico.fits_of_few ?_
    rw [items_headerCalls, List.length_map]
    exact (by decide : 7 ≤ 65000)

/-- A shell that expands nothing finds no word in the end of the command without other options. -/
theorem wordexp_spaces {tail : List UInt8} (front : tail <+: ascii " " ++ [] ++ ascii "  " ++ []) :
    wordexp silentShell tail = some .nothing := by
  have all : ∀ tail ∈ (ascii "   ").inits, wordexp silentShell tail = some .nothing := by decide
  exact all tail ((List.mem_inits _ _).mpr front)

theorem length_attributeWords (label : List UInt8) (uuid : Uuid) (features : List (List UInt8))
    (sectorsize : Nat) : (attributeWords label uuid features sectorsize).length ≤ 10 := by
  unfold attributeWords
  split <;> split <;> simp

/-- The arguments tell UUIDs and sector sizes apart. -/
theorem attributeWords_inj {label : List UInt8} {uuid uuid' : Uuid} {features : List (List UInt8)}
    {sectorsize sectorsize' : Nat} (same : attributeWords label uuid features sectorsize =
      attributeWords label uuid' features sectorsize') : uuid = uuid' ∧ sectorsize = sectorsize' := by
  unfold attributeWords at same
  simp only [List.append_assoc, List.append_cancel_left_eq, List.cons_append, List.nil_append,
    List.cons.injEq, true_and, and_true] at same
  exact ⟨uuidUnparseLower_injective same.1, formatNat_injective same.2⟩

/-- A program that is run is run with the words of the command. -/
theorem wordexp_of_execArgv {shell : Shell} {command : List UInt8} {words : Words}
    (run : execArgv shell command = some words) : wordexp shell command = some words := by
  unfold execArgv at run
  cases expanded : wordexp shell command with
  | none =>
    rw [expanded] at run
    cases run
  | some found =>
    rw [expanded] at run
    dsimp only at run
    split at run
    · exact run
    · cases run

/-- A label with a quote is not among the arguments. -/
theorem free_of_attributeWords {uuid : Uuid} {features : List (List UInt8)} {sectorsize : Nat}
    (sys : BtrfsSystem) (rest : List UInt8)
    (done : wordexp silentShell (attributesText sb sys ++ rest) =
      some ⟨attributeWords sb.label uuid features sectorsize, []⟩) : quote ∉ sb.label := by
  intro has
  have given : sb.label ≠ [] := List.ne_nil_of_mem has
  have text : attributesText sb sys ++ rest =
      (ascii "mkfs.btrfs -f " ++ ([space] ++ (ascii "-L" ++ [space]))) ++
        ([quote] ++ sb.label ++ [quote, space] ++ (attributeOptions sb sys ++ rest)) := by
    have opening : ascii " -L '" = [space] ++ (ascii "-L" ++ [space]) ++ [quote] := by decide
    have closing : ascii "' " = [quote, space] := by decide
    rw [attributesText, if_neg given, opening, closing]
    simp only [List.append_assoc]
  have name : PlainWord (ascii "-L") := by decide
  have reads := reads_program.append (reads_flag name)
  rw [text, reads.wordexp] at done
  obtain ⟨result, quoted, same⟩ := Option.map_eq_some_iff.mp done
  have differs := head_ne_of_quote (fun _ _ => rfl) has (fun _ _ _ => rfl) quoted
  have words := congrArg Words.words same
  unfold attributeWords at words
  rw [if_neg given] at words
  simp only [Words.append, List.cons_append, List.nil_append, List.cons.injEq, true_and] at words
  rw [words] at differs
  exact differs rfl

/-- Attributes that are requested have not been lost. -/
theorem kept_of_requests {uuid : Uuid} (sys : BtrfsSystem)
    (requests : Requests (attributeWords sb.label uuid (requestedFeatures sb sys)
      sb.sectorsize.toNat) (ascii " " ++ [] ++ ascii "  " ++ [])
      ((attributesText sb sys ++ (ascii " " ++ [] ++ ascii "  " ++ [])).take (optionsSize - 1))) :
    sb.sectorsize.toNat < 65536 ∧ sb.devItemFsid = uuid ∧ quote ∉ sb.label := by
  obtain ⟨tail, front, -, argv⟩ := requests
  have few := length_attributeWords sb.label uuid (requestedFeatures sb sys) sb.sectorsize.toNat
  have room : (attributesText sb sys ++ (ascii " " ++ [] ++ ascii "  " ++ [])).length ≤
      optionsSize - 1 := by
    have short := length_attributesText sb sys
    have spaces : (ascii " " ++ [] ++ ascii "  " ++ []).length = 3 := by decide
    rw [List.length_append, spaces]
    omega
  have run := wordexp_of_execArgv (argv silentShell .nothing (wordexp_spaces front)
    (Nat.lt_of_le_of_lt few (by decide)))
  rw [List.take_of_length_le room] at run
  have done := run.trans (congrArg (fun words => some (Words.mk words [])) (List.append_nil _))
  have free := free_of_attributeWords sys _ done
  rw [(reads_attributesText sys free).wordexp, wordexp_spaces List.prefix_rfl, Option.map_some,
    Words.append_nothing] at done
  obtain ⟨uuids, sizes⟩ := attributeWords_inj (congrArg Words.words (Option.some.inj done))
  refine ⟨?_, uuids, free⟩
  rw [← sizes]
  exact sb.sectorsize.toUInt16.toNat_lt

end Command

/-! ## Every archive -/

/-- btrfs-progs 6.7. -/
def btrfsProgs : BtrfsSystem where
  installed := true
  x := 6
  y := 7
  z := 0

/-- A reader in front of a record. -/
def readerAt (record : List UInt8) : ArchReader where
  file := record
  pos := 0
  archid := 0
  curvol := 0
  filefmtver := 2
  filefmt := []
  creatver := []

/-- Attributes that survive have not been lost. -/
theorem kept_of_survive {sb : BtrfsSuperBlock} {uuid : Uuid} (accepted : btrfsCheckCompatibility
    sb.compatFlags sb.incompatFlags sb.compatRoFlags = true)
    (survive : AttributesSurvive sb uuid) :
    sb.sectorsize.toNat < 65536 ∧ sb.devItemFsid = uuid ∧ quote ∉ sb.label := by
  obtain ⟨header⟩ : Nonempty (BtrfsHeader sb) := ⟨plainHeader sb accepted⟩
  obtain ⟨record, written, reads⟩ := survive header [] 0 0
  obtain rfl : headerBytes .fsin 0 0 header.dico = record := by
    rw [writebufAddHeader_eq [] header.fits] at written
    exact Option.some.inj written
  have mem : Mem := ⟨fun _ => 0, fun _ => 0⟩
  have ahead : (readerAt (headerBytes .fsin 0 0 header.dico)).ahead =
      headerBytes .fsin 0 0 header.dico ++ [] := (List.append_nil _).symm
  obtain ⟨d, after, read, restores⟩ := reads mem (readerAt _) [] true rfl (.inl rfl) ahead
  rw [archreaderReadHeader_of_ahead mem true rfl (.inl rfl) header.fits ahead] at read
  obtain rfl : header.dico = d := by
    cases read
    rfl
  obtain ⟨command, run, requests⟩ := restores btrfsProgs [] [] rfl (by decide)
  rw [btrfsMkfs_header accepted header mem [] [] rfl (by decide)] at run
  obtain rfl := Option.some.inj run
  exact kept_of_requests btrfsProgs requests

/-- For every superblock with features that `btrfs_getinfo` accepts, the attributes with this UUID
are requested after every archive exactly if the sector size has 16 bits, the UUID is the one in
`dev_item`, and there is no single quote in the label. -/
theorem btrfs_attributes_survive_iff (sb : BtrfsSuperBlock) (uuid : Uuid)
    (accepted : btrfsCheckCompatibility sb.compatFlags sb.incompatFlags sb.compatRoFlags = true) :
    AttributesSurvive sb uuid ↔
      sb.sectorsize.toNat < 65536 ∧ sb.devItemFsid = uuid ∧ quote ∉ sb.label := by
  refine ⟨kept_of_survive accepted, ?_⟩
  rintro ⟨size, rfl, free⟩ header wb archid fsid
  refine ⟨_, writebufAddHeader_eq wb header.fits .fsin archid fsid, ?_⟩
  intro mem ai rest allowseek version known here
  exact ⟨_, _, archreaderReadHeader_of_ahead mem allowseek version known header.fits here,
    restoresAttributes_of accepted header mem size free⟩

/-- A filesystem with sectors of this size. -/
def sectorsOf (sectorsize : UInt32) : BtrfsSuperBlock where
  devItemFsid := ⟨List.replicate 16 0x5a, rfl⟩
  label := ascii "data"
  label_clean := by decide
  label_short := by decide
  sectorsize := sectorsize
  compatFlags := 0
  incompatFlags := zoned
  compatRoFlags := 0

/-- Sectors of 4 KiB. -/
theorem btrfs_attributes_survive_small :
    AttributesSurvive (sectorsOf 4096) (sectorsOf 4096).devItemFsid :=
  (btrfs_attributes_survive_iff (sectorsOf 4096) (sectorsOf 4096).devItemFsid (by decide)).mpr
    ⟨by decide, rfl, by decide⟩

/-- Sectors of 64 KiB, whose size is stored as 0. -/
theorem btrfs_sectors_lost :
    ¬AttributesSurvive (sectorsOf 65536) (sectorsOf 65536).devItemFsid := by
  intro survive
  exact absurd (kept_of_survive (by decide) survive).1 (by decide)

end FsArchiver
