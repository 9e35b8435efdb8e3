import FsArchiver.BtrfsAttributes
import FsArchiver.FilesystemHeaders

/-!
# XFS attributes of a partition that was saved

The header that `oper_save` writes of a mounted XFS filesystem makes `xfs_mkfs` ask for it again: its
label, its UUID, the size of its blocks, its version and those features that the version of `mkfs.xfs`
knows. A filesystem of version 5 is made as version 4, without features, where its UUID could not be
set otherwise; there `xfs_admin` sets it.
-/
namespace FsArchiver

open Lib Shell XfsFeature

/-! ## What is to be requested -/

/-- An option with a number for one that is on or off, if the version knows it. -/
def switchWords (known : Bool) (flag name : String) (set : Bool) : List Word :=
  if known then [ascii flag, ascii name ++ (if set then ascii "1" else ascii "0")] else []

namespace XfsSuperBlock

/-- What is used of the label. -/
def label (sb : XfsSuperBlock) : List UInt8 := (cString sb.fname).take 12

/-- The filesystem is made as version 5. -/
def v5 (sb : XfsSuperBlock) (sys : XfsSystem) : Bool :=
  sb.xfsver = 5 ∧ sys.xfstoolsver ≥ progver 4 3 0

/-- It is made with a feature. -/
def keeps (sb : XfsSuperBlock) (sys : XfsSystem) (mask : UInt32) (feature : UInt64) : Bool :=
  sb.v5 sys ∧ mask.toUInt64 &&& feature ≠ 0

/-- The arguments for version and features. -/
def featureWords (sb : XfsSuperBlock) (sys : XfsSystem) : List Word :=
  let since (x y z : UInt64) : Bool := sys.xfstoolsver ≥ progver x y z
  let roCompat := sb.keeps sys sb.featuresRoCompat
  let incompat := sb.keeps sys sb.featuresIncompat
  switchWords (since 3 2 0) "-m" "crc=" (sb.v5 sys) ++
  switchWords (since 3 2 1) "-m" "finobt=" (roCompat finobt) ++
  switchWords (since 4 8 0) "-m" "rmapbt=" (roCompat rmapbt) ++
  switchWords (since 4 9 0) "-m" "reflink=" (roCompat reflink) ++
  switchWords (since 5 10 0) "-m" "inobtcount=" (roCompat inobtcnt) ++
  switchWords (since 5 10 0) "-m" "bigtime=" (incompat bigtime) ++
  (if since 4 3 0 then [ascii "-m", ascii "uuid=" ++ uuidUnparseLower sb.uuid] else []) ++
  (if since 3 2 0 && !sb.v5 sys then [ascii "-n", ascii "ftype=0"] else []) ++
  switchWords (since 4 2 0 && !sys.rhel7) "-i" "sparse=" (incompat spinodes) ++
  switchWords (since 5 19 0) "-i" "nrext64=" (incompat nrext64) ++
  switchWords (since 6 10 0) "-i" "exchange=" (incompat exchrange) ++
  switchWords (since 6 10 0) "-n" "parent=" (incompat parent) ++
  switchWords (since 6 13 0) "-m" "metadir=" (incompat metadir) ++
  switchWords (since 6 15 0) "-r" "zoned=" (incompat zoned)

/-- All arguments up to the options of the command line. -/
def requested (sb : XfsSuperBlock) (sys : XfsSystem) : List Word :=
  [ascii "mkfs.xfs", ascii "-f"] ++ (if cString sb.fname = [] then [] else [ascii "-L", sb.label]) ++
    [ascii "-b", ascii "size=" ++ formatNat sb.blocksize.toNat] ++ sb.featureWords sys

/-- The arguments of the commands, each with the text behind them. -/
def commands (sb : XfsSuperBlock) (sys : XfsSystem) (partition fsoptions : List UInt8) :
    List (List Word × List UInt8) :=
  (sb.requested sys, ascii " " ++ fsoptions ++ ascii "  " ++ partition) ::
    if sys.xfstoolsver < progver 4 3 0 then
      [([ascii "xfs_admin", ascii "-U", uuidUnparseLower sb.uuid], ascii " " ++ partition)]
    else []

/-- These commands are run, up to the first that fails. -/
def AskedForBy (sb : XfsSuperBlock) (sys : XfsSystem) (partition fsoptions : List UInt8)
    (run : (List UInt8 → Bool) → List (List UInt8) × Bool) : Prop :=
  ∃ texts, (∀ exec, run exec = execCommands exec texts) ∧
    List.Forall₂ (fun command => Requests command.1 command.2)
      (sb.commands sys partition fsoptions) texts

end XfsSuperBlock

/-! ## Options as words -/

/-- Words of such characters make one. -/
theorem plainWord_append {left right : Word} (plain : PlainWord left) (plain' : PlainWord right) :
    PlainWord (left ++ right) := by
  constructor
  · intro none
    exact plain.1 (List.append_eq_nil_iff.mp none).1
  · intro c member
    rcases List.mem_append.mp member with front | back
    · exact plain.2 c front
    · exact plain'.2 c back

/-- The text of a UUID is a plain word. -/
theorem uuidUnparseLower_plain (uuid : Uuid) : PlainWord (uuidUnparseLower uuid) := by
  have digits : ∀ n < 16, PlainChar (hexDigit n) := by decide
  constructor
  · intro none
    have length := length_uuidUnparseLower uuid
    rw [none] at length
    cases length
  · intro c member
    by_cases dash : c = 0x2d
    · rw [dash]
      decide
    · have kept : c ∈ (uuidUnparseLower uuid).filter (· ≠ 0x2d) :=
        List.mem_filter.mpr ⟨member, decide_eq_true dash⟩
      rw [filter_uuidUnparseLower] at kept
      obtain ⟨byte, _, among⟩ := List.mem_flatMap.mp kept
      have bound := byte.toNat_lt
      rw [hexByte, List.mem_pair] at among
      rcases among with rfl | rfl
      · apply digits
        omega
      · apply digits
        omega

/-- Options that are read as words, with a bound for the characters that they take. -/
structure OptionsRead (texts : List (List UInt8)) (words : List Word) (size : Nat) : Prop where
  reads : ReadsWords texts.flatten words
  short : texts.flatten.length ≤ size

namespace OptionsRead

theorem none (size : Nat) : OptionsRead [] [] size := ⟨fun _ _ => rfl, Nat.zero_le _⟩

/-- One after the other. -/
theorem append {texts texts' : List (List UInt8)} {words words' : List Word} {size size' : Nat}
    (front : OptionsRead texts words size) (back : OptionsRead texts' words' size') :
    OptionsRead (texts ++ texts') (words ++ words') (size + size') := by
  constructor
  · rw [List.flatten_append]
    exact front.reads.append back.reads
  · have bound := front.short
    have bound' := back.short
    rw [List.flatten_append, List.length_append]
    omega

/-- An option and its value. -/
theorem value {opening flag word : Word} {size : Nat} (shape : opening = [space] ++ (flag ++ [space]))
    (plainFlag : PlainWord flag) (plain : PlainWord word)
    (short : opening.length + word.length < size) :
    OptionsRead [opening ++ word ++ ascii " "] [flag, word] size := by
  have one : (ascii " ").length = 1 := by decide
  constructor
  · rw [List.flatten_singleton, shape, List.append_assoc]
    exact (reads_flag plainFlag).append (reads_plain plain)
  · rw [List.flatten_singleton, List.length_append, List.length_append, one]
    omega

/-- An option that is on or off. -/
theorem switch {text flag name : String} {opening : Word} (shape : ascii text = opening ++ ascii name)
    (spaces : opening = [space] ++ (ascii flag ++ [space])) (plainFlag : PlainWord (ascii flag))
    (plain : PlainWord (ascii name)) (short : (ascii text).length < 18) (known set : Bool) :
    OptionsRead (xfsOption known text set) (switchWords known flag name set) 20 := by
  cases known with
  | false => exact none 20
  | true =>
    have digit : PlainWord (if set then ascii "1" else ascii "0") := by
      cases set <;> decide
    have one : (if set then ascii "1" else ascii "0").length = 1 := by
      cases set <;> decide
    have number : formatInt (if set then 1 else 0) = if set then ascii "1" else ascii "0" := by
      cases set <;> decide
    have size : opening.length + (ascii name ++ if set then ascii "1" else ascii "0").length < 20 := by
      rw [shape, List.length_append] at short
      rw [List.length_append, one]
      omega
    have read := value spaces plainFlag (plainWord_append plain digit) size
    simp only [xfsOption, switchWords, ↓reduceIte, shape, number]
    simpa only [List.append_assoc] using read

end OptionsRead

/-! ## The header -/

section Header

variable {sb : XfsSuperBlock} {sys : XfsSystem} {mem : Mem} {d : Dico}

/-- The header of a superblock that is known has what `xfs_getinfo` adds. -/
structure XfsHeader (sb : XfsSuperBlock) (d : Dico) : Prop where
  valid : sb.Valid
  has : ∃ calls, d.items = calls.map DicoCall.item ∧ xfsCalls sb ⊆ calls

/-- A number of the superblock. -/
theorem XfsHeader.number (header : XfsHeader sb d) (mem : Mem) {key : UInt16} {value : UInt64}
    (member : dicoAddU64 0 key value ∈ xfsCalls sb) : dicoGetU64 mem d 0 key = some value := by
  obtain ⟨calls, same, among⟩ := header.has
  exact dicoGetU64_of_call same (among member)

/-- A string of the superblock. -/
theorem XfsHeader.string (header : XfsHeader sb d) {key : UInt16} {text : List UInt8}
    (member : dicoAddString 0 key text ∈ xfsCalls sb) (clean : 0 ∉ text)
    (short : text.length < 2048) : fsysString d key = some text := by
  obtain ⟨calls, same, among⟩ := header.has
  have length : (text ++ [0]).length ≤ 2048 := by
    rw [List.length_append]
    exact short
  have found : dicoGetString d 0 key 2048 = some (text ++ [0]) := by
    apply dicoGetData_of_call (dicoAddString 0 key text) same (among member)
    · exact Nat.lt_of_le_of_lt length (by decide)
    · decide
    · exact length
  rw [fsysString, found, Option.map_some, stringBuffer, List.append_assoc]
  exact congrArg some (cString_buffer clean _)

theorem XfsHeader.uuid (header : XfsHeader sb d) :
    usedUuid d [] = uuidUnparseLower sb.uuid := by
  have length := length_uuidUnparseLower sb.uuid
  have clean : 0 ∉ uuidUnparseLower sb.uuid := by
    intro member
    exact absurd (dash_le_of_mem_uuid member) (by decide)
  have found : fsysString d FsysHeadKey.fsuuid = some (uuidUnparseLower sb.uuid) :=
    header.string (by simp [xfsCalls]) clean (by omega)
  rw [usedUuid, if_neg (not_not.mpr rfl), found, Option.getD_some, snprintfText,
    List.take_of_length_le (by omega)]

theorem XfsHeader.label (header : XfsHeader sb d) (short : (cString sb.fname).length < 2048) :
    usedLabel d [] = cString sb.fname := by
  have clean : 0 ∉ cString sb.fname := by
    intro member
    simpa using List.mem_takeWhile_imp member
  have found : fsysString d FsysHeadKey.fslabel = some (cString sb.fname) :=
    header.string (by simp [xfsCalls]) clean short
  rw [usedLabel, if_neg (not_not.mpr rfl), found, Option.getD_some]

/-- The version is 4 or 5. -/
theorem XfsHeader.version (header : XfsHeader sb d) (mem : Mem) (sys : XfsSystem) :
    decide (xfsVersion mem sys d = .v5) = sb.v5 sys := by
  have stored : dicoGetU64 mem d 0 FsysHeadKey.fsxfsversion = some sb.xfsver :=
    header.number mem (by simp [xfsCalls])
  have order : sys.xfstoolsver ≥ progver 4 3 0 ↔ ¬sys.xfstoolsver < progver 4 3 0 :=
    UInt64.not_lt.symm
  rw [xfsVersion, stored, XfsSuperBlock.v5]
  rcases header.valid.1 with four | five
  · rw [four]
    simp
  · rw [five]
    by_cases old : sys.xfstoolsver < progver 4 3 0
    · simp [old, order]
    · simp [old, order]

/-- A feature is kept with version 5. -/
theorem XfsSuperBlock.keeps_eq (sb : XfsSuperBlock) (sys : XfsSystem) (mask : UInt32)
    (feature : UInt64) :
    decide (sb.v5 sys = true ∧ sb.features mask &&& feature ≠ 0) = sb.keeps sys mask feature := by
  rw [XfsSuperBlock.keeps, XfsSuperBlock.features]
  by_cases version : sb.xfsver = 5
  · rw [if_pos version]
  · have other : sb.v5 sys = false := by
      simp [XfsSuperBlock.v5, version]
    simp [other]

/-- Newer versions of `mkfs.xfs` make version 5 whenever the filesystem had it. -/
theorem xfsOption_newer {x y z : UInt64} (newer : progver 4 3 0 ≤ progver x y z) (text : String)
    (mask : UInt32) (feature : UInt64) :
    xfsOption (decide (sys.xfstoolsver ≥ progver x y z)) text
        (decide (sb.features mask &&& feature ≠ 0)) =
      xfsOption (decide (sys.xfstoolsver ≥ progver x y z)) text (sb.keeps sys mask feature) := by
  by_cases known : sys.xfstoolsver ≥ progver x y z
  · have uuid : sys.xfstoolsver ≥ progver 4 3 0 := UInt64.le_trans newer known
    rw [← XfsSuperBlock.keeps_eq, XfsSuperBlock.v5, XfsSuperBlock.features]
    by_cases version : sb.xfsver = 5
    · simp [version, uuid]
    · simp [version]
  · simp [xfsOption, known]

/-- The options for version and features are read as the arguments for them. -/
theorem XfsHeader.reads_features (header : XfsHeader sb d) (mem : Mem) (sys : XfsSystem) :
    OptionsRead (xfsFeatureOptions mem sys d (uuidUnparseLower sb.uuid)) (sb.featureWords sys)
      310 := by
  have roCompat : xfsFeatures mem d FsysHeadKey.fsxfsfeaturerocompat =
      sb.features sb.featuresRoCompat := by
    have stored : dicoGetU64 mem d 0 FsysHeadKey.fsxfsfeaturerocompat =
        some (sb.features sb.featuresRoCompat) := header.number mem (by simp [xfsCalls])
    rw [xfsFeatures, stored, Option.getD_some]
  have incompat : xfsFeatures mem d FsysHeadKey.fsxfsfeatureincompat =
      sb.features sb.featuresIncompat := by
    have stored : dicoGetU64 mem d 0 FsysHeadKey.fsxfsfeatureincompat =
        some (sb.features sb.featuresIncompat) := header.number mem (by simp [xfsCalls])
    rw [xfsFeatures, stored, Option.getD_some]
  have v4 : xfsVersion mem sys d = .v4 ↔ (!sb.v5 sys) = true := by
    rw [← header.version mem sys]
    cases xfsVersion mem sys d <;> decide
  have sixTen : progver 4 3 0 ≤ progver 6 10 0 := by decide
  have sixThirteen : progver 4 3 0 ≤ progver 6 13 0 := by decide
  have sixFifteen : progver 4 3 0 ≤ progver 6 15 0 := by decide
  unfold xfsFeatureOptions XfsSuperBlock.featureWords
  simp only [header.version mem sys, roCompat, incompat, XfsSuperBlock.keeps_eq, v4,
    length_uuidUnparseLower, true_and]
  simp only [xfsOption_newer sixTen, xfsOption_newer sixThirteen, xfsOption_newer sixFifteen,
    Bool.decide_eq_true, ← Bool.and_eq_true]
  have uuid : OptionsRead (if decide (sys.xfstoolsver ≥ progver 4 3 0) = true then
        [ascii " -m uuid=" ++ uuidUnparseLower sb.uuid ++ ascii " "] else [])
      (if decide (sys.xfstoolsver ≥ progver 4 3 0) = true then
        [ascii "-m", ascii "uuid=" ++ uuidUnparseLower sb.uuid] else []) 50 := by
    split
    · have shape : ascii " -m uuid=" = ascii " -m " ++ ascii "uuid=" := by decide
      have opening : ascii " -m " = [space] ++ (ascii "-m" ++ [space]) := by decide
      have name : PlainWord (ascii "uuid=") := by decide
      have lengths : (ascii " -m ").length = 4 ∧ (ascii "uuid=").length = 5 := by decide
      have short : (ascii " -m ").length + (ascii "uuid=" ++ uuidUnparseLower sb.uuid).length < 50 := by
        rw [List.length_append, length_uuidUnparseLower]
        omega
      have read := OptionsRead.value opening (by decide)
        (plainWord_append name (uuidUnparseLower_plain sb.uuid)) short
      rw [shape]
      simpa only [List.append_assoc] using read
    · exact .none 50
  have ftype (known : Bool) : OptionsRead (if known = true then [ascii " -n ftype=0 "] else [])
      (if known = true then [ascii "-n", ascii "ftype=0"] else []) 20 := by
    cases known with
    | false => exact .none 20
    | true =>
      have shape : ascii " -n ftype=0 " = ascii " -n " ++ ascii "ftype=0" ++ ascii " " := by decide
      have opening : ascii " -n " = [space] ++ (ascii "-n" ++ [space]) := by decide
      have short : (ascii " -n ").length + (ascii "ftype=0").length < 20 := by decide
      simpa only [↓reduceIte, shape] using OptionsRead.value opening (by decide) (by decide) short
  have switch {text flag name : String} (shape : ascii text = [space] ++ (ascii flag ++ [space]) ++
        ascii name ∧ PlainWord (ascii flag) ∧ PlainWord (ascii name) ∧ (ascii text).length < 18)
      (known set : Bool) :
      OptionsRead (xfsOption known text set) (switchWords known flag name set) 20 := by
    obtain ⟨shape, plainFlag, plain, short⟩ := shape
    exact .switch shape rfl plainFlag plain short known set
  apply OptionsRead.append _ (switch (by decide) _ _)
  apply OptionsRead.append _ (switch (by decide) _ _)
  apply OptionsRead.append _ (switch (by decide) _ _)
  apply OptionsRead.append _ (switch (by decide) _ _)
  apply OptionsRead.append _ (switch (by decide) _ _)
  apply OptionsRead.append _ (switch (by decide) _ _)
  apply OptionsRead.append _ (ftype _)
  apply OptionsRead.append _ uuid
  apply OptionsRead.append _ (switch (by decide) _ _)
  apply OptionsRead.append _ (switch (by decide) _ _)
  apply OptionsRead.append _ (switch (by decide) _ _)
  apply OptionsRead.append _ (switch (by decide) _ _)
  apply OptionsRead.append _ (switch (by decide) _ _)
  exact switch (by decide) _ _

/-- The size of a block is read as the argument for it. -/
theorem XfsHeader.reads_blockSize (header : XfsHeader sb d) (mem : Mem) :
    OptionsRead (xfsBlockSize mem d) [ascii "-b", ascii "size=" ++ formatNat sb.blocksize.toNat]
      30 := by
  have stored : dicoGetU64 mem d 0 FsysHeadKey.fsxfsblocksize = some sb.blocksize.toUInt64 :=
    header.number mem (by simp [xfsCalls])
  obtain ⟨-, sectors, least, most, -⟩ := header.valid
  have least := UInt32.le_iff_toNat_le.mp least
  have most := UInt32.le_iff_toNat_le.mp most
  have sectors : sb.blocksize.toNat % 512 = 0 := congrArg UInt32.toNat sectors
  have known : sb.blocksize.toUInt64 % 512 = 0 ∧ sb.blocksize.toUInt64 ≥ 512 ∧
      sb.blocksize.toUInt64 ≤ 65536 := by
    refine ⟨?_, ?_, ?_⟩
    · apply UInt64.toNat_inj.mp
      rw [UInt64.toNat_mod, UInt32.toNat_toUInt64]
      exact sectors
    · exact UInt64.le_iff_toNat_le.mpr least
    · exact UInt64.le_iff_toNat_le.mpr most
  have most : sb.blocksize.toNat ≤ 65536 := most
  have number : formatLong sb.blocksize.toUInt64 = formatNat sb.blocksize.toNat := by
    rw [formatLong_of_lt (by rw [UInt32.toNat_toUInt64]; omega), UInt32.toNat_toUInt64]
  have digits : (formatNat sb.blocksize.toNat).length ≤ 5 := by
    rw [formatNat, List.length_map]
    exact (Nat.length_toDigits_le_iff (by decide) (by decide)).mpr (by omega)
  have shape : ascii " -b size=" = ascii " -b " ++ ascii "size=" := by decide
  have opening : ascii " -b " = [space] ++ (ascii "-b" ++ [space]) := by decide
  have name : PlainWord (ascii "size=") := by decide
  have lengths : (ascii " -b ").length = 4 ∧ (ascii "size=").length = 5 := by decide
  have short : (ascii " -b ").length + (ascii "size=" ++ formatNat sb.blocksize.toNat).length < 30 := by
    rw [List.length_append]
    omega
  have read := OptionsRead.value opening (by decide)
    (plainWord_append name (formatNat_plain sb.blocksize.toNat)) short
  rw [xfsBlockSize, stored]
  dsimp only
  rw [if_pos known, number, shape]
  simpa only [List.append_assoc] using read

/-- A label without a quote is read as the arguments for it. -/
theorem reads_label (free : quote ∉ sb.label) : OptionsRead
    (if cString sb.fname = [] then [] else [ascii " -L '" ++ sb.label ++ ascii "' "])
    (if cString sb.fname = [] then [] else [ascii "-L", sb.label]) 20 := by
  split
  · exact .none 20
  · have opening : ascii " -L '" = [space] ++ (ascii "-L" ++ [space]) ++ [quote] := by decide
    have closing : ascii "' " = [quote, space] := by decide
    have name : PlainWord (ascii "-L") := by decide
    have reads := reads_quotedOption name free
    constructor
    · rw [List.flatten_singleton, opening, closing]
      simpa only [List.append_assoc] using reads
    · have short : sb.label.length ≤ 12 := List.length_take_le _ _
      have lengths : (ascii " -L '").length = 5 ∧ (ascii "' ").length = 2 := by decide
      rw [List.flatten_singleton, List.length_append, List.length_append]
      omega

/-- The options in front of those of the command line. -/
def xfsOptions (mem : Mem) (sys : XfsSystem) (d : Dico) (sb : XfsSuperBlock) : List (List UInt8) :=
  (if cString sb.fname = [] then [] else [ascii " -L '" ++ sb.label ++ ascii "' "]) ++
    xfsBlockSize mem d ++ xfsFeatureOptions mem sys d (uuidUnparseLower sb.uuid)

/-- What `xfs_mkfs` runs with the header: the beginning of this text. -/
theorem XfsHeader.command (header : XfsHeader sb d) (mem : Mem) (partition fsoptions : List UInt8)
    (installed : sys.installed = true) (parsed : ¬(sys.x = 0 ∧ sys.y = 0))
    (short : (cString sb.fname).length < 2048) :
    xfsMkfsCommand mem sys d partition fsoptions [] [] =
      some (((ascii "mkfs.xfs -f " ++ (xfsOptions mem sys d sb).flatten) ++
        (ascii " " ++ fsoptions ++ ascii "  " ++ partition)).take (optionsSize - 1)) := by
  have mask {key : UInt16} {value : UInt64} (member : dicoAddU64 0 key value ∈ xfsCalls sb) :
      xfsFeatures mem d key = value := by
    rw [xfsFeatures, header.number mem member, Option.getD_some]
  have compat : xfsFeatures mem d FsysHeadKey.fsxfsfeaturecompat = sb.features sb.featuresCompat :=
    mask (by simp [xfsCalls])
  have roCompat : xfsFeatures mem d FsysHeadKey.fsxfsfeaturerocompat =
      sb.features sb.featuresRoCompat := mask (by simp [xfsCalls])
  have incompat : xfsFeatures mem d FsysHeadKey.fsxfsfeatureincompat =
      sb.features sb.featuresIncompat := mask (by simp [xfsCalls])
  have logIncompat : xfsFeatures mem d FsysHeadKey.fsxfsfeaturelogincompat =
      sb.features sb.featuresLogIncompat := mask (by simp [xfsCalls])
  obtain ⟨-, -, -, -, known⟩ := header.valid
  have planned : xfsPlan mem sys d partition fsoptions [] = some
      { program := ascii "mkfs.xfs -f ", before := [], cut := List.take 12
        after := xfsBlockSize mem d ++ xfsFeatureOptions mem sys d (uuidUnparseLower sb.uuid) ++
          [ascii " " ++ fsoptions ++ ascii " "]
        partition := partition } := by
    rw [xfsPlan, installed, compat, roCompat, incompat, logIncompat, known, header.uuid]
    simp only [Bool.not_true, Bool.false_eq_true, ↓reduceIte, parsed]
  have spaces : ascii "  " = ascii " " ++ ascii " " := by decide
  rw [xfsMkfsCommand, planned, Option.map_some, header.label short, MkfsPlan.command_eq, MkfsPlan.text,
    MkfsPlan.pieces, MkfsPlan.labelOption]
  simp only [xfsOptions, XfsSuperBlock.label, spaces, List.flatten_append, List.flatten_singleton,
    List.nil_append, List.append_assoc]

/-- The arguments of `mkfs.xfs` are those for the filesystem. -/
theorem XfsHeader.requests (header : XfsHeader sb d) (mem : Mem) (partition fsoptions : List UInt8)
    (installed : sys.installed = true) (parsed : ¬(sys.x = 0 ∧ sys.y = 0))
    (short : (cString sb.fname).length < 2048) (free : quote ∉ sb.label) :
    ∃ command, xfsMkfsCommand mem sys d partition fsoptions [] [] = some command ∧
      Requests (sb.requested sys) (ascii " " ++ fsoptions ++ ascii "  " ++ partition) command := by
  have options := ((reads_label free).append (header.reads_blockSize mem)).append
    (header.reads_features mem sys)
  have program : ReadsWords (ascii "mkfs.xfs -f ") [ascii "mkfs.xfs", ascii "-f"] := by
    have name : PlainWord (ascii "mkfs.xfs") := by decide
    exact reads_forced name
  have reads := program.append options.reads
  have size : (ascii "mkfs.xfs -f ").length = 12 := by decide
  have bound := options.short
  refine ⟨_, header.command mem partition fsoptions installed parsed short, ?_⟩
  apply requests_of_reads
  · simpa only [XfsSuperBlock.requested, xfsOptions, List.append_assoc] using reads
  · rw [List.length_append, xfsOptions, size]
    exact Nat.lt_of_le_of_lt (Nat.add_le_add_left bound 12) (by decide)

/-- Those of `xfs_admin`, if there is such a command, are for the UUID. -/
theorem XfsHeader.requests_admin (header : XfsHeader sb d) (old : sys.xfstoolsver < progver 4 3 0)
    (partition : List UInt8) : ∃ command, xfsAdminCommand sys d partition [] = some command ∧
      Requests [ascii "xfs_admin", ascii "-U", uuidUnparseLower sb.uuid] (ascii " " ++ partition)
        command := by
  have length := length_uuidUnparseLower sb.uuid
  have sizes : (ascii "xfs_admin ").length = 10 ∧ (ascii " -U ").length = 4 ∧
      (ascii " ").length = 1 := by decide
  have options : xfsAdminOptions sys (usedUuid d []) =
      [ascii " -U " ++ uuidUnparseLower sb.uuid ++ ascii " "] := by
    rw [xfsAdminOptions, header.uuid, if_pos ⟨length, old⟩]
  have fits : ([] ++ [ascii " -U " ++ uuidUnparseLower sb.uuid ++ ascii " "].flatten).length <
      optionsSize := by
    rw [List.nil_append, List.flatten_singleton, List.length_append, List.length_append, optionsSize]
    omega
  have xadmopts : strlcatTexts optionsSize [] (xfsAdminOptions sys (usedUuid d [])) =
      ascii " -U " ++ uuidUnparseLower sb.uuid ++ ascii " " := by
    rw [options, strlcatTexts_of_fits fits, List.nil_append, List.flatten_singleton]
  have nonempty : ascii " -U " ++ uuidUnparseLower sb.uuid ++ ascii " " ≠ [] := by
    intro none
    have empty := congrArg List.length none
    rw [List.length_append, List.length_append, List.length_nil] at empty
    omega
  have program : ReadsWords (ascii "xfs_admin ") [ascii "xfs_admin"] := by
    have name : PlainWord (ascii "xfs_admin") := by decide
    exact reads_plain name
  have flag : ReadsWords (ascii " -U ") [ascii "-U"] := by
    have name : PlainWord (ascii "-U") := by decide
    exact reads_flag name
  have reads := program.append (flag.append (reads_plain (uuidUnparseLower_plain sb.uuid)))
  refine ⟨_, by rw [xfsAdminCommand, xadmopts]; exact if_neg nonempty, ?_⟩
  have split : ascii "xfs_admin " ++ (ascii " -U " ++ uuidUnparseLower sb.uuid ++ ascii " ") ++
      ascii " " ++ partition = ascii "xfs_admin " ++ (ascii " -U " ++
        (uuidUnparseLower sb.uuid ++ [space])) ++ (ascii " " ++ partition) := by
    rw [show [space] = ascii " " by decide]
    simp only [List.append_assoc]
  rw [split]
  apply requests_of_reads reads
  rw [List.length_append, List.length_append, List.length_append, List.length_singleton, optionsSize]
  omega

/-- A newer `mkfs.xfs` has set the UUID. -/
theorem xfsAdminCommand_newer (newer : ¬sys.xfstoolsver < progver 4 3 0) (d : Dico)
    (partition mkfsuuid : List UInt8) : xfsAdminCommand sys d partition mkfsuuid = none := by
  have options : xfsAdminOptions sys (usedUuid d mkfsuuid) = [] := if_neg fun asked => newer asked.2
  rw [xfsAdminCommand, options]
  rfl

/-- The attributes are requested. -/
theorem XfsHeader.askedFor (header : XfsHeader sb d) (mem : Mem) (partition fsoptions : List UInt8)
    (installed : sys.installed = true) (parsed : ¬(sys.x = 0 ∧ sys.y = 0))
    (short : (cString sb.fname).length < 2048) (free : quote ∉ sb.label) :
    sb.AskedForBy sys partition fsoptions fun exec =>
      xfsMkfs mem sys d exec partition fsoptions [] [] := by
  obtain ⟨command, run, requests⟩ :=
    header.requests mem partition fsoptions installed parsed short free
  refine ⟨command :: (xfsAdminCommand sys d partition []).toList, fun exec => ?_, ?_⟩
  · simp only [xfsMkfs, run]
  · rw [XfsSuperBlock.commands]
    rw [List.forall₂_cons]
    refine ⟨requests, ?_⟩
    by_cases old : sys.xfstoolsver < progver 4 3 0
    · obtain ⟨admin, run', requests'⟩ := header.requests_admin old partition
      rw [if_pos old, run']
      exact List.forall₂_cons.mpr ⟨requests', .nil⟩
    · rw [if_neg old, xfsAdminCommand_newer old]
      exact .nil

end Header

/-! ## A partition that was saved -/

section Saved

variable {options : MountOptions} {mntopt2string : UInt32 → List UInt8} {arg : PartitionArg}
  {fs : MountedFs} {info : Dico} {sb : XfsSuperBlock}

/-- The header of an XFS filesystem has what `xfs_getinfo` adds. -/
theorem xfsHeader_of_saved (mounted : (arg.toFsArg options mntopt2string).mount = some fs)
    (type : (arg.mounted options mntopt2string).devinfo.fstype = some 6)
    (found : arg.calls.device.xfs = some sb) (header : fs.HeaderIs info) : XfsHeader sb info := by
  obtain ⟨fstype, entry, stats, items, same, -, -, got, made⟩ := PartitionArg.saved_parts mounted
  obtain rfl : 6 = fstype := Option.some.inj (type.symm.trans same)
  obtain ⟨cost, added⟩ := header
  obtain ⟨info', added', items'⟩ := header_items (Device.getinfo_describes got) cost
  rw [made, added', Option.some.injEq] at added
  obtain ⟨sb', superblock, got⟩ := Option.bind_eq_some_iff.mp got
  obtain rfl : sb = sb' := Option.some.inj (found.symm.trans superblock)
  unfold xfsGetinfo at got
  split at got
  · cases got
  next valid =>
    obtain rfl := Option.some.inj got
    refine ⟨not_not.mp valid, _, added ▸ items', ?_⟩
    intro call member
    apply List.mem_append_left
    apply List.mem_append_right
    exact List.mem_append_left _ member

/-- If a partition with an XFS filesystem was mounted to be saved, its header makes `xfs_mkfs` ask for
the same filesystem again, whatever the version of `mkfs.xfs` and the other options are: the label
up to its limit, the UUID, the size of the blocks, version 5 with exactly the features that the
filesystem had among those the version of `mkfs.xfs` knows, or version 4 without features. -/
theorem xfs_attributes_requested (mounted : (arg.toFsArg options mntopt2string).mount = some fs)
    (type : (arg.mounted options mntopt2string).devinfo.fstype = some 6)
    (found : arg.calls.device.xfs = some sb) (header : fs.HeaderIs info)
    (short : (cString sb.fname).length < 2048) (free : quote ∉ sb.label) (mem : Mem)
    (sys : XfsSystem) (partition fsoptions : List UInt8) (installed : sys.installed = true)
    (parsed : ¬(sys.x = 0 ∧ sys.y = 0)) :
    sb.AskedForBy sys partition fsoptions fun exec =>
      xfsMkfs mem sys info exec partition fsoptions [] [] :=
  (xfsHeader_of_saved mounted type found header).askedFor mem partition fsoptions installed parsed
    short free

end Saved

/-- A superblock of version 5 with sparse inodes, large timestamps and shared blocks. -/
def homeSuperBlock : XfsSuperBlock where
  versionnum := 0xb4a5
  fname := ascii "home"
  uuid := ⟨List.replicate 16 0x3c, rfl⟩
  blocksize := 4096
  featuresCompat := 0
  featuresRoCompat := 0x4
  featuresIncompat := 0xa
  featuresLogIncompat := 0

/-- It is on this partition. -/
def xfsPartition : PartitionArg :=
  { jfsPartition with
    calls := { jfsPartition.calls with
      device := { jfsPartition.calls.device with jfs := none, xfs := some homeSuperBlock } } }

/-- This version of `mkfs.xfs`. -/
def xfsprogs (x y z : UInt64) : XfsSystem where
  installed := true
  x := x
  y := y
  z := z
  rhel7 := false

/-- This filesystem is asked for again: by one command with `mkfs.xfs` 5.13.0, which knows all of
its features, and by two with 3.2.0. -/
theorem xfs_attributes_requested_home : ∃ info,
    (homeSuperBlock.AskedForBy (xfsprogs 5 13 0) (ascii "/dev/sdb1") [] fun exec =>
      xfsMkfs ⟨fun _ => 0, fun _ => 0⟩ (xfsprogs 5 13 0) info exec (ascii "/dev/sdb1") [] [] []) ∧
    (homeSuperBlock.AskedForBy (xfsprogs 3 2 0) (ascii "/dev/sdb1") [] fun exec =>
      xfsMkfs ⟨fun _ => 0, fun _ => 0⟩ (xfsprogs 3 2 0) info exec (ascii "/dev/sdb1") [] [] []) ∧
    (homeSuperBlock.commands (xfsprogs 5 13 0) (ascii "/dev/sdb1") []).length = 1 ∧
    (homeSuperBlock.commands (xfsprogs 3 2 0) (ascii "/dev/sdb1") []).length = 2 := by
  obtain ⟨fs, mounted⟩ : ∃ fs, (xfsPartition.toFsArg ⟨false, false, false⟩ fun _ => []).mount =
      some fs := ⟨_, rfl⟩
  obtain ⟨fstype, entry, stats, items, type, -, -, got, made⟩ := PartitionArg.saved_parts mounted
  obtain ⟨info, added, -⟩ := header_items (Device.getinfo_describes got) 0
  rw [← made] at added
  have asked (x y z : UInt64) (parsed : ¬(x = 0 ∧ y = 0)) :=
    xfs_attributes_requested mounted rfl rfl ⟨0, added⟩ (by decide) (by decide)
      ⟨fun _ => 0, fun _ => 0⟩ (xfsprogs x y z) (ascii "/dev/sdb1") [] rfl parsed
  exact ⟨info, asked 5 13 0 (by decide), asked 3 2 0 (by decide), by decide, by decide⟩

/-- The first arguments for it. -/
example : (homeSuperBlock.requested (xfsprogs 5 13 0)).take 8 =
    [ascii "mkfs.xfs", ascii "-f", ascii "-L", ascii "home", ascii "-b", ascii "size=4096",
      ascii "-m", ascii "crc=1"] := by decide

end FsArchiver
