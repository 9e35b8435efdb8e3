import FsArchiver.FsBtrfs
import FsArchiver.FsExt2
import FsArchiver.FsXfs
import FsArchiver.RestoreArchive

/-!
# What is saved of a filesystem

The functions `test` and `getinfo` of `filesys[]`. Both look at the superblock of a device: the first
one tells whether it is one of theirs, the second one adds what is in it to the header of the
filesystem. What a function adds before it fails is of no interest, since the header is not
written then.
-/
namespace FsArchiver

open Lib

namespace FsysHeadKey

/-- `FSYSHEADKEY_MNTPATH`. -/
def mntpath : UInt16 := 2
/-- `FSYSHEADKEY_FSVERSION`. -/
def fsversion : UInt16 := 8
/-- `FSYSHEADKEY_FSEXTDEFMNTOPT`. -/
def fsextdefmntopt : UInt16 := 9
/-- `FSYSHEADKEY_FSREISERBLOCKSIZE`. -/
def fsreiserblocksize : UInt16 := 15
/-- `FSYSHEADKEY_FSREISER4BLOCKSIZE`. -/
def fsreiser4blocksize : UInt16 := 16
/-- `FSYSHEADKEY_NTFSSECTORSIZE`. -/
def ntfssectorsize : UInt16 := 19
/-- `FSYSHEADKEY_NTFSCLUSTERSIZE`. -/
def ntfsclustersize : UInt16 := 20
/-- `FSYSHEADKEY_NTFSUUID`. -/
def ntfsuuid : UInt16 := 24
/-- `FSYSHEADKEY_ORIGDEV`. -/
def origdev : UInt16 := 27
/-- `FSYSHEADKEY_FSEXTFSCKMAXMNTCOUNT`. -/
def fsextfsckmaxmntcount : UInt16 := 29
/-- `FSYSHEADKEY_FSEXTFSCKCHECKINTERVAL`. -/
def fsextfsckcheckinterval : UInt16 := 30
/-- `FSYSHEADKEY_FSVFATTYPE`. -/
def fsvfattype : UInt16 := 39
/-- `FSYSHEADKEY_FSVFATSERIAL`. -/
def fsvfatserial : UInt16 := 40

end FsysHeadKey

/-- The item for the oldest version that can restore a filesystem. -/
def minfsaversionCall (version : UInt64) : DicoCall := dicoAddU64 0 FsysHeadKey.minfsaversion version

/-! ## ext2, ext3 and ext4 -/

/-- What `extfs_getinfo` reads of `fsa_ext2_sb`. -/
structure ExtSuperBlock where
  /-- `s_volume_name[16]`. -/
  volumeName : List UInt8
  uuid : Uuid
  /-- `EXT2_BLOCK_SIZE`. -/
  blockSize : UInt64
  revLevel : UInt32
  inodeSize : UInt16
  raidStride : UInt16
  raidStripeWidth : UInt32
  maxMntCount : Int16
  checkinterval : UInt32
  defaultMountOpts : UInt32
  featureCompat : UInt32
  featureIncompat : UInt32
  featureRoCompat : UInt32

namespace ExtSuperBlock

/-- The masks of features with 64 bits. -/
def features (sb : ExtSuperBlock) : FeaturesTab :=
  ⟨sb.featureCompat.toUInt64, sb.featureIncompat.toUInt64, sb.featureRoCompat.toUInt64⟩

/-- The type that the features belong to. -/
def fstype (sb : ExtSuperBlock) : ExtFsType :=
  extfsGetFstypeFromCompatFlags sb.featureCompat sb.featureIncompat sb.featureRoCompat

end ExtSuperBlock

/-- `EXT3_DEFM_JMODE`. -/
def ext3DefmJmode : UInt32 := 0x0060

/-- The default mount options that are set, as the masks `e2p_mntopt2string` is asked for: the mode of
the journal first, then every other bit. -/
def defaultMountMasks (mask : UInt32) : List UInt32 :=
  (if mask &&& ext3DefmJmode ≠ 0 then [mask &&& ext3DefmJmode] else []) ++
    ((List.range 32).map fun i => (1 : UInt32) <<< UInt32.ofNat i).filter fun m =>
      decide (m &&& ext3DefmJmode = 0 ∧ mask &&& m ≠ 0)

/-- `mntopt`: the names of the options, with commas between them. -/
def defaultMountOptions (mntopt2string : UInt32 → List UInt8) (mask : UInt32) : List UInt8 :=
  strlcatTexts 1024 []
    (((defaultMountMasks mask).map mntopt2string).intersperse (ascii ","))

/-- `extfs_getinfo`. -/
def extfsGetinfo (mntopt2string : UInt32 → List UInt8) (sb : ExtSuperBlock) :
    Option (List DicoCall) :=
  if !extfsCheckCompatibility sb.features then none
  else some <|
    [dicoAddString 0 FsysHeadKey.fslabel (cString (sb.volumeName.take 16)),
      dicoAddString 0 FsysHeadKey.fsuuid (uuidUnparseLower sb.uuid),
      dicoAddU64 0 FsysHeadKey.fsextblocksize sb.blockSize,
      dicoAddU64 0 FsysHeadKey.fsextrevision sb.revLevel.toUInt64,
      dicoAddU64 0 FsysHeadKey.fsinodesize (if sb.revLevel ≥ 1 then sb.inodeSize.toUInt64 else 128)] ++
    (if sb.raidStride > 0 then
      [dicoAddU64 0 FsysHeadKey.fsexteoptraidstride sb.raidStride.toUInt64] else []) ++
    (if sb.raidStripeWidth > 0 then
      [dicoAddU64 0 FsysHeadKey.fsexteoptraidstripewidth sb.raidStripeWidth.toUInt64] else []) ++
    [dicoAddU64 0 FsysHeadKey.fsextfsckmaxmntcount (UInt64.ofNat sb.maxMntCount.toInt.toNat),
      dicoAddU64 0 FsysHeadKey.fsextfsckcheckinterval sb.checkinterval.toUInt64,
      dicoAddString 0 FsysHeadKey.fsextdefmntopt
        (defaultMountOptions mntopt2string sb.defaultMountOpts),
      dicoAddU64 0 FsysHeadKey.fsextfeaturecompat sb.features.compat,
      dicoAddU64 0 FsysHeadKey.fsextfeatureincompat sb.features.incompat,
      dicoAddU64 0 FsysHeadKey.fsextfeaturerocompat sb.features.roIncompat,
      minfsaversionCall (fsaVersionBuild 0 6 4 0)]

/-! ## The other filesystems -/

/-- What `reiserfs_getinfo` reads, behind the magic number. -/
structure ReiserfsSuperBlock where
  /-- The magic number is `REISER2FS_SUPER_MAGIC_STRING`. -/
  reiser2fs : Bool
  /-- What begins at `s_label`. -/
  label : List UInt8
  uuid : Uuid
  blocksize : UInt16

/-- `reiserfs_getinfo`. -/
def reiserfsGetinfo (sb : ReiserfsSuperBlock) : Option (List DicoCall) :=
  some [dicoAddString 0 FsysHeadKey.fsversion
      (if sb.reiser2fs then ascii "reiserfs-3.6" else ascii "reiserfs-3.5"),
    dicoAddString 0 FsysHeadKey.fslabel (cString sb.label),
    dicoAddString 0 FsysHeadKey.fsuuid (uuidUnparseLower sb.uuid),
    dicoAddU64 0 FsysHeadKey.fsreiserblocksize sb.blocksize.toUInt64,
    minfsaversionCall (fsaVersionBuild 0 6 4 0)]

/-- What `reiser4_getinfo` reads, behind the magic number. -/
structure Reiser4SuperBlock where
  /-- What begins at `label`. -/
  label : List UInt8
  uuid : Uuid
  blocksize : UInt16

/-- `reiser4_getinfo`. -/
def reiser4Getinfo (sb : Reiser4SuperBlock) : Option (List DicoCall) :=
  if sb.blocksize ≠ 4096 then none
  else some [dicoAddString 0 FsysHeadKey.fsversion (ascii "reiserfs-4.0"),
    dicoAddString 0 FsysHeadKey.fslabel (cString sb.label),
    dicoAddString 0 FsysHeadKey.fsuuid (uuidUnparseLower sb.uuid),
    dicoAddU64 0 FsysHeadKey.fsreiser4blocksize sb.blocksize.toUInt64,
    minfsaversionCall (fsaVersionBuild 0 6 4 0)]

/-- `btrfs_getinfo`, as the items that it adds. -/
def btrfsItems (sb : BtrfsSuperBlock) : Option (List DicoCall) :=
  if btrfsCheckCompatibility sb.compatFlags sb.incompatFlags sb.compatRoFlags then
    some (btrfsCalls sb ++ [minfsaversionCall (fsaVersionBuild 0 6 4 0)])
  else none

/-- These are the items of `btrfs_getinfo`. -/
theorem btrfsGetinfo_eq (d : Dico) (sb : BtrfsSuperBlock) :
    btrfsGetinfo d sb = (btrfsItems sb).map (dicoAddAll d) := by
  unfold btrfsGetinfo btrfsItems
  dsimp only
  split
  · simp only [Option.map_some, dicoAddAll, List.foldl_append, minfsaversionCall]
  · rfl

/-- What `xfs_getinfo` reads of `xfs_sb`, behind the magic number. -/
structure XfsSuperBlock where
  /-- `sb_versionnum`. -/
  versionnum : UInt16
  /-- What begins at `sb_fname`. -/
  fname : List UInt8
  uuid : Uuid
  blocksize : UInt32
  featuresCompat : UInt32
  featuresRoCompat : UInt32
  featuresIncompat : UInt32
  featuresLogIncompat : UInt32

namespace XfsSuperBlock

/-- `xfsver`: the bits of `XFS_SB_VERSION_NUMBITS`. -/
def xfsver (sb : XfsSuperBlock) : UInt64 := (sb.versionnum &&& 0x000f).toUInt64

/-- A mask of features, which version 4 has not. -/
def features (sb : XfsSuperBlock) (mask : UInt32) : UInt64 :=
  if sb.xfsver = 5 then mask.toUInt64 else 0

/-- The version and the size of blocks are among those that are known. -/
def Valid (sb : XfsSuperBlock) : Prop :=
  (sb.xfsver = 4 ∨ sb.xfsver = 5) ∧ sb.blocksize % 512 = 0 ∧ 512 ≤ sb.blocksize ∧
    sb.blocksize ≤ 65536 ∧
    xfsCheckCompatibility (sb.features sb.featuresCompat) (sb.features sb.featuresRoCompat)
      (sb.features sb.featuresIncompat) (sb.features sb.featuresLogIncompat) = true

instance (sb : XfsSuperBlock) : Decidable sb.Valid := inferInstanceAs (Decidable (_ ∧ _))

end XfsSuperBlock

/-- What `xfs_getinfo` adds for a superblock. -/
def xfsCalls (sb : XfsSuperBlock) : List DicoCall :=
  [dicoAddU64 0 FsysHeadKey.fsxfsversion sb.xfsver,
    dicoAddString 0 FsysHeadKey.fslabel (cString sb.fname),
    dicoAddString 0 FsysHeadKey.fsuuid (uuidUnparseLower sb.uuid),
    dicoAddU64 0 FsysHeadKey.fsxfsblocksize sb.blocksize.toUInt64,
    dicoAddU64 0 FsysHeadKey.fsxfsfeaturecompat (sb.features sb.featuresCompat),
    dicoAddU64 0 FsysHeadKey.fsxfsfeaturerocompat (sb.features sb.featuresRoCompat),
    dicoAddU64 0 FsysHeadKey.fsxfsfeatureincompat (sb.features sb.featuresIncompat),
    dicoAddU64 0 FsysHeadKey.fsxfsfeaturelogincompat (sb.features sb.featuresLogIncompat)]

/-- `xfs_getinfo`. -/
def xfsGetinfo (sb : XfsSuperBlock) : Option (List DicoCall) :=
  if ¬sb.Valid then none
  else some (xfsCalls sb ++ [minfsaversionCall (fsaVersionBuild 0 6 20 0)])

/-- What `jfs_getinfo` reads, behind the magic number. -/
structure JfsSuperBlock where
  /-- What begins at `s_label`. -/
  label : List UInt8
  uuid : Uuid

/-- `jfs_getinfo`. -/
def jfsGetinfo (sb : JfsSuperBlock) : Option (List DicoCall) :=
  some [dicoAddString 0 FsysHeadKey.fslabel (cString sb.label),
    dicoAddString 0 FsysHeadKey.fsuuid (uuidUnparseLower sb.uuid),
    minfsaversionCall (fsaVersionBuild 0 6 4 0)]

/-- What `ntfs_getinfo` reads of the boot sector, behind its signature. -/
structure NtfsBootSector where
  bytesPerSector : UInt16
  sectorsPerClusters : UInt8
  uuid : UInt64
  /-- The label that `get_devinfo` finds, if it succeeds. -/
  label : Option (List UInt8)

/-- `ntfs_getinfo`. -/
def ntfsGetinfo (sb : NtfsBootSector) : Option (List DicoCall) :=
  sb.label.map fun label =>
    [dicoAddU16 0 FsysHeadKey.ntfssectorsize sb.bytesPerSector,
      dicoAddU32 0 FsysHeadKey.ntfsclustersize
        (sb.bytesPerSector.toUInt32 * sb.sectorsPerClusters.toUInt32),
      dicoAddU64 0 FsysHeadKey.ntfsuuid sb.uuid, dicoAddString 0 FsysHeadKey.fslabel label,
      minfsaversionCall (fsaVersionBuild 0 6 4 0),
      dicoAddString 0 FsysHeadKey.mountinfo (ascii "streams_interface=xattr")]

/-- What `vfat_getinfo` reads, behind the magic number. -/
structure VfatSuperBlock where
  numFats : UInt8
  numRootDirEnts : UInt16
  /-- The 11 bytes at `0x02B`. -/
  labelFat16 : List UInt8
  /-- The number at `0x027`. -/
  serialFat16 : UInt32
  /-- The 11 bytes at `0x047`. -/
  labelFat32 : List UInt8
  /-- The number at `0x043`. -/
  serialFat32 : UInt32

/-- `vfat_getinfo`: no entries in the root directory mean FAT32. -/
def vfatGetinfo (sb : VfatSuperBlock) : Option (List DicoCall) :=
  if sb.numFats ≠ 1 ∧ sb.numFats ≠ 2 then none
  else
    let fat32 : Bool := sb.numRootDirEnts = 0
    some [dicoAddU16 0 FsysHeadKey.fsvfattype (if fat32 then 0 else 1),
      dicoAddString 0 FsysHeadKey.fslabel
        (cString (if fat32 then sb.labelFat32 else sb.labelFat16)),
      dicoAddU32 0 FsysHeadKey.fsvfatserial (if fat32 then sb.serialFat32 else sb.serialFat16),
      minfsaversionCall (fsaVersionBuild 0 8 0 0)]

/-! ## A device -/

/-- The superblocks that are found on a device: each one that can be read and has its magic number. -/
structure Device where
  extfs : Option ExtSuperBlock
  reiserfs : Option ReiserfsSuperBlock
  reiser4 : Option Reiser4SuperBlock
  btrfs : Option BtrfsSuperBlock
  xfs : Option XfsSuperBlock
  jfs : Option JfsSuperBlock
  ntfs : Option NtfsBootSector
  vfat : Option VfatSuperBlock

namespace Device

variable (dev : Device)

/-- `extfs_test`. -/
def extfsTest (extfstype : ExtFsType) : Bool :=
  match dev.extfs with
  | none => false
  | some sb => sb.fstype = extfstype

/-- `filesys[].test`. -/
def test (fstype : Nat) : Bool :=
  match fstype with
  | 0 => dev.extfsTest .ext2
  | 1 => dev.extfsTest .ext3
  | 2 => dev.extfsTest .ext4
  | 3 => dev.reiserfs.isSome
  | 4 => dev.reiser4.isSome
  | 5 => dev.btrfs.isSome
  | 6 => dev.xfs.isSome
  | 7 => dev.jfs.isSome
  | 8 => dev.ntfs.isSome
  | 9 => dev.vfat.isSome
  | _ => false

/-- `filesys[].getinfo`: the items that it adds to the header, if it returns 0. -/
def getinfo (mntopt2string : UInt32 → List UInt8) (fstype : Nat) : Option (List DicoCall) :=
  match fstype with
  | 0 | 1 | 2 => dev.extfs.bind (extfsGetinfo mntopt2string)
  | 3 => dev.reiserfs.bind reiserfsGetinfo
  | 4 => dev.reiser4.bind reiser4Getinfo
  | 5 => dev.btrfs.bind btrfsItems
  | 6 => dev.xfs.bind xfsGetinfo
  | 7 => dev.jfs.bind jfsGetinfo
  | 8 => dev.ntfs.bind ntfsGetinfo
  | 9 => dev.vfat.bind vfatGetinfo
  | _ => none

end Device

/-! ## What all functions have in common -/

/-- The keys of the items that a function may add: those of the header itself are left out. -/
def infoKeys : List UInt16 :=
  [5, 6, 7, 8, 9, 10, 11, 12, 13, 14, 15, 16, 17, 18, 19, 20, 21, 22, 23, 24, 26, 29, 30, 31, 32, 34, 35,
    36, 37, 38, 39, 40]

/-- The item is one that a function may add. -/
def DicoCall.isInfo (call : DicoCall) : Bool :=
  call.sect = 0 ∧ (call.key ∈ infoKeys ∨ call.key = FsysHeadKey.minfsaversion)

/-- The items are for the header of a filesystem, each with a key of its own, and one of them is a
version that is not newer than this one. -/
structure Describes (calls : List DicoCall) : Prop where
  keys : calls.all DicoCall.isInfo = true
  distinct : (calls.map DicoCall.key).Nodup
  version : ∃ minver ≤ curver, minfsaversionCall minver ∈ calls

theorem extfsGetinfo_describes {mntopt2string : UInt32 → List UInt8} {sb : ExtSuperBlock}
    {calls : List DicoCall} (got : extfsGetinfo mntopt2string sb = some calls) : Describes calls := by
  unfold extfsGetinfo at got
  split at got
  · cases got
  · obtain rfl := Option.some.inj got
    -- the items for a RAID may be left out
    by_cases stride : sb.raidStride > 0
    · by_cases width : sb.raidStripeWidth > 0
      · simp only [stride, width, ↓reduceIte]
        exact ⟨rfl, of_decide_eq_true rfl, fsaVersionBuild 0 6 4 0, by decide, by simp⟩
      · simp only [stride, width, ↓reduceIte]
        exact ⟨rfl, of_decide_eq_true rfl, fsaVersionBuild 0 6 4 0, by decide, by simp⟩
    · by_cases width : sb.raidStripeWidth > 0
      · simp only [stride, width, ↓reduceIte]
        exact ⟨rfl, of_decide_eq_true rfl, fsaVersionBuild 0 6 4 0, by decide, by simp⟩
      · simp only [stride, width, ↓reduceIte]
        exact ⟨rfl, of_decide_eq_true rfl, fsaVersionBuild 0 6 4 0, by decide, by simp⟩

/-- Every `getinfo` adds a version, and leaves the items of the header itself alone. -/
theorem Device.getinfo_describes {dev : Device} {mntopt2string : UInt32 → List UInt8} {fstype : Nat}
    {calls : List DicoCall} (got : dev.getinfo mntopt2string fstype = some calls) :
    Describes calls := by
  have reiserfs {sb : ReiserfsSuperBlock} (got : reiserfsGetinfo sb = some calls) :
      Describes calls := by
    obtain rfl := Option.some.inj got
    exact ⟨rfl, of_decide_eq_true rfl, fsaVersionBuild 0 6 4 0, by decide, by simp⟩
  have reiser4 {sb : Reiser4SuperBlock} (got : reiser4Getinfo sb = some calls) :
      Describes calls := by
    unfold reiser4Getinfo at got
    split at got
    · cases got
    · obtain rfl := Option.some.inj got
      exact ⟨rfl, of_decide_eq_true rfl, fsaVersionBuild 0 6 4 0, by decide, by simp⟩
  have btrfs {sb : BtrfsSuperBlock} (got : btrfsItems sb = some calls) : Describes calls := by
    unfold btrfsItems at got
    split at got
    · obtain rfl := Option.some.inj got
      exact ⟨rfl, of_decide_eq_true rfl, fsaVersionBuild 0 6 4 0, by decide, by simp⟩
    · cases got
  have xfs {sb : XfsSuperBlock} (got : xfsGetinfo sb = some calls) : Describes calls := by
    unfold xfsGetinfo at got
    split at got
    · cases got
    · obtain rfl := Option.some.inj got
      exact ⟨rfl, of_decide_eq_true rfl, fsaVersionBuild 0 6 20 0, by decide, by simp⟩
  have jfs {sb : JfsSuperBlock} (got : jfsGetinfo sb = some calls) : Describes calls := by
    obtain rfl := Option.some.inj got
    exact ⟨rfl, of_decide_eq_true rfl, fsaVersionBuild 0 6 4 0, by decide, by simp⟩
  have ntfs {sb : NtfsBootSector} (got : ntfsGetinfo sb = some calls) : Describes calls := by
    obtain ⟨label, -, rfl⟩ := Option.map_eq_some_iff.mp got
    exact ⟨rfl, of_decide_eq_true rfl, fsaVersionBuild 0 6 4 0, by decide, by simp⟩
  have vfat {sb : VfatSuperBlock} (got : vfatGetinfo sb = some calls) : Describes calls := by
    unfold vfatGetinfo at got
    split at got
    · cases got
    · obtain rfl := Option.some.inj got
      exact ⟨rfl, of_decide_eq_true rfl, fsaVersionBuild 0 8 0 0, by decide, by simp⟩
  unfold Device.getinfo at got
  split at got
  case h_11 => cases got
  all_goals obtain ⟨sb, -, got⟩ := Option.bind_eq_some_iff.mp got
  case h_1 | h_2 | h_3 => exact extfsGetinfo_describes got
  case h_4 => exact reiserfs got
  case h_5 => exact reiser4 got
  case h_6 => exact btrfs got
  case h_7 => exact xfs got
  case h_8 => exact jfs got
  case h_9 => exact ntfs got
  case h_10 => exact vfat got

end FsArchiver
