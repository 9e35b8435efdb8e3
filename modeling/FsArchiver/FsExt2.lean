import FsArchiver.Lib.Masks
import FsArchiver.Mkfs

/-!
# Recreating an ext filesystem

`extfs_mkfs` up to the execution of `mke2fs`: the features of the archive lose what the requested
type does not know, get what it needs, and are listed as far as the version of `mke2fs` knows them.
`extfs_mount` refuses a filesystem whose features belong to another type.
-/
namespace FsArchiver

open Lib

/-! ## Features -/

/-- `EXTFSTYPE_*`. -/
inductive ExtFsType where
  | ext2 | ext3 | ext4
  deriving DecidableEq

namespace ExtFsType

/-- The number of a type: a later one knows all features of an earlier one. -/
def number : ExtFsType → Nat
  | ext2 => 0
  | ext3 => 1
  | ext4 => 2

/-- `e2fsprogs_minver`. -/
def minver : ExtFsType → UInt64
  | ext2 => progver 1 39 0
  | ext3 => progver 1 39 0
  | ext4 => progver 1 41 0

end ExtFsType

/-- `E2P_FEATURE_*`: the masks of features. -/
inductive CompatType where
  | compat | incompat | roIncompat
  deriving DecidableEq

/-- `features_tab`. -/
structure FeaturesTab where
  /-- At `E2P_FEATURE_COMPAT`. -/
  compat : UInt64
  /-- At `E2P_FEATURE_INCOMPAT`. -/
  incompat : UInt64
  /-- At `E2P_FEATURE_RO_INCOMPAT`. -/
  roIncompat : UInt64
  deriving DecidableEq

namespace FeaturesTab

/-- The mask of a kind. -/
def get (tab : FeaturesTab) : CompatType → UInt64
  | .compat => tab.compat
  | .incompat => tab.incompat
  | .roIncompat => tab.roIncompat

/-- `features_tab[compat_type] &= ~mask`. -/
def clear (tab : FeaturesTab) (kind : CompatType) (mask : UInt64) : FeaturesTab :=
  match kind with
  | .compat => { tab with compat := tab.compat &&& ~~~mask }
  | .incompat => { tab with incompat := tab.incompat &&& ~~~mask }
  | .roIncompat => { tab with roIncompat := tab.roIncompat &&& ~~~mask }

end FeaturesTab

/-- `s_features`. -/
structure MkFeature where
  /-- Name of the feature. -/
  name : List UInt8
  /-- Its bit. -/
  mask : UInt64
  /-- The mask with this bit. -/
  compat : CompatType
  /-- The first filesystem that supports it. -/
  firstfs : ExtFsType
  /-- The first version of e2fsprogs that supports it. -/
  firste2p : UInt64

namespace ExtFeature

/-- `FSA_EXT3_FEATURE_COMPAT_HAS_JOURNAL`. -/
def hasJournal : UInt64 := 0x0004
/-- `FSA_EXT2_FEATURE_COMPAT_EXT_ATTR`. -/
def extAttr : UInt64 := 0x0008
/-- `FSA_EXT2_FEATURE_COMPAT_RESIZE_INODE`. -/
def resizeInode : UInt64 := 0x0010
/-- `FSA_EXT2_FEATURE_COMPAT_DIR_INDEX`. -/
def dirIndex : UInt64 := 0x0020
/-- `FSA_EXT4_FEATURE_COMPAT_SPARSE_SUPER2`. -/
def sparseSuper2 : UInt64 := 0x0200
/-- `FSA_EXT4_FEATURE_COMPAT_FAST_COMMIT`. -/
def fastCommit : UInt64 := 0x0400
/-- `FSA_EXT4_FEATURE_COMPAT_ORPHAN_FILE`. -/
def orphanFile : UInt64 := 0x1000
/-- `FSA_EXT2_FEATURE_INCOMPAT_FILETYPE`. -/
def filetype : UInt64 := 0x0002
/-- `FSA_EXT3_FEATURE_INCOMPAT_RECOVER`. -/
def recover : UInt64 := 0x0004
/-- `FSA_EXT3_FEATURE_INCOMPAT_JOURNAL_DEV`. -/
def journalDev : UInt64 := 0x0008
/-- `FSA_EXT2_FEATURE_INCOMPAT_META_BG`. -/
def metaBg : UInt64 := 0x0010
/-- `FSA_EXT4_FEATURE_INCOMPAT_EXTENTS`. -/
def extents : UInt64 := 0x0040
/-- `FSA_EXT4_FEATURE_INCOMPAT_64BIT`. -/
def incompat64bit : UInt64 := 0x0080
/-- `FSA_EXT4_FEATURE_INCOMPAT_MMP`. -/
def mmp : UInt64 := 0x0100
/-- `FSA_EXT4_FEATURE_INCOMPAT_FLEX_BG`. -/
def flexBg : UInt64 := 0x0200
/-- `FSA_EXT4_FEATURE_INCOMPAT_EA_INODE`. -/
def eaInode : UInt64 := 0x0400
/-- `FSA_EXT4_FEATURE_INCOMPAT_DIRDATA`. -/
def dirdata : UInt64 := 0x1000
/-- `FSA_EXT4_FEATURE_INCOMPAT_CSUM_SEED`. -/
def csumSeed : UInt64 := 0x2000
/-- `FSA_EXT4_FEATURE_INCOMPAT_LARGEDIR`. -/
def largedir : UInt64 := 0x4000
/-- `FSA_EXT4_FEATURE_INCOMPAT_INLINEDATA`. -/
def inlinedata : UInt64 := 0x8000
/-- `FSA_EXT2_FEATURE_RO_COMPAT_SPARSE_SUPER`. -/
def sparseSuper : UInt64 := 0x0001
/-- `FSA_EXT2_FEATURE_RO_COMPAT_LARGE_FILE`. -/
def largeFile : UInt64 := 0x0002
/-- `FSA_EXT2_FEATURE_RO_COMPAT_BTREE_DIR`. -/
def btreeDir : UInt64 := 0x0004
/-- `FSA_EXT4_FEATURE_RO_COMPAT_HUGE_FILE`. -/
def hugeFile : UInt64 := 0x0008
/-- `FSA_EXT4_FEATURE_RO_COMPAT_GDT_CSUM`. -/
def gdtCsum : UInt64 := 0x0010
/-- `FSA_EXT4_FEATURE_RO_COMPAT_DIR_NLINK`. -/
def dirNlink : UInt64 := 0x0020
/-- `FSA_EXT4_FEATURE_RO_COMPAT_EXTRA_ISIZE`. -/
def extraIsize : UInt64 := 0x0040
/-- `FSA_EXT4_FEATURE_RO_COMPAT_QUOTA`. -/
def quota : UInt64 := 0x0100
/-- `FSA_EXT4_FEATURE_RO_COMPAT_BIGALLOC`. -/
def bigalloc : UInt64 := 0x0200
/-- `FSA_EXT4_FEATURE_RO_COMPAT_METADATA_CSUM`. -/
def metadataCsum : UInt64 := 0x0400
/-- `FSA_EXT4_FEATURE_RO_COMPAT_READONLY`. -/
def readonly : UInt64 := 0x1000
/-- `FSA_EXT4_FEATURE_RO_COMPAT_PROJECT`. -/
def project : UInt64 := 0x2000
/-- `FSA_EXT4_FEATURE_RO_COMPAT_ORPHAN_PRESENT`. -/
def orphanPresent : UInt64 := 0x10000

/-- `FSA_FEATURE_COMPAT_SUPP`, with `DIR_PREALLOC`, `IMAGIC_INODES` and `LAZY_BG`. -/
def compatSupp : UInt64 :=
  0x0001 ||| 0x0002 ||| hasJournal ||| extAttr ||| resizeInode ||| dirIndex ||| 0x0040 |||
    sparseSuper2 ||| fastCommit ||| orphanFile

/-- `FSA_FEATURE_RO_COMPAT_SUPP`. -/
def roCompatSupp : UInt64 :=
  sparseSuper ||| largeFile ||| btreeDir ||| hugeFile ||| gdtCsum ||| dirNlink ||| extraIsize |||
    quota ||| bigalloc ||| metadataCsum ||| readonly ||| project ||| orphanPresent

/-- `FSA_FEATURE_INCOMPAT_SUPP`. -/
def incompatSupp : UInt64 :=
  filetype ||| recover ||| journalDev ||| metaBg ||| extents ||| incompat64bit ||| mmp |||
    flexBg ||| eaInode ||| dirdata ||| csumSeed ||| largedir ||| inlinedata

/-- `FSA_EXT2_FEATURE_INCOMPAT_UNSUPPORTED`, as a `u32`. -/
def ext2IncompatUnsupported : UInt32 := ~~~(filetype ||| metaBg).toUInt32

/-- `FSA_EXT2_FEATURE_RO_COMPAT_UNSUPPORTED`, as a `u32`. -/
def ext2RoCompatUnsupported : UInt32 := ~~~(sparseSuper ||| largeFile ||| btreeDir).toUInt32

/-- `FSA_EXT3_FEATURE_INCOMPAT_UNSUPPORTED`, as a `u32`. -/
def ext3IncompatUnsupported : UInt32 := ~~~(filetype ||| recover ||| metaBg).toUInt32

/-- `FSA_EXT3_FEATURE_RO_COMPAT_UNSUPPORTED`, as a `u32`. -/
def ext3RoCompatUnsupported : UInt32 := ~~~(sparseSuper ||| largeFile ||| btreeDir).toUInt32

end ExtFeature

open ExtFeature

/-- `mkfeatures`. -/
def mkfeatures : List MkFeature :=
  [⟨ascii "has_journal", hasJournal, .compat, .ext3, progver 1 39 0⟩,
    ⟨ascii "ext_attr", extAttr, .compat, .ext2, progver 1 40 5⟩,
    ⟨ascii "resize_inode", resizeInode, .compat, .ext2, progver 1 39 0⟩,
    ⟨ascii "dir_index", dirIndex, .compat, .ext2, progver 1 33 0⟩,
    ⟨ascii "sparse_super2", sparseSuper2, .compat, .ext4, progver 1 42 10⟩,
    ⟨ascii "fast_commit", fastCommit, .compat, .ext4, progver 1 46 0⟩,
    ⟨ascii "orphan_file", orphanFile, .compat, .ext4, progver 1 47 0⟩,
    ⟨ascii "filetype", filetype, .incompat, .ext2, progver 1 16 0⟩,
    ⟨ascii "extent", extents, .incompat, .ext4, progver 1 41 0⟩,
    ⟨ascii "journal_dev", journalDev, .incompat, .ext3, progver 1 39 0⟩,
    ⟨ascii "flex_bg", flexBg, .incompat, .ext4, progver 1 41 0⟩,
    ⟨ascii "meta_bg", metaBg, .incompat, .ext2, progver 1 39 0⟩,
    ⟨ascii "mmp", mmp, .incompat, .ext4, progver 1 42 0⟩,
    ⟨ascii "64bit", incompat64bit, .incompat, .ext4, progver 1 42 0⟩,
    ⟨ascii "inline_data", inlinedata, .incompat, .ext4, progver 1 43 0⟩,
    ⟨ascii "ea_inode", eaInode, .incompat, .ext4, progver 1 44 0⟩,
    ⟨ascii "large_dir", largedir, .incompat, .ext4, progver 1 44 0⟩,
    ⟨ascii "large_file", largeFile, .roIncompat, .ext2, progver 1 40 7⟩,
    ⟨ascii "huge_file", hugeFile, .roIncompat, .ext4, progver 1 41 0⟩,
    ⟨ascii "sparse_super", sparseSuper, .roIncompat, .ext2, progver 1 8 0⟩,
    ⟨ascii "uninit_bg", gdtCsum, .roIncompat, .ext4, progver 1 41 0⟩,
    ⟨ascii "dir_nlink", dirNlink, .roIncompat, .ext4, progver 1 41 0⟩,
    ⟨ascii "extra_isize", extraIsize, .roIncompat, .ext4, progver 1 41 0⟩,
    ⟨ascii "bigalloc", bigalloc, .roIncompat, .ext4, progver 1 42 0⟩,
    ⟨ascii "metadata_csum", metadataCsum, .roIncompat, .ext4, progver 1 43 0⟩,
    ⟨ascii "project", project, .roIncompat, .ext4, progver 1 43 0⟩]

/-- `extfs_get_fstype_from_compat_flags`. -/
def extfsGetFstypeFromCompatFlags (compat incompat roCompat : UInt32) : ExtFsType :=
  let fstype := if compat &&& hasJournal.toUInt32 ≠ 0 then .ext3 else .ext2
  let fstype :=
    if roCompat &&& ext2RoCompatUnsupported ≠ 0 ∨ incompat &&& ext2IncompatUnsupported ≠ 0 then
      .ext3
    else fstype
  if roCompat &&& ext3RoCompatUnsupported ≠ 0 ∨ incompat &&& ext3IncompatUnsupported ≠ 0 then
    .ext4
  else fstype

/-- The type of a filesystem with these features. -/
def FeaturesTab.fstype (tab : FeaturesTab) : ExtFsType :=
  extfsGetFstypeFromCompatFlags tab.compat.toUInt32 tab.incompat.toUInt32 tab.roIncompat.toUInt32

/-- `extfs_check_compatibility`. -/
def extfsCheckCompatibility (tab : FeaturesTab) : Bool :=
  tab.compat &&& ~~~compatSupp = 0 ∧ tab.incompat &&& ~~~incompatSupp = 0 ∧
    tab.roIncompat &&& ~~~roCompatSupp = 0

/-! ## `extfs_mkfs` -/

/-- What `extfs_mkfs` finds out about the system. -/
structure ExtSystem where
  /-- `mke2fs -V` can be executed. -/
  installed : Bool
  /-- `check_prog_version`. -/
  e2fstoolsver : UInt64
  /-- `get_device_size` of the partition. -/
  devsize : Int64

/-- What `mke2fs` is executed with. -/
structure Mke2fs where
  /-- The list behind `-O`; empty without the option. -/
  features : List (List UInt8)
  /-- The command. -/
  plan : MkfsPlan

section Mkfs

variable (mem : Mem) (sys : ExtSystem) (d : Dico) (extfstype : ExtFsType)

/-- `devblksize`. -/
def blockSize : UInt64 := (dicoGetU64 mem d 0 FsysHeadKey.fsextblocksize).getD 4096

/-- `fsextrevision`: `EXT2_DYNAMIC_REV` if the archive has none. -/
def storedRevision : UInt64 := (dicoGetU64 mem d 0 FsysHeadKey.fsextrevision).getD 1

/-- The features of the archive. -/
def storedFeatures : Option FeaturesTab := do
  let compat ← dicoGetU64 mem d 0 FsysHeadKey.fsextfeaturecompat
  let incompat ← dicoGetU64 mem d 0 FsysHeadKey.fsextfeatureincompat
  let roIncompat ← dicoGetU64 mem d 0 FsysHeadKey.fsextfeaturerocompat
  some ⟨compat, incompat, roIncompat⟩

/-- The features of a filesystem that was none of these, or one of revision 0. -/
def defaultFeatures : FeaturesTab where
  compat := resizeInode ||| dirIndex ||| extAttr
  incompat := filetype
  roIncompat := sparseSuper

/-- The original features. -/
def originalFeatures : FeaturesTab :=
  match storedFeatures mem d with
  | some tab => if storedRevision mem d = 0 then defaultFeatures else tab
  | none => defaultFeatures

/-- The features that the requested type does not know are removed. -/
def removeFeatures (tab : FeaturesTab) : FeaturesTab :=
  mkfeatures.foldl (fun tab feature =>
    if feature.firstfs.number > extfstype.number then tab.clear feature.compat feature.mask
    else tab) tab

/-- From ext2 to ext3 or ext4. -/
def getsJournal (origextfstype : ExtFsType) : Bool :=
  origextfstype = .ext2 ∧ extfstype.number > ExtFsType.ext2.number

/-- From ext2 or ext3 to ext4. -/
def getsExtents (origextfstype : ExtFsType) : Bool :=
  origextfstype.number < ExtFsType.ext4.number ∧ extfstype.number ≥ ExtFsType.ext4.number

/-- The features that force the requested type are added if the original one was older. -/
def upgradeFeatures (origextfstype : ExtFsType) (tab : FeaturesTab) : FeaturesTab :=
  let tab :=
    if getsJournal extfstype origextfstype then { tab with compat := tab.compat ||| hasJournal }
    else tab
  if getsExtents extfstype origextfstype then
    { tab with
      incompat := tab.incompat ||| (extents ||| flexBg)
      roIncompat := tab.roIncompat ||| (dirNlink ||| extraIsize ||| gdtCsum ||| hugeFile) }
  else tab

/-- The device has at least 2^32 blocks. -/
def isLargeDevice (devblksize : UInt64) : Bool :=
  sys.devsize.toUInt64 / devblksize ≥ 4294967296

/-- What a large device needs. -/
def forceFeatures (devblksize : UInt64) (tab : FeaturesTab) : Option FeaturesTab :=
  if isLargeDevice sys devblksize then
    if extfstype.number < ExtFsType.ext4.number then none
    else if sys.e2fstoolsver < progver 1 42 0 then none
    else some
      { compat := tab.compat &&& ~~~resizeInode
        incompat := tab.incompat ||| incompat64bit
        roIncompat := tab.roIncompat ||| gdtCsum }
  else some tab

/-- `strfeatures`: each feature that the version knows, with `^` if it is not set; there is memory
for the list. -/
def strfeatures (tab : FeaturesTab) : List (List UInt8) :=
  mkfeatures.foldl (fun list feature =>
    if feature.firste2p ≤ sys.e2fstoolsver then
      if tab.get feature.compat &&& feature.mask ≠ 0 then strlistAdd true list feature.name
      else strlistAdd true list (ascii "^" ++ feature.name)
    else list) []

/-- The options and the command. -/
def extfsCommand (partition fsoptions uuid : List UInt8) (devblksize devisize fsextrevision : UInt64)
    (features : List (List UInt8)) : MkfsPlan where
  program := ascii "mke2fs "
  before := [ascii " -q ", ascii " -F ", ascii " -b " ++ formatLong devblksize ++ ascii " "]
  cut := List.take 16
  after :=
    (if sys.e2fstoolsver ≥ progver 1 41 4 ∧ uuid.length = 36 then
      [ascii " -U " ++ uuid ++ ascii " "]
    else []) ++
    [ascii " -I " ++ formatLong devisize ++ ascii " ",
      if sys.e2fstoolsver < progver 1 47 2 then
        ascii " -r " ++ formatInt fsextrevision.toUInt32.toInt32.toInt ++ ascii " "
      else ascii " -E revision=" ++ formatInt fsextrevision.toUInt32.toInt32.toInt ++ ascii " "] ++
    (if features ≠ [] then
      [ascii " -O " ++ strlistMerge 1024 (ascii ",") features ++ ascii " "]
    else []) ++
    (match dicoGetU64 mem d 0 FsysHeadKey.fsexteoptraidstride with
      | some temp64 => [ascii " -E stride=" ++ formatLong temp64 ++ ascii " "]
      | none => []) ++
    (match dicoGetU64 mem d 0 FsysHeadKey.fsexteoptraidstripewidth with
      | some temp64 =>
        if sys.e2fstoolsver ≥ progver 1 40 7 then
          [ascii " -E stripe-width=" ++ formatLong temp64 ++ ascii " "]
        else []
      | none => []) ++
    [ascii " " ++ fsoptions ++ ascii " "]
  partition := partition

/-- `extfs_mkfs` up to the execution of `mke2fs`, for a label that is known later. -/
def extfsPlan (partition fsoptions mkfsuuid : List UInt8) : Option Mke2fs :=
  let devblksize := blockSize mem d
  let tab := originalFeatures mem d
  if !sys.installed then none
  else if !extfsCheckCompatibility tab then none
  else if sys.devsize < 0 then none
  -- the division by the size of a block
  else if devblksize = 0 then none
  else
    match forceFeatures sys extfstype devblksize
        (upgradeFeatures extfstype tab.fstype (removeFeatures extfstype tab)) with
    | none => none
    | some used =>
      if sys.e2fstoolsver < extfstype.minver then none
      else
        let fsextrevision :=
          if getsJournal extfstype tab.fstype ∨ getsExtents extfstype tab.fstype then 1
          else storedRevision mem d
        let devisize :=
          if getsExtents extfstype tab.fstype then 256
          else (dicoGetU64 mem d 0 FsysHeadKey.fsinodesize).getD 256
        let features := if fsextrevision ≠ 0 then strfeatures sys used else []
        some ⟨features, extfsCommand mem sys d partition fsoptions (usedUuid d mkfsuuid) devblksize
          devisize fsextrevision features⟩

/-- `extfs_mkfs` up to the execution of `mke2fs`: the command. -/
def extfsMkfs (partition fsoptions mkfslabel mkfsuuid : List UInt8) : Option (List UInt8) :=
  (extfsPlan mem sys d extfstype partition fsoptions mkfsuuid).map fun run =>
    run.plan.command (usedLabel d mkfslabel)

variable {mem sys d extfstype}

/-- What the execution of `mke2fs` tells about the way to it. -/
theorem extfsPlan_run {partition fsoptions mkfsuuid : List UInt8} {run : Mke2fs}
    (executed : extfsPlan mem sys d extfstype partition fsoptions mkfsuuid = some run) :
    ∃ used, forceFeatures sys extfstype (blockSize mem d)
        (upgradeFeatures extfstype (originalFeatures mem d).fstype
          (removeFeatures extfstype (originalFeatures mem d))) = some used ∧
      extfstype.minver ≤ sys.e2fstoolsver ∧
      (run.features =
        if (if getsJournal extfstype (originalFeatures mem d).fstype ∨
            getsExtents extfstype (originalFeatures mem d).fstype then 1
          else storedRevision mem d) ≠ 0 then strfeatures sys used else []) ∧
      ∃ devisize fsextrevision, run.plan = extfsCommand mem sys d partition fsoptions
        (usedUuid d mkfsuuid) (blockSize mem d) devisize fsextrevision run.features := by
  unfold extfsPlan at executed
  dsimp only at executed
  split at executed
  · cases executed
  · split at executed
    · cases executed
    · split at executed
      · cases executed
      · split at executed
        · cases executed
        · cases forced : forceFeatures sys extfstype (blockSize mem d)
              (upgradeFeatures extfstype (originalFeatures mem d).fstype
                (removeFeatures extfstype (originalFeatures mem d))) with
          | none =>
            rw [forced] at executed
            cases executed
          | some used =>
            rw [forced] at executed
            dsimp only at executed
            split at executed
            · cases executed
            · next recent =>
              obtain rfl := Option.some.inj executed
              exact ⟨used, rfl, UInt64.not_lt.mp recent, rfl, _, _, rfl⟩

end Mkfs

end FsArchiver
