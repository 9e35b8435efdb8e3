import FsArchiver.Mkfs

/-!
# Saving and recreating a btrfs filesystem

`btrfs_getinfo`, which stores what is in a superblock, and `btrfs_mkfs` up to the execution of
`mkfs.btrfs`.
-/
namespace FsArchiver

namespace BtrfsFeature

/-- `BTRFS_FEATURE_INCOMPAT_METADATA_UUID`. -/
def metadataUuid : UInt64 := flagBit 10
/-- `BTRFS_FEATURE_INCOMPAT_ZONED`. -/
def zoned : UInt64 := flagBit 12
/-- `BTRFS_FEATURE_INCOMPAT_SIMPLE_QUOTA`. -/
def simpleQuota : UInt64 := flagBit 16

/-- `FSA_BTRFS_FEATURE_COMPAT_SUPP`. -/
def compatSupp : UInt64 := 0

/-- `FSA_BTRFS_FEATURE_COMPAT_RO_SUPP`: the three lowest bits. -/
def compatRoSupp : UInt64 := flagBit 0 ||| flagBit 1 ||| flagBit 2

/-- `FSA_BTRFS_FEATURE_INCOMPAT_SUPP`: the lowest 15 bits and `SIMPLE_QUOTA`. -/
def incompatSupp : UInt64 :=
  flagBit 0 ||| flagBit 1 ||| flagBit 2 ||| flagBit 5 ||| flagBit 3 ||| flagBit 4 ||| flagBit 7 ||| flagBit 6 |||
    flagBit 8 ||| flagBit 9 ||| metadataUuid ||| flagBit 11 ||| zoned ||| flagBit 13 ||| flagBit 14 |||
    simpleQuota

end BtrfsFeature

open BtrfsFeature

/-- `btrfs_check_compatibility`. -/
def btrfsCheckCompatibility (compat incompat roCompat : UInt64) : Bool :=
  compat &&& ~~~compatSupp = 0 ∧ incompat &&& ~~~BtrfsFeature.incompatSupp = 0 ∧
    roCompat &&& ~~~compatRoSupp = 0

/-! ## `btrfs_getinfo` -/

/-- A UUID. -/
@[ext] structure Uuid where
  /-- `BTRFS_FSID_SIZE` bytes. -/
  bytes : List UInt8
  /-- There are 16 of them. -/
  length_eq : bytes.length = 16

/-- What `btrfs_getinfo` reads of `btrfs_super_block`. -/
structure BtrfsSuperBlock where
  /-- `dev_item.fsid`. -/
  devItemFsid : Uuid
  /-- The string in `label`. -/
  label : List UInt8
  /-- It ends at its NUL. -/
  label_clean : 0 ∉ label
  /-- It lies in `BTRFS_LABEL_SIZE` bytes. -/
  label_short : label.length < 256
  /-- `sectorsize`. -/
  sectorsize : UInt32
  /-- `compat_flags`. -/
  compatFlags : UInt64
  /-- `incompat_flags`. -/
  incompatFlags : UInt64
  /-- `compat_ro_flags`. -/
  compatRoFlags : UInt64

/-- A hexadecimal digit in lower case. -/
def hexDigit (n : Nat) : UInt8 := if n < 10 then (0x30 + n).toUInt8 else (0x57 + n).toUInt8

/-- The two digits of a byte. -/
def hexByte (byte : UInt8) : List UInt8 := [hexDigit (byte.toNat / 16), hexDigit (byte.toNat % 16)]

/-- `uuid_unparse_lower`. -/
def uuidUnparseLower (uuid : Uuid) : List UInt8 :=
  (uuid.bytes.take 4).flatMap hexByte ++ ascii "-" ++
    ((uuid.bytes.drop 4).take 2).flatMap hexByte ++ ascii "-" ++
    ((uuid.bytes.drop 6).take 2).flatMap hexByte ++ ascii "-" ++
    ((uuid.bytes.drop 8).take 2).flatMap hexByte ++ ascii "-" ++
    (uuid.bytes.drop 10).flatMap hexByte

/-- What `btrfs_getinfo` adds to the dico; the sector size goes through a variable of 16 bits. -/
def btrfsCalls (sb : BtrfsSuperBlock) : List DicoCall :=
  [dicoAddString 0 FsysHeadKey.fslabel sb.label,
    dicoAddString 0 FsysHeadKey.fsuuid (uuidUnparseLower sb.devItemFsid),
    dicoAddU64 0 FsysHeadKey.fsbtrfssectorsize sb.sectorsize.toUInt16.toUInt64,
    dicoAddU64 0 FsysHeadKey.btrfsfeaturecompat sb.compatFlags,
    dicoAddU64 0 FsysHeadKey.btrfsfeatureincompat sb.incompatFlags,
    dicoAddU64 0 FsysHeadKey.btrfsfeaturerocompat sb.compatRoFlags]

/-- `btrfs_getinfo` behind the reading of the superblock. -/
def btrfsGetinfo (d : Dico) (sb : BtrfsSuperBlock) : Option Dico :=
  let d := dicoAddAll d (btrfsCalls sb)
  if btrfsCheckCompatibility sb.compatFlags sb.incompatFlags sb.compatRoFlags then
    some (dicoAddAll d [dicoAddU64 0 FsysHeadKey.minfsaversion (fsaVersionBuild 0 6 4 0)])
  else none

/-! ## `btrfs_mkfs` -/

/-- What `btrfs_mkfs` finds out about the system. -/
structure BtrfsSystem where
  /-- `btrfs --version` and `mkfs.btrfs` can be executed. -/
  installed : Bool
  /-- The first number of the version. -/
  x : UInt64
  /-- The second number. -/
  y : UInt64
  /-- The third number. -/
  z : UInt64

section Mkfs

variable (mem : Mem) (sys : BtrfsSystem) (d : Dico)

/-- `btrfstoolver`. -/
def BtrfsSystem.btrfstoolver : UInt64 := progver sys.x sys.y sys.z

/-- `compat_flags`, `incompat_flags` and `compat_ro_flags` of the archive, if all are there. -/
def btrfsStoredFlags : UInt64 × UInt64 × UInt64 :=
  match dicoGetU64 mem d 0 FsysHeadKey.btrfsfeaturecompat,
      dicoGetU64 mem d 0 FsysHeadKey.btrfsfeatureincompat,
      dicoGetU64 mem d 0 FsysHeadKey.btrfsfeaturerocompat with
  | some compatFlags, some incompatFlags, some compatRoFlags =>
    (compatFlags, incompatFlags, compatRoFlags)
  | _, _, _ => (0, 0, 0)

/-- A feature in the list for `-O`, from a version on: it is enabled or disabled. -/
def btrfsFeature (known : Bool) (set : Bool) (name : List UInt8) : List (List UInt8) :=
  if known then [if set then name ++ ascii "," else ascii "^" ++ name ++ ascii ","] else []

/-- `features`. -/
def btrfsFeatures (incompatFlags : UInt64) : List UInt8 :=
  strlcatTexts optionsSize []
    (btrfsFeature (sys.btrfstoolver ≥ progver 5 12 0) (incompatFlags &&& zoned ≠ 0)
      (ascii "zoned") ++
    btrfsFeature (sys.btrfstoolver ≥ progver 6 7 0) (incompatFlags &&& simpleQuota ≠ 0)
      (ascii "squota"))

/-- The option for the UUID: that of the command line if there is one, else that of the archive. -/
def btrfsUuidOption (mkfsuuid : List UInt8) : List (List UInt8) :=
  if mkfsuuid ≠ [] then [ascii " -U '" ++ mkfsuuid ++ ascii "' "]
  else
    match fsysString d FsysHeadKey.fsuuid with
    | some buffer => [ascii " -U '" ++ buffer ++ ascii "' "]
    | none => []

/-- `btrfs_mkfs` up to the execution of `mkfs.btrfs`, for a label that is known later. -/
def btrfsPlan (partition fsoptions mkfsuuid : List UInt8) : Option MkfsPlan :=
  let (compatFlags, incompatFlags, compatRoFlags) := btrfsStoredFlags mem d
  let features := btrfsFeatures sys incompatFlags
  if !sys.installed then none
  else if sys.x = 0 ∧ sys.y = 0 then none
  else if !btrfsCheckCompatibility compatFlags incompatFlags compatRoFlags then none
  else some
    { program := ascii "mkfs.btrfs -f "
      before := []
      cut := id
      after := btrfsUuidOption d mkfsuuid ++
        (if features ≠ [] then [ascii " -O '" ++ features ++ ascii "' "] else []) ++
        (match dicoGetU64 mem d 0 FsysHeadKey.fsbtrfssectorsize with
          | some temp64 => [ascii " -s " ++ formatLong temp64 ++ ascii " "]
          | none => []) ++
        [ascii " " ++ fsoptions ++ ascii " "]
      partition := partition }

/-- `btrfs_mkfs` up to the execution of `mkfs.btrfs`: the command. -/
def btrfsMkfs (partition fsoptions mkfslabel mkfsuuid : List UInt8) : Option (List UInt8) :=
  (btrfsPlan mem sys d partition fsoptions mkfsuuid).map fun plan =>
    plan.command (usedLabel d mkfslabel)

/-- What every plan begins with. -/
theorem btrfsPlan_front {mem : Mem} {sys : BtrfsSystem} {d : Dico}
    {partition fsoptions mkfsuuid : List UInt8} {plan : MkfsPlan}
    (planned : btrfsPlan mem sys d partition fsoptions mkfsuuid = some plan) :
    plan.program = ascii "mkfs.btrfs -f " ∧ plan.before = [] ∧ plan.cut = id := by
  unfold btrfsPlan at planned
  dsimp only at planned
  split at planned
  · cases planned
  · split at planned
    · cases planned
    · split at planned
      · cases planned
      · obtain rfl := Option.some.inj planned
        exact ⟨rfl, rfl, rfl⟩

end Mkfs

end FsArchiver
