import FsArchiver.Mkfs

/-!
# Recreating an XFS filesystem

`xfs_mkfs`: the version of the filesystem and its features become options as far as the version of
`mkfs.xfs` knows them. A UUID that `mkfs.xfs` cannot set is set by `xfs_admin` afterwards.
-/
namespace FsArchiver

namespace XfsFeature

/-- `XFS_SB_FEAT_RO_COMPAT_FINOBT`. -/
def finobt : UInt64 := flagBit 0
/-- `XFS_SB_FEAT_RO_COMPAT_RMAPBT`. -/
def rmapbt : UInt64 := flagBit 1
/-- `XFS_SB_FEAT_RO_COMPAT_REFLINK`. -/
def reflink : UInt64 := flagBit 2
/-- `XFS_SB_FEAT_RO_COMPAT_INOBTCNT`. -/
def inobtcnt : UInt64 := flagBit 3
/-- `XFS_SB_FEAT_INCOMPAT_SPINODES`. -/
def spinodes : UInt64 := flagBit 1
/-- `XFS_SB_FEAT_INCOMPAT_BIGTIME`. -/
def bigtime : UInt64 := flagBit 3
/-- `XFS_SB_FEAT_INCOMPAT_NREXT64`. -/
def nrext64 : UInt64 := flagBit 5
/-- `XFS_SB_FEAT_INCOMPAT_EXCHRANGE`. -/
def exchrange : UInt64 := flagBit 6
/-- `XFS_SB_FEAT_INCOMPAT_PARENT`. -/
def parent : UInt64 := flagBit 7
/-- `XFS_SB_FEAT_INCOMPAT_METADIR`. -/
def metadir : UInt64 := flagBit 8
/-- `XFS_SB_FEAT_INCOMPAT_ZONED`. -/
def zoned : UInt64 := flagBit 9

/-- `FSA_XFS_FEATURE_RO_COMPAT_SUPP`. -/
def roCompatSupp : UInt64 := finobt ||| rmapbt ||| reflink ||| inobtcnt

/-- `FSA_XFS_FEATURE_INCOMPAT_SUPP`, with `FTYPE`, `META_UUID`, `NEEDSREPAIR` and `ZONE_GAPS`. -/
def incompatSupp : UInt64 :=
  flagBit 0 ||| spinodes ||| flagBit 2 ||| bigtime ||| flagBit 4 ||| nrext64 ||| exchrange ||| parent |||
    metadir ||| zoned ||| flagBit 10

end XfsFeature

open XfsFeature

/-- `XFS_SB_VERSION_4` and `XFS_SB_VERSION_5`. -/
inductive XfsVersion where
  | v4 | v5
  deriving DecidableEq

/-- What `xfs_mkfs` finds out about the system. -/
structure XfsSystem where
  /-- `mkfs.xfs -V` can be executed. -/
  installed : Bool
  /-- The first number of the version it prints. -/
  x : UInt64
  /-- The second number. -/
  y : UInt64
  /-- The third number. -/
  z : UInt64
  /-- `match_uname_r` finds a kernel of RHEL 7. -/
  rhel7 : Bool

/-- `xfs_check_compatibility`. -/
def xfsCheckCompatibility (compat roCompat incompat logIncompat : UInt64) : Bool :=
  compat &&& ~~~0 = 0 ∧ roCompat &&& ~~~roCompatSupp = 0 ∧ incompat &&& ~~~incompatSupp = 0 ∧
    logIncompat &&& ~~~0 = 0

/-- An option that is used from a version of `mkfs.xfs` on. -/
def xfsOption (known : Bool) (text : String) (optval : Bool) : List (List UInt8) :=
  if known then [ascii text ++ formatInt (if optval then 1 else 0) ++ ascii " "] else []

section Mkfs

variable (mem : Mem) (sys : XfsSystem) (d : Dico)

/-- `xfstoolsver`. -/
def XfsSystem.xfstoolsver : UInt64 := progver sys.x sys.y sys.z

/-- A mask of the archive. -/
def xfsFeatures (key : UInt16) : UInt64 := (dicoGetU64 mem d 0 key).getD 0

/-- `xfsver`: a filesystem of version 5 needs `mkfs.xfs` 4.3.0 to get its UUID. -/
def xfsVersion : XfsVersion :=
  let xfsver :=
    match dicoGetU64 mem d 0 FsysHeadKey.fsxfsversion with
    | none => .v4
    | some temp64 => if temp64 = 4 then .v4 else .v5
  if xfsver = .v5 ∧ sys.xfstoolsver < progver 4 3 0 then .v4 else xfsver

/-- The options for the features. -/
def xfsFeatureOptions (uuid : List UInt8) : List (List UInt8) :=
  let v5 : Bool := xfsVersion mem sys d = .v5
  let roCompat := xfsFeatures mem d FsysHeadKey.fsxfsfeaturerocompat
  let incompat := xfsFeatures mem d FsysHeadKey.fsxfsfeatureincompat
  let since (x y z : UInt64) : Bool := sys.xfstoolsver ≥ progver x y z
  xfsOption (since 3 2 0) " -m crc=" v5 ++
  xfsOption (since 3 2 1) " -m finobt=" (v5 ∧ roCompat &&& finobt ≠ 0) ++
  xfsOption (since 4 8 0) " -m rmapbt=" (v5 ∧ roCompat &&& rmapbt ≠ 0) ++
  xfsOption (since 4 9 0) " -m reflink=" (v5 ∧ roCompat &&& reflink ≠ 0) ++
  xfsOption (since 5 10 0) " -m inobtcount=" (v5 ∧ roCompat &&& inobtcnt ≠ 0) ++
  xfsOption (since 5 10 0) " -m bigtime=" (v5 ∧ incompat &&& bigtime ≠ 0) ++
  (if uuid.length = 36 ∧ since 4 3 0 then [ascii " -m uuid=" ++ uuid ++ ascii " "] else []) ++
  (if since 3 2 0 ∧ xfsVersion mem sys d = .v4 then [ascii " -n ftype=0 "] else []) ++
  xfsOption (since 4 2 0 ∧ !sys.rhel7) " -i sparse=" (v5 ∧ incompat &&& spinodes ≠ 0) ++
  xfsOption (since 5 19 0) " -i nrext64=" (v5 ∧ incompat &&& nrext64 ≠ 0) ++
  xfsOption (since 6 10 0) " -i exchange=" (incompat &&& exchrange ≠ 0) ++
  xfsOption (since 6 10 0) " -n parent=" (incompat &&& parent ≠ 0) ++
  xfsOption (since 6 13 0) " -m metadir=" (incompat &&& metadir ≠ 0) ++
  xfsOption (since 6 15 0) " -r zoned=" (incompat &&& zoned ≠ 0)

/-- The option for the size of a block. -/
def xfsBlockSize : List (List UInt8) :=
  match dicoGetU64 mem d 0 FsysHeadKey.fsxfsblocksize with
  | none => []
  | some temp64 =>
    if temp64 % 512 = 0 ∧ temp64 ≥ 512 ∧ temp64 ≤ 65536 then
      [ascii " -b size=" ++ formatLong temp64 ++ ascii " "]
    else []

/-- `xfs_mkfs` up to the execution of `mkfs.xfs`, for a label that is known later. -/
def xfsPlan (partition fsoptions mkfsuuid : List UInt8) : Option MkfsPlan :=
  if !sys.installed then none
  else if sys.x = 0 ∧ sys.y = 0 then none
  else if !xfsCheckCompatibility (xfsFeatures mem d FsysHeadKey.fsxfsfeaturecompat)
      (xfsFeatures mem d FsysHeadKey.fsxfsfeaturerocompat)
      (xfsFeatures mem d FsysHeadKey.fsxfsfeatureincompat)
      (xfsFeatures mem d FsysHeadKey.fsxfsfeaturelogincompat) then none
  else some
    { program := ascii "mkfs.xfs -f "
      before := []
      cut := List.take 12
      after := xfsBlockSize mem d ++ xfsFeatureOptions mem sys d (usedUuid d mkfsuuid) ++
        [ascii " " ++ fsoptions ++ ascii " "]
      partition := partition }

/-- `xfs_mkfs` up to the execution of `mkfs.xfs`: the command. -/
def xfsMkfsCommand (partition fsoptions mkfslabel mkfsuuid : List UInt8) : Option (List UInt8) :=
  (xfsPlan mem sys d partition fsoptions mkfsuuid).map fun plan =>
    plan.command (usedLabel d mkfslabel)

/-- What is appended to `xadmopts`. -/
def xfsAdminOptions (uuid : List UInt8) : List (List UInt8) :=
  if uuid.length = 36 ∧ sys.xfstoolsver < progver 4 3 0 then [ascii " -U " ++ uuid ++ ascii " "]
  else []

/-- The command with `xfs_admin`, if there are options for it. -/
def xfsAdminCommand (partition mkfsuuid : List UInt8) : Option (List UInt8) :=
  let xadmopts := strlcatTexts optionsSize [] (xfsAdminOptions sys (usedUuid d mkfsuuid))
  if xadmopts = [] then none
  else some (snprintfText optionsSize (ascii "xfs_admin " ++ xadmopts ++ ascii " " ++ partition))

/-- Commands one after the other, up to the first that does not exit with 0: those that are run, and
whether all have succeeded. -/
def execCommands (exec : List UInt8 → Bool) : List (List UInt8) → List (List UInt8) × Bool
  | [] => ([], true)
  | command :: rest =>
    if exec command then
      let (ran, done) := execCommands exec rest
      (command :: ran, done)
    else ([command], false)

/-- `xfs_mkfs` behind the check of the version: the commands that it runs, and its success. -/
def xfsMkfs (exec : List UInt8 → Bool) (partition fsoptions mkfslabel mkfsuuid : List UInt8) :
    List (List UInt8) × Bool :=
  match xfsMkfsCommand mem sys d partition fsoptions mkfslabel mkfsuuid with
  | none => ([], false)
  | some command => execCommands exec (command :: (xfsAdminCommand sys d partition mkfsuuid).toList)

/-- What every plan begins with. -/
theorem xfsPlan_front {mem : Mem} {sys : XfsSystem} {d : Dico}
    {partition fsoptions mkfsuuid : List UInt8} {plan : MkfsPlan}
    (planned : xfsPlan mem sys d partition fsoptions mkfsuuid = some plan) :
    plan.program = ascii "mkfs.xfs -f " ∧ plan.before = [] ∧ plan.cut = List.take 12 := by
  unfold xfsPlan at planned
  split at planned
  · cases planned
  · split at planned
    · cases planned
    · split at planned
      · cases planned
      · obtain rfl := Option.some.inj planned
        exact ⟨rfl, rfl, rfl⟩

end Mkfs

end FsArchiver
