import FsArchiver.FsGetinfo
import FsArchiver.SelectiveRestore
import FsArchiver.VolumePaths

/-!
# The partitions of a save

`filesystem_mount_partition` and what `oper_save` does to partitions around it. A partition that is
mounted already is mounted a second time at a directory of its own, if its options and its status
allow it; another one is mounted as the first type in `filesys[]` that recognises it. Everything that
was mounted is unmounted at the end, wherever the save was left, and the header that was made of a
partition is one that `oper_restore` accepts.
-/
namespace FsArchiver

open Lib

/-! ## `filesys[]` -/

/-- An entry of `filesys[]`, with the options that its `reqmntopt` adds to its lists. -/
structure FilesysEntry extends Filesys where
  name : List UInt8
  supportForAcls : Bool
  stable : Bool
  reqmntopt : List (List UInt8)
  badmntopt : List (List UInt8)

/-- `filesys[]`. -/
def filesys : List FilesysEntry :=
  let ext (name : List UInt8) : FilesysEntry :=
    { supportForXattr := true, winattr := false, savesymtargettype := false, name
      supportForAcls := true, stable := true, reqmntopt := []
      badmntopt := [ascii "nouser_xattr", ascii "noacl"] }
  [ext (ascii "ext2"), ext (ascii "ext3"), ext (ascii "ext4"), ext (ascii "reiserfs"),
    { ext (ascii "reiser4") with badmntopt := [] },
    { ext (ascii "btrfs") with badmntopt := [ascii "noacl"] },
    { ext (ascii "xfs") with badmntopt := [] },
    { ext (ascii "jfs") with badmntopt := [] },
    { supportForXattr := false, winattr := true, savesymtargettype := true, name := ascii "ntfs"
      supportForAcls := false, stable := false, reqmntopt := [ascii "streams_interface=xattr"]
      badmntopt := [] },
    { supportForXattr := false, winattr := false, savesymtargettype := false, name := ascii "vfat"
      supportForAcls := false, stable := true, reqmntopt := [], badmntopt := [] }]

theorem filesysNames_eq : filesysNames = filesys.map FilesysEntry.name := rfl

/-! ## Mounting -/

/-- `strlist_split`: it ends at the first item that is in the list already. -/
def strlistSplit (list : List (List UInt8)) : List (List UInt8) → List (List UInt8)
  | [] => list
  | item :: rest => if item ∈ list then list else strlistSplit (list ++ [item]) rest

/-- The options of the command line that are about partitions. -/
structure MountOptions where
  /-- Option `-A`. -/
  allowsaverw : Bool
  /-- Option `-a`. -/
  dontcheckmountopts : Bool
  /-- `experimental`. -/
  experimental : Bool

/-- What `generic_get_mntinfo` finds. -/
structure MntInfo where
  readwrite : Bool
  curmntdir : Path
  optbuf : List UInt8
  fsbuf : List UInt8

/-- What `statvfs64` tells of a filesystem. -/
structure SpaceStats where
  frsize : UInt64
  blocks : UInt64
  bfree : UInt64

/-- What the calls for a partition answer. -/
structure PartitionCalls where
  /-- `generic_get_mntinfo`, if it returns 0. -/
  mntinfo : Option MntInfo
  /-- `mount` with `MS_BIND` succeeds. -/
  bindWorks : Bool
  device : Device
  /-- `mount` succeeds with the type of an entry of `filesys[]`. -/
  mountWorks : Nat → Bool
  /-- `lgetxattr` fails with `ENOTSUP` for an extended attribute. -/
  noXattr : Bool
  /-- It does so for the access list. -/
  noAcl : Bool
  statvfs : Option SpaceStats
  /-- `filesys[].umount` returns 0. -/
  umountWorks : Nat → Bool

/-- The fields of `s_devinfo` in `oper_save.c`. -/
structure DevInfo where
  devpath : Path
  partmount : Path
  fstype : Option Nat
  mountedbyfsa : Bool

/-- What is done to partitions and their directories. -/
inductive MountCall where
  /-- `mkdir_recursive`. -/
  | mkdir (partmount : Path)
  /-- A filesystem of a type is mounted a second time. -/
  | bind (fstype : Nat) (curmntdir partmount : Path) (ok : Bool)
  /-- `filesys[].mount`. -/
  | mount (fstype : Nat) (devpath partmount : Path) (ok : Bool)
  /-- `filesys[].umount`. -/
  | umount (fstype : Nat) (devpath partmount : Path) (ok : Bool)
  | rmdir (partmount : Path)
  deriving DecidableEq

/-- `filesystem_mount_partition`: what it leaves in `s_devinfo`, the header if it returns 0, and what
it has done. -/
structure MountedPartition where
  devinfo : DevInfo
  dicofsinfo : Option Dico
  calls : List MountCall

/-- The options with which a filesystem is mounted are right, or nobody asks. -/
def mountOptionsAllowed (options : MountOptions) (entry : FilesysEntry) (optbuf : List UInt8) :
    Bool :=
  let curmntopt := strlistSplit [] (tokens (· = 0x2c) optbuf)
  options.dontcheckmountopts ||
    (entry.reqmntopt.all (fun option => curmntopt.contains option) &&
      entry.badmntopt.all fun option => !curmntopt.contains option)

/-- A partition that is mounted already is mounted a second time: whether this is done, what is left in
`s_devinfo`, and the calls. -/
def bindPartition (options : MountOptions) (calls : PartitionCalls) (devinfo : DevInfo)
    (info : MntInfo) : Bool × DevInfo × List MountCall :=
  let devinfo := { devinfo with mountedbyfsa := false }
  if info.readwrite && !options.allowsaverw then (false, devinfo, [])
  else
    match genericGetFstype info.fsbuf with
    | none => (false, { devinfo with fstype := none }, [])
    | some fstype =>
      let devinfo := { devinfo with fstype := some fstype }
      match filesys[fstype]? with
      | none => (false, devinfo, [])
      | some entry =>
        if !mountOptionsAllowed options entry info.optbuf then (false, devinfo, [])
        else
          (calls.bindWorks, { devinfo with mountedbyfsa := calls.bindWorks },
            [.mkdir devinfo.partmount,
              .bind fstype info.curmntdir devinfo.partmount calls.bindWorks])

/-- `filesys[].mount`: `extfs_mount` also checks the type. -/
def filesysMount (calls : PartitionCalls) (fstype : Nat) : Bool :=
  (decide (fstype ≥ 3) || calls.device.test fstype) && calls.mountWorks fstype

/-- The loop over `filesys[]`, for some of its entries: `tmptype`, and the calls. -/
def tryFilesystems (calls : PartitionCalls) (devinfo : DevInfo) :
    List Nat → Option Nat × List MountCall
  | [] => (none, [])
  | fstype :: rest =>
    if !calls.device.test fstype then tryFilesystems calls devinfo rest
    else
      let tried : MountCall :=
        .mount fstype devinfo.devpath devinfo.partmount (filesysMount calls fstype)
      if filesysMount calls fstype then (some fstype, [tried])
      else
        let (tmptype, log) := tryFilesystems calls devinfo rest
        (tmptype, tried :: log)

/-- A partition that is not mounted is mounted: whether this is done, what is left in `s_devinfo`, and
the calls. -/
def mountPartition (calls : PartitionCalls) (devinfo : DevInfo) : Bool × DevInfo × List MountCall :=
  match tryFilesystems calls devinfo (List.range filesys.length) with
  | (none, log) => (false, devinfo, .mkdir devinfo.partmount :: log)
  | (some fstype, log) =>
    (true, { devinfo with fstype := some fstype, mountedbyfsa := true },
      .mkdir devinfo.partmount :: log)

/-- The filesystem is stable, or experimental ones are allowed; and its attributes can be read, if it
has them and somebody asks. -/
def filesystemUsable (options : MountOptions) (calls : PartitionCalls) (entry : FilesysEntry) :
    Bool :=
  (options.experimental || entry.stable) &&
    (options.dontcheckmountopts ||
      !(entry.supportForXattr && calls.noXattr) && !(entry.supportForAcls && calls.noAcl))

/-- The items of the header that are the same for all filesystems. -/
def commonCalls (devinfo : DevInfo) (entry : FilesysEntry) (stats : SpaceStats) : List DicoCall :=
  [dicoAddString 0 FsysHeadKey.filesystem entry.name,
    dicoAddString 0 FsysHeadKey.mntpath devinfo.partmount,
    dicoAddString 0 FsysHeadKey.origdev devinfo.devpath,
    dicoAddU64 0 FsysHeadKey.bytestotal (stats.frsize * stats.blocks),
    dicoAddU64 0 FsysHeadKey.bytesused
      (stats.frsize * stats.blocks - stats.frsize * stats.bfree)]

/-- The header of a filesystem that was mounted, if it can be made. -/
def partitionHeader (options : MountOptions) (mntopt2string : UInt32 → List UInt8)
    (calls : PartitionCalls) (devinfo : DevInfo) : Option Dico := do
  let fstype ← devinfo.fstype
  let entry ← filesys[fstype]?
  if !filesystemUsable options calls entry then none
  else
    let stats ← calls.statvfs
    let info ← calls.device.getinfo mntopt2string fstype
    some (dicoAddAll Dico.alloc (commonCalls devinfo entry stats ++ info))

/-- `filesystem_mount_partition`. -/
def filesystemMountPartition (options : MountOptions) (mntopt2string : UInt32 → List UInt8)
    (calls : PartitionCalls) (devinfo : DevInfo) : MountedPartition :=
  let (ok, devinfo, log) :=
    match calls.mntinfo with
    | some info => bindPartition options calls devinfo info
    | none => mountPartition calls devinfo
  { devinfo, calls := log
    dicofsinfo := if ok then partitionHeader options mntopt2string calls devinfo else none }

/-! ## `oper_save` -/

/-- An argument of `savefs`. -/
structure BlockDevice where
  /-- `argv[i]`. -/
  devpath : Path
  /-- What `generate_random_tmpdir` makes of the time. -/
  time : List UInt8
  /-- `stat64` succeeds, for a block device. -/
  isBlk : Bool
  calls : PartitionCalls
  /-- The walk that evaluates the cost. -/
  analysed : TreeCalls
  /-- The walk that copies the contents. -/
  copied : TreeCalls

/-- An argument with the directory for it. -/
structure PartitionArg extends BlockDevice where
  partmount : Path

/-- `generate_random_tmpdir`. A buffer of `PATH_MAX` is long enough. -/
def generateRandomTmpdir (time : List UInt8) (n : Nat) : Path :=
  ascii "/tmp/fsa/" ++ time ++ [0x2d] ++ twoDigits n

/-- The arguments with their directories. -/
def partitionArgs (devices : List BlockDevice) : List PartitionArg :=
  devices.mapIdx fun i device => { device with partmount := generateRandomTmpdir device.time i }

section Save

variable (options : MountOptions) (mntopt2string : UInt32 → List UInt8)

/-- `filesystem_mount_partition` for an argument. -/
def PartitionArg.mounted (arg : PartitionArg) : MountedPartition :=
  filesystemMountPartition options mntopt2string arg.calls ⟨arg.devpath, arg.partmount, none, false⟩

/-- What the walks of `oper_save` know of the argument. -/
def PartitionArg.toFsArg (arg : PartitionArg) : FsArg where
  isBlk := arg.isBlk
  mounted := do
    let mounted := arg.mounted options mntopt2string
    let d ← mounted.dicofsinfo
    let fstype ← mounted.devinfo.fstype
    let entry ← filesys[fstype]?
    some (entry.toFilesys, d)
  analysed := arg.analysed
  copied := arg.copied

/-- The loop that mounts the partitions, up to the first one that fails. -/
def mountArgs : List PartitionArg → List (PartitionArg × MountedPartition)
  | [] => []
  | arg :: rest =>
    let mounted := arg.mounted options mntopt2string
    (arg, mounted) :: if mounted.dicofsinfo.isSome then mountArgs rest else []

/-- What is done at the end for a partition. -/
def unmountPartition (arg : PartitionArg) (devinfo : DevInfo) : List MountCall :=
  if devinfo.mountedbyfsa then
    match devinfo.fstype with
    | none => []
    | some fstype =>
      .umount fstype devinfo.devpath devinfo.partmount (arg.calls.umountWorks fstype) ::
        if arg.calls.umountWorks fstype then [.rmdir devinfo.partmount] else []
  else []

/-- `oper_save` for filesystems: whether it returns 0, what is on the queue, and what was done to
partitions. The loop at `do_create_success` comes behind everything else, however that went. -/
def operSavePartitions (mem : Mem) (md5 : Md5) (opts : SaveOptions) (setup : SaveSetup)
    (devices : List BlockDevice) : (Bool × Savear) × List MountCall :=
  let args := partitionArgs devices
  let begun := devices.all BlockDevice.isBlk && setup.threads
  let mounted := if begun then mountArgs options mntopt2string args else []
  (operSave mem md5 opts setup
      (.filesystems (args.map fun arg => arg.toFsArg options mntopt2string)),
    mounted.flatMap (fun (_, partition) => partition.calls) ++
      mounted.flatMap fun (arg, partition) => unmountPartition arg partition.devinfo)

end Save

/-! ## What is done to partitions -/

/-- What `filesystem_mount_partition` can do for an argument, with what is left in `s_devinfo`. -/
inductive MountsAs (options : MountOptions) (arg : PartitionArg) : DevInfo → List MountCall → Prop
  /-- The partition is mounted already, in a way that is not allowed. -/
  | refused (fstype : Option Nat) :
      MountsAs options arg ⟨arg.devpath, arg.partmount, fstype, false⟩ []
  /-- It is mounted already, and a second time now if that works. -/
  | bound {info : MntInfo} {fstype : Nat} {entry : FilesysEntry}
      (found : arg.calls.mntinfo = some info)
      (status : info.readwrite = true → options.allowsaverw = true)
      (type : genericGetFstype info.fsbuf = some fstype) (known : filesys[fstype]? = some entry)
      (allowed : mountOptionsAllowed options entry info.optbuf = true) (ok : Bool) :
      MountsAs options arg ⟨arg.devpath, arg.partmount, some fstype, ok⟩
        [.mkdir arg.partmount, .bind fstype info.curmntdir arg.partmount ok]
  /-- No type that recognises it can be mounted. -/
  | unknown {log : List MountCall} (free : arg.calls.mntinfo = none)
      (failed : ∀ call ∈ log, ∃ fstype, call = .mount fstype arg.devpath arg.partmount false ∧
        arg.calls.device.test fstype = true) :
      MountsAs options arg ⟨arg.devpath, arg.partmount, none, false⟩ (.mkdir arg.partmount :: log)
  /-- It is mounted as the first type that recognises it and can be mounted. -/
  | mounted {log : List MountCall} (free : arg.calls.mntinfo = none)
      (failed : ∀ call ∈ log, ∃ fstype, call = .mount fstype arg.devpath arg.partmount false ∧
        arg.calls.device.test fstype = true)
      {fstype : Nat} (recognised : arg.calls.device.test fstype = true) :
      MountsAs options arg ⟨arg.devpath, arg.partmount, some fstype, true⟩
        (.mkdir arg.partmount :: log ++ [.mount fstype arg.devpath arg.partmount true])

section Cases

variable {options : MountOptions} {mntopt2string : UInt32 → List UInt8} {arg : PartitionArg}

/-- The types that are tried before the one that is mounted fail. -/
theorem tryFilesystems_log {calls : PartitionCalls} {devinfo : DevInfo} (fstypes : List Nat) :
    ∃ log, (∀ call ∈ log, ∃ fstype, call = .mount fstype devinfo.devpath devinfo.partmount false ∧
        calls.device.test fstype = true) ∧
      ((tryFilesystems calls devinfo fstypes = (none, log)) ∨
        ∃ fstype, calls.device.test fstype = true ∧ tryFilesystems calls devinfo fstypes =
          (some fstype, log ++ [.mount fstype devinfo.devpath devinfo.partmount true])) := by
  induction fstypes with
  | nil => exact ⟨[], List.forall_mem_nil _, .inl rfl⟩
  | cons first rest ih =>
    obtain ⟨log, failed, ends⟩ := ih
    cases recognised : calls.device.test first with
    | false =>
      simp only [tryFilesystems, recognised, Bool.not_false, ↓reduceIte]
      exact ⟨log, failed, ends⟩
    | true =>
      simp only [tryFilesystems, recognised, Bool.not_true, Bool.false_eq_true, ↓reduceIte]
      cases works : filesysMount calls first with
      | true => exact ⟨[], List.forall_mem_nil _, .inr ⟨first, recognised, rfl⟩⟩
      | false =>
        refine ⟨.mount first devinfo.devpath devinfo.partmount false :: log,
          List.forall_mem_cons.mpr ⟨⟨first, rfl, recognised⟩, failed⟩, ?_⟩
        simp only [Bool.false_eq_true, ↓reduceIte]
        apply ends.imp
        · intro none
          rw [none]
        · rintro ⟨fstype, known, some⟩
          rw [some]
          exact ⟨fstype, known, rfl⟩

/-- What `filesystem_mount_partition` does. -/
theorem PartitionArg.mounted_cases :
    MountsAs options arg (arg.mounted options mntopt2string).devinfo
      (arg.mounted options mntopt2string).calls := by
  unfold PartitionArg.mounted filesystemMountPartition
  cases found : arg.calls.mntinfo with
  | none =>
    obtain ⟨log, failed, none | ⟨fstype, recognised, some⟩⟩ := @tryFilesystems_log arg.calls
      ⟨arg.devpath, arg.partmount, none, false⟩ (List.range filesys.length)
    · simp only [mountPartition, none]
      exact .unknown found failed
    · simp only [mountPartition, some]
      exact .mounted found failed recognised
  | some info =>
    simp only [bindPartition]
    by_cases status : (info.readwrite && !options.allowsaverw) = true
    · simp only [status, ↓reduceIte]
      exact .refused none
    · simp only [status, Bool.false_eq_true, ↓reduceIte]
      cases type : genericGetFstype info.fsbuf with
      | none => exact .refused none
      | some fstype =>
        dsimp only
        cases known : filesys[fstype]? with
        | none => exact .refused (some fstype)
        | some entry =>
          dsimp only
          cases allowed : mountOptionsAllowed options entry info.optbuf with
          | false => exact .refused (some fstype)
          | true =>
            have readonly : info.readwrite = true → options.allowsaverw = true := by
              intro rw
              simpa [rw] using status
            exact .bound found readonly type known allowed arg.calls.bindWorks

end Cases

/-! ## Mounts in order -/

/-- The directories of a save, and what is mounted on them. -/
structure MountTable where
  dirs : List Path
  mounted : List (Nat × Path)

namespace MountTable

/-- Nothing is mounted. -/
def empty : MountTable := ⟨[], []⟩

/-- A directory that was made, with nothing on it. -/
def Free (table : MountTable) (place : Path) : Prop :=
  place ∈ table.dirs ∧ place ∉ table.mounted.map Prod.snd

instance (table : MountTable) (place : Path) : Decidable (table.Free place) :=
  inferInstanceAs (Decidable (_ ∧ _))

/-- The calls that may follow each other: filesystems are mounted on directories that are free, and
only such filesystems are unmounted and such directories removed. -/
def next (table : MountTable) : MountCall → Option MountTable
  | .mkdir place =>
    if place ∈ table.dirs then none else some { table with dirs := table.dirs ++ [place] }
  | .bind fstype _ place ok | .mount fstype _ place ok =>
    if table.Free place then
      some (if ok then { table with mounted := table.mounted ++ [(fstype, place)] } else table)
    else none
  | .umount fstype _ place ok =>
    if (fstype, place) ∈ table.mounted then
      some (if ok then { table with mounted := table.mounted.erase (fstype, place) } else table)
    else none
  | .rmdir place =>
    if table.Free place then some { table with dirs := table.dirs.erase place } else none

/-- Each filesystem that is mounted has a directory of its own. -/
structure Placed (table : MountTable) : Prop where
  distinct : (table.mounted.map Prod.snd).Nodup
  made : ∀ place ∈ table.mounted.map Prod.snd, place ∈ table.dirs

variable {table table' : MountTable}

/-- A filesystem is mounted. -/
theorem Placed.mount (placed : table.Placed) {fstype : Nat} {place : Path}
    (free : table.Free place) :
    Placed { table with mounted := table.mounted ++ [(fstype, place)] } := by
  constructor
  · rw [List.map_append, List.nodup_append]
    refine ⟨placed.distinct, List.nodup_singleton _, ?_⟩
    intro other member own single same
    rw [same, List.mem_singleton.mp single] at member
    exact free.2 member
  · intro other member
    rw [List.map_append] at member
    rcases List.mem_append.mp member with before | own
    · exact placed.made other before
    · rw [List.mem_singleton.mp own]
      exact free.1

/-- A filesystem is unmounted. -/
theorem Placed.umount (placed : table.Placed) (entry : Nat × Path) :
    Placed { table with mounted := table.mounted.erase entry } := by
  have fewer : (table.mounted.erase entry).Sublist table.mounted := List.erase_sublist
  constructor
  · exact (fewer.map Prod.snd).nodup placed.distinct
  · intro place member
    exact placed.made place ((fewer.map Prod.snd).subset member)

/-- A directory is removed. -/
theorem Placed.rmdir (placed : table.Placed) {place : Path} (free : table.Free place) :
    Placed { table with dirs := table.dirs.erase place } := by
  constructor
  · exact placed.distinct
  · intro other member
    apply (List.mem_erase_of_ne ?_).mpr (placed.made other member)
    intro same
    rw [same] at member
    exact free.2 member

/-- Every call keeps the directories apart. -/
theorem next_placed {call : MountCall} (placed : table.Placed)
    (accepted : table.next call = some table') : table'.Placed := by
  cases call with
  | mkdir place =>
    simp only [next, Option.ite_none_left_eq_some, Option.some.injEq] at accepted
    obtain ⟨-, rfl⟩ := accepted
    exact ⟨placed.distinct, fun other member => List.mem_append_left _ (placed.made other member)⟩
  | bind fstype source place ok =>
    simp only [next, Option.ite_none_right_eq_some, Option.some.injEq] at accepted
    obtain ⟨free, rfl⟩ := accepted
    cases ok with
    | false => exact placed
    | true => exact placed.mount free
  | mount fstype source place ok =>
    simp only [next, Option.ite_none_right_eq_some, Option.some.injEq] at accepted
    obtain ⟨free, rfl⟩ := accepted
    cases ok with
    | false => exact placed
    | true => exact placed.mount free
  | umount fstype source place ok =>
    simp only [next, Option.ite_none_right_eq_some, Option.some.injEq] at accepted
    obtain ⟨-, rfl⟩ := accepted
    cases ok with
    | false => exact placed
    | true => exact placed.umount _
  | rmdir place =>
    simp only [next, Option.ite_none_right_eq_some, Option.some.injEq] at accepted
    obtain ⟨free, rfl⟩ := accepted
    exact placed.rmdir free

/-- So does every run of calls. -/
theorem follow_placed {calls : List MountCall} (placed : table.Placed)
    (accepted : calls.foldlM next table = some table') : table'.Placed := by
  induction calls generalizing table with
  | nil =>
    cases accepted
    exact placed
  | cons call rest ih =>
    rw [List.foldlM_cons] at accepted
    obtain ⟨between, first, rest⟩ := Option.bind_eq_some_iff.mp accepted
    exact ih (next_placed placed first) rest

/-- Attempts that fail change nothing. -/
theorem follow_failed {calls : List MountCall} {devpath place : Path} (free : table.Free place)
    (failed : ∀ call ∈ calls, ∃ fstype, call = .mount fstype devpath place false) :
    calls.foldlM next table = some table := by
  induction calls with
  | nil => rfl
  | cons call rest ih =>
    obtain ⟨⟨fstype, rfl⟩, later⟩ := List.forall_mem_cons.mp failed
    rw [List.foldlM_cons, next, if_pos free]
    exact ih later

end MountTable

/-- What is mounted of a partition. -/
def DevInfo.held (devinfo : DevInfo) : List (Nat × Path) :=
  if devinfo.mountedbyfsa then (devinfo.fstype.map fun fstype => (fstype, devinfo.partmount)).toList
  else []

/-- What cannot be unmounted of it. -/
def PartitionArg.stuck (arg : PartitionArg) (devinfo : DevInfo) : List (Nat × Path) :=
  devinfo.held.filter fun (fstype, _) => !arg.calls.umountWorks fstype

section Follow

variable {options : MountOptions} {mntopt2string : UInt32 → List UInt8} {arg : PartitionArg}
  {table : MountTable} {devinfo : DevInfo} {calls : List MountCall}

/-- The calls for a partition may follow what was done for others. -/
theorem MountsAs.follow (mountsAs : MountsAs options arg devinfo calls) (placed : table.Placed)
    (unused : arg.partmount ∉ table.dirs) :
    ∃ dirs ⊆ [arg.partmount], calls.foldlM MountTable.next table =
      some ⟨table.dirs ++ dirs, table.mounted ++ devinfo.held⟩ := by
  have first : table.next (.mkdir arg.partmount) =
      some ⟨table.dirs ++ [arg.partmount], table.mounted⟩ := if_neg unused
  have free : MountTable.Free ⟨table.dirs ++ [arg.partmount], table.mounted⟩ arg.partmount := by
    constructor
    · exact List.mem_append_right _ (List.mem_singleton_self _)
    · exact fun member => unused (placed.made _ member)
  have tried {log : List MountCall} (failed : ∀ call ∈ log, ∃ fstype,
      call = .mount fstype arg.devpath arg.partmount false ∧
        arg.calls.device.test fstype = true) :
      log.foldlM MountTable.next ⟨table.dirs ++ [arg.partmount], table.mounted⟩ =
        some ⟨table.dirs ++ [arg.partmount], table.mounted⟩ := by
    apply MountTable.follow_failed free
    intro call member
    obtain ⟨fstype, same, -⟩ := failed call member
    exact ⟨fstype, same⟩
  cases mountsAs with
  | refused fstype =>
    refine ⟨[], List.nil_subset _, ?_⟩
    simp [DevInfo.held]
  | @bound info fstype entry found status type known allowed ok =>
    refine ⟨[arg.partmount], List.Subset.refl _, ?_⟩
    rw [List.foldlM_cons, first]
    simp only [Option.bind_eq_bind, Option.bind_some, List.foldlM_cons, List.foldlM_nil,
      MountTable.next, free, ↓reduceIte]
    cases ok <;> simp [DevInfo.held]
  | unknown notMounted failed =>
    refine ⟨[arg.partmount], List.Subset.refl _, ?_⟩
    rw [List.foldlM_cons, first]
    simp only [Option.bind_eq_bind, Option.bind_some, tried failed]
    simp [DevInfo.held]
  | @mounted log notMounted failed fstype recognised =>
    refine ⟨[arg.partmount], List.Subset.refl _, ?_⟩
    rw [List.cons_append, List.foldlM_cons, first]
    simp only [Option.bind_eq_bind, Option.bind_some, List.foldlM_append, tried failed,
      List.foldlM_cons, List.foldlM_nil, MountTable.next, free, ↓reduceIte]
    simp [DevInfo.held]

/-- All partitions are mounted one after the other. -/
theorem mounted_follow {args : List PartitionArg}
    (distinct : (args.map PartitionArg.partmount).Nodup) (placed : table.Placed)
    (unused : ∀ arg ∈ args, arg.partmount ∉ table.dirs) :
    ∃ dirs, (args.flatMap fun arg => (arg.mounted options mntopt2string).calls).foldlM
        MountTable.next table =
      some ⟨dirs, table.mounted ++
        args.flatMap fun arg => (arg.mounted options mntopt2string).devinfo.held⟩ := by
  induction args generalizing table with
  | nil => exact ⟨table.dirs, by simp⟩
  | cons arg rest ih =>
    obtain ⟨unusedHere, unusedRest⟩ := List.forall_mem_cons.mp unused
    obtain ⟨other, distinct⟩ := List.nodup_cons.mp distinct
    have own := @PartitionArg.mounted_cases options mntopt2string arg
    obtain ⟨dirs, inside, followed⟩ := own.follow placed unusedHere
    have unusedThen : ∀ later ∈ rest, later.partmount ∉ table.dirs ++ dirs := by
      intro later member
      apply List.not_mem_append (unusedRest later member)
      intro mine
      apply other
      rw [← List.mem_singleton.mp (inside mine)]
      exact List.mem_map_of_mem member
    obtain ⟨all, rest⟩ := ih distinct (MountTable.follow_placed placed followed) unusedThen
    refine ⟨all, ?_⟩
    rw [List.flatMap_cons, List.foldlM_append, followed]
    simpa using rest

/-- A partition is unmounted, if that works. -/
theorem unmount_follow {dirs : List Path} {failed later : List (Nat × Path)}
    (placed : MountTable.Placed ⟨dirs, failed ++ (devinfo.held ++ later)⟩) :
    ∃ left, (unmountPartition arg devinfo).foldlM MountTable.next
        ⟨dirs, failed ++ (devinfo.held ++ later)⟩ =
      some ⟨left, failed ++ (arg.stuck devinfo ++ later)⟩ := by
  cases byFsa : devinfo.mountedbyfsa with
  | false =>
    refine ⟨dirs, ?_⟩
    simp [unmountPartition, PartitionArg.stuck, DevInfo.held, byFsa]
  | true =>
    cases type : devinfo.fstype with
    | none =>
      refine ⟨dirs, ?_⟩
      simp [unmountPartition, PartitionArg.stuck, DevInfo.held, byFsa, type]
    | some fstype =>
      have held : devinfo.held = [(fstype, devinfo.partmount)] := by
        simp [DevInfo.held, byFsa, type]
      rw [held] at placed
      rw [PartitionArg.stuck, held]
      cases works : arg.calls.umountWorks fstype with
      | false =>
        refine ⟨dirs, ?_⟩
        simp [unmountPartition, byFsa, type, works, MountTable.next]
      | true =>
        -- nothing else is mounted on the directory
        have distinct := placed.distinct
        simp only [List.map_append, List.map_cons, List.map_nil] at distinct
        have gone : devinfo.partmount ∉ (failed ++ later).map Prod.snd := by
          rw [List.map_append]
          exact (List.nodup_middle.mp distinct).notMem
        have before : (fstype, devinfo.partmount) ∉ failed := by
          intro member
          exact gone (List.mem_map_of_mem (List.mem_append_left _ member))
        have made : devinfo.partmount ∈ dirs := placed.made _ (by simp)
        refine ⟨dirs.erase devinfo.partmount, ?_⟩
        have erased : (failed ++ ([(fstype, devinfo.partmount)] ++ later)).erase
            (fstype, devinfo.partmount) = failed ++ later := by
          rw [List.erase_append_right _ before, List.singleton_append, List.erase_cons_head]
        have free : MountTable.Free ⟨dirs, failed ++ later⟩ devinfo.partmount := ⟨made, gone⟩
        simp only [unmountPartition, byFsa, type, works, ↓reduceIte, List.foldlM_cons,
          List.foldlM_nil, MountTable.next, erased]
        simp [free, works]

/-- All partitions are unmounted one after the other. -/
theorem unmounted_follow {devinfo : PartitionArg → DevInfo} {args : List PartitionArg}
    {dirs : List Path} {failed : List (Nat × Path)}
    (placed : MountTable.Placed ⟨dirs, failed ++ args.flatMap fun arg => (devinfo arg).held⟩) :
    ∃ left, (args.flatMap fun arg => unmountPartition arg (devinfo arg)).foldlM MountTable.next
        ⟨dirs, failed ++ args.flatMap fun arg => (devinfo arg).held⟩ =
      some ⟨left, failed ++ args.flatMap fun arg => arg.stuck (devinfo arg)⟩ := by
  induction args generalizing dirs failed with
  | nil => exact ⟨dirs, rfl⟩
  | cons arg rest ih =>
    simp only [List.flatMap_cons] at placed ⊢
    obtain ⟨between, first⟩ := @unmount_follow arg (devinfo arg) dirs failed _ placed
    have placed := MountTable.follow_placed placed first
    rw [← List.append_assoc] at placed
    obtain ⟨left, others⟩ := ih placed
    refine ⟨left, ?_⟩
    rw [List.append_assoc, List.append_assoc] at others
    rw [List.foldlM_append, first]
    exact others

/-- The partitions that are dealt with are the first ones. -/
theorem mountArgs_first (args : List PartitionArg) :
    ∃ begun, begun <+: args ∧ mountArgs options mntopt2string args =
      begun.map fun arg => (arg, arg.mounted options mntopt2string) := by
  induction args with
  | nil => exact ⟨[], List.prefix_rfl, rfl⟩
  | cons arg rest ih =>
    obtain ⟨begun, first, same⟩ := ih
    rw [mountArgs]
    cases (arg.mounted options mntopt2string).dicofsinfo.isSome with
    | false => exact ⟨[arg], ⟨rest, rfl⟩, rfl⟩
    | true =>
      refine ⟨arg :: begun, List.cons_prefix_cons.mpr ⟨rfl, first⟩, ?_⟩
      simp only [↓reduceIte, same, List.map_cons]

end Follow

/-! ## Directories of their own -/

/-- The number is behind the last dash. -/
theorem takeWhile_generateRandomTmpdir (time : List UInt8) (n : Nat) :
    (generateRandomTmpdir time n).reverse.takeWhile (· ≠ 0x2d) = (twoDigits n).reverse := by
  have digit : ∀ byte ∈ (twoDigits n).reverse, decide (byte ≠ 0x2d) = true := by
    intro byte member
    rw [List.mem_reverse, twoDigits, List.mem_append, List.mem_replicate, List.mem_map] at member
    rw [decide_eq_true_eq]
    rcases member with ⟨-, rfl⟩ | ⟨digit, member, rfl⟩
    · decide
    · have isDigit := Nat.isDigit_of_mem_toDigits (by decide) (by decide) member
      simp only [Char.isDigit, Bool.and_eq_true, decide_eq_true_eq] at isDigit
      have lower := UInt32.le_iff_toNat_le.mp isDigit.1
      obtain ⟨same, -⟩ := toNat_of_mem_toDigits member
      intro dash
      rw [dash] at same
      have lower : 48 ≤ digit.toNat := lower
      have : digit.toNat = 45 := same.symm
      omega
  rw [generateRandomTmpdir, List.reverse_append, List.takeWhile_append_of_pos digit,
    List.reverse_append]
  simp

/-- Different partitions have different directories. -/
theorem partitionArgs_distinct (devices : List BlockDevice) :
    ((partitionArgs devices).map PartitionArg.partmount).Nodup := by
  rw [List.Nodup, List.pairwise_iff_getElem]
  intro i j _ _ before same
  simp only [partitionArgs, List.getElem_map, List.getElem_mapIdx] at same
  have numbers := congrArg (fun path : Path => path.reverse.takeWhile (· ≠ 0x2d)) same
  simp only [takeWhile_generateRandomTmpdir] at numbers
  have values := congrArg digitsValue (List.reverse_injective numbers)
  rw [digitsValue_twoDigits, digitsValue_twoDigits] at values
  omega

/-! ## All that is done -/

/-- What may be done for an argument. -/
inductive MountAllowed (options : MountOptions) (arg : PartitionArg) : MountCall → Prop
  | mkdir : MountAllowed options arg (.mkdir arg.partmount)
  /-- A partition that is mounted already is mounted a second time if it is mounted read-only or
  option `-A` was used, and if its options are right or option `-a` was used. -/
  | bind {info : MntInfo} {fstype : Nat} {entry : FilesysEntry}
      (found : arg.calls.mntinfo = some info)
      (status : info.readwrite = true → options.allowsaverw = true)
      (type : genericGetFstype info.fsbuf = some fstype) (known : filesys[fstype]? = some entry)
      (allowed : mountOptionsAllowed options entry info.optbuf = true) (ok : Bool) :
      MountAllowed options arg (.bind fstype info.curmntdir arg.partmount ok)
  /-- One that is not mounted is mounted as a type that recognises it. -/
  | mount {fstype : Nat} (free : arg.calls.mntinfo = none)
      (recognised : arg.calls.device.test fstype = true) (ok : Bool) :
      MountAllowed options arg (.mount fstype arg.devpath arg.partmount ok)
  | umount (fstype : Nat) (ok : Bool) :
      MountAllowed options arg (.umount fstype arg.devpath arg.partmount ok)
  | rmdir : MountAllowed options arg (.rmdir arg.partmount)

section Disciplined

variable {options : MountOptions} {mntopt2string : UInt32 → List UInt8} {arg : PartitionArg}
  {devinfo : DevInfo} {calls : List MountCall}

theorem MountsAs.calls_allowed (mountsAs : MountsAs options arg devinfo calls) :
    ∀ call ∈ calls, MountAllowed options arg call := by
  cases mountsAs with
  | refused fstype => exact List.forall_mem_nil _
  | bound found status type known allowed ok =>
    rw [List.forall_mem_cons, List.forall_mem_singleton]
    exact ⟨.mkdir, .bind found status type known allowed ok⟩
  | unknown notMounted failed =>
    rw [List.forall_mem_cons]
    refine ⟨.mkdir, ?_⟩
    intro call member
    obtain ⟨fstype, rfl, recognised⟩ := failed call member
    exact .mount notMounted recognised false
  | mounted notMounted failed recognised =>
    rw [List.cons_append, List.forall_mem_cons]
    refine ⟨.mkdir, ?_⟩
    intro call member
    rcases List.mem_append.mp member with tried | own
    · obtain ⟨fstype, rfl, recognised⟩ := failed call tried
      exact .mount notMounted recognised false
    · rw [List.mem_singleton.mp own]
      exact .mount notMounted recognised true

/-- What is left in `s_devinfo` is about the argument. -/
theorem MountsAs.devinfo_paths (mountsAs : MountsAs options arg devinfo calls) :
    devinfo.devpath = arg.devpath ∧ devinfo.partmount = arg.partmount := by
  cases mountsAs <;> exact ⟨rfl, rfl⟩

theorem unmountPartition_allowed (mountsAs : MountsAs options arg devinfo calls) :
    ∀ call ∈ unmountPartition arg devinfo, MountAllowed options arg call := by
  obtain ⟨sameDev, sameDir⟩ := mountsAs.devinfo_paths
  unfold unmountPartition
  rw [sameDev, sameDir]
  cases devinfo.mountedbyfsa with
  | false => exact List.forall_mem_nil _
  | true =>
    cases devinfo.fstype with
    | none => exact List.forall_mem_nil _
    | some fstype =>
      simp only [↓reduceIte, List.forall_mem_cons]
      refine ⟨.umount fstype _, ?_⟩
      cases arg.calls.umountWorks fstype with
      | false => exact List.forall_mem_nil _
      | true =>
        simp only [↓reduceIte, List.forall_mem_singleton]
        exact .rmdir

/-- In every run of `oper_save` filesystems are mounted on directories of their own, made for them,
and only such filesystems are unmounted. What is mounted in the end could not be unmounted. Nothing is
mounted that may not be: a partition that is mounted read-write needs option `-A`, one that is mounted
with the wrong options needs `-a`, and one that is not mounted is mounted as a type that recognises
it. -/
theorem save_mounts_disciplined (mem : Mem) (md5 : Md5) (opts : SaveOptions) (setup : SaveSetup)
    (devices : List BlockDevice) :
    let calls := (operSavePartitions options mntopt2string mem md5 opts setup devices).2
    ∃ table, calls.foldlM MountTable.next MountTable.empty = some table ∧
      (∀ fstype place, (fstype, place) ∈ table.mounted → ∃ arg ∈ partitionArgs devices,
        arg.partmount = place ∧ arg.calls.umountWorks fstype = false) ∧
      ∀ call ∈ calls, ∃ arg ∈ partitionArgs devices, MountAllowed options arg call := by
  dsimp only [operSavePartitions]
  cases devices.all BlockDevice.isBlk && setup.threads with
  | false => exact ⟨.empty, rfl, fun _ _ => nofun, List.forall_mem_nil _⟩
  | true =>
    obtain ⟨begun, first, same⟩ := @mountArgs_first options mntopt2string (partitionArgs devices)
    simp only [↓reduceIte, same, List.flatMap_map]
    have distinct : (begun.map PartitionArg.partmount).Nodup :=
      (first.sublist.map _).nodup (partitionArgs_distinct devices)
    have nothing : MountTable.empty.Placed := ⟨List.nodup_nil, List.forall_mem_nil _⟩
    obtain ⟨dirs, mounted⟩ := @mounted_follow options mntopt2string MountTable.empty begun distinct
      nothing fun _ _ => List.not_mem_nil
    have placed := MountTable.follow_placed nothing mounted
    obtain ⟨left, unmounted⟩ := @unmounted_follow
      (fun arg => (arg.mounted options mntopt2string).devinfo) begun dirs [] placed
    refine ⟨⟨left, begun.flatMap fun arg =>
      arg.stuck (arg.mounted options mntopt2string).devinfo⟩, ?_, ?_, ?_⟩
    · rw [List.foldlM_append, mounted]
      exact unmounted
    · intro fstype place member
      obtain ⟨arg, among, stuck⟩ := List.mem_flatMap.mp member
      obtain ⟨held, fails⟩ := List.mem_filter.mp stuck
      obtain ⟨-, sameDir⟩ := (@PartitionArg.mounted_cases options mntopt2string arg).devinfo_paths
      refine ⟨arg, first.subset among, ?_, by simpa using fails⟩
      unfold DevInfo.held at held
      split at held
      · obtain ⟨_, -, entry⟩ := Option.map_eq_some_iff.mp (Option.mem_toList.mp held)
        exact sameDir.symm.trans (congrArg Prod.snd entry)
      · cases held
    · intro call member
      rcases List.mem_append.mp member with mounting | unmounting
      · obtain ⟨arg, among, own⟩ := List.mem_flatMap.mp mounting
        exact ⟨arg, first.subset among, PartitionArg.mounted_cases.calls_allowed call own⟩
      · obtain ⟨arg, among, own⟩ := List.mem_flatMap.mp unmounting
        exact ⟨arg, first.subset among,
          unmountPartition_allowed PartitionArg.mounted_cases call own⟩

end Disciplined

end FsArchiver
