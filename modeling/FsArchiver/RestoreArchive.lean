import FsArchiver.MainHeader
import FsArchiver.SaveTrees

/-!
# Restoring an archive

The main thread of `oper_restore`: it reads the headers in front of the contents, checks what was
asked for against them, and then makes, mounts, fills and unmounts one filesystem after the other,
or fills a directory. The queue is what the threads behind it deliver. The operation is not
interrupted.
-/
namespace FsArchiver

open Lib

namespace FsysHeadKey

/-- `FSYSHEADKEY_FILESYSTEM`. -/
def filesystem : UInt16 := 1
/-- `FSYSHEADKEY_BYTESTOTAL`. -/
def bytestotal : UInt16 := 3
/-- `FSYSHEADKEY_BYTESUSED`. -/
def bytesused : UInt16 := 4
/-- `FSYSHEADKEY_MOUNTINFO`. -/
def mountinfo : UInt16 := 26

end FsysHeadKey

/-! ## Filesystems -/

/-- `FSA_MAX_FSNAMELEN`. -/
def maxFsnamelen : Nat := 128

/-- The names in `filesys[]`. -/
def filesysNames : List (List UInt8) :=
  [ascii "ext2", ascii "ext3", ascii "ext4", ascii "reiserfs", ascii "reiser4", ascii "btrfs",
    ascii "xfs", ascii "jfs", ascii "ntfs", ascii "vfat"]

/-- `generic_get_fstype`. -/
def genericGetFstype (fsname : List UInt8) : Option Nat :=
  filesysNames.findIdx? fun name => decide (name = fsname)

/-- The version of the program: `PACKAGE_VERSION_A` to `PACKAGE_VERSION_D`. -/
def curver : UInt64 := fsaVersionBuild 0 8 10 0

/-- An argument of `restfs`, with what the calls for it answer. -/
structure FsTarget where
  /-- `dest`, if it fits its buffer. -/
  dest : Option (List UInt8)
  /-- `mkfs`, if it is there. -/
  mkfs : Option (List UInt8)
  /-- The path of `generate_random_tmpdir`. -/
  mntbuf : Path
  /-- `generic_get_mntinfo` finds a partition among those that are mounted. -/
  isMounted : List UInt8 → Bool
  /-- The `mkfs` of a filesystem for a partition succeeds. -/
  mkfsWorks : Nat → Dico → List UInt8 → Bool
  /-- Its `mount` succeeds with some options. -/
  mountWorks : Nat → List UInt8 → Bool
  /-- Its `umount` succeeds. -/
  umountWorks : Nat → Bool

/-- What is done to a partition. -/
inductive FsCall where
  | mkfs (partition : List UInt8) (fstype : Nat)
  | mount (partition : List UInt8) (mntbuf : Path)
  | umount (partition : List UInt8) (mntbuf : Path)
  deriving DecidableEq

/-- What was done in a filesystem that was made. -/
structure FilledFs where
  number : Nat
  /-- The system calls in it. -/
  log : Log
  stats : Stats

/-- `s_extractar` with the calls for partitions made so far, and the filesystems that were made. -/
structure Restoring where
  exar : Extractar
  calls : List FsCall
  filled : List FilledFs

/-- A call was made. -/
def Restoring.call (st : Restoring) (made : FsCall) : Restoring :=
  { st with calls := st.calls ++ [made] }

/-- The name of the filesystem to make: that of the command line, or that of the archive. -/
def targetFilesystem (target : FsTarget) (dicofs : Dico) : Option (List UInt8) :=
  match target.mkfs with
  | some tempbuf => some (snprintfText maxFsnamelen tempbuf)
  | none => (dicoGetString dicofs 0 FsysHeadKey.filesystem maxFsnamelen).map fun data =>
      cString (stringBuffer maxFsnamelen data)

/-- `mountinfo`: the options to mount a filesystem with. -/
def mountOptions (dicofs : Dico) : List UInt8 :=
  match dicoGetString dicofs 0 FsysHeadKey.mountinfo 4096 with
  | some data => cString (stringBuffer 4096 data)
  | none => []

/-- `extractar_filesystem_extract` up to its call of `mkfs`: the partition, the filesystem, and the
queue behind the header of the contents. -/
def filesystemAccepts (mem : Mem) (target : FsTarget) (dicofs : Dico) (queue : List QueueData) :
    Option (List UInt8 × Nat × List QueueData) := do
  let partition ← target.dest
  let minver := (dicoGetU64 mem dicofs 0 FsysHeadKey.minfsaversion).getD (fsaVersionBuild 0 6 4 0)
  if curver < minver then none
  else if target.isMounted partition then none
  else
    match dequeueHeader queue with
    | .error _ => none
    | .ok (head, queue) =>
      if head.magic ≠ .fsyb then none
      else do
        let filesystem ← targetFilesystem target dicofs
        let _ ← dicoGetU64 mem dicofs 0 FsysHeadKey.bytestotal
        let _ ← dicoGetU64 mem dicofs 0 FsysHeadKey.bytesused
        let fstype ← genericGetFstype filesystem
        some (partition, fstype, queue)

/-- What `oper_restore` was called with, and what it depends on. -/
structure RestoreSetup where
  /-- The options: `encryptalgo` and `encryptpass`. -/
  options : Options
  gcrypt : Gcrypt
  /-- What all restorations have in common. -/
  ctx : Context
  /-- `convert_argv_to_strdicos` succeeds. -/
  argvWorks : Bool
  /-- `dicoargv[]`. -/
  dicoargv : Nat → Option FsTarget
  /-- `pthread_create` succeeds for all threads. -/
  threads : Bool
  /-- `stat64` succeeds for `argv[0]`, a directory. -/
  isDir : Bool

/-- What is the same for all objects of a filesystem. -/
def RestoreSetup.fsContext (setup : RestoreSetup) (i : Nat) (target : FsTarget) (fstype : Nat) :
    Context :=
  { setup.ctx with
    destdir := target.mntbuf, fsid := UInt16.ofNat i
    ntfs := decide (filesysNames[fstype]? = some (ascii "ntfs")) }

/-- `extractar_filesystem_extract` behind `mount`, up to `filesystem_extract_umount`: whether `ret`
is 0 there. The magic of the last header is not looked at in a way that changes `ret`. -/
def fillFilesystem (ctx : Context) (exar : Extractar) : Bool × Extractar :=
  match extractarExtractReadObjects ctx exar with
  | (some 0, exar) =>
    if exar.errors > 0 then (false, exar)
    else
      match dequeueHeader exar.queue with
      | .error _ => (false, exar)
      | .ok (_, queue) => (true, { exar with queue })
  | (_, exar) => (false, exar)

/-- `extractar_filesystem_extract`: whether it returns 0. The log starts again behind `mount`, as a
filesystem that was just made is empty. -/
def extractarFilesystemExtract (setup : RestoreSetup) (i : Nat) (target : FsTarget) (dicofs : Dico)
    (st : Restoring) : Bool × Restoring :=
  match filesystemAccepts setup.ctx.mem target dicofs st.exar.queue with
  | none => (false, st)
  | some (partition, fstype, queue) =>
    let st := st.call (.mkfs partition fstype)
    if !target.mkfsWorks fstype dicofs partition then (false, st)
    else
      let st := st.call (.mount partition target.mntbuf)
      if !target.mountWorks fstype (mountOptions dicofs) then (false, st)
      else
        let (ret, exar) :=
          fillFilesystem (setup.fsContext i target fstype) { st.exar with queue, log := [] }
        let st : Restoring := { st with exar, filled := st.filled ++ [⟨i, exar.log, exar.stats⟩] }
        (ret && target.umountWorks fstype, st.call (.umount partition target.mntbuf))

/-! ## The headers in front of the contents -/

/-- The operations of `oper_restore`. -/
inductive Operation where
  | restfs | restdir | archinfo
  deriving DecidableEq

/-- `archinfo_show_fshead` succeeds. -/
def archinfoShowFshead (mem : Mem) (dicofshead : Dico) : Bool :=
  (dicoGetData dicofshead 0 FsysHeadKey.filesystem maxFsnamelen).isSome &&
    (dicoGetU64 mem dicofshead 0 FsysHeadKey.bytestotal).isSome &&
    (dicoGetU64 mem dicofshead 0 FsysHeadKey.bytesused).isSome

/-- `dicoargv[]`, which only `restfs` fills. -/
def RestoreSetup.requested (setup : RestoreSetup) (oper : Operation) (i : Nat) : Option FsTarget :=
  if oper = .restfs then setup.dicoargv i else none

/-- `g_fsbitmap[]`. -/
def RestoreSetup.fsbitmap (setup : RestoreSetup) (oper : Operation) (fsid : UInt16) : UInt8 :=
  match oper with
  | .restfs => if (setup.dicoargv fsid.toNat).isSome then 1 else 0
  | .restdir => if fsid = 0 then 1 else 0
  | .archinfo => 0

/-- The operation requested on the command line matches the type of the archive. -/
def operationMatches (oper : Operation) (archtype : UInt32) : Bool :=
  if archtype = ArchType.directories.code then decide (oper ≠ .restfs)
  else if archtype = ArchType.filesystems.code then decide (oper ≠ .restdir)
  else false

/-- The loop that reads the headers of filesystems, from number `i` on and for so many, with
`cost_global`. -/
def readFsinfos (mem : Mem) (oper : Operation) (requested : Nat → Option FsTarget) :
    Nat → Nat → UInt64 → List QueueData → Option (List Dico × UInt64 × List QueueData)
  | 0, _, cost, queue => some ([], cost, queue)
  | count + 1, i, cost, queue =>
    match dequeueHeader queue with
    | .error _ => none
    | .ok (head, queue) =>
      if head.magic ≠ .fsin then none
      else if oper = .archinfo ∧ !archinfoShowFshead mem head.dico then none
      else
        let fscost := (dicoGetU64 mem head.dico 0 fsysTotalcost).getD 0
        let cost := if (requested i).isSome then cost + fscost else cost
        (readFsinfos mem oper requested count (i + 1) cost queue).map fun (rest, cost, queue) =>
          (head.dico :: rest, cost, queue)

/-- How many headers of filesystems there are. -/
def ArchInfo.fsinfos (ai : ArchInfo) : Nat :=
  if ai.archtype = ArchType.filesystems.code then min ai.fscount.toNat maxFsPerArch else 0

/-- The header of an archive of directories, with `cost_global`. -/
def readDirsinfo (mem : Mem) (ai : ArchInfo) (cost : UInt64) (queue : List QueueData) :
    Option (UInt64 × List QueueData) :=
  if ai.archtype = ArchType.directories.code ∧ ai.hasdirsinfohead = 1 then
    match dequeueHeader queue with
    | .error _ => none
    | .ok (head, queue) =>
      if head.magic ≠ .dirs then none
      else (dicoGetU64 mem head.dico 0 dirsinfoTotalcost).map (·, queue)
  else some (cost, queue)

/-- What the main thread knows once it has read the headers. -/
structure Headers where
  ai : ArchInfo
  dicofsinfo : List Dico
  costGlobal : UInt64
  queue : List QueueData

/-- No id on the command line is past the end of the archive. -/
def fsidsValid (requested : Nat → Option FsTarget) (fscount : UInt64) : Bool :=
  (List.range maxFsPerArch).all fun i => (requested i).isNone || decide (i < fscount.toNat)

/-- `oper_restore` up to the contents; nothing when it goes to `do_extract_error`. -/
def readHeaders (setup : RestoreSetup) (oper : Operation) (ai : ArchInfo) (queue : List QueueData) :
    Option Headers := do
  if oper = .restfs ∧ !setup.argvWorks then none
  else if !setup.threads then none
  else
    match extractarReadMainhead setup.gcrypt setup.ctx.md5 setup.ctx.mem setup.options.encryptpass ai
      queue with
    | .error _ => none
    | .ok (ai, _, queue) =>
      if oper ≠ .archinfo ∧ curver < ai.minfsaver then none
      else if !operationMatches oper ai.archtype then none
      else if !fsidsValid (setup.requested oper) ai.fscount then none
      else do
        let (dicofsinfo, cost, queue) ←
          readFsinfos setup.ctx.mem oper (setup.requested oper) ai.fsinfos 0 0 queue
        let (costGlobal, queue) ← readDirsinfo setup.ctx.mem ai cost queue
        if oper ≠ .archinfo ∧ ai.cryptalgo ≠ encryptNone.toUInt32 ∧
            setup.options.encryptalgo ≠ encryptBlowfish then none
        else some { ai, dicofsinfo, costGlobal, queue }

/-! ## The contents -/

/-- The loop over the filesystems of an archive from number `i` on, with `totalerr`. -/
def extractFilesystems (setup : RestoreSetup) :
    Nat → List Dico → Nat → Restoring → Bool × Nat × Restoring
  | _, [], totalerr, st => (true, totalerr, st)
  | i, dicofs :: rest, totalerr, st =>
    match setup.dicoargv i with
    | none => extractFilesystems setup (i + 1) rest totalerr st
    | some target =>
      match extractarFilesystemExtract setup i target dicofs
        { st with exar := { st.exar with stats := {} } } with
      | (false, st) => (false, totalerr, st)
      | (true, st) =>
        extractFilesystems setup (i + 1) rest (totalerr + statsErrcount st.exar.stats) st

/-- The contents of an archive of directories go to a directory. Errors that
`extractar_extract_read_objects` counts itself are not looked at. -/
def extractDirectories (setup : RestoreSetup) (st : Restoring) : Bool × Nat × Restoring :=
  if !setup.isDir then (false, 0, st)
  else
    match extractarExtractReadObjects { setup.ctx with fsid := 0, ntfs := false }
      { st.exar with stats := {} } with
    | (some 0, exar) => (true, statsErrcount exar.stats, { st with exar })
    | (_, exar) => (false, 0, { st with exar })

/-- `oper_restore`: whether it returns 0. -/
def operRestore (setup : RestoreSetup) (oper : Operation) (ai : ArchInfo) (queue : List QueueData) :
    Bool × Restoring :=
  let st : Restoring :=
    { exar := { queue, log := [], stats := {}, errors := 0, skipped := [] }, calls := [], filled := [] }
  match readHeaders setup oper ai queue with
  | none => (false, st)
  | some headers =>
    let st := { st with exar := { st.exar with queue := headers.queue } }
    let (ok, totalerr, st) :=
      if oper = .archinfo then (true, 0, st)
      else if headers.ai.archtype = ArchType.filesystems.code then
        extractFilesystems setup 0 headers.dicofsinfo 0 st
      else extractDirectories setup st
    (ok && decide (totalerr = 0), st)

/-! ## What is done to partitions -/

/-- A filesystem of the archive that is restored to a partition. -/
structure FsRound where
  number : Nat
  target : FsTarget
  /-- Its header in the archive. -/
  dicofs : Dico
  partition : List UInt8
  fstype : Nat

namespace FsRound

/-- Its `mkfs` succeeds. -/
def makes (round : FsRound) : Bool :=
  round.target.mkfsWorks round.fstype round.dicofs round.partition

/-- Its `mkfs` and its `mount` succeed, so that it is filled. -/
def mounts (round : FsRound) : Bool :=
  round.makes && round.target.mountWorks round.fstype (mountOptions round.dicofs)

/-- Its `umount` succeeds too. -/
def closes (round : FsRound) : Bool :=
  round.mounts && round.target.umountWorks round.fstype

/-- The calls for it: each one if those before it succeeded. -/
def calls (round : FsRound) : List FsCall :=
  .mkfs round.partition round.fstype ::
    if round.makes then .mount round.partition round.target.mntbuf ::
      if round.mounts then [.umount round.partition round.target.mntbuf] else []
    else []

/-- It was asked for, with a partition that is not mounted and a filesystem that is known. -/
structure Asked (requested : Nat → Option FsTarget) (infos : List Dico) (round : FsRound) :
    Prop where
  requested : requested round.number = some round.target
  info : infos[round.number]? = some round.dicofs
  dest : round.target.dest = some round.partition
  free : round.target.isMounted round.partition = false
  known : (targetFilesystem round.target round.dicofs).bind genericGetFstype = some round.fstype

end FsRound

/-- The calls for partitions from filesystem `from'` on are those of rounds one behind the other. -/
structure Disciplined (requested : Nat → Option FsTarget) (infos : List Dico) (from' : Nat)
    (ok : Bool) (calls : List FsCall) (filled : List FilledFs) (rounds : List FsRound) :
    Prop where
  calls : calls = rounds.flatMap FsRound.calls
  /-- Those that could be mounted are filled. -/
  filled : filled.map FilledFs.number = (rounds.filter FsRound.mounts).map FsRound.number
  /-- They are in the order of the archive. -/
  order : (rounds.map FsRound.number).Pairwise (· < ·)
  past : ∀ round ∈ rounds, from' ≤ round.number
  asked : ∀ round ∈ rounds, round.Asked requested infos
  /-- A filesystem is made, mounted and unmounted before the next one is made. -/
  closed : ∀ round ∈ rounds.dropLast, round.closes = true
  /-- An operation that succeeds leaves nothing mounted. -/
  unmounted : ok = true → ∀ round ∈ rounds, round.closes = true
  /-- It restores all that was asked for. -/
  complete : ok = true → ∀ i, from' ≤ i → i < infos.length → (requested i).isSome = true →
    i ∈ rounds.map FsRound.number

section Calls

variable {setup : RestoreSetup} {i : Nat} {target : FsTarget} {dicofs : Dico} {st st' : Restoring}

/-- What is known of a target once its filesystem is accepted. -/
theorem filesystemAccepts_target {mem : Mem} {queue rest : List QueueData}
    {partition : List UInt8} {fstype : Nat}
    (accepted : filesystemAccepts mem target dicofs queue = some (partition, fstype, rest)) :
    target.dest = some partition ∧ target.isMounted partition = false ∧
      (targetFilesystem target dicofs).bind genericGetFstype = some fstype := by
  unfold filesystemAccepts at accepted
  cases dest : target.dest with
  | none =>
    rw [dest] at accepted
    cases accepted
  | some own =>
    rw [dest] at accepted
    simp only [Option.bind_eq_bind, Option.bind_some] at accepted
    split at accepted
    · cases accepted
    · split at accepted
      · cases accepted
      next mounted =>
        split at accepted
        · cases accepted
        · split at accepted
          · cases accepted
          · simp only [Option.bind_eq_some_iff, Option.some.injEq, Prod.mk.injEq] at accepted
            obtain ⟨filesystem, named, -, -, -, -, code, known, same, sameCode, -⟩ := accepted
            rw [← same, ← sameCode, named]
            exact ⟨rfl, by simpa using mounted, known⟩

/-- What `extractar_filesystem_extract` can do, with its result. -/
inductive ExtractsFs (setup : RestoreSetup) (i : Nat) (target : FsTarget) (dicofs : Dico)
    (st : Restoring) : Bool × Restoring → Prop
  /-- Nothing is done to the partition. -/
  | refused : ExtractsFs setup i target dicofs st (false, st)
  /-- `mkfs` or `mount` fails. -/
  | stopped {partition : List UInt8} {fstype : Nat} {queue : List QueueData}
      (accepted : filesystemAccepts setup.ctx.mem target dicofs st.exar.queue =
        some (partition, fstype, queue))
      (fails : (FsRound.mk i target dicofs partition fstype).mounts = false) :
      ExtractsFs setup i target dicofs st (false,
        { st with calls := st.calls ++ (FsRound.mk i target dicofs partition fstype).calls })
  /-- The filesystem is filled, with or without errors. -/
  | filled {partition : List UInt8} {fstype : Nat} {queue : List QueueData} {ret : Bool}
      {exar : Extractar}
      (accepted : filesystemAccepts setup.ctx.mem target dicofs st.exar.queue =
        some (partition, fstype, queue))
      (mounts : (FsRound.mk i target dicofs partition fstype).mounts = true) :
      ExtractsFs setup i target dicofs st (ret && target.umountWorks fstype,
        { exar, filled := st.filled ++ [⟨i, exar.log, exar.stats⟩]
          calls := st.calls ++ (FsRound.mk i target dicofs partition fstype).calls })

theorem extractarFilesystemExtract_cases :
    ExtractsFs setup i target dicofs st (extractarFilesystemExtract setup i target dicofs st) := by
  unfold extractarFilesystemExtract
  cases accepted : filesystemAccepts setup.ctx.mem target dicofs st.exar.queue with
  | none => exact .refused
  | some found =>
    obtain ⟨partition, fstype, queue⟩ := found
    dsimp only
    cases make : target.mkfsWorks fstype dicofs partition with
    | false =>
      have fails : (FsRound.mk i target dicofs partition fstype).mounts = false := by
        simp [FsRound.mounts, FsRound.makes, make]
      simpa [Restoring.call, FsRound.calls, FsRound.makes, make] using
        ExtractsFs.stopped accepted fails
    | true =>
      cases mount : target.mountWorks fstype (mountOptions dicofs) with
      | false =>
        have fails : (FsRound.mk i target dicofs partition fstype).mounts = false := by
          simp [FsRound.mounts, mount]
        simpa [Restoring.call, FsRound.calls, FsRound.mounts, FsRound.makes, make, mount] using
          ExtractsFs.stopped accepted fails
      | true =>
        have mounts : (FsRound.mk i target dicofs partition fstype).mounts = true := by
          simp [FsRound.mounts, FsRound.makes, make, mount]
        have filled := @ExtractsFs.filled setup i target dicofs st partition fstype queue
          (fillFilesystem (setup.fsContext i target fstype)
            { st.exar with queue, log := [] }).1
          (fillFilesystem (setup.fsContext i target fstype) { st.exar with queue, log := [] }).2
          accepted mounts
        simpa [Restoring.call, FsRound.calls, FsRound.mounts, FsRound.makes, make, mount] using
          filled

variable {requested : Nat → Option FsTarget} {infos : List Dico} {ok : Bool}
  {calls : List FsCall} {filled : List FilledFs} {rounds : List FsRound}

/-- An operation that fails before it does anything else. -/
theorem Disciplined.nothing (requested : Nat → Option FsTarget) (infos : List Dico)
    (from' : Nat) : Disciplined requested infos from' false [] [] [] where
  calls := rfl
  filled := rfl
  order := .nil
  past := List.forall_mem_nil _
  asked := List.forall_mem_nil _
  closed := List.forall_mem_nil _
  unmounted := nofun
  complete := nofun

/-- Nothing is left to be done when nothing was asked for from there on. -/
theorem Disciplined.done {from' : Nat}
    (none : ∀ i, from' ≤ i → i < infos.length → (requested i).isSome = false) (ok : Bool) :
    Disciplined requested infos from' ok [] [] [] where
  calls := rfl
  filled := rfl
  order := .nil
  past := List.forall_mem_nil _
  asked := List.forall_mem_nil _
  closed := List.forall_mem_nil _
  unmounted _ := List.forall_mem_nil _
  complete _ i past bound asked := by
    rw [none i past bound] at asked
    cases asked

/-- A filesystem that was not asked for is passed over. -/
theorem Disciplined.later (rest : Disciplined requested infos (i + 1) ok calls filled rounds)
    (free : requested i = none) : Disciplined requested infos i ok calls filled rounds where
  calls := rest.calls
  filled := rest.filled
  order := rest.order
  past round member := by
    have past := rest.past round member
    omega
  asked := rest.asked
  closed := rest.closed
  unmounted := rest.unmounted
  complete succeeds j past bound asked := by
    have other : j ≠ i := by
      rintro rfl
      rw [free] at asked
      cases asked
    exact rest.complete succeeds j (by omega) bound asked

/-- A filesystem that was filled and unmounted comes first. -/
theorem Disciplined.cons {round : FsRound}
    (rest : Disciplined requested infos (round.number + 1) ok calls filled rounds)
    (asked : round.Asked requested infos) (closes : round.closes = true) (log : Log)
    (stats : Stats) :
    Disciplined requested infos round.number ok (round.calls ++ calls)
      (⟨round.number, log, stats⟩ :: filled) (round :: rounds) where
  calls := by rw [rest.calls, List.flatMap_cons]
  filled := by
    have mounts : round.mounts = true := by
      rw [FsRound.closes, Bool.and_eq_true] at closes
      exact closes.1
    rw [List.filter_cons_of_pos mounts, List.map_cons, List.map_cons, rest.filled]
  order := by
    rw [List.map_cons, List.pairwise_cons]
    refine ⟨fun other member => ?_, rest.order⟩
    obtain ⟨round', among, rfl⟩ := List.mem_map.mp member
    exact rest.past round' among
  past := List.forall_mem_cons.mpr ⟨Nat.le_refl _, fun other member => by
    have past := rest.past other member
    omega⟩
  asked := List.forall_mem_cons.mpr ⟨asked, rest.asked⟩
  closed other member := by
    cases rounds with
    | nil => cases member
    | cons next others =>
      rw [List.dropLast_cons_cons, List.mem_cons] at member
      rcases member with rfl | member
      · exact closes
      · exact rest.closed other member
  unmounted succeeds := List.forall_mem_cons.mpr ⟨closes, rest.unmounted succeeds⟩
  complete succeeds j past bound isSome := by
    rw [List.map_cons, List.mem_cons]
    by_cases same : j = round.number
    · exact .inl same
    · exact .inr (rest.complete succeeds j (by omega) bound isSome)

/-- The last round of an operation that fails. -/
theorem Disciplined.stops {round : FsRound} (asked : round.Asked requested infos)
    (same : filled.map FilledFs.number = ([round].filter FsRound.mounts).map FsRound.number) :
    Disciplined requested infos round.number false round.calls filled [round] where
  calls := by rw [List.flatMap_singleton]
  filled := same
  order := List.pairwise_singleton ..
  past := List.forall_mem_singleton.mpr (Nat.le_refl _)
  asked := List.forall_mem_singleton.mpr asked
  closed := List.forall_mem_nil _
  unmounted := nofun
  complete := nofun

/-- The loop over the filesystems. -/
theorem extractFilesystems_disciplined (dicofsinfo : List Dico) (i totalerr : Nat)
    (st : Restoring) (behind : infos.drop i = dicofsinfo) :
    let ran := extractFilesystems setup i dicofsinfo totalerr st
    ∃ calls filled rounds, ran.2.2.calls = st.calls ++ calls ∧
      ran.2.2.filled = st.filled ++ filled ∧
      Disciplined setup.dicoargv infos i ran.1 calls filled rounds := by
  induction dicofsinfo generalizing i totalerr st with
  | nil =>
    have short : infos.length ≤ i := List.drop_eq_nil_iff.mp behind
    refine ⟨[], [], [], by simp [extractFilesystems], by simp [extractFilesystems], .done ?_ _⟩
    omega
  | cons dicofs rest ih =>
    have next : infos.drop (i + 1) = rest := by rw [← List.drop_drop, behind, List.drop_one]; rfl
    have info : infos[i]? = some dicofs := by
      rw [← List.head?_drop, behind, List.head?_cons]
    simp only [extractFilesystems]
    cases asked : setup.dicoargv i with
    | none =>
      obtain ⟨calls, filled, rounds, sameCalls, sameFilled, disciplined⟩ :=
        ih (i + 1) totalerr st next
      exact ⟨calls, filled, rounds, sameCalls, sameFilled, disciplined.later asked⟩
    | some target =>
      have ran := @extractarFilesystemExtract_cases setup i target dicofs
        { st with exar := { st.exar with stats := {} } }
      dsimp only
      generalize extractarFilesystemExtract setup i target dicofs
        { st with exar := { st.exar with stats := {} } } = result at ran ⊢
      cases ran with
      | refused =>
        exact ⟨[], [], [], (List.append_nil _).symm, (List.append_nil _).symm, .nothing ..⟩
      | @stopped partition fstype queue accepted fails =>
        obtain ⟨dest, free, known⟩ := filesystemAccepts_target accepted
        have stops := @Disciplined.stops setup.dicoargv infos []
          (.mk i target dicofs partition fstype) ⟨asked, info, dest, free, known⟩ (by simp [fails])
        exact ⟨_, [], _, rfl, (List.append_nil _).symm, stops⟩
      | @filled partition fstype queue ret exar accepted mounts =>
        obtain ⟨dest, free, known⟩ := filesystemAccepts_target accepted
        have own : (FsRound.mk i target dicofs partition fstype).Asked setup.dicoargv infos :=
          ⟨asked, info, dest, free, known⟩
        cases returns : ret && target.umountWorks fstype with
        | false =>
          have stops := @Disciplined.stops setup.dicoargv infos [⟨i, exar.log, exar.stats⟩]
            (.mk i target dicofs partition fstype) own (by simp [mounts])
          exact ⟨_, _, _, rfl, rfl, stops⟩
        | true =>
          have closes : (FsRound.mk i target dicofs partition fstype).closes = true := by
            rw [Bool.and_eq_true] at returns
            rw [FsRound.closes, mounts, returns.2, Bool.and_self]
          obtain ⟨calls, filled, rounds, sameCalls, sameFilled, disciplined⟩ := ih (i + 1)
            (totalerr + statsErrcount exar.stats)
            { exar, filled := st.filled ++ [⟨i, exar.log, exar.stats⟩]
              calls := st.calls ++ (FsRound.mk i target dicofs partition fstype).calls } next
          refine ⟨_, _, _, ?_, ?_, disciplined.cons own closes exar.log exar.stats⟩
          · rw [sameCalls, List.append_assoc]
          · rw [sameFilled, List.append_assoc]
            rfl

/-- The operation may fail for another reason. -/
theorem Disciplined.mono {ok' : Bool}
    (disciplined : Disciplined requested infos i ok calls filled rounds)
    (weaker : ok' = true → ok = true) :
    Disciplined requested infos i ok' calls filled rounds :=
  { disciplined with
    unmounted := fun succeeds => disciplined.unmounted (weaker succeeds)
    complete := fun succeeds => disciplined.complete (weaker succeeds) }

/-- Filesystems are only restored by `restfs`. -/
theorem operation_of_readHeaders {oper : Operation} {ai : ArchInfo} {queue : List QueueData}
    {headers : Headers} (read : readHeaders setup oper ai queue = some headers) :
    operationMatches oper headers.ai.archtype = true := by
  unfold readHeaders at read
  split at read
  · cases read
  · split at read
    · cases read
    · split at read
      · cases read
      · split at read
        · cases read
        · split at read
          · cases read
          next fits =>
            split at read
            · cases read
            · simp only [Option.bind_eq_bind, Option.bind_eq_some_iff] at read
              obtain ⟨infos, -, cost, -, last⟩ := read
              split at last
              · cases last
              · obtain rfl := Option.some.inj last
                simpa using fits

end Calls

/-- The headers of the filesystems that `oper_restore` goes through. -/
def restoredInfos (setup : RestoreSetup) (oper : Operation) (ai : ArchInfo)
    (queue : List QueueData) : List Dico :=
  (readHeaders setup oper ai queue).elim [] Headers.dicofsinfo

/-- Whatever is on the queue and whatever calls answer, `oper_restore` makes, mounts, fills and
unmounts one filesystem after the other, in the order of the archive, on partitions that were asked
for and not mounted: a call that fails is the last one, and then it fails itself. If it succeeds,
all that was asked for is restored and nothing is left mounted. Only `restfs` touches partitions,
`archinfo` restores nothing, and nothing is touched before all headers are read and checked. -/
theorem restore_disciplined (setup : RestoreSetup) (oper : Operation) (ai : ArchInfo)
    (queue : List QueueData) :
    let ran := operRestore setup oper ai queue
    (∃ rounds, Disciplined (setup.requested oper) (restoredInfos setup oper ai queue) 0 ran.1
        ran.2.calls ran.2.filled rounds) ∧
      (oper ≠ .restfs → ran.2.calls = []) ∧
      (oper = .archinfo ∨ readHeaders setup oper ai queue = none →
        ran.2.calls = [] ∧ ran.2.exar.log = []) := by
  intro ran
  have restfs : oper = .restfs → setup.requested oper = setup.dicoargv := by
    rintro rfl
    rfl
  have idle (infos : List Dico) (other : oper ≠ .restfs) (ok : Bool) :
      Disciplined (setup.requested oper) infos 0 ok [] [] [] := by
    refine .done (fun i _ _ => ?_) ok
    rw [RestoreSetup.requested, if_neg other]
    rfl
  unfold ran operRestore restoredInfos
  cases read : readHeaders setup oper ai queue with
  | none => exact ⟨⟨[], .nothing ..⟩, fun _ => rfl, fun _ => ⟨rfl, rfl⟩⟩
  | some headers =>
    have matches' := operation_of_readHeaders read
    rw [Option.elim_some]
    dsimp only
    by_cases shows : oper = .archinfo
    · rw [if_pos shows]
      have other : oper ≠ .restfs := by
        rw [shows]
        decide
      exact ⟨⟨[], idle _ other _⟩, fun _ => rfl, fun _ => ⟨rfl, rfl⟩⟩
    · rw [if_neg shows]
      by_cases type : headers.ai.archtype = ArchType.filesystems.code
      · have own : oper = .restfs := by
          rw [type] at matches'
          cases oper with
          | restfs => rfl
          | restdir => exact absurd matches' (by decide)
          | archinfo => exact absurd rfl shows
        rw [if_pos type, restfs own]
        obtain ⟨calls, filled, rounds, sameCalls, sameFilled, disciplined⟩ :=
          @extractFilesystems_disciplined setup headers.dicofsinfo headers.dicofsinfo 0 0
            ⟨⟨headers.queue, [], {}, 0, []⟩, [], []⟩ rfl
        rw [List.nil_append] at sameCalls sameFilled
        rw [sameCalls, sameFilled]
        refine ⟨⟨rounds, disciplined.mono fun succeeds => ?_⟩, fun other => absurd own other, ?_⟩
        · rw [Bool.and_eq_true] at succeeds
          exact succeeds.1
        · rintro (info | missing)
          · exact absurd info shows
          · cases missing
      · have other : oper ≠ .restfs := by
          rintro rfl
          by_cases dirs : headers.ai.archtype = ArchType.directories.code
          · rw [operationMatches, if_pos dirs] at matches'
            exact absurd matches' (by decide)
          · rw [operationMatches, if_neg dirs, if_neg type] at matches'
            cases matches'
        rw [if_neg type]
        have silent (st : Restoring) : (extractDirectories setup st).2.2.calls = st.calls ∧
            (extractDirectories setup st).2.2.filled = st.filled := by
          unfold extractDirectories
          split
          · exact ⟨rfl, rfl⟩
          · split <;> exact ⟨rfl, rfl⟩
        obtain ⟨noCalls, noneFilled⟩ := silent ⟨⟨headers.queue, [], {}, 0, []⟩, [], []⟩
        rw [noCalls, noneFilled]
        refine ⟨⟨[], idle _ other _⟩, fun _ => rfl, ?_⟩
        rintro (info | missing)
        · exact absurd info shows
        · cases missing

end FsArchiver
