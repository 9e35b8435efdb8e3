import FsArchiver.RoundTrips

/-!
# From filesystems to filesystems

The way of an archive from `savefs` to `restfs`. Each filesystem that is asked for finds its own
contents among the items that come out of the threads, and gets what was visited in the one that was
saved; the others are left out by the reader.
-/
namespace FsArchiver

open Lib

/-- A filesystem that was filled is that of its number: it was made, mounted and unmounted with the
header of the one that was saved, and has what was visited there. -/
structure FilledFs.RestoredFrom (fs : FilledFs) (setup : RestoreSetup) (opts : SaveOptions)
    (target : FsTarget) (arg : FsArg) : Prop where
  asked : setup.dicoargv fs.number = some target
  filled : ∃ mounted info partition fstype, arg.mount = some mounted ∧ mounted.HeaderIs info ∧
    target.Works setup.ctx.mem info partition fstype ∧
      fs.HasObjects (setup.fsContext fs.number target fstype) (mounted.objects opts)

/-- The filesystems that were asked for, and no others, were filled with what was visited when they
were saved, and the status tells whether an error was counted. -/
structure RestoresAll (setup : RestoreSetup) (opts : SaveOptions) (args : List FsArg)
    (ran : Bool × Restoring) : Prop where
  numbers : ran.2.filled.map FilledFs.number = requestedNumbers setup 0 args.length
  objects : ∀ fs ∈ ran.2.filled, ∃ target arg, args[fs.number]? = some arg ∧
    fs.RestoredFrom setup opts target arg
  returns : ran.1 = decide (filledErrors ran.2.filled = 0)

section Runs

variable {save : WholeSave} {args : List FsArg} {lib : Decompressors} {restore : WholeRestore}

/-- What is on the queue behind the main header. -/
theorem WholeSave.archive_queued (sizes : save.opts.FromCmdline) (sound : save.args.Sound save.opts)
    (returns : save.saved.1 = true) (own : save.args = .filesystems args) :
    ∃ archive, ArchiveOf save.md5 save.opts args archive ∧
      save.saved.2.pushed =
        .header save.mainhead :: archiveItems save.md5 (fun _ => true) archive := by
  have magic : save.mainhead.magic = .main := rfl
  have global : save.mainhead.fsid = filesysidNull := rfl
  rw [own] at sound
  unfold WholeSave.saved at returns ⊢
  rw [own] at returns ⊢
  obtain ⟨archive, archiveOf, pushed⟩ := operSave_archive sizes _ sound.2 returns
  exact ⟨archive, archiveOf, by rw [pushed, ← magic, ← global]⟩

end Runs

/-! ## A filesystem on its way -/

/-- The header of a small filesystem. -/
def smallInfo : Dico :=
  dicoAddAll Dico.alloc
    [dicoAddU64 0 FsysHeadKey.bytestotal 1048576, dicoAddU64 0 FsysHeadKey.bytesused 4096]

/-- An ext2 filesystem with links in it. -/
def linkedFs : FsArg :=
  { isBlk := true, mounted := some (ext2, smallInfo), analysed := linkedTree, copied := linkedTree }

/-- A partition for it. -/
def linkedTarget : FsTarget :=
  { dest := some (ascii "/dev/sda1"), mkfs := some (ascii "ext2"), mntbuf := ascii "/tmp/fsa"
    isMounted := fun _ => false, mkfsWorks := fun _ _ _ => true, mountWorks := fun _ _ => true
    umountWorks := fun _ => true }

/-- Its header has the sizes and the cost. -/
theorem items_linkedFs {fs : MountedFs} {info : Dico} (mounts : linkedFs.mount = some fs)
    (header : fs.HeaderIs info) : ∃ cost, info.items =
      [dicoAddU64 0 FsysHeadKey.bytestotal 1048576, dicoAddU64 0 FsysHeadKey.bytesused 4096,
        dicoAddU64 0 fsysTotalcost cost].map DicoCall.item := by
  obtain ⟨cost, added⟩ := header
  obtain rfl := Option.some.inj mounts
  refine ⟨cost, ?_⟩
  have distinct : ([(0, 3), (0, 4), (0, 28)] : List (UInt8 × UInt16)).Nodup := by decide
  have fresh : ((smallInfo.items ++ [dicoAddU64 0 fsysTotalcost cost].map DicoCall.item).map
      DicoItem.name).Nodup := distinct
  change dicoAddEach smallInfo _ = _ at added
  rw [dicoAddEach_of_fresh fresh, Option.some.injEq] at added
  rw [← added, items_dicoAddAll fresh]
  rfl

/-- Nothing speaks against this partition. -/
theorem linkedTarget_works {mem : Mem} {fs : MountedFs} {info : Dico}
    (mounts : linkedFs.mount = some fs) (header : fs.HeaderIs info) :
    linkedTarget.Works mem info (ascii "/dev/sda1") 0 := by
  obtain ⟨cost, items⟩ := items_linkedFs mounts header
  have total : dicoGetU64 mem info 0 FsysHeadKey.bytestotal = some 1048576 :=
    dicoGetU64_of_call items (by simp)
  have used : dicoGetU64 mem info 0 FsysHeadKey.bytesused = some 4096 :=
    dicoGetU64_of_call items (by simp)
  have recent : dicoGetU64 mem info 0 FsysHeadKey.minfsaversion = none := by
    have none : info.find 0 FsysHeadKey.minfsaversion = none := by
      rw [Dico.find, items]
      rfl
    simp [dicoGetU64, dicoGetWord, dicoGetData, dicoGetGeneric, none]
  refine ⟨?_, rfl, rfl, rfl⟩
  simp only [FsTarget.admits, filesystemAccepts, linkedTarget, Option.bind_eq_bind,
    Option.bind_some, recent, total, used, targetFilesystem]
  rfl

/-- Two filesystems. -/
def linkedArgs : List FsArg := [linkedFs, linkedFs]

/-- The second of them is asked for. -/
def secondTarget (i : Nat) : Option FsTarget := if i = 1 then some linkedTarget else none

/-- They can be saved. -/
theorem linkedArgs_sound : (SaveArgs.filesystems linkedArgs).Sound plainOptions := by
  refine ⟨by decide, fun arg member => ?_⟩
  obtain rfl : arg = linkedFs := by simpa [linkedArgs] using member
  exact ⟨linkedTree_wellNamed, linkedTree_fit, linkedTree_fromKernel⟩

/-- The second can be restored. -/
theorem secondTarget_ready : (clearSetup secondTarget).Ready (.filesystems linkedArgs) := by
  have only {i : Nat} {target : FsTarget} (asked : secondTarget i = some target) :
      i = 1 ∧ target = linkedTarget := by
    unfold secondTarget at asked
    split at asked
    next one => exact ⟨one, (Option.some.inj asked).symm⟩
    next => cases asked
  refine ⟨⟨rfl, rfl, fun i target asked => ?_⟩, fun i target asked arg fs info given mounts => ?_⟩
  · rw [(only asked).1]
    exact Nat.one_lt_two
  · intro header
    obtain ⟨rfl, rfl⟩ := only asked
    obtain rfl := Option.some.inj given
    exact ⟨_, _, linkedTarget_works mounts header⟩

end FsArchiver
