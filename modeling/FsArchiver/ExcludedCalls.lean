import FsArchiver.RestoreChecked

/-!
# What is done for an excluded object

An excluded object is not made: the functions that restore it look at the list of patterns first,
and a large file is only read past. One exit of the large files does not ask: an excluded file
whose blocks are not the ones announced is unlinked like any other.
-/
namespace FsArchiver

open Lib

variable {ctx : Context} {d : Dico} {exar : Extractar}

/-! ## Calls and objects -/

/-- The path that a call acts on. -/
def SysCall.path : SysCall → Path
  | .mkdir path | .create path | .write path _ | .lseek path _ | .ftruncate path | .close path
  | .unlink path | .truncate path | .symlink _ path | .creat path | .link _ path
  | .mknod path _ _ | .lchown path _ _ | .chmod path _ | .utimes path _ _ | .lutimes path _ _
  | .lsetxattr path _ _ => path

/-- The call acts on the object at this path, or on a directory above it. -/
def ActsFor (path : Path) (entry : SysCall × Int) : Prop :=
  entry.1.path = path ∨ entry.1.path ∈ mkdirPaths (extractDirpath path)

/-- The object of this header is restored at this path, and it is excluded or not. -/
def Stored (ctx : Context) (head : Dico) (path : Path) (excluded : Bool) : Prop :=
  ∃ relpath, readPath ctx.mem head ItemKey.path = some relpath ∧
    concatenatePaths ctx.destdir relpath = path ∧
    isFiledirExcluded ctx.exclude relpath = excluded

/-- The call is made for an object that is not excluded. -/
def ForIncluded (ctx : Context) (heads : List Dico) (entry : SysCall × Int) : Prop :=
  ∃ head ∈ heads, ∃ path, Stored ctx head path false ∧ ActsFor path entry

/-- No call succeeds at the place of an excluded object, but for the sake of another one that is
not excluded. -/
def LeftAlone (ctx : Context) (exar : Extractar) (d : Dico) : Prop :=
  ∀ made, (extractarRestoreObject ctx exar d).2.log = exar.log ++ made →
    ∀ head ∈ handledHeaders ctx d exar.queue, ∀ path, Stored ctx head path true →
      ∀ entry ∈ made, entry.1.path = path → 0 ≤ entry.2 →
        ForIncluded ctx (handledHeaders ctx d exar.queue) entry

/-! ## Packs -/

section Packs

variable {path : Path} {allowed : SysCall × Int → Prop}

/-- The attributes and directories of an object are its own. -/
theorem attends_of_acts (acts : ∀ entry, ActsFor path entry → allowed entry) :
    Attends allowed path where
  lchown _ _ _ := acts _ (.inl rfl)
  chmod _ _ := acts _ (.inl rfl)
  utimes _ _ _ := acts _ (.inl rfl)
  lutimes _ _ _ := acts _ (.inl rfl)
  lsetxattr _ _ _ := acts _ (.inl rfl)
  mkdir _ member _ := acts _ (.inr member)
  parent _ _ _ := acts _ (.inr (mem_mkdirPaths _))

/-- So are the contents. -/
theorem fills_of_acts (acts : ∀ entry, ActsFor path entry → allowed entry) :
    Fills allowed path where
  create _ := acts _ (.inl rfl)
  write _ _ := acts _ (.inl rfl)
  lseek _ _ := acts _ (.inl rfl)
  ftruncate _ := acts _ (.inl rfl)
  close _ := acts _ (.inl rfl)
  truncate _ := acts _ (.inl rfl)
  unlink _ := acts _ (.inl rfl)

/-- All calls of a pack are made for its files that are not excluded, whatever follows its
header. -/
theorem extractarRestoreObject_pack_adds
    (multi : dicoGetU32 ctx.mem d Section.stdattr ItemKey.objtype =
      some ObjType.regfilemulti.code) (exar : Extractar) :
    ∃ made, (extractarRestoreObject ctx exar d).2.log = exar.log ++ made ∧
      ∀ entry ∈ made, ForIncluded ctx (handledHeaders ctx d exar.queue) entry := by
  apply extractarRestoreObject_adds exar
  · intro head member relpath stored included
    have acts (entry : SysCall × Int)
        (acts : ActsFor (concatenatePaths ctx.destdir relpath) entry) :
        ForIncluded ctx (handledHeaders ctx d exar.queue) entry :=
      ⟨head, member, _, ⟨relpath, stored, rfl, included⟩, acts⟩
    exact ⟨attends_of_acts acts, fills_of_acts acts, fun alone => absurd multi alone⟩
  · intro relpath target _ _ type
    rw [multi] at type
    exact absurd type (by decide)
  · intro relpath _ type
    rw [multi] at type
    exact absurd type (by decide)

end Packs

/-! ## Large and empty files -/

/-- The blocks in front are those of a file of this size, from this position on. -/
def covers (filesize : UInt64) : List QueueData → UInt64 → Bool
  | .block blkinfo :: queue, filepos =>
    decide (¬filepos < filesize) || (decide (blkinfo.blkoffset = filepos) &&
      covers filesize queue (filepos + blkinfo.blkrealsize.toUInt64))
  | _, filepos => decide (¬filepos < filesize)

/-- The loop over the blocks of an excluded file makes no call, and it comes to the end if and
only if the blocks are those of the file. -/
theorem restoreBlocks_simul (filesize : UInt64) (queue : List QueueData) :
    ∀ (filepos : UInt64) (f : Datafile) (log : Log), f.isOpen = true → f.simul = true →
      ∃ rest f', Traced.Gives (restoreBlocks ctx filesize queue filepos f) log
          (if covers filesize queue filepos then .whole else .incomplete, rest, f') [] ∧
        f'.isOpen = true ∧ f'.simul = true := by
  have last (queue : List QueueData) (filepos : UInt64) (f : Datafile) (log : Log) :
      Traced.Gives (if ¬filepos < filesize then
          (return (.whole, queue, f) : Sys (Contents × List QueueData × Datafile))
        else return (.incomplete, queue, f)) log
        (if decide (¬filepos < filesize) = true then .whole else .incomplete, queue, f) [] := by
    by_cases done : ¬filepos < filesize
    · rw [if_pos done, if_pos (decide_eq_true done)]
      exact Traced.Gives.pure _ log
    · rw [if_neg done, if_neg (by simpa using done)]
      exact Traced.Gives.pure _ log
  induction queue with
  | nil => exact fun filepos f log isOpen simul => ⟨[], f, last [] filepos f log, isOpen, simul⟩
  | cons item queue ih =>
    intro filepos f log isOpen simul
    cases item with
    | header headinfo =>
      exact ⟨_, f, last (.header headinfo :: queue) filepos f log, isOpen, simul⟩
    | block blkinfo =>
      unfold restoreBlocks covers
      by_cases done : ¬filepos < filesize
      · refine ⟨.block blkinfo :: queue, f, ?_, isOpen, simul⟩
        rw [if_pos done, if_pos (by rw [decide_eq_true done, Bool.true_or])]
        exact Traced.Gives.pure _ log
      · rw [if_neg done, decide_eq_false done, Bool.false_or]
        by_cases other : blkinfo.blkoffset ≠ filepos
        · refine ⟨queue, f, ?_, isOpen, simul⟩
          rw [if_pos other, decide_eq_false other, Bool.false_and, if_neg Bool.false_ne_true]
          exact Traced.Gives.pure _ log
        · have here : blkinfo.blkoffset = filepos := not_not.mp other
          rw [if_neg other, decide_eq_true here, Bool.true_and]
          let data := heapBytes ctx.mem blkinfo.blkdata 0 blkinfo.blkrealsize.toNat
          let next : Datafile := { f with hashed := f.hashed ++ data }
          have written : Traced.Gives (datafileWrite ctx.os f data) log (true, next) [] := by
            simp [Traced.Gives, datafileWrite, isOpen, simul, next]
          obtain ⟨rest, f', gives, kept⟩ :=
            ih (filepos + blkinfo.blkrealsize.toUInt64) next (log ++ []) isOpen simul
          exact ⟨rest, f', written.bind gives, kept⟩

/-- An excluded file: it is unlinked if its blocks are not there, and there is no other call. -/
theorem restoreRegfileUnique_simul (queue : List QueueData) (path : Path) (d : Dico)
    (objtype : UInt32) (filesize : UInt64) (log : Log) :
    ∃ file, (restoreRegfileUnique ctx queue path d objtype true filesize).run log = (file,
      log ++ if covers filesize queue 0 then []
        else [(.unlink path, ctx.os.answer log (.unlink path))]) := by
  let sparse := isSparse ctx.mem d
  let opened : Datafile := { simul := true, isOpen := true, sparse, path, hashed := [] }
  have loop := @restoreBlocks_simul ctx filesize queue 0 opened log rfl rfl
  obtain ⟨rest, f, blocks, isOpen, simul⟩ := loop
  have open' : (datafileOpenWrite ctx.os datafileAlloc path true sparse).run log =
      ((true, opened), log) := rfl
  unfold Traced.Gives at blocks
  rw [List.append_nil] at blocks
  cases whole : covers filesize queue 0 with
  | true =>
    rw [whole, if_pos rfl] at blocks
    have written : (writeRegfile ctx queue path true sparse filesize).run log =
        (⟨.whole, rest, ⟨true, some (ctx.md5.digest f.hashed),
          { f with isOpen := false, path := [] }⟩⟩, log) := by
      simp [writeRegfile, open', blocks, datafileClose, isOpen, simul]
    have foot (md5sumcalc : List UInt8) : (restoreFooter ctx true md5sumcalc rest).1 ≠ .corrupt := by
      unfold restoreFooter
      cases dequeueHeader rest <;> simp
    have intact (md5sumcalc : List UInt8) : (if filesize = 0 then (Footer.fine, rest)
        else restoreFooter ctx true md5sumcalc rest).1 ≠ .corrupt := by
      split
      · exact fun same => by cases same
      · exact foot md5sumcalc
    refine ⟨_, Prod.ext rfl ?_⟩
    simp [restoreRegfileUnique, written, sparse, intact, datafileDestroy]
  | false =>
    rw [whole, if_neg Bool.false_ne_true] at blocks
    have written : (writeRegfile ctx queue path true sparse filesize).run log =
        (⟨.incomplete, rest, ⟨false, none, f⟩⟩, log) := by
      simp [writeRegfile, open', blocks]
    refine ⟨_, Prod.ext rfl ?_⟩
    simp [restoreRegfileUnique, written, sparse, datafileDestroy, datafileClose, isOpen, simul,
      Os.call]

/-! ## All objects -/

/-- The header is that of an excluded large file, and the blocks behind it are not those of a file
of its size. -/
def BrokenExcluded (ctx : Context) (d : Dico) (queue : List QueueData) : Prop :=
  dicoGetU32 ctx.mem d Section.stdattr ItemKey.objtype = some ObjType.regfileunique.code ∧
    ∃ path, Stored ctx d path true ∧ ∃ filesize,
      dicoGetU64 ctx.mem d Section.stdattr ItemKey.size = some filesize ∧
      covers filesize queue 0 = false

/-- An excluded object made of its header: no call is made. -/
theorem restoreEntry_excluded {path relpath : Path} {objtype : UInt32} {make : Sys Bool}
    (excluded : isFiledirExcluded ctx.exclude relpath = true) :
    restoreEntry ctx path relpath d objtype make = return false := if_pos excluded

/-- The only call that is ever made for an excluded object outside a pack is the `unlink` of a
large file whose blocks are not there. -/
theorem extractarRestoreObject_excluded {path : Path} (stored : Stored ctx d path true)
    (alone : dicoGetU32 ctx.mem d Section.stdattr ItemKey.objtype ≠
      some ObjType.regfilemulti.code)
    (sound : ¬BrokenExcluded ctx d exar.queue) :
    (extractarRestoreObject ctx exar d).2.log = exar.log := by
  have whole := stored
  obtain ⟨relpath, read, place, excluded⟩ := stored
  unfold extractarRestoreObject
  rw [read]
  cases typed : dicoGetU32 ctx.mem d Section.stdattr ItemKey.objtype with
  | none => rfl
  | some objtype =>
    cases sized : dicoGetU64 ctx.mem d Section.stdattr ItemKey.size with
    | none => rfl
    | some filesize =>
      have entry (type : ObjType) (make : Sys Bool) : (restoreHeaderOnly exar type
          (restoreEntry ctx (concatenatePaths ctx.destdir relpath) relpath d objtype make)).2.log =
          exar.log := by
        rw [restoreEntry_excluded excluded]
        rfl
      dsimp only
      cases known : ObjType.ofCode objtype with
      | none => rfl
      | some type =>
        have code := ObjType.code_of_ofCode known
        cases type with
        | null => rfl
        | dir => exact entry .dir _
        | symlink => exact entry .symlink _
        | hardlink => exact entry .hardlink _
        | chardev => exact entry .chardev _
        | blockdev => exact entry .blockdev _
        | fifo => exact entry .fifo _
        | socket => exact entry .socket _
        | regfilemulti => exact absurd (typed.trans (congrArg some code)) alone
        | regfileunique =>
          have covered : covers filesize exar.queue 0 = true := by
            apply eq_true_of_ne_false
            intro short
            exact sound ⟨typed.trans (congrArg some code), path, whole, filesize, sized, short⟩
          obtain ⟨file, ran⟩ := @restoreRegfileUnique_simul ctx exar.queue
            (concatenatePaths ctx.destdir relpath) d objtype filesize exar.log
          rw [covered, if_pos rfl, List.append_nil] at ran
          simp only [extractarRestoreObjRegfileUnique, excluded, sized, ran]

/-- Such a file is unlinked. -/
theorem extractarRestoreObject_broken {path : Path} (stored : Stored ctx d path true)
    (broken : BrokenExcluded ctx d exar.queue) :
    (extractarRestoreObject ctx exar d).2.log =
      exar.log ++ [(.unlink path, ctx.os.answer exar.log (.unlink path))] := by
  obtain ⟨relpath, read, place, excluded⟩ := stored
  obtain ⟨typed, -, -, filesize, sized, short⟩ := broken
  obtain ⟨file, ran⟩ := @restoreRegfileUnique_simul ctx exar.queue path d
    ObjType.regfileunique.code filesize exar.log
  rw [short, if_neg Bool.false_ne_true] at ran
  unfold extractarRestoreObject
  simp only [read, typed, sized, ObjType.ofCode_code (show ObjType.regfileunique ∈ _ by decide),
    place, extractarRestoreObjRegfileUnique, excluded, ran]

/-- Whatever the system and whatever follows the header, nothing is done at the place of an
excluded object, if and only if the header is not that of a large file whose blocks do not follow
it. -/
theorem left_alone_iff (ctx : Context) (d : Dico) (queue : List QueueData) :
    (∀ os exar, exar.queue = queue → LeftAlone { ctx with os } exar d) ↔
      ¬BrokenExcluded ctx d queue := by
  constructor
  · intro alone broken
    obtain ⟨typed, path, stored, more⟩ := broken
    let exar : Extractar := { queue, log := [], stats := {}, errors := 0, skipped := [] }
    have single : handledHeaders ctx d queue = [d] := by
      unfold handledHeaders
      rw [if_neg]
      rw [typed]
      decide
    have ran := @extractarRestoreObject_broken { ctx with os := plainContext.os } d exar path stored
      ⟨typed, path, stored, more⟩
    have own := alone plainContext.os exar rfl _ ran d (by
      rw [show handledHeaders { ctx with os := plainContext.os } d exar.queue = [d] from single]
      exact List.mem_cons_self) path stored _ List.mem_cons_self rfl (Int.le_refl 0)
    obtain ⟨head, member, path', ⟨relpath', read', -, included⟩, -⟩ := own
    rw [show handledHeaders { ctx with os := plainContext.os } d exar.queue = [d] from single] at member
    cases List.mem_singleton.mp member
    obtain ⟨relpath, read, -, excluded⟩ := stored
    have same : relpath = relpath' := Option.some.inj (read.symm.trans read')
    rw [same] at excluded
    exact absurd (excluded.symm.trans included) (by decide)
  · intro sound os exar here made added head member path stored entry among acts done
    by_cases multi : dicoGetU32 ctx.mem d Section.stdattr ItemKey.objtype =
        some ObjType.regfilemulti.code
    · obtain ⟨made', added', allowed⟩ :=
        @extractarRestoreObject_pack_adds { ctx with os } d multi exar
      rw [added', List.append_cancel_left_eq] at added
      rw [← added] at among
      exact allowed entry among
    · have single : handledHeaders { ctx with os } d exar.queue = [d] := if_neg multi
      rw [single] at member
      cases List.mem_singleton.mp member
      have unchanged := @extractarRestoreObject_excluded { ctx with os } d exar path stored multi
        (by rw [here]; exact sound)
      rw [unchanged, List.self_eq_append_right] at added
      rw [added] at among
      cases among

/-- Everything is excluded. -/
def excludingContext : Context := { plainContext with exclude := fun _ => true }

/-- The header of a file of five bytes. -/
def announcedFile : Dico :=
  dicoAddAll Dico.alloc
    [dicoAddString Section.stdattr ItemKey.path [slash, 0x61],
      dicoAddU32 Section.stdattr ItemKey.objtype ObjType.regfileunique.code,
      dicoAddU64 Section.stdattr ItemKey.size 5]

/-- At the end of the queue, an excluded file of five bytes is unlinked. -/
theorem announced_file_unlinked :
    Stored excludingContext announcedFile [slash, 0x61] true ∧
      ¬LeftAlone excludingContext
        { queue := [], log := [], stats := {}, errors := 0, skipped := [] } announcedFile := by
  have stored : Stored excludingContext announcedFile [slash, 0x61] true :=
    ⟨[slash, 0x61], by decide +kernel, by decide, rfl⟩
  refine ⟨stored, fun alone => ?_⟩
  have unlinked : (extractarRestoreObject excludingContext
      { queue := [], log := [], stats := {}, errors := 0, skipped := [] } announcedFile).2.log =
      [] ++ [(.unlink [slash, 0x61], 0)] := by decide +kernel
  have single : handledHeaders excludingContext announcedFile [] = [announcedFile] := by
    decide +kernel
  have own := alone _ unlinked announcedFile (by rw [single]; exact List.mem_cons_self)
    [slash, 0x61] stored _ List.mem_cons_self rfl (Int.le_refl 0)
  obtain ⟨head, member, path, ⟨relpath, read, place, included⟩, acts⟩ := own
  cases included

end FsArchiver
