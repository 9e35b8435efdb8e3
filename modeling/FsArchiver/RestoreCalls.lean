import FsArchiver.OperRestore

/-!
# Which calls a restoration makes

The functions that restore an object make its parent directories, make the object at its path,
write its contents, give it its attributes, and give the parent directory its times back. The
first half of this file says which calls this comes to, for any property of calls: a property
that holds of these calls holds of all calls of the function, whatever the system answers.

In the second half the property is that a call is about this object alone: nothing but this
object is made or changed, but for directories around it. This is what makes objects independent
of each other.
-/
namespace FsArchiver

open Lib

/-! ## The calls of each function -/

/-- The directories that `mkdir_recursive` makes where they are missing. -/
def mkdirPaths (path : Path) : List Path :=
  ((List.range (path.length + 1)).filter fun pos =>
    path[pos]? = some slash ∨ pos = path.length).map path.take

/-- The path is one of those that `mkdir_recursive` makes. -/
theorem mem_mkdirPaths (path : Path) : path ∈ mkdirPaths path := by
  apply List.mem_map.mpr
  refine ⟨path.length, ?_, List.take_length⟩
  exact List.mem_filter.mpr ⟨List.mem_range.mpr (Nat.lt_succ_self _), by simp⟩

/-- The property holds of the calls that give the object at this path its attributes. -/
structure Dresses (allowed : SysCall × Int → Prop) (path : Path) : Prop where
  lchown : ∀ uid gid res, allowed (.lchown path uid gid, res)
  chmod : ∀ mode res, allowed (.chmod path mode, res)
  utimes : ∀ atime mtime res, allowed (.utimes path atime mtime, res)
  lutimes : ∀ atime mtime res, allowed (.lutimes path atime mtime, res)
  lsetxattr : ∀ name value res, allowed (.lsetxattr path name value, res)

/-- The property holds of the calls for an object at this path but for those that make it. -/
structure Attends (allowed : SysCall × Int → Prop) (path : Path) : Prop
    extends Dresses allowed path where
  /-- The parent directories are made. -/
  mkdir : ∀ buffer ∈ mkdirPaths (extractDirpath path), ∀ res, allowed (.mkdir buffer, res)
  /-- The parent directory gets its times back. -/
  parent : ∀ atime mtime res, allowed (.utimes (extractDirpath path) atime mtime, res)

/-- The property holds of the calls for the contents of the file at this path. -/
structure Fills (allowed : SysCall × Int → Prop) (path : Path) : Prop where
  create : ∀ res, allowed (.create path, res)
  write : ∀ data res, allowed (.write path data, res)
  lseek : ∀ len res, allowed (.lseek path len, res)
  ftruncate : ∀ res, allowed (.ftruncate path, res)
  close : ∀ res, allowed (.close path, res)
  truncate : ∀ res, allowed (.truncate path, res)
  unlink : ∀ res, allowed (.unlink path, res)

/-- The property holds of the calls that make the object at this path from its header, hard links
apart. -/
structure Makes (allowed : SysCall × Int → Prop) (path : Path) : Prop where
  mkdir : ∀ buffer ∈ mkdirPaths path, ∀ res, allowed (.mkdir buffer, res)
  symlink : ∀ target res, allowed (.symlink target path, res)
  creat : ∀ res, allowed (.creat path, res)
  mknod : ∀ mode dev res, allowed (.mknod path mode dev, res)

variable {allowed : SysCall × Int → Prop} {os : Os} {ctx : Context} {path : Path}

/-- One call. -/
theorem adds_call {call : SysCall} (fine : ∀ res, allowed (call, res)) :
    Traced.Adds allowed (fun _ => True) (os.call call) := by
  intro log
  exact ⟨[(call, os.answer log call)], rfl, by simpa using fine _, trivial⟩

/-- A question to the system, which no call records. -/
theorem adds_nothing {α : Type} {prog : Sys α} (silent : ∀ log, (prog.run log).2 = log) :
    Traced.Adds allowed (fun _ => True) prog := by
  intro log
  exact ⟨[], by rw [silent, List.append_nil], by simp, trivial⟩

theorem mkdirEach_adds {paths : List Path}
    (mkdir : ∀ buffer ∈ paths, ∀ res, allowed (.mkdir buffer, res)) :
    Traced.Adds allowed (fun _ => True) (mkdirEach os paths) := by
  induction paths with
  | nil => exact Traced.Adds.pure trivial
  | cons buffer rest ih =>
    have later := ih fun buffer member => mkdir buffer (List.mem_cons_of_mem _ member)
    refine Traced.Adds.andThen (fun _ => True) (adds_nothing fun _ => rfl) fun missing _ => ?_
    refine Traced.Adds.ite (fun _ => ?_) fun _ => later
    exact (adds_call (mkdir buffer List.mem_cons_self)).bind fun _ _ => later

theorem mkdirRecursive_adds {dir : Path}
    (mkdir : ∀ buffer ∈ mkdirPaths dir, ∀ res, allowed (.mkdir buffer, res)) :
    Traced.Adds allowed (fun _ => True) (mkdirRecursive os dir) :=
  mkdirEach_adds mkdir

theorem extractarRestoreAttrStd_adds (dresses : Dresses allowed path) (objtype : UInt32)
    (d : Dico) :
    Traced.Adds allowed (fun _ => True) (extractarRestoreAttrStd ctx objtype path d) := by
  unfold extractarRestoreAttrStd
  cases readStdAttr ctx.mem d with
  | none => exact Traced.Adds.pure trivial
  | some attr =>
    refine (adds_call (dresses.lchown _ _)).bind fun res _ => ?_
    refine Traced.Adds.ite (fun _ => Traced.Adds.pure trivial) fun _ => ?_
    refine Traced.Adds.ite (fun _ => ?_) fun _ => ?_
    · refine Traced.Adds.ite (fun _ => ?_) fun _ => Traced.Adds.pure trivial
      exact (adds_call (dresses.lutimes _ _)).bind fun _ _ => Traced.Adds.pure trivial
    · refine (adds_call (dresses.chmod _)).bind fun res _ => ?_
      refine Traced.Adds.ite (fun _ => Traced.Adds.pure trivial) fun _ => ?_
      exact (adds_call (dresses.utimes _ _)).bind fun _ _ => Traced.Adds.pure trivial

theorem restoreAttrs_adds (lsetxattr : ∀ name value res, allowed (.lsetxattr path name value, res))
    (sect : UInt8) (d : Dico) (keys : List Nat) :
    Traced.Adds allowed (fun _ => True) (restoreAttrs ctx sect path d keys) := by
  induction keys with
  | nil => exact Traced.Adds.pure trivial
  | cons key rest ih =>
    unfold restoreAttrs
    cases readAttr d sect key with
    | none => exact ih.bind fun _ _ => Traced.Adds.pure trivial
    | some attr =>
      refine (adds_call (lsetxattr _ _)).bind fun _ _ => ?_
      exact ih.bind fun _ _ => Traced.Adds.pure trivial

theorem extractarRestoreAttrEverything_adds (dresses : Dresses allowed path) (objtype : UInt32)
    (d : Dico) :
    Traced.Adds allowed (fun _ => True) (extractarRestoreAttrEverything ctx objtype path d) := by
  refine (extractarRestoreAttrStd_adds dresses objtype d).bind fun _ _ => ?_
  refine Traced.Adds.bind (restoreAttrs_adds dresses.lsetxattr _ d _) fun _ _ => ?_
  exact Traced.Adds.bind (restoreAttrs_adds dresses.lsetxattr _ d _) fun _ _ =>
    Traced.Adds.pure trivial

theorem enterParent_adds
    (mkdir : ∀ buffer ∈ mkdirPaths (extractDirpath path), ∀ res, allowed (.mkdir buffer, res)) :
    Traced.Adds allowed (fun _ => True) (enterParent ctx path) :=
  (mkdirRecursive_adds mkdir).bind fun _ _ => adds_nothing fun _ => rfl

theorem leaveParent_adds
    (parent : ∀ atime mtime res, allowed (.utimes (extractDirpath path) atime mtime, res))
    (tv : UInt64 × UInt64) :
    Traced.Adds allowed (fun _ => True) (leaveParent ctx path tv) :=
  (adds_call (parent _ _)).bind fun _ _ => Traced.Adds.pure trivial

/-- An object made of its header. Nothing is done for one that is excluded. -/
theorem restoreEntry_adds {relpath : Path} {d : Dico} {objtype : UInt32} {make : Sys Bool}
    (attends : isFiledirExcluded ctx.exclude relpath = false → Attends allowed path)
    (making : isFiledirExcluded ctx.exclude relpath = false →
      Traced.Adds allowed (fun _ => True) make) :
    Traced.Adds allowed (fun _ => True) (restoreEntry ctx path relpath d objtype make) := by
  refine Traced.Adds.ite (fun _ => Traced.Adds.pure trivial) fun included => ?_
  have attends := attends (eq_false_of_ne_true included)
  refine (enterParent_adds attends.mkdir).bind fun tv _ => ?_
  refine (making (eq_false_of_ne_true included)).bind fun made _ => ?_
  refine Traced.Adds.ite (fun _ => Traced.Adds.pure trivial) fun _ => ?_
  refine (extractarRestoreAttrEverything_adds attends.toDresses objtype d).bind fun attrs _ => ?_
  exact Traced.Adds.ite (fun _ => Traced.Adds.pure trivial) fun _ =>
    leaveParent_adds attends.parent tv

/-- How a symbolic link is made. -/
theorem makeSymlink_adds {d : Dico}
    (symlink : ∀ target, readTarget d ItemKey.symlink = some target → ∀ res,
      allowed (.symlink target path, res))
    (mkdir : ∀ buffer ∈ mkdirPaths path, ∀ res, allowed (.mkdir buffer, res))
    (creat : ∀ res, allowed (.creat path, res)) (close : ∀ res, allowed (.close path, res)) :
    Traced.Adds allowed (fun _ => True) (makeSymlink ctx path d) := by
  unfold makeSymlink
  cases target : readTarget d ItemKey.symlink with
  | none => exact Traced.Adds.pure trivial
  | some buffer =>
    have link : Traced.Adds allowed (fun _ => True)
        (do let res ← ctx.os.call (.symlink buffer path); return decide (0 ≤ res)) :=
      (adds_call (symlink buffer target)).bind fun _ _ => Traced.Adds.pure trivial
    dsimp only
    split
    · refine Traced.Adds.ite (fun _ => ?_) fun _ => Traced.Adds.ite (fun _ => ?_) fun _ => ?_
      · exact (mkdirRecursive_adds mkdir).bind fun _ _ => Traced.Adds.pure trivial
      · refine (adds_call creat).bind fun _ _ => ?_
        refine Traced.Adds.ite (fun _ => Traced.Adds.pure trivial) fun _ => ?_
        exact (adds_call close).bind fun _ _ => Traced.Adds.pure trivial
      · exact Traced.Adds.pure trivial
    · exact link

/-- How a hard link is made. -/
theorem makeHardlink_adds {d : Dico}
    (link : ∀ target, readTarget d ItemKey.hardlink = some target → ∀ res,
      allowed (.link (concatenatePaths ctx.destdir target) path, res)) :
    Traced.Adds allowed (fun _ => True) (makeHardlink ctx path d) := by
  unfold makeHardlink
  cases target : readTarget d ItemKey.hardlink with
  | none => exact Traced.Adds.pure trivial
  | some buffer =>
    exact (adds_call (link buffer target)).bind fun _ _ => Traced.Adds.pure trivial

/-- How a special file is made. -/
theorem makeDevfile_adds {d : Dico} (mknod : ∀ mode dev res, allowed (.mknod path mode dev, res)) :
    Traced.Adds allowed (fun _ => True) (makeDevfile ctx path d) := by
  unfold makeDevfile
  cases dicoGetU64 ctx.mem d Section.stdattr ItemKey.rdev with
  | none => exact Traced.Adds.pure trivial
  | some dev =>
    cases dicoGetU32 ctx.mem d Section.stdattr ItemKey.mode with
    | none => exact Traced.Adds.pure trivial
    | some mode => exact (adds_call (mknod _ _)).bind fun _ _ => Traced.Adds.pure trivial

/-- The property holds of the calls for the contents of this file, if it is open and really
written. -/
def Datafile.Allows (allowed : SysCall × Int → Prop) (f : Datafile) : Prop :=
  f.isOpen = true → f.simul = false → FsArchiver.Fills allowed f.path

theorem datafileAlloc_allows : datafileAlloc.Allows allowed := fun opened => by cases opened

theorem datafileOpenWrite_adds {f : Datafile} (fills : f.Allows allowed) (simul sparse : Bool)
    (own : simul = false → FsArchiver.Fills allowed path) :
    Traced.Adds allowed (fun res => res.2.Allows allowed)
      (datafileOpenWrite os f path simul sparse) := by
  refine Traced.Adds.ite (fun _ => Traced.Adds.pure fills) fun _ => ?_
  refine Traced.Adds.ite (fun simulates => ?_) fun writes => ?_
  · apply Traced.Adds.pure
    exact fun _ writes => by simp [simulates] at writes
  · have own := own (eq_false_of_ne_true writes)
    refine (adds_call own.create).bind fun _ _ => ?_
    exact Traced.Adds.ite (fun _ => Traced.Adds.pure fills) fun _ =>
      Traced.Adds.pure fun _ _ => own

theorem datafileWrite_adds {f : Datafile} (fills : f.Allows allowed) (data : List UInt8) :
    Traced.Adds allowed (fun res => res.2.Allows allowed) (datafileWrite os f data) := by
  refine Traced.Adds.ite (fun _ => Traced.Adds.pure fills) fun opened => ?_
  refine Traced.Adds.ite (fun _ => Traced.Adds.pure fills) fun writes => ?_
  have own := fills (by simpa using opened) (eq_false_of_ne_true writes)
  refine Traced.Adds.ite (fun _ => ?_) fun _ => ?_
  · refine (adds_call (own.lseek _)).bind fun _ _ => ?_
    exact Traced.Adds.ite (fun _ => Traced.Adds.pure fills) fun _ => Traced.Adds.pure fills
  · refine (adds_call (own.write _)).bind fun _ _ => ?_
    exact Traced.Adds.ite (fun _ => Traced.Adds.pure fills) fun _ => Traced.Adds.pure fills

theorem datafileClose_adds {md5 : Md5} {f : Datafile} (fills : f.Allows allowed) :
    Traced.Adds allowed (fun res => res.f.Allows allowed) (datafileClose os md5 f) := by
  have shut : Datafile.Allows allowed { f with isOpen := false, path := [] } :=
    fun still => by cases still
  refine Traced.Adds.ite (fun _ => Traced.Adds.pure fills) fun opened => ?_
  refine Traced.Adds.ite (fun _ => Traced.Adds.pure shut) fun writes => ?_
  have own := fills (by simpa using opened) (eq_false_of_ne_true writes)
  refine Traced.Adds.andThen (fun _ => True) ?_ fun _ _ => ?_
  · exact Traced.Adds.ite (fun _ => adds_call own.ftruncate) fun _ => Traced.Adds.pure trivial
  · exact (adds_call own.close).bind fun _ _ => Traced.Adds.pure shut

theorem datafileDestroy_adds {md5 : Md5} {f : Datafile} (fills : f.Allows allowed) :
    Traced.Adds allowed (fun _ => True) (datafileDestroy os md5 f) := by
  refine Traced.Adds.ite (fun _ => ?_) fun _ => Traced.Adds.pure trivial
  exact (datafileClose_adds fills).bind fun _ _ => Traced.Adds.pure trivial

theorem writeSmallFile_adds (fills : Fills allowed path) (d : Dico) (databuf : List UInt8) :
    Traced.Adds allowed (fun _ => True) (writeSmallFile ctx path d databuf) := by
  unfold writeSmallFile
  cases dicoGetData d Section.stdattr ItemKey.md5sum 16 with
  | none => exact Traced.Adds.pure trivial
  | some md5sumorig =>
    refine (datafileOpenWrite_adds datafileAlloc_allows false false fun _ => fills).bind
      fun opened opens => ?_
    refine Traced.Adds.ite (fun _ => Traced.Adds.pure trivial) fun _ => ?_
    refine (datafileWrite_adds opens databuf).bind fun written writes => ?_
    refine (datafileClose_adds writes).bind fun closed _ => ?_
    refine Traced.Adds.ite (fun _ => ?_) fun _ => Traced.Adds.ite (fun _ => ?_) fun _ => ?_
    · exact (adds_call fills.unlink).bind fun _ _ => Traced.Adds.pure trivial
    · exact (adds_call fills.truncate).bind fun _ _ => Traced.Adds.pure trivial
    · exact Traced.Adds.pure trivial

/-- The stored path of a small file of a pack, if it can be read. -/
def smallPath (ctx : Context) (regmulti : Regmulti) (index : Nat) : Option Path := do
  let (filehead, _) ← regmultiRestGetfile ctx.mem regmulti index
  readPath ctx.mem filehead ItemKey.path

/-- A small file of a pack. Nothing is done for one that is excluded. -/
theorem restoreSmallFile_adds (objtype : UInt32) {regmulti : Regmulti} {index : Nat}
    (own : ∀ relpath, smallPath ctx regmulti index = some relpath →
      isFiledirExcluded ctx.exclude relpath = false →
      Attends allowed (concatenatePaths ctx.destdir relpath) ∧
        Fills allowed (concatenatePaths ctx.destdir relpath)) :
    Traced.Adds allowed (fun _ => True) (restoreSmallFile ctx objtype regmulti index) := by
  unfold restoreSmallFile
  unfold smallPath at own
  cases file : regmultiRestGetfile ctx.mem regmulti index with
  | none => exact Traced.Adds.pure trivial
  | some found =>
    obtain ⟨filehead, databuf⟩ := found
    rw [file] at own
    dsimp only
    cases dicoGetU32 ctx.mem filehead Section.stdattr ItemKey.objtype with
    | none => exact Traced.Adds.pure trivial
    | some _ =>
      cases stored : readPath ctx.mem filehead ItemKey.path with
      | none => exact Traced.Adds.pure trivial
      | some relpath =>
        refine Traced.Adds.ite (fun _ => Traced.Adds.pure trivial) fun included => ?_
        obtain ⟨attends, fills⟩ := own relpath stored
          (eq_false_of_ne_true included)
        refine (enterParent_adds attends.mkdir).bind fun tv _ => ?_
        refine (writeSmallFile_adds fills filehead databuf).bind fun written _ => ?_
        refine Traced.Adds.ite (fun _ => Traced.Adds.pure trivial) fun _ => ?_
        refine (extractarRestoreAttrEverything_adds attends.toDresses objtype filehead).bind
          fun _ _ => ?_
        refine Traced.Adds.ite (fun _ => Traced.Adds.pure trivial) fun _ => ?_
        refine (leaveParent_adds attends.parent tv).bind fun left _ => ?_
        exact Traced.Adds.ite (fun _ => Traced.Adds.pure trivial) fun _ => Traced.Adds.pure trivial

theorem restoreBlocks_adds {filesize : UInt64} (queue : List QueueData) :
    ∀ (filepos : UInt64) (f : Datafile), f.Allows allowed →
      Traced.Adds allowed (fun res => res.2.2.Allows allowed)
        (restoreBlocks ctx filesize queue filepos f) := by
  induction queue with
  | nil =>
    intro filepos f fills
    exact Traced.Adds.ite (fun _ => Traced.Adds.pure fills) fun _ => Traced.Adds.pure fills
  | cons item queue ih =>
    intro filepos f fills
    cases item with
    | header headinfo =>
      exact Traced.Adds.ite (fun _ => Traced.Adds.pure fills) fun _ => Traced.Adds.pure fills
    | block blkinfo =>
      refine Traced.Adds.ite (fun _ => Traced.Adds.pure fills) fun _ => ?_
      refine Traced.Adds.ite (fun _ => Traced.Adds.pure fills) fun _ => ?_
      refine (datafileWrite_adds fills _).bind fun written fills => ?_
      exact Traced.Adds.ite (fun _ => Traced.Adds.pure fills) fun _ => ih _ _ fills

theorem finishRegfile_adds (attends : Attends allowed path) (d : Dico) (objtype : UInt32)
    (tv : UInt64 × UInt64) :
    Traced.Adds allowed (fun _ => True) (finishRegfile ctx path d objtype tv) := by
  refine (extractarRestoreAttrEverything_adds attends.toDresses objtype d).bind fun _ _ => ?_
  exact (leaveParent_adds attends.parent tv).bind fun _ _ => Traced.Adds.pure trivial

theorem writeRegfile_adds (queue : List QueueData) (excluded sparse : Bool) (filesize : UInt64)
    (own : excluded = false → Fills allowed path) :
    Traced.Adds allowed (fun file => file.closed.f.Allows allowed)
      (writeRegfile ctx queue path excluded sparse filesize) := by
  refine (datafileOpenWrite_adds datafileAlloc_allows excluded sparse own).bind
    fun opened fills => ?_
  refine Traced.Adds.andThen (fun res => res.2.2.Allows allowed) ?_ fun blocks fills => ?_
  · exact Traced.Adds.ite (fun _ => restoreBlocks_adds _ _ _ fills)
      fun _ => Traced.Adds.pure fills
  refine Traced.Adds.andThen (fun closed => closed.f.Allows allowed) ?_ fun closed fills => ?_
  · exact Traced.Adds.ite (fun _ => datafileClose_adds fills) fun _ => Traced.Adds.pure fills
  · exact Traced.Adds.pure fills

/-- A large or empty file. If it is excluded, all that may be done is to delete it. -/
theorem restoreRegfileUnique_adds (queue : List QueueData) (d : Dico) (objtype : UInt32)
    {excluded : Bool} (filesize : UInt64)
    (own : excluded = false → Attends allowed path ∧ Fills allowed path)
    (unlink : ∀ res, allowed (.unlink path, res)) :
    Traced.Adds allowed (fun _ => True)
      (restoreRegfileUnique ctx queue path d objtype excluded filesize) := by
  refine Traced.Adds.andThen (fun _ => True) ?_ fun tv _ => ?_
  · refine Traced.Adds.ite (fun _ => Traced.Adds.pure trivial) fun included => ?_
    exact enterParent_adds (own (eq_false_of_ne_true included)).1.mkdir
  refine (writeRegfile_adds _ _ _ _ fun included => (own included).2).bind fun file fills => ?_
  refine Traced.Adds.andThen (fun _ => True) ?_ fun finished _ => ?_
  · refine Traced.Adds.ite (fun closed => ?_) fun _ => Traced.Adds.pure trivial
    have included : excluded = false := by
      simp only [Bool.and_eq_true, Bool.not_eq_true'] at closed
      exact closed.2
    exact finishRegfile_adds (own included).1 d objtype tv
  refine Traced.Adds.ite (fun _ => ?_) fun _ => ?_
  · refine (adds_call unlink).bind fun _ _ => ?_
    exact (datafileDestroy_adds fills).bind fun _ _ => Traced.Adds.pure trivial
  · exact (datafileDestroy_adds fills).bind fun _ _ => Traced.Adds.pure trivial

/-! ## The calls of a header -/

/-- The headers of the objects that `extractar_restore_object` handles when it is given this
header: those of all files of a pack, and otherwise this one. -/
def handledHeaders (ctx : Context) (d : Dico) (queue : List QueueData) : List Dico :=
  if dicoGetU32 ctx.mem d Section.stdattr ItemKey.objtype = some ObjType.regfilemulti.code then
    match dicoGetU32 ctx.mem d Section.stdattr ItemKey.multifilescount,
      regmultiRestAddheader (regmultiInit maxBlkSize) d with
    | some filescount, some regmulti =>
      (restoreHeaders (filescount.toNat - 1) regmulti queue).2.1.objhead
    | _, _ => [d]
  else [d]

/-- The path of a small file is the one in its header. -/
theorem smallPath_header {regmulti : Regmulti} {index : Nat} {relpath : Path}
    (stored : smallPath ctx regmulti index = some relpath) :
    ∃ head ∈ regmulti.objhead, readPath ctx.mem head ItemKey.path = some relpath := by
  unfold smallPath regmultiRestGetfile at stored
  cases found : regmulti.objhead[index]? with
  | none => simp [found] at stored
  | some head =>
    refine ⟨head, List.mem_of_getElem? found, ?_⟩
    simp only [found, Option.bind_eq_bind, Option.bind_eq_some_iff, Option.some.injEq] at stored
    obtain ⟨file, ⟨filesize, -, offset, -, rfl⟩, stored⟩ := stored
    exact stored

theorem restoreSmallFiles_adds (objtype : UInt32) {regmulti : Regmulti}
    (own : ∀ head ∈ regmulti.objhead, ∀ relpath, readPath ctx.mem head ItemKey.path = some relpath →
      isFiledirExcluded ctx.exclude relpath = false →
      Attends allowed (concatenatePaths ctx.destdir relpath) ∧
        Fills allowed (concatenatePaths ctx.destdir relpath)) (indices : List Nat) (stats : Stats) :
    Traced.Adds allowed (fun _ => True) (restoreSmallFiles ctx objtype regmulti indices stats) := by
  induction indices generalizing stats with
  | nil => exact Traced.Adds.pure trivial
  | cons index rest ih =>
    have small : Traced.Adds allowed (fun _ => True)
        (restoreSmallFile ctx objtype regmulti index) := by
      apply restoreSmallFile_adds
      intro relpath stored included
      obtain ⟨head, member, stored⟩ := smallPath_header stored
      exact own head member relpath stored included
    refine small.bind fun file _ => ?_
    cases file with
    | restored => exact ih _
    | failed => exact ih _
    | excluded => exact ih _
    | fatal => exact Traced.Adds.pure trivial

/-- A pack, whatever follows its header. -/
theorem extractarRestoreObjRegfileMulti_adds {d : Dico}
    (multi : dicoGetU32 ctx.mem d Section.stdattr ItemKey.objtype =
      some ObjType.regfilemulti.code) (exar : Extractar) (objtype : UInt32)
    (own : ∀ head ∈ handledHeaders ctx d exar.queue, ∀ relpath,
      readPath ctx.mem head ItemKey.path = some relpath →
      isFiledirExcluded ctx.exclude relpath = false →
      Attends allowed (concatenatePaths ctx.destdir relpath) ∧
        Fills allowed (concatenatePaths ctx.destdir relpath)) :
    ∃ made, (extractarRestoreObjRegfileMulti ctx exar d objtype).2.log = exar.log ++ made ∧
      ∀ entry ∈ made, allowed entry := by
  have nothing : ∃ made, exar.log = exar.log ++ made ∧ ∀ entry ∈ made, allowed entry :=
    ⟨[], (List.append_nil _).symm, by simp⟩
  unfold handledHeaders at own
  rw [if_pos multi] at own
  unfold extractarRestoreObjRegfileMulti
  dsimp only
  cases counted : dicoGetU32 ctx.mem d Section.stdattr ItemKey.multifilescount with
  | none => exact nothing
  | some filescount =>
    cases added : regmultiRestAddheader (regmultiInit maxBlkSize) d with
    | none => exact nothing
    | some first =>
      simp only [counted, added] at own
      dsimp only
      generalize restoreHeaders (filescount.toNat - 1) first exar.queue = taken at own
      obtain ⟨ok, regmulti, queue⟩ := taken
      cases ok with
      | false => exact nothing
      | true =>
        dsimp only
        cases dequeueBlock queue with
        | error err => exact nothing
        | ok taken =>
          obtain ⟨blkinfo, queue⟩ := taken
          dsimp only
          cases filled : regmultiRestSetdatablock regmulti
              (heapBytes ctx.mem blkinfo.blkdata 0 blkinfo.blkrealsize.toNat) with
          | none => exact nothing
          | some regmulti' =>
            have same : regmulti'.objhead = regmulti.objhead := by
              unfold regmultiRestSetdatablock at filled
              split at filled
              · cases filled
              · rw [← Option.some.inj filled]
            have adds : Traced.Adds allowed (fun _ => True)
                (restoreSmallFiles ctx objtype regmulti' (List.range filescount.toNat) exar.stats) :=
              restoreSmallFiles_adds objtype (fun head member => own head (same ▸ member)) _ _
            obtain ⟨made, added, allowed, -⟩ := adds exar.log
            exact ⟨made, added, allowed⟩

/-- An object made of its header. -/
theorem restoreHeaderOnly_adds {type : ObjType} {entry : Sys Bool} (exar : Extractar)
    (adds : Traced.Adds allowed (fun _ => True) entry) :
    ∃ made, (restoreHeaderOnly exar type entry).2.log = exar.log ++ made ∧
      ∀ entry ∈ made, allowed entry := by
  obtain ⟨made, added, allowed, -⟩ := adds exar.log
  exact ⟨made, added, allowed⟩

/-- A large or empty file. -/
theorem extractarRestoreObjRegfileUnique_adds (exar : Extractar) (relpath : Path) (d : Dico)
    (objtype : UInt32)
    (own : isFiledirExcluded ctx.exclude relpath = false →
      Attends allowed path ∧ Fills allowed path)
    (unlink : ∀ res, allowed (.unlink path, res)) :
    ∃ made, (extractarRestoreObjRegfileUnique ctx exar path relpath d objtype).2.log =
      exar.log ++ made ∧ ∀ entry ∈ made, allowed entry := by
  unfold extractarRestoreObjRegfileUnique
  dsimp only
  cases dicoGetU64 ctx.mem d Section.stdattr ItemKey.size with
  | none => exact ⟨[], (List.append_nil _).symm, by simp⟩
  | some filesize =>
    have adds : Traced.Adds allowed (fun _ => True) (restoreRegfileUnique ctx exar.queue path d
        objtype (isFiledirExcluded ctx.exclude relpath) filesize) :=
      restoreRegfileUnique_adds _ _ _ _ own unlink
    obtain ⟨made, added, allowed, -⟩ := adds exar.log
    exact ⟨made, added, allowed⟩

/-- All that is done when `extractar_restore_object` is given a header, whatever follows it. -/
theorem extractarRestoreObject_adds {d : Dico} (exar : Extractar)
    (own : ∀ head ∈ handledHeaders ctx d exar.queue, ∀ relpath,
      readPath ctx.mem head ItemKey.path = some relpath →
      isFiledirExcluded ctx.exclude relpath = false →
      Attends allowed (concatenatePaths ctx.destdir relpath) ∧
        Fills allowed (concatenatePaths ctx.destdir relpath) ∧
        (dicoGetU32 ctx.mem d Section.stdattr ItemKey.objtype ≠ some ObjType.regfilemulti.code →
          Makes allowed (concatenatePaths ctx.destdir relpath)))
    (link : ∀ relpath target, readPath ctx.mem d ItemKey.path = some relpath →
      isFiledirExcluded ctx.exclude relpath = false →
      dicoGetU32 ctx.mem d Section.stdattr ItemKey.objtype = some ObjType.hardlink.code →
      readTarget d ItemKey.hardlink = some target → ∀ res, allowed
        (.link (concatenatePaths ctx.destdir target) (concatenatePaths ctx.destdir relpath), res))
    (unlink : ∀ relpath, readPath ctx.mem d ItemKey.path = some relpath →
      dicoGetU32 ctx.mem d Section.stdattr ItemKey.objtype = some ObjType.regfileunique.code →
      ∀ res, allowed (.unlink (concatenatePaths ctx.destdir relpath), res)) :
    ∃ made, (extractarRestoreObject ctx exar d).2.log = exar.log ++ made ∧
      ∀ entry ∈ made, allowed entry := by
  have nothing : ∃ made, exar.log = exar.log ++ made ∧ ∀ entry ∈ made, allowed entry :=
    ⟨[], (List.append_nil _).symm, by simp⟩
  unfold extractarRestoreObject
  cases stored : readPath ctx.mem d ItemKey.path with
  | none => exact nothing
  | some relpath =>
    cases typed : dicoGetU32 ctx.mem d Section.stdattr ItemKey.objtype with
    | none => exact nothing
    | some objtype =>
      cases dicoGetU64 ctx.mem d Section.stdattr ItemKey.size with
      | none => exact nothing
      | some filesize =>
        dsimp only
        cases known : ObjType.ofCode objtype with
        | none => exact nothing
        | some type =>
          have code := typed.trans (congrArg some (ObjType.code_of_ofCode known))
          have single (other : type ≠ .regfilemulti) :
              isFiledirExcluded ctx.exclude relpath = false →
                Attends allowed (concatenatePaths ctx.destdir relpath) ∧
                Fills allowed (concatenatePaths ctx.destdir relpath) ∧
                Makes allowed (concatenatePaths ctx.destdir relpath) := by
            intro included
            have alone : dicoGetU32 ctx.mem d Section.stdattr ItemKey.objtype ≠
                some ObjType.regfilemulti.code := by
              intro multi
              have number : objtype = ObjType.regfilemulti.code :=
                Option.some.inj (typed.symm.trans multi)
              rw [number, ObjType.ofCode_code (by decide), Option.some.injEq] at known
              exact other known.symm
            have handled : d ∈ handledHeaders ctx d exar.queue := by
              unfold handledHeaders
              rw [if_neg alone]
              exact List.mem_cons_self
            obtain ⟨attends, fills, makes⟩ := own d handled relpath stored included
            exact ⟨attends, fills, makes alone⟩
          have entry (make : Sys Bool) (other : type ≠ .regfilemulti)
              (making : isFiledirExcluded ctx.exclude relpath = false →
                Traced.Adds allowed (fun _ => True) make) :
              ∃ made, (restoreHeaderOnly exar type (restoreEntry ctx
                  (concatenatePaths ctx.destdir relpath) relpath d objtype make)).2.log =
                exar.log ++ made ∧ ∀ entry ∈ made, allowed entry :=
            restoreHeaderOnly_adds exar
              (restoreEntry_adds (fun included => (single other included).1) making)
          have device (other : type ≠ .regfilemulti) :=
            entry (makeDevfile ctx (concatenatePaths ctx.destdir relpath) d) other fun included =>
              makeDevfile_adds (single other included).2.2.mknod
          cases type with
          | null => exact nothing
          | chardev => exact device nofun
          | blockdev => exact device nofun
          | fifo => exact device nofun
          | socket => exact device nofun
          | dir =>
            exact entry _ nofun fun included =>
              (mkdirRecursive_adds (single nofun included).2.2.mkdir).bind
                fun _ _ => Traced.Adds.pure trivial
          | symlink =>
            refine entry _ nofun fun included => ?_
            obtain ⟨-, fills, makes⟩ := single nofun included
            exact makeSymlink_adds (fun target _ => makes.symlink target) makes.mkdir makes.creat
              fills.close
          | hardlink =>
            refine entry _ nofun fun included => ?_
            exact makeHardlink_adds fun target read => link relpath target stored included code read
          | regfileunique =>
            apply extractarRestoreObjRegfileUnique_adds
            · intro included
              obtain ⟨attends, fills, -⟩ := single nofun included
              exact ⟨attends, fills⟩
            · exact unlink relpath stored code
          | regfilemulti =>
            apply extractarRestoreObjRegfileMulti_adds code
            intro head member relpath stored included
            obtain ⟨attends, fills, -⟩ := own head member relpath stored included
            exact ⟨attends, fills⟩

/-! ## Calls about one object -/

/-- The call makes and changes no other object than the one at this path. -/
def About (path : Path) (entry : SysCall × Int) : Prop :=
  ∀ other, entry.1.object = some other → other = path

/-- Besides, it leaves the contents of regular files alone. -/
def Quiet (path : Path) (entry : SysCall × Int) : Prop :=
  About path entry ∧ entry.1.filePath = none

/-- All calls of the program are about this object. -/
abbrev Sys.About {α : Type} (path : Path) (prog : Sys α) : Prop :=
  Traced.Adds (FsArchiver.About path) (fun _ => True) prog

/-- All calls of the program are about this object, and none is about its contents. -/
abbrev Sys.Quiet {α : Type} (path : Path) (prog : Sys α) : Prop :=
  Traced.Adds (FsArchiver.Quiet path) (fun _ => True) prog

theorem Sys.Quiet.about {α : Type} {prog : Sys α} (quiet : Sys.Quiet path prog) :
    Sys.About path prog :=
  quiet.mono (fun _ entry => entry.1) fun _ _ => trivial

/-- A call that is about no object at all. -/
theorem quiet_of_object {call : SysCall} (none : call.object = none) (res : Int) :
    Quiet path (call, res) := by
  refine ⟨fun other same => ?_, ?_⟩
  · rw [none] at same
    cases same
  · cases call <;> simp_all [SysCall.object, SysCall.filePath]

/-- A call about this object that is none about its contents. -/
theorem quiet_of_own {call : SysCall} (object : call.object = some path)
    (file : call.filePath = none) (res : Int) : Quiet path (call, res) :=
  ⟨fun other same => by simp_all, file⟩

/-- A call about this object. -/
theorem about_of_own {call : SysCall} (object : call.object = some path) (res : Int) :
    About path (call, res) :=
  fun other same => by simp_all

/-- Directories and attributes are quiet. -/
theorem attends_quiet (path : Path) : Attends (Quiet path) path where
  lchown _ _ := quiet_of_own rfl rfl
  chmod _ := quiet_of_own rfl rfl
  utimes _ _ := quiet_of_object rfl
  lutimes _ _ := quiet_of_own rfl rfl
  lsetxattr _ _ := quiet_of_own rfl rfl
  mkdir _ _ := quiet_of_object rfl
  parent _ _ := quiet_of_object rfl

theorem attends_about (path : Path) : Attends (About path) path where
  lchown uid gid res := ((attends_quiet path).lchown uid gid res).1
  chmod mode res := ((attends_quiet path).chmod mode res).1
  utimes atime mtime res := ((attends_quiet path).utimes atime mtime res).1
  lutimes atime mtime res := ((attends_quiet path).lutimes atime mtime res).1
  lsetxattr name value res := ((attends_quiet path).lsetxattr name value res).1
  mkdir buffer member res := ((attends_quiet path).mkdir buffer member res).1
  parent atime mtime res := ((attends_quiet path).parent atime mtime res).1

/-- The contents of the object are its own. -/
theorem fills_about (path : Path) : Fills (About path) path where
  create := about_of_own rfl
  write _ := about_of_own rfl
  lseek _ := about_of_own rfl
  ftruncate := about_of_own rfl
  close := about_of_own rfl
  truncate := about_of_own rfl
  unlink := about_of_own rfl

theorem mkdirEach_quiet (paths : List Path) : Sys.Quiet path (mkdirEach os paths) :=
  mkdirEach_adds fun _ _ => quiet_of_object rfl

theorem mkdirRecursive_quiet (dir : Path) : Sys.Quiet path (mkdirRecursive os dir) :=
  mkdirRecursive_adds fun _ _ => quiet_of_object rfl

theorem extractarRestoreAttrEverything_quiet (objtype : UInt32) (d : Dico) :
    Sys.Quiet path (extractarRestoreAttrEverything ctx objtype path d) :=
  extractarRestoreAttrEverything_adds (attends_quiet path).toDresses objtype d

theorem enterParent_quiet (fullpath : Path) : Sys.Quiet path (enterParent ctx fullpath) :=
  enterParent_adds fun _ _ => quiet_of_object rfl

theorem leaveParent_quiet (fullpath : Path) (tv : UInt64 × UInt64) :
    Sys.Quiet path (leaveParent ctx fullpath tv) :=
  leaveParent_adds (fun _ _ => quiet_of_object rfl) tv

theorem makeSymlink_about (d : Dico) : Sys.About path (makeSymlink ctx path d) :=
  makeSymlink_adds (fun _ _ => about_of_own rfl) (fun _ _ res => (quiet_of_object rfl res).1)
    (about_of_own rfl) (about_of_own rfl)

theorem makeHardlink_about (d : Dico) : Sys.About path (makeHardlink ctx path d) :=
  makeHardlink_adds fun _ _ => about_of_own rfl

theorem makeDevfile_about (d : Dico) : Sys.About path (makeDevfile ctx path d) :=
  makeDevfile_adds fun _ _ => about_of_own rfl

/-- An object made of its header, if it is made at its path. -/
theorem restoreEntry_about {relpath : Path} {d : Dico} {objtype : UInt32} {make : Sys Bool}
    (making : Sys.About path make) :
    Sys.About path (restoreEntry ctx path relpath d objtype make) :=
  restoreEntry_adds (fun _ => attends_about path) fun _ => making

theorem writeSmallFile_about (d : Dico) (databuf : List UInt8) :
    Sys.About path (writeSmallFile ctx path d databuf) :=
  writeSmallFile_adds (fills_about path) d databuf

/-- A small file of a pack is one object. -/
theorem restoreSmallFile_about (objtype : UInt32) (regmulti : Regmulti) (index : Nat) :
    ∃ path, Sys.About path (restoreSmallFile ctx objtype regmulti index) := by
  cases stored : smallPath ctx regmulti index with
  | none =>
    refine ⟨[], restoreSmallFile_adds objtype fun relpath found => ?_⟩
    rw [stored] at found
    cases found
  | some relpath =>
    refine ⟨concatenatePaths ctx.destdir relpath,
      restoreSmallFile_adds objtype fun relpath' found _ => ?_⟩
    rw [stored, Option.some.injEq] at found
    subst found
    exact ⟨attends_about _, fills_about _⟩

theorem finishRegfile_quiet (d : Dico) (objtype : UInt32) (tv : UInt64 × UInt64) :
    Sys.Quiet path (finishRegfile ctx path d objtype tv) :=
  finishRegfile_adds (attends_quiet path) d objtype tv

theorem restoreRegfileUnique_about (queue : List QueueData) (d : Dico) (objtype : UInt32)
    (excluded : Bool) (filesize : UInt64) :
    Sys.About path (restoreRegfileUnique ctx queue path d objtype excluded filesize) :=
  restoreRegfileUnique_adds queue d objtype filesize
    (fun _ => ⟨attends_about path, fills_about path⟩) (about_of_own rfl)

end FsArchiver
