import FsArchiver.RestoreCalls

/-!
# Restoring on a system on which nothing fails

What the functions that restore one object give and which calls they make, when no call fails
and the header says all there is to know about the object.
-/
namespace FsArchiver

open Lib

variable {ctx : Context} {path : Path} {log : Log}

/-! ## Attributes -/

/-- The attributes of an object that is not a symbolic link, with those in a section. -/
structure Attributed (ctx : Context) (log : Log) (path : Path) (d : Dico) (objtype : UInt32) :
    Prop where
  /-- The owner. -/
  owner : ∀ attr, readStdAttr ctx.mem d = some attr → (.lchown path attr.uid attr.gid, 0) ∈ log
  /-- The permissions. -/
  mode : ∀ attr, readStdAttr ctx.mem d = some attr → objtype ≠ ObjType.symlink.code →
    (.chmod path attr.mode, 0) ∈ log
  /-- The extended attributes. -/
  xattrs : ∀ sect ∈ [Section.xattr, Section.winattr],
    ∀ key ∈ evenKeys (dicoCountOneSection d sect), ∀ attr, readAttr d sect key = some attr →
      (.lsetxattr path attr.1 attr.2, 0) ∈ log

theorem Attributed.mono {log' : Log} {d : Dico} {objtype : UInt32}
    (attributed : Attributed ctx log path d objtype) (more : log ⊆ log') :
    Attributed ctx log' path d objtype where
  owner attr read := more (attributed.owner attr read)
  mode attr read link := more (attributed.mode attr read link)
  xattrs sect member key mem attr read := more (attributed.xattrs sect member key mem attr read)

/-- All attributes of an object can be read. -/
structure Readable (ctx : Context) (d : Dico) : Prop where
  /-- The standard ones. -/
  std : (readStdAttr ctx.mem d).isSome
  /-- The extended ones. -/
  xattrs : ∀ sect ∈ [Section.xattr, Section.winattr],
    ∀ key ∈ evenKeys (dicoCountOneSection d sect), (readAttr d sect key).isSome

theorem extractarRestoreAttrStd_calm (calm : ctx.os.Calm) (log : Log) {objtype : UInt32} {d : Dico}
    {attr : StdAttr} (read : readStdAttr ctx.mem d = some attr) :
    ∃ made, Traced.Gives (extractarRestoreAttrStd ctx objtype path d) log true made ∧
      (.lchown path attr.uid attr.gid, 0) ∈ made ∧
      (objtype ≠ ObjType.symlink.code → (.chmod path attr.mode, 0) ∈ made) := by
  unfold extractarRestoreAttrStd Traced.Gives
  rw [read]
  by_cases link : objtype = ObjType.symlink.code
  · refine ⟨(.lchown path attr.uid attr.gid, 0) ::
      if ctx.haveLutimes then [(.lutimes path attr.atime attr.mtime, 0)] else [], ?_,
      List.mem_cons_self, fun other => absurd link other⟩
    cases ctx.haveLutimes <;> simp [calm.call_eq, SysCall.sure, SysCall.success, link]
  · refine ⟨[(.lchown path attr.uid attr.gid, 0), (.chmod path attr.mode, 0),
      (.utimes path attr.atime attr.mtime, 0)], ?_, by simp, by simp⟩
    simp [calm.call_eq, SysCall.sure, SysCall.success, link]

theorem restoreAttrs_calm (calm : ctx.os.Calm) {sect : UInt8} {d : Dico} {keys : List Nat}
    (readable : ∀ key ∈ keys, (readAttr d sect key).isSome) (log : Log) :
    ∃ made, Traced.Gives (restoreAttrs ctx sect path d keys) log true made ∧
      ∀ key ∈ keys, ∀ attr, readAttr d sect key = some attr →
        (.lsetxattr path attr.1 attr.2, 0) ∈ made := by
  induction keys generalizing log with
  | nil => exact ⟨[], Traced.Gives.pure true log, by simp⟩
  | cons key keys ih =>
    obtain ⟨attr, read⟩ := Option.isSome_iff_exists.mp (readable key List.mem_cons_self)
    have call := calm.call_eq log (.lsetxattr path attr.1 attr.2)
    obtain ⟨made, gives, set⟩ := ih (fun key member => readable key (List.mem_cons_of_mem _ member))
      (log ++ [(.lsetxattr path attr.1 attr.2, 0)])
    refine ⟨(.lsetxattr path attr.1 attr.2, 0) :: made, ?_, ?_⟩
    · unfold restoreAttrs
      unfold Traced.Gives at gives ⊢
      simp [read, call, SysCall.sure, SysCall.success, gives]
    · intro key' member attr' read'
      rcases List.mem_cons.mp member with rfl | member
      · rw [read, Option.some.injEq] at read'
        subst read'
        exact List.mem_cons_self
      · exact List.mem_cons_of_mem _ (set key' member attr' read')

theorem extractarRestoreAttrEverything_calm (calm : ctx.os.Calm) {objtype : UInt32} {d : Dico}
    (readable : Readable ctx d) (log : Log) :
    ∃ made, Traced.Gives (extractarRestoreAttrEverything ctx objtype path d) log true made ∧
      Attributed ctx made path d objtype := by
  obtain ⟨attr, read⟩ := Option.isSome_iff_exists.mp readable.std
  obtain ⟨std, givesStd, owner, mode⟩ :=
    extractarRestoreAttrStd_calm calm log read
  obtain ⟨xattr, givesXattr, setXattr⟩ := restoreAttrs_calm calm
    (readable.xattrs Section.xattr (by simp)) (log ++ std)
  obtain ⟨windows, givesWindows, setWindows⟩ := restoreAttrs_calm calm
    (readable.xattrs Section.winattr (by simp)) (log ++ std ++ xattr)
  refine ⟨std ++ (xattr ++ (windows ++ [])), givesStd.bind (givesXattr.bind
    (givesWindows.bind (Traced.Gives.pure true _))), ?_⟩
  refine ⟨fun attr' read' => ?_, fun attr' read' other => ?_, ?_⟩
  · rw [read, Option.some.injEq] at read'
    subst read'
    exact List.mem_append_left _ owner
  · rw [read, Option.some.injEq] at read'
    subst read'
    exact List.mem_append_left _ (mode other)
  · intro sect member key mem attr' read'
    simp only [List.mem_cons, List.not_mem_nil, or_false] at member
    rcases member with rfl | rfl
    · exact List.mem_append_right _ (List.mem_append_left _ (setXattr key mem attr' read'))
    · exact List.mem_append_right _ (List.mem_append_right _
        (List.mem_append_left _ (setWindows key mem attr' read')))

/-! ## Objects made of a header only -/

/-- A directory is there: it was not missing, or it was made. -/
def DirMade (ctx : Context) (log : Log) (path : Path) : Prop :=
  (∃ before, before <+: log ∧ ctx.os.missing before path = false) ∨
    ∃ res, (.mkdir path, res) ∈ log

theorem DirMade.mono (made : DirMade ctx log path) (more : Log) :
    DirMade ctx (log ++ more) path := by
  rcases made with ⟨before, front, there⟩ | ⟨res, member⟩
  · exact .inl ⟨before, front.trans (List.prefix_append log more), there⟩
  · exact .inr ⟨res, List.mem_append_left more member⟩

theorem mkdirEach_made {paths : List Path} (member : path ∈ paths) (log : Log) :
    DirMade ctx ((mkdirEach ctx.os paths).run log).2 path := by
  have onward : ∀ (rest : List Path) (log : Log), DirMade ctx log path →
      DirMade ctx ((mkdirEach ctx.os rest).run log).2 path := by
    intro rest log made
    obtain ⟨more, added, -⟩ := @mkdirEach_quiet ctx.os path rest log
    rw [added]
    exact made.mono more
  induction paths generalizing log with
  | nil => cases member
  | cons dir rest ih =>
    unfold mkdirEach
    rcases List.mem_cons.mp member with rfl | member
    · cases missing : ctx.os.missing log path with
      | false =>
        simp only [Traced.run_bind, Os.run_isMissing, missing, Bool.false_eq_true, ↓reduceIte]
        exact onward rest log (.inl ⟨log, List.prefix_refl log, missing⟩)
      | true =>
        simp only [Traced.run_bind, Os.run_isMissing, missing, ↓reduceIte]
        exact onward rest _ (.inr ⟨_, List.mem_append_right _ List.mem_cons_self⟩)
    · cases missing : ctx.os.missing log dir with
      | false =>
        simp only [Traced.run_bind, Os.run_isMissing, missing, Bool.false_eq_true, ↓reduceIte]
        exact ih member log
      | true =>
        simp only [Traced.run_bind, Os.run_isMissing, missing, ↓reduceIte]
        exact ih member _

theorem mkdirRecursive_made (log : Log) :
    DirMade ctx ((mkdirRecursive ctx.os path).run log).2 path := by
  refine mkdirEach_made (List.mem_map.mpr ⟨path.length, ?_, List.take_length⟩) log
  exact List.mem_filter.mpr ⟨List.mem_range.mpr (Nat.lt_succ_self _), by simp⟩

/-- The object described by a header has been made. -/
def EntryMade (ctx : Context) (log : Log) (path : Path) (d : Dico) : ObjType → Prop
  | .dir => DirMade ctx log path
  | .symlink => ∃ target, readTarget d ItemKey.symlink = some target ∧
      match dicoGetU64 ctx.mem d Section.stdattr ItemKey.linktargettype, ctx.ntfs with
      | some targettype, true =>
        (targettype = ObjType.dir.code.toUInt64 ∧ DirMade ctx log path) ∨
          targettype = ObjType.regfileunique.code.toUInt64 ∧ (.creat path, 0) ∈ log
      | _, _ => (.symlink target path, 0) ∈ log
  | .hardlink => ∃ target, readTarget d ItemKey.hardlink = some target ∧
      (.link (concatenatePaths ctx.destdir target) path, 0) ∈ log
  | .chardev | .blockdev | .fifo | .socket => ∃ dev mode,
      dicoGetU64 ctx.mem d Section.stdattr ItemKey.rdev = some dev ∧
      dicoGetU32 ctx.mem d Section.stdattr ItemKey.mode = some mode ∧
      (.mknod path mode dev, 0) ∈ log
  | _ => False

/-- An object that has been made stays made. -/
theorem EntryMade.mono {d : Dico} {type : ObjType} (made : EntryMade ctx log path d type)
    (more : Log) : EntryMade ctx (log ++ more) path d type := by
  cases type with
  | dir => exact DirMade.mono made more
  | symlink =>
    obtain ⟨target, read, made⟩ := made
    refine ⟨target, read, ?_⟩
    revert made
    cases dicoGetU64 ctx.mem d Section.stdattr ItemKey.linktargettype <;> cases ctx.ntfs
    · exact List.mem_append_left more
    · exact List.mem_append_left more
    · exact List.mem_append_left more
    · exact Or.imp (fun dir => ⟨dir.1, dir.2.mono more⟩)
        fun file => ⟨file.1, List.mem_append_left more file.2⟩
  | hardlink =>
    obtain ⟨target, read, made⟩ := made
    exact ⟨target, read, List.mem_append_left more made⟩
  | chardev | blockdev | fifo | socket =>
    obtain ⟨dev, mode, readDev, readMode, made⟩ := made
    exact ⟨dev, mode, readDev, readMode, List.mem_append_left more made⟩
  | null | regfileunique | regfilemulti => exact made.elim

/-- What a header has to say about an object made of it only. -/
def Makeable (ctx : Context) (log : Log) (d : Dico) : ObjType → Prop
  | .dir => True
  | .symlink => (readTarget d ItemKey.symlink).isSome ∧
      ∀ targettype, dicoGetU64 ctx.mem d Section.stdattr ItemKey.linktargettype = some targettype →
        targettype = ObjType.dir.code.toUInt64 ∨ targettype = ObjType.regfileunique.code.toUInt64
  | .hardlink => ∃ target, readTarget d ItemKey.hardlink = some target ∧
      (contentAt log (concatenatePaths ctx.destdir target)).isSome
  | .chardev | .blockdev | .fifo | .socket =>
      (dicoGetU64 ctx.mem d Section.stdattr ItemKey.rdev).isSome ∧
      (dicoGetU32 ctx.mem d Section.stdattr ItemKey.mode).isSome
  | _ => False

/-- How an object of this type is made. -/
def makeEntry (ctx : Context) (path : Path) (d : Dico) : ObjType → Sys Bool
  | .symlink => makeSymlink ctx path d
  | .hardlink => makeHardlink ctx path d
  | .chardev | .blockdev | .fifo | .socket => makeDevfile ctx path d
  | _ => do
    mkdirRecursive ctx.os path
    return true

theorem makeEntry_about (d : Dico) (type : ObjType) : Sys.About path (makeEntry ctx path d type) := by
  cases type with
  | symlink => exact makeSymlink_about d
  | hardlink => exact makeHardlink_about d
  | chardev | blockdev | fifo | socket => exact makeDevfile_about d
  | null | dir | regfileunique | regfilemulti =>
    exact (mkdirRecursive_quiet path).about.bind fun _ _ => Traced.Adds.pure trivial

theorem makeEntry_calm (calm : ctx.os.Calm) {d : Dico} {type : ObjType}
    (makeable : Makeable ctx log d type) :
    ((makeEntry ctx path d type).run log).1 = true ∧
      EntryMade ctx ((makeEntry ctx path d type).run log).2 path d type := by
  cases type with
  | dir => exact ⟨rfl, mkdirRecursive_made log⟩
  | symlink =>
    obtain ⟨readable, known⟩ := makeable
    obtain ⟨target, read⟩ := Option.isSome_iff_exists.mp readable
    simp only [makeEntry, makeSymlink, EntryMade, read, Option.some.injEq, exists_eq_left']
    cases linktype : dicoGetU64 ctx.mem d Section.stdattr ItemKey.linktargettype with
    | none => simp [calm.call_eq, SysCall.sure, SysCall.success]
    | some targettype =>
      cases ctx.ntfs with
      | false => simp [calm.call_eq, SysCall.sure, SysCall.success]
      | true =>
        rcases known targettype linktype with rfl | rfl
        · exact ⟨rfl, .inl ⟨rfl, mkdirRecursive_made log⟩⟩
        · have apart : ¬ObjType.regfileunique.code.toUInt64 = ObjType.dir.code.toUInt64 := by decide
          simp [calm.call_eq, SysCall.sure, SysCall.success, apart]
  | hardlink =>
    obtain ⟨target, read, there⟩ := makeable
    have linked := calm.link log (concatenatePaths ctx.destdir target) path there
    simp [makeEntry, makeHardlink, EntryMade, read, Os.call, linked]
  | chardev | blockdev | fifo | socket =>
    obtain ⟨dev, readDev⟩ := Option.isSome_iff_exists.mp makeable.1
    obtain ⟨mode, readMode⟩ := Option.isSome_iff_exists.mp makeable.2
    simp [makeEntry, makeDevfile, EntryMade, readDev, readMode, calm.call_eq, SysCall.sure,
      SysCall.success]
  | null | regfileunique | regfilemulti => exact makeable.elim

/-- Calls about another object leave the contents of a file alone. -/
theorem contentAt_append_of_object {made : Log} (apart : ∀ entry ∈ made, entry.1.object ≠ some path) :
    contentAt (log ++ made) path = contentAt log path := by
  unfold contentAt
  rw [fileAt_eq, fileAt_eq log, history_append, history_of_object apart, List.append_nil]

/-- An object made of its header only, whose path is not excluded, is restored. -/
theorem restoreEntry_calm (calm : ctx.os.Calm) {relpath : Path} {d : Dico} {type : ObjType}
    {objtype : UInt32} (kept : isFiledirExcluded ctx.exclude relpath = false)
    (readable : Readable ctx d) (makeable : ∀ made, (∀ entry ∈ made, entry.1.filePath = none) →
      Makeable ctx (log ++ made) d type) :
    ∃ made, Traced.Gives (restoreEntry ctx path relpath d objtype (makeEntry ctx path d type)) log
        true made ∧
      EntryMade ctx (log ++ made) path d type ∧ Attributed ctx made path d objtype := by
  have quietEnter : Sys.Quiet path (enterParent ctx path) := enterParent_quiet path
  have aboutMake : Sys.About path (makeEntry ctx path d type) := makeEntry_about d type
  obtain ⟨tv, entered, enter, quiet, -⟩ := quietEnter.gives log
  have made : _ ∧ EntryMade ctx ((makeEntry ctx path d type).run (log ++ entered)).2 path d type :=
    makeEntry_calm calm (makeable entered fun entry member => (quiet entry member).2)
  obtain ⟨value, making, make, -, -⟩ := aboutMake.gives (log ++ entered)
  rw [show (makeEntry ctx path d type).run (log ++ entered) = _ from make] at made
  obtain ⟨yes : value = true, made⟩ := made
  subst yes
  obtain ⟨attrs, restore, attributed⟩ : ∃ attrs, Traced.Gives
      (extractarRestoreAttrEverything ctx objtype path d) (log ++ entered ++ making) true attrs ∧
      Attributed ctx attrs path d objtype :=
    extractarRestoreAttrEverything_calm calm readable _
  have left : Traced.Gives (leaveParent ctx path tv) (log ++ entered ++ making ++ attrs) true
      [(.utimes (extractDirpath path) tv.1 tv.2, 0)] := by
    simp [Traced.Gives, leaveParent, calm.call_eq, SysCall.sure, SysCall.success]
  refine ⟨entered ++ (making ++ (attrs ++ [(.utimes (extractDirpath path) tv.1 tv.2, 0)])),
    ?_, ?_, ?_⟩
  · unfold restoreEntry
    rw [kept, if_neg (by decide)]
    exact enter.bind (make.bind (restore.bind left))
  · simpa using made.mono (attrs ++ [(.utimes (extractDirpath path) tv.1 tv.2, 0)])
  · exact attributed.mono fun entry member => by simp [member]

end FsArchiver
