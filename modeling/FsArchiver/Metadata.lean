import FsArchiver.RestoreChecked
import FsArchiver.SavedHeaders

/-!
# Standard metadata of a restored object

The functions that restore an object read its owner, mode, times, device and target from the
header that `createar_item_stdattr` made. They pass on what `lstat64` and `readlink` said of the
original, but for two things: the times are cut to 32 bits when they are saved, and the target of a
symbolic link below `/tmp/fsa/` loses its first three components, whatever the filesystem.
-/
namespace FsArchiver

open Lib

/-! ## Calls that restore metadata -/

/-- The standard attributes of the original. -/
def Stat.attr (st : Stat) : StdAttr where
  mode := st.mode
  uid := st.uid
  gid := st.gid
  atime := st.atime
  mtime := st.mtime

/-- The calls that give an object its standard attributes, if none of them fails. -/
def attrCalls (haveLutimes isLink : Bool) (path : Path) (attr : StdAttr) : List SysCall :=
  .lchown path attr.uid attr.gid ::
    if isLink then
      if haveLutimes then [.lutimes path attr.atime attr.mtime] else []
    else [.chmod path attr.mode, .utimes path attr.atime attr.mtime]

/-- The program makes these calls in order, up to the first that fails. -/
def CallsInOrder {α : Type} (calls : List SysCall) (prog : Sys α) : Prop :=
  ∀ log, ∃ made, (prog.run log).2 = log ++ made ∧ made.map Prod.fst <+: calls ∧
    ((∀ entry ∈ made, entry.2 = 0) → made.map Prod.fst = calls)

/-- The calls that make a symbolic link or a special file. -/
def makingCall : SysCall × Int → Option SysCall
  | (.symlink target path, _) => some (.symlink target path)
  | (.mknod path mode dev, _) => some (.mknod path mode dev)
  | _ => none

/-- An object whose header this is gets the metadata of the original, in a program built with or
without `lutimes`. -/
structure MetadataRestored (haveLutimes : Bool) (st : Stat) (calls : ObjectCalls)
    (objtype : ObjType) (d : Dico) : Prop where
  /-- The owner, the mode and the times. -/
  attrs : ∀ ctx : Context, ctx.haveLutimes = haveLutimes → ∀ fullpath : Path,
    CallsInOrder (attrCalls haveLutimes (st.fileType = .lnk) fullpath st.attr)
      (extractarRestoreAttrStd ctx objtype.code fullpath d)
  /-- The target of a symbolic link. -/
  symlink : st.fileType = .lnk → ∀ target, calls.readlink = some target →
    ∀ (ctx : Context) (fullpath relpath : Path), isFiledirExcluded ctx.exclude relpath = false →
      Traced.Picks makingCall [.symlink target fullpath]
        (extractarRestoreObjSymlink ctx fullpath relpath d objtype.code)
  /-- The mode and the device of a special file. -/
  devfile : st.fileType ∈ [FileType.chr, .blk, .fifo, .sock] →
    ∀ (ctx : Context) (fullpath relpath : Path), isFiledirExcluded ctx.exclude relpath = false →
      Traced.Picks makingCall [.mknod fullpath st.mode st.rdev]
        (extractarRestoreObjDevfile ctx fullpath relpath d objtype.code)

/-! ## Calls in order -/

section Order

variable {α : Type} {os : Os}

/-- No call. -/
theorem callsInOrder_nil (value : α) : CallsInOrder [] (pure value : Sys α) := by
  intro log
  exact ⟨[], (List.append_nil log).symm, List.prefix_refl _, fun _ => rfl⟩

/-- The last call, whatever is made of its result. -/
theorem callsInOrder_last (call : SysCall) (value : Int → α) :
    CallsInOrder [call] (do let res ← os.call call; return value res) := by
  intro log
  exact ⟨[(call, os.answer log call)], rfl, List.prefix_refl _, fun _ => rfl⟩

/-- A call whose failure ends the program. -/
theorem callsInOrder_cons {calls : List SysCall} {next : Sys α} (call : SysCall) (failed : α)
    (later : CallsInOrder calls next) :
    CallsInOrder (call :: calls)
      (do let res ← os.call call; if res ≠ 0 then return failed else next) := by
  intro log
  by_cases done : os.answer log call = 0
  · obtain ⟨made, added, front, all⟩ := later (log ++ [(call, os.answer log call)])
    refine ⟨(call, os.answer log call) :: made, ?_, ?_, fun fine => ?_⟩
    · simpa [Os.call, done] using added
    · rw [List.map_cons]
      exact List.prefix_cons_inj call |>.mpr front
    · rw [List.map_cons, all fun entry member => fine entry (List.mem_cons_of_mem _ member)]
  · refine ⟨[(call, os.answer log call)], by simp [Os.call, done], ?_, fun fine => ?_⟩
    · exact List.prefix_cons_inj call |>.mpr List.nil_prefix
    · exact absurd (fine _ List.mem_cons_self) done

end Order

/-! ## What the functions pass on -/

variable {ctx : Context} {path : Path} {d : Dico} {objtype : UInt32}

/-- The calls of `extractar_restore_attr_std` are those for the attributes it reads. -/
theorem extractarRestoreAttrStd_calls {attr : StdAttr}
    (read : readStdAttr ctx.mem d = some attr) :
    CallsInOrder (attrCalls ctx.haveLutimes (objtype = ObjType.symlink.code) path attr)
      (extractarRestoreAttrStd ctx objtype path d) := by
  unfold extractarRestoreAttrStd attrCalls
  rw [read]
  by_cases link : objtype = ObjType.symlink.code
  · simp only [link, decide_true, ↓reduceIte]
    cases ctx.haveLutimes with
    | false => exact callsInOrder_cons _ _ (callsInOrder_nil true)
    | true => exact callsInOrder_cons _ _ (callsInOrder_last _ fun _ => true)
  · simp only [link, decide_false, Bool.false_eq_true, ↓reduceIte]
    apply callsInOrder_cons
    apply callsInOrder_cons
    exact callsInOrder_last _ fun res => decide (res = 0)

/-- All of them are made where no call fails. -/
theorem extractarRestoreAttrStd_all {attr : StdAttr}
    (read : readStdAttr ctx.mem d = some attr) (fine : ∀ log call, ctx.os.answer log call = 0) :
    ((extractarRestoreAttrStd ctx objtype path d).run []).2 =
      (attrCalls ctx.haveLutimes (objtype = ObjType.symlink.code) path attr).map (·, 0) := by
  unfold extractarRestoreAttrStd attrCalls
  rw [read]
  by_cases link : objtype = ObjType.symlink.code
  · cases lutimes : ctx.haveLutimes <;> simp [Os.call, fine, link]
  · simp [Os.call, fine, link]

/-- Entries that are not picked may be added for an object at any path. -/
theorem makingCall_attends : Attends (fun entry => makingCall entry = none) path where
  lchown _ _ _ := rfl
  chmod _ _ := rfl
  utimes _ _ _ := rfl
  lutimes _ _ _ := rfl
  lsetxattr _ _ _ := rfl
  mkdir _ _ _ := rfl
  parent _ _ _ := rfl

/-- An object that is not excluded is made by the calls of the function that makes it. -/
theorem restoreEntry_picks {relpath : Path} {make : Sys Bool} {picked : List SysCall}
    (included : isFiledirExcluded ctx.exclude relpath = false)
    (makes : Traced.Picks makingCall picked make) :
    Traced.Picks makingCall picked (restoreEntry ctx path relpath d objtype make) := by
  have attends := @makingCall_attends path
  have enters := Traced.Picks.of_adds (@enterParent_adds _ ctx path attends.mkdir)
  have rest (tv : UInt64 × UInt64) (made : Bool) : Traced.Picks makingCall [] (do
      if !made then return false
      else
        let attrs ← extractarRestoreAttrEverything ctx objtype path d
        if !attrs then return false
        else leaveParent ctx path tv) := by
    refine @Traced.Picks.of_adds _ _ _ _ (fun _ => True) _ ?_
    refine Traced.Adds.ite (fun _ => Traced.Adds.pure trivial) fun _ => ?_
    refine (extractarRestoreAttrEverything_adds attends.toDresses objtype d).bind fun attrs _ => ?_
    exact Traced.Adds.ite (fun _ => Traced.Adds.pure trivial) fun _ =>
      leaveParent_adds attends.parent tv
  have all := enters.bind fun tv => makes.bind fun made => rest tv made
  rw [List.nil_append, List.append_nil] at all
  unfold restoreEntry
  rw [if_neg (by simp [included])]
  exact all

/-- A symbolic link is made by one call, if nothing is known of its target. -/
theorem makeSymlink_picks {target : Path}
    (read : readTarget d ItemKey.symlink = some target)
    (plain : dicoGetU64 ctx.mem d Section.stdattr ItemKey.linktargettype = none) :
    Traced.Picks makingCall [.symlink target path] (makeSymlink ctx path d) := by
  intro log
  refine ⟨[(.symlink target path, ctx.os.answer log (.symlink target path))], ?_, rfl⟩
  unfold makeSymlink
  rw [read, plain]
  rfl

/-- A special file is made by one call. -/
theorem makeDevfile_picks {mode : UInt32} {dev : UInt64}
    (device : dicoGetU64 ctx.mem d Section.stdattr ItemKey.rdev = some dev)
    (read : dicoGetU32 ctx.mem d Section.stdattr ItemKey.mode = some mode) :
    Traced.Picks makingCall [.mknod path mode dev] (makeDevfile ctx path d) := by
  intro log
  refine ⟨[(.mknod path mode dev, ctx.os.answer log (.mknod path mode dev))], ?_, rfl⟩
  unfold makeDevfile
  rw [device, read]
  rfl

/-! ## What is stored -/

section Stored

variable {opts : SaveOptions} {save : Savear} {relpath : Path} {st : Stat} {calls : ObjectCalls}

/-- Only a symbolic link has the type of one. -/
theorem objectType_symlink :
    (objectType opts save st).code = ObjType.symlink.code ↔ st.fileType = .lnk := by
  unfold objectType regfileType
  cases type : st.fileType with
  | reg =>
    dsimp only
    split
    · decide
    · split <;> decide
  | dir | lnk | chr | blk | fifo | sock | other => simp [ObjType.code]

/-- Nothing is stored about the target of a symbolic link where the type of the filesystem does not
ask for it. -/
theorem targettype_stdattrDico (mem : Mem) (type : st.fileType = .lnk) {target : Path}
    (link : calls.readlink = some target) (plain : save.fstype.savesymtargettype = false) :
    dicoGetU64 mem (stdattrDico opts save relpath st calls) Section.stdattr
      ItemKey.linktargettype = none := by
  rw [dicoGetU64_targettype mem type link, symlinkTargettype, plain]
  rfl

/-- The mode of an object is read back. -/
theorem mode_stdattrDico (mem : Mem) :
    dicoGetU32 mem (stdattrDico opts save relpath st calls) Section.stdattr ItemKey.mode =
      some st.mode := by
  have found := find_stdattrDico opts save relpath st calls
    (show dicoAddU32 Section.stdattr ItemKey.mode st.mode ∈ _ by simp [stdattrCalls])
  exact dicoGetU32_of_find found
    (show sizedData (leBytes 4 st.mode.toNat) = _ from sizedData_of_lt (by simp))

/-- The standard attributes of an object are read back as they were saved. -/
theorem readStdAttr_stdattrDico (mem : Mem) :
    readStdAttr mem (stdattrDico opts save relpath st calls) = some (savedAttr st) := by
  refine @readStdAttr_of_find _ save.objectid relpath _ (fun call member => ?_) mem
  have own : call.sect = Section.stdattr := @sect_of_stdattr opts save relpath st calls _ (.inl member)
  rw [← own]
  exact find_stdattrDico opts save relpath st calls member

end Stored

/-! ## What is kept -/

/-- The times of an object fit 32 bits. -/
def Stat.TimesFit (st : Stat) : Prop := st.atime.toNat < 2 ^ 32 ∧ st.mtime.toNat < 2 ^ 32

/-- A time that was cut to 32 bits. -/
theorem toUInt64_toUInt32_eq_self (time : UInt64) :
    time.toUInt32.toUInt64 = time ↔ time.toNat < 2 ^ 32 := by
  rw [← UInt64.toNat_inj, UInt32.toNat_toUInt64, UInt64.toNat_toUInt32]
  constructor
  · intro same
    omega
  · intro small
    exact Nat.mod_eq_of_lt small

/-- The times of the original are passed on if they fit, or if they are not passed on at all. -/
theorem attrCalls_savedAttr_iff (haveLutimes : Bool) (path : Path) (st : Stat) :
    attrCalls haveLutimes (st.fileType = .lnk) path (savedAttr st) =
        attrCalls haveLutimes (st.fileType = .lnk) path st.attr ↔
      ((st.fileType = .lnk → haveLutimes = true) → st.TimesFit) := by
  have times : (savedAttr st).atime = st.attr.atime ∧ (savedAttr st).mtime = st.attr.mtime ↔
      st.TimesFit :=
    and_congr (toUInt64_toUInt32_eq_self st.atime) (toUInt64_toUInt32_eq_self st.mtime)
  unfold attrCalls
  rw [← times]
  by_cases link : st.fileType = .lnk
  · cases haveLutimes with
    | false => simp [link, savedAttr, Stat.attr]
    | true => simp [link, savedAttr, Stat.attr]
  · simp [link, savedAttr, Stat.attr]

section Restored

variable {haveLutimes : Bool} {opts : SaveOptions} {save : Savear} {relpath : Path} {st : Stat}
  {calls : ObjectCalls}

/-- `extractar_restore_obj_symlink` passes on the target as it was fixed. -/
theorem extractarRestoreObjSymlink_picks (plain : save.fstype.savesymtargettype = false)
    (type : st.fileType = .lnk) {target : Path} (link : calls.readlink = some target)
    (short : target.length < pathMax) (clean : 0 ∉ target) {ctx : Context} {fullpath relpath' : Path}
    (included : isFiledirExcluded ctx.exclude relpath' = false) (objtype : UInt32) :
    Traced.Picks makingCall [.symlink (fixLinkTarget target) fullpath]
      (extractarRestoreObjSymlink ctx fullpath relpath' (stdattrDico opts save relpath st calls)
        objtype) := by
  have suffix := (fixLinkTarget_suffix target).subset
  apply restoreEntry_picks included
  apply makeSymlink_picks
  · rw [readTarget_symlink type link short, cString_eq_self fun member => clean (suffix member)]
  · exact targettype_stdattrDico ctx.mem type link plain

/-- An object whose times and target are kept gets its metadata back. -/
theorem metadataRestored_of_kept (plain : save.fstype.savesymtargettype = false)
    (short : st.fileType = .lnk → ∀ target, calls.readlink = some target →
      target.length < pathMax ∧ 0 ∉ target)
    (times : (st.fileType = .lnk → haveLutimes = true) → st.TimesFit)
    (targets : st.fileType = .lnk → ∀ target, calls.readlink = some target →
      target.take 9 ≠ tmpFsa) :
    MetadataRestored haveLutimes st calls (objectType opts save st)
      (stdattrDico opts save relpath st calls) where
  attrs ctx built fullpath := by
    have made := @extractarRestoreAttrStd_calls ctx fullpath _ (objectType opts save st).code _
      (@readStdAttr_stdattrDico opts save relpath st calls ctx.mem)
    rw [built, decide_eq_decide.mpr objectType_symlink,
      (attrCalls_savedAttr_iff haveLutimes fullpath st).mpr times] at made
    exact made
  symlink type target link ctx fullpath relpath' included := by
    obtain ⟨fits, clean⟩ := short type target link
    have made := @extractarRestoreObjSymlink_picks opts save relpath st calls plain type target link
      fits clean ctx fullpath relpath' included (objectType opts save st).code
    rw [(fixLinkTarget_eq_self target).mpr (targets type target link)] at made
    exact made
  devfile special ctx fullpath relpath' included :=
    restoreEntry_picks included
      (makeDevfile_picks (dicoGetU64_rdev ctx.mem special) (mode_stdattrDico ctx.mem))

/-- A program built with or without `lutimes`, on a system on which no call fails. -/
def fineContext (haveLutimes : Bool) : Context :=
  { plainContext with os := ⟨fun _ _ => 0, fun _ _ => false, fun _ _ => (0, 0)⟩, haveLutimes }

/-- The times fit where the metadata is restored. -/
theorem timesFit_of_restored
    (restored : MetadataRestored haveLutimes st calls (objectType opts save st)
      (stdattrDico opts save relpath st calls))
    (passed : st.fileType = .lnk → haveLutimes = true) : st.TimesFit := by
  refine (attrCalls_savedAttr_iff haveLutimes [] st).mp ?_ passed
  obtain ⟨made, added, -, all⟩ := restored.attrs (fineContext haveLutimes) rfl [] []
  rw [@extractarRestoreAttrStd_all (fineContext haveLutimes) _ _ _ _
    (@readStdAttr_stdattrDico opts save relpath st calls _) fun _ _ => rfl,
    decide_eq_decide.mpr objectType_symlink, List.nil_append] at added
  have same := all fun entry member => by
    rw [← added] at member
    obtain ⟨call, -, rfl⟩ := List.mem_map.mp member
    rfl
  rw [← same, ← added, List.map_map]
  exact (List.map_id _).symm

/-- The target of a symbolic link is kept where the metadata is restored. -/
theorem target_of_restored (plain : save.fstype.savesymtargettype = false)
    (restored : MetadataRestored haveLutimes st calls (objectType opts save st)
      (stdattrDico opts save relpath st calls)) (type : st.fileType = .lnk) {target : Path}
    (link : calls.readlink = some target) (short : target.length < pathMax) (clean : 0 ∉ target) :
    target.take 9 ≠ tmpFsa := by
  have expected := restored.symlink type target link plainContext [slash] [slash] rfl
  have passed := @extractarRestoreObjSymlink_picks opts save relpath st calls plain type target link
    short clean plainContext [slash] [slash] rfl (objectType opts save st).code
  have same := passed.unique expected
  simp only [List.cons.injEq, SysCall.symlink.injEq, and_true] at same
  exact (fixLinkTarget_eq_self target).mp same

end Restored

/-- On a filesystem for whose links no target type is saved, the metadata of an object makes the
round trip exactly if its times fit 32 bits, or are not restored at all, and if it is no symbolic
link to a target below `/tmp/fsa/`. -/
theorem metadata_restored_iff (haveLutimes : Bool) (opts : SaveOptions) (save : Savear)
    (relpath : Path) (st : Stat) (calls : ObjectCalls)
    (plain : save.fstype.savesymtargettype = false)
    (short : st.fileType = .lnk → ∀ target, calls.readlink = some target →
      target.length < pathMax ∧ 0 ∉ target) :
    MetadataRestored haveLutimes st calls (createarItemStdattr opts save relpath st calls).1.objtype
        (createarItemStdattr opts save relpath st calls).1.d ↔
      ((st.fileType = .lnk → haveLutimes = true) → st.TimesFit) ∧
        (st.fileType = .lnk → ∀ target, calls.readlink = some target → target.take 9 ≠ tmpFsa) := by
  rw [createarItemStdattr_eq]
  constructor
  · intro restored
    refine ⟨timesFit_of_restored restored, fun type target link => ?_⟩
    obtain ⟨fits, clean⟩ := short type target link
    exact target_of_restored plain restored type link fits clean
  · rintro ⟨times, targets⟩
    exact metadataRestored_of_kept plain short times targets

/-- A symbolic link that was read in 2001 and changed at this time. -/
def plainLinkStat (mtime : UInt64) : Stat :=
  { dev := 1, mode := 0o120777, nlink := 1, uid := 1000, gid := 100, rdev := 0, ino := 13, size := 1,
    blocks := 0, atime := 1000000000, mtime }

/-- Calls on a symbolic link with this target. -/
def linkCalls (target : Path) : ObjectCalls := { plainCalls with readlink := some target }

theorem fileType_plainLinkStat (mtime : UInt64) : (plainLinkStat mtime).fileType = .lnk := by
  have mode : (plainLinkStat mtime).mode = 0o120777 := rfl
  unfold Stat.fileType
  rw [mode]
  decide

/-- What is saved of such a link. -/
def savedLink (mtime : UInt64) (target : Path) : ItemStdattr :=
  (createarItemStdattr plainOptions plainSavear [slash, 0x61] (plainLinkStat mtime)
    (linkCalls target)).1

theorem savedLink_eq (mtime : UInt64) (target : Path) :
    (savedLink mtime target).ok = true ∧
      (savedLink mtime target).objtype =
        objectType plainOptions plainSavear (plainLinkStat mtime) ∧
      (savedLink mtime target).d = stdattrDico plainOptions plainSavear [slash, 0x61]
        (plainLinkStat mtime) (linkCalls target) := by
  unfold savedLink
  rw [createarItemStdattr_eq]
  refine ⟨?_, rfl, rfl⟩
  simp [stdattrOk, fileType_plainLinkStat, linkCalls]

/-- A link to `b` that was changed in 2001 is restored as it was. -/
theorem metadata_restored_link :
    MetadataRestored true (plainLinkStat 1000000000) (linkCalls [0x62])
      (savedLink 1000000000 [0x62]).objtype (savedLink 1000000000 [0x62]).d := by
  have targets : ∀ target, (linkCalls [0x62]).readlink = some target → target = [0x62] :=
    fun target link => (Option.some.inj link).symm
  apply (metadata_restored_iff true plainOptions plainSavear [slash, 0x61]
    (plainLinkStat 1000000000) (linkCalls [0x62]) rfl fun _ target link => ?_).mpr
  · refine ⟨fun _ => ⟨by decide, by decide⟩, fun _ target link => ?_⟩
    rw [targets target link]
    decide
  · rw [targets target link]
    decide

/-- `/tmp/fsa/a/b`. -/
def redirectedTarget : Path := tmpFsa ++ [0x61, slash, 0x62]

/-- A link to `b` that was changed a second before 1970 is restored as one of 2106, and a link to
`/tmp/fsa/a/b` as one to `/b`. -/
theorem metadata_lost_links :
    ((savedLink (-1) [0x62]).ok = true ∧
      ¬MetadataRestored true (plainLinkStat (-1)) (linkCalls [0x62])
        (savedLink (-1) [0x62]).objtype (savedLink (-1) [0x62]).d) ∧
    ((savedLink 0 redirectedTarget).ok = true ∧
      ¬MetadataRestored true (plainLinkStat 0) (linkCalls redirectedTarget)
        (savedLink 0 redirectedTarget).objtype
        (savedLink 0 redirectedTarget).d) := by
  obtain ⟨ok, objtype, d⟩ := savedLink_eq (-1) [0x62]
  obtain ⟨ok', objtype', d'⟩ := savedLink_eq 0 redirectedTarget
  rw [objtype, d, objtype', d']
  refine ⟨⟨ok, fun restored => ?_⟩, ok', fun restored => ?_⟩
  · have fit := timesFit_of_restored restored fun _ => rfl
    have small : (-1 : UInt64).toNat < 2 ^ 32 := fit.2
    exact absurd small (by decide)
  · have link : (linkCalls redirectedTarget).readlink = some redirectedTarget := rfl
    have kept := target_of_restored rfl restored (fileType_plainLinkStat 0) link (by decide)
      (by decide)
    exact kept rfl

end FsArchiver
