import Mathlib.Data.List.DropRight
import FsArchiver.RestorePackets

/-!
# Times of directories

An entry that is made in a directory sets the modification time of the directory, and `utimes` sets
it to any value. The functions that restore an object ask for the times of the parent directory
before they make the object, and give them back when they are done, so that of all directories only
the object itself has another time than before. This takes a parent that is another directory than
the object: the parent of the root is the root.
-/
namespace FsArchiver

open Lib

/-! ## What calls do to the times of directories -/

/-- The directory that a path names, whatever number of slashes it ends with. -/
def dirPlace (path : Path) : Path := path.rdropWhile (· = slash)

/-- The path of the entry that a call makes or removes. -/
def SysCall.entryPath : SysCall → Option Path
  | .mkdir path | .create path | .symlink _ path | .creat path | .link _ path | .mknod path _ _
  | .unlink path => some path
  | _ => none

/-- Where the modification times come from. -/
structure Clock where
  /-- The time of a directory before anything is restored. -/
  start : Path → UInt64
  /-- The time that a directory gets when an entry is made or removed in it after these calls. -/
  now : Log → Path → UInt64

/-- The modification time of a directory after one call. A new directory gets the time of the
moment too. -/
def mtimeAfter (now : UInt64) (dir : Path) (mtime : UInt64) : SysCall × Int → UInt64
  | (.utimes path _ given, res) => if dirPlace path = dir ∧ res = 0 then given else mtime
  | (call, res) =>
    match call.entryPath with
    | some path =>
      if 0 ≤ res ∧ (dirPlace path = dir ∨ dirPlace (extractDirpath (dirPlace path)) = dir) then now
      else mtime
    | none => mtime

/-- The modification time of a directory after these calls, the last one first. -/
def mtimeOf (clock : Clock) (dir : Path) : Log → UInt64
  | [] => clock.start dir
  | entry :: earlier =>
    mtimeAfter (clock.now earlier.reverse dir) dir (mtimeOf clock dir earlier) entry

/-- The modification time of a directory after these calls. -/
def mtimeAt (clock : Clock) (dir : Path) (log : Log) : UInt64 := mtimeOf clock dir log.reverse

/-- The call leaves the modification time of a directory alone. -/
def SparesTime (dir : Path) (entry : SysCall × Int) : Prop :=
  ∀ now mtime, mtimeAfter now dir mtime entry = mtime

variable {clock : Clock} {dir path : Path} {log made : Log}

theorem mtimeAt_concat (entry : SysCall × Int) :
    mtimeAt clock dir (log ++ [entry]) =
      mtimeAfter (clock.now log dir) dir (mtimeAt clock dir log) entry := by
  simp [mtimeAt, mtimeOf]

/-- Calls that leave the time alone, one after the other. -/
theorem mtimeAt_append (spared : ∀ entry ∈ made, SparesTime dir entry) :
    mtimeAt clock dir (log ++ made) = mtimeAt clock dir log := by
  induction made generalizing log with
  | nil => rw [List.append_nil]
  | cons entry made ih =>
    have later := @ih (log ++ [entry]) fun entry member => spared entry (List.mem_cons_of_mem _ member)
    rw [List.append_assoc, List.singleton_append] at later
    rw [later, mtimeAt_concat, spared entry List.mem_cons_self]

/-- A call that sets the time. -/
theorem mtimeAt_utimes (path : Path) (atime mtime : UInt64) :
    mtimeAt clock (dirPlace path) (log ++ [(.utimes path atime mtime, 0)]) = mtime := by
  rw [mtimeAt_concat]
  exact if_pos ⟨rfl, rfl⟩

/-- A call that makes or removes an entry. -/
theorem mtimeAfter_entry {call : SysCall} (own : call.entryPath = some path) (now mtime : UInt64)
    (res : Int) : mtimeAfter now dir mtime (call, res) =
      if 0 ≤ res ∧ (dirPlace path = dir ∨ dirPlace (extractDirpath (dirPlace path)) = dir) then now
      else mtime := by
  cases call with
  | utimes => cases own
  | _ => simp only [mtimeAfter, own]

/-- A call that fails. -/
theorem sparesTime_failed {call : SysCall} (own : call.entryPath = some path) {res : Int}
    (failed : res < 0) : SparesTime dir (call, res) := by
  intro now mtime
  rw [mtimeAfter_entry own, if_neg fun holds => absurd holds.1 (by omega)]

/-! ## Calls for one object -/

/-- Of all directories, the call changes the time of the parent directory and that of the object at
most, and it removes at most the object. -/
structure Near (path : Path) (entry : SysCall × Int) : Prop where
  times : ∀ dir, dir ≠ dirPlace path → dir ≠ dirPlace (extractDirpath path) → SparesTime dir entry
  unlink : ∀ other, entry.1 = .unlink other → other = path

/-- The calls that give an object its attributes remove nothing. -/
theorem near_dresses :
    Dresses (fun entry => Near path entry ∧ ∀ other, entry.1 ≠ .unlink other) path where
  lchown _ _ _ := ⟨⟨fun _ _ _ _ _ => rfl, nofun⟩, nofun⟩
  chmod _ _ := ⟨⟨fun _ _ _ _ _ => rfl, nofun⟩, nofun⟩
  utimes _ _ _ := ⟨⟨fun _ apart _ _ _ => if_neg fun same => apart same.1.symm, nofun⟩, nofun⟩
  lutimes _ _ _ := ⟨⟨fun _ _ _ _ _ => rfl, nofun⟩, nofun⟩
  lsetxattr _ _ _ := ⟨⟨fun _ _ _ _ _ => rfl, nofun⟩, nofun⟩

/-- A call that makes or removes the object. -/
theorem near_of_entryPath (plain : dirPlace path = path) {call : SysCall}
    (own : call.entryPath = some path) (res : Int) : Near path (call, res) where
  times dir apart around now mtime := by
    rw [mtimeAfter_entry own, if_neg]
    rintro ⟨-, same | same⟩
    · exact apart same.symm
    · rw [plain] at same
      exact around same.symm
  unlink other same := by
    rw [show call = .unlink other from same] at own
    exact Option.some.inj own

/-- The calls for the contents of a file. -/
theorem near_fills (plain : dirPlace path = path) : Fills (Near path) path where
  create := near_of_entryPath plain rfl
  write _ _ := ⟨fun _ _ _ _ _ => rfl, nofun⟩
  lseek _ _ := ⟨fun _ _ _ _ _ => rfl, nofun⟩
  ftruncate _ := ⟨fun _ _ _ _ _ => rfl, nofun⟩
  close _ := ⟨fun _ _ _ _ _ => rfl, nofun⟩
  truncate _ := ⟨fun _ _ _ _ _ => rfl, nofun⟩
  unlink := near_of_entryPath plain rfl

/-! ## Systems on which no call fails -/

/-- No call fails but for `mkdir` on the empty path, what is there stays there unless it is
unlinked, and the times that are asked for are those of the directory. -/
structure Os.Keeps (os : Os) (clock : Clock) : Prop where
  answer : ∀ log call, os.answer log call = if call = .mkdir [] then -1 else call.success
  stays : ∀ log path entry, os.missing log path = false → entry.1 ≠ .unlink path →
    os.missing (log ++ [entry]) path = false
  made : ∀ log path, os.missing (log ++ [(.mkdir path, 0)]) path = false
  mtime : ∀ log path, os.missing log path = false →
    (os.dirTimes log path).2 = mtimeAt clock (dirPlace path) log

/-- Nothing that `mkdir_recursive` looks at for this path is missing. -/
def Os.There (os : Os) (log : Log) (path : Path) : Prop :=
  ∀ buffer ∈ mkdirPaths path, buffer ≠ [] → os.missing log buffer = false

variable {os : Os} {ctx : Context}

theorem Os.Keeps.stays_append (keeps : os.Keeps clock) (there : os.missing log path = false)
    (kept : ∀ entry ∈ made, entry.1 ≠ .unlink path) : os.missing (log ++ made) path = false := by
  induction made generalizing log with
  | nil => rwa [List.append_nil]
  | cons entry made ih =>
    have next := keeps.stays log path entry there (kept entry List.mem_cons_self)
    have later := ih next fun entry member => kept entry (List.mem_cons_of_mem _ member)
    rwa [List.append_assoc, List.singleton_append] at later

theorem Os.Keeps.there_append (keeps : os.Keeps clock) (there : os.There log path)
    (kept : ∀ entry ∈ made, ∀ buffer ∈ mkdirPaths path, entry.1 ≠ .unlink buffer) :
    os.There (log ++ made) path :=
  fun buffer member named => keeps.stays_append (there buffer member named) fun entry among =>
    kept entry among buffer member

/-- Such a system is calm. -/
theorem Os.Keeps.calm (keeps : os.Keeps clock) : os.Calm where
  link log target path _ := by
    rw [keeps.answer, if_neg nofun]
    rfl
  answer log call sure := by
    rw [keeps.answer, if_neg]
    rintro rfl
    cases sure

/-- A call that `mkdir_recursive` makes where at most one directory is missing. -/
def MakesOnly (os : Os) (log : Log) (target : Path) (entry : SysCall × Int) : Prop :=
  entry = (.mkdir [], -1) ∨ entry = (.mkdir target, 0) ∧ os.missing log target = true

theorem MakesOnly.ne_unlink {target : Path} {entry : SysCall × Int}
    (makes : MakesOnly os log target entry) (path : Path) : entry.1 ≠ .unlink path := by
  rcases makes with rfl | ⟨rfl, -⟩
  · nofun
  · nofun

/-- A missing directory is made. -/
theorem Os.Keeps.mkdir (keeps : os.Keeps clock) {buffer target : Path}
    (missing : os.missing log buffer = true) (own : buffer = [] ∨ buffer = target) :
    MakesOnly os log target (.mkdir buffer, os.answer log (.mkdir buffer)) ∧
      (buffer ≠ [] →
        os.missing (log ++ [(.mkdir buffer, os.answer log (.mkdir buffer))]) buffer = false) := by
  by_cases empty : buffer = []
  · subst empty
    exact ⟨.inl (by rw [keeps.answer, if_pos rfl]), fun nonempty => absurd rfl nonempty⟩
  · have result : os.answer log (.mkdir buffer) = 0 := by
      rw [keeps.answer, if_neg fun same => empty (SysCall.mkdir.inj same)]
      rfl
    obtain rfl := own.resolve_left empty
    rw [result]
    exact ⟨.inr ⟨rfl, missing⟩, fun _ => keeps.made log buffer⟩

/-- Where at most one directory is missing, only that one is made, and all are there in the end. -/
theorem mkdirEach_keeps (keeps : os.Keeps clock) (target : Path) {paths : List Path} (log : Log)
    (there : ∀ buffer ∈ paths, buffer = [] ∨ os.missing log buffer = false ∨ buffer = target) :
    ∃ made, ((mkdirEach os paths).run log).2 = log ++ made ∧
      (∀ entry ∈ made, MakesOnly os log target entry) ∧
      ∀ buffer ∈ paths, buffer ≠ [] → os.missing (log ++ made) buffer = false := by
  induction paths generalizing log with
  | nil => exact ⟨[], (List.append_nil log).symm, by simp, by simp⟩
  | cons buffer rest ih =>
    have own := there buffer List.mem_cons_self
    have others : ∀ buffer ∈ rest, buffer = [] ∨ os.missing log buffer = false ∨ buffer = target :=
      fun buffer member => there buffer (List.mem_cons_of_mem _ member)
    cases missing : os.missing log buffer with
    | false =>
      obtain ⟨made, added, only, ends⟩ := ih log others
      refine ⟨made, ?_, only, fun path member nonempty => ?_⟩
      · simp only [mkdirEach, Traced.run_bind, Os.run_isMissing, missing, Bool.false_eq_true,
          ↓reduceIte]
        exact added
      · rcases List.mem_cons.mp member with rfl | member
        · exact keeps.stays_append missing fun entry among => (only entry among).ne_unlink path
        · exact ends path member nonempty
    | true =>
      have single : buffer = [] ∨ buffer = target := by
        rcases own with empty | present | same
        · exact .inl empty
        · exact absurd (present.symm.trans missing) Bool.false_ne_true
        · exact .inr same
      obtain ⟨first, present⟩ := keeps.mkdir missing single
      let entry : SysCall × Int := (.mkdir buffer, os.answer log (.mkdir buffer))
      have onward (path : Path) (there : os.missing log path = false) :
          os.missing (log ++ [entry]) path = false :=
        keeps.stays log path entry there (first.ne_unlink path)
      obtain ⟨made, added, only, ends⟩ := ih (log ++ [entry]) fun path member =>
        (others path member).imp_right (Or.imp_left (onward path))
      refine ⟨entry :: made, ?_, fun other member => ?_, fun path member nonempty => ?_⟩
      · simp only [mkdirEach, Traced.run_bind, Os.run_isMissing, missing, ↓reduceIte, Os.call]
        rw [added, List.append_assoc]
        rfl
      · rcases List.mem_cons.mp member with rfl | member
        · exact first
        · refine (only other member).imp_right fun made => ⟨made.1, ?_⟩
          by_contra there
          exact absurd ((onward target (eq_false_of_ne_true there)).symm.trans made.2)
            Bool.false_ne_true
      · rw [← List.singleton_append, ← List.append_assoc]
        rcases List.mem_cons.mp member with rfl | member
        · exact keeps.stays_append (present nonempty) fun entry among =>
            (only entry among).ne_unlink path
        · exact ends path member nonempty

/-! ## Parent directories -/

/-- The directories above an object are those above its parent directory, and this one. -/
theorem mem_mkdirPaths_child (rooted : slash ∈ path) {buffer : Path}
    (member : buffer ∈ mkdirPaths path) :
    buffer = [] ∨ buffer ∈ mkdirPaths (extractDirpath path) ∨ buffer = path := by
  obtain ⟨front, name, rfl, noSlash⟩ := split_last_slash rooted
  rw [extractDirpath_split noSlash]
  obtain ⟨pos, cut, rfl⟩ := List.mem_map.mp member
  obtain ⟨bound, cut⟩ := List.mem_filter.mp cut
  simp only [decide_eq_true_eq] at cut
  rcases cut with here | rfl
  · have short : pos ≤ front.length := by
      by_contra long
      obtain ⟨k, rfl⟩ := Nat.exists_eq_add_of_lt (Nat.lt_of_not_le long)
      rw [Nat.add_assoc, List.getElem?_append_right (Nat.le_add_right _ _),
        Nat.add_sub_cancel_left, List.getElem?_cons_succ] at here
      exact noSlash (List.mem_of_getElem? here)
    rw [List.take_append_of_le_length short]
    by_cases none : front = []
    · exact .inl (by rw [none, List.take_nil])
    · refine .inr (.inl ?_)
      rw [if_neg none]
      refine List.mem_map.mpr ⟨pos, List.mem_filter.mpr ⟨?_, ?_⟩, rfl⟩
      · exact List.mem_range.mpr (Nat.lt_succ_of_le short)
      · rw [decide_eq_true_eq]
        rcases Nat.lt_or_eq_of_le short with less | equal
        · rw [List.getElem?_append_left less] at here
          exact .inl here
        · exact .inr equal
  · exact .inr (.inr List.take_length)

/-- A path with a slash has a parent directory with a name. -/
theorem extractDirpath_ne_nil (rooted : slash ∈ path) : extractDirpath path ≠ [] := by
  obtain ⟨front, name, rfl, noSlash⟩ := split_last_slash rooted
  rw [extractDirpath_split noSlash]
  split
  · nofun
  · assumption

/-- Before an object is made, nothing changes, and the time of its parent directory is kept. -/
theorem enterParent_keeps (keeps : ctx.os.Keeps clock) (rooted : slash ∈ path)
    (there : ctx.os.There log (extractDirpath path)) :
    ∃ tv made, (enterParent ctx path).run log = (tv, log ++ made) ∧
      tv.2 = mtimeAt clock (dirPlace (extractDirpath path)) log ∧
      ∀ entry ∈ made, entry = (.mkdir [], -1) := by
  have parent := there _ (mem_mkdirPaths _) (extractDirpath_ne_nil rooted)
  obtain ⟨made, added, only, ends⟩ := mkdirEach_keeps keeps (extractDirpath path) log
    fun buffer member => (Classical.em (buffer = [])).imp_right fun named =>
      Or.inl (there buffer member named)
  have failed : ∀ entry ∈ made, entry = (.mkdir [], -1) := by
    intro entry member
    rcases only entry member with same | ⟨-, missing⟩
    · exact same
    · exact absurd (parent.symm.trans missing) Bool.false_ne_true
  refine ⟨_, made, Prod.ext rfl added, ?_, failed⟩
  have kept := keeps.stays_append parent fun entry member => by
    rw [failed entry member]
    nofun
  have asked : (ctx.os.dirTimes (log ++ made) (extractDirpath path)).2 =
      mtimeAt clock (dirPlace (extractDirpath path)) (log ++ made) := keeps.mtime _ _ kept
  have same := @mtimeAt_append clock (dirPlace (extractDirpath path)) log made fun entry member => by
    rw [failed entry member]
    exact sparesTime_failed rfl (by decide)
  rw [same] at asked
  rw [← asked, ← added]
  rfl

/-! ## One object -/

/-- All directories but the object itself keep their times, and all that was there is still there,
but maybe for the object. -/
structure KeepsTimes (os : Os) (clock : Clock) (path : Path) (log log' : Log) : Prop where
  times : ∀ dir, dir ≠ dirPlace path → mtimeAt clock dir log' = mtimeAt clock dir log
  there : ∀ other, other ≠ path → os.missing log other = false → os.missing log' other = false

/-- The parent directory gets its time back when the object is done. -/
theorem leaveParent_keeps (keeps : ctx.os.Keeps clock) (rooted : slash ∈ path)
    (there : ctx.os.There log (extractDirpath path)) {tv : UInt64 × UInt64} {log₁ log' : Log}
    (enter : (enterParent ctx path).run log = (tv, log₁)) (near : ∀ entry ∈ made, Near path entry)
    (ran : (leaveParent ctx path tv).run (log₁ ++ made) = (true, log')) :
    log' = log₁ ++ made ++ [(.utimes (extractDirpath path) tv.1 tv.2, 0)] ∧
      KeepsTimes ctx.os clock path log log' ∧
      mtimeAt clock (dirPlace (extractDirpath path)) log' =
        mtimeAt clock (dirPlace (extractDirpath path)) log := by
  obtain ⟨tv', entered, enter', asked, failed⟩ := enterParent_keeps keeps rooted there
  obtain ⟨rfl, rfl⟩ := Prod.mk.inj (enter.symm.trans enter')
  let call : SysCall := .utimes (extractDirpath path) tv.1 tv.2
  have parts : (decide (ctx.os.answer (log ++ entered ++ made) call = 0),
      log ++ entered ++ made ++ [(call, ctx.os.answer (log ++ entered ++ made) call)]) =
      (true, log') := ran
  obtain ⟨done, rfl⟩ := Prod.mk.inj parts
  rw [decide_eq_true_eq] at done
  rw [done]
  have parent : mtimeAt clock (dirPlace (extractDirpath path)) (log ++ entered ++ made ++ [(call, 0)]) =
      mtimeAt clock (dirPlace (extractDirpath path)) log :=
    (mtimeAt_utimes _ _ _).trans asked
  have same (dir : Path) : mtimeAt clock dir (log ++ entered) = mtimeAt clock dir log :=
    mtimeAt_append fun entry member => by
      rw [failed entry member]
      exact sparesTime_failed rfl (by decide)
  refine ⟨rfl, ⟨fun dir apart => ?_, fun other apart present => ?_⟩, parent⟩
  · by_cases around : dir = dirPlace (extractDirpath path)
    · rw [around]
      exact parent
    · rw [mtimeAt_concat, mtimeAt_append fun entry member => (near entry member).times dir apart around,
        same]
      exact if_neg fun same => around same.1.symm
  · have kept : ctx.os.missing (log ++ entered) other = false :=
      keeps.stays_append present fun entry member => by
        rw [failed entry member]
        nofun
    refine keeps.stays _ _ _ (keeps.stays_append kept fun entry member unlinks => ?_) nofun
    exact apart ((near entry member).unlink other unlinks)

/-- A run that only adds calls for the object. -/
def AddsNear {α : Type} (path : Path) (prog : Sys α) (log : Log) : Prop :=
  ∃ made, (prog.run log).2 = log ++ made ∧ ∀ entry ∈ made, Near path entry

theorem AddsNear.of_adds {α : Type} {prog : Sys α}
    (adds : Traced.Adds (Near path) (fun _ => True) prog) (log : Log) : AddsNear path prog log := by
  obtain ⟨made, added, near, -⟩ := adds log
  exact ⟨made, added, near⟩

/-- An object that ends with a slash is a directory that is there. -/
def Placed (os : Os) (log : Log) (path : Path) : Prop :=
  dirPlace path = path ∨ os.missing log path = false

/-- A directory is made, and nothing else. -/
theorem mkdirRecursive_near (keeps : os.Keeps clock) (rooted : slash ∈ path)
    (there : os.There log (extractDirpath path)) (placed : Placed os log path) :
    ∃ made, ((mkdirRecursive os path).run log).2 = log ++ made ∧ (∀ entry ∈ made, Near path entry) ∧
      os.There (log ++ made) path := by
  obtain ⟨made, added, only, ends⟩ := mkdirEach_keeps keeps path log fun buffer member =>
    (mem_mkdirPaths_child rooted member).elim .inl fun further => by
      rcases further with above | same
      · exact (Classical.em (buffer = [])).imp_right fun named => .inl (there buffer above named)
      · exact .inr (.inr same)
  refine ⟨made, added, fun entry member => ?_, ends⟩
  rcases only entry member with rfl | ⟨rfl, missing⟩
  · exact ⟨fun _ _ _ => sparesTime_failed rfl (by decide), nofun⟩
  · rcases placed with plain | present
    · exact near_of_entryPath plain rfl 0
    · exact absurd (present.symm.trans missing) Bool.false_ne_true

/-- How an object is made. -/
theorem makeEntry_near (keeps : ctx.os.Keeps clock) (rooted : slash ∈ path)
    (there : ctx.os.There log (extractDirpath path)) (d : Dico) {type : ObjType}
    (plain : type ≠ .dir → dirPlace path = path) (placed : Placed ctx.os log path) :
    ∃ made, ((makeEntry ctx path d type).run log).2 = log ++ made ∧
      (∀ entry ∈ made, Near path entry) ∧ (type = .dir → ctx.os.There (log ++ made) path) := by
  have directory := mkdirRecursive_near keeps rooted there placed
  have other {prog : Sys Bool} (isOther : type ≠ .dir) (adds : AddsNear path prog log) :
      ∃ made, (prog.run log).2 = log ++ made ∧ (∀ entry ∈ made, Near path entry) ∧
        (type = .dir → ctx.os.There (log ++ made) path) := by
    obtain ⟨made, added, near⟩ := adds
    exact ⟨made, added, near, fun isDir => absurd isDir isOther⟩
  cases type with
  | null | dir | regfileunique | regfilemulti =>
    obtain ⟨made, added, near, ends⟩ := directory
    exact ⟨made, added, near, fun _ => ends⟩
  | symlink =>
    have single {call : SysCall} (own : call.entryPath = some path) :=
      near_of_entryPath (plain (by decide)) own
    refine other (by decide) ?_
    simp only [makeEntry, makeSymlink]
    cases readTarget d ItemKey.symlink with
    | none => exact .of_adds (Traced.Adds.pure trivial) log
    | some target =>
      dsimp only
      split
      · split
        · obtain ⟨made, added, near, -⟩ := directory
          exact ⟨made, added, near⟩
        · refine .of_adds ?_ log
          refine Traced.Adds.ite (fun _ => ?_) fun _ => Traced.Adds.pure trivial
          refine (adds_call (single rfl)).bind fun _ _ => ?_
          refine Traced.Adds.ite (fun _ => Traced.Adds.pure trivial) fun _ => ?_
          exact (adds_call (near_fills (plain (by decide))).close).bind fun _ _ => Traced.Adds.pure trivial
      · exact .of_adds ((adds_call (single rfl)).bind fun _ _ => Traced.Adds.pure trivial) log
  | hardlink =>
    refine other (by decide) (.of_adds (makeHardlink_adds fun _ _ => ?_) log)
    exact near_of_entryPath (plain (by decide)) rfl
  | chardev | blockdev | fifo | socket =>
    refine other (by decide) (.of_adds (makeDevfile_adds fun _ _ => ?_) log)
    exact near_of_entryPath (plain (by decide)) rfl

/-- The last of the standard attributes that an object gets are its times. -/
theorem extractarRestoreAttrStd_mtime (calm : ctx.os.Calm) {d : Dico} {objtype : UInt32}
    {attr : StdAttr} (read : readStdAttr ctx.mem d = some attr)
    (other : objtype ≠ ObjType.symlink.code) (log : Log) :
    mtimeAt clock (dirPlace path) ((extractarRestoreAttrStd ctx objtype path d).run log).2 =
      attr.mtime := by
  have added : ((extractarRestoreAttrStd ctx objtype path d).run log).2 =
      log ++ [(.lchown path attr.uid attr.gid, 0), (.chmod path attr.mode, 0)] ++
        [(.utimes path attr.atime attr.mtime, 0)] := by
    unfold extractarRestoreAttrStd
    rw [read]
    simp [calm.call_eq, SysCall.sure, SysCall.success, other]
  rw [added]
  exact mtimeAt_utimes _ _ _

/-- The other attributes do not change its times. -/
theorem extractarRestoreAttrEverything_mtime (calm : ctx.os.Calm) {d : Dico} {objtype : UInt32}
    {attr : StdAttr} (read : readStdAttr ctx.mem d = some attr)
    (other : objtype ≠ ObjType.symlink.code) (log : Log) :
    mtimeAt clock (dirPlace path) ((extractarRestoreAttrEverything ctx objtype path d).run log).2 =
      attr.mtime := by
  have spares (sect : UInt8) (keys : List Nat) (log : Log) :
      mtimeAt clock (dirPlace path) ((restoreAttrs ctx sect path d keys).run log).2 =
        mtimeAt clock (dirPlace path) log := by
    have adds : Traced.Adds (SparesTime (dirPlace path)) (fun _ => True)
        (restoreAttrs ctx sect path d keys) :=
      restoreAttrs_adds (fun _ _ _ _ _ => rfl) sect d keys
    obtain ⟨made, added, spared, -⟩ := adds log
    rw [added, mtimeAt_append spared]
  unfold extractarRestoreAttrEverything extractarRestoreAttrXattr extractarRestoreAttrWindows
  simp only [Traced.run_bind, Traced.run_pure, spares]
  exact extractarRestoreAttrStd_mtime calm read other log

/-- What a restoration of an object made of its header leaves behind. -/
theorem restoreEntry_keeps (keeps : ctx.os.Keeps clock) (rooted : slash ∈ path)
    (there : ctx.os.There log (extractDirpath path)) {relpath : Path} {d : Dico} {type : ObjType}
    (plain : type ≠ .dir → dirPlace path = path) (placed : Placed ctx.os log path) {log' : Log}
    (ran : (restoreEntry ctx path relpath d type.code (makeEntry ctx path d type)).run log =
      (true, log')) :
    KeepsTimes ctx.os clock path log log' ∧
      mtimeAt clock (dirPlace (extractDirpath path)) log' =
        mtimeAt clock (dirPlace (extractDirpath path)) log ∧
      (type = .dir → ctx.os.There log' path ∧
        ∀ attr, readStdAttr ctx.mem d = some attr → dirPlace path ≠ dirPlace (extractDirpath path) →
          mtimeAt clock (dirPlace path) log' = attr.mtime) := by
  obtain ⟨tv, entered, enter, asked, failed⟩ := enterParent_keeps keeps rooted there
  have quiet : ∀ entry ∈ entered, ∀ other, entry.1 ≠ .unlink other := fun entry member other => by
    rw [failed entry member]
    nofun
  obtain ⟨making, made, nearMaking, ends⟩ := makeEntry_near keeps rooted
    (keeps.there_append there fun entry member other _ => quiet entry member other) d plain
    (placed.imp_right fun present => keeps.stays_append present fun entry member =>
      quiet entry member path)
  obtain ⟨attrs, given, nearAttrs, -⟩ := extractarRestoreAttrEverything_adds (@near_dresses path)
    type.code d (log ++ entered ++ making)
  have dated := @extractarRestoreAttrEverything_mtime clock path ctx keeps.calm d type.code
  unfold restoreEntry at ran
  split at ran
  · cases ran
  simp only [Traced.run_bind, enter] at ran
  split at ran
  · cases ran
  rw [Traced.run_bind, made] at ran
  split at ran
  · cases ran
  rw [given] at ran
  have near : ∀ entry ∈ making ++ attrs, Near path entry := by
    intro entry member
    rcases List.mem_append.mp member with member | member
    · exact nearMaking entry member
    · exact (nearAttrs entry member).1
  have shape := List.append_assoc (log ++ entered) making attrs
  rw [shape] at ran
  obtain ⟨whole, kept, parent⟩ := leaveParent_keeps keeps rooted there enter near ran
  refine ⟨kept, parent, fun isDir => ⟨?_, fun attr read apart => ?_⟩⟩
  · rw [whole, ← shape]
    refine keeps.there_append (keeps.there_append (ends isDir) fun entry member other _ =>
      (nearAttrs entry member).2 other) fun entry member other _ => ?_
    rw [List.mem_singleton.mp member]
    nofun
  · have own := dated read (by rw [isDir]; decide) (log ++ entered ++ making)
    rw [given, shape] at own
    rw [whole, mtimeAt_concat, ← own]
    exact if_neg fun same => apart same.1.symm

/-- What a restoration of a small file leaves behind. -/
theorem restoreSmallFile_keeps (keeps : ctx.os.Keeps clock) {objtype : UInt32} {regmulti : Regmulti} {index : Nat}
    {relpath : Path} (stored : smallPath ctx regmulti index = some relpath)
    (fullpath : concatenatePaths ctx.destdir relpath = path) (rooted : slash ∈ path)
    (plain : dirPlace path = path) (there : ctx.os.There log (extractDirpath path)) {log' : Log}
    (ran : (restoreSmallFile ctx objtype regmulti index).run log = (.restored, log')) :
    KeepsTimes ctx.os clock path log log' := by
  unfold smallPath at stored
  unfold restoreSmallFile at ran
  cases file : regmultiRestGetfile ctx.mem regmulti index with
  | none =>
    rw [file] at stored
    cases stored
  | some found =>
    obtain ⟨filehead, databuf⟩ := found
    rw [file] at stored ran
    have read : readPath ctx.mem filehead ItemKey.path = some relpath := stored
    dsimp only at ran
    cases typed : dicoGetU32 ctx.mem filehead Section.stdattr ItemKey.objtype with
    | none =>
      rw [typed] at ran
      cases ran
    | some _ =>
      rw [typed, read] at ran
      dsimp only at ran
      rw [fullpath] at ran
      cases enter : (enterParent ctx path).run log with
      | mk tv log₁ =>
      obtain ⟨writing, written, nearWriting, -⟩ :=
        @writeSmallFile_adds _ ctx path (near_fills plain) filehead databuf log₁
      obtain ⟨attrs, given, nearAttrs, -⟩ := @extractarRestoreAttrEverything_adds _ ctx path
        near_dresses objtype filehead (log₁ ++ writing)
      split at ran
      · cases ran
      rw [Traced.run_bind, enter, Traced.run_bind, written] at ran
      split at ran
      next failed =>
        exact absurd (Prod.mk.inj ran).1 failed
      rw [Traced.run_bind, given] at ran
      split at ran
      · cases ran
      rw [Traced.run_bind] at ran
      cases left : (leaveParent ctx path tv).run (log₁ ++ writing ++ attrs) with
      | mk value log₂ =>
      rw [left] at ran
      cases value with
      | false => cases ran
      | true =>
        obtain ⟨-, rfl⟩ := Prod.mk.inj ran
        rw [List.append_assoc] at left
        refine (leaveParent_keeps keeps rooted there enter (fun entry member => ?_) left).2.1
        rcases List.mem_append.mp member with member | member
        · exact nearWriting entry member
        · exact (nearAttrs entry member).1

/-- A file that was closed is not open. -/
theorem datafileClose_shut (md5 : Md5) (f : Datafile) :
    Traced.Adds (fun _ => True) (fun closed => closed.ok = true → closed.f.isOpen = false)
      (datafileClose os md5 f) := by
  refine Traced.Adds.ite (fun _ => Traced.Adds.pure nofun) fun _ => ?_
  refine Traced.Adds.ite (fun _ => Traced.Adds.pure fun _ => rfl) fun _ => ?_
  refine Traced.Adds.andThen (fun _ => True) ?_ fun _ _ => ?_
  · exact Traced.Adds.ite (fun _ => adds_call fun _ => trivial) fun _ => Traced.Adds.pure trivial
  · exact (adds_call fun _ => trivial).bind fun _ _ => Traced.Adds.pure fun _ => rfl

/-- So it is behind the contents of a large file. -/
theorem writeRegfile_shut (queue : List QueueData) (excluded sparse : Bool) (filesize : UInt64) :
    Traced.Adds (fun _ => True) (fun file => file.closed.ok = true → file.closed.f.isOpen = false)
      (writeRegfile ctx queue path excluded sparse filesize) := by
  have all {path : Path} : Fills (fun _ => True) path := by constructor <;> intros <;> trivial
  refine (datafileOpenWrite_adds datafileAlloc_allows excluded sparse fun _ => all).bind
    fun opened allows => ?_
  refine Traced.Adds.andThen (fun _ => True) ?_ fun blocks _ => ?_
  · exact Traced.Adds.ite (fun _ => (restoreBlocks_adds _ _ _ allows).mono (fun _ => id)
      fun _ _ => trivial)
      fun _ => Traced.Adds.pure trivial
  refine Traced.Adds.andThen (fun closed => closed.ok = true → closed.f.isOpen = false) ?_
    fun closed shut => Traced.Adds.pure shut
  exact Traced.Adds.ite (fun _ => datafileClose_shut _ _) fun _ => Traced.Adds.pure nofun

/-- What a restoration of a large or empty file leaves behind. -/
theorem restoreRegfileUnique_keeps (keeps : ctx.os.Keeps clock) (rooted : slash ∈ path)
    (plain : dirPlace path = path) (there : ctx.os.There log (extractDirpath path))
    {queue rest : List QueueData} {d : Dico} {objtype : UInt32} {filesize : UInt64} {log' : Log}
    (ran : (restoreRegfileUnique ctx queue path d objtype false filesize).run log =
      (⟨false, false, false, rest⟩, log')) : KeepsTimes ctx.os clock path log log' := by
  cases enter : (enterParent ctx path).run log with
  | mk tv log₁ =>
  have near : Fills (Near path) path := near_fills plain
  obtain ⟨writing, written, nearWriting, -⟩ := @writeRegfile_adds (Near path) ctx path queue false
    (isSparse ctx.mem d) filesize (fun _ => near) log₁
  obtain ⟨-, -, -, shut⟩ := @writeRegfile_shut path ctx queue false (isSparse ctx.mem d) filesize log₁
  unfold restoreRegfileUnique at ran
  simp only [Bool.false_eq_true, ↓reduceIte, Traced.run_bind, enter, Bool.not_false,
    Bool.and_true] at ran
  cases writes : (writeRegfile ctx queue path false (isSparse ctx.mem d) filesize).run log₁ with
  | mk file log₂ =>
  rw [writes] at written shut ran
  dsimp only at written shut ran
  subst written
  cases finishes : (if file.closed.ok = true then finishRegfile ctx path d objtype tv
    else pure file.closed.ok).run (log₁ ++ writing) with
  | mk finished log₃ =>
  rw [finishes] at ran
  generalize (if file.contents = .unwritten ∨ filesize = 0 then (Footer.fine, file.queue)
    else restoreFooter ctx false (file.closed.md5.getD (localBuffer ctx.mem 16 [])) file.queue) =
    footer at ran
  dsimp only at ran
  split at ran
  · cases congrArg (fun value => value.1.minorerr) ran
  have complete : (!(finished && decide (footer.1 = .fine))) = false :=
    congrArg (fun value => value.1.minorerr) ran
  simp only [Bool.not_eq_false', Bool.and_eq_true] at complete
  rw [complete.1] at finishes
  have closed : file.closed.ok = true := by
    by_contra failed
    rw [if_neg failed, eq_false_of_ne_true failed] at finishes
    cases finishes
  rw [if_pos closed] at finishes
  rw [datafileDestroy_closed (shut closed)] at ran
  have same : log₃ = log' := congrArg Prod.snd ran
  subst same
  obtain ⟨attrs, given, nearAttrs, -⟩ := @extractarRestoreAttrEverything_adds _ ctx path
    near_dresses objtype d (log₁ ++ writing)
  unfold finishRegfile at finishes
  rw [Traced.run_bind, given, Traced.run_bind] at finishes
  cases left : (leaveParent ctx path tv).run (log₁ ++ writing ++ attrs) with
  | mk value log₄ =>
  rw [left] at finishes
  obtain ⟨both, rfl⟩ := Prod.mk.inj finishes
  obtain ⟨-, rfl⟩ := Bool.and_eq_true_iff.mp both
  rw [List.append_assoc] at left
  refine (leaveParent_keeps keeps rooted there enter (fun entry member => ?_) left).2.1
  rcases List.mem_append.mp member with member | member
  · exact nearWriting entry member
  · exact (nearAttrs entry member).1

end FsArchiver
