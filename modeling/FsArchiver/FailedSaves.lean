import FsArchiver.Creations

/-!
# What a failed save leaves behind

With overwriting off `archwriter_create` opens a file only where `stat64` finds none, and the path
comes into the list that `archwriter_remove` goes through. The files before the save are back
exactly if both steps do what they are meant to for every volume: `stat64` may fail at an existing
file, and `strlist_add` may fail behind a file that was created.
-/
namespace FsArchiver

open Lib

namespace FileWriter

open Failing

/-! ## What the writer has opened -/

/-- With overwriting off this call of `archwriter_create` opens this file. -/
structure OpensFile (kernel : Kernel) (ai : FileWriter) (inode : Nat) : Prop where
  /-- The path of the volume leads to it. -/
  named : kernel.loc ai.volpath = some inode
  /-- `stat64` finds no file there. -/
  unseen : kernel.stats ai.calls = true → ai.disk inode = none
  /-- `open64` succeeds. -/
  opens : kernel.opens ai.calls = true

/-- The files that calls of `archwriter_create` have opened are the only ones that the writer has
touched, and those in the list are the ones for which there was memory. -/
structure Owns (kernel : Kernel) (before : Disk) (made : List FileWriter) (ai : FileWriter) :
    Prop where
  /-- With a volume in the list the archive is new. -/
  flag : ai.vollist ≠ [] → ai.newarch = true
  /-- What was opened. -/
  created : ∀ inode, inode ∈ ai.created ↔ ∃ call ∈ made, OpensFile kernel call inode
  /-- What is going to be removed. -/
  listed : ∀ inode, (∃ path ∈ ai.vollist, kernel.loc path = some inode) ↔
    ∃ call ∈ made, OpensFile kernel call inode ∧ kernel.allocates call.calls = true
  /-- All other files are as before. -/
  frame : ∀ inode, inode ∉ ai.created → ai.disk inode = before inode
  /-- What was opened is there. -/
  there : ∀ inode ∈ ai.created, ai.disk inode ≠ none
  /-- The open file is one of them. -/
  opened : ∀ inode, ai.archfd = some inode → inode ∈ ai.created

variable {kernel : Kernel} {before : Disk} {made : List FileWriter} {ai : FileWriter}

/-- What does not touch the files and the lists keeps the ownership. -/
theorem Owns.of_same {ai' : FileWriter} (owns : Owns kernel before made ai)
    (flag : ai'.newarch = ai.newarch) (list : ai'.vollist = ai.vollist)
    (created : ai'.created = ai.created) (disk : ai'.disk = ai.disk)
    (fd : ∀ inode, ai'.archfd = some inode → ai.archfd = some inode) :
    Owns kernel before made ai' where
  flag := by
    rw [flag, list]
    exact owns.flag
  created := by
    rw [created]
    exact owns.created
  listed := by
    rw [list]
    exact owns.listed
  frame := by
    rw [created, disk]
    exact owns.frame
  there := by
    rw [created, disk]
    exact owns.there
  opened inode open' := by
    rw [created]
    exact owns.opened inode (fd inode open')

/-- Writing to the open file touches what was opened. -/
theorem Owns.append {inode : Nat} (owns : Owns kernel before made ai)
    (opened : ai.archfd = some inode) (data : List UInt8) :
    Owns kernel before made { ai with disk := appendTo ai.disk inode data } where
  flag := owns.flag
  created := owns.created
  listed := owns.listed
  frame other apart := by
    have different : other ≠ inode := fun same => apart (same ▸ owns.opened inode opened)
    simp only [appendTo, Function.update_of_ne different]
    exact owns.frame other apart
  there other member := by
    have here := owns.there other member
    by_cases same : other = inode
    · subst same
      simp only [appendTo, Function.update_self]
      split
      · simp
      · exact here
    · simp only [appendTo, Function.update_of_ne same]
      exact here
  opened := owns.opened

/-! ## Creating a volume -/

theorem archwriterCreate_of_opens (splitsize : Nat) {inode : Nat}
    (opens : OpensFile kernel ai inode) :
    archwriterCreate kernel ⟨false, splitsize⟩ ai = (some (),
      { ai with
        calls := ai.calls + 1, disk := open64 ai.disk inode, archfd := some inode, newarch := true
        vollist := strlistAdd (kernel.allocates ai.calls) ai.vollist ai.volpath
        created := ai.created ++ [inode] }) := by
  have unseen : kernel.stat64 ai.calls ai.volpath ai.disk = none := by
    unfold Kernel.stat64
    by_cases stats : kernel.stats ai.calls = true
    · rw [if_pos stats, opens.named, Option.bind_some, opens.unseen stats]
    · rw [if_neg stats]
  rw [archwriterCreate, bind_run_of (show nextCall ai = (some ai.calls, _) from rfl), get_bind_run]
  simp only [unseen, openVolume, get_bind_run, opens.named, ofOption_some, pure_bind_run,
    opens.opens, ↓reduceIte, modify_run]

theorem archwriterCreate_of_refused (splitsize : Nat)
    (refused : ∀ inode, ¬OpensFile kernel ai inode) :
    archwriterCreate kernel ⟨false, splitsize⟩ ai = (none, { ai with calls := ai.calls + 1 }) := by
  rw [archwriterCreate, bind_run_of (show nextCall ai = (some ai.calls, _) from rfl), get_bind_run]
  dsimp only
  cases seen : kernel.stat64 ai.calls ai.volpath ai.disk with
  | some node =>
    cases node with
    | regular content => rfl
    | special => rfl
  | none =>
    dsimp only
    rw [openVolume, get_bind_run]
    cases named : kernel.loc ai.volpath with
    | none => rfl
    | some inode =>
      have closed : ¬kernel.opens ai.calls = true := by
        intro opens
        refine refused inode ⟨named, fun stats => ?_, opens⟩
        rwa [Kernel.stat64, if_pos stats, named, Option.bind_some] at seen
      rw [ofOption_some, pure_bind_run, if_neg closed, fail_run]

/-- A call behind others is one of them or the last one. -/
theorem exists_made (call : FileWriter) (prop : FileWriter → Prop) :
    (∃ other ∈ made ++ [call], prop other) ↔ (∃ other ∈ made, prop other) ∨ prop call := by
  simp [or_and_right, exists_or]

/-- The path of a volume is not empty where it leads to an inode. -/
theorem volpath_nonempty {path : Path} {inode : Nat} (named : kernel.loc path = some inode) :
    path ≠ [] := by
  intro empty
  rw [empty, kernel.empty] at named
  cases named

/-- What is to be removed behind `strlist_add`. -/
theorem listed_strlistAdd {list : List Path} {path : Path} {inode : Nat} {allocates : Bool}
    (named : kernel.loc path = some inode) (other : Nat) :
    (∃ listed ∈ strlistAdd allocates list path, kernel.loc listed = some other) ↔
      (∃ listed ∈ list, kernel.loc listed = some other) ∨ other = inode ∧ allocates = true := by
  simp only [mem_strlistAdd (volpath_nonempty named)]
  constructor
  · rintro ⟨listed, known | ⟨room, rfl⟩, leads⟩
    · exact .inl ⟨listed, known, leads⟩
    · rw [named] at leads
      exact .inr ⟨(Option.some.inj leads).symm, room⟩
  · rintro (⟨listed, known, leads⟩ | ⟨rfl, room⟩)
    · exact ⟨listed, .inl known, leads⟩
    · exact ⟨path, .inr ⟨room, rfl⟩, named⟩

/-- Behind a call of `archwriter_create` the file that it opens is there. -/
theorem Owns.create (splitsize : Nat) (owns : Owns kernel before made ai) :
    Owns kernel before (made ++ [ai]) (archwriterCreate kernel ⟨false, splitsize⟩ ai).2 := by
  by_cases found : ∃ inode, OpensFile kernel ai inode
  · obtain ⟨inode, opens⟩ := found
    have only (other : Nat) : OpensFile kernel ai other ↔ other = inode := by
      constructor
      · intro opens'
        exact Option.some.inj (opens'.named.symm.trans opens.named)
      · rintro rfl
        exact opens
    rw [archwriterCreate_of_opens splitsize opens]
    constructor
    · exact fun _ => rfl
    · intro other
      rw [exists_made, only, ← owns.created]
      exact List.mem_append.trans (or_congr_right List.mem_singleton)
    · intro other
      rw [exists_made, only, ← owns.listed]
      exact listed_strlistAdd opens.named other
    · intro other apart
      have different : other ≠ inode := fun same => apart (by simp [same])
      simp only [open64, Function.update_of_ne different]
      exact owns.frame other fun known => apart (List.mem_append_left _ known)
    · intro other member
      by_cases same : other = inode
      · simp [same, open64]
      · simp only [open64, Function.update_of_ne same]
        refine owns.there other ?_
        simpa [same] using member
    · intro other same
      obtain rfl := Option.some.inj same
      exact List.mem_append_right _ List.mem_cons_self
  · have refused : ∀ inode, ¬OpensFile kernel ai inode := fun inode opens => found ⟨inode, opens⟩
    rw [archwriterCreate_of_refused splitsize refused]
    refine
      { flag := owns.flag, created := fun inode => ?_, listed := fun inode => ?_
        frame := owns.frame, there := owns.there, opened := owns.opened }
    · rw [exists_made]
      simpa [refused inode] using owns.created inode
    · rw [exists_made]
      simpa [refused inode] using owns.listed inode

/-- Whatever fails, the writer owns what it has touched. -/
theorem owns_tracks (splitsize : Nat) : Tracks kernel ⟨false, splitsize⟩ (Owns kernel before) where
  call owns := owns.of_same rfl rfl rfl rfl fun _ opened => opened
  append data owns opened := owns.append opened data
  next owns inc := by
    obtain ⟨volpath, rfl⟩ := archwriterIncvolume_same inc
    refine Owns.create splitsize (owns.of_same rfl rfl rfl rfl fun inode opened => ?_)
    cases opened

/-- A run owns what its calls of `archwriter_create` have opened. -/
theorem threadWriterFct_owns (splitsize : Nat) (archid : UInt32) (basepath : Path)
    (items : List (Option QueueData)) (disk : Disk) :
    Owns kernel disk (creations kernel ⟨false, splitsize⟩ items (archwriterInit archid basepath disk))
      (threadWriterFct kernel ⟨false, splitsize⟩ items (archwriterInit archid basepath disk)) := by
  have start : Owns kernel disk [] (archwriterInit archid basepath disk) :=
    { flag := fun listed => absurd rfl listed
      created := by simp [archwriterInit]
      listed := by simp [archwriterInit]
      frame := fun _ _ => rfl
      there := by simp [archwriterInit]
      opened := by
        intro inode opened
        cases opened }
  have run : Owns kernel disk
      (creations kernel ⟨false, splitsize⟩ items (archwriterInit archid basepath disk))
      (writeArchive kernel ⟨false, splitsize⟩ items (archwriterInit archid basepath disk)).2 := by
    cases ran : archwriterVolpath kernel (archwriterInit archid basepath disk) with
    | mk value first =>
      obtain ⟨volpath, same⟩ := archwriterVolpath_same ran
      have named : Owns kernel disk [] first := by
        rw [same]
        exact start.of_same rfl rfl rfl rfl fun _ opened => opened
      cases value with
      | none =>
        rw [writeArchive, bind_run_none ran, creations, ran]
        exact named
      | some value =>
        exact (owns_tracks splitsize).writeArchive_tracked items ran (Owns.create splitsize named)
  refine run.of_same rfl rfl rfl rfl ?_
  intro inode opened
  cases opened

/-! ## Removing the volumes -/

/-- Exactly the files that are named go away. -/
theorem foldl_unlink (paths : List Path) (disk : Disk) (inode : Nat) :
    ((∃ path ∈ paths, kernel.loc path = some inode) →
      paths.foldl (unlink kernel) disk inode = none) ∧
    ((∀ path ∈ paths, kernel.loc path ≠ some inode) →
      paths.foldl (unlink kernel) disk inode = disk inode) := by
  induction paths generalizing disk with
  | nil => exact ⟨fun ⟨path, member, _⟩ => absurd member List.not_mem_nil, fun _ => rfl⟩
  | cons path paths ih =>
    obtain ⟨gone, stays⟩ := ih (unlink kernel disk path)
    rw [List.foldl_cons]
    constructor
    · rintro ⟨other, member, named⟩
      by_cases later : ∃ path ∈ paths, kernel.loc path = some inode
      · exact gone later
      · have first : other = path := by
          rcases List.mem_cons.mp member with first | rest
          · exact first
          · exact absurd ⟨other, rest, named⟩ later
        rw [stays fun path listed same => later ⟨path, listed, same⟩, unlink, ← first, named]
        exact Function.update_self ..
    · intro apart
      rw [stays fun other member => apart other (List.mem_cons_of_mem path member), unlink]
      cases named : kernel.loc path with
      | none => rfl
      | some other =>
        have different : inode ≠ other := fun same =>
          apart path List.mem_cons_self (same ▸ named)
        exact Function.update_of_ne different ..

/-- `archwriter_remove` removes the files that the list names. -/
theorem archwriterRemove_disk (owns : Owns kernel before made ai) (inode : Nat) :
    ((∃ path ∈ ai.vollist, kernel.loc path = some inode) →
      (archwriterRemove kernel ai).disk inode = none) ∧
    ((∀ path ∈ ai.vollist, kernel.loc path ≠ some inode) →
      (archwriterRemove kernel ai).disk inode = ai.disk inode) := by
  have removed := @foldl_unlink kernel ai.vollist ai.disk inode
  unfold archwriterRemove
  dsimp only [archwriterClose]
  split
  next => exact removed
  next old =>
    refine ⟨fun ⟨path, listed, _⟩ => ?_, fun _ => rfl⟩
    exact absurd (owns.flag (List.ne_nil_of_mem listed)) old

theorem archwriterRemove_created (ai : FileWriter) :
    (archwriterRemove kernel ai).created = ai.created := by
  unfold archwriterRemove
  dsimp only [archwriterClose]
  split
  next => rfl
  next => rfl

/-- Every file from before is there with its contents, and no file that was opened for a volume
is left. -/
structure LeavesNothing (before : Disk) (ai : FileWriter) : Prop where
  kept : ∀ inode node, before inode = some node → ai.disk inode = some node
  removed : ∀ inode ∈ ai.created, ai.disk inode = none

/-- Nothing is left if and only if nothing was there before at what was opened, and all of this has
come into the list. -/
theorem Owns.leavesNothing_iff (owns : Owns kernel before made ai) :
    LeavesNothing before (archwriterRemove kernel ai) ↔
      ∀ call ∈ made, ∀ inode, OpensFile kernel call inode →
        before inode = none ∧
          ∃ other ∈ made, OpensFile kernel other inode ∧ kernel.allocates other.calls = true := by
  have after := archwriterRemove_disk owns
  constructor
  · intro leaves call member inode opens
    have opened := (owns.created inode).mpr ⟨call, member, opens⟩
    have gone : (archwriterRemove kernel ai).disk inode = none := by
      apply leaves.removed
      rw [archwriterRemove_created]
      exact opened
    constructor
    · cases existed : before inode with
      | none => rfl
      | some node =>
        rw [leaves.kept inode node existed] at gone
        cases gone
    · by_contra unlisted
      have apart : ∀ path ∈ ai.vollist, kernel.loc path ≠ some inode := fun path listed named =>
        unlisted ((owns.listed inode).mp ⟨path, listed, named⟩)
      rw [(after inode).2 apart] at gone
      exact owns.there inode opened gone
  · intro careful
    constructor
    · intro inode node existed
      have unopened : inode ∉ ai.created := by
        intro opened
        obtain ⟨call, member, opens⟩ := (owns.created inode).mp opened
        rw [(careful call member inode opens).1] at existed
        cases existed
      have apart : ∀ path ∈ ai.vollist, kernel.loc path ≠ some inode := by
        intro path listed named
        obtain ⟨call, member, opens, -⟩ := (owns.listed inode).mp ⟨path, listed, named⟩
        exact unopened ((owns.created inode).mpr ⟨call, member, opens⟩)
      rw [(after inode).2 apart, owns.frame inode unopened, existed]
    · intro inode opened
      rw [archwriterRemove_created] at opened
      obtain ⟨call, member, opens⟩ := (owns.created inode).mp opened
      exact (after inode).1 ((owns.listed inode).mpr (careful call member inode opens).2)

/-- A failed save removes exactly its own files if and only if nothing was there before at the
paths of the volumes that it has opened, and `strlist_add` had memory for each of these: for every
state of the files, every sequence of items, every split size and every pattern of failing
calls. -/
theorem failed_save_restores_files_iff (kernel : Kernel) (splitsize : Nat) (archid : UInt32)
    (basepath : Path) (items : List (Option QueueData)) (disk : Disk) :
    let start := archwriterInit archid basepath disk
    let calls := creations kernel ⟨false, splitsize⟩ items start
    LeavesNothing disk
        (archwriterRemove kernel (threadWriterFct kernel ⟨false, splitsize⟩ items start)) ↔
      ∀ call ∈ calls, ∀ inode, OpensFile kernel call inode →
        disk inode = none ∧
          ∃ other ∈ calls, OpensFile kernel other inode ∧ kernel.allocates other.calls = true :=
  Owns.leavesNothing_iff (threadWriterFct_owns splitsize archid basepath items disk)

/-- A system where one call has no memory, with the files told apart by the lengths of their
paths. -/
def fullKernel (full : Nat) : Kernel where
  loc path := if path = [] then none else some path.length
  empty := rfl
  realpath _ _ := none
  stats _ := true
  opens _ := true
  stops _ := none
  allocates call := decide (call ≠ full)

/-- The archive `a.fsa` is created and not put into the list; the first item is missing, and the
volume stays. -/
theorem failed_save_leaves_volume :
    ¬LeavesNothing (fun _ => none) (archwriterRemove (fullKernel 1)
      (threadWriterFct (fullKernel 1) ⟨false, 0⟩ [none]
        (archwriterInit 1 [0x61, 0x2e, 0x66, 0x73, 0x61] fun _ => none))) := by
  intro leaves
  have gone := leaves.removed 5 (by decide +kernel)
  revert gone
  decide +kernel

end FileWriter

end FsArchiver
