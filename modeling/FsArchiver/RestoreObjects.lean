import FsArchiver.SavedHeaders

/-!
# Saved objects and what a restoration makes of them

An object is its header with what the header says, and the contents of a file. Restoring it is
visible in the calls that are about it, and calls about other objects change nothing of this.
-/
namespace FsArchiver

open Lib

/-- A saved object. -/
structure SavedObj where
  /-- Its header, without a place in a pack. -/
  d : Dico
  /-- Its path. -/
  relpath : Path
  /-- Its type. -/
  objtype : ObjType
  /-- What `lstat64` said. -/
  st : Stat
  /-- The contents of a regular file. -/
  contents : List UInt8
  /-- `createar_save_file` counted it as saved. -/
  saved : Bool

/-- The object has contents. -/
def ObjType.isRegfile : ObjType → Bool
  | .regfileunique | .regfilemulti => true
  | _ => false

/-- What is known of every saved object. -/
structure SavedObj.WellMade (obj : SavedObj) : Prop where
  /-- Its header. -/
  header : SavedHeader obj.d obj.relpath obj.objtype obj.st
  /-- Its path is a C string in a buffer of `PATH_MAX` bytes. -/
  short : obj.relpath.length < pathMax
  clean : 0 ∉ obj.relpath

/-- Where an object is restored. -/
def SavedObj.fullpath (obj : SavedObj) (ctx : Context) : Path :=
  concatenatePaths ctx.destdir obj.relpath

/-- No call is about the object at a path. -/
def Untouched (made : Log) (path : Path) : Prop := ∀ entry ∈ made, entry.1.object ≠ some path

/-- All calls are about the objects at some paths. -/
def Concerns (made : Log) (paths : List Path) : Prop :=
  ∀ entry ∈ made, ∀ path, entry.1.object = some path → path ∈ paths

/-- The contents of a file are written once, in blocks from the start to the end. -/
def WrittenOnce (made : Log) (path : Path) (contents : List UInt8) : Prop :=
  ∃ fsid sparse blocks, Chunked fsid 0 contents blocks ∧
    history made path = fileCalls sparse path blocks

/-- The object is restored by the calls `made`, which were made after those of a log. -/
structure SavedObj.Restored (obj : SavedObj) (ctx : Context) (log made : Log) : Prop where
  /-- Its attributes. -/
  attributed : Attributed ctx made (obj.fullpath ctx) obj.d obj.objtype.code
  /-- An object made of its header. -/
  entry : obj.objtype.isRegfile = false →
    EntryMade ctx (log ++ made) (obj.fullpath ctx) obj.d obj.objtype
  /-- A regular file. -/
  file : obj.objtype.isRegfile = true → WrittenOnce made (obj.fullpath ctx) obj.contents

variable {ctx : Context} {log made : Log} {path : Path} {obj : SavedObj}

theorem Untouched.append {more : Log} (first : Untouched made path) (second : Untouched more path) :
    Untouched (made ++ more) path :=
  fun entry member => (List.mem_append.mp member).elim (first entry) (second entry)

/-- Calls about other objects do not touch this one. -/
theorem Concerns.untouched {paths : List Path} (concerns : Concerns made paths)
    (apart : path ∉ paths) : Untouched made path :=
  fun entry member own => apart (concerns entry member path own)

theorem Concerns.append {more : Log} {paths : List Path} (first : Concerns made paths)
    (second : Concerns more paths) : Concerns (made ++ more) paths :=
  fun entry member => (List.mem_append.mp member).elim (first entry) (second entry)

theorem Concerns.mono {paths paths' : List Path} (concerns : Concerns made paths)
    (wider : paths ⊆ paths') : Concerns made paths' :=
  fun entry member path own => wider (concerns entry member path own)

theorem Concerns.nil (paths : List Path) : Concerns [] paths := fun _ member => by cases member

/-- A program about one object concerns it. -/
theorem Sys.About.concerns {α : Type} {prog : Sys α} {value : α} (about : Sys.About path prog)
    (gives : Traced.Gives prog log value made) : Concerns made [path] := by
  intro entry member other own
  exact List.mem_singleton.mpr ((about.of_gives gives).1 entry member other own)

/-- The history of a file among calls about other objects. -/
theorem Untouched.history (untouched : Untouched made path) : history made path = [] :=
  history_of_object untouched

/-- What was restored stays restored while other objects are. -/
theorem SavedObj.Restored.append (restored : obj.Restored ctx log made) {more : Log}
    (untouched : Untouched more (obj.fullpath ctx)) : obj.Restored ctx log (made ++ more) where
  attributed := restored.attributed.mono (List.subset_append_left made more)
  entry isEntry := by
    rw [← List.append_assoc]
    exact (restored.entry isEntry).mono more
  file isRegfile := by
    obtain ⟨fsid, sparse, blocks, chunked, own⟩ := restored.file isRegfile
    exact ⟨fsid, sparse, blocks, chunked, by rw [history_append, own, untouched.history,
      List.append_nil]⟩

/-- What is restored later is restored. -/
theorem SavedObj.Restored.prepend {before : Log} (restored : obj.Restored ctx (log ++ before) made)
    (untouched : Untouched before (obj.fullpath ctx)) : obj.Restored ctx log (before ++ made) where
  attributed := restored.attributed.mono (List.subset_append_right before made)
  entry isEntry := by
    rw [← List.append_assoc]
    exact restored.entry isEntry
  file isRegfile := by
    obtain ⟨fsid, sparse, blocks, chunked, own⟩ := restored.file isRegfile
    exact ⟨fsid, sparse, blocks, chunked, by rw [history_append, own, untouched.history,
      List.nil_append]⟩

/-- A restored object was touched. -/
theorem SavedObj.Restored.touched (restored : obj.Restored ctx log made) (wellMade : obj.WellMade) :
    ¬Untouched made (obj.fullpath ctx) := by
  intro untouched
  obtain ⟨attr, read⟩ := Option.isSome_iff_exists.mp (wellMade.header.readable ctx).std
  exact untouched _ (restored.attributed.owner attr read) rfl

/-- A file that was written once has its contents. -/
theorem WrittenOnce.contentAt {contents : List UInt8} (written : WrittenOnce made path contents)
    (log : Log) : contentAt (log ++ made) path = some contents := by
  obtain ⟨fsid, sparse, blocks, chunked, own⟩ := written
  unfold FsArchiver.contentAt
  rw [fileAt_eq, history_append, own, List.foldl_append]
  obtain ⟨file, run, content⟩ := @replay_fileCalls path _ _ _ chunked sparse
      ((history log path).foldl (replay path) none)
  rw [run, Option.map_some, content]

/-- A file that was written once was created once. -/
theorem WrittenOnce.create {contents : List UInt8} (written : WrittenOnce made path contents) :
    (made.filter fun entry => entry.1 = .create path).length = 1 := by
  obtain ⟨fsid, sparse, blocks, chunked, own⟩ := written
  have among : made.filter (fun entry => entry.1 = .create path) =
      (history made path).filter fun entry => entry.1 = .create path := by
    unfold history
    rw [List.filter_filter]
    refine List.filter_congr fun entry _ => ?_
    by_cases create : entry.1 = .create path
    · simp [create, SysCall.filePath]
    · simp [create]
  have once : (fileCalls sparse path blocks).filter (fun entry => entry.1 = .create path) =
      [(.create path, 0)] := by
    unfold fileCalls
    rw [List.filter_cons_of_pos (by simp), List.cons_eq_cons]
    refine ⟨rfl, List.filter_eq_nil_iff.mpr fun entry member create => ?_⟩
    have same : entry.1 = .create path := by simpa using create
    rcases List.mem_append.mp member with member | member
    · obtain ⟨block, -, rfl⟩ := List.mem_map.mp member
      revert same
      unfold blockEntry blockCall
      split <;> simp
    · cases sparse <;> simp at member <;> (rcases member with rfl | rfl <;> simp at same)
  rw [among, own, once]
  rfl

end FsArchiver
