import FsArchiver.CutFiles
import FsArchiver.QueuedObjects
import FsArchiver.SaveTrees

/-!
# Losses when saving

What a tree holds does not depend on what the calls of a walk answer: every entry that the exclude
list keeps should be on the queue when `oper_save` returns 0, with its data if it is a regular
file. That is so unless a loss is not noticed. A directory that `opendir` cannot open is left out
with all that is below it; `createar_oper_savedir` forgets that a walk ended too early; and a
hard link may lead to a file on another device.
-/
namespace FsArchiver

open Lib

/-! ## What a tree holds -/

/-- An entry of a tree that is not below an excluded directory. -/
inductive TreeEntry where
  /-- A directory that is kept. -/
  | directory (relpath : Path) (dir : DirCalls)
  /-- Any other object that is kept. -/
  | object (relpath : Path) (st : Stat) (calls : ObjectCalls)
  /-- An object for which `lstat64` fails. -/
  | unseen (relpath : Path) (excluded : Bool)

namespace TreeEntry

/-- The path. -/
def relpath : TreeEntry → Path
  | .directory relpath _ | .object relpath _ _ | .unseen relpath _ => relpath

/-- The exclude list keeps the entry. -/
def kept : TreeEntry → Bool
  | .directory _ _ | .object _ _ _ => true
  | .unseen _ excluded => !excluded

/-- What `createar_save_file` can be called for. -/
def object? : TreeEntry → Option SavedObject
  | .directory relpath dir =>
    if dir.opendir then dir.lstat.map fun statbuf => ⟨relpath, statbuf, dir.calls⟩ else none
  | .object relpath st calls => some ⟨relpath, st, calls⟩
  | .unseen _ _ => none

/-- The entry cannot be saved: `opendir` or `lstat64` fails, or it has no known type. -/
def Fails (entry : TreeEntry) : Prop :=
  ∀ object, entry.object? = some object → object.st.fileType = .other

end TreeEntry

/-- The entries below the directory at a path. Those that are excluded are left out as far as
`lstat64` finds them. -/
def entriesBelow (opts : SaveOptions) (path : Path) : DirStream → List TreeEntry
  | .eof => []
  | .entry name lstat calls dir sub rest =>
    let relpath := concatenatePaths path name
    let excluded := opts.exclude name || opts.exclude relpath
    let onward := entriesBelow opts path rest
    match lstat with
    | none => .unseen relpath excluded :: onward
    | some statbuf =>
      if excluded then onward
      else if statbuf.fileType = .dir then
        .directory relpath dir :: (entriesBelow opts relpath sub ++ onward)
      else .object relpath statbuf calls :: onward

/-- The entries of a tree. -/
def TreeCalls.treeEntries (opts : SaveOptions) (path : Path) (tree : TreeCalls) :
    List TreeEntry :=
  .directory path tree.dir :: entriesBelow opts path tree.entries

/-! ## What is on the queue -/

/-- All data of a regular file are on the queue: there are none, or they stand behind its header
or in its pack, or it is a hard link to another path of the same file for which that holds. -/
def SavedObject.AllDataQueued (mem : Mem) (items : List QueueData) (objects : List SavedObject)
    (object : SavedObject) : Prop :=
  object.st.size = 0 ∨ object.DataQueued mem items ∨
    ∃ file ∈ objects, file.identity = object.identity ∧
      LinkQueued mem items object.relpath file.relpath ∧ file.DataQueued mem items

/-- The header of an entry is on the queue, and all its data if it is a regular file. -/
def TreeEntry.Queued (mem : Mem) (items : List QueueData) (entries : List TreeEntry)
    (entry : TreeEntry) : Prop :=
  Archived mem items entry.relpath ∧ ∀ object, entry.object? = some object →
    object.st.fileType = .reg →
      object.AllDataQueued mem items (entries.filterMap TreeEntry.object?)

/-- Whatever fails: if `oper_save` returns 0, every tree of its arguments was walked, and every
entry that the exclude list keeps is among the items that the walk has put on the queue. -/
def NothingLost (mem : Mem) (md5 : Md5) (opts : SaveOptions) (setup : SaveSetup)
    (args : SaveArgs) : Prop :=
  (operSave mem md5 opts setup args).1 = true →
    (saveWalks mem md5 opts setup args).map SaveWalk.given = args.trees ∧
    ∀ walk ∈ saveWalks mem md5 opts setup args, ∃ items later,
      (walk.run mem md5 opts).2.pushed = walk.save.pushed ++ items ∧
      (operSave mem md5 opts setup args).2.pushed = walk.save.pushed ++ items ++ later ∧
      ∀ entry ∈ walk.tree.treeEntries opts walk.path, entry.kept = true →
        entry.Queued mem items (walk.tree.treeEntries opts walk.path)

/-! ## What is not noticed -/

/-- What fails is excluded, and nothing that is kept comes after it. -/
def NoneLeftOut (entries : List TreeEntry) : Prop :=
  ∀ before entry after, entries = before ++ entry :: after → entry.Fails →
    entry.kept = false ∧ ∀ later ∈ after, later.kept = false

/-- So what is kept does not fail. -/
theorem NoneLeftOut.succeeds {entries : List TreeEntry} (noneLeftOut : NoneLeftOut entries) :
    ∀ entry ∈ entries, entry.kept = true → ¬entry.Fails := by
  intro entry among kept fails
  obtain ⟨before, after, split⟩ := List.append_of_mem among
  rw [(noneLeftOut before entry after split fails).1] at kept
  cases kept

/-- A regular file that is not empty shares `st_rdev` and `st_ino` only with other links of
itself, as far as it has several links. -/
def LinksKept (objects : List SavedObject) : Prop :=
  ∀ before object after, objects = before ++ object :: after → object.several = true →
    object.st.size ≠ 0 → ∀ first,
      firstWith SavedObject.key (before.filter SavedObject.several) object.key = some first →
        first.identity = object.identity

/-! ## Entries and visits -/

/-- The same calls when they do not fail. -/
def DirCalls.answered (dir : DirCalls) : DirCalls :=
  { dir with opendir := true, lstat := some (dir.lstat.getD plainDirStat) }

/-- The same entries when no call fails; what `lstat64` does not find is an empty file. -/
def DirStream.answered : DirStream → DirStream
  | .eof => .eof
  | .entry name lstat calls dir sub rest =>
    .entry name (some (lstat.getD (linkedStat 0))) calls dir.answered sub.answered rest.answered

/-- They keep their names. -/
theorem names_answered (stream : DirStream) : stream.answered.names = stream.names := by
  induction stream with
  | eof => rfl
  | entry name lstat calls dir sub rest ihSub ihRest =>
    simp only [DirStream.answered, DirStream.names, ihRest]

theorem wellNamed_answered {stream : DirStream} (wellNamed : stream.WellNamed) :
    stream.answered.WellNamed := by
  induction stream with
  | eof => trivial
  | entry name lstat calls dir sub rest ihSub ihRest =>
    obtain ⟨isName, apart, namedSub, namedRest⟩ := wellNamed
    exact ⟨isName, by rwa [names_answered], ihSub namedSub, ihRest namedRest⟩

/-- The paths of the entries that are kept. -/
def keptPaths (entries : List TreeEntry) : List Path :=
  (entries.filter TreeEntry.kept).map TreeEntry.relpath

theorem keptPaths_cons (entry : TreeEntry) (entries : List TreeEntry) :
    keptPaths (entry :: entries) =
      if entry.kept then entry.relpath :: keptPaths entries else keptPaths entries := by
  unfold keptPaths
  rw [List.filter_cons]
  split <;> rfl

theorem keptPaths_append (first second : List TreeEntry) :
    keptPaths (first ++ second) = keptPaths first ++ keptPaths second := by
  simp [keptPaths]

/-- What is kept below a directory is what a walk visits if no call fails. -/
theorem keptPaths_below (opts : SaveOptions) (path : Path) (stream : DirStream) :
    keptPaths (entriesBelow opts path stream) =
      visitedPaths (entryVisits opts path stream.answered) := by
  induction stream generalizing path with
  | eof => rfl
  | entry name lstat calls dir sub rest ihSub ihRest =>
    cases lstat with
    | none =>
      have notDir : (linkedStat 0).fileType ≠ .dir := by rw [fileType_linkedStat]; decide
      simp only [entriesBelow, DirStream.answered, entryVisits, Option.getD_none]
      rw [keptPaths_cons, ihRest]
      cases excluded : opts.exclude name || opts.exclude (concatenatePaths path name) with
      | true => simp [TreeEntry.kept]
      | false => simp [TreeEntry.kept, TreeEntry.relpath, objectVisits, notDir, visitedPaths, Visit.path?]
    | some statbuf =>
      simp only [entriesBelow, DirStream.answered, entryVisits, Option.getD_some]
      split
      · exact ihRest path
      · by_cases isDir : statbuf.fileType = .dir
        · rw [if_pos isDir, keptPaths_cons, if_pos (by rfl), keptPaths_append, ihSub, ihRest]
          simp [TreeEntry.relpath, objectVisits, isDir, directoryVisits, DirCalls.answered,
            visitedPaths, Visit.path?]
        · rw [if_neg isDir, keptPaths_cons, if_pos (by rfl), ihRest]
          simp [TreeEntry.relpath, objectVisits, isDir, visitedPaths, Visit.path?]

/-- What a tree holds is what a walk visits if no call fails. -/
theorem keptPaths_tree (opts : SaveOptions) (path : Path) (tree : TreeCalls) :
    keptPaths (tree.treeEntries opts path) =
      visitedPaths (treeVisits opts path tree.dir.answered tree.entries.answered) := by
  have below := keptPaths_below opts path tree.entries
  change path :: keptPaths (entriesBelow opts path tree.entries) = _
  rw [below]
  rfl

/-- No path is kept twice. -/
theorem keptPaths_nodup {opts : SaveOptions} {path : Path} {tree : TreeCalls}
    (wellNamed : tree.entries.WellNamed) : (keptPaths (tree.treeEntries opts path)).Nodup := by
  rw [keptPaths_tree]
  exact treeVisits_nodup (wellNamed_answered wellNamed)

/-! ## What a walk comes to -/

namespace TreeEntry

/-- What can be saved is kept, under its path. -/
theorem kept_of_object {entry : TreeEntry} {own : SavedObject}
    (found : entry.object? = some own) : entry.kept = true ∧ entry.relpath = own.relpath := by
  cases entry with
  | directory relpath dir =>
    simp only [object?] at found
    split at found
    · obtain ⟨statbuf, -, rfl⟩ := Option.map_eq_some_iff.mp found
      exact ⟨rfl, rfl⟩
    · cases found
  | object relpath st calls =>
    cases found
    exact ⟨rfl, rfl⟩
  | unseen relpath excluded => cases found

/-- The visit of an entry, if its directory can be walked. -/
def visit (entry : TreeEntry) : Visit :=
  match entry.object? with
  | some own => .object own.relpath own.st own.calls
  | none => .stop

theorem visit_of_object {entry : TreeEntry} {own : SavedObject}
    (found : entry.object? = some own) :
    entry.visit = Visit.object own.relpath own.st own.calls := by
  simp [visit, found]

theorem visit_of_none {entry : TreeEntry} (missing : entry.object? = none) :
    entry.visit = .stop := by
  simp [visit, missing]

/-- What is not kept cannot be saved. -/
theorem object_of_left {entry : TreeEntry} (left : entry.kept = false) : entry.object? = none := by
  cases found : entry.object? with
  | none => rfl
  | some own => exact absurd (kept_of_object found).1 (by simp [left])

/-- An entry that does not fail has an object of a known type. -/
theorem not_fails_iff {entry : TreeEntry} :
    ¬entry.Fails ↔ ∃ own, entry.object? = some own ∧ own.st.fileType ≠ .other := by
  unfold Fails
  push Not
  rfl

/-- A directory that can be opened, or any other entry. -/
def Opens : TreeEntry → Prop
  | .directory _ dir => dir.opendir = true ∧ dir.lstat.isSome
  | _ => True

/-- A directory that is saved was opened. -/
theorem opens_of_succeeds {entry : TreeEntry} (succeeds : entry.kept = true → ¬entry.Fails) :
    entry.Opens := by
  cases entry with
  | directory relpath dir =>
    by_contra closed
    refine succeeds rfl fun own found => ?_
    simp only [object?] at found
    split at found
    next opened =>
      obtain ⟨statbuf, lstat, -⟩ := Option.map_eq_some_iff.mp found
      exact absurd ⟨opened, by rw [lstat]; rfl⟩ closed
    next => cases found
  | object relpath st calls => trivial
  | unseen relpath excluded => trivial

end TreeEntry

/-- A call of `createar_save_file` below a directory is for one of the entries. -/
theorem entry_of_visit_below {opts : SaveOptions} {path : Path} {stream : DirStream}
    {relpath : Path} {st : Stat} {calls : ObjectCalls}
    (visited : .object relpath st calls ∈ entryVisits opts path stream) :
    ∃ entry ∈ entriesBelow opts path stream, entry.object? = some ⟨relpath, st, calls⟩ := by
  induction stream generalizing path with
  | eof => cases visited
  | entry name lstat calls' dir sub rest ihSub ihRest =>
    cases lstat with
    | none =>
      simp only [entryVisits, entriesBelow] at visited ⊢
      split at visited
      · obtain ⟨entry, among, found⟩ := ihRest visited
        exact ⟨entry, List.mem_cons_of_mem _ among, found⟩
      · simp at visited
    | some statbuf =>
      simp only [entryVisits, entriesBelow] at visited ⊢
      split at visited
      next excluded =>
        rw [if_pos excluded]
        exact ihRest visited
      next kept =>
        rw [if_neg kept]
        unfold objectVisits directoryVisits at visited
        by_cases isDir : statbuf.fileType = .dir
        · rw [if_pos isDir] at visited ⊢
          rcases List.mem_append.mp visited with visited | visited
          · cases opened : dir.opendir with
            | false => simp [opened] at visited
            | true =>
              cases again : dir.lstat with
              | none => simp [opened, again] at visited
              | some statbuf' =>
                simp only [opened, again, Bool.not_true, Bool.false_eq_true, ↓reduceIte] at visited
                rcases List.mem_cons.mp visited with same | visited
                · cases same
                  exact ⟨_, List.mem_cons_self, by simp [TreeEntry.object?, opened, again]⟩
                · obtain ⟨entry, among, found⟩ := ihSub visited
                  exact ⟨entry, List.mem_cons_of_mem _ (List.mem_append_left _ among), found⟩
          · obtain ⟨entry, among, found⟩ := ihRest visited
            exact ⟨entry, List.mem_cons_of_mem _ (List.mem_append_right _ among), found⟩
        · rw [if_neg isDir] at visited ⊢
          rcases List.mem_cons.mp visited with same | visited
          · cases same
            exact ⟨_, List.mem_cons_self, rfl⟩
          · obtain ⟨entry, among, found⟩ := ihRest visited
            exact ⟨entry, List.mem_cons_of_mem _ among, found⟩

/-- A call of `createar_save_file` is for an entry of the tree. -/
theorem entry_of_visit {opts : SaveOptions} {path : Path} {tree : TreeCalls}
    {relpath : Path} {st : Stat} {calls : ObjectCalls}
    (visited : .object relpath st calls ∈ tree.visits opts path) :
    ∃ entry ∈ tree.treeEntries opts path, entry.object? = some ⟨relpath, st, calls⟩ := by
  unfold TreeCalls.visits treeVisits directoryVisits at visited
  cases opened : tree.dir.opendir with
  | false => simp [opened] at visited
  | true =>
    cases lstat : tree.dir.lstat with
    | none => simp [opened, lstat] at visited
    | some statbuf =>
      simp only [opened, lstat, Bool.not_true, Bool.false_eq_true, ↓reduceIte] at visited
      rcases List.mem_cons.mp visited with same | visited
      · cases same
        exact ⟨_, List.mem_cons_self, by simp [TreeEntry.object?, opened, lstat]⟩
      · obtain ⟨entry, among, found⟩ := entry_of_visit_below visited
        exact ⟨entry, List.mem_cons_of_mem _ among, found⟩

/-- Objects that are saved were visited. -/
theorem visit_of_savedObjects {costeval : Bool} {visits : List Visit} {object : SavedObject}
    (member : object ∈ savedObjects costeval visits) :
    .object object.relpath object.st object.calls ∈ visits := by
  induction visits with
  | nil => cases member
  | cons visit rest ih =>
    cases visit with
    | stop => cases member
    | object relpath st calls =>
      unfold savedObjects at member
      rcases List.mem_cons.mp member with rfl | member
      · exact List.mem_cons_self
      · split at member
        · exact List.mem_cons_of_mem _ (ih member)
        · cases member

/-- What is saved in front does not depend on what follows. -/
theorem savedObjects_congr {costeval : Bool} {later later' : List Visit}
    (same : savedObjects costeval later = savedObjects costeval later') (front : List Visit) :
    savedObjects costeval (front ++ later) = savedObjects costeval (front ++ later') := by
  induction front with
  | nil => exact same
  | cons visit front ih =>
    cases visit with
    | stop => rfl
    | object relpath st calls => simp only [List.cons_append, savedObjects, ih]

/-- If all directories can be opened, the entries below a directory are saved one after the other,
up to the first that fails. -/
theorem savedObjects_below {opts : SaveOptions} (noSaverw : opts.allowsaverw = false)
    (costeval : Bool) {path : Path} {stream : DirStream}
    (opens : ∀ entry ∈ entriesBelow opts path stream, entry.Opens) (later : List Visit) :
    savedObjects costeval (entryVisits opts path stream ++ later) =
      savedObjects costeval ((entriesBelow opts path stream).map TreeEntry.visit ++ later) := by
  induction stream generalizing path later with
  | eof => rfl
  | entry name lstat calls dir sub rest ihSub ihRest =>
    cases lstat with
    | none =>
      simp only [entryVisits, noSaverw, Bool.false_eq_true, ↓reduceIte]
      rfl
    | some statbuf =>
      simp only [entryVisits, entriesBelow] at opens ⊢
      split at opens
      next excluded =>
        simp only [if_pos excluded]
        exact ihRest opens later
      next kept =>
        simp only [if_neg kept]
        by_cases isDir : statbuf.fileType = .dir
        · rw [if_pos isDir] at opens ⊢
          obtain ⟨⟨opened, found⟩, inside⟩ := List.forall_mem_cons.mp opens
          obtain ⟨statbuf', again⟩ := Option.isSome_iff_exists.mp found
          obtain ⟨below, behind⟩ := List.forall_mem_append.mp inside
          have visit : (TreeEntry.directory (concatenatePaths path name) dir).visit =
              .object (concatenatePaths path name) statbuf' dir.calls := by
            simp [TreeEntry.visit, TreeEntry.object?, opened, again]
          have onward := ihSub below ((entriesBelow opts path rest).map TreeEntry.visit ++ later)
          have after := savedObjects_congr (ihRest behind later)
            (entryVisits opts (concatenatePaths path name) sub)
          simp only [objectVisits, isDir, ↓reduceIte, directoryVisits, opened, again, Bool.not_true,
            Bool.false_eq_true, List.cons_append, List.map_cons, List.map_append, visit,
            savedObjects, List.append_assoc, after, onward]
        · rw [if_neg isDir] at opens ⊢
          have behind := (List.forall_mem_cons.mp opens).2
          have visit : (TreeEntry.object (concatenatePaths path name) statbuf calls).visit =
              .object (concatenatePaths path name) statbuf calls := rfl
          simp only [objectVisits, isDir, ↓reduceIte, List.cons_append, List.nil_append,
            List.map_cons, visit, savedObjects, ihRest behind later]

/-- So are all entries of a tree. -/
theorem savedObjects_tree {opts : SaveOptions} (noSaverw : opts.allowsaverw = false)
    (costeval : Bool) {path : Path} {tree : TreeCalls}
    (opens : ∀ entry ∈ tree.treeEntries opts path, entry.Opens) :
    savedObjects costeval (tree.visits opts path) =
      savedObjects costeval ((tree.treeEntries opts path).map TreeEntry.visit) := by
  obtain ⟨⟨opened, found⟩, inside⟩ := List.forall_mem_cons.mp opens
  obtain ⟨statbuf, lstat⟩ := Option.isSome_iff_exists.mp found
  have below := savedObjects_below noSaverw costeval inside []
  rw [List.append_nil, List.append_nil] at below
  have visit : (TreeEntry.directory path tree.dir).visit =
      .object path statbuf tree.dir.calls := by
    simp [TreeEntry.visit, TreeEntry.object?, opened, lstat]
  simp only [TreeCalls.visits, treeVisits, directoryVisits, opened, lstat, Bool.not_true,
    Bool.false_eq_true, ↓reduceIte, TreeCalls.treeEntries, List.map_cons, visit, savedObjects, below]

/-- Nothing is saved behind an entry that ends the walk. -/
theorem savedObjects_before {costeval : Bool} {before : List TreeEntry} {rest : List Visit}
    {object : SavedObject}
    (member : object ∈ savedObjects costeval (before.map TreeEntry.visit ++ .stop :: rest)) :
    ∃ entry ∈ before, entry.object? = some object := by
  induction before with
  | nil => cases member
  | cons entry before ih =>
    cases found : entry.object? with
    | none =>
      rw [List.map_cons, List.cons_append, TreeEntry.visit_of_none found] at member
      cases member
    | some own =>
      rw [List.map_cons, List.cons_append, TreeEntry.visit_of_object found] at member
      unfold savedObjects at member
      rcases List.mem_cons.mp member with rfl | member
      · exact ⟨entry, List.mem_cons_self, found⟩
      · split at member
        · obtain ⟨entry', among, found'⟩ := ih member
          exact ⟨entry', List.mem_cons_of_mem _ among, found'⟩
        · cases member

/-- An entry is saved if none before it fails. -/
theorem mem_savedObjects {before after : List TreeEntry} {entry : TreeEntry} {object : SavedObject}
    (succeed : ∀ entry ∈ before, ¬entry.Fails) (found : entry.object? = some object) :
    object ∈ savedObjects false ((before ++ entry :: after).map TreeEntry.visit) := by
  induction before with
  | nil =>
    rw [List.nil_append, List.map_cons, TreeEntry.visit_of_object found]
    exact List.mem_cons_self
  | cons first before ih =>
    obtain ⟨here, others⟩ := List.forall_mem_cons.mp succeed
    obtain ⟨own, found', known⟩ := TreeEntry.not_fails_iff.mp here
    rw [List.cons_append, List.map_cons, TreeEntry.visit_of_object found']
    unfold savedObjects
    rw [if_pos (by simp [known])]
    exact List.mem_cons_of_mem _ (ih others)

/-! ## Losses of a walk -/

/-- The header in front of data that are on the queue. -/
theorem SavedObject.DataQueued.header {mem : Mem} {items : List QueueData} {object : SavedObject}
    (queued : object.DataQueued mem items) : ∃ fsid d, objectItem fsid d ∈ items ∧
      readPath mem d ItemKey.path = some object.relpath ∧
      headerType mem d ≠ some ObjType.hardlink.code := by
  obtain ⟨data, -, alone | packed⟩ := queued
  · obtain ⟨fsid, d, blocks, before, after, rfl, read, type, -⟩ := alone
    exact ⟨fsid, d, by simp, read, by rw [type]; decide⟩
  · obtain ⟨fsid, d, offset, heads, block, before, after, rfl, among, read, type, -⟩ := packed
    have own : objectItem fsid d ∈ heads.map (objectItem fsid) := List.mem_map_of_mem among
    exact ⟨fsid, d, by simp [own], read, by rw [type]; decide⟩

section Walk

variable {mem : Mem} {md5 : Md5} {opts : SaveOptions} {path : Path} {tree : TreeCalls}
  {save : Savear}

/-- Entries that are kept differ in their paths. -/
theorem entry_of_path (wellNamed : tree.entries.WellNamed) {entry entry' : TreeEntry}
    (among : entry ∈ tree.treeEntries opts path) (among' : entry' ∈ tree.treeEntries opts path)
    (kept : entry.kept = true) (kept' : entry'.kept = true)
    (same : entry.relpath = entry'.relpath) : entry = entry' :=
  List.inj_on_of_nodup_map (@keptPaths_nodup opts path tree wellNamed)
    (List.mem_filter.mpr ⟨among, kept⟩) (List.mem_filter.mpr ⟨among', kept'⟩) same

/-- Calls of a walk differ in their paths. -/
theorem call_of_path (wellNamed : tree.entries.WellNamed) {call call' : SaveCall}
    (member : call ∈ savedCalls mem md5 opts false (tree.visits opts path) save)
    (member' : call' ∈ savedCalls mem md5 opts false (tree.visits opts path) save)
    (same : call.relpath = call'.relpath) : call = call' := by
  have once := (treeVisits_nodup wellNamed).sublist
    (@savedCalls_paths mem md5 opts (tree.visits opts path) save)
  exact List.inj_on_of_nodup_map once member member' same

/-- A call of a walk is for an entry of its tree. -/
theorem entry_of_call {call : SaveCall}
    (member : call ∈ savedCalls mem md5 opts false (tree.visits opts path) save) :
    ∃ entry ∈ tree.treeEntries opts path, entry.object? = some call.toSavedObject := by
  have object : call.toSavedObject ∈ savedObjects false (tree.visits opts path) := by
    rw [← @savedCalls_objects mem md5 opts false _ save]
    exact List.mem_map_of_mem member
  exact entry_of_visit (visit_of_savedObjects object)

/-- Behind an entry that is on the queue there is a call. -/
theorem call_of_archived (wellNamed : tree.entries.WellNamed)
    (fit : PathsFit (visitedPaths (tree.visits opts path))) {entry : TreeEntry}
    (among : entry ∈ tree.treeEntries opts path) (kept : entry.kept = true)
    (archived : Archived mem (walkItems mem md5 opts (tree.visits opts path) save)
      entry.relpath) :
    ∃ call ∈ savedCalls mem md5 opts false (tree.visits opts path) (walkStart opts save),
      entry.object? = some call.toSavedObject ∧ call.st.fileType ≠ .other := by
  obtain ⟨fsid, d, queued, read⟩ := archived
  obtain ⟨call, member, own, heads⟩ := call_of_header fit queued read
  obtain ⟨entry', among', found⟩ := entry_of_call member
  obtain ⟨kept', relpath⟩ := TreeEntry.kept_of_object found
  have same := entry_of_path wellNamed among' among kept' kept (relpath.trans own)
  exact ⟨call, member, same ▸ found, heads.known⟩

/-- If everything that is kept gets on the queue, nothing of it fails or comes behind a failure. -/
theorem noneLeftOut_of_archived (noSaverw : opts.allowsaverw = false)
    (wellNamed : tree.entries.WellNamed)
    (fit : PathsFit (visitedPaths (tree.visits opts path)))
    (archived : ∀ entry ∈ tree.treeEntries opts path, entry.kept = true →
      Archived mem (walkItems mem md5 opts (tree.visits opts path) save) entry.relpath) :
    NoneLeftOut (tree.treeEntries opts path) := by
  have succeeds : ∀ entry ∈ tree.treeEntries opts path, entry.kept = true → ¬entry.Fails := by
    intro entry among kept fails
    obtain ⟨call, -, found, known⟩ :=
      call_of_archived wellNamed fit among kept (archived entry among kept)
    exact known (fails _ found)
  intro before entry after split fails
  have among : entry ∈ tree.treeEntries opts path := by
    rw [split]
    exact List.mem_append_right _ List.mem_cons_self
  have left : entry.kept = false := by
    by_contra kept
    exact succeeds entry among (by simpa using kept) fails
  refine ⟨left, fun later behind => ?_⟩
  by_contra kept
  rw [Bool.not_eq_false] at kept
  have among' : later ∈ tree.treeEntries opts path := by
    rw [split]
    exact List.mem_append_right _ (List.mem_cons_of_mem _ behind)
  obtain ⟨call, member, found, -⟩ :=
    call_of_archived wellNamed fit among' kept (archived later among' kept)
  -- the walk ends at the entry, so that the call is for one before it
  have stops : entry.visit = .stop := TreeEntry.visit_of_none (TreeEntry.object_of_left left)
  have object : call.toSavedObject ∈ savedObjects false (tree.visits opts path) := by
    rw [← @savedCalls_objects mem md5 opts false _ (walkStart opts save)]
    exact List.mem_map_of_mem member
  rw [savedObjects_tree noSaverw false fun entry among =>
    TreeEntry.opens_of_succeeds (succeeds entry among), split, List.map_append, List.map_cons,
    stops] at object
  obtain ⟨earlier, inFront, found'⟩ := savedObjects_before object
  obtain ⟨kept', relpath'⟩ := TreeEntry.kept_of_object found'
  have once := @keptPaths_nodup opts path tree wellNamed
  rw [split, keptPaths_append, List.nodup_append] at once
  refine once.2.2 earlier.relpath ?_ later.relpath ?_ ?_
  · exact List.mem_map_of_mem (List.mem_filter.mpr ⟨inFront, kept'⟩)
  · exact List.mem_map_of_mem (List.mem_filter.mpr ⟨List.mem_cons_of_mem _ behind, kept⟩)
  · rw [relpath', (TreeEntry.kept_of_object found).2]

/-- If all data get on the queue, hard links lead to their own files. -/
theorem linksKept_of_queued (wellNamed : tree.entries.WellNamed)
    (fit : PathsFit (visitedPaths (tree.visits opts path)))
    (queued : ∀ entry ∈ tree.treeEntries opts path, entry.kept = true → entry.Queued mem
      (walkItems mem md5 opts (tree.visits opts path) save) (tree.treeEntries opts path)) :
    LinksKept (savedObjects false (tree.visits opts path)) := by
  intro before object after split several nonempty first seen
  obtain ⟨-, isReg, links⟩ := SavedObject.several_iff.mp several
  rw [← @savedCalls_objects mem md5 opts false _ (walkStart opts save)] at split
  obtain ⟨front, rest, splitCalls, rfl, tail⟩ := List.map_eq_append_iff.mp split
  obtain ⟨call, later, rfl, rfl, -⟩ := List.map_eq_cons_iff.mp tail
  have member : call ∈ savedCalls mem md5 opts false (tree.visits opts path)
      (walkStart opts save) := by
    rw [splitCalls]
    exact List.mem_append_right _ List.mem_cons_self
  have target : linkTarget call.save call.st = some first.relpath := by
    rw [linkTarget_savedCalls rfl fit splitCalls, if_pos links, seen]
    rfl
  have link : objectType opts call.save call.st = .hardlink :=
    objectType_hardlink.mpr ⟨isReg, by rw [target]; rfl⟩
  -- the only header with its path is that of the link
  have linked {fsid : UInt16} {d : Dico}
      (inItems : objectItem fsid d ∈ walkItems mem md5 opts (tree.visits opts path) save)
      (read : readPath mem d ItemKey.path = some call.relpath) : call.Heads mem opts d := by
    obtain ⟨call', member', own, heads⟩ := call_of_header fit inItems read
    exact call_of_path wellNamed member' member own ▸ heads
  obtain ⟨entry, among, found⟩ := entry_of_call member
  obtain ⟨kept, -⟩ := TreeEntry.kept_of_object found
  rcases (queued entry among kept).2 _ found isReg with empty | alone | ⟨file, inTree, identity,
    linkQueued, -⟩
  · exact absurd empty nonempty
  · obtain ⟨fsid, d, inItems, read, other⟩ := alone.header
    have type := (linked inItems read).type
    rw [link] at type
    exact absurd type other
  · obtain ⟨fsid, d, inItems, read, -, leads⟩ := linkQueued
    have own := (linked inItems read).target link
    rw [leads, target] at own
    have samePath : file.relpath = first.relpath := Option.some.inj own
    obtain ⟨entry₁, among₁, found₁⟩ := List.mem_filterMap.mp inTree
    obtain ⟨call₂, inFront, same₂⟩ := List.mem_map.mp
      (List.mem_filter.mp (firstWith_some seen).1).1
    obtain ⟨entry₂, among₂, found₂⟩ := @entry_of_call mem md5 opts path tree
      (walkStart opts save) call₂ (by rw [splitCalls]; exact List.mem_append_left _ inFront)
    rw [same₂] at found₂
    obtain ⟨kept₁, relpath₁⟩ := TreeEntry.kept_of_object found₁
    obtain ⟨kept₂, relpath₂⟩ := TreeEntry.kept_of_object found₂
    have same := entry_of_path wellNamed among₁ among₂ kept₁ kept₂
      (by rw [relpath₁, relpath₂, samePath])
    rw [same, found₂] at found₁
    rw [Option.some.inj found₁]
    exact identity

/-- Without errors every call for an object of a known type saves it. -/
theorem saved_of_noErrors (sizes : opts.FromCmdline) {visits : List Visit}
    (fit : PathsFit (visitedPaths visits))
    (calm : NoErrors opts save.fstype (savedObjects false visits)) {call : SaveCall}
    (member : call ∈ savedCalls mem md5 opts false visits (walkStart opts save))
    (known : call.st.fileType ≠ .other) :
    call.calls.isCurvol = false ∧ (call.produced md5 opts).2 = true := by
  have fails := (noErrors_iff sizes (pends_walkStart opts save) rfl fit).mp calm call member
  simpa [SaveCall.fails, mt objectType_eq_null.mp known] using fails

/-- Without errors, all data of a file that is saved are on the queue, unless a link leads to
another file. -/
theorem allDataQueued_of_linksKept (sizes : opts.FromCmdline)
    (wellNamed : tree.entries.WellNamed)
    (fit : PathsFit (visitedPaths (tree.visits opts path)))
    (calm : NoErrors opts save.fstype (savedObjects false (tree.visits opts path)))
    (linksKept : LinksKept (savedObjects false (tree.visits opts path))) {call : SaveCall}
    (member : call ∈ savedCalls mem md5 opts false (tree.visits opts path) (walkStart opts save))
    (isReg : call.st.fileType = .reg) :
    call.AllDataQueued mem (walkItems mem md5 opts (tree.visits opts path) save)
      ((tree.treeEntries opts path).filterMap TreeEntry.object?) := by
  obtain ⟨inside, saved⟩ := saved_of_noErrors sizes fit calm member (by rw [isReg]; decide)
  have contents := call.contents_queued sizes fit member saved isReg
  by_cases empty : call.st.size = 0
  · exact .inl empty
  cases seen : linkTarget call.save call.st with
  | none =>
    rw [seen] at contents
    exact .inr (.inl contents)
  | some target =>
    rw [seen] at contents
    obtain ⟨before, after, split⟩ := List.append_of_mem member
    obtain ⟨first, inFront, leads, several, none⟩ := first_of_linkTarget fit split seen
    have member' : first ∈ savedCalls mem md5 opts false (tree.visits opts path)
        (walkStart opts save) := by
      rw [split]
      exact List.mem_append_left _ inFront
    -- the table leads to this call
    have found := linkTarget_savedCalls rfl fit split
    rw [seen] at found
    split at found
    next links =>
      obtain ⟨object, found, own⟩ := Option.map_eq_some_iff.mp found.symm
      obtain ⟨call', inFront', same⟩ := List.mem_map.mp
        (List.mem_filter.mp (firstWith_some found).1).1
      have listed : call' ∈ savedCalls mem md5 opts false (tree.visits opts path)
          (walkStart opts save) := by
        rw [split]
        exact List.mem_append_left _ inFront'
      have one : call' = first := call_of_path wellNamed listed member' (by rw [leads, ← own, ← same])
      rw [← same, one] at found
      have identity := linksKept _ _ _ (savedObjects_split split)
        (SavedObject.several_iff.mpr ⟨inside, isReg, links⟩) empty _ found
      obtain ⟨-, isReg', -⟩ := SavedObject.several_iff.mp several
      have saved' := (saved_of_noErrors sizes fit calm member' (by rw [isReg']; decide)).2
      have data := first.contents_queued sizes fit member' saved' isReg'
      rw [none] at data
      obtain ⟨entry, among, object⟩ := entry_of_call member'
      exact .inr (.inr ⟨first.toSavedObject, List.mem_filterMap.mpr ⟨entry, among, object⟩, identity,
        leads ▸ contents, data⟩)
    next => cases found

/-- Nothing gets lost in a walk without errors if and only if nothing is left out and hard links
lead to their own files. -/
theorem walk_queued_iff (sizes : opts.FromCmdline) (noSaverw : opts.allowsaverw = false)
    (wellNamed : tree.entries.WellNamed)
    (fit : PathsFit (visitedPaths (tree.visits opts path)))
    (calm : NoErrors opts save.fstype (savedObjects false (tree.visits opts path))) :
    (∀ entry ∈ tree.treeEntries opts path, entry.kept = true → entry.Queued mem
        (walkItems mem md5 opts (tree.visits opts path) save) (tree.treeEntries opts path)) ↔
      NoneLeftOut (tree.treeEntries opts path) ∧
        LinksKept (savedObjects false (tree.visits opts path)) := by
  constructor
  · intro queued
    exact ⟨noneLeftOut_of_archived noSaverw wellNamed fit fun entry among kept =>
      (queued entry among kept).1, linksKept_of_queued wellNamed fit queued⟩
  · rintro ⟨noneLeftOut, linksKept⟩ entry among kept
    obtain ⟨before, after, split⟩ := List.append_of_mem among
    have succeeds := noneLeftOut.succeeds
    have inFront : ∀ earlier ∈ before, ¬earlier.Fails := by
      intro earlier member fails
      obtain ⟨first, between, rfl⟩ := List.append_of_mem member
      have left := (noneLeftOut first earlier (between ++ entry :: after) (by rw [split]; simp)
        fails).2 entry (by simp)
      rw [kept] at left
      cases left
    obtain ⟨object, found, known⟩ := TreeEntry.not_fails_iff.mp (succeeds entry among kept)
    have saved : object ∈ savedObjects false (tree.visits opts path) := by
      rw [savedObjects_tree noSaverw false fun entry among =>
        TreeEntry.opens_of_succeeds (succeeds entry among), split]
      exact mem_savedObjects inFront found
    rw [← @savedCalls_objects mem md5 opts false _ (walkStart opts save)] at saved
    obtain ⟨call, member, rfl⟩ := List.mem_map.mp saved
    have produced := (saved_of_noErrors sizes fit calm member known).2
    obtain ⟨d, queued, heads⟩ := call.header_queued fit member produced
    have relpath := (TreeEntry.kept_of_object found).2
    refine ⟨⟨save.fsid, d, queued, by rw [heads.path, relpath]⟩, ?_⟩
    intro object' found' isReg
    rw [found] at found'
    rw [← Option.some.inj found'] at isReg ⊢
    exact allDataQueued_of_linksKept sizes wellNamed fit calm linksKept member isReg

end Walk

/-! ## Losses of a run -/

/-- The objects of a tree that can be saved. -/
def TreeCalls.objects (opts : SaveOptions) (path : Path) (tree : TreeCalls) : List SavedObject :=
  (tree.treeEntries opts path).filterMap TreeEntry.object?

/-- Nothing is left out of a tree, and its hard links lead to their own files. -/
structure TreeCalls.Keeps (opts : SaveOptions) (path : Path) (tree : TreeCalls) : Prop where
  noneLeftOut : NoneLeftOut (tree.treeEntries opts path)
  linksKept : LinksKept (tree.objects opts path)

/-- If nothing is left out, the objects that are saved are all that there are. -/
theorem savedObjects_of_noneLeftOut {entries : List TreeEntry} (noneLeftOut : NoneLeftOut entries) :
    savedObjects false (entries.map TreeEntry.visit) = entries.filterMap TreeEntry.object? := by
  induction entries with
  | nil => rfl
  | cons entry rest ih =>
    have onward : NoneLeftOut rest := by
      intro before other after split fails
      exact noneLeftOut (entry :: before) other after (by rw [split]; rfl) fails
    by_cases fails : entry.Fails
    · obtain ⟨left, behind⟩ := noneLeftOut [] entry rest rfl fails
      have nothing : rest.filterMap TreeEntry.object? = [] :=
        List.filterMap_eq_nil_iff.mpr fun later member =>
          TreeEntry.object_of_left (behind later member)
      have missing := TreeEntry.object_of_left left
      rw [List.map_cons, TreeEntry.visit_of_none missing, List.filterMap_cons_none missing, nothing]
      rfl
    · obtain ⟨object, found, known⟩ := TreeEntry.not_fails_iff.mp fails
      rw [List.map_cons, TreeEntry.visit_of_object found, List.filterMap_cons_some found, ← ih onward]
      simp [savedObjects, known]

section Run

variable {mem : Mem} {md5 : Md5} {opts : SaveOptions}

/-- If nothing is left out of a tree, its walk saves all objects that there are. -/
theorem savedObjects_of_tree (noSaverw : opts.allowsaverw = false) {path : Path} {tree : TreeCalls}
    (noneLeftOut : NoneLeftOut (tree.treeEntries opts path)) :
    savedObjects false (tree.visits opts path) = tree.objects opts path := by
  rw [savedObjects_tree noSaverw false fun entry among =>
    TreeEntry.opens_of_succeeds (noneLeftOut.succeeds entry among)]
  exact savedObjects_of_noneLeftOut noneLeftOut

/-- What a walk puts on the queue. -/
theorem SaveWalk.pushed_run (sizes : opts.FromCmdline) (walk : SaveWalk) :
    (walk.run mem md5 opts).2.pushed = walk.save.pushed ++
      walkItems mem md5 opts (walk.tree.visits opts walk.path) walk.save := by
  obtain ⟨-, pushed⟩ := @createarSaveDirectoryWrapper_packets mem md5 _ sizes walk.save walk.path
    walk.tree.dir walk.tree.entries
  rw [visitsProduced_eq, List.map_map] at pushed
  exact pushed

/-- Everything that is kept of the tree of a walk is among the items it has put on the queue. -/
def SaveWalk.Keeps (mem : Mem) (md5 : Md5) (opts : SaveOptions) (walk : SaveWalk) : Prop :=
  ∀ entry ∈ walk.tree.treeEntries opts walk.path, entry.kept = true → entry.Queued mem
    (walkItems mem md5 opts (walk.tree.visits opts walk.path) walk.save)
    (walk.tree.treeEntries opts walk.path)

/-- Nothing gets lost in a walk that passed if and only if its tree is kept. -/
theorem SaveWalk.keeps_iff (sizes : opts.FromCmdline) (noSaverw : opts.allowsaverw = false)
    {walk : SaveWalk} {queue : List QueueData} (passed : walk.Passed mem md5 opts queue)
    (wellNamed : walk.tree.entries.WellNamed)
    (fit : PathsFit (visitedPaths (walk.tree.visits opts walk.path))) :
    walk.Keeps mem md5 opts ↔ walk.tree.Keeps opts walk.path := by
  have queued := @walk_queued_iff mem md5 opts walk.path walk.tree walk.save sizes noSaverw
    wellNamed fit passed.noErrors
  unfold SaveWalk.Keeps
  rw [queued]
  constructor
  · rintro ⟨noneLeftOut, linksKept⟩
    exact ⟨noneLeftOut, savedObjects_of_tree noSaverw noneLeftOut ▸ linksKept⟩
  · rintro ⟨noneLeftOut, linksKept⟩
    exact ⟨noneLeftOut, (savedObjects_of_tree noSaverw noneLeftOut).symm ▸ linksKept⟩

/-- Nothing gets lost in a run if and only if nothing gets lost in its walks. -/
theorem nothingLost_walks (sizes : opts.FromCmdline) (setup : SaveSetup) (args : SaveArgs)
    (fit : ∀ tree ∈ args.trees, PathsFit (visitedPaths (tree.2.visits opts tree.1))) :
    NothingLost mem md5 opts setup args ↔ ((operSave mem md5 opts setup args).1 = true →
      ∀ walk ∈ saveWalks mem md5 opts setup args, walk.Keeps mem md5 opts) := by
  constructor
  · intro lossless ok walk member
    obtain ⟨items, later, pushed, -, queued⟩ := (lossless ok).2 walk member
    rw [SaveWalk.pushed_run sizes walk, List.append_cancel_left_eq] at pushed
    rw [← pushed] at queued
    exact queued
  · intro keeps ok
    obtain ⟨given, passed⟩ := saveWalks_passed sizes setup args fit ok
    refine ⟨given, fun walk member => ?_⟩
    obtain ⟨later, queued⟩ := (passed walk member).queued
    rw [SaveWalk.pushed_run sizes walk] at queued
    exact ⟨_, later, SaveWalk.pushed_run sizes walk, queued.symm, keeps ok walk member⟩

/-- Nothing gets lost when saving if and only if, unless a failure is noticed, every tree is
kept: no directory fails to open and no walk ends too early without notice, and no hard link leads
to another file. -/
theorem nothing_lost_iff (mem : Mem) (md5 : Md5) (opts : SaveOptions) (sizes : opts.FromCmdline)
    (noSaverw : opts.allowsaverw = false) (setup : SaveSetup) (args : SaveArgs)
    (wellNamed : ∀ tree ∈ args.trees, tree.2.entries.WellNamed)
    (fit : ∀ tree ∈ args.trees, PathsFit (visitedPaths (tree.2.visits opts tree.1))) :
    NothingLost mem md5 opts setup args ↔
      (args.Pass opts setup → ∀ tree ∈ args.trees, tree.2.Keeps opts tree.1) := by
  rw [nothingLost_walks sizes setup args fit, operSave_ok sizes setup args fit]
  refine imp_congr_right fun pass => ?_
  have ok := (@operSave_ok mem md5 opts sizes setup args fit).mpr pass
  obtain ⟨given, passed⟩ := saveWalks_passed sizes setup args fit ok
  constructor
  · intro keeps tree member
    rw [← given] at member
    obtain ⟨walk, among, rfl⟩ := List.mem_map.mp member
    have listed : walk.given ∈ args.trees := by
      rw [← given]
      exact member
    exact (SaveWalk.keeps_iff sizes noSaverw (passed walk among) (wellNamed _ listed)
      (fit _ listed)).mp (keeps walk among)
  · intro keeps walk among
    have listed : walk.given ∈ args.trees := by
      rw [← given]
      exact List.mem_map_of_mem among
    exact (SaveWalk.keeps_iff sizes noSaverw (passed walk among) (wellNamed _ listed)
      (fit _ listed)).mpr (keeps _ listed)

end Run

/-- The arguments for the root directory, when both walks of it get the same answers. -/
def rootArgs (entries : DirStream) : SaveArgs :=
  .directories [⟨[slash], true, ⟨plainDirCalls, entries⟩, ⟨plainDirCalls, entries⟩⟩]

/-- All threads are created. -/
def plainSetup : SaveSetup := ⟨true, Dico.alloc⟩

/-- Two links to a file with two bytes. -/
def twoByteLinks : DirStream :=
  .entry [0x61] (some (plainFileStat 2 2)) { plainCalls with openFile := twoBytes } plainDirCalls .eof
    (.entry [0x62] (some (plainFileStat 2 2)) { plainCalls with openFile := twoBytes } plainDirCalls
      .eof .eof)

/-- They are saved, and nothing gets lost. -/
theorem nothing_lost_iff_two_links :
    (operSave plainMem plainMd5 plainOptions plainSetup (rootArgs twoByteLinks)).1 = true ∧
      NothingLost plainMem plainMd5 plainOptions plainSetup (rootArgs twoByteLinks) := by
  let tree : TreeCalls := ⟨plainDirCalls, twoByteLinks⟩
  have visits : tree.visits plainOptions [slash] = [.object [slash] plainDirStat plainCalls,
      .object [slash, 0x61] (plainFileStat 2 2) { plainCalls with openFile := twoBytes },
      .object [slash, 0x62] (plainFileStat 2 2) { plainCalls with openFile := twoBytes }] := rfl
  have entries : tree.treeEntries plainOptions [slash] = [.directory [slash] plainDirCalls,
      .object [slash, 0x61] (plainFileStat 2 2) { plainCalls with openFile := twoBytes },
      .object [slash, 0x62] (plainFileStat 2 2) { plainCalls with openFile := twoBytes }] := rfl
  have wellNamed : twoByteLinks.WellNamed :=
    ⟨⟨by decide, by decide, by decide⟩, by simp [DirStream.names], trivial,
      ⟨by decide, by decide, by decide⟩, by simp [DirStream.names], trivial, trivial⟩
  have fit : PathsFit (visitedPaths (tree.visits plainOptions [slash])) := by
    rw [visits]
    unfold PathsFit
    decide
  refine ⟨by decide +kernel, (nothing_lost_iff plainMem plainMd5 plainOptions plainOptions_fromCmdline
    rfl plainSetup (rootArgs twoByteLinks) (List.forall_mem_singleton.mpr wellNamed)
    (List.forall_mem_singleton.mpr fit)).mpr fun _ => List.forall_mem_singleton.mpr ⟨?_, ?_⟩⟩
  · -- every entry can be saved
    intro before entry after split fails
    have member : entry ∈ tree.treeEntries plainOptions [slash] := by
      rw [show tree.treeEntries plainOptions [slash] = _ from split]
      exact List.mem_append_right _ List.mem_cons_self
    rw [entries] at member
    simp only [List.mem_cons, List.not_mem_nil, or_false] at member
    rcases member with rfl | rfl | rfl
    · exact absurd (fails _ rfl) (by decide)
    · exact absurd (fails _ rfl) (by decide)
    · exact absurd (fails _ rfl) (by decide)
  · -- both links have one identity
    have same : ∀ object ∈ tree.objects plainOptions [slash], object.several = true →
        object.identity = (1, 12) := by
      rw [TreeCalls.objects, entries]
      exact List.forall_mem_cons.mpr ⟨by decide, List.forall_mem_cons.mpr ⟨fun _ => rfl,
        List.forall_mem_singleton.mpr fun _ => rfl⟩⟩
    intro before object after split several notEmpty first found
    obtain ⟨earlier, several'⟩ := List.mem_filter.mp (firstWith_some found).1
    change tree.objects plainOptions [slash] = _ at split
    rw [split] at same
    rw [same first (List.mem_append_left _ earlier) several',
      same object (List.mem_append_right _ List.mem_cons_self) several]

/-- A directory `a` that cannot be opened, with an empty file in it. -/
def unopenedDirectory : DirStream :=
  .entry [0x61] (some plainDirStat) plainCalls { plainDirCalls with opendir := false }
    (.entry [0x62] (some (linkedStat 1)) (emptyFileCalls true) plainDirCalls .eof .eof) .eof

/-- The directory and its file get lost, and `oper_save` returns 0. -/
theorem unopened_directory_lost :
    ¬NothingLost plainMem plainMd5 plainOptions plainSetup (rootArgs unopenedDirectory) := by
  intro lossless
  let tree : TreeCalls := ⟨plainDirCalls, unopenedDirectory⟩
  have visits : tree.visits plainOptions [slash] = [.object [slash] plainDirStat plainCalls] := rfl
  have fit : PathsFit (visitedPaths (tree.visits plainOptions [slash])) := by
    rw [visits]
    unfold PathsFit
    decide
  have wellNamed : tree.entries.WellNamed :=
    ⟨⟨by decide, by decide, by decide⟩, by simp [DirStream.names],
      ⟨⟨by decide, by decide, by decide⟩, by simp [DirStream.names], trivial, trivial⟩, trivial⟩
  have calm : NoErrors plainOptions ext2 (savedObjects false (tree.visits plainOptions [slash])) := by
    intro before object after split errs
    have only : object = ⟨[slash], plainDirStat, plainCalls⟩ := by
      have member : object ∈ savedObjects false (tree.visits plainOptions [slash]) := by
        rw [split]
        exact List.mem_append_right _ List.mem_cons_self
      rw [visits] at member
      exact List.mem_singleton.mp member
    subst only
    rcases errs with curvol | ⟨-, attrs | ⟨isReg, -⟩⟩
    · cases curvol
    · exact absurd attrs (by decide)
    · exact absurd isReg (by decide)
  have ends : Visit.stop ∉ tree.visits plainOptions [slash] := by simp [visits]
  have pass : (rootArgs unopenedDirectory).Pass plainOptions plainSetup :=
    ⟨rfl, List.forall_mem_singleton.mpr ⟨rfl, ends, calm⟩⟩
  have fits : ∀ tree ∈ (rootArgs unopenedDirectory).trees,
      PathsFit (visitedPaths (tree.2.visits plainOptions tree.1)) :=
    List.forall_mem_singleton.mpr fit
  have ok := (@operSave_ok plainMem plainMd5 _ plainOptions_fromCmdline plainSetup _ fits).mpr pass
  obtain ⟨given, passed⟩ := saveWalks_passed plainOptions_fromCmdline plainSetup _ fits ok
  have listed : (([slash], tree) : Path × TreeCalls) ∈ (saveWalks plainMem plainMd5 plainOptions
      plainSetup (rootArgs unopenedDirectory)).map SaveWalk.given := by
    rw [given]
    exact List.mem_singleton_self _
  obtain ⟨walk, among, same⟩ := List.mem_map.mp listed
  have path : walk.path = [slash] := congrArg Prod.fst same
  have own : walk.tree = tree := congrArg Prod.snd same
  have keeps := (nothingLost_walks plainOptions_fromCmdline plainSetup _ fits).mp lossless ok walk among
  rw [SaveWalk.keeps_iff plainOptions_fromCmdline rfl (passed walk among) (by rw [own]; exact wellNamed)
    (by rw [own, path]; exact fit), own, path] at keeps
  -- the directory that cannot be opened comes right behind the root directory
  obtain ⟨left, -⟩ := keeps.noneLeftOut [_] _ _ rfl fun object found => by cases found
  cases left

end FsArchiver
