import FsArchiver.Lib.FirstSeen
import FsArchiver.ObjectHeaders

/-!
# Hard links

A walk keeps a table of the regular files with several links it has come to, under their
`st_rdev` and `st_ino`. What the table answers is the first of them with these numbers. A hard
link goes to the first visited link of its file wherever these numbers tell the same files apart
as `st_dev` and `st_ino` do, and its target is in the archive wherever that link could be saved.
-/
namespace FsArchiver

open Lib

/-! ## The calls of a walk -/

/-- An object that `createar_save_file` is called for. -/
structure SavedObject where
  relpath : Path
  st : Stat
  calls : ObjectCalls

/-- A call of `createar_save_file`, with the state before it. -/
structure SaveCall extends SavedObject where
  save : Savear

namespace SavedObject

/-- `st_rdev` and `st_ino`, the keys of the table. -/
def key (object : SavedObject) : UInt64 × UInt64 := (object.st.rdev, object.st.ino)

/-- `st_dev` and `st_ino`, which identify a file. -/
def identity (object : SavedObject) : UInt64 × UInt64 := (object.st.dev, object.st.ino)

/-- A regular file with several links that is not the archive itself. -/
def several (object : SavedObject) : Bool :=
  !object.calls.isCurvol && decide (object.st.fileType = .reg ∧ object.st.nlink > 1)

theorem several_iff {object : SavedObject} : object.several = true ↔
    object.calls.isCurvol = false ∧ object.st.fileType = .reg ∧ object.st.nlink > 1 := by
  simp [several]

end SavedObject

/-- The objects of a walk, up to the first of an unknown type. -/
def savedObjects (costeval : Bool) : List Visit → List SavedObject
  | [] | .stop :: _ => []
  | .object relpath st calls :: rest =>
    ⟨relpath, st, calls⟩ ::
      if calls.isCurvol || costeval || st.fileType ≠ .other then savedObjects costeval rest else []

/-- Objects are saved in the order of their visits. -/
theorem savedObjects_paths (costeval : Bool) (visits : List Visit) :
    ((savedObjects costeval visits).map SavedObject.relpath).Sublist (visitedPaths visits) := by
  induction visits with
  | nil => exact List.Sublist.slnil
  | cons visit rest ih =>
    cases visit with
    | stop => exact List.nil_sublist _
    | object relpath st calls =>
      unfold savedObjects
      refine List.Sublist.cons_cons relpath ?_
      split
      · exact ih
      · exact List.nil_sublist _

/-- Only objects of an unknown type have no type in the archive. -/
theorem objectType_eq_null {opts : SaveOptions} {save : Savear} {st : Stat} :
    objectType opts save st = .null ↔ st.fileType = .other := by
  unfold objectType
  cases type : st.fileType with
  | reg =>
    have other : regfileType opts st ≠ .null := by
      unfold regfileType
      split <;> decide
    cases linkTarget save st with
    | none => simpa using other
    | some target => simp
  | dir | lnk | chr | blk | fifo | sock | other => simp

section Calls

variable (mem : Mem) (md5 : Md5) (opts : SaveOptions) (costeval : Bool)

/-- The calls of `createar_save_file` for some visits. -/
def savedCalls : List Visit → Savear → List SaveCall
  | [], _ | .stop :: _, _ => []
  | .object relpath st calls :: rest, save =>
    ⟨⟨relpath, st, calls⟩, save⟩ ::
      match createarSaveFile mem md5 opts save relpath st calls costeval with
      | (false, _) => []
      | (true, save) => savedCalls rest save

variable {mem md5 opts costeval}

/-- When `createar_save_file` returns 0. -/
theorem createarSaveFile_ok (save : Savear) (relpath : Path) (st : Stat) (calls : ObjectCalls) :
    (createarSaveFile mem md5 opts save relpath st calls costeval).1 =
      (calls.isCurvol || costeval || st.fileType ≠ .other) := by
  cases costeval with
  | true =>
    unfold createarSaveFile
    cases calls.isCurvol <;> simp
  | false =>
    rw [createarSaveFile_eq]
    cases calls.isCurvol with
    | true => rfl
    | false =>
      simp only [Bool.false_eq_true, ↓reduceIte, objectType_eq_null]
      by_cases unknown : st.fileType = .other
      · simp [unknown]
      · simp only [unknown, ↓reduceIte]
        split <;> simp [unknown]

/-- The calls are those for the objects of the walk. -/
theorem savedCalls_objects (visits : List Visit) (save : Savear) :
    (savedCalls mem md5 opts costeval visits save).map SaveCall.toSavedObject =
      savedObjects costeval visits := by
  induction visits generalizing save with
  | nil => rfl
  | cons visit rest ih =>
    cases visit with
    | stop => rfl
    | object relpath st calls =>
      have ok := @createarSaveFile_ok mem md5 opts costeval save relpath st calls
      unfold savedCalls savedObjects
      cases ran : createarSaveFile mem md5 opts save relpath st calls costeval with
      | mk returned save' =>
        rw [ran] at ok
        rw [← ok]
        cases returned with
        | false => rfl
        | true => rw [List.map_cons, ih, if_pos rfl]

end Calls

/-! ## The table of links -/

/-- The table answers with the first file that was seen under its keys. -/
def Remembers (dichardlinks : List DichlItem) (seen : List SavedObject) : Prop :=
  ∀ key1 key2, (dichardlinks.find? fun item => item.key1 = key1 ∧ item.key2 = key2) =
    (firstWith SavedObject.key (seen.filter SavedObject.several) (key1, key2)).map fun object =>
      ⟨key1, key2, object.relpath⟩

/-- At the start of a walk nothing was seen. -/
theorem remembers_nil : Remembers [] [] := fun _ _ => rfl

/-- The paths of calls are C strings in buffers of `PATH_MAX` bytes. -/
def PathsFit (paths : List Path) : Prop := ∀ path ∈ paths, path.length < pathMax ∧ 0 ∉ path

section Table

variable {save : Savear} {seen : List SavedObject}

/-- The earlier link that `createar_item_stdattr` finds. -/
theorem Remembers.linkTarget (remembers : Remembers save.dichardlinks seen)
    (fit : PathsFit (seen.map SavedObject.relpath)) (st : Stat) :
    linkTarget save st =
      if st.nlink > 1 then
        (firstWith SavedObject.key (seen.filter SavedObject.several) (st.rdev, st.ino)).map
          SavedObject.relpath
      else none := by
  unfold FsArchiver.linkTarget
  by_cases several : st.nlink > 1
  · rw [if_pos several, if_pos several, dichlGet, remembers st.rdev st.ino]
    cases found : firstWith SavedObject.key (seen.filter SavedObject.several) (st.rdev, st.ino) with
    | none => rfl
    | some call =>
      have among := List.mem_filter.mp (firstWith_some found).1
      have short := (fit call.relpath (List.mem_map_of_mem among.1)).1
      have fits : ¬pathMax < call.relpath.length + 1 := by omega
      simp only [Option.map_some, fits, ↓reduceIte]
  · rw [if_neg several, if_neg several]

/-- A call that is not for a file with several links leaves the table alone. -/
theorem Remembers.other (remembers : Remembers save.dichardlinks seen) {object : SavedObject}
    (other : object.several = false) : Remembers save.dichardlinks (seen ++ [object]) := by
  intro key1 key2
  rw [remembers key1 key2, List.filter_append, List.filter_cons_of_neg (by simp [other])]
  simp

/-- The first link of a file is entered, further ones are not. -/
theorem Remembers.enter (remembers : Remembers save.dichardlinks seen)
    (fit : PathsFit (seen.map SavedObject.relpath)) {object : SavedObject}
    (several : object.several = true) :
    Remembers (linksAfter save object.relpath object.st) (seen ++ [object]) := by
  have regular := (SavedObject.several_iff.mp several).2
  have target := remembers.linkTarget fit object.st
  rw [if_pos regular.2] at target
  intro key1 key2
  rw [List.filter_append, List.filter_cons_of_pos several, List.filter_nil, firstWith_concat]
  unfold linksAfter
  cases found : firstWith SavedObject.key (seen.filter SavedObject.several) (object.st.rdev, object.st.ino) with
  | some first =>
    rw [found, Option.map_some] at target
    rw [if_neg (by simp [target]), remembers key1 key2]
    by_cases same : object.key = (key1, key2)
    · have keys : (object.st.rdev, object.st.ino) = (key1, key2) := same
      rw [← keys, found]
      rfl
    · rw [if_neg same, Option.or_none]
  | none =>
    rw [found, Option.map_none] at target
    have absent : ¬(save.dichardlinks.any fun item =>
        item.key1 = object.st.rdev ∧ item.key2 = object.st.ino) = true := by
      have nothing := remembers object.st.rdev object.st.ino
      rw [found, Option.map_none, List.find?_eq_none] at nothing
      simpa using nothing
    rw [if_pos ⟨regular.1, regular.2, target⟩, dichlAdd, if_neg absent, List.find?_append,
      remembers key1 key2]
    by_cases same : object.key = (key1, key2)
    · have keys : object.st.rdev = key1 ∧ object.st.ino = key2 := by simpa [SavedObject.key] using same
      rw [← keys.1, ← keys.2, found, if_pos (by rfl)]
      simp
    · have keys : ¬(object.st.rdev = key1 ∧ object.st.ino = key2) := by simpa [SavedObject.key] using same
      rw [if_neg same]
      simp [keys]

end Table

section Walk

variable {mem : Mem} {md5 : Md5} {opts : SaveOptions} {costeval : Bool}

/-- What is put on the queue leaves the table alone. -/
theorem links_saveContents (save : Savear) (objtype : ObjType) (d : Dico) (st : Stat)
    (calls : ObjectCalls) :
    (saveContents mem md5 opts save objtype d st calls).2.dichardlinks = save.dichardlinks := by
  cases objtype with
  | regfileunique =>
    unfold saveContents createarObjRegfileUnique
    cases calls.openFile with
    | none => rfl
    | some file =>
      dsimp only
      split
      · rfl
      · split <;> rfl
  | regfilemulti =>
    unfold saveContents createarObjRegfileMulti
    cases calls.openFile with
    | none => rfl
    | some file =>
      dsimp only
      cases readFile file 0 st.size.toNat with
      | none => rfl
      | some read =>
        dsimp only
        split
        · split <;> rfl
        · cases regmultiSaveEnqueue mem save.regmulti save.fsid with
          | mk pushed ok =>
            cases ok with
            | false => rfl
            | true =>
              dsimp only
              split <;> rfl
  | null | dir | symlink | hardlink | chardev | blockdev | fifo | socket => rfl

/-- `createar_save_file` changes the table where `createar_item_stdattr` does. -/
theorem links_createarSaveFile (save : Savear) (relpath : Path) (st : Stat) (calls : ObjectCalls) :
    (createarSaveFile mem md5 opts save relpath st calls costeval).2.dichardlinks =
      if calls.isCurvol then save.dichardlinks else linksAfter save relpath st := by
  cases costeval with
  | true =>
    unfold createarSaveFile
    rw [createarItemStdattr_eq]
    cases calls.isCurvol <;> rfl
  | false =>
    rw [createarSaveFile_eq]
    cases calls.isCurvol with
    | true => rfl
    | false =>
      dsimp only
      simp only [Bool.false_eq_true, ↓reduceIte]
      split
      · rfl
      · split
        · rfl
        · exact links_saveContents _ _ _ _ _

/-- A call enters its file into the table if it has several links. -/
theorem Remembers.step {save : Savear} {seen : List SavedObject}
    (remembers : Remembers save.dichardlinks seen) (fit : PathsFit (seen.map SavedObject.relpath))
    (relpath : Path) (st : Stat) (calls : ObjectCalls) :
    Remembers (createarSaveFile mem md5 opts save relpath st calls costeval).2.dichardlinks
      (seen ++ [⟨relpath, st, calls⟩]) := by
  rw [links_createarSaveFile]
  cases several : SavedObject.several ⟨relpath, st, calls⟩ with
  | true =>
    have notCurvol : calls.isCurvol = false := (SavedObject.several_iff.mp several).1
    rw [notCurvol, if_neg (by decide)]
    exact remembers.enter fit several
  | false =>
    have unchanged : (if calls.isCurvol then save.dichardlinks else linksAfter save relpath st) =
        save.dichardlinks := by
      cases curvol : calls.isCurvol with
      | true => rfl
      | false =>
        have single : ¬(st.fileType = .reg ∧ st.nlink > 1) := by
          simpa [SavedObject.several, curvol] using several
        rw [if_neg (by decide), linksAfter, if_neg fun all => single ⟨all.1, all.2.1⟩]
    rw [unchanged]
    exact remembers.other several

/-- Before every call of a walk the table has the files of the calls before it. -/
theorem remembers_savedCalls {visits : List Visit} {save : Savear} {seen : List SavedObject}
    (remembers : Remembers save.dichardlinks seen)
    (fit : PathsFit (seen.map SavedObject.relpath ++ visitedPaths visits))
    {before after : List SaveCall} {call : SaveCall}
    (split : savedCalls mem md5 opts costeval visits save = before ++ call :: after) :
    Remembers call.save.dichardlinks (seen ++ before.map SaveCall.toSavedObject) := by
  induction visits generalizing save seen before with
  | nil => simp [savedCalls] at split
  | cons visit rest ih =>
    cases visit with
    | stop => simp [savedCalls] at split
    | object relpath st calls =>
      unfold savedCalls at split
      cases before with
      | nil =>
        have first := (List.cons.inj split).1
        rw [← first, List.map_nil, List.append_nil]
        exact remembers
      | cons first before =>
        obtain ⟨same, rest'⟩ := List.cons.inj split
        have fitSeen : PathsFit (seen.map SavedObject.relpath) := fun path member =>
          fit path (List.mem_append_left _ member)
        have next := @Remembers.step mem md5 opts costeval _ _ remembers fitSeen relpath st calls
        cases ran : createarSaveFile mem md5 opts save relpath st calls costeval with
        | mk ok save' =>
          rw [ran] at rest' next
          cases ok with
          | false => simp at rest'
          | true =>
            have onward := ih next (by simpa [PathsFit, visitedPaths, Visit.path?] using fit) rest'
            rw [← same]
            simpa using onward

end Walk

/-! ## Links to the same file -/

/-- `createar_item_stdattr` stores the object of a call as a hard link to a path. -/
def SaveCall.StoredAsLink (opts : SaveOptions) (call : SaveCall) (target : Path) : Prop :=
  let item := (createarItemStdattr opts call.save call.relpath call.st call.calls).1
  item.objtype = .hardlink ∧ readTarget item.d ItemKey.hardlink = some target

/-- The type of a hard link is that of a regular file with an earlier link. -/
theorem objectType_hardlink {opts : SaveOptions} {save : Savear} {st : Stat} :
    objectType opts save st = .hardlink ↔ st.fileType = .reg ∧ (linkTarget save st).isSome := by
  unfold objectType
  cases type : st.fileType with
  | reg =>
    cases seen : (linkTarget save st).isSome with
    | true => simp
    | false =>
      have other : regfileType opts st ≠ .hardlink := by
        unfold regfileType
        split <;> decide
      simpa using other
  | dir | lnk | chr | blk | fifo | sock | other => simp

/-- A regular file is stored as a hard link to the path in the table. -/
theorem SaveCall.storedAsLink_iff {opts : SaveOptions} {call : SaveCall}
    (isReg : call.st.fileType = .reg)
    (fit : ∀ target, linkTarget call.save call.st = some target → target.length < pathMax ∧ 0 ∉ target)
    (target : Path) :
    call.StoredAsLink opts target ↔ linkTarget call.save call.st = some target := by
  unfold StoredAsLink
  rw [createarItemStdattr_eq]
  simp only [objectType_hardlink, isReg, true_and]
  cases seen : linkTarget call.save call.st with
  | none => simp
  | some path =>
    obtain ⟨short, clean⟩ := fit path seen
    have found := find_stdattrDico_hardlink opts call.save call.relpath call.st call.calls isReg seen
    rw [readTarget_of_find found short clean]
    simp

/-- Every regular file of a walk is stored as a hard link to the first file with several links
that was visited before under the same `st_dev` and `st_ino`, and not otherwise. -/
def LinkedByIdentity (opts : SaveOptions) (calls : List SaveCall) : Prop :=
  ∀ before call after, calls = before ++ call :: after → call.st.fileType = .reg →
    call.calls.isCurvol = false → ∀ target, call.StoredAsLink opts target ↔
      call.st.nlink > 1 ∧
        (firstWith SavedObject.identity
          ((before.map SaveCall.toSavedObject).filter SavedObject.several) call.identity).map
          SavedObject.relpath = some target

section Identity

variable {mem : Mem} {md5 : Md5} {opts : SaveOptions} {costeval : Bool}

/-- The paths of the objects before a call fit their buffers. -/
theorem PathsFit.before {visits : List Visit} (fit : PathsFit (visitedPaths visits))
    {before after : List SavedObject} {object : SavedObject}
    (split : savedObjects costeval visits = before ++ object :: after) :
    PathsFit (before.map SavedObject.relpath) := by
  intro path member
  have inOrder := savedObjects_paths costeval visits
  rw [split, List.map_append] at inOrder
  exact fit path (inOrder.subset (List.mem_append_left _ member))

/-- The objects around a call. -/
theorem savedObjects_split {visits : List Visit} {save : Savear} {before after : List SaveCall}
    {call : SaveCall} (split : savedCalls mem md5 opts costeval visits save = before ++ call :: after) :
    savedObjects costeval visits = before.map SaveCall.toSavedObject ++ call.toSavedObject ::
      after.map SaveCall.toSavedObject := by
  rw [← @savedCalls_objects mem md5 opts costeval visits save, split]
  simp

/-- What a call of a walk finds in the table. -/
theorem linkTarget_savedCalls {visits : List Visit} {save : Savear}
    (empty : save.dichardlinks = []) (fit : PathsFit (visitedPaths visits))
    {before after : List SaveCall} {call : SaveCall}
    (split : savedCalls mem md5 opts costeval visits save = before ++ call :: after) :
    linkTarget call.save call.st =
      if call.st.nlink > 1 then
        (firstWith SavedObject.key ((before.map SaveCall.toSavedObject).filter SavedObject.several)
          call.key).map SavedObject.relpath
      else none := by
  have start : Remembers save.dichardlinks [] := by
    rw [empty]
    exact remembers_nil
  have remembers := remembers_savedCalls start (by simpa using fit) split
  exact remembers.linkTarget (fit.before (savedObjects_split split)) call.st

/-- What a call finds in the table fits its buffer. -/
theorem linkTarget_fits {visits : List Visit} {save : Savear}
    (empty : save.dichardlinks = []) (fit : PathsFit (visitedPaths visits))
    {before after : List SaveCall} {call : SaveCall}
    (split : savedCalls mem md5 opts costeval visits save = before ++ call :: after) {target : Path}
    (found : linkTarget call.save call.st = some target) : target.length < pathMax ∧ 0 ∉ target := by
  rw [linkTarget_savedCalls empty fit split] at found
  split at found
  · obtain ⟨first, seen, rfl⟩ := Option.map_eq_some_iff.mp found
    have among := (List.mem_filter.mp (firstWith_some seen).1).1
    exact fit.before (savedObjects_split split) _ (List.mem_map_of_mem among)
  · cases found

/-- A file of a walk is stored as a hard link to the first one with its keys. -/
theorem storedAsLink_savedCalls {visits : List Visit} {save : Savear}
    (empty : save.dichardlinks = []) (fit : PathsFit (visitedPaths visits))
    {before after : List SaveCall} {call : SaveCall}
    (split : savedCalls mem md5 opts costeval visits save = before ++ call :: after)
    (isReg : call.st.fileType = .reg) (target : Path) :
    call.StoredAsLink opts target ↔ call.st.nlink > 1 ∧
      (firstWith SavedObject.key ((before.map SaveCall.toSavedObject).filter SavedObject.several)
        call.key).map SavedObject.relpath = some target := by
  have fitTarget (path : Path) (found : linkTarget call.save call.st = some path) :=
    linkTarget_fits empty fit split found
  rw [SaveCall.storedAsLink_iff isReg fitTarget, linkTarget_savedCalls empty fit split]
  by_cases more : call.st.nlink > 1 <;> simp [more]

/-- Hard links go by identity if and only if the keys of the table tell the same files apart. -/
theorem linkedByIdentity_savedCalls {visits : List Visit} {save : Savear}
    (empty : save.dichardlinks = []) (fit : PathsFit (visitedPaths visits))
    (once : (visitedPaths visits).Nodup) :
    LinkedByIdentity opts (savedCalls mem md5 opts costeval visits save) ↔
      ((savedObjects costeval visits).filter SavedObject.several).Pairwise
        (SameApart SavedObject.key SavedObject.identity) := by
  have distinct : (((savedObjects costeval visits).filter SavedObject.several).map
      SavedObject.relpath).Nodup :=
    (once.sublist (savedObjects_paths costeval visits)).sublist (List.filter_sublist.map _)
  rw [← firstWith_agree_iff SavedObject.key SavedObject.identity SavedObject.relpath distinct]
  constructor
  · intro linked before object after split
    rw [← @savedCalls_objects mem md5 opts costeval visits save] at split
    obtain ⟨front, back, splitObjects, rfl, rest⟩ := List.filter_eq_append_iff.mp split
    obtain ⟨skipped, behind, rfl, none, several, -⟩ := List.filter_eq_cons_iff.mp rest
    rw [← List.append_assoc] at splitObjects
    obtain ⟨calls, calls', splitCalls, before, rest'⟩ := List.map_eq_append_iff.mp splitObjects
    obtain ⟨call, later, rfl, rfl, -⟩ := List.map_eq_cons_iff.mp rest'
    have earlier : (front ++ skipped).filter SavedObject.several =
        front.filter SavedObject.several := by
      rw [List.filter_append, List.filter_eq_nil_iff.mpr none, List.append_nil]
    obtain ⟨notCurvol, isReg, more⟩ := SavedObject.several_iff.mp several
    refine Option.ext fun target => ?_
    have byKey := storedAsLink_savedCalls empty fit splitCalls isReg target
    have byIdentity := linked _ _ _ splitCalls isReg notCurvol target
    rw [byKey, before, earlier] at byIdentity
    simpa [more] using byIdentity
  · intro agree before call after split isReg notCurvol target
    rw [storedAsLink_savedCalls empty fit split isReg]
    by_cases more : call.st.nlink > 1
    · have several : call.several = true := SavedObject.several_iff.mpr ⟨notCurvol, isReg, more⟩
      have same := agree ((before.map SaveCall.toSavedObject).filter SavedObject.several)
        call.toSavedObject ((after.map SaveCall.toSavedObject).filter SavedObject.several)
        (by rw [savedObjects_split split, List.filter_append, List.filter_cons_of_pos several])
      rw [same]
    · simp [more]

/-- In every walk hard links go by identity if and only if, among the visited regular files with
several links, those that share `st_rdev` and `st_ino` are those that share `st_dev` and
`st_ino`. -/
theorem linkedByIdentity_iff (mem : Mem) (md5 : Md5) (opts : SaveOptions) (costeval : Bool)
    (save : Savear) (path : Path) (dir : DirCalls) (entries : DirStream)
    (wellNamed : entries.WellNamed) (fit : PathsFit (visitedPaths (treeVisits opts path dir entries))) :
    LinkedByIdentity opts
        (savedCalls mem md5 opts costeval (treeVisits opts path dir entries) (walkStart opts save)) ↔
      ((savedObjects costeval (treeVisits opts path dir entries)).filter
        SavedObject.several).Pairwise (SameApart SavedObject.key SavedObject.identity) :=
  linkedByIdentity_savedCalls rfl fit (treeVisits_nodup wellNamed)

end Identity

/-- An empty regular file with two links. -/
def linkedStat (dev : UInt64) : Stat :=
  { dev, mode := 0o100644, nlink := 2, uid := 0, gid := 0, rdev := 0, ino := 12, size := 0,
    blocks := 0, atime := 0, mtime := 0 }

/-- Calls that find no attributes, for a file that can be opened or not. -/
def emptyFileCalls (opens : Bool) : ObjectCalls :=
  { plainCalls with openFile := if opens then some fun _ _ => some [] else none }

/-- Two files with several links in the root directory, on these devices; the first one can be
opened or not. -/
def twoLinked (dev dev' : UInt64) (opens : Bool) : DirStream :=
  .entry [0x61] (some (linkedStat dev)) (emptyFileCalls opens) plainDirCalls .eof
    (.entry [0x62] (some (linkedStat dev')) (emptyFileCalls true) plainDirCalls .eof .eof)

/-- They are regular files. -/
theorem fileType_linkedStat (dev : UInt64) : (linkedStat dev).fileType = .reg := by
  have mode : (linkedStat dev).mode = 0o100644 := rfl
  unfold Stat.fileType
  rw [mode]
  decide

/-- The visits of the two files. -/
theorem treeVisits_twoLinked (dev dev' : UInt64) (opens : Bool) :
    treeVisits plainOptions [slash] plainDirCalls (twoLinked dev dev' opens) =
      [.object [slash] plainDirStat plainCalls,
        .object [slash, 0x61] (linkedStat dev) (emptyFileCalls opens),
        .object [slash, 0x62] (linkedStat dev') (emptyFileCalls true)] := by
  have paths : concatenatePaths [slash] [0x61] = [slash, 0x61] ∧
      concatenatePaths [slash] [0x62] = [slash, 0x62] := by decide
  simp [treeVisits, directoryVisits, twoLinked, entryVisits, objectVisits, fileType_linkedStat,
    plainDirCalls, plainOptions, paths]

/-- The two files have several links. -/
theorem several_twoLinked (dev dev' : UInt64) (opens : Bool) :
    (savedObjects false (treeVisits plainOptions [slash] plainDirCalls
      (twoLinked dev dev' opens))).filter SavedObject.several =
      [⟨[slash, 0x61], linkedStat dev, emptyFileCalls opens⟩,
        ⟨[slash, 0x62], linkedStat dev', emptyFileCalls true⟩] := by
  have isDir : plainDirStat.fileType = .dir := by decide
  have links (dev : UInt64) : (linkedStat dev).nlink > 1 := by
    have two : (linkedStat dev).nlink = 2 := rfl
    rw [two]
    decide
  simp [treeVisits_twoLinked, savedObjects, SavedObject.several, fileType_linkedStat, isDir, links,
    plainCalls, emptyFileCalls]

/-- Their paths fit. -/
theorem pathsFit_twoLinked (dev dev' : UInt64) (opens : Bool) : PathsFit (visitedPaths
    (treeVisits plainOptions [slash] plainDirCalls (twoLinked dev dev' opens))) := by
  have paths : visitedPaths (treeVisits plainOptions [slash] plainDirCalls (twoLinked dev dev' opens)) =
      [[slash], [slash, 0x61], [slash, 0x62]] := by rw [treeVisits_twoLinked]; rfl
  rw [paths]
  unfold PathsFit
  decide

/-- The two files have names of their own. -/
theorem wellNamed_twoLinked (dev dev' : UInt64) (opens : Bool) : (twoLinked dev dev' opens).WellNamed :=
  ⟨⟨by decide, by decide, by decide⟩, by simp [DirStream.names], trivial,
    ⟨by decide, by decide, by decide⟩, by simp [DirStream.names], trivial, trivial⟩

/-- Two files on one device are links to one file, and the second one is stored as such. -/
theorem linkedByIdentity_iff_one_device :
    LinkedByIdentity plainOptions (savedCalls plainMem plainMd5 plainOptions false
      (treeVisits plainOptions [slash] plainDirCalls (twoLinked 1 1 true))
      (walkStart plainOptions plainSavear)) := by
  apply (linkedByIdentity_iff plainMem plainMd5 plainOptions false plainSavear [slash] plainDirCalls
    (twoLinked 1 1 true) (wellNamed_twoLinked 1 1 true) (pathsFit_twoLinked 1 1 true)).mpr
  rw [several_twoLinked]
  exact List.pairwise_pair.mpr ⟨fun _ => rfl, fun _ => rfl⟩

/-- Two files on different devices with the same inode number: the second one is stored as a
link to the first. -/
theorem linked_across_devices :
    ¬LinkedByIdentity plainOptions (savedCalls plainMem plainMd5 plainOptions false
      (treeVisits plainOptions [slash] plainDirCalls (twoLinked 1 2 true))
      (walkStart plainOptions plainSavear)) := by
  rw [linkedByIdentity_savedCalls rfl (pathsFit_twoLinked 1 2 true)
    (treeVisits_nodup (wellNamed_twoLinked 1 2 true)), several_twoLinked]
  intro pairwise
  have same := (List.pairwise_pair.mp pairwise).mp rfl
  exact absurd same (by decide)

end FsArchiver
