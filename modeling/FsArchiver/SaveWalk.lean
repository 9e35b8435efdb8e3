import Mathlib.Data.List.TakeWhile
import FsArchiver.OperSave

/-!
# The walk of a directory tree

What `createar_save_directory` does with a tree is a list of visits in order: one call of
`createar_save_file` after the other, and the end of the walk where `lstat64` fails. The visits
do not depend on what the calls do, so that a property of a walk is a property of a list. The
paths of the visits are the names on the way to the objects, with a slash in front of each.
-/
namespace FsArchiver

/-! ## Visits -/

/-- One step of a walk. -/
inductive Visit where
  /-- `createar_save_file` is called for an object. -/
  | object (relpath : Path) (st : Stat) (calls : ObjectCalls)
  /-- `lstat64` fails, which ends the walk. -/
  | stop

/-- The path of the object that is visited. -/
def Visit.path? : Visit → Option Path
  | .object relpath _ _ => some relpath
  | .stop => none

/-- The visits of a directory, given those of its entries. -/
def directoryVisits (path : Path) (dir : DirCalls) (inside : List Visit) : List Visit :=
  if !dir.opendir then []
  else
    match dir.lstat with
    | none => [.stop]
    | some statbuf => .object path statbuf dir.calls :: inside

/-- The visits of an entry that is not excluded. -/
def objectVisits (relpath : Path) (statbuf : Stat) (calls : ObjectCalls) (dir : DirCalls)
    (inside : List Visit) : List Visit :=
  if statbuf.fileType = .dir then directoryVisits relpath dir inside
  else [.object relpath statbuf calls]

/-- The visits of the entries of the directory at a path. -/
def entryVisits (opts : SaveOptions) (path : Path) : DirStream → List Visit
  | .eof => []
  | .entry name lstat calls dir sub rest =>
    let relpath := concatenatePaths path name
    let onward := entryVisits opts path rest
    match lstat with
    | none => if opts.allowsaverw then onward else [.stop]
    | some statbuf =>
      if opts.exclude name || opts.exclude relpath then onward
      else
        objectVisits relpath statbuf calls dir (entryVisits opts relpath sub) ++ onward

section Run

variable (mem : Mem) (md5 : Md5) (opts : SaveOptions) (costeval : Bool)

/-- The visits one after the other, up to the first that fails. -/
def saveVisits : List Visit → Savear → Bool × Savear
  | [], save => (true, save)
  | .stop :: _, save => (false, save)
  | .object relpath st calls :: rest, save =>
    match createarSaveFile mem md5 opts save relpath st calls costeval with
    | (false, save) => (false, save)
    | (true, save) => saveVisits rest save

variable {mem md5 opts costeval}

/-- Visits in two parts. -/
theorem saveVisits_append (first second : List Visit) (save : Savear) :
    saveVisits mem md5 opts costeval (first ++ second) save =
      match saveVisits mem md5 opts costeval first save with
      | (false, save) => (false, save)
      | (true, save) => saveVisits mem md5 opts costeval second save := by
  induction first generalizing save with
  | nil => rfl
  | cons visit first ih =>
    cases visit with
    | stop => rfl
    | object relpath st calls =>
      simp only [List.cons_append, saveVisits]
      cases saved : createarSaveFile mem md5 opts save relpath st calls costeval with
      | mk ok save' =>
        cases ok with
        | false => rfl
        | true => exact ih save'

/-- A directory is saved by its visits, if its entries are. -/
theorem createarSaveDirectory_eq {loop : Savear → Bool × Savear} {inside : List Visit}
    (entries : ∀ save, loop save = saveVisits mem md5 opts costeval inside save) (save : Savear)
    (path : Path) (dir : DirCalls) :
    createarSaveDirectory mem md5 opts costeval loop save path dir =
      saveVisits mem md5 opts costeval (directoryVisits path dir inside) save := by
  unfold createarSaveDirectory directoryVisits
  cases dir.opendir with
  | false => rfl
  | true =>
    cases dir.lstat with
    | none => rfl
    | some statbuf =>
      simp only [Bool.not_true, Bool.false_eq_true, ↓reduceIte, saveVisits]
      cases createarSaveFile mem md5 opts save path statbuf dir.calls costeval with
      | mk ok save' =>
        cases ok with
        | false => rfl
        | true => exact entries save'

/-- The loop over the entries of a directory makes their visits. -/
theorem saveEntries_eq (path : Path) (stream : DirStream) (save : Savear) :
    saveEntries mem md5 opts costeval path stream save =
      saveVisits mem md5 opts costeval (entryVisits opts path stream) save := by
  induction stream generalizing path save with
  | eof => rfl
  | entry name lstat calls dir sub rest ihSub ihRest =>
    cases lstat with
    | none =>
      simp only [saveEntries, entryVisits]
      split
      · exact ihRest path save
      · rfl
    | some statbuf =>
      simp only [saveEntries, entryVisits]
      split
      · exact ihRest path save
      · rw [saveVisits_append, objectVisits]
        by_cases isDir : statbuf.fileType = .dir
        · rw [if_pos isDir, if_pos isDir, createarSaveDirectory_eq (ihSub _)]
          cases saveVisits mem md5 opts costeval (directoryVisits (concatenatePaths path name) dir
              (entryVisits opts (concatenatePaths path name) sub)) save with
          | mk ok save' =>
            cases ok with
            | false => rfl
            | true => exact ihRest path save'
        · rw [if_neg isDir, if_neg isDir, saveVisits]
          cases createarSaveFile mem md5 opts save (concatenatePaths path name) statbuf calls
              costeval with
          | mk ok save' =>
            cases ok with
            | false => rfl
            | true => exact ihRest path save'

end Run

/-- The visits of a whole tree. -/
def treeVisits (opts : SaveOptions) (path : Path) (dir : DirCalls) (entries : DirStream) :
    List Visit :=
  directoryVisits path dir (entryVisits opts path entries)

/-- The state in which `createar_save_directory_wrapper` starts its walk. -/
def walkStart (opts : SaveOptions) (save : Savear) : Savear :=
  { save with dichardlinks := [], regmulti := regmultiInit opts.datablocksize }

/-- `createar_save_directory_wrapper` makes the visits of the tree and puts the last pack on the
queue. -/
theorem createarSaveDirectoryWrapper_eq (mem : Mem) (md5 : Md5) (opts : SaveOptions)
    (costeval : Bool) (save : Savear) (path : Path) (dir : DirCalls) (entries : DirStream) :
    createarSaveDirectoryWrapper mem md5 opts costeval save path dir entries =
      let walked := saveVisits mem md5 opts costeval (treeVisits opts path dir entries)
        (walkStart opts save)
      let queued := regmultiSaveEnqueue mem walked.2.regmulti walked.2.fsid
      (walked.1 && queued.2, walked.2.push queued.1) := by
  simp only [createarSaveDirectoryWrapper, treeVisits, walkStart,
    createarSaveDirectory_eq (saveEntries_eq path entries)]

/-! ## Paths of visits -/

/-- A name as `readdir` gives it. -/
structure IsName (name : Path) : Prop where
  nonempty : name ≠ []
  noSlash : slash ∉ name
  noNul : 0 ∉ name

/-- The names on the way to an object, with a slash in front of each. -/
def joined (names : List Path) : Path := names.flatMap (slash :: ·)

/-- A path without one trailing slash. -/
def trimmed (path : Path) : Path := if path.getLast? = some slash then path.dropLast else path

@[simp] theorem joined_nil : joined [] = [] := rfl

@[simp] theorem joined_cons (name : Path) (names : List Path) :
    joined (name :: names) = slash :: name ++ joined names := rfl

@[simp] theorem joined_append (names names' : List Path) :
    joined (names ++ names') = joined names ++ joined names' := List.flatMap_append

/-- The path of an entry of a directory. -/
theorem concatenatePaths_name (path : Path) {name : Path} (isName : IsName name) :
    concatenatePaths path name = trimmed path ++ joined [name] := by
  have kept : name.dropWhile (· = slash) = name := by
    cases name with
    | nil => rfl
    | cons first rest =>
      have other : first ≠ slash := fun same => isName.noSlash (same ▸ List.mem_cons_self)
      rw [List.dropWhile_cons_of_neg (by simpa using other)]
  simp only [concatenatePaths, trimmed, kept, joined_cons, joined_nil, List.append_nil]

/-- The path of an object does not end with a slash. -/
theorem trimmed_joined (path : Path) {names : List Path} (areNames : ∀ name ∈ names, IsName name)
    (nonempty : names ≠ []) : trimmed (path ++ joined names) = path ++ joined names := by
  obtain ⟨before, name, rfl⟩ := List.eq_nil_or_concat names |>.resolve_left nonempty
  have isName := areNames name (by simp)
  obtain ⟨front, last, rfl⟩ := List.eq_nil_or_concat name |>.resolve_left isName.nonempty
  have other : last ≠ slash := fun same => isName.noSlash (by simp [same])
  have ends : path ++ joined (before ++ [front ++ [last]]) =
      (path ++ joined before ++ slash :: front) ++ [last] := by simp
  unfold trimmed
  rw [List.concat_eq_append, List.concat_eq_append, ends, List.getLast?_concat, if_neg]
  simpa using other

/-- The name in front is read off the joined names. -/
theorem takeWhile_joined {name : Path} (isName : IsName name) (names : List Path) :
    (name ++ joined names).takeWhile (· ≠ slash) = name := by
  have own : name.takeWhile (· ≠ slash) = name := by
    refine List.takeWhile_eq_self_iff.mpr fun char member => ?_
    have other : char ≠ slash := fun same => isName.noSlash (same ▸ member)
    simpa using other
  rw [List.takeWhile_append, own, if_pos rfl]
  cases names with
  | nil => simp
  | cons next names => simp

/-- Different names give different paths. -/
theorem joined_injective {names names' : List Path} (areNames : ∀ name ∈ names, IsName name)
    (areNames' : ∀ name ∈ names', IsName name) (same : joined names = joined names') :
    names = names' := by
  induction names generalizing names' with
  | nil =>
    cases names' with
    | nil => rfl
    | cons name' names' => simp at same
  | cons name names ih =>
    cases names' with
    | nil => simp at same
    | cons name' names' =>
      simp only [joined_cons, List.cons_append, List.cons.injEq, true_and] at same
      have first : name = name' := by
        rw [← takeWhile_joined (areNames name List.mem_cons_self) names, same,
          takeWhile_joined (areNames' name' List.mem_cons_self) names']
      subst first
      rw [ih (fun name member => areNames name (List.mem_cons_of_mem _ member))
        (fun name member => areNames' name (List.mem_cons_of_mem _ member))
        (List.append_cancel_left same)]

namespace DirStream

/-- The names of the entries. -/
def names : DirStream → List Path
  | .eof => []
  | .entry name _ _ _ _ rest => name :: rest.names

/-- The entries of each directory have names of their own. -/
def WellNamed : DirStream → Prop
  | .eof => True
  | .entry name _ _ _ sub rest => IsName name ∧ name ∉ rest.names ∧ sub.WellNamed ∧ rest.WellNamed

end DirStream

/-- The paths that are visited. -/
def visitedPaths (visits : List Visit) : List Path := visits.filterMap Visit.path?

@[simp] theorem visitedPaths_append (first second : List Visit) :
    visitedPaths (first ++ second) = visitedPaths first ++ visitedPaths second :=
  List.filterMap_append

/-- The visits of an entry are its own, those inside, and the end of the walk. -/
theorem path_of_objectVisits {relpath relpath' : Path} {statbuf : Stat} {calls : ObjectCalls}
    {dir : DirCalls} {inside : List Visit}
    (member : relpath' ∈ visitedPaths (objectVisits relpath statbuf calls dir inside)) :
    relpath' = relpath ∨ relpath' ∈ visitedPaths inside := by
  unfold objectVisits directoryVisits at member
  by_cases isDir : statbuf.fileType = .dir
  · rw [if_pos isDir] at member
    cases opened : dir.opendir with
    | false => simp [opened, visitedPaths] at member
    | true =>
      cases lstat : dir.lstat with
      | none => simp [opened, lstat, visitedPaths, Visit.path?] at member
      | some statbuf' =>
        simpa [opened, lstat, visitedPaths, Visit.path?] using member
  · rw [if_neg isDir] at member
    exact .inl (by simpa [visitedPaths, Visit.path?] using member)

/-- A visited path is one of an entry that is not excluded, or of one behind it. -/
theorem path_of_entryVisits_entry {opts : SaveOptions} {path name : Path} {lstat : Option Stat}
    {calls : ObjectCalls} {dir : DirCalls} {sub rest : DirStream} {relpath : Path}
    (member : relpath ∈ visitedPaths (entryVisits opts path (.entry name lstat calls dir sub rest))) :
    relpath = concatenatePaths path name ∨
      relpath ∈ visitedPaths (entryVisits opts (concatenatePaths path name) sub) ∨
      relpath ∈ visitedPaths (entryVisits opts path rest) := by
  cases lstat with
  | none =>
    simp only [entryVisits] at member
    split at member
    · exact .inr (.inr member)
    · simp [visitedPaths, Visit.path?] at member
  | some statbuf =>
    simp only [entryVisits] at member
    split at member
    · exact .inr (.inr member)
    · rw [visitedPaths_append, List.mem_append] at member
      rcases member with member | member
      · exact (path_of_objectVisits member).imp_right .inl
      · exact .inr (.inr member)

/-- The path of an entry without the directory it is in. -/
theorem path_of_entryVisits {opts : SaveOptions} {path : Path} {stream : DirStream}
    (wellNamed : stream.WellNamed) :
    ∀ relpath ∈ visitedPaths (entryVisits opts path stream), ∃ name names,
      (∀ name' ∈ name :: names, IsName name') ∧ name ∈ stream.names ∧
        relpath = trimmed path ++ joined (name :: names) := by
  induction stream generalizing path with
  | eof => simp [entryVisits, visitedPaths]
  | entry name lstat calls dir sub rest ihSub ihRest =>
    obtain ⟨isName, -, namedSub, namedRest⟩ := wellNamed
    have own : concatenatePaths path name = trimmed path ++ joined [name] :=
      concatenatePaths_name path isName
    intro relpath member
    rcases path_of_entryVisits_entry member with same | member | member
    · exact ⟨name, [], by simpa using isName, List.mem_cons_self, same.trans own⟩
    · obtain ⟨first, names, areNames, -, same⟩ := ihSub namedSub relpath member
      rw [own, trimmed_joined _ (by simpa using isName) (by simp)] at same
      refine ⟨name, first :: names, ?_, List.mem_cons_self, by simpa using same⟩
      intro name' among
      rcases List.mem_cons.mp among with rfl | among
      · exact isName
      · exact areNames name' among
    · obtain ⟨first, names, areNames, among, same⟩ := ihRest namedRest relpath member
      exact ⟨first, names, areNames, List.mem_cons_of_mem _ among, same⟩

/-- An entry is not visited again behind it or inside it. -/
theorem path_of_objectVisits_nodup {relpath : Path} {statbuf : Stat} {calls : ObjectCalls}
    {dir : DirCalls} {inside : List Visit} (fresh : relpath ∉ visitedPaths inside)
    (once : (visitedPaths inside).Nodup) :
    (visitedPaths (objectVisits relpath statbuf calls dir inside)).Nodup := by
  unfold objectVisits directoryVisits
  by_cases isDir : statbuf.fileType = .dir
  · rw [if_pos isDir]
    cases dir.opendir with
    | false => exact List.nodup_nil
    | true =>
      cases dir.lstat with
      | none => exact List.nodup_nil
      | some statbuf' => exact List.nodup_cons.mpr ⟨fresh, once⟩
  · rw [if_neg isDir]
    exact List.nodup_singleton relpath

/-- No path is visited twice below a directory. -/
theorem entryVisits_nodup {opts : SaveOptions} {path : Path} {stream : DirStream}
    (wellNamed : stream.WellNamed) : (visitedPaths (entryVisits opts path stream)).Nodup := by
  induction stream generalizing path with
  | eof => exact List.nodup_nil
  | entry name lstat calls dir sub rest ihSub ihRest =>
    obtain ⟨isName, apart, namedSub, namedRest⟩ := wellNamed
    have own : concatenatePaths path name = trimmed path ++ joined [name] :=
      concatenatePaths_name path isName
    have inside : ∀ relpath ∈ visitedPaths (entryVisits opts (concatenatePaths path name) sub),
        ∃ first names, (∀ name' ∈ name :: first :: names, IsName name') ∧
          relpath = trimmed path ++ joined (name :: first :: names) := by
      intro relpath member
      obtain ⟨first, names, areNames, -, same⟩ := path_of_entryVisits namedSub relpath member
      rw [own, trimmed_joined _ (by simpa using isName) (by simp)] at same
      exact ⟨first, names, List.forall_mem_cons.mpr ⟨isName, areNames⟩, by simpa using same⟩
    -- the paths of an entry start with its name, those behind it with another one
    have later : ∀ relpath ∈ visitedPaths (entryVisits opts path rest), ∀ names,
        (∀ name' ∈ name :: names, IsName name') →
        relpath ≠ trimmed path ++ joined (name :: names) := by
      intro relpath member names areNames same
      obtain ⟨first, names', areNames', among, same'⟩ := path_of_entryVisits namedRest relpath member
      have equal := joined_injective areNames areNames'
        (List.append_cancel_left (same.symm.trans same'))
      exact apart ((List.cons.inj equal).1 ▸ among)
    have fresh : concatenatePaths path name ∉
        visitedPaths (entryVisits opts (concatenatePaths path name) sub) := by
      intro member
      obtain ⟨first, names, areNames, same⟩ := inside _ member
      rw [own] at same
      have equal := joined_injective (by simpa using isName) areNames (List.append_cancel_left same)
      simp at equal
    cases lstat with
    | none =>
      simp only [entryVisits]
      split
      · exact ihRest namedRest
      · exact List.nodup_nil
    | some statbuf =>
      simp only [entryVisits]
      split
      · exact ihRest namedRest
      · rw [visitedPaths_append]
        refine List.nodup_append.mpr
          ⟨path_of_objectVisits_nodup fresh (ihSub namedSub), ihRest namedRest, ?_⟩
        rintro relpath member relpath' behind rfl
        rcases path_of_objectVisits member with same | member
        · exact later relpath behind [] (by simpa using isName) (same.trans own)
        · obtain ⟨first, names, areNames, same⟩ := inside relpath member
          exact later relpath behind (first :: names) areNames same

/-- No path is visited twice in a walk. -/
theorem treeVisits_nodup {opts : SaveOptions} {path : Path} {dir : DirCalls} {entries : DirStream}
    (wellNamed : entries.WellNamed) : (visitedPaths (treeVisits opts path dir entries)).Nodup := by
  have once := @entryVisits_nodup opts path entries wellNamed
  unfold treeVisits directoryVisits
  cases dir.opendir with
  | false => exact List.nodup_nil
  | true =>
    cases dir.lstat with
    | none => exact List.nodup_nil
    | some statbuf =>
      refine List.nodup_cons.mpr ⟨fun member => ?_, once⟩
      obtain ⟨name, names, areNames, -, same⟩ := path_of_entryVisits wellNamed path member
      -- the path of the directory is at most one slash longer than what the entries share
      have isName := List.length_pos_iff.mpr (areNames name List.mem_cons_self).nonempty
      have long := congrArg List.length same
      have short : path.length ≤ (trimmed path).length + 1 := by
        unfold trimmed
        split
        · rw [List.length_dropLast]
          omega
        · omega
      simp only [List.length_append, joined_cons, List.length_cons] at long
      omega

end FsArchiver
