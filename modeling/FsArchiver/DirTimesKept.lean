import FsArchiver.DirTimes
import FsArchiver.ExcludedCounts

/-!
# Directory times survive

The walk visits a directory before what is inside it, and directories never wait for a pack, so
that the archive has every object behind its parent directory. When an object is restored, its
parent directory is there and keeps its time, and so do all directories that were restored before.
Only the root is given the time of its own header for nothing: its parent directory is the root
itself, which gets the time back that it had before.
-/
namespace FsArchiver

open Lib

/-! ## Directories of a walk -/

/-- What was opened as a directory is one when it is looked at again. -/
def DirCalls.IsDir (dir : DirCalls) : Prop := ∀ st, dir.lstat = some st → st.fileType = .dir

/-- So it is for all directories below a directory. -/
def DirStream.DirsStay : DirStream → Prop
  | .eof => True
  | .entry _ lstat _ dir sub rest =>
    (∀ st, lstat = some st → st.fileType = .dir → dir.IsDir) ∧ sub.DirsStay ∧ rest.DirsStay

/-- Every object is visited behind its parent directory, unless that one was seen before. -/
def ParentsFirst : List Path → List Visit → Prop
  | _, [] => True
  | seen, .stop :: rest => ParentsFirst seen rest
  | seen, .object relpath st _ :: rest =>
    extractDirpath relpath ∈ seen ∧
      ParentsFirst (if st.fileType = .dir then relpath :: seen else seen) rest

theorem ParentsFirst.mono {visits : List Visit} {seen more : List Path}
    (first : ParentsFirst seen visits) (wider : seen ⊆ more) : ParentsFirst more visits := by
  induction visits generalizing seen more with
  | nil => trivial
  | cons visit rest ih =>
    cases visit with
    | stop => exact @ih seen more first wider
    | object relpath st calls =>
      refine ⟨wider first.1, ih first.2 ?_⟩
      split
      · exact List.cons_subset_cons relpath wider
      · exact wider

theorem ParentsFirst.append {visits visits' : List Visit} {seen : List Path}
    (first : ParentsFirst seen visits) (second : ParentsFirst seen visits') :
    ParentsFirst seen (visits ++ visits') := by
  induction visits generalizing seen with
  | nil => exact second
  | cons visit rest ih =>
    cases visit with
    | stop => exact ih first second
    | object relpath st calls =>
      refine ⟨first.1, ih first.2 (second.mono ?_)⟩
      split
      · exact List.subset_cons_self relpath seen
      · exact List.Subset.refl seen

/-- The path of a directory as its entries have it. -/
def entriesDir (path : Path) : Path := if trimmed path = [] then [slash] else trimmed path

/-- The parent directory of an entry. -/
theorem extractDirpath_entry (path : Path) {name : Path} (isName : IsName name) :
    extractDirpath (concatenatePaths path name) = entriesDir path := by
  rw [concatenatePaths_name path isName, joined_cons, joined_nil, List.append_nil]
  exact extractDirpath_split isName.noSlash (trimmed path)

/-- An entry that is a directory has its own path as its entries have it. -/
theorem entriesDir_entry (path : Path) {name : Path} (isName : IsName name) :
    entriesDir (concatenatePaths path name) = concatenatePaths path name := by
  have single : ∀ name' ∈ [name], IsName name' := by simpa using isName
  unfold entriesDir
  rw [concatenatePaths_name path isName, trimmed_joined (trimmed path) single (by simp), if_neg]
  simp

/-- The visits of the entries of a directory that was visited. -/
theorem parentsFirst_entries {opts : SaveOptions} {stream : DirStream} (wellNamed : stream.WellNamed)
    (stay : stream.DirsStay) {path : Path} {seen : List Path} (visited : entriesDir path ∈ seen) :
    ParentsFirst seen (entryVisits opts path stream) := by
  induction stream generalizing path seen with
  | eof => trivial
  | entry name lstat calls dir sub rest ihSub ihRest =>
    obtain ⟨isName, -, namedSub, namedRest⟩ := wellNamed
    obtain ⟨isDir, staySub, stayRest⟩ := stay
    have onward : ParentsFirst seen (entryVisits opts path rest) := ihRest namedRest stayRest visited
    have parent : extractDirpath (concatenatePaths path name) ∈ seen := by
      rw [extractDirpath_entry path isName]
      exact visited
    cases lstat with
    | none =>
      simp only [entryVisits]
      split
      · exact onward
      · trivial
    | some statbuf =>
      simp only [entryVisits]
      split
      · exact onward
      refine ParentsFirst.append ?_ onward
      unfold objectVisits directoryVisits
      by_cases type : statbuf.fileType = .dir
      · rw [if_pos type]
        cases dir.opendir with
        | false => trivial
        | true =>
          cases again : dir.lstat with
          | none => trivial
          | some statbuf' =>
            refine ⟨parent, ?_⟩
            rw [if_pos (isDir statbuf rfl type statbuf' again)]
            apply ihSub namedSub staySub
            rw [entriesDir_entry path isName]
            exact List.mem_cons_self
      · rw [if_neg type]
        exact ⟨parent, trivial⟩

/-- The visits of a tree. -/
theorem parentsFirst_tree (opts : SaveOptions) {dir : DirCalls} {entries : DirStream}
    (wellNamed : entries.WellNamed) (stay : entries.DirsStay) :
    ParentsFirst [[slash]] (treeVisits opts [slash] dir entries) := by
  have inside : ParentsFirst [[slash]] (entryVisits opts [slash] entries) :=
    parentsFirst_entries wellNamed stay List.mem_cons_self
  unfold treeVisits directoryVisits
  cases dir.opendir with
  | false => trivial
  | true =>
    cases dir.lstat with
    | none => trivial
    | some statbuf =>
      refine ⟨List.mem_cons_self, inside.mono ?_⟩
      split
      · exact List.subset_cons_self _ _
      · exact List.Subset.refl _

/-! ## Directories of an archive -/

/-- Every object is behind its parent directory, but for those right below the root. -/
def Rooted (objs : List SavedObj) : Prop :=
  ∀ obj ∈ objs, extractDirpath obj.relpath = [slash] ∨
    ∃ dir : SavedObj, dir.objtype = .dir ∧ dir.relpath = extractDirpath obj.relpath ∧
      [dir, obj].Sublist objs

/-- Directories never wait for a pack. -/
theorem SameOrder.rooted {objs objs' : List SavedObj} (same : SameOrder objs objs')
    (rooted : Rooted objs') : Rooted objs := by
  intro obj member
  rcases rooted obj (same.perm.mem_iff.mp member) with top | ⟨dir, type, path, behind⟩
  · exact .inl top
  · have large : dir.small = false := by
      unfold SavedObj.small
      rw [type]
      rfl
    exact .inr ⟨dir, type, path, same.behind dir obj large behind⟩

/-- The objects of a walk, when all of them are saved. -/
theorem ParentsFirst.objects {mem : Mem} {md5 : Md5} {opts : SaveOptions} {visits : List Visit}
    {save : Savear} {seen : List Path} (first : ParentsFirst seen visits)
    (saved : ∀ call ∈ savedCalls mem md5 opts false visits save, ∃ obj, call.object md5 opts = some obj) :
    let objs := (savedCalls mem md5 opts false visits save).filterMap (SaveCall.object md5 opts)
    ∀ obj ∈ objs, extractDirpath obj.relpath ∈ seen ∨
      ∃ dir : SavedObj, dir.objtype = .dir ∧ dir.relpath = extractDirpath obj.relpath ∧
        [dir, obj].Sublist objs := by
  induction visits generalizing save seen with
  | nil => simp [savedCalls]
  | cons visit rest ih =>
    cases visit with
    | stop => simp [savedCalls]
    | object relpath st calls =>
      intro objs obj member
      let call : SaveCall := ⟨⟨relpath, st, calls⟩, save⟩
      obtain ⟨after, whole, onward⟩ : ∃ after,
          savedCalls mem md5 opts false (.object relpath st calls :: rest) save = call :: after ∧
          (after = [] ∨ ∃ save', after = savedCalls mem md5 opts false rest save') := by
        refine ⟨_, rfl, ?_⟩
        split
        · exact .inl rfl
        · exact .inr ⟨_, rfl⟩
      rw [whole] at saved
      obtain ⟨own, object⟩ := saved call List.mem_cons_self
      obtain ⟨path, -, type, -⟩ := SaveCall.fields_of_object object
      have list : objs = own :: after.filterMap (SaveCall.object md5 opts) := by
        unfold objs
        rw [whole, List.filterMap_cons_some object]
      rw [list] at member ⊢
      rcases List.mem_cons.mp member with rfl | member
      · rw [path]
        exact .inl first.1
      · rcases onward with rfl | ⟨save', rfl⟩
        · cases member
        · have later := ih first.2 (fun call member => saved call (List.mem_cons_of_mem _ member))
            obj member
          rcases later with known | ⟨dir, isDir, above, behind⟩
          · split at known
            next directory =>
              rcases List.mem_cons.mp known with same | known
              · refine .inr ⟨own, ?_, path.trans same.symm, ?_⟩
                · rw [type]
                  unfold objectType
                  rw [show call.st.fileType = .dir from directory]
                · exact (List.singleton_sublist.mpr member).cons_cons own
              · exact .inl known
            next => exact .inl known
          · exact .inr ⟨dir, isDir, above, behind.cons own⟩

/-! ## Paths below the destination -/

/-- The path of an object other than the root. -/
inductive Named : Path → Prop
  | top {name : Path} (isName : IsName name) : Named (slash :: name)
  | inside {path name : Path} (above : Named path) (isName : IsName name) :
      Named (path ++ slash :: name)

variable {path : Path}

/-- Names with a slash in front of each. -/
theorem named_joined {names : List Path} (areNames : ∀ name ∈ names, IsName name)
    (nonempty : names ≠ []) : Named (joined names) := by
  induction names using List.reverseRecOn with
  | nil => exact absurd rfl nonempty
  | append_singleton names name ih =>
    have isName : IsName name := areNames name (by simp)
    rw [joined_append, joined_cons, joined_nil, List.append_nil]
    by_cases first : names = []
    · rw [first]
      exact .top isName
    · exact .inside (ih (fun name member => areNames name (List.mem_append_left _ member)) first) isName

namespace Named

/-- There is one slash in front. -/
theorem front (named : Named path) : ∃ char rest, path = slash :: char :: rest ∧ char ≠ slash := by
  induction named with
  | @top name isName =>
    cases name with
    | nil => exact absurd rfl isName.nonempty
    | cons char rest =>
      exact ⟨char, rest, rfl, fun same => isName.noSlash (same ▸ List.mem_cons_self)⟩
  | @inside path name above isName ih =>
    obtain ⟨char, rest, rfl, other⟩ := ih
    exact ⟨char, rest ++ slash :: name, rfl, other⟩

/-- It ends with a name. -/
theorem split (named : Named path) : ∃ before name, path = before ++ slash :: name ∧ IsName name := by
  cases named with
  | @top name isName => exact ⟨[], name, rfl, isName⟩
  | @inside above name _ isName => exact ⟨above, name, rfl, isName⟩

/-- Where an object is restored. -/
theorem concatenatePaths_eq (named : Named path) (destdir : Path) :
    concatenatePaths destdir path = trimmed destdir ++ path := by
  obtain ⟨char, rest, rfl, other⟩ := named.front
  unfold concatenatePaths trimmed
  rw [List.dropWhile_cons_of_pos (by simp), List.dropWhile_cons_of_neg (by simpa using other)]

/-- Where a directory is that has a name. -/
theorem dirPlace_eq (named : Named path) (before : Path) :
    dirPlace (before ++ path) = before ++ path := by
  obtain ⟨above, name, rfl, isName⟩ := named.split
  obtain ⟨chars, char, rfl⟩ := List.eq_nil_or_concat name |>.resolve_left isName.nonempty
  have other : char ≠ slash := fun same => isName.noSlash (by simp [same])
  have ends : before ++ (above ++ slash :: chars.concat char) =
      (before ++ (above ++ slash :: chars)) ++ [char] := by simp
  unfold dirPlace
  rw [ends]
  exact List.rdropWhile_concat_neg _ _ _ (by simpa using other)

/-- The parent directory of an object has a shorter path. -/
theorem length_parent_lt (named : Named path) (before : Path) :
    (extractDirpath (before ++ path)).length < (before ++ path).length := by
  obtain ⟨above, name, rfl, isName⟩ := named.split
  have positive := List.length_pos_iff.mpr isName.nonempty
  rw [← List.append_assoc, extractDirpath_split isName.noSlash, List.length_append,
    List.length_cons]
  split
  · rw [List.length_singleton]
    omega
  · omega

/-- The parent directory of an object right below the root. -/
theorem parent_top (named : Named path) (top : extractDirpath path = [slash]) (before : Path) :
    extractDirpath (before ++ path) = if before = [] then [slash] else before := by
  cases named with
  | top isName => exact extractDirpath_split isName.noSlash before
  | inside above isName =>
    obtain ⟨char, rest, rfl, -⟩ := above.front
    rw [extractDirpath_split isName.noSlash] at top
    cases top

/-- The parent directory of any other object. -/
theorem parent_inside (named : Named path) (further : extractDirpath path ≠ [slash]) (before : Path) :
    Named (extractDirpath path) ∧ extractDirpath (before ++ path) = before ++ extractDirpath path := by
  cases named with
  | top isName => exact absurd (extractDirpath_split isName.noSlash []) further
  | inside above isName =>
    obtain ⟨char, rest, rfl, -⟩ := above.front
    have own := extractDirpath_split isName.noSlash (slash :: char :: rest)
    rw [if_neg (List.cons_ne_nil _ _)] at own
    rw [own]
    refine ⟨above, ?_⟩
    rw [← List.append_assoc, extractDirpath_split isName.noSlash, if_neg (by simp)]

end Named

/-- The path of a directory is not longer than what it is called. -/
theorem length_dirPlace_le (path : Path) : (dirPlace path).length ≤ path.length :=
  (List.rdropWhile_prefix _ _).length_le

/-- A slash behind it does not matter. -/
theorem dirPlace_slash (path : Path) : dirPlace (path ++ [slash]) = dirPlace path :=
  List.rdropWhile_concat_pos _ _ _ (by simp)

/-- Where the root is restored. -/
theorem concatenatePaths_root (destdir : Path) :
    concatenatePaths destdir [slash] = trimmed destdir ++ [slash] := rfl

theorem extractDirpath_root (before : Path) :
    extractDirpath (before ++ [slash]) = if before = [] then [slash] else before :=
  extractDirpath_split List.not_mem_nil before

/-- The root is the destination. -/
theorem dirPlace_root (destdir : Path) : dirPlace (trimmed destdir ++ [slash]) = dirPlace destdir := by
  rw [dirPlace_slash]
  unfold trimmed
  split
  next ends =>
    obtain ⟨front, rfl⟩ := List.getLast?_eq_some_iff.mp ends
    rw [List.dropLast_concat, dirPlace_slash]
  next => rfl

/-- And so is its parent directory. -/
theorem dirPlace_above_root (destdir : Path) :
    dirPlace (extractDirpath (trimmed destdir ++ [slash])) = dirPlace destdir := by
  rw [extractDirpath_root]
  split
  next none =>
    have place := dirPlace_root destdir
    rw [none] at place
    exact place
  next => exact (dirPlace_slash _).symm.trans (dirPlace_root destdir)

/-- An object with a name is at another place than the root. -/
theorem Named.apart_from_root (named : Named path) (destdir : Path) :
    dirPlace destdir ≠ dirPlace (trimmed destdir ++ path) := by
  intro same
  have short := length_dirPlace_le (trimmed destdir)
  have place := (dirPlace_slash (trimmed destdir)).symm.trans (dirPlace_root destdir)
  rw [named.dirPlace_eq, ← place] at same
  obtain ⟨char, rest, rfl, -⟩ := named.front
  have long := congrArg List.length same
  rw [List.length_append, List.length_cons] at long
  omega

/-! ## One object after the other -/

variable {ctx : Context} {clock : Clock} {obj : SavedObj} {done rest objs : List SavedObj}
  {log log' : Log} {start : UInt64}

/-- The directory has the modification time that its own header says. -/
def SavedObj.TimeKept (obj : SavedObj) (ctx : Context) (clock : Clock) (log : Log) : Prop :=
  dicoGetU64 ctx.mem obj.d Section.stdattr ItemKey.mtime =
    some (mtimeAt clock (dirPlace (obj.fullpath ctx)) log)

/-- The objects of a tree, in the order of an archive. -/
structure Treelike (ctx : Context) (objs : List SavedObj) : Prop where
  wellMade : ∀ obj ∈ objs, obj.WellMade
  /-- The root is a directory, and all else has a name. -/
  shape : ∀ obj ∈ objs, obj.relpath = [slash] ∧ obj.objtype = .dir ∨ Named obj.relpath
  apart : (fullpaths ctx objs).Nodup
  rooted : Rooted objs

/-- What holds when some objects are restored: their directories are there and have their times,
and the destination has the time that it had before. -/
structure DirsKept (ctx : Context) (clock : Clock) (start : UInt64) (done : List SavedObj)
    (log : Log) : Prop where
  root : ctx.os.There log (concatenatePaths ctx.destdir [slash])
  start : mtimeAt clock (dirPlace ctx.destdir) log = start
  there : ∀ obj ∈ done, obj.objtype = .dir → ctx.os.missing log (obj.fullpath ctx) = false
  times : ∀ obj ∈ done, obj.objtype = .dir → obj.relpath ≠ [slash] → obj.TimeKept ctx clock log

/-- The parent directory of an object is among those in front of it. -/
theorem Treelike.before (tree : Treelike ctx (done ++ obj :: rest)) :
    extractDirpath obj.relpath = [slash] ∨
      ∃ dir ∈ done, dir.objtype = .dir ∧ dir.relpath = extractDirpath obj.relpath := by
  have once : (done ++ obj :: rest).Nodup := List.Nodup.of_map _ tree.apart
  have own : obj ∉ rest := (List.nodup_cons.mp (List.nodup_append.mp once).2.1).1
  rcases tree.rooted obj (by simp) with top | ⟨dir, type, path, behind⟩
  · exact .inl top
  refine .inr ⟨dir, ?_, type, path⟩
  rcases pair_sublist_append.mp behind with inFront | ⟨inFront, -⟩ | inRest
  · exact inFront.subset List.mem_cons_self
  · exact inFront
  · cases inRest with
    | cons _ later => exact absurd (later.subset (by simp)) own
    | cons_cons _ later => exact absurd (List.singleton_sublist.mp later) own

/-- What is above the destination is what is above the root. -/
theorem mem_mkdirPaths_root {before buffer : Path}
    (member : buffer ∈ mkdirPaths (if before = [] then [slash] else before)) :
    buffer ∈ mkdirPaths (before ++ [slash]) := by
  split at member
  next none =>
    rw [none]
    exact member
  next =>
    obtain ⟨pos, cut, rfl⟩ := List.mem_map.mp member
    obtain ⟨bound, cut⟩ := List.mem_filter.mp cut
    have short : pos ≤ before.length := Nat.le_of_lt_succ (List.mem_range.mp bound)
    refine List.mem_map.mpr ⟨pos, List.mem_filter.mpr ⟨?_, ?_⟩, List.take_append_of_le_length short⟩
    · rw [List.mem_range, List.length_append]
      omega
    · rw [decide_eq_true_eq] at cut ⊢
      rcases Nat.lt_or_eq_of_le short with less | rfl
      · rw [List.getElem?_append_left less]
        exact cut.imp_right fun ends => absurd ends (Nat.ne_of_lt less)
      · exact .inl List.getElem?_concat_length

/-- With the directory it is in, the parent directory of an object is there. -/
theorem DirsKept.parent (kept : DirsKept ctx clock start done log) (named : Named obj.relpath)
    (above : extractDirpath obj.relpath = [slash] ∨ ∃ dir : SavedObj,
      dir.relpath = extractDirpath obj.relpath ∧ ctx.os.There log (dir.fullpath ctx)) :
    ctx.os.There log (extractDirpath (obj.fullpath ctx)) := by
  unfold SavedObj.fullpath
  rw [named.concatenatePaths_eq]
  by_cases top : extractDirpath obj.relpath = [slash]
  · rw [named.parent_top top]
    exact fun buffer member => kept.root buffer (mem_mkdirPaths_root member)
  · obtain ⟨namedDir, parent⟩ := named.parent_inside top (trimmed ctx.destdir)
    obtain ⟨dir, path, there⟩ := above.resolve_left top
    unfold SavedObj.fullpath at there
    rwa [path, namedDir.concatenatePaths_eq, ← parent] at there

theorem slash_mem_fullpath (obj : SavedObj) (ctx : Context) : slash ∈ obj.fullpath ctx := by
  simp [SavedObj.fullpath, concatenatePaths]

/-- All directories that were restored are there, with the directories above them. -/
theorem DirsKept.dirs (tree : Treelike ctx (done ++ rest)) (kept : DirsKept ctx clock start done log) :
    ∀ dir ∈ done, dir.objtype = .dir → ctx.os.There log (dir.fullpath ctx) := by
  -- the parent directory of each of them is in front of it
  suffices all : ∀ n front dir back, front.length = n → done = front ++ dir :: back →
      dir.objtype = .dir → ctx.os.There log (dir.fullpath ctx) by
    intro dir member
    obtain ⟨front, back, split⟩ := List.append_of_mem member
    exact all _ front dir back rfl split
  intro n
  induction n using Nat.strong_induction_on with
  | _ n ih =>
    intro front dir back length split type
    have member : dir ∈ done := by simp [split]
    rcases tree.shape dir (List.mem_append_left _ member) with ⟨root, -⟩ | named
    · unfold SavedObj.fullpath
      rw [root]
      exact kept.root
    have parent : ctx.os.There log (extractDirpath (dir.fullpath ctx)) := by
      apply kept.parent named
      rw [split, List.append_assoc, List.cons_append] at tree
      refine tree.before.imp_right ?_
      rintro ⟨above, inFront, isDir, path⟩
      obtain ⟨front', back', split'⟩ := List.append_of_mem inFront
      refine ⟨above, path, ih front'.length ?_ front' above (back' ++ dir :: back) rfl ?_ isDir⟩
      · rw [← length, split', List.length_append, List.length_cons]
        omega
      · rw [split, split', List.append_assoc, List.cons_append]
    intro buffer inside nonempty
    rcases mem_mkdirPaths_child (slash_mem_fullpath dir ctx) inside with none | above | same
    · exact absurd none nonempty
    · exact parent buffer above nonempty
    · rw [same]
      exact kept.there dir member type

/-- What the restoration of an object with a name leaves behind. -/
theorem RestoredBy.keeps (keeps : ctx.os.Keeps clock) (named : Named obj.relpath)
    (there : ctx.os.There log (extractDirpath (obj.fullpath ctx)))
    (restored : RestoredBy ctx obj log log') :
    KeepsTimes ctx.os clock (obj.fullpath ctx) log log' ∧
      (obj.objtype = .dir → ctx.os.There log' (obj.fullpath ctx) ∧
        ∀ attr, readStdAttr ctx.mem obj.d = some attr →
          mtimeAt clock (dirPlace (obj.fullpath ctx)) log' = attr.mtime) := by
  have rooted := slash_mem_fullpath obj ctx
  have plain : dirPlace (obj.fullpath ctx) = obj.fullpath ctx := by
    unfold SavedObj.fullpath
    rw [named.concatenatePaths_eq, named.dirPlace_eq]
  cases restored with
  | entry isEntry ran =>
    obtain ⟨kept, -, dir⟩ := restoreEntry_keeps keeps rooted there (fun _ => plain) (.inl plain) ran
    refine ⟨kept, fun type => ⟨(dir type).1, fun attr read => (dir type).2 attr read ?_⟩⟩
    intro same
    have short := length_dirPlace_le (extractDirpath (obj.fullpath ctx))
    rw [← same, plain] at short
    have long := named.length_parent_lt (trimmed ctx.destdir)
    rw [← named.concatenatePaths_eq] at long
    exact absurd short (Nat.not_le_of_lt long)
  | file unique ran =>
    refine ⟨restoreRegfileUnique_keeps keeps rooted plain there ran, fun type => ?_⟩
    rw [unique] at type
    cases type
  | small multi stored ran =>
    refine ⟨restoreSmallFile_keeps keeps stored rfl rooted plain there ran, fun type => ?_⟩
    rw [multi] at type
    cases type

/-- The modification time is read back. -/
theorem SavedHeader.mtime {d : Dico} {relpath : Path} {objtype : ObjType} {st : Stat}
    (header : SavedHeader d relpath objtype st) (mem : Mem) :
    dicoGetU64 mem d Section.stdattr ItemKey.mtime = some st.mtime.toUInt32.toUInt64 := by
  obtain ⟨objectid, found⟩ := header.std
  have stored := found (dicoAddU64 Section.stdattr ItemKey.mtime st.mtime.toUInt32.toUInt64)
    (by simp [stdattrCalls])
  exact dicoGetU64_of_find stored (show sizedData (leBytes 8 _) = _ from sizedData_of_lt (by simp))

theorem timeKept_iff (wellMade : obj.WellMade) : obj.TimeKept ctx clock log ↔
    mtimeAt clock (dirPlace (obj.fullpath ctx)) log = obj.st.mtime.toUInt32.toUInt64 := by
  unfold SavedObj.TimeKept
  rw [wellMade.header.mtime, Option.some.injEq]
  exact eq_comm

/-- Other objects are at other places. -/
theorem Treelike.place_ne (tree : Treelike ctx (done ++ obj :: rest)) {dir : SavedObj}
    (member : dir ∈ done) : dir.fullpath ctx ≠ obj.fullpath ctx := by
  have apart := tree.apart
  unfold fullpaths at apart
  rw [List.map_append, List.map_cons] at apart
  exact (List.nodup_append.mp apart).2.2 _ (List.mem_map_of_mem member) _ List.mem_cons_self

/-- The root is restored: it keeps the time that the destination had before. -/
theorem DirsKept.step_root (keeps : ctx.os.Keeps clock) (tree : Treelike ctx (done ++ obj :: rest))
    (kept : DirsKept ctx clock start done log) (root : obj.relpath = [slash]) (type : obj.objtype = .dir)
    (restored : RestoredBy ctx obj log log') : DirsKept ctx clock start (done ++ [obj]) log' := by
  have path : obj.fullpath ctx = trimmed ctx.destdir ++ [slash] := by
    unfold SavedObj.fullpath
    rw [root, concatenatePaths_root]
  have there := kept.root
  rw [concatenatePaths_root, ← path] at there
  have above : ctx.os.There log (extractDirpath (obj.fullpath ctx)) := by
    intro buffer member nonempty
    rw [path, extractDirpath_root] at member
    apply there buffer _ nonempty
    rw [path]
    exact mem_mkdirPaths_root member
  have nonempty : obj.fullpath ctx ≠ [] := by simp [path]
  cases restored with
  | file unique ran =>
    rw [unique] at type
    cases type
  | small multi stored ran =>
    rw [multi] at type
    cases type
  | entry isEntry ran =>
    obtain ⟨others, parent, own⟩ := restoreEntry_keeps keeps (slash_mem_fullpath obj ctx) above
      (fun other => absurd type other) (.inr (there _ (mem_mkdirPaths _) nonempty)) ran
    have there' := (own type).1
    refine ⟨?_, ?_, fun dir member isDir => ?_, fun dir member isDir other => ?_⟩
    · rw [concatenatePaths_root, ← path]
      exact there'
    · rw [path, dirPlace_above_root] at parent
      exact parent.trans kept.start
    · rcases List.mem_append.mp member with member | member
      · exact others.there _ (tree.place_ne member) (kept.there dir member isDir)
      · rw [List.mem_singleton.mp member]
        exact there' _ (mem_mkdirPaths _) nonempty
    · rcases List.mem_append.mp member with member | member
      · have named := (tree.shape dir (List.mem_append_left _ member)).resolve_left
          fun isRoot => other isRoot.1
        unfold SavedObj.TimeKept
        rw [others.times]
        · exact kept.times dir member isDir other
        · rw [path, dirPlace_root]
          unfold SavedObj.fullpath
          rw [named.concatenatePaths_eq]
          exact (named.apart_from_root ctx.destdir).symm
      · rw [List.mem_singleton.mp member] at other
        exact absurd root other

/-- An object with a name is restored: a directory gets its time, and all others keep theirs. -/
theorem DirsKept.step_named (keeps : ctx.os.Keeps clock) (tree : Treelike ctx (done ++ obj :: rest))
    (kept : DirsKept ctx clock start done log) (named : Named obj.relpath)
    (restored : RestoredBy ctx obj log log') : DirsKept ctx clock start (done ++ [obj]) log' := by
  have path : obj.fullpath ctx = trimmed ctx.destdir ++ obj.relpath :=
    named.concatenatePaths_eq ctx.destdir
  have plain : dirPlace (obj.fullpath ctx) = obj.fullpath ctx := by
    rw [path, named.dirPlace_eq]
  have there : ctx.os.There log (extractDirpath (obj.fullpath ctx)) := by
    apply kept.parent named
    refine tree.before.imp_right ?_
    rintro ⟨dir, member, isDir, above⟩
    exact ⟨dir, above, kept.dirs tree dir member isDir⟩
  obtain ⟨others, own⟩ := restored.keeps keeps named there
  refine ⟨fun buffer member nonempty => ?_, ?_, fun dir member isDir => ?_,
    fun dir member isDir other => ?_⟩
  · apply others.there buffer _ (kept.root buffer member nonempty)
    rintro rfl
    obtain ⟨pos, -, same⟩ := List.mem_map.mp member
    have short := congrArg List.length same
    obtain ⟨char, more, front, -⟩ := named.front
    rw [path, front, concatenatePaths_root, List.length_take] at short
    simp only [List.length_append, List.length_cons, List.length_nil] at short
    omega
  · rw [others.times]
    · exact kept.start
    · rw [path]
      exact named.apart_from_root ctx.destdir
  · rcases List.mem_append.mp member with member | member
    · exact others.there _ (tree.place_ne member) (kept.there dir member isDir)
    · rw [List.mem_singleton.mp member] at isDir ⊢
      refine (own isDir).1 _ (mem_mkdirPaths _) ?_
      simp [SavedObj.fullpath, concatenatePaths]
  · rcases List.mem_append.mp member with member | member
    · have namedDir := (tree.shape dir (List.mem_append_left _ member)).resolve_left
        fun isRoot => other isRoot.1
      unfold SavedObj.TimeKept
      rw [others.times]
      · exact kept.times dir member isDir other
      · rw [plain]
        have place : dirPlace (dir.fullpath ctx) = dir.fullpath ctx := by
          unfold SavedObj.fullpath
          rw [namedDir.concatenatePaths_eq, namedDir.dirPlace_eq]
        rw [place]
        exact tree.place_ne member
    · rw [List.mem_singleton.mp member] at isDir ⊢
      have wellMade := tree.wellMade obj (by simp)
      obtain ⟨objectid, found⟩ := wellMade.header.std
      have time := (own isDir).2 _ (readStdAttr_of_find found ctx.mem)
      exact (timeKept_iff wellMade).mpr time

/-- All objects are restored. -/
theorem DirsKept.run (keeps : ctx.os.Keeps clock) (tree : Treelike ctx objs)
    (kept : DirsKept ctx clock start done log) (split : objs = done ++ rest)
    (restored : Steps (fun log obj log' => RestoredBy ctx obj log log') log rest log') :
    DirsKept ctx clock start objs log' := by
  induction restored generalizing done with
  | nil log =>
    rw [split, List.append_nil]
    exact kept
  | @cons log log₁ log' obj rest first tail ih =>
    have tree' := tree
    rw [split] at tree'
    have next : DirsKept ctx clock start (done ++ [obj]) log₁ := by
      rcases tree'.shape obj (by simp) with ⟨root, type⟩ | named
      · exact kept.step_root keeps tree' root type first
      · exact kept.step_named keeps tree' named first
    exact ih next (by rw [split, List.append_assoc, List.singleton_append])

/-! ## The whole run -/

/-- What was visited: the root, and what has a name. -/
theorem shape_of_visit {opts : SaveOptions} {dir : DirCalls} {entries : DirStream}
    (wellNamed : entries.WellNamed) {relpath : Path} {st : Stat} {calls : ObjectCalls}
    (member : .object relpath st calls ∈ treeVisits opts [slash] dir entries) :
    relpath = [slash] ∧ dir.lstat = some st ∨ Named relpath := by
  unfold treeVisits directoryVisits at member
  cases opened : dir.opendir with
  | false => simp [opened] at member
  | true =>
    cases lstat : dir.lstat with
    | none => simp [opened, lstat] at member
    | some statbuf =>
      rw [opened, lstat] at member
      rcases List.mem_cons.mp member with same | member
      · cases same
        exact .inl ⟨rfl, rfl⟩
      · have visited : relpath ∈ visitedPaths (entryVisits opts [slash] entries) :=
          List.mem_filterMap.mpr ⟨_, member, rfl⟩
        obtain ⟨name, names, areNames, -, path⟩ := path_of_entryVisits wellNamed relpath visited
        rw [show trimmed [slash] = [] from rfl, List.nil_append] at path
        rw [path]
        exact .inr (named_joined areNames (List.cons_ne_nil name names))

/-- Every call of a walk is for a visit. -/
theorem visit_of_savedCalls {mem : Mem} {md5 : Md5} {opts : SaveOptions} {visits : List Visit}
    {save : Savear} {call : SaveCall} (member : call ∈ savedCalls mem md5 opts false visits save) :
    .object call.relpath call.st call.calls ∈ visits := by
  induction visits generalizing save with
  | nil => cases member
  | cons visit rest ih =>
    cases visit with
    | stop => cases member
    | object relpath st calls =>
      rcases List.mem_cons.mp member with rfl | member
      · exact List.mem_cons_self
      · split at member
        · cases member
        · exact List.mem_cons_of_mem _ (ih member)

/-- A tree that was saved without a failure is restored without a failing call: every directory
but the root has the modification time of its header, and the root has it if and only if the
destination had it before. -/
theorem directory_times_iff (mem : Mem) (opts : SaveOptions) (sizes : opts.FromCmdline)
    (save : Savear) (dir : DirCalls) (entries : DirStream) (opened : dir.opendir = true)
    (statbuf : Stat) (lstat : dir.lstat = some statbuf) (isDir : dir.IsDir) (stay : entries.DirsStay)
    (wellNamed : entries.WellNamed) (fit : PathsFit (visitedPaths (treeVisits opts [slash] dir entries)))
    (fromKernel : ∀ object ∈ savedObjects false (treeVisits opts [slash] dir entries),
      object.calls.FromKernel)
    (ctx : Context) (clock : Clock) (keeps : ctx.os.Keeps clock) (fsid : ctx.fsid = save.fsid)
    (included : ∀ path, ctx.exclude path = false)
    (counted : ∀ call ∈ savedCalls mem ctx.md5 opts false (treeVisits opts [slash] dir entries)
      (walkStart opts { save with pushed := [] }), call.Counted mem ctx.md5 opts)
    (endFsid : UInt16) (endDico : Dico) (exar : Extractar)
    (there : ctx.os.There exar.log (concatenatePaths ctx.destdir [slash]))
    (queue : exar.queue = (createarSaveDirectoryWrapper mem ctx.md5 opts false
      { save with pushed := [] } [slash] dir entries).2.pushed ++
      [.header ⟨.datf, endFsid, endDico⟩]) :
    let objs := partObjs (walkParts mem ctx.md5 opts (treeVisits opts [slash] dir entries)
      { save with pushed := [] })
    let ran := extractarExtractReadObjects ctx exar
    ran.1 = some 0 ∧
      (∀ obj ∈ objs, obj.objtype = .dir → obj.relpath ≠ [slash] → obj.TimeKept ctx clock ran.2.log) ∧
      ((∀ obj ∈ objs, obj.objtype = .dir → obj.TimeKept ctx clock ran.2.log) ↔
        mtimeAt clock (dirPlace ctx.destdir) exar.log = statbuf.mtime.toUInt32.toUInt64) := by
  intro objs ran
  let visits := treeVisits opts [slash] dir entries
  let empty : Savear := { save with pushed := [] }
  obtain ⟨order, run⟩ :=
    wholeRun_of_counted mem sizes wellNamed fit fromKernel keeps.calm fsid counted queue
  have saved : ∀ call ∈ savedCalls mem ctx.md5 opts false visits (walkStart opts empty),
      ∃ obj, call.object ctx.md5 opts = some obj := by
    intro call member
    obtain ⟨files, pends⟩ := pends_savedCalls sizes (pends_walkStart opts empty) member
    obtain ⟨obj, object, -⟩ := (SaveCall.counted_iff sizes pends).mp (counted call member)
    exact ⟨obj, object⟩
  have shape : ∀ obj ∈ objs, obj.relpath = [slash] ∧ obj.st = statbuf ∧ obj.objtype = .dir ∨
      Named obj.relpath := by
    intro obj member
    obtain ⟨call, among, object⟩ := List.mem_filterMap.mp (order.perm.mem_iff.mp member)
    obtain ⟨path, st, type, -⟩ := SaveCall.fields_of_object object
    rw [path, st, type]
    refine (shape_of_visit wellNamed (visit_of_savedCalls among)).imp_left ?_
    rintro ⟨root, own⟩
    refine ⟨root, Option.some.inj (own.symm.trans lstat), ?_⟩
    unfold objectType
    rw [isDir call.st own]
  have tree : Treelike ctx objs := by
    refine ⟨fun obj member => (run.wellMade obj member).1, fun obj member => ?_, run.orderly.apart, ?_⟩
    · exact (shape obj member).imp_left fun root => ⟨root.1, root.2.2⟩
    · refine order.rooted fun obj member => ?_
      exact ((parentsFirst_tree opts wellNamed stay).objects saved obj member).imp_left
        List.mem_singleton.mp
  have restored : Steps (fun log obj log' => RestoredBy ctx obj log log') exar.log objs ran.2.log := by
    refine run.restores.mono fun _ obj member _ restores => restores ?_ ?_
    · simp [SavedObj.excluded, isFiledirExcluded, included]
    · rintro ⟨target, -, excluded⟩
      simp [isFiledirExcluded, included] at excluded
  have start : DirsKept ctx clock (mtimeAt clock (dirPlace ctx.destdir) exar.log) [] exar.log :=
    ⟨there, rfl, by simp, by simp⟩
  have kept := start.run keeps tree rfl restored
  have rootTime {obj : SavedObj} (root : obj.relpath = [slash]) :
      mtimeAt clock (dirPlace (obj.fullpath ctx)) ran.2.log =
        mtimeAt clock (dirPlace ctx.destdir) exar.log := by
    unfold SavedObj.fullpath
    rw [root, concatenatePaths_root, dirPlace_root]
    exact kept.start
  refine ⟨run.returns, kept.times, fun all => ?_, fun same obj member type => ?_⟩
  · -- the root was saved
    have first : ∃ call ∈ savedCalls mem ctx.md5 opts false visits (walkStart opts empty),
        call.relpath = [slash] := by
      have shape : visits = .object [slash] statbuf dir.calls :: entryVisits opts [slash] entries := by
        simp [visits, treeVisits, directoryVisits, opened, lstat]
      rw [shape]
      exact ⟨_, List.mem_cons_self, rfl⟩
    obtain ⟨call, among, path⟩ := first
    obtain ⟨obj, object⟩ := saved call among
    have root := (SaveCall.fields_of_object object).1.trans path
    have member : obj ∈ objs := order.perm.mem_iff.mpr (List.mem_filterMap.mpr ⟨call, among, object⟩)
    rcases shape obj member with ⟨-, st, type⟩ | named
    · have time := (timeKept_iff (tree.wellMade obj member)).mp (all obj member type)
      rw [rootTime root, st] at time
      exact time
    · obtain ⟨char, more, front, -⟩ := named.front
      rw [root] at front
      cases front
  · by_cases root : obj.relpath = [slash]
    · rcases shape obj member with ⟨-, st, -⟩ | named
      · apply (timeKept_iff (tree.wellMade obj member)).mpr
        rw [rootTime root, st]
        exact same
      · obtain ⟨char, more, front, -⟩ := named.front
        rw [root] at front
        cases front
    · exact kept.times obj member type root

/-! ## A destination with another time -/

/-- A system on which no call fails, with some directories that are there. -/
def timedOs (clock : Clock) (there : List Path) : Os where
  answer _ call := if call = .mkdir [] then -1 else call.success
  missing log path := decide (path ∉ there ∧ (SysCall.mkdir path, 0) ∉ log)
  dirTimes log path := (0, mtimeAt clock (dirPlace path) log)

theorem timedOs_keeps (clock : Clock) (there : List Path) : (timedOs clock there).Keeps clock where
  answer _ _ := rfl
  stays log path entry present _ := by
    apply decide_eq_false
    rintro ⟨apart, unmade⟩
    rw [List.mem_append, not_or] at unmade
    exact of_decide_eq_false present ⟨apart, unmade.1⟩
  made log path := by
    apply decide_eq_false
    rintro ⟨-, unmade⟩
    exact unmade (List.mem_append_right _ List.mem_cons_self)
  mtime _ _ _ := rfl

/-- A restoration to `/m`, a directory with this modification time. -/
def timedClock (start : UInt64) : Clock := ⟨fun _ => start, fun _ _ => 1000⟩

def timedContext (start : UInt64) : Context :=
  { exactContext with
    os := timedOs (timedClock start) [[slash, 0x6d], [slash, 0x6d, slash]]
    destdir := [slash, 0x6d] }

/-- A directory with this modification time. -/
def timedDir (mtime : UInt64) : DirCalls := ⟨true, some { plainDirStat with mtime }, plainCalls⟩

theorem timedDir_isDir (mtime : UInt64) : (timedDir mtime).IsDir := by
  intro st same
  obtain rfl := Option.some.inj same
  change plainDirStat.fileType = .dir
  decide

/-- A directory with two files. -/
def timedEntries : DirStream :=
  .entry [0x64] (some { plainDirStat with mtime := 7 }) plainCalls (timedDir 7) (twoEntries twoBytes)
    .eof

/-- What is left to restore once they are saved. -/
def timedExar : Extractar where
  queue := (createarSaveDirectoryWrapper plainMem exactContext.md5 plainOptions false
    { plainSavear with pushed := [] } [slash] (timedDir 9) timedEntries).2.pushed ++
      [.header ⟨.datf, 0, Dico.alloc⟩]
  log := []
  stats := {}
  errors := 0
  skipped := []

/-- The objects on the queue. -/
def timedObjs : List SavedObj :=
  partObjs (walkParts plainMem exactContext.md5 plainOptions
    (treeVisits plainOptions [slash] (timedDir 9) timedEntries) { plainSavear with pushed := [] })

/-- Where the destination had the time of the root before, all times are kept. -/
theorem directory_times_kept :
    let ran := extractarExtractReadObjects (timedContext 9) timedExar
    ran.1 = some 0 ∧ ∀ obj ∈ timedObjs, obj.objtype = .dir →
      obj.TimeKept (timedContext 9) (timedClock 9) ran.2.log := by
  intro ran
  have fromKernel : ∀ object ∈ savedObjects false (treeVisits plainOptions [slash] (timedDir 9)
      timedEntries), object.calls.FromKernel := by
    have objects : savedObjects false (treeVisits plainOptions [slash] (timedDir 9) timedEntries) =
        [⟨[slash], { plainDirStat with mtime := 9 }, plainCalls⟩,
          ⟨[slash, 0x64], { plainDirStat with mtime := 7 }, plainCalls⟩,
          ⟨[slash, 0x64, slash, 0x61], plainFileStat 2 2, { plainCalls with openFile := twoBytes }⟩,
          ⟨[slash, 0x64, slash, 0x62], plainFileStat 1 0,
            { plainCalls with openFile := some fun _ _ => some [] }⟩] := rfl
    rw [objects]
    simp only [List.mem_cons, List.not_mem_nil, or_false, forall_eq_or_imp, forall_eq]
    exact ⟨plainCalls_fromKernel none, plainCalls_fromKernel none, plainCalls_fromKernel _,
      plainCalls_fromKernel _⟩
  have files : (twoEntries twoBytes).DirsStay :=
    have isDir : plainDirCalls.IsDir := timedDir_isDir 0
    ⟨fun _ _ _ => isDir, trivial, fun _ _ _ => isDir, trivial, trivial⟩
  have isName : IsName [0x64] := ⟨List.cons_ne_nil _ _, by decide, by decide⟩
  obtain ⟨returns, -, kept⟩ := directory_times_iff plainMem plainOptions plainOptions_fromCmdline
    plainSavear (timedDir 9) timedEntries rfl _ rfl (timedDir_isDir 9)
    ⟨fun _ _ _ => timedDir_isDir 7, files, trivial⟩
    ⟨isName, by decide, twoEntries_wellNamed twoBytes, trivial⟩ (by unfold PathsFit; decide)
    fromKernel (timedContext 9) (timedClock 9) (timedOs_keeps _ _) rfl (fun _ => rfl)
    (by unfold SaveCall.Counted; decide +kernel) 0 Dico.alloc timedExar
    (by unfold Os.There; decide) rfl
  exact ⟨returns, kept.mpr (by decide)⟩

/-- The root has the time that the destination had before. -/
theorem root_time_lost :
    let ran := extractarExtractReadObjects (timedContext 5) timedExar
    ran.1 = some 0 ∧ ∃ obj ∈ timedObjs, obj.relpath = [slash] ∧ obj.objtype = .dir ∧
      ¬obj.TimeKept (timedContext 5) (timedClock 5) ran.2.log := by
  intro ran
  unfold SavedObj.TimeKept
  exact ⟨by decide +kernel, by decide +kernel⟩

end FsArchiver
