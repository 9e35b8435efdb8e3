import FsArchiver.RestoreRuns

/-!
# The order of an archive

Every visited object has a path of its own, also without the slashes in front that
`concatenate_paths` drops. The first link to a file is visited before the others and never waits
for a pack, so that no hard link in the archive points to a later object.
-/
namespace FsArchiver

open Lib

/-! ## Paths -/

/-- The paths differ in more than slashes in front. -/
def PathsApart (paths : List Path) : Prop := (paths.map fun path => path.dropWhile (· = slash)).Nodup

/-- Where two objects are restored depends on their paths without slashes in front. -/
theorem concatenatePaths_eq_iff (destdir : Path) {path path' : Path} :
    concatenatePaths destdir path = concatenatePaths destdir path' ↔
      path.dropWhile (· = slash) = path'.dropWhile (· = slash) := by
  simp [concatenatePaths]

theorem PathsApart.sublist {paths paths' : List Path} (apart : PathsApart paths')
    (sublist : paths.Sublist paths') : PathsApart paths :=
  List.Nodup.sublist (sublist.map _) apart

/-- Slashes in front of a path, and what follows. -/
theorem dropWhile_append_of_ne_nil {path : Path} (more : Path)
    (other : path.dropWhile (· = slash) ≠ []) :
    (path ++ more).dropWhile (· = slash) = path.dropWhile (· = slash) ++ more := by
  rw [List.dropWhile_append, if_neg]
  simpa using other

/-- Joined names lose their first slash. -/
theorem dropWhile_joined {name : Path} (isName : IsName name) (names : List Path) :
    (joined (name :: names)).dropWhile (· = slash) = name ++ joined names := by
  rw [joined_cons, List.cons_append, List.dropWhile_cons_of_pos (by simp)]
  cases name with
  | nil => exact absurd rfl isName.nonempty
  | cons first rest =>
    have other : first ≠ slash := fun same => isName.noSlash (same ▸ List.mem_cons_self)
    rw [List.cons_append, List.dropWhile_cons_of_neg (by simpa using other)]

/-- What is left of the path of an entry. -/
theorem dropWhile_entry {path name : Path} (isName : IsName name) (names : List Path) :
    (path ++ joined (name :: names)).dropWhile (· = slash) =
      if path.dropWhile (· = slash) = [] then name ++ joined names
      else path.dropWhile (· = slash) ++ joined (name :: names) := by
  split
  next none =>
    rw [List.dropWhile_append, if_pos (by simpa using none), dropWhile_joined isName]
  next other => exact dropWhile_append_of_ne_nil _ other

/-- Visited objects have places of their own. -/
theorem treeVisits_apart {opts : SaveOptions} {path : Path} {dir : DirCalls} {entries : DirStream}
    (wellNamed : entries.WellNamed) : PathsApart (visitedPaths (treeVisits opts path dir entries)) := by
  have once := @entryVisits_nodup opts path entries wellNamed
  unfold treeVisits directoryVisits
  cases dir.opendir with
  | false => exact List.nodup_nil
  | true =>
    cases dir.lstat with
    | none => exact List.nodup_nil
    | some statbuf =>
      have shape := @path_of_entryVisits opts path entries wellNamed
      refine List.nodup_cons.mpr ⟨fun member => ?_, ?_⟩
      · -- the path of the directory is too short for one of an entry
        obtain ⟨entry, among, same⟩ := List.mem_map.mp member
        obtain ⟨name, names, areNames, -, rfl⟩ := shape entry among
        have isName := areNames name List.mem_cons_self
        have positive := List.length_pos_iff.mpr isName.nonempty
        have root : (path.dropWhile (· = slash)).length ≤
            ((trimmed path).dropWhile (· = slash)).length + 1 ∧
            ((trimmed path).dropWhile (· = slash) = [] → path.dropWhile (· = slash) = []) := by
          unfold trimmed
          split
          next ends =>
            obtain ⟨front, rfl⟩ := List.getLast?_eq_some_iff.mp ends
            rw [List.dropLast_concat, List.dropWhile_append]
            split
            next none => simp
            next other => simp_all
          next => exact ⟨Nat.le_succ _, id⟩
        rw [dropWhile_entry isName] at same
        have lengths := congrArg List.length same
        split at lengths
        next none =>
          change _ = (path.dropWhile (· = slash)).length at lengths
          rw [root.2 none, List.length_append, List.length_nil] at lengths
          omega
        next other =>
          change _ = (path.dropWhile (· = slash)).length at lengths
          simp only [List.length_append, joined_cons, List.length_cons] at lengths
          omega
      · refine List.Nodup.map_on ?_ once
        intro first inFirst second inSecond same
        obtain ⟨name, names, areNames, -, rfl⟩ := shape first inFirst
        obtain ⟨name', names', areNames', -, rfl⟩ := shape second inSecond
        rw [dropWhile_entry (areNames name List.mem_cons_self),
          dropWhile_entry (areNames' name' List.mem_cons_self)] at same
        have joinedSame : joined (name :: names) = joined (name' :: names') := by
          split at same
          · simpa using same
          · exact List.append_cancel_left same
        rw [joinedSame]

/-! ## Objects of calls -/

section Calls

variable {mem : Mem} {md5 : Md5} {opts : SaveOptions} {call : SaveCall} {obj : SavedObj}

/-- A call adds an object only if all its attributes are read. -/
theorem SaveCall.produced_of_object (object : call.object md5 opts = some obj) :
    call.calls.isCurvol = false ∧
      attrsOk call.save.fstype call.relpath call.st call.calls = true ∧
      call.produced md5 opts = producedContents md5 opts call.save.fsid
        (objectType opts call.save call.st)
        (objectDico opts call.save call.relpath call.st call.calls) call.st call.calls := by
  by_cases left : call.calls.isCurvol ∨ objectType opts call.save call.st = .null ∨
      attrsOk call.save.fstype call.relpath call.st call.calls = false
  · have nothing : call.produced md5 opts = (.nothing, false) := if_pos left
    unfold SaveCall.object SaveCall.piece at object
    rw [nothing] at object
    cases object
  · have made : call.produced md5 opts = producedContents md5 opts call.save.fsid
        (objectType opts call.save call.st)
        (objectDico opts call.save call.relpath call.st call.calls) call.st call.calls := if_neg left
    simp only [not_or, Bool.not_eq_false, Bool.not_eq_true] at left
    exact ⟨left.1, left.2.2, made⟩

/-- An object has the path, the type and the numbers of the visited one. -/
theorem Produced.fields_of_object {relpath : Path} {objtype : ObjType} {st : Stat}
    {made : Produced × Bool} (object : (Produced.piece relpath objtype st made).object = some obj) :
    obj.relpath = relpath ∧ obj.st = st ∧ obj.objtype = objtype ∧ obj.saved = made.2 := by
  obtain ⟨produced, saved⟩ := made
  cases produced with
  | nothing => cases object
  | later entry =>
    cases object
    exact ⟨rfl, rfl, rfl, rfl⟩
  | now packet =>
    cases packet with
    | pack files => cases object
    | single d | file d blocks | cut d blocks =>
      cases object
      exact ⟨rfl, rfl, rfl, rfl⟩

theorem SaveCall.fields_of_object (object : call.object md5 opts = some obj) :
    obj.relpath = call.relpath ∧ obj.st = call.st ∧ obj.objtype = objectType opts call.save call.st ∧
      obj.saved = (call.produced md5 opts).2 :=
  Produced.fields_of_object object

/-- The header of an object is that of the visited one, with a digest if it is a small file. -/
theorem SaveCall.header_of_object (object : call.object md5 opts = some obj) :
    obj.d = objectDico opts call.save call.relpath call.st call.calls ∨
      obj.objtype = .regfilemulti ∧ ∃ digest,
        obj.d = dicoAddAll (objectDico opts call.save call.relpath call.st call.calls)
          [dicoAddData Section.stdattr ItemKey.md5sum digest] := by
  obtain ⟨-, -, type, -⟩ := SaveCall.fields_of_object object
  obtain ⟨-, -, made⟩ := SaveCall.produced_of_object object
  rw [type]
  unfold SaveCall.object SaveCall.piece at object
  rw [made] at object
  unfold producedContents at object
  split at object
  · cases object
  · cases object
  · dsimp only at object
    split at object
    · cases object
      exact .inl rfl
    · cases object
      exact .inl rfl
  next multi _ =>
    split at object
    · cases object
    · cases object
      exact .inr ⟨multi, _, rfl⟩
  · cases object
    exact .inl rfl

/-- The target of a hard link is what the table gave. -/
theorem SaveCall.linkTarget_of_object (sound : call.Sound) (object : call.object md5 opts = some obj)
    {target : Path} (links : obj.LinksTo target) : linkTarget call.save call.st = some target := by
  obtain ⟨-, -, type, -⟩ := SaveCall.fields_of_object object
  obtain ⟨hardlink, read⟩ := links
  have header := (SaveCall.header_of_object object).resolve_right fun multi =>
    absurd (hardlink.symm.trans multi.1) (by decide)
  rw [type] at hardlink
  obtain ⟨isReg, seen⟩ := objectType_hardlink.mp hardlink
  obtain ⟨target', found⟩ := Option.isSome_iff_exists.mp seen
  obtain ⟨short, clean⟩ := sound.fitTarget target' found
  have stored : (objectDico opts call.save call.relpath call.st call.calls).find Section.stdattr
      ItemKey.hardlink = some (dicoAddString Section.stdattr ItemKey.hardlink target').item := by
    rw [find_objectDico, find_stdattrDico_hardlink _ _ _ _ _ isReg found]
  rw [header, readTarget_of_find stored short clean] at read
  rw [found, read]

/-- A small file has one link only. -/
theorem nlink_of_small {save : Savear} {st : Stat} (small : objectType opts save st = .regfilemulti) :
    st.nlink = 1 := by
  unfold objectType at small
  cases type : st.fileType with
  | reg =>
    simp only [type] at small
    split at small
    · cases small
    · unfold regfileType at small
      split at small
      next one => exact one.2.2
      next => cases small
  | dir | lnk | chr | blk | fifo | sock | other => simp [type] at small

end Calls

/-! ## Objects of a walk -/

/-- A relation that holds wherever a list is taken apart. -/
theorem pairwise_of_split {α : Type} {related : α → α → Prop} {list : List α}
    (holds : ∀ before first after, list = before ++ first :: after →
      ∀ second ∈ after, related first second) : list.Pairwise related := by
  induction list with
  | nil => exact List.Pairwise.nil
  | cons first rest ih =>
    refine List.pairwise_cons.mpr ⟨holds [] first rest rfl, ih fun before other after split => ?_⟩
    exact holds (first :: before) other after (by rw [split, List.cons_append])

section Walk

variable {mem : Mem} {md5 : Md5} {opts : SaveOptions} {visits : List Visit} {save : Savear}
  {ctx : Context}

/-- The objects of some calls have their paths. -/
theorem objects_paths (calls : List SaveCall) :
    ((calls.filterMap (SaveCall.object md5 opts)).map SavedObj.relpath).Sublist
      (calls.map fun call => call.relpath) := by
  induction calls with
  | nil => exact List.Sublist.slnil
  | cons call calls ih =>
    cases object : call.object md5 opts with
    | none =>
      rw [List.filterMap_cons_none object]
      exact ih.cons _
    | some obj =>
      rw [List.filterMap_cons_some object, List.map_cons, List.map_cons,
        (SaveCall.fields_of_object object).1]
      exact ih.cons_cons _

/-- The calls of a walk have visited paths. -/
theorem savedCalls_paths (visits : List Visit) (save : Savear) :
    ((savedCalls mem md5 opts false visits save).map fun call => call.relpath).Sublist
      (visitedPaths visits) := by
  have paths := savedObjects_paths false visits
  rw [← @savedCalls_objects mem md5 opts false visits save, List.map_map] at paths
  exact paths

/-- A call of a walk comes before another one. -/
theorem not_linksPast {before after : List SaveCall} {call call' : SaveCall}
    (fit : PathsFit (visitedPaths visits)) (apart : PathsApart (visitedPaths visits))
    (split : savedCalls mem md5 opts false visits (walkStart opts save) = before ++ call :: after)
    (among : call' ∈ savedCalls mem md5 opts false visits (walkStart opts save))
    (sound : call.Sound) {obj obj' : SavedObj} (object : call.object md5 opts = some obj)
    (object' : call'.object md5 opts = some obj') (linked : ¬obj.LinksPast ctx obj') :
    call' ∈ before ∧ call'.several = true := by
  unfold SavedObj.LinksPast at linked
  simp only [not_forall, not_not] at linked
  obtain ⟨target, links, same⟩ := linked
  have seen := SaveCall.linkTarget_of_object sound object links
  rw [linkTarget_savedCalls rfl fit split] at seen
  split at seen
  · obtain ⟨first, found, path⟩ := Option.map_eq_some_iff.mp seen
    have several := List.mem_filter.mp (firstWith_some found).1
    obtain ⟨call₁, inFront, rfl⟩ := List.mem_map.mp several.1
    -- paths are apart, so that both calls are the same
    have inCalls : call₁ ∈ savedCalls mem md5 opts false visits (walkStart opts save) := by
      rw [split]
      exact List.mem_append_left _ inFront
    have once := apart.sublist (@savedCalls_paths mem md5 opts visits (walkStart opts save))
    unfold PathsApart at once
    rw [List.map_map] at once
    have own : obj'.fullpath ctx = concatenatePaths ctx.destdir call'.relpath := by
      unfold SavedObj.fullpath
      rw [(SaveCall.fields_of_object object').1]
    rw [own, concatenatePaths_eq_iff, ← path] at same
    have equal := List.inj_on_of_nodup_map once inCalls among same
    exact ⟨equal ▸ inFront, equal ▸ several.2⟩
  · cases seen

/-- The archive of a walk is in order. -/
theorem orderly_parts (fit : PathsFit (visitedPaths visits))
    (apart : PathsApart (visitedPaths visits))
    (sound : ∀ call ∈ savedCalls mem md5 opts false visits (walkStart opts save), call.Sound)
    {objs : List SavedObj} (order : SameOrder objs (walkObjs mem md5 opts visits save)) :
    Orderly ctx objs := by
  have calls := @savedCalls_paths mem md5 opts visits (walkStart opts save)
  have paths : PathsApart ((walkObjs mem md5 opts visits save).map SavedObj.relpath) :=
    apart.sublist ((objects_paths _).trans calls)
  -- an object and the call it comes from
  have call_of {obj : SavedObj} (member : obj ∈ walkObjs mem md5 opts visits save) :
      ∃ call ∈ savedCalls mem md5 opts false visits (walkStart opts save),
        call.object md5 opts = some obj := List.mem_filterMap.mp member
  have distinct : (savedCalls mem md5 opts false visits (walkStart opts save)).Nodup := by
    have once := apart.sublist calls
    unfold PathsApart at once
    rw [List.map_map] at once
    exact List.Nodup.of_map _ once
  have several_large {call : SaveCall} {obj : SavedObj} (several : call.several = true)
      (object : call.object md5 opts = some obj) : obj.small = false := by
    refine decide_eq_false fun small => ?_
    rw [(SaveCall.fields_of_object object).2.2.1] at small
    have one := nlink_of_small small
    have more := (SavedObject.several_iff.mp several).2.2
    rw [one] at more
    exact absurd more (by decide)
  have past : ((walkObjs mem md5 opts visits save).filter fun obj => !obj.small).Pairwise
      (SavedObj.LinksPast ctx) := by
    refine List.Pairwise.filter _ ((List.pairwise_filterMap).mpr ?_)
    refine pairwise_of_split fun before call after split call' behind obj object obj' object' => ?_
    by_contra linked
    have among : call' ∈ savedCalls mem md5 opts false visits (walkStart opts save) := by
      rw [split]
      exact List.mem_append_right _ (List.mem_cons_of_mem _ behind)
    have member : call ∈ savedCalls mem md5 opts false visits (walkStart opts save) := by
      rw [split]
      exact List.mem_append_right _ List.mem_cons_self
    have inFront := (not_linksPast fit apart split among (sound call member) object object' linked).1
    rw [split] at distinct
    exact (List.nodup_append.mp distinct).2.2 _ inFront _ (List.mem_cons_of_mem _ behind) rfl
  have back {obj obj' : SavedObj} (member : obj ∈ walkObjs mem md5 opts visits save)
      (member' : obj' ∈ walkObjs mem md5 opts visits save) (linked : ¬obj.LinksPast ctx obj') :
      ∃ before call after call', savedCalls mem md5 opts false visits (walkStart opts save) =
        before ++ call :: after ∧ call.object md5 opts = some obj ∧
        call'.object md5 opts = some obj' ∧ call' ∈ before ∧ call'.several = true := by
    obtain ⟨call, among, object⟩ := call_of member
    obtain ⟨call', among', object'⟩ := call_of member'
    obtain ⟨before, after, split⟩ := List.append_of_mem among
    exact ⟨before, call, after, call', split, object, object',
      not_linksPast fit apart split among' (sound call among) object object' linked⟩
  have listed {obj : SavedObj} : obj ∈ objs ↔ obj ∈ walkObjs mem md5 opts visits save :=
    order.perm.mem_iff
  refine ⟨?_, ?_, ?_⟩
  · refine (order.perm.map fun obj => obj.fullpath ctx).nodup_iff.mpr ?_
    unfold PathsApart at paths
    rw [List.map_map] at paths
    exact List.Nodup.map_on (fun obj member obj' member' same => List.inj_on_of_nodup_map paths
      member member' ((concatenatePaths_eq_iff ctx.destdir).mp same)) (List.Nodup.of_map _ paths)
  · rw [← order.large, List.pairwise_filter] at past
    refine past.imp_of_mem fun {obj obj'} member member' both => ?_
    by_contra linked
    have large : obj.small = false := by
      refine decide_eq_false fun small => linked fun target links => ?_
      rw [links.1] at small
      cases small
    obtain ⟨before, call, after, call', -, -, object', -, several⟩ :=
      back (listed.mp member) (listed.mp member') linked
    exact linked (both (by rw [large]; rfl) (by rw [several_large several object']; rfl))
  · intro obj member
    by_contra linked
    obtain ⟨before, call, after, call', split, object, object', inFront, -⟩ :=
      back (listed.mp member) (listed.mp member) linked
    have paths := (SaveCall.fields_of_object object).1.symm.trans
      (SaveCall.fields_of_object object').1
    have once := apart.sublist calls
    unfold PathsApart at once
    rw [List.map_map] at once
    have among : call ∈ savedCalls mem md5 opts false visits (walkStart opts save) := by
      rw [split]
      exact List.mem_append_right _ List.mem_cons_self
    have among' : call' ∈ savedCalls mem md5 opts false visits (walkStart opts save) := by
      rw [split]
      exact List.mem_append_left _ inFront
    have same : call = call' := List.inj_on_of_nodup_map once among among' (by simp [paths])
    rw [split] at distinct
    exact (List.nodup_append.mp distinct).2.2 _ inFront _ List.mem_cons_self same.symm

end Walk

end FsArchiver
