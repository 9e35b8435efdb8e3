import FsArchiver.SwallowedParts
import FsArchiver.SaveRestore

/-!
# Files that cannot be read to their end

A read that fails leaves a file without a footer in the archive. Its restoration takes the next
header along, so that such a file harms no other one only if what follows it does not count as
saved, and if no hard link points to it.
-/
namespace FsArchiver

open Lib

/-! ## Runs over parts, some of which are cut -/

/-- The parts that are restored, from the start or behind a file without a footer. -/
def restoredParts : Bool → List Part → List Part
  | _, [] => []
  | true, _ :: rest => restoredParts false rest
  | false, part :: rest =>
    if part.isWhole then part :: restoredParts false rest else restoredParts true rest

/-- Behind every cut file comes an object that does not count as saved, on its own. -/
def NoneTaken : Bool → List Part → Prop
  | behind, [] => behind = false
  | true, part :: rest => (∃ obj, part.objs = [obj] ∧ obj.saved = false) ∧ NoneTaken false rest
  | false, part :: rest => NoneTaken (!part.isWhole) rest

/-- What is restored is there. -/
theorem restoredParts_sublist (behind : Bool) (parts : List Part) :
    (restoredParts behind parts).Sublist parts := by
  induction parts generalizing behind with
  | nil => cases behind <;> exact List.Sublist.slnil
  | cons part rest ih =>
    cases behind with
    | true => exact (ih false).cons part
    | false =>
      unfold restoredParts
      split
      · exact (ih false).cons_cons part
      · exact (ih true).cons part

theorem restoredParts_subset (behind : Bool) (parts : List Part) :
    partObjs (restoredParts behind parts) ⊆ partObjs parts := by
  intro obj member
  obtain ⟨part, among, own⟩ := List.mem_flatMap.mp member
  exact List.mem_flatMap.mpr ⟨part, (restoredParts_sublist behind parts).subset among, own⟩

/-- Every part holds an object. -/
theorem Part.WellMade.objs_ne_nil {md5 : Md5} {fsid : UInt16} {part : Part}
    (wellMade : part.WellMade md5 fsid) : 0 < part.objs.length := by
  cases part with
  | single obj | file obj blocks | cut obj blocks => exact Nat.zero_lt_one
  | pack objs => exact List.length_pos_iff.mpr wellMade.1

/-- All objects of a part are well made. -/
theorem Part.WellMade.obj {md5 : Md5} {fsid : UInt16} {part : Part}
    (wellMade : part.WellMade md5 fsid) {obj : SavedObj} (member : obj ∈ part.objs) :
    obj.WellMade := by
  cases part with
  | single own | file own blocks | cut own blocks =>
    rw [List.mem_singleton.mp member]
    exact wellMade.1
  | pack objs => exact (wellMade.2.1 obj member).wellMade

/-- A file that could not be read to its end has no footer. -/
theorem Part.WellMade.unfooted {ctx : Context} {obj : SavedObj} {blocks : List BlockInfo}
    (wellMade : (Part.cut obj blocks).WellMade ctx.md5 ctx.fsid) : obj.Unfooted ctx blocks := by
  obtain ⟨made, unique, short, chunked, -⟩ := wellMade
  exact ⟨made, unique, chunked, Nat.le_of_lt short, by omega⟩

/-- How a run over parts ends that some files are cut in. -/
inductive CutRun (ctx : Context) (exar : Extractar) (rest : List QueueData) (parts : List Part) : Prop where
  /-- The loop gives up. -/
  | fails (fails : Fails ctx exar) (taken : ¬NoneTaken false parts)
  /-- It gets to the items behind the parts. -/
  | ends (exar' : Extractar) (garbage : List QueueData) (made : Log) (lost : List SavedObj)
      (reaches : Reaches ctx exar exar' garbage made) (queue : exar'.queue = rest)
      (leaves : LeavesExact ctx exar.log made (partObjs parts) (partObjs (restoredParts false parts)) lost)
      (lostInside : lost ⊆ partObjs parts)
      (taken : NoneTaken false parts ↔ ∀ obj ∈ lost, obj.saved = false)

section Runs

variable {ctx : Context} {exar exar' : Extractar} {garbage rest : List QueueData} {made : Log}

/-- A run over more parts in front. -/
theorem CutRun.prepend (front : List Part) {back : List Part} {lost : List SavedObj}
    (orderly : Orderly ctx (partObjs front ++ partObjs back))
    (reaches : Reaches ctx exar exar' garbage made)
    (leaves : LeavesExact ctx exar.log made (partObjs front) (partObjs (restoredParts false front)) lost)
    (lostInside : lost ⊆ partObjs front)
    (restored : restoredParts false (front ++ back) =
      restoredParts false front ++ restoredParts false back)
    (taken : NoneTaken false (front ++ back) ↔
      (∀ obj ∈ lost, obj.saved = false) ∧ NoneTaken false back)
    (run : CutRun ctx exar' rest back) : CutRun ctx exar rest (front ++ back) := by
  cases run with
  | fails fails bad => exact .fails (reaches.fails fails) fun good => bad (taken.mp good).2
  | ends last garbage' made' lost' onward queue later lostLater onlyIf =>
    rw [reaches.log] at later
    refine .ends last _ _ (lost ++ lost') (reaches.trans onward) queue ?_ ?_ ?_
    · rw [restored, partObjs_append, partObjs_append]
      exact LeavesExact.append orderly (restoredParts_subset _ _) (restoredParts_subset _ _) lostInside
        lostLater leaves later
    · rw [partObjs_append]
      intro obj member
      rcases List.mem_append.mp member with member | member
      · exact List.mem_append_left _ (lostInside member)
      · exact List.mem_append_right _ (lostLater member)
    · rw [taken, onlyIf]
      simp only [List.mem_append, or_imp, forall_and]

/-- The loop over the parts of an archive. -/
theorem cutRun_parts (exact : ctx.os.Exact) {endFsid : UInt16} {endDico : Dico} {parts : List Part}
    (wellMade : ∀ part ∈ parts, part.WellMade ctx.md5 ctx.fsid) (orderly : Orderly ctx (partObjs parts))
    (queue : exar.queue = packetItems ctx.md5 ctx.fsid (parts.map Part.packet) ++
      [.header ⟨.datf, endFsid, endDico⟩]) :
    CutRun ctx exar [.header ⟨.datf, endFsid, endDico⟩] parts := by
  induction length : parts.length using Nat.strong_induction_on generalizing parts exar with
  | _ n ih =>
  cases parts with
  | nil =>
    refine .ends exar [] [] [] (Reaches.refl exar) queue (LeavesExact.nil ctx exar.log) (by simp) ?_
    simp [NoneTaken]
  | cons part rest =>
    have own := wellMade part List.mem_cons_self
    have others : ∀ part ∈ rest, part.WellMade ctx.md5 ctx.fsid :=
      fun part member => wellMade part (List.mem_cons_of_mem _ member)
    rw [packetItems_cons, List.append_assoc] at queue
    rw [partObjs_cons] at orderly
    cases whole : part.isWhole with
    | true =>
      obtain ⟨exar₁, made, reaches, queue₁, leaves⟩ :=
        leaves_part exact own whole orderly.left queue
      have run := ih rest.length (by rw [← length]; exact Nat.lt_succ_self _) others orderly.right
        queue₁ rfl
      have single : restoredParts false [part] = [part] := by simp [restoredParts, whole]
      refine CutRun.prepend [part] (by simpa [partObjs] using orderly) reaches
        (by rw [single]; simpa [partObjs] using leaves) (by simp) ?_ ?_ run
      · simp [restoredParts, whole]
      · simp [NoneTaken, whole]
    | false =>
      cases part with
      | single obj | file obj blocks | pack objs => cases whole
      | cut obj blocks =>
      have unfooted := own.unfooted
      have short := own.2.2.1
      cases rest with
      | nil =>
        exact .fails (unfooted.fails_end exact.toCalm queue) (by simp [NoneTaken, whole])
      | cons next rest =>
        have nextMade := others next List.mem_cons_self
        rw [packetItems_cons, List.append_assoc] at queue
        rw [partObjs_cons] at orderly
        by_cases one : next.objs.length = 1
        · obtain ⟨only, objs⟩ := List.length_eq_one_iff.mp one
          rw [← List.append_assoc] at orderly
          obtain ⟨exar₁, garbage, made, reaches, queue₁, -, leaves⟩ :=
            unfooted.leaves exact.toCalm nextMade one orderly.left queue
          have run := ih rest.length (by rw [← length, List.length_cons, List.length_cons]; omega) (fun part member =>
            others part (List.mem_cons_of_mem _ member)) orderly.right queue₁ rfl
          have none : restoredParts false [Part.cut obj blocks, next] = [] := by
            simp [restoredParts, whole]
          have leaves' : LeavesExact ctx exar.log made (partObjs [.cut obj blocks, next])
              (partObjs (restoredParts false [.cut obj blocks, next])) next.objs := by
            rw [none]
            simpa [partObjs, Part.objs] using leaves short
          refine CutRun.prepend [.cut obj blocks, next] ?_ reaches leaves' ?_ ?_ ?_ run
          · simpa [partObjs] using orderly
          · simp [partObjs, Part.objs]
          · simp [restoredParts, whole]
          · simp [NoneTaken, whole, objs]
        · have several : 1 < next.objs.length := by
            have positive := nextMade.objs_ne_nil
            omega
          refine .fails (unfooted.fails_several exact.toCalm nextMade several queue) ?_
          simp only [NoneTaken, whole, Bool.not_false]
          rintro ⟨⟨only, objs, -⟩, -⟩
          rw [objs] at one
          exact one rfl

end Runs

/-! ## Objects that count as saved -/

/-- The counters of saved objects. -/
def Stats.counted (stats : Stats) : Nat :=
  stats.cntRegfile + stats.cntDir + stats.cntSymlink + stats.cntHardlink + stats.cntSpecial

/-- The call of `createar_save_file` counts its object as saved. -/
def SaveCall.Counted (mem : Mem) (md5 : Md5) (opts : SaveOptions) (call : SaveCall) : Prop :=
  call.save.stats.counted <
    (createarSaveFile mem md5 opts call.save call.relpath call.st call.calls false).2.stats.counted

/-- Every type has a counter. -/
theorem counted_count (stats : Stats) {objtype : ObjType} (known : objtype ≠ .null) :
    (stats.count objtype).counted = stats.counted + 1 := by
  unfold Stats.counted Stats.count
  cases objtype with
  | null => exact absurd rfl known
  | dir | symlink | hardlink | chardev | blockdev | fifo | socket | regfileunique | regfilemulti =>
    simp only
    omega

/-- Errors are counted elsewhere. -/
theorem counted_fail (stats : Stats) (objtype : ObjType) :
    (stats.fail objtype).counted = stats.counted := by
  cases objtype <;> rfl

section Counted

variable {mem : Mem} {md5 : Md5} {opts : SaveOptions} {call : SaveCall}

/-- What counts as saved was added to the archive. -/
theorem SaveCall.object_of_produced (saved : (call.produced md5 opts).2 = true) :
    ∃ obj, call.object md5 opts = some obj := by
  by_cases left : call.calls.isCurvol ∨ objectType opts call.save call.st = .null ∨
      attrsOk call.save.fstype call.relpath call.st call.calls = false
  · have nothing : call.produced md5 opts = (.nothing, false) := if_pos left
    rw [nothing] at saved
    cases saved
  · have made : call.produced md5 opts = producedContents md5 opts call.save.fsid
        (objectType opts call.save call.st)
        (objectDico opts call.save call.relpath call.st call.calls) call.st call.calls := if_neg left
    unfold SaveCall.object SaveCall.piece
    rw [made] at saved ⊢
    unfold producedContents at saved ⊢
    split at saved
    · cases saved
    · cases saved
    next file _ opened =>
      cases failed : (readBlocks opts call.save.fsid call.st file).failed with
      | true => exact ⟨_, by simp only [failed, ↓reduceIte, Produced.piece]; rfl⟩
      | false => exact ⟨_, by simp only [failed, Bool.false_eq_true, ↓reduceIte, Produced.piece]; rfl⟩
    next file _ opened =>
      cases found : readFile file 0 call.st.size.toNat with
      | none =>
        rw [found] at saved
        cases saved
      | some read => exact ⟨_, rfl⟩
    · exact ⟨_, rfl⟩

/-- The objects that count are those in the archive that were saved. -/
theorem SaveCall.counted_iff (sizes : opts.FromCmdline) {files : List PackEntry}
    (pends : Pends opts call.save files) : call.Counted mem md5 opts ↔
      ∃ obj, call.object md5 opts = some obj ∧ obj.saved = true := by
  obtain ⟨-, visited⟩ := @createarSaveFile_adds mem md5 _ _ _ pends sizes call.relpath call.st
      call.calls
  have holds : call.Counted mem md5 opts ↔ (call.produced md5 opts).2 = true := by
    unfold SaveCall.Counted SaveCall.produced
    rw [visited.stats]
    by_cases curvol : call.calls.isCurvol = true
    · simp [curvol, counted_fail, FsArchiver.produced]
    · by_cases unknown : objectType opts call.save call.st = .null
      · simp [curvol, unknown, FsArchiver.produced]
      · rw [if_neg curvol, if_neg unknown]
        split
        next saved =>
          rw [counted_count _ unknown]
          exact ⟨fun _ => saved, fun _ => Nat.lt_succ_self _⟩
        next unsaved =>
          rw [counted_fail]
          exact ⟨fun less => absurd less (Nat.lt_irrefl _), fun saved => absurd saved unsaved⟩
  rw [holds]
  constructor
  · intro saved
    obtain ⟨obj, object⟩ := SaveCall.object_of_produced saved
    exact ⟨obj, object, (SaveCall.fields_of_object object).2.2.2.trans saved⟩
  · rintro ⟨obj, object, saved⟩
    exact (SaveCall.fields_of_object object).2.2.2.symm.trans saved

/-- Small files wait at every call of a walk as the pack says. -/
theorem pends_savedCalls (sizes : opts.FromCmdline) {visits : List Visit} {save : Savear}
    {files : List PackEntry} (pends : Pends opts save files)
    (member : call ∈ savedCalls mem md5 opts false visits save) :
    ∃ files, Pends opts call.save files := by
  induction visits generalizing save files with
  | nil => cases member
  | cons visit rest ih =>
    cases visit with
    | stop => cases member
    | object relpath st calls =>
      obtain ⟨-, visited⟩ := @createarSaveFile_adds mem md5 _ _ _ pends sizes relpath st calls
      rcases List.mem_cons.mp member with rfl | member
      · exact ⟨files, pends⟩
      · cases ran : createarSaveFile mem md5 opts save relpath st calls false with
        | mk ok save' =>
          rw [ran] at visited member
          cases ok with
          | false => cases member
          | true => exact ih visited.pends member

end Counted

/-! ## Hard links and their files -/

section Links

variable {mem : Mem} {md5 : Md5} {opts : SaveOptions} {visits : List Visit} {save : Savear}

/-- The table leads to an earlier call that found nothing in it. -/
theorem first_of_linkTarget (fit : PathsFit (visitedPaths visits)) {before after : List SaveCall}
    {call : SaveCall}
    (split : savedCalls mem md5 opts false visits (walkStart opts save) = before ++ call :: after)
    {target : Path} (seen : linkTarget call.save call.st = some target) :
    ∃ first ∈ before, first.relpath = target ∧ first.several = true ∧
      linkTarget first.save first.st = none := by
  rw [linkTarget_savedCalls rfl fit split] at seen
  split at seen
  · obtain ⟨object, found, path⟩ := Option.map_eq_some_iff.mp seen
    unfold firstWith at found
    rw [List.find?_filter, List.find?_map, Option.map_eq_some_iff] at found
    obtain ⟨first, found, rfl⟩ := found
    obtain ⟨own, front, back, halves, earlier⟩ := List.find?_eq_some_iff_append.mp found
    simp only [Function.comp_apply, decide_eq_true_eq] at own earlier
    refine ⟨first, by rw [halves]; simp, path, own.1, ?_⟩
    have split' : savedCalls mem md5 opts false visits (walkStart opts save) =
        front ++ first :: (back ++ call :: after) := by
      rw [split, halves]
      simp
    rw [linkTarget_savedCalls rfl fit split']
    have none : firstWith SavedObject.key
        ((front.map SaveCall.toSavedObject).filter SavedObject.several) first.key = none := by
      rw [firstWith_none]
      intro other member same
      obtain ⟨listed, several⟩ := List.mem_filter.mp member
      obtain ⟨one, among, rfl⟩ := List.mem_map.mp listed
      have apart := earlier one among
      simp [several, same.trans own.2] at apart
    rw [none]
    simp
  · cases seen

/-- A hard link counts as saved. -/
theorem SaveCall.saved_of_link {call : SaveCall} {obj : SavedObj}
    (object : call.object md5 opts = some obj) {target : Path} (links : obj.LinksTo target) :
    obj.saved = true := by
  obtain ⟨-, -, made⟩ := SaveCall.produced_of_object object
  obtain ⟨-, -, type, saved⟩ := SaveCall.fields_of_object object
  rw [saved, made, ← type, links.1]
  unfold producedContents
  cases call.calls.openFile <;> rfl

/-- The object at the place a hard link points to is the file it stands for. -/
theorem file_of_link {ctx : Context} (fit : PathsFit (visitedPaths visits))
    (apart : PathsApart (visitedPaths visits))
    (sound : ∀ call ∈ savedCalls mem md5 opts false visits (walkStart opts save), call.Sound)
    {obj obj' : SavedObj} (among : obj ∈ walkObjs mem md5 opts visits save)
    (among' : obj' ∈ walkObjs mem md5 opts visits save) {target : Path} (links : obj.LinksTo target)
    (same : concatenatePaths ctx.destdir target = obj'.fullpath ctx) :
    obj'.relpath = target ∧ obj'.objtype = .regfileunique := by
  obtain ⟨call, member, object⟩ := List.mem_filterMap.mp among
  obtain ⟨call', member', object'⟩ := List.mem_filterMap.mp among'
  obtain ⟨before, after, split⟩ := List.append_of_mem member
  have seen := SaveCall.linkTarget_of_object (sound call member) object links
  obtain ⟨first, inFront, path, several, none⟩ := first_of_linkTarget fit split seen
  have listed : first ∈ savedCalls mem md5 opts false visits (walkStart opts save) := by
    rw [split]
    exact List.mem_append_left _ inFront
  have once := apart.sublist (@savedCalls_paths mem md5 opts visits (walkStart opts save))
  unfold PathsApart at once
  rw [List.map_map] at once
  obtain ⟨relpath, -, type, -⟩ := SaveCall.fields_of_object object'
  unfold SavedObj.fullpath at same
  rw [relpath, concatenatePaths_eq_iff, ← path] at same
  have equal : first = call' := List.inj_on_of_nodup_map once listed member' same
  subst equal
  obtain ⟨-, isReg, links'⟩ := SavedObject.several_iff.mp several
  refine ⟨relpath.trans path, type.trans ?_⟩
  have one : ¬first.st.nlink = 1 := by
    intro one
    rw [one] at links'
    exact absurd links' (by decide)
  simp [objectType, isReg, none, regfileType, one]

end Links

/-! ## Whom a cut file harms -/

/-- No object that counts as saved is lost behind a cut file, and every hard link finds its file. -/
structure Harmless (parts : List Part) : Prop where
  taken : NoneTaken false parts
  linked : ∀ obj ∈ partObjs parts, ∀ target, obj.LinksTo target →
    ∃ file ∈ partObjs (restoredParts false parts), file.relpath = target

/-- Objects that count as saved are then restored. -/
theorem NoneTaken.restored {md5 : Md5} {fsid : UInt16} {behind : Bool} {parts : List Part}
    (taken : NoneTaken behind parts) (wellMade : ∀ part ∈ parts, part.WellMade md5 fsid)
    {obj : SavedObj} (member : obj ∈ partObjs parts) (saved : obj.saved = true) :
    obj ∈ partObjs (restoredParts behind parts) := by
  induction parts generalizing behind with
  | nil => cases member
  | cons part rest ih =>
    have onward {behind : Bool} (taken : NoneTaken behind rest) (member : obj ∈ partObjs rest) :=
      ih taken (fun part member => wellMade part (List.mem_cons_of_mem _ member)) member
    rw [partObjs_cons] at member
    cases behind with
    | true =>
      obtain ⟨⟨only, objs, unsaved⟩, taken⟩ := taken
      rcases List.mem_append.mp member with member | member
      · rw [objs] at member
        rw [List.mem_singleton.mp member, unsaved] at saved
        cases saved
      · exact onward taken member
    | false =>
      unfold NoneTaken at taken
      unfold restoredParts
      cases whole : part.isWhole with
      | true =>
        rw [whole] at taken
        rw [if_pos rfl, partObjs_cons]
        rcases List.mem_append.mp member with member | member
        · exact List.mem_append_left _ member
        · exact List.mem_append_right _ (onward taken member)
      | false =>
        rw [whole] at taken
        rw [if_neg (by decide)]
        rcases List.mem_append.mp member with member | member
        · cases part with
          | single own | file own blocks | pack objs => cases whole
          | cut own blocks =>
            have unsaved := (wellMade _ List.mem_cons_self).2.2.2.2
            rw [List.mem_singleton.mp member, unsaved] at saved
            cases saved
        · exact onward taken member

/-- Where nothing is cut, nothing is taken. -/
theorem noneTaken_of_whole {parts : List Part} (whole : ∀ part ∈ parts, part.isWhole = true) :
    NoneTaken false parts := by
  induction parts with
  | nil => rfl
  | cons part rest ih =>
    unfold NoneTaken
    rw [whole part List.mem_cons_self]
    exact ih fun part member => whole part (List.mem_cons_of_mem _ member)

/-- So nothing is lost if there are no hard links. -/
theorem Harmless.of_whole {parts : List Part} (whole : ∀ part ∈ parts, part.isWhole = true)
    (noLinks : ∀ obj ∈ partObjs parts, obj.objtype ≠ .hardlink) : Harmless parts where
  taken := noneTaken_of_whole whole
  linked obj member _ links := absurd links.1 (noLinks obj member)

/-- The restoration of a tree that was walked with any pattern of failures ends well with every
object that counts as saved if and only if no cut file harms another object. -/
theorem counted_restored_iff (mem : Mem) (opts : SaveOptions) (sizes : opts.FromCmdline)
    (save : Savear) (path : Path) (dir : DirCalls) (entries : DirStream)
    (wellNamed : entries.WellNamed) (fit : PathsFit (visitedPaths (treeVisits opts path dir entries)))
    (fromKernel : ∀ object ∈ savedObjects false (treeVisits opts path dir entries),
      object.calls.FromKernel)
    (ctx : Context) (exact : ctx.os.Exact) (all : ∀ path, ctx.exclude path = false)
    (fsid : ctx.fsid = save.fsid) (endFsid : UInt16) (endDico : Dico) (exar : Extractar)
    (fresh : ∀ relpath ∈ visitedPaths (treeVisits opts path dir entries),
      Untouched exar.log (concatenatePaths ctx.destdir relpath))
    (queue : exar.queue = (createarSaveDirectoryWrapper mem ctx.md5 opts false
      { save with pushed := [] } path dir entries).2.pushed ++
      [.header ⟨.datf, endFsid, endDico⟩]) :
    let visits := treeVisits opts path dir entries
    let ran := extractarExtractReadObjects ctx exar
    (ran.1 = some 0 ∧ ∃ made, ran.2.log = exar.log ++ made ∧
      ∀ call ∈ savedCalls mem ctx.md5 opts false visits
          (walkStart opts { save with pushed := [] }), call.Counted mem ctx.md5 opts →
        ∃ obj, call.object ctx.md5 opts = some obj ∧ obj.Restored ctx exar.log made) ↔
      Harmless (walkParts mem ctx.md5 opts visits { save with pushed := [] }) := by
  intro visits ran
  let empty : Savear := { save with pushed := [] }
  have apart : PathsApart (visitedPaths visits) := treeVisits_apart wellNamed
  obtain ⟨pushed, wellMade, order⟩ := @parts_visits ctx.md5 _ mem _ sizes empty fit fromKernel
  have sound := @sound_savedCalls ctx.md5 opts mem _ (walkStart opts empty) rfl fit fromKernel
  have pends {call : SaveCall} (member : call ∈ savedCalls mem ctx.md5 opts false visits
      (walkStart opts empty)) : call.Counted mem ctx.md5 opts ↔
        ∃ obj, call.object ctx.md5 opts = some obj ∧ obj.saved = true := by
    obtain ⟨files, pends⟩ := pends_savedCalls sizes (pends_walkStart opts empty) member
    exact SaveCall.counted_iff sizes pends
  have orderly : Orderly ctx (partObjs (walkParts mem ctx.md5 opts visits empty)) :=
    orderly_parts fit apart sound order
  have listed {obj : SavedObj} : obj ∈ partObjs (walkParts mem ctx.md5 opts visits empty) ↔
      obj ∈ walkObjs mem ctx.md5 opts visits empty := order.perm.mem_iff
  have kept (obj : SavedObj) : obj.excluded ctx = false := by
    simp [SavedObj.excluded, isFiledirExcluded, all]
  change _ ↔ Harmless (walkParts mem ctx.md5 opts visits empty)
  generalize walkParts mem ctx.md5 opts visits empty = parts at *
  have items : ({ exar with errors := 0 } : Extractar).queue = packetItems ctx.md5 ctx.fsid
      (parts.map Part.packet) ++ [.header ⟨.datf, endFsid, endDico⟩] := by
    rw [createarSaveDirectoryWrapper_queue] at queue
    rw [List.nil_append] at pushed
    rw [fsid]
    exact queue.trans (congrArg (· ++ _) pushed)
  have run := cutRun_parts exact (fun part member => fsid ▸ wellMade part member) orderly items
  cases run with
  | fails fails bad =>
    have returns : ran.1 = some (-1) := fails.returns
    rw [returns]
    exact ⟨fun good => absurd good.1 (by decide), fun good => absurd good.taken bad⟩
  | ends exar' garbage made lost reaches rest leaves lostInside onlyIf =>
    have final : ran = (some 0, exar') := reaches.ends rest
    have log : exar'.log = exar.log ++ made := reaches.log
    rw [final]
    constructor
    · rintro ⟨-, made', log', each⟩
      have same : made' = made := List.append_cancel_left (log'.symm.trans log)
      subst same
      have restored {obj : SavedObj} (among : obj ∈ partObjs parts) (saved : obj.saved = true) :
          obj.Restored ctx exar.log made' := by
        obtain ⟨call, member, object⟩ := List.mem_filterMap.mp (listed.mp among)
        obtain ⟨obj', object', restored⟩ := each call member ((pends member).mpr ⟨obj, object, saved⟩)
        rw [object, Option.some.injEq] at object'
        exact object' ▸ restored
      refine ⟨onlyIf.mpr fun obj member => ?_, fun obj among target links => ?_⟩
      · by_contra saved
        have among := lostInside member
        obtain ⟨part, inside, own⟩ := List.mem_flatMap.mp among
        exact (restored among (by simpa using saved)).touched ((wellMade part inside).obj own)
          (leaves.lost obj member)
      · obtain ⟨call, member, object⟩ := List.mem_filterMap.mp (listed.mp among)
        have saved := SaveCall.saved_of_link object links
        have paths := @savedCalls_paths mem ctx.md5 opts visits (walkStart opts empty)
        have freshCall {call : SaveCall} (member : call ∈ savedCalls mem ctx.md5 opts false visits
            (walkStart opts empty)) :=
          fresh call.relpath (paths.subset (List.mem_map_of_mem member))
        have own : Untouched exar.log (obj.fullpath ctx) := by
          unfold SavedObj.fullpath
          rw [(SaveCall.fields_of_object object).1]
          exact freshCall member
        obtain ⟨from', made⟩ := (restored among saved).link_made links own
        -- the file was there when the link was made
        have there : concatenatePaths ctx.destdir target ∈
            fullpaths ctx (partObjs (restoredParts false parts)) := by
          by_contra elsewhere
          obtain ⟨before, after, split⟩ := List.append_of_mem member
          have seen := SaveCall.linkTarget_of_object (sound call member) object links
          obtain ⟨first, inFront, rfl, -, -⟩ := first_of_linkTarget fit split seen
          have none : contentAt exar.log (concatenatePaths ctx.destdir first.relpath) = none := by
            have absent := freshCall (show first ∈ _ by
              rw [split]
              exact List.mem_append_left _ inFront)
            unfold contentAt
            rw [fileAt_eq, absent.history]
            rfl
          exact leaves.linked obj among _ links (leaves.gone _ elsewhere none) from' made
        obtain ⟨file, inside, same⟩ := List.mem_map.mp there
        refine ⟨file, inside, ?_⟩
        exact (file_of_link fit apart sound (listed.mp among)
          (listed.mp (restoredParts_subset _ _ inside)) links same.symm).1
    · rintro ⟨taken, linked⟩
      refine ⟨rfl, made, log, fun call member counted => ?_⟩
      obtain ⟨obj, object, saved⟩ := (pends member).mp counted
      have among : obj ∈ partObjs parts := listed.mpr (List.mem_filterMap.mpr ⟨call, member, object⟩)
      have inside := taken.restored wellMade among saved
      refine ⟨obj, object, (leaves.settled obj inside).kept (kept obj) fun target links => ?_⟩
      obtain ⟨file, inside', relpath⟩ := linked obj among target links
      have same : concatenatePaths ctx.destdir target = file.fullpath ctx := by
        unfold SavedObj.fullpath
        rw [relpath]
      have unique := (file_of_link fit apart sound (listed.mp among)
        (listed.mp (restoredParts_subset _ _ inside')) links same).2
      have restored := (leaves.settled file inside').kept (kept file) fun target links' => by
        have type := links'.1
        rw [unique] at type
        cases type
      have written := restored.file (by rw [unique]; rfl)
      rw [same, written.contentAt]
      rfl

/-! ## Two runs -/

/-- Where nothing fails but hard links to files that are not there. -/
def exactContext : Context :=
  { plainContext with
    os :=
      { answer := fun log call =>
          match call with
          | .link target _ => if (contentAt log target).isSome then 0 else -1
          | call => call.success
        missing := fun _ _ => false
        dirTimes := fun _ _ => (0, 0) } }

theorem exactContext_exact : exactContext.os.Exact where
  link log target path there := if_pos there
  answer log call sure := by
    cases call with
    | link target path => cases sure
    | _ => rfl
  missing log target path absent := by
    have fails : exactContext.os.answer log (.link target path) = -1 := by
      refine if_neg ?_
      rw [absent]
      decide
    rw [fails]
    decide

/-- Two files: what `open64` and `read` answer for `/a`, and an empty file `/b`. -/
def twoEntries (openFile : Option (Nat → Nat → Option (List UInt8))) : DirStream :=
  .entry [0x61] (some (plainFileStat 2 2)) { plainCalls with openFile } plainDirCalls .eof
    (.entry [0x62] (some (plainFileStat 1 0)) { plainCalls with openFile := some fun _ _ => some [] }
      plainDirCalls .eof .eof)

/-- What is left to restore once they are saved. -/
def twoEntriesExar (openFile : Option (Nat → Nat → Option (List UInt8))) : Extractar where
  queue := (createarSaveDirectoryWrapper plainMem exactContext.md5 plainOptions false plainSavear
    [slash] plainDirCalls (twoEntries openFile)).2.pushed ++ [.header ⟨.datf, 0, Dico.alloc⟩]
  log := []
  stats := {}
  errors := 0
  skipped := []

/-- The calls that save them. -/
def twoEntriesCalls (openFile : Option (Nat → Nat → Option (List UInt8))) : List SaveCall :=
  savedCalls plainMem exactContext.md5 plainOptions false
    (treeVisits plainOptions [slash] plainDirCalls (twoEntries openFile))
    (walkStart plainOptions { plainSavear with pushed := [] })

/-- Such calls answer as the kernel does. -/
theorem plainCalls_fromKernel (openFile : Option (Nat → Nat → Option (List UInt8))) :
    ({ plainCalls with openFile } : ObjectCalls).FromKernel where
  readlink := nofun
  listed := Nat.zero_le _
  names := nofun
  xattrs := nofun
  winattrs _ _ := nofun

/-- A file that cannot be opened harms no other one. -/
theorem counted_restored_unopened :
    let ran := extractarExtractReadObjects exactContext (twoEntriesExar none)
    ran.1 = some 0 ∧ ∃ made, ran.2.log = [] ++ made ∧
      ∀ call ∈ twoEntriesCalls none, call.Counted plainMem exactContext.md5 plainOptions →
        ∃ obj, call.object exactContext.md5 plainOptions = some obj ∧
          obj.Restored exactContext [] made := by
  have objects : savedObjects false (treeVisits plainOptions [slash] plainDirCalls
      (twoEntries none)) = [⟨[slash], plainDirStat, plainCalls⟩,
        ⟨[slash, 0x61], plainFileStat 2 2, plainCalls⟩,
        ⟨[slash, 0x62], plainFileStat 1 0,
          { plainCalls with openFile := some fun _ _ => some [] }⟩] := rfl
  have named (name : UInt8) (other : name ≠ slash) (notNul : name ≠ 0) : IsName [name] :=
    ⟨List.cons_ne_nil _ _, by simpa using other.symm, by simpa using notNul.symm⟩
  refine (counted_restored_iff plainMem plainOptions plainOptions_fromCmdline plainSavear [slash]
    plainDirCalls (twoEntries none) ?_ ?_ ?_ exactContext exactContext_exact (fun _ => rfl) rfl 0
    Dico.alloc (twoEntriesExar none) (fun _ _ _ => nofun) rfl).mpr ?_
  · exact ⟨named 0x61 (by decide) (by decide), by decide, trivial,
      named 0x62 (by decide) (by decide), by decide, trivial, trivial⟩
  · unfold PathsFit
    decide
  · rw [objects]
    simp only [List.mem_cons, List.not_mem_nil, or_false, forall_eq_or_imp, forall_eq]
    exact ⟨plainCalls_fromKernel none, plainCalls_fromKernel none, plainCalls_fromKernel _⟩
  · let parts := walkParts plainMem exactContext.md5 plainOptions
      (treeVisits plainOptions [slash] plainDirCalls (twoEntries none))
      { plainSavear with pushed := [] }
    have whole : ∀ part ∈ parts, part.isWhole = true := by decide +kernel
    have noLinks : ∀ obj ∈ partObjs parts, obj.objtype ≠ .hardlink := by decide +kernel
    exact Harmless.of_whole whole noLinks

/-- A file that cannot be read takes the next one with it, although that one counts as saved. -/
theorem cut_file_takes_next :
    let ran := extractarExtractReadObjects exactContext (twoEntriesExar (some fun _ _ => none))
    ran.1 = some 0 ∧
      ¬∃ made, ran.2.log = [] ++ made ∧ ∀ call ∈ twoEntriesCalls (some fun _ _ => none),
        call.Counted plainMem exactContext.md5 plainOptions →
          ∃ obj, call.object exactContext.md5 plainOptions = some obj ∧
            obj.Restored exactContext [] made := by
  intro ran
  refine ⟨by decide +kernel, ?_⟩
  rintro ⟨made, log, each⟩
  let call : SaveCall := (twoEntriesCalls (some fun _ _ => none)).getLast (by decide +kernel)
  have counted : call.Counted plainMem exactContext.md5 plainOptions := by
    unfold SaveCall.Counted
    decide +kernel
  obtain ⟨obj, object, restored⟩ := each call (List.getLast_mem _) counted
  obtain ⟨relpath, -, type, -⟩ := SaveCall.fields_of_object object
  have path : obj.fullpath exactContext = [slash, 0x62] := by
    unfold SavedObj.fullpath
    rw [relpath]
    decide +kernel
  have isRegfile : obj.objtype.isRegfile = true := by
    rw [type]
    decide +kernel
  have untouched : Untouched made [slash, 0x62] := by
    have whole : ∀ entry ∈ ran.2.log, entry.1.object ≠ some [slash, 0x62] := by decide +kernel
    rw [log] at whole
    exact whole
  obtain ⟨fsid, sparse, blocks, -, own⟩ := restored.file isRegfile
  rw [path, untouched.history] at own
  cases own

end FsArchiver
