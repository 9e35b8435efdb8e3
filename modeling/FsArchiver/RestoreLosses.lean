import FsArchiver.RestoreUnfooted

/-!
# Objects that are lost

What a restoration does once something is missing: a pack with a header or its block missing ends
it, what is left of other objects is garbage, and a hard link whose file is not there is not made.
-/
namespace FsArchiver

open Lib

variable {ctx : Context} {exar exar' exar'' : Extractar} {rest rest' : List QueueData}
  {log made made' : Log} {obj : SavedObj}

/-! ## Packs -/

/-- A header of an object that cannot be restored at all ends the loop. -/
theorem extractStep_failed {d : Dico} (queue : exar.queue = objectItem ctx.fsid d :: rest)
    (failed : (extractarRestoreObject ctx { exar with queue := rest } d).1 = false) :
    ∃ exar', extractStep ctx exar = (some (-1), exar') := by
  refine ⟨(extractarRestoreObject ctx { exar with queue := rest } d).2, ?_⟩
  have pair : extractarRestoreObject ctx { exar with queue := rest } d =
      (false, (extractarRestoreObject ctx { exar with queue := rest } d).2) := Prod.ext failed rfl
  unfold extractStep
  simp only [queue, objectItem, ↓reduceIte]
  rw [pair]

/-- The headers of a pack end early. -/
theorem restoreHeaders_short (fsid : UInt16) (headers : List Dico) (more : Nat)
    (regmulti : Regmulti) (blkinfo : BlockInfo) (rest : List QueueData) :
    (restoreHeaders (headers.length + more + 1) regmulti
      (headers.map (objectItem fsid) ++ .block blkinfo :: rest)).1 = false := by
  induction headers generalizing regmulti with
  | nil => rfl
  | cons header headers ih =>
    have count : (header :: headers).length + more + 1 = (headers.length + more + 1) + 1 := by
      rw [List.length_cons]
      omega
    rw [count, List.map_cons, List.cons_append, restoreHeaders]
    simp only [objectItem, dequeueHeader, ne_eq, not_true_eq_false, ↓reduceIte]
    cases regmultiRestAddheader regmulti header with
    | none => rfl
    | some regmulti => exact ih regmulti

/-- The restoration of a pack of which a header is missing. -/
theorem extractStep_pack_short {count offset : UInt32} {headers : List Dico}
    {blkinfo : BlockInfo} (packed : obj.Packed ctx.md5)
    (fewer : headers.length + 1 < count.toNat)
    (queue : exar.queue = objectItem ctx.fsid (placedHeader count offset obj.d) ::
      (headers.map (objectItem ctx.fsid) ++ .block blkinfo :: rest)) :
    ∃ exar', extractStep ctx exar = (some (-1), exar') := by
  refine extractStep_failed queue ?_
  have counted : dicoGetU32 ctx.mem (placedHeader count offset obj.d) Section.stdattr
      ItemKey.multifilescount = some count := packed.packable.readCount ctx.mem count offset
  have add : regmultiRestAddheader (regmultiInit maxBlkSize) (placedHeader count offset obj.d) =
      some ⟨maxBlkSize, [placedHeader count offset obj.d], []⟩ := rfl
  have number : count.toNat - 1 = headers.length + (count.toNat - headers.length - 2) + 1 := by omega
  have short := restoreHeaders_short ctx.fsid headers (count.toNat - headers.length - 2)
    ⟨maxBlkSize, [placedHeader count offset obj.d], []⟩ blkinfo rest
  rw [← number] at short
  rw [extractarRestoreObject_multi packed.wellMade packed.multi]
  simp only [extractarRestoreObjRegfileMulti, counted, add]
  cases ran : restoreHeaders (count.toNat - 1) ⟨maxBlkSize, [placedHeader count offset obj.d], []⟩
      (headers.map (objectItem ctx.fsid) ++ .block blkinfo :: rest) with
  | mk goesOn left =>
    rw [ran] at short
    subst short
    rfl

/-- The restoration of a pack whose block is missing. -/
theorem extractStep_pack_headers {count offset : UInt32} {headers : List Dico}
    {head : HeadInfo} (packed : obj.Packed ctx.md5) (all : headers.length + 1 = count.toNat)
    (few : headers.length + 1 ≤ maxSmallFileCount)
    (queue : exar.queue = objectItem ctx.fsid (placedHeader count offset obj.d) ::
      (headers.map (objectItem ctx.fsid) ++ .header head :: rest)) :
    ∃ exar', extractStep ctx exar = (some (-1), exar') := by
  refine extractStep_failed queue ?_
  have counted : dicoGetU32 ctx.mem (placedHeader count offset obj.d) Section.stdattr
      ItemKey.multifilescount = some count := packed.packable.readCount ctx.mem count offset
  have add : regmultiRestAddheader (regmultiInit maxBlkSize) (placedHeader count offset obj.d) =
      some ⟨maxBlkSize, [placedHeader count offset obj.d], []⟩ := rfl
  have number : count.toNat - 1 = headers.length := by omega
  have taken := @restoreHeaders_pack ctx.fsid headers (.header head :: rest)
    ⟨maxBlkSize, [placedHeader count offset obj.d], []⟩ (by rw [List.length_singleton]; omega)
  rw [extractarRestoreObject_multi packed.wellMade packed.multi]
  simp only [extractarRestoreObjRegfileMulti, counted, add, number, taken]
  rfl

/-- The queue ends too early. -/
theorem extractStep_nil (queue : exar.queue = []) : extractStep ctx exar = (some (-1), exar) := by
  unfold extractStep
  rw [queue]

/-! ## Hard links -/

/-- A system on which nothing fails but hard links to files that are not there. -/
structure Os.Exact (os : Os) : Prop extends Os.Calm os where
  missing : ∀ log target path, contentAt log target = none → os.answer log (.link target path) ≠ 0

/-- Entering the directory of an object is not about any object. -/
theorem enterParent_none (path : Path) : Traced.Adds (fun entry => entry.1.object = none)
    (fun _ => True) (enterParent ctx path) := by
  have each (paths : List Path) : Traced.Adds (fun entry : SysCall × Int => entry.1.object = none)
      (fun _ => True) (mkdirEach ctx.os paths) := by
    induction paths with
    | nil => exact Traced.Adds.pure trivial
    | cons buffer paths ih =>
      refine Traced.Adds.andThen (fun _ => True) (fun log => ⟨[], ?_, by simp, trivial⟩) ?_
      · exact (List.append_nil log).symm
      · intro missing _
        refine Traced.Adds.ite (fun _ => ?_) fun _ => ih
        exact (adds_call fun _ => rfl).bind fun _ _ => ih
  refine Traced.Adds.bind (each _) fun _ _ log => ⟨[], ?_, by simp, trivial⟩
  exact (List.append_nil log).symm

/-- A hard link to a file that is not there is not made. -/
theorem restoreEntry_missing (exact : ctx.os.Exact) {path relpath target : Path} {d : Dico}
    {objtype : UInt32} (read : readTarget d ItemKey.hardlink = some target)
    (absent : contentAt log (concatenatePaths ctx.destdir target) = none) {value : Bool}
    (gives : Traced.Gives (restoreEntry ctx path relpath d objtype (makeHardlink ctx path d)) log value
      made) (from' : Path) : (SysCall.link from' path, (0 : Int)) ∉ made := by
  unfold restoreEntry at gives
  split at gives
  · have none : log = log ++ made := (Prod.mk.inj gives).2
    rw [List.self_eq_append_right.mp none]
    exact List.not_mem_nil
  · obtain ⟨tv, entered, enter, quiet, -⟩ := (@enterParent_none ctx path).gives log
    have still : contentAt (log ++ entered) (concatenatePaths ctx.destdir target) = none := by
      rw [contentAt_append_of_object fun entry member => by
        rw [quiet entry member]
        exact fun isObject => by cases isObject]
      exact absent
    have failed := exact.missing (log ++ entered) (concatenatePaths ctx.destdir target) path still
    let res := ctx.os.answer (log ++ entered) (.link (concatenatePaths ctx.destdir target) path)
    have ran : (false, log ++ entered ++ [(.link (concatenatePaths ctx.destdir target) path, res)]) =
        (value, log ++ made) := by
      rw [← show _ = (value, log ++ made) from gives]
      unfold Traced.Gives at enter
      simp [Traced.run_bind, enter, makeHardlink, read, Os.call, failed, res]
    have whole := (Prod.mk.inj ran).2
    rw [List.append_assoc] at whole
    rw [← List.append_cancel_left whole]
    intro member
    rcases List.mem_append.mp member with member | member
    · exact absurd (quiet _ member) fun same => by cases same
    · have last := List.mem_singleton.mp member
      exact failed (Prod.mk.inj last).2.symm

/-- The calls of a round are determined. -/
theorem Round.same (round : Round ctx exar exar' rest made)
    (other : Round ctx exar exar'' rest' made') : made = made' := by
  have same := round.step.symm.trans other.step
  have log : exar'.log = exar''.log := congrArg Extractar.log (Prod.mk.inj same).2
  rw [round.log, other.log] at log
  exact List.append_cancel_left log

/-- The round for a hard link to a file that is not there. -/
theorem SavedObj.round_missing (exact : ctx.os.Exact) (wellMade : obj.WellMade) {target : Path}
    (links : obj.LinksTo target) (queue : exar.queue = objectItem ctx.fsid obj.d :: rest)
    (absent : contentAt exar.log (concatenatePaths ctx.destdir target) = none)
    (round : Round ctx exar exar' rest' made) (from' : Path) :
    (SysCall.link from' (obj.fullpath ctx), (0 : Int)) ∉ made := by
  let entry := restoreEntry ctx (obj.fullpath ctx) obj.relpath obj.d obj.objtype.code
    (makeHardlink ctx (obj.fullpath ctx) obj.d)
  have about : Sys.About (obj.fullpath ctx) entry := restoreEntry_about (makeHardlink_about _)
  obtain ⟨value, made', gives, -, -⟩ := about.gives exar.log
  have ran : entry.run exar.log = (value, exar.log ++ made') := gives
  have restored := @extractarRestoreObject_entry ctx _ wellMade (by rw [links.1]; rfl)
      (by rw [links.1]; nofun) { exar with queue := rest }
  rw [links.1] at restored
  have whole : restoreHeaderOnly { exar with queue := rest } .hardlink
      (restoreEntry ctx (obj.fullpath ctx) obj.relpath obj.d ObjType.hardlink.code
        (makeEntry ctx (obj.fullpath ctx) obj.d .hardlink)) = (true, { exar with
        queue := rest, log := exar.log ++ made'
        stats := if value then exar.stats.count .hardlink else exar.stats.fail .hardlink }) := by
    simp only [entry, links.1] at ran
    unfold restoreHeaderOnly
    simp only [makeEntry, ran]
  have step := extractStep_object queue (restored.trans whole)
  have other : Round ctx exar _ rest made' := ⟨step, rfl, rfl, rfl, rfl⟩
  rw [round.same other]
  exact restoreEntry_missing exact links.2 absent gives from'

/-- A hard link that was not made is not restored. -/
theorem SavedObj.Restored.link_made (restored : obj.Restored ctx log made) {target : Path}
    (links : obj.LinksTo target) (fresh : Untouched log (obj.fullpath ctx)) :
    ∃ from', (SysCall.link from' (obj.fullpath ctx), (0 : Int)) ∈ made := by
  have entry := restored.entry (by rw [links.1]; rfl)
  rw [links.1] at entry
  obtain ⟨target', -, member⟩ := entry
  rcases List.mem_append.mp member with member | member
  · exact absurd rfl (fresh _ member)
  · exact ⟨_, member⟩

end FsArchiver
