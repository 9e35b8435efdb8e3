import FsArchiver.LostItems
import Mathlib.Algebra.Order.BigOperators.Group.List
import Mathlib.Algebra.Order.Ring.Nat

/-!
# Excluded objects and the counters

The counters of a restoration become its exit status. When a tree that was saved without a failure
is restored without a failure, an excluded regular file is not counted, but any other excluded
object counts as an error: the functions that restore objects made of their header take an
exclusion for a failure.
-/
namespace FsArchiver

open Lib

variable {ctx : Context} {obj : SavedObj} {stats stats' : Stats}

/-- The object is a hard link to a file that is excluded. -/
def LinksToExcluded (ctx : Context) (obj : SavedObj) : Prop :=
  ∃ target, obj.LinksTo target ∧ isFiledirExcluded ctx.exclude target = true

/-- What the counters should make of an object: an excluded one is not counted, and any other one
is restored, but for a hard link whose file is excluded. -/
inductive CountsFairly (ctx : Context) (stats : Stats) (obj : SavedObj) : Stats → Prop
  | restored (kept : obj.excluded ctx = false) : CountsFairly ctx stats obj (stats.count obj.objtype)
  | ignored (out : obj.excluded ctx = true) : CountsFairly ctx stats obj stats
  | unlinked (kept : obj.excluded ctx = false) (lost : LinksToExcluded ctx obj) :
      CountsFairly ctx stats obj (stats.fail obj.objtype)

/-- Excluding is not failing: all objects are counted fairly, and there are no errors unless a
hard link has lost its file. -/
structure NotFailing (ctx : Context) (objs : List SavedObj) (stats stats' : Stats) : Prop where
  fairly : Steps (CountsFairly ctx) stats objs stats'
  errors : (∀ obj ∈ objs, obj.excluded ctx = false → ¬LinksToExcluded ctx obj) →
    statsErrcount stats' = statsErrcount stats

/-! ## How many objects are counted -/

/-- All objects that were counted, as restored or as errors. -/
def Stats.total (stats : Stats) : Nat := stats.counted + statsErrcount stats

/-- Every type has a counter but one. -/
def ObjType.counters : ObjType → Nat
  | .null => 0
  | _ => 1

theorem total_count (stats : Stats) (type : ObjType) :
    (stats.count type).total = stats.total + type.counters := by
  unfold Stats.total Stats.counted statsErrcount Stats.count ObjType.counters
  cases type <;> simp only [] <;> omega

theorem total_fail (stats : Stats) (type : ObjType) :
    (stats.fail type).total = stats.total + type.counters := by
  unfold Stats.total Stats.counted statsErrcount Stats.fail ObjType.counters
  cases type <;> simp only [] <;> omega

/-- How often an object is counted if it is counted fairly. -/
def SavedObj.fairShare (ctx : Context) (obj : SavedObj) : Nat :=
  if obj.excluded ctx then 0 else obj.objtype.counters

/-- How often it is counted. -/
def SavedObj.share (ctx : Context) (obj : SavedObj) : Nat :=
  if obj.excluded ctx && obj.objtype.isRegfile then 0 else obj.objtype.counters

theorem CountsFairly.total (counts : CountsFairly ctx stats obj stats') :
    stats'.total = stats.total + obj.fairShare ctx := by
  unfold SavedObj.fairShare
  cases counts with
  | restored kept => rw [total_count, kept, if_neg Bool.false_ne_true]
  | ignored out => rw [out, if_pos rfl, Nat.add_zero]
  | unlinked kept lost => rw [total_fail, kept, if_neg Bool.false_ne_true]

theorem Counts.total {missing : SavedObj → Prop} (counts : Counts ctx missing stats obj stats') :
    stats'.total = stats.total + obj.share ctx := by
  unfold SavedObj.share
  cases counts with
  | restored kept => rw [total_count, kept, Bool.false_and, if_neg Bool.false_ne_true]
  | skipped out isRegfile => rw [out, isRegfile, Bool.true_and, if_pos rfl, Nat.add_zero]
  | refused out isEntry => rw [total_fail, isEntry, Bool.and_false, if_neg Bool.false_ne_true]
  | unlinked kept lost => rw [total_fail, kept, Bool.false_and, if_neg Bool.false_ne_true]

/-- A type that is counted. -/
theorem counters_of_known {type : ObjType} (known : type ≠ .null) : type.counters = 1 := by
  cases type with
  | null => exact absurd rfl known
  | dir | symlink | hardlink | chardev | blockdev | fifo | socket | regfileunique
  | regfilemulti => rfl

/-- Every object of an archive has a type that is counted. -/
theorem Part.WellMade.known {md5 : Md5} {fsid : UInt16} {part : Part}
    (wellMade : part.WellMade md5 fsid) (member : obj ∈ part.objs) : obj.objtype ≠ .null := by
  cases part with
  | single own =>
    rw [List.mem_singleton.mp member]
    exact wellMade.2.isEntry.2
  | file own blocks =>
    rw [List.mem_singleton.mp member, wellMade.2.1]
    decide
  | cut own blocks =>
    rw [List.mem_singleton.mp member, wellMade.2.1]
    decide
  | pack objs =>
    rw [(wellMade.2.1 obj member).multi]
    decide

/-! ## One object after the other -/

/-- An object that is counted, and counted as it should be. -/
theorem Counts.fairly (counts : Counts ctx (LinksToExcluded ctx) stats obj stats')
    (files : obj.excluded ctx = true → obj.objtype.isRegfile = true) :
    CountsFairly ctx stats obj stats' := by
  cases counts with
  | restored kept => exact .restored kept
  | skipped out isRegfile => exact .ignored out
  | refused out isEntry =>
    rw [files out] at isEntry
    cases isEntry
  | unlinked kept lost => exact .unlinked kept lost

/-- Without a lost file there is no error. -/
theorem CountsFairly.errcount (counts : CountsFairly ctx stats obj stats')
    (linked : obj.excluded ctx = false → ¬LinksToExcluded ctx obj) :
    statsErrcount stats' = statsErrcount stats := by
  cases counts with
  | restored kept =>
    unfold statsErrcount Stats.count
    cases obj.objtype <;> rfl
  | ignored out => rfl
  | unlinked kept lost => exact absurd lost (linked kept)

/-- From what the counters make of the objects of an archive: they are counted fairly if and only
if only regular files are excluded. -/
theorem notFailing_iff {objs : List SavedObj} (known : ∀ obj ∈ objs, obj.objtype ≠ .null)
    (counts : Steps (Counts ctx (LinksToExcluded ctx)) stats objs stats') :
    NotFailing ctx objs stats stats' ↔
      ∀ obj ∈ objs, obj.excluded ctx = true → obj.objtype.isRegfile = true := by
  constructor
  · intro notFailing obj member out
    by_contra isEntry
    have fair := notFailing.fairly.sum_eq Stats.total (SavedObj.fairShare ctx)
      fun _ _ _ counts => counts.total
    have all := counts.sum_eq Stats.total (SavedObj.share ctx) fun _ _ _ counts => counts.total
    have more : (objs.map (SavedObj.fairShare ctx)).sum < (objs.map (SavedObj.share ctx)).sum := by
      apply List.sum_lt_sum
      · intro obj _
        unfold SavedObj.fairShare SavedObj.share
        cases obj.excluded ctx <;> simp
      · refine ⟨obj, member, ?_⟩
        unfold SavedObj.fairShare SavedObj.share
        rw [out, if_pos rfl, Bool.true_and, if_neg isEntry, counters_of_known (known obj member)]
        exact Nat.one_pos
    omega
  · intro files
    have fairly : Steps (CountsFairly ctx) stats objs stats' :=
      counts.mono fun _ obj member _ counts => counts.fairly (files obj member)
    refine ⟨fairly, fun linked => ?_⟩
    have silent : Steps (fun stats _ stats' => statsErrcount stats' = statsErrcount stats) stats objs
        stats' :=
      fairly.mono fun _ obj member _ counts => counts.errcount (linked obj member)
    simpa using silent.sum_eq statsErrcount (fun _ => 0) fun _ _ _ same => same

/-! ## The whole run -/

/-- What is known of a restoration in which no call fails. -/
structure WholeRun (ctx : Context) (exar : Extractar) (objs : List SavedObj)
    (ran : Option Int × Extractar) : Prop where
  /-- `extractar_extract_read_objects` returns 0 and reports no error. -/
  returns : ran.1 = some 0
  errors : ran.2.errors = 0
  /-- All objects are well made, and in order. -/
  wellMade : ∀ obj ∈ objs, obj.WellMade ∧ obj.objtype ≠ .null
  orderly : Orderly ctx objs
  /-- All of them are counted and restored, but maybe for links to files that are excluded. -/
  counts : Steps (Counts ctx (LinksToExcluded ctx)) exar.stats objs ran.2.stats
  restores : Steps (RestoresBy ctx (LinksToExcluded ctx)) exar.log objs ran.2.log

/-- The restoration of a tree that was saved without a failure. -/
theorem wholeRun_of_counted (mem : Mem) {opts : SaveOptions} (sizes : opts.FromCmdline)
    {save : Savear} {path : Path} {dir : DirCalls} {entries : DirStream} (wellNamed : entries.WellNamed)
    (fit : PathsFit (visitedPaths (treeVisits opts path dir entries)))
    (fromKernel : ∀ object ∈ savedObjects false (treeVisits opts path dir entries),
      object.calls.FromKernel)
    (calm : ctx.os.Calm) (fsid : ctx.fsid = save.fsid)
    (counted : ∀ call ∈ savedCalls mem ctx.md5 opts false (treeVisits opts path dir entries)
      (walkStart opts { save with pushed := [] }), call.Counted mem ctx.md5 opts)
    {endFsid : UInt16} {endDico : Dico} {exar : Extractar}
    (queue : exar.queue = (createarSaveDirectoryWrapper mem ctx.md5 opts false
      { save with pushed := [] } path dir entries).2.pushed ++
      [.header ⟨.datf, endFsid, endDico⟩]) :
    let objs := partObjs (walkParts mem ctx.md5 opts (treeVisits opts path dir entries)
      { save with pushed := [] })
    SameOrder objs (walkObjs mem ctx.md5 opts (treeVisits opts path dir entries)
      { save with pushed := [] }) ∧
      WholeRun ctx exar objs (extractarExtractReadObjects ctx exar) := by
  intro objs
  let empty : Savear := { save with pushed := [] }
  have apart : PathsApart (visitedPaths (treeVisits opts path dir entries)) :=
    treeVisits_apart wellNamed
  obtain ⟨pushed, wellMade, order⟩ := @parts_visits ctx.md5 _ mem _ sizes empty fit fromKernel
  have sound := @sound_savedCalls ctx.md5 opts mem _ (walkStart opts empty) rfl fit fromKernel
  have orderly : Orderly ctx objs := orderly_parts fit apart sound order
  have listed {obj : SavedObj} : obj ∈ objs ↔
      obj ∈ walkObjs mem ctx.md5 opts (treeVisits opts path dir entries) empty :=
    order.perm.mem_iff
  have whole := isWhole_of_counted sizes wellMade (fun obj => listed.mp) counted
  rw [createarSaveDirectoryWrapper_queue] at queue
  rw [List.nil_append, show empty.fsid = ctx.fsid from fsid.symm] at pushed
  have items : ({ exar with errors := 0 } : Extractar).queue = packetItems ctx.md5 ctx.fsid
      ((walkParts mem ctx.md5 opts (treeVisits opts path dir entries) empty).map Part.packet) ++
        [.header ⟨.datf, endFsid, endDico⟩] := queue.trans (congrArg (· ++ _) pushed)
  obtain ⟨exar', made, reaches, rest, counts, restores, -, settled⟩ := reaches_parts calm
    (fun part member => fsid ▸ wellMade part member) whole orderly items
  -- a file that is not excluded was made before any of its links
  have excluded {obj : SavedObj} (among : obj ∈ objs) (nowhere : LinksNowhere ctx (exar.log ++ made) obj) :
      LinksToExcluded ctx obj := by
    obtain ⟨target, links, none⟩ := nowhere
    refine ⟨target, links, ?_⟩
    obtain ⟨file, inWalk, relpath, unique⟩ :=
      link_has_file sizes fit apart sound counted (listed.mp among) links
    by_contra kept
    have included : file.excluded ctx = false := by
      unfold SavedObj.excluded
      rw [relpath]
      exact eq_false_of_ne_true kept
    have restored := (settled file (listed.mpr inWalk)).kept included fun target links' =>
      absurd (unique.symm.trans links'.1) (by decide)
    have written := restored.file (by rw [unique]; rfl)
    have content := written.contentAt exar.log
    unfold SavedObj.fullpath at content
    rw [relpath, none] at content
    cases content
  have final : extractarExtractReadObjects ctx exar = (some 0, exar') := reaches.ends rest
  rw [final]
  refine ⟨order, rfl, reaches.errors, fun obj among => ?_, orderly, ?_, ?_⟩
  · obtain ⟨part, member, inPart⟩ := List.mem_flatMap.mp among
    exact ⟨(wellMade part member).obj inPart, (wellMade part member).known inPart⟩
  · exact counts.mono fun _ obj among _ counts => counts.mono (excluded among)
  · exact restores.mono fun _ obj among _ restores => restores.mono (excluded among)

/-- A tree that was saved without a failure is restored without a failing call, under any list of
patterns: the loop comes to the end and reports no error, and excluding is not failing if and only
if all excluded objects are regular files. -/
theorem excluding_not_failing_iff (mem : Mem) (opts : SaveOptions) (sizes : opts.FromCmdline)
    (save : Savear) (path : Path) (dir : DirCalls) (entries : DirStream)
    (wellNamed : entries.WellNamed) (fit : PathsFit (visitedPaths (treeVisits opts path dir entries)))
    (fromKernel : ∀ object ∈ savedObjects false (treeVisits opts path dir entries),
      object.calls.FromKernel)
    (ctx : Context) (calm : ctx.os.Calm) (fsid : ctx.fsid = save.fsid)
    (counted : ∀ call ∈ savedCalls mem ctx.md5 opts false (treeVisits opts path dir entries)
      (walkStart opts { save with pushed := [] }), call.Counted mem ctx.md5 opts)
    (endFsid : UInt16) (endDico : Dico) (exar : Extractar)
    (queue : exar.queue = (createarSaveDirectoryWrapper mem ctx.md5 opts false
      { save with pushed := [] } path dir entries).2.pushed ++
      [.header ⟨.datf, endFsid, endDico⟩]) :
    let objs := partObjs (walkParts mem ctx.md5 opts (treeVisits opts path dir entries)
      { save with pushed := [] })
    let ran := extractarExtractReadObjects ctx exar
    ran.1 = some 0 ∧ ran.2.errors = 0 ∧ (NotFailing ctx objs exar.stats ran.2.stats ↔
      ∀ obj ∈ objs, obj.excluded ctx = true → obj.objtype.isRegfile = true) := by
  intro objs ran
  have run := (wholeRun_of_counted mem sizes wellNamed fit fromKernel calm fsid counted queue).2
  exact ⟨run.returns, run.errors,
    notFailing_iff (fun obj member => (run.wellMade obj member).2) run.counts⟩

/-- What is left to restore of two files and their directory. -/
def twoEntriesWhole : Extractar where
  queue := twoEntriesQueue ++ [.header ⟨.datf, 0, Dico.alloc⟩]
  log := []
  stats := {}
  errors := 0
  skipped := []

/-- The objects on the queue. -/
def twoEntriesQueued : List SavedObj :=
  partObjs (walkParts plainMem exactContext.md5 plainOptions
    (treeVisits plainOptions [slash] plainDirCalls (twoEntries twoBytes))
    { plainSavear with pushed := [] })

/-- One of the files may be excluded. -/
theorem excluding_file_not_failing :
    let ctx := { exactContext with exclude := fun path => decide (path = [0x61]) }
    NotFailing ctx twoEntriesQueued {} (extractarExtractReadObjects ctx twoEntriesWhole).2.stats := by
  intro ctx
  have files : ∀ obj ∈ twoEntriesQueued, obj.excluded ctx = true → obj.objtype.isRegfile = true := by
    decide +kernel
  exact (excluding_not_failing_iff plainMem plainOptions plainOptions_fromCmdline plainSavear [slash]
    plainDirCalls (twoEntries twoBytes) (twoEntries_wellNamed twoBytes) (by unfold PathsFit; decide)
    twoEntries_fromKernel ctx ⟨exactContext_exact.toCalm.link, exactContext_exact.toCalm.answer⟩ rfl
    twoEntries_counted 0 Dico.alloc twoEntriesWhole rfl).2.2.mpr files

/-- When everything is excluded, their directory counts as an error. -/
theorem excluding_directory_fails :
    let ctx := { exactContext with exclude := fun _ => true }
    (∀ obj ∈ twoEntriesQueued, obj.excluded ctx = true) ∧
      statsErrcount (extractarExtractReadObjects ctx twoEntriesWhole).2.stats = 1 ∧
      ¬NotFailing ctx twoEntriesQueued {} (extractarExtractReadObjects ctx twoEntriesWhole).2.stats := by
  intro ctx
  have one : statsErrcount (extractarExtractReadObjects ctx twoEntriesWhole).2.stats = 1 := by
    decide +kernel
  refine ⟨fun _ _ => rfl, one, fun notFailing => ?_⟩
  have none := notFailing.errors fun obj _ kept => by cases kept
  rw [one] at none
  cases none

end FsArchiver
