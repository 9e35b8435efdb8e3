import FsArchiver.SavedParts

/-!
# Runs of the loop over all objects

Rounds follow each other until the end header comes. Every part of an archive takes one round, and
since objects are independent of each other, an object that was restored stays so. Only hard links
need something else: the file they point to.
-/
namespace FsArchiver

open Lib

variable {ctx : Context} {exar exar' exar'' : Extractar} {rest : List QueueData}

/-! ## Rounds one after the other -/

/-- The loop comes from one state to another, skipping some items as garbage. -/
structure Reaches (ctx : Context) (exar exar' : Extractar) (garbage : List QueueData)
    (made : Log) : Prop where
  /-- Every round takes at least one item from the queue. -/
  rounds : ∃ n, exar'.queue.length + n ≤ exar.queue.length ∧
    ∀ fuel, extractLoop ctx (fuel + n) exar = extractLoop ctx fuel exar'
  log : exar'.log = exar.log ++ made
  skipped : exar'.skipped = exar.skipped ++ garbage
  errors : exar'.errors = exar.errors

/-- No round. -/
theorem Reaches.refl (exar : Extractar) : Reaches ctx exar exar [] [] where
  rounds := ⟨0, Nat.le_refl _, fun _ => rfl⟩
  log := (List.append_nil _).symm
  skipped := (List.append_nil _).symm
  errors := rfl

theorem Reaches.trans {garbage garbage' : List QueueData} {made made' : Log}
    (first : Reaches ctx exar exar' garbage made) (second : Reaches ctx exar' exar'' garbage' made') :
    Reaches ctx exar exar'' (garbage ++ garbage') (made ++ made') where
  rounds := by
    obtain ⟨n, shorter, same⟩ := first.rounds
    obtain ⟨n', shorter', same'⟩ := second.rounds
    refine ⟨n' + n, by omega, fun fuel => ?_⟩
    rw [← Nat.add_assoc, same, same']
  log := by rw [second.log, first.log, List.append_assoc]
  skipped := by rw [second.skipped, first.skipped, List.append_assoc]
  errors := second.errors.trans first.errors

/-- One round. -/
theorem Reaches.step {garbage : List QueueData} {made : Log}
    (step : extractStep ctx exar = (none, exar'))
    (shorter : exar'.queue.length < exar.queue.length) (log : exar'.log = exar.log ++ made)
    (skipped : exar'.skipped = exar.skipped ++ garbage) (errors : exar'.errors = exar.errors) :
    Reaches ctx exar exar' garbage made where
  rounds := by
    refine ⟨1, by omega, fun fuel => ?_⟩
    rw [extractLoop, step]
  log := log
  skipped := skipped
  errors := errors

theorem Round.reaches {made : Log} (round : Round ctx exar exar' rest made)
    (shorter : rest.length < exar.queue.length) : Reaches ctx exar exar' [] made :=
  Reaches.step round.step (by rw [round.queue]; exact shorter) round.log
    (by rw [round.skipped, List.append_nil]) round.errors

/-- The loop skips the item. -/
def QueueData.isGarbage : QueueData → Bool
  | .header ⟨.objt, _, _⟩ | .header ⟨.datf, _, _⟩ => false
  | _ => true

/-- Garbage is skipped. -/
theorem reaches_garbage {items : List QueueData} (garbage : ∀ item ∈ items, item.isGarbage = true)
    (queue : exar.queue = items ++ rest) :
    Reaches ctx exar { exar with queue := rest, skipped := exar.skipped ++ items } items [] := by
  induction items generalizing exar with
  | nil =>
    have same : { exar with queue := rest, skipped := exar.skipped ++ [] } = exar := by
      rw [List.nil_append] at queue
      rw [List.append_nil, ← queue]
    rw [same]
    exact Reaches.refl exar
  | cons item items ih =>
    have own := garbage item List.mem_cons_self
    let next : Extractar :=
      { exar with queue := items ++ rest, skipped := exar.skipped ++ [item] }
    have skip : extractStep ctx exar = (none, next) := by
      unfold extractStep
      rw [queue, List.cons_append]
      cases item with
      | block blkinfo => rfl
      | header headinfo =>
        obtain ⟨magic, fsid, dico⟩ := headinfo
        cases magic with
        | objt | datf => cases own
        | volh | volf | main | fsin | fsyb | dirs | filf | blkh => rfl
    have first : Reaches ctx exar next [item] [] :=
      Reaches.step skip (by rw [queue]; simp [next]) (List.append_nil _).symm rfl rfl
    have second := @ih next (fun item member => garbage item (List.mem_cons_of_mem _ member)) rfl
    simpa [next] using first.trans second

/-- The end header ends the loop. -/
theorem Reaches.ends {garbage : List QueueData} {made : Log} {fsid : UInt16} {d : Dico}
    (reaches : Reaches ctx { exar with errors := 0 } exar' garbage made)
    (queue : exar'.queue = .header ⟨.datf, fsid, d⟩ :: rest) :
    extractarExtractReadObjects ctx exar = (some 0, exar') := by
  obtain ⟨n, shorter, same⟩ := reaches.rounds
  have fuel : exar.queue.length + 1 = (exar.queue.length - n) + 1 + n := by
    rw [queue, List.length_cons] at shorter
    have whole : rest.length + 1 + n ≤ exar.queue.length := shorter
    omega
  unfold extractarExtractReadObjects
  rw [fuel, same, extractLoop]
  unfold extractStep
  rw [queue]

/-- A round that gives up ends the loop too. -/
theorem Reaches.stops {garbage : List QueueData} {made : Log} {ret : Int}
    (reaches : Reaches ctx { exar with errors := 0 } exar' garbage made)
    (stops : extractStep ctx exar' = (some ret, exar'')) :
    extractarExtractReadObjects ctx exar = (some ret, exar'') := by
  obtain ⟨n, shorter, same⟩ := reaches.rounds
  have fuel : exar.queue.length + 1 = (exar.queue.length - n) + 1 + n := by
    have whole : exar'.queue.length + n ≤ exar.queue.length := shorter
    omega
  unfold extractarExtractReadObjects
  rw [fuel, same, extractLoop, stops]

/-! ## Objects and their links -/

/-- Where the file a hard link points to is restored. -/
def SavedObj.LinksPast (ctx : Context) (obj later : SavedObj) : Prop :=
  ∀ target, obj.LinksTo target → concatenatePaths ctx.destdir target ≠ later.fullpath ctx

/-- Every object has a place of its own, and no hard link points to itself or a later object. -/
structure Orderly (ctx : Context) (objs : List SavedObj) : Prop where
  apart : (objs.map fun obj => obj.fullpath ctx).Nodup
  past : objs.Pairwise (SavedObj.LinksPast ctx)
  own : ∀ obj ∈ objs, obj.LinksPast ctx obj

/-- The paths at which objects are restored. -/
def fullpaths (ctx : Context) (objs : List SavedObj) : List Path :=
  objs.map fun obj => obj.fullpath ctx

@[simp] theorem fullpaths_append (objs objs' : List SavedObj) :
    fullpaths ctx (objs ++ objs') = fullpaths ctx objs ++ fullpaths ctx objs' := List.map_append

/-- An object is restored unless it is excluded, or a hard link to a file that is not there. -/
structure SavedObj.Settled (obj : SavedObj) (ctx : Context) (log made : Log) : Prop where
  excluded : obj.excluded ctx = true → Untouched made (obj.fullpath ctx)
  kept : obj.excluded ctx = false → (∀ target, obj.LinksTo target →
    (contentAt (log ++ made) (concatenatePaths ctx.destdir target)).isSome) →
      obj.Restored ctx log made

section Objects

variable {objs objs' : List SavedObj} {obj : SavedObj} {log made : Log}

theorem Orderly.left (orderly : Orderly ctx (objs ++ objs')) : Orderly ctx objs where
  apart := by
    have apart := orderly.apart
    rw [List.map_append] at apart
    exact (List.nodup_append.mp apart).1
  past := (List.pairwise_append.mp orderly.past).1
  own obj member := orderly.own obj (List.mem_append_left _ member)

theorem Orderly.right (orderly : Orderly ctx (objs ++ objs')) : Orderly ctx objs' where
  apart := by
    have apart := orderly.apart
    rw [List.map_append] at apart
    exact (List.nodup_append.mp apart).2.1
  past := (List.pairwise_append.mp orderly.past).2.1
  own obj member := orderly.own obj (List.mem_append_right _ member)

/-- Objects in front have other places. -/
theorem Orderly.disjoint (orderly : Orderly ctx (objs ++ objs')) {first second : SavedObj}
    (front : first ∈ objs) (behind : second ∈ objs') :
    first.fullpath ctx ≠ second.fullpath ctx := by
  have apart := orderly.apart
  rw [List.map_append] at apart
  exact (List.nodup_append.mp apart).2.2 _ (List.mem_map_of_mem front) _ (List.mem_map_of_mem behind)

/-- A path that no object has is not touched while they are restored. -/
theorem Concerns.apart {path : Path} (concerns : Concerns made (fullpaths ctx objs))
    (apart : ∀ obj ∈ objs, obj.fullpath ctx ≠ path) : Untouched made path := by
  refine concerns.untouched fun member => ?_
  obtain ⟨obj, among, same⟩ := List.mem_map.mp member
  exact apart obj among same

/-- What is settled stays settled while later objects are restored. -/
theorem SavedObj.Settled.append (settled : obj.Settled ctx log made) {more : Log}
    (untouched : Untouched more (obj.fullpath ctx))
    (targets : ∀ target, obj.LinksTo target →
      Untouched more (concatenatePaths ctx.destdir target)) : obj.Settled ctx log (made ++ more) where
  excluded out := (settled.excluded out).append untouched
  kept kept linked := by
    refine (settled.kept kept fun target links => ?_).append untouched
    have there := linked target links
    rwa [← List.append_assoc, contentAt_append_of_object (targets target links)] at there

/-- What is settled later is settled. -/
theorem SavedObj.Settled.prepend {before : Log} (settled : obj.Settled ctx (log ++ before) made)
    (untouched : Untouched before (obj.fullpath ctx)) : obj.Settled ctx log (before ++ made) where
  excluded out := untouched.append (settled.excluded out)
  kept kept linked := by
    refine (settled.kept kept fun target links => ?_).prepend untouched
    rw [List.append_assoc]
    exact linked target links

end Objects

/-! ## Parts -/

/-- The part is not a file that could not be read to its end. -/
def Part.isWhole : Part → Bool
  | .cut _ _ => false
  | _ => true

/-- Calls that change no file leave the contents of all files alone. -/
theorem contentAt_append_of_filePath {log made : Log} {path : Path}
    (apart : ∀ entry ∈ made, entry.1.filePath ≠ some path) :
    contentAt (log ++ made) path = contentAt log path := by
  have none : history made path = [] :=
    List.filter_eq_nil_iff.mpr fun entry member own => apart entry member (of_decide_eq_true own)
  unfold contentAt
  rw [fileAt_eq, history_append, none, List.append_nil, ← fileAt_eq]

/-- The object is a hard link to a file that these calls did not make. -/
def LinksNowhere (ctx : Context) (log : Log) (obj : SavedObj) : Prop :=
  ∃ target, obj.LinksTo target ∧ contentAt log (concatenatePaths ctx.destdir target) = none

/-- Calls on other objects make no file. -/
theorem LinksNowhere.append {log more : Log} {obj : SavedObj} (nowhere : LinksNowhere ctx log obj)
    (targets : ∀ target, obj.LinksTo target →
      Untouched more (concatenatePaths ctx.destdir target)) : LinksNowhere ctx (log ++ more) obj := by
  obtain ⟨target, links, none⟩ := nowhere
  refine ⟨target, links, ?_⟩
  rwa [contentAt_append_of_object (targets target links)]

/-- A whole part takes one round. -/
theorem round_part (calm : ctx.os.Calm) {part : Part} (wellMade : part.WellMade ctx.md5 ctx.fsid)
    (whole : part.isWhole = true) (orderly : Orderly ctx part.objs)
    (queue : exar.queue = part.packet.items ctx.md5 ctx.fsid ++ rest) :
    ∃ exar' made, Round ctx exar exar' rest made ∧
      Steps (Counts ctx (LinksNowhere ctx (exar.log ++ made))) exar.stats part.objs exar'.stats ∧
      Steps (RestoresBy ctx (LinksNowhere ctx (exar.log ++ made))) exar.log part.objs exar'.log ∧
      Concerns made (fullpaths ctx part.objs) ∧
      ∀ obj ∈ part.objs, obj.Settled ctx exar.log made := by
  cases part with
  | cut obj blocks => cases whole
  | pack objs =>
    obtain ⟨nonempty, packed, few, room⟩ := wellMade
    obtain ⟨exar', made, round, counts, restores, concerns, each⟩ :=
      round_pack calm nonempty packed orderly.apart few room queue
    exact ⟨exar', made, round, counts.mono fun _ _ _ _ counts => counts.mono nofun,
      restores.mono fun _ _ _ _ restores => restores.mono nofun, concerns,
      fun obj member => ⟨(each obj member).1, fun kept _ => (each obj member).2 kept⟩⟩
  | file obj blocks =>
    obtain ⟨objMade, unique, size, chunked⟩ := wellMade
    obtain ⟨exar', made, round, concerns, counts, out, restored⟩ :=
      obj.round_file calm objMade unique size chunked queue
    refine ⟨exar', made, round, .single (counts.mono nofun),
      .single fun kept _ => (restored kept).2, concerns, fun other member => ?_⟩
    rw [List.mem_singleton.mp member]
    refine ⟨fun excluded => ?_, fun kept _ => (restored kept).1⟩
    rw [out excluded]
    exact fun _ member => by cases member
  | single obj =>
    obtain ⟨objMade, explained⟩ := wellMade
    obtain ⟨isEntry, known⟩ := explained.isEntry
    obtain ⟨exar', made, round, concerns, counted, out, restored⟩ :=
      obj.round_entry calm objMade isEntry known queue
    have linked (linked : ∀ target, obj.LinksTo target →
        (contentAt (exar.log ++ made) (concatenatePaths ctx.destdir target)).isSome)
        (kept : obj.excluded ctx = false) := restored kept fun more quiet => by
      refine explained.makeable objMade ctx fun target links => ?_
      have elsewhere : Untouched made (concatenatePaths ctx.destdir target) := by
        refine concerns.untouched fun member => ?_
        exact orderly.own obj (List.mem_singleton_self obj) target links (List.mem_singleton.mp member)
      have there := linked target links
      rw [contentAt_append_of_object elsewhere] at there
      rw [contentAt_append_of_filePath fun entry member => by rw [quiet entry member]; nofun]
      exact there
    have there (found : ¬LinksNowhere ctx (exar.log ++ made) obj) : ∀ target, obj.LinksTo target →
        (contentAt (exar.log ++ made) (concatenatePaths ctx.destdir target)).isSome :=
      fun target links => Option.isSome_iff_ne_none.mpr fun none => found ⟨target, links, none⟩
    refine ⟨exar', made, round, .single ?_, .single fun kept found => ?_, concerns,
      fun other member => ?_⟩
    · cases excluded : obj.excluded ctx with
      | true =>
        rw [(out excluded).2]
        exact .refused excluded isEntry
      | false =>
        by_cases nowhere : LinksNowhere ctx (exar.log ++ made) obj
        · rcases counted with counted | counted <;> rw [counted]
          · exact .restored excluded
          · exact .unlinked excluded nowhere
        · rw [(linked (there nowhere) excluded).2.1]
          exact .restored excluded
    · exact (linked (there found) kept).2.2
    · rw [List.mem_singleton.mp member]
      refine ⟨fun excluded => ?_, fun kept there => (linked there kept).1⟩
      rw [(out excluded).1]
      exact fun _ member => by cases member

/-- The items of a part. -/
theorem items_ne_nil {part : Part} {md5 : Md5} {fsid : UInt16} :
    part.packet.items md5 fsid ≠ [] := by
  cases part with
  | single obj | file obj blocks | cut obj blocks => exact List.cons_ne_nil _ _
  | pack objs => exact List.append_ne_nil_of_right_ne_nil _ (List.cons_ne_nil _ _)

/-- The items of parts in a row. -/
theorem packetItems_cons (md5 : Md5) (fsid : UInt16) (part : Part) (parts : List Part) :
    packetItems md5 fsid ((part :: parts).map Part.packet) =
      part.packet.items md5 fsid ++ packetItems md5 fsid (parts.map Part.packet) := List.flatMap_cons

/-- No regular file counts as an error. -/
theorem Counts.errRegfile {log : Log} {stats stats' : Stats} {obj : SavedObj}
    (counts : Counts ctx (LinksNowhere ctx log) stats obj stats') :
    stats'.errRegfile = stats.errRegfile := by
  have failed (isEntry : obj.objtype.isRegfile = false) :
      (stats.fail obj.objtype).errRegfile = stats.errRegfile := by
    cases type : obj.objtype with
    | regfileunique | regfilemulti =>
      rw [type] at isEntry
      cases isEntry
    | null | dir | symlink | hardlink | chardev | blockdev | fifo | socket => rfl
  cases counts with
  | restored kept => cases obj.objtype <;> rfl
  | skipped out isRegfile => rfl
  | refused out isEntry => exact failed isEntry
  | unlinked kept lost =>
    obtain ⟨target, links, -⟩ := lost
    exact failed (by rw [links.1]; rfl)

/-- Whole parts are taken from the queue one after the other. -/
theorem reaches_parts (calm : ctx.os.Calm) {parts : List Part}
    (wellMade : ∀ part ∈ parts, part.WellMade ctx.md5 ctx.fsid)
    (whole : ∀ part ∈ parts, part.isWhole = true) (orderly : Orderly ctx (partObjs parts))
    (queue : exar.queue = packetItems ctx.md5 ctx.fsid (parts.map Part.packet) ++ rest) :
    ∃ exar' made, Reaches ctx exar exar' [] made ∧ exar'.queue = rest ∧
      Steps (Counts ctx (LinksNowhere ctx (exar.log ++ made))) exar.stats (partObjs parts)
        exar'.stats ∧
      Steps (RestoresBy ctx (LinksNowhere ctx (exar.log ++ made))) exar.log (partObjs parts)
        exar'.log ∧
      Concerns made (fullpaths ctx (partObjs parts)) ∧
      ∀ obj ∈ partObjs parts, obj.Settled ctx exar.log made := by
  induction parts generalizing exar with
  | nil =>
    exact ⟨exar, [], Reaches.refl exar, queue, .nil exar.stats, .nil exar.log, Concerns.nil _,
      by simp [partObjs]⟩
  | cons part parts ih =>
    rw [packetItems_cons, List.append_assoc] at queue
    rw [partObjs_cons] at orderly ⊢
    obtain ⟨exar₁, made, round, counts, restores, concerns, settled⟩ := round_part calm
      (wellMade part List.mem_cons_self) (whole part List.mem_cons_self) orderly.left queue
    obtain ⟨exar', made', reaches, queue', counts', restores', concerns', settled'⟩ := @ih exar₁
      (fun part member => wellMade part (List.mem_cons_of_mem _ member))
      (fun part member => whole part (List.mem_cons_of_mem _ member)) orderly.right round.queue
    have shorter : (packetItems ctx.md5 ctx.fsid (parts.map Part.packet) ++ rest).length <
        exar.queue.length := by
      have items := List.length_pos_iff.mpr (@items_ne_nil part ctx.md5 ctx.fsid)
      simp only [queue, List.length_append]
      omega
    have targets : ∀ obj ∈ part.objs, ∀ target, obj.LinksTo target →
        Untouched made' (concatenatePaths ctx.destdir target) := by
      refine fun obj member target links => concerns'.apart fun later behind => ?_
      have past := (List.pairwise_append.mp orderly.past).2.2 obj member later behind
      exact (past target links).symm
    have lost {obj : SavedObj} (member : obj ∈ part.objs)
        (nowhere : LinksNowhere ctx (exar.log ++ made) obj) :
        LinksNowhere ctx (exar.log ++ (made ++ made')) obj := by
      rw [← List.append_assoc]
      exact nowhere.append (targets obj member)
    refine ⟨exar', made ++ made', (round.reaches shorter).trans reaches, queue', ?_, ?_, ?_,
      fun obj member => ?_⟩
    · rw [round.log, List.append_assoc] at counts'
      exact (counts.mono fun _ _ member _ counts => counts.mono (lost member)).append counts'
    · rw [show exar₁.log ++ made' = exar.log ++ (made ++ made') by
        rw [round.log, List.append_assoc]] at restores'
      exact (restores.mono fun _ _ member _ restores => restores.mono (lost member)).append restores'
    · rw [fullpaths_append]
      exact (concerns.mono (List.subset_append_left _ _)).append
        (concerns'.mono (List.subset_append_right _ _))
    · rcases List.mem_append.mp member with member | member
      · refine (settled obj member).append (concerns'.apart fun later behind => ?_)
          (targets obj member)
        exact (orderly.disjoint member behind).symm
      · have own := settled' obj member
        rw [round.log] at own
        exact own.prepend (concerns.apart fun earlier front => orderly.disjoint front member)

end FsArchiver
