import FsArchiver.RestoreLosses

/-!
# What a file without a footer takes with it

The header that is taken for the footer belongs to the part behind the file. If this part has one
object, all that is left of it is garbage. If it is a pack of several files, what is left looks like
a pack with a header missing and ends the restoration, and so does the end of the queue.
-/
namespace FsArchiver

open Lib

variable {ctx : Context} {exar exar' : Extractar} {rest garbage : List QueueData} {made : Log}

/-! ## Runs that fail -/

/-- The loop comes to a round in which it gives up. -/
def Fails (ctx : Context) (exar : Extractar) : Prop :=
  ∃ exar' exar'' garbage made, Reaches ctx exar exar' garbage made ∧
    extractStep ctx exar' = (some (-1), exar'')

/-- A state from which the loop gives up at once. -/
theorem Fails.here {exar' : Extractar} (stops : extractStep ctx exar = (some (-1), exar')) :
    Fails ctx exar :=
  ⟨exar, exar', [], [], Reaches.refl exar, stops⟩

/-- What leads to failure fails. -/
theorem Reaches.fails (reaches : Reaches ctx exar exar' garbage made) (fails : Fails ctx exar') :
    Fails ctx exar := by
  obtain ⟨last, exar'', garbage', made', onward, stops⟩ := fails
  exact ⟨last, exar'', _, _, reaches.trans onward, stops⟩

/-- A run that fails does not return 0. -/
theorem Fails.returns (fails : Fails ctx { exar with errors := 0 }) :
    (extractarExtractReadObjects ctx exar).1 = some (-1) := by
  obtain ⟨last, exar'', garbage, made, reaches, stops⟩ := fails
  rw [reaches.stops stops]

/-! ## The items of a part -/

/-- Behind the header of a part with one object there is nothing but garbage. -/
theorem Part.items_one {md5 : Md5} {fsid : UInt16} {part : Part} (wellMade : part.WellMade md5 fsid)
    (one : part.objs.length = 1) :
    ∃ d garbage, part.packet.items md5 fsid = objectItem fsid d :: garbage ∧
      ∀ item ∈ garbage, item.isGarbage = true := by
  have noHeader (blocks : List BlockInfo) :
      ∀ item ∈ blocks.map QueueData.block, item.isGarbage = true := by
    intro item member
    obtain ⟨block, -, rfl⟩ := List.mem_map.mp member
    rfl
  cases part with
  | single obj => exact ⟨obj.d, [], rfl, by simp⟩
  | cut obj blocks => exact ⟨obj.d, _, rfl, noHeader blocks⟩
  | file obj blocks =>
    refine ⟨obj.d, _, rfl, fun item member => ?_⟩
    rcases List.mem_append.mp member with member | member
    · exact noHeader blocks item member
    · split at member
      · cases member
      · rw [List.mem_singleton.mp member]
        rfl
  | pack objs =>
    obtain ⟨obj, rfl⟩ := List.length_eq_one_iff.mp one
    refine ⟨_, _, rfl, fun item member => ?_⟩
    rw [List.mem_singleton.mp member]
    rfl

/-- A part with several objects is a pack. -/
theorem Part.items_several {md5 : Md5} {fsid : UInt16} {part : Part}
    (wellMade : part.WellMade md5 fsid) (several : 1 < part.objs.length) :
    ∃ (d : Dico) (obj : SavedObj) (count offset : UInt32) (headers : List Dico)
      (block : BlockInfo), part.packet.items md5 fsid = objectItem fsid d ::
        objectItem fsid (placedHeader count offset obj.d) ::
          (headers.map (objectItem fsid) ++ [.block block]) ∧
      obj.Packed md5 ∧ headers.length + 1 < count.toNat := by
  cases part with
  | single obj | file obj blocks | cut obj blocks => exact absurd several (by simp [Part.objs])
  | pack objs =>
    obtain ⟨-, packed, few, -⟩ := wellMade
    obtain ⟨first, second, others, rfl⟩ : ∃ first second others, objs = first :: second :: others := by
      cases objs with
      | nil => exact absurd several (by simp [Part.objs])
      | cons first objs =>
        cases objs with
        | nil => exact absurd several (by simp [Part.objs])
        | cons second others => exact ⟨first, second, others, rfl⟩
    refine ⟨_, second, _, _, _, _, rfl, packed second (by simp), ?_⟩
    have count : (UInt32.ofNat ((first :: second :: others).map SavedObj.packEntry).length).toNat =
        others.length + 2 := by
      rw [List.length_map]
      refine Nat.mod_eq_of_lt ?_
      rw [maxSmallFileCount] at few
      omega
    rw [count, length_packHeaders, List.length_map]
    omega

/-! ## Behind a file without a footer -/

section Swallow

variable {obj : SavedObj} {blocks : List BlockInfo}

/-- What is known of a file without a footer: it is cut, or its footer is lost. -/
structure SavedObj.Unfooted (obj : SavedObj) (ctx : Context) (blocks : List BlockInfo) : Prop where
  wellMade : obj.WellMade
  unique : obj.objtype = .regfileunique
  chunked : Chunked ctx.fsid 0 obj.contents blocks
  fits : obj.contents.length ≤ obj.st.size.toNat
  positive : 0 < obj.st.size.toNat

/-- A part with one object is lost behind a file without a footer. -/
theorem SavedObj.Unfooted.reaches (calm : ctx.os.Calm) (unfooted : obj.Unfooted ctx blocks)
    {next : Part} (wellMade : next.WellMade ctx.md5 ctx.fsid) (one : next.objs.length = 1)
    (queue : exar.queue = (Packet.cut obj.d blocks).items ctx.md5 ctx.fsid ++
      (next.packet.items ctx.md5 ctx.fsid ++ rest)) :
    ∃ exar' garbage made, Reaches ctx exar exar' garbage made ∧ exar'.queue = rest ∧
      Concerns made [obj.fullpath ctx] ∧ (obj.contents.length < obj.st.size.toNat →
        contentAt (exar.log ++ made) (obj.fullpath ctx) = none) := by
  obtain ⟨d, garbage, items, isGarbage⟩ := Part.items_one wellMade one
  rw [items, List.cons_append] at queue
  obtain ⟨exar₁, made, round, concerns, gone⟩ := obj.round_unfooted calm unfooted.wellMade
    unfooted.unique unfooted.chunked unfooted.fits unfooted.positive (by nofun) queue
  have first : Reaches ctx exar exar₁ [] made := by
    refine round.reaches ?_
    rw [queue]
    simp only [List.length_append, List.length_cons]
    omega
  have second := @reaches_garbage ctx _ _ _ isGarbage round.queue
  have whole := first.trans second
  rw [List.append_nil] at whole
  exact ⟨_, _, made, whole, rfl, concerns, gone⟩

/-- Behind a file without a footer, several small files end the restoration. -/
theorem SavedObj.Unfooted.fails_several (calm : ctx.os.Calm) (unfooted : obj.Unfooted ctx blocks)
    {next : Part} (wellMade : next.WellMade ctx.md5 ctx.fsid) (several : 1 < next.objs.length)
    (queue : exar.queue = (Packet.cut obj.d blocks).items ctx.md5 ctx.fsid ++
      (next.packet.items ctx.md5 ctx.fsid ++ rest)) : Fails ctx exar := by
  obtain ⟨d, second, count, offset, headers, block, items, packed, fewer⟩ :=
    Part.items_several wellMade several
  rw [items, List.cons_append] at queue
  obtain ⟨exar₁, made, round, -, -⟩ := obj.round_unfooted calm unfooted.wellMade
    unfooted.unique unfooted.chunked unfooted.fits unfooted.positive (by nofun) queue
  have first : Reaches ctx exar exar₁ [] made := by
    refine round.reaches ?_
    rw [queue]
    simp only [List.length_append, List.length_cons]
    omega
  have left : exar₁.queue = objectItem ctx.fsid (placedHeader count offset second.d) ::
      (headers.map (objectItem ctx.fsid) ++ .block block :: rest) := by
    rw [round.queue]
    simp
  obtain ⟨exar₂, stops⟩ := extractStep_pack_short packed fewer left
  exact first.fails (Fails.here stops)

/-- The end header is taken for the footer, and the queue ends too early. -/
theorem SavedObj.Unfooted.fails_end (calm : ctx.os.Calm) (unfooted : obj.Unfooted ctx blocks)
    {endFsid : UInt16} {endDico : Dico}
    (queue : exar.queue = (Packet.cut obj.d blocks).items ctx.md5 ctx.fsid ++
      [.header ⟨.datf, endFsid, endDico⟩]) : Fails ctx exar := by
  obtain ⟨exar₁, made, round, -, -⟩ := obj.round_unfooted calm unfooted.wellMade
    unfooted.unique unfooted.chunked unfooted.fits unfooted.positive (by nofun) queue
  have first : Reaches ctx exar exar₁ [] made := by
    refine round.reaches ?_
    rw [queue, List.length_append]
    exact Nat.lt_add_left _ (Nat.zero_lt_succ 0)
  exact first.fails (Fails.here (extractStep_nil round.queue))

end Swallow

/-! ## What a run leaves -/

/-- A hard link is made only if its file is there. -/
def SavedObj.LinkMade (obj : SavedObj) (ctx : Context) (log made : Log) : Prop :=
  ∀ target, obj.LinksTo target → contentAt (log ++ made) (concatenatePaths ctx.destdir target) = none →
    ∀ from', (SysCall.link from' (obj.fullpath ctx), (0 : Int)) ∉ made

/-- What a run leaves of some objects, of which some are restored and some are lost. -/
structure Leaves (ctx : Context) (log made : Log) (objs restored lost : List SavedObj) : Prop where
  concerns : Concerns made (fullpaths ctx objs)
  settled : ∀ obj ∈ restored, obj.Settled ctx log made
  lost : ∀ obj ∈ lost, Untouched made (obj.fullpath ctx)

/-- It leaves no file behind but those that are restored, and hard links only to them. -/
structure LeavesExact (ctx : Context) (log made : Log) (objs restored lost : List SavedObj) : Prop
    extends Leaves ctx log made objs restored lost where
  /-- No file is left at other places. -/
  gone : ∀ path, path ∉ fullpaths ctx restored → contentAt log path = none →
    contentAt (log ++ made) path = none
  linked : ∀ obj ∈ objs, obj.LinkMade ctx log made

section Leaves

variable {objs objs' restored restored' lost lost' : List SavedObj} {log made' : Log}

/-- Nothing was to be done. -/
theorem LeavesExact.nil (ctx : Context) (log : Log) : LeavesExact ctx log [] [] [] [] where
  concerns := Concerns.nil _
  settled := by simp
  gone path _ none := by rw [List.append_nil]; exact none
  lost := by simp
  linked := by simp

/-- One run after the other. -/
theorem Leaves.append (orderly : Orderly ctx (objs ++ objs')) (inside : restored ⊆ objs)
    (inside' : restored' ⊆ objs') (lostInside : lost ⊆ objs) (lostInside' : lost' ⊆ objs')
    (first : Leaves ctx log made objs restored lost)
    (second : Leaves ctx (log ++ made) made' objs' restored' lost') :
    Leaves ctx log (made ++ made') (objs ++ objs') (restored ++ restored') (lost ++ lost') where
  concerns := by
    rw [fullpaths_append]
    exact (first.concerns.mono (List.subset_append_left _ _)).append
      (second.concerns.mono (List.subset_append_right _ _))
  settled obj member := by
    rcases List.mem_append.mp member with member | member
    · have front := inside member
      refine (first.settled obj member).append (second.concerns.apart fun later behind => ?_)
        fun target links => second.concerns.apart fun later behind => ?_
      · exact (orderly.disjoint front behind).symm
      · have past := (List.pairwise_append.mp orderly.past).2.2 obj front later behind
        exact (past target links).symm
    · refine (second.settled obj member).prepend (first.concerns.apart fun earlier front => ?_)
      exact orderly.disjoint front (inside' member)
  lost obj member := by
    rcases List.mem_append.mp member with member | member
    · refine (first.lost obj member).append (second.concerns.apart fun later behind => ?_)
      exact (orderly.disjoint (lostInside member) behind).symm
    · refine Untouched.append (first.concerns.apart fun earlier front => ?_) (second.lost obj member)
      exact orderly.disjoint front (lostInside' member)

/-- One run after the other. -/
theorem LeavesExact.append (orderly : Orderly ctx (objs ++ objs')) (inside : restored ⊆ objs)
    (inside' : restored' ⊆ objs') (lostInside : lost ⊆ objs) (lostInside' : lost' ⊆ objs')
    (first : LeavesExact ctx log made objs restored lost)
    (second : LeavesExact ctx (log ++ made) made' objs' restored' lost') :
    LeavesExact ctx log (made ++ made') (objs ++ objs') (restored ++ restored') (lost ++ lost') where
  toLeaves := first.toLeaves.append orderly inside inside' lostInside lostInside' second.toLeaves
  gone path elsewhere none := by
    rw [fullpaths_append, List.mem_append, not_or] at elsewhere
    rw [← List.append_assoc]
    exact second.gone path elsewhere.2 (first.gone path elsewhere.1 none)
  linked obj member target links none from' call := by
    rw [← List.append_assoc] at none
    rcases List.mem_append.mp member with front | behind
    · have elsewhere : Untouched made' (concatenatePaths ctx.destdir target) := by
        refine second.concerns.apart fun later behind => ?_
        have past := (List.pairwise_append.mp orderly.past).2.2 obj front later behind
        exact (past target links).symm
      have apart : Untouched made' (obj.fullpath ctx) := by
        refine second.concerns.apart fun later behind => ?_
        exact (orderly.disjoint front behind).symm
      rw [contentAt_append_of_object elsewhere] at none
      rcases List.mem_append.mp call with call | call
      · exact first.linked obj front target links none from' call
      · exact apart _ call rfl
    · have apart : Untouched made (obj.fullpath ctx) := by
        refine first.concerns.apart fun earlier front => ?_
        exact orderly.disjoint front behind
      rcases List.mem_append.mp call with call | call
      · exact apart _ call rfl
      · exact second.linked obj behind target links none from' call

/-- A whole part is restored. -/
theorem leaves_part (exact : ctx.os.Exact) {part : Part} (wellMade : part.WellMade ctx.md5 ctx.fsid)
    (whole : part.isWhole = true) (orderly : Orderly ctx part.objs)
    (queue : exar.queue = part.packet.items ctx.md5 ctx.fsid ++ rest) :
    ∃ exar' made, Reaches ctx exar exar' [] made ∧ exar'.queue = rest ∧
      LeavesExact ctx exar.log made part.objs part.objs [] := by
  obtain ⟨exar', made, round, -, -, concerns, settled⟩ :=
    round_part exact.toCalm wellMade whole orderly queue
  have shorter : rest.length < exar.queue.length := by
    have items := List.length_pos_iff.mpr (@items_ne_nil part ctx.md5 ctx.fsid)
    rw [queue, List.length_append]
    omega
  refine ⟨exar', made, round.reaches shorter, round.queue, ⟨concerns, settled, by simp⟩, ?_, ?_⟩
  · intro path elsewhere none
    rw [contentAt_append_of_object (concerns.untouched elsewhere)]
    exact none
  · intro obj member target links none from'
    have large (other : obj.objtype = .regfileunique ∨ obj.objtype = .regfilemulti) :
        (SysCall.link from' (obj.fullpath ctx), (0 : Int)) ∉ made := by
      rw [links.1] at other
      exact absurd other (by decide)
    cases part with
    | cut obj blocks => cases whole
    | file file blocks =>
      rw [List.mem_singleton.mp member] at large ⊢
      exact large (.inl wellMade.2.1)
    | pack objs => exact large (.inr (wellMade.2.1 obj member).multi)
    | single own =>
      have same : obj = own := List.mem_singleton.mp member
      subst same
      have elsewhere : Untouched made (concatenatePaths ctx.destdir target) := by
        refine concerns.untouched fun member => ?_
        exact orderly.own obj (List.mem_singleton_self obj) target links (List.mem_singleton.mp member)
      rw [contentAt_append_of_object elsewhere] at none
      exact obj.round_missing exact wellMade.1 links queue none round from'

/-- A file without a footer takes a part with one object along. -/
theorem SavedObj.Unfooted.leaves (calm : ctx.os.Calm) {obj : SavedObj} {blocks : List BlockInfo}
    (unfooted : obj.Unfooted ctx blocks) {next : Part} (wellMade : next.WellMade ctx.md5 ctx.fsid)
    (one : next.objs.length = 1) (orderly : Orderly ctx (obj :: next.objs))
    (queue : exar.queue = (Packet.cut obj.d blocks).items ctx.md5 ctx.fsid ++
      (next.packet.items ctx.md5 ctx.fsid ++ rest)) :
    ∃ exar' garbage made, Reaches ctx exar exar' garbage made ∧ exar'.queue = rest ∧
      Leaves ctx exar.log made (obj :: next.objs) [] next.objs ∧
      (obj.contents.length < obj.st.size.toNat →
        LeavesExact ctx exar.log made (obj :: next.objs) [] next.objs) := by
  obtain ⟨exar', garbage, made, reaches, queue', concerns, gone⟩ :=
    unfooted.reaches calm wellMade one queue
  have untouched : ∀ other ∈ next.objs, Untouched made (other.fullpath ctx) := by
    intro other member
    refine concerns.untouched fun own => ?_
    have apart := (List.nodup_cons.mp orderly.apart).1
    exact apart (List.mem_map.mpr ⟨other, member, List.mem_singleton.mp own⟩)
  have leaves : Leaves ctx exar.log made (obj :: next.objs) [] next.objs :=
    ⟨concerns.mono (by simp [fullpaths]), by simp, untouched⟩
  refine ⟨exar', garbage, made, reaches, queue', leaves, fun short => ⟨leaves, ?_, ?_⟩⟩
  · intro path _ none
    by_cases own : path = obj.fullpath ctx
    · rw [own]
      exact gone short
    · rw [contentAt_append_of_object (concerns.untouched (by simpa using own))]
      exact none
  · intro other member target links none from' call
    rcases List.mem_cons.mp member with rfl | member
    · have type := links.1
      rw [unfooted.unique] at type
      cases type
    · exact untouched other member _ call rfl

end Leaves

end FsArchiver
