import FsArchiver.RestoreRuns

/-!
# Files without a footer

A file whose blocks do not reach its size has no footer in the archive, and a footer may be lost.
The restoration of such a file takes the next header for its footer, whatever it is: the object of
that header is lost, and what follows of its items is skipped as garbage.
-/
namespace FsArchiver

open Lib

variable {ctx : Context} {exar : Extractar} {rest : List QueueData} {path : Path}

/-- Any header is taken for the footer. -/
theorem restoreFooter_header (excluded : Bool) (md5sumcalc : List UInt8) (head : HeadInfo)
    (rest : List QueueData) :
    (restoreFooter ctx excluded md5sumcalc (.header head :: rest)).2 = rest ∧
      (head.magic ≠ .filf →
        (restoreFooter ctx excluded md5sumcalc (.header head :: rest)).1 ≠ .corrupt) := by
  unfold restoreFooter
  simp only [dequeueHeader]
  cases excluded with
  | true => simp
  | false =>
    simp only [Bool.false_eq_true, ↓reduceIte]
    by_cases footer : head.magic = .filf
    · rw [if_neg (not_not.mpr footer)]
      constructor
      · split
        · rfl
        · split <;> rfl
      · exact fun other => absurd footer other
    · rw [if_pos footer]
      exact ⟨rfl, fun _ same => by cases same⟩

/-- The loop over the blocks finds something else than the next block. -/
def Breaks (ctx : Context) (filesize : UInt64) (pos : Nat) (queue left : List QueueData) : Prop :=
  ∀ f, restoreBlocks ctx filesize queue (UInt64.ofNat pos) f = pure (.incomplete, left, f)

/-- There is more to come at a position below the size. -/
theorem more_of_lt {filesize : UInt64} {pos : Nat} (inside : pos < filesize.toNat) :
    UInt64.ofNat pos < filesize := by
  have bound := filesize.toNat_lt
  rw [UInt64.lt_iff_toNat_lt, UInt64.toNat_ofNat', Nat.mod_eq_of_lt (by omega)]
  exact inside

/-- A header is no block. -/
theorem breaks_header {filesize : UInt64} {pos : Nat} (inside : pos < filesize.toNat)
    (head : HeadInfo) (rest : List QueueData) :
    Breaks ctx filesize pos (.header head :: rest) (.header head :: rest) := by
  intro f
  rw [restoreBlocks, if_neg (not_not.mpr (more_of_lt inside))]
  simp

/-- A block for another position is taken from the queue. -/
theorem breaks_block {filesize : UInt64} {pos : Nat} (inside : pos < filesize.toNat)
    {blkinfo : BlockInfo} (other : blkinfo.blkoffset ≠ UInt64.ofNat pos) (rest : List QueueData) :
    Breaks ctx filesize pos (.block blkinfo :: rest) rest := by
  intro f
  rw [restoreBlocks, if_neg (not_not.mpr (more_of_lt inside)), if_pos other]

/-- The contents of a file end early. -/
theorem writeRegfile_short (calm : ctx.os.Calm) {fsid : UInt16} {contents : List UInt8}
    {blocks : List BlockInfo} (chunked : Chunked fsid 0 contents blocks) {filesize : UInt64}
    (short : contents.length < filesize.toNat) {queue left : List QueueData}
    (breaks : Breaks ctx filesize contents.length queue left) (excluded sparse : Bool) (log : Log) :
    Traced.Gives (writeRegfile ctx (blocks.map .block ++ queue) path excluded sparse filesize) log
      ⟨.incomplete, left, false, none, ⟨excluded, true, sparse, path, contents⟩⟩
      (if excluded then [] else (.create path, 0) :: blocks.map (blockEntry sparse path)) := by
  let f : Datafile :=
    { simul := excluded, isOpen := true, sparse, path, hashed := [] }
  have opened : Traced.Gives (datafileOpenWrite ctx.os datafileAlloc path excluded sparse) log
      (true, f) (if excluded then [] else [(.create path, 0)]) := by
    cases excluded <;>
      simp [Traced.Gives, datafileOpenWrite, datafileAlloc, calm.call_eq, SysCall.sure,
        SysCall.success, f]
  have loop := @restoreBlocks_append _ calm _ _ filesize _ _ chunked (by omega) queue _
      (show f.isOpen = true from rfl) (log ++ if excluded then [] else [(.create path, 0)])
  rw [Nat.zero_add, breaks] at loop
  have zero : (0 : UInt64) = UInt64.ofNat 0 := rfl
  unfold Traced.Gives at opened ⊢
  simp only [writeRegfile, Traced.run_bind, opened, ↓reduceIte, zero, loop, Traced.run_pure,
    reduceCtorEq]
  cases excluded <;> simp [f]

/-- The calls that remove a file whose contents end early. -/
def removeCalls (excluded sparse : Bool) (path : Path) : Log :=
  (.unlink path, 0) :: if excluded then [] else
    (if sparse then [(.ftruncate path, 0)] else []) ++ [(.close path, 0)]

/-- Nothing is left of it. -/
theorem contentAt_removeCalls (excluded sparse : Bool) (log : Log) :
    contentAt (log ++ removeCalls excluded sparse path) path = none := by
  unfold contentAt fileAt removeCalls
  rw [List.foldl_append, List.foldl_cons]
  have gone (file : Option FileState) : replay path file (.unlink path, 0) = none := by
    simp [replay]
  rw [gone]
  cases excluded <;> cases sparse <;> simp [replay]

/-- A file whose contents end early is removed again. -/
theorem restoreRegfileUnique_short (calm : ctx.os.Calm) {fsid : UInt16} {contents : List UInt8}
    {blocks : List BlockInfo} (chunked : Chunked fsid 0 contents blocks) {filesize : UInt64}
    (short : contents.length < filesize.toNat) {queue left : List QueueData}
    (breaks : Breaks ctx filesize contents.length queue left) (d : Dico) (objtype : UInt32)
    (excluded : Bool) (log : Log) :
    ∃ made, Traced.Gives (restoreRegfileUnique ctx (blocks.map .block ++ queue) path d
        objtype excluded filesize) log ⟨false, true, excluded,
          (restoreFooter ctx excluded (localBuffer ctx.mem 16 []) left).2⟩ made ∧
      contentAt (log ++ made) path = none := by
  have quietEnter : Sys.Quiet path
      (if excluded then (pure (0, 0) : Sys (UInt64 × UInt64)) else enterParent ctx path) :=
    Traced.Adds.ite (fun _ => Traced.Adds.pure trivial) fun _ => enterParent_quiet path
  obtain ⟨tv, entered, enter, -, -⟩ := quietEnter.gives log
  have written := @writeRegfile_short ctx path calm fsid contents blocks chunked filesize short
    queue left breaks excluded (isSparse ctx.mem d) (log ++ entered)
  have nonzero : filesize ≠ 0 := by
    rintro rfl
    exact absurd short (Nat.not_lt_zero _)
  let calls : Log := if excluded then [] else
    (.create path, 0) :: blocks.map (blockEntry (isSparse ctx.mem d) path)
  have removed (log : Log) : (datafileDestroy ctx.os ctx.md5
      ⟨excluded, true, isSparse ctx.mem d, path, contents⟩).run (log ++ [(.unlink path, 0)]) =
      ((), log ++ removeCalls excluded (isSparse ctx.mem d) path) := by
    have closed := datafileClose_calm calm ctx.md5 (show Datafile.isOpen
      ⟨excluded, true, isSparse ctx.mem d, path, contents⟩ = true from rfl)
      (log ++ [(.unlink path, 0)])
    unfold Traced.Gives at closed
    unfold datafileDestroy
    simp only [↓reduceIte, Traced.run_bind, closed, Traced.run_pure, removeCalls, List.append_assoc,
      List.singleton_append]
  refine ⟨entered ++ calls ++ removeCalls excluded (isSparse ctx.mem d) path, ?_, ?_⟩
  · unfold Traced.Gives at enter written ⊢
    simp only [restoreRegfileUnique, Traced.run_bind, enter, written, Bool.false_and,
      Bool.false_eq_true, ↓reduceIte, Traced.run_pure, Option.getD_none, nonzero, reduceCtorEq,
      or_self, true_or, calm.call_eq, SysCall.sure, SysCall.success]
    rw [removed]
    simp [calls]
  · rw [← List.append_assoc]
    exact contentAt_removeCalls excluded (isSparse ctx.mem d) _

/-- A file that lost its footer takes the next header with it. -/
theorem restoreRegfileUnique_unfooted (calm : ctx.os.Calm) {fsid : UInt16} {contents : List UInt8}
    {blocks : List BlockInfo} (chunked : Chunked fsid 0 contents blocks) {filesize : UInt64}
    (size : contents.length = filesize.toNat) (nonempty : contents ≠ []) (d : Dico)
    (objtype : UInt32) (excluded : Bool) {head : HeadInfo} (other : head.magic ≠ .filf)
    (rest : List QueueData) (log : Log) :
    ∃ minorerr made, Traced.Gives (restoreRegfileUnique ctx
        (blocks.map .block ++ .header head :: rest) path d objtype excluded filesize) log
        ⟨false, minorerr, excluded, rest⟩ made := by
  have quietEnter : Sys.Quiet path
      (if excluded then (pure (0, 0) : Sys (UInt64 × UInt64)) else enterParent ctx path) :=
    Traced.Adds.ite (fun _ => Traced.Adds.pure trivial) fun _ => enterParent_quiet path
  obtain ⟨tv, entered, enter, -, -⟩ := quietEnter.gives log
  have writing := @writeRegfile_calm ctx path calm fsid contents blocks chunked filesize size
    excluded (isSparse ctx.mem d) (.header head :: rest) (log ++ entered)
  obtain ⟨f, shut, written⟩ := writing
  let calls : Log := if excluded then [] else fileCalls (isSparse ctx.mem d) path blocks
  have quietFinish : Sys.Quiet path (if true && !excluded then finishRegfile ctx path d objtype tv
      else pure true) :=
    Traced.Adds.ite (fun _ => finishRegfile_quiet d objtype tv) fun _ => Traced.Adds.pure trivial
  obtain ⟨finished, attrs, finish, -, -⟩ := quietFinish.gives (log ++ entered ++ calls)
  obtain ⟨foot, fine⟩ := @restoreFooter_header ctx excluded (ctx.md5.digest contents) head rest
  have positive := List.length_pos_iff.mpr nonempty
  have nonzero : filesize ≠ 0 := by
    rintro rfl
    rw [size] at positive
    exact absurd positive (by decide)
  refine ⟨!(finished && decide ((restoreFooter ctx excluded (ctx.md5.digest contents)
    (.header head :: rest)).1 = .fine)), entered ++ calls ++ attrs, ?_⟩
  unfold Traced.Gives at enter written finish ⊢
  change _ = (_, log ++ entered ++ calls) at written
  simp only [restoreRegfileUnique, Traced.run_bind, enter, written, finish, Option.getD_some,
    nonzero, reduceCtorEq, or_self, ↓reduceIte, fine other, foot, datafileDestroy_closed shut,
    Traced.run_pure]
  simp

/-- The round for a file whose blocks break off. -/
theorem SavedObj.round_broken (calm : ctx.os.Calm) {obj : SavedObj} (wellMade : obj.WellMade)
    (unique : obj.objtype = .regfileunique) {contents : List UInt8} {blocks : List BlockInfo}
    (chunked : Chunked ctx.fsid 0 contents blocks) (short : contents.length < obj.st.size.toNat)
    {behind left : List QueueData} (breaks : Breaks ctx obj.st.size contents.length behind left)
    (queue : exar.queue = objectItem ctx.fsid obj.d :: (blocks.map .block ++ behind)) :
    ∃ exar' made, Round ctx exar exar'
        (restoreFooter ctx (obj.excluded ctx) (localBuffer ctx.mem 16 []) left).2 made ∧
      Concerns made [obj.fullpath ctx] ∧ contentAt (exar.log ++ made) (obj.fullpath ctx) = none := by
  obtain ⟨made, gives, gone⟩ := @restoreRegfileUnique_short ctx (obj.fullpath ctx) calm _ _ _ chunked
    _ short _ _ breaks obj.d obj.objtype.code (obj.excluded ctx) exar.log
  have about : Sys.About (obj.fullpath ctx) (restoreRegfileUnique ctx (blocks.map .block ++ behind)
      (obj.fullpath ctx) obj.d obj.objtype.code (obj.excluded ctx) obj.st.size) :=
    restoreRegfileUnique_about _ _ _ _ _
  have restored := @extractarRestoreObject_unique_eq ctx _ wellMade unique
      { exar with queue := blocks.map .block ++ behind } _ _ gives
  exact ⟨_, made, ⟨extractStep_object queue restored, rfl, rfl, rfl, rfl⟩, about.concerns gives, gone⟩

/-- The round for a file without a footer. -/
theorem SavedObj.round_unfooted (calm : ctx.os.Calm) {obj : SavedObj} (wellMade : obj.WellMade)
    (unique : obj.objtype = .regfileunique) {blocks : List BlockInfo}
    (chunked : Chunked ctx.fsid 0 obj.contents blocks)
    (fits : obj.contents.length ≤ obj.st.size.toNat) (positive : 0 < obj.st.size.toNat)
    {head : HeadInfo} (other : head.magic ≠ .filf)
    (queue : exar.queue = (Packet.cut obj.d blocks).items ctx.md5 ctx.fsid ++ .header head :: rest) :
    ∃ exar' made, Round ctx exar exar' rest made ∧ Concerns made [obj.fullpath ctx] ∧
      (obj.contents.length < obj.st.size.toNat →
        contentAt (exar.log ++ made) (obj.fullpath ctx) = none) := by
  by_cases short : obj.contents.length < obj.st.size.toNat
  · obtain ⟨exar', made, round, concerns, gone⟩ := obj.round_broken calm wellMade unique chunked short
      (breaks_header short head rest) queue
    rw [(restoreFooter_header _ _ head rest).1] at round
    exact ⟨exar', made, round, concerns, fun _ => gone⟩
  · have size : obj.contents.length = obj.st.size.toNat := by omega
    have nonempty : obj.contents ≠ [] := List.length_pos_iff.mp (by omega)
    obtain ⟨minorerr, made, gives⟩ := @restoreRegfileUnique_unfooted _ (obj.fullpath ctx) calm _ _
        _ chunked _ size nonempty obj.d obj.objtype.code (obj.excluded ctx) _ other rest exar.log
    have about : Sys.About (obj.fullpath ctx) (restoreRegfileUnique ctx
        (blocks.map .block ++ .header head :: rest) (obj.fullpath ctx) obj.d obj.objtype.code
        (obj.excluded ctx) obj.st.size) := restoreRegfileUnique_about _ _ _ _ _
    have restored := @extractarRestoreObject_unique_eq ctx _ wellMade unique
        { exar with queue := blocks.map .block ++ .header head :: rest } _ _ gives
    exact ⟨_, made, ⟨extractStep_object queue restored, rfl, rfl, rfl, rfl⟩, about.concerns gives,
      fun less => absurd less short⟩

end FsArchiver
