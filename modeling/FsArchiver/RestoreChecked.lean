import FsArchiver.RestoreFiles

/-!
# Counted files are verified

Whatever is on the queue and whatever the system answers, a regular file that counts as restored
has the contents whose digest the archive holds, or it is empty and is meant to be. The bytes on
disk are followed from `open64` on: they are the bytes given to MD5 as long as no call fails.
-/
namespace FsArchiver

open Lib

variable {ctx : Context} {os : Os} {path : Path}

/-- One call more. -/
theorem fileAt_concat (log : Log) (entry : SysCall × Int) :
    fileAt (log ++ [entry]) path = replay path (fileAt log path) entry := by
  rw [fileAt, List.foldl_append, List.foldl_cons, List.foldl_nil, fileAt]

/-- Programs that leave regular files alone leave the contents of this one alone. -/
theorem Sys.Quiet.contentAt_eq {α : Type} {prog : Sys α} (quiet : Sys.Quiet path prog) (log : Log) :
    contentAt (prog.run log).2 path = contentAt log path := by
  obtain ⟨made, added, allowed, -⟩ := quiet log
  have same : history (prog.run log).2 path = history log path := by
    rw [added, history_append, history_quiet allowed, List.append_nil]
  rw [contentAt, contentAt, fileAt_eq, fileAt_eq, same]

/-! ## Files -/

/-- The file is open, and what was given to MD5 is in the file at this path. -/
structure Datafile.Fills (path : Path) (log : Log) (f : Datafile) : Prop where
  /-- The file is open. -/
  isOpen : f.isOpen = true
  /-- Data is written. -/
  real : f.simul = false
  /-- It is written to this path. -/
  place : f.path = path
  /-- Zeros at the end may be missing from a sparse file. -/
  holds : ∃ file, fileAt log path = some file ∧ file.Holds f.hashed ∧
    (f.sparse = false → file.content = f.hashed)

/-- One call. -/
theorem ensures_call {pre : Log → Prop} (call : SysCall) :
    Traced.Ensures pre (os.call call) fun res log =>
      ∃ before, pre before ∧ log = before ++ [(call, res)] :=
  fun log holds => ⟨log, holds, rfl⟩

theorem datafileOpenWrite_ensures (sparse : Bool) :
    Traced.Ensures (fun _ => True) (datafileOpenWrite os datafileAlloc path false sparse)
      fun res log => res.1 = true →
        res.2.Fills path log ∧ res.2.hashed = [] ∧ res.2.sparse = sparse := by
  have shut : ¬datafileAlloc.isOpen = true := by decide
  unfold datafileOpenWrite
  rw [if_neg shut, if_neg (by decide)]
  refine (ensures_call _).bind fun fd => ?_
  refine Traced.Ensures.ite (fun _ => Traced.Ensures.pure fun _ _ opened => nomatch opened) ?_
  refine fun opened => Traced.Ensures.pure fun log made _ => ?_
  obtain ⟨before, -, rfl⟩ := made
  refine ⟨⟨rfl, rfl, rfl, ⟨[], 0⟩, ?_, ⟨rfl, rfl⟩, fun _ => rfl⟩, rfl, rfl⟩
  rw [fileAt_concat, replay, if_pos ⟨rfl, Int.not_lt.mp opened⟩]

theorem datafileWrite_ensures {f : Datafile} (data : List UInt8) :
    Traced.Ensures (fun log => f.Fills path log) (datafileWrite os f data)
      fun res log => res.1 = true →
        res.2.Fills path log ∧ res.2.hashed = f.hashed ++ data ∧ res.2.sparse = f.sparse := by
  refine Traced.Ensures.ite (fun _ => Traced.Ensures.pure fun _ _ written => nomatch written) ?_
  refine fun _ => Traced.Ensures.ite (fun simul => Traced.Ensures.pure fun log fills => ?_) ?_
  · rw [fills.real] at simul
    cases simul
  refine fun _ => Traced.Ensures.ite (fun seek => ?_) fun _ => ?_
  · -- zeros in a sparse file
    refine (ensures_call _).bind fun lres => ?_
    refine Traced.Ensures.ite (fun _ => Traced.Ensures.pure fun _ _ written => nomatch written) ?_
    refine fun sought => Traced.Ensures.pure fun log made _ => ?_
    obtain ⟨before, fills, rfl⟩ := made
    obtain ⟨file, here, holds, dense⟩ := fills.holds
    rw [Bool.and_eq_true] at seek
    have zeros : data = List.replicate data.length 0 := by
      refine List.eq_replicate_iff.mpr ⟨rfl, fun byte member => ?_⟩
      simpa using List.all_eq_true.mp seek.2 byte member
    refine ⟨⟨fills.isOpen, fills.real, fills.place, { file with offset := file.offset + data.length },
      ?_, ?_, ?_⟩, rfl, rfl⟩
    · rw [fileAt_concat, here, replay, if_pos ⟨fills.place, Int.not_lt.mp sought⟩]
      rfl
    · have behind := holds.seek data.length
      rwa [← zeros] at behind
    · intro plain
      rw [show f.sparse = false from plain] at seek
      cases seek.1
  · refine (ensures_call _).bind fun lres => ?_
    refine Traced.Ensures.ite (fun _ => Traced.Ensures.pure fun _ _ written => nomatch written) ?_
    refine fun whole => Traced.Ensures.pure fun log made _ => ?_
    obtain ⟨before, fills, rfl⟩ := made
    obtain ⟨file, here, holds, dense⟩ := fills.holds
    obtain ⟨behind, content⟩ := holds.write data
    refine ⟨⟨fills.isOpen, fills.real, fills.place, file.write data, ?_, behind, fun _ => content⟩,
      rfl, rfl⟩
    rw [fileAt_concat, here, replay, if_pos fills.place, not_not.mp whole, Int.toNat_natCast,
      List.take_length]
    rfl

theorem datafileClose_ensures {md5 : Md5} {f : Datafile} :
    Traced.Ensures (fun log => f.Fills path log) (datafileClose os md5 f)
      fun closed log => closed.f.isOpen = false ∧ closed.md5 = some (md5.digest f.hashed) ∧
        (closed.ok = true ∨ f.sparse = false → contentAt log path = some f.hashed) := by
  refine Traced.Ensures.ite (fun shut => Traced.Ensures.pure fun log fills => ?_) fun _ => ?_
  · rw [fills.isOpen] at shut
    cases shut
  refine Traced.Ensures.ite (fun simul => Traced.Ensures.pure fun log fills => ?_) fun _ => ?_
  · rw [fills.real] at simul
    cases simul
  have cutting : Traced.Ensures (fun log => f.Fills path log)
      (if f.sparse then os.call (.ftruncate f.path) else pure 0) fun cut log =>
        (0 ≤ cut ∨ f.sparse = false → contentAt log path = some f.hashed) ∧ f.path = path := by
    refine Traced.Ensures.ite (fun sparse => ?_) fun dense => Traced.Ensures.pure fun log fills => ?_
    · refine (ensures_call _).mono fun cut log made => ?_
      obtain ⟨before, fills, rfl⟩ := made
      refine ⟨fun done => ?_, fills.place⟩
      obtain ⟨file, here, holds, -⟩ := fills.holds
      have cut' : 0 ≤ cut := by simpa [sparse] using done
      rw [contentAt, fileAt_concat, here, replay, if_pos ⟨fills.place, cut'⟩]
      exact congrArg some holds.resize
    · obtain ⟨file, here, -, whole⟩ := fills.holds
      refine ⟨fun _ => ?_, fills.place⟩
      rw [contentAt, here, ← whole (by simpa using dense)]
      rfl
  refine cutting.bind fun cut => (ensures_call _).bind fun res => Traced.Ensures.pure ?_
  rintro log ⟨before, ⟨content, -⟩, rfl⟩
  refine ⟨rfl, rfl, fun done => ?_⟩
  rw [contentAt, fileAt_concat]
  exact content (done.imp_left fun ok => (of_decide_eq_true ok).1)

/-! ## Large and empty files -/

/-- While all blocks are there, they are taken from the queue and written. -/
theorem restoreBlocks_ensures {filesize : UInt64} (queue : List QueueData) :
    ∀ (filepos : UInt64) (f : Datafile), Traced.Ensures (fun log => f.Fills path log)
      (restoreBlocks ctx filesize queue filepos f) fun res log => res.1 = .whole →
        res.2.2.Fills path log ∧ (¬filepos < filesize → res.2.2.hashed = f.hashed) ∧
          ∃ blocks : List BlockInfo, queue = blocks.map .block ++ res.2.1 := by
  have done (queue : List QueueData) (filepos : UInt64) (f : Datafile) :
      Traced.Ensures (fun log => f.Fills path log)
        (if ¬filepos < filesize then pure (Contents.whole, queue, f)
          else pure (Contents.incomplete, queue, f) : Sys (Contents × List QueueData × Datafile))
        fun res log => res.1 = .whole →
          res.2.2.Fills path log ∧ (¬filepos < filesize → res.2.2.hashed = f.hashed) ∧
            ∃ blocks : List BlockInfo, queue = blocks.map .block ++ res.2.1 :=
    Traced.Ensures.ite
      (fun _ => Traced.Ensures.pure fun _ fills _ => ⟨fills, fun _ => rfl, [], rfl⟩)
      fun _ => Traced.Ensures.pure fun _ _ whole => nomatch whole
  induction queue with
  | nil => exact fun filepos f => done [] filepos f
  | cons item queue ih =>
    intro filepos f
    cases item with
    | header headinfo => exact done _ filepos f
    | block blkinfo =>
      refine Traced.Ensures.ite
        (fun _ => Traced.Ensures.pure fun _ fills _ => ⟨fills, fun _ => rfl, [], rfl⟩) fun more => ?_
      refine Traced.Ensures.ite (fun _ => Traced.Ensures.pure fun _ _ whole => nomatch whole) ?_
      refine fun _ => (datafileWrite_ensures _).bind fun written => ?_
      refine Traced.Ensures.ite (fun _ => Traced.Ensures.pure fun _ _ whole => nomatch whole) ?_
      intro success log fills whole
      have success : written.1 = true := by simpa using success
      obtain ⟨fills', -, blocks, order⟩ := ih _ written.2 log (fills success).1 whole
      refine ⟨fills', fun least => absurd (not_not.mp more) least, blkinfo :: blocks, ?_⟩
      rw [List.map_cons, List.cons_append, ← order]

/-- What writing a file gives when the file can be closed. -/
theorem writeRegfile_ensures (queue : List QueueData) (sparse : Bool) (filesize : UInt64) :
    Traced.Ensures (fun _ => True) (writeRegfile ctx queue path false sparse filesize)
      fun file log => file.closed.ok = true → file.closed.f.isOpen = false ∧
        ∃ content, contentAt log path = some content ∧
          file.closed.md5 = some (ctx.md5.digest content) ∧ (filesize = 0 → content = []) ∧
          ∃ blocks : List BlockInfo, queue = blocks.map .block ++ file.queue := by
  refine (datafileOpenWrite_ensures sparse).bind fun opened => ?_
  -- the blocks, if the file was opened
  have looping : Traced.Ensures
      (fun log => opened.1 = true →
        opened.2.Fills path log ∧ opened.2.hashed = [] ∧ opened.2.sparse = sparse)
      (if opened.1 then restoreBlocks ctx filesize queue 0 opened.2
        else pure (.unopened, queue, opened.2)) fun loop log => loop.1 = .whole →
        loop.2.2.Fills path log ∧ (filesize = 0 → loop.2.2.hashed = []) ∧
          ∃ blocks : List BlockInfo, queue = blocks.map .block ++ loop.2.1 := by
    refine Traced.Ensures.ite (fun success log fills whole => ?_)
      fun _ => Traced.Ensures.pure fun _ _ whole => nomatch whole
    obtain ⟨fills, empty, -⟩ := fills success
    obtain ⟨fills', least, order⟩ := restoreBlocks_ensures queue 0 opened.2 log fills whole
    refine ⟨fills', fun zero => ?_, order⟩
    rw [← empty]
    exact least (by rw [zero]; exact UInt64.lt_irrefl 0)
  refine looping.bind fun loop => ?_
  -- the file is closed if all of it was written
  by_cases whole : loop.1 = .whole
  · rw [if_pos whole]
    intro log loops ok
    obtain ⟨fills, empty, order⟩ := loops whole
    have closes : Traced.Ensures (fun log => loop.2.2.Fills path log)
        (datafileClose ctx.os ctx.md5 loop.2.2) _ := datafileClose_ensures
    obtain ⟨shut, digest, content⟩ := closes log fills
    exact ⟨shut, loop.2.2.hashed, content (.inl ok), digest, empty, order⟩
  · rw [if_neg whole]
    intro log _ ok
    cases ok

/-- A footer that leaves no error holds the digest that was computed. -/
theorem restoreFooter_inv {md5sumcalc : List UInt8} {queue : List QueueData}
    (fine : (restoreFooter ctx false md5sumcalc queue).1 = .fine) :
    ∃ fsid foot stored, queue = .header ⟨.filf, fsid, foot⟩ ::
        (restoreFooter ctx false md5sumcalc queue).2 ∧
      dicoGetData foot Section.stdattr footerMd5sum 16 = some stored ∧
      md5sumcalc = localBuffer ctx.mem 16 stored := by
  unfold restoreFooter at fine ⊢
  cases queue with
  | nil => cases fine
  | cons item rest =>
    cases item with
    | block blkinfo => cases fine
    | header headinfo =>
      obtain ⟨magic, fsid, foot⟩ := headinfo
      simp only [dequeueHeader, Bool.false_eq_true, ↓reduceIte] at fine ⊢
      by_cases other : magic ≠ .filf
      · rw [if_pos other] at fine
        cases fine
      · rw [if_neg other] at fine ⊢
        cases stored : dicoGetData foot Section.stdattr footerMd5sum 16 with
        | none =>
          rw [stored] at fine
          cases fine
        | some md5sumorig =>
          simp only [stored] at fine ⊢
          by_cases differ : md5sumcalc ≠ localBuffer ctx.mem 16 md5sumorig
          · rw [if_pos differ] at fine
            cases fine
          · rw [if_neg differ]
            rw [not_not.mp other]
            exact ⟨fsid, foot, md5sumorig, rfl, stored, not_not.mp differ⟩

/-- What is known of a file that leaves no error: it is empty and meant to be, or its blocks are
followed by the footer with its digest. -/
theorem restoreRegfileUnique_ensures (queue : List QueueData) (d : Dico) (objtype : UInt32)
    (filesize : UInt64) :
    Traced.Ensures (fun _ => True)
      (restoreRegfileUnique ctx queue path d objtype false filesize)
      fun file log => file.excluded = false ∧ (file.minorerr = false →
        ∃ content, contentAt log path = some content ∧
          ((filesize = 0 ∧ content = []) ∨ ∃ blocks : List BlockInfo, ∃ fsid foot stored,
            queue = blocks.map .block ++ .header ⟨.filf, fsid, foot⟩ :: file.queue ∧
              dicoGetData foot Section.stdattr footerMd5sum 16 = some stored ∧
              ctx.md5.digest content = localBuffer ctx.mem 16 stored)) := by
  unfold restoreRegfileUnique
  refine Traced.Ensures.bind (show Traced.Ensures (fun _ => True) _ fun _ _ => True from
    fun _ _ => trivial) fun tv => ?_
  refine (writeRegfile_ensures queue _ filesize).bind fun file => ?_
  -- the attributes are set once the file is closed, and its contents stay
  have finishing : Traced.Ensures
      (fun log => file.closed.ok = true → file.closed.f.isOpen = false ∧
        ∃ content, contentAt log path = some content ∧
          file.closed.md5 = some (ctx.md5.digest content) ∧ (filesize = 0 → content = []) ∧
          ∃ blocks : List BlockInfo, queue = blocks.map .block ++ file.queue)
      (if file.closed.ok && !false then finishRegfile ctx path d objtype tv
        else pure file.closed.ok) fun finished log => finished = true →
        file.closed.ok = true ∧ file.closed.f.isOpen = false ∧
        ∃ content, contentAt log path = some content ∧
          file.closed.md5 = some (ctx.md5.digest content) ∧ (filesize = 0 → content = []) ∧
          ∃ blocks : List BlockInfo, queue = blocks.map .block ++ file.queue := by
    refine Traced.Ensures.ite (fun ok log known _ => ?_) fun _ => Traced.Ensures.pure ?_
    · have ok : file.closed.ok = true := by simpa using ok
      have quiet : Sys.Quiet path (finishRegfile ctx path d objtype tv) :=
        finishRegfile_quiet d objtype tv
      rw [quiet.contentAt_eq log]
      exact ⟨ok, known ok⟩
    · exact fun log known ok => ⟨ok, known ok⟩
  refine finishing.bind fun finished => ?_
  refine Traced.Ensures.ite (fun _ => ?_) fun intact => ?_
  · exact fun log _ => ⟨rfl, fun none => nomatch none⟩
  · intro log known
    refine ⟨rfl, fun none => ?_⟩
    simp only [Traced.run_bind, Traced.run_pure, Bool.not_eq_false', Bool.and_eq_true,
      decide_eq_true_eq] at none
    obtain ⟨done, fine⟩ := none
    obtain ⟨ok, shut, content, here, digest, empty, blocks, order⟩ := known done
    have silent : (datafileDestroy ctx.os ctx.md5 file.closed.f).run log = ((), log) := by
      rw [datafileDestroy_closed shut]
      rfl
    simp only [Traced.run_bind, silent, Traced.run_pure]
    refine ⟨content, here, ?_⟩
    by_cases zero : filesize = 0
    · exact .inl ⟨zero, empty zero⟩
    · have unwritten : file.contents ≠ .unwritten := fun same => intact (.inr (.inl same))
      have some' : ¬(file.contents = .unwritten ∨ filesize = 0) := not_or.mpr ⟨unwritten, zero⟩
      simp only [if_neg some', digest, Option.getD_some] at fine ⊢
      obtain ⟨fsid, foot, stored, next, sum, same⟩ := restoreFooter_inv fine
      exact .inr ⟨blocks, fsid, foot, stored, by rw [order, ← next], sum, same⟩

/-! ## Small files -/

/-- A small file that was written has the digest in its header. -/
theorem writeSmallFile_ensures (filehead : Dico) (databuf : List UInt8) :
    Traced.Ensures (fun _ => True) (writeSmallFile ctx path filehead databuf)
      fun res log => res = .restored → contentAt log path = some databuf ∧
        ∃ stored, dicoGetData filehead Section.stdattr ItemKey.md5sum 16 = some stored ∧
          ctx.md5.digest databuf = localBuffer ctx.mem 16 stored := by
  unfold writeSmallFile
  cases sum : dicoGetData filehead Section.stdattr ItemKey.md5sum 16 with
  | none => exact Traced.Ensures.pure fun _ _ restored => nomatch restored
  | some md5sumorig =>
    refine (datafileOpenWrite_ensures false).bind fun opened => ?_
    refine Traced.Ensures.ite (fun _ => Traced.Ensures.pure fun _ _ restored => nomatch restored) ?_
    intro success
    have success : opened.1 = true := by simpa using success
    -- the data is written, and the file is closed whether it was or not
    have writing : Traced.Ensures (fun log => opened.1 = true →
        opened.2.Fills path log ∧ opened.2.hashed = [] ∧ opened.2.sparse = false)
        (datafileWrite ctx.os opened.2 databuf) fun written log => written.1 = true →
          written.2.Fills path log ∧ written.2.hashed = databuf ∧ written.2.sparse = false := by
      intro log fills whole
      obtain ⟨fills, empty, dense⟩ := fills success
      obtain ⟨fills', hashed, sparse⟩ := datafileWrite_ensures databuf log fills whole
      exact ⟨fills', by rw [hashed, empty, List.nil_append], sparse.trans dense⟩
    have closing (written : Bool × Datafile) : Traced.Ensures (fun log => written.1 = true →
        written.2.Fills path log ∧ written.2.hashed = databuf ∧ written.2.sparse = false)
        (datafileClose ctx.os ctx.md5 written.2) fun closed log => written.1 = true →
          contentAt log path = some databuf ∧ closed.md5 = some (ctx.md5.digest databuf) := by
      intro log fills whole
      obtain ⟨fills, hashed, dense⟩ := fills whole
      obtain ⟨-, digest, content⟩ := datafileClose_ensures log fills
      rw [hashed] at digest content
      exact ⟨content (.inr dense), digest⟩
    refine writing.bind fun written => (closing written).bind fun closed => ?_
    refine Traced.Ensures.ite (fun _ => fun _ _ restored => nomatch restored) fun whole => ?_
    refine Traced.Ensures.ite (fun _ => fun _ _ restored => nomatch restored) fun same => ?_
    refine Traced.Ensures.pure fun log known _ => ?_
    obtain ⟨here, digest⟩ := known (by simpa using whole)
    rw [digest] at same
    exact ⟨here, md5sumorig, rfl, Option.some.inj (not_not.mp same)⟩

/-- The header of a file in a pack is the one that was collected for it. -/
theorem regmultiRestGetfile_header {mem : Mem} {m : Regmulti} {index : Nat} {filehead : Dico}
    {data : List UInt8} (found : regmultiRestGetfile mem m index = some (filehead, data)) :
    m.objhead[index]? = some filehead := by
  unfold regmultiRestGetfile at found
  cases header : m.objhead[index]? with
  | none => simp [header] at found
  | some other =>
    simp only [header, Option.bind_eq_bind, Option.bind_eq_some_iff] at found
    obtain ⟨size, -, offset, -, same⟩ := found
    cases same
    rfl

/-- What is known of a small file that counts as restored. -/
theorem restoreSmallFile_ensures (objtype : UInt32) (regmulti : Regmulti) (index : Nat) :
    Traced.Ensures (fun _ => True) (restoreSmallFile ctx objtype regmulti index)
      fun res log => res = .restored → ∃ filehead relpath content stored,
        regmulti.objhead[index]? = some filehead ∧ readPath ctx.mem filehead ItemKey.path = some relpath ∧
          contentAt log (concatenatePaths ctx.destdir relpath) = some content ∧
          dicoGetData filehead Section.stdattr ItemKey.md5sum 16 = some stored ∧
          ctx.md5.digest content = localBuffer ctx.mem 16 stored := by
  unfold restoreSmallFile
  cases found : regmultiRestGetfile ctx.mem regmulti index with
  | none => exact Traced.Ensures.pure fun _ _ restored => nomatch restored
  | some file =>
    obtain ⟨filehead, databuf⟩ := file
    dsimp only
    cases type : dicoGetU32 ctx.mem filehead Section.stdattr ItemKey.objtype with
    | none => exact Traced.Ensures.pure fun _ _ restored => nomatch restored
    | some _ =>
      cases place : readPath ctx.mem filehead ItemKey.path with
      | none => exact Traced.Ensures.pure fun _ _ restored => nomatch restored
      | some relpath =>
        refine Traced.Ensures.ite
          (fun _ => Traced.Ensures.pure fun _ _ restored => nomatch restored) fun _ => ?_
        refine Traced.Ensures.bind (show Traced.Ensures (fun _ => True) _ fun _ _ => True from
          fun _ _ => trivial) fun tv => ?_
        refine (writeSmallFile_ensures filehead databuf).bind fun written => ?_
        refine Traced.Ensures.ite (fun other => Traced.Ensures.pure fun _ _ restored =>
          absurd restored other) fun restored => ?_
        intro log known _
        obtain ⟨here, stored, sum, same⟩ := known (not_not.mp restored)
        refine ⟨filehead, relpath, databuf, stored, regmultiRestGetfile_header found, place, ?_, sum,
          same⟩
        -- attributes and times come after the contents
        have quiet : Sys.Quiet (concatenatePaths ctx.destdir relpath) (do
            let attrs ← extractarRestoreAttrEverything ctx objtype
              (concatenatePaths ctx.destdir relpath) filehead
            if !attrs then return SmallFile.failed
            else
              let left ← leaveParent ctx (concatenatePaths ctx.destdir relpath) tv
              if left then return SmallFile.restored else return SmallFile.failed) := by
          refine (extractarRestoreAttrEverything_quiet objtype filehead).bind fun attrs _ => ?_
          refine Traced.Adds.ite (fun _ => Traced.Adds.pure trivial) fun _ => ?_
          refine (leaveParent_quiet _ tv).bind fun left _ => ?_
          exact Traced.Adds.ite (fun _ => Traced.Adds.pure trivial) fun _ => Traced.Adds.pure trivial
        rw [quiet.contentAt_eq log]
        exact here

/-! ## Accounts -/

/-- A file that counts as restored, with the calls made until then. -/
structure RestoredFile where
  /-- The place of its object header among the items. -/
  index : Nat
  /-- Its object header. -/
  header : Dico
  /-- The path it is restored to. -/
  path : Path
  /-- Its contents. -/
  content : List UInt8
  /-- The calls. -/
  log : Log

/-- These items vouch for the contents of a file whose header has this place. -/
inductive Vouched (ctx : Context) (items : List QueueData) (index : Nat) :
    Dico → List UInt8 → Prop where
  /-- An empty file, and the size in the header is 0. -/
  | empty {d : Dico} (size : dicoGetU64 ctx.mem d Section.stdattr ItemKey.size = some 0) :
      Vouched ctx items index d []
  /-- The digest is in the footer behind the header and the blocks. -/
  | footer {fsid' : UInt16} {d foot : Dico} {rest : List QueueData} {blocks : List BlockInfo}
      {content : List UInt8}
      (order : items.drop (index + 1) = blocks.map .block ++ .header ⟨.filf, fsid', foot⟩ :: rest)
      (sum : dicoGetData foot Section.stdattr footerMd5sum 16 = some (ctx.md5.digest content)) :
      Vouched ctx items index d content
  /-- The digest is in the header. -/
  | header {d : Dico} {content : List UInt8}
      (sum : dicoGetData d Section.stdattr ItemKey.md5sum 16 = some (ctx.md5.digest content)) :
      Vouched ctx items index d content

/-- The contents are on disk when the file is counted, and some items vouch for them. -/
structure RestoredFile.Genuine (ctx : Context) (items : List QueueData) (file : RestoredFile) :
    Prop where
  /-- The header is among the items. -/
  listed : ∃ fsid, items[file.index]? = some (.header ⟨.objt, fsid, file.header⟩)
  /-- The path is the one in the header. -/
  place : ∃ relpath, readPath ctx.mem file.header ItemKey.path = some relpath ∧
    file.path = concatenatePaths ctx.destdir relpath
  /-- The contents are on disk. -/
  here : contentAt file.log file.path = some file.content
  /-- Items vouch for them. -/
  vouched : Vouched ctx items file.index file.header file.content

/-- Between two states only genuine files were counted, each for a header of its own between two
places. -/
def Accounts (ctx : Context) (items : List QueueData) (low high : Nat)
    (before after : Stats × Log) : Prop :=
  ∃ files : List RestoredFile, after.1.cntRegfile = before.1.cntRegfile + files.length ∧
    before.2 <+: after.2 ∧ files.Pairwise (fun earlier later => earlier.index < later.index) ∧
    ∀ file ∈ files, (low ≤ file.index ∧ file.index < high) ∧ file.log <+: after.2 ∧
      file.Genuine ctx items

variable {items : List QueueData} {low middle high : Nat} {a b c : Stats × Log}

/-- Nothing is counted. -/
theorem Accounts.none (same : b.1.cntRegfile = a.1.cntRegfile) (grows : a.2 <+: b.2) :
    Accounts ctx items low high a b :=
  ⟨[], same, grows, List.Pairwise.nil, by simp⟩

/-- One file is counted. -/
theorem Accounts.one (file : RestoredFile) (counted : b.1.cntRegfile = a.1.cntRegfile + 1)
    (grows : a.2 <+: b.2) (inside : low ≤ file.index ∧ file.index < high) (now : file.log = b.2)
    (genuine : file.Genuine ctx items) : Accounts ctx items low high a b :=
  ⟨[file], counted, grows, List.pairwise_singleton _ _, by simpa [now] using ⟨inside, genuine⟩⟩

theorem Accounts.trans (first : Accounts ctx items low middle a b)
    (second : Accounts ctx items middle high b c) (below : low ≤ middle) (above : middle ≤ high) :
    Accounts ctx items low high a c := by
  obtain ⟨files, count, grows, apart, genuine⟩ := first
  obtain ⟨files', count', grows', apart', genuine'⟩ := second
  refine ⟨files ++ files', ?_, grows.trans grows', ?_, fun file member => ?_⟩
  · rw [count', count, List.length_append, Nat.add_assoc]
  · refine List.pairwise_append.mpr ⟨apart, apart', fun earlier early later late => ?_⟩
    exact Nat.lt_of_lt_of_le (genuine earlier early).1.2 (genuine' later late).1.1
  · rcases List.mem_append.mp member with early | late
    · obtain ⟨⟨least, most⟩, before, real⟩ := genuine file early
      exact ⟨⟨least, Nat.lt_of_lt_of_le most above⟩, before.trans grows', real⟩
    · obtain ⟨⟨least, most⟩, before, real⟩ := genuine' file late
      exact ⟨⟨below.trans least, most⟩, before, real⟩

/-- The places may be wider apart. -/
theorem Accounts.mono (accounts : Accounts ctx items low high a b) {lower higher : Nat}
    (below : lower ≤ low) (above : high ≤ higher) : Accounts ctx items lower higher a b := by
  obtain ⟨files, count, grows, apart, genuine⟩ := accounts
  refine ⟨files, count, grows, apart, fun file member => ?_⟩
  obtain ⟨⟨least, most⟩, rest⟩ := genuine file member
  exact ⟨⟨below.trans least, Nat.lt_of_lt_of_le most above⟩, rest⟩

/-- A program about one object only adds to the log. -/
theorem Sys.About.grows {α : Type} {prog : Sys α} (about : Sys.About path prog) (log : Log) :
    log <+: (prog.run log).2 := by
  obtain ⟨made, added, -, -⟩ := about log
  exact ⟨made, added.symm⟩

/-- Digests on the queue have their full length. -/
def FullDigests (items : List QueueData) : Prop :=
  ∀ headinfo, .header headinfo ∈ items → ∀ key ∈ [ItemKey.md5sum, footerMd5sum], ∀ stored,
    dicoGetData headinfo.dico Section.stdattr key 16 = some stored → stored.length = 16

/-- The same of one item. -/
def QueueData.hasFullDigests : QueueData → Bool
  | .header headinfo => [ItemKey.md5sum, footerMd5sum].all fun key =>
      (dicoGetData headinfo.dico Section.stdattr key 16).all fun stored => stored.length = 16
  | .block _ => true

theorem fullDigests_iff : (items.all QueueData.hasFullDigests = true) ↔ FullDigests items := by
  simp only [FullDigests, List.all_eq_true]
  constructor
  · intro all headinfo member key among stored sum
    have own := List.all_eq_true.mp (all _ member) key among
    rw [sum] at own
    simpa using own
  · intro full item member
    cases item with
    | block blkinfo => rfl
    | header headinfo =>
      refine List.all_eq_true.mpr fun key among => ?_
      cases sum : dicoGetData headinfo.dico Section.stdattr key 16 with
      | none => rfl
      | some stored => simpa using full headinfo member key among stored sum

instance : Decidable (FullDigests items) := decidable_of_iff _ fullDigests_iff

theorem localBuffer_full (mem : Mem) {stored : List UInt8} (full : stored.length = 16) :
    localBuffer mem 16 stored = stored := by
  simp [localBuffer, full]

/-- The headers of a pack are taken from the front of the queue, one after the other. -/
theorem restoreHeaders_taken (count : Nat) (m : Regmulti) (queue : List QueueData) :
    (restoreHeaders count m queue).2.2 <:+ queue ∧
      ((restoreHeaders count m queue).1 = true → ∃ taken : List (UInt16 × Dico),
        taken.length = count ∧
        queue = (taken.map fun head => .header ⟨.objt, head.1, head.2⟩) ++
          (restoreHeaders count m queue).2.2 ∧
        (restoreHeaders count m queue).2.1.objhead = m.objhead ++ taken.map Prod.snd) := by
  induction count generalizing m queue with
  | zero => exact ⟨List.suffix_rfl, fun _ => ⟨[], rfl, rfl, (List.append_nil _).symm⟩⟩
  | succ count ih =>
    rw [restoreHeaders]
    cases queue with
    | nil => exact ⟨List.suffix_rfl, nofun⟩
    | cons item queue =>
      cases item with
      | block blkinfo => exact ⟨List.suffix_rfl, nofun⟩
      | header headinfo =>
        obtain ⟨magic, fsid, dico⟩ := headinfo
        dsimp only [dequeueHeader]
        by_cases other : magic ≠ .objt
        · rw [if_pos other]
          exact ⟨List.suffix_cons .., nofun⟩
        · rw [if_neg other]
          cases added : regmultiRestAddheader m dico with
          | none => exact ⟨List.suffix_cons .., nofun⟩
          | some m' =>
            obtain ⟨suffix, whole⟩ := ih m' queue
            refine ⟨suffix.trans (List.suffix_cons ..), fun ok => ?_⟩
            have grown : m'.objhead = m.objhead ++ [dico] := by
              unfold regmultiRestAddheader at added
              split at added
              · cases added
              · cases added
                rfl
            obtain ⟨taken, length, order, heads⟩ := whole ok
            refine ⟨(fsid, dico) :: taken, by rw [List.length_cons, length], ?_, ?_⟩
            · rw [List.map_cons, List.cons_append, ← order, not_not.mp other]
            · rw [heads, grown, List.map_cons, List.append_assoc, List.singleton_append]

/-- The small files of a pack whose headers stand behind each other from this place on. -/
theorem restoreSmallFiles_accounts (full : FullDigests items) (objtype : UInt32)
    (regmulti : Regmulti) (base : Nat)
    (headers : ∀ index header, regmulti.objhead[index]? = some header →
      ∃ fsid, items[base + index]? = some (.header ⟨.objt, fsid, header⟩))
    (start number : Nat) (stats : Stats) (log : Log) :
    Accounts ctx items (base + start) (base + (start + number)) (stats, log)
      (((restoreSmallFiles ctx objtype regmulti (List.range' start number) stats).run log).1.2,
        ((restoreSmallFiles ctx objtype regmulti (List.range' start number) stats).run log).2) := by
  induction number generalizing start stats log with
  | zero => exact .none rfl List.prefix_rfl
  | succ number ih =>
    obtain ⟨path, about⟩ := @restoreSmallFile_about ctx objtype regmulti start
    have grows := about.grows log
    have ensured := @restoreSmallFile_ensures ctx objtype regmulti start log trivial
    have next (stats : Stats) (log : Log) := ih (start + 1) stats log
    rw [List.range'_succ, restoreSmallFiles, Traced.run_bind]
    generalize ((restoreSmallFile ctx objtype regmulti start).run log) = ran at grows ensured ⊢
    obtain ⟨file, log'⟩ := ran
    have skipped (after : Stats) (same : after.cntRegfile = stats.cntRegfile) {high : Nat} :
        Accounts ctx items (base + start) high (stats, log) (after, log') := .none same grows
    have onward {after after' : Stats × Log}
        (first : Accounts ctx items (base + start) (base + (start + 1)) (stats, log) after)
        (rest : Accounts ctx items (base + (start + 1)) (base + (start + 1 + number)) after after') :
        Accounts ctx items (base + start) (base + (start + (number + 1))) (stats, log) after' :=
      (first.trans rest (by omega) (by omega)).mono (Nat.le_refl _) (by omega)
    cases file with
    | failed => exact onward (skipped (stats.fail .regfilemulti) rfl) (next _ log')
    | excluded => exact onward (skipped stats rfl) (next stats log')
    | fatal => exact skipped stats rfl
    | restored =>
      refine onward ?_ (next (stats.count .regfilemulti) log')
      obtain ⟨filehead, relpath, content, stored, member, place, here, sum, same⟩ := ensured rfl
      obtain ⟨fsid, listed⟩ := headers start filehead member
      have length := full _ (List.mem_of_getElem? listed) ItemKey.md5sum List.mem_cons_self stored sum
      rw [localBuffer_full ctx.mem length] at same
      exact Accounts.one ⟨base + start, filehead, concatenatePaths ctx.destdir relpath, content, log'⟩
        rfl grows ⟨Nat.le_refl _, by dsimp only; omega⟩ rfl
        ⟨⟨fsid, listed⟩, ⟨relpath, place, rfl⟩, here, .header (by rw [sum, same])⟩

/-! ## Objects and the loop over them -/

/-- The statistics and the log of a state. -/
def Extractar.account (exar : Extractar) : Stats × Log := (exar.stats, exar.log)

/-- How many of the items were taken. -/
def takenFrom (items queue : List QueueData) : Nat := items.length - queue.length

/-- What is left gets shorter, so that more is taken. -/
theorem takenFrom_le {queue left : List QueueData} (suffix : left <:+ queue) :
    takenFrom items queue ≤ takenFrom items left := by
  have shorter := suffix.length_le
  unfold takenFrom
  omega

/-- Where the header stands that was taken last. -/
theorem takenFrom_header {done queue left : List QueueData} {item : QueueData}
    (order : items = done ++ item :: queue) (suffix : left <:+ queue) :
    items[done.length]? = some item ∧ done.length < takenFrom items left := by
  have shorter := suffix.length_le
  have length := congrArg List.length order
  rw [List.length_append, List.length_cons] at length
  refine ⟨?_, ?_⟩
  · rw [order, List.getElem?_append_right (Nat.le_refl _), Nat.sub_self]
    rfl
  · unfold takenFrom
    omega

/-- The headers of a pack stand behind each other among the items. -/
theorem packHeader_listed {fsid : UInt16} {d : Dico} {done rest : List QueueData}
    {taken : List (UInt16 × Dico)}
    (order : items = done ++ .header ⟨.objt, fsid, d⟩ ::
      ((taken.map fun head => .header ⟨.objt, head.1, head.2⟩) ++ rest))
    {index : Nat} {header : Dico} (found : (d :: taken.map Prod.snd)[index]? = some header) :
    ∃ fsid, items[done.length + index]? = some (.header ⟨.objt, fsid, header⟩) := by
  rw [order, List.getElem?_append_right (by omega), Nat.add_sub_cancel_left]
  cases index with
  | zero =>
    cases found
    exact ⟨fsid, rfl⟩
  | succ index =>
    rw [List.getElem?_cons_succ, List.getElem?_map, Option.map_eq_some_iff] at found
    obtain ⟨head, found, rfl⟩ := found
    refine ⟨head.1, ?_⟩
    rw [List.getElem?_cons_succ, List.getElem?_append_left, List.getElem?_map, found]
    · rfl
    · rw [List.length_map]
      exact (List.getElem?_eq_some_iff.mp found).1

/-- A pack counts only genuine files, and takes its items from the front of the queue. -/
theorem extractarRestoreObjRegfileMulti_accounts (full : FullDigests items) (exar : Extractar)
    {fsid : UInt16} {d : Dico} {done : List QueueData} (objtype : UInt32)
    (order : items = done ++ .header ⟨.objt, fsid, d⟩ :: exar.queue) :
    Accounts ctx items done.length
        (takenFrom items (extractarRestoreObjRegfileMulti ctx exar d objtype).2.queue) exar.account
        (extractarRestoreObjRegfileMulti ctx exar d objtype).2.account ∧
      (extractarRestoreObjRegfileMulti ctx exar d objtype).2.queue <:+ exar.queue := by
  have same {queue : List QueueData} (suffix : queue <:+ exar.queue) :
      Accounts ctx items done.length (takenFrom items queue) exar.account
          ({ exar with queue } : Extractar).account ∧
        ({ exar with queue } : Extractar).queue <:+ exar.queue :=
    ⟨.none rfl List.prefix_rfl, suffix⟩
  unfold extractarRestoreObjRegfileMulti
  dsimp only
  split
  next filescount regmulti count added =>
    have heads := restoreHeaders_taken (filescount.toNat - 1) regmulti exar.queue
    generalize restoreHeaders (filescount.toNat - 1) regmulti exar.queue = ran at heads ⊢
    obtain ⟨ok, pack, queue⟩ := ran
    obtain ⟨suffix, whole⟩ := heads
    cases ok with
    | false => exact same suffix
    | true =>
      obtain ⟨taken, length, split, collected⟩ := whole rfl
      dsimp only at split collected
      cases queue with
      | nil => exact same suffix
      | cons item queue =>
        cases item with
        | header headinfo => exact same suffix
        | block blkinfo =>
          have rest := (List.suffix_cons _ queue).trans suffix
          dsimp only [dequeueBlock]
          split
          · exact same rest
          next pack' filled =>
            have kept : pack'.objhead = d :: taken.map Prod.snd := by
              have only : regmulti.objhead = [d] := by
                simp [regmultiRestAddheader, regmultiInit, maxSmallFileCount] at added
                rw [← added]
              unfold regmultiRestSetdatablock at filled
              split at filled
              · cases filled
              · cases filled
                rw [collected, only, List.singleton_append]
            have headers : ∀ index header, pack'.objhead[index]? = some header →
                ∃ fsid, items[done.length + index]? = some (.header ⟨.objt, fsid, header⟩) := by
              intro index header found
              rw [kept] at found
              rw [split] at order
              exact packHeader_listed order found
            have counted := @restoreSmallFiles_accounts ctx _ full objtype pack' done.length headers 0
              filescount.toNat exar.stats exar.log
            rw [← List.range_eq_range'] at counted
            refine ⟨counted.mono (Nat.le_refl _) ?_, rest⟩
            -- the headers and the block behind them were taken
            have total := congrArg List.length order
            rw [split, List.length_append, List.length_cons, List.length_append, List.length_map,
              List.length_cons, length] at total
            change done.length + (0 + filescount.toNat) ≤ items.length - queue.length
            omega
  · exact same List.suffix_rfl

/-- Blocks are taken from the front of the queue. -/
theorem restoreBlocks_suffix {filesize : UInt64} (queue : List QueueData) :
    ∀ (filepos : UInt64) (f : Datafile), Traced.Ensures (fun _ => True)
      (restoreBlocks ctx filesize queue filepos f) fun res _ => res.2.1 <:+ queue := by
  have done (queue : List QueueData) (filepos : UInt64) (f : Datafile) :
      Traced.Ensures (fun _ => True)
        (if ¬filepos < filesize then pure (Contents.whole, queue, f)
          else pure (Contents.incomplete, queue, f) : Sys (Contents × List QueueData × Datafile))
        fun res _ => res.2.1 <:+ queue :=
    Traced.Ensures.ite (fun _ => Traced.Ensures.pure fun _ _ => List.suffix_rfl)
      fun _ => Traced.Ensures.pure fun _ _ => List.suffix_rfl
  induction queue with
  | nil => exact fun filepos f => done [] filepos f
  | cons item queue ih =>
    intro filepos f
    cases item with
    | header headinfo => exact done _ filepos f
    | block blkinfo =>
      have one : queue <:+ .block blkinfo :: queue := List.suffix_cons ..
      refine Traced.Ensures.ite (fun _ => Traced.Ensures.pure fun _ _ => List.suffix_rfl) fun _ => ?_
      refine Traced.Ensures.ite (fun _ => Traced.Ensures.pure fun _ _ => one) fun _ => ?_
      refine Traced.Ensures.bind (show Traced.Ensures (fun _ => True) _ fun _ _ => True from
        fun _ _ => trivial) fun written => ?_
      refine Traced.Ensures.ite (fun _ => Traced.Ensures.pure fun _ _ => one) fun _ => ?_
      exact (ih _ _).mono fun _ _ suffix => suffix.trans one

/-- So is the footer. -/
theorem restoreFooter_suffix (excluded : Bool) (md5sumcalc : List UInt8)
    (queue : List QueueData) : (restoreFooter ctx excluded md5sumcalc queue).2 <:+ queue := by
  unfold restoreFooter
  cases queue with
  | nil => exact List.suffix_rfl
  | cons item queue =>
    cases item with
    | block blkinfo => exact List.suffix_rfl
    | header headinfo =>
      dsimp only [dequeueHeader]
      split
      · exact List.suffix_cons ..
      · split
        · exact List.suffix_cons ..
        · split
          · exact List.suffix_cons ..
          · split <;> exact List.suffix_cons ..

/-- A file takes its items from the front of the queue. -/
theorem restoreRegfileUnique_suffix (queue : List QueueData) (d : Dico) (objtype : UInt32)
    (excluded : Bool) (filesize : UInt64) :
    Traced.Ensures (fun _ => True)
      (restoreRegfileUnique ctx queue path d objtype excluded filesize)
      fun file _ => file.excluded = excluded ∧ file.queue <:+ queue := by
  unfold restoreRegfileUnique
  refine Traced.Ensures.bind (show Traced.Ensures (fun _ => True) _ fun _ _ => True from
    fun _ _ => trivial) fun tv => ?_
  have writing : Traced.Ensures (fun _ => True)
      (writeRegfile ctx queue path excluded (isSparse ctx.mem d) filesize)
      fun file _ => file.queue <:+ queue := by
    refine Traced.Ensures.bind (show Traced.Ensures (fun _ => True) _ fun _ _ => True from
      fun _ _ => trivial) fun opened => ?_
    refine Traced.Ensures.bind (show Traced.Ensures (fun _ => True) _ fun loop _ =>
      loop.2.1 <:+ queue from Traced.Ensures.ite (fun _ => restoreBlocks_suffix queue 0 opened.2)
        fun _ => Traced.Ensures.pure fun _ _ => List.suffix_rfl) fun loop => ?_
    exact fun _ suffix => suffix
  refine writing.bind fun file => ?_
  have ended : (if file.contents = .unwritten ∨ filesize = 0 then (Footer.fine, file.queue)
      else restoreFooter ctx excluded (file.closed.md5.getD (localBuffer ctx.mem 16 []))
        file.queue).2 <:+ file.queue := by
    split
    · exact List.suffix_rfl
    · exact restoreFooter_suffix ..
  refine Traced.Ensures.bind (show Traced.Ensures _ _ fun _ _ => file.queue <:+ queue from
    fun _ suffix => suffix) fun finished => ?_
  exact Traced.Ensures.ite (fun _ => fun _ suffix => ⟨rfl, ended.trans suffix⟩)
    fun _ => fun _ suffix => ⟨rfl, ended.trans suffix⟩

/-- A large or empty file that is counted is genuine. -/
theorem extractarRestoreObjRegfileUnique_accounts (full : FullDigests items) (exar : Extractar)
    {fsid : UInt16} {d : Dico} {done : List QueueData} {relpath : Path} (objtype : UInt32)
    (order : items = done ++ .header ⟨.objt, fsid, d⟩ :: exar.queue)
    (place : readPath ctx.mem d ItemKey.path = some relpath) {filesize : UInt64}
    (size : dicoGetU64 ctx.mem d Section.stdattr ItemKey.size = some filesize) :
    Accounts ctx items done.length
        (takenFrom items (extractarRestoreObjRegfileUnique ctx exar
          (concatenatePaths ctx.destdir relpath) relpath d objtype).2.queue) exar.account
        (extractarRestoreObjRegfileUnique ctx exar (concatenatePaths ctx.destdir relpath) relpath d
          objtype).2.account ∧
      (extractarRestoreObjRegfileUnique ctx exar (concatenatePaths ctx.destdir relpath) relpath d
        objtype).2.queue <:+ exar.queue := by
  have about : Sys.About (concatenatePaths ctx.destdir relpath) (restoreRegfileUnique ctx
      exar.queue (concatenatePaths ctx.destdir relpath) d objtype
      (isFiledirExcluded ctx.exclude relpath) filesize) :=
    restoreRegfileUnique_about exar.queue d objtype _ filesize
  have grows := about.grows exar.log
  have suffix := @restoreRegfileUnique_suffix ctx (concatenatePaths ctx.destdir relpath) exar.queue
      d objtype (isFiledirExcluded ctx.exclude relpath) filesize exar.log trivial
  cases ran : (restoreRegfileUnique ctx exar.queue (concatenatePaths ctx.destdir relpath) d
    objtype (isFiledirExcluded ctx.exclude relpath) filesize).run exar.log with
  | mk file log =>
    rw [extractarRestoreObjRegfileUnique_eq exar size ran]
    rw [ran] at grows suffix
    refine ⟨?_, suffix.2⟩
    by_cases excluded : file.excluded = true
    · refine .none ?_ grows
      simp only [Extractar.account, excluded, ↓reduceIte]
    · have own : isFiledirExcluded ctx.exclude relpath = false := by
        rw [← suffix.1]
        exact Bool.not_eq_true _ ▸ excluded
      have ensured := @restoreRegfileUnique_ensures ctx (concatenatePaths ctx.destdir relpath)
          exar.queue d objtype filesize exar.log trivial
      rw [own] at ran
      rw [ran] at ensured
      by_cases failed : file.minorerr = true
      · refine .none ?_ grows
        simp only [Extractar.account, excluded, failed, ↓reduceIte]
        rfl
      · obtain ⟨content, here, proof⟩ := ensured.2 (by simpa using failed)
        obtain ⟨listed, inside⟩ := takenFrom_header order suffix.2
        refine .one ⟨done.length, d, concatenatePaths ctx.destdir relpath, content, log⟩ ?_ grows
          ⟨Nat.le_refl _, inside⟩ rfl ⟨⟨fsid, listed⟩, ⟨relpath, place, rfl⟩, here, ?_⟩
        · simp only [Extractar.account, excluded, failed]
          rfl
        · rcases proof with ⟨zero, empty⟩ | ⟨blocks, fsid', foot, stored, next, sum, same⟩
          · subst zero empty
            exact .empty size
          · have inside : .header ⟨.filf, fsid', foot⟩ ∈ items := by
              rw [order, next]
              simp
            have length := full _ inside footerMd5sum (by simp) stored sum
            rw [localBuffer_full ctx.mem length] at same
            refine @Vouched.footer _ _ _ fsid' d foot file.queue blocks content ?_ (by rw [sum, same])
            rw [order, List.append_cons, List.drop_left' (by simp), next]

/-- An object that is made of its header counts no file. -/
theorem restoreHeaderOnly_accounts (exar : Extractar) {type : ObjType}
    (other : ∀ stats : Stats, (stats.count type).cntRegfile = stats.cntRegfile) {entry : Sys Bool}
    (about : Sys.About path entry) :
    Accounts ctx items low high exar.account (restoreHeaderOnly exar type entry).2.account ∧
      (restoreHeaderOnly exar type entry).2.queue = exar.queue := by
  refine ⟨.none ?_ (about.grows exar.log), rfl⟩
  have failed : (exar.stats.fail type).cntRegfile = exar.stats.cntRegfile := by
    cases type <;> rfl
  unfold restoreHeaderOnly Extractar.account
  dsimp only
  split
  · exact other exar.stats
  · exact failed

/-- One object counts only genuine files. -/
theorem extractarRestoreObject_accounts (full : FullDigests items) (exar : Extractar)
    {fsid : UInt16} {d : Dico} {done : List QueueData}
    (order : items = done ++ .header ⟨.objt, fsid, d⟩ :: exar.queue) :
    Accounts ctx items done.length (takenFrom items (extractarRestoreObject ctx exar d).2.queue)
        exar.account (extractarRestoreObject ctx exar d).2.account ∧
      (extractarRestoreObject ctx exar d).2.queue <:+ exar.queue := by
  have unchanged : Accounts ctx items done.length (takenFrom items exar.queue) exar.account
      exar.account ∧ exar.queue <:+ exar.queue :=
    ⟨.none rfl List.prefix_rfl, List.suffix_rfl⟩
  -- objects that are made of their header leave the queue alone
  have single {type : ObjType} {path : Path} {entry : Sys Bool}
      (other : ∀ stats : Stats, (stats.count type).cntRegfile = stats.cntRegfile)
      (about : Sys.About path entry) :
      Accounts ctx items done.length (takenFrom items (restoreHeaderOnly exar type entry).2.queue)
          exar.account (restoreHeaderOnly exar type entry).2.account ∧
        (restoreHeaderOnly exar type entry).2.queue <:+ exar.queue := by
    obtain ⟨accounts, queue⟩ := @restoreHeaderOnly_accounts ctx _ items _ _ exar _ other _ about
    exact ⟨accounts, queue ▸ List.suffix_rfl⟩
  unfold extractarRestoreObject
  split
  next relpath objtype filesize place type size =>
    dsimp only
    split
    · exact single (fun _ => rfl) (restoreEntry_about
        ((mkdirRecursive_quiet _).about.bind fun _ _ => Traced.Adds.pure trivial))
    · exact single (fun _ => rfl) (restoreEntry_about (makeSymlink_about d))
    · exact single (fun _ => rfl) (restoreEntry_about (makeHardlink_about d))
    · exact single (fun _ => rfl) (restoreEntry_about (makeDevfile_about d))
    · exact single (fun _ => rfl) (restoreEntry_about (makeDevfile_about d))
    · exact single (fun _ => rfl) (restoreEntry_about (makeDevfile_about d))
    · exact single (fun _ => rfl) (restoreEntry_about (makeDevfile_about d))
    · exact extractarRestoreObjRegfileUnique_accounts full exar objtype order place size
    · exact extractarRestoreObjRegfileMulti_accounts full exar objtype order
    · exact unchanged
    · exact unchanged
  · exact unchanged

/-- One round of the loop counts only genuine files, each for a header that the round takes. -/
theorem extractStep_accounts (full : FullDigests items) {exar : Extractar}
    (behind : exar.queue <:+ items) :
    Accounts ctx items (takenFrom items exar.queue)
        (takenFrom items (extractStep ctx exar).2.queue) exar.account
        (extractStep ctx exar).2.account ∧
      (extractStep ctx exar).2.queue <:+ exar.queue := by
  obtain ⟨queue, log, stats, errors, skipped⟩ := exar
  cases queue with
  | nil => exact ⟨.none rfl List.prefix_rfl, List.suffix_rfl⟩
  | cons item queue =>
    have rest : queue <:+ item :: queue := List.suffix_cons item queue
    cases item with
    | block blkinfo => exact ⟨.none rfl List.prefix_rfl, rest⟩
    | header headinfo =>
      obtain ⟨magic, checkfsid, dicoattr⟩ := headinfo
      cases magic with
      | datf => exact ⟨.none rfl List.prefix_rfl, List.suffix_rfl⟩
      | objt =>
        obtain ⟨done, order⟩ := behind
        have place : takenFrom items (.header ⟨.objt, checkfsid, dicoattr⟩ :: queue) =
            done.length := by
          rw [takenFrom, ← order, List.length_append, Nat.add_sub_cancel]
        obtain ⟨accounts, suffix⟩ := @extractarRestoreObject_accounts ctx _ full
          ⟨queue, log, stats, errors, skipped⟩ _ _ _ order.symm
        rw [place]
        unfold extractStep
        dsimp only
        by_cases own : checkfsid = ctx.fsid
        · rw [if_pos own]
          split
          next exar' same =>
            rw [same] at accounts suffix
            exact ⟨accounts, suffix.trans rest⟩
          next exar' same =>
            rw [same] at accounts suffix
            exact ⟨accounts, suffix.trans rest⟩
        · rw [if_neg own]
          exact ⟨.none rfl List.prefix_rfl, rest⟩
      | _ => exact ⟨.none rfl List.prefix_rfl, rest⟩

/-- So does the whole loop. -/
theorem extractLoop_accounts (full : FullDigests items) (fuel : Nat) {exar : Extractar}
    (behind : exar.queue <:+ items) :
    Accounts ctx items (takenFrom items exar.queue)
      (takenFrom items (extractLoop ctx fuel exar).2.queue) exar.account
      (extractLoop ctx fuel exar).2.account ∧
    (extractLoop ctx fuel exar).2.queue <:+ exar.queue := by
  induction fuel generalizing exar with
  | zero => exact ⟨.none rfl List.prefix_rfl, List.suffix_rfl⟩
  | succ fuel ih =>
    obtain ⟨accounts, suffix⟩ := @extractStep_accounts ctx _ full _ behind
    unfold extractLoop
    split
    next ret exar' same =>
      rw [same] at accounts suffix
      exact ⟨accounts, suffix⟩
    next exar' same =>
      rw [same] at accounts suffix
      obtain ⟨onward, later⟩ := ih (suffix.trans behind)
      exact ⟨accounts.trans onward (takenFrom_le suffix) (takenFrom_le later), later.trans suffix⟩

/-- The regular files that `extractar_extract_read_objects` counts, each for an object header of its
own, are genuine, and have this property. -/
def CountsGenuine (ctx : Context) (exar : Extractar) (also : RestoredFile → Prop) : Prop :=
  ∃ files : List RestoredFile,
    (extractarExtractReadObjects ctx exar).2.stats.cntRegfile =
      exar.stats.cntRegfile + files.length ∧
    files.Pairwise (fun earlier later => earlier.index < later.index) ∧
    ∀ file ∈ files, file.Genuine ctx exar.queue ∧ also file

/-- The contents are still there at the end unless a later call is about a file at this path. -/
def RestoredFile.Stays (file : RestoredFile) (log : Log) : Prop :=
  ∃ later, log = file.log ++ later ∧
    ((∀ entry ∈ later, entry.1.filePath ≠ some file.path) →
      contentAt log file.path = some file.content)

/-- A system on which nothing fails, with nothing excluded and an MD5 that is always zero. -/
def plainContext : Context :=
  { os := ⟨fun _ call => call.success, fun _ _ => false, fun _ _ => (0, 0)⟩
    md5 := ⟨fun _ => List.replicate 16 0, length_zeroDigest⟩
    mem := ⟨fun _ => 0, fun _ => 0⟩, exclude := fun _ => false, destdir := [slash], fsid := 0
    ntfs := false, haveLutimes := true }

/-- The header of a file with this path and size. -/
def fileHeader (path : Path) (size : UInt64) : QueueData :=
  .header ⟨.objt, 0, dicoAddAll Dico.alloc
    [dicoAddString Section.stdattr ItemKey.path path,
      dicoAddU32 Section.stdattr ItemKey.objtype ObjType.regfileunique.code,
      dicoAddU64 Section.stdattr ItemKey.size size,
      dicoAddU32 Section.stdattr ItemKey.mode 420, dicoAddU32 Section.stdattr ItemKey.uid 0,
      dicoAddU32 Section.stdattr ItemKey.gid 0, dicoAddU64 Section.stdattr ItemKey.atime 0,
      dicoAddU64 Section.stdattr ItemKey.mtime 0]⟩

/-- The footer of a file with this digest. -/
def fileFooter (digest : List UInt8) : QueueData :=
  .header ⟨.filf, 0, dicoAddAll Dico.alloc [dicoAddData Section.stdattr footerMd5sum digest]⟩

/-- An empty file at `/a` and a file of one byte whose footer has this digest, at the end of a
filesystem. -/
def twoCountedExar (path : Path) (digest : UInt8) : Extractar :=
  { queue := [fileHeader [slash, 0x61] 0, fileHeader path 1, .block (regfileBlock 0 0 [0x78]),
      fileFooter (List.replicate 16 digest), .header ⟨.datf, 0, Dico.alloc⟩]
    log := [], stats := {}, errors := 0, skipped := [] }

/-- Where all object headers have this path. -/
theorem path_twoCountedExar {fsid : UInt16} {d : Dico} {digest : UInt8}
    (member : .header ⟨.objt, fsid, d⟩ ∈ (twoCountedExar [slash, 0x61] digest).queue) :
    readPath plainContext.mem d ItemKey.path = some [slash, 0x61] := by
  simp only [twoCountedExar, fileHeader, fileFooter, List.mem_cons, List.not_mem_nil, or_false,
    reduceCtorEq, QueueData.header.injEq, HeadInfo.mk.injEq, false_and] at member
  rcases member with ⟨-, -, rfl⟩ | ⟨-, -, rfl⟩
  · decide +kernel
  · decide +kernel

end FsArchiver
