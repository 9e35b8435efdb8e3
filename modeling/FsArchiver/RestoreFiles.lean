import FsArchiver.Records
import FsArchiver.RestoreCalm

/-!
# Restoring contents on a system on which nothing fails

The blocks of a file are written one after the other, and what they leave behind is the file.
A pack of small files is taken apart at the offsets that its headers give.
-/
namespace FsArchiver

open Lib

variable {ctx : Context} {path : Path} {log : Log}

/-! ## Contents of a file being written -/

/-- The file holds these bytes, of which zeros at the end may still be missing. -/
structure FileState.Holds (file : FileState) (bytes : List UInt8) : Prop where
  /-- The position is behind them. -/
  offset : file.offset = bytes.length
  /-- The missing ones are zeros. -/
  content : file.content ++ List.replicate (bytes.length - file.content.length) 0 = bytes

theorem FileState.Holds.length_le {file : FileState} {bytes : List UInt8}
    (holds : file.Holds bytes) : file.content.length ≤ bytes.length := by
  have whole := congrArg List.length holds.content
  simp only [List.length_append, List.length_replicate] at whole
  omega

/-- A write at the position. -/
theorem FileState.Holds.write {file : FileState} {bytes : List UInt8} (holds : file.Holds bytes)
    (data : List UInt8) :
    (file.write data).Holds (bytes ++ data) ∧ (file.write data).content = bytes ++ data := by
  have short := holds.length_le
  have content : (file.write data).content = bytes ++ data := by
    unfold FileState.write
    rw [holds.offset, List.take_of_length_le short, holds.content,
      List.drop_eq_nil_of_le (by omega), List.append_nil]
  refine ⟨⟨?_, ?_⟩, content⟩
  · simp [FileState.write, holds.offset]
  · rw [content, Nat.sub_self, List.replicate_zero, List.append_nil]

/-- A seek over zeros. -/
theorem FileState.Holds.seek {file : FileState} {bytes : List UInt8} (holds : file.Holds bytes)
    (len : Nat) :
    FileState.Holds { file with offset := file.offset + len } (bytes ++ List.replicate len 0) := by
  have short := holds.length_le
  refine ⟨?_, ?_⟩
  · rw [holds.offset, List.length_append, List.length_replicate]
  · have split : (bytes ++ List.replicate len 0).length - file.content.length =
        (bytes.length - file.content.length) + len := by
      rw [List.length_append, List.length_replicate]
      omega
    rw [split, ← List.replicate_append_replicate, ← List.append_assoc, holds.content]

/-- The file cut at the position. -/
theorem FileState.Holds.resize {file : FileState} {bytes : List UInt8} (holds : file.Holds bytes) :
    file.resize.content = bytes := by
  unfold FileState.resize
  rw [holds.offset, List.take_of_length_le holds.length_le, holds.content]

/-! ## The blocks of a file -/

/-- These are blocks of a filesystem that hold some bytes of a file from a position on. -/
inductive Chunked (fsid : UInt16) : Nat → List UInt8 → List BlockInfo → Prop where
  | nil (pos : Nat) : Chunked fsid pos [] []
  | cons {pos : Nat} {data rest : List UInt8} {blocks : List BlockInfo} (nonempty : data ≠ [])
      (small : data.length < 2 ^ 32) (tail : Chunked fsid (pos + data.length) rest blocks) :
      Chunked fsid pos (data ++ rest) (regfileBlock fsid pos data :: blocks)

/-- How a block is written. -/
def blockCall (sparse : Bool) (path : Path) (data : List UInt8) : SysCall :=
  if sparse && datafileIsBlockZero data then .lseek path data.length else .write path data

/-- A call that writes a block, with its result. -/
def blockEntry (sparse : Bool) (path : Path) (blkinfo : BlockInfo) : SysCall × Int :=
  let call := blockCall sparse path blkinfo.blkdata
  (call, call.success)

/-- An open file that is written to. -/
theorem datafileWrite_calm {os : Os} (calm : os.Calm) {f : Datafile} (isOpen : f.isOpen = true)
    (data : List UInt8) (log : Log) :
    Traced.Gives (datafileWrite os f data) log (true, { f with hashed := f.hashed ++ data })
      (if f.simul then [] else
        [(blockCall f.sparse f.path data, (blockCall f.sparse f.path data).success)]) := by
  unfold datafileWrite blockCall Traced.Gives
  rw [isOpen]
  cases f.simul with
  | true => simp
  | false =>
    by_cases seek : (f.sparse && datafileIsBlockZero data) = true
    · simp [seek, calm.call_eq, SysCall.sure, SysCall.success]
    · simp [seek, calm.call_eq, SysCall.sure, SysCall.success]

/-- A block's size is the length of its data. -/
theorem regfileBlock_size {fsid : UInt16} {pos : Nat} {data : List UInt8}
    (small : data.length < 2 ^ 32) : (regfileBlock fsid pos data).blkrealsize.toNat = data.length :=
  Nat.mod_eq_of_lt small

/-- The position behind a block. -/
theorem filepos_add {fsid : UInt16} {pos : Nat} {data : List UInt8} (small : data.length < 2 ^ 32) :
    UInt64.ofNat pos + (regfileBlock fsid pos data).blkrealsize.toUInt64 =
      UInt64.ofNat (pos + data.length) := by
  apply UInt64.toNat_inj.mp
  simp [regfileBlock_size small]

/-- Blocks that are there are written one after the other. -/
theorem restoreBlocks_append (calm : ctx.os.Calm) {fsid : UInt16} {pos : Nat} {filesize : UInt64}
    {contents : List UInt8} {blocks : List BlockInfo} (chunked : Chunked fsid pos contents blocks)
    (inside : pos + contents.length ≤ filesize.toNat) (more : List QueueData) {f : Datafile}
    (isOpen : f.isOpen = true) (log : Log) :
    (restoreBlocks ctx filesize (blocks.map .block ++ more) (UInt64.ofNat pos) f).run log =
      (restoreBlocks ctx filesize more (UInt64.ofNat (pos + contents.length))
        { f with hashed := f.hashed ++ contents }).run
        (log ++ if f.simul then [] else blocks.map (blockEntry f.sparse f.path)) := by
  induction chunked generalizing f log with
  | nil pos => simp
  | @cons pos data rest blocks nonempty small tail ih =>
    rw [List.length_append] at inside
    have positive := List.length_pos_iff.mpr nonempty
    have bound := filesize.toNat_lt
    have before : UInt64.ofNat pos < filesize := by
      rw [UInt64.lt_iff_toNat_lt, UInt64.toNat_ofNat', Nat.mod_eq_of_lt (by omega)]
      omega
    have all : heapBytes ctx.mem (regfileBlock fsid pos data).blkdata 0
        (regfileBlock fsid pos data).blkrealsize.toNat = data := by
      rw [regfileBlock_size small]
      exact heapBytes_all ctx.mem data
    have written := datafileWrite_calm calm isOpen data log
    unfold Traced.Gives at written
    have onward := ih (by omega) (f := { f with hashed := f.hashed ++ data }) isOpen
      (log ++ if f.simul then [] else [(blockCall f.sparse f.path data,
        (blockCall f.sparse f.path data).success)])
    rw [List.map_cons, List.cons_append, restoreBlocks]
    rw [if_neg (not_not.mpr before), if_neg (by simp [regfileBlock])]
    simp only [Traced.run_bind, all, written, Bool.not_true, Bool.false_eq_true, ↓reduceIte,
      filepos_add small, onward, List.length_append, ← Nat.add_assoc, List.append_assoc]
    cases f.simul <;> simp [blockEntry, regfileBlock]

/-- At the end of the file nothing is taken from the queue. -/
theorem restoreBlocks_done {filesize filepos : UInt64} (done : ¬filepos < filesize)
    (queue : List QueueData) (f : Datafile) :
    restoreBlocks ctx filesize queue filepos f = pure (.whole, queue, f) := by
  cases queue with
  | nil => rw [restoreBlocks, if_pos done]; simp
  | cons item queue => cases item <;> (rw [restoreBlocks, if_pos done]; try simp)

/-- All blocks of a file that are still to come. -/
theorem restoreBlocks_all (calm : ctx.os.Calm) {fsid : UInt16} {pos : Nat} {filesize : UInt64}
    {contents : List UInt8} {blocks : List BlockInfo} (chunked : Chunked fsid pos contents blocks)
    (whole : pos + contents.length = filesize.toNat) (more : List QueueData) {f : Datafile}
    (isOpen : f.isOpen = true) (log : Log) :
    Traced.Gives (restoreBlocks ctx filesize (blocks.map .block ++ more) (UInt64.ofNat pos) f) log
      (.whole, more, { f with hashed := f.hashed ++ contents })
      (if f.simul then [] else blocks.map (blockEntry f.sparse f.path)) := by
  unfold Traced.Gives
  rw [restoreBlocks_append calm chunked (Nat.le_of_eq whole) more isOpen log]
  rw [restoreBlocks_done (by rw [whole, UInt64.ofNat_toNat]; exact UInt64.lt_irrefl filesize)]
  rfl

/-- What a written block does to the file. -/
theorem replay_blockEntry {sparse : Bool} {blkinfo : BlockInfo} {file : FileState}
    {bytes : List UInt8} (holds : file.Holds bytes) :
    ∃ file', replay path (some file) (blockEntry sparse path blkinfo) = some file' ∧
      file'.Holds (bytes ++ blkinfo.blkdata) ∧
      (sparse = false → file'.content = bytes ++ blkinfo.blkdata) := by
  unfold blockEntry blockCall
  by_cases seek : (sparse && datafileIsBlockZero blkinfo.blkdata) = true
  · rw [Bool.and_eq_true] at seek
    have zeros : blkinfo.blkdata = List.replicate blkinfo.blkdata.length 0 := by
      refine List.eq_replicate_iff.mpr ⟨rfl, fun byte member => ?_⟩
      simpa using List.all_eq_true.mp seek.2 byte member
    rw [seek.1, seek.2]
    refine ⟨_, by simp [replay, SysCall.success]; rfl, ?_, by simp⟩
    rw [zeros]
    simpa using holds.seek blkinfo.blkdata.length
  · obtain ⟨written, content⟩ := holds.write blkinfo.blkdata
    refine ⟨file.write blkinfo.blkdata, ?_, written, fun _ => content⟩
    simp [seek, replay, SysCall.success]

/-- What the blocks of a file do to it. -/
theorem replay_blocks {fsid : UInt16} {pos : Nat} {contents : List UInt8} {blocks : List BlockInfo}
    (chunked : Chunked fsid pos contents blocks) (sparse : Bool) {file : FileState}
    {bytes : List UInt8} (holds : file.Holds bytes) (dense : sparse = false → file.content = bytes) :
    ∃ file', (blocks.map (blockEntry sparse path)).foldl (replay path) (some file) = some file' ∧
      file'.Holds (bytes ++ contents) ∧ (sparse = false → file'.content = bytes ++ contents) := by
  induction chunked generalizing file bytes with
  | nil pos =>
    rw [List.append_nil]
    exact ⟨file, rfl, holds, dense⟩
  | @cons pos data rest blocks nonempty small tail ih =>
    obtain ⟨file', step, holds', dense'⟩ : ∃ file', replay path (some file)
        (blockEntry sparse path (regfileBlock fsid pos data)) = some file' ∧ _ :=
      replay_blockEntry holds
    obtain ⟨file'', run, holds'', dense''⟩ := ih holds' dense'
    rw [List.map_cons, List.foldl_cons, step, ← List.append_assoc]
    exact ⟨file'', run, holds'', dense''⟩

/-! ## Large and empty files -/

/-- The calls that write a file. -/
def fileCalls (sparse : Bool) (path : Path) (blocks : List BlockInfo) : Log :=
  (.create path, 0) :: (blocks.map (blockEntry sparse path) ++
    ((if sparse then [(.ftruncate path, 0)] else []) ++ [(.close path, 0)]))

/-- They leave the file behind. -/
theorem replay_fileCalls {fsid : UInt16} {contents : List UInt8} {blocks : List BlockInfo}
    (chunked : Chunked fsid 0 contents blocks) (sparse : Bool) (before : Option FileState) :
    ∃ file, (fileCalls sparse path blocks).foldl (replay path) before = some file ∧
      file.content = contents := by
  have empty : FileState.Holds ⟨[], 0⟩ [] := ⟨rfl, rfl⟩
  obtain ⟨file, run, holds, dense⟩ : ∃ file, (blocks.map (blockEntry sparse path)).foldl
      (replay path) (some ⟨[], 0⟩) = some file ∧ _ :=
    replay_blocks chunked sparse empty fun _ => rfl
  have created : replay path before (.create path, 0) = some ⟨[], 0⟩ := by simp [replay]
  rw [fileCalls, List.foldl_cons, created, List.foldl_append, run]
  cases sparse with
  | false => exact ⟨file, rfl, dense rfl⟩
  | true => exact ⟨file.resize, by simp [replay], holds.resize⟩

/-- Calls that leave files alone are not in the history of one. -/
theorem history_quiet {made : Log} (quiet : ∀ entry ∈ made, Quiet path entry) :
    history made path = [] := by
  refine List.filter_eq_nil_iff.mpr fun entry member own => ?_
  rw [(quiet entry member).2] at own
  simp at own

theorem history_fileCalls (sparse : Bool) (blocks : List BlockInfo) :
    history (fileCalls sparse path blocks) path = fileCalls sparse path blocks := by
  refine List.filter_eq_self.mpr fun entry member => ?_
  simp only [fileCalls, List.mem_cons, List.mem_append, List.mem_map] at member
  rcases member with rfl | ⟨blkinfo, -, rfl⟩ | member | rfl | member
  · simp [SysCall.filePath]
  · unfold blockEntry blockCall
    split <;> simp [SysCall.filePath]
  · cases sparse <;> simp_all [SysCall.filePath]
  · simp [SysCall.filePath]
  · simp at member

/-- The footer of a file that is not empty. -/
def footerItems (md5 : Md5) (fsid : UInt16) (contents : List UInt8) : List QueueData :=
  if contents = [] then [] else [.header ⟨.filf, fsid, regfileFooter md5 contents⟩]

/-- The footer of a file holds its digest. -/
theorem regfileFooter_md5 (md5 : Md5) (contents : List UInt8) :
    dicoGetData (regfileFooter md5 contents) Section.stdattr footerMd5sum 16 =
      some (md5.digest contents) := by
  have length := md5.length_digest contents
  have items : (regfileFooter md5 contents).items =
      [dicoAddData Section.stdattr footerMd5sum (md5.digest contents)].map DicoCall.item := by
    rw [regfileFooter, items_dicoAddAll (by simp [Dico.alloc])]
    rfl
  exact dicoGetData_of_call (dicoAddData Section.stdattr footerMd5sum (md5.digest contents)) items
    List.mem_cons_self (by show (md5.digest contents).length < 65536; omega)
    (by decide) (Nat.le_of_eq length)

/-- A digest fills the buffer it is read into. -/
theorem localBuffer_digest (mem : Mem) (md5 : Md5) (contents : List UInt8) :
    localBuffer mem 16 (md5.digest contents) = md5.digest contents := by
  simp [localBuffer, md5.length_digest]

/-- The footer of an intact file. -/
theorem restoreFooter_fine (excluded : Bool) (fsid : UInt16) (contents : List UInt8)
    (rest : List QueueData) :
    restoreFooter ctx excluded (ctx.md5.digest contents)
      (.header ⟨.filf, fsid, regfileFooter ctx.md5 contents⟩ :: rest) = (.fine, rest) := by
  cases excluded <;>
    simp [restoreFooter, dequeueHeader, regfileFooter_md5, localBuffer_digest]

/-- The attributes of a file. -/
theorem finishRegfile_calm (calm : ctx.os.Calm) {d : Dico} (objtype : UInt32)
    (tv : UInt64 × UInt64) (readable : Readable ctx d) (log : Log) :
    ∃ made, Traced.Gives (finishRegfile ctx path d objtype tv) log true made ∧
      Attributed ctx made path d objtype := by
  obtain ⟨attrs, restore, attributed⟩ : ∃ attrs, Traced.Gives
      (extractarRestoreAttrEverything ctx objtype path d) log true attrs ∧
      Attributed ctx attrs path d objtype :=
    extractarRestoreAttrEverything_calm calm readable log
  have left : Traced.Gives (leaveParent ctx path tv) (log ++ attrs) true
      [(.utimes (extractDirpath path) tv.1 tv.2, 0)] := by
    simp [Traced.Gives, leaveParent, calm.call_eq, SysCall.sure, SysCall.success]
  exact ⟨_, restore.bind (left.bind (Traced.Gives.pure true _)),
    attributed.mono (List.subset_append_left attrs _)⟩

/-- A file is closed. -/
theorem datafileClose_calm {os : Os} (calm : os.Calm) (md5 : Md5) {f : Datafile}
    (isOpen : f.isOpen = true) (log : Log) :
    Traced.Gives (datafileClose os md5 f) log
      ⟨true, some (md5.digest f.hashed), { f with isOpen := false, path := [] }⟩
      (if f.simul then [] else
        (if f.sparse then [(.ftruncate f.path, 0)] else []) ++ [(.close f.path, 0)]) := by
  unfold datafileClose Traced.Gives
  rw [isOpen]
  cases simul : f.simul <;> cases sparse : f.sparse <;>
    simp [calm.call_eq, SysCall.sure, SysCall.success]

/-- Queue items of a file behind its header. -/
def fileItems (md5 : Md5) (fsid : UInt16) (contents : List UInt8) (blocks : List BlockInfo) :
    List QueueData :=
  blocks.map .block ++ footerItems md5 fsid contents

/-- The end of an intact file. -/
theorem footer_fine (excluded : Bool) (fsid : UInt16) {contents : List UInt8} {filesize : UInt64}
    (size : contents.length = filesize.toNat) (rest : List QueueData) :
    (if Contents.whole = .unwritten ∨ filesize = 0 then
      (Footer.fine, footerItems ctx.md5 fsid contents ++ rest)
      else restoreFooter ctx excluded (ctx.md5.digest contents)
        (footerItems ctx.md5 fsid contents ++ rest)) = (.fine, rest) := by
  by_cases empty : contents = []
  · subst empty
    have zero : filesize = 0 := UInt64.toNat_inj.mp size.symm
    simp [footerItems, zero]
  · have positive := List.length_pos_iff.mpr empty
    have nonzero : filesize ≠ 0 := by
      rintro rfl
      rw [size] at positive
      exact absurd positive (by decide)
    simp only [footerItems, empty, nonzero, reduceCtorEq, or_self, ↓reduceIte]
    exact restoreFooter_fine excluded fsid contents rest

/-- The contents of an intact file are written, or only looked at. -/
theorem writeRegfile_calm (calm : ctx.os.Calm) {fsid : UInt16} {contents : List UInt8}
    {blocks : List BlockInfo} (chunked : Chunked fsid 0 contents blocks) {filesize : UInt64}
    (size : contents.length = filesize.toNat) (excluded sparse : Bool) (more : List QueueData)
    (log : Log) :
    ∃ f, f.isOpen = false ∧
      Traced.Gives (writeRegfile ctx (blocks.map .block ++ more) path excluded sparse filesize) log
        ⟨.whole, more, true, some (ctx.md5.digest contents), f⟩
        (if excluded then [] else fileCalls sparse path blocks) := by
  let f : Datafile :=
    { simul := excluded, isOpen := true, sparse, path, hashed := [] }
  have opened : Traced.Gives (datafileOpenWrite ctx.os datafileAlloc path excluded sparse) log
      (true, f) (if excluded then [] else [(.create path, 0)]) := by
    cases excluded <;>
      simp [Traced.Gives, datafileOpenWrite, datafileAlloc, calm.call_eq, SysCall.sure,
        SysCall.success, f]
  have loop := restoreBlocks_all calm chunked (by rw [Nat.zero_add, size]) more
    (show f.isOpen = true from rfl) (log ++ if excluded then [] else [(.create path, 0)])
  have closed := datafileClose_calm calm ctx.md5
    (show Datafile.isOpen { f with hashed := f.hashed ++ contents } = true from rfl)
    (log ++ (if excluded then [] else [(.create path, 0)]) ++
      if f.simul then [] else blocks.map (blockEntry f.sparse f.path))
  refine ⟨{ f with hashed := contents, isOpen := false, path := [] }, rfl, ?_⟩
  have zero : (0 : UInt64) = UInt64.ofNat 0 := rfl
  unfold Traced.Gives at opened loop closed ⊢
  simp only [writeRegfile, Traced.run_bind, opened, ↓reduceIte, zero, loop, closed, Traced.run_pure]
  cases excluded <;> simp [f, fileCalls]

/-- A closed file is destroyed without a call. -/
theorem datafileDestroy_closed {os : Os} {md5 : Md5} {f : Datafile} (closed : f.isOpen = false) :
    datafileDestroy os md5 f = pure () := by
  unfold datafileDestroy
  rw [closed]
  rfl

/-- An intact file is restored. -/
theorem restoreRegfileUnique_calm (calm : ctx.os.Calm) {fsid : UInt16} {contents : List UInt8}
    {blocks : List BlockInfo} (chunked : Chunked fsid 0 contents blocks) {filesize : UInt64}
    (size : contents.length = filesize.toNat) {d : Dico} (readable : Readable ctx d)
    (objtype : UInt32) (rest : List QueueData) (log : Log) :
    ∃ made, Traced.Gives (restoreRegfileUnique ctx
        (fileItems ctx.md5 fsid contents blocks ++ rest) path d objtype false filesize) log
        ⟨false, false, false, rest⟩ made ∧
      history made path = fileCalls (isSparse ctx.mem d) path blocks ∧
      Attributed ctx made path d objtype := by
  have quietEnter : Sys.Quiet path (enterParent ctx path) := enterParent_quiet path
  obtain ⟨tv, entered, enter, quiet, -⟩ := quietEnter.gives log
  have writing := @writeRegfile_calm ctx path calm fsid contents blocks chunked filesize size false
    (isSparse ctx.mem d) (footerItems ctx.md5 fsid contents ++ rest) (log ++ entered)
  obtain ⟨f, shut, written⟩ := writing
  rw [if_neg (by decide)] at written
  obtain ⟨attrs, finish, attributed⟩ : ∃ attrs, Traced.Gives (finishRegfile ctx path d objtype tv)
      (log ++ entered ++ fileCalls (isSparse ctx.mem d) path blocks) true attrs ∧
      Attributed ctx attrs path d objtype :=
    finishRegfile_calm calm objtype tv readable _
  have quietAttrs : ∀ entry ∈ attrs, Quiet path entry :=
    ((finishRegfile_quiet d objtype tv).of_gives finish).1
  have foot := @footer_fine ctx false fsid contents filesize size rest
  refine ⟨entered ++ fileCalls (isSparse ctx.mem d) path blocks ++ attrs, ?_, ?_, ?_⟩
  · unfold Traced.Gives at enter written finish ⊢
    rw [fileItems, List.append_assoc]
    simp only [restoreRegfileUnique, Traced.run_bind, Bool.false_eq_true, ↓reduceIte, enter,
      written, Bool.not_false, Bool.and_self, finish, Option.getD_some, foot]
    simp [datafileDestroy_closed shut]
  · rw [history_append, history_append, history_quiet quiet, history_quiet quietAttrs,
      history_fileCalls, List.nil_append, List.append_nil]
  · exact attributed.mono (List.subset_append_right _ attrs)

/-- What is left behind, in terms of what the restoration of the file gives. -/
theorem extractarRestoreObjRegfileUnique_eq (exar : Extractar) {fullpath relpath : Path} {d : Dico}
    {objtype : UInt32} {filesize : UInt64}
    (size : dicoGetU64 ctx.mem d Section.stdattr ItemKey.size = some filesize) {file : UniqueFile}
    {log : Log} (ran : (restoreRegfileUnique ctx exar.queue fullpath d objtype
      (isFiledirExcluded ctx.exclude relpath) filesize).run exar.log = (file, log)) :
    extractarRestoreObjRegfileUnique ctx exar fullpath relpath d objtype = (!file.fatalerr,
      { exar with
        queue := file.queue, log
        stats := if file.excluded then exar.stats
          else if file.minorerr then exar.stats.fail .regfileunique
          else exar.stats.count .regfileunique }) := by
  unfold extractarRestoreObjRegfileUnique
  simp only [size, ran]

end FsArchiver
