import FsArchiver.Lib.Erasure
import FsArchiver.RestoreArchive
import FsArchiver.RestoreChecked

/-!
# What a restoration reads of a block

A block comes back from its archive with the fields of its record: the size it was stored with, its
checksum, its algorithms. The restoration looks at none of them. It reads the data of a block, the
size of this data and its offset in the file, and does the same with a block that has nothing else.
-/
namespace FsArchiver

open Lib

/-! ## Erasing the fields of a record -/

/-- The fields of a block that are read when it is restored. -/
def BlockInfo.plain (blkinfo : BlockInfo) : BlockInfo :=
  { BlockInfo.zero with
    blkdata := blkinfo.blkdata, blkrealsize := blkinfo.blkrealsize, blkoffset := blkinfo.blkoffset }

/-- An item without the other fields of its block. -/
def QueueData.plain : QueueData → QueueData
  | .header headinfo => .header headinfo
  | .block blkinfo => .block blkinfo.plain

/-- Such items. -/
def plainItems (queue : List QueueData) : List QueueData := queue.map QueueData.plain

@[simp] theorem plainItems_nil : plainItems [] = [] := rfl

@[simp] theorem plainItems_cons (item : QueueData) (queue : List QueueData) :
    plainItems (item :: queue) = item.plain :: plainItems queue := rfl

@[simp] theorem plain_header (headinfo : HeadInfo) :
    (QueueData.header headinfo).plain = .header headinfo := rfl

@[simp] theorem plain_block (blkinfo : BlockInfo) :
    (QueueData.block blkinfo).plain = .block blkinfo.plain := rfl

@[simp] theorem plain_blkdata (blkinfo : BlockInfo) : blkinfo.plain.blkdata = blkinfo.blkdata := rfl

@[simp] theorem plain_blkrealsize (blkinfo : BlockInfo) :
    blkinfo.plain.blkrealsize = blkinfo.blkrealsize := rfl

@[simp] theorem plain_blkoffset (blkinfo : BlockInfo) :
    blkinfo.plain.blkoffset = blkinfo.blkoffset := rfl

/-- What is left of a value behind a call that takes an item. -/
def erasedRest {ε α : Type} : Except ε (α × List QueueData) → Except ε (α × List QueueData)
  | .error err => .error err
  | .ok (value, queue) => .ok (value, plainItems queue)

theorem dequeueHeader_plain (queue : List QueueData) :
    dequeueHeader (plainItems queue) = erasedRest (dequeueHeader queue) := by
  cases queue with
  | nil => rfl
  | cons item rest => cases item <;> rfl

/-- The state of a restoration without the other fields of the blocks. -/
def Extractar.plain (exar : Extractar) : Extractar :=
  { exar with queue := plainItems exar.queue, skipped := plainItems exar.skipped }

/-! ## Objects -/

section Objects

variable (ctx : Context)

theorem restoreHeaders_plain (count : Nat) (regmulti : Regmulti) (queue : List QueueData) :
    restoreHeaders count regmulti (plainItems queue) =
      ((restoreHeaders count regmulti queue).1, (restoreHeaders count regmulti queue).2.1,
        plainItems (restoreHeaders count regmulti queue).2.2) := by
  induction count generalizing regmulti queue with
  | zero => rfl
  | succ count ih =>
    simp only [restoreHeaders, dequeueHeader_plain]
    cases dequeueHeader queue with
    | error err => rfl
    | ok taken =>
      simp only [erasedRest]
      split
      · rfl
      · cases regmultiRestAddheader regmulti taken.1.dico with
        | none => rfl
        | some regmulti => exact ih regmulti taken.2

/-- The result of a file's blocks, without what is not read. -/
def plainLoop (loop : Contents × List QueueData × Datafile) :
    Contents × List QueueData × Datafile :=
  (loop.1, plainItems loop.2.1, loop.2.2)

theorem restoreBlocks_plain (filesize : UInt64) (queue : List QueueData) (filepos : UInt64)
    (datafile : Datafile) :
    Traced.Erases plainLoop (restoreBlocks ctx filesize queue filepos datafile)
      (restoreBlocks ctx filesize (plainItems queue) filepos datafile) := by
  induction queue generalizing filepos datafile with
  | nil =>
    simp only [plainItems_nil, restoreBlocks]
    exact .ite (fun _ => .pure plainLoop _) fun _ => .pure plainLoop _
  | cons item queue ih =>
    cases item with
    | header headinfo =>
      simp only [plainItems_cons, plain_header, restoreBlocks]
      exact .ite (fun _ => .pure plainLoop _) fun _ => .pure plainLoop _
    | block blkinfo =>
      simp only [plainItems_cons, plain_block, restoreBlocks]
      refine .ite (fun _ => .pure plainLoop _) fun _ => ?_
      refine .ite (fun _ => .pure plainLoop _) fun _ => .andThen fun file => ?_
      exact .ite (fun _ => .pure plainLoop _) fun _ => ih _ _

/-- A written file without what is not read. -/
def Written.plain (file : Written) : Written := { file with queue := plainItems file.queue }

theorem writeRegfile_plain (queue : List QueueData) (fullpath : Path) (excluded sparse : Bool)
    (filesize : UInt64) :
    Traced.Erases Written.plain (writeRegfile ctx queue fullpath excluded sparse filesize)
      (writeRegfile ctx (plainItems queue) fullpath excluded sparse filesize) := by
  refine .andThen fun opened => ?_
  have loop : Traced.Erases plainLoop
      (if opened.1 then restoreBlocks ctx filesize queue 0 opened.2
        else pure (.unopened, queue, opened.2))
      (if opened.1 then restoreBlocks ctx filesize (plainItems queue) 0 opened.2
        else pure (.unopened, plainItems queue, opened.2)) :=
    .ite (fun _ => restoreBlocks_plain ctx filesize queue 0 opened.2) fun _ => .pure plainLoop _
  exact loop.bind fun loop => .andThen fun closed => .pure Written.plain _

theorem restoreFooter_plain (excluded : Bool) (md5sumcalc : List UInt8) (queue : List QueueData) :
    restoreFooter ctx excluded md5sumcalc (plainItems queue) =
      ((restoreFooter ctx excluded md5sumcalc queue).1,
        plainItems (restoreFooter ctx excluded md5sumcalc queue).2) := by
  unfold restoreFooter
  rw [dequeueHeader_plain]
  cases dequeueHeader queue with
  | error err => rfl
  | ok taken =>
    simp only [erasedRest]
    repeat' split
    all_goals rfl

/-- What is left behind a file without what is not read. -/
def UniqueFile.plain (file : UniqueFile) : UniqueFile := { file with queue := plainItems file.queue }

theorem restoreRegfileUnique_plain (queue : List QueueData) (fullpath : Path) (d : Dico)
    (objtype : UInt32) (excluded : Bool) (filesize : UInt64) :
    Traced.Erases UniqueFile.plain
      (restoreRegfileUnique ctx queue fullpath d objtype excluded filesize)
      (restoreRegfileUnique ctx (plainItems queue) fullpath d objtype excluded filesize) := by
  refine .andThen fun tv => ?_
  refine (writeRegfile_plain ctx queue fullpath excluded (isSparse ctx.mem d) filesize).bind
    fun file => .andThen fun finished => ?_
  have footer : (if file.plain.contents = .unwritten ∨ filesize = 0 then
        (Footer.fine, file.plain.queue)
      else restoreFooter ctx excluded (file.plain.closed.md5.getD (localBuffer ctx.mem 16 []))
        file.plain.queue) =
      Prod.map id plainItems (if file.contents = .unwritten ∨ filesize = 0 then
        (Footer.fine, file.queue)
      else restoreFooter ctx excluded (file.closed.md5.getD (localBuffer ctx.mem 16 []))
        file.queue) := by
    by_cases none : file.contents = .unwritten ∨ filesize = 0
    · rw [if_pos none]
      exact if_pos none
    · rw [if_neg none]
      exact (if_neg none).trans (restoreFooter_plain ctx excluded _ file.queue)
  dsimp only
  rw [footer]
  apply Traced.Erases.ite
  · intro _
    exact .andThen fun _ => .andThen fun _ => .pure UniqueFile.plain _
  · intro _
    exact .andThen fun _ => .pure UniqueFile.plain _

variable (exar : Extractar)

/-- A result of a function that restores, without what is not read. -/
def plainResult {α : Type} (ran : α × Extractar) : α × Extractar := (ran.1, ran.2.plain)

theorem extractarRestoreObjRegfileUnique_plain (fullpath relpath : Path) (d : Dico)
    (objtype : UInt32) :
    extractarRestoreObjRegfileUnique ctx exar.plain fullpath relpath d objtype =
      plainResult (extractarRestoreObjRegfileUnique ctx exar fullpath relpath d objtype) := by
  unfold extractarRestoreObjRegfileUnique
  cases dicoGetU64 ctx.mem d Section.stdattr ItemKey.size with
  | none => rfl
  | some filesize =>
    have erases := restoreRegfileUnique_plain ctx exar.queue fullpath d objtype
      (isFiledirExcluded ctx.exclude relpath) filesize exar.log
    simp only [Extractar.plain, erases]
    rfl

theorem extractarRestoreObjRegfileMulti_plain (dicofirstfile : Dico) (objtype : UInt32) :
    extractarRestoreObjRegfileMulti ctx exar.plain dicofirstfile objtype =
      plainResult (extractarRestoreObjRegfileMulti ctx exar dicofirstfile objtype) := by
  unfold extractarRestoreObjRegfileMulti
  dsimp only
  cases dicoGetU32 ctx.mem dicofirstfile Section.stdattr ItemKey.multifilescount with
  | none => rfl
  | some filescount =>
    cases regmultiRestAddheader (regmultiInit maxBlkSize) dicofirstfile with
    | none => rfl
    | some regmulti =>
      simp only [Extractar.plain, restoreHeaders_plain]
      cases restoreHeaders (filescount.toNat - 1) regmulti exar.queue with
      | mk goesOn left =>
        cases goesOn with
        | false => rfl
        | true =>
          simp only
          cases left.2 with
          | nil => rfl
          | cons item rest =>
            cases item with
            | header headinfo => rfl
            | block blkinfo =>
              simp only [plainItems_cons, plain_block, dequeueBlock, plain_blkdata,
                plain_blkrealsize]
              cases regmultiRestSetdatablock left.1
                (heapBytes ctx.mem blkinfo.blkdata 0 blkinfo.blkrealsize.toNat) with
              | none => rfl
              | some regmulti => rfl

theorem restoreHeaderOnly_plain (type : ObjType) (entry : Sys Bool) :
    restoreHeaderOnly exar.plain type entry = plainResult (restoreHeaderOnly exar type entry) := rfl

theorem extractarRestoreObject_plain (dicoattr : Dico) :
    extractarRestoreObject ctx exar.plain dicoattr =
      plainResult (extractarRestoreObject ctx exar dicoattr) := by
  unfold extractarRestoreObject
  split
  next relpath objtype _ _ _ _ =>
    simp only [restoreHeaderOnly_plain, extractarRestoreObjRegfileUnique_plain,
      extractarRestoreObjRegfileMulti_plain]
    split <;> rfl
  · rfl

theorem extractStep_plain :
    extractStep ctx exar.plain = plainResult (extractStep ctx exar) := by
  obtain ⟨queue, log, stats, errors, skipped⟩ := exar
  have garbage (item : QueueData) (rest : List QueueData) :
      ((none, { queue := plainItems rest, log, stats, errors
                skipped := plainItems skipped ++ [item.plain] }) : Option Int × Extractar) =
        plainResult (none, { queue := rest, log, stats, errors, skipped := skipped ++ [item] }) := by
    simp [plainResult, Extractar.plain, plainItems]
  cases queue with
  | nil => rfl
  | cons item rest =>
    cases item with
    | block blkinfo => exact garbage (.block blkinfo) rest
    | header headinfo =>
      obtain ⟨magic, checkfsid, dicoattr⟩ := headinfo
      cases magic with
      | datf => rfl
      | objt =>
        have object := extractarRestoreObject_plain ctx ⟨rest, log, stats, errors, skipped⟩ dicoattr
        simp only [Extractar.plain, plainItems_cons, plain_header, extractStep] at object ⊢
        rw [object]
        split
        · cases extractarRestoreObject ctx ⟨rest, log, stats, errors, skipped⟩ dicoattr with
          | mk ok exar => cases ok <;> rfl
        · rfl
      | _ => exact garbage (.header ⟨_, checkfsid, dicoattr⟩) rest

theorem extractLoop_plain (fuel : Nat) :
    extractLoop ctx fuel exar.plain = plainResult (extractLoop ctx fuel exar) := by
  induction fuel generalizing exar with
  | zero => rfl
  | succ fuel ih =>
    simp only [extractLoop, extractStep_plain]
    cases extractStep ctx exar with
    | mk ret exar =>
      cases ret with
      | none => exact ih exar
      | some ret => rfl

theorem extractarExtractReadObjects_plain :
    extractarExtractReadObjects ctx exar.plain =
      plainResult (extractarExtractReadObjects ctx exar) := by
  unfold extractarExtractReadObjects
  rw [show exar.plain.queue.length = exar.queue.length from List.length_map _]
  exact extractLoop_plain ctx { exar with errors := 0 } _

/-! ## Filesystems -/

theorem fillFilesystem_plain :
    fillFilesystem ctx exar.plain = plainResult (fillFilesystem ctx exar) := by
  unfold fillFilesystem
  rw [extractarExtractReadObjects_plain]
  cases extractarExtractReadObjects ctx exar with
  | mk ret exar =>
    cases ret with
    | none => rfl
    | some ret =>
      cases ret with
      | negSucc n => rfl
      | ofNat n =>
        cases n with
        | succ n => rfl
        | zero =>
          simp only [Int.ofNat_eq_natCast, Int.natCast_zero, plainResult, Extractar.plain,
            dequeueHeader_plain]
          by_cases errors : exar.errors > 0
          · simp only [errors, ↓reduceIte]
          · simp only [errors, ↓reduceIte]
            cases dequeueHeader exar.queue <;> rfl

end Objects

/-- The state with partitions, without what is not read. -/
def Restoring.plain (st : Restoring) : Restoring := { st with exar := st.exar.plain }

section Filesystems

variable (setup : RestoreSetup)

/-- A result of a function that restores filesystems, without what is not read. -/
def plainFilesystems {α : Type} (ran : α × Restoring) : α × Restoring := (ran.1, ran.2.plain)

theorem filesystemAccepts_plain (mem : Mem) (target : FsTarget) (dicofs : Dico)
    (queue : List QueueData) :
    filesystemAccepts mem target dicofs (plainItems queue) =
      (filesystemAccepts mem target dicofs queue).map fun (partition, fstype, rest) =>
        (partition, fstype, plainItems rest) := by
  unfold filesystemAccepts
  rw [dequeueHeader_plain]
  cases target.dest with
  | none => rfl
  | some partition =>
    simp only [Option.bind_eq_bind, Option.bind_some]
    split
    · rfl
    · split
      · rfl
      · cases dequeueHeader queue with
        | error err => rfl
        | ok taken =>
          simp only [erasedRest]
          split
          · rfl
          · simp only [Option.map_bind, Function.comp_def, Option.map_some]

theorem extractarFilesystemExtract_plain (i : Nat) (target : FsTarget) (dicofs : Dico)
    (st : Restoring) :
    extractarFilesystemExtract setup i target dicofs st.plain =
      plainFilesystems (extractarFilesystemExtract setup i target dicofs st) := by
  unfold extractarFilesystemExtract
  have accepts := filesystemAccepts_plain setup.ctx.mem target dicofs st.exar.queue
  change filesystemAccepts setup.ctx.mem target dicofs st.plain.exar.queue = _ at accepts
  rw [accepts]
  cases filesystemAccepts setup.ctx.mem target dicofs st.exar.queue with
  | none => rfl
  | some accepted =>
    obtain ⟨partition, fstype, queue⟩ := accepted
    have fills := fillFilesystem_plain (setup.fsContext i target fstype)
      { st.exar with queue, log := [] }
    simp only [Option.map_some]
    split
    · rfl
    · split
      · rfl
      · change fillFilesystem (setup.fsContext i target fstype)
          { st.plain.exar with queue := plainItems queue, log := [] } = _ at fills
        simp only [Restoring.call] at fills ⊢
        rw [fills]
        rfl

theorem extractFilesystems_plain (i : Nat) (dicos : List Dico) (totalerr : Nat) (st : Restoring) :
    extractFilesystems setup i dicos totalerr st.plain =
      ((extractFilesystems setup i dicos totalerr st).1,
        plainFilesystems (extractFilesystems setup i dicos totalerr st).2) := by
  induction dicos generalizing i totalerr st with
  | nil => rfl
  | cons dicofs rest ih =>
    simp only [extractFilesystems]
    cases setup.dicoargv i with
    | none => exact ih _ _ _
    | some target =>
      have extracts := extractarFilesystemExtract_plain setup i target dicofs
        { st with exar := { st.exar with stats := {} } }
      change extractarFilesystemExtract setup i target dicofs
        { st.plain with exar := { st.plain.exar with stats := {} } } = _ at extracts
      simp only [extracts]
      cases extractarFilesystemExtract setup i target dicofs
        { st with exar := { st.exar with stats := {} } } with
      | mk ok st =>
        cases ok with
        | false => rfl
        | true => exact ih _ _ _

theorem extractDirectories_plain (st : Restoring) :
    extractDirectories setup st.plain =
      ((extractDirectories setup st).1, plainFilesystems (extractDirectories setup st).2) := by
  unfold extractDirectories
  split
  · rfl
  · have reads := extractarExtractReadObjects_plain { setup.ctx with fsid := 0, ntfs := false }
      { st.exar with stats := {} }
    change extractarExtractReadObjects { setup.ctx with fsid := 0, ntfs := false }
      { st.plain.exar with stats := {} } = _ at reads
    rw [reads]
    cases extractarExtractReadObjects { setup.ctx with fsid := 0, ntfs := false }
        { st.exar with stats := {} } with
    | mk ret exar =>
      cases ret with
      | none => rfl
      | some ret =>
        cases ret with
        | negSucc n => rfl
        | ofNat n => cases n <;> rfl

/-! ## Headers -/

theorem readFsinfos_plain (mem : Mem) (oper : Operation) (requested : Nat → Option FsTarget)
    (count i : Nat) (cost : UInt64) (queue : List QueueData) :
    readFsinfos mem oper requested count i cost (plainItems queue) =
      (readFsinfos mem oper requested count i cost queue).map fun (infos, cost, rest) =>
        (infos, cost, plainItems rest) := by
  induction count generalizing i cost queue with
  | zero => rfl
  | succ count ih =>
    simp only [readFsinfos, dequeueHeader_plain]
    cases dequeueHeader queue with
    | error err => rfl
    | ok taken =>
      simp only [erasedRest]
      split
      · rfl
      · split
        · rfl
        · rw [ih, Option.map_map, Option.map_map]
          rfl

theorem readDirsinfo_plain (mem : Mem) (ai : ArchInfo) (cost : UInt64) (queue : List QueueData) :
    readDirsinfo mem ai cost (plainItems queue) =
      (readDirsinfo mem ai cost queue).map fun (cost, rest) => (cost, plainItems rest) := by
  unfold readDirsinfo
  rw [dequeueHeader_plain]
  split
  · cases dequeueHeader queue with
    | error err => rfl
    | ok taken =>
      simp only [erasedRest]
      split
      · rfl
      · rw [Option.map_map]
        rfl
  · rfl

theorem extractarReadMainhead_plain (gcrypt : Gcrypt) (md5 : Md5) (mem : Mem)
    (password : List UInt8) (ai : ArchInfo) (queue : List QueueData) :
    extractarReadMainhead gcrypt md5 mem password ai (plainItems queue) =
      (extractarReadMainhead gcrypt md5 mem password ai queue).map fun (ai, d, rest) =>
        (ai, d, plainItems rest) := by
  unfold extractarReadMainhead
  rw [dequeueHeader_plain]
  cases dequeueHeader queue with
  | error err => rfl
  | ok taken =>
    simp only [erasedRest]
    split
    · rfl
    · cases readMainItems mem ai taken.1.dico with
      | error err => rfl
      | ok found =>
        simp only [bind, Except.bind]
        split
        · rfl
        · split
          · cases checkPassword gcrypt md5 mem password taken.1.dico with
            | error err => rfl
            | ok _ => rfl
          · rfl

/-- What is known from the headers, without what is not read. -/
def Headers.plain (headers : Headers) : Headers := { headers with queue := plainItems headers.queue }

theorem readHeaders_plain (oper : Operation) (ai : ArchInfo) (queue : List QueueData) :
    readHeaders setup oper ai (plainItems queue) =
      (readHeaders setup oper ai queue).map Headers.plain := by
  unfold readHeaders
  rw [extractarReadMainhead_plain]
  split
  · rfl
  · split
    · rfl
    · cases extractarReadMainhead setup.gcrypt setup.ctx.md5 setup.ctx.mem setup.options.encryptpass
        ai queue with
      | error err => rfl
      | ok read =>
        obtain ⟨ai, d, rest⟩ := read
        simp only [Except.map]
        split
        · rfl
        · split
          · rfl
          · split
            · rfl
            · rw [readFsinfos_plain]
              cases readFsinfos setup.ctx.mem oper (setup.requested oper) ai.fsinfos 0 0 rest with
              | none => rfl
              | some infos =>
                simp only [Option.map_some, Option.bind_eq_bind, Option.bind_some,
                  readDirsinfo_plain]
                cases readDirsinfo setup.ctx.mem ai infos.2.1 infos.2.2 with
                | none => rfl
                | some dirs =>
                  simp only [Option.map_some, Option.bind_some]
                  split
                  · rfl
                  · rfl

/-- A restoration does not look at the other fields of the blocks. -/
theorem operRestore_plain (oper : Operation) (ai : ArchInfo) (queue : List QueueData) :
    operRestore setup oper ai (plainItems queue) =
      plainFilesystems (operRestore setup oper ai queue) := by
  unfold operRestore
  rw [readHeaders_plain]
  cases readHeaders setup oper ai queue with
  | none => rfl
  | some headers =>
    have filesystems := extractFilesystems_plain setup 0 headers.dicofsinfo 0
      ⟨⟨headers.queue, [], {}, 0, []⟩, [], []⟩
    have directories := extractDirectories_plain setup ⟨⟨headers.queue, [], {}, 0, []⟩, [], []⟩
    cases oper with
    | archinfo => rfl
    | restfs | restdir =>
      change extractFilesystems setup 0 headers.dicofsinfo 0
        ⟨⟨plainItems headers.queue, [], {}, 0, []⟩, [], []⟩ = _ at filesystems
      change extractDirectories setup ⟨⟨plainItems headers.queue, [], {}, 0, []⟩, [], []⟩ = _
        at directories
      simp only [Option.map_some, Headers.plain, reduceCtorEq, ↓reduceIte, filesystems, directories]
      split
      · rfl
      · rfl

/-- Two queues whose blocks differ only in how they were stored, in their sizes there, their
checksums, their algorithms or their filesystems, are restored alike: the same partitions are made,
the same system calls are done in the same order with the same data, and the same is counted. -/
theorem restored_alike (oper : Operation) (ai : ArchInfo) (queue queue' : List QueueData)
    (same : plainItems queue = plainItems queue') :
    let ran := operRestore setup oper ai queue
    let ran' := operRestore setup oper ai queue'
    ran'.1 = ran.1 ∧ ran'.2.calls = ran.2.calls ∧ ran'.2.filled = ran.2.filled ∧
      ran'.2.exar.log = ran.2.exar.log ∧ ran'.2.exar.stats = ran.2.exar.stats := by
  intro ran ran'
  have erased : plainFilesystems ran' = plainFilesystems ran := by
    rw [← operRestore_plain, ← operRestore_plain, same]
  obtain ⟨returned, restoring⟩ := Prod.mk.inj erased
  have exars : ran'.2.exar.plain = ran.2.exar.plain := congrArg Restoring.exar restoring
  have calls : ran'.2.plain.calls = ran.2.plain.calls := congrArg Restoring.calls restoring
  have filled : ran'.2.plain.filled = ran.2.plain.filled := congrArg Restoring.filled restoring
  have logs : ran'.2.exar.plain.log = ran.2.exar.plain.log := congrArg Extractar.log exars
  have counts : ran'.2.exar.plain.stats = ran.2.exar.plain.stats := congrArg Extractar.stats exars
  exact ⟨returned, calls, filled, logs, counts⟩

end Filesystems

/-- A restoration into a directory, in which no call fails. -/
def plainRestdir : RestoreSetup :=
  { options := gzipOptions, gcrypt := noGcrypt, ctx := plainContext, argvWorks := true
    dicoargv := fun _ => none, threads := true
    isDir := true }

/-- The root directory with a file `a` of two links, which has a block of its own, and a small file
`b`. -/
def twoFilesArgs : SaveArgs :=
  let tree : TreeCalls := ⟨plainDirCalls,
    .entry [0x61] (some (plainFileStat 2 2)) { plainCalls with openFile := twoBytes } plainDirCalls .eof
      (.entry [0x62] (some { plainFileStat 1 2 with ino := 13 })
        { plainCalls with openFile := twoBytes } plainDirCalls .eof .eof)⟩
  .directories [⟨[slash], true, tree, tree⟩]

/-- What is on the queue once they are saved. -/
def twoFilesQueue : List QueueData :=
  let main := createarWriteMainhead noGcrypt plainMd5 plainMem clearOptions 1 .directories 1 0
    zeroCheckBuffer
  (operSave plainMem plainMd5 plainOptions ⟨true, main.dico⟩ twoFilesArgs).2.pushed

/-- An item whose block was compressed, in an archive. -/
def compressedItem : QueueData → QueueData
  | .header headinfo => .header headinfo
  | .block blkinfo =>
    .block { blkinfo with blkarcsum := 5, blkarsize := 9, blkcompsize := 9, blkcompalgo := 3 }

/-- The two files are restored from blocks that were compressed as from others. -/
theorem restored_alike_compressed :
    let ran := operRestore plainRestdir .restdir .init twoFilesQueue
    let ran' := operRestore plainRestdir .restdir .init (twoFilesQueue.map compressedItem)
    twoFilesQueue.map compressedItem ≠ twoFilesQueue ∧ ran.1 = true ∧ ran.2.exar.log.length = 18 ∧
      ran'.1 = ran.1 ∧ ran'.2.calls = ran.2.calls ∧ ran'.2.filled = ran.2.filled ∧
      ran'.2.exar.log = ran.2.exar.log ∧ ran'.2.exar.stats = ran.2.exar.stats := by
  have same : plainItems twoFilesQueue = plainItems (twoFilesQueue.map compressedItem) := by
    rw [plainItems, plainItems, List.map_map]
    refine List.map_congr_left fun item _ => ?_
    cases item <;> rfl
  exact ⟨by decide +kernel, by decide +kernel, by decide +kernel,
    restored_alike plainRestdir .restdir .init _ _ same⟩

end FsArchiver
