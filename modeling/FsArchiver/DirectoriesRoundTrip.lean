import FsArchiver.RoundTrips

/-!
# From directories to a directory

The way of an archive from `savedir` to `restdir`. All threads work as they do for filesystems; what
is different is what `oper_save` has put on the queue and what `oper_restore` does with it. There is
no header of a filesystem, the reader keeps everything of the one number there is, and no partition
is touched.
-/
namespace FsArchiver

open Lib

/-! ## Restoring -/

/-- What is the same for all objects of the directories. -/
def RestoreSetup.dirContext (setup : RestoreSetup) : Context :=
  { setup.ctx with fsid := 0, ntfs := false }

section Restore

variable {setup : RestoreSetup} {gcrypt : Gcrypt} {md5 : Md5} {mem : Mem} {options : MainOptions}
  {archid : UInt32} {fscount : Nat} {now : UInt64} {random : CheckBuffer}

/-- The headers of an archive of directories are accepted. -/
theorem readHeaders_directories (fits : options.archlabel.length < maxLabelLen)
    (threads : setup.threads = true)
    (opens : setup.Opens options
      (createarWriteMainhead gcrypt md5 mem options archid .directories fscount now random))
    (ai : ArchInfo) (costGlobal : UInt64) (rest : List QueueData) :
    readHeaders setup .restdir ai
      (.header (createarWriteMainhead gcrypt md5 mem options archid .directories fscount now random) ::
        .header ⟨.dirs, filesysidNull, dirsinfo costGlobal⟩ :: rest) =
      some ⟨mainInfo options archid .directories fscount now ai, [], costGlobal, rest⟩ := by
  have read := extractarReadMainhead_opened fits opens ai
    (.header ⟨.dirs, filesysidNull, dirsinfo costGlobal⟩ :: rest)
  have valid : fsidsValid (setup.requested .restdir)
      (mainInfo options archid .directories fscount now ai).fscount = true := by
    unfold fsidsValid
    refine List.all_eq_true.mpr fun i _ => ?_
    rfl
  have infos : (mainInfo options archid .directories fscount now ai).fsinfos = 0 := by
    unfold ArchInfo.fsinfos
    exact if_neg (by simp only [mainInfo]; decide)
  have stored : dicoGetU64 setup.ctx.mem (dirsinfo costGlobal) 0 dirsinfoTotalcost =
      some costGlobal := by
    have items : (dirsinfo costGlobal).items =
        [dicoAddU64 0 dirsinfoTotalcost costGlobal].map DicoCall.item := rfl
    exact dicoGetU64_of_call items (by simp)
  have dirs : readDirsinfo setup.ctx.mem (mainInfo options archid .directories fscount now ai) 0
      (.header ⟨.dirs, filesysidNull, dirsinfo costGlobal⟩ :: rest) = some (costGlobal, rest) := by
    unfold readDirsinfo
    rw [if_pos (by simp only [mainInfo, and_self])]
    simp only [dequeueHeader, ne_eq, not_true_eq_false, ↓reduceIte, stored, Option.map_some]
  unfold readHeaders
  rw [if_neg (by simp), if_neg (by simp [threads]), read]
  dsimp only
  rw [if_neg fun older => recent_mainInfo older.2, if_neg (by simp only [mainInfo]; decide),
    if_neg (by rw [valid]; decide), infos]
  simp only [readFsinfos, Option.bind_eq_bind, Option.bind_some, dirs]
  rw [if_neg fun refused => opens.password refused.2]

/-- `restdir` restores what is in the archive, if the directory is there. -/
theorem operRestore_directories (fits : options.archlabel.length < maxLabelLen)
    (threads : setup.threads = true) (isDir : setup.isDir = true)
    (opens : setup.Opens options
      (createarWriteMainhead gcrypt md5 mem options archid .directories fscount now random))
    (calm : setup.ctx.os.Calm) {costGlobal : UInt64} {parts : List Part}
    (restorable : Restorable setup.ctx.md5 0 parts) :
    ∃ exar, operRestore setup .restdir .init
        (.header (createarWriteMainhead gcrypt md5 mem options archid .directories fscount now
          random) :: directoriesItems setup.ctx.md5 ⟨dirsinfo costGlobal, parts⟩) =
        (decide (statsErrcount exar.stats = 0), ⟨exar, [], []⟩) ∧
      FilledWith setup.dirContext (partObjs parts) exar.log exar.stats := by
  have read := readHeaders_directories fits threads opens .init costGlobal
    (packetItems setup.ctx.md5 0 (parts.map Part.packet) ++
      [.header ⟨.datf, filesysidNull, Dico.alloc⟩])
  obtain ⟨exar, ran, -, -, filledWith⟩ := @extractReadObjects_parts setup.dirContext
    ⟨packetItems setup.ctx.md5 0 (parts.map Part.packet) ++
      [.header ⟨.datf, filesysidNull, Dico.alloc⟩], [], {}, 0, []⟩ parts [] calm restorable _ _ rfl
    rfl rfl
  refine ⟨exar, ?_, filledWith⟩
  have other : ¬(mainInfo options archid .directories fscount now .init).archtype =
      ArchType.filesystems.code := by
    simp only [mainInfo]
    decide
  change extractarExtractReadObjects { setup.ctx with fsid := 0, ntfs := false } _ = _ at ran
  unfold operRestore directoriesItems
  rw [read]
  simp only [reduceCtorEq, ↓reduceIte, other]
  unfold extractDirectories
  simp only [isDir, Bool.not_true, Bool.false_eq_true, ↓reduceIte, ran, Bool.true_and]

end Restore

/-! ## What is sent and selected -/

section Items

variable {md5 : Md5} {saved : SavedFs}

/-- An archive of directories can be sent. -/
theorem fresh_directoriesItems (sendable : Sendable md5 0 saved.parts) :
    ∀ item ∈ directoriesItems md5 saved, item.Fresh := by
  have header (magic : Magic) (d : Dico)
      (content : magic ∈ [Magic.fsin, .fsyb, .dirs, .objt, .filf, .datf]) :
      (QueueData.header ⟨magic, filesysidNull, d⟩).Fresh := ⟨content, .inr rfl⟩
  simp only [directoriesItems, List.forall_mem_cons, List.forall_mem_append]
  refine ⟨header .dirs _ (by simp), ?_, header .datf _ (by simp), List.forall_mem_nil _⟩
  intro item member
  exact (fresh_packetItems sendable (by decide) item member).1

/-- All of it is selected. -/
theorem filter_directoriesItems {src : Source} (needs : src.Needs fun number => number = 0)
    (sendable : Sendable md5 0 saved.parts) :
    (directoriesItems md5 saved).filter src.selects = directoriesItems md5 saved := by
  have header (magic : Magic) (d : Dico) :
      src.selects (.header ⟨magic, filesysidNull, d⟩) = true := by
    simp [Source.selects]
  refine List.filter_eq_self.mpr ?_
  simp only [directoriesItems, List.forall_mem_cons, List.forall_mem_append]
  refine ⟨header .dirs _, ?_, header .datf _, List.forall_mem_nil _⟩
  intro item member
  have number := (fresh_packetItems sendable (by decide) item member).2
  rw [needs.selects (by rw [number]; decide), number]
  rfl

end Items

/-! ## Runs -/

/-- The directory holds these objects, no partition was touched, and the status tells whether an error
was counted. -/
structure RestoresInto (setup : RestoreSetup) (objects : List VisitedObject)
    (ran : Bool × Restoring) : Prop where
  objects : FilledFs.HasObjects ⟨0, ran.2.exar.log, ran.2.exar.stats⟩ setup.dirContext objects
  untouched : ran.2.calls = []
  returns : ran.1 = decide (statsErrcount ran.2.exar.stats = 0)

section Runs

variable {save : WholeSave} {args : List DirArg} {lib : Decompressors} {restore : WholeRestore}

/-- What is on the queue behind the main header. -/
theorem WholeSave.directories_queued (sizes : save.opts.FromCmdline)
    (sound : save.args.Sound save.opts) (returns : save.saved.1 = true)
    (own : save.args = .directories args) :
    ∃ costGlobal parts,
      SavedFs.Complete save.md5 save.opts 0 (args.flatMap (DirArg.objects save.opts))
        ⟨dirsinfo costGlobal, parts⟩ ∧
      save.saved.2.pushed =
        .header save.mainhead :: directoriesItems save.md5 ⟨dirsinfo costGlobal, parts⟩ := by
  have magic : save.mainhead.magic = .main := rfl
  have global : save.mainhead.fsid = filesysidNull := rfl
  rw [own] at sound
  unfold WholeSave.saved at returns ⊢
  rw [own] at returns ⊢
  obtain ⟨costGlobal, parts, complete, pushed⟩ :=
    operSave_directories sizes _ sound.1 sound.2 returns
  exact ⟨costGlobal, parts, complete, by rw [pushed, ← magic, ← global]⟩

end Runs

/-! ## A directory on its way -/

/-- A root directory with links in it. -/
def linkedDir : DirArg :=
  { rootdir := [slash], isDir := true, analysed := linkedTree, copied := linkedTree }

end FsArchiver
