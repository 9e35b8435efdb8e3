import FsArchiver.SaveErrors

/-!
# Saving filesystems and directories

`oper_save` around the walks: every argument of the command line is checked, walked for the cost
of the operation, and walked again for its contents. The two walks get answers of their own. The
status is that of the last checks, of the walks as far as `createar_oper_savefs` and
`createar_oper_savedir` pass it on, and of the errors counted on the way.
-/
namespace FsArchiver

open Lib

/-! ## Arguments -/

/-- A directory tree with what the calls of one walk answer. -/
structure TreeCalls where
  /-- The directory at the top. -/
  dir : DirCalls
  /-- What is below it. -/
  entries : DirStream

/-- The visits of a walk that starts at a path. -/
def TreeCalls.visits (opts : SaveOptions) (path : Path) (tree : TreeCalls) : List Visit :=
  treeVisits opts path tree.dir tree.entries

/-- An argument of `savefs`. -/
structure FsArg where
  /-- `stat64` succeeds, for a block device. -/
  isBlk : Bool
  /-- `filesystem_mount_partition`: the type of the filesystem, and `dicofsinfo`. -/
  mounted : Option (Filesys × Dico)
  /-- The walk that evaluates the cost. -/
  analysed : TreeCalls
  /-- The walk that copies the contents. -/
  copied : TreeCalls

/-- An argument of `savedir`. -/
structure DirArg where
  /-- `argv[i]`. -/
  rootdir : Path
  /-- `stat64` succeeds, for a directory. -/
  isDir : Bool
  /-- The walk that evaluates the cost. -/
  analysed : TreeCalls
  /-- The walk that copies the contents. -/
  copied : TreeCalls

/-- The arguments, by `archtype`. -/
inductive SaveArgs where
  | filesystems (args : List FsArg)
  | directories (args : List DirArg)

/-- What else `oper_save` depends on. -/
structure SaveSetup where
  /-- `pthread_create` succeeds for all threads. -/
  threads : Bool
  /-- The header of `createar_write_mainhead`. -/
  mainhead : Dico

/-- A filesystem that is mounted. -/
structure MountedFs where
  fstype : Filesys
  dicofsinfo : Dico
  analysed : TreeCalls
  copied : TreeCalls

/-- The filesystem of an argument, if it can be mounted. -/
def FsArg.mount (arg : FsArg) : Option MountedFs :=
  arg.mounted.map fun (fstype, dicofsinfo) => ⟨fstype, dicofsinfo, arg.analysed, arg.copied⟩

/-- `filesys[0]`, which is ext2. -/
def ext2 : Filesys := { supportForXattr := true, winattr := false, savesymtargettype := false }

/-- `save` behind `memset`. -/
def Savear.zero : Savear :=
  { fsid := 0, fstype := ext2, objectid := 0, dichardlinks := [], regmulti := ⟨0, [], []⟩,
    stats := {}, cost := 0, pushed := [] }

/-- `FSYSHEADKEY_TOTALCOST`. -/
def fsysTotalcost : UInt16 := 28

/-- `DIRSINFOKEY_TOTALCOST`. -/
def dirsinfoTotalcost : UInt16 := 1

/-- The path of the walk of a directory: an absolute one is copied into a buffer first. -/
def savedirPath (rootdir : Path) : Path :=
  if rootdir.head? = some slash then rootdir.take (pathMax - 1) else rootdir

/-! ## Walks -/

section Run

variable (mem : Mem) (md5 : Md5) (opts : SaveOptions)

/-- `createar_save_directory_wrapper` for a tree. -/
def wrapTree (costeval : Bool) (save : Savear) (path : Path) (tree : TreeCalls) : Bool × Savear :=
  createarSaveDirectoryWrapper mem md5 opts costeval save path tree.dir tree.entries

/-- `createar_oper_savefs` up to its main task. -/
def savefsBegin (save : Savear) (fs : MountedFs) : Savear :=
  { save.push [.header ⟨.fsyb, save.fsid, Dico.alloc⟩] with fstype := fs.fstype }

/-- `createar_oper_savefs`. -/
def createarOperSavefs (save : Savear) (fs : MountedFs) : Bool × Savear :=
  let (ret, save) := wrapTree mem md5 opts false (savefsBegin save fs) [slash] fs.copied
  (ret, save.push [.header ⟨.datf, save.fsid, Dico.alloc⟩])

/-- `createar_oper_savedir`. -/
def createarOperSavedir (save : Savear) (arg : DirArg) : Bool × Savear :=
  (true, (wrapTree mem md5 opts false save (savedirPath arg.rootdir) arg.copied).2)

/-- The loop that mounts the filesystems. -/
def mountPartitions : List FsArg → Option (List MountedFs)
  | [] => some []
  | arg :: rest =>
    match arg.mount with
    | none => none
    | some fs => (mountPartitions rest).map (fs :: ·)

/-- The loop that evaluates the cost of the filesystems and writes their headers. -/
def analyseFilesystems : List MountedFs → Savear → Bool × Savear
  | [], save => (true, save)
  | fs :: rest, save =>
    match wrapTree mem md5 opts true { save with cost := 0 } [slash] fs.analysed with
    | (false, save) => (false, save)
    | (true, save) =>
      match dicoAddEach fs.dicofsinfo [dicoAddU64 0 fsysTotalcost save.cost] with
      | none => (false, save)
      | some d => analyseFilesystems rest (save.push [.header ⟨.fsin, filesysidNull, d⟩])

/-- The loop that evaluates the cost of the directories: whether it gets to its end, and
`cost_global`. -/
def analyseDirectories : List DirArg → UInt64 → Savear → Bool × UInt64 × Savear
  | [], costGlobal, save => (true, costGlobal, save)
  | arg :: rest, costGlobal, save =>
    match wrapTree mem md5 opts true { save with cost := 0 } [slash] arg.analysed with
    | (false, save) => (false, costGlobal, save)
    | (true, save) => analyseDirectories rest (costGlobal + save.cost) save

/-- The state in which filesystem number `i` is saved. -/
def filesystemStart (i : Nat) (save : Savear) : Savear :=
  { save with fsid := UInt16.ofNat i, stats := {} }

/-- The loop that copies the filesystems from number `i` on, with `totalerr`. -/
def copyFilesystems : Nat → Nat → List MountedFs → Savear → Bool × Nat × Savear
  | _, totalerr, [], save => (true, totalerr, save)
  | i, totalerr, fs :: rest, save =>
    match createarOperSavefs mem md5 opts (filesystemStart i save) fs with
    | (false, save) => (false, totalerr, save)
    | (true, save) => copyFilesystems (i + 1) (totalerr + statsErrcount save.stats) rest save

/-- The loop that copies the directories. -/
def copyDirectories : List DirArg → Savear → Bool × Savear
  | [], save => (true, save)
  | arg :: rest, save =>
    match createarOperSavedir mem md5 opts save arg with
    | (false, save) => (false, save)
    | (true, save) => copyDirectories rest save

/-- The state behind the main header. -/
def SaveSetup.start (setup : SaveSetup) : Savear :=
  Savear.zero.push [.header ⟨.main, filesysidNull, setup.mainhead⟩]

/-- The header of the directories. -/
def dirsinfo (costGlobal : UInt64) : Dico :=
  dicoAddAll Dico.alloc [dicoAddU64 0 dirsinfoTotalcost costGlobal]

/-- The state in which the first directory is saved. -/
def directoriesStart (costGlobal : UInt64) (save : Savear) : Savear :=
  { save.push [.header ⟨.dirs, filesysidNull, dirsinfo costGlobal⟩] with
    objectid := 0, fsid := 0, fstype := ext2, stats := {} }

/-- `oper_save` for filesystems that are mounted: whether it returns 0. -/
def saveFilesystems (setup : SaveSetup) (filesystems : List MountedFs) : Bool × Savear :=
  match analyseFilesystems mem md5 opts filesystems setup.start with
  | (false, save) => (false, save)
  | (true, save) =>
    let (ok, totalerr, save) :=
      copyFilesystems mem md5 opts 0 0 filesystems { save with objectid := 0 }
    (ok && decide (totalerr = 0), save)

/-- `oper_save` for directories: whether it returns 0. -/
def saveDirectories (setup : SaveSetup) (args : List DirArg) : Bool × Savear :=
  match analyseDirectories mem md5 opts args 0 setup.start with
  | (false, _, save) => (false, save)
  | (true, costGlobal, save) =>
    let (ok, save) := copyDirectories mem md5 opts args (directoriesStart costGlobal save)
    (ok && decide (statsErrcount save.stats = 0),
      save.push [.header ⟨.datf, filesysidNull, Dico.alloc⟩])

/-- `oper_save`: whether it returns 0. -/
def operSave (setup : SaveSetup) : SaveArgs → Bool × Savear
  | .filesystems args =>
    if !args.all FsArg.isBlk || !setup.threads then (false, Savear.zero)
    else
      match mountPartitions args with
      | none => (false, setup.start)
      | some filesystems => saveFilesystems mem md5 opts setup filesystems
  | .directories args =>
    if !args.all DirArg.isDir || !setup.threads then (false, Savear.zero)
    else saveDirectories mem md5 opts setup args

end Run

/-! ## The walks of a run -/

/-- A call of `createar_save_directory_wrapper` that copies a tree, with the state before it. -/
structure SaveWalk where
  save : Savear
  path : Path
  tree : TreeCalls

section Walks

variable (mem : Mem) (md5 : Md5) (opts : SaveOptions)

/-- What a walk leaves behind. -/
def SaveWalk.run (walk : SaveWalk) : Bool × Savear :=
  wrapTree mem md5 opts false walk.save walk.path walk.tree

/-- The walks of `copyFilesystems`. -/
def filesystemWalks : Nat → List MountedFs → Savear → List SaveWalk
  | _, [], _ => []
  | i, fs :: rest, save =>
    ⟨savefsBegin (filesystemStart i save) fs, [slash], fs.copied⟩ ::
      filesystemWalks (i + 1) rest (createarOperSavefs mem md5 opts (filesystemStart i save) fs).2

/-- The walks of `copyDirectories`. -/
def directoryWalks : List DirArg → Savear → List SaveWalk
  | [], _ => []
  | arg :: rest, save =>
    ⟨save, savedirPath arg.rootdir, arg.copied⟩ ::
      directoryWalks rest (createarOperSavedir mem md5 opts save arg).2

/-- The walks of `oper_save` that copy the trees of its arguments, if it gets to them. -/
def saveWalks (setup : SaveSetup) : SaveArgs → List SaveWalk
  | .filesystems args =>
    match mountPartitions args with
    | none => []
    | some filesystems =>
      let save := (analyseFilesystems mem md5 opts filesystems setup.start).2
      filesystemWalks mem md5 opts 0 filesystems { save with objectid := 0 }
  | .directories args =>
    let (_, costGlobal, save) := analyseDirectories mem md5 opts args 0 setup.start
    directoryWalks mem md5 opts args (directoriesStart costGlobal save)

end Walks

/-- The trees of the arguments with the paths at which their walks start. -/
def SaveArgs.trees : SaveArgs → List (Path × TreeCalls)
  | .filesystems args => args.map fun arg => ([slash], arg.copied)
  | .directories args => args.map fun arg => (savedirPath arg.rootdir, arg.copied)

/-! ## When `oper_save` returns 0 -/

/-- Nothing fails on a filesystem that would be noticed: its cost is evaluated and put into its
header, and the walk that copies it gets to its end without an error. -/
structure MountedFs.Passes (opts : SaveOptions) (fs : MountedFs) : Prop where
  analysed : .stop ∉ fs.analysed.visits opts [slash]
  header : fs.dicofsinfo.find 0 fsysTotalcost = none
  copied : ∀ visit ∈ fs.copied.visits opts [slash], visit.GoesOn
  noErrors : NoErrors opts fs.fstype (savedObjects false (fs.copied.visits opts [slash]))

/-- Nothing fails on a directory that would be noticed: its cost is evaluated, and the walk that
copies it has no errors. -/
structure DirArg.Passes (opts : SaveOptions) (arg : DirArg) : Prop where
  analysed : .stop ∉ arg.analysed.visits opts [slash]
  noErrors : NoErrors opts ext2
    (savedObjects false (arg.copied.visits opts (savedirPath arg.rootdir)))

/-- Nothing fails that would be noticed. -/
def SaveArgs.Pass (opts : SaveOptions) (setup : SaveSetup) : SaveArgs → Prop
  | .filesystems args => setup.threads = true ∧ ∀ arg ∈ args, arg.isBlk = true ∧
      ∃ fs, arg.mount = some fs ∧ fs.Passes opts
  | .directories args => setup.threads = true ∧ ∀ arg ∈ args, arg.isDir = true ∧ arg.Passes opts

section Status

variable {mem : Mem} {md5 : Md5} {opts : SaveOptions}

/-- A tree is evaluated unless `lstat64` fails. -/
theorem wrapTree_eval (save : Savear) (path : Path) (tree : TreeCalls) :
    (wrapTree mem md5 opts true save path tree).1 = true ↔ .stop ∉ tree.visits opts path := by
  have same := @saveVisits_eval_regmulti mem md5 opts (tree.visits opts path) (walkStart opts save)
  have queued : (regmultiSaveEnqueue mem (walkStart opts save).regmulti
      (saveVisits mem md5 opts true (tree.visits opts path) (walkStart opts save)).2.fsid).2 =
      true := rfl
  rw [← same] at queued
  rw [← @saveVisits_eval_ok mem md5 opts _ (walkStart opts save)]
  unfold wrapTree
  rw [createarSaveDirectoryWrapper_eq]
  unfold TreeCalls.visits at queued ⊢
  simp only [queued, Bool.and_true]

/-- The walk that copies a tree. -/
theorem wrapTree_copy (sizes : opts.FromCmdline) (save : Savear) (path : Path) (tree : TreeCalls) :
    let walked := saveVisits mem md5 opts false (tree.visits opts path) (walkStart opts save)
    (wrapTree mem md5 opts false save path tree).1 = walked.1 ∧
      (wrapTree mem md5 opts false save path tree).2.stats = walked.2.stats := by
  obtain ⟨ended, -⟩ := @createarSaveDirectoryWrapper_packets mem md5 _ sizes save path tree.dir
    tree.entries
  refine ⟨ended, ?_⟩
  unfold wrapTree
  rw [createarSaveDirectoryWrapper_eq]
  rfl

/-- A walk puts its items behind those that are there. -/
theorem wrapTree_pushed (sizes : opts.FromCmdline) (save : Savear) (path : Path) (tree : TreeCalls) :
    save.pushed <+: (wrapTree mem md5 opts false save path tree).2.pushed := by
  obtain ⟨-, pushed⟩ := @createarSaveDirectoryWrapper_packets mem md5 _ sizes save path tree.dir
    tree.entries
  exact ⟨_, pushed.symm⟩

/-- Visits stay in their filesystem. -/
theorem fstype_saveVisits (sizes : opts.FromCmdline) (visits : List Visit) {save : Savear}
    {files : List PackEntry} (pends : Pends opts save files) :
    (saveVisits mem md5 opts false visits save).2.fstype = save.fstype := by
  induction visits generalizing save files with
  | nil => rfl
  | cons visit rest ih =>
    cases visit with
    | stop => rfl
    | object relpath st calls =>
      obtain ⟨-, visited⟩ := @createarSaveFile_adds mem md5 _ _ _ pends sizes relpath st calls
      simp only [saveVisits]
      cases ran : createarSaveFile mem md5 opts save relpath st calls false with
      | mk returned save' =>
        rw [ran] at visited
        cases returned with
        | false => exact visited.fstype
        | true => exact (ih visited.pends).trans visited.fstype

/-- A walk stays in its filesystem. -/
theorem wrapTree_fstype (sizes : opts.FromCmdline) (save : Savear) (path : Path)
    (tree : TreeCalls) : (wrapTree mem md5 opts false save path tree).2.fstype = save.fstype := by
  unfold wrapTree
  rw [createarSaveDirectoryWrapper_eq]
  exact fstype_saveVisits sizes _ (pends_walkStart opts save)

/-- The filesystems are mounted one by one. -/
theorem mountPartitions_eq_some {args : List FsArg} {filesystems : List MountedFs} :
    mountPartitions args = some filesystems ↔ args.map FsArg.mount = filesystems.map some := by
  induction args generalizing filesystems with
  | nil =>
    cases filesystems <;> simp [mountPartitions]
  | cons arg rest ih =>
    unfold mountPartitions
    cases mounted : arg.mount with
    | none => cases filesystems <;> simp [mounted]
    | some fs =>
      cases filesystems with
      | nil => simp
      | cons fs' others =>
        simp only [Option.map_eq_some_iff, List.cons.injEq, List.map_cons, mounted,
          Option.some.injEq, ← ih]
        constructor
        · rintro ⟨_, found, rfl, rfl⟩
          exact ⟨rfl, found⟩
        · rintro ⟨rfl, found⟩
          exact ⟨others, found, rfl, rfl⟩

/-- One that cannot be mounted ends the loop. -/
theorem mountPartitions_eq_none {args : List FsArg} :
    mountPartitions args = none ↔ ∃ arg ∈ args, arg.mount = none := by
  induction args with
  | nil => simp [mountPartitions]
  | cons arg rest ih =>
    unfold mountPartitions
    cases mounted : arg.mount with
    | none => simp [mounted]
    | some fs => simp [mounted, ih]

/-- The evaluation of the filesystems gets to its end. -/
theorem analyseFilesystems_ok (filesystems : List MountedFs) (save : Savear) :
    (analyseFilesystems mem md5 opts filesystems save).1 = true ↔ ∀ fs ∈ filesystems,
      .stop ∉ fs.analysed.visits opts [slash] ∧ fs.dicofsinfo.find 0 fsysTotalcost = none := by
  induction filesystems generalizing save with
  | nil => simp [analyseFilesystems]
  | cons fs rest ih =>
    have walked := @wrapTree_eval mem md5 opts { save with cost := 0 } [slash] fs.analysed
    rw [List.forall_mem_cons, ← walked]
    simp only [analyseFilesystems]
    cases ran : wrapTree mem md5 opts true { save with cost := 0 } [slash] fs.analysed with
    | mk ok save' =>
      cases ok with
      | false => simp
      | true =>
        have added : dicoAddEach fs.dicofsinfo [dicoAddU64 0 fsysTotalcost save'.cost] = none ↔
            ¬fs.dicofsinfo.find 0 fsysTotalcost = none := by
          rw [Dico.find_eq_none]
          simp [dicoAddEach, dicoAddGeneric, dicoAddU64]
        dsimp only
        cases each : dicoAddEach fs.dicofsinfo [dicoAddU64 0 fsysTotalcost save'.cost] with
        | none => simp [added.mp each]
        | some d =>
          have free : fs.dicofsinfo.find 0 fsysTotalcost = none := by
            by_contra taken
            rw [added.mpr taken] at each
            cases each
          simp only [ih, free, and_self, true_and]

/-- The evaluation of the directories gets to its end. -/
theorem analyseDirectories_ok (args : List DirArg) (costGlobal : UInt64) (save : Savear) :
    (analyseDirectories mem md5 opts args costGlobal save).1 = true ↔
      ∀ arg ∈ args, .stop ∉ arg.analysed.visits opts [slash] := by
  induction args generalizing costGlobal save with
  | nil => simp [analyseDirectories]
  | cons arg rest ih =>
    have walked := @wrapTree_eval mem md5 opts { save with cost := 0 } [slash] arg.analysed
    rw [List.forall_mem_cons, ← walked]
    simp only [analyseDirectories]
    cases ran : wrapTree mem md5 opts true { save with cost := 0 } [slash] arg.analysed with
    | mk ok save' =>
      cases ok with
      | false => simp
      | true => simp [ih]

/-- The loop over the filesystems gets to its end without an error. -/
theorem copyFilesystems_ok (sizes : opts.FromCmdline) {filesystems : List MountedFs}
    (fit : ∀ fs ∈ filesystems, PathsFit (visitedPaths (fs.copied.visits opts [slash])))
    (i totalerr : Nat) (save : Savear) :
    ((copyFilesystems mem md5 opts i totalerr filesystems save).1 = true ∧
      (copyFilesystems mem md5 opts i totalerr filesystems save).2.1 = 0) ↔
      totalerr = 0 ∧ ∀ fs ∈ filesystems,
      (∀ visit ∈ fs.copied.visits opts [slash], visit.GoesOn) ∧
        NoErrors opts fs.fstype (savedObjects false (fs.copied.visits opts [slash])) := by
  induction filesystems generalizing i totalerr save with
  | nil => simp [copyFilesystems]
  | cons fs rest ih =>
    obtain ⟨fitHere, fitRest⟩ := List.forall_mem_cons.mp fit
    let start := savefsBegin (filesystemStart i save) fs
    obtain ⟨ended, stats⟩ := @wrapTree_copy mem md5 _ sizes start [slash] fs.copied
    obtain ⟨-, errors⟩ := @errcount_walk mem md5 _ _ sizes start fitHere
    have goesOn := @saveVisits_copy_ok mem md5 opts (fs.copied.visits opts [slash])
      (walkStart opts start)
    rw [← ended] at goesOn
    rw [← stats] at errors
    have none : statsErrcount start.stats = 0 := rfl
    have fstype : start.fstype = fs.fstype := rfl
    rw [none, fstype] at errors
    have returned : createarOperSavefs mem md5 opts (filesystemStart i save) fs =
        ((wrapTree mem md5 opts false start [slash] fs.copied).1,
          (wrapTree mem md5 opts false start [slash] fs.copied).2.push
            [.header ⟨.datf, (wrapTree mem md5 opts false start [slash] fs.copied).2.fsid,
              Dico.alloc⟩]) := rfl
    rw [List.forall_mem_cons, ← goesOn, ← errors]
    simp only [copyFilesystems, returned]
    cases ran : wrapTree mem md5 opts false start [slash] fs.copied with
    | mk ok save' =>
      cases ok with
      | false => simp
      | true =>
        have pushed : (save'.push [.header ⟨.datf, save'.fsid, Dico.alloc⟩]).stats = save'.stats :=
          rfl
        simp only [ih fitRest, pushed, Nat.add_eq_zero_iff, true_and, and_assoc]

/-- The loop over the directories counts their errors, and gets to its end. -/
theorem copyDirectories_ok (sizes : opts.FromCmdline) {args : List DirArg}
    (fit : ∀ arg ∈ args, PathsFit (visitedPaths (arg.copied.visits opts (savedirPath arg.rootdir))))
    {save : Savear} (fstype : save.fstype = ext2) :
    let copied := copyDirectories mem md5 opts args save
    copied.1 = true ∧ (statsErrcount copied.2.stats = 0 ↔ statsErrcount save.stats = 0 ∧
      ∀ arg ∈ args, NoErrors opts ext2
        (savedObjects false (arg.copied.visits opts (savedirPath arg.rootdir)))) := by
  induction args generalizing save with
  | nil => simp [copyDirectories]
  | cons arg rest ih =>
    obtain ⟨fitHere, fitRest⟩ := List.forall_mem_cons.mp fit
    obtain ⟨-, stats⟩ := @wrapTree_copy mem md5 _ sizes save (savedirPath arg.rootdir) arg.copied
    obtain ⟨more, errors⟩ := @errcount_walk mem md5 _ _ sizes save fitHere
    have still := @wrapTree_fstype mem md5 _ sizes save (savedirPath arg.rootdir) arg.copied
    rw [← stats, fstype] at errors
    rw [← stats] at more
    obtain ⟨ended, counted⟩ := ih fitRest (still.trans fstype)
    simp only [copyDirectories, createarOperSavedir]
    refine ⟨ended, ?_⟩
    rw [counted, List.forall_mem_cons, ← errors]
    constructor
    · rintro ⟨zero, rest⟩
      exact ⟨by omega, by omega, rest⟩
    · rintro ⟨zero, same, rest⟩
      exact ⟨by omega, rest⟩

/-- `oper_save` returns 0 if nothing fails on its filesystems that is noticed. -/
theorem saveFilesystems_ok (sizes : opts.FromCmdline) (setup : SaveSetup)
    {filesystems : List MountedFs}
    (fit : ∀ fs ∈ filesystems, PathsFit (visitedPaths (fs.copied.visits opts [slash]))) :
    (saveFilesystems mem md5 opts setup filesystems).1 = true ↔
      ∀ fs ∈ filesystems, fs.Passes opts := by
  have analysed := @analyseFilesystems_ok mem md5 opts filesystems setup.start
  unfold saveFilesystems
  cases ran : analyseFilesystems mem md5 opts filesystems setup.start with
  | mk ok save =>
    rw [ran] at analysed
    cases ok with
    | false =>
      simp only [Bool.false_eq_true, false_iff] at analysed ⊢
      exact fun passes => analysed fun fs member =>
        ⟨(passes fs member).analysed, (passes fs member).header⟩
    | true =>
      simp only [Bool.and_eq_true, decide_eq_true_eq]
      rw [copyFilesystems_ok sizes fit]
      constructor
      · rintro ⟨-, passes⟩ fs member
        obtain ⟨seen, header⟩ := analysed.mp rfl fs member
        exact ⟨seen, header, (passes fs member).1, (passes fs member).2⟩
      · exact fun passes => ⟨rfl, fun fs member =>
          ⟨(passes fs member).copied, (passes fs member).noErrors⟩⟩

/-- `oper_save` returns 0 if nothing fails on its directories that is noticed. -/
theorem saveDirectories_ok (sizes : opts.FromCmdline) (setup : SaveSetup) {args : List DirArg}
    (fit : ∀ arg ∈ args,
      PathsFit (visitedPaths (arg.copied.visits opts (savedirPath arg.rootdir)))) :
    (saveDirectories mem md5 opts setup args).1 = true ↔ ∀ arg ∈ args, arg.Passes opts := by
  have analysed := @analyseDirectories_ok mem md5 opts args 0 setup.start
  unfold saveDirectories
  cases ran : analyseDirectories mem md5 opts args 0 setup.start with
  | mk ok rest =>
    obtain ⟨costGlobal, save⟩ := rest
    rw [ran] at analysed
    cases ok with
    | false =>
      simp only [Bool.false_eq_true, false_iff] at analysed ⊢
      exact fun passes => analysed fun arg member => (passes arg member).analysed
    | true =>
      obtain ⟨ended, errors⟩ := @copyDirectories_ok mem md5 _ sizes _ fit
        (directoriesStart costGlobal save) rfl
      simp only [Bool.and_eq_true, decide_eq_true_eq]
      rw [errors]
      constructor
      · rintro ⟨-, -, calm⟩ arg member
        exact ⟨analysed.mp rfl arg member, calm arg member⟩
      · exact fun passes => ⟨ended, rfl, fun arg member => (passes arg member).noErrors⟩

/-- A filesystem that was mounted is that of an argument. -/
theorem mounted_mem {args : List FsArg} {filesystems : List MountedFs}
    (mounted : mountPartitions args = some filesystems) {fs : MountedFs} :
    fs ∈ filesystems ↔ ∃ arg ∈ args, arg.mount = some fs := by
  have same := mountPartitions_eq_some.mp mounted
  have among : some fs ∈ args.map FsArg.mount ↔ fs ∈ filesystems := by
    rw [same]
    simp
  rw [← among, List.mem_map]

/-- Filesystems that are mounted are the trees of the arguments. -/
theorem trees_mounted {args : List FsArg} {filesystems : List MountedFs}
    (mounted : mountPartitions args = some filesystems) :
    filesystems.map (fun fs => ([slash], fs.copied)) = (SaveArgs.filesystems args).trees := by
  have same := mountPartitions_eq_some.mp mounted
  have given : args.map (fun arg => (arg.mount.map fun fs => (([slash] : Path), fs.copied))) =
      filesystems.map fun fs => some ([slash], fs.copied) := by
    have mapped := congrArg (List.map (Option.map fun fs => (([slash] : Path), fs.copied))) same
    simpa [Function.comp_def] using mapped
  have own : args.map (fun arg => (arg.mount.map fun fs => (([slash] : Path), fs.copied))) =
      args.map fun arg => some ([slash], arg.copied) := by
    refine List.map_congr_left fun arg member => ?_
    cases found : arg.mount with
    | none =>
      rw [mountPartitions_eq_none.mpr ⟨arg, member, found⟩] at mounted
      cases mounted
    | some fs =>
      obtain ⟨pair, -, rfl⟩ := Option.map_eq_some_iff.mp found
      rfl
  have lifted : (filesystems.map fun fs => (([slash] : Path), fs.copied)).map some =
      (args.map fun arg => (([slash] : Path), arg.copied)).map some := by
    simpa [Function.comp_def] using given.symm.trans own
  exact List.map_injective_iff.mpr (fun _ _ => Option.some.inj) lifted

/-- So their paths fit. -/
theorem fit_mounted {args : List FsArg} {filesystems : List MountedFs}
    (mounted : mountPartitions args = some filesystems)
    (fit : ∀ tree ∈ (SaveArgs.filesystems args).trees,
      PathsFit (visitedPaths (tree.2.visits opts tree.1))) :
    ∀ fs ∈ filesystems, PathsFit (visitedPaths (fs.copied.visits opts [slash])) := by
  rw [← trees_mounted mounted] at fit
  exact fun fs member => fit ([slash], fs.copied) (List.mem_map_of_mem member)

/-- The paths of directories fit. -/
theorem fit_directories {args : List DirArg}
    (fit : ∀ tree ∈ (SaveArgs.directories args).trees,
      PathsFit (visitedPaths (tree.2.visits opts tree.1))) :
    ∀ arg ∈ args,
      PathsFit (visitedPaths (arg.copied.visits opts (savedirPath arg.rootdir))) :=
  fun arg member => fit (savedirPath arg.rootdir, arg.copied) (List.mem_map_of_mem member)

/-- `oper_save` returns 0 if and only if nothing fails that is noticed. -/
theorem operSave_ok (sizes : opts.FromCmdline) (setup : SaveSetup) (args : SaveArgs)
    (fit : ∀ tree ∈ args.trees, PathsFit (visitedPaths (tree.2.visits opts tree.1))) :
    (operSave mem md5 opts setup args).1 = true ↔ args.Pass opts setup := by
  cases args with
  | filesystems args =>
    simp only [operSave, SaveArgs.Pass]
    by_cases begun : args.all FsArg.isBlk = true ∧ setup.threads = true
    · have blocks := List.all_eq_true.mp begun.1
      rw [if_neg (by simp [begun])]
      cases mounted : mountPartitions args with
      | none =>
        simp only [Bool.false_eq_true, false_iff]
        rintro ⟨-, passes⟩
        obtain ⟨arg, member, missing⟩ := mountPartitions_eq_none.mp mounted
        obtain ⟨-, fs, found, -⟩ := passes arg member
        rw [missing] at found
        cases found
      | some filesystems =>
        dsimp only
        rw [saveFilesystems_ok sizes setup (fit_mounted mounted fit)]
        constructor
        · intro passes
          refine ⟨begun.2, fun arg member => ⟨blocks arg member, ?_⟩⟩
          cases found : arg.mount with
          | none =>
            rw [mountPartitions_eq_none.mpr ⟨arg, member, found⟩] at mounted
            cases mounted
          | some fs => exact ⟨fs, rfl, passes fs ((mounted_mem mounted).mpr ⟨arg, member, found⟩)⟩
        · rintro ⟨-, passes⟩ fs member
          obtain ⟨arg, among, found⟩ := (mounted_mem mounted).mp member
          obtain ⟨-, fs', found', pass⟩ := passes arg among
          rw [found] at found'
          exact Option.some.inj found' ▸ pass
    · rw [if_pos (by simpa [and_comm, imp_iff_or_not] using begun)]
      simp only [Bool.false_eq_true, false_iff]
      rintro ⟨threads, passes⟩
      exact begun ⟨List.all_eq_true.mpr fun arg member => (passes arg member).1, threads⟩
  | directories args =>
    simp only [operSave, SaveArgs.Pass]
    by_cases begun : args.all DirArg.isDir = true ∧ setup.threads = true
    · have dirs := List.all_eq_true.mp begun.1
      rw [if_neg (by simp [begun]), saveDirectories_ok sizes setup (fit_directories fit)]
      constructor
      · exact fun passes => ⟨begun.2, fun arg member => ⟨dirs arg member, passes arg member⟩⟩
      · exact fun passes arg member => (passes.2 arg member).2
    · rw [if_pos (by simpa [and_comm, imp_iff_or_not] using begun)]
      simp only [Bool.false_eq_true, false_iff]
      rintro ⟨threads, passes⟩
      exact begun ⟨List.all_eq_true.mpr fun arg member => (passes arg member).1, threads⟩

/-! ## Where the walks stand on the queue -/

/-- The path and the tree of a walk. -/
def SaveWalk.given (walk : SaveWalk) : Path × TreeCalls := (walk.path, walk.tree)

/-- The loop over the filesystems adds to the queue. -/
theorem copyFilesystems_pushed (sizes : opts.FromCmdline) (filesystems : List MountedFs)
    (i totalerr : Nat) (save : Savear) :
    save.pushed <+: (copyFilesystems mem md5 opts i totalerr filesystems save).2.2.pushed := by
  induction filesystems generalizing i totalerr save with
  | nil => exact List.prefix_refl save.pushed
  | cons fs rest ih =>
    let start := savefsBegin (filesystemStart i save) fs
    have begun : save.pushed <+: start.pushed := List.prefix_append ..
    have walked := @wrapTree_pushed mem md5 _ sizes start [slash] fs.copied
    have saved : start.pushed <+:
        (createarOperSavefs mem md5 opts (filesystemStart i save) fs).2.pushed :=
      walked.trans (List.prefix_append ..)
    simp only [copyFilesystems]
    cases ran : createarOperSavefs mem md5 opts (filesystemStart i save) fs with
    | mk ok save' =>
      rw [ran] at saved
      cases ok with
      | false => exact begun.trans saved
      | true => exact (begun.trans saved).trans (ih _ _ save')

/-- The walk of a filesystem is on the queue behind the loop. -/
theorem filesystemWalks_pushed (sizes : opts.FromCmdline) {filesystems : List MountedFs}
    {i totalerr : Nat} {save : Savear}
    (ended : (copyFilesystems mem md5 opts i totalerr filesystems save).1 = true) {walk : SaveWalk}
    (member : walk ∈ filesystemWalks mem md5 opts i filesystems save) :
    (walk.run mem md5 opts).2.pushed <+:
      (copyFilesystems mem md5 opts i totalerr filesystems save).2.2.pushed := by
  induction filesystems generalizing i totalerr save with
  | nil => cases member
  | cons fs rest ih =>
    let start := savefsBegin (filesystemStart i save) fs
    have own : (wrapTree mem md5 opts false start [slash] fs.copied).2.pushed <+:
        (createarOperSavefs mem md5 opts (filesystemStart i save) fs).2.pushed :=
      List.prefix_append ..
    simp only [copyFilesystems] at ended ⊢
    cases ran : createarOperSavefs mem md5 opts (filesystemStart i save) fs with
    | mk ok save' =>
      rw [ran] at own ended
      cases ok with
      | false => cases ended
      | true =>
        rcases List.mem_cons.mp member with rfl | later
        · exact own.trans (copyFilesystems_pushed sizes rest _ _ save')
        · rw [ran] at later
          exact ih ended later

/-- Every filesystem is walked, as what it is. -/
theorem filesystemWalks_given (i : Nat) (filesystems : List MountedFs) (save : Savear) :
    (filesystemWalks mem md5 opts i filesystems save).map SaveWalk.given =
        filesystems.map (fun fs => ([slash], fs.copied)) ∧
      ∀ walk ∈ filesystemWalks mem md5 opts i filesystems save, ∃ fs ∈ filesystems,
        walk.path = [slash] ∧ walk.tree = fs.copied ∧ walk.save.fstype = fs.fstype := by
  induction filesystems generalizing i save with
  | nil => exact ⟨rfl, List.forall_mem_nil _⟩
  | cons fs rest ih =>
    obtain ⟨trees, types⟩ := ih (i + 1)
      (createarOperSavefs mem md5 opts (filesystemStart i save) fs).2
    refine ⟨by rw [filesystemWalks, List.map_cons, trees]; rfl, ?_⟩
    intro walk member
    rcases List.mem_cons.mp member with rfl | later
    · exact ⟨fs, List.mem_cons_self, rfl, rfl, rfl⟩
    · obtain ⟨fs', among, same⟩ := types walk later
      exact ⟨fs', List.mem_cons_of_mem _ among, same⟩

/-- The loop over the directories adds to the queue. -/
theorem copyDirectories_pushed (sizes : opts.FromCmdline) (args : List DirArg) (save : Savear) :
    save.pushed <+: (copyDirectories mem md5 opts args save).2.pushed := by
  induction args generalizing save with
  | nil => exact List.prefix_refl save.pushed
  | cons arg rest ih =>
    exact (wrapTree_pushed sizes save _ arg.copied).trans (ih _)

/-- The walk of a directory is on the queue behind the loop. -/
theorem directoryWalks_pushed (sizes : opts.FromCmdline) {args : List DirArg} {save : Savear}
    {walk : SaveWalk} (member : walk ∈ directoryWalks mem md5 opts args save) :
    (walk.run mem md5 opts).2.pushed <+: (copyDirectories mem md5 opts args save).2.pushed := by
  induction args generalizing save with
  | nil => cases member
  | cons arg rest ih =>
    rcases List.mem_cons.mp member with rfl | later
    · exact copyDirectories_pushed sizes rest _
    · exact ih later

/-- Every directory is walked, as one of an ext2 filesystem. -/
theorem directoryWalks_given (sizes : opts.FromCmdline) (args : List DirArg) {save : Savear}
    (fstype : save.fstype = ext2) :
    (directoryWalks mem md5 opts args save).map SaveWalk.given =
        args.map (fun arg => (savedirPath arg.rootdir, arg.copied)) ∧
      ∀ walk ∈ directoryWalks mem md5 opts args save, walk.save.fstype = ext2 := by
  induction args generalizing save with
  | nil => exact ⟨rfl, List.forall_mem_nil _⟩
  | cons arg rest ih =>
    have still := @wrapTree_fstype mem md5 _ sizes save (savedirPath arg.rootdir) arg.copied
    obtain ⟨trees, types⟩ := ih (still.trans fstype)
    refine ⟨?_, List.forall_mem_cons.mpr ⟨fstype, types⟩⟩
    exact congrArg ((savedirPath arg.rootdir, arg.copied) :: ·) trees

/-- What is known of a walk when `oper_save` returns 0: its items are on the queue, and it had no
errors. -/
structure SaveWalk.Passed (mem : Mem) (md5 : Md5) (opts : SaveOptions) (walk : SaveWalk)
    (queue : List QueueData) : Prop where
  queued : (walk.run mem md5 opts).2.pushed <+: queue
  noErrors : NoErrors opts walk.save.fstype (savedObjects false (walk.tree.visits opts walk.path))

/-- The walks of filesystems that are saved. -/
theorem filesystemWalks_passed (sizes : opts.FromCmdline) (setup : SaveSetup)
    {filesystems : List MountedFs}
    (fit : ∀ fs ∈ filesystems, PathsFit (visitedPaths (fs.copied.visits opts [slash])))
    (ok : (saveFilesystems mem md5 opts setup filesystems).1 = true) {walk : SaveWalk}
    (member : walk ∈ filesystemWalks mem md5 opts 0 filesystems
      { (analyseFilesystems mem md5 opts filesystems setup.start).2 with objectid := 0 }) :
    walk.Passed mem md5 opts (saveFilesystems mem md5 opts setup filesystems).2.pushed := by
  have passes := (saveFilesystems_ok sizes setup fit).mp ok
  obtain ⟨-, types⟩ := @filesystemWalks_given mem md5 opts 0 filesystems
    { (analyseFilesystems mem md5 opts filesystems setup.start).2 with objectid := 0 }
  obtain ⟨fs, among, path, tree, fstype⟩ := types walk member
  refine ⟨?_, by rw [path, tree, fstype]; exact (passes fs among).noErrors⟩
  unfold saveFilesystems at ok ⊢
  cases ran : analyseFilesystems mem md5 opts filesystems setup.start with
  | mk returned save =>
    rw [ran] at ok member
    cases returned with
    | false => cases ok
    | true =>
      simp only [Bool.and_eq_true] at ok
      exact filesystemWalks_pushed sizes ok.1 member

/-- The walks of directories that are saved. -/
theorem directoryWalks_passed (sizes : opts.FromCmdline) (setup : SaveSetup) {args : List DirArg}
    (fit : ∀ arg ∈ args,
      PathsFit (visitedPaths (arg.copied.visits opts (savedirPath arg.rootdir))))
    (ok : (saveDirectories mem md5 opts setup args).1 = true) :
    let analysed := analyseDirectories mem md5 opts args 0 setup.start
    let walks := directoryWalks mem md5 opts args (directoriesStart analysed.2.1 analysed.2.2)
    walks.map SaveWalk.given = args.map (fun arg => (savedirPath arg.rootdir, arg.copied)) ∧
      ∀ walk ∈ walks, walk.Passed mem md5 opts (saveDirectories mem md5 opts setup args).2.pushed := by
  have passes := (saveDirectories_ok sizes setup fit).mp ok
  intro analysed walks
  obtain ⟨trees, types⟩ := @directoryWalks_given mem md5 opts sizes args
    (directoriesStart analysed.2.1 analysed.2.2) rfl
  refine ⟨trees, fun walk member => ⟨?_, ?_⟩⟩
  · unfold saveDirectories at ok ⊢
    cases ran : analyseDirectories mem md5 opts args 0 setup.start with
    | mk returned rest =>
      obtain ⟨costGlobal, save⟩ := rest
      rw [ran] at ok
      cases returned with
      | false => cases ok
      | true =>
        have start : directoriesStart analysed.2.1 analysed.2.2 = directoriesStart costGlobal save :=
          by simp only [analysed, ran]
        have among : walk ∈ directoryWalks mem md5 opts args (directoriesStart costGlobal save) :=
          start ▸ member
        exact (directoryWalks_pushed sizes among).trans (List.prefix_append ..)
  · have given : walk.given ∈ walks.map SaveWalk.given := List.mem_map_of_mem member
    rw [trees] at given
    obtain ⟨arg, among, same⟩ := List.mem_map.mp given
    have path : savedirPath arg.rootdir = walk.path := congrArg Prod.fst same
    have tree : arg.copied = walk.tree := congrArg Prod.snd same
    rw [types walk member, ← path, ← tree]
    exact (passes arg among).noErrors

/-- When `oper_save` returns 0, every tree of its arguments was walked. -/
theorem saveWalks_passed (sizes : opts.FromCmdline) (setup : SaveSetup) (args : SaveArgs)
    (fit : ∀ tree ∈ args.trees, PathsFit (visitedPaths (tree.2.visits opts tree.1)))
    (ok : (operSave mem md5 opts setup args).1 = true) :
    (saveWalks mem md5 opts setup args).map SaveWalk.given = args.trees ∧
      ∀ walk ∈ saveWalks mem md5 opts setup args,
        walk.Passed mem md5 opts (operSave mem md5 opts setup args).2.pushed := by
  have pass := (operSave_ok sizes setup args fit).mp ok
  cases args with
  | filesystems args =>
    obtain ⟨threads, passes⟩ := pass
    have blocks : args.all FsArg.isBlk = true :=
      List.all_eq_true.mpr fun arg member => (passes arg member).1
    simp only [operSave, saveWalks] at ok ⊢
    rw [if_neg (by simp [blocks, threads])] at ok ⊢
    cases mounted : mountPartitions args with
    | none =>
      rw [mounted] at ok
      cases ok
    | some filesystems =>
      rw [mounted] at ok
      refine ⟨?_, fun walk member =>
        filesystemWalks_passed sizes setup (fit_mounted mounted fit) ok member⟩
      rw [(filesystemWalks_given 0 filesystems _).1]
      exact trees_mounted mounted
  | directories args =>
    obtain ⟨threads, passes⟩ := pass
    have dirs : args.all DirArg.isDir = true :=
      List.all_eq_true.mpr fun arg member => (passes arg member).1
    simp only [operSave, saveWalks] at ok ⊢
    rw [if_neg (by simp [dirs, threads])] at ok ⊢
    exact directoryWalks_passed sizes setup (fit_directories fit) ok

end Status

end FsArchiver
