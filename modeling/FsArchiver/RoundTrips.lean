import FsArchiver.Damage
import FsArchiver.ExcludedCounts
import FsArchiver.SavedDirectories

/-!
# From a save to a restoration

A whole save and a whole restoration. `oper_save` fills a queue, compression threads work on it, the
writer makes volumes of what comes out; later the reader reads these volumes for what is needed,
decompression threads work on what it finds, and `oper_restore` takes what comes out of them. It does
what it would do with the items that were saved, in whatever order the threads took their steps and
whatever the size of the volumes.
-/
namespace FsArchiver

open Lib

/-- A reader reads one thing. -/
theorem Source.Reads.unique {src : Source} {first second : List Enqueued} (one : src.Reads first)
    (other : src.Reads second) : first = second := by
  obtain ⟨enough, looped⟩ := one
  obtain ⟨enough', looped'⟩ := other
  have same := (looped (max enough enough') (Nat.le_max_left _ _)).symm.trans
    (looped' (max enough enough') (Nat.le_max_right _ _))
  exact Option.some.inj same

section Way

variable {build : Build} {lib : Decompressors} {save restore : Gcrypt} {saving restoring : Options}
  {mem : Mem} {src : Source} {items stored : List QueueData}

/-- Items that come out of the decompression threads are restored as those that were saved. -/
theorem plainItems_of_stored
    (way : List.Forall₂ (QueueData.StoredAs build lib restore restoring mem) items stored)
    {results : List QueueData}
    (yields : List.Forall₂ (Yields (Decompressing build lib restore restoring mem))
      (stored.map QueueData.readBack) results) : plainItems results = plainItems items := by
  induction way generalizing results with
  | nil =>
    cases yields
    rfl
  | cons first rest ih =>
    cases yields with
    | cons here later => rw [plainItems_cons, plainItems_cons, first.plain_eq here, ih later]

/-- They can be written and read. -/
theorem storable_of_stored
    (way : List.Forall₂ (QueueData.StoredAs build lib restore restoring mem) items stored)
    (fresh : ∀ item ∈ items, item.Fresh)
    (headers : ∀ headinfo : HeadInfo, .header headinfo ∈ items → headinfo.dico.Fits)
    (blocks : ∀ blkinfo : BlockInfo, .block blkinfo ∈ stored → blkinfo.blkarsize ≠ 0) :
    ∀ item ∈ stored, item.Storable := by
  induction way with
  | nil => exact nofun
  | @cons item stored items others first rest ih =>
    obtain ⟨freshHere, freshRest⟩ := List.forall_mem_cons.mp fresh
    refine List.forall_mem_cons.mpr ⟨first.storable freshHere ?_ ?_, ih freshRest ?_ ?_⟩
    · exact fun headinfo same => headers headinfo (same ▸ List.mem_cons_self)
    · exact fun blkinfo same => blocks blkinfo (same ▸ List.mem_cons_self)
    · exact fun headinfo member => headers headinfo (List.mem_cons_of_mem item member)
    · exact fun blkinfo member => blocks blkinfo (List.mem_cons_of_mem stored member)

/-- Behind the threads of a save, the volumes, the reader and the threads of a restoration the
selected items are restored as those that were saved. -/
theorem plainItems_restored (cipher : save.InvertedBy restore)
    (password : saving.encryptalgo = encryptBlowfish →
      restoring.encryptalgo = encryptBlowfish ∧ restoring.encryptpass = saving.encryptpass)
    {archid : UInt32} {main : HeadInfo} (isMain : main.IsMain archid)
    (fresh : ∀ item ∈ items, item.Fresh)
    (headers : ∀ headinfo : HeadInfo, .header headinfo ∈ items → headinfo.dico.Fits) {n : Nat}
    (compressed : Carries (Compressing build lib save saving) n
      ((.header main :: items).map QueueData.toDo) stored)
    {splitsize : Nat}
    (room : splitsize = 0 ∨ 74 + (itemBytes archid (.header main)).length ≤ splitsize)
    {volumes : List (List UInt8)} (written : threadWriterFct splitsize archid stored = some volumes)
    (few : volumes.length ≤ 4294967296) (finds : src.Finds volumes) {found : List Enqueued}
    (reads : src.Reads found) {m : Nat} {results : List QueueData}
    (decompressed : Carries (Decompressing build lib restore restoring mem) m
      (found.map Enqueued.input) results) :
    plainItems results = plainItems (.header main :: items.filter src.selects) := by
  have yields := compressed.yields
  rw [List.map_cons] at yields
  cases yields with
  | @cons _ first _ stored begins rest =>
    cases begins with
    | header =>
      rw [List.forall₂_map_left_iff] at rest
      have way : List.Forall₂ (QueueData.StoredAs build lib restore restoring mem) items
          stored := by
        have both := (List.forall₂_and_left items stored).mpr ⟨fresh, rest⟩
        exact both.imp fun item stored known =>
          storedAs_of_yields cipher password mem known.1 known.2
      have storable := storable_of_stored way fresh headers fun blkinfo member =>
        blkarsize_of_written written (List.mem_cons_of_mem _ member)
      obtain ⟨found', reads', inputs⟩ := reads_selected splitsize isMain storable room written few
        finds
      rw [reads.unique reads', inputs] at decompressed
      have back := decompressed.yields
      cases back with
      | cons main' others =>
        cases main' with
        | header =>
          have kept := @List.rel_filter _ _ _ src.selects src.selects
            (fun item stored (known : item.StoredAs build lib restore restoring mem stored) =>
              known.selects src) _ _ way
          rw [plainItems_cons, plainItems_cons, plainItems_of_stored kept others]

end Way

/-! ## A filesystem that was filled -/

/-- A filesystem was filled with these objects, but for those that are excluded. -/
structure FilledFs.HasObjects (fs : FilledFs) (ctx : Context) (objects : List VisitedObject) :
    Prop where
  /-- All others are there as they were visited, or are links to an excluded file. -/
  restored : ∀ object ∈ objects, isFiledirExcluded ctx.exclude object.relpath = false →
    object.Remade ctx fs.log ∨ object.LinksToExcluded ctx
  excluded : ∀ object ∈ objects, isFiledirExcluded ctx.exclude object.relpath = true →
    Untouched fs.log (object.fullpath ctx)
  /-- Nothing else is there. -/
  only : Concerns fs.log (objects.map fun object => object.fullpath ctx)
  /-- Errors come from excluding only. -/
  errors : (∀ object ∈ objects, isFiledirExcluded ctx.exclude object.relpath = false) →
    statsErrcount fs.stats = 0

section Filled

variable {ctx : Context} {md5 : Md5} {opts : SaveOptions} {fsid : UInt16}
  {objects : List VisitedObject} {saved : SavedFs} {made : Log} {stats : Stats}

/-- An object that is not excluded is restored, or its file is excluded. -/
theorem FilledWith.restored (complete : saved.Complete md5 opts fsid objects)
    (filled : FilledWith ctx (partObjs saved.parts) made stats) {obj : SavedObj}
    (among : obj ∈ partObjs saved.parts) (kept : obj.excluded ctx = false) :
    obj.Restored ctx [] made ∨ LinksToExcluded ctx obj := by
  by_cases excluded : LinksToExcluded ctx obj
  · exact .inr excluded
  · refine .inl ((filled.settled obj among).kept kept fun target links => ?_)
    -- the file was restored, as it is not excluded and no link itself
    obtain ⟨file, inParts, relpath, unique⟩ := complete.files obj among target links
    have included : file.excluded ctx = false := by
      unfold SavedObj.excluded
      rw [relpath]
      exact eq_false_of_ne_true fun out => excluded ⟨target, links, out⟩
    have restored := (filled.settled file inParts).kept included fun target' links' =>
      absurd (unique.symm.trans links'.1) (by decide)
    have content := (restored.file (by rw [unique]; rfl)).contentAt []
    unfold SavedObj.fullpath at content
    rw [relpath] at content
    rw [content]
    rfl

/-- What was visited in a filesystem is in the one that was filled with its archive. -/
theorem FilledWith.hasObjects (sizes : opts.FromCmdline)
    (complete : saved.Complete md5 opts fsid objects) {number : Nat}
    (filled : FilledWith ctx (partObjs saved.parts) made stats) :
    FilledFs.HasObjects ⟨number, made, stats⟩ ctx objects where
  restored object visited kept := by
    obtain ⟨obj, among, becomes⟩ := complete.all object visited
    have included : obj.excluded ctx = false := by
      unfold SavedObj.excluded
      rw [becomes.relpath]
      exact kept
    refine (filled.restored complete among included).imp (becomes.remade sizes) ?_
    rintro ⟨target, links, out⟩
    exact ⟨target, becomes.link links, out⟩
  excluded object visited out := by
    obtain ⟨obj, among, becomes⟩ := complete.all object visited
    unfold VisitedObject.fullpath
    rw [← becomes.relpath] at out ⊢
    exact (filled.settled obj among).excluded out
  only := by
    intro entry member path concerned
    obtain ⟨obj, among, rfl⟩ := List.mem_map.mp (filled.concerns entry member path concerned)
    obtain ⟨object, visited, becomes⟩ := complete.only obj among
    refine List.mem_map.mpr ⟨object, visited, ?_⟩
    rw [SavedObj.fullpath, becomes.relpath]
    rfl
  errors nothing := by
    have kept {obj : SavedObj} (among : obj ∈ partObjs saved.parts) : obj.excluded ctx = false := by
      obtain ⟨object, visited, becomes⟩ := complete.only obj among
      unfold SavedObj.excluded
      rw [becomes.relpath]
      exact nothing object visited
    have silent : Steps (fun stats _ stats' => statsErrcount stats' = statsErrcount stats) {}
        (partObjs saved.parts) stats := by
      refine filled.counts.mono fun _ obj among _ counts => ?_
      cases counts with
      | restored own =>
        unfold statsErrcount Stats.count
        cases obj.objtype <;> rfl
      | skipped out isRegfile => rfl
      | refused out isEntry =>
        rw [kept among] at out
        cases out
      | unlinked own lost =>
        -- the file of a link is in the archive, and was restored before it
        obtain ⟨target, links, none⟩ := lost
        obtain ⟨file, inParts, relpath, unique⟩ := complete.files obj among target links
        have restored := (filled.settled file inParts).kept (kept inParts) fun target' links' =>
          absurd (unique.symm.trans links'.1) (by decide)
        have content := (restored.file (by rw [unique]; rfl)).contentAt []
        unfold SavedObj.fullpath at content
        rw [relpath, List.nil_append, none] at content
        cases content
    have sum := silent.sum_eq statsErrcount (fun _ => 0) fun _ _ _ same => same
    have none : statsErrcount {} = 0 := rfl
    simpa [none] using sum

end Filled

/-! ## Runs -/

/-- The type of the archive. -/
def SaveArgs.archtype : SaveArgs → ArchType
  | .filesystems _ => .filesystems
  | .directories _ => .directories

/-- How many arguments there are. -/
def SaveArgs.count : SaveArgs → Nat
  | .filesystems args => args.length
  | .directories args => args.length

/-- The operation that restores what was saved. -/
def SaveArgs.operation : SaveArgs → Operation
  | .filesystems _ => .restfs
  | .directories _ => .restdir

/-- What is known of the arguments: their trees come from the kernel, their paths fit their buffers,
an archive has room for all filesystems, and directories do not meet. -/
def SaveArgs.Sound (opts : SaveOptions) : SaveArgs → Prop
  | .filesystems args => args.length ≤ maxFsPerArch ∧ ∀ arg ∈ args, arg.Sound opts
  | .directories args => (∀ arg ∈ args, arg.Sound opts) ∧ DirsApart opts args

/-- A save, up to its volumes. -/
structure WholeSave where
  opts : SaveOptions
  options : MainOptions
  build : Build
  gcrypt : Gcrypt
  md5 : Md5
  mem : Mem
  archid : UInt32
  now : UInt64
  random : CheckBuffer
  args : SaveArgs
  /-- How many compression threads there are. -/
  threads : Nat
  splitsize : Nat
  /-- What came out of the compression threads. -/
  written : List QueueData
  volumes : List (List UInt8)

namespace WholeSave

variable (run : WholeSave)

/-- The main header. -/
def mainhead : HeadInfo :=
  createarWriteMainhead run.gcrypt run.md5 run.mem run.options run.archid run.args.archtype
    run.args.count run.now run.random

/-- What `oper_save` does. -/
def saved : Bool × Savear :=
  operSave run.mem run.md5 run.opts ⟨true, run.mainhead.dico⟩ run.args

/-- The save returns 0, every block was compressed, and all of its archive was written. The libraries
it used can be inverted. -/
structure Succeeds (lib : Decompressors) : Prop where
  sizes : run.opts.FromCmdline
  label : run.options.archlabel.length < maxLabelLen
  split : run.splitsize = 0 ∨ 1048576 ≤ run.splitsize
  sound : run.args.Sound run.opts
  returns : run.saved.1 = true
  /-- The headers fit their records. -/
  headers : ∀ headinfo : HeadInfo, .header headinfo ∈ run.saved.2.pushed → headinfo.dico.Fits
  /-- What the compression threads have made of all that was on the queue. -/
  compressed : Carries (Compressing run.build lib run.gcrypt run.options.toOptions) run.threads
    (run.saved.2.pushed.map QueueData.toDo) run.written
  archive : threadWriterFct run.splitsize run.archid run.written = some run.volumes
  /-- Their numbers have 32 bits. -/
  numbers : run.volumes.length ≤ 4294967296

end WholeSave

/-- The targets of a restoration can take what was saved. -/
def RestoreSetup.Ready (setup : RestoreSetup) : SaveArgs → Prop
  | .filesystems args => setup.Begins args.length ∧
      -- the partitions that were asked for can be made, whatever was saved
      ∀ i target, setup.dicoargv i = some target → ∀ arg fs info, args[i]? = some arg →
        arg.mount = some fs → fs.HeaderIs info →
          ∃ partition fstype, target.Works setup.ctx.mem info partition fstype
  | .directories _ => setup.threads = true ∧ setup.isDir = true

/-- A restoration. -/
structure WholeRestore where
  setup : RestoreSetup
  oper : Operation
  src : Source
  /-- What the reader has found. -/
  found : List Enqueued
  /-- How many decompression threads there are. -/
  threads : Nat
  /-- What came out of the decompression threads. -/
  items : List QueueData

namespace WholeRestore

variable (run : WholeRestore) (save : WholeSave) (lib : Decompressors)

/-- The restoration is one of this archive, with its password, on a system on which nothing fails. -/
structure Reads : Prop where
  oper : run.oper = save.args.operation
  ready : run.setup.Ready save.args
  md5 : run.setup.ctx.md5 = save.md5
  cipher : save.gcrypt.InvertedBy run.setup.gcrypt
  /-- The options have the password of the archive, and its check was encrypted. -/
  password : save.options.encryptalgo ≠ encryptNone →
    run.setup.options.encryptalgo = encryptBlowfish ∧
      run.setup.options.encryptpass = save.options.encryptpass ∧
      minPasslen ≤ save.options.encryptpass.length ∧
      save.options.encryptpass.length ≤ maxPasslen ∧
      (cryptoBlowfish save.gcrypt save.random.bytes save.options.encryptpass 1).isSome
  calm : run.setup.ctx.os.Calm
  finds : run.src.Finds save.volumes
  /-- The reader knows what was asked for. -/
  needs : run.src.fsbitmap = run.setup.fsbitmap run.oper
  reads : run.src.Reads run.found
  /-- What the decompression threads have made of all that was read. -/
  decompressed : Carries
    (Decompressing save.build lib run.setup.gcrypt run.setup.options run.setup.ctx.mem) run.threads
    (run.found.map Enqueued.input) run.items

/-- What `oper_restore` does. -/
def restored : Bool × Restoring := operRestore run.setup run.oper .init run.items

end WholeRestore

section Runs

variable {save : WholeSave} {lib : Decompressors} {restore : WholeRestore}

/-- The main header fits every volume. -/
theorem WholeSave.Succeeds.room (saved : save.Succeeds lib) :
    save.splitsize = 0 ∨
      74 + (itemBytes save.archid (.header save.mainhead)).length ≤ save.splitsize := by
  refine saved.split.imp_right fun split => ?_
  have length : save.mainhead.dico.encode.length < 5120 := length_mainhead saved.label
  have bytes : (itemBytes save.archid (.header save.mainhead)).length =
      18 + save.mainhead.dico.encode.length := by
    simp [itemBytes, headerBytes, dicoBytes]
    omega
  omega

/-- The password opens the archive. -/
theorem WholeRestore.Reads.opens (reads : restore.Reads save lib) :
    restore.setup.Opens save.options save.mainhead := by
  intro encrypts
  obtain ⟨algo, pass, least, most, encrypted⟩ := reads.password encrypts
  obtain ⟨⟨size, out⟩, encrypted⟩ := Option.isSome_iff_exists.mp encrypted
  refine ⟨algo, ?_⟩
  rw [WholeSave.mainhead, reads.md5, checkPassword_written _ _ encrypts, pass, if_neg (by omega),
    if_pos (md5sumnew_own reads.cipher _ encrypted)]

/-- A restoration does what it would do with the selected items that were saved. -/
theorem WholeRestore.Reads.restored_plain (saved : save.Succeeds lib)
    (reads : restore.Reads save lib) {items : List QueueData}
    (pushed : save.saved.2.pushed = .header save.mainhead :: items)
    (fresh : ∀ item ∈ items, item.Fresh) :
    plainFilesystems restore.restored = plainFilesystems (operRestore restore.setup restore.oper .init
      (.header save.mainhead :: items.filter restore.src.selects)) := by
  have compressed := saved.compressed
  have headers := saved.headers
  rw [pushed] at compressed headers
  have plain : plainItems restore.items =
      plainItems (.header save.mainhead :: items.filter restore.src.selects) := by
    refine plainItems_restored reads.cipher (fun encrypts => ?_) (isMain_mainhead saved.label) fresh
      (fun headinfo member => headers headinfo (List.mem_cons_of_mem _ member)) compressed saved.room
      saved.archive saved.numbers reads.finds reads.reads reads.decompressed
    obtain ⟨algo, pass, -⟩ := reads.password (by rw [encrypts]; decide)
    exact ⟨algo, pass⟩
  rw [WholeRestore.restored, ← operRestore_plain, plain, operRestore_plain]

end Runs

/-! ## A small tree on its way -/

/-- Libraries that refuse to compress anything. -/
def noCompressors : Compressors :=
  { lzo1x1Compress := fun _ => (.other, [])
    compress2 := fun _ _ _ => (.other, [])
    bzBuffToBuffCompress := fun _ _ => (.other, [])
    lzma := fun _ _ _ => ⟨.other, .other, .other, []⟩
    lz4CompressDefault := fun _ _ => none
    zstdCompress := fun _ _ _ => none }

theorem noCompressors_inverted (lib : Decompressors) : noCompressors.InvertedBy lib := by
  constructor <;> simp [noCompressors]

/-- With such libraries every block is stored as it is. -/
theorem exists_stored (lib : Decompressors) (gcrypt : Gcrypt) (items : List QueueData) :
    ∃ stored, List.Forall₂ (fun item out =>
        Yields (Compressing ⟨false, false, false, false⟩ lib gcrypt gzipOptions) item.toDo out)
        items stored ∧
      ((∀ item ∈ items, item.Fresh) → ∀ blkinfo, .block blkinfo ∈ stored →
        blkinfo.blkarsize ≠ 0) := by
  induction items with
  | nil => exact ⟨[], .nil, nofun⟩
  | cons item rest ih =>
    obtain ⟨stored, yields, filled⟩ := ih
    cases item with
    | header headinfo =>
      refine ⟨.header headinfo :: stored, .cons (.header headinfo) yields,
        fun fresh blkinfo among => ?_⟩
      exact filled (List.forall_mem_cons.mp fresh).2 blkinfo (by simpa using among)
    | block blkinfo =>
      obtain ⟨blkinfo', refused, size⟩ : ∃ blkinfo',
          compressBlockGeneric ⟨false, false, false, false⟩ (fun _ => noCompressors) gcrypt
            gzipOptions blkinfo = some blkinfo' ∧ blkinfo'.blkarsize = blkinfo.blkrealsize :=
        ⟨_, rfl, rfl⟩
      refine ⟨.block blkinfo' :: stored,
        .cons (.todo ⟨_, fun _ => noCompressors_inverted lib, refused⟩) yields,
        fun fresh other among => ?_⟩
      obtain ⟨here, later⟩ := List.forall_mem_cons.mp fresh
      rcases List.mem_cons.mp among with own | among
      · cases own
        rw [size]
        intro none
        have positive := here.1.nonempty
        rw [none] at positive
        exact absurd positive (by decide)
      · exact filled later other among

/-- What was stored can come out of the decompression threads. -/
theorem exists_results {build : Build} {lib : Decompressors} {restore : Gcrypt}
    {restoring : Options} {mem : Mem} {items stored : List QueueData}
    (way : List.Forall₂ (QueueData.StoredAs build lib restore restoring mem) items stored) :
    ∃ results, List.Forall₂ (Yields (Decompressing build lib restore restoring mem))
      (stored.map QueueData.readBack) results := by
  induction way with
  | nil => exact ⟨[], .nil⟩
  | cons first rest ih =>
    obtain ⟨results, yields⟩ := ih
    cases first with
    | header headinfo => exact ⟨_, .cons (.header headinfo) yields⟩
    | @block blkinfo blkinfo' storedAs =>
      have back : decompressBlockGeneric build lib restore restoring mem
          { blkinfo' with blkfsid := 0 } = .done (blkinfo.blkdata.map some) := storedAs.back
      let result := { blkinfo' with
        blkfsid := 0, blkdata := Buffer.bytes mem (blkinfo.blkdata.map some) }
      have success : Decompressing build lib restore restoring mem { blkinfo' with blkfsid := 0 }
          (some result) := by
        simp only [Decompressing, back, result]
      exact ⟨.block result :: results, .cons (.todo success) yields⟩

/-- There is a way for all items through the threads, a volume and the reader. -/
theorem exists_way (lib : Decompressors) (mem : Mem) {archid : UInt32} {main : HeadInfo}
    (isMain : main.IsMain archid) {items : List QueueData} (fresh : ∀ item ∈ items, item.Fresh)
    (headers : ∀ headinfo : HeadInfo, .header headinfo ∈ items → headinfo.dico.Fits)
    (few : items.length < 4294967296) :
    ∃ written volumes, Carries (Compressing ⟨false, false, false, false⟩ lib noGcrypt gzipOptions) 1
        ((.header main :: items).map QueueData.toDo) written ∧
      threadWriterFct 0 archid written = some volumes ∧ volumes.length ≤ 4294967296 ∧
      ∀ src : Source, src.Finds volumes → ∃ found results, src.Reads found ∧
        Carries (Decompressing ⟨false, false, false, false⟩ lib noGcrypt gzipOptions mem) 1
          (found.map Enqueued.input) results := by
  obtain ⟨stored, yields, filled⟩ := exists_stored lib noGcrypt items
  have compressed : Carries (Compressing ⟨false, false, false, false⟩ lib noGcrypt gzipOptions) 1
      ((.header main :: items).map QueueData.toDo) (.header main :: stored) := by
    apply carries_of_yields 0
    apply List.Forall₂.cons (.header main)
    rw [List.forall₂_map_left_iff]
    exact yields
  have way : List.Forall₂ (QueueData.StoredAs ⟨false, false, false, false⟩ lib noGcrypt gzipOptions
      mem) items stored := by
    have both := (List.forall₂_and_left items stored).mpr ⟨fresh, yields⟩
    exact both.imp fun item out known => storedAs_of_yields noGcrypt_inverted
      (fun other => absurd other (by decide)) mem known.1 known.2
  have storable := storable_of_stored way fresh headers (filled fresh)
  obtain ⟨first, rest, written, -, bound⟩ := written_volumes 0 isMain
    (fun item (member : item ∈ stored) => (storable item member).encodable) (.inl rfl)
  have count : (volumesFrom archid 0 ((QueueData.header main :: first) :: rest)).length ≤
      4294967296 := by
    rw [length_volumesFrom, List.length_cons]
    rw [← way.length_eq] at bound
    omega
  refine ⟨_, _, compressed, written, count, fun src finds => ?_⟩
  obtain ⟨found, reads, inputs⟩ := reads_selected 0 isMain storable (.inl rfl) written count finds
  have kept := @List.rel_filter _ _ _ src.selects src.selects
    (fun item out (known : item.StoredAs _ lib noGcrypt gzipOptions mem out) => known.selects src)
    _ _ way
  obtain ⟨results, back⟩ := exists_results kept
  refine ⟨found, .header main :: results, reads, ?_⟩
  rw [inputs]
  apply carries_of_yields 0
  exact .cons (.header main) back

/-- A file with two links and two bytes, and a symbolic link to it. -/
def linkedEntries : DirStream :=
  .entry [0x61] (some (plainFileStat 2 2)) { plainCalls with openFile := twoBytes } plainDirCalls .eof
    (.entry [0x62] (some (plainFileStat 2 2)) { plainCalls with openFile := twoBytes } plainDirCalls
      .eof
      (.entry [0x6c] (some { plainFileStat 1 1 with mode := 0o120777, ino := 13 })
        { plainCalls with readlink := some [0x61] } plainDirCalls .eof .eof))

/-- A directory with these entries. -/
def linkedTree : TreeCalls := ⟨plainDirCalls, linkedEntries⟩

/-- Their names are names. -/
theorem linkedTree_wellNamed : linkedTree.entries.WellNamed := by
  have named (name : UInt8) (other : name ≠ slash) (notNul : name ≠ 0) : IsName [name] :=
    ⟨List.cons_ne_nil _ _, by simpa using other.symm, by simpa using notNul.symm⟩
  exact ⟨named 0x61 (by decide) (by decide), by decide, trivial,
    named 0x62 (by decide) (by decide), by decide, trivial,
    named 0x6c (by decide) (by decide), by decide, trivial, trivial⟩

/-- Nothing comes from elsewhere than the kernel. -/
theorem linkedTree_fromKernel : ∀ object ∈ savedObjects false (linkedTree.visits plainOptions [slash]),
    object.calls.FromKernel := by
  have objects : savedObjects false (linkedTree.visits plainOptions [slash]) =
      [⟨[slash], plainDirStat, plainCalls⟩,
        ⟨[slash, 0x61], plainFileStat 2 2, { plainCalls with openFile := twoBytes }⟩,
        ⟨[slash, 0x62], plainFileStat 2 2, { plainCalls with openFile := twoBytes }⟩,
        ⟨[slash, 0x6c], { plainFileStat 1 1 with mode := 0o120777, ino := 13 },
          { plainCalls with readlink := some [0x61] }⟩] := rfl
  rw [objects]
  simp only [List.mem_cons, List.not_mem_nil, or_false, forall_eq_or_imp, forall_eq]
  refine ⟨plainCalls_fromKernel none, plainCalls_fromKernel _, plainCalls_fromKernel _, ?_⟩
  exact ⟨fun target link => by rw [← Option.some.inj link]; decide, Nat.zero_le _, nofun, nofun,
    fun _ _ => nofun⟩

/-- The paths fit their buffers. -/
theorem linkedTree_fit : PathsFit (visitedPaths (linkedTree.visits plainOptions [slash])) := by
  unfold PathsFit
  decide

/-- A save without compression and encryption. -/
def clearSave (args : SaveArgs) (written : List QueueData) (volumes : List (List UInt8)) : WholeSave :=
  { opts := plainOptions, options := clearOptions, build := ⟨false, false, false, false⟩
    gcrypt := noGcrypt, md5 := plainMd5, mem := plainMem, archid := 1, now := 0
    random := zeroCheckBuffer, args, threads := 1, splitsize := 0, written, volumes }

/-- A restoration of what it wrote. -/
def clearSetup (dicoargv : Nat → Option FsTarget) : RestoreSetup :=
  { options := clearOptions.toOptions, gcrypt := noGcrypt, ctx := plainContext, argvWorks := true
    dicoargv, threads := true, isDir := true }

/-- There is a restoration of what was saved without compression and encryption. -/
theorem exists_runs {args : SaveArgs} (sound : args.Sound plainOptions)
    (returns : (clearSave args [] []).saved.1 = true)
    (small : (clearSave args [] []).saved.2.pushed.all (fun item =>
      decide (item.head.dico.items.length < 65536) &&
        decide (item.head.dico.encode.length < 4294967296)) = true)
    {items : List QueueData}
    (pushed : (clearSave args [] []).saved.2.pushed = .header (clearSave args [] []).mainhead :: items)
    (fresh : ∀ item ∈ items, item.Fresh) (few : items.length < 4294967296)
    {dicoargv : Nat → Option FsTarget} (ready : (clearSetup dicoargv).Ready args) :
    ∃ written volumes, ∃ restore : WholeRestore, restore.setup = clearSetup dicoargv ∧
      restore.src.Finds volumes ∧ (clearSave args written volumes).Succeeds zerosDecompressors ∧
        restore.Reads (clearSave args written volumes) zerosDecompressors := by
  have headers : ∀ headinfo : HeadInfo, .header headinfo ∈ (clearSave args [] []).saved.2.pushed →
      headinfo.dico.Fits := by
    intro headinfo member
    have fits := List.all_eq_true.mp small _ member
    simp only [Bool.and_eq_true, decide_eq_true_eq] at fits
    exact ⟨fits.1, fits.2⟩
  have label : clearOptions.archlabel.length < maxLabelLen := by decide
  have isMain : (clearSave args [] []).mainhead.IsMain 1 := isMain_mainhead label
  obtain ⟨written, volumes, compressed, archived, numbers, reader⟩ := exists_way zerosDecompressors
    plainMem isMain fresh (fun headinfo member => headers headinfo (by
      rw [pushed]
      exact List.mem_cons_of_mem _ member)) few
  rw [← pushed] at compressed
  let src : Source :=
    { volume := fun curvol => volumes[curvol.toNat]?
      fsbitmap := (clearSetup dicoargv).fsbitmap args.operation, mem := plainMem }
  obtain ⟨found, results, reads, decompressed⟩ := reader src fun _ => rfl
  refine ⟨written, volumes, ⟨clearSetup dicoargv, args.operation, src, found, 1, results⟩, rfl,
    fun _ => rfl, ?_, ?_⟩
  · exact { sizes := plainOptions_fromCmdline, label, split := .inl rfl, sound, returns, headers
            compressed, archive := archived, numbers }
  · exact { oper := rfl, ready, md5 := rfl, cipher := noGcrypt_inverted
            password := fun other => absurd rfl other, calm := plainContext_calm
            finds := fun _ => rfl, needs := rfl, reads, decompressed }

end FsArchiver
