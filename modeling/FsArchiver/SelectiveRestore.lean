import FsArchiver.RestoreArchive
import FsArchiver.SavedArchive
import FsArchiver.SelectedItems

/-!
# Restoring some filesystems of an archive

`restfs` gets the headers of all filesystems from the reader, but only the contents of those that
were asked for. Each of them finds its own contents at the front of the queue, whatever the
filesystems before it hold, and leaves the contents of the next one there.
-/
namespace FsArchiver

open Lib

/-! ## Filling a filesystem -/

/-- How a new filesystem is filled with objects. -/
structure FilledWith (ctx : Context) (objs : List SavedObj) (made : Log) (stats : Stats) : Prop where
  concerns : Concerns made (fullpaths ctx objs)
  settled : ∀ obj ∈ objs, obj.Settled ctx [] made
  counts : Steps (Counts ctx (LinksNowhere ctx made)) {} objs stats

/-- The parts of a filesystem can be restored. -/
structure Restorable (md5 : Md5) (fsid : UInt16) (parts : List Part) : Prop where
  wellMade : ∀ part ∈ parts, part.WellMade md5 fsid
  whole : ∀ part ∈ parts, part.isWhole = true
  orderly : ∀ ctx, Orderly ctx (partObjs parts)

/-- A complete filesystem can be restored. -/
theorem SavedFs.Complete.restorable {md5 : Md5} {opts : SaveOptions} {fsid : UInt16}
    {objects : List VisitedObject} {saved : SavedFs}
    (complete : saved.Complete md5 opts fsid objects) :
    Restorable md5 fsid saved.parts :=
  ⟨complete.wellMade, complete.whole, complete.orderly⟩

section Fill

variable {setup : RestoreSetup} {ctx : Context} {exar : Extractar} {parts : List Part}
  {rest : List QueueData} {i : Nat} {target : FsTarget} {dicofs : Dico} {st : Restoring}
  {partition : List UInt8} {fstype : Nat}

/-- Parts are taken from the queue up to the header behind them. -/
theorem extractReadObjects_parts (calm : ctx.os.Calm)
    (restorable : Restorable ctx.md5 ctx.fsid parts) {endFsid : UInt16} {endDico : Dico}
    (queue : exar.queue = packetItems ctx.md5 ctx.fsid (parts.map Part.packet) ++
      .header ⟨.datf, endFsid, endDico⟩ :: rest) (log : exar.log = []) (stats : exar.stats = {}) :
    ∃ exar', extractarExtractReadObjects ctx exar = (some 0, exar') ∧ exar'.errors = 0 ∧
      exar'.queue = .header ⟨.datf, endFsid, endDico⟩ :: rest ∧
      FilledWith ctx (partObjs parts) exar'.log exar'.stats := by
  obtain ⟨filled, made, reaches, behind, counts, -, concerns, settled⟩ :=
    @reaches_parts ctx { exar with errors := 0 } _ calm parts restorable.wellMade restorable.whole
      (restorable.orderly ctx) queue
  have same : filled.log = made := by
    rw [reaches.log, log, List.nil_append]
  refine ⟨filled, reaches.ends behind, reaches.errors, behind, ?_⟩
  dsimp only at counts settled
  rw [log, List.nil_append, stats] at counts
  rw [log] at settled
  rw [same]
  exact ⟨concerns, settled, counts⟩

/-- The contents of a filesystem are taken from the queue together with the header behind them. -/
theorem fillFilesystem_parts (calm : ctx.os.Calm) (restorable : Restorable ctx.md5 ctx.fsid parts)
    {endFsid : UInt16} {endDico : Dico}
    (queue : exar.queue = packetItems ctx.md5 ctx.fsid (parts.map Part.packet) ++
      .header ⟨.datf, endFsid, endDico⟩ :: rest) (log : exar.log = []) (stats : exar.stats = {}) :
    ∃ exar', fillFilesystem ctx exar = (true, exar') ∧ exar'.queue = rest ∧
      FilledWith ctx (partObjs parts) exar'.log exar'.stats := by
  obtain ⟨filled, final, noErrors, behind, filledWith⟩ :=
    extractReadObjects_parts calm restorable queue log stats
  refine ⟨{ filled with queue := rest }, ?_, rfl, filledWith⟩
  unfold fillFilesystem
  simp only [final, noErrors, gt_iff_lt, Nat.lt_irrefl, ↓reduceIte, behind, dequeueHeader]

/-! ## The filesystem of a target -/

/-- The partition of a target and the type of its filesystem, if nothing speaks against it. -/
def FsTarget.admits (mem : Mem) (target : FsTarget) (dicofs : Dico) : Option (List UInt8 × Nat) :=
  (filesystemAccepts mem target dicofs [.header ⟨.fsyb, 0, Dico.alloc⟩]).map
    fun (partition, fstype, _) => (partition, fstype)

/-- All calls for a target succeed. -/
structure FsTarget.Works (mem : Mem) (target : FsTarget) (dicofs : Dico) (partition : List UInt8)
    (fstype : Nat) : Prop where
  admits : target.admits mem dicofs = some (partition, fstype)
  mkfs : target.mkfsWorks fstype dicofs partition = true
  mount : target.mountWorks fstype (mountOptions dicofs) = true
  umount : target.umountWorks fstype = true

/-- The header in front of the contents is taken from the queue. -/
theorem filesystemAccepts_items {mem : Mem} {fsid : UInt16} {d : Dico}
    (admits : target.admits mem dicofs = some (partition, fstype)) :
    filesystemAccepts mem target dicofs (.header ⟨.fsyb, fsid, d⟩ :: rest) =
      some (partition, fstype, rest) := by
  unfold FsTarget.admits filesystemAccepts at admits
  unfold filesystemAccepts
  cases dest : target.dest with
  | none =>
    rw [dest] at admits
    cases admits
  | some own =>
    rw [dest] at admits
    simp only [Option.bind_eq_bind, Option.bind_some, dequeueHeader] at admits ⊢
    split at admits
    · cases admits
    next recent =>
      rw [if_neg recent]
      split at admits
      · cases admits
      next free =>
        rw [if_neg free]
        simp only [ne_eq, not_true_eq_false, ↓reduceIte, Option.map_eq_some_iff,
          Option.bind_eq_some_iff, Option.some.injEq, Prod.exists, Prod.mk.injEq] at admits ⊢
        obtain ⟨_, _, _, ⟨name, named, total, hasTotal, used, hasUsed, type, known, rfl, rfl, rfl⟩,
          rfl, rfl⟩ := admits
        exact ⟨name, named, total, hasTotal, used, hasUsed, _, known, rfl, rfl, trivial⟩

/-- A filesystem that was asked for is made, mounted, filled with its contents and unmounted. -/
theorem extractarFilesystemExtract_items (calm : setup.ctx.os.Calm)
    (works : target.Works setup.ctx.mem dicofs partition fstype)
    (restorable : Restorable setup.ctx.md5 (UInt16.ofNat i) parts)
    (queue : st.exar.queue = filesystemItems setup.ctx.md5 (UInt16.ofNat i) parts ++ rest)
    (stats : st.exar.stats = {}) :
    ∃ exar', extractarFilesystemExtract setup i target dicofs st = (true,
        { exar := exar', filled := st.filled ++ [⟨i, exar'.log, exar'.stats⟩]
          calls := st.calls ++ [.mkfs partition fstype, .mount partition target.mntbuf,
            .umount partition target.mntbuf] }) ∧
      exar'.queue = rest ∧
      FilledWith (setup.fsContext i target fstype) (partObjs parts) exar'.log exar'.stats := by
  have accepts : filesystemAccepts setup.ctx.mem target dicofs st.exar.queue =
      some (partition, fstype, packetItems setup.ctx.md5 (UInt16.ofNat i) (parts.map Part.packet) ++
        .header ⟨.datf, UInt16.ofNat i, Dico.alloc⟩ :: rest) := by
    rw [queue, filesystemItems, List.cons_append, List.append_assoc]
    exact filesystemAccepts_items works.admits
  obtain ⟨exar', fills, behind, filledWith⟩ := @fillFilesystem_parts
    (setup.fsContext i target fstype)
    { st.exar with
      queue := packetItems setup.ctx.md5 (UInt16.ofNat i) (parts.map Part.packet) ++
        .header ⟨.datf, UInt16.ofNat i, Dico.alloc⟩ :: rest
      log := [] } parts rest calm restorable _ _ rfl rfl stats
  refine ⟨exar', ?_, behind, filledWith⟩
  unfold extractarFilesystemExtract
  simp only [accepts, works.mkfs, works.mount, works.umount, fills, Bool.not_true, Bool.and_true,
    Bool.false_eq_true, ↓reduceIte, Restoring.call, List.append_assoc]
  rfl

end Fill

/-! ## All filesystems -/

section Loop

variable {setup : RestoreSetup}

/-- The calls for the partitions of the filesystems from number `i` on. -/
def callsFor (setup : RestoreSetup) : Nat → List SavedFs → List FsCall
  | _, [] => []
  | i, saved :: rest =>
    (match setup.dicoargv i with
      | none => []
      | some target =>
        match target.admits setup.ctx.mem saved.info with
        | none => []
        | some (partition, fstype) => [.mkfs partition fstype, .mount partition target.mntbuf,
            .umount partition target.mntbuf]) ++
      callsFor setup (i + 1) rest

/-- The numbers that were asked for among so many from number `i` on. -/
def requestedNumbers (setup : RestoreSetup) (i count : Nat) : List Nat :=
  (List.range' i count).filter fun number => (setup.dicoargv number).isSome

/-- What becomes of filesystem number `i`, if it was asked for. -/
def Restores (setup : RestoreSetup) (i : Nat) (saved : SavedFs) (filled : List FilledFs) : Prop :=
  ∀ target, setup.dicoargv i = some target → ∃ partition fstype, ∃ fs ∈ filled, fs.number = i ∧
    target.admits setup.ctx.mem saved.info = some (partition, fstype) ∧
    FilledWith (setup.fsContext i target fstype) (partObjs saved.parts) fs.log fs.stats

/-- The errors that were counted while filesystems were filled. -/
def filledErrors (filled : List FilledFs) : Nat :=
  (filled.map fun fs => statsErrcount fs.stats).sum

/-- Filesystem number `i` is restored when it was asked for. -/
structure Ready (setup : RestoreSetup) (i : Nat) (saved : SavedFs) : Prop where
  works : ∀ target, setup.dicoargv i = some target →
    ∃ partition fstype, target.Works setup.ctx.mem saved.info partition fstype
  restorable : Restorable setup.ctx.md5 (UInt16.ofNat i) saved.parts

/-- All filesystems that were asked for are restored, whatever the others hold. -/
theorem extractFilesystems_contents (calm : setup.ctx.os.Calm) (archive : List SavedFs) (i : Nat)
    (ready : ∀ j saved, archive[j]? = some saved → Ready setup (i + j) saved)
    (totalerr : Nat) (st : Restoring)
    (queue : st.exar.queue =
      contentsFrom setup.ctx.md5 (fun number => (setup.dicoargv number).isSome) i archive) :
    ∃ filled exar',
      extractFilesystems setup i (archive.map SavedFs.info) totalerr st =
        (true, totalerr + filledErrors filled,
          { exar := exar', calls := st.calls ++ callsFor setup i archive
            filled := st.filled ++ filled }) ∧
      filled.map FilledFs.number = requestedNumbers setup i archive.length ∧
      ∀ j saved, archive[j]? = some saved → Restores setup (i + j) saved filled := by
  induction archive generalizing i totalerr st with
  | nil =>
    refine ⟨[], st.exar, ?_, rfl, nofun⟩
    simp [extractFilesystems, callsFor, filledErrors]
  | cons saved rest ih =>
    have onward : ∀ j other, rest[j]? = some other → Ready setup (i + 1 + j) other := by
      intro j other found
      have own := ready (j + 1) other (by simpa using found)
      rwa [show i + (j + 1) = i + 1 + j by omega] at own
    obtain ⟨works, restorable⟩ := ready 0 saved rfl
    simp only [Nat.add_zero] at works restorable
    simp only [List.map_cons, extractFilesystems, callsFor, requestedNumbers, List.length_cons,
      List.range'_succ, List.filter_cons]
    rw [contentsFrom] at queue
    cases asked : setup.dicoargv i with
    | none =>
      rw [asked] at queue
      obtain ⟨filled, exar', ran, numbers, restores⟩ :=
        ih (i + 1) onward totalerr st (by simpa using queue)
      refine ⟨filled, exar', ran, numbers, fun j other found => ?_⟩
      cases j with
      | zero =>
        intro target own
        rw [Nat.add_zero, asked] at own
        cases own
      | succ j =>
        have later := restores j other (by simpa using found)
        rwa [show i + (j + 1) = i + 1 + j by omega]
    | some target =>
      obtain ⟨partition, fstype, works⟩ := works target asked
      rw [asked] at queue
      obtain ⟨exar₁, ran₁, behind, filledWith⟩ := @extractarFilesystemExtract_items setup _ _ _ _
        _ { st with exar := { st.exar with stats := {} } } _ _ calm works restorable
        (by simpa using queue) rfl
      obtain ⟨filled, exar', ran, numbers, restores⟩ :=
        ih (i + 1) onward (totalerr + statsErrcount exar₁.stats)
          { exar := exar₁, filled := st.filled ++ [⟨i, exar₁.log, exar₁.stats⟩]
            calls := st.calls ++ [.mkfs partition fstype, .mount partition target.mntbuf,
              .umount partition target.mntbuf] } behind
      refine ⟨⟨i, exar₁.log, exar₁.stats⟩ :: filled, exar', ?_, ?_, fun j other found => ?_⟩
      · dsimp only
        rw [ran₁]
        dsimp only
        rw [ran, works.admits]
        simp only [List.append_assoc, List.singleton_append, filledErrors, List.map_cons,
          List.sum_cons, Nat.add_assoc]
      · simp only [List.map_cons, numbers, Option.isSome_some, ↓reduceIte]
        rfl
      · cases j with
        | zero =>
          obtain rfl : saved = other := by simpa using found
          intro target' own
          rw [Nat.add_zero, asked, Option.some.injEq] at own
          subst own
          exact ⟨partition, fstype, _, List.mem_cons_self, rfl, works.admits, filledWith⟩
        | succ j =>
          have later := restores j other (by simpa using found)
          rw [show i + 1 + j = i + (j + 1) by omega] at later
          intro target' own
          obtain ⟨partition', fstype', fs, member, known⟩ := later target' own
          exact ⟨partition', fstype', fs, List.mem_cons_of_mem _ member, known⟩

end Loop

/-! ## The headers in front -/

section Headers

variable {setup : RestoreSetup}

/-- The headers of the filesystems are read one after the other. -/
theorem readFsinfos_infos (mem : Mem) (requested : Nat → Option FsTarget) (archive : List SavedFs)
    (rest : List QueueData) (i : Nat) (cost : UInt64) :
    ∃ cost', readFsinfos mem .restfs requested archive.length i cost
        (archive.map SavedFs.infoItem ++ rest) = some (archive.map SavedFs.info, cost', rest) := by
  induction archive generalizing i cost with
  | nil => exact ⟨cost, rfl⟩
  | cons saved others ih =>
    simp only [List.length_cons, List.map_cons, List.cons_append, SavedFs.infoItem, readFsinfos,
      dequeueHeader, ne_eq, not_true_eq_false, ↓reduceIte, reduceCtorEq, false_and]
    obtain ⟨cost', read⟩ := ih (i + 1) (if (requested i).isSome then
      cost + (dicoGetU64 mem saved.info 0 fsysTotalcost).getD 0 else cost)
    refine ⟨cost', ?_⟩
    rw [read]
    rfl

/-- The password on the command line opens the archive. -/
def RestoreSetup.Opens (setup : RestoreSetup) (options : MainOptions) (head : HeadInfo) : Prop :=
  options.encryptalgo ≠ encryptNone → setup.options.encryptalgo = encryptBlowfish ∧
    checkPassword setup.gcrypt setup.ctx.md5 setup.ctx.mem setup.options.encryptpass head.dico = .ok ()

/-- What `restfs` needs for an archive with so many filesystems. -/
structure RestoreSetup.Begins (setup : RestoreSetup) (count : Nat) : Prop where
  argvWorks : setup.argvWorks = true
  threads : setup.threads = true
  /-- The numbers that were asked for are those of filesystems. -/
  valid : ∀ i target, setup.dicoargv i = some target → i < count

/-- The main header that was written is accepted, if the password opens it. -/
theorem extractarReadMainhead_opened {gcrypt : Gcrypt} {md5 : Md5} {mem : Mem} {options : MainOptions}
    {archid : UInt32} {archtype : ArchType} {fscount : Nat} {now : UInt64} {random : CheckBuffer}
    (fits : options.archlabel.length < maxLabelLen)
    (opens : setup.Opens options
      (createarWriteMainhead gcrypt md5 mem options archid archtype fscount now random))
    (ai : ArchInfo) (rest : List QueueData) :
    extractarReadMainhead setup.gcrypt setup.ctx.md5 setup.ctx.mem setup.options.encryptpass ai
      (.header (createarWriteMainhead gcrypt md5 mem options archid archtype fscount now random) ::
        rest) =
      .ok (mainInfo options archid archtype fscount now ai,
        (createarWriteMainhead gcrypt md5 mem options archid archtype fscount now random).dico,
        rest) := by
  generalize made : createarWriteMainhead gcrypt md5 mem options archid archtype fscount now
    random = head at opens ⊢
  have found : readMainItems setup.ctx.mem ai head.dico =
      .ok (mainInfo options archid archtype fscount now ai) := by
    rw [← made]
    exact readMainItems_written setup.ctx.mem ai fits
  have known : cString (mainInfo options archid archtype fscount now ai).filefmt ∈
      [fileFormat, fileFormatY, fileFormat1] := by
    rw [cString_mainInfo]
    decide
  have isMain : head.magic = .main := by
    rw [← made]
    rfl
  have encrypts : (mainInfo options archid archtype fscount now ai).cryptalgo ≠
      encryptNone.toUInt32 ↔ options.encryptalgo ≠ encryptNone := not_congr (toUInt32_eq_iff _ _)
  rw [extractarReadMainhead_main setup.options.encryptpass _ isMain found known]
  by_cases crypted : options.encryptalgo = encryptNone
  · rw [if_neg (fun other => encrypts.mp other crypted)]
  · rw [if_pos (encrypts.mpr crypted), (opens crypted).2]
    rfl

/-- The program is recent enough for the archives it writes. -/
theorem recent_mainInfo {options : MainOptions} {archid : UInt32} {archtype : ArchType}
    {fscount : Nat} {now : UInt64} {ai : ArchInfo} :
    ¬curver < (mainInfo options archid archtype fscount now ai).minfsaver := by
  simp only [mainInfo]
  decide

/-- An archive that is encrypted has a password. -/
theorem RestoreSetup.Opens.password {options : MainOptions} {head : HeadInfo}
    (opens : setup.Opens options head) {archid : UInt32} {archtype : ArchType} {fscount : Nat}
    {now : UInt64} {ai : ArchInfo} :
    ¬((mainInfo options archid archtype fscount now ai).cryptalgo ≠ encryptNone.toUInt32 ∧
      setup.options.encryptalgo ≠ encryptBlowfish) := by
  rintro ⟨crypted, other⟩
  exact other (opens ((toUInt32_eq_iff _ _).not.mp crypted)).1

/-- The headers of an archive of filesystems are accepted. -/
theorem readHeaders_archive {gcrypt : Gcrypt} {md5 : Md5} {mem : Mem} {options : MainOptions}
    {archid : UInt32} {now : UInt64} {random : CheckBuffer} {archive : List SavedFs}
    (fits : options.archlabel.length < maxLabelLen) (few : archive.length ≤ maxFsPerArch)
    (begins : setup.Begins archive.length)
    (opens : setup.Opens options
      (createarWriteMainhead gcrypt md5 mem options archid .filesystems archive.length now random))
    (ai : ArchInfo) (rest : List QueueData) :
    ∃ cost, readHeaders setup .restfs ai
      (.header (createarWriteMainhead gcrypt md5 mem options archid .filesystems archive.length now
        random) :: (archive.map SavedFs.infoItem ++ rest)) =
      some ⟨mainInfo options archid .filesystems archive.length now ai, archive.map SavedFs.info,
        cost, rest⟩ := by
  have count : (UInt64.ofNat archive.length).toNat = archive.length := by
    simp only [maxFsPerArch] at few
    simp only [UInt64.toNat_ofNat', Nat.reducePow]
    omega
  have read := extractarReadMainhead_opened fits opens ai (archive.map SavedFs.infoItem ++ rest)
  have valid : fsidsValid (setup.requested .restfs)
      (mainInfo options archid .filesystems archive.length now ai).fscount = true := by
    unfold fsidsValid
    refine List.all_eq_true.mpr fun i _ => ?_
    simp only [RestoreSetup.requested, ↓reduceIte, mainInfo, count]
    cases asked : setup.dicoargv i with
    | none => rfl
    | some target => simp [begins.valid i target asked]
  have infos : (mainInfo options archid .filesystems archive.length now ai).fsinfos =
      archive.length := by
    unfold ArchInfo.fsinfos
    simp only [mainInfo, ↓reduceIte, count]
    omega
  obtain ⟨cost, headers⟩ := readFsinfos_infos setup.ctx.mem (setup.requested .restfs) archive rest 0 0
  have noDirs : readDirsinfo setup.ctx.mem
      (mainInfo options archid .filesystems archive.length now ai) cost rest = some (cost, rest) := by
    unfold readDirsinfo
    exact if_neg (fun dirs => absurd dirs.1 (by simp only [mainInfo]; decide))
  refine ⟨cost, ?_⟩
  unfold readHeaders
  rw [if_neg (by simp [begins.argvWorks]), if_neg (by simp [begins.threads]), read]
  dsimp only
  rw [if_neg fun older => recent_mainInfo older.2, if_neg (by simp only [mainInfo]; decide),
    if_neg (by rw [valid]; decide), infos, headers]
  simp only [Option.bind_eq_bind, Option.bind_some, noDirs]
  rw [if_neg fun refused => opens.password refused.2]

/-- `restfs` restores what was asked for, if all calls for it succeed. -/
theorem operRestore_archive {gcrypt : Gcrypt} {md5 : Md5} {mem : Mem} {options : MainOptions}
    {archid : UInt32} {now : UInt64} {random : CheckBuffer} {archive : List SavedFs}
    (fits : options.archlabel.length < maxLabelLen) (few : archive.length ≤ maxFsPerArch)
    (begins : setup.Begins archive.length)
    (opens : setup.Opens options
      (createarWriteMainhead gcrypt md5 mem options archid .filesystems archive.length now random))
    (calm : setup.ctx.os.Calm)
    (ready : ∀ i saved, archive[i]? = some saved → Ready setup i saved) :
    ∃ filled exar, operRestore setup .restfs .init
        (.header (createarWriteMainhead gcrypt md5 mem options archid .filesystems archive.length now
          random) :: archiveItems setup.ctx.md5 (fun i => (setup.dicoargv i).isSome) archive) =
        (decide (filledErrors filled = 0), ⟨exar, callsFor setup 0 archive, filled⟩) ∧
      filled.map FilledFs.number = requestedNumbers setup 0 archive.length ∧
      ∀ i saved, archive[i]? = some saved → Restores setup i saved filled := by
  obtain ⟨cost, read⟩ := readHeaders_archive fits few begins opens .init
    (contentsFrom setup.ctx.md5 (fun i => (setup.dicoargv i).isSome) 0 archive)
  obtain ⟨filled, exar, ran, numbers, restores⟩ := extractFilesystems_contents calm archive 0
    (fun j saved found => by rw [Nat.zero_add]; exact ready j saved found) 0
    ⟨⟨contentsFrom setup.ctx.md5 (fun i => (setup.dicoargv i).isSome) 0 archive, [], {}, 0, []⟩, [],
      []⟩ rfl
  refine ⟨filled, exar, ?_, numbers, fun i saved found => by simpa using restores i saved found⟩
  unfold operRestore archiveItems
  rw [read]
  simp only [reduceCtorEq, ↓reduceIte]
  rw [if_pos (by simp only [mainInfo])]
  simp only [ran, Nat.zero_add, List.nil_append, Bool.true_and]

end Headers

end FsArchiver
