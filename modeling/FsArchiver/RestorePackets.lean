import FsArchiver.RestoreObjects

/-!
# Packets being restored

On a system on which nothing fails, one round of the loop of `extractar_extract_read_objects`
takes the items of one intact packet from the queue, no more and no less, whether its objects are
excluded or not. An object that is not excluded is restored, and no other object is touched.
-/
namespace FsArchiver

open Lib

variable {ctx : Context} {obj : SavedObj} {exar : Extractar} {rest : List QueueData}

/-- A round of the loop that takes items from the queue and skips none. -/
structure Round (ctx : Context) (exar exar' : Extractar) (rest : List QueueData) (made : Log) :
    Prop where
  /-- The loop goes on. -/
  step : extractStep ctx exar = (none, exar')
  /-- The queue behind the items. -/
  queue : exar'.queue = rest
  /-- The calls. -/
  log : exar'.log = exar.log ++ made
  skipped : exar'.skipped = exar.skipped
  errors : exar'.errors = exar.errors

/-- An excluded object is not touched. -/
def SavedObj.excluded (obj : SavedObj) (ctx : Context) : Bool :=
  isFiledirExcluded ctx.exclude obj.relpath

/-- What the counters make of an object. An excluded regular file is not counted, but any other
excluded object counts as an error, and so may a hard link whose file is missing. -/
inductive Counts (ctx : Context) (missing : SavedObj → Prop) (stats : Stats) (obj : SavedObj) :
    Stats → Prop
  | restored (kept : obj.excluded ctx = false) : Counts ctx missing stats obj (stats.count obj.objtype)
  | skipped (out : obj.excluded ctx = true) (isRegfile : obj.objtype.isRegfile = true) :
      Counts ctx missing stats obj stats
  | refused (out : obj.excluded ctx = true) (isEntry : obj.objtype.isRegfile = false) :
      Counts ctx missing stats obj (stats.fail obj.objtype)
  | unlinked (kept : obj.excluded ctx = false) (lost : missing obj) :
      Counts ctx missing stats obj (stats.fail obj.objtype)

theorem Counts.mono {missing wider : SavedObj → Prop} {stats stats' : Stats}
    (counts : Counts ctx missing stats obj stats') (widens : missing obj → wider obj) :
    Counts ctx wider stats obj stats' := by
  cases counts with
  | restored kept => exact .restored kept
  | skipped out isRegfile => exact .skipped out isRegfile
  | refused out isEntry => exact .refused out isEntry
  | unlinked kept lost => exact .unlinked kept (widens lost)

/-- The function that restores an object was run and counts the object as restored. -/
inductive RestoredBy (ctx : Context) (obj : SavedObj) (log log' : Log) : Prop
  | entry (isEntry : obj.objtype.isRegfile = false)
      (ran : (restoreEntry ctx (obj.fullpath ctx) obj.relpath obj.d obj.objtype.code
        (makeEntry ctx (obj.fullpath ctx) obj.d obj.objtype)).run log = (true, log'))
  | file (unique : obj.objtype = .regfileunique) {queue rest : List QueueData}
      (ran : (restoreRegfileUnique ctx queue (obj.fullpath ctx) obj.d obj.objtype.code false
        obj.st.size).run log = (⟨false, false, false, rest⟩, log'))
  | small (multi : obj.objtype = .regfilemulti) {regmulti : Regmulti} {index : Nat}
      (stored : smallPath ctx regmulti index = some obj.relpath)
      (ran : (restoreSmallFile ctx ObjType.regfilemulti.code regmulti index).run log = (.restored, log'))

/-- So it is for an object that is not excluded, or a hard link whose file is missing. -/
def RestoresBy (ctx : Context) (missing : SavedObj → Prop) (log : Log) (obj : SavedObj)
    (log' : Log) : Prop :=
  obj.excluded ctx = false → ¬missing obj → RestoredBy ctx obj log log'

theorem RestoresBy.mono {missing wider : SavedObj → Prop} {log log' : Log}
    (restores : RestoresBy ctx missing log obj log') (widens : missing obj → wider obj) :
    RestoresBy ctx wider log obj log' :=
  fun kept there => restores kept fun lost => there (widens lost)

/-- The loop restores the object of a header. -/
theorem extractStep_object {exar' : Extractar} {d : Dico}
    (queue : exar.queue = objectItem ctx.fsid d :: rest)
    (restored : extractarRestoreObject ctx { exar with queue := rest } d = (true, exar')) :
    extractStep ctx exar = (none, exar') := by
  unfold extractStep
  simp only [queue, objectItem, ↓reduceIte, restored]

/-! ## Objects made of a header -/

/-- What `extractar_restore_object` does with an object made of its header. -/
theorem extractarRestoreObject_entry (wellMade : obj.WellMade)
    (isEntry : obj.objtype.isRegfile = false) (known : obj.objtype ≠ .null) (exar : Extractar) :
    extractarRestoreObject ctx exar obj.d = restoreHeaderOnly exar obj.objtype
      (restoreEntry ctx (obj.fullpath ctx) obj.relpath obj.d obj.objtype.code
        (makeEntry ctx (obj.fullpath ctx) obj.d obj.objtype)) := by
  have path := wellMade.header.readPath wellMade.short wellMade.clean ctx.mem
  have type : dicoGetU32 ctx.mem obj.d Section.stdattr ItemKey.objtype =
    some obj.objtype.code := wellMade.header.headerType ctx.mem
  have size := wellMade.header.size ctx.mem
  unfold extractarRestoreObject
  simp only [path, type, size]
  cases objtype : obj.objtype with
  | null => exact absurd objtype known
  | regfileunique | regfilemulti => rw [objtype] at isEntry; cases isEntry
  | dir | symlink | hardlink | chardev | blockdev | fifo | socket =>
    rw [ObjType.ofCode_code (by decide)]
    rfl

/-- The round for an object made of its header. -/
theorem SavedObj.round_entry (calm : ctx.os.Calm) (wellMade : obj.WellMade)
    (isEntry : obj.objtype.isRegfile = false) (known : obj.objtype ≠ .null)
    (queue : exar.queue = objectItem ctx.fsid obj.d :: rest) :
    ∃ exar' made, Round ctx exar exar' rest made ∧ Concerns made [obj.fullpath ctx] ∧
      (exar'.stats = exar.stats.count obj.objtype ∨ exar'.stats = exar.stats.fail obj.objtype) ∧
      (obj.excluded ctx = true → made = [] ∧ exar'.stats = exar.stats.fail obj.objtype) ∧
      (obj.excluded ctx = false →
        (∀ more, (∀ entry ∈ more, entry.1.filePath = none) →
          Makeable ctx (exar.log ++ more) obj.d obj.objtype) →
        obj.Restored ctx exar.log made ∧ exar'.stats = exar.stats.count obj.objtype ∧
          RestoredBy ctx obj exar.log exar'.log) := by
  let entry := restoreEntry ctx (obj.fullpath ctx) obj.relpath obj.d obj.objtype.code
    (makeEntry ctx (obj.fullpath ctx) obj.d obj.objtype)
  have about : Sys.About (obj.fullpath ctx) entry := restoreEntry_about (makeEntry_about _ _)
  obtain ⟨value, made, gives, -, -⟩ := about.gives exar.log
  have ran : entry.run exar.log = (value, exar.log ++ made) := gives
  have restored := @extractarRestoreObject_entry ctx _ wellMade isEntry known
      { exar with queue := rest }
  have whole : restoreHeaderOnly { exar with queue := rest } obj.objtype entry =
      (true, { exar with
        queue := rest, log := exar.log ++ made
        stats := if value then exar.stats.count obj.objtype else exar.stats.fail obj.objtype }) := by
    unfold restoreHeaderOnly
    simp only [ran]
  refine ⟨_, made, ⟨extractStep_object queue (restored.trans whole), rfl, rfl, rfl, rfl⟩,
    about.concerns gives, ?_, ?_, ?_⟩
  · cases value
    · exact .inr rfl
    · exact .inl rfl
  · intro excluded
    have nothing : entry.run exar.log = (false, exar.log) := by
      change isFiledirExcluded ctx.exclude obj.relpath = true at excluded
      simp only [entry, restoreEntry, excluded, ↓reduceIte, Traced.run_pure]
    rw [ran] at nothing
    obtain ⟨rfl, same⟩ := Prod.mk.inj nothing
    exact ⟨by simpa using same, rfl⟩
  · intro kept makeable
    obtain ⟨made', gives', entryMade, attributed⟩ := @restoreEntry_calm ctx (obj.fullpath ctx) _
        calm _ _ _ obj.objtype.code kept (wellMade.header.readable ctx) makeable
    have ran' : entry.run exar.log = (true, exar.log ++ made') := gives'
    rw [ran] at ran'
    obtain ⟨rfl, same⟩ := Prod.mk.inj ran'
    obtain rfl := List.append_cancel_left same
    refine ⟨⟨attributed, fun _ => entryMade, fun isRegfile => ?_⟩, rfl, .entry isEntry ran⟩
    rw [isEntry] at isRegfile
    cases isRegfile

/-! ## Large and empty files -/

/-- The blocks of a file hold its contents. -/
theorem blocksData_chunked {fsid : UInt16} {pos : Nat} {contents : List UInt8}
    {blocks : List BlockInfo} (chunked : Chunked fsid pos contents blocks) :
    blocksData blocks = contents := by
  induction chunked with
  | nil pos => rfl
  | cons nonempty small tail ih =>
    unfold blocksData at ih ⊢
    rw [List.flatMap_cons, ih]
    rfl

/-- The items of a whole file. -/
theorem items_file (md5 : Md5) {fsid : UInt16} {contents : List UInt8} {blocks : List BlockInfo}
    (chunked : Chunked fsid 0 contents blocks) (d : Dico) :
    (Packet.file d blocks).items md5 fsid = objectItem fsid d :: fileItems md5 fsid contents blocks := by
  have data := blocksData_chunked chunked
  have empty : blocks = [] ↔ contents = [] := by
    cases chunked with
    | nil pos => simp
    | cons nonempty small tail => simp [nonempty]
  simp only [Packet.items, fileItems, footerItems, data, List.cons_append]
  by_cases none : blocks = []
  · rw [if_pos none, if_pos (empty.mp none)]
  · rw [if_neg none, if_neg (mt empty.mpr none)]

/-- An intact file that is excluded: its items are taken from the queue without any call. -/
theorem restoreRegfileUnique_excluded (calm : ctx.os.Calm) {path : Path} {fsid : UInt16}
    {contents : List UInt8} {blocks : List BlockInfo} (chunked : Chunked fsid 0 contents blocks)
    {filesize : UInt64} (size : contents.length = filesize.toNat) (d : Dico) (objtype : UInt32)
    (rest : List QueueData) (log : Log) :
    Traced.Gives (restoreRegfileUnique ctx (fileItems ctx.md5 fsid contents blocks ++ rest) path d
      objtype true filesize) log ⟨false, false, true, rest⟩ [] := by
  have writing := @writeRegfile_calm ctx path calm fsid contents blocks chunked filesize size true
    (isSparse ctx.mem d) (footerItems ctx.md5 fsid contents ++ rest) log
  obtain ⟨f, shut, written⟩ := writing
  have foot := @footer_fine ctx true fsid contents filesize size rest
  unfold Traced.Gives at written ⊢
  rw [if_pos rfl, List.append_nil] at written
  rw [fileItems, List.append_assoc, List.append_nil]
  simp only [restoreRegfileUnique, Traced.run_bind, ↓reduceIte, Traced.run_pure, written,
    Bool.not_true, Bool.and_false, Bool.false_eq_true, Option.getD_some, foot]
  simp [datafileDestroy_closed shut]

/-- What `extractar_restore_object` does with a large or empty file. -/
theorem extractarRestoreObject_unique (wellMade : obj.WellMade)
    (unique : obj.objtype = .regfileunique) (exar : Extractar) :
    extractarRestoreObject ctx exar obj.d = extractarRestoreObjRegfileUnique ctx exar
      (obj.fullpath ctx) obj.relpath obj.d obj.objtype.code := by
  have path := wellMade.header.readPath wellMade.short wellMade.clean ctx.mem
  have type : dicoGetU32 ctx.mem obj.d Section.stdattr ItemKey.objtype =
    some obj.objtype.code := wellMade.header.headerType ctx.mem
  have size := wellMade.header.size ctx.mem
  unfold extractarRestoreObject
  simp only [path, type, size]
  rw [unique, ObjType.ofCode_code (by decide)]
  rfl

/-- What `extractar_restore_object` leaves behind for a large or empty file. -/
theorem extractarRestoreObject_unique_eq (wellMade : obj.WellMade)
    (unique : obj.objtype = .regfileunique) (exar : Extractar) {file : UniqueFile} {log : Log}
    (ran : (restoreRegfileUnique ctx exar.queue (obj.fullpath ctx) obj.d obj.objtype.code
      (obj.excluded ctx) obj.st.size).run exar.log = (file, log)) :
    extractarRestoreObject ctx exar obj.d = (!file.fatalerr,
      { exar with
        queue := file.queue, log
        stats := if file.excluded then exar.stats
          else if file.minorerr then exar.stats.fail .regfileunique
          else exar.stats.count .regfileunique }) :=
  (extractarRestoreObject_unique wellMade unique exar).trans
    (extractarRestoreObjRegfileUnique_eq exar (wellMade.header.size ctx.mem) ran)

/-- The round for an intact large or empty file. -/
theorem SavedObj.round_file (calm : ctx.os.Calm) (wellMade : obj.WellMade)
    (unique : obj.objtype = .regfileunique) (size : obj.contents.length = obj.st.size.toNat)
    {blocks : List BlockInfo} (chunked : Chunked ctx.fsid 0 obj.contents blocks)
    (queue : exar.queue = (Packet.file obj.d blocks).items ctx.md5 ctx.fsid ++ rest) :
    ∃ exar' made, Round ctx exar exar' rest made ∧ Concerns made [obj.fullpath ctx] ∧
      Counts ctx (fun _ => False) exar.stats obj exar'.stats ∧
      (obj.excluded ctx = true → made = []) ∧
      (obj.excluded ctx = false → obj.Restored ctx exar.log made ∧
        RestoredBy ctx obj exar.log exar'.log) := by
  have isRegfile : obj.objtype.isRegfile = true := by rw [unique]; rfl
  rw [items_file ctx.md5 chunked, List.cons_append] at queue
  cases excluded : obj.excluded ctx with
  | true =>
    have gives := @restoreRegfileUnique_excluded _ calm (obj.fullpath ctx) _ _ _ chunked _ size
        obj.d obj.objtype.code rest exar.log
    have ran : (restoreRegfileUnique ctx (fileItems ctx.md5 ctx.fsid obj.contents blocks ++ rest)
        (obj.fullpath ctx) obj.d obj.objtype.code (obj.excluded ctx) obj.st.size).run exar.log =
        (⟨false, false, true, rest⟩, exar.log) := by
      rw [excluded]
      exact gives.trans (by rw [List.append_nil])
    have restored := @extractarRestoreObject_unique_eq ctx _ wellMade unique
        { exar with queue := fileItems ctx.md5 ctx.fsid obj.contents blocks ++ rest } _ _ ran
    exact ⟨_, [], ⟨extractStep_object queue restored, rfl, (List.append_nil _).symm, rfl, rfl⟩,
      Concerns.nil _, .skipped excluded isRegfile, fun _ => rfl, fun kept => by cases kept⟩
  | false =>
    have calmly := @restoreRegfileUnique_calm _ (obj.fullpath ctx) calm _ _ _ chunked _ size _
        (wellMade.header.readable ctx) obj.objtype.code rest exar.log
    obtain ⟨made, gives, own, attributed⟩ := calmly
    have about : Sys.About (obj.fullpath ctx) (restoreRegfileUnique ctx
        (fileItems ctx.md5 ctx.fsid obj.contents blocks ++ rest) (obj.fullpath ctx) obj.d
        obj.objtype.code false obj.st.size) := restoreRegfileUnique_about _ _ _ _ _
    have concerns := about.concerns gives
    have ran : (restoreRegfileUnique ctx (fileItems ctx.md5 ctx.fsid obj.contents blocks ++ rest)
        (obj.fullpath ctx) obj.d obj.objtype.code (obj.excluded ctx) obj.st.size).run exar.log =
        (⟨false, false, false, rest⟩, exar.log ++ made) := by
      rw [excluded]
      exact gives
    have restored := @extractarRestoreObject_unique_eq ctx _ wellMade unique
        { exar with queue := fileItems ctx.md5 ctx.fsid obj.contents blocks ++ rest } _ _ ran
    have counted : Counts ctx (fun _ => False) exar.stats obj (exar.stats.count .regfileunique) :=
      unique ▸ .restored excluded
    refine ⟨_, made, ⟨extractStep_object queue restored, rfl, rfl, rfl, rfl⟩, concerns, counted,
      ?_, ?_⟩
    · exact fun out => absurd out (by decide)
    refine fun _ => ⟨⟨attributed, fun isEntry => ?_, fun _ => ?_⟩, .file unique gives⟩
    · rw [unique] at isEntry
      cases isEntry
    · exact ⟨_, _, _, chunked, own⟩

end FsArchiver
