import FsArchiver.ArchFiles
import FsArchiver.VolumeSizes

/-!
# The files are the volumes

When no call fails and the paths of the volumes are free, the files that `thread_writer_fct`
leaves hold the volumes of the writer that knows nothing of files: its functions are simulated
one by one.
-/
namespace FsArchiver

open Lib

namespace FileWriter

open Failing

/-- No call fails, and there is no archive yet. -/
structure Works (kernel : Kernel) : Prop where
  /-- Files are found. -/
  stats : ∀ call, kernel.stats call = true
  /-- Files can be created. -/
  opens : ∀ call, kernel.opens call = true
  /-- Buffers are written as a whole. -/
  stops : ∀ call, kernel.stops call = none
  /-- There is memory. -/
  allocates : ∀ call, kernel.allocates call = true
  /-- `realpath` finds nothing. -/
  realpath : ∀ call path, kernel.realpath call path = none

/-- The paths of the volumes up to a number name different inodes. -/
structure Layout (kernel : Kernel) (basepath : Path) (limit : Nat) (inode : Nat → Nat) : Prop where
  /-- What each path names. -/
  loc : ∀ number ≤ limit, ∃ path,
    getPathToVolume none basepath (UInt32.ofNat number) = some path ∧
      kernel.loc path = some (inode number)
  /-- They are different. -/
  apart : ∀ number ≤ limit, ∀ other ≤ limit, inode number = inode other → number = other

/-- The files hold the closed volumes and the open one. -/
structure Mirrors (basepath : Path) (limit : Nat) (inode : Nat → Nat) (fw : FileWriter)
    (ai : ArchWriter) : Prop where
  /-- The archive id. -/
  id : fw.archid = ai.archid
  /-- The path of the archive. -/
  base : fw.basepath = basepath
  /-- The number of the volume. -/
  vol : fw.curvol = ai.curvol
  /-- It counts the closed volumes. -/
  number : ai.curvol = UInt32.ofNat ai.closed.length
  /-- The limit is not passed. -/
  bound : ai.closed.length ≤ limit
  /-- The file of the volume is open. -/
  opened : fw.archfd = some (inode ai.closed.length)
  /-- What it holds. -/
  current : fw.disk (inode ai.closed.length) = some (.regular ai.current)
  /-- What the files of the closed volumes hold. -/
  closed : ∀ number (inside : number < ai.closed.length),
    fw.disk (inode number) = some (.regular ai.closed[number])
  /-- The other volumes do not exist. -/
  free : ∀ number ≤ limit, ai.closed.length < number → fw.disk (inode number) = none

variable {kernel : Kernel} {basepath : Path} {limit splitsize : Nat} {inode : Nat → Nat}

/-! ## Single functions -/

theorem nextCall_run (fw : FileWriter) :
    nextCall fw = (some fw.calls, { fw with calls := fw.calls + 1 }) := rfl

theorem allocate_run (works : Works kernel) (fw : FileWriter) :
    allocate kernel fw = (some (), { fw with calls := fw.calls + 1 }) := by
  rw [allocate, bind_run_of (nextCall_run fw), works.allocates]
  rfl

theorem archwriterWriteBuffer_run (works : Works kernel) {fw : FileWriter} {file : Nat}
    (opened : fw.archfd = some file) {wb : List UInt8} (nonempty : ¬wb.length = 0) :
    archwriterWriteBuffer kernel wb fw =
      (some (), { fw with calls := fw.calls + 1, disk := appendTo fw.disk file wb }) := by
  rw [archwriterWriteBuffer, if_neg nonempty, bind_run_of (nextCall_run fw), get_bind_run, opened,
    ofOption_some, pure_bind_run, works.stops, Option.getD_none, List.take_length, if_pos rfl]
  rfl

theorem allocate_simulates (works : Works kernel) :
    Simulates (Mirrors basepath limit inode) (allocate kernel) some := by
  intro fw ai ai' mirrors same
  cases same
  exact ⟨(), _, allocate_run works fw, mirrors.id, mirrors.base, mirrors.vol, mirrors.number,
    mirrors.bound, mirrors.opened, mirrors.current, mirrors.closed, mirrors.free⟩

theorem archwriterWriteBuffer_simulates (works : Works kernel)
    (layout : Layout kernel basepath limit inode) (wb : List UInt8) :
    Simulates (Mirrors basepath limit inode) (archwriterWriteBuffer kernel wb)
      fun ai => FsArchiver.archwriterWriteBuffer ai wb := by
  intro fw ai ai' mirrors written
  have nonempty : ¬wb.length = 0 := by
    intro empty
    simp [FsArchiver.archwriterWriteBuffer, empty] at written
  rw [archwriterWriteBuffer_some written]
  have others : ∀ number ≤ limit, number ≠ ai.closed.length →
      appendTo fw.disk (inode ai.closed.length) wb (inode number) = fw.disk (inode number) := by
    intro number inside different
    refine Function.update_of_ne (fun same => different ?_) ..
    exact layout.apart number inside _ mirrors.bound same
  refine ⟨(), _, archwriterWriteBuffer_run works mirrors.opened nonempty, ?_⟩
  exact
    { id := mirrors.id
      base := mirrors.base
      vol := mirrors.vol
      number := mirrors.number
      bound := mirrors.bound
      opened := mirrors.opened
      current := by simp [appendTo, mirrors.current]
      closed := fun number (before : number < ai.closed.length) => by
        have bound := mirrors.bound
        rw [← mirrors.closed number before]
        exact others number (by omega) (by omega)
      free := fun number inside (beyond : ai.closed.length < number) => by
        rw [← mirrors.free number inside beyond]
        exact others number inside (by omega) }

/-- A record with a header is allocated, filled from the current volume and written. -/
theorem archwriterWriteVolheader_simulates (works : Works kernel)
    (layout : Layout kernel basepath limit inode) :
    Simulates (Mirrors basepath limit inode) (archwriterWriteVolheader kernel)
      FsArchiver.archwriterWriteVolheader := by
  refine (allocate_simulates works).silent_bind fun _ => ?_
  intro fw ai ai' mirrors written
  rw [get_bind_run, mirrors.vol, mirrors.id, writebufAddHeader_eq [] (fits_volheader ..),
    ofOption_some, pure_bind_run]
  simp only [FsArchiver.archwriterWriteVolheader, writebufAddHeader_eq [] (fits_volheader ..),
    Option.bind_eq_bind, Option.bind_some] at written
  exact archwriterWriteBuffer_simulates works layout _ fw ai ai' mirrors written

theorem archwriterWriteVolfooter_simulates (works : Works kernel)
    (layout : Layout kernel basepath limit inode) (lastvol : Bool) :
    Simulates (Mirrors basepath limit inode) (archwriterWriteVolfooter kernel lastvol)
      (FsArchiver.archwriterWriteVolfooter · lastvol) := by
  refine (allocate_simulates works).silent_bind fun _ => ?_
  intro fw ai ai' mirrors written
  rw [get_bind_run, mirrors.vol, mirrors.id, writebufAddHeader_eq [] (fits_volfooter ..),
    ofOption_some, pure_bind_run]
  simp only [FsArchiver.archwriterWriteVolfooter, writebufAddHeader_eq [] (fits_volfooter ..),
    Option.bind_eq_bind, Option.bind_some] at written
  exact archwriterWriteBuffer_simulates works layout _ fw ai ai' mirrors written

/-! ## The next volume -/

/-- The path of a volume is computed. -/
theorem archwriterVolpath_run (works : Works kernel) (fw : FileWriter) {path : Path}
    (found : getPathToVolume none fw.basepath fw.curvol = some path) :
    archwriterVolpath kernel fw = (some (), { fw with calls := fw.calls + 1, volpath := path }) := by
  rw [archwriterVolpath, bind_run_of (nextCall_run fw), get_bind_run, works.realpath]
  simp only [found, ofOption_some, pure_bind_run]
  rfl

/-- The number goes up, and with it the path changes. -/
theorem archwriterIncvolume_run (works : Works kernel) (fw : FileWriter) {path : Path}
    (found : getPathToVolume none fw.basepath (fw.curvol + 1) = some path) :
    archwriterIncvolume kernel fw = (some (),
      { fw with curvol := fw.curvol + 1, calls := fw.calls + 1, volpath := path }) := by
  have ran := archwriterVolpath_run works { fw with curvol := fw.curvol + 1 } found
  rw [archwriterIncvolume, bind_run_of (modify_run _ fw), attempt, ran]

/-- A volume whose file does not exist is created. -/
theorem archwriterCreate_run (works : Works kernel) (options : WriterOptions) (fw : FileWriter)
    {file : Nat} (named : kernel.loc fw.volpath = some file) (free : fw.disk file = none) :
    archwriterCreate kernel options fw = (some (),
      { fw with
        calls := fw.calls + 1, disk := Function.update fw.disk file (some (.regular []))
        archfd := some file, newarch := true, vollist := strlistAdd true fw.vollist fw.volpath
        created := fw.created ++ [file] }) := by
  rw [archwriterCreate, bind_run_of (nextCall_run fw), get_bind_run]
  simp only [Kernel.stat64, works.stats, named, Option.bind_some, free, openVolume, get_bind_run,
    ofOption_some, pure_bind_run, works.opens, works.allocates, ↓reduceIte, modify_run, open64]

/-- A volume is closed and the next one is created. -/
theorem nextVolume_run (works : Works kernel) (layout : Layout kernel basepath limit inode)
    (options : WriterOptions) {fw : FileWriter} {ai : ArchWriter}
    (mirrors : Mirrors basepath limit inode fw ai) (more : ai.closed.length < limit)
    (next : Writing Unit) :
    ∃ fw', (modify archwriterClose >>= fun _ => archwriterIncvolume kernel >>= fun _ =>
        archwriterCreate kernel options >>= fun _ => next) fw = next fw' ∧
      Mirrors basepath limit inode fw' ai.nextVolume := by
  obtain ⟨path, volume, named⟩ := layout.loc (ai.closed.length + 1) more
  have number : fw.curvol + 1 = UInt32.ofNat (ai.closed.length + 1) := by
    rw [mirrors.vol, mirrors.number, UInt32.ofNat_add]
    rfl
  have found : getPathToVolume none fw.basepath (fw.curvol + 1) = some path := by
    rw [mirrors.base, number, volume]
  have incremented := archwriterIncvolume_run works fw.archwriterClose found
  have free := mirrors.free (ai.closed.length + 1) more (by omega)
  have created := archwriterCreate_run works options
    { fw.archwriterClose with
      curvol := fw.archwriterClose.curvol + 1, calls := fw.archwriterClose.calls + 1
      volpath := path } named free
  have others : ∀ other ≤ limit, other ≠ ai.closed.length + 1 →
      Function.update fw.disk (inode (ai.closed.length + 1)) (some (.regular [])) (inode other) =
        fw.disk (inode other) := by
    intro other inside different
    exact Function.update_of_ne (fun same => different (layout.apart other inside _ more same)) ..
  refine ⟨{ fw with
    archfd := some (inode (ai.closed.length + 1)), curvol := fw.curvol + 1
    calls := fw.calls + 1 + 1, volpath := path, newarch := true
    vollist := strlistAdd true fw.vollist path
    created := fw.created ++ [inode (ai.closed.length + 1)]
    disk := Function.update fw.disk (inode (ai.closed.length + 1)) (some (.regular [])) }, ?_, ?_⟩
  · rw [bind_run_of (modify_run archwriterClose fw), bind_run_of incremented, bind_run_of created]
    rfl
  · exact
      { id := mirrors.id
        base := mirrors.base
        vol := by simp only [ArchWriter.nextVolume, mirrors.vol]
        number := by
          rw [ArchWriter.nextVolume, List.length_append, ← mirrors.vol, number]
          rfl
        bound := by
          rw [ArchWriter.nextVolume, List.length_append, List.length_singleton]
          omega
        opened := by simp [ArchWriter.nextVolume]
        current := by simp [ArchWriter.nextVolume]
        closed := fun other inside => by
          simp only [ArchWriter.nextVolume, List.length_append, List.length_cons,
            List.length_nil] at inside
          simp only [ArchWriter.nextVolume]
          rw [others other (by omega) (by omega)]
          by_cases before : other < ai.closed.length
          · rw [List.getElem_append_left before]
            exact mirrors.closed other before
          · have last : other = ai.closed.length := by omega
            subst last
            simp [mirrors.current]
        free := fun other inside beyond => by
          simp only [ArchWriter.nextVolume, List.length_append, List.length_cons,
            List.length_nil] at beyond
          rw [← mirrors.free other inside (by omega)]
          exact others other inside (by omega) }

/-- What is behind a record in the same volume. -/
theorem archwriterSplitCheck_eq {fw : FileWriter} {ai : ArchWriter}
    (mirrors : Mirrors basepath limit inode fw ai) (options : WriterOptions) (wb : List UInt8) :
    fw.archwriterSplitCheck options wb =
      FsArchiver.archwriterSplitCheck options.splitsize ai wb := by
  simp only [archwriterSplitCheck, archwriterGetCurrentpos, mirrors.opened, Option.bind_some,
    mirrors.current, FsArchiver.archwriterSplitCheck]

/-- A volume is changed in front of a record that does not fit. -/
theorem archwriterSplitIfNecessary_simulates (works : Works kernel)
    (layout : Layout kernel basepath limit inode) (options : WriterOptions) (wb : List UInt8)
    {fw : FileWriter} {ai ai' : ArchWriter} (mirrors : Mirrors basepath limit inode fw ai)
    (more : ai.closed.length < limit)
    (split : FsArchiver.archwriterSplitIfNecessary options.splitsize ai wb = some ai') :
    ∃ fw', archwriterSplitIfNecessary kernel options wb fw = (some (), fw') ∧
      Mirrors basepath limit inode fw' ai' := by
  rw [archwriterSplitIfNecessary, get_bind_run, archwriterSplitCheck_eq mirrors]
  unfold FsArchiver.archwriterSplitIfNecessary at split
  by_cases full : FsArchiver.archwriterSplitCheck options.splitsize ai wb = true
  · rw [if_pos full] at split ⊢
    rw [Option.bind_eq_bind, Option.bind_eq_some_iff] at split
    obtain ⟨between, footer, header⟩ := split
    obtain ⟨_, fw₁, ran₁, mirrors₁⟩ :=
      archwriterWriteVolfooter_simulates works layout false fw ai between mirrors footer
    have same : between.closed = ai.closed := by
      rw [archwriterWriteVolfooter_eq] at footer
      cases footer
      rfl
    obtain ⟨fw₂, ran₂, mirrors₂⟩ := nextVolume_run works layout options mirrors₁
      (same ▸ more) (archwriterWriteVolheader kernel)
    obtain ⟨_, fw₃, ran₃, mirrors₃⟩ :=
      archwriterWriteVolheader_simulates works layout fw₂ between.nextVolume ai' mirrors₂ header
    exact ⟨fw₃, by rw [bind_run_of ran₁, ran₂, ran₃], mirrors₃⟩
  · rw [if_neg full] at split ⊢
    cases split
    exact ⟨fw, rfl, mirrors⟩

/-! ## Items and archives -/

/-- An item is written with its record. -/
theorem writeItem_simulates (works : Works kernel) (layout : Layout kernel basepath limit inode)
    (options : WriterOptions) {item : QueueData} (rest : List (Option QueueData))
    {fw : FileWriter} {ai ai' : ArchWriter} (mirrors : Mirrors basepath limit inode fw ai)
    (more : ai.closed.length < limit)
    (written : writeItem options.splitsize ai item = some ai') :
    ∃ fw', writeItems kernel options (some item :: rest) fw = writeItems kernel options rest fw' ∧
      Mirrors basepath limit inode fw' ai' := by
  rw [writeItem_record] at written
  obtain ⟨wb, record, written⟩ := Option.bind_eq_some_iff.mp written
  obtain ⟨between, split, written⟩ := Option.bind_eq_some_iff.mp written
  obtain ⟨_, fw₁, ran₁, mirrors₁⟩ := allocate_simulates works fw ai ai mirrors rfl
  obtain ⟨fw₂, ran₂, mirrors₂⟩ :=
    archwriterSplitIfNecessary_simulates works layout options wb mirrors₁ more split
  obtain ⟨_, fw₃, ran₃, mirrors₃⟩ :=
    archwriterWriteBuffer_simulates works layout wb fw₂ between ai' mirrors₂ written
  refine ⟨fw₃, ?_, mirrors₃⟩
  cases item with
  | block blkinfo =>
    have filled : writebufAddBlock [] blkinfo fw₁.archid blkinfo.blkfsid = some wb := by
      rw [mirrors₁.id]
      exact record
    have ran : archwriterDowriteBlock kernel options blkinfo fw = (some (), fw₃) := by
      rw [archwriterDowriteBlock, bind_run_of ran₁, get_bind_run, filled, ofOption_some,
        pure_bind_run, bind_run_of ran₂, ran₃]
    rw [writeItems, bind_run_of ran]
  | header headinfo =>
    have filled : writebufAddHeader [] headinfo.dico headinfo.magic fw₁.archid headinfo.fsid =
        some wb := by
      rw [mirrors₁.id]
      exact record
    have ran : archwriterDowriteHeader kernel options headinfo fw = (some (), fw₃) := by
      rw [archwriterDowriteHeader, bind_run_of ran₁, get_bind_run, filled, ofOption_some,
        pure_bind_run, bind_run_of ran₂, ran₃]
    rw [writeItems, bind_run_of ran]

/-- The items of a whole archive are written. -/
theorem writeItems_simulates (works : Works kernel) (layout : Layout kernel basepath limit inode)
    (options : WriterOptions) (items : List QueueData) {fw : FileWriter} {ai ai' : ArchWriter}
    (mirrors : Mirrors basepath limit inode fw ai)
    (more : ai.closed.length + items.length ≤ limit)
    (written : items.foldlM (writeItem options.splitsize) ai = some ai') :
    ∃ fw', writeItems kernel options (items.map some) fw = (some (), fw') ∧
      Mirrors basepath limit inode fw' ai' := by
  induction items generalizing fw ai with
  | nil =>
    cases written
    exact ⟨fw, rfl, mirrors⟩
  | cons item items ih =>
    rw [List.foldlM_cons, Option.bind_eq_bind, Option.bind_eq_some_iff] at written
    obtain ⟨between, first, rest⟩ := written
    rw [List.length_cons] at more
    obtain ⟨fw', ran, mirrors'⟩ :=
      writeItem_simulates works layout options (items.map some) mirrors (by omega) first
    have closed : between.closed.length ≤ ai.closed.length + 1 := by
      have sizes := (writeItem_sizes first).2
      split at sizes
      · obtain ⟨volume, grown, _⟩ := sizes
        simp [grown]
      · simp [sizes.1]
    obtain ⟨last, ran', mirrors''⟩ := ih mirrors' (by omega) rest
    exact ⟨last, by rw [List.map_cons, ran, ran'], mirrors''⟩

/-- The first volume is created. -/
theorem firstVolume_run (works : Works kernel) (options : WriterOptions) {disk : Disk}
    (layout : Layout kernel basepath limit inode)
    (free : ∀ number ≤ limit, disk (inode number) = none) (archid : UInt32)
    (next : Writing Unit) :
    ∃ fw, (archwriterVolpath kernel >>= fun _ => archwriterCreate kernel options >>= fun _ => next)
        (archwriterInit archid basepath disk) = next fw ∧
      Mirrors basepath limit inode fw { archid, curvol := 0, closed := [], current := [] } := by
  obtain ⟨path, volume, named⟩ := layout.loc 0 (Nat.zero_le limit)
  have found := archwriterVolpath_run works (archwriterInit archid basepath disk) volume
  have absent := free 0 (Nat.zero_le limit)
  have created := archwriterCreate_run works options
    { archwriterInit archid basepath disk with calls := 0 + 1, volpath := path } named absent
  refine ⟨{ archwriterInit archid basepath disk with
    archfd := some (inode 0), calls := 0 + 1 + 1, volpath := path, newarch := true
    vollist := strlistAdd true [] path, created := [inode 0]
    disk := Function.update disk (inode 0) (some (.regular [])) }, ?_, ?_⟩
  · rw [bind_run_of found]
    exact bind_run_of created
  · exact
      { id := rfl
        base := rfl
        vol := rfl
        number := rfl
        bound := Nat.zero_le limit
        opened := rfl
        current := Function.update_self ..
        closed := fun _ inside => absurd inside (Nat.not_lt_zero _)
        free := fun number inside (beyond : 0 < number) => by
          have different : inode number ≠ inode 0 := fun same =>
            Nat.ne_of_gt beyond (layout.apart number inside 0 (Nat.zero_le limit) same)
          rw [← free number inside]
          exact Function.update_of_ne different .. }

/-- When nothing fails and the paths of the volumes are free, the files that `thread_writer_fct`
leaves at these paths are the volumes. -/
theorem files_are_volumes (works : Works kernel) (options : WriterOptions)
    {items : List QueueData} {disk : Disk} (layout : Layout kernel basepath items.length inode)
    (free : ∀ number ≤ items.length, disk (inode number) = none) {archid : UInt32}
    {volumes : List (List UInt8)}
    (written : FsArchiver.threadWriterFct options.splitsize archid items = some volumes) :
    ∀ number (inside : number < volumes.length),
      (threadWriterFct kernel options (items.map some) (archwriterInit archid basepath disk)).disk
        (inode number) = some (.regular volumes[number]) := by
  unfold FsArchiver.threadWriterFct at written
  obtain ⟨ai₁, header, written⟩ := Option.bind_eq_some_iff.mp written
  obtain ⟨ai₂, all, written⟩ := Option.bind_eq_some_iff.mp written
  obtain ⟨ai₃, footer, written⟩ := Option.bind_eq_some_iff.mp written
  cases written
  obtain ⟨fw₀, ran₀, mirrors₀⟩ := firstVolume_run works options layout free archid
    (archwriterWriteVolheader kernel >>= fun _ => writeItems kernel options (items.map some) >>=
      fun _ => archwriterWriteVolfooter kernel true)
  obtain ⟨_, fw₁, ran₁, mirrors₁⟩ :=
    archwriterWriteVolheader_simulates works layout fw₀ _ ai₁ mirrors₀ header
  have start : ai₁.closed = [] := by
    rw [archwriterWriteVolheader_eq] at header
    cases header
    rfl
  obtain ⟨fw₂, ran₂, mirrors₂⟩ :=
    writeItems_simulates works layout options items mirrors₁ (by simp [start]) all
  obtain ⟨_, fw₃, ran₃, mirrors₃⟩ :=
    archwriterWriteVolfooter_simulates works layout true fw₂ ai₂ ai₃ mirrors₂ footer
  have ran : writeArchive kernel options (items.map some) (archwriterInit archid basepath disk) =
      (some (), fw₃) := by
    rw [writeArchive, ran₀, bind_run_of ran₁, bind_run_of ran₂, ran₃]
  intro number inside
  rw [threadWriterFct, ran]
  by_cases before : number < ai₃.closed.length
  · rw [List.getElem_append_left before]
    exact mirrors₃.closed number before
  · have last : number = ai₃.closed.length := by
      rw [List.length_append, List.length_singleton] at inside
      omega
    subst last
    rw [List.getElem_concat_length rfl]
    exact mirrors₃.current

end FileWriter

end FsArchiver
