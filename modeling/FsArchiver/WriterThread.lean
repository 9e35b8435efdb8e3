import FsArchiver.ArchFiles

/-!
# The writer as a thread

`thread_writer_fct` runs beside the thread that walks the tree, which sees the path of the current
volume at any moment. Here the writer is a program counter with the state of `archwriter.c`, and a
step is one call of a function of `archwriter.c`. Run to its end, it does what `threadWriterFct`
does, and the volumes it has created change in one place only.
-/
namespace FsArchiver

namespace FileWriter

open Lib Lib.Failing

/-- Where the writer is. It may hold a buffer that is written once there is a volume for it. -/
inductive WriterPc where
  /-- Before `archwriter_volpath`. -/
  | volpath
  /-- Before `archwriter_create`. -/
  | create (wb : Option (List UInt8))
  /-- Before `archwriter_write_volheader`. -/
  | volheader (wb : Option (List UInt8))
  /-- Before the next item. -/
  | loop
  /-- In `archwriter_split_if_necessary`. -/
  | split (wb : List UInt8)
  /-- The volume is full: before `archwriter_write_volfooter`. -/
  | volfooter (wb : List UInt8)
  /-- Before `archwriter_close` and `archwriter_incvolume`. -/
  | incvolume (wb : List UInt8)
  /-- Before `archwriter_write_buffer`. -/
  | write (wb : List UInt8)
  /-- The thread has ended. -/
  | ended

/-- The writer. -/
structure WriterThread where
  pc : WriterPc
  /-- What `queue_dequeue_first` is going to give. -/
  items : List (Option QueueData)
  /-- `s_archwriter` and the files. -/
  ai : FileWriter

namespace WriterThread

variable {kernel : Kernel} {options : WriterOptions}

/-- The first half of `archwriter_dowrite_block` and `archwriter_dowrite_header`. -/
def itemBuffer (kernel : Kernel) (item : QueueData) : Writing (List UInt8) := do
  allocate kernel
  let ai ← get
  match item with
  | .block blkinfo => ofOption (writebufAddBlock [] blkinfo ai.archid blkinfo.blkfsid)
  | .header headinfo =>
    ofOption (writebufAddHeader [] headinfo.dico headinfo.magic ai.archid headinfo.fsid)

/-- A call, and where the writer goes on. An error closes the volume and ends the thread. -/
def proceed {α : Type} (writer : WriterThread) (prog : Writing α) (onward : α → WriterPc) :
    WriterThread :=
  match prog writer.ai with
  | (some value, ai) => { writer with ai, pc := onward value }
  | (none, ai) => { writer with ai := ai.archwriterClose, pc := .ended }

/-- One call of the writer. -/
def step (kernel : Kernel) (options : WriterOptions) (writer : WriterThread) :
    Option WriterThread :=
  match writer.pc with
  | .volpath => some (writer.proceed (archwriterVolpath kernel) fun _ => .create none)
  | .create wb => some (writer.proceed (archwriterCreate kernel options) fun _ => .volheader wb)
  | .volheader wb => some (writer.proceed (archwriterWriteVolheader kernel) fun _ =>
      match wb with
      | some wb => .write wb
      | none => .loop)
  | .loop =>
    match writer.items with
    | [] => some (writer.proceed (do archwriterWriteVolfooter kernel true; modify archwriterClose)
        fun _ => .ended)
    | none :: _ => some (writer.proceed (fail : Writing Unit) fun _ => .ended)
    | some item :: items => some ({ writer with items }.proceed (itemBuffer kernel item) .split)
  | .split wb =>
    some { writer with
      pc := if writer.ai.archwriterSplitCheck options wb then .volfooter wb else .write wb }
  | .volfooter wb =>
    some (writer.proceed (archwriterWriteVolfooter kernel false) fun _ => .incvolume wb)
  | .incvolume wb => some (writer.proceed (do modify archwriterClose; archwriterIncvolume kernel)
      fun _ => .create (some wb))
  | .write wb => some (writer.proceed (archwriterWriteBuffer kernel wb) fun _ => .loop)
  | .ended => none

/-! ## The outcome -/

/-- What is left to do at the top of the loop. -/
def loopRest (kernel : Kernel) (options : WriterOptions) (items : List (Option QueueData)) :
    Writing Unit := do
  writeItems kernel options items
  archwriterWriteVolfooter kernel true

/-- What is left to do once there is a volume for the buffer, if there is a buffer. -/
def writeRest (kernel : Kernel) (options : WriterOptions) (items : List (Option QueueData)) :
    Option (List UInt8) → Writing Unit
  | none => loopRest kernel options items
  | some wb => do
    archwriterWriteBuffer kernel wb
    loopRest kernel options items

/-- What is left to do before the volume is created. -/
def createRest (kernel : Kernel) (options : WriterOptions) (items : List (Option QueueData))
    (wb : Option (List UInt8)) : Writing Unit := do
  archwriterCreate kernel options
  archwriterWriteVolheader kernel
  writeRest kernel options items wb

/-- What is left to do. -/
def rest (kernel : Kernel) (options : WriterOptions) (items : List (Option QueueData)) :
    WriterPc → Writing Unit
  | .volpath => do
    archwriterVolpath kernel
    createRest kernel options items none
  | .create wb => createRest kernel options items wb
  | .volheader wb => do
    archwriterWriteVolheader kernel
    writeRest kernel options items wb
  | .loop => loopRest kernel options items
  | .split wb => do
    archwriterSplitIfNecessary kernel options wb
    writeRest kernel options items (some wb)
  | .volfooter wb => do
    archwriterWriteVolfooter kernel false
    modify archwriterClose
    archwriterIncvolume kernel
    createRest kernel options items (some wb)
  | .incvolume wb => do
    modify archwriterClose
    archwriterIncvolume kernel
    createRest kernel options items (some wb)
  | .write wb => writeRest kernel options items (some wb)
  | .ended => pure ()

/-- What the thread leaves behind when it runs to its end. -/
def outcome (kernel : Kernel) (options : WriterOptions) (writer : WriterThread) : FileWriter :=
  (rest kernel options writer.items writer.pc writer.ai).2.archwriterClose

/-- A call that is the first part of what is left to do. -/
theorem outcome_proceed {α : Type} {writer : WriterThread} {prog : Writing α}
    {onward : α → WriterPc} {items : List (Option QueueData)} {pc : WriterPc}
    (first : rest kernel options items pc =
      prog >>= fun value => rest kernel options writer.items (onward value)) :
    (writer.proceed prog onward).outcome kernel options =
      outcome kernel options ⟨pc, items, writer.ai⟩ := by
  unfold outcome proceed
  rw [first]
  cases ran : prog writer.ai with
  | mk value ai =>
    cases value with
    | none =>
      rw [bind_run_none ran]
      rfl
    | some value => rw [bind_run_of ran]

/-- The last calls of a thread without errors. -/
theorem proceed_last (ai : FileWriter) (pc : WriterPc) (items : List (Option QueueData)) :
    (⟨pc, items, ai⟩ : WriterThread).proceed
      (do archwriterWriteVolfooter kernel true; modify archwriterClose) (fun _ => .ended) =
      ⟨.ended, items, (archwriterWriteVolfooter kernel true ai).2.archwriterClose⟩ := by
  unfold proceed
  cases ran : archwriterWriteVolfooter kernel true ai with
  | mk value ai' =>
    cases value with
    | none => rw [bind_run_none ran]
    | some value =>
      rw [bind_run_of ran]
      rfl

/-- A call changes what the thread has done, and not what it leaves behind in the end. -/
theorem outcome_step {writer next : WriterThread} (step : writer.step kernel options = some next) :
    next.outcome kernel options = writer.outcome kernel options := by
  obtain ⟨pc, items, ai⟩ := writer
  unfold WriterThread.step at step
  cases pc with
  | ended => cases step
  | volpath | create wb | volfooter wb | write wb =>
    obtain rfl := Option.some.inj step
    exact outcome_proceed rfl
  | volheader wb =>
    obtain rfl := Option.some.inj step
    apply outcome_proceed
    cases wb with
    | none => rfl
    | some wb => rfl
  | incvolume wb =>
    obtain rfl := Option.some.inj step
    apply outcome_proceed
    rw [bind_bind]
    rfl
  | split wb =>
    obtain rfl := Option.some.inj step
    unfold outcome
    by_cases full : ai.archwriterSplitCheck options wb = true
    · simp only [full, ↓reduceIte, rest, archwriterSplitIfNecessary, bind_bind, get_bind_run]
      rfl
    · simp only [full, rest, archwriterSplitIfNecessary, bind_bind, get_bind_run]
      rfl
  | loop =>
    cases items with
    | nil =>
      obtain rfl := Option.some.inj step
      rw [proceed_last]
      rfl
    | cons item items =>
      cases item with
      | none =>
        obtain rfl := Option.some.inj step
        rfl
      | some item =>
        obtain rfl := Option.some.inj step
        apply outcome_proceed
        cases item with
        | block blkinfo =>
          simp only [rest, loopRest, writeItems, archwriterDowriteBlock, itemBuffer, bind_bind]
          rfl
        | header headinfo =>
          simp only [rest, loopRest, writeItems, archwriterDowriteHeader, itemBuffer, bind_bind]
          rfl

/-! ## The volumes -/

/-- The writer creates a volume next. -/
def Creates (kernel : Kernel) (options : WriterOptions) (writer : WriterThread) : Prop :=
  (∃ wb, writer.pc = .create wb) ∧ (archwriterCreate kernel options writer.ai).1 = some ()

section Volumes

variable {volumes : List Nat}

theorem nextCall_created : Keeps (fun ai => ai.created = volumes) nextCall :=
  keeps_get_bind fun _ same => same

theorem allocate_created : Keeps (fun ai => ai.created = volumes) (allocate kernel) :=
  nextCall_created.bind fun _ => keeps_ite (fun _ => keeps_pure ()) fun _ => keeps_fail

theorem archwriterVolpath_created :
    Keeps (fun ai => ai.created = volumes) (archwriterVolpath kernel) :=
  nextCall_created.bind fun _ => keeps_get fun _ =>
    (keeps_ofOption _).bind fun _ => keeps_modify fun _ same => same

theorem archwriterWriteBuffer_created (wb : List UInt8) :
    Keeps (fun ai => ai.created = volumes) (archwriterWriteBuffer kernel wb) := by
  refine keeps_ite (fun _ => keeps_fail) fun _ => nextCall_created.bind fun call =>
    keeps_get fun ai => (keeps_ofOption _).bind fun inode => ?_
  refine Keeps.bind (keeps_modify fun _ same => same) fun _ => ?_
  exact keeps_ite (fun _ => keeps_pure ()) fun _ => keeps_fail

theorem archwriterClose_created :
    Keeps (fun ai => ai.created = volumes) (modify archwriterClose) :=
  keeps_modify fun _ same => same

theorem archwriterIncvolume_created :
    Keeps (fun ai => ai.created = volumes) (archwriterIncvolume kernel) :=
  Keeps.bind (keeps_modify fun _ same => same) fun _ => archwriterVolpath_created.attempt

theorem archwriterWriteVolheader_created :
    Keeps (fun ai => ai.created = volumes) (archwriterWriteVolheader kernel) :=
  allocate_created.bind fun _ => keeps_get fun _ =>
    (keeps_ofOption _).bind archwriterWriteBuffer_created

theorem archwriterWriteVolfooter_created (lastvol : Bool) :
    Keeps (fun ai => ai.created = volumes) (archwriterWriteVolfooter kernel lastvol) :=
  allocate_created.bind fun _ => keeps_get fun _ =>
    (keeps_ofOption _).bind archwriterWriteBuffer_created

theorem itemBuffer_created (item : QueueData) :
    Keeps (fun ai => ai.created = volumes) (itemBuffer kernel item) := by
  refine allocate_created.bind fun _ => keeps_get fun _ => ?_
  cases item with
  | block blkinfo => exact keeps_ofOption _
  | header headinfo => exact keeps_ofOption _

theorem created_proceed {α : Type} (writer : WriterThread) (prog : Writing α)
    (onward : α → WriterPc) :
    (writer.proceed prog onward).ai.created = (prog writer.ai).2.created := by
  unfold proceed
  cases prog writer.ai with
  | mk value ai =>
    cases value with
    | none => rfl
    | some value => rfl

theorem proceed_created {α : Type} {prog : Writing α} {writer : WriterThread}
    (keeps : Keeps (fun ai => ai.created = writer.ai.created) prog) (onward : α → WriterPc) :
    (writer.proceed prog onward).ai.created = writer.ai.created :=
  (created_proceed writer prog onward).trans (keeps writer.ai rfl)

end Volumes

/-- What `archwriter_create` does to the files that have been opened. -/
theorem archwriterCreate_created (ai : FileWriter) :
    if (archwriterCreate kernel options ai).1 = some () then
      ∃ inode, kernel.loc ai.volpath = some inode ∧
        (archwriterCreate kernel options ai).2.created = ai.created ++ [inode]
    else (archwriterCreate kernel options ai).2.created = ai.created := by
  rcases archwriterCreate_cases kernel options ai with created | refused
  · rw [created, openVolume, get_bind_run]
    cases kernel.loc ai.volpath with
    | none => rfl
    | some inode =>
      rw [ofOption_some, pure_bind_run]
      by_cases opens : kernel.opens ai.calls = true
      · rw [if_pos opens, modify_run, if_pos rfl]
        exact ⟨inode, rfl, rfl⟩
      · rw [if_neg opens, fail_run]
        rfl
  · rw [refused]
    rfl

/-- A volume is created at its path. -/
theorem step_creates {writer next : WriterThread} (step : writer.step kernel options = some next)
    (creates : writer.Creates kernel options) :
    ∃ inode, kernel.loc writer.ai.volpath = some inode ∧
      next.ai.created = writer.ai.created ++ [inode] := by
  obtain ⟨pc, items, ai⟩ := writer
  obtain ⟨⟨wb, rfl⟩, opens⟩ := creates
  obtain rfl := Option.some.inj step
  have opened := @archwriterCreate_created kernel options ai
  rw [if_pos opens] at opened
  obtain ⟨inode, named, list⟩ := opened
  exact ⟨inode, named, (created_proceed _ _ _).trans list⟩

/-- Nothing else creates a volume. -/
theorem step_created {writer next : WriterThread} (step : writer.step kernel options = some next)
    (creates : ¬writer.Creates kernel options) : next.ai.created = writer.ai.created := by
  obtain ⟨pc, items, ai⟩ := writer
  cases pc with
  | ended => cases step
  | volpath =>
    obtain rfl := Option.some.inj step
    exact proceed_created archwriterVolpath_created _
  | create wb =>
    obtain rfl := Option.some.inj step
    have list := @archwriterCreate_created kernel options ai
    rw [if_neg fun opens => creates ⟨⟨wb, rfl⟩, opens⟩] at list
    exact (created_proceed _ _ _).trans list
  | volheader wb =>
    obtain rfl := Option.some.inj step
    exact proceed_created archwriterWriteVolheader_created _
  | split wb =>
    obtain rfl := Option.some.inj step
    rfl
  | volfooter wb =>
    obtain rfl := Option.some.inj step
    exact proceed_created (archwriterWriteVolfooter_created false) _
  | incvolume wb =>
    obtain rfl := Option.some.inj step
    exact proceed_created (archwriterClose_created.bind fun _ => archwriterIncvolume_created) _
  | write wb =>
    obtain rfl := Option.some.inj step
    exact proceed_created (archwriterWriteBuffer_created wb) _
  | loop =>
    cases items with
    | nil =>
      obtain rfl := Option.some.inj step
      exact proceed_created ((archwriterWriteVolfooter_created true).bind
        fun _ => archwriterClose_created) _
    | cons item items =>
      cases item with
      | none =>
        obtain rfl := Option.some.inj step
        rfl
      | some item =>
        obtain rfl := Option.some.inj step
        exact proceed_created (itemBuffer_created item) _

end WriterThread

end FileWriter

end FsArchiver
