import FsArchiver.ArchFiles
import FsArchiver.Shutdown

/-!
# The threads of a save

`oper_save` creates the compression threads and the writer thread, fills the queue, asks
`get_interrupted` a last time, closes the queue and joins the threads. The writer tells of a failure
through `g_stopfillqueue` only, and empties the queue behind it. A step is one critical section, one
access to a flag, or one piece of a thread's code between two of them.
-/
namespace FsArchiver.SaveThreads

open Lib

open FileWriter

open Shutdown (Stage)

/-! ## The threads -/

/-- What the main thread does from the creation of its threads to its last `get_interrupted`, as far
as the other threads see it. What it pushes and where it asks depends on the trees. -/
inductive Filling where
  /-- `queue_add_block` or `queue_add_header`. -/
  | add (input : Input) (next : Filling)
  /-- `get_interrupted` at the head of a loop. -/
  | poll (interrupted onward : Filling)
  /-- `goto do_create_error`. -/
  | error
  /-- The last `get_interrupted`, with so many errors counted. -/
  | last (totalerr : Nat)
  deriving DecidableEq

/-- Where the main thread stands in `oper_save`. -/
inductive MainPc where
  /-- About to create compression thread `i`, or the writer thread after the last of them. -/
  | creating (i : Nat) (fill : Filling)
  /-- About to do this. -/
  | filling (fill : Filling)
  /-- Waits in a function that adds an item. -/
  | adding (next : Filling)
  /-- In `get_interrupted`, behind `get_abort`. -/
  | polling (fill : Filling)
  /-- Behind the label `do_create_success`. -/
  | cleaning (ret : Int) (totalerr : Nat)
  /-- About to join compression thread `i`, or the writer thread after the last of them. -/
  | joining (i : Nat) (ret : Int) (totalerr : Nat)
  /-- Has returned. -/
  | returned (ret : Int)
  deriving DecidableEq

/-- Where the main thread goes with an answer of `get_interrupted`. -/
def Filling.polled : Filling → Bool → Option MainPc
  | .poll interrupted onward, answer => some (.filling (if answer then interrupted else onward))
  | .last totalerr, answer => some (.cleaning (if answer then -1 else 0) totalerr)
  | .add _ _, _ | .error, _ => none

/-- Where the writer thread stands in `thread_writer_fct`. -/
inductive WriterPc where
  /-- `pthread_create` was not called for it. -/
  | uncreated
  /-- Before its first call. -/
  | created
  /-- At the test of the `while` loop. -/
  | testing
  /-- Inside `queue_dequeue_first`. -/
  | dequeuing
  /-- Has received an item. -/
  | writing (data : QueueData)
  /-- Before the last volume footer. -/
  | footing
  /-- At the label `thread_writer_fct_error`. -/
  | failing
  /-- At the test of the loop that empties the queue. -/
  | emptying
  /-- At `queue_destroy_first_item`. -/
  | destroying
  /-- Has left the function. -/
  | ended

/-- Steps of the main thread. -/
inductive MainAct where
  /-- `pthread_create` succeeds. -/
  | create
  /-- `pthread_create` fails. -/
  | createFails
  /-- It calls a function that adds an item. -/
  | add
  /-- It wakes up in that function. -/
  | resume
  /-- `get_abort`. -/
  | getAbort
  /-- `get_stopfillqueue`. -/
  | getStopfillqueue
  /-- `goto do_create_error`. -/
  | fail
  /-- `queue_set_end_of_queue(true)`. -/
  | close
  /-- `pthread_join`; behind the last one it returns. -/
  | join
  deriving DecidableEq

/-- Steps of a compression thread. -/
inductive CompAct where
  /-- `inc_secthreads`. -/
  | start
  /-- A step in `compression_function`. -/
  | step (act : WorkerAct)
  /-- `dec_secthreads`. -/
  | leave
  deriving DecidableEq

/-- Steps of the writer thread. -/
inductive WriterAct where
  /-- The calls in front of the loop. -/
  | start
  /-- `queue_get_end_of_queue`. -/
  | test
  /-- `queue_dequeue_first` returns. -/
  | dequeue
  /-- `archwriter_dowrite_block` or `archwriter_dowrite_header`. -/
  | write
  /-- `archwriter_write_volfooter`. -/
  | foot
  /-- `set_stopfillqueue`. -/
  | stop
  /-- `queue_destroy_first_item` returns. -/
  | destroy
  deriving DecidableEq

/-- Steps of all threads, and a signal. -/
inductive Act (n : Nat) where
  | main (act : MainAct)
  | comp (w : Fin n) (act : CompAct)
  | writer (act : WriterAct)
  /-- SIGINT or SIGTERM. -/
  | signal
  deriving DecidableEq

/-- What a save is given. -/
structure Env where
  /-- The system, which decides what fails. -/
  kernel : Kernel
  options : WriterOptions
  /-- What `compress_block_generic` may do. -/
  outcome : Outcome
  archid : UInt32
  basepath : Path
  disk : Disk

/-- A save with `n` compression threads. -/
structure State (n : Nat) where
  /-- `g_queue` and what the threads hold of it. -/
  pipe : Pipe (Fin n)
  /-- `g_stopfillqueue`. -/
  stopfillqueue : Bool
  /-- A signal is pending. -/
  aborted : Bool
  /-- The compression threads. -/
  comp : Fin n → Stage
  /-- The writer thread. -/
  writer : WriterPc
  /-- `s_archwriter` and the files. -/
  ai : FileWriter
  /-- The main thread. -/
  main : MainPc
  /-- The items the writer thread has written. -/
  written : List QueueData
  /-- The last volume footer has been written. -/
  footed : Bool

variable {n : Nat}

/-- `oper_save` before it creates its threads. -/
def State.init (env : Env) (n blkmax : Nat) (fill : Filling) : State n :=
  { pipe := Pipe.init (Fin n) blkmax, stopfillqueue := false, aborted := false
    comp := fun _ => .uncreated, writer := .uncreated
    ai := archwriterInit env.archid env.basepath env.disk, main := .creating 0 fill
    written := [], footed := false }

/-- `oper_save` from `pthread_create(&thread_comp[0], …)` on, one step. -/
def nextMain (env : Env) (s : State n) : MainAct → MainPc → Option (State n)
  | .create, .creating i fill =>
    if isComp : i < n then
      some { s with
        comp := Function.update s.comp ⟨i, isComp⟩ .created
        main := .creating (i + 1) fill }
    else some { s with writer := .created, main := .filling fill }
  | .createFails, .creating _ _ => some { s with main := .cleaning (-1) 0 }
  | .add, .filling (.add input next) => (s.pipe.next (.add input)).map fun pipe =>
      { s with pipe, main := if pipe.adding.isSome then .adding next else .filling next }
  | .resume, .adding next => (s.pipe.next .resume).map fun pipe =>
      { s with pipe, main := if pipe.adding.isSome then .adding next else .filling next }
  | .getAbort, .filling fill => (fill.polled true).map fun main =>
      { s with main := if s.aborted then main else .polling fill }
  | .getStopfillqueue, .polling fill => (fill.polled s.stopfillqueue).map fun main =>
      { s with main }
  | .fail, .filling .error => some { s with main := .cleaning (-1) 0 }
  | .close, .cleaning ret totalerr => (s.pipe.next .setEnd).map fun pipe =>
      { s with pipe, main := .joining 0 ret totalerr }
  | .join, .joining i ret totalerr =>
    if isComp : i < n then
      match s.comp ⟨i, isComp⟩ with
      | .uncreated | .ended => some { s with main := .joining (i + 1) ret totalerr }
      | .created | .running => none
    else
      match s.writer with
      | .uncreated | .ended =>
        some { s with
          ai := if ret = 0 then s.ai else s.ai.archwriterRemove env.kernel
          main := .returned (if 0 < totalerr then -1 else ret) }
      | _ => none
  | _, _ => none

/-- `thread_comp_fct`, one step. -/
def nextComp (s : State n) (w : Fin n) : CompAct → Stage → Option (State n)
  | .start, .created => some { s with comp := Function.update s.comp w .running }
  | .step act, .running => (s.pipe.next (.worker w act)).map fun pipe => { s with pipe }
  | .leave, .running =>
    if s.pipe.workers w = .exited then
      some { s with comp := Function.update s.comp w .ended }
    else none
  | _, _ => none

/-- The calls in front of the loop of `thread_writer_fct`. -/
def startArchive (env : Env) : Writing Unit := do
  archwriterVolpath env.kernel
  archwriterCreate env.kernel env.options
  FileWriter.archwriterWriteVolheader env.kernel

/-- The call for an item. -/
def archwriterDowrite (env : Env) : QueueData → Writing Unit
  | .block blkinfo => FileWriter.archwriterDowriteBlock env.kernel env.options blkinfo
  | .header headinfo => FileWriter.archwriterDowriteHeader env.kernel env.options headinfo

/-- A call of the writer thread that may fail, and what follows if it does not. -/
def State.archive (s : State n) (prog : Writing Unit) (onward : FileWriter → State n) : State n :=
  match prog s.ai with
  | (some (), ai) => onward ai
  | (none, ai) => { s with ai, writer := .failing }

/-- Where the writer thread goes behind `queue_dequeue_first`. -/
def afterDequeue : Locked (Except FsaErr QueueData) → WriterPc
  | .unlock _ (.ok data) => .writing data
  | .unlock _ (.error .endoffile) => .testing
  | .unlock _ (.error _) | .wait => .failing

/-- `thread_writer_fct`, one step. -/
def nextWriter (env : Env) (s : State n) : WriterAct → WriterPc → Option (State n)
  | .start, .created => some (s.archive (startArchive env) fun ai => { s with ai, writer := .testing })
  | .test, .testing =>
    some { s with writer := if queueGetEndOfQueue s.pipe.queue then .footing else .dequeuing }
  | .dequeue, .dequeuing => (s.pipe.next (.consume .dequeueFirst)).map fun pipe =>
      { s with pipe, writer := afterDequeue (queueDequeueFirst s.pipe.queue) }
  | .write, .writing data => some (s.archive (archwriterDowrite env data) fun ai =>
      { s with ai, writer := .testing, written := s.written ++ [data] })
  | .foot, .footing => some (s.archive (FileWriter.archwriterWriteVolfooter env.kernel true) fun ai =>
      { s with ai := ai.archwriterClose, writer := .ended, footed := true })
  | .stop, .failing => some { s with stopfillqueue := true, writer := .emptying }
  | .test, .emptying =>
    some (if queueGetEndOfQueue s.pipe.queue then
      { s with ai := s.ai.archwriterClose, writer := .ended } else { s with writer := .destroying })
  | .destroy, .destroying => (s.pipe.next (.consume .destroyFirstItem)).map fun pipe =>
      { s with pipe, writer := .emptying }
  | _, _ => none

/-- The state after a step, if the step can be taken. -/
def State.next (env : Env) (s : State n) : Act n → Option (State n)
  | .main act => nextMain env s act s.main
  | .comp w act => nextComp s w act (s.comp w)
  | .writer act => nextWriter env s act s.writer
  | .signal => some { s with aborted := true }

/-- A step of a save, in which a block is processed as it may be. -/
def Step (env : Env) (s : State n) (act : Act n) (t : State n) : Prop :=
  s.next env act = some t ∧
    ∀ w result num blk, act = .comp w (.step (.process result)) →
      s.pipe.workers w = .processing num blk → env.outcome blk result

/-! ## What is said of a save -/

/-- The archive is complete: every item that was pushed has been written, compressed if it was a
block to do, and so has the last volume footer; and the files are those that the writer makes of
these items when none of its calls fails. -/
structure State.Complete (env : Env) (s : State n) : Prop where
  items : List.Forall₂ (Yields env.outcome) s.pipe.pushed s.written
  footer : s.footed = true
  files : ∃ ai, writeArchive env.kernel env.options (s.written.map some)
      (archwriterInit env.archid env.basepath env.disk) = (some (), ai) ∧
    s.ai = ai.archwriterClose

/-- The main thread has asked `get_interrupted` for the last time, and is going to return 0. -/
def MainPc.Past : MainPc → Prop
  | .cleaning ret totalerr | .joining _ ret totalerr => ret = 0 ∧ totalerr = 0
  | .returned ret => ret = 0
  | .creating _ _ | .filling _ | .adding _ | .polling _ => False

/-- The writer thread tells of a failure only while the main thread can still learn of it. -/
def Timely (s : State n) (act : Act n) : Prop := act = .writer .stop → ¬s.main.Past

/-! ## What a step can change -/

/-- The main thread will not return 0. -/
def MainPc.Failed : MainPc → Prop
  | .cleaning ret _ | .joining _ ret _ | .returned ret => ret ≠ 0
  | .creating _ _ | .filling _ | .adding _ | .polling _ => False

/-- The main thread is creating threads. -/
def MainPc.Creating : MainPc → Prop
  | .creating _ _ => True
  | _ => False

/-- The main thread has returned. -/
def MainPc.Returned : MainPc → Prop
  | .returned _ => True
  | _ => False

/-- A move of the main thread before it returns. -/
structure Moves (s : State n) (main : MainPc) : Prop where
  /-- The threads have been created, or it fails. -/
  created : main.Creating ∨ main.Failed ∨ ¬s.main.Creating ∧ (s.main.Failed → main.Failed)
  /-- Threads are created in front of everything else. -/
  fresh : main.Creating → s.main.Creating
  /-- It does not miss a failure that it can learn of. -/
  past : main.Past → s.main.Past ∨ s.stopfillqueue = false
  /-- It has not returned before, and does not do so. -/
  unreturned : ¬s.main.Returned ∧ ¬main.Returned

/-- The possible changes of the state by each step. -/
inductive Effect (env : Env) (s : State n) : Act n → State n → Prop
  /-- The main thread moves without using the queue, or a compression thread starts or ends. -/
  | comp (act : Act n) (comp : Fin n → Stage) (main : MainPc) (moves : main = s.main ∨ Moves s main)
      (other : act ≠ .writer .stop) : Effect env s act { s with comp, main }
  /-- The writer thread is created. -/
  | createWriter (fill : Filling) (place : s.main.Creating) :
      Effect env s (.main .create) { s with writer := .created, main := .filling fill }
  /-- A compression thread works, or the main thread moves and may use the queue. -/
  | work (act : Act n) (call : FsArchiver.Act (Fin n)) (pipe : Pipe (Fin n)) (main : MainPc)
      (moves : main = s.main ∨ Moves s main) (taken : Pipe.Step env.outcome s.pipe call pipe)
      (producer : ∀ call', call ≠ .consume call') (other : act ≠ .writer .stop) :
      Effect env s act { s with pipe, main }
  /-- The main thread returns. -/
  | leave (i : Nat) (ret : Int) (totalerr : Nat) (place : s.main = .joining i ret totalerr)
      (joined : s.writer = .uncreated ∨ s.writer = .ended) :
      Effect env s (.main .join)
        { s with
          ai := if ret = 0 then s.ai else s.ai.archwriterRemove env.kernel
          main := .returned (if 0 < totalerr then -1 else ret) }
  /-- A signal comes. -/
  | signal : Effect env s .signal { s with aborted := true }
  /-- A call of the writer thread fails. -/
  | fail (act : WriterAct) (ai : FileWriter) (other : act ≠ .stop)
      (place : s.writer = .created ∨ (∃ data, s.writer = .writing data) ∨ s.writer = .footing) :
      Effect env s (.writer act) { s with ai, writer := .failing }
  /-- The first volume is begun. -/
  | start (ai : FileWriter) (place : s.writer = .created)
      (ran : startArchive env s.ai = (some (), ai)) :
      Effect env s (.writer .start) { s with ai, writer := .testing }
  /-- The queue has ended. -/
  | testEnd (place : s.writer = .testing) (ended : queueGetEndOfQueue s.pipe.queue = true) :
      Effect env s (.writer .test) { s with writer := .footing }
  /-- It has not. -/
  | testMore (place : s.writer = .testing) :
      Effect env s (.writer .test) { s with writer := .dequeuing }
  /-- An item is received. -/
  | dequeue (data : QueueData) (pipe : Pipe (Fin n)) (place : s.writer = .dequeuing)
      (taken : Pipe.Step env.outcome s.pipe (.consume .dequeueFirst) pipe)
      (grown : pipe.taken = s.pipe.taken ++ [some data]) :
      Effect env s (.writer .dequeue) { s with pipe, writer := .writing data }
  /-- No item is left. -/
  | dequeueEnd (pipe : Pipe (Fin n)) (place : s.writer = .dequeuing)
      (taken : Pipe.Step env.outcome s.pipe (.consume .dequeueFirst) pipe)
      (same : pipe.taken = s.pipe.taken) :
      Effect env s (.writer .dequeue) { s with pipe, writer := .testing }
  /-- An item is written. -/
  | write (data : QueueData) (ai : FileWriter) (place : s.writer = .writing data)
      (ran : archwriterDowrite env data s.ai = (some (), ai)) :
      Effect env s (.writer .write)
        { s with ai, writer := .testing, written := s.written ++ [data] }
  /-- The last footer is written. -/
  | foot (ai : FileWriter) (place : s.writer = .footing)
      (ran : FileWriter.archwriterWriteVolfooter env.kernel true s.ai = (some (), ai)) :
      Effect env s (.writer .foot)
        { s with ai := ai.archwriterClose, writer := .ended, footed := true }
  /-- A failure is told. -/
  | stop (place : s.writer = .failing) :
      Effect env s (.writer .stop) { s with stopfillqueue := true, writer := .emptying }
  /-- The queue is empty. -/
  | emptied (place : s.writer = .emptying) :
      Effect env s (.writer .test) { s with ai := s.ai.archwriterClose, writer := .ended }
  /-- It is not. -/
  | emptyMore (place : s.writer = .emptying) :
      Effect env s (.writer .test) { s with writer := .destroying }
  /-- An item is dropped. -/
  | destroy (pipe : Pipe (Fin n)) (place : s.writer = .destroying)
      (taken : Pipe.Step env.outcome s.pipe (.consume .destroyFirstItem) pipe) :
      Effect env s (.writer .destroy) { s with pipe, writer := .emptying }

variable {env : Env} {s t : State n}

/-- A step of the queue in which no block is processed. -/
theorem pipe_step {outcome : Outcome} {pipe pipe' : Pipe (Fin n)} {call : FsArchiver.Act (Fin n)}
    (taken : pipe.next call = some pipe') (quiet : ∀ w act, call ≠ .worker w act) :
    Pipe.Step outcome pipe call pipe' :=
  ⟨taken, fun w _ _ _ same => absurd same (quiet w _)⟩

/-- A thread that was created does not get lost. -/
theorem moves_onward {main : MainPc} (creating : ¬s.main.Creating) (failed : ¬s.main.Failed)
    (fresh : ¬main.Creating) (past : main.Past → s.stopfillqueue = false)
    (unreturned : ¬s.main.Returned ∧ ¬main.Returned) : Moves s main where
  created := .inr (.inr ⟨creating, fun bad => absurd bad failed⟩)
  fresh begins := absurd begins fresh
  past gone := .inr (past gone)
  unreturned := unreturned

/-- A move to the error label. -/
theorem moves_error (before : ¬s.main.Returned) : Moves s (.cleaning (-1) 0) :=
  ⟨.inr (.inl (by simp [MainPc.Failed])), False.elim, fun past => absurd past.1 (by decide), before,
    id⟩

/-- Behind the last poll, or at the next thing to do. -/
theorem moves_polled {fill : Filling} {main : MainPc} {answer : Bool}
    (place : s.main = .filling fill ∨ s.main = .polling fill)
    (polled : fill.polled answer = some main) (seen : answer = true ∨ s.stopfillqueue = answer) :
    Moves s main := by
  have creating : ¬s.main.Creating := by
    rcases place with place | place <;> (rw [place]; exact id)
  have failed : ¬s.main.Failed := by
    rcases place with place | place <;> (rw [place]; exact id)
  have before : ¬s.main.Returned := by
    rcases place with place | place <;> (rw [place]; exact id)
  cases fill with
  | add input next => cases polled
  | error => cases polled
  | poll interrupted onward =>
    obtain rfl := Option.some.inj polled
    exact moves_onward creating failed id False.elim ⟨before, id⟩
  | last totalerr =>
    obtain rfl := Option.some.inj polled
    apply moves_onward creating failed id _ ⟨before, id⟩
    rintro ⟨zero, -⟩
    cases answer with
    | true => exact absurd zero (by decide)
    | false => exact seen.resolve_left Bool.false_ne_true

/-- A step of the main thread. -/
theorem effect_main {act : MainAct} (h : nextMain env s act s.main = some t) :
    Effect env s (.main act) t := by
  cases place : s.main with
  | creating i fill =>
    have creating : s.main.Creating := by rw [place]; trivial
    have before : ¬s.main.Returned := by rw [place]; exact id
    cases act with
    | create =>
      simp only [place, nextMain] at h
      split at h
      next isComp =>
        cases h
        exact .comp _ _ _ (.inr ⟨.inl trivial, fun _ => creating, False.elim, before, id⟩)
          nofun
      next =>
        cases h
        exact .createWriter fill creating
    | createFails =>
      simp only [place, nextMain, Option.some.injEq] at h
      exact h ▸ .comp _ s.comp _ (.inr (moves_error before)) nofun
    | _ => simp [place, nextMain] at h
  | filling fill =>
    have creating : ¬s.main.Creating := by rw [place]; exact id
    have failed : ¬s.main.Failed := by rw [place]; exact id
    have before : ¬s.main.Returned := by rw [place]; exact id
    cases act with
    | add =>
      cases fill with
      | add input next =>
        simp only [place, nextMain, Option.map_eq_some_iff] at h
        obtain ⟨pipe, taken, rfl⟩ := h
        refine .work _ _ pipe _ (.inr ?_) (pipe_step taken nofun) nofun nofun
        split
        · exact moves_onward creating failed id False.elim ⟨before, id⟩
        · exact moves_onward creating failed id False.elim ⟨before, id⟩
      | _ => simp [place, nextMain] at h
    | getAbort =>
      simp only [place, nextMain, Option.map_eq_some_iff] at h
      obtain ⟨main, polled, rfl⟩ := h
      refine .comp _ s.comp _ (.inr ?_) nofun
      split
      · exact moves_polled (.inl place) polled (.inl rfl)
      · exact moves_onward creating failed id False.elim ⟨before, id⟩
    | fail =>
      cases fill with
      | error =>
        simp only [place, nextMain, Option.some.injEq] at h
        exact h ▸ .comp _ s.comp _ (.inr (moves_error before)) nofun
      | _ => simp [place, nextMain] at h
    | _ => simp [place, nextMain] at h
  | adding next =>
    have creating : ¬s.main.Creating := by rw [place]; exact id
    have failed : ¬s.main.Failed := by rw [place]; exact id
    have before : ¬s.main.Returned := by rw [place]; exact id
    cases act with
    | resume =>
      simp only [place, nextMain, Option.map_eq_some_iff] at h
      obtain ⟨pipe, taken, rfl⟩ := h
      refine .work _ _ pipe _ (.inr ?_) (pipe_step taken nofun) nofun nofun
      split
      · exact moves_onward creating failed id False.elim ⟨before, id⟩
      · exact moves_onward creating failed id False.elim ⟨before, id⟩
    | _ => simp [place, nextMain] at h
  | polling fill =>
    cases act with
    | getStopfillqueue =>
      simp only [place, nextMain, Option.map_eq_some_iff] at h
      obtain ⟨main, polled, rfl⟩ := h
      exact .comp _ s.comp _ (.inr (moves_polled (.inr place) polled (.inr rfl))) nofun
    | _ => simp [place, nextMain] at h
  | cleaning ret totalerr =>
    cases act with
    | close =>
      simp only [place, nextMain, Option.map_eq_some_iff] at h
      obtain ⟨pipe, taken, rfl⟩ := h
      have before : ¬s.main.Returned := by rw [place]; exact id
      refine .work _ _ pipe _ (.inr ⟨.inr (.inr ?_), False.elim, ?_, before, id⟩)
        (pipe_step taken nofun) nofun nofun
      · rw [place]
        exact ⟨id, id⟩
      · rw [place]
        exact .inl
    | _ => simp [place, nextMain] at h
  | joining i ret totalerr =>
    cases act with
    | join =>
      simp only [place, nextMain] at h
      split at h
      next isComp =>
        have onward : Moves s (.joining (i + 1) ret totalerr) := by
          have before : ¬s.main.Returned := by rw [place]; exact id
          refine ⟨.inr (.inr ?_), False.elim, ?_, before, id⟩
          · rw [place]
            exact ⟨id, id⟩
          · rw [place]
            exact .inl
        split at h
        · cases h
          exact .comp _ s.comp _ (.inr onward) nofun
        · cases h
          exact .comp _ s.comp _ (.inr onward) nofun
        · cases h
        · cases h
      next =>
        split at h
        next before =>
          cases h
          exact .leave i ret totalerr place (.inl before)
        next before =>
          cases h
          exact .leave i ret totalerr place (.inr before)
        next => cases h
    | _ => simp [place, nextMain] at h
  | returned ret => cases act <;> simp [place, nextMain] at h

/-- A step of a compression thread. -/
theorem effect_comp {w : Fin n} {act : CompAct} (h : Step env s (.comp w act) t) :
    Effect env s (.comp w act) t := by
  obtain ⟨h, possible⟩ := h
  simp only [State.next] at h
  cases place : s.comp w with
  | uncreated | ended => cases act <;> simp [place, nextComp] at h
  | created =>
    cases act with
    | start =>
      simp only [place, nextComp, Option.some.injEq] at h
      exact h ▸ .comp _ _ s.main (.inl rfl) nofun
    | _ => simp [place, nextComp] at h
  | running =>
    cases act with
    | start => simp [place, nextComp] at h
    | step act =>
      simp only [place, nextComp, Option.map_eq_some_iff] at h
      obtain ⟨pipe, taken, rfl⟩ := h
      refine .work _ (.worker w act) pipe s.main (.inl rfl) ⟨taken, ?_⟩ nofun nofun
      intro w' result num blk same
      cases same
      exact possible w result num blk rfl
    | leave =>
      simp only [place, nextComp] at h
      split at h
      next exited =>
        cases h
        exact .comp _ _ s.main (.inl rfl) nofun
      next => cases h

/-- A call of the writer thread that may fail. -/
theorem effect_archive {act : WriterAct} {prog : Writing Unit} {onward : FileWriter → State n}
    (other : act ≠ .stop)
    (place : s.writer = .created ∨ (∃ data, s.writer = .writing data) ∨ s.writer = .footing)
    (h : s.archive prog onward = t)
    (success : ∀ ai, prog s.ai = (some (), ai) → Effect env s (.writer act) (onward ai)) :
    Effect env s (.writer act) t := by
  unfold State.archive at h
  split at h
  next ai ran => exact h ▸ success ai ran
  next ai _ => exact h ▸ .fail act ai other place

/-- What `queue_dequeue_first` gives. -/
theorem dequeue_cases {pipe pipe' : Pipe (Fin n)}
    (taken : pipe.next (.consume .dequeueFirst) = some pipe') :
    (∃ data, afterDequeue (queueDequeueFirst pipe.queue) = .writing data ∧
      pipe'.taken = pipe.taken ++ [some data]) ∨
    afterDequeue (queueDequeueFirst pipe.queue) = .testing ∧ pipe'.taken = pipe.taken := by
  simp only [Pipe.next, ConsumerCall.run] at taken
  cases ran : queueDequeueFirst pipe.queue with
  | wait =>
    rw [ran] at taken
    cases taken
  | unlock queue result =>
    rw [ran] at taken
    rcases waitFirst_eq_unlock ran with ⟨-, rfl, rfl⟩ | ⟨head, rest, -, -, same⟩
    · cases taken
      exact .inr ⟨rfl, rfl⟩
    · cases same
      cases taken
      exact .inl ⟨head.data, rfl, rfl⟩

/-- A step of the writer thread. -/
theorem effect_writer {act : WriterAct} (h : nextWriter env s act s.writer = some t) :
    Effect env s (.writer act) t := by
  cases place : s.writer with
  | uncreated | ended => cases act <;> simp [place, nextWriter] at h
  | created =>
    cases act with
    | start =>
      simp only [place, nextWriter, Option.some.injEq] at h
      exact effect_archive nofun (.inl place) h fun ai ran => .start ai place ran
    | _ => simp [place, nextWriter] at h
  | testing =>
    cases act with
    | test =>
      simp only [place, nextWriter, Option.some.injEq] at h
      by_cases ended : queueGetEndOfQueue s.pipe.queue = true
      · rw [if_pos ended] at h
        exact h ▸ .testEnd place ended
      · rw [if_neg ended] at h
        exact h ▸ .testMore place
    | _ => simp [place, nextWriter] at h
  | dequeuing =>
    cases act with
    | dequeue =>
      simp only [place, nextWriter, Option.map_eq_some_iff] at h
      obtain ⟨pipe, taken, rfl⟩ := h
      rcases dequeue_cases taken with ⟨data, after, grown⟩ | ⟨after, same⟩
      · rw [after]
        exact .dequeue data pipe place (pipe_step taken nofun) grown
      · rw [after]
        exact .dequeueEnd pipe place (pipe_step taken nofun) same
    | _ => simp [place, nextWriter] at h
  | writing data =>
    cases act with
    | write =>
      simp only [place, nextWriter, Option.some.injEq] at h
      exact effect_archive nofun (.inr (.inl ⟨data, place⟩)) h fun ai ran =>
        .write data ai place ran
    | _ => simp [place, nextWriter] at h
  | footing =>
    cases act with
    | foot =>
      simp only [place, nextWriter, Option.some.injEq] at h
      exact effect_archive nofun (.inr (.inr place)) h fun ai ran => .foot ai place ran
    | _ => simp [place, nextWriter] at h
  | failing =>
    cases act with
    | stop =>
      simp only [place, nextWriter, Option.some.injEq] at h
      exact h ▸ .stop place
    | _ => simp [place, nextWriter] at h
  | emptying =>
    cases act with
    | test =>
      simp only [place, nextWriter, Option.some.injEq] at h
      by_cases ended : queueGetEndOfQueue s.pipe.queue = true
      · rw [if_pos ended] at h
        exact h ▸ .emptied place
      · rw [if_neg ended] at h
        exact h ▸ .emptyMore place
    | _ => simp [place, nextWriter] at h
  | destroying =>
    cases act with
    | destroy =>
      simp only [place, nextWriter, Option.map_eq_some_iff] at h
      obtain ⟨pipe, taken, rfl⟩ := h
      exact .destroy pipe place (pipe_step taken nofun)
    | _ => simp [place, nextWriter] at h

/-- A step changes the state only as listed. -/
theorem Step.effect {act : Act n} (h : Step env s act t) : Effect env s act t := by
  cases act with
  | main act => exact effect_main h.1
  | comp w act => exact effect_comp h
  | writer act => exact effect_writer h.1
  | signal =>
    obtain rfl := Option.some.inj h.1
    exact .signal

/-! ## What the writer thread has written -/

/-- The calls of the writer thread up to these items. -/
def writeUpTo (env : Env) (items : List QueueData) : Writing Unit := do
  startArchive env
  writeItems env.kernel env.options (items.map some)

/-- One item more. -/
theorem writeItems_append (env : Env) (items : List QueueData) (data : QueueData) :
    writeItems env.kernel env.options ((items ++ [data]).map some) =
      writeItems env.kernel env.options (items.map some) >>= fun _ =>
        archwriterDowrite env data >>= fun _ => pure () := by
  induction items with
  | nil =>
    cases data with
    | block blkinfo => rfl
    | header headinfo => rfl
  | cons item items ih =>
    cases item with
    | block blkinfo =>
      simp only [List.cons_append, List.map_cons, writeItems, ih, Failing.bind_bind]
    | header headinfo =>
      simp only [List.cons_append, List.map_cons, writeItems, ih, Failing.bind_bind]

theorem writeUpTo_append {items : List QueueData} {data : QueueData} {start ai ai' : FileWriter}
    (begun : writeUpTo env items start = (some (), ai))
    (ran : archwriterDowrite env data ai = (some (), ai')) :
    writeUpTo env (items ++ [data]) start = (some (), ai') := by
  have steps : writeUpTo env (items ++ [data]) = writeUpTo env items >>= fun _ =>
      archwriterDowrite env data >>= fun _ => pure () := by
    rw [writeUpTo, writeItems_append, writeUpTo, Failing.bind_bind]
  rw [steps, Failing.bind_run_of begun, Failing.bind_run_of ran]
  rfl

/-- The last footer. -/
theorem writeArchive_of_begun {items : List QueueData} {start ai ai' : FileWriter}
    (begun : writeUpTo env items start = (some (), ai))
    (ran : FileWriter.archwriterWriteVolfooter env.kernel true ai = (some (), ai')) :
    writeArchive env.kernel env.options (items.map some) start = (some (), ai') := by
  have steps : writeArchive env.kernel env.options (items.map some) =
      writeUpTo env items >>= fun _ => FileWriter.archwriterWriteVolfooter env.kernel true := by
    simp only [writeArchive, writeUpTo, startArchive, Failing.bind_bind]
  rw [steps, Failing.bind_run_of begun]
  exact ran

/-! ## The queue between the main thread and the writer thread -/

section Queue

variable {outcome : Outcome} {pipe pipe' : Pipe (Fin n)} {call : FsArchiver.Act (Fin n)}

/-- What the writer thread may take out for an input: an item that it drops may be any. -/
def Delivers (outcome : Outcome) (input : Input) : Option QueueData → Prop
  | some data => Yields outcome input data
  | none => True

/-- Only the writer thread takes items out. -/
theorem taken_kept (h : Pipe.Step outcome pipe call pipe')
    (producer : ∀ call', call ≠ .consume call') : pipe'.taken = pipe.taken := by
  cases h.effect with
  | look call' | receive call' | drop => exact absurd rfl (producer _)
  | _ => rfl

/-- Items come out in order. -/
theorem order_step (inv : pipe.Inv outcome) (order : pipe.relay.InOrder (Delivers outcome))
    (h : Pipe.Step outcome pipe call pipe') : pipe'.relay.InOrder (Delivers outcome) := by
  rcases inv.simulated h (Delivers outcome) (fun _ _ yields => yields) (fun _ _ => trivial)
    with same | ⟨act, taken⟩
  · rw [same]
    exact order
  · exact order.step taken

/-- A queue at its end stays there. -/
theorem ended_kept (inv : pipe.Inv outcome) (h : Pipe.Step outcome pipe call pipe')
    (ended : queueGetEndOfQueue pipe.queue = true) :
    queueGetEndOfQueue pipe'.queue = true ∧ pipe'.taken = pipe.taken := by
  have empty := inv.wf.items_of_end ended
  have closed : pipe.queue.endofqueue = true := by
    unfold queueGetEndOfQueue at ended
    rw [Bool.and_eq_true] at ended
    exact ended.2
  cases h.effect with
  | link input offer =>
    rw [inv.open_of_offer offer] at closed
    cases closed
  | close =>
    refine ⟨?_, rfl⟩
    unfold queueGetEndOfQueue at ended ⊢
    rw [Bool.and_eq_true] at ended ⊢
    exact ⟨ended.1, rfl⟩
  | take w num blk front rest before split => simp [empty] at split
  | replace w num blk before =>
    obtain ⟨front, rest, blk', split, success, replaced⟩ := inv.replace_found before
    simp [empty] at split
  | receive call head rest split | drop head rest split => simp [empty] at split
  | wait | refuse | move | process | fail | look => exact ⟨ended, rfl⟩

/-- At the end everything has come out. -/
theorem items_of_ended (inv : pipe.Inv outcome) (order : pipe.relay.InOrder (Delivers outcome))
    (ended : queueGetEndOfQueue pipe.queue = true) {items : List QueueData}
    (taken : pipe.taken = items.map some) : List.Forall₂ (Yields outcome) pipe.pushed items := by
  have all : pipe.taken.length = pipe.pushed.length := by
    have count := inv.count
    rw [inv.wf.items_of_end ended, List.length_nil] at count
    exact count
  have related := order.related
  simp only [Pipe.relay] at related
  rw [all, List.take_length, taken, List.forall₂_map_right_iff] at related
  exact related

end Queue

/-! ## Invariant -/

/-- The writer thread has written these items and taken those. -/
def State.Begun (env : Env) (s : State n) (items : List QueueData) : Prop :=
  writeUpTo env s.written (archwriterInit env.archid env.basepath env.disk) = (some (), s.ai) ∧
    s.pipe.taken = items.map some

/-- The files are those of a writer without failures, unless they have been removed. -/
def State.Files (env : Env) (s : State n) : Prop :=
  s.main.Returned ∧ s.main.Failed ∨
    ∃ ai, writeArchive env.kernel env.options (s.written.map some)
        (archwriterInit env.archid env.basepath env.disk) = (some (), ai) ∧
      s.ai = ai.archwriterClose

/-- What the writer thread has done where it stands. -/
def State.Wrote (env : Env) (s : State n) : Prop :=
  match s.writer with
  | .uncreated | .created => s.ai = archwriterInit env.archid env.basepath env.disk ∧
      s.written = [] ∧ s.pipe.taken = []
  | .testing | .dequeuing => s.Begun env s.written
  | .writing data => s.Begun env (s.written ++ [data])
  | .footing => s.Begun env s.written ∧ queueGetEndOfQueue s.pipe.queue = true
  | .failing | .emptying | .destroying => True
  | .ended => s.footed = true → s.pipe.taken = s.written.map some ∧
      queueGetEndOfQueue s.pipe.queue = true ∧ s.Files env

/-- What other threads do does not matter. -/
theorem State.Wrote.of_same (wrote : s.Wrote env) (writer : t.writer = s.writer) (ai : t.ai = s.ai)
    (written : t.written = s.written) (footed : t.footed = s.footed)
    (taken : t.pipe.taken = s.pipe.taken)
    (ended : queueGetEndOfQueue s.pipe.queue = true → queueGetEndOfQueue t.pipe.queue = true)
    (removed : s.main.Returned → t.main = s.main) : t.Wrote env := by
  unfold State.Wrote State.Begun State.Files at *
  rw [writer, ai, written, footed, taken]
  cases place : s.writer with
  | footing =>
    simp only [place] at wrote
    exact ⟨wrote.1, ended wrote.2⟩
  | ended =>
    simp only [place] at wrote
    intro foot
    obtain ⟨items, atEnd, files⟩ := wrote foot
    refine ⟨items, ended atEnd, ?_⟩
    rcases files with gone | files
    · left
      rw [removed gone.1]
      exact gone
    · exact .inr files
  | _ =>
    simp only [place] at wrote
    exact wrote

/-- What holds in every state of every run. -/
structure Inv (env : Env) (s : State n) : Prop where
  /-- The invariant of the queue. -/
  pipe : s.pipe.Inv env.outcome
  /-- Items come out in order. -/
  order : s.pipe.relay.InOrder (Delivers env.outcome)
  /-- What the writer thread has done. -/
  wrote : s.Wrote env
  /-- A failure is told when the queue is emptied, and stays told. -/
  stopped : s.stopfillqueue = true ↔
    s.writer = .emptying ∨ s.writer = .destroying ∨ s.writer = .ended ∧ s.footed = false
  /-- The last footer is the last call. -/
  footed : s.footed = true → s.writer = .ended
  /-- It is created last. -/
  fresh : s.main.Creating → s.writer = .uncreated
  /-- There is a writer thread, unless the main thread fails. -/
  created : s.writer = .uncreated → s.main.Creating ∨ s.main.Failed
  /-- The writer thread has ended when the main thread returns. -/
  joined : s.main.Returned → s.writer = .uncreated ∨ s.writer = .ended

/-- The invariant holds at the start. -/
theorem Inv.init (env : Env) (blkmax : Nat) (fill : Filling) :
    Inv env (State.init env n blkmax fill) where
  pipe := .init blkmax
  order := .init
  wrote := ⟨rfl, rfl, rfl⟩
  stopped := by simp [State.init]
  footed := by simp [State.init]
  fresh _ := rfl
  created _ := .inl trivial
  joined := False.elim

/-- The main thread moves, or a compression thread does. -/
theorem Inv.moves (inv : Inv env s) {main : MainPc} (moves : main = s.main ∨ Moves s main)
    (comp : Fin n → Stage) : Inv env { s with comp, main } where
  pipe := inv.pipe
  order := inv.order
  wrote := inv.wrote.of_same rfl rfl rfl rfl rfl id fun returned =>
    moves.resolve_right fun moved => moved.unreturned.1 returned
  stopped := inv.stopped
  footed := inv.footed
  fresh creating := by
    rcases moves with rfl | moved
    · exact inv.fresh creating
    · exact inv.fresh (moved.fresh creating)
  created missing := by
    rcases moves with rfl | moved
    · exact inv.created missing
    · rcases moved.created with creating | failed | ⟨later, kept⟩
      · exact .inl creating
      · exact .inr failed
      · exact .inr (kept ((inv.created missing).resolve_left later))
  joined returned := by
    rcases moves with rfl | moved
    · exact inv.joined returned
    · exact absurd returned moved.unreturned.2

/-- The queue changes at its other end. -/
theorem Inv.work (inv : Inv env s) {call : FsArchiver.Act (Fin n)} {pipe : Pipe (Fin n)}
    (taken : Pipe.Step env.outcome s.pipe call pipe) (producer : ∀ call', call ≠ .consume call') :
    Inv env { s with pipe } where
  pipe := inv.pipe.step taken
  order := order_step inv.pipe inv.order taken
  wrote := inv.wrote.of_same rfl rfl rfl rfl (taken_kept taken producer)
    (fun ended => (ended_kept inv.pipe taken ended).1) fun _ => rfl
  stopped := inv.stopped
  footed := inv.footed
  fresh := inv.fresh
  created := inv.created
  joined := inv.joined

/-- The writer thread goes on, with what it has done, and tells nothing. -/
theorem Inv.writes (inv : Inv env s) {pipe : Pipe (Fin n)} {ai : FileWriter} {writer : WriterPc}
    {written : List QueueData} {footed : Bool} (safe : pipe.Inv env.outcome)
    (order : pipe.relay.InOrder (Delivers env.outcome))
    (wrote : ({ s with pipe, ai, writer, written, footed } : State n).Wrote env)
    (stopped : (s.writer = .emptying ∨ s.writer = .destroying ∨
        s.writer = .ended ∧ s.footed = false) ↔
      (writer = .emptying ∨ writer = .destroying ∨ writer = .ended ∧ footed = false))
    (foot : footed = true → writer = .ended) (running : s.writer ≠ .uncreated)
    (alive : s.writer ≠ .ended) (created : writer ≠ .uncreated) :
    Inv env { s with pipe, ai, writer, written, footed } where
  pipe := safe
  order := order
  wrote := wrote
  stopped := inv.stopped.trans stopped
  footed := foot
  fresh creating := absurd (inv.fresh creating) running
  created missing := absurd missing created
  joined returned := by
    rcases inv.joined returned with missing | ended
    · exact absurd missing running
    · exact absurd ended alive

/-- The main thread returns. -/
theorem Inv.leave (inv : Inv env s) {i : Nat} {ret : Int} {totalerr : Nat}
    (place : s.main = .joining i ret totalerr) (joined : s.writer = .uncreated ∨ s.writer = .ended) :
    Inv env { s with
      ai := if ret = 0 then s.ai else s.ai.archwriterRemove env.kernel
      main := .returned (if 0 < totalerr then -1 else ret) } where
  pipe := inv.pipe
  order := inv.order
  wrote := by
    have wrote := inv.wrote
    by_cases success : ret = 0
    · rw [if_pos success]
      refine wrote.of_same rfl rfl rfl rfl rfl id fun returned => ?_
      rw [place] at returned
      exact returned.elim
    · have failed : (MainPc.returned (if 0 < totalerr then -1 else ret)).Failed := by
        show (if 0 < totalerr then -1 else ret) ≠ 0
        split
        · decide
        · exact success
      rw [if_neg success]
      unfold State.Wrote State.Files at *
      rcases joined with missing | ended
      · simp only [missing] at wrote ⊢
        refine ⟨?_, wrote.2⟩
        rw [wrote.1]
        rfl
      · simp only [ended] at wrote ⊢
        intro footed
        obtain ⟨items, atEnd, -⟩ := wrote footed
        exact ⟨items, atEnd, .inl ⟨trivial, failed⟩⟩
  stopped := inv.stopped
  footed := inv.footed
  fresh := False.elim
  created missing := by
    right
    have failed := inv.created missing
    rw [place] at failed
    rcases failed with creating | failed
    · exact creating.elim
    · show (if 0 < totalerr then -1 else ret) ≠ 0
      split
      · decide
      · exact failed
  joined _ := joined

/-- Every step keeps the invariant. -/
theorem Inv.step {act : Act n} (inv : Inv env s) (h : Step env s act t) : Inv env t := by
  have wrote := inv.wrote
  have unfooted (alive : s.writer ≠ .ended) : s.footed = false := by
    cases footed : s.footed with
    | false => rfl
    | true => exact absurd (inv.footed footed) alive
  have nothing {P : Prop} (alive : s.writer ≠ .ended) (footed : s.footed = true) : P := by
    rw [unfooted alive] at footed
    cases footed
  cases h.effect with
  | comp act comp main moves other => exact inv.moves moves comp
  | work act call pipe main moves taken producer other =>
    exact (inv.moves moves s.comp).work taken producer
  | leave i ret totalerr place joined => exact inv.leave place joined
  | signal => exact ⟨inv.pipe, inv.order, inv.wrote.of_same rfl rfl rfl rfl rfl id fun _ => rfl,
      inv.stopped, inv.footed, inv.fresh, inv.created, inv.joined⟩
  | createWriter fill place =>
    have missing := inv.fresh place
    unfold State.Wrote at wrote
    simp only [missing] at wrote
    have untold := inv.stopped
    simp only [missing, reduceCtorEq, false_and, or_self, iff_false] at untold
    exact ⟨inv.pipe, inv.order, wrote, by simpa using untold, nothing (by simp [missing]),
      False.elim, nofun, False.elim⟩
  | fail act ai other place =>
    rcases place with place | ⟨data, place⟩ | place <;>
      exact inv.writes inv.pipe inv.order trivial (by simp [place]) (nothing (by simp [place]))
        (by simp [place]) (by simp [place]) nofun
  | start ai place ran =>
    unfold State.Wrote at wrote
    simp only [place] at wrote
    obtain ⟨begins, none, empty⟩ := wrote
    have begun : writeUpTo env s.written (archwriterInit env.archid env.basepath env.disk) =
        (some (), ai) := by
      rw [none, ← begins]
      exact (Failing.bind_run_of ran)
    exact inv.writes inv.pipe inv.order ⟨begun, by rw [empty, none]; rfl⟩ (by simp [place])
      (nothing (by simp [place])) (by simp [place]) (by simp [place]) nofun
  | testEnd place ended =>
    unfold State.Wrote at wrote
    simp only [place] at wrote
    exact inv.writes inv.pipe inv.order ⟨wrote, ended⟩ (by simp [place]) (nothing (by simp [place]))
      (by simp [place]) (by simp [place]) nofun
  | testMore place =>
    unfold State.Wrote at wrote
    simp only [place] at wrote
    exact inv.writes inv.pipe inv.order wrote (by simp [place]) (nothing (by simp [place]))
      (by simp [place]) (by simp [place]) nofun
  | dequeue data pipe place taken grown =>
    unfold State.Wrote at wrote
    simp only [place] at wrote
    have begun : ({ s with pipe } : State n).Begun env (s.written ++ [data]) := by
      refine ⟨wrote.1, ?_⟩
      rw [grown, wrote.2, List.map_append]
      rfl
    exact inv.writes (inv.pipe.step taken) (order_step inv.pipe inv.order taken) begun
      (by simp [place]) (nothing (by simp [place])) (by simp [place]) (by simp [place]) nofun
  | dequeueEnd pipe place taken same =>
    unfold State.Wrote at wrote
    simp only [place] at wrote
    have begun : ({ s with pipe } : State n).Begun env s.written := ⟨wrote.1, same.trans wrote.2⟩
    exact inv.writes (inv.pipe.step taken) (order_step inv.pipe inv.order taken) begun
      (by simp [place]) (nothing (by simp [place])) (by simp [place]) (by simp [place]) nofun
  | write data ai place ran =>
    unfold State.Wrote at wrote
    simp only [place] at wrote
    exact inv.writes inv.pipe inv.order ⟨writeUpTo_append wrote.1 ran, wrote.2⟩ (by simp [place])
      (nothing (by simp [place])) (by simp [place]) (by simp [place]) nofun
  | foot ai place ran =>
    unfold State.Wrote at wrote
    simp only [place] at wrote
    obtain ⟨⟨begun, taken⟩, ended⟩ := wrote
    have files := writeArchive_of_begun begun ran
    exact inv.writes inv.pipe inv.order (fun _ => ⟨taken, ended, .inr ⟨ai, files, rfl⟩⟩)
      (by simp [place]) (fun _ => rfl) (by simp [place]) (by simp [place]) nofun
  | stop place =>
    exact ⟨inv.pipe, inv.order, trivial, by simp, nothing (by simp [place]),
      fun creating => absurd (inv.fresh creating) (by simp [place]), nofun,
      fun returned => absurd (inv.joined returned) (by simp [place])⟩
  | emptied place =>
    have untold := unfooted (by simp [place])
    exact inv.writes inv.pipe inv.order (fun footed => nothing (by simp [place]) footed)
      (by simp [place, untold]) (fun _ => rfl) (by simp [place]) (by simp [place]) nofun
  | emptyMore place =>
    exact inv.writes inv.pipe inv.order trivial (by simp [place]) (nothing (by simp [place]))
      (by simp [place]) (by simp [place]) nofun
  | destroy pipe place taken =>
    exact inv.writes (inv.pipe.step taken) (order_step inv.pipe inv.order taken) trivial
      (by simp [place]) (nothing (by simp [place])) (by simp [place]) (by simp [place]) nofun

/-- A failure that was told stays told. -/
theorem stopfillqueue_kept {act : Act n} (h : Step env s act t) (told : s.stopfillqueue = true) :
    t.stopfillqueue = true := by
  cases h.effect with
  | stop place => rfl
  | _ => exact told

/-- A timely step lets the main thread learn of every failure. -/
theorem noticed_step {act : Act n} (noticed : s.stopfillqueue = true → ¬s.main.Past)
    (timely : Timely s act) (h : Step env s act t) : t.stopfillqueue = true → ¬t.main.Past := by
  intro told
  have onward {main : MainPc} (moves : main = s.main ∨ Moves s main)
      (told : s.stopfillqueue = true) : ¬main.Past := by
    rcases moves with rfl | moved
    · exact noticed told
    · intro past
      rcases moved.past past with before | untold
      · exact noticed told before
      · rw [told] at untold
        cases untold
  cases h.effect with
  | comp act comp main moves other => exact onward moves told
  | work act call pipe main moves taken producer other => exact onward moves told
  | createWriter fill place => exact id
  | leave i ret totalerr place joined =>
    intro past
    apply noticed told
    rw [place]
    have zero : (if 0 < totalerr then -1 else ret) = 0 := past
    split at zero
    · exact absurd zero (by decide)
    next none => exact ⟨zero, Nat.eq_zero_of_not_pos none⟩
  | stop place => exact timely rfl
  | _ => exact noticed told

/-! ## A save that returns 0 -/

/-- A save that has returned 0 without a failure of the writer thread is complete. -/
theorem Inv.complete (inv : Inv env s) (returned : s.main = .returned 0)
    (untold : s.stopfillqueue = false) : s.Complete env := by
  have wrote := inv.wrote
  have succeeded : ¬s.main.Failed := by
    rw [returned]
    exact fun failed => failed rfl
  have ended : s.writer = .ended := by
    refine (inv.joined (by rw [returned]; trivial)).resolve_left fun missing => ?_
    rcases inv.created missing with creating | failed
    · rw [returned] at creating
      exact creating
    · exact succeeded failed
  have footed : s.footed = true := by
    by_contra unfooted
    have told := inv.stopped.mpr (.inr (.inr ⟨ended, Bool.eq_false_iff.mpr unfooted⟩))
    rw [untold] at told
    cases told
  unfold State.Wrote at wrote
  simp only [ended] at wrote
  obtain ⟨taken, atEnd, files⟩ := wrote footed
  exact ⟨items_of_ended inv.pipe inv.order atEnd taken, footed,
    files.resolve_left fun gone => succeeded gone.2⟩

/-- A save in which the writer thread has told of a failure is not. -/
theorem Inv.not_complete (inv : Inv env s) (told : s.stopfillqueue = true) : ¬s.Complete env := by
  intro complete
  have ended := inv.footed complete.footer
  rcases inv.stopped.mp told with emptying | destroying | ⟨-, unfooted⟩
  · rw [ended] at emptying
    cases emptying
  · rw [ended] at destroying
    cases destroying
  · rw [complete.footer] at unfooted
    cases unfooted

/-- Whatever the main thread does, whatever fails and whatever the order of the steps: when
`oper_save` returns 0, the archive is complete if and only if no failure of the writer thread is
told behind the last `get_interrupted` of a main thread that is going to return 0. -/
theorem save_complete_iff (env : Env) (n blkmax : Nat) (fill : Filling)
    (trace : List (Act n × State n)) (run : Trace (Step env) (.init env n blkmax fill) trace)
    (returned : (Trace.last (.init env n blkmax fill) trace).main = .returned 0) :
    (Trace.last (.init env n blkmax fill) trace).Complete env ↔
      ∀ before act after rest, trace = before ++ (act, after) :: rest →
        Timely (Trace.last (.init env n blkmax fill) before) act := by
  have inv := Trace.invariant_of_step (fun _ _ _ inv taken => inv.step taken) run
    (Inv.init env blkmax fill) _ (Trace.last_mem _ trace)
  constructor
  · rintro complete before act after rest rfl rfl
    -- a failure that was told is told to the end
    have taken := Trace.step_of_split run
    have told : after.stopfillqueue = true := by
      cases taken.effect with
      | stop place => rfl
      | comp act comp main moves other => exact absurd rfl other
      | work act call pipe main moves taken producer other => exact absurd rfl other
      | fail act ai other place => exact absurd rfl other
    have last := Trace.last_of_split (fun _ _ _ told taken => stopfillqueue_kept taken told) run told
    exact absurd complete (inv.not_complete last)
  · intro timely
    have noticed := Trace.invariant (fun s act => Timely s act)
      (fun _ _ _ noticed allowed taken => noticed_step noticed allowed taken) run
      (show (State.init env n blkmax fill).stopfillqueue = true → _ from nofun) timely _
      (Trace.last_mem _ trace)
    apply inv.complete returned
    apply Bool.eq_false_iff.mpr
    intro told
    apply noticed told
    rw [returned]
    rfl

/-! ## A full disk -/

/-- What the main thread does when it saves a directory that cannot be opened. -/
def unreadableFill : Filling :=
  .add (.header smallMain) <|
    .add (.header ⟨.dirs, filesysidNull, dicoAddAll Dico.alloc [dicoAddU64 0 1 0]⟩) <|
      .poll .error <| .add (.header ⟨.datf, filesysidNull, Dico.alloc⟩) <| .last 0

/-- A system in which one call stops before its first byte. -/
def stoppingEnv (stops : Nat → Option Nat) : Env where
  kernel :=
    { loc := fun path => if path = [0x61, 0x2e, 0x66, 0x73, 0x61] then some 1 else none
      empty := rfl
      realpath := fun _ _ => none
      stats := fun _ => true
      opens := fun _ => true
      stops := stops
      allocates := fun _ => true }
  options := ⟨false, 0⟩
  outcome := fun _ _ => True
  archid := 1
  basepath := [0x61, 0x2e, 0x66, 0x73, 0x61]
  disk := fun _ => none

/-- The main thread is done before the writer thread begins. -/
def lateActs (end' : List (Act 1)) : List (Act 1) :=
  [.main .create, .main .create, .comp 0 .start, .main .add, .main .add, .main .getAbort,
    .main .getStopfillqueue, .main .add, .main .getAbort, .main .getStopfillqueue, .main .close,
    .writer .start, .writer .test, .writer .dequeue, .writer .write, .writer .test,
    .writer .dequeue, .writer .write, .writer .test, .writer .dequeue, .writer .write,
    .writer .test, .writer .foot] ++ end' ++
    [.comp 0 (.step .test), .comp 0 .leave, .main .join, .main .join]

/-- The run of such a save. -/
def lateRun (stops : Nat → Option Nat) (end' : List (Act 1)) : List (Act 1 × State 1) :=
  Trace.runOf (State.next (stoppingEnv stops)) (.init (stoppingEnv stops) 1 32 unreadableFill)
    (lateActs end')

theorem trace_lateRun (stops : Nat → Option Nat) (end' : List (Act 1)) :
    Trace (Step (stoppingEnv stops)) (.init (stoppingEnv stops) 1 32 unreadableFill)
      (lateRun stops end') :=
  Trace.trace_runOf (fun _ _ _ taken => ⟨taken, fun _ _ _ _ _ _ => trivial⟩) _ _

/-- Nothing stops. -/
theorem save_complete_late :
    (Trace.last (.init (stoppingEnv fun _ => none) 1 32 unreadableFill)
      (lateRun (fun _ => none) [])).Complete (stoppingEnv fun _ => none) := by
  apply (save_complete_iff (stoppingEnv fun _ => none) 1 32 unreadableFill _ (trace_lateRun _ [])
    (by decide +kernel)).mpr
  rintro before act after rest split rfl
  have untold : ∀ act ∈ Trace.labels (lateRun (fun _ => none) []), act ≠ .writer .stop := by
    decide +kernel
  refine absurd rfl (untold (.writer .stop) ?_)
  rw [split]
  simp [Trace.labels]

/-- The disk is full when the last footer is written. -/
theorem save_returns_incomplete : ∃ (env : Env) (fill : Filling) (trace : List (Act 1 × State 1)),
    Trace (Step env) (.init env 1 32 fill) trace ∧
      (Trace.last (.init env 1 32 fill) trace).main = .returned 0 ∧
      ¬(Trace.last (.init env 1 32 fill) trace).Complete env := by
  let stops (call : Nat) : Option Nat := if call = 11 then some 0 else none
  refine ⟨stoppingEnv stops, unreadableFill,
    lateRun stops [.writer .stop, .writer .test], trace_lateRun stops _, by decide +kernel, ?_⟩
  intro complete
  have unfooted : (Trace.last (.init (stoppingEnv stops) 1 32 unreadableFill)
      (lateRun stops [.writer .stop, .writer .test])).footed = false := by decide +kernel
  rw [complete.footer] at unfooted
  cases unfooted

end FsArchiver.SaveThreads
