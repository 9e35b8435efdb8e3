import Mathlib.Data.Finset.Card
import Mathlib.Data.Fintype.Basic
import FsArchiver.Lib.Transition
import FsArchiver.PipelineInv

/-!
# How a restore stops

`oper_restore` creates its decompression threads and the reader thread, works on the queue, and
in the end empties the queue until `get_secthreads` is zero or the queue has ended; then it
joins the threads. A thread counts in `g_secthreads` from the moment it runs, which may be long
after its creation. A step is one critical section, one atomic operation on the counter, or one
piece of a thread's code between two of them.
-/
namespace FsArchiver.Shutdown

open Lib

/-- Where a decompression thread stands. -/
inductive Stage where
  /-- `pthread_create` was not called for it. -/
  | uncreated
  /-- Created, and not yet at its `inc_secthreads`. -/
  | created
  /-- Between `inc_secthreads` and `dec_secthreads`. -/
  | running
  /-- After `dec_secthreads`. -/
  | ended
  deriving DecidableEq

/-- Where the reader thread stands. -/
inductive ReaderStage where
  | uncreated | created | running
  /-- Between `queue_set_end_of_queue(true)` and `dec_secthreads`. -/
  | closed
  | ended
  deriving DecidableEq

/-- Whether the reader thread counts in `g_secthreads`. -/
def ReaderStage.counted : ReaderStage → Nat
  | .running | .closed => 1
  | .uncreated | .created | .ended => 0

/-- Where the main thread stands in `oper_restore`. -/
inductive MainPc where
  /-- About to create decompression thread `i`, or the reader thread after the last of them. -/
  | creating (i : Nat)
  /-- Between the creation of the threads and the label `do_extract_error`. -/
  | working
  /-- In the loop that waits for the blocks to be processed. -/
  | draining
  /-- At `get_secthreads()>0` in the loop that empties the queue. -/
  | testingThreads
  /-- At `queue_get_end_of_queue(&g_queue)==false` in that loop. -/
  | testingEnd
  /-- At `queue_destroy_first_item` in that loop. -/
  | destroying
  /-- After that loop: joins the threads. -/
  | joining
  deriving DecidableEq

/-- Steps of the main thread. -/
inductive MainAct where
  /-- `pthread_create` succeeds. -/
  | create
  /-- `pthread_create` fails. -/
  | createFails
  /-- A call of the queue returns. -/
  | consume (call : ConsumerCall)
  /-- `goto do_extract_error`, or the way to `do_extract_success`. -/
  | finish
  /-- `queue_count_items_todo(&g_queue)>0`. -/
  | countTodo
  /-- `get_secthreads()>0`. -/
  | testThreads
  /-- `queue_get_end_of_queue(&g_queue)==false`. -/
  | testEnd
  /-- `queue_destroy_first_item` returns. -/
  | destroy
  deriving DecidableEq

/-- Steps of a decompression thread. -/
inductive DecompAct where
  /-- `inc_secthreads`. -/
  | start
  /-- A step in `compression_function`. -/
  | step (act : WorkerAct)
  /-- `dec_secthreads`. -/
  | leave
  deriving DecidableEq

/-- Steps of the reader thread. -/
inductive ReaderAct where
  /-- `inc_secthreads`. -/
  | start
  /-- It calls `queue_add_block` or `queue_add_header`. -/
  | add (input : Input)
  /-- It wakes up in that function. -/
  | resume
  /-- `queue_set_end_of_queue(true)`, after the archive or any error. -/
  | close
  /-- `dec_secthreads`. -/
  | leave
  deriving DecidableEq

/-- Steps of all threads. -/
inductive Act (n : Nat) where
  | main (act : MainAct)
  | decomp (w : Fin n) (act : DecompAct)
  | reader (act : ReaderAct)
  deriving DecidableEq

/-- A restore with `n` decompression threads. -/
structure State (n : Nat) where
  /-- `g_queue` and what the threads hold of it. -/
  pipe : Pipe (Fin n)
  /-- The decompression threads. -/
  decomp : Fin n → Stage
  /-- The reader thread. -/
  reader : ReaderStage
  /-- `g_secthreads`. -/
  secthreads : Nat
  /-- The main thread. -/
  main : MainPc

variable {n : Nat}

/-- `oper_restore` before it creates its threads. -/
def State.init (n blkmax : Nat) : State n :=
  { pipe := Pipe.init (Fin n) blkmax, decomp := fun _ => .uncreated, reader := .uncreated
    secthreads := 0, main := .creating 0 }

/-- A decompression thread goes to another stage. -/
def State.enter (s : State n) (w : Fin n) (stage : Stage) : State n :=
  { s with decomp := Function.update s.decomp w stage }

/-- `oper_restore` from `pthread_create(&thread_decomp[0], …)` to its joins, one step. -/
def nextMain (s : State n) : MainAct → MainPc → Option (State n)
  | .create, .creating i =>
    if isDecomp : i < n then
      some { s.enter ⟨i, isDecomp⟩ .created with main := .creating (i + 1) }
    else some { s with reader := .created, main := .working }
  | .createFails, .creating _ => some { s with main := .draining }
  | .consume call, .working => (s.pipe.next (.consume call)).map fun pipe => { s with pipe }
  | .finish, .working => some { s with main := .draining }
  | .countTodo, .draining =>
    if queueCountItemsTodo s.pipe.queue > 0 then some s
    else some { s with main := .testingThreads }
  | .testThreads, .testingThreads =>
    some { s with main := if s.secthreads > 0 then .testingEnd else .joining }
  | .testEnd, .testingEnd =>
    some { s with main := if queueGetEndOfQueue s.pipe.queue then .joining else .destroying }
  | .destroy, .destroying =>
    (s.pipe.next (.consume .destroyFirstItem)).map fun pipe =>
      { s with pipe, main := .testingThreads }
  | _, _ => none

/-- `thread_decomp_fct`, one step. -/
def nextDecomp (s : State n) (w : Fin n) : DecompAct → Stage → Option (State n)
  | .start, .created => some { s.enter w .running with secthreads := s.secthreads + 1 }
  | .step act, .running => (s.pipe.next (.worker w act)).map fun pipe => { s with pipe }
  | .leave, .running =>
    if s.pipe.workers w = .exited then
      some { s.enter w .ended with secthreads := s.secthreads - 1 }
    else none
  | _, _ => none

/-- `thread_reader_fct` as far as the queue and the counter see it, one step. -/
def nextReader (s : State n) : ReaderAct → ReaderStage → Option (State n)
  | .start, .created => some { s with reader := .running, secthreads := s.secthreads + 1 }
  | .add input, .running => (s.pipe.next (.add input)).map fun pipe => { s with pipe }
  | .resume, .running => (s.pipe.next .resume).map fun pipe => { s with pipe }
  | .close, .running =>
    (s.pipe.next .setEnd).map fun pipe => { s with pipe, reader := .closed }
  | .leave, .closed => some { s with reader := .ended, secthreads := s.secthreads - 1 }
  | _, _ => none

/-- The state after a step, if the step can be taken. -/
def State.next (s : State n) : Act n → Option (State n)
  | .main act => nextMain s act s.main
  | .decomp w act => nextDecomp s w act (s.decomp w)
  | .reader act => nextReader s act s.reader

/-- A step of a restore. -/
def Step (s : State n) (act : Act n) (t : State n) : Prop := s.next act = some t

/-- The queue is at its end: nothing is in it and nothing will come. -/
def State.AtEnd (s : State n) : Prop :=
  s.pipe.queue.endofqueue = true ∧ s.pipe.queue.items = []

/-- Every secondary thread that was created has terminated. -/
def State.Terminated (s : State n) : Prop :=
  (∀ w, s.decomp w = .uncreated ∨ s.decomp w = .ended) ∧
    (s.reader = .uncreated ∨ s.reader = .ended)

/-- Every secondary thread that was created has started. -/
def State.Started (s : State n) : Prop :=
  (∀ w, s.decomp w ≠ .created) ∧ s.reader ≠ .created

/-- What the main thread relies on when it joins the threads. -/
def State.Clean (s : State n) : Prop := s.main = .joining → s.Terminated ∨ s.AtEnd

/-! ## What a step can change -/

/-- The possible changes of the state by each step. -/
inductive Effect (s : State n) : Act n → State n → Prop
  /-- A decompression thread is created. -/
  | createDecomp (w : Fin n) (place : s.main = .creating w) :
      Effect s (.main .create) { s.enter w .created with main := .creating (w + 1) }
  /-- The reader thread is created. -/
  | createReader (i : Nat) (place : s.main = .creating i) :
      Effect s (.main .create) { s with reader := .created, main := .working }
  /-- The main thread goes elsewhere. -/
  | goto (act : MainAct) (main : MainPc) (onward : ∀ i, main ≠ .creating i)
      (before : s.main ≠ .joining)
      (reason : main = .joining →
        act = .testThreads ∧ s.secthreads = 0 ∨ queueGetEndOfQueue s.pipe.queue = true) :
      Effect s (.main act) { s with main }
  /-- The main thread takes from the queue. -/
  | take (act : MainAct) (call : ConsumerCall) (pipe : Pipe (Fin n)) (main : MainPc)
      (onward : main = .working ∨ main = .testingThreads) (before : s.main ≠ .joining)
      (taken : s.pipe.next (.consume call) = some pipe) :
      Effect s (.main act) { s with pipe, main }
  /-- A decompression thread starts. -/
  | startDecomp (w : Fin n) (before : s.decomp w = .created) :
      Effect s (.decomp w .start) { s.enter w .running with secthreads := s.secthreads + 1 }
  /-- A decompression thread works. -/
  | work (w : Fin n) (act : WorkerAct) (pipe : Pipe (Fin n)) (before : s.decomp w = .running)
      (taken : s.pipe.next (.worker w act) = some pipe) :
      Effect s (.decomp w (.step act)) { s with pipe }
  /-- A decompression thread terminates. -/
  | leaveDecomp (w : Fin n) (before : s.decomp w = .running)
      (exited : s.pipe.workers w = .exited) :
      Effect s (.decomp w .leave) { s.enter w .ended with secthreads := s.secthreads - 1 }
  /-- The reader thread starts. -/
  | startReader (before : s.reader = .created) :
      Effect s (.reader .start) { s with reader := .running, secthreads := s.secthreads + 1 }
  /-- The reader thread adds an item, or tries to. -/
  | produce (act : ReaderAct) (call : FsArchiver.Act (Fin n)) (pipe : Pipe (Fin n))
      (before : s.reader = .running) (other : call ≠ .setEnd)
      (taken : s.pipe.next call = some pipe) : Effect s (.reader act) { s with pipe }
  /-- The reader thread closes the queue. -/
  | close (pipe : Pipe (Fin n)) (before : s.reader = .running)
      (taken : s.pipe.next .setEnd = some pipe) :
      Effect s (.reader .close) { s with pipe, reader := .closed }
  /-- The reader thread terminates. -/
  | leaveReader (before : s.reader = .closed) :
      Effect s (.reader .leave) { s with reader := .ended, secthreads := s.secthreads - 1 }

/-- A step of the main thread. -/
theorem effect_main {s t : State n} {act : MainAct} (h : nextMain s act s.main = some t) :
    Effect s (.main act) t := by
  cases place : s.main with
  | creating i =>
    cases act with
    | create =>
      simp only [place, nextMain] at h
      split at h
      next isDecomp =>
        cases h
        exact .createDecomp ⟨i, isDecomp⟩ place
      next =>
        cases h
        exact .createReader i place
    | createFails =>
      simp only [place, nextMain, Option.some.injEq] at h
      exact h ▸ .goto _ .draining (by simp) (by simp [place]) (by simp)
    | _ => simp [place, nextMain] at h
  | working =>
    cases act with
    | consume call =>
      simp only [place, nextMain, Option.map_eq_some_iff] at h
      obtain ⟨pipe, taken, rfl⟩ := h
      rw [← place]
      exact place ▸ .take _ call pipe .working (.inl rfl) (by simp [place]) taken
    | finish =>
      simp only [place, nextMain, Option.some.injEq] at h
      exact h ▸ .goto _ .draining (by simp) (by simp [place]) (by simp)
    | _ => simp [place, nextMain] at h
  | draining =>
    cases act with
    | countTodo =>
      simp only [place, nextMain] at h
      split at h
      next =>
        have stays : s = { s with main := .draining } := by rw [← place]
        cases h
        rw [stays]
        exact .goto _ .draining (by simp) (by simp) (by simp)
      next =>
        cases h
        exact .goto _ .testingThreads (by simp) (by simp [place]) (by simp)
    | _ => simp [place, nextMain] at h
  | testingThreads =>
    cases act with
    | testThreads =>
      simp only [place, nextMain, Option.some.injEq] at h
      by_cases some_run : s.secthreads > 0
      · rw [if_pos some_run] at h
        exact h ▸ .goto _ .testingEnd (by simp) (by simp [place]) (by simp)
      · rw [if_neg some_run] at h
        have none_run : s.secthreads = 0 := by omega
        exact h ▸ .goto _ .joining (by simp) (by simp [place]) fun _ => .inl ⟨rfl, none_run⟩
    | _ => simp [place, nextMain] at h
  | testingEnd =>
    cases act with
    | testEnd =>
      simp only [place, nextMain, Option.some.injEq] at h
      by_cases ended : queueGetEndOfQueue s.pipe.queue = true
      · rw [if_pos ended] at h
        exact h ▸ .goto _ .joining (by simp) (by simp [place]) fun _ => .inr ended
      · rw [if_neg ended] at h
        exact h ▸ .goto _ .destroying (by simp) (by simp [place]) (by simp)
    | _ => simp [place, nextMain] at h
  | destroying =>
    cases act with
    | destroy =>
      simp only [place, nextMain, Option.map_eq_some_iff] at h
      obtain ⟨pipe, taken, rfl⟩ := h
      exact .take _ _ pipe .testingThreads (.inr rfl) (by simp [place]) taken
    | _ => simp [place, nextMain] at h
  | joining => cases act <;> simp [place, nextMain] at h

/-- A step of a decompression thread. -/
theorem effect_decomp {s t : State n} {w : Fin n} {act : DecompAct}
    (h : nextDecomp s w act (s.decomp w) = some t) : Effect s (.decomp w act) t := by
  cases place : s.decomp w with
  | uncreated | ended => cases act <;> simp [place, nextDecomp] at h
  | created =>
    cases act with
    | start =>
      simp only [place, nextDecomp, Option.some.injEq] at h
      exact h ▸ .startDecomp w place
    | _ => simp [place, nextDecomp] at h
  | running =>
    cases act with
    | start => simp [place, nextDecomp] at h
    | step act =>
      simp only [place, nextDecomp, Option.map_eq_some_iff] at h
      obtain ⟨pipe, taken, rfl⟩ := h
      exact .work w act pipe place taken
    | leave =>
      simp only [place, nextDecomp] at h
      split at h
      next exited =>
        cases h
        exact .leaveDecomp w place exited
      next => cases h

/-- A step of the reader thread. -/
theorem effect_reader {s t : State n} {act : ReaderAct}
    (h : nextReader s act s.reader = some t) : Effect s (.reader act) t := by
  cases place : s.reader with
  | uncreated | ended => cases act <;> simp [place, nextReader] at h
  | created =>
    cases act with
    | start =>
      simp only [place, nextReader, Option.some.injEq] at h
      exact h ▸ .startReader place
    | _ => simp [place, nextReader] at h
  | running =>
    cases act with
    | start | leave => simp [place, nextReader] at h
    | add input =>
      simp only [place, nextReader, Option.map_eq_some_iff] at h
      obtain ⟨pipe, taken, same⟩ := h
      rw [← place] at same
      exact same ▸ .produce _ _ pipe place (by simp) taken
    | resume =>
      simp only [place, nextReader, Option.map_eq_some_iff] at h
      obtain ⟨pipe, taken, same⟩ := h
      rw [← place] at same
      exact same ▸ .produce _ _ pipe place (by simp) taken
    | close =>
      simp only [place, nextReader, Option.map_eq_some_iff] at h
      obtain ⟨pipe, taken, same⟩ := h
      exact same ▸ .close pipe place taken
  | closed =>
    cases act with
    | leave =>
      simp only [place, nextReader, Option.some.injEq] at h
      exact h ▸ .leaveReader place
    | _ => simp [place, nextReader] at h

/-- A step changes the state only as listed. -/
theorem Step.effect {s t : State n} {act : Act n} (h : Step s act t) : Effect s act t := by
  cases act with
  | main act => exact effect_main h
  | decomp w act => exact effect_decomp h
  | reader act => exact effect_reader h

/-! ## The counter -/

/-- How many decompression threads count in `g_secthreads`. -/
def runningDecomp (decomp : Fin n → Stage) : Nat :=
  (Finset.univ.filter fun w => decomp w = .running).card

/-- A change between two stages that do not count. -/
theorem runningDecomp_same {decomp : Fin n → Stage} {w : Fin n} {stage : Stage}
    (before : decomp w ≠ .running) (after : stage ≠ .running) :
    runningDecomp (Function.update decomp w stage) = runningDecomp decomp := by
  unfold runningDecomp
  congr 1
  ext w'
  by_cases same : w' = w
  · subst same
    simp [before, after]
  · simp [Function.update_of_ne same]

/-- A thread that starts counts one more. -/
theorem runningDecomp_start {decomp : Fin n → Stage} {w : Fin n} (before : decomp w ≠ .running) :
    runningDecomp (Function.update decomp w .running) = runningDecomp decomp + 1 := by
  have grown : (Finset.univ.filter fun w' => Function.update decomp w .running w' = .running) =
      insert w (Finset.univ.filter fun w' => decomp w' = .running) := by
    ext w'
    by_cases same : w' = w
    · simp [same]
    · simp [same]
  unfold runningDecomp
  rw [grown, Finset.card_insert_of_notMem (by simp [before])]

/-- A thread that leaves counts one less. -/
theorem runningDecomp_leave {decomp : Fin n → Stage} {w : Fin n} (before : decomp w = .running) :
    runningDecomp (Function.update decomp w .ended) = runningDecomp decomp - 1 := by
  have shrunk : (Finset.univ.filter fun w' => Function.update decomp w .ended w' = .running) =
      (Finset.univ.filter fun w' => decomp w' = .running).erase w := by
    ext w'
    by_cases same : w' = w
    · simp [same]
    · simp [same]
  unfold runningDecomp
  rw [shrunk, Finset.card_erase_of_mem (by simp [before])]

/-- A thread that counts makes the number positive. -/
theorem runningDecomp_pos {decomp : Fin n → Stage} {w : Fin n} (running : decomp w = .running) :
    0 < runningDecomp decomp :=
  Finset.card_pos.mpr ⟨w, by simp [running]⟩

/-! ## The invariant -/

/-- Decompression may turn a block into any other, or fail. -/
abbrev anyOutcome : Outcome := fun _ _ => True

/-- What holds in every state of every run. -/
structure Inv (s : State n) : Prop where
  /-- The queue keeps its own invariant. -/
  pipe : s.pipe.Inv anyOutcome
  /-- The counter says how many threads run. -/
  counted : s.secthreads = runningDecomp s.decomp + s.reader.counted
  /-- Only the reader closes the queue. -/
  closed : s.pipe.queue.endofqueue = true → s.reader = .closed ∨ s.reader = .ended
  /-- Only the running reader adds items. -/
  idle : s.reader ≠ .running → s.pipe.adding = none
  /-- The threads are created in order. -/
  fresh : ∀ i, s.main = .creating i →
    (∀ w : Fin n, i ≤ w → s.decomp w = .uncreated) ∧ s.reader = .uncreated

/-- The invariant holds at the start. -/
theorem Inv.init (n blkmax : Nat) : Inv (State.init n blkmax) where
  pipe := .init blkmax
  counted := by simp [State.init, runningDecomp, ReaderStage.counted]
  closed ended := by simp [State.init, Pipe.init, queueInit] at ended
  idle _ := rfl
  fresh _ _ := ⟨fun _ _ => rfl, rfl⟩

/-- Every step of the queue is one in which decompression does what it may do. -/
theorem pipe_step {pipe pipe' : Pipe (Fin n)} {act : FsArchiver.Act (Fin n)}
    (taken : pipe.next act = some pipe') : Pipe.Step anyOutcome pipe act pipe' :=
  ⟨taken, fun _ _ _ _ _ _ => trivial⟩

/-- Only `queue_set_end_of_queue` changes whether the queue is closed. -/
theorem endofqueue_kept {pipe pipe' : Pipe (Fin n)} {act : FsArchiver.Act (Fin n)}
    (inv : pipe.Inv anyOutcome) (taken : pipe.next act = some pipe') (other : act ≠ .setEnd) :
    pipe'.queue.endofqueue = pipe.queue.endofqueue := by
  cases (pipe_step taken).effect with
  | close idle => exact absurd rfl other
  | replace w num blk before =>
    obtain ⟨front, rest, blk', split, success, replaced⟩ := inv.replace_found before
    rw [replaced]
    rfl
  | _ => rfl

/-- A queue to which nothing is being added stays so, unless the producer calls it. -/
theorem adding_kept {pipe pipe' : Pipe (Fin n)} {act : FsArchiver.Act (Fin n)}
    (taken : pipe.next act = some pipe') (quiet : ∀ input, act ≠ .add input)
    (idle : pipe.adding = none) : pipe'.adding = none := by
  cases (pipe_step taken).effect with
  | wait input offer =>
    rcases offer with ⟨isAdd, _⟩ | ⟨_, waiting⟩
    · exact absurd isAdd (quiet input)
    · rw [idle] at waiting
      cases waiting
  | link input offer => rfl
  | refuse input => rfl
  | _ => exact idle

/-- The producer that closes the queue is not adding to it. -/
theorem adding_after_end {pipe pipe' : Pipe (Fin n)} (taken : pipe.next .setEnd = some pipe') :
    pipe'.adding = none := by
  simp only [Pipe.next] at taken
  split at taken
  next isNone =>
    cases taken
    exact Option.isNone_iff_eq_none.mp isNone
  next => cases taken

/-- A step of the queue that does not close it keeps the invariant, when only the running
reader adds items. -/
theorem Inv.pass {s : State n} (inv : Inv s) {act : FsArchiver.Act (Fin n)} {pipe : Pipe (Fin n)}
    (taken : s.pipe.next act = some pipe) (other : act ≠ .setEnd)
    (producer : s.reader = .running ∨ ∀ input, act ≠ .add input) : Inv { s with pipe } where
  pipe := inv.pipe.step (pipe_step taken)
  counted := inv.counted
  closed ended := inv.closed (by rw [← endofqueue_kept inv.pipe taken other]; exact ended)
  idle stopped := by
    have quiet := producer.resolve_left stopped
    exact adding_kept taken quiet (inv.idle stopped)
  fresh := inv.fresh

/-- The main thread may go to any place after the creation of the threads. -/
theorem Inv.goto {s : State n} (inv : Inv s) {main : MainPc} (onward : ∀ i, main ≠ .creating i) :
    Inv { s with main } where
  pipe := inv.pipe
  counted := inv.counted
  closed := inv.closed
  idle := inv.idle
  fresh i place := absurd place (onward i)

/-- A decompression thread that was created and goes on keeps the invariant, when the counter
follows. -/
theorem Inv.enter {s : State n} (inv : Inv s) {w : Fin n} {stage : Stage} {secthreads : Nat}
    (was : s.decomp w ≠ .uncreated)
    (counted : secthreads = runningDecomp (Function.update s.decomp w stage) + s.reader.counted) :
    Inv { s.enter w stage with secthreads } where
  pipe := inv.pipe
  counted := counted
  closed := inv.closed
  idle := inv.idle
  fresh i place := by
    obtain ⟨later, noReader⟩ := inv.fresh i place
    refine ⟨fun w' after => ?_, noReader⟩
    have other : w' ≠ w := fun same => was (same ▸ later w' after)
    simpa [State.enter, Function.update_of_ne other] using later w' after

/-- Every step keeps the invariant. -/
theorem Inv.effect {s t : State n} {act : Act n} (inv : Inv s) (h : Effect s act t) : Inv t := by
  cases h with
  | createDecomp w place =>
    obtain ⟨later, noReader⟩ := inv.fresh w place
    have before : s.decomp w ≠ .running := by simp [later w (Nat.le_refl _)]
    refine ⟨inv.pipe, ?_, inv.closed, inv.idle, fun i next => ⟨fun w' after => ?_, noReader⟩⟩
    · rw [State.enter, runningDecomp_same before (by simp)]
      exact inv.counted
    · have index : (w : Nat) + 1 = i := by simpa using next
      have other : w' ≠ w := by
        intro same
        rw [same] at after
        omega
      simpa [State.enter, Function.update_of_ne other] using later w' (by omega)
  | createReader i place =>
    obtain ⟨_, noReader⟩ := inv.fresh i place
    have counted := inv.counted
    rw [noReader] at counted
    refine ⟨inv.pipe, counted, fun ended => ?_, fun _ => inv.idle (by simp [noReader]), by simp⟩
    have closed := inv.closed ended
    simp [noReader] at closed
  | goto act main onward before reason => exact inv.goto onward
  | take act call pipe main onward before taken =>
    have passed := inv.pass taken (by simp) (.inr (by simp))
    exact passed.goto (by rcases onward with rfl | rfl <;> simp)
  | startDecomp w before =>
    refine inv.enter (by simp [before]) ?_
    rw [runningDecomp_start (by simp [before]), inv.counted]
    omega
  | work w act pipe before taken => exact inv.pass taken (by simp) (.inr (by simp))
  | leaveDecomp w before exited =>
    refine inv.enter (by simp [before]) ?_
    have positive := runningDecomp_pos before
    rw [runningDecomp_leave before, inv.counted]
    omega
  | startReader before =>
    have counted := inv.counted
    rw [before] at counted
    refine ⟨inv.pipe, ?_, fun ended => ?_, by simp, fun i place => ?_⟩
    · simpa [ReaderStage.counted] using counted
    · have closed := inv.closed ended
      simp [before] at closed
    · have fresh := (inv.fresh i place).2
      simp [before] at fresh
  | produce act call pipe before other taken => exact inv.pass taken other (.inl before)
  | close pipe before taken =>
    have counted := inv.counted
    rw [before] at counted
    refine ⟨inv.pipe.step (pipe_step taken), counted, fun _ => .inl rfl, fun _ => ?_,
      fun i place => ?_⟩
    · exact adding_after_end taken
    · have fresh := (inv.fresh i place).2
      simp [before] at fresh
  | leaveReader before =>
    have counted := inv.counted
    rw [before] at counted
    refine ⟨inv.pipe, ?_, fun _ => .inr rfl, fun _ => inv.idle (by simp [before]),
      fun i place => ?_⟩
    · simp only [ReaderStage.counted] at counted ⊢
      omega
    · have fresh := (inv.fresh i place).2
      simp [before] at fresh

/-- Every step keeps the invariant. -/
theorem Inv.step {s t : State n} {act : Act n} (inv : Inv s) (h : Step s act t) : Inv t :=
  inv.effect h.effect

/-- The invariant holds in every state of every run. -/
theorem inv_of_trace {blkmax : Nat} {trace : List (Act n × State n)}
    (run : Trace Step (State.init n blkmax) trace) :
    ∀ s ∈ Trace.states (State.init n blkmax) trace, Inv s :=
  Trace.invariant_of_step (fun _ _ _ inv h => inv.step h) run (.init n blkmax)

/-! ## When the restore stops cleanly -/

/-- `queue_get_end_of_queue` is true only at the end of the queue. -/
theorem Inv.atEnd {s : State n} (inv : Inv s) (ended : queueGetEndOfQueue s.pipe.queue = true) :
    s.AtEnd :=
  ⟨(Bool.and_eq_true_iff.mp ended).2, inv.pipe.wf.items_of_end ended⟩

/-- When the counter is zero, the threads that started have terminated. -/
theorem Inv.terminated_iff {s : State n} (inv : Inv s) (noneRuns : s.secthreads = 0) :
    s.Terminated ↔ s.Started := by
  have counted := inv.counted
  rw [noneRuns] at counted
  have decomp : ∀ w, s.decomp w ≠ .running := by
    intro w running
    have positive := runningDecomp_pos running
    omega
  have reader : s.reader.counted = 0 := by omega
  constructor
  · rintro ⟨decompEnded, readerEnded⟩
    refine ⟨fun w => ?_, ?_⟩
    · rcases decompEnded w with before | before <;> simp [before]
    · rcases readerEnded with before | before <;> simp [before]
  · rintro ⟨decompStarted, readerStarted⟩
    refine ⟨fun w => ?_, ?_⟩
    · cases place : s.decomp w with
      | uncreated => exact .inl rfl
      | created => exact absurd place (decompStarted w)
      | running => exact absurd place (decomp w)
      | ended => exact .inr rfl
    · cases place : s.reader with
      | uncreated => exact .inl rfl
      | created => exact absurd place readerStarted
      | running | closed => simp [place, ReaderStage.counted] at reader
      | ended => exact .inr rfl

/-- A thread that works on a queue at its end leaves it there. -/
theorem Inv.atEnd_work {s : State n} (inv : Inv s) {w : Fin n} {act : WorkerAct}
    {pipe : Pipe (Fin n)} (taken : s.pipe.next (.worker w act) = some pipe) (ended : s.AtEnd) :
    ({ s with pipe } : State n).AtEnd := by
  refine ⟨(endofqueue_kept inv.pipe taken (by simp)).trans ended.1, ?_⟩
  have empty := ended.2
  cases (pipe_step taken).effect with
  | wait input offer | link input offer =>
    rcases offer with ⟨isAdd, _⟩ | ⟨isResume, _⟩
    · cases isAdd
    · cases isResume
  | take w num blk front rest before split => simp [empty] at split
  | replace w num blk before =>
    obtain ⟨front, rest, blk', split, success, replaced⟩ := inv.pipe.replace_found before
    simp [empty] at split
  | move | process | fail => exact empty

/-- A thread that has not terminated when the main thread joins works on a queue at its end. -/
theorem atEnd_of_decomp {s : State n} (w : Fin n) (clean : s.Terminated ∨ s.AtEnd)
    (created : s.decomp w ≠ .uncreated) (alive : s.decomp w ≠ .ended) : s.AtEnd := by
  refine clean.resolve_left fun terminated => ?_
  rcases terminated.1 w with before | after
  · exact created before
  · exact alive after

/-- A reader that has not terminated when the main thread joins is between closing the queue
and its end. -/
theorem Inv.closed_of_reader {s : State n} (inv : Inv s) (clean : s.Terminated ∨ s.AtEnd)
    (created : s.reader ≠ .uncreated) (alive : s.reader ≠ .ended) :
    s.reader = .closed ∧ s.AtEnd := by
  have ended : s.AtEnd := by
    refine clean.resolve_left fun terminated => ?_
    rcases terminated.2 with before | after
    · exact created before
    · exact alive after
  exact ⟨(inv.closed ended.1).resolve_right alive, ended⟩

/-- Once the main thread joins the threads, no step of theirs spoils a clean stop. -/
theorem Inv.clean_joining {s t : State n} {act : Act n} (inv : Inv s) (joins : s.main = .joining)
    (clean : s.Terminated ∨ s.AtEnd) (h : Effect s act t) : t.Terminated ∨ t.AtEnd := by
  cases h with
  | createDecomp w place | createReader i place => simp [joins] at place
  | goto act main onward before reason => exact absurd joins before
  | take act call pipe main onward before taken => exact absurd joins before
  | startDecomp w before =>
    have ended := atEnd_of_decomp w clean (by simp [before]) (by simp [before])
    exact .inr ended
  | work w act pipe before taken =>
    have ended := atEnd_of_decomp w clean (by simp [before]) (by simp [before])
    exact .inr (inv.atEnd_work taken ended)
  | leaveDecomp w before exited =>
    have ended := atEnd_of_decomp w clean (by simp [before]) (by simp [before])
    exact .inr ended
  | startReader before =>
    have closed := (inv.closed_of_reader clean (by simp [before]) (by simp [before])).1
    simp [before] at closed
  | produce act call pipe before other taken =>
    have closed := (inv.closed_of_reader clean (by simp [before]) (by simp [before])).1
    simp [before] at closed
  | close pipe before taken =>
    have closed := (inv.closed_of_reader clean (by simp [before]) (by simp [before])).1
    simp [before] at closed
  | leaveReader before =>
    exact .inr (inv.closed_of_reader clean (by simp [before]) (by simp [before])).2

/-- Only the main thread goes to its joins: by a counter of zero, or by the end of the queue. -/
theorem joining_cases {s t : State n} {act : Act n} (h : Effect s act t)
    (joins : t.main = .joining) : s.main = .joining ∨
      ((t.Terminated ↔ s.Terminated) ∧ (t.AtEnd ↔ s.AtEnd) ∧
        (act = .main .testThreads ∧ s.secthreads = 0 ∨
          queueGetEndOfQueue s.pipe.queue = true)) := by
  cases h with
  | goto act main onward before reason =>
    refine .inr ⟨Iff.rfl, Iff.rfl, ?_⟩
    rcases reason joins with ⟨rfl, noneRuns⟩ | ended
    · exact .inl ⟨rfl, noneRuns⟩
    · exact .inr ended
  | createDecomp w place | createReader i place => cases joins
  | take act call pipe main onward before taken =>
    rcases onward with rfl | rfl <;> cases joins
  | _ => exact .inl joins

/-- The main thread reads a counter of zero only after every thread it created has started, or
when the queue has ended. -/
def Prompt (s : State n) (act : Act n) : Prop :=
  act = .main .testThreads → s.secthreads = 0 → s.Started ∨ s.AtEnd

/-- A step that is prompt keeps the stop clean. -/
theorem Inv.clean_step {s t : State n} {act : Act n} (inv : Inv s) (clean : s.Clean)
    (prompt : Prompt s act) (h : Step s act t) : t.Clean := by
  intro joins
  rcases joining_cases h.effect joins with joined | ⟨terminated, atEnd, reason⟩
  · exact inv.clean_joining joined (clean joined) h.effect
  · rw [terminated, atEnd]
    rcases reason with ⟨rfl, noneRuns⟩ | ended
    · rw [inv.terminated_iff noneRuns]
      exact prompt rfl noneRuns
    · exact .inr (inv.atEnd ended)

/-- A step that keeps the stop clean is prompt. -/
theorem Inv.prompt_of_clean {s t : State n} {act : Act n} (inv : Inv s) (clean : t.Clean)
    (h : Step s act t) : Prompt s act := by
  rintro rfl noneRuns
  have place : s.main = .testingThreads := by
    by_contra other
    simp only [Step, State.next] at h
    cases main : s.main with
    | testingThreads => exact other main
    | _ => simp [main, nextMain] at h
  have after : t = { s with main := .joining } := by
    simpa [Step, State.next, place, nextMain, noneRuns, eq_comm] using h
  subst after
  rw [← inv.terminated_iff noneRuns]
  exact clean rfl

/-- In a run of a restore the main thread only ever joins threads that have terminated, or that
work on a queue at its end, if and only if it reads a counter of zero only after every thread it
created has started or when the queue has ended. -/
theorem clean_shutdown_iff {blkmax : Nat} {trace : List (Act n × State n)}
    (run : Trace Step (State.init n blkmax) trace) :
    (∀ s ∈ Trace.states (State.init n blkmax) trace, s.Clean) ↔
      ∀ before act after rest, trace = before ++ (act, after) :: rest →
        Prompt (Trace.last (State.init n blkmax) before) act := by
  constructor
  · rintro clean before act after rest rfl
    have taken := Trace.step_of_split run
    obtain ⟨first, next⟩ :=
      Trace.mem_states_of_split (State.init n blkmax) after act before rest
    exact (inv_of_trace run _ first).prompt_of_clean (clean _ next) taken
  · intro prompt
    have both := Trace.invariant (fun s act => Prompt s act)
      (fun s act t (holds : Inv s ∧ s.Clean) allowed taken =>
        ⟨holds.1.step taken, holds.1.clean_step holds.2 allowed taken⟩)
      run ⟨.init n blkmax, by simp [State.Clean, State.init]⟩ prompt
    exact fun s member => (both s member).2

/-! ## What an unclean stop leads to -/

/-- The main thread joins thread `w`, the reader thread has left, and every item of the queue is
one that only the main thread would take. -/
structure Stranded (w : Fin n) (s : State n) : Prop where
  joins : s.main = .joining
  noReader : s.reader = .ended
  alive : s.decomp w = .created ∨ s.decomp w = .running
  held : s.pipe.queue.items ≠ []
  done : ∀ item ∈ s.pipe.queue.items, item.status = .done
  loops : ∀ w', s.pipe.workers w' = .top ∨ s.pipe.workers w' = .getting

/-- A stranded thread is not joined cleanly. -/
theorem Stranded.unclean {s : State n} {w : Fin n} (stranded : Stranded w s) : ¬s.Clean := by
  intro clean
  rcases clean stranded.joins with terminated | ended
  · have before := stranded.alive
    rcases terminated.1 w with after | after <;> simp [after] at before
  · exact stranded.held ended.2

/-- A thread that finds no block to do and no end of the queue stays in its loop. -/
theorem Stranded.work {s : State n} {w w' : Fin n} {act : WorkerAct} {pipe : Pipe (Fin n)}
    (inv : Inv s) (stranded : Stranded w s) (taken : s.pipe.next (.worker w' act) = some pipe) :
    Stranded w { s with pipe } := by
  have opened : queueGetEndOfQueue s.pipe.queue = false := by
    by_contra ended
    exact stranded.held (inv.pipe.wf.items_of_end (by simpa using ended))
  have moved (pc : WorkerPc) (loop : pc = .top ∨ pc = .getting) :
      Stranded w { s with pipe := s.pipe.move w' pc } := by
    refine ⟨stranded.joins, stranded.noReader, stranded.alive, stranded.held, stranded.done, ?_⟩
    intro other
    by_cases same : other = w'
    · rw [same, Pipe.move_same]
      exact loop
    · rw [Pipe.move_other same]
      exact stranded.loops other
  simp only [Pipe.next] at taken
  rcases stranded.loops w' with place | place
  · cases act with
    | test =>
      simp only [place, Pipe.nextWorker, opened, Option.some.injEq] at taken
      exact taken ▸ moved .getting (.inr rfl)
    | _ => simp [place, Pipe.nextWorker] at taken
  · cases act with
    | getError =>
      simp only [place, Pipe.nextWorker, Option.some.injEq] at taken
      exact taken ▸ moved .top (.inl rfl)
    | get =>
      have nothing : takeTodo s.pipe.queue.items = none := by
        by_contra found
        obtain ⟨⟨num, blk, items⟩, found⟩ := Option.ne_none_iff_exists'.mp found
        obtain ⟨front, rest, split, _⟩ := takeTodo_eq_some found
        have isDone := stranded.done ⟨num, .todo, .block blk⟩ (by simp [split])
        cases isDone
      simp [place, Pipe.nextWorker, queueGetFirstBlockTodo, opened, nothing] at taken
    | _ => simp [place, Pipe.nextWorker] at taken

/-- No step frees the main thread. -/
theorem Stranded.step {s t : State n} {w : Fin n} {act : Act n} (inv : Inv s)
    (stranded : Stranded w s) (h : Step s act t) : Stranded w t := by
  have joins := stranded.joins
  have noReader := stranded.noReader
  cases h.effect with
  | createDecomp w' place | createReader i place => simp [joins] at place
  | goto act main onward before reason => exact absurd joins before
  | take act call pipe main onward before taken => exact absurd joins before
  | startReader before | leaveReader before => simp [noReader] at before
  | produce act call pipe before other taken => simp [noReader] at before
  | close pipe before taken => simp [noReader] at before
  | work w' act pipe before taken => exact stranded.work inv taken
  | leaveDecomp w' before exited =>
    rcases stranded.loops w' with place | place <;> simp [place] at exited
  | startDecomp w' before =>
    refine ⟨joins, noReader, ?_, stranded.held, stranded.done, stranded.loops⟩
    by_cases same : w = w'
    · exact .inr (by simp [State.enter, same])
    · simpa [State.enter, Function.update_of_ne same] using stranded.alive

/-- The join of a stranded thread never returns: whatever the threads do, it does not
terminate. -/
theorem stranded_forever {s : State n} {w : Fin n} (inv : Inv s) (stranded : Stranded w s)
    {trace : List (Act n × State n)} (run : Trace Step s trace) :
    ∀ t ∈ Trace.states s trace, Stranded w t := by
  have both := Trace.invariant_of_step (fun s act t (holds : Inv s ∧ Stranded w s) taken =>
    ⟨holds.1.step taken, holds.2.step holds.1 taken⟩) run ⟨inv, stranded⟩
  exact fun t member => (both t member).2

/-- A restore whose decompression thread starts in time. -/
theorem clean_shutdown_one_thread : ∃ trace : List (Act 1 × State 1),
    Trace Step (State.init 1 32) trace ∧ trace.length = 11 ∧
      ∀ s ∈ Trace.states (State.init 1 32) trace, s.Clean := by
  have run : Trace Step (State.init 1 32) _ :=
    .cons (show Step _ (.main .create) _ from rfl) <|
    .cons (show Step _ (.main .create) _ from rfl) <|
    .cons (show Step _ (.decomp 0 .start) _ from rfl) <|
    .cons (show Step _ (.reader .start) _ from rfl) <|
    .cons (show Step _ (.reader .close) _ from rfl) <|
    .cons (show Step _ (.reader .leave) _ from rfl) <|
    .cons (show Step _ (.decomp 0 (.step .test)) _ from rfl) <|
    .cons (show Step _ (.decomp 0 .leave) _ from rfl) <|
    .cons (show Step _ (.main .finish) _ from rfl) <|
    .cons (show Step _ (.main .countTodo) _ from rfl) <|
    .cons (show Step _ (.main .testThreads) _ from rfl) <|
    .nil _
  refine ⟨_, run, rfl, (clean_shutdown_iff run).mpr ?_⟩
  iterate 10 refine Trace.allowed_cons (by simp [Prompt]) ?_
  refine Trace.allowed_cons (fun _ _ => .inl ⟨fun w => ?_, by decide⟩) (Trace.allowed_nil _)
  rw [Fin.fin_one_eq_zero w]
  decide

/-- A main header and one more header, as the reader thread adds them. -/
def twoHeaders : Input × Input :=
  (.header ⟨.main, filesysidNull, .alloc⟩, .header ⟨.fsin, filesysidNull, .alloc⟩)

/-- A decompression thread that has not started when the reader thread has left: the main
thread finds a counter of zero, and joins a thread for which a header stays in the queue. -/
theorem stranded_late_thread : ∃ trace : List (Act 1 × State 1),
    Trace Step (State.init 1 32) trace ∧ Stranded 0 (Trace.last (State.init 1 32) trace) := by
  have run : Trace Step (State.init 1 32) _ :=
    .cons (show Step _ (.main .create) _ from rfl) <|
    .cons (show Step _ (.main .create) _ from rfl) <|
    .cons (show Step _ (.reader .start) _ from rfl) <|
    .cons (show Step _ (.reader (.add twoHeaders.1)) _ from rfl) <|
    .cons (show Step _ (.reader (.add twoHeaders.2)) _ from rfl) <|
    .cons (show Step _ (.main (.consume .dequeueHeader)) _ from rfl) <|
    .cons (show Step _ (.main .finish) _ from rfl) <|
    .cons (show Step _ (.reader .close) _ from rfl) <|
    .cons (show Step _ (.reader .leave) _ from rfl) <|
    .cons (show Step _ (.main .countTodo) _ from rfl) <|
    .cons (show Step _ (.main .testThreads) _ from rfl) <|
    .nil _
  refine ⟨_, run, rfl, rfl, .inl rfl, by decide, ?_, fun _ => .inl rfl⟩
  intro item member
  rw [List.mem_singleton.mp member]

/-- The restore does not always stop cleanly. -/
theorem unclean_shutdown : ¬∀ (n blkmax : Nat) (trace : List (Act n × State n)),
    Trace Step (State.init n blkmax) trace →
      ∀ s ∈ Trace.states (State.init n blkmax) trace, s.Clean := by
  intro clean
  obtain ⟨trace, run, stranded⟩ := stranded_late_thread
  exact stranded.unclean (clean 1 32 trace run _ (Trace.last_mem _ _))

end FsArchiver.Shutdown
