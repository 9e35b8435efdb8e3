import Mathlib.Data.List.Forall2
import FsArchiver.Lib.Relay
import FsArchiver.Queue

/-!
# The queue between its threads

One producer, any number of threads in `compression_function`, and one consumer share the
queue. A step is one critical section of `Queue.lean`, or a piece of a worker's code between
two of them; a run interleaves the steps of all threads in any order. What was pushed and what
was taken are recorded in the state next to the queue.

`Pipe.Effect` says once what each step can change. The invariant `Pipe.Inv` and the simulation
of a relay are derived from it.
-/
namespace FsArchiver

open Lib

/-- One call of the producer. -/
inductive Input where
  /-- `queue_add_header`. -/
  | header (headinfo : HeadInfo)
  /-- `queue_add_block` with `QITEM_STATUS_TODO`. -/
  | todo (blkinfo : BlockInfo)
  /-- `queue_add_block` with `QITEM_STATUS_DONE`. -/
  | ready (blkinfo : BlockInfo)
  deriving DecidableEq

namespace Input

/-- What the item holds when it is pushed. -/
def data : Input → QueueData
  | .header headinfo => .header headinfo
  | .todo blkinfo | .ready blkinfo => .block blkinfo

/-- The status the item is pushed with. -/
def status : Input → ItemStatus
  | .header _ | .ready _ => .done
  | .todo _ => .todo

/-- The call, from the moment it takes the mutex. -/
def enter (q : Queue) : Input → Locked (Except FsaErr Unit)
  | .header headinfo => queueAddHeader q headinfo
  | .todo blkinfo => queueAddBlock q blkinfo .todo
  | .ready blkinfo => queueAddBlock q blkinfo .done

/-- The item the consumer is meant to receive: a block to do comes out processed. -/
def finish (f : BlockInfo → BlockInfo) : Input → QueueData
  | .header headinfo => .header headinfo
  | .todo blkinfo => .block (f blkinfo)
  | .ready blkinfo => .block blkinfo

/-- The two functions are one function of the data and the status. -/
theorem enter_eq (q : Queue) (input : Input) :
    input.enter q = queueAddEnter q input.data input.status := by
  cases input <;> rfl

end Input

/-- What `compress_block_generic` or `decompress_block_generic` may do with a block: change it,
or fail. -/
abbrev Outcome := BlockInfo → Option BlockInfo → Prop

/-- What may come out for an input when blocks are processed with these outcomes. -/
inductive Yields (outcome : Outcome) : Input → QueueData → Prop
  | header (headinfo : HeadInfo) : Yields outcome (.header headinfo) (.header headinfo)
  | todo {blkinfo blkinfo' : BlockInfo} (success : outcome blkinfo (some blkinfo')) :
      Yields outcome (.todo blkinfo) (.block blkinfo')
  | ready (blkinfo : BlockInfo) : Yields outcome (.ready blkinfo) (.block blkinfo)

/-- Where a thread stands in `compression_function`. -/
inductive WorkerPc where
  /-- At the test of the `while` loop. -/
  | top
  /-- Inside `queue_get_first_block_todo`. -/
  | getting
  /-- Has taken a block and processes its copy. -/
  | processing (num : Nat) (blkinfo : BlockInfo)
  /-- Has processed a block and is about to call `queue_replace_block`. -/
  | replacing (num : Nat) (blkinfo : BlockInfo)
  /-- Has left the function. -/
  | exited
  deriving DecidableEq

/-- The block a thread has taken and not yet given back. -/
def WorkerPc.held : WorkerPc → Option Nat
  | .processing num _ | .replacing num _ => some num
  | .top | .getting | .exited => none

/-- Steps of a thread in `compression_function`. -/
inductive WorkerAct where
  /-- `queue_get_end_of_queue`: go on, or leave the function with success. -/
  | test
  /-- `queue_get_first_block_todo` returns. -/
  | get
  /-- `queue_get_first_block_todo` gives up because waiting failed. -/
  | getError
  /-- The block is processed; without a result the thread goes to `thread_comp_fct_error`. -/
  | process (result : Option BlockInfo)
  /-- `queue_replace_block`, whose result is not looked at. -/
  | replace
  deriving DecidableEq

/-- The functions a consumer calls. -/
inductive ConsumerCall where
  | dequeueFirst | dequeueBlock | dequeueHeader | checkNextItem | destroyFirstItem
  deriving DecidableEq

/-- What a call of the consumer does when it succeeds. -/
inductive Taken where
  /-- The first item was looked at. -/
  | looked
  /-- The first item was received. -/
  | received (data : QueueData)
  /-- The first item was dropped. -/
  | dropped
  deriving DecidableEq

/-- The outcome of a critical section with another result. -/
def Locked.map {α β : Type} (g : α → β) : Locked α → Locked β
  | .wait => .wait
  | .unlock queue result => .unlock queue (g result)

/-- A critical section of the consumer. -/
def ConsumerCall.run (q : Queue) : ConsumerCall → Locked (Except FsaErr Taken)
  | .dequeueFirst => (queueDequeueFirst q).map fun result => result.map .received
  | .dequeueBlock =>
    (queueDequeueBlock q).map fun result => result.map fun blk => .received (.block blk)
  | .dequeueHeader =>
    (queueDequeueHeader q).map fun result => result.map fun head => .received (.header head)
  | .checkNextItem => (queueCheckNextItem q).map fun result => result.map fun _ => .looked
  | .destroyFirstItem => (queueDestroyFirstItem q).map fun result => result.map fun _ => .dropped

/-- The queue, its threads, and the record of what passed. -/
structure Pipe (ι : Type) where
  /-- `g_queue`. -/
  queue : Queue
  /-- The item whose addition waits for a queue that is not full. -/
  adding : Option Input
  /-- The threads in `compression_function`. -/
  workers : ι → WorkerPc
  /-- Everything added to the queue. -/
  pushed : List Input
  /-- Everything removed from it; a dropped item is recorded without its data. -/
  taken : List (Option QueueData)
  /-- The consumer was told of the end of the queue. -/
  sawEnd : Bool

/-- Steps of all threads. -/
inductive Act (ι : Type) where
  /-- The producer calls a function that adds an item. -/
  | add (input : Input)
  /-- The producer wakes up in that function. -/
  | resume
  /-- The producer calls `queue_set_end_of_queue(true)`. -/
  | setEnd
  /-- A step of a thread in `compression_function`. -/
  | worker (w : ι) (act : WorkerAct)
  /-- A call of the consumer returns. -/
  | consume (call : ConsumerCall)
  deriving DecidableEq

/-- Whether a step is the failure of the block function. -/
def Act.fails {ι : Type} : Act ι → Bool
  | .worker _ (.process none) => true
  | _ => false

namespace Pipe

variable {ι : Type}

/-- A new queue, with every thread at the start of its function. -/
def init (ι : Type) (blkmax : Nat) : Pipe ι :=
  { queue := queueInit blkmax, adding := none, workers := fun _ => .top, pushed := [], taken := []
    sawEnd := false }

/-- How a critical section that adds an item leaves the state. -/
def added (s : Pipe ι) (input : Input) : Locked (Except FsaErr Unit) → Pipe ι
  | .wait => { s with adding := some input }
  | .unlock queue (.ok ()) => { s with queue, adding := none, pushed := s.pushed ++ [input] }
  | .unlock queue (.error _) => { s with queue, adding := none }

/-- A thread goes to another place in its function. -/
def move [DecidableEq ι] (s : Pipe ι) (w : ι) (pc : WorkerPc) : Pipe ι :=
  { s with workers := Function.update s.workers w pc }

/-- `compression_function`, one step. -/
def nextWorker [DecidableEq ι] (s : Pipe ι) (w : ι) : WorkerAct → WorkerPc → Option (Pipe ι)
  | .test, .top => some (s.move w (if queueGetEndOfQueue s.queue then .exited else .getting))
  | .get, .getting =>
    match queueGetFirstBlockTodo s.queue with
    | .wait => none
    | .unlock queue (.ok (num, blk)) => some ({ s with queue }.move w (.processing num blk))
    | .unlock queue (.error _) => some ({ s with queue }.move w .top)
  | .getError, .getting => some (s.move w .top)
  | .process (some blk), .processing num _ => some (s.move w (.replacing num blk))
  | .process none, .processing _ _ => some (s.move w .exited)
  | .replace, .replacing num blk =>
    some ({ s with queue := (queueReplaceBlock s.queue num blk .done).1 }.move w .top)
  | _, _ => none

/-- How a critical section of the consumer leaves the state. -/
def consumed (s : Pipe ι) (queue : Queue) : Except FsaErr Taken → Pipe ι
  | .ok .looked => { s with queue }
  | .ok (.received data) => { s with queue, taken := s.taken ++ [some data] }
  | .ok .dropped => { s with queue, taken := s.taken ++ [none] }
  | .error .endoffile => { s with queue, sawEnd := true }
  | .error _ => { s with queue }

/-- The state after a step, if the step can be taken. -/
def next [DecidableEq ι] (s : Pipe ι) : Act ι → Option (Pipe ι)
  | .add input => if s.adding.isNone then some (s.added input (input.enter s.queue)) else none
  | .resume =>
    match s.adding with
    | some input => some (s.added input (queueAddResume s.queue input.data input.status))
    | none => none
  | .setEnd =>
    if s.adding.isNone then some { s with queue := queueSetEndOfQueue s.queue true } else none
  | .worker w act => s.nextWorker w act (s.workers w)
  | .consume call =>
    match call.run s.queue with
    | .wait => none
    | .unlock queue result => some (s.consumed queue result)

/-- A step in which the block function does what it may do. -/
def Step [DecidableEq ι] (outcome : Outcome) (s : Pipe ι) (act : Act ι) (t : Pipe ι) : Prop :=
  s.next act = some t ∧
    ∀ w result num blk, act = .worker w (.process result) → s.workers w = .processing num blk →
      outcome blk result

/-! ## What a step can change -/

/-- The producer has this input at the wait of a function that adds items: it has just found
the queue open, or it waited there already. -/
def Offers (s : Pipe ι) (act : Act ι) (input : Input) : Prop :=
  act = .add input ∧ s.adding = none ∧ s.queue.endofqueue = false ∨
    act = .resume ∧ s.adding = some input

/-- The possible changes of the state by each step. -/
inductive Effect [DecidableEq ι] (outcome : Outcome) (s : Pipe ι) : Act ι → Pipe ι → Prop
  /-- The producer waits. -/
  | wait {act : Act ι} (input : Input) (offer : s.Offers act input) :
      Effect outcome s act { s with adding := some input }
  /-- The producer is told that the queue is closed. -/
  | refuse (input : Input) (idle : s.adding = none) (closed : s.queue.endofqueue = true) :
      Effect outcome s (.add input) { s with adding := none }
  /-- An item goes to the end of the queue. -/
  | link {act : Act ι} (input : Input) (offer : s.Offers act input) :
      Effect outcome s act
        { s with
          queue := s.queue.link input.data input.status
          adding := none
          pushed := s.pushed ++ [input] }
  /-- The queue is closed. -/
  | close (idle : s.adding = none) :
      Effect outcome s .setEnd { s with queue := queueSetEndOfQueue s.queue true }
  /-- A thread without a block goes elsewhere. -/
  | move {act : WorkerAct} (w : ι) (pc : WorkerPc) (before : (s.workers w).held = none)
      (after : pc.held = none) (gentle : (Act.worker w act).fails = false) :
      Effect outcome s (.worker w act) (s.move w pc)
  /-- A thread takes a block. -/
  | take (w : ι) (num : Nat) (blk : BlockInfo) (front rest : List QueueItem)
      (before : (s.workers w).held = none)
      (split : s.queue.items = front ++ ⟨num, .todo, .block blk⟩ :: rest) :
      Effect outcome s (.worker w .get)
        (({ s with
            queue := { s.queue with items := front ++ ⟨num, .progress, .block blk⟩ :: rest }
            } : Pipe ι).move w (.processing num blk))
  /-- A thread has processed its block. -/
  | process (w : ι) (num : Nat) (blk blk' : BlockInfo) (before : s.workers w = .processing num blk)
      (success : outcome blk (some blk')) :
      Effect outcome s (.worker w (.process (some blk'))) (s.move w (.replacing num blk'))
  /-- A thread gives up its block. -/
  | fail (w : ι) (num : Nat) (blk : BlockInfo) (before : s.workers w = .processing num blk) :
      Effect outcome s (.worker w (.process none)) (s.move w .exited)
  /-- A thread gives its block back. -/
  | replace (w : ι) (num : Nat) (blk : BlockInfo) (before : s.workers w = .replacing num blk) :
      Effect outcome s (.worker w .replace)
        ({ s with queue := (queueReplaceBlock s.queue num blk .done).1 }.move w .top)
  /-- The consumer is told of the end, or learns nothing it could take. -/
  | look (call : ConsumerCall) (sawEnd : Bool)
      (told : sawEnd = s.sawEnd ∨ sawEnd = true ∧ queueGetEndOfQueue s.queue = true) :
      Effect outcome s (.consume call) { s with sawEnd }
  /-- The consumer receives the first item. -/
  | receive (call : ConsumerCall) (head : QueueItem) (rest : List QueueItem)
      (split : s.queue.items = head :: rest) (isReady : head.status = .done) :
      Effect outcome s (.consume call)
        { s with queue := s.queue.unlinkHead head rest, taken := s.taken ++ [some head.data] }
  /-- The consumer drops the first item. -/
  | drop (head : QueueItem) (rest : List QueueItem) (split : s.queue.items = head :: rest)
      (idle : head.status ≠ .progress) :
      Effect outcome s (.consume .destroyFirstItem)
        { s with queue := s.queue.unlinkHead head rest, taken := s.taken ++ [none] }

section Effects

variable [DecidableEq ι] {outcome : Outcome} {s t : Pipe ι}

/-- The wait of the functions that add an item. -/
theorem effect_added {act : Act ι} (input : Input) (offer : s.Offers act input) :
    Effect outcome s act (s.added input (queueAddResume s.queue input.data input.status)) := by
  unfold queueAddResume
  split
  · exact .wait input offer
  · exact .link input offer

/-- The producer's call. -/
theorem effect_add {input : Input} (h : s.next (.add input) = some t) :
    Effect outcome s (.add input) t := by
  simp only [next] at h
  split at h
  next isNone =>
    have idle := Option.isNone_iff_eq_none.mp isNone
    cases h
    rw [Input.enter_eq]
    unfold queueAddEnter
    split
    next closed => exact .refuse input idle closed
    next opened => exact effect_added input (.inl ⟨rfl, idle, by simpa using opened⟩)
  next => cases h

/-- The producer's second try. -/
theorem effect_resume (h : s.next .resume = some t) : Effect outcome s .resume t := by
  simp only [next] at h
  split at h
  next input waiting =>
    cases h
    exact effect_added input (.inr ⟨rfl, waiting⟩)
  next => cases h

/-- A step of a worker. -/
theorem effect_worker {w : ι} {act : WorkerAct} (h : Step outcome s (.worker w act) t) :
    Effect outcome s (.worker w act) t := by
  obtain ⟨h, possible⟩ := h
  simp only [next] at h
  cases place : s.workers w with
  | top =>
    cases act with
    | test =>
      simp only [place, nextWorker, Option.some.injEq] at h
      exact h ▸ .move w _ (by simp [place, WorkerPc.held]) (by split <;> rfl) rfl
    | get | getError | process result | replace => simp [place, nextWorker] at h
  | getting =>
    have before : (s.workers w).held = none := by simp [place, WorkerPc.held]
    cases act with
    | test | process result | replace => simp [place, nextWorker] at h
    | getError =>
      simp only [place, nextWorker, Option.some.injEq] at h
      exact h ▸ .move w .top before rfl rfl
    | get =>
      simp only [place, nextWorker, queueGetFirstBlockTodo] at h
      split at h
      next => cases h
      next queue num blk unlocked =>
        split at unlocked
        · cases unlocked
        · split at unlocked
          next num' blk' items found =>
            cases unlocked
            obtain ⟨front, rest, split, rfl⟩ := takeTodo_eq_some found
            simp only [Option.some.injEq] at h
            exact h ▸ .take w num blk front rest before split
          next => cases unlocked
      next queue error unlocked =>
        split at unlocked
        · cases unlocked
          simp only [Option.some.injEq] at h
          exact h ▸ .move w .top before rfl rfl
        · split at unlocked <;> cases unlocked
  | processing num blk =>
    cases act with
    | test | get | getError | replace => simp [place, nextWorker] at h
    | process result =>
      cases result with
      | none =>
        simp only [place, nextWorker, Option.some.injEq] at h
        exact h ▸ .fail w num blk place
      | some blk' =>
        simp only [place, nextWorker, Option.some.injEq] at h
        exact h ▸ .process w num blk blk' place (possible w _ num blk rfl place)
  | replacing num blk =>
    cases act with
    | test | get | getError | process result => simp [place, nextWorker] at h
    | replace =>
      simp only [place, nextWorker, Option.some.injEq] at h
      exact h ▸ .replace w num blk place
  | exited => cases act <;> simp [place, nextWorker] at h

/-- What a critical section of the consumer can do to the queue. -/
theorem consumer_cases {q q' : Queue} {call : ConsumerCall} {result : Except FsaErr Taken}
    (h : call.run q = .unlock q' result) :
    (q' = q ∧ (result = .error .endoffile ∧ queueGetEndOfQueue q = true ∨
      result = .error .wrongtype ∨ result = .ok .looked)) ∨
    ∃ head rest, q.items = head :: rest ∧ q' = q.unlinkHead head rest ∧
      (head.status = .done ∧ result = .ok (.received head.data) ∨
        head.status ≠ .progress ∧ call = .destroyFirstItem ∧ result = .ok .dropped) := by
  have mapped {α : Type} {inner : Locked (Except FsaErr α)}
      {g : Except FsaErr α → Except FsaErr Taken} (same : inner.map g = .unlock q' result) :
      ∃ found, inner = .unlock q' found ∧ result = g found := by
    cases inner with
    | wait => cases same
    | unlock queue found =>
      cases same
      exact ⟨found, rfl, rfl⟩
  cases call with
  | dequeueFirst =>
    obtain ⟨found, unlocked, rfl⟩ := mapped h
    rcases waitFirst_eq_unlock unlocked with ⟨ended, rfl, rfl⟩ | ⟨head, rest, split, isReady, same⟩
    · exact .inl ⟨rfl, .inl ⟨rfl, ended⟩⟩
    · cases same
      exact .inr ⟨head, rest, split, rfl, .inl ⟨of_decide_eq_true isReady, rfl⟩⟩
  | dequeueBlock =>
    obtain ⟨found, unlocked, rfl⟩ := mapped h
    rcases waitFirst_eq_unlock unlocked with ⟨ended, rfl, rfl⟩ | ⟨head, rest, split, isReady, same⟩
    · exact .inl ⟨rfl, .inl ⟨rfl, ended⟩⟩
    · cases type : head.data with
      | block blk =>
        rw [type] at same
        cases same
        exact .inr ⟨head, rest, split, rfl, .inl ⟨of_decide_eq_true isReady, by rw [type]; rfl⟩⟩
      | header headinfo =>
        rw [type] at same
        cases same
        exact .inl ⟨rfl, .inr (.inl rfl)⟩
  | dequeueHeader =>
    obtain ⟨found, unlocked, rfl⟩ := mapped h
    rcases waitFirst_eq_unlock unlocked with ⟨ended, rfl, rfl⟩ | ⟨head, rest, split, isReady, same⟩
    · exact .inl ⟨rfl, .inl ⟨rfl, ended⟩⟩
    · cases type : head.data with
      | header headinfo =>
        rw [type] at same
        cases same
        exact .inr ⟨head, rest, split, rfl, .inl ⟨of_decide_eq_true isReady, by rw [type]; rfl⟩⟩
      | block blk =>
        rw [type] at same
        cases same
        exact .inl ⟨rfl, .inr (.inl rfl)⟩
  | checkNextItem =>
    obtain ⟨found, unlocked, rfl⟩ := mapped h
    rcases waitFirst_eq_unlock unlocked with ⟨ended, rfl, rfl⟩ | ⟨head, rest, split, isReady, same⟩
    · exact .inl ⟨rfl, .inl ⟨rfl, ended⟩⟩
    · cases type : head.data with
      | header headinfo | block blk =>
        rw [type] at same
        cases same
        exact .inl ⟨rfl, .inr (.inr rfl)⟩
  | destroyFirstItem =>
    obtain ⟨found, unlocked, rfl⟩ := mapped h
    rcases waitFirst_eq_unlock unlocked with ⟨ended, rfl, rfl⟩ | ⟨head, rest, split, isReady, same⟩
    · exact .inl ⟨rfl, .inl ⟨rfl, ended⟩⟩
    · cases same
      exact .inr ⟨head, rest, split, rfl, .inr ⟨of_decide_eq_true isReady, rfl, rfl⟩⟩

/-- A call of the consumer. -/
theorem effect_consume {call : ConsumerCall} (h : s.next (.consume call) = some t) :
    Effect outcome s (.consume call) t := by
  simp only [next] at h
  split at h
  next => cases h
  next queue result unlocked =>
    cases h
    rcases consumer_cases unlocked with
      ⟨rfl, ⟨rfl, ended⟩ | rfl | rfl⟩ | ⟨head, rest, split, rfl, ⟨isReady, rfl⟩ | ⟨idle, rfl, rfl⟩⟩
    · exact .look call true (.inr ⟨rfl, ended⟩)
    · exact .look call s.sawEnd (.inl rfl)
    · exact .look call s.sawEnd (.inl rfl)
    · exact .receive call head rest split isReady
    · exact .drop head rest split idle

/-- Every step has one of the effects. -/
theorem Step.effect {act : Act ι} (h : Step outcome s act t) : Effect outcome s act t := by
  cases act with
  | add input => exact effect_add h.1
  | resume => exact effect_resume h.1
  | setEnd =>
    have h := h.1
    simp only [next] at h
    split at h
    next idle =>
      cases h
      exact .close (Option.isNone_iff_eq_none.mp idle)
    next => cases h
  | worker w act => exact effect_worker h
  | consume call => exact effect_consume h.1

end Effects

end Pipe

end FsArchiver
