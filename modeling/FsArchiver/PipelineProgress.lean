import Mathlib.Algebra.BigOperators.Group.Finset.Basic
import Mathlib.Algebra.Order.BigOperators.Group.Finset
import FsArchiver.Lib.Progress
import FsArchiver.PipelineRuns
import FsArchiver.SaveThreads

/-!
# The pipeline comes to rest

Every item is added, taken by a thread, processed, given back and received once, and a thread that
finds nothing to do waits. So whatever the order of their steps the threads change the queue only so
often as there are items and threads, unless a wait fails; and when nothing can change any more, the
consumer has received everything and all threads have left. In particular no run ends with threads
that wait for each other, however small the queue is.
-/
namespace FsArchiver

open Lib

/-! ## What is left to do -/

/-- What is left to do for an item on the queue. -/
def ItemStatus.left : ItemStatus → Nat
  | .todo => 5
  | .progress | .done => 1

/-- What is left to do for a thread before it waits or leaves. -/
def WorkerPc.left (ended : Bool) : WorkerPc → Nat
  | .top => if ended then 1 else 3
  | .getting => 2
  | .processing _ _ => 5
  | .replacing _ _ => 4
  | .exited => 0

/-- At the end of the queue no more is left. -/
theorem WorkerPc.left_mono {ended ended' : Bool} (later : ended = true → ended' = true)
    (pc : WorkerPc) : pc.left ended' ≤ pc.left ended := by
  cases pc with
  | top =>
    cases ended with
    | true => rw [later rfl]
    | false => cases ended' <;> decide
  | _ => exact Nat.le_refl _

namespace Pipe

variable {n : Nat} {s t : Pipe (Fin n)} {outcome : Outcome} {act : Act (Fin n)}

/-- What is left to do for all threads. -/
def threadsLeft (s : Pipe (Fin n)) : Nat :=
  ∑ w, (s.workers w).left (queueGetEndOfQueue s.queue)

/-- What is left to do with what is on the queue. -/
def itemsLeft (items : List QueueItem) : Nat := (items.map fun item => item.status.left).sum

/-- What is left to do, but for what was not yet offered to the queue. -/
def left (s : Pipe (Fin n)) : Nat :=
  6 * s.adding.toList.length + itemsLeft s.queue.items + s.threadsLeft +
    (!s.queue.endofqueue).toNat + (!s.sawEnd).toNat

@[simp] theorem itemsLeft_append (front rest : List QueueItem) :
    itemsLeft (front ++ rest) = itemsLeft front + itemsLeft rest := by
  simp [itemsLeft]

@[simp] theorem itemsLeft_cons (item : QueueItem) (rest : List QueueItem) :
    itemsLeft (item :: rest) = item.status.left + itemsLeft rest := by
  simp [itemsLeft]

@[simp] theorem itemsLeft_nil : itemsLeft [] = 0 := rfl

/-- At most as much is left for a new item as for a block to do. -/
theorem left_status (input : Input) : input.status.left ≤ 5 := by
  cases input <;> simp [Input.status, ItemStatus.left]

/-- No more is left for the threads when the queue changes and stays at its end. -/
theorem threadsLeft_queue (workers : t.workers = s.workers)
    (later : queueGetEndOfQueue s.queue = true → queueGetEndOfQueue t.queue = true) :
    t.threadsLeft ≤ s.threadsLeft := by
  unfold threadsLeft
  rw [workers]
  exact Finset.sum_le_sum fun w _ => WorkerPc.left_mono later _

/-- A thread that moves changes what is left for itself only. -/
theorem threadsLeft_move (s : Pipe (Fin n)) (w : Fin n) (pc : WorkerPc) :
    (s.move w pc).threadsLeft + (s.workers w).left (queueGetEndOfQueue s.queue) =
      s.threadsLeft + pc.left (queueGetEndOfQueue s.queue) := by
  have others : ∀ w' ∈ Finset.univ.erase w,
      ((s.move w pc).workers w').left (queueGetEndOfQueue s.queue) =
        (s.workers w').left (queueGetEndOfQueue s.queue) := by
    intro w' member
    rw [move_other (Finset.ne_of_mem_erase member)]
  have before := Finset.add_sum_erase Finset.univ
    (fun w' => (s.workers w').left (queueGetEndOfQueue s.queue)) (Finset.mem_univ w)
  have after := Finset.add_sum_erase Finset.univ
    (fun w' => ((s.move w pc).workers w').left (queueGetEndOfQueue s.queue)) (Finset.mem_univ w)
  rw [Finset.sum_congr rfl others, move_same] at after
  unfold threadsLeft
  rw [move_queue]
  omega

/-- What a step adds at most to what is left. -/
def gain : Act (Fin n) → Nat
  | .add _ => 7
  | .worker _ .getError => 2
  | _ => 0

/-- Where a thread without a block may go. -/
theorem moved_cases {w : Fin n} {act : WorkerAct} {pc : WorkerPc}
    (h : Step outcome s (.worker w act) (s.move w pc)) (before : (s.workers w).held = none)
    (after : pc.held = none) :
    (s.workers w = .top ∧ pc = if queueGetEndOfQueue s.queue then .exited else .getting) ∨
    (s.workers w = .getting ∧ pc = .top ∧
      (queueGetEndOfQueue s.queue = true ∨ act = .getError)) := by
  have taken := h.1
  have place {pc' : WorkerPc} (same : s.move w pc' = s.move w pc) : pc = pc' := by
    have there := congrArg (fun pipe => pipe.workers w) same
    simpa using there.symm
  simp only [next] at taken
  cases at_ : s.workers w with
  | top =>
    cases act with
    | test =>
      simp only [at_, nextWorker, Option.some.injEq] at taken
      exact .inl ⟨rfl, place taken⟩
    | get | getError | process result | replace => simp [at_, nextWorker] at taken
  | getting =>
    cases act with
    | getError =>
      simp only [at_, nextWorker, Option.some.injEq] at taken
      exact .inr ⟨rfl, place taken, .inr rfl⟩
    | get =>
      simp only [at_, nextWorker] at taken
      split at taken
      · cases taken
      next num blk unlocked =>
        -- a thread that takes a block holds it
        have holds := congrArg (fun pipe => (pipe.map fun pipe : Pipe (Fin n) => pipe.workers w))
          taken
        simp only [Option.map_some, move_same, Option.some.injEq] at holds
        rw [← holds] at after
        cases after
      next unlocked =>
        unfold queueGetFirstBlockTodo at unlocked
        split at unlocked
        next ended =>
          cases unlocked
          simp only [Option.some.injEq] at taken
          exact .inr ⟨rfl, place taken, .inl ended⟩
        next => split at unlocked <;> cases unlocked
    | test | process result | replace => simp [at_, nextWorker] at taken
  | processing num blk | replacing num blk =>
    rw [at_] at before
    cases before
  | exited => cases act <;> simp [at_, nextWorker] at taken

/-- Every step that changes something lowers what is left, but for its gain. -/
theorem left_step (inv : s.Inv outcome) (h : Step outcome s act t) (changed : t ≠ s) :
    t.left + 1 ≤ s.left + gain act := by
  have later : queueGetEndOfQueue s.queue = true → queueGetEndOfQueue t.queue = true :=
    fun ended => (SaveThreads.ended_kept inv h ended).1
  cases h.effect with
  | wait input offer =>
    rcases offer with ⟨rfl, idle, opened⟩ | ⟨rfl, waiting⟩
    · have threads : ({ s with adding := some input } : Pipe (Fin n)).threadsLeft =
          s.threadsLeft := rfl
      simp only [left, idle, gain, Option.toList_some, Option.toList_none, List.length_cons,
        List.length_nil, threads]
      omega
    · exact absurd (by rw [← waiting]) changed
  | refuse input idle closed => exact absurd (by rw [← idle]) changed
  | link input offer =>
    have threads := threadsLeft_queue (s := s) (t := { s with
      queue := s.queue.link input.data input.status, adding := none
      pushed := s.pushed ++ [input] }) rfl later
    have small := left_status input
    rcases offer with ⟨rfl, idle, opened⟩ | ⟨rfl, waiting⟩
    · simp only [left, idle, gain, Option.toList_none, List.length_nil, Queue.link, itemsLeft_append,
        itemsLeft_cons, itemsLeft_nil] at threads ⊢
      omega
    · simp only [left, waiting, gain, Option.toList_some, Option.toList_none, List.length_cons,
        List.length_nil, Queue.link, itemsLeft_append, itemsLeft_cons, itemsLeft_nil] at threads ⊢
      omega
  | close idle =>
    have threads := threadsLeft_queue (s := s)
      (t := { s with queue := queueSetEndOfQueue s.queue true }) rfl later
    cases closed : s.queue.endofqueue with
    | true => exact absurd (by rw [queueSetEndOfQueue, ← closed]) changed
    | false =>
      simp only [left, queueSetEndOfQueue, closed, gain, Bool.not_true, Bool.not_false,
        Bool.toNat_true, Bool.toNat_false] at threads ⊢
      omega
  | @move act w pc before after =>
    have threads := threadsLeft_move s w pc
    simp only [left, move_adding, move_queue, move_sawEnd] at threads ⊢
    rcases moved_cases h before after with ⟨place, onward⟩ | ⟨place, rfl, ended | rfl⟩
    · rw [place] at threads
      cases ended : queueGetEndOfQueue s.queue with
      | true =>
        simp only [onward, ended, WorkerPc.left, ↓reduceIte] at threads ⊢
        omega
      | false =>
        simp only [onward, ended, WorkerPc.left, Bool.false_eq_true, ↓reduceIte] at threads ⊢
        omega
    · simp only [place, ended, WorkerPc.left, ↓reduceIte] at threads
      omega
    · have most : WorkerPc.top.left (queueGetEndOfQueue s.queue) ≤ 3 := by
        cases queueGetEndOfQueue s.queue <;> decide
      have least : WorkerPc.getting.left (queueGetEndOfQueue s.queue) = 2 := rfl
      rw [place] at threads
      simp only [gain]
      omega
  | take w num blk front rest before split =>
    let taken : Pipe (Fin n) := { s with
      queue := { s.queue with items := front ++ ⟨num, .progress, .block blk⟩ :: rest } }
    have same : taken.threadsLeft = s.threadsLeft := rfl
    have threads := threadsLeft_move taken w (.processing num blk)
    have place : s.workers w = .getting := by
      have got := h.1
      simp only [next] at got
      cases place : s.workers w with
      | getting => rfl
      | top | processing | replacing | exited => simp [place, nextWorker] at got
    have least : (taken.workers w).left (queueGetEndOfQueue taken.queue) = 2 := by
      rw [show taken.workers w = .getting from place]
      rfl
    rw [least, same] at threads
    simp only [left, move_adding, move_queue, move_sawEnd, split, itemsLeft_append, itemsLeft_cons,
      ItemStatus.left, WorkerPc.left, gain, taken] at threads ⊢
    omega
  | process w num blk blk' before success =>
    have threads := threadsLeft_move s w (.replacing num blk')
    rw [before] at threads
    simp only [left, move_adding, move_queue, move_sawEnd, WorkerPc.left, gain] at threads ⊢
    omega
  | fail w num blk before =>
    have threads := threadsLeft_move s w .exited
    rw [before] at threads
    simp only [left, move_adding, move_queue, move_sawEnd, WorkerPc.left, gain] at threads ⊢
    omega
  | replace w num blk' before =>
    obtain ⟨front, rest, blk, split, -, replaced⟩ := inv.replace_found before
    let given : Pipe (Fin n) := { s with queue := (queueReplaceBlock s.queue num blk' .done).1 }
    have same : given.threadsLeft = s.threadsLeft := by
      simp only [threadsLeft, given, replaced]
      rfl
    have threads := threadsLeft_move given w .top
    have most : WorkerPc.top.left (queueGetEndOfQueue given.queue) ≤ 3 := by
      cases queueGetEndOfQueue given.queue <;> decide
    have least : (given.workers w).left (queueGetEndOfQueue given.queue) = 4 := by
      rw [show given.workers w = .replacing num blk' from before]
      rfl
    rw [least, same] at threads
    simp only [left, move_adding, move_queue, move_sawEnd, split, itemsLeft_append, itemsLeft_cons,
      ItemStatus.left, gain, given, replaced] at threads most ⊢
    omega
  | look call sawEnd told =>
    have threads : ({ s with sawEnd } : Pipe (Fin n)).threadsLeft = s.threadsLeft := rfl
    rcases told with rfl | ⟨rfl, -⟩
    · exact absurd rfl changed
    · cases seen : s.sawEnd with
      | true => exact absurd (by rw [← seen]) changed
      | false =>
        simp only [left, threads, seen, gain, Bool.not_true, Bool.not_false, Bool.toNat_true,
          Bool.toNat_false]
        omega
  | receive call head rest split isReady =>
    have threads := threadsLeft_queue (s := s) (t := { s with
      queue := s.queue.unlinkHead head rest, taken := s.taken ++ [some head.data] }) rfl later
    simp only [left, split, itemsLeft_cons, Queue.unlinkHead, isReady, ItemStatus.left, gain]
      at threads ⊢
    omega
  | drop head rest split idle =>
    have threads := threadsLeft_queue (s := s) (t := { s with
      queue := s.queue.unlinkHead head rest, taken := s.taken ++ [none] }) rfl later
    have least : 1 ≤ head.status.left := by cases head.status <;> decide
    simp only [left, split, itemsLeft_cons, Queue.unlinkHead, gain] at threads ⊢
    omega

/-- A search that finds no block to do leaves none. -/
theorem takeTodo_eq_none {items : List QueueItem} (nothing : takeTodo items = none) (num : Nat)
    (blk : BlockInfo) : (⟨num, .todo, .block blk⟩ : QueueItem) ∉ items := by
  induction items using takeTodo.induct with
  | case1 => exact List.not_mem_nil
  | case2 num' blk' rest => cases nothing
  | case3 item rest other ih =>
    rw [takeTodo.eq_3 _ _ other, Option.map_eq_none_iff] at nothing
    intro member
    rcases List.mem_cons.mp member with rfl | later
    · exact other num blk rfl
    · exact ih nothing later

/-- A thread leaves at the end of the queue only, unless it fails to process its block. -/
theorem exited_cases {w : Fin n} (h : Step outcome s act t) (gentle : act.fails = false)
    (exited : t.workers w = .exited) :
    s.workers w = .exited ∨ queueGetEndOfQueue t.queue = true := by
  cases h.effect with
  | wait | refuse | link | close | look | receive | drop => exact .inl exited
  | move w' pc before after =>
    by_cases same : w = w'
    · rw [same, move_same] at exited
      rcases moved_cases h before after with ⟨-, onward⟩ | ⟨-, onward, -⟩
      · refine .inr ?_
        by_contra other
        rw [move_queue] at other
        rw [exited, if_neg other] at onward
        cases onward
      · rw [exited] at onward
        cases onward
    · rw [move_other same] at exited
      exact .inl exited
  | take w' | process w' | replace w' =>
    by_cases same : w = w'
    · rw [same, move_same] at exited
      cases exited
    · rw [move_other same] at exited
      exact .inl exited
  | fail => cases gentle

end Pipe

namespace Script

variable {n : Nat} {f : BlockInfo → BlockInfo} {items : List Input} {s t : Script (Fin n)}
  {act : Act (Fin n)}

/-- What is left to do for the whole pipeline. -/
def left (s : Script (Fin n)) : Nat := 7 * s.rest.length + s.pipe.left

/-- A wait of a thread fails. -/
def failedWait : Act (Fin n) → Bool
  | .worker _ .getError => true
  | _ => false

/-- Every step that changes something lowers what is left, unless a wait fails. -/
theorem left_step (inv : Inv f items s) (h : Step f s act t) (changed : t ≠ s) :
    t.left + 1 ≤ s.left + 2 * (failedWait act).toNat := by
  cases h with
  | @add s t input rest h =>
    simp only [left, List.length_cons, failedWait, Bool.toNat_false]
    by_cases same : t = s
    · rw [same]
      omega
    · have lower : t.left + 1 ≤ s.left + 7 := Pipe.left_step inv.pipe h same
      omega
  | @resume s t rest h =>
    have lower : t.left + 1 ≤ s.left + 0 := Pipe.left_step inv.pipe h (by simpa using changed)
    simp only [left, failedWait, Bool.toNat_false]
    omega
  | @setEnd s t h =>
    have lower : t.left + 1 ≤ s.left + 0 := Pipe.left_step inv.pipe h (by simpa using changed)
    simp only [left, failedWait, Bool.toNat_false]
    omega
  | @worker s t rest w act h =>
    have lower := Pipe.left_step inv.pipe h (by simpa using changed)
    cases act <;> simp only [left, Pipe.gain, failedWait, Bool.toNat_true, Bool.toNat_false]
      at lower ⊢ <;> omega
  | @consume s t rest call receives h =>
    have lower : t.left + 1 ≤ s.left + 0 := Pipe.left_step inv.pipe h (by simpa using changed)
    simp only [left, failedWait, Bool.toNat_false]
    omega

/-! ## Where nothing changes any more -/

/-- Threads leave at the end of the queue only, and no block is stranded. -/
structure Live (s : Script (Fin n)) : Prop where
  noneStranded : s.pipe.NoneStranded
  exited : ∀ w, s.pipe.workers w = .exited → queueGetEndOfQueue s.pipe.queue = true

theorem Live.init (blkmax : Nat) (items : List Input) :
    Live (Script.init (Fin n) blkmax items) where
  noneStranded := fun item none => absurd none List.not_mem_nil
  exited := fun w exited => by cases exited

/-- The pipeline takes a step when its script does. -/
theorem Step.pipe (h : Step f s act t) : Pipe.Step (succeeds f) s.pipe act t.pipe := by
  cases h <;> assumption

/-- No block fails to be processed. -/
theorem Step.gentle (h : Step f s act t) : act.fails = false := by
  cases act with
  | worker w act =>
    cases act with
    | process result =>
      cases result with
      | some blk => rfl
      | none =>
        obtain ⟨taken, possible⟩ := h.pipe
        simp only [Pipe.next] at taken
        cases place : s.pipe.workers w with
        | processing num blk => cases possible w none num blk rfl place
        | top | getting | replacing | exited => simp [place, Pipe.nextWorker] at taken
    | _ => rfl
  | _ => rfl

/-- Every step keeps this. -/
theorem Live.step (inv : Inv f items s) (live : Live s) (h : Step f s act t) : Live t where
  noneStranded := live.noneStranded.step inv.pipe h.pipe h.gentle
  exited w exited := by
    rcases Pipe.exited_cases h.pipe h.gentle exited with before | ended
    · exact (SaveThreads.ended_kept inv.pipe h.pipe (live.exited w before)).1
    · exact ended

/-- Nothing changes any more, unless a wait fails. -/
def Resting (f : BlockInfo → BlockInfo) (s : Script (Fin n)) : Prop :=
  AtRest (Step f) (fun act => failedWait act = false) s

section Rest

/-- A thread of a pipeline that rests stays where it is. -/
theorem Resting.worker {w : Fin n} {act : WorkerAct} {pipe : Pipe (Fin n)}
    (resting : Resting f s) (waits : act ≠ .getError)
    (taken : s.pipe.next (.worker w act) = some pipe)
    (success : ∀ result num blk, act = .process result → s.pipe.workers w = .processing num blk →
      succeeds f blk result) : pipe = s.pipe := by
  have step : Step f ⟨s.pipe, s.rest⟩ (.worker w act) ⟨pipe, s.rest⟩ := by
    refine .worker s.rest w act ⟨taken, fun w' result num blk same place => ?_⟩
    obtain ⟨rfl, rfl⟩ := Act.worker.inj same
    exact success result num blk rfl place
  have allowed : failedWait (.worker w act) = false := by
    cases act <;> first | rfl | exact absurd rfl waits
  exact congrArg Script.pipe (resting _ _ allowed step)

/-- All threads of a pipeline that rests wait or have left. -/
theorem Resting.place (resting : Resting f s) (w : Fin n) :
    s.pipe.workers w = .getting ∨ s.pipe.workers w = .exited := by
  cases place : s.pipe.workers w with
  | getting => exact .inl rfl
  | exited => exact .inr rfl
  | top =>
    let pc : WorkerPc := if queueGetEndOfQueue s.pipe.queue then .exited else .getting
    have taken : s.pipe.next (.worker w .test) = some (s.pipe.move w pc) := by
      simp [Pipe.next, Pipe.nextWorker, place, pc]
    have same := resting.worker (by simp) taken (by simp)
    have there := congrArg (fun pipe => pipe.workers w) same
    rw [Pipe.move_same, place] at there
    simp only [pc] at there
    split at there <;> cases there
  | processing num blk =>
    have taken : s.pipe.next (.worker w (.process (some (f blk)))) =
        some (s.pipe.move w (.replacing num (f blk))) := by
      simp [Pipe.next, Pipe.nextWorker, place]
    have same := resting.worker (by simp) taken (by
      intro result num' blk' isResult at'
      cases isResult
      rw [place] at at'
      cases at'
      rfl)
    have there := congrArg (fun pipe => pipe.workers w) same
    rw [Pipe.move_same, place] at there
    cases there
  | replacing num blk =>
    have taken : s.pipe.next (.worker w .replace) = some (({ s.pipe with
        queue := (queueReplaceBlock s.pipe.queue num blk .done).1 } : Pipe (Fin n)).move w .top) := by
      simp [Pipe.next, Pipe.nextWorker, place]
    have same := resting.worker (by simp) taken (by simp)
    have there := congrArg (fun pipe => pipe.workers w) same
    rw [Pipe.move_same, place] at there
    cases there

/-- A thread that waits for a block finds none, and the end of the queue is not reached. -/
theorem Resting.waits (resting : Resting f s) {w : Fin n} (place : s.pipe.workers w = .getting) :
    queueGetEndOfQueue s.pipe.queue = false ∧ takeTodo s.pipe.queue.items = none := by
  have stuck (q : Queue) (pc : WorkerPc) (other : pc ≠ .getting)
      (taken : s.pipe.next (.worker w .get) = some (({ s.pipe with queue := q } : Pipe (Fin n)).move
        w pc)) : False := by
    have same := resting.worker (by simp) taken (by simp)
    have there := congrArg (fun pipe => pipe.workers w) same
    rw [Pipe.move_same, place] at there
    exact other there
  cases ended : queueGetEndOfQueue s.pipe.queue with
  | true =>
    refine absurd (stuck s.pipe.queue .top (by simp) ?_) id
    simp [Pipe.next, Pipe.nextWorker, place, queueGetFirstBlockTodo, ended]
  | false =>
    refine ⟨rfl, ?_⟩
    cases found : takeTodo s.pipe.queue.items with
    | none => rfl
    | some found' =>
      obtain ⟨num, blk, items'⟩ := found'
      refine absurd (stuck { s.pipe.queue with items := items' } (.processing num blk) (by simp)
        ?_) id
      simp [Pipe.next, Pipe.nextWorker, place, queueGetFirstBlockTodo, ended, found]

/-- What the consumer of a pipeline that rests calls changes nothing. -/
theorem Resting.consumer (resting : Resting f s) {pipe : Pipe (Fin n)}
    (taken : s.pipe.next (.consume .dequeueFirst) = some pipe) : pipe = s.pipe := by
  have step : Step f ⟨s.pipe, s.rest⟩ (.consume .dequeueFirst) ⟨pipe, s.rest⟩ :=
    .consume s.rest .dequeueFirst (by simp) ⟨taken, fun w result num blk same => by cases same⟩
  exact congrArg Script.pipe (resting _ _ rfl step)

/-- The first item of a pipeline that rests is not ready. -/
theorem Resting.head (resting : Resting f s) {head : QueueItem} {rest : List QueueItem}
    (items : s.pipe.queue.items = head :: rest)
    (opened : queueGetEndOfQueue s.pipe.queue = false) : head.status ≠ .done := by
  intro ready
  have taken : s.pipe.next (.consume .dequeueFirst) = some { s.pipe with
      queue := s.pipe.queue.unlinkHead head rest, taken := s.pipe.taken ++ [some head.data] } := by
    simp [Pipe.next, ConsumerCall.run, queueDequeueFirst, waitFirst, opened, items, ready,
      Locked.map, Except.map, Pipe.consumed]
  have same := congrArg (fun pipe : Pipe (Fin n) => pipe.taken.length) (resting.consumer taken)
  simp at same

/-- The producer of a pipeline that rests with an empty queue has closed it. -/
theorem Resting.closed (inv : Inv f items s) (resting : Resting f s)
    (empty : s.pipe.queue.items = []) : s.pipe.queue.endofqueue = true := by
  have room : ¬s.pipe.queue.blkcount > s.pipe.queue.blkmax := by
    rw [inv.pipe.wf.blocks, empty]
    simp
  have idle : s.pipe.adding = none := by
    cases waiting : s.pipe.adding with
    | none => rfl
    | some input =>
      have taken : s.pipe.next .resume = some (s.pipe.added input
          (.unlock (s.pipe.queue.link input.data input.status) (.ok ()))) := by
        simp [Pipe.next, waiting, queueAddResume, room]
      have step : Step f ⟨s.pipe, s.rest⟩ .resume ⟨_, s.rest⟩ :=
        .resume s.rest ⟨taken, fun w result num blk same => by cases same⟩
      have same := congrArg (fun script => script.pipe.adding) (resting _ _ rfl step)
      simp [Pipe.added, waiting] at same
  cases rest : s.rest with
  | cons input more =>
    have taken : s.pipe.next (.add input) = some (s.pipe.added input (input.enter s.pipe.queue)) := by
      simp [Pipe.next, idle]
    have step : Step f ⟨s.pipe, input :: more⟩ (.add input) ⟨_, more⟩ :=
      .add input more ⟨taken, fun w result num blk same => by cases same⟩
    rw [← rest] at step
    have same := congrArg (fun script => script.rest.length) (resting _ _ rfl step)
    simp [rest] at same
  | nil =>
    have taken : s.pipe.next .setEnd =
        some { s.pipe with queue := queueSetEndOfQueue s.pipe.queue true } := by
      simp [Pipe.next, idle]
    have step : Step f ⟨s.pipe, []⟩ .setEnd ⟨_, []⟩ :=
      .setEnd ⟨taken, fun w result num blk same => by cases same⟩
    rw [← rest] at step
    have same := congrArg (fun script => script.pipe.queue.endofqueue) (resting _ _ rfl step)
    exact same.symm

/-- A pipeline that rests has reached the end of its queue. -/
theorem Resting.ended (pos : 0 < n) (inv : Inv f items s) (live : Live s)
    (resting : Resting f s) : queueGetEndOfQueue s.pipe.queue = true := by
  by_contra other
  have opened : queueGetEndOfQueue s.pipe.queue = false := eq_false_of_ne_true other
  have waiting (w : Fin n) : s.pipe.workers w = .getting :=
    (resting.place w).resolve_right fun exited => other (live.exited w exited)
  have nothing := (resting.waits (waiting ⟨0, pos⟩)).2
  -- no item is to do, and none is held by a thread
  have ready : ∀ item ∈ s.pipe.queue.items, item.status = .done := by
    intro item member
    obtain ⟨num, status, data⟩ := item
    cases status with
    | done => rfl
    | progress =>
      obtain ⟨w, held, -⟩ := live.noneStranded _ member rfl
      rw [waiting w] at held
      cases held
    | todo =>
      cases data with
      | block blk => exact absurd member (Pipe.takeTodo_eq_none nothing num blk)
      | header headinfo => exact inv.pipe.wf.ready _ member rfl
  cases empty : s.pipe.queue.items with
  | cons head rest =>
    exact resting.head empty opened (ready head (by rw [empty]; exact List.mem_cons_self))
  | nil =>
    have closed := resting.closed inv empty
    rw [queueGetEndOfQueue, inv.pipe.wf.items, empty, closed] at opened
    cases opened

/-- At the end of the queue the consumer has received everything. -/
theorem Inv.received_of_ended (inv : Inv f items s)
    (ended : queueGetEndOfQueue s.pipe.queue = true) : s.received = items.map (Input.finish f) := by
  have closed : s.pipe.queue.endofqueue = true := by
    unfold queueGetEndOfQueue at ended
    rw [Bool.and_eq_true] at ended
    exact ended.2
  have idle : s.pipe.adding = none := by
    cases waiting : s.pipe.adding with
    | none => rfl
    | some input =>
      have opened := inv.pipe.opened (by simp [waiting])
      rw [closed] at opened
      cases opened
  have all : s.pipe.taken.length = s.pipe.pushed.length := by
    have count := inv.pipe.count
    rw [inv.pipe.wf.items_of_end ended, List.length_nil] at count
    exact count
  have split := inv.split
  rw [inv.closed closed, idle, Option.toList_none, List.append_nil, List.append_nil] at split
  rw [inv.received_eq, all, List.take_length, split]

/-- The consumer of a pipeline that rests was told of the end. -/
theorem Resting.sawEnd (resting : Resting f s) (ended : queueGetEndOfQueue s.pipe.queue = true) :
    s.pipe.sawEnd = true := by
  have taken : s.pipe.next (.consume .dequeueFirst) = some { s.pipe with sawEnd := true } := by
    simp [Pipe.next, ConsumerCall.run, queueDequeueFirst, waitFirst, ended, Locked.map, Except.map,
      Pipe.consumed]
  exact (congrArg Pipe.sawEnd (resting.consumer taken)).symm

/-- The pipeline has finished: everything was received, and all threads have left. -/
structure Finished (f : BlockInfo → BlockInfo) (items : List Input) (s : Script (Fin n)) : Prop where
  received : s.received = items.map (Input.finish f)
  sawEnd : s.pipe.sawEnd = true
  exited : ∀ w, s.pipe.workers w = .exited

/-- A pipeline that rests has finished. -/
theorem Resting.finished (pos : 0 < n) (inv : Inv f items s) (live : Live s)
    (resting : Resting f s) : Finished f items s := by
  have ended := resting.ended pos inv live
  refine ⟨inv.received_of_ended ended, resting.sawEnd ended, fun w => ?_⟩
  refine (resting.place w).resolve_left fun place => ?_
  have opened := (resting.waits place).1
  rw [ended] at opened
  cases opened

/-- A pipeline that has finished rests. -/
theorem Finished.resting (inv : Inv f items s) (finished : Finished f items s) : Resting f s := by
  intro act t _ h
  obtain ⟨closed, all⟩ := inv.order.ended finished.sawEnd
  have closed : s.pipe.queue.endofqueue = true := closed
  have all : s.pipe.taken.length = s.pipe.pushed.length := all
  have empty : s.pipe.queue.items = [] := by
    have count := inv.pipe.count
    exact List.eq_nil_of_length_eq_zero (by omega)
  have noOffer (act : Act (Fin n)) (input : Input) : ¬s.pipe.Offers act input := by
    intro offer
    have opened := inv.pipe.open_of_offer offer
    rw [closed] at opened
    cases opened
  have same : t.pipe = s.pipe := by
    have step := h.pipe
    generalize t.pipe = pipe at step
    cases step.effect with
    | wait input offer | link input offer => exact absurd offer (noOffer _ input)
    | refuse input idle => rw [← idle]
    | close => rw [queueSetEndOfQueue, ← closed]
    | look call sawEnd told =>
      rcases told with rfl | ⟨rfl, -⟩
      · rfl
      · rw [← finished.sawEnd]
    | receive call head rest split | drop head rest split =>
      rw [empty] at split
      cases split
    | move w | process w | fail w | replace w | take w =>
      have taken := step.1
      simp [Pipe.next, Pipe.nextWorker, finished.exited w] at taken
  have nothing := inv.closed closed
  cases h with
  | add input rest h => cases nothing
  | @resume _ pipe rest | @setEnd _ pipe | @worker _ pipe rest | @consume _ pipe rest =>
    obtain rfl : pipe = _ := same
    rfl

end Rest

/-! ## Whole runs -/

theorem left_init (blkmax : Nat) (items : List Input) :
    (Script.init (Fin n) blkmax items).left = 7 * items.length + 3 * n + 2 := by
  have threads : (Pipe.init (Fin n) blkmax).threadsLeft = 3 * n := by
    simp [Pipe.threadsLeft, Pipe.init, WorkerPc.left, queueGetEndOfQueue, queueInit, Nat.mul_comm]
  simp only [left, Script.init, Pipe.left, threads]
  simp [Pipe.init, queueInit]
  omega

/-- A run of the pipeline changes it at most seven times for each item and three times for each
thread, and twice more for both ends and for each wait that fails; and where it rests, nothing else
can be changed by any thread, it has finished: the consumer has received everything, processed and
in order, and all threads have left. So threads never wait for each other, whatever the limit of the
queue, and never wake each other up for ever. -/
theorem pipeline_finishes (pos : 0 < n) (f : BlockInfo → BlockInfo) (blkmax : Nat)
    (items : List Input) (trace : List (Act (Fin n) × Script (Fin n)))
    (run : Trace (Step f) (Script.init (Fin n) blkmax items) trace) :
    Trace.changes (Script.init (Fin n) blkmax items) trace ≤
        7 * items.length + 3 * n + 2 + 2 * (Trace.labels trace).countP failedWait ∧
      (Resting f (Trace.last (Script.init (Fin n) blkmax items) trace) ↔
        Finished f items (Trace.last (Script.init (Fin n) blkmax items) trace)) := by
  have kept : ∀ (s : Script (Fin n)) act t, Inv f items s ∧ Live s → Step f s act t →
      Inv f items t ∧ Live t :=
    fun s act t holds h => ⟨holds.1.step h, holds.2.step holds.1 h⟩
  have initial : Inv f items (Script.init (Fin n) blkmax items) ∧
      Live (Script.init (Fin n) blkmax items) := ⟨.init blkmax, .init blkmax items⟩
  have waits (labels : List (Act (Fin n))) :
      (labels.map fun act => 2 * (failedWait act).toNat).sum = 2 * labels.countP failedWait := by
    induction labels with
    | nil => rfl
    | cons act labels ih =>
      rw [List.map_cons, List.sum_cons, ih, List.countP_cons]
      cases failedWait act with
      | false => simp
      | true =>
        simp only [Bool.toNat_true, ↓reduceIte]
        omega
  constructor
  · have paid := Trace.changes_le left (fun act => 2 * (failedWait act).toNat) kept
      (fun s act t holds h changed => left_step holds.1 h changed) run initial
    rw [waits, left_init] at paid
    omega
  · obtain ⟨inv, live⟩ := Trace.invariant_of_step kept run initial _ (Trace.last_mem _ _)
    exact ⟨fun resting => resting.finished pos inv live, fun finished => finished.resting inv⟩

/-- Two blocks pass a queue with room for one, whose producer has to wait, and the pipeline rests. -/
theorem pipeline_finishes_two_blocks : ∃ trace : List (Act (Fin 2) × Script (Fin 2)),
    Trace (Step marked) (Script.init (Fin 2) 0 [.todo (byteBlock 1), .todo (byteBlock 2)]) trace ∧
      Trace.labels trace = [.add (.todo (byteBlock 1)), .add (.todo (byteBlock 2)),
        .worker 0 .test, .worker 0 .get, .worker 1 .test,
        .worker 0 (.process (some (marked (byteBlock 1)))), .worker 0 .replace,
        .consume .dequeueFirst, .resume, .setEnd, .worker 1 .get,
        .worker 1 (.process (some (marked (byteBlock 2)))), .worker 1 .replace,
        .consume .dequeueFirst, .consume .dequeueFirst, .worker 0 .test, .worker 1 .test] ∧
      Trace.changes (Script.init (Fin 2) 0 [.todo (byteBlock 1), .todo (byteBlock 2)]) trace ≤ 22 ∧
      Resting marked
        (Trace.last (Script.init (Fin 2) 0 [.todo (byteBlock 1), .todo (byteBlock 2)]) trace) := by
  have run : Trace (Step marked)
      (Script.init (Fin 2) 0 [.todo (byteBlock 1), .todo (byteBlock 2)]) _ :=
    .cons (.add _ _ (calm_step rfl (by simp))) <|
    .cons (.add _ _ (calm_step rfl (by simp))) <|
    .cons (.worker _ 0 .test (calm_step rfl (by simp))) <|
    .cons (.worker _ 0 .get (calm_step rfl (by simp))) <|
    .cons (.worker _ 1 .test (calm_step rfl (by simp))) <|
    .cons (.worker _ 0 _ (process_step rfl rfl)) <|
    .cons (.worker _ 0 .replace (calm_step rfl (by simp))) <|
    .cons (.consume _ .dequeueFirst (by simp) (calm_step rfl (by simp))) <|
    .cons (.resume _ (calm_step rfl (by simp))) <|
    .cons (.setEnd (calm_step rfl (by simp))) <|
    .cons (.worker _ 1 .get (calm_step rfl (by simp))) <|
    .cons (.worker _ 1 _ (process_step rfl rfl)) <|
    .cons (.worker _ 1 .replace (calm_step rfl (by simp))) <|
    .cons (.consume _ .dequeueFirst (by simp) (calm_step rfl (by simp))) <|
    .cons (.consume _ .dequeueFirst (by simp) (calm_step rfl (by simp))) <|
    .cons (.worker _ 0 .test (calm_step rfl (by simp))) <|
    .cons (.worker _ 1 .test (calm_step rfl (by simp))) <|
    .nil _
  obtain ⟨changes, rests⟩ := pipeline_finishes Nat.two_pos marked 0 _ _ run
  refine ⟨_, run, rfl, changes, rests.mpr ⟨rfl, rfl, fun w => ?_⟩⟩
  match w with
  | 0 => rfl
  | 1 => rfl

end Script

end FsArchiver
