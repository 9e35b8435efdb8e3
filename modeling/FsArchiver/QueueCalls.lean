import FsArchiver.Lib.Transition
import FsArchiver.Pipeline

/-!
# The queue under any calls

Any number of threads call the functions of `queue.c` in any order. A call that adds an item
may sleep with the mutex released and go on in any later state; the other functions look at
everything again when they wake up, so that a call of them that sleeps has not happened yet.
Which thread makes a call plays no part: the state only knows the additions that sleep and the
numbers of blocks that were handed out and not given back.
-/
namespace FsArchiver

open Lib

/-- The queue and the calls that are under way. -/
structure Calls where
  /-- The queue. -/
  queue : Queue
  /-- Calls of `queue_add_block` and `queue_add_header` that sleep. -/
  adding : List Input
  /-- Numbers from `queue_get_first_block_todo` for which `queue_replace_block` was not called. -/
  held : List Nat

/-- A critical section of some thread. -/
inductive Call where
  /-- `queue_add_block` or `queue_add_header` is called. -/
  | add (input : Input)
  /-- The sleeping addition at this place wakes up. -/
  | resume (place : Nat)
  /-- `queue_set_end_of_queue`. -/
  | setEnd (state : Bool)
  /-- `queue_get_first_block_todo` returns. -/
  | getTodo
  /-- `queue_replace_block` for a number that was handed out. -/
  | replace (num : Nat) (blkinfo : BlockInfo) (newstatus : ItemStatus)
  /-- A function that looks at the first item returns. -/
  | consume (call : ConsumerCall)

namespace Calls

/-- After `queue_init`. -/
def init (blkmax : Nat) : Calls := { queue := queueInit blkmax, adding := [], held := [] }

/-- How an addition leaves the state, with the other additions that sleep. -/
def added (s : Calls) (input : Input) (others : List Input) :
    Locked (Except FsaErr Unit) → Calls
  | .wait => { s with adding := input :: others }
  | .unlock queue _ => { s with queue, adding := others }

/-- The state after a critical section, if it can be run. -/
def next (s : Calls) : Call → Option Calls
  | .add input => some (s.added input s.adding (input.enter s.queue))
  | .resume place =>
    match s.adding[place]? with
    | some input =>
      some (s.added input (s.adding.eraseIdx place)
        (queueAddResume s.queue input.data input.status))
    | none => none
  | .setEnd state => some { s with queue := queueSetEndOfQueue s.queue state }
  | .getTodo =>
    match queueGetFirstBlockTodo s.queue with
    | .wait => none
    | .unlock queue (.ok (num, _)) => some { s with queue, held := num :: s.held }
    | .unlock queue (.error _) => some { s with queue }
  | .replace num blkinfo newstatus =>
    if num ∈ s.held then
      some { s with
        queue := (queueReplaceBlock s.queue num blkinfo newstatus).1
        held := s.held.erase num }
    else none
  | .consume call =>
    match call.run s.queue with
    | .wait => none
    | .unlock queue _ => some { s with queue }

/-- One critical section. -/
def Step (s : Calls) (call : Call) (t : Calls) : Prop := s.next call = some t

/-! ## What a critical section can do -/

/-- An addition that is past the test of `endofqueue`. -/
inductive Offers (s : Calls) : Call → Input → List Input → Prop where
  /-- It has just made the test. -/
  | entered (input : Input) (opened : s.queue.endofqueue = false) :
      Offers s (.add input) input s.adding
  /-- It slept. -/
  | slept (place : Nat) (input : Input) (found : s.adding[place]? = some input) :
      Offers s (.resume place) input (s.adding.eraseIdx place)

/-- The possible changes of the state by each critical section. -/
inductive Effect (s : Calls) : Call → Calls → Prop where
  /-- An addition goes to sleep. -/
  | sleep {call : Call} {input : Input} {others : List Input} (offer : s.Offers call input others) :
      Effect s call { s with adding := input :: others }
  /-- An addition is told that the queue is closed. -/
  | refuse (input : Input) (closed : s.queue.endofqueue = true) : Effect s (.add input) s
  /-- An item is linked. -/
  | link {call : Call} {input : Input} {others : List Input} (offer : s.Offers call input others) :
      Effect s call { s with queue := s.queue.link input.data input.status, adding := others }
  /-- The end flag is set. -/
  | setEnd (state : Bool) :
      Effect s (.setEnd state) { s with queue := queueSetEndOfQueue s.queue state }
  /-- A block is handed out. -/
  | take (num : Nat) (blk : BlockInfo) (front rest : List QueueItem)
      (split : s.queue.items = front ++ ⟨num, .todo, .block blk⟩ :: rest) :
      Effect s .getTodo { s with
        queue := { s.queue with items := front ++ ⟨num, .progress, .block blk⟩ :: rest }
        held := num :: s.held }
  /-- A block comes back. -/
  | replace (num : Nat) (blkinfo : BlockInfo) (newstatus : ItemStatus) (holds : num ∈ s.held) :
      Effect s (.replace num blkinfo newstatus) { s with
        queue := (queueReplaceBlock s.queue num blkinfo newstatus).1
        held := s.held.erase num }
  /-- Nothing is changed. -/
  | look (call : Call) : Effect s call s
  /-- The first item, which nobody processes, is unlinked. -/
  | unlink (call : ConsumerCall) (head : QueueItem) (rest : List QueueItem)
      (split : s.queue.items = head :: rest) (idle : head.status ≠ .progress) :
      Effect s (.consume call) { s with queue := s.queue.unlinkHead head rest }

variable {s t : Calls} {call : Call}

/-- The wait of an addition, and what follows it. -/
theorem effect_added {input : Input} {others : List Input} (offer : s.Offers call input others) :
    Effect s call (s.added input others (queueAddResume s.queue input.data input.status)) := by
  unfold queueAddResume
  split
  · exact .sleep offer
  · exact .link offer

/-- The search for a block to do. -/
theorem effect_getTodo (h : s.next .getTodo = some t) : Effect s .getTodo t := by
  simp only [next, queueGetFirstBlockTodo] at h
  by_cases ended : queueGetEndOfQueue s.queue = true
  · rw [if_pos ended] at h
    cases h
    exact .look _
  · rw [if_neg ended] at h
    cases found : takeTodo s.queue.items with
    | none =>
      rw [found] at h
      cases h
    | some block =>
      obtain ⟨num, blk, items⟩ := block
      rw [found] at h
      cases h
      obtain ⟨front, rest, split, rfl⟩ := takeTodo_eq_some found
      exact .take num blk front rest split

/-- A look at the first item. -/
theorem effect_consume {call : ConsumerCall} (h : s.next (.consume call) = some t) :
    Effect s (.consume call) t := by
  simp only [next] at h
  cases run : call.run s.queue with
  | wait =>
    rw [run] at h
    cases h
  | unlock queue result =>
    rw [run] at h
    cases h
    rcases Pipe.consumer_cases run with ⟨rfl, -⟩ | ⟨head, rest, split, rfl, done | idle⟩
    · exact .look _
    · exact .unlink call head rest split (by rw [done.1]; decide)
    · exact .unlink call head rest split idle.1

/-- Every critical section has one of the effects. -/
theorem Step.effect (step : Step s call t) : Effect s call t := by
  unfold Step at step
  cases call with
  | add input =>
    simp only [next, Option.some.injEq, Input.enter_eq, queueAddEnter] at step
    subst step
    by_cases closed : s.queue.endofqueue = true
    · rw [if_pos closed]
      exact .refuse input closed
    · rw [if_neg closed]
      exact effect_added (.entered input (by simpa using closed))
  | resume place =>
    simp only [next] at step
    cases found : s.adding[place]? with
    | none =>
      rw [found] at step
      cases step
    | some input =>
      rw [found] at step
      cases step
      exact effect_added (.slept place input found)
  | setEnd state =>
    cases step
    exact .setEnd state
  | getTodo => exact effect_getTodo step
  | replace num blkinfo newstatus =>
    simp only [next] at step
    by_cases holds : num ∈ s.held
    · rw [if_pos holds] at step
      cases step
      exact .replace num blkinfo newstatus holds
    · rw [if_neg holds] at step
      cases step
  | consume call => exact effect_consume step

/-! ## The representation of the queue -/

/-- The two counters and the numbers agree with the list, and headers are ready. -/
structure Represented (q : Queue) : Prop where
  /-- `itemcount`. -/
  items : q.itemcount = q.items.length
  /-- `blkcount`. -/
  blocks : q.blkcount = q.items.countP fun item => item.data.isBlock
  /-- Item numbers increase along the list. -/
  increasing : (q.items.map QueueItem.itemnum).Pairwise (· < ·)
  /-- `curitemnum` is still free. -/
  below : ∀ item ∈ q.items, item.itemnum < q.curitemnum
  /-- A header is ready. -/
  headers : ∀ item ∈ q.items, item.data.isBlock = false → item.status = .done

/-- A well-formed queue is represented as it should be. -/
theorem represented_of_wf {q : Queue} {taken : Nat} (wf : q.Wf taken) : Represented q where
  items := wf.items
  blocks := wf.blocks
  increasing := by
    rw [wf.numbered]
    exact List.pairwise_lt_range'
  below item member := by
    have number : item.itemnum ∈ List.range' (taken + 1) q.items.length :=
      wf.numbered ▸ List.mem_map_of_mem member
    have next := wf.next
    rw [List.mem_range'_1] at number
    omega
  headers := wf.ready

/-- An item that a number was handed out for is a block in progress. -/
structure InProgress (q : Queue) (num : Nat) (item : QueueItem) : Prop where
  /-- It is on the queue. -/
  member : item ∈ q.items
  /-- It has the number. -/
  num : item.itemnum = num
  /-- It is in progress. -/
  status : item.status = .progress
  /-- It is a block. -/
  block : item.data.isBlock = true

/-- What holds of the queue and the calls under way. -/
structure Inv (s : Calls) : Prop where
  /-- The queue is well formed. -/
  wf : ∃ taken, s.queue.Wf taken
  /-- Numbers that were handed out belong to blocks in progress. -/
  held : ∀ num ∈ s.held, ∃ item, InProgress s.queue num item
  /-- A number is handed out once. -/
  distinct : s.held.Nodup

/-- The search of `queue_replace_block` finds a block in progress, and changes only that. -/
theorem queueReplaceBlock_eq {q : Queue} {taken : Nat} (wf : q.Wf taken) {num : Nat}
    {item : QueueItem} (inProgress : InProgress q num item) (blkinfo : BlockInfo)
    (newstatus : ItemStatus) :
    ∃ front rest, q.items = front ++ item :: rest ∧
      queueReplaceBlock q num blkinfo newstatus =
        ({ q with items := front ++
            { item with status := newstatus, data := .block blkinfo } :: rest }, .ok ()) := by
  unfold queueReplaceBlock
  cases found : replaceItem num blkinfo newstatus q.items with
  | none => exact absurd inProgress.num (replaceItem_eq_none found item inProgress.member)
  | some items =>
    obtain ⟨front, other, rest, split, same, rfl⟩ := replaceItem_eq_some found
    have unique : other = item :=
      wf.unique (by rw [split]; simp) inProgress.member (same.trans inProgress.num.symm)
    subst unique
    refine ⟨front, rest, split, ?_⟩
    cases data : other.data with
    | block blk => rfl
    | header head =>
      have block := inProgress.block
      rw [data] at block
      cases block

/-- A new queue. -/
theorem Inv.init (blkmax : Nat) : Inv (Calls.init blkmax) where
  wf := ⟨0, Queue.Wf.init blkmax⟩
  held num member := by cases member
  distinct := List.nodup_nil

/-- A block is handed out. -/
theorem Inv.take {s : Calls} (inv : Inv s) {num : Nat} {blk : BlockInfo}
    {front rest : List QueueItem}
    (split : s.queue.items = front ++ ⟨num, .todo, .block blk⟩ :: rest) :
    Inv { s with
      queue := { s.queue with items := front ++ ⟨num, .progress, .block blk⟩ :: rest }
      held := num :: s.held } := by
  obtain ⟨taken, wf⟩ := inv.wf
  have here : (⟨num, .todo, .block blk⟩ : QueueItem) ∈ s.queue.items := by
    rw [split]
    exact List.mem_append_right _ List.mem_cons_self
  refine ⟨⟨taken, wf.change split rfl rfl (by simp [QueueData.isBlock])⟩, ?_, ?_⟩
  · intro other member
    rcases List.mem_cons.mp member with rfl | member
    · exact ⟨⟨other, .progress, .block blk⟩, by simp, rfl, rfl, rfl⟩
    · obtain ⟨item, inside, isNum, status, block⟩ := inv.held other member
      refine ⟨item, ?_, isNum, status, block⟩
      rw [split] at inside
      simp only [List.mem_append, List.mem_cons] at inside ⊢
      rcases inside with inside | rfl | inside
      · exact .inl inside
      · cases status
      · exact .inr (.inr inside)
  · refine List.nodup_cons.mpr ⟨fun member => ?_, inv.distinct⟩
    obtain ⟨item, inside, isNum, status, -⟩ := inv.held num member
    have same := wf.unique inside here isNum
    rw [same] at status
    cases status

/-- A block comes back. -/
theorem Inv.replace {s : Calls} (inv : Inv s) {num : Nat} (blkinfo : BlockInfo)
    (newstatus : ItemStatus) (holds : num ∈ s.held) :
    Inv { s with
      queue := (queueReplaceBlock s.queue num blkinfo newstatus).1
      held := s.held.erase num } := by
  obtain ⟨taken, wf⟩ := inv.wf
  obtain ⟨item, inProgress⟩ := inv.held num holds
  obtain ⟨front, rest, split, changed⟩ :=
    queueReplaceBlock_eq wf inProgress blkinfo newstatus
  rw [changed]
  refine ⟨⟨taken, wf.change split rfl ?_ (by simp [QueueData.isBlock])⟩, ?_,
    inv.distinct.erase num⟩
  · rw [inProgress.block]
    rfl
  · intro other member
    have apart := (inv.distinct.mem_erase_iff.mp member).1
    obtain ⟨item', inside, isNum, status, block⟩ :=
      inv.held other (List.mem_of_mem_erase member)
    refine ⟨item', ?_, isNum, status, block⟩
    rw [split] at inside
    simp only [List.mem_append, List.mem_cons] at inside ⊢
    rcases inside with inside | rfl | inside
    · exact .inl inside
    · exact absurd (isNum.symm.trans inProgress.num) apart
    · exact .inr (.inr inside)

/-- The first item is unlinked. -/
theorem Inv.unlink {s : Calls} (inv : Inv s) {head : QueueItem} {rest : List QueueItem}
    (split : s.queue.items = head :: rest) (idle : head.status ≠ .progress) :
    Inv { s with queue := s.queue.unlinkHead head rest } := by
  obtain ⟨taken, wf⟩ := inv.wf
  refine ⟨⟨taken + 1, wf.unlinkHead split⟩, ?_, inv.distinct⟩
  intro num member
  obtain ⟨item, inside, isNum, status, block⟩ := inv.held num member
  refine ⟨item, ?_, isNum, status, block⟩
  rw [split] at inside
  rcases List.mem_cons.mp inside with rfl | inside
  · exact absurd status idle
  · exact inside

/-- An item is linked. -/
theorem Inv.link {s : Calls} (inv : Inv s) (input : Input) (others : List Input) :
    Inv { s with queue := s.queue.link input.data input.status, adding := others } := by
  obtain ⟨taken, wf⟩ := inv.wf
  have header : input.data.isBlock = false → input.status = .done := by
    cases input <;> simp [Input.data, Input.status, QueueData.isBlock]
  refine ⟨⟨taken, wf.link header⟩, ?_, inv.distinct⟩
  intro num member
  obtain ⟨item, inside, isNum, status, block⟩ := inv.held num member
  exact ⟨item, List.mem_append_left _ inside, isNum, status, block⟩

/-- Every critical section keeps the invariant. -/
theorem Inv.step {s t : Calls} {call : Call} (inv : Inv s) (step : Step s call t) : Inv t := by
  cases step.effect with
  | sleep offer => exact ⟨inv.wf, inv.held, inv.distinct⟩
  | refuse input closed => exact inv
  | link offer => exact inv.link _ _
  | setEnd state =>
    obtain ⟨taken, wf⟩ := inv.wf
    refine ⟨⟨taken, wf.setEnd state⟩, ?_, inv.distinct⟩
    intro num member
    obtain ⟨item, inside, isNum, status, block⟩ := inv.held num member
    exact ⟨item, inside, isNum, status, block⟩
  | take num blk front rest split => exact inv.take split
  | replace num blkinfo newstatus holds => exact inv.replace blkinfo newstatus holds
  | look => exact inv
  | unlink call head rest split idle => exact inv.unlink split idle

/-- An item in progress stays on the queue as it is, unless its block comes back. -/
theorem progress_stays {s t : Calls} {call : Call} (inv : Inv s) (step : Step s call t)
    {item : QueueItem} (member : item ∈ s.queue.items) (status : item.status = .progress)
    (other : ∀ blkinfo newstatus, call ≠ .replace item.itemnum blkinfo newstatus) :
    item ∈ t.queue.items := by
  cases step.effect with
  | sleep offer => exact member
  | refuse input closed => exact member
  | link offer => exact List.mem_append_left _ member
  | setEnd state => exact member
  | take num blk front rest split =>
    rw [split] at member
    simp only [List.mem_append, List.mem_cons] at member ⊢
    rcases member with member | rfl | member
    · exact .inl member
    · cases status
    · exact .inr (.inr member)
  | replace num blkinfo newstatus holds =>
    obtain ⟨taken, wf⟩ := inv.wf
    obtain ⟨item', inProgress⟩ := inv.held num holds
    obtain ⟨front, rest, split, changed⟩ :=
      queueReplaceBlock_eq wf inProgress blkinfo newstatus
    rw [changed]
    rw [split] at member
    simp only [List.mem_append, List.mem_cons] at member ⊢
    rcases member with member | rfl | member
    · exact .inl member
    · rw [inProgress.num] at other
      exact absurd rfl (other blkinfo newstatus)
    · exact .inr (.inr member)
  | look => exact member
  | unlink call head rest split idle =>
    rw [split] at member
    rcases List.mem_cons.mp member with rfl | member
    · exact absurd status idle
    · exact member

/-- The representation invariant. In every state that any calls lead to, the queue is
represented as it should be, so that the counters are large enough for the first item to be
taken; `queue_replace_block` finds the block whose number was handed out and changes only this
item; and no other call takes an item in progress away or changes it. -/
theorem representation {blkmax : Nat} {trace : List (Call × Calls)}
    (run : Trace Step (Calls.init blkmax) trace) :
    (∀ s ∈ Trace.states (Calls.init blkmax) trace,
      Represented s.queue ∧
      (∀ head rest, s.queue.items = head :: rest →
        1 ≤ s.queue.itemcount ∧ (head.data.isBlock = true → 1 ≤ s.queue.blkcount)) ∧
      ∀ num ∈ s.held, ∀ blkinfo newstatus, ∃ front item rest,
        s.queue.items = front ++ item :: rest ∧ item.itemnum = num ∧ item.status = .progress ∧
        queueReplaceBlock s.queue num blkinfo newstatus =
          ({ s.queue with items := front ++
              { item with status := newstatus, data := .block blkinfo } :: rest }, .ok ())) ∧
    ∀ before call after rest, trace = before ++ (call, after) :: rest →
      ∀ item ∈ (Trace.last (Calls.init blkmax) before).queue.items, item.status = .progress →
        (∀ blkinfo newstatus, call ≠ .replace item.itemnum blkinfo newstatus) →
        item ∈ after.queue.items := by
  have invariant : ∀ s ∈ Trace.states (Calls.init blkmax) trace, Inv s :=
    Trace.invariant_of_step (fun s call t inv step => inv.step step) run (Inv.init blkmax)
  constructor
  · intro s reached
    have inv := invariant s reached
    obtain ⟨taken, wf⟩ := inv.wf
    refine ⟨represented_of_wf wf, fun head rest split => ?_, fun num holds blkinfo newstatus => ?_⟩
    · have items := wf.items
      have blocks := wf.blocks
      rw [split] at items blocks
      refine ⟨by rw [items, List.length_cons]; omega, fun block => ?_⟩
      rw [blocks, List.countP_cons, block]
      simp
    · obtain ⟨item, inProgress⟩ := inv.held num holds
      obtain ⟨front, rest, split, changed⟩ :=
        queueReplaceBlock_eq wf inProgress blkinfo newstatus
      exact ⟨front, item, rest, split, inProgress.num, inProgress.status, changed⟩
  · intro before call after rest split item member status other
    subst split
    have inside := (Trace.mem_states_of_split (Calls.init blkmax) after call before rest).1
    exact progress_stays (invariant _ inside) (Trace.step_of_split run) member status other

/-- Two blocks are handed out and the second one comes back first: the first one is still found
and changed. -/
theorem representation_two_blocks : ∃ trace : List (Call × Calls),
    Trace Step (init 2) trace ∧
      Trace.labels trace = [.add (.todo (byteBlock 1)), .add (.todo (byteBlock 2)), .getTodo,
        .getTodo, .replace 2 (marked (byteBlock 2)) .done] ∧
      (∀ s ∈ Trace.states (init 2) trace, Represented s.queue) ∧
      ∃ front item rest, (Trace.last (init 2) trace).queue.items = front ++ item :: rest ∧
        item.itemnum = 1 ∧ item.status = .progress ∧
        queueReplaceBlock (Trace.last (init 2) trace).queue 1 (marked (byteBlock 1)) .done =
          ({ (Trace.last (init 2) trace).queue with items := front ++
              { item with status := .done, data := .block (marked (byteBlock 1)) } :: rest },
            .ok ()) := by
  have run : Trace Step (init 2) _ :=
    .cons (show Step _ (.add (.todo (byteBlock 1))) _ from rfl) <|
    .cons (show Step _ (.add (.todo (byteBlock 2))) _ from rfl) <|
    .cons (show Step _ .getTodo _ from rfl) <|
    .cons (show Step _ .getTodo _ from rfl) <|
    .cons (show Step _ (.replace 2 (marked (byteBlock 2)) .done) _ from rfl) <|
    .nil _
  have holds := (representation run).1
  refine ⟨_, run, rfl, fun s member => (holds s member).1, ?_⟩
  exact (holds _ (Trace.last_mem _ _)).2.2 1 (by decide) (marked (byteBlock 1)) .done

/-! ## The end of the queue -/

/-- The queue is closed, and no addition sleeps. -/
def Closed (s : Calls) : Prop := s.queue.endofqueue = true ∧ s.adding = []

/-- From one state to the other nothing was linked. -/
def NothingLinked (s t : Calls) : Prop :=
  t.queue.curitemnum = s.queue.curitemnum ∧
    t.queue.items.map QueueItem.itemnum <:+ s.queue.items.map QueueItem.itemnum

theorem NothingLinked.refl (s : Calls) : NothingLinked s s := ⟨rfl, List.suffix_refl _⟩

theorem NothingLinked.trans {s t u : Calls} (first : NothingLinked s t)
    (second : NothingLinked t u) : NothingLinked s u :=
  ⟨second.1.trans first.1, second.2.trans first.2⟩

/-- Where an addition is past its test, the queue is open or the addition slept. -/
theorem Closed.not_offers {s : Calls} (closed : Closed s) {call : Call} {input : Input}
    {others : List Input} : ¬s.Offers call input others := by
  intro offer
  cases offer with
  | entered input opened =>
    rw [closed.1] at opened
    cases opened
  | slept place input found =>
    rw [closed.2] at found
    simp at found

/-- A closed queue stays closed unless it is opened again, and nothing is linked. -/
theorem Closed.step {s t : Calls} {call : Call} (closed : Closed s) (inv : Inv s)
    (step : Step s call t) (open' : call ≠ .setEnd false) : Closed t ∧ NothingLinked s t := by
  cases step.effect with
  | sleep offer => exact absurd offer closed.not_offers
  | refuse input full => exact ⟨closed, .refl s⟩
  | link offer => exact absurd offer closed.not_offers
  | setEnd state =>
    cases state with
    | false => exact absurd rfl open'
    | true => exact ⟨⟨rfl, closed.2⟩, rfl, List.suffix_refl _⟩
  | take num blk front rest split =>
    refine ⟨closed, rfl, ?_⟩
    rw [split]
    simp
  | replace num blkinfo newstatus holds =>
    obtain ⟨taken, wf⟩ := inv.wf
    obtain ⟨item, inProgress⟩ := inv.held num holds
    obtain ⟨front, rest, split, changed⟩ :=
      queueReplaceBlock_eq wf inProgress blkinfo newstatus
    rw [changed]
    refine ⟨closed, rfl, ?_⟩
    rw [split]
    simp
  | look => exact ⟨closed, .refl s⟩
  | unlink call head rest split idle =>
    refine ⟨closed, rfl, ?_⟩
    rw [split]
    exact List.suffix_cons _ _

/-- A queue that is at its end has nothing that could be taken. -/
theorem atEnd_of_nothingLinked {s t : Calls} (inv : Inv s) (inv' : Inv t) (closed : Closed t)
    (shrunk : NothingLinked s t) (ended : queueGetEndOfQueue s.queue = true) :
    queueGetEndOfQueue t.queue = true := by
  obtain ⟨taken, wf⟩ := inv.wf
  obtain ⟨taken', wf'⟩ := inv'.wf
  have empty := wf.items_of_end ended
  have gone := shrunk.2
  rw [empty, List.map_nil, List.suffix_nil, List.map_eq_nil_iff] at gone
  simp [queueGetEndOfQueue, wf'.items, gone, closed.1]

/-- From a closed queue on, a run that does not open it links nothing. -/
theorem Closed.run {s : Calls} {trace : List (Call × Calls)} (closed : Closed s) (inv : Inv s)
    (run : Trace Step s trace) (open' : ∀ call ∈ Trace.labels trace, call ≠ .setEnd false) :
    ∀ t ∈ Trace.states s trace, Inv t ∧ Closed t ∧ NothingLinked s t := by
  refine Trace.invariant_of_labels (fun call => call ≠ .setEnd false) ?_ run
    ⟨inv, closed, .refl s⟩ open'
  intro t call u holds other step
  obtain ⟨inv', closed', shrunk⟩ := holds
  obtain ⟨closed'', shrunk'⟩ := closed'.step inv' step other
  exact ⟨inv'.step step, closed'', shrunk.trans shrunk'⟩

/-- A queue whose flag is set was closed by some call. -/
theorem closed_of_endofqueue {blkmax : Nat} {trace : List (Call × Calls)}
    (run : Trace Step (Calls.init blkmax) trace)
    (quiet : ∀ before after rest, trace = before ++ (.setEnd true, after) :: rest →
      (Trace.last (Calls.init blkmax) before).adding = [])
    (open' : ∀ call ∈ Trace.labels trace, call ≠ .setEnd false) :
    ∀ s ∈ Trace.states (Calls.init blkmax) trace,
      Inv s ∧ (s.queue.endofqueue = true → Closed s) := by
  refine Trace.invariant (fun s call => call ≠ .setEnd false ∧ (call = .setEnd true → s.adding = []))
    ?_ run ⟨Inv.init blkmax, fun closed => by cases closed⟩ ?_
  · intro s call t holds allowed step
    obtain ⟨inv, known⟩ := holds
    refine ⟨inv.step step, fun flag => ?_⟩
    cases ended : s.queue.endofqueue with
    | true => exact ((known ended).step inv step allowed.1).1
    | false =>
      cases step.effect with
      | setEnd state =>
        cases state with
        | false => exact absurd rfl allowed.1
        | true => exact ⟨rfl, allowed.2 rfl⟩
      | replace num blkinfo newstatus holds =>
        obtain ⟨taken, wf⟩ := inv.wf
        obtain ⟨item, inProgress⟩ := inv.held num holds
        obtain ⟨front, rest, split, changed⟩ :=
          queueReplaceBlock_eq wf inProgress blkinfo newstatus
        rw [changed] at flag
        exact absurd (ended.symm.trans flag) (by decide)
      | sleep | refuse | link | take | look | unlink =>
        exact absurd (ended.symm.trans flag) (by decide)
  · intro before call after rest split
    refine ⟨open' call (by rw [split]; simp [Trace.labels]), ?_⟩
    rintro rfl
    exact quiet before after rest split

/-- The end of the queue is final, in every run in which no addition sleeps at the moment the
queue is closed, and in which it is not opened again: after the call nothing is linked, and a
queue that has been at its end stays there. -/
theorem end_final {blkmax : Nat} {trace : List (Call × Calls)}
    (run : Trace Step (Calls.init blkmax) trace)
    (quiet : ∀ before after rest, trace = before ++ (.setEnd true, after) :: rest →
      (Trace.last (Calls.init blkmax) before).adding = [])
    (open' : ∀ call ∈ Trace.labels trace, call ≠ .setEnd false) :
    (∀ before after rest, trace = before ++ (.setEnd true, after) :: rest →
      ∀ t ∈ Trace.states after rest, NothingLinked after t) ∧
    ∀ before rest, trace = before ++ rest →
      queueGetEndOfQueue (Trace.last (Calls.init blkmax) before).queue = true →
      ∀ t ∈ Trace.states (Trace.last (Calls.init blkmax) before) rest,
        queueGetEndOfQueue t.queue = true := by
  have known := closed_of_endofqueue run quiet open'
  constructor
  · intro before after rest split t member
    subst split
    have inside := (Trace.mem_states_of_split (Calls.init blkmax) after (.setEnd true) before rest).2
    have closed : Closed after := by
      have step := Trace.step_of_split run
      refine (known after inside).2 ?_
      cases step
      rfl
    have onward : Trace Step after rest := by
      cases Trace.after_append run with
      | cons first tail => exact tail
    refine (closed.run (known after inside).1 onward ?_ t member).2.2
    exact fun call member => open' call (by simp_all [Trace.labels])
  · intro before rest split ended t member
    subst split
    have inside := (Trace.mem_states_iff (Calls.init blkmax) (before ++ rest) _).mpr
      ⟨before, rest, rfl, rfl⟩
    have flag : (Trace.last (Calls.init blkmax) before).queue.endofqueue = true := by
      unfold queueGetEndOfQueue at ended
      exact (Bool.and_eq_true_iff.mp ended).2
    obtain ⟨inv, closed⟩ := known _ inside
    obtain ⟨inv', closed', shrunk⟩ := (closed flag).run inv (Trace.after_append run)
      (fun call member => open' call (by simp_all [Trace.labels])) t member
    exact atEnd_of_nothingLinked inv inv' closed' shrunk ended

/-- No addition sleeps when the queue is closed if none ever does. -/
theorem quiet_of_states {blkmax : Nat} {trace : List (Call × Calls)}
    (awake : ∀ s ∈ Trace.states (init blkmax) trace, s.adding = []) (before : List (Call × Calls))
    (after : Calls) (rest : List (Call × Calls))
    (split : trace = before ++ (.setEnd true, after) :: rest) :
    (Trace.last (init blkmax) before).adding = [] := by
  subst split
  exact awake _ (Trace.mem_states_of_split (init blkmax) after (.setEnd true) before rest).1

/-- A queue with two blocks is closed while nobody adds to it: a later addition changes nothing, and
when both blocks are taken the queue is at its end, whatever is added. -/
theorem end_final_two_blocks : ∃ before closed after,
    Trace Step (init 1) (before ++ (.setEnd true, closed) :: after) ∧
      Trace.labels before = [.add (.ready (byteBlock 1)), .add (.ready (byteBlock 2))] ∧
      Trace.labels after = [.add (.ready (byteBlock 3)), .consume .dequeueFirst,
        .consume .dequeueFirst, .add (.ready (byteBlock 3))] ∧
      (∀ t ∈ Trace.states closed after, NothingLinked closed t) ∧
      queueGetEndOfQueue (Trace.last closed after).queue = true := by
  have run : Trace Step (init 1) ([_, _] ++ (.setEnd true, _) :: ([_, _, _] ++ [_])) :=
    .cons (show Step _ (.add (.ready (byteBlock 1))) _ from rfl) <|
    .cons (show Step _ (.add (.ready (byteBlock 2))) _ from rfl) <|
    .cons (show Step _ (.setEnd true) _ from rfl) <|
    .cons (show Step _ (.add (.ready (byteBlock 3))) _ from rfl) <|
    .cons (show Step _ (.consume .dequeueFirst) _ from rfl) <|
    .cons (show Step _ (.consume .dequeueFirst) _ from rfl) <|
    .cons (show Step _ (.add (.ready (byteBlock 3))) _ from rfl) <|
    .nil _
  obtain ⟨nothing, stays⟩ := end_final run (quiet_of_states (by decide))
    (by simp [Trace.labels])
  refine ⟨_, _, _, run, rfl, rfl, nothing _ _ _ rfl, ?_⟩
  exact stays ([_, _] ++ (.setEnd true, _) :: [_, _, _]) [_] rfl rfl _ (Trace.last_mem _ _)

/-- An addition that slept while the queue was closed goes on when there is room again: the queue
was at its end, and is not any more. -/
theorem link_after_end : ∃ (before after : List (Call × Calls)) (closed s t : Calls),
    Trace Step (init 0) (before ++ (.setEnd true, closed) :: after) ∧
    (∀ call ∈ Trace.labels (before ++ (.setEnd true, closed) :: after), call ≠ .setEnd false) ∧
    s ∈ Trace.states closed after ∧ Trace.last closed after = t ∧ ¬NothingLinked closed t ∧
    queueGetEndOfQueue s.queue = true ∧ queueGetEndOfQueue t.queue = false := by
  have run : Trace Step (init 0) ([_, _] ++ (.setEnd true, _) :: [_, _]) :=
    .cons (show Step _ (.add (.ready .zero)) _ from rfl) <|
    .cons (show Step _ (.add (.ready .zero)) _ from rfl) <|
    .cons (show Step _ (.setEnd true) _ from rfl) <|
    .cons (show Step _ (.consume .dequeueFirst) _ from rfl) <|
    .cons (show Step _ (.resume 0) _ from rfl) <|
    .nil _
  refine ⟨_, _, _, _, _, run, by simp [Trace.labels], List.mem_cons_of_mem _ List.mem_cons_self, rfl,
    fun nothing => ?_, rfl, rfl⟩
  exact absurd nothing.1 (by decide)

end Calls

end FsArchiver
