import FsArchiver.QueueCalls

/-!
# How many blocks the queue holds

A thread that adds an item waits while `blkcount > blkmax`. The test lets a block pass when the
queue already holds `blkmax` blocks, so that the number of blocks reaches `blkmax + 1` and no
more, whatever the threads do. It stays within `blkmax` in exactly those runs in which no block
is added at the limit.
-/
namespace FsArchiver

open Lib

/-- The items of type `QITEM_TYPE_BLOCK`. -/
def Queue.blocks (q : Queue) : Nat := q.items.countP fun item => item.data.isBlock

namespace Calls

variable {s t : Calls} {call : Call}

/-- A block is offered by an addition that is past the test of `endofqueue`. -/
def OffersBlock (s : Calls) (call : Call) : Prop :=
  ∃ input others, s.Offers call input others ∧ input.data.isBlock = true

/-- A block is offered to a queue that holds as many blocks as it is configured for. -/
def OffersAtLimit (s : Calls) (call : Call) : Prop :=
  s.queue.blkcount = s.queue.blkmax ∧ s.OffersBlock call

/-- An addition that is past the test of `endofqueue` waits or links its item. -/
theorem next_of_offers {input : Input} {others : List Input}
    (offer : s.Offers call input others) :
    s.next call = some (s.added input others
      (queueAddResume s.queue input.data input.status)) := by
  cases offer with
  | entered input opened =>
    simp only [next, Input.enter_eq, queueAddEnter, opened, Bool.false_eq_true, ↓reduceIte]
  | slept place input found => simp only [next, found]

/-- Linking an item adds it to the count if it is a block. -/
theorem blocks_link (q : Queue) (data : QueueData) (status : ItemStatus) :
    (q.link data status).blocks = q.blocks + if data.isBlock then 1 else 0 := by
  simp only [Queue.blocks, Queue.link, List.countP_append, List.countP_cons, List.countP_nil,
    Nat.zero_add]

/-- The configured size never changes. -/
theorem Step.blkmax_eq (inv : Inv s) (step : Step s call t) :
    t.queue.blkmax = s.queue.blkmax := by
  cases step.effect with
  | replace num blkinfo newstatus holds =>
    obtain ⟨taken, wf⟩ := inv.wf
    obtain ⟨item, inProgress⟩ := inv.held num holds
    obtain ⟨front, rest, split, changed⟩ :=
      queueReplaceBlock_eq wf inProgress blkinfo newstatus
    rw [changed]
  | sleep | refuse | link | setEnd | take | look | unlink => rfl

/-- An addition that is past the test of `endofqueue` raises the count by its own block, if the
queue has room for it. -/
theorem blocks_of_offers {input : Input} {others : List Input}
    (offer : s.Offers call input others) (step : Step s call t) :
    (s.queue.blkcount > s.queue.blkmax ∧ t.queue.blocks = s.queue.blocks) ∨
      (s.queue.blkcount ≤ s.queue.blkmax ∧
        t.queue.blocks = s.queue.blocks + if input.data.isBlock then 1 else 0) := by
  have reached := (next_of_offers offer).symm.trans step
  simp only [Option.some.injEq, queueAddResume] at reached
  by_cases full : s.queue.blkcount > s.queue.blkmax
  · left
    rw [if_pos full] at reached
    rw [← reached]
    exact ⟨full, rfl⟩
  · right
    rw [if_neg full] at reached
    rw [← reached]
    exact ⟨by omega, blocks_link ..⟩

/-- A block that comes back was counted already. -/
theorem blocks_replace (inv : Inv s) {num : Nat} (holds : num ∈ s.held) (blkinfo : BlockInfo)
    (newstatus : ItemStatus) :
    (queueReplaceBlock s.queue num blkinfo newstatus).1.blocks = s.queue.blocks := by
  obtain ⟨taken, wf⟩ := inv.wf
  obtain ⟨item, inProgress⟩ := inv.held num holds
  obtain ⟨front, rest, split, changed⟩ :=
    queueReplaceBlock_eq wf inProgress blkinfo newstatus
  have same : QueueData.isBlock (.block blkinfo) = item.data.isBlock := inProgress.block.symm
  simp only [changed, Queue.blocks, split, List.countP_append, List.countP_cons, same]

/-- Only an addition with room in front of it raises the number of blocks, and by one. -/
theorem Step.blocks_le (inv : Inv s) (step : Step s call t) :
    t.queue.blocks ≤ s.queue.blocks ∨
      (t.queue.blocks = s.queue.blocks + 1 ∧ s.queue.blkcount ≤ s.queue.blkmax ∧
        s.OffersBlock call) := by
  cases step.effect with
  | sleep offer | refuse | setEnd | look => exact .inl (Nat.le_refl _)
  | @link _ input others offer =>
    rcases blocks_of_offers offer step with ⟨full, same⟩ | ⟨room, more⟩
    · exact .inl (Nat.le_of_eq same)
    · cases block : input.data.isBlock with
      | false => exact .inl (by rw [more, block]; exact Nat.le_refl _)
      | true => exact .inr ⟨by rw [more, block]; exact rfl, room, input, others, offer, block⟩
  | take num blk front rest split =>
    left
    simp only [Queue.blocks, split, List.countP_append, List.countP_cons]
    exact Nat.le_refl _
  | replace num blkinfo newstatus holds =>
    exact .inl (Nat.le_of_eq (blocks_replace inv holds blkinfo newstatus))
  | unlink call head rest split idle =>
    left
    simp only [Queue.blocks, Queue.unlinkHead, split, List.countP_cons]
    omega

/-- `blkcount` counts the blocks. -/
theorem Inv.blkcount_eq (inv : Inv s) : s.queue.blkcount = s.queue.blocks := by
  obtain ⟨taken, wf⟩ := inv.wf
  exact wf.blocks

/-- A block offered at the limit is linked. -/
theorem OffersAtLimit.passes (inv : Inv s) (atLimit : s.OffersAtLimit call)
    (step : Step s call t) : t.queue.blkmax < t.queue.blocks := by
  obtain ⟨limit, input, others, offer, block⟩ := atLimit
  have counted := inv.blkcount_eq
  have size := step.blkmax_eq inv
  rcases blocks_of_offers offer step with ⟨full, -⟩ | ⟨-, more⟩
  · omega
  · rw [block, if_pos rfl] at more
    omega

/-- What holds in every state of a run: the queue has its configured size, and one block more
than that at most. -/
structure WithinOneMore (blkmax : Nat) (s : Calls) : Prop where
  inv : Inv s
  size : s.queue.blkmax = blkmax
  blocks : s.queue.blocks ≤ blkmax + 1

/-- A step adds a block only where `blkcount` is not above the limit. -/
theorem WithinOneMore.step {blkmax : Nat} (within : WithinOneMore blkmax s)
    (step : Step s call t) : WithinOneMore blkmax t where
  inv := within.inv.step step
  size := (step.blkmax_eq within.inv).trans within.size
  blocks := by
    have counted := within.inv.blkcount_eq
    have size := within.size
    have before := within.blocks
    rcases step.blocks_le within.inv with fewer | ⟨more, room, -⟩
    · omega
    · omega

/-- A step keeps the number of blocks within the configured size, unless it offers a block at
the limit. -/
theorem WithinOneMore.step_within {blkmax : Nat} (within : WithinOneMore blkmax s)
    (bound : s.queue.blocks ≤ blkmax) (clear : ¬s.OffersAtLimit call) (step : Step s call t) :
    t.queue.blocks ≤ blkmax := by
  have counted := within.inv.blkcount_eq
  have size := within.size
  rcases step.blocks_le within.inv with fewer | ⟨more, room, offers⟩
  · omega
  · by_contra beyond
    apply clear
    exact ⟨by omega, offers⟩

/-- The start of a run. -/
theorem WithinOneMore.init (blkmax : Nat) : WithinOneMore blkmax (Calls.init blkmax) :=
  ⟨Inv.init blkmax, rfl, Nat.zero_le _⟩

/-- In every run of any calls the queue holds at most one block more than it is configured for,
and it never holds more than that size if and only if no block is offered to it while it holds
that many. -/
theorem blocks_within_iff {blkmax : Nat} {trace : List (Call × Calls)}
    (run : Trace Step (Calls.init blkmax) trace) :
    (∀ s ∈ Trace.states (Calls.init blkmax) trace, s.queue.blocks ≤ blkmax + 1) ∧
      ((∀ s ∈ Trace.states (Calls.init blkmax) trace, s.queue.blocks ≤ blkmax) ↔
        ∀ before call after rest, trace = before ++ (call, after) :: rest →
          ¬(Trace.last (Calls.init blkmax) before).OffersAtLimit call) := by
  have invariant : ∀ s ∈ Trace.states (Calls.init blkmax) trace, WithinOneMore blkmax s :=
    Trace.invariant_of_step (fun s call t within step => within.step step) run (.init blkmax)
  refine ⟨fun s reached => (invariant s reached).blocks, ?_, ?_⟩
  · intro bound before call after rest split atLimit
    subst split
    obtain ⟨here, there⟩ := Trace.mem_states_of_split (Calls.init blkmax) after call before rest
    have passed := atLimit.passes (invariant _ here).inv (Trace.step_of_split run)
    have size := (invariant after there).size
    have kept := bound after there
    omega
  · intro clear s reached
    have preserved : ∀ s call t, WithinOneMore blkmax s ∧ s.queue.blocks ≤ blkmax →
        ¬s.OffersAtLimit call → Step s call t → WithinOneMore blkmax t ∧ t.queue.blocks ≤ blkmax :=
      fun s call t holds allowed step =>
        ⟨holds.1.step step, holds.1.step_within holds.2 allowed step⟩
    exact (Trace.invariant _ preserved run ⟨.init blkmax, Nat.zero_le _⟩ clear s reached).2

/-- A queue for two blocks is filled and emptied: it holds two and never three. -/
theorem blocks_within_two_blocks : ∃ trace : List (Call × Calls),
    Trace Step (init 2) trace ∧
      Trace.labels trace = [.add (.ready (byteBlock 1)), .add (.ready (byteBlock 2)),
        .consume .dequeueFirst, .add (.ready (byteBlock 3)), .consume .dequeueFirst,
        .consume .dequeueFirst] ∧
      (∀ s ∈ Trace.states (init 2) trace, s.queue.blocks ≤ 2) ∧
      ∃ s ∈ Trace.states (init 2) trace, s.queue.blocks = 2 := by
  have run : Trace Step (init 2) _ :=
    .cons (show Step _ (.add (.ready (byteBlock 1))) _ from rfl) <|
    .cons (show Step _ (.add (.ready (byteBlock 2))) _ from rfl) <|
    .cons (show Step _ (.consume .dequeueFirst) _ from rfl) <|
    .cons (show Step _ (.add (.ready (byteBlock 3))) _ from rfl) <|
    .cons (show Step _ (.consume .dequeueFirst) _ from rfl) <|
    .cons (show Step _ (.consume .dequeueFirst) _ from rfl) <|
    .nil _
  refine ⟨_, run, rfl, (blocks_within_iff run).2.mpr ?_, _,
    List.mem_cons_of_mem _ (List.mem_cons_of_mem _ List.mem_cons_self), rfl⟩
  -- the three additions find no block, one block and one block
  rintro before call after rest split ⟨limit, input, others, offer, -⟩
  rcases before with - | ⟨_, - | ⟨_, - | ⟨_, - | ⟨_, - | ⟨_, - | ⟨_, before⟩⟩⟩⟩⟩⟩
  · cases split
    exact absurd limit (by decide)
  · cases split
    exact absurd limit (by decide)
  · cases split
    cases offer
  · cases split
    exact absurd limit (by decide)
  · cases split
    cases offer
  · cases split
    cases offer
  · simp at split

/-- A queue of size one takes two blocks. -/
theorem second_block_taken : ∃ trace : List (Call × Calls),
    Trace Step (init 1) trace ∧ ∃ s ∈ Trace.states (init 1) trace, 1 < s.queue.blocks := by
  have run : Trace Step (init 1) _ :=
    .cons (show Step _ (.add (.ready .zero)) _ from rfl) <|
    .cons (show Step _ (.add (.ready .zero)) _ from rfl) <|
    .nil _
  exact ⟨_, run, _, Trace.last_mem .., by decide⟩

end Calls

end FsArchiver
