import FsArchiver.Pipeline

/-!
# Invariant of the queue and its threads

The queue holds the inputs that were pushed and not yet taken, in order, each as it was pushed
or processed. A thread that holds a block owns the item of that number: the item is in the
queue, in progress, and no other thread holds it. From this the queue with its threads
simulates a relay, and a block is stranded exactly when a thread has failed to process it.
-/
namespace FsArchiver

open Lib

/-- An item of the queue next to the input it came from: ready with what may come out, or
still the block that was pushed. -/
def Aligned (outcome : Outcome) (input : Input) (item : QueueItem) : Prop :=
  (item.status = .done ∧ Yields outcome input item.data) ∨
    (item.status ≠ .done ∧ ∃ blk, input = .todo blk ∧ item.data = .block blk)

/-- A thread with a block owns an item in progress. -/
def WorkerPc.Owns (outcome : Outcome) (items : List QueueItem) : WorkerPc → Prop
  | .processing num blk => ⟨num, .progress, .block blk⟩ ∈ items
  | .replacing num blk' => ∃ blk, ⟨num, .progress, .block blk⟩ ∈ items ∧ outcome blk (some blk')
  | .top | .getting | .exited => True

/-- An input is aligned with the item it is pushed as. -/
theorem Input.aligned (outcome : Outcome) (input : Input) (num : Nat) :
    Aligned outcome input ⟨num, input.status, input.data⟩ := by
  cases input with
  | header headinfo => exact .inl ⟨rfl, .header headinfo⟩
  | todo blk => exact .inr ⟨by simp [Input.status], blk, rfl, rfl⟩
  | ready blk => exact .inl ⟨rfl, .ready blk⟩

/-- A thread owns its item in every list that keeps its item in progress. -/
theorem WorkerPc.Owns.of_kept {outcome : Outcome} {items items' : List QueueItem} {pc : WorkerPc}
    (owns : pc.Owns outcome items)
    (kept : ∀ item ∈ items, item.status = .progress → pc.held = some item.itemnum →
      item ∈ items') : pc.Owns outcome items' := by
  cases pc with
  | processing num blk => exact kept _ owns rfl rfl
  | replacing num blk' =>
    obtain ⟨blk, member, success⟩ := owns
    exact ⟨blk, kept _ member rfl rfl, success⟩
  | top | getting | exited => trivial

namespace Pipe

variable {ι : Type} {outcome : Outcome}

/-- What holds in every state of every run. -/
structure Inv (outcome : Outcome) (s : Pipe ι) : Prop where
  /-- The counters agree with the list. -/
  wf : s.queue.Wf s.taken.length
  /-- Nothing is lost between the two ends. -/
  count : s.taken.length + s.queue.items.length = s.pushed.length
  /-- The items are the inputs not yet taken, in order. -/
  aligned : List.Forall₂ (Aligned outcome) (s.pushed.drop s.taken.length) s.queue.items
  /-- The queue is not closed under a waiting producer. -/
  opened : s.adding.isSome = true → s.queue.endofqueue = false
  /-- A thread with a block owns its item. -/
  owns : ∀ w, (s.workers w).Owns outcome s.queue.items
  /-- No two threads hold one block. -/
  alone : ∀ w w' num, (s.workers w).held = some num → (s.workers w').held = some num → w = w'

/-- The invariant holds at the start. -/
theorem Inv.init (blkmax : Nat) : Inv outcome (Pipe.init ι blkmax) where
  wf := Queue.Wf.init blkmax
  count := rfl
  aligned := .nil
  opened := by simp [Pipe.init]
  owns _ := trivial
  alone _ _ _ held := by simp [Pipe.init, WorkerPc.held] at held

section Move

variable [DecidableEq ι] {s : Pipe ι} {w : ι} {pc : WorkerPc}

@[simp] theorem move_queue : (s.move w pc).queue = s.queue := rfl
@[simp] theorem move_adding : (s.move w pc).adding = s.adding := rfl
@[simp] theorem move_pushed : (s.move w pc).pushed = s.pushed := rfl
@[simp] theorem move_taken : (s.move w pc).taken = s.taken := rfl
@[simp] theorem move_sawEnd : (s.move w pc).sawEnd = s.sawEnd := rfl
@[simp] theorem move_same : (s.move w pc).workers w = pc := Function.update_self ..

@[simp] theorem move_other {w' : ι} (other : w' ≠ w) : (s.move w pc).workers w' = s.workers w' :=
  Function.update_of_ne other ..

/-- Threads hold different blocks after one of them moves, when what it holds now is new or
what it held before. -/
theorem Inv.alone_move (inv : Inv outcome s)
    (apart : ∀ num, pc.held = some num → ∀ w', w' ≠ w → (s.workers w').held ≠ some num) :
    ∀ left right num, ((s.move w pc).workers left).held = some num →
      ((s.move w pc).workers right).held = some num → left = right := by
  intro left right num holdsLeft holdsRight
  by_cases isLeft : left = w
  · by_cases isRight : right = w
    · rw [isLeft, isRight]
    · rw [isLeft, move_same] at holdsLeft
      rw [move_other isRight] at holdsRight
      exact absurd holdsRight (apart num holdsLeft right isRight)
  · rw [move_other isLeft] at holdsLeft
    by_cases isRight : right = w
    · rw [isRight, move_same] at holdsRight
      exact absurd holdsLeft (apart num holdsRight left isLeft)
    · rw [move_other isRight] at holdsRight
      exact inv.alone left right num holdsLeft holdsRight

/-- A move that leaves the queue alone keeps the invariant. -/
theorem Inv.move (inv : Inv outcome s) (owns : pc.Owns outcome s.queue.items)
    (kept : pc.held = none ∨ pc.held = (s.workers w).held) : Inv outcome (s.move w pc) where
  wf := inv.wf
  count := inv.count
  aligned := inv.aligned
  opened := inv.opened
  owns w' := by
    by_cases same : w' = w
    · rw [same, move_same]
      exact owns
    · rw [move_other same]
      exact inv.owns w'
  alone := inv.alone_move fun num holds w' other held => by
    rcases kept with nothing | before
    · rw [nothing] at holds
      cases holds
    · exact other (inv.alone w' w num held (before ▸ holds))

end Move

/-- The parts of the invariant about the list, after one item changes in place. -/
theorem Inv.change {s : Pipe ι} (inv : Inv outcome s) {front rest : List QueueItem}
    {item : QueueItem} (item' : QueueItem) (split : s.queue.items = front ++ item :: rest)
    (num : item'.itemnum = item.itemnum)
    (block : item.data.isBlock = true ∧ item'.data.isBlock = true)
    (aligned : ∀ input, Aligned outcome input item → Aligned outcome input item') :
    ({ s.queue with items := front ++ item' :: rest } : Queue).Wf s.taken.length ∧
    s.taken.length + (front ++ item' :: rest).length = s.pushed.length ∧
    List.Forall₂ (Aligned outcome) (s.pushed.drop s.taken.length) (front ++ item' :: rest) := by
  refine ⟨?_, ?_, ?_⟩
  · exact inv.wf.change split num (by rw [block.1, block.2]) (by simp [block.2])
  · have count := inv.count
    rw [split] at count
    simpa using count
  · have whole := inv.aligned
    rw [split] at whole
    have before := List.forall₂_take_append _ _ _ whole
    have after := List.forall₂_drop_append _ _ _ whole
    obtain ⟨input, inputs, first, others, same⟩ := List.forall₂_cons_right_iff.mp after
    have changed := List.rel_append before
      (same ▸ List.Forall₂.cons (aligned input first) others)
    simpa only [List.take_append_drop] using changed

/-- The queue is open to an input that is offered. -/
theorem Inv.open_of_offer {s : Pipe ι} (inv : Inv outcome s) {act : Act ι} {input : Input}
    (offer : s.Offers act input) : s.queue.endofqueue = false := by
  rcases offer with ⟨_, _, opened⟩ | ⟨_, waiting⟩
  · exact opened
  · exact inv.opened (by simp [waiting])

/-- A thread about to give a block back finds its item. -/
theorem Inv.replace_found {s : Pipe ι} (inv : Inv outcome s) {w : ι} {num : Nat} {blk' : BlockInfo}
    (before : s.workers w = .replacing num blk') :
    ∃ front rest blk, s.queue.items = front ++ ⟨num, .progress, .block blk⟩ :: rest ∧
      outcome blk (some blk') ∧
      queueReplaceBlock s.queue num blk' .done =
        ({ s.queue with items := front ++ ⟨num, .done, .block blk'⟩ :: rest }, .ok ()) := by
  have owned := inv.owns w
  rw [before] at owned
  obtain ⟨blk, member, success⟩ := owned
  cases found : replaceItem num blk' .done s.queue.items with
  | none => exact absurd rfl (replaceItem_eq_none found _ member)
  | some items' =>
    obtain ⟨front, item, rest, split, same, rfl⟩ := replaceItem_eq_some found
    have isItem : item = ⟨num, .progress, .block blk⟩ :=
      inv.wf.unique (by simp [split]) member same
    subst isItem
    exact ⟨front, rest, blk, split, success, by simp only [queueReplaceBlock, found]⟩

/-- Removing a first item that is not in progress keeps the invariant. -/
theorem Inv.unlink {s : Pipe ι} (inv : Inv outcome s) {head : QueueItem} {rest : List QueueItem}
    (split : s.queue.items = head :: rest) (entry : Option QueueData)
    (idle : head.status ≠ .progress) :
    Inv outcome
      { s with queue := s.queue.unlinkHead head rest, taken := s.taken ++ [entry] } := by
  refine ⟨?_, ?_, ?_, inv.opened, fun w => ?_, inv.alone⟩
  · simpa using inv.wf.unlinkHead split
  · have count := inv.count
    rw [split] at count
    simp only [Queue.unlinkHead, List.length_append, List.length_cons, List.length_nil] at count ⊢
    omega
  · have aligned := List.forall₂_drop 1 inv.aligned
    rw [split, List.drop_drop] at aligned
    simpa [Queue.unlinkHead] using aligned
  · refine (inv.owns w).of_kept fun item member inProgress _ => ?_
    rw [split] at member
    rcases List.mem_cons.mp member with rfl | member
    · exact absurd inProgress idle
    · exact member

/-- Every step keeps the invariant. -/
theorem Inv.effect [DecidableEq ι] {s t : Pipe ι} {act : Act ι} (inv : Inv outcome s)
    (h : Effect outcome s act t) : Inv outcome t := by
  cases h with
  | wait input offer =>
    exact ⟨inv.wf, inv.count, inv.aligned, fun _ => inv.open_of_offer offer, inv.owns, inv.alone⟩
  | refuse input idle closed =>
    exact ⟨inv.wf, inv.count, inv.aligned, by simp, inv.owns, inv.alone⟩
  | link input offer =>
    refine ⟨?_, ?_, ?_, by simp, fun w => ?_, inv.alone⟩
    · exact inv.wf.link (by cases input <;> simp [Input.data, Input.status, QueueData.isBlock])
    · have count := inv.count
      simp only [Queue.link, List.length_append, List.length_cons, List.length_nil]
      omega
    · have inside : s.taken.length ≤ s.pushed.length := by
        have count := inv.count
        omega
      rw [List.drop_append_of_le_length inside]
      exact List.rel_append inv.aligned (.cons (input.aligned outcome _) .nil)
    · exact (inv.owns w).of_kept fun item member _ _ => List.mem_append_left _ member
  | close idle =>
    exact ⟨inv.wf.setEnd true, inv.count, inv.aligned, by simp [idle], inv.owns, inv.alone⟩
  | move w pc before after gentle =>
    exact inv.move (by cases pc <;> trivial) (.inl after)
  | take w num blk front rest before split =>
    obtain ⟨wf, count, aligned⟩ := inv.change ⟨num, .progress, .block blk⟩ split rfl
      ⟨rfl, rfl⟩ (fun input aligned => by
        rcases aligned with ⟨isDone, _⟩ | ⟨_, unprocessed⟩
        · cases isDone
        · exact .inr ⟨by simp, unprocessed⟩)
    -- the item was not in progress, so every item that was owned is still there
    have kept : ∀ item ∈ s.queue.items, item.status = .progress →
        item ∈ front ++ ⟨num, .progress, .block blk⟩ :: rest := by
      intro item member inProgress
      rw [split] at member
      rcases List.mem_append.mp member with member | member
      · exact List.mem_append_left _ member
      · rcases List.mem_cons.mp member with rfl | member
        · cases inProgress
        · exact List.mem_append_right _ (List.mem_cons_of_mem _ member)
    refine ⟨wf, count, aligned, inv.opened, fun w' => ?_, inv.alone_move ?_⟩
    · by_cases same : w' = w
      · rw [same, move_same]
        exact List.mem_append_right _ List.mem_cons_self
      · rw [move_other same]
        exact (inv.owns w').of_kept fun item member inProgress _ => kept item member inProgress
    · -- a thread holding this number would own an item in progress of the same number
      intro num' holds w' _ held
      simp only [WorkerPc.held, Option.some.injEq] at holds
      subst holds
      have todo : (⟨num, .todo, .block blk⟩ : QueueItem) ∈ s.queue.items := by simp [split]
      have owned := inv.owns w'
      cases place : s.workers w' with
      | processing num' blk' =>
        rw [place] at owned held
        cases held
        have same := inv.wf.unique owned todo rfl
        cases same
      | replacing num' blk' =>
        rw [place] at owned held
        cases held
        obtain ⟨blk'', owned, _⟩ := owned
        have same := inv.wf.unique owned todo rfl
        cases same
      | top | getting | exited =>
        rw [place] at held
        cases held
  | process w num blk blk' before success =>
    have owned := inv.owns w
    rw [before] at owned
    exact inv.move ⟨blk, owned, success⟩ (.inr (by rw [before]; rfl))
  | fail w num blk before => exact inv.move trivial (.inl rfl)
  | replace w num blk' before =>
    obtain ⟨front, rest, blk, split, success, replaced⟩ := inv.replace_found before
    obtain ⟨wf, count, aligned⟩ := inv.change ⟨num, .done, .block blk'⟩ split rfl
      ⟨rfl, rfl⟩ (fun input aligned => by
        rcases aligned with ⟨isDone, _⟩ | ⟨_, blk'', rfl, same⟩
        · cases isDone
        · cases same
          exact .inl ⟨rfl, .todo success⟩)
    rw [replaced]
    refine ⟨wf, count, aligned, inv.opened, fun w' => ?_, inv.alone_move ?_⟩
    · by_cases same : w' = w
      · rw [same, move_same]
        trivial
      · rw [move_other same]
        refine (inv.owns w').of_kept fun item member inProgress held => ?_
        rw [split] at member
        rcases List.mem_append.mp member with member | member
        · exact List.mem_append_left _ member
        · rcases List.mem_cons.mp member with rfl | member
          · exact absurd (inv.alone w' w num held (by rw [before]; rfl)) same
          · exact List.mem_append_right _ (List.mem_cons_of_mem _ member)
    · intro num' holds
      cases holds
  | look call sawEnd told =>
    exact ⟨inv.wf, inv.count, inv.aligned, inv.opened, inv.owns, inv.alone⟩
  | receive call head rest split isReady =>
    exact inv.unlink split (some head.data) (by simp [isReady])
  | drop head rest split idle => exact inv.unlink split none idle

/-- Every step keeps the invariant. -/
theorem Inv.step [DecidableEq ι] {s t : Pipe ι} {act : Act ι} (inv : Inv outcome s)
    (h : Step outcome s act t) : Inv outcome t :=
  inv.effect h.effect

/-- The invariant holds in every state of every run. -/
theorem inv_of_trace [DecidableEq ι] {blkmax : Nat} {trace : List (Act ι × Pipe ι)}
    (run : Trace (Step outcome) (Pipe.init ι blkmax) trace) :
    ∀ s ∈ Trace.states (Pipe.init ι blkmax) trace, Inv outcome s :=
  Trace.invariant_of_step (fun _ _ _ inv h => inv.step h) run (.init blkmax)

/-! ## The queue with its threads is a relay -/

/-- The two ends of the queue. -/
def relay (s : Pipe ι) : Relay Input (Option QueueData) :=
  { sent := s.pushed, got := s.taken, closed := s.queue.endofqueue, ended := s.sawEnd }

/-- Each step is a step of the relay or invisible to it. `delivers` says what may arrive for an
input; a consumer that drops items must allow nothing to arrive. -/
theorem Inv.simulated [DecidableEq ι] {s t : Pipe ι} {act : Act ι} (inv : Inv outcome s)
    (h : Step outcome s act t) (delivers : Input → Option QueueData → Prop)
    (received : ∀ input data, Yields outcome input data → delivers input (some data))
    (dropped : act = .consume .destroyFirstItem → ∀ input, delivers input none) :
    t.relay = s.relay ∨ ∃ act', Relay.Step delivers s.relay act' t.relay := by
  -- the first item of the queue is the first input not yet taken
  have first {head : QueueItem} {rest : List QueueItem} (split : s.queue.items = head :: rest) :
      ∃ input, s.relay.sent[s.relay.got.length]? = some input ∧ Aligned outcome input head := by
    have aligned := inv.aligned
    rw [split] at aligned
    obtain ⟨input, inputs, aligned, _, same⟩ := List.forall₂_cons_right_iff.mp aligned
    have found := congrArg (·[0]?) same
    simp only [List.getElem?_drop, Nat.add_zero, List.getElem?_cons_zero] at found
    exact ⟨input, found, aligned⟩
  cases h.effect with
  | wait | refuse | move | take | process | fail => exact .inl rfl
  | replace w num blk before =>
    obtain ⟨front, rest, blk', split, success, replaced⟩ := inv.replace_found before
    rw [replaced]
    exact .inl rfl
  | link input offer =>
    exact .inr ⟨.send input, .send s.relay input (inv.open_of_offer offer)⟩
  | close idle => exact .inr ⟨.close, .close s.relay⟩
  | look call sawEnd told =>
    rcases told with rfl | ⟨rfl, ended⟩
    · exact .inl rfl
    · have empty := inv.wf.items_of_end ended
      have count := inv.count
      simp only [empty, List.length_nil, Nat.add_zero] at count
      have closed := (Bool.and_eq_true_iff.mp ended).2
      exact .inr ⟨.eof, .eof s.relay closed count⟩
  | receive call head rest split isReady =>
    obtain ⟨input, next, ⟨_, yields⟩ | ⟨notDone, _⟩⟩ := first split
    · exact .inr ⟨.recv (some head.data), .recv s.relay input _ next (received input _ yields)⟩
    · exact absurd isReady notDone
  | drop head rest split idle =>
    obtain ⟨input, next, _⟩ := first split
    exact .inr ⟨.recv none, .recv s.relay input _ next (dropped rfl input)⟩

end Pipe

end FsArchiver
