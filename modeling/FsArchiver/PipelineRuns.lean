import Mathlib.Data.List.ReduceOption
import FsArchiver.PipelineInv

/-!
# Runs of the pipeline

Two facts about whole runs of one producer, any number of threads in `compression_function`
and one consumer. The consumer receives the pushed sequence, in order and processed, whatever
the number of threads and the order of their steps. And a block is stranded in progress
exactly when a thread has failed to process one: `thread_comp_fct_error` leaves the function
with the item still in progress.
-/
namespace FsArchiver

open Lib

/-! ## The consumer receives the pushed sequence -/

/-- A pipeline whose producer works through a list of inputs. -/
structure Script (ι : Type) where
  /-- The queue and its threads. -/
  pipe : Pipe ι
  /-- What the producer still has to push. -/
  rest : List Input

namespace Script

variable {ι : Type} {f : BlockInfo → BlockInfo} {items : List Input}

/-- Blocks are processed by a function that does not fail. -/
def succeeds (f : BlockInfo → BlockInfo) : Outcome := fun blk result => result = some (f blk)

/-- The producer pushes its list and then closes the queue; the consumer only receives. -/
inductive Step [DecidableEq ι] (f : BlockInfo → BlockInfo) : Script ι → Act ι → Script ι → Prop
  | add {s t : Pipe ι} (input : Input) (rest : List Input)
      (h : Pipe.Step (succeeds f) s (.add input) t) :
      Step f ⟨s, input :: rest⟩ (.add input) ⟨t, rest⟩
  | resume {s t : Pipe ι} (rest : List Input) (h : Pipe.Step (succeeds f) s .resume t) :
      Step f ⟨s, rest⟩ .resume ⟨t, rest⟩
  | setEnd {s t : Pipe ι} (h : Pipe.Step (succeeds f) s .setEnd t) :
      Step f ⟨s, []⟩ .setEnd ⟨t, []⟩
  | worker {s t : Pipe ι} (rest : List Input) (w : ι) (act : WorkerAct)
      (h : Pipe.Step (succeeds f) s (.worker w act) t) :
      Step f ⟨s, rest⟩ (.worker w act) ⟨t, rest⟩
  | consume {s t : Pipe ι} (rest : List Input) (call : ConsumerCall)
      (receives : call ≠ .destroyFirstItem) (h : Pipe.Step (succeeds f) s (.consume call) t) :
      Step f ⟨s, rest⟩ (.consume call) ⟨t, rest⟩

/-- A new queue and the whole list to push. -/
def init (ι : Type) (blkmax : Nat) (items : List Input) : Script ι := ⟨Pipe.init ι blkmax, items⟩

/-- The items the consumer has received. -/
def received (s : Script ι) : List QueueData := s.pipe.taken.reduceOption

/-- What holds in every state of a run that pushes these items. -/
structure Inv (f : BlockInfo → BlockInfo) (items : List Input) (s : Script ι) : Prop where
  /-- The invariant of the pipeline. -/
  pipe : s.pipe.Inv (succeeds f)
  /-- The pipeline, seen as a relay. -/
  order : s.pipe.relay.InOrder fun input data => data = some (input.finish f)
  /-- Every item is in one place. -/
  split : s.pipe.pushed ++ s.pipe.adding.toList ++ s.rest = items
  /-- The queue is closed after the last item. -/
  closed : s.pipe.queue.endofqueue = true → s.rest = []

/-- The invariant holds at the start. -/
theorem Inv.init (blkmax : Nat) : Inv f items (Script.init ι blkmax items) where
  pipe := .init blkmax
  order := .init
  split := rfl
  closed := by simp [Script.init, Pipe.init, queueInit]

/-- A block that was processed is the block function's value, once. -/
theorem finish_of_yields {input : Input} {data : QueueData} (h : Yields (succeeds f) input data) :
    data = input.finish f := by
  cases h with
  | header headinfo => rfl
  | todo success => rw [Option.some.inj success]; rfl
  | ready blk => rfl

/-- What the consumer has received is the beginning of the list, processed. -/
theorem Inv.received_eq {s : Script ι} (inv : Inv f items s) :
    s.received = (s.pipe.pushed.take s.pipe.taken.length).map (Input.finish f) := by
  have reduced (inputs : List Input) :
      (inputs.map fun input => some (input.finish f)).reduceOption = inputs.map (Input.finish f) := by
    induction inputs with
    | nil => rfl
    | cons input inputs ih =>
      rw [List.map_cons, List.reduceOption_cons_of_some, ih, List.map_cons]
  exact (congrArg List.reduceOption inv.order.got_eq).trans (reduced _)

variable [DecidableEq ι] {s t : Script ι} {act : Act ι}

/-- The pipeline part of a step keeps the order of the relay. -/
theorem Inv.order_step {s : Script ι} (inv : Inv f items s) {t : Pipe ι}
    (h : Pipe.Step (succeeds f) s.pipe act t) (receives : act ≠ .consume .destroyFirstItem) :
    t.relay.InOrder fun input data => data = some (input.finish f) := by
  rcases inv.pipe.simulated h (fun input data => data = some (input.finish f))
    (fun input data yields => congrArg some (finish_of_yields yields))
    (fun drops => absurd drops receives) with same | ⟨act', taken⟩
  · exact same ▸ inv.order
  · exact inv.order.step taken

/-- A step of a worker or the consumer leaves the producer's side alone. -/
theorem producer_unchanged {s t : Pipe ι} {outcome : Outcome}
    (h : Pipe.Step outcome s act t) (inv : s.Inv outcome)
    (other : (∃ w act', act = .worker w act') ∨ ∃ call, act = .consume call) :
    t.pushed = s.pushed ∧ t.adding = s.adding ∧ t.queue.endofqueue = s.queue.endofqueue := by
  have noOffer (input : Input) : ¬s.Offers act input := by
    rintro (⟨rfl, _⟩ | ⟨rfl, _⟩) <;> rcases other with ⟨_, _, same⟩ | ⟨_, same⟩ <;> cases same
  cases h.effect with
  | wait input offer | link input offer => exact absurd offer (noOffer input)
  | refuse | close => rcases other with ⟨_, _, same⟩ | ⟨_, same⟩ <;> cases same
  | move | take | process | fail | look | receive | drop => exact ⟨rfl, rfl, rfl⟩
  | replace w num blk before =>
    obtain ⟨front, rest, blk', split, success, replaced⟩ := inv.replace_found before
    rw [replaced]
    exact ⟨rfl, rfl, rfl⟩

/-- A producer that offers an input ends with the input added or waiting. -/
theorem producer_offers {s t : Pipe ι} {outcome : Outcome} (h : Pipe.Step outcome s act t)
    {input : Input} (offer : s.Offers act input) :
    t.pushed ++ t.adding.toList = s.pushed ++ [input] ∧
      t.queue.endofqueue = s.queue.endofqueue := by
  have same {input' : Input} (offer' : s.Offers act input') : input' = input := by
    rcases offer with ⟨rfl, idle, _⟩ | ⟨rfl, waiting⟩
    · rcases offer' with ⟨same, _⟩ | ⟨other, _⟩
      · cases same
        rfl
      · cases other
    · rcases offer' with ⟨other, _⟩ | ⟨_, waiting'⟩
      · cases other
      · exact Option.some.inj (waiting'.symm.trans waiting)
  cases h.effect with
  | wait input' offer' => rw [same offer']; exact ⟨rfl, rfl⟩
  | link input' offer' => rw [same offer']; exact ⟨by simp, rfl⟩
  | refuse input' idle closed =>
    rcases offer with ⟨_, _, opened⟩ | ⟨other, _⟩
    · rw [closed] at opened
      cases opened
    · cases other
  | close | move | take | process | fail | replace | look | receive | drop =>
    rcases offer with ⟨other, _⟩ | ⟨other, _⟩ <;> cases other

/-- Every step keeps the invariant. -/
theorem Inv.step (inv : Inv f items s) (h : Step f s act t) : Inv f items t := by
  cases h with
  | @add s t input rest h =>
    have opened : s.queue.endofqueue = false := by
      cases closed : s.queue.endofqueue with
      | false => rfl
      | true => cases inv.closed closed
    have idle : s.adding = none := by
      have h := h.1
      simp only [Pipe.next] at h
      split at h
      next isNone => exact Option.isNone_iff_eq_none.mp isNone
      next => cases h
    obtain ⟨pushed, same⟩ := producer_offers h (.inl ⟨rfl, idle, opened⟩)
    refine ⟨inv.pipe.step h, inv.order_step h (by simp), ?_, ?_⟩
    · have split := inv.split
      simp only [idle, Option.toList_none, List.append_nil] at split
      rw [pushed, List.append_assoc]
      exact split
    · intro closed
      rw [same, opened] at closed
      cases closed
  | @resume s t rest h =>
    cases waiting : s.adding with
    | none =>
      have h := h.1
      simp [Pipe.next, waiting] at h
    | some input =>
      obtain ⟨pushed, same⟩ := producer_offers h (.inr ⟨rfl, waiting⟩)
      refine ⟨inv.pipe.step h, inv.order_step h (by simp), ?_, ?_⟩
      · have split := inv.split
        simp only [waiting, Option.toList_some] at split
        rw [pushed]
        exact split
      · rw [same]
        exact inv.closed
  | @setEnd s t h =>
    have after := h.1
    simp only [Pipe.next] at after
    split at after
    next =>
      simp only [Option.some.injEq] at after
      refine ⟨inv.pipe.step h, inv.order_step h (by simp), ?_, fun _ => rfl⟩
      rw [← after]
      exact inv.split
    next => cases after
  | worker rest w act h =>
    obtain ⟨pushed, adding, closed⟩ := producer_unchanged h inv.pipe (.inl ⟨w, act, rfl⟩)
    refine ⟨inv.pipe.step h, inv.order_step h (by simp), ?_, ?_⟩
    · rw [pushed, adding]
      exact inv.split
    · rw [closed]
      exact inv.closed
  | consume rest call receives h =>
    obtain ⟨pushed, adding, closed⟩ := producer_unchanged h inv.pipe (.inr ⟨call, rfl⟩)
    refine ⟨inv.pipe.step h, inv.order_step h (by simp [receives]), ?_, ?_⟩
    · rw [pushed, adding]
      exact inv.split
    · rw [closed]
      exact inv.closed

/-- The queue preserves the order of what passes it and applies the block function once to
each block pushed as to do. In every state of every run the received items are a beginning of
the processed list, and a consumer told of the end of the queue has received all of it. -/
theorem received_in_order (f : BlockInfo → BlockInfo) (blkmax : Nat)
    (items : List Input) (trace : List (Act ι × Script ι))
    (run : Trace (Step f) (init ι blkmax items) trace) :
    ∀ s ∈ Trace.states (init ι blkmax items) trace,
      s.received <+: items.map (Input.finish f) ∧
        (s.pipe.sawEnd = true → s.received = items.map (Input.finish f)) := by
  intro s member
  have inv : Inv f items s :=
    Trace.invariant_of_step (fun _ _ _ inv h => inv.step h) run (.init blkmax) s member
  have beginning : s.pipe.pushed <+: items := by
    rw [← inv.split, List.append_assoc]
    exact List.prefix_append _ _
  rw [inv.received_eq]
  refine ⟨((List.take_prefix _ _).trans beginning).map _, fun told => ?_⟩
  obtain ⟨closed, all⟩ := inv.order.ended told
  have rest := inv.closed closed
  have idle : s.pipe.adding = none := by
    cases waiting : s.pipe.adding with
    | none => rfl
    | some input =>
      have opened := inv.pipe.opened (by simp [waiting])
      simp only [Pipe.relay] at closed
      rw [closed] at opened
      cases opened
  have split := inv.split
  simp only [rest, idle, Option.toList_none, List.append_nil] at split
  simp only [Pipe.relay] at all
  rw [split] at all
  rw [split, all, List.take_length]

/-- A step in which no block is processed. -/
theorem calm_step {s t : Pipe ι} (taken : s.next act = some t)
    (other : ∀ w result, act ≠ .worker w (.process result)) : Pipe.Step (succeeds f) s act t :=
  ⟨taken, fun w result _ _ same => absurd same (other w result)⟩

/-- A thread processes its block. -/
theorem process_step {s t : Pipe ι} {w : ι} {num : Nat} {blk : BlockInfo}
    (place : s.workers w = .processing num blk)
    (taken : s.next (.worker w (.process (some (f blk)))) = some t) :
    Pipe.Step (succeeds f) s (.worker w (.process (some (f blk)))) t := by
  refine ⟨taken, ?_⟩
  intro w' result num' blk' same place'
  obtain ⟨rfl, same⟩ := Act.worker.inj same
  cases same
  rw [place] at place'
  cases place'
  rfl

/-- Two blocks and two threads of which the second one finishes first, up to the end of the
queue. -/
theorem received_in_order_two_blocks : ∃ trace : List (Act (Fin 2) × Script (Fin 2)),
    Trace (Step marked) (init (Fin 2) 32 [.todo (byteBlock 1), .todo (byteBlock 2)]) trace ∧
      Trace.labels trace = [.add (.todo (byteBlock 1)), .add (.todo (byteBlock 2)), .setEnd,
        .worker 0 .test, .worker 0 .get, .worker 1 .test, .worker 1 .get,
        .worker 1 (.process (some (marked (byteBlock 2)))), .worker 1 .replace,
        .worker 0 (.process (some (marked (byteBlock 1)))), .worker 0 .replace,
        .consume .dequeueFirst, .consume .dequeueFirst, .consume .dequeueFirst] ∧
      (Trace.last (init (Fin 2) 32 [.todo (byteBlock 1), .todo (byteBlock 2)]) trace).received =
        [.block (marked (byteBlock 1)), .block (marked (byteBlock 2))] := by
  have run : Trace (Step marked)
      (init (Fin 2) 32 [.todo (byteBlock 1), .todo (byteBlock 2)]) _ :=
    .cons (.add _ _ (calm_step rfl (by simp))) <|
    .cons (.add _ _ (calm_step rfl (by simp))) <|
    .cons (.setEnd (calm_step rfl (by simp))) <|
    .cons (.worker _ 0 .test (calm_step rfl (by simp))) <|
    .cons (.worker _ 0 .get (calm_step rfl (by simp))) <|
    .cons (.worker _ 1 .test (calm_step rfl (by simp))) <|
    .cons (.worker _ 1 .get (calm_step rfl (by simp))) <|
    .cons (.worker _ 1 _ (process_step rfl rfl)) <|
    .cons (.worker _ 1 .replace (calm_step rfl (by simp))) <|
    .cons (.worker _ 0 _ (process_step rfl rfl)) <|
    .cons (.worker _ 0 .replace (calm_step rfl (by simp))) <|
    .cons (.consume _ .dequeueFirst (by simp) (calm_step rfl (by simp))) <|
    .cons (.consume _ .dequeueFirst (by simp) (calm_step rfl (by simp))) <|
    .cons (.consume _ .dequeueFirst (by simp) (calm_step rfl (by simp))) <|
    .nil _
  have result := received_in_order marked 32 _ _ run _ (Trace.last_mem _ _)
  exact ⟨_, run, rfl, result.2 rfl⟩

end Script

/-! ## No block is stranded unless processing fails -/

namespace Pipe

variable {ι : Type} {outcome : Outcome} {s t : Pipe ι} {act : Act ι}

/-- Each item in progress is held by exactly one thread that has yet to give it back. -/
def NoneStranded (s : Pipe ι) : Prop :=
  ∀ item ∈ s.queue.items, item.status = .progress →
    ∃! w, (s.workers w).held = some item.itemnum

/-- Holders survive a step that keeps the items in progress among those of before and takes
no block from any thread. -/
theorem NoneStranded.of_held (inv : Inv outcome t) (calm : s.NoneStranded)
    (items : ∀ item ∈ t.queue.items, item.status = .progress →
      (∃ w, (t.workers w).held = some item.itemnum) ∨
      (item ∈ s.queue.items ∧ ∀ w, (s.workers w).held = some item.itemnum →
        (t.workers w).held = some item.itemnum)) : t.NoneStranded := by
  intro item member inProgress
  have holder : ∃ w, (t.workers w).held = some item.itemnum := by
    rcases items item member inProgress with found | ⟨before, kept⟩
    · exact found
    · obtain ⟨w, held, _⟩ := calm item before inProgress
      exact ⟨w, kept w held⟩
  obtain ⟨w, held⟩ := holder
  exact ⟨w, held, fun w' held' => inv.alone w' w item.itemnum held' held⟩

variable [DecidableEq ι]

/-- A thread that moves keeps the block it held, or held none; others keep theirs. -/
theorem held_move {w : ι} {pc : WorkerPc} (kept : pc.held = (s.workers w).held) :
    ∀ w', ((s.move w pc).workers w').held = (s.workers w').held := by
  intro w'
  by_cases same : w' = w
  · rw [same, move_same, kept]
  · rw [move_other same]

/-- A step that is not a failure of the block function strands no block. -/
theorem NoneStranded.step (inv : Inv outcome s) (calm : s.NoneStranded)
    (h : Step outcome s act t) (gentle : act.fails = false) : t.NoneStranded := by
  have reached : Inv outcome t := inv.step h
  cases h.effect with
  | wait | refuse | close | look => exact calm
  | link input offer =>
    refine calm.of_held reached fun item member inProgress => ?_
    rcases List.mem_append.mp member with member | member
    · exact .inr ⟨member, fun _ held => held⟩
    · -- a new item is to do or ready
      cases List.mem_singleton.mp member
      cases input <;> cases inProgress
  | move w pc before after =>
    have kept := held_move (s := s) (after.trans before.symm)
    exact calm.of_held reached fun item member _ => .inr ⟨member, fun w' held => by rwa [kept w']⟩
  | take w num blk front rest before split =>
    refine calm.of_held reached fun item member _ => ?_
    have place : item = ⟨num, .progress, .block blk⟩ ∨ item ∈ front ∨ item ∈ rest := by
      simpa [or_left_comm] using member
    rcases place with rfl | other
    · exact .inl ⟨w, by rw [move_same]; rfl⟩
    · refine .inr ⟨by rw [split]; rcases other with h | h <;> simp [h], fun w' held => ?_⟩
      have apart : w' ≠ w := by
        rintro rfl
        rw [before] at held
        cases held
      rw [move_other apart]
      exact held
  | process w num blk blk' before success =>
    have same : (WorkerPc.replacing num blk').held = (s.workers w).held := by rw [before]; rfl
    have kept := held_move same
    exact calm.of_held reached fun item member _ => .inr ⟨member, fun w' held => by rwa [kept w']⟩
  | fail w num blk before => cases gentle
  | replace w num blk' before =>
    obtain ⟨front, rest, blk, split, _, replaced⟩ := inv.replace_found before
    refine calm.of_held reached fun item member inProgress => .inr ?_
    have returned : (⟨num, .done, .block blk'⟩ : QueueItem) ∈
        (queueReplaceBlock s.queue num blk' .done).1.items := by
      rw [replaced]
      simp
    have apart : item.itemnum ≠ num := by
      intro same
      rw [reached.wf.unique member returned same] at inProgress
      cases inProgress
    have place : item = ⟨num, .done, .block blk'⟩ ∨ item ∈ front ∨ item ∈ rest := by
      rw [move_queue, replaced] at member
      simpa [or_left_comm] using member
    refine ⟨?_, fun w' held => ?_⟩
    · rcases place with rfl | other
      · cases inProgress
      · rw [split]
        rcases other with h | h <;> simp [h]
    · have other : w' ≠ w := by
        rintro rfl
        rw [before] at held
        exact apart (Option.some.inj held).symm
      rw [move_other other]
      exact held
  | receive call head rest split isReady =>
    exact calm.of_held reached fun item member _ =>
      .inr ⟨by rw [split]; exact List.mem_cons_of_mem head member, fun _ held => held⟩
  | drop head rest split idle =>
    exact calm.of_held reached fun item member _ =>
      .inr ⟨by rw [split]; exact List.mem_cons_of_mem head member, fun _ held => held⟩

/-- A failure of the block function strands the block. -/
theorem not_noneStranded_of_fails (inv : Inv outcome s) (h : Step outcome s act t)
    (fails : act.fails = true) : ¬t.NoneStranded := by
  cases h.effect with
  | fail w num blk before =>
    intro calm
    have owned := inv.owns w
    rw [before] at owned
    obtain ⟨w', held, _⟩ := calm _ owned rfl
    by_cases same : w' = w
    · rw [same, move_same] at held
      cases held
    · rw [move_other same] at held
      exact same (inv.alone w' w num held (by rw [before]; rfl))
  | wait input offer | link input offer =>
    rcases offer with ⟨rfl, _⟩ | ⟨rfl, _⟩ <;> cases fails
  | move w pc before after gentle =>
    rw [gentle] at fails
    cases fails
  | refuse | close | take | process | replace | look | receive | drop => cases fails

/-- No block is stranded in any state of a run exactly when no thread fails to process a block
in it. -/
theorem noneStranded_iff (outcome : Outcome) (blkmax : Nat) (trace : List (Act ι × Pipe ι))
    (run : Trace (Step outcome) (Pipe.init ι blkmax) trace) :
    (∀ s ∈ Trace.states (Pipe.init ι blkmax) trace, s.NoneStranded) ↔
      ∀ act ∈ Trace.labels trace, act.fails = false := by
  have inv := inv_of_trace run
  constructor
  · intro calm act member
    obtain ⟨⟨act, t⟩, entry, rfl⟩ := List.mem_map.mp member
    obtain ⟨before, rest, rfl⟩ := List.append_of_mem entry
    obtain ⟨here, there⟩ := Trace.mem_states_of_split (Pipe.init ι blkmax) t act before rest
    cases fails : act.fails with
    | false => rfl
    | true =>
      exact absurd (calm t there)
        (not_noneStranded_of_fails (inv _ here) (Trace.step_of_split run) fails)
  · intro gentle s member
    have both : ∀ s ∈ Trace.states (Pipe.init ι blkmax) trace, Inv outcome s ∧ s.NoneStranded :=
      Trace.invariant_of_labels (fun act => act.fails = false)
      (fun _ _ _ holds gentle h => ⟨holds.1.step h, holds.2.step holds.1 h gentle⟩) run
      ⟨.init blkmax, by simp [NoneStranded, Pipe.init, queueInit]⟩ gentle
    exact (both s member).2

/-- Where every outcome is possible, a step is what `next` computes. -/
theorem step_of_next (act : Act ι) (h : s.next act = some t) : Step (fun _ _ => True) s act t :=
  ⟨h, fun _ _ _ _ _ _ => trivial⟩

/-- One block processed and given back by one thread. -/
theorem noneStranded_one_block : ∃ trace : List (Act Unit × Pipe Unit),
    Trace (Step fun _ _ => True) (init Unit 32) trace ∧ trace.length = 5 ∧
      ∀ s ∈ Trace.states (init Unit 32) trace, s.NoneStranded := by
  have run : Trace (Step fun _ _ => True) (init Unit 32) _ :=
    .cons (step_of_next (.add (.todo .zero)) rfl) <|
    .cons (step_of_next (.worker () .test) rfl) <|
    .cons (step_of_next (.worker () .get) rfl) <|
    .cons (step_of_next (.worker () (.process (some .zero))) rfl) <|
    .cons (step_of_next (.worker () .replace) rfl) <|
    .nil _
  exact ⟨_, run, rfl, (noneStranded_iff _ 32 _ run).mpr (by simp [Trace.labels, Act.fails])⟩

/-- One block that a thread fails to process stays in progress at the head of the queue, and no
thread holds it. -/
theorem head_stranded : ∃ trace : List (Act Unit × Pipe Unit),
    Trace (Step fun _ _ => True) (init Unit 32) trace ∧
      ∃ s ∈ Trace.states (init Unit 32) trace, ¬s.NoneStranded ∧
        s.queue.items = [⟨1, .progress, .block .zero⟩] ∧ s.workers () = .exited := by
  have run : Trace (Step fun _ _ => True) (init Unit 32) _ :=
    .cons (step_of_next (.add (.todo .zero)) rfl) <|
    .cons (step_of_next (.worker () .test) rfl) <|
    .cons (step_of_next (.worker () .get) rfl) <|
    .cons (step_of_next (.worker () (.process none)) rfl) <|
    .nil _
  refine ⟨_, run, _, Trace.last_mem _ _, fun calm => ?_, rfl, rfl⟩
  obtain ⟨_, held, _⟩ := calm ⟨1, .progress, .block .zero⟩ List.mem_cons_self rfl
  cases held

end Pipe

end FsArchiver
