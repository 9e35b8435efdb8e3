import Mathlib.Data.List.Forall2
import FsArchiver.Lib.Transition

/-!
# A relay

The purpose of a queue with workers in its middle: what was sent comes out in the order in
which it was sent, each item transformed as a relation allows, and a reader that is told of
the end has everything. The relay knows nothing of workers, locks or item numbers; a system
that simulates it inherits these facts.
-/
namespace FsArchiver.Lib

variable {α β : Type*}

/-- What one side has sent, what the other side has got, and the two flags. -/
structure Relay (α β : Type*) where
  /-- Everything sent so far. -/
  sent : List α
  /-- Everything received so far. -/
  got : List β
  /-- Nothing more will be sent. -/
  closed : Bool
  /-- The receiving side was told of the end. -/
  ended : Bool

namespace Relay

/-- Actions of the two sides. -/
inductive Act (α β : Type*) where
  | send (a : α) | close | recv (b : β) | eof

/-- The next unreceived item comes out transformed; the end is told after the last one. -/
inductive Step (R : α → β → Prop) : Relay α β → Act α β → Relay α β → Prop
  | send (r : Relay α β) (a : α) (opened : r.closed = false) :
      Step R r (.send a) { r with sent := r.sent ++ [a] }
  | close (r : Relay α β) : Step R r .close { r with closed := true }
  | recv (r : Relay α β) (a : α) (b : β) (next : r.sent[r.got.length]? = some a) (related : R a b) :
      Step R r (.recv b) { r with got := r.got ++ [b] }
  | eof (r : Relay α β) (closed : r.closed = true) (all : r.got.length = r.sent.length) :
      Step R r .eof { r with ended := true }

/-- A relay on which nothing has happened. -/
def init : Relay α β := { sent := [], got := [], closed := false, ended := false }

/-- What was received is the transformed beginning of what was sent. -/
structure InOrder (R : α → β → Prop) (r : Relay α β) : Prop where
  /-- No item is received before it is sent. -/
  le : r.got.length ≤ r.sent.length
  /-- Each received item is the item sent at its place, transformed. -/
  related : List.Forall₂ R (r.sent.take r.got.length) r.got
  /-- The end is told after everything was received. -/
  ended : r.ended = true → r.closed = true ∧ r.got.length = r.sent.length

variable {R : α → β → Prop} {r r' : Relay α β}

/-- A new relay is in order. -/
theorem InOrder.init : InOrder R (Relay.init : Relay α β) :=
  ⟨Nat.le_refl _, .nil, by simp [Relay.init]⟩

/-- Every step keeps the order. -/
theorem InOrder.step {act : Act α β} (order : InOrder R r) (taken : Step R r act r') :
    InOrder R r' := by
  obtain ⟨le, related, ended⟩ := order
  cases taken with
  | send a opened =>
    refine ⟨?_, ?_, ?_⟩
    · simp only [List.length_append]
      omega
    · rw [List.take_append_of_le_length le]
      exact related
    · intro told
      rw [(ended told).1] at opened
      cases opened
  | close => exact ⟨le, related, fun told => ⟨rfl, (ended told).2⟩⟩
  | recv a b next connected =>
    have inside : r.got.length < r.sent.length := (List.getElem?_eq_some_iff.mp next).1
    refine ⟨?_, ?_, ?_⟩
    · simp only [List.length_append, List.length_cons, List.length_nil]
      omega
    · simp only [List.length_append, List.length_cons, List.length_nil, Nat.zero_add,
        List.take_add_one, next, Option.toList_some]
      exact List.rel_append related (.cons connected .nil)
    · intro told
      have all := (ended told).2
      omega
  | eof closed all => exact ⟨le, related, fun _ => ⟨closed, all⟩⟩

/-- A transformation that is a function leaves one possible output at each place. -/
theorem InOrder.got_eq {f : α → β} (order : InOrder (fun a b => b = f a) r) :
    r.got = (r.sent.take r.got.length).map f := by
  have same : r.got.map id = (r.sent.take r.got.length).map f := by
    rw [eq_comm, ← List.forall₂_eq_eq_eq, List.forall₂_map_left_iff, List.forall₂_map_right_iff]
    exact order.related.imp fun _ _ h => h.symm
  simpa using same

end Relay

end FsArchiver.Lib
