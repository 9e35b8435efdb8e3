import Mathlib.Algebra.GroupWithZero.Nat
import Mathlib.Data.List.Basic

/-!
# Labelled transition systems

A system is a relation `step state label state'`. A trace lists the labels and states of
one run; every fact about a run here is about its trace, so that a statement can speak of
all the states reached and of all the labels taken. The two rules of this module are the
only inductions over runs that a development needs: an invariant preserved by the allowed
steps holds in every state reached by them, and a simulation carries a run of one system to
a run of another.
-/
namespace FsArchiver.Lib

variable {σ τ ℓ κ : Type*}

/-- One run from a state: each entry is the label of a step and the state it reached. -/
inductive Trace (step : σ → ℓ → σ → Prop) : σ → List (ℓ × σ) → Prop
  | nil (s : σ) : Trace step s []
  | cons {s t : σ} {label : ℓ} {rest : List (ℓ × σ)} (first : step s label t)
      (tail : Trace step t rest) : Trace step s ((label, t) :: rest)

namespace Trace

variable {step : σ → ℓ → σ → Prop}

/-- The states of a run, its start included. -/
def states (start : σ) (trace : List (ℓ × σ)) : List σ := start :: trace.map Prod.snd

/-- The labels of a run. -/
def labels (trace : List (ℓ × σ)) : List ℓ := trace.map Prod.fst

/-- The state a run ends in. -/
def last : σ → List (ℓ × σ) → σ
  | start, [] => start
  | _, (_, next) :: rest => last next rest

@[simp] theorem last_nil (start : σ) : last start ([] : List (ℓ × σ)) = start := rfl

@[simp] theorem last_cons (start next : σ) (label : ℓ) (rest : List (ℓ × σ)) :
    last start ((label, next) :: rest) = last next rest := rfl

/-- A property of states that every allowed step keeps holds in all states of a run whose
steps are allowed. The permission may look at the state before the step. -/
theorem invariant {inv : σ → Prop} (allowed : σ → ℓ → Prop)
    (preserved : ∀ s label t, inv s → allowed s label → step s label t → inv t)
    {start : σ} {trace : List (ℓ × σ)} (run : Trace step start trace) (initial : inv start)
    (steps : ∀ before label after rest, trace = before ++ (label, after) :: rest →
      allowed (last start before) label) :
    ∀ s ∈ states start trace, inv s := by
  induction run with
  | nil s =>
    intro s' member
    simp only [states, List.map_nil, List.mem_singleton] at member
    exact member ▸ initial
  | @cons s t label rest first tail ih =>
    have reached : inv t := preserved s label t initial (steps [] label t rest rfl) first
    have onward := ih reached (fun before label' after rest' split =>
      steps ((label, t) :: before) label' after rest' (by rw [split, List.cons_append]))
    intro s' member
    simp only [states, List.map_cons, List.mem_cons] at member onward
    rcases member with rfl | member
    · exact initial
    · exact onward s' member

/-- The rule for a permission that only looks at labels. -/
theorem invariant_of_labels {inv : σ → Prop} (allowed : ℓ → Prop)
    (preserved : ∀ s label t, inv s → allowed label → step s label t → inv t)
    {start : σ} {trace : List (ℓ × σ)} (run : Trace step start trace) (initial : inv start)
    (steps : ∀ label ∈ labels trace, allowed label) :
    ∀ s ∈ states start trace, inv s :=
  invariant (fun _ label => allowed label) preserved run initial
    (fun before label after rest split => steps label (by
      rw [split]
      simp [labels]))

/-- The rule for an invariant that every step keeps. -/
theorem invariant_of_step {inv : σ → Prop}
    (preserved : ∀ s label t, inv s → step s label t → inv t)
    {start : σ} {trace : List (ℓ × σ)} (run : Trace step start trace) (initial : inv start) :
    ∀ s ∈ states start trace, inv s :=
  invariant_of_labels (fun _ => True)
    (fun s label t holds _ taken => preserved s label t holds taken) run initial
    (fun _ _ => trivial)

/-- The last state of a run is one of its states. -/
theorem last_mem (start : σ) (trace : List (ℓ × σ)) : last start trace ∈ states start trace := by
  induction trace generalizing start with
  | nil => simp [states]
  | cons entry rest ih =>
    have tail := ih entry.2
    simp only [states, List.map_cons, List.mem_cons] at tail ⊢
    exact .inr tail

/-- The rest of a run starts where its first part ends. -/
theorem after_append {start : σ} {before rest : List (ℓ × σ)}
    (run : Trace step start (before ++ rest)) : Trace step (last start before) rest := by
  induction before generalizing start with
  | nil => exact run
  | cons entry before ih =>
    cases run with
    | cons first tail => exact ih tail

/-- A run ends where its rest ends. -/
theorem last_append (start : σ) (before rest : List (ℓ × σ)) :
    last start (before ++ rest) = last (last start before) rest := by
  induction before generalizing start with
  | nil => rfl
  | cons entry before ih => exact ih entry.2

/-- What every step keeps holds at the end of a run if it holds behind one of its steps. -/
theorem last_of_split {inv : σ → Prop} (preserved : ∀ s label t, inv s → step s label t → inv t)
    {start after : σ} {label : ℓ} {before rest : List (ℓ × σ)}
    (run : Trace step start (before ++ (label, after) :: rest)) (holds : inv after) :
    inv (last start (before ++ (label, after) :: rest)) := by
  rw [last_append]
  cases after_append run with
  | cons first tail => exact invariant_of_step preserved tail holds _ (last_mem after rest)

/-- Each entry of a run is a step from the state before it. -/
theorem step_of_split {start after : σ} {label : ℓ} {before rest : List (ℓ × σ)}
    (run : Trace step start (before ++ (label, after) :: rest)) :
    step (last start before) label after := by
  cases after_append run with
  | cons first tail => exact first

/-- What is allowed at the first step and at all later ones is allowed at every step. -/
theorem allowed_cons {allowed : σ → ℓ → Prop} {start next : σ} {first : ℓ} {tail : List (ℓ × σ)}
    (here : allowed start first)
    (onward : ∀ before label after rest, tail = before ++ (label, after) :: rest →
      allowed (last next before) label) :
    ∀ before label after rest, (first, next) :: tail = before ++ (label, after) :: rest →
      allowed (last start before) label := by
  intro before label after rest split
  cases before with
  | nil =>
    obtain ⟨entry, _⟩ := List.cons.inj split
    cases entry
    exact here
  | cons entry before =>
    obtain ⟨rfl, later⟩ := List.cons.inj split
    exact onward before label after rest later

/-- A run without steps allows everything. -/
theorem allowed_nil {allowed : σ → ℓ → Prop} (start : σ) :
    ∀ (before : List (ℓ × σ)) label after rest, [] = before ++ (label, after) :: rest →
      allowed (last start before) label := by
  intro before label after rest split
  simp at split

/-- Every state of a run is the last state of one of its beginnings. -/
theorem mem_states_iff (start : σ) (trace : List (ℓ × σ)) (s : σ) :
    s ∈ states start trace ↔ ∃ before rest, trace = before ++ rest ∧ last start before = s := by
  induction trace generalizing start with
  | nil =>
    simp only [states, List.map_nil, List.mem_singleton]
    constructor
    · rintro rfl
      exact ⟨[], [], rfl, rfl⟩
    · rintro ⟨before, rest, split, rfl⟩
      obtain ⟨rfl, rfl⟩ := List.append_eq_nil_iff.mp split.symm
      rfl
  | cons entry tail ih =>
    have onward := ih entry.2
    simp only [states, List.map_cons, List.mem_cons] at onward ⊢
    constructor
    · rintro (rfl | member)
      · exact ⟨[], entry :: tail, rfl, rfl⟩
      · obtain ⟨before, rest, rfl, reached⟩ := onward.mp member
        exact ⟨entry :: before, rest, rfl, reached⟩
    · rintro ⟨before, rest, split, reached⟩
      cases before with
      | nil => exact .inl reached.symm
      | cons head before =>
        obtain ⟨rfl, rfl⟩ := List.cons.inj split
        exact .inr (onward.mpr ⟨before, rest, rfl, reached⟩)

/-- The states before and after each entry of a run are states of the run. -/
theorem mem_states_of_split (start after : σ) (label : ℓ) (before rest : List (ℓ × σ)) :
    last start before ∈ states start (before ++ (label, after) :: rest) ∧
      after ∈ states start (before ++ (label, after) :: rest) := by
  constructor
  · exact (mem_states_iff ..).mpr ⟨before, _, rfl, rfl⟩
  · simp [states]

/-- A simulation: each step of the first system from a state where the invariant holds is
a step of the second, or leaves the second where it is. Then so does each run. -/
theorem simulates {step' : τ → κ → τ → Prop} {inv : σ → Prop} {abstraction : σ → τ}
    (allowed : ℓ → Prop)
    (preserved : ∀ s label t, inv s → allowed label → step s label t → inv t)
    (simulated : ∀ s label t, inv s → allowed label → step s label t →
      abstraction t = abstraction s ∨ ∃ label', step' (abstraction s) label' (abstraction t))
    {start : σ} {trace : List (ℓ × σ)} (run : Trace step start trace) (initial : inv start)
    (steps : ∀ label ∈ labels trace, allowed label) :
    ∃ trace', Trace step' (abstraction start) trace' ∧
      last (abstraction start) trace' = abstraction (last start trace) := by
  induction run with
  | nil s => exact ⟨[], .nil _, rfl⟩
  | @cons s t label rest first tail ih =>
    have permitted : allowed label := steps label (by simp [labels])
    have reached := preserved s label t initial permitted first
    obtain ⟨trace', run', ends⟩ := ih reached (fun label' member => steps label' (by
      simp only [labels, List.map_cons, List.mem_cons] at member ⊢
      exact .inr member))
    rcases simulated s label t initial permitted first with same | ⟨label', taken⟩
    · rw [same] at run' ends
      exact ⟨trace', run', ends⟩
    · exact ⟨(label', abstraction t) :: trace', .cons taken run', ends⟩

/-- The run that these labels make from a state. -/
def runOf (next : σ → ℓ → Option σ) : σ → List ℓ → List (ℓ × σ)
  | _, [] => []
  | s, label :: labels =>
    match next s label with
    | some t => (label, t) :: runOf next t labels
    | none => []

theorem trace_runOf {next : σ → ℓ → Option σ}
    (taken : ∀ s label t, next s label = some t → step s label t) (s : σ) (labels : List ℓ) :
    Trace step s (runOf next s labels) := by
  induction labels generalizing s with
  | nil => exact .nil s
  | cons label labels ih =>
    unfold runOf
    cases found : next s label with
    | none => exact .nil s
    | some t => exact .cons (taken s label t found) (ih t)

end Trace

/-! ## Runs between two states -/

/-- A run from one state to another, by steps with these labels. -/
inductive Steps (step : σ → ℓ → σ → Prop) : σ → List ℓ → σ → Prop
  | nil (s : σ) : Steps step s [] s
  | cons {s t u : σ} {label : ℓ} {rest : List ℓ} (first : step s label t)
      (tail : Steps step t rest u) : Steps step s (label :: rest) u

namespace Steps

variable {step : σ → ℓ → σ → Prop} {s t u : σ} {labels more : List ℓ}

theorem single {label : ℓ} (first : step s label t) : Steps step s [label] t :=
  .cons first (.nil t)

theorem append (first : Steps step s labels t) (second : Steps step t more u) :
    Steps step s (labels ++ more) u := by
  induction first with
  | nil s => exact second
  | cons first tail ih => exact .cons first (ih second)

/-- A run by steps that are steps of another system too, with these labels. -/
theorem mono {step' : σ → ℓ → σ → Prop} (run : Steps step s labels t)
    (wider : ∀ s, ∀ label ∈ labels, ∀ t, step s label t → step' s label t) :
    Steps step' s labels t := by
  induction run with
  | nil s => exact .nil s
  | cons first tail ih =>
    refine .cons (wider _ _ List.mem_cons_self _ first) (ih fun s label member => ?_)
    exact wider s label (List.mem_cons_of_mem _ member)

/-- What every step adds by its label, a run adds up. -/
theorem sum_eq (measure : σ → ℕ) (weight : ℓ → ℕ) (run : Steps step s labels t)
    (adds : ∀ s label t, step s label t → measure t = measure s + weight label) :
    measure t = measure s + (labels.map weight).sum := by
  induction run with
  | nil s => simp
  | @cons s t u label rest first tail ih =>
    rw [ih, adds s label t first, List.map_cons, List.sum_cons, Nat.add_assoc]

end Steps

end FsArchiver.Lib
