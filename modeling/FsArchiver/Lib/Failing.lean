/-!
# Programs that may fail

A program over a state that ends with a value or fails; the state keeps what was done to it up
to the failure. A property of the state that every part of a program keeps is kept by the
program, whether it fails or not.
-/
namespace FsArchiver.Lib

/-- A program over a state; without a value it has failed. -/
def Failing (σ α : Type) := σ → Option α × σ

namespace Failing

variable {σ α β : Type}

instance : Monad (Failing σ) where
  pure value := fun s => (some value, s)
  bind prog next := fun s =>
    match prog s with
    | (some value, s) => next value s
    | (none, s) => (none, s)

/-- A failure. -/
def fail : Failing σ α := fun s => (none, s)

/-- The state. -/
def get : Failing σ σ := fun s => (some s, s)

/-- A change of the state. -/
def modify (change : σ → σ) : Failing σ Unit := fun s => (some (), change s)

/-- A value that may be missing. -/
def ofOption : Option α → Failing σ α
  | some value => pure value
  | none => fail

/-- A program whose failure nobody looks at. -/
def attempt (prog : Failing σ α) : Failing σ Unit := fun s => (some (), (prog s).2)

@[simp] theorem pure_run (value : α) (s : σ) : (pure value : Failing σ α) s = (some value, s) :=
  rfl

@[simp] theorem fail_run (s : σ) : (fail : Failing σ α) s = (none, s) := rfl

@[simp] theorem get_bind_run (next : σ → Failing σ β) (s : σ) : (get >>= next) s = next s s := rfl

@[simp] theorem modify_run (change : σ → σ) (s : σ) : modify change s = (some (), change s) := rfl

@[simp] theorem ofOption_some (value : α) : (ofOption (some value) : Failing σ α) = pure value :=
  rfl

@[simp] theorem ofOption_none : (ofOption none : Failing σ α) = fail := rfl

@[simp] theorem pure_bind_run (value : α) (next : α → Failing σ β) (s : σ) :
    (pure value >>= next) s = next value s := rfl

@[simp] theorem fail_bind_run (next : α → Failing σ β) (s : σ) : (fail >>= next) s = (none, s) :=
  rfl

/-- Behind a part that ends with a value the rest runs. -/
theorem bind_run_of {prog : Failing σ α} {next : α → Failing σ β} {s s' : σ} {value : α}
    (ran : prog s = (some value, s')) : (prog >>= next) s = next value s' := by
  change (match prog s with
    | (some value, s) => next value s
    | (none, s) => (none, s)) = _
  rw [ran]

/-- Programs in a row do not depend on how they are put together. -/
theorem bind_bind {γ : Type} (prog : Failing σ α) (next : α → Failing σ β) (last : β → Failing σ γ) :
    (prog >>= next) >>= last = prog >>= fun value => next value >>= last := by
  funext s
  change (match (match prog s with
      | (some value, s) => next value s
      | (none, s) => (none, s)) with
    | (some value, s) => last value s
    | (none, s) => (none, s)) = match prog s with
      | (some value, s) => (next value >>= last) s
      | (none, s) => (none, s)
  cases prog s with
  | mk value s' =>
    cases value with
    | none => rfl
    | some value => rfl

/-- A program that fails ends what it is the first part of. -/
theorem bind_run_none {prog : Failing σ α} {next : α → Failing σ β} {s s' : σ}
    (ran : prog s = (none, s')) : (prog >>= next) s = (none, s') := by
  change (match prog s with
    | (some value, s) => next value s
    | (none, s) => (none, s)) = _
  rw [ran]

/-! ## Invariants -/

/-- Whatever happens, the property holds afterwards if it did before. -/
def Keeps (inv : σ → Prop) (prog : Failing σ α) : Prop := ∀ s, inv s → inv (prog s).2

variable {inv : σ → Prop}

theorem keeps_pure (value : α) : Keeps inv (pure value : Failing σ α) := fun _ holds => holds

theorem keeps_fail : Keeps inv (fail : Failing σ α) := fun _ holds => holds

theorem keeps_ofOption (value : Option α) : Keeps inv (ofOption value : Failing σ α) := by
  cases value with
  | none => exact keeps_fail
  | some value => exact keeps_pure value

theorem keeps_modify {change : σ → σ} (keeps : ∀ s, inv s → inv (change s)) :
    Keeps inv (modify change) := keeps

theorem Keeps.attempt {prog : Failing σ α} (keeps : Keeps inv prog) : Keeps inv (attempt prog) :=
  keeps

/-- What holds behind a part and is kept by the rest holds at the end. -/
theorem Keeps.behind {prog : Failing σ α} {next : α → Failing σ β} {s : σ}
    (second : ∀ value, Keeps inv (next value)) (between : inv (prog s).2) :
    inv ((prog >>= next) s).2 := by
  change inv (match prog s with
    | (some value, s) => next value s
    | (none, s) => (none, s)).2
  cases ran : prog s with
  | mk value s' =>
    rw [ran] at between
    cases value with
    | none => exact between
    | some value => exact second value s' between

/-- A sequence keeps what its parts keep. -/
theorem Keeps.bind {prog : Failing σ α} {next : α → Failing σ β} (first : Keeps inv prog)
    (second : ∀ value, Keeps inv (next value)) : Keeps inv (prog >>= next) :=
  fun s holds => Keeps.behind second (first s holds)

/-- Behind a reading of the state the property is known of what was read. -/
theorem keeps_get_bind {next : σ → Failing σ β}
    (second : ∀ s, inv s → inv (next s s).2) : Keeps inv (get >>= next) := second

/-- A reading of the state keeps what the rest keeps, whatever was read. -/
theorem keeps_get {next : σ → Failing σ β} (second : ∀ s, Keeps inv (next s)) :
    Keeps inv (get >>= next) := fun s => second s s

theorem keeps_ite {condition : Prop} [Decidable condition] {prog other : Failing σ α}
    (yes : condition → Keeps inv prog) (no : ¬condition → Keeps inv other) :
    Keeps inv (if condition then prog else other) := by
  by_cases holds : condition
  · rw [if_pos holds]
    exact yes holds
  · rw [if_neg holds]
    exact no holds

/-! ## Simulation -/

section Simulation

variable {τ : Type} {related : σ → τ → Prop}

/-- Where the step of the other system succeeds the program ends with a value, and the states
stay related. -/
def Simulates (related : σ → τ → Prop) (prog : Failing σ α) (step : τ → Option τ) : Prop :=
  ∀ s t t', related s t → step t = some t' → ∃ value s', prog s = (some value, s') ∧ related s' t'

/-- Programs in a row simulate steps in a row. -/
theorem Simulates.bind {prog : Failing σ α} {next : α → Failing σ β} {step step' : τ → Option τ}
    (first : Simulates related prog step) (second : ∀ value, Simulates related (next value) step') :
    Simulates related (prog >>= next) fun t => (step t).bind step' := by
  intro s t t' start steps
  rw [Option.bind_eq_some_iff] at steps
  obtain ⟨between, stepped, stepped'⟩ := steps
  obtain ⟨value, s', ran, related'⟩ := first s t between start stepped
  obtain ⟨value', s'', ran', related''⟩ := second value s' between t' related' stepped'
  exact ⟨value', s'', by rw [bind_run_of ran, ran'], related''⟩

/-- A program that the other system does not see may come first. -/
theorem Simulates.silent_bind {prog : Failing σ α} {next : α → Failing σ β} {step : τ → Option τ}
    (first : Simulates related prog some) (second : ∀ value, Simulates related (next value) step) :
    Simulates related (prog >>= next) step :=
  first.bind second

end Simulation

end Failing

end FsArchiver.Lib
