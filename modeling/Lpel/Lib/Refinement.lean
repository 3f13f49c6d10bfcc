import Lpel.Lib.Machine

/-!
# Refinement of machines

A refinement maps the states of a concrete machine to those of an abstract one,
and every concrete step to the abstract steps it amounts to, often none.  It may
use an invariant of the concrete machine.  Runs are mapped to runs, so every
property of the abstract runs holds of the concrete ones.
-/

namespace Lpel

universe u v

namespace Machine

variable {σ σ' σ'' : Type u} {ℓ ℓ' ℓ'' : Type v}

/-- A run after a run is a run. -/
theorem run_append
    (machine : Machine σ ℓ)
    (state : σ)
    (labels more : List ℓ) :
    machine.run state (labels ++ more) =
      (machine.run state labels).bind fun after => machine.run after more := by
  induction labels generalizing state with
  | nil => rfl
  | cons label labels inductionHypothesis =>
      simp only [List.cons_append, run, inductionHypothesis, Option.bind_assoc]

/-- The first step of a run, and the rest of it. -/
theorem run_cons_iff
    {machine : Machine σ ℓ}
    {state after : σ}
    {label : ℓ}
    {labels : List ℓ} :
    machine.run state (label :: labels) = some after ↔
      ∃ middle, machine.next state label = some middle ∧
        machine.run middle labels = some after :=
  Option.bind_eq_some_iff

/-- Every reachable state is the end of a run. -/
theorem Reachable.exists_run
    {machine : Machine σ ℓ}
    {state : σ}
    (reached : machine.Reachable state) :
    ∃ start labels, machine.init start ∧
      machine.run start labels = some state := by
  induction reached with
  | init initial => exact ⟨_, [], initial, rfl⟩
  | @step _ after label _ _ taken inductionHypothesis =>
      obtain ⟨start, labels, initial, executed⟩ := inductionHypothesis
      refine ⟨start, labels ++ [label], initial, ?_⟩
      rw [run_append, executed, Option.bind_some, Machine.run, taken]
      rfl

/-- A run over labels that meet the condition everywhere. -/
theorem ReachableBy.extend
    {machine : Machine σ ℓ}
    {ok : σ → ℓ → Prop}
    {state after : σ}
    {labels : List ℓ}
    (reached : machine.ReachableBy ok state)
    (meets : ∀ label ∈ labels, ∀ state, ok state label)
    (executed : machine.run state labels = some after) :
    machine.ReachableBy ok after := by
  induction labels generalizing state with
  | nil =>
      obtain rfl := Option.some.inj executed
      exact reached
  | cons label labels inductionHypothesis =>
      obtain ⟨middle, taken, rest⟩ := run_cons_iff.mp executed
      rw [List.forall_mem_cons] at meets
      exact inductionHypothesis (.step reached (meets.1 state) taken) meets.2 rest

end Machine

/-- A concrete machine with an invariant, an abstract one, and what the states
and steps of the first amount to in the second. -/
structure Refinement
    {σ σ' : Type u}
    {ℓ ℓ' : Type v}
    (concrete : Machine σ ℓ)
    (abstract : Machine σ' ℓ') where
  /-- What is known of the reachable states of the concrete machine. -/
  invariant : σ → Prop
  /-- The abstract state. -/
  abs : σ → σ'
  /-- The abstract steps of a concrete one. -/
  observe : σ → ℓ → List ℓ'
  init : ∀ state, concrete.init state →
    invariant state ∧ abstract.init (abs state)
  step : ∀ state label after, invariant state →
    concrete.next state label = some after →
    invariant after ∧
      abstract.run (abs state) (observe state label) = some (abs after)

namespace Refinement

variable {σ σ' σ'' : Type u} {ℓ ℓ' ℓ'' : Type v}
variable {concrete : Machine σ ℓ} {abstract : Machine σ' ℓ'}
variable {higher : Machine σ'' ℓ''}

/-- The abstract steps of a concrete run. -/
def trace (refinement : Refinement concrete abstract) : σ → List ℓ → List ℓ'
  | _, [] => []
  | state, label :: labels =>
      refinement.observe state label ++
        match concrete.next state label with
        | some after => refinement.trace after labels
        | none => []

/-- Runs refine runs. -/
theorem run
    (refinement : Refinement concrete abstract)
    {state after : σ}
    {labels : List ℓ}
    (known : refinement.invariant state)
    (executed : concrete.run state labels = some after) :
    refinement.invariant after ∧
      abstract.run (refinement.abs state) (refinement.trace state labels) =
        some (refinement.abs after) := by
  induction labels generalizing state with
  | nil =>
      obtain rfl := Option.some.inj executed
      exact ⟨known, rfl⟩
  | cons label labels inductionHypothesis =>
      obtain ⟨middle, taken, rest⟩ := Machine.run_cons_iff.mp executed
      obtain ⟨kept, stepped⟩ := refinement.step _ _ _ known taken
      obtain ⟨holds, runs⟩ := inductionHypothesis kept rest
      refine ⟨holds, ?_⟩
      simp only [trace, taken]
      rw [Machine.run_append, stepped, Option.bind_some, runs]

/-- Reachable states are mapped to reachable ones, with the invariant. -/
theorem reachable
    (refinement : Refinement concrete abstract)
    {state : σ}
    (reached : concrete.Reachable state) :
    refinement.invariant state ∧ abstract.Reachable (refinement.abs state) := by
  obtain ⟨start, labels, initial, executed⟩ := reached.exists_run
  obtain ⟨known, starts⟩ := refinement.init start initial
  obtain ⟨holds, runs⟩ := refinement.run known executed
  exact ⟨holds, .run (.init starts) runs⟩

/-- Refinements compose.  What is known of the abstract states is known of the
concrete ones. -/
def trans
    (lower : Refinement concrete abstract)
    (upper : Refinement abstract higher) :
    Refinement concrete higher where
  invariant state := lower.invariant state ∧ upper.invariant (lower.abs state)
  abs state := upper.abs (lower.abs state)
  observe state label :=
    upper.trace (lower.abs state) (lower.observe state label)
  init := by
    intro state initial
    obtain ⟨known, starts⟩ := lower.init state initial
    obtain ⟨above, begins⟩ := upper.init _ starts
    exact ⟨⟨known, above⟩, begins⟩
  step := by
    rintro state label after ⟨known, above⟩ taken
    obtain ⟨kept, stepped⟩ := lower.step state label after known taken
    obtain ⟨keptAbove, runs⟩ := upper.run above stepped
    exact ⟨⟨kept, keptAbove⟩, runs⟩

end Refinement
end Lpel
