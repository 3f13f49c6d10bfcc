import Mathlib.Data.List.Basic

/-!
# Labelled machines and their runs

A machine is a set of initial states with a partial step function.  A label
resolves every choice of a step: which thread moves, what its program does
next, and what it observes of memory that other threads write.  A run is a
list of labels, so a concrete run can be executed, and a property of all
interleavings is a property of every reachable state.

`ReachableBy ok` restricts attention to the runs whose steps all meet the
condition `ok` on the state before the step and its label.
-/

namespace Lpel

universe u v

/-- Initial states and a partial, labelled step function. -/
structure Machine (σ : Type u) (ℓ : Type v) where
  /-- The states a run may start from. -/
  init : σ → Prop
  /-- The state after a step, or `none` where the step is not enabled. -/
  next : σ → ℓ → Option σ

namespace Machine

variable {σ : Type u} {ℓ : Type v}

/-- Execute a list of labels from a given state. -/
def run (machine : Machine σ ℓ) : σ → List ℓ → Option σ
  | state, [] => some state
  | state, label :: labels =>
      (machine.next state label).bind fun after => machine.run after labels

/-- Execute a list of labels as long as every step passes a test. -/
def runBy (machine : Machine σ ℓ) (ok : σ → ℓ → Bool) :
    σ → List ℓ → Option σ
  | state, [] => some state
  | state, label :: labels =>
      if ok state label then
        (machine.next state label).bind fun after =>
          machine.runBy ok after labels
      else
        none

/-- The states reached by runs all of whose steps meet a condition. -/
inductive ReachableBy
    (machine : Machine σ ℓ)
    (ok : σ → ℓ → Prop) : σ → Prop
  | init {state : σ} :
      machine.init state → ReachableBy machine ok state
  | step {state after : σ} {label : ℓ} :
      ReachableBy machine ok state →
      ok state label →
      machine.next state label = some after →
      ReachableBy machine ok after

/-- The states reached by any run. -/
def Reachable (machine : Machine σ ℓ) : σ → Prop :=
  machine.ReachableBy fun _ _ => True

/-- Weakening the condition on steps keeps every reached state. -/
theorem ReachableBy.mono
    {machine : Machine σ ℓ}
    {stronger weaker : σ → ℓ → Prop}
    (implies : ∀ state label, stronger state label → weaker state label)
    {state : σ}
    (reached : machine.ReachableBy stronger state) :
    machine.ReachableBy weaker state := by
  induction reached with
  | init initial => exact .init initial
  | step _ met taken inductionHypothesis =>
      exact .step inductionHypothesis (implies _ _ met) taken

/-- A state reached under a condition is reached. -/
theorem ReachableBy.reachable
    {machine : Machine σ ℓ}
    {ok : σ → ℓ → Prop}
    {state : σ}
    (reached : machine.ReachableBy ok state) :
    machine.Reachable state :=
  reached.mono fun _ _ _ => trivial

/-- The invariant rule for runs whose steps all meet a condition. -/
theorem ReachableBy.invariant
    {machine : Machine σ ℓ}
    {ok : σ → ℓ → Prop}
    {invariant : σ → Prop}
    (initially : ∀ state, machine.init state → invariant state)
    (preserved : ∀ state label after,
      invariant state → ok state label →
      machine.next state label = some after → invariant after)
    {state : σ}
    (reached : machine.ReachableBy ok state) :
    invariant state := by
  induction reached with
  | init initial => exact initially _ initial
  | step _ met taken inductionHypothesis =>
      exact preserved _ _ _ inductionHypothesis met taken

/-- The invariant rule for all runs. -/
theorem Reachable.invariant
    {machine : Machine σ ℓ}
    {invariant : σ → Prop}
    (initially : ∀ state, machine.init state → invariant state)
    (preserved : ∀ state label after,
      invariant state → machine.next state label = some after →
      invariant after)
    {state : σ}
    (reached : machine.Reachable state) :
    invariant state :=
  ReachableBy.invariant initially
    (fun _ _ _ held _ taken => preserved _ _ _ held taken) reached

/-- The invariant rule where another invariant is known. -/
theorem Reachable.invariant_of
    {machine : Machine σ ℓ}
    {known invariant : σ → Prop}
    (knows : ∀ state, machine.Reachable state → known state)
    (initially : ∀ state, machine.init state → invariant state)
    (preserved : ∀ state label after, known state →
      invariant state → machine.next state label = some after →
      invariant after)
    {state : σ}
    (reached : machine.Reachable state) :
    invariant state := by
  induction reached with
  | init initial => exact initially _ initial
  | step before _ taken inductionHypothesis =>
      exact preserved _ _ _ (knows _ before) inductionHypothesis taken

/-- Extending a run keeps its states reachable. -/
theorem Reachable.next
    {machine : Machine σ ℓ}
    {state after : σ}
    {label : ℓ}
    (reached : machine.Reachable state)
    (taken : machine.next state label = some after) :
    machine.Reachable after :=
  .step reached trivial taken

/-- An executed run ends in a reachable state. -/
theorem Reachable.run
    {machine : Machine σ ℓ}
    {state after : σ}
    {labels : List ℓ}
    (reached : machine.Reachable state)
    (executed : machine.run state labels = some after) :
    machine.Reachable after := by
  induction labels generalizing state with
  | nil =>
      simp only [Machine.run, Option.some.injEq] at executed
      exact executed ▸ reached
  | cons label labels inductionHypothesis =>
      simp only [Machine.run, Option.bind_eq_some_iff] at executed
      obtain ⟨middle, taken, rest⟩ := executed
      exact inductionHypothesis (reached.next taken) rest

/-- A run that ends where a test succeeds witnesses a reachable state in which
it does. -/
theorem exists_reachable_of_run
    {machine : Machine σ ℓ}
    {start : σ}
    {labels : List ℓ}
    {test : σ → Bool}
    (initial : machine.init start)
    (passes : (machine.run start labels).map test = some true) :
    ∃ state, machine.Reachable state ∧ test state = true := by
  obtain ⟨state, executed, tested⟩ := Option.map_eq_some_iff.mp passes
  exact ⟨state, Reachable.run (.init initial) executed, tested⟩

/-- An executed run whose steps pass the test ends in a state reached by such
runs. -/
theorem ReachableBy.runBy
    {machine : Machine σ ℓ}
    {ok : σ → ℓ → Bool}
    {state after : σ}
    {labels : List ℓ}
    (reached : machine.ReachableBy (fun state label => ok state label = true)
      state)
    (executed : machine.runBy ok state labels = some after) :
    machine.ReachableBy (fun state label => ok state label = true) after := by
  induction labels generalizing state with
  | nil =>
      simp only [Machine.runBy, Option.some.injEq] at executed
      exact executed ▸ reached
  | cons label labels inductionHypothesis =>
      simp only [Machine.runBy] at executed
      split at executed
      case isTrue passed =>
        simp only [Option.bind_eq_some_iff] at executed
        obtain ⟨middle, taken, rest⟩ := executed
        exact inductionHypothesis (.step reached passed taken) rest
      case isFalse => exact absurd executed (by simp)

/-- A run whose steps pass the test is a run. -/
theorem run_of_runBy
    {machine : Machine σ ℓ}
    {ok : σ → ℓ → Bool}
    {state after : σ}
    {labels : List ℓ}
    (executed : machine.runBy ok state labels = some after) :
    machine.run state labels = some after := by
  induction labels generalizing state with
  | nil => exact executed
  | cons label labels inductionHypothesis =>
      rw [runBy] at executed
      obtain ⟨-, executed⟩ := Option.ite_none_right_eq_some.mp executed
      obtain ⟨middle, taken, rest⟩ := Option.bind_eq_some_iff.mp executed
      rw [run, taken, Option.bind_some]
      exact inductionHypothesis rest

/-- The same for a run whose steps all pass a test. -/
theorem exists_reachableBy_of_runBy
    {machine : Machine σ ℓ}
    {ok : σ → ℓ → Bool}
    {start : σ}
    {labels : List ℓ}
    {test : σ → Bool}
    (initial : machine.init start)
    (passes : (machine.runBy ok start labels).map test = some true) :
    ∃ state, machine.ReachableBy (fun state label => ok state label = true)
      state ∧ test state = true := by
  obtain ⟨state, executed, tested⟩ := Option.map_eq_some_iff.mp passes
  exact ⟨state, ReachableBy.runBy (.init initial) executed, tested⟩

/-- A property holds in every state along a run. -/
def HoldsAlong (machine : Machine σ ℓ) (property : σ → Prop) :
    σ → List ℓ → Prop
  | state, [] => property state
  | state, label :: labels =>
      property state ∧ ∀ after, machine.next state label = some after →
        machine.HoldsAlong property after labels

/-- Every step of a run meets a condition on the state before it. -/
def StepsMeet (machine : Machine σ ℓ) (ok : σ → ℓ → Prop) :
    σ → List ℓ → Prop
  | _, [] => True
  | state, label :: labels =>
      ∀ after, machine.next state label = some after →
        ok state label ∧ machine.StepsMeet ok after labels

/-- The steps of an executed run meet what they were tested for. -/
theorem stepsMeet_of_runBy
    {machine : Machine σ ℓ}
    {test : σ → ℓ → Bool}
    {ok : σ → ℓ → Prop}
    (implies : ∀ state label, test state label = true → ok state label)
    {state : σ}
    {labels : List ℓ}
    (executed : (machine.runBy test state labels).isSome = true) :
    machine.StepsMeet ok state labels := by
  induction labels generalizing state with
  | nil => exact trivial
  | cons label labels inductionHypothesis =>
      intro after taken
      rw [Machine.runBy] at executed
      split at executed
      case isTrue passed =>
        rw [taken, Option.bind_some] at executed
        exact ⟨implies _ _ passed, inductionHypothesis executed⟩
      case isFalse => exact absurd executed (by simp)

/-- How many steps of a run show something, which is judged from the states before
and after the step and from its label. -/
def countSteps (machine : Machine σ ℓ) (shows : σ → ℓ → σ → Bool) :
    σ → List ℓ → ℕ
  | _, [] => 0
  | state, label :: labels =>
      match machine.next state label with
      | none => 0
      | some after =>
          (shows state label after).toNat +
            machine.countSteps shows after labels

/-- A number kept in the state that rises with exactly the steps that show
something is the count of these steps. -/
theorem countSteps_eq
    {machine : Machine σ ℓ}
    (shows : σ → ℓ → σ → Bool)
    (invariant : σ → Prop)
    (number : σ → ℕ)
    (kept : ∀ state label after, invariant state →
      machine.next state label = some after → invariant after)
    (rises : ∀ state label after, invariant state →
      machine.next state label = some after →
      number after = number state + (shows state label after).toNat)
    {state final : σ}
    {labels : List ℓ}
    (held : invariant state)
    (executed : machine.run state labels = some final) :
    number final = number state + machine.countSteps shows state labels := by
  induction labels generalizing state with
  | nil =>
      simp only [Machine.run, Option.some.injEq] at executed
      rw [executed, countSteps, Nat.add_zero]
  | cons label labels inductionHypothesis =>
      simp only [Machine.run, Option.bind_eq_some_iff] at executed
      obtain ⟨after, taken, rest⟩ := executed
      have along := inductionHypothesis (kept _ _ _ held taken) rest
      rw [along, rises _ _ _ held taken, countSteps, taken, Nat.add_assoc]

/-- An invariant that implies the property is kept by every step that meets the
condition, and the property is lost with every other step.  Then the property
holds along exactly the runs whose steps all meet the condition. -/
theorem holdsAlong_iff_stepsMeet
    {machine : Machine σ ℓ}
    (invariant : σ → Prop)
    {property : σ → Prop}
    {ok : σ → ℓ → Prop}
    (implies : ∀ state, invariant state → property state)
    (kept : ∀ state label after, invariant state →
      machine.next state label = some after → ok state label →
      invariant after)
    (lost : ∀ state label after, invariant state →
      machine.next state label = some after → property after →
      ok state label)
    {state : σ}
    (held : invariant state)
    (labels : List ℓ) :
    machine.HoldsAlong property state labels ↔
      machine.StepsMeet ok state labels := by
  induction labels generalizing state with
  | nil => exact iff_of_true (implies state held) trivial
  | cons label labels inductionHypothesis =>
      constructor
      · rintro ⟨-, along⟩ after taken
        have reached : property after := by
          cases labels with
          | nil => exact along after taken
          | cons => exact (along after taken).1
        have met := lost _ _ _ held taken reached
        exact ⟨met, (inductionHypothesis (kept _ _ _ held taken met)).mp
          (along after taken)⟩
      · intro meets
        refine ⟨implies state held, ?_⟩
        intro after taken
        obtain ⟨met, rest⟩ := meets after taken
        exact (inductionHypothesis (kept _ _ _ held taken met)).mpr rest

end Machine

end Lpel
