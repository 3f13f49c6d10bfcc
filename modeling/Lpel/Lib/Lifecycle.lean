import Mathlib.Logic.Function.Basic
import Lpel.Lib.Refinement

/-!
# The life cycle of a task

What a task may go through under a scheduler with blocking and wakeups.  A task
that decides to block does so a little later, and its wakeup may come before that;
then the block is over when it begins.  The tasks are independent of each other,
so the events of any number of them are a run of the machine below exactly if the
events of each are a path through its phases.
-/

namespace Lpel
namespace Lifecycle

/-- What a task is doing. -/
inductive Phase
  | created
  /-- It waits to be executed. -/
  | ready
  | running
  /-- It will block, and its wakeup has come or has not. -/
  | committed (woken : Bool)
  /-- It waits for its wakeup. -/
  | blocked
  | exited
  deriving DecidableEq

/-- What happens to a task. -/
inductive Event
  | start
  /-- It is executed. -/
  | dispatch
  /-- It decides to block. -/
  | commit
  | block
  | wakeup
  | yield
  | exit
  deriving DecidableEq

/-- What a task asks for in the middle of an operation. -/
def Event.inOperation : Event → Bool
  | .commit | .block | .wakeup => true
  | .start | .dispatch | .yield | .exit => false

namespace Phase

/-- The phase after an event, or `none` where it cannot happen. -/
def next : Phase → Event → Option Phase
  | .created, .start => some .ready
  | .ready, .dispatch => some .running
  | .running, .commit => some (.committed false)
  | .committed false, .block => some .blocked
  | .committed true, .block => some .ready
  | .committed false, .wakeup => some (.committed true)
  | .blocked, .wakeup => some .ready
  | .running, .yield => some .ready
  | .running, .exit => some .exited
  | _, _ => none

/-- The task executes its function. -/
def executes : Phase → Bool
  | .running | .committed _ => true
  | _ => false

/-- The task waits for a wakeup. -/
def awaits : Phase → Bool
  | .committed false | .blocked => true
  | _ => false

/-- The task does not go on without a start or a wakeup. -/
def rests : Phase → Bool
  | .created | .blocked | .exited => true
  | _ => false

/-- The events of a task, with what each of them requires. -/
inductive Goes : Phase → Event → Phase → Prop
  | start : Goes .created .start .ready
  | dispatch : Goes .ready .dispatch .running
  | commit : Goes .running .commit (.committed false)
  | block : Goes (.committed false) .block .blocked
  | overtaken : Goes (.committed true) .block .ready
  | awaited : Goes (.committed false) .wakeup (.committed true)
  | wakeup : Goes .blocked .wakeup .ready
  | yield : Goes .running .yield .ready
  | exit : Goes .running .exit .exited

/-- Every event is one of these. -/
theorem next_cases
    {phase after : Phase}
    {event : Event}
    (goes : phase.next event = some after) :
    Goes phase event after := by
  unfold next at goes
  split at goes <;> cases goes <;> constructor

/-- Only a ready task is executed. -/
theorem ready_of_dispatch
    {phase after : Phase}
    (goes : phase.next .dispatch = some after) :
    phase = .ready := by
  cases next_cases goes
  rfl

/-- No event leads back to the first phase. -/
theorem ne_created_of_next
    {phase after : Phase}
    {event : Event}
    (goes : phase.next event = some after) :
    after ≠ .created := by
  cases next_cases goes <;> simp

end Phase

variable {τ : Type} [DecidableEq τ]

/-- Any number of tasks. -/
def machine (τ : Type) [DecidableEq τ] : Machine (τ → Phase) (τ × Event) where
  init := fun phase => phase = fun _ => .created
  next := fun phase event =>
    ((phase event.1).next event.2).map (Function.update phase event.1)

/-- An event concerns one task. -/
theorem next_iff
    {phase after : τ → Phase}
    {t : τ}
    {event : Event} :
    (machine τ).next phase (t, event) = some after ↔
      (phase t).next event = some (after t) ∧
        ∀ u, u ≠ t → after u = phase u := by
  simp only [machine, Option.map_eq_some_iff]
  constructor
  · rintro ⟨value, goes, rfl⟩
    rw [Function.update_self]
    exact ⟨goes, fun u other => Function.update_of_ne other _ _⟩
  · rintro ⟨goes, others⟩
    refine ⟨after t, goes, ?_⟩
    funext u
    by_cases same : u = t
    · subst same
      exact Function.update_self ..
    · rw [Function.update_of_ne same, others u same]

/-- The phases after at most one event. -/
theorem run_toList_iff
    {phase after : τ → Phase}
    {event : Option (τ × Event)} :
    (machine τ).run phase event.toList = some after ↔
      match event with
      | none => after = phase
      | some event => (machine τ).next phase event = some after := by
  cases event with
  | none => simp [Machine.run, eq_comm]
  | some event => simp [Machine.run]

/-- A task that was started stays so. -/
theorem ne_created_of_run
    {phase after : τ → Phase}
    {event : Option (τ × Event)}
    (goes : (machine τ).run phase event.toList = some after)
    {t : τ}
    (started : phase t ≠ .created) :
    after t ≠ .created := by
  cases event with
  | none =>
      obtain rfl := Option.some.inj goes
      exact started
  | some event =>
      obtain ⟨u, event⟩ := event
      obtain ⟨goes, others⟩ := next_iff.mp (run_toList_iff.mp goes)
      by_cases same : t = u
      · subst same
        exact Phase.ne_created_of_next goes
      · rwa [others t same]

/-- A task begins with its start. -/
theorem start_of_created
    {phase after : τ → Phase}
    {t : τ}
    {event : Event}
    (goes : (machine τ).run phase (some (t, event)).toList = some after)
    (unstarted : phase t = .created) :
    event = .start := by
  have cases_ := Phase.next_cases (next_iff.mp (run_toList_iff.mp goes)).1
  rw [unstarted] at cases_
  generalize after t = now at cases_
  cases cases_
  rfl

/-- A task that is not started stays so. -/
theorem created_of_run
    {phase after : τ → Phase}
    {event : Option (τ × Event)}
    (goes : (machine τ).run phase event.toList = some after)
    {t : τ}
    (unstarted : phase t = .created)
    (other : event ≠ some (t, .start)) :
    after t = .created := by
  cases event with
  | none =>
      obtain rfl := Option.some.inj goes
      exact unstarted
  | some event =>
      obtain ⟨u, event⟩ := event
      obtain ⟨goes, others⟩ := next_iff.mp (run_toList_iff.mp goes)
      by_cases same : t = u
      · subst same
        have starts := start_of_created
          (run_toList_iff.mpr (next_iff.mpr ⟨goes, others⟩)) unstarted
        exact absurd (by rw [starts]) other
      · rwa [others t same]

/-- Only some of the tasks are in a scheduler, and the others are elsewhere. -/
theorem run_choose
    {phase after : τ → Phase}
    {event : Option (τ × Event)}
    (goes : (machine τ).run phase event.toList = some after)
    (elsewhere : τ → Phase)
    (chosen : τ → Bool)
    (concerns : ∀ t what, event = some (t, what) → chosen t = true) :
    (machine τ).run (fun t => if chosen t then phase t else elsewhere t)
        event.toList =
      some fun t => if chosen t then after t else elsewhere t := by
  cases event with
  | none =>
      obtain rfl := Option.some.inj goes
      rfl
  | some event =>
      obtain ⟨u, event⟩ := event
      have goes := run_toList_iff.mp goes
      obtain ⟨goes, others⟩ := next_iff.mp goes
      refine run_toList_iff.mpr (next_iff.mpr ⟨?_, ?_⟩)
      · simp only [concerns u event rfl, if_true]
        exact goes
      · intro t other
        simp only [others t other]

/-- A scheduler as the tasks see it: a machine with the phase of each task and the
event that each step is for a task, if any.  Threads execute the tasks, and a task
asks for what is to happen to it on its thread.  A choice resolves what the wakeup
of another task leaves open. -/
structure Scheduler
    (τ : Type)
    [DecidableEq τ]
    (S L θ C : Type) where
  machine : Machine S L
  phase : S → τ → Phase
  event : S → L → Option (τ × Event)
  /-- The task whose function a thread executes. -/
  function : S → θ → Option τ
  commit : θ → L
  block : θ → L
  exit : θ → L
  wakeup : θ → τ → C → L
  /-- What is known of the reachable states. -/
  invariant : S → Prop
  init : ∀ state, machine.init state →
    invariant state ∧ ∀ t, phase state t = .created
  step : ∀ state label after, invariant state →
    machine.next state label = some after →
    invariant after ∧
      (Lifecycle.machine τ).run (phase state) (event state label).toList =
        some (phase after)
  /-- The tasks that execute their functions are on the threads. -/
  executes : ∀ state t, invariant state →
    ((∃ thread, function state thread = some t) ↔
      (phase state t).executes = true)
  commits : ∀ state thread t, invariant state →
    function state thread = some t → phase state t = .running →
    event state (commit thread) = some (t, .commit) ∧
      (machine.next state (commit thread)).isSome = true
  blocks : ∀ state thread t woken, invariant state →
    function state thread = some t → phase state t = .committed woken →
    event state (block thread) = some (t, .block) ∧
      (machine.next state (block thread)).isSome = true
  exits : ∀ state thread t, invariant state →
    function state thread = some t → phase state t = .running →
    event state (exit thread) = some (t, .exit) ∧
      (machine.next state (exit thread)).isSome = true
  wakes : ∀ state thread t whom choice, invariant state →
    function state thread = some t → phase state t = .running →
    (phase state whom).awaits = true →
    event state (wakeup thread whom choice) = some (whom, .wakeup) ∧
      (machine.next state (wakeup thread whom choice)).isSome = true

namespace Scheduler

variable {S L θ C : Type}

/-- A scheduler refines the life cycles of its tasks. -/
def lifecycles (scheduler : Scheduler τ S L θ C) :
    Refinement scheduler.machine (Lifecycle.machine τ) where
  invariant := scheduler.invariant
  abs := scheduler.phase
  observe state label := (scheduler.event state label).toList
  init := by
    intro state initial
    obtain ⟨known, created⟩ := scheduler.init state initial
    exact ⟨known, funext created⟩
  step := scheduler.step

end Scheduler

/-- A scheduler that forgets no task, along the runs whose steps meet a condition:
where its threads cannot go on by themselves and no task executes its function,
every task waits for a start or a wakeup, or has exited. -/
structure Diligence
    {S L θ C : Type}
    (scheduler : Scheduler τ S L θ C) where
  /-- The condition on the steps. -/
  keeps : S → L → Prop
  /-- The steps that the threads take by themselves. -/
  internal : S → L → Prop
  /-- What is known where all steps meet the condition. -/
  known : S → Prop
  init : ∀ state, scheduler.machine.init state → known state
  step : ∀ state label after, known state → keeps state label →
    scheduler.machine.next state label = some after → known after
  keeps_internal : ∀ state label, internal state label → keeps state label
  keeps_commit : ∀ state thread, keeps state (scheduler.commit thread)
  keeps_block : ∀ state thread, keeps state (scheduler.block thread)
  keeps_exit : ∀ state thread, keeps state (scheduler.exit thread)
  keeps_wakeup : ∀ state thread whom choice,
    keeps state (scheduler.wakeup thread whom choice)
  /-- The threads only execute tasks by themselves. -/
  dispatches : ∀ state label t event, internal state label →
    scheduler.event state label = some (t, event) → event = .dispatch
  rests : ∀ state, known state →
    (∀ label, internal state label →
      scheduler.machine.next state label = none) →
    (∀ t, (scheduler.phase state t).executes = false) →
    ∀ t, (scheduler.phase state t).rests = true

/-- What the steps of a scheduler cost: each does some of the work that is left,
unless it is made on behalf of a task in the middle of an operation, and only some
steps from outside add to the work. -/
structure Costs
    {S L θ C : Type}
    {scheduler : Scheduler τ S L θ C}
    (diligence : Diligence scheduler) where
  work : S → ℕ
  /-- What a wakeup gives the threads to do. -/
  wakeWork : ℕ
  /-- What a step from outside gives the threads to do. -/
  allowance : L → ℕ
  pays : ∀ state label after, scheduler.invariant state →
    scheduler.machine.next state label = some after →
    (∀ t event, scheduler.event state label = some (t, event) →
      event.inOperation = false) →
    work after + 1 ≤ work state + allowance label
  called : ∀ state label after t event, scheduler.invariant state →
    scheduler.machine.next state label = some after →
    scheduler.event state label = some (t, event) →
    event.inOperation = true →
    work after ≤ work state + if event = .wakeup then wakeWork else 0
  internal : ∀ state label, diligence.internal state label → allowance label = 0
  exit : ∀ thread, allowance (scheduler.exit thread) = 0
  keeps : ∀ state label, allowance label = 0 → diligence.keeps state label

end Lifecycle
end Lpel
