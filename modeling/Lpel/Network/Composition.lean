import Lpel.Lib.Lifecycle
import Lpel.Network.Refinement
import Lpel.Network.Scheduling

/-!
# Tasks under a scheduler

A scheduler executes the functions of tasks that communicate through streams.  A
stream operation that has to block commits to it and calls `LpelTaskBlockStream`,
a task goes on in its stream operation when the scheduler executes it again, and
what a stream operation sends to another task is a wakeup.  Between its stream
operations a task may also yield.

The scheduler and the streams were modelled apart.  For a scheduler a wakeup comes
once for each block, at any time after the task has committed to it; for the
streams a blocked task returns once a wakeup was sent to it.  Here the two run
together, each providing what the other one assumes.
-/

namespace Lpel
namespace TaskNetwork

open Lifecycle (Phase Event Scheduler)

variable {τ ι α σ S L θ C : Type} {config : Config τ ι α σ}

/-- A scheduler with the streams and the functions of the tasks. -/
structure Runtime (config : Config τ ι α σ) (S : Type) where
  scheduler : S
  network : State config

/-- What happens in a step. -/
inductive RuntimeLabel (L θ C : Type)
  /-- The scheduler takes a step. -/
  | schedule (label : L)
  /-- The task on a thread goes on in a stream operation or enters one. -/
  | stream (thread : θ) (choice : C)

/-- The task is in its own function. -/
def State.isOutside (network : State config) (t : τ) : Bool :=
  match network.pc t with
  | .outside => true
  | _ => false

/-- The function of the task has returned. -/
def State.isDone (network : State config) (t : τ) : Bool :=
  match network.pc t, config.tasks.act t (network.process t) with
  | .outside, .exit => true
  | _, _ => false

theorem State.pc_of_isOutside
    {network : State config}
    {t : τ}
    (outside : network.isOutside t = true) :
    network.pc t = .outside := by
  unfold isOutside at outside
  split at outside
  case h_1 here => exact here
  case h_2 => cases outside

theorem State.isDone_iff
    {network : State config}
    {t : τ} :
    network.isDone t = true ↔ network.Done t := by
  unfold isDone Done
  split
  case h_1 here action => simp [here, action]
  case h_2 other =>
    constructor
    · intro impossible
      cases impossible
    · rintro ⟨here, action⟩
      exact absurd action (other here)

variable [DecidableEq τ]

/-- What an event of the scheduler means for the streams.  What a task does besides
its stream operations it does in its own function, and it blocks and is woken up in
stream operations only. -/
def State.react (network : State config) : τ × Event → Option (State config)
  | (_, .start) => some network
  | (t, .dispatch) => some (network.returnFromBlock t)
  | (t, .yield) => if network.isOutside t then some network else none
  | (t, .exit) => if network.isDone t then some network else none
  | (_, .commit) | (_, .block) | (_, .wakeup) => none

/-- The same where a step may be no event. -/
def State.reactTo (network : State config) :
    Option (τ × Event) → Option (State config)
  | none => some network
  | some event => network.react event

/-- What an operation on a stream asks of the scheduler. -/
def scheduling
    (scheduler : Scheduler τ S L θ C)
    (thread : θ)
    (choice : C) : Effect τ → Option L
  | .none => none
  | .commit => some (scheduler.commit thread)
  | .block => some (scheduler.block thread)
  | .unblock whom => some (scheduler.wakeup thread whom choice)

variable [DecidableEq ι]

/-- A step of the tasks under a scheduler. -/
def Runtime.next
    (scheduler : Scheduler τ S L θ C)
    (runtime : Runtime config S) :
    RuntimeLabel L θ C → Option (Runtime config S)
  | .schedule label =>
      match scheduler.machine.next runtime.scheduler label,
        runtime.network.reactTo (scheduler.event runtime.scheduler label) with
      | some after, some network => some { scheduler := after, network := network }
      | _, _ => none
  | .stream thread choice =>
      match scheduler.function runtime.scheduler thread with
      | none => none
      | some t =>
          match runtime.network.step t with
          | none => none
          | some (effect, network) =>
              match scheduling scheduler thread choice effect with
              | none => some { runtime with network := network }
              | some label =>
                  (scheduler.machine.next runtime.scheduler label).map
                    fun after => { scheduler := after, network := network }

/-- The tasks with their streams under a scheduler. -/
def runtimeMachine
    (scheduler : Scheduler τ S L θ C)
    (config : Config τ ι α σ) :
    Machine (Runtime config S) (RuntimeLabel L θ C) where
  init := fun runtime =>
    scheduler.machine.init runtime.scheduler ∧
      runtime.network = State.initial config
  next := Runtime.next scheduler

/-- The steps of the tasks under a scheduler, with what each of them requires. -/
inductive RuntimeStep
    (scheduler : Scheduler τ S L θ C)
    (runtime : Runtime config S) :
    RuntimeLabel L θ C → Runtime config S → Prop
  | schedule {label : L} {after : S} {network : State config} :
      scheduler.machine.next runtime.scheduler label = some after →
      runtime.network.reactTo (scheduler.event runtime.scheduler label) =
        some network →
      RuntimeStep scheduler runtime (.schedule label)
        { scheduler := after, network := network }
  | alone {thread : θ} {choice : C} {t : τ} {network : State config} :
      scheduler.function runtime.scheduler thread = some t →
      runtime.network.step t = some (.none, network) →
      RuntimeStep scheduler runtime (.stream thread choice)
        { runtime with network := network }
  | together {thread : θ} {choice : C} {t : τ} {effect : Effect τ}
      {network : State config} {label : L} {after : S} :
      scheduler.function runtime.scheduler thread = some t →
      runtime.network.step t = some (effect, network) →
      scheduling scheduler thread choice effect = some label →
      scheduler.machine.next runtime.scheduler label = some after →
      RuntimeStep scheduler runtime (.stream thread choice)
        { scheduler := after, network := network }

/-- Every step is one of these. -/
theorem runtimeNext_cases
    {scheduler : Scheduler τ S L θ C}
    {runtime after : Runtime config S}
    {label : RuntimeLabel L θ C}
    (taken : runtime.next scheduler label = some after) :
    RuntimeStep scheduler runtime label after := by
  cases label with
  | schedule label =>
      simp only [Runtime.next] at taken
      split at taken
      case h_1 stepped reacted =>
        obtain rfl := Option.some.inj taken
        exact .schedule stepped reacted
      case h_2 => cases taken
  | stream thread choice =>
      simp only [Runtime.next] at taken
      split at taken
      case h_1 => cases taken
      case h_2 t executes =>
        split at taken
        case h_1 => cases taken
        case h_2 effect network stepped =>
          split at taken
          case h_1 silent =>
            obtain rfl := Option.some.inj taken
            cases effect <;> cases silent
            exact .alone executes stepped
          case h_2 label asks =>
            obtain ⟨after, scheduled, rfl⟩ := Option.map_eq_some_iff.mp taken
            exact .together executes stepped asks scheduled

end TaskNetwork
end Lpel
