import Lpel.Network.Coupling

/-!
# What tasks under a scheduler compute

Every run of the tasks under a scheduler is a run of the scheduler and a run of the
streams, and so one of the processes over channels.  Whatever a stream operation
asks of the scheduler it can do, and a task that is executed in the middle of a
block finds its wakeup.
-/

namespace Lpel
namespace TaskNetwork

open Lifecycle (Phase Event Scheduler)

variable {τ ι α σ S L θ C : Type} [DecidableEq τ] [DecidableEq ι]
variable {config : Config τ ι α σ} {scheduler : Scheduler τ S L θ C}
variable {runtime after : Runtime config S}

/-- What is known of the reachable states. -/
structure RuntimeOk
    (scheduler : Scheduler τ S L θ C)
    (runtime : Runtime config S) : Prop where
  known : scheduler.invariant runtime.scheduler
  coupled : Coupled (scheduler.phase runtime.scheduler) runtime.network

namespace RuntimeOk

theorem initial
    (start : (runtimeMachine scheduler config).init runtime) :
    RuntimeOk scheduler runtime := by
  obtain ⟨known, created⟩ := scheduler.init _ start.1
  refine ⟨known, ?_⟩
  rw [funext created, start.2]
  exact Coupled.initial config

variable {thread : θ} {t : τ} {effect : Effect τ} {network : State config}

/-- The task on a thread executes its function. -/
theorem executes
    (ok : RuntimeOk scheduler runtime)
    (function : scheduler.function runtime.scheduler thread = some t) :
    (scheduler.phase runtime.scheduler t).executes = true :=
  (scheduler.executes _ t ok.known).mp ⟨thread, function⟩

/-- What a stream operation asks of the scheduler it can do, and it is the event
that the stream operation means. -/
theorem asks
    (ok : RuntimeOk scheduler runtime)
    (function : scheduler.function runtime.scheduler thread = some t)
    (stepped : runtime.network.step t = some (effect, network))
    {choice : C}
    {label : L}
    (asks : scheduling scheduler thread choice effect = some label) :
    scheduler.event runtime.scheduler label = effect.event t ∧
      (scheduler.machine.next runtime.scheduler label).isSome = true := by
  have executes := ok.executes function
  have seen := ok.coupled.streams.seen (step_cases stepped)
  cases effect with
  | none => cases asks
  | commit =>
      obtain rfl := Option.some.inj asks
      exact scheduler.commits _ thread t ok.known function
        (ok.coupled.running_of executes seen.1)
  | block =>
      obtain rfl := Option.some.inj asks
      obtain ⟨woken, is⟩ := ok.coupled.committed_of executes seen.1
      exact scheduler.blocks _ thread t woken ok.known function is
  | unblock whom =>
      obtain rfl := Option.some.inj asks
      obtain ⟨before, -, waits, unwoken, -⟩ := seen
      exact scheduler.wakes _ thread t whom choice ok.known function
        (ok.coupled.running_of executes before)
        (ok.coupled.awaits waits unwoken)

/-- A task on a thread that can go on in a stream operation is not kept from it. -/
theorem accepts
    (ok : RuntimeOk scheduler runtime)
    (function : scheduler.function runtime.scheduler thread = some t)
    (stepped : runtime.network.step t = some (effect, network))
    (choice : C) :
    (runtime.next scheduler (.stream thread choice)).isSome = true := by
  simp only [Runtime.next, function, stepped]
  split
  case h_1 => rfl
  case h_2 label asked =>
    rw [Option.isSome_map]
    exact (ok.asks function stepped asked).2

/-- Every step keeps the invariant. -/
theorem step
    (ok : RuntimeOk scheduler runtime)
    {label : RuntimeLabel L θ C}
    (taken : runtime.next scheduler label = some after) :
    RuntimeOk scheduler after := by
  cases runtimeNext_cases taken with
  | schedule stepped reacts =>
      obtain ⟨known, goes⟩ := scheduler.step _ _ _ ok.known stepped
      exact ⟨known, ok.coupled.reactTo goes reacts⟩
  | alone function stepped =>
      exact ⟨ok.known, ok.coupled.stepped (ok.executes function)
        (step_cases stepped) rfl⟩
  | together function stepped asked scheduled =>
      obtain ⟨known, goes⟩ := scheduler.step _ _ _ ok.known scheduled
      rw [(ok.asks function stepped asked).1] at goes
      exact ⟨known, ok.coupled.stepped (ok.executes function)
        (step_cases stepped) goes⟩

/-- A task that is executed returns from its block with a wakeup, or is in its own
function. -/
theorem dispatched
    (ok : RuntimeOk scheduler runtime)
    (ready : scheduler.phase runtime.scheduler t = .ready) :
    runtime.network.pc t = .outside ∨
      (runtime.network.pc t).isBlocked = true ∧ 0 < runtime.network.wake t := by
  have agrees := ok.coupled.agrees t
  rw [ready] at agrees
  exact agrees

/-- A blocked task that is executed finds its wakeup. -/
theorem woken
    (ok : RuntimeOk scheduler runtime)
    (ready : scheduler.phase runtime.scheduler t = .ready)
    (blocked : (runtime.network.pc t).isBlocked = true) :
    0 < runtime.network.wake t := by
  rcases ok.dispatched ready with outside | ⟨-, woken⟩
  · rw [outside] at blocked
    cases blocked
  · exact woken

end RuntimeOk

/-- The steps of the scheduler in a step of the runtime. -/
def Runtime.scheduled
    (scheduler : Scheduler τ S L θ C)
    (runtime : Runtime config S) : RuntimeLabel L θ C → List L
  | .schedule label => [label]
  | .stream thread choice =>
      match scheduler.function runtime.scheduler thread with
      | none => []
      | some t =>
          match runtime.network.step t with
          | none => []
          | some (effect, _) =>
              (scheduling scheduler thread choice effect).toList

/-- The steps of the streams in a step of the runtime. -/
def Runtime.streamed
    (scheduler : Scheduler τ S L θ C)
    (runtime : Runtime config S) : RuntimeLabel L θ C → List (Label τ)
  | .schedule label =>
      match scheduler.event runtime.scheduler label with
      | some (t, .dispatch) =>
          if (runtime.network.pc t).isBlocked then [.resume t] else []
      | _ => []
  | .stream thread _ =>
      match scheduler.function runtime.scheduler thread with
      | none => []
      | some t => [.step t]

/-- Tasks under a scheduler refine the scheduler. -/
def schedulerRefinement
    (scheduler : Scheduler τ S L θ C)
    (config : Config τ ι α σ) :
    Refinement (runtimeMachine scheduler config) scheduler.machine where
  invariant := RuntimeOk scheduler
  abs := Runtime.scheduler
  observe := Runtime.scheduled scheduler
  init _ start := ⟨RuntimeOk.initial start, start.1⟩
  step := by
    intro runtime label after ok taken
    refine ⟨ok.step taken, ?_⟩
    cases runtimeNext_cases taken with
    | schedule stepped =>
        exact Machine.run_cons_iff.mpr ⟨_, stepped, rfl⟩
    | alone function stepped =>
        simp only [Runtime.scheduled, function, stepped]
        rfl
    | together function stepped asked scheduled =>
        simp only [Runtime.scheduled, function, stepped, asked]
        exact Machine.run_cons_iff.mpr ⟨_, scheduled, rfl⟩

/-- A step of the scheduler is a return from a block, or none of the streams. -/
theorem RuntimeOk.run_streamed
    (ok : RuntimeOk scheduler runtime)
    {label : L}
    {state : S}
    {network : State config}
    (stepped : scheduler.machine.next runtime.scheduler label = some state)
    (reacts : runtime.network.reactTo
      (scheduler.event runtime.scheduler label) = some network) :
    (TaskNetwork.machine config).run runtime.network
      (runtime.streamed scheduler (.schedule label)) = some network := by
  obtain ⟨-, goes⟩ := scheduler.step _ _ _ ok.known stepped
  simp only [Runtime.streamed]
  split
  case h_1 t dispatches =>
    rw [dispatches] at goes reacts
    obtain rfl := Option.some.inj reacts
    obtain ⟨goes, -⟩ := Lifecycle.next_iff.mp (Lifecycle.run_toList_iff.mp goes)
    have ready := Phase.ready_of_dispatch goes
    split
    case isTrue blocked =>
      have woken := ok.woken ready blocked
      refine Machine.run_cons_iff.mpr ⟨_, ?_, rfl⟩
      simp only [TaskNetwork.machine, TaskNetwork.next, blocked, woken, and_self,
        if_true]
    case isFalse active =>
      rw [returnFromBlock_of_not_isBlocked _ t (by simpa using active)]
      rfl
  case h_2 other =>
    cases is : scheduler.event runtime.scheduler label with
    | none =>
        rw [is] at reacts
        exact reacts
    | some event =>
        obtain ⟨t, event⟩ := event
        rw [is] at reacts
        cases event with
        | dispatch => exact absurd is (other t)
        | start => exact reacts
        | yield | exit =>
            obtain ⟨-, same⟩ := Option.ite_none_right_eq_some.mp reacts
            exact same
        | commit | block | wakeup => cases reacts

/-- Tasks under a scheduler refine the streams. -/
def streamsRefinement
    (scheduler : Scheduler τ S L θ C)
    (config : Config τ ι α σ) :
    Refinement (runtimeMachine scheduler config) (TaskNetwork.machine config) where
  invariant := RuntimeOk scheduler
  abs := Runtime.network
  observe := Runtime.streamed scheduler
  init _ start := ⟨RuntimeOk.initial start, start.2⟩
  step := by
    intro runtime label after ok taken
    refine ⟨ok.step taken, ?_⟩
    cases runtimeNext_cases taken with
    | schedule stepped reacts => exact ok.run_streamed stepped reacts
    | alone function stepped | together function stepped =>
        simp only [Runtime.streamed, function]
        refine Machine.run_cons_iff.mpr ⟨_, ?_, rfl⟩
        simp only [TaskNetwork.machine, TaskNetwork.next, stepped,
          Option.map_some]

/-- Tasks under a scheduler refine the processes over channels. -/
def processesRefinement
    (scheduler : Scheduler τ S L θ C)
    (config : Config τ ι α σ) :
    Refinement (runtimeMachine scheduler config)
      (config.tasks.machine config.capacity) :=
  (streamsRefinement scheduler config).trans (TaskNetwork.refinement config)

/-- Every run is one of the scheduler and one of the processes over channels. -/
theorem run_refines
    {start : Runtime config S}
    {labels : List (RuntimeLabel L θ C)}
    (initial : (runtimeMachine scheduler config).init start)
    (executed : (runtimeMachine scheduler config).run start labels =
      some runtime) :
    RuntimeOk scheduler runtime ∧
    scheduler.machine.run start.scheduler
        ((schedulerRefinement scheduler config).trace start labels) =
      some runtime.scheduler ∧
    (config.tasks.machine config.capacity).run config.tasks.initial
        ((processesRefinement scheduler config).trace start labels) =
      some runtime.network.abs := by
  obtain ⟨known, -⟩ := (schedulerRefinement scheduler config).init start initial
  obtain ⟨ok, runs⟩ := (schedulerRefinement scheduler config).run known executed
  obtain ⟨known', starts⟩ := (processesRefinement scheduler config).init start
    initial
  obtain ⟨-, runs'⟩ := (processesRefinement scheduler config).run known' executed
  rw [show (processesRefinement scheduler config).abs start =
    config.tasks.initial from starts] at runs'
  exact ⟨ok, runs, runs'⟩

/-- What a run amounts to. -/
theorem abs_of_reachable
    (reached : (runtimeMachine scheduler config).Reachable runtime) :
    ∃ steps, (config.tasks.machine config.capacity).run config.tasks.initial
      steps = some runtime.network.abs := by
  obtain ⟨_, steps, rfl, runs⟩ :=
    ((processesRefinement scheduler config).reachable reached).2.exists_run
  exact ⟨steps, runs⟩

end TaskNetwork
end Lpel
