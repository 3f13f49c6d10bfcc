import Lpel.Lib.Potential
import Lpel.Network.Outcome

/-!
# How long tasks under a scheduler take

Every step does some of the work that is left: the scheduler comes closer to waiting,
or a task comes closer to the end of a stream operation.  New work comes from the
buffer operations, which are the steps of the processes, and from outside.  So for
processes that end, a run is as long as there are steps from outside to extend it,
and without them it comes to the end that the processes determine.
-/

namespace Lpel
namespace TaskNetwork

open Lifecycle (Phase Event Scheduler Diligence Costs)

variable {τ ι α σ S L θ C : Type} {config : Config τ ι α σ}

/-! ## The work of the tasks -/

/-- The steps of a task to the end of its stream operation, or to its buffer
operation, with the wakeup that it may owe. -/
def callWork (wakeWork : ℕ) : CallPc → ℕ
  | .blocked | .buffer => 0
  | .toBlock => 1
  | .unblock => wakeWork + 3
  | .lookup => wakeWork + 4
  | .release => wakeWork + 5

/-- The steps of a task to its next buffer operation. -/
def taskWork (wakeWork : ℕ) : TaskPc ι → ℕ
  | .outside => 2
  | .write _ pc | .read _ pc => callWork wakeWork pc

/-- What the scheduler gets to do. -/
def effectWork (wakeWork : ℕ) : Effect τ → ℕ
  | .unblock _ => wakeWork
  | .none | .commit | .block => 0

/-- What a buffer operation is worth. -/
def operationWork (wakeWork : ℕ) : ℕ :=
  wakeWork + 6

/-- The work that is left to the tasks, up to their next buffer operations. -/
def tasksWork [Fintype τ] (wakeWork : ℕ) (state : State config) : ℕ :=
  ∑ t, taskWork wakeWork (state.pc t)

/-- At the start every task is in its own function. -/
theorem work_initial
    [Fintype τ]
    (wakeWork : ℕ)
    (config : Config τ ι α σ) :
    tasksWork wakeWork (State.initial config) = 2 * Fintype.card τ := by
  simp [tasksWork, State.initial, taskWork, Nat.mul_comm]

section Tasks

variable [DecidableEq τ] {wakeWork : ℕ}

/-- A task that returns from a block has come no further. -/
theorem work_returnFromBlock
    [Fintype τ]
    (state : State config)
    (t : τ) :
    tasksWork wakeWork (state.returnFromBlock t) = tasksWork wakeWork state := by
  have moved (position : TaskPc ι)
      (same : taskWork wakeWork position = taskWork wakeWork (state.pc t)) :
      ∑ u, taskWork wakeWork (Function.update state.pc t position u) =
        ∑ u, taskWork wakeWork (state.pc u) := by
    have changed := sum_update (taskWork wakeWork) state.pc t position
    omega
  unfold tasksWork State.returnFromBlock
  dsimp only
  split
  case h_1 i position => exact moved _ (by rw [position]; rfl)
  case h_2 i position => exact moved _ (by rw [position]; rfl)
  case h_3 => rfl

/-- An event of the scheduler brings no task further. -/
theorem work_reactTo
    [Fintype τ]
    {state after : State config}
    {event : Option (τ × Event)}
    (reacts : state.reactTo event = some after) :
    tasksWork wakeWork after = tasksWork wakeWork state := by
  cases event with
  | none =>
      obtain rfl := Option.some.inj reacts
      rfl
  | some event =>
      obtain ⟨t, event⟩ := event
      cases event with
      | start =>
          obtain rfl := Option.some.inj reacts
          rfl
      | dispatch =>
          obtain rfl := Option.some.inj reacts
          exact work_returnFromBlock state t
      | yield | exit =>
          obtain ⟨-, same⟩ := Option.ite_none_right_eq_some.mp reacts
          obtain rfl := Option.some.inj same
          rfl
      | commit | block | wakeup => cases reacts

variable [DecidableEq ι]
variable {state after : State config} {t : τ}

/-- A step of a task pays for what the scheduler gets to do, where it is not a
buffer operation. -/
theorem work_stepped
    (wakeWork : ℕ)
    {effect : Effect τ}
    (stepped : Stepped state t effect after) :
    ∃ position, after.pc = Function.update state.pc t position ∧
      taskWork wakeWork position + effectWork wakeWork effect + 1 ≤
        taskWork wakeWork (state.pc t) + operationWork wakeWork *
          (if (state.pc t).atBuffer then [t] else []).length := by
  cases stepped with
  | reserveFull outside | reserveCell outside | reserveNothing outside
  | reserveItem outside | reserveEmpty outside =>
      refine ⟨_, rfl, ?_⟩
      rw [outside]
      simp [taskWork, callWork, effectWork, TaskPc.atBuffer]
  | blockWriter position | blockReader position | lookupReader position
  | lookupWriter position | unblockReader position | unblockWriter position =>
      refine ⟨_, rfl, ?_⟩
      rw [position]
      simp only [taskWork, callWork, effectWork, TaskPc.atBuffer]
      simp <;> omega
  | put position =>
      refine ⟨_, rfl, ?_⟩
      rw [position]
      simp [taskWork, callWork, effectWork, TaskPc.atBuffer, operationWork]
  | pop position action popped =>
      obtain ⟨item, -, rfl⟩ := Option.map_eq_some_iff.mp popped
      refine ⟨_, rfl, ?_⟩
      rw [position]
      simp [taskWork, callWork, effectWork, TaskPc.atBuffer, operationWork]
  | releaseItem position =>
      refine ⟨_, rfl, ?_⟩
      rw [position]
      split <;> simp [taskWork, callWork, effectWork, TaskPc.atBuffer]
  | @releaseSpace i position =>
      unfold State.releaseSpace
      split
      · refine ⟨_, rfl, ?_⟩
        rw [position]
        split <;> simp [taskWork, callWork, effectWork, TaskPc.atBuffer]
      · refine ⟨_, rfl, ?_⟩
        rw [position]
        simp [taskWork, callWork, effectWork, TaskPc.atBuffer]

end Tasks

/-! ## The tasks under a scheduler -/

/-- Processes that end after a bounded number of steps in all. -/
def Terminating
    [DecidableEq τ]
    [DecidableEq ι]
    (tasks : Processes τ ι α σ)
    (capacity : ι → Option ℕ)
    (bound : ℕ) : Prop :=
  ∀ steps state, (tasks.machine capacity).run tasks.initial steps = some state →
    steps.length ≤ bound

/-- Processes that end have an outcome. -/
theorem Terminating.exists_outcome
    [DecidableEq τ]
    [DecidableEq ι]
    {tasks : Processes τ ι α σ}
    {capacity : ι → Option ℕ}
    {bound : ℕ}
    (terminating : Terminating tasks capacity bound) :
    ∃ steps outcome,
      (tasks.machine capacity).run tasks.initial steps = some outcome ∧
      (tasks.machine capacity).Stuck outcome := by
  obtain ⟨steps, outcome, -, runs, stuck⟩ :=
    Machine.exists_complete_run (tasks.machine capacity) (fun _ => True) bound
      tasks.initial fun steps state _ executed => terminating steps state executed
  exact ⟨steps, outcome, runs, fun t => stuck t trivial⟩

section Runtime

variable [DecidableEq τ] {scheduler : Scheduler τ S L θ C}
variable {diligence : Diligence scheduler}

/-- Whether some thread outside, or the function of a task, calls the scheduler. -/
def RuntimeLabel.isCall (isCall : L → Bool) : RuntimeLabel L θ C → Bool
  | .schedule label => isCall label
  | .stream _ _ => false

/-- The allowance for a step. -/
def stepAllowance (costs : Costs diligence) : RuntimeLabel L θ C → ℕ
  | .schedule label => costs.allowance label
  | .stream _ _ => 0

/-- Where every call has an allowance, a step without one is no call. -/
theorem isCall_of_stepAllowance
    (costs : Costs diligence)
    {isCall : L → Bool}
    (calls : ∀ label, costs.allowance label = 0 → isCall label = false)
    {label : RuntimeLabel L θ C}
    (free : stepAllowance costs label = 0) :
    label.isCall isCall = false := by
  cases label with
  | schedule label => exact calls label free
  | stream => rfl

/-- Only calls have an allowance, and so much. -/
theorem sum_allowance_le
    (costs : Costs diligence)
    {isCall : L → Bool}
    {price : ℕ}
    (bounded : ∀ label, costs.allowance label ≤ if isCall label then price else 0)
    (labels : List (RuntimeLabel L θ C)) :
    (labels.map (stepAllowance costs)).sum ≤
      price * labels.countP (RuntimeLabel.isCall isCall) := by
  induction labels with
  | nil => simp
  | cons label labels inductionHypothesis =>
      have own : stepAllowance costs label ≤
          if label.isCall isCall then price else 0 := by
        cases label with
        | schedule label => exact bounded label
        | stream => exact Nat.zero_le _
      rw [List.map_cons, List.sum_cons, List.countP_cons, Nat.mul_add]
      split at own
      case isTrue calls =>
        rw [if_pos calls]
        omega
      case isFalse calls =>
        rw [if_neg calls]
        omega

/-- The work that is left. -/
def Runtime.work
    [Fintype τ]
    (costs : Costs diligence)
    (runtime : Runtime config S) : ℕ :=
  costs.work runtime.scheduler + tasksWork costs.wakeWork runtime.network

variable [DecidableEq ι] {runtime after : Runtime config S}

/-- A step of a task amounts to one of its process in its buffer operation. -/
theorem observe_stream
    {thread : θ}
    {t : τ}
    (function : scheduler.function runtime.scheduler thread = some t)
    (choice : C) :
    (processesRefinement scheduler config).observe runtime
        (.stream thread choice) =
      if (runtime.network.pc t).atBuffer then [t] else [] := by
  change (TaskNetwork.refinement config).trace runtime.network
    (runtime.streamed scheduler (.stream thread choice)) = _
  simp only [Runtime.streamed, function, Refinement.trace]
  split <;> simp [TaskNetwork.refinement, State.observe]

/-- What a stream operation asks of the scheduler is paid for by the task. -/
theorem RuntimeOk.work_asked
    (ok : RuntimeOk scheduler runtime)
    (costs : Costs diligence)
    {thread : θ}
    {choice : C}
    {t : τ}
    {effect : Effect τ}
    {network : State config}
    {label : L}
    {state : S}
    (function : scheduler.function runtime.scheduler thread = some t)
    (stepped : runtime.network.step t = some (effect, network))
    (asked : scheduling scheduler thread choice effect = some label)
    (scheduled : scheduler.machine.next runtime.scheduler label = some state) :
    costs.work state ≤
      costs.work runtime.scheduler + effectWork costs.wakeWork effect := by
  have event := (ok.asks function stepped asked).1
  cases effect with
  | none => cases asked
  | commit | block | unblock whom =>
      exact costs.called _ _ _ _ _ ok.known scheduled event rfl

variable [Fintype τ]

/-- Every step is paid for by the work that it does, by the step of a process that
it amounts to, or by the allowance for a step from outside. -/
theorem RuntimeOk.pays
    (ok : RuntimeOk scheduler runtime)
    (costs : Costs diligence)
    {label : RuntimeLabel L θ C}
    (taken : runtime.next scheduler label = some after) :
    after.work costs + 1 ≤ runtime.work costs +
      operationWork costs.wakeWork *
        ((processesRefinement scheduler config).observe runtime label).length +
      stepAllowance costs label := by
  have onStream {thread : θ} (choice : C) {t : τ} {effect : Effect τ}
      {network : State config}
      (function : scheduler.function runtime.scheduler thread = some t)
      (stepped : runtime.network.step t = some (effect, network)) :
      tasksWork costs.wakeWork network + effectWork costs.wakeWork effect + 1 ≤
        tasksWork costs.wakeWork runtime.network +
          operationWork costs.wakeWork *
            ((processesRefinement scheduler config).observe runtime
              (.stream thread choice)).length := by
    obtain ⟨position, pc, pays⟩ := work_stepped costs.wakeWork
      (step_cases stepped)
    have changed := sum_update (taskWork costs.wakeWork) runtime.network.pc t
      position
    rw [← pc] at changed
    rw [observe_stream function]
    unfold tasksWork
    omega
  cases runtimeNext_cases taken with
  | @schedule label state network stepped reacts =>
      have paid := costs.pays _ _ _ ok.known stepped (by
        intro t event is
        rw [is] at reacts
        cases event with
        | commit | block | wakeup => cases reacts
        | start | dispatch | yield | exit => rfl)
      have same : tasksWork costs.wakeWork network =
          tasksWork costs.wakeWork runtime.network :=
        work_reactTo reacts
      simp only [Runtime.work, stepAllowance]
      omega
  | @alone thread choice t network function stepped =>
      have paid := onStream choice function stepped
      simp only [Runtime.work, effectWork] at paid ⊢
      omega
  | @together thread choice t effect network label state function stepped asked
      scheduled =>
      have paid := onStream choice function stepped
      have asks := ok.work_asked costs function stepped asked scheduled
      simp only [Runtime.work]
      omega

/-- A run is no longer than what the processes and the steps from outside pay for. -/
theorem runs_bounded
    (costs : Costs diligence)
    {bound : ℕ}
    (terminating : Terminating config.tasks config.capacity bound)
    {start : Runtime config S}
    {labels : List (RuntimeLabel L θ C)}
    (initial : (runtimeMachine scheduler config).init start)
    (executed : (runtimeMachine scheduler config).run start labels =
      some runtime) :
    labels.length ≤
      costs.work start.scheduler + 2 * Fintype.card τ +
        operationWork costs.wakeWork * bound +
          (labels.map (stepAllowance costs)).sum := by
  obtain ⟨known, starts⟩ := (processesRefinement scheduler config).init start
    initial
  obtain ⟨-, runs⟩ := (processesRefinement scheduler config).run known executed
  rw [show (processesRefinement scheduler config).abs start =
    config.tasks.initial from starts] at runs
  have short := terminating _ _ runs
  have paid := (processesRefinement scheduler config).length_le
    (Runtime.work costs) (operationWork costs.wakeWork) (stepAllowance costs)
    (fun _ _ _ ok taken => ok.1.pays costs taken) known executed
  have priced := Nat.mul_le_mul_left (operationWork costs.wakeWork) short
  have begins := work_initial costs.wakeWork config
  rw [← initial.2] at begins
  simp only [Runtime.work] at paid
  omega

/-- From a state of a run, what the threads do by themselves comes to an end. -/
theorem exists_quiescent_run
    (costs : Costs diligence)
    {bound : ℕ}
    (terminating : Terminating config.tasks config.capacity bound)
    (reached : (runtimeMachine scheduler config).ReachableBy
      (Runtime.keepsGoing diligence) runtime) :
    ∃ labels final, (∀ label ∈ labels, stepAllowance costs label = 0) ∧
      (runtimeMachine scheduler config).run runtime labels = some final ∧
      (runtimeMachine scheduler config).ReachableBy
        (Runtime.keepsGoing diligence) final ∧
      final.Quiescent diligence := by
  obtain ⟨steps, before⟩ := abs_of_reachable reached.reachable
  have ok := (RuntimeGoesOn.ofReachable reached).ok
  have known : (processesRefinement scheduler config).invariant runtime :=
    ⟨ok, ok.coupled.streams⟩
  obtain ⟨labels, final, free, executed, stops⟩ :=
    Machine.exists_complete_run (runtimeMachine scheduler config)
      (fun label => stepAllowance costs label = 0)
      (runtime.work costs + operationWork costs.wakeWork * bound) runtime (by
        intro labels final free executed
        have paid := (processesRefinement scheduler config).length_le
          (Runtime.work costs) (operationWork costs.wakeWork)
          (stepAllowance costs) (fun _ _ _ ok taken => ok.1.pays costs taken)
          known executed
        obtain ⟨-, runs⟩ := (processesRefinement scheduler config).run known
          executed
        have short := terminating
          (steps ++ (processesRefinement scheduler config).trace runtime labels) _
          (by
            rw [Machine.run_append, before]
            exact runs)
        have nothing : (labels.map (stepAllowance costs)).sum = 0 := by
          rw [List.sum_eq_zero]
          simpa using free
        rw [List.length_append] at short
        have priced := Nat.mul_le_mul_left (operationWork costs.wakeWork)
          ((Nat.le_add_left ..).trans short)
        omega)
  refine ⟨labels, final, free, executed, reached.extend ?_ executed,
    { internal := fun label internal =>
        stops (.schedule label) (costs.internal _ _ internal)
      stream := fun thread choice => stops (.stream thread choice) rfl
      exit := fun thread =>
        stops (.schedule (scheduler.exit thread)) (costs.exit thread) }⟩
  intro label member before
  cases label with
  | schedule label => exact costs.keeps _ _ (free _ member)
  | stream => trivial

/-- A run in which all tasks were started can be completed by the threads alone, and
then it has come to the outcome of the processes. -/
theorem completes
    [Nonempty C]
    (costs : Costs diligence)
    {bound : ℕ}
    (terminating : Terminating config.tasks config.capacity bound)
    {steps : List τ}
    {outcome : Processes.State τ ι α σ}
    (runs : (config.tasks.machine config.capacity).run config.tasks.initial steps =
      some outcome)
    (stuck : (config.tasks.machine config.capacity).Stuck outcome)
    (reached : (runtimeMachine scheduler config).ReachableBy
      (Runtime.keepsGoing diligence) runtime)
    (all : runtime.AllStarted scheduler) :
    ∃ labels final, (∀ label ∈ labels, stepAllowance costs label = 0) ∧
      (runtimeMachine scheduler config).run runtime labels = some final ∧
      final.Quiescent diligence ∧ final.network.abs = outcome := by
  obtain ⟨labels, final, free, executed, reached', quiescent⟩ :=
    exists_quiescent_run costs terminating reached
  refine ⟨labels, final, free, executed, quiescent, ?_⟩
  have known := RuntimeGoesOn.ofReachable reached'
  have all' := (RuntimeGoesOn.ofReachable reached).ok.allStarted_run all executed
  obtain ⟨steps', runs'⟩ := abs_of_reachable reached'.reachable
  exact (Processes.commutes config.tasks config.capacity).stuck_unique runs stuck
    runs' (known.stuck quiescent all' fun _ _ _ => rfl)

end Runtime

section Example

/-- What has happened so far, at most that two items were written and read. -/
structure HandOverSo (state : Processes.State Bool Unit ℕ ℕ) : Prop where
  written : (state.sent ()).length = state.process true
  some : state.process true ≤ 2
  read : state.received () ≤ (state.sent ()).length

/-- Every step writes an item or reads one. -/
theorem HandOverSo.step
    {capacity : Unit → Option ℕ}
    {state after : Processes.State Bool Unit ℕ ℕ}
    {t : Bool}
    (so : HandOverSo state)
    (taken : handOver.next capacity state t = .some after) :
    HandOverSo after ∧ (after.sent ()).length + after.received () =
      (state.sent ()).length + state.received () + 1 := by
  obtain ⟨written, some, read⟩ := so
  cases Processes.next_cases taken with
  | @write i item goesOn action =>
      obtain rfl : true = t := handOver.writes action
      simp only [handOver] at action
      split at action
      case isTrue more =>
        cases action
        refine ⟨⟨?_, ?_, ?_⟩, ?_⟩ <;>
          simp only [Function.update_self, List.length_append,
            List.length_singleton] <;> omega
      case isFalse => cases action
  | @read i goesOn item action first =>
      obtain rfl : false = t := handOver.reads action
      obtain rfl : i = () := rfl
      have inside := (List.getElem?_eq_some_iff.mp first).1
      refine ⟨⟨?_, ?_, ?_⟩, ?_⟩ <;> simp <;> omega

/-- The writer writes two items and the reader reads them. -/
theorem handOver_terminating (capacity : Unit → Option ℕ) :
    Terminating handOver capacity 4 := by
  intro steps state executed
  have counted : ∀ (steps : List Bool)
      (before : Processes.State Bool Unit ℕ ℕ), HandOverSo before →
      (handOver.machine capacity).run before steps = some state →
        (before.sent ()).length + before.received () + steps.length ≤ 4 := by
    intro steps
    induction steps with
    | nil =>
        rintro before ⟨written, some, read⟩ -
        simp only [List.length_nil]
        omega
    | cons t steps inductionHypothesis =>
        intro before so executed
        obtain ⟨middle, taken, rest⟩ := Machine.run_cons_iff.mp executed
        obtain ⟨so', length⟩ := so.step taken
        have later := inductionHypothesis middle so' rest
        rw [List.length_cons]
        omega
  have short := counted steps handOver.initial ⟨rfl, by decide, le_refl _⟩
    executed
  simpa [Processes.initial] using short

end Example

end TaskNetwork
end Lpel
