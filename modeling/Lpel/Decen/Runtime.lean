import Lpel.Decen.Stacks
import Lpel.Decen.Work
import Lpel.Network.Progress

/-!
# The decentralised runtime

The workers and the wrappers execute tasks that communicate through streams.  They are
a scheduler under which every task goes through its life cycle, so what is known of
tasks under a scheduler holds here: the runtime refines the processes over channels,
its outcome depends neither on the number of workers nor on placement, priorities,
migration or the order of the steps, and for processes that end it comes to this
outcome.

A task goes on in its stream operation when a worker switches back to its stack.  With
`LPEL_MIG_WAIT_PROP` a task may be sent away in the dispatcher on its own stack, and
then another worker switches to a stack that was not left.  The runs considered here
are those without such a step, as are all runs under the other mechanisms.
-/

namespace Lpel
namespace Decen

open TaskNetwork (Runtime RuntimeLabel RuntimeOk RuntimeGoesOn)

variable {τ ι α σ : Type} {n : ℕ} {config : TaskNetwork.Config τ ι α σ}

/-- Tasks over streams that were created with the given sizes.  All of them use
`e_sem`. -/
def createdConfig (tasks : Processes τ ι α σ) (size : ι → StreamSize) :
    TaskNetwork.Config τ ι α σ where
  impl := ringBuffer α
  size := size
  bounded _ := true
  finite_bounded _ _ := rfl
  tasks := tasks

variable [DecidableEq τ]

/-! ## Conditions on the steps -/

/-- No task is sent away in the dispatcher on its own stack. -/
def keepsStacks
    (mechanism : Mechanism)
    (runtime : Runtime config (Workers τ n)) :
    RuntimeLabel (WorkerLabel τ n) (Context τ n) (Option (Fin n)) → Bool
  | .schedule label => !sendsItselfAway mechanism runtime.scheduler label
  | .stream _ _ => true

/-- Moreover no worker is told to terminate, and no wrapper is given a target. -/
def undisturbed
    (mechanism : Mechanism)
    (runtime : Runtime config (Workers τ n))
    (label : RuntimeLabel (WorkerLabel τ n) (Context τ n) (Option (Fin n))) :
    Prop :=
  keepsStacks mechanism runtime label = true ∧
    runtime.keepsGoing (workersDiligence τ n mechanism) label

/-- The step does not tell a worker to terminate. -/
def goesOn :
    RuntimeLabel (WorkerLabel τ n) (Context τ n) (Option (Fin n)) → Bool
  | .schedule label => label.goesOn
  | .stream _ _ => true

/-- Only `LPEL_MIG_WAIT_PROP` sends a task away when it becomes ready. -/
theorem sendsItselfAway_of_plain
    {mechanism : Mechanism}
    (plain : mechanism ≠ .waitProp)
    (workers : Workers τ n)
    (label : WorkerLabel τ n) :
    sendsItselfAway mechanism workers label = false := by
  have stays (target : Option (Fin n)) (wc : Context τ n) :
      sendsAway mechanism target wc = false := by
    cases mechanism <;> first | rfl | exact absurd rfl plain
  cases label with
  | thread self target =>
      simp only [sendsItselfAway]
      split <;> simp [stays]
  | spmdWakeup => simp [sendsItselfAway, stays]
  | _ => rfl

/-- Without `LPEL_MIG_WAIT_PROP` only the termination messages are excluded. -/
theorem undisturbed_of_goesOn
    {mechanism : Mechanism}
    (plain : mechanism ≠ .waitProp)
    (runtime : Runtime config (Workers τ n))
    {label : RuntimeLabel (WorkerLabel τ n) (Context τ n) (Option (Fin n))}
    (goes : goesOn label = true) :
    undisturbed mechanism runtime label := by
  cases label with
  | schedule label =>
      refine ⟨?_, keepsGoing_of_goesOn plain runtime.scheduler goes⟩
      simp [keepsStacks, sendsItselfAway_of_plain plain]
  | stream => exact ⟨rfl, trivial⟩

variable [DecidableEq ι]

/-- As long as no task is sent away in the dispatcher on its own stack, the tasks in
the dispatchers are at home. -/
theorem stacks_of_runBy
    {mechanism : Mechanism}
    {start runtime : Runtime config (Workers τ n)}
    {labels :
      List (RuntimeLabel (WorkerLabel τ n) (Context τ n) (Option (Fin n)))}
    (initial : (TaskNetwork.runtimeMachine (workersScheduler τ n mechanism)
      config).init start)
    (executed : (TaskNetwork.runtimeMachine (workersScheduler τ n mechanism)
      config).runBy (keepsStacks mechanism) start labels = some runtime) :
    Stacks runtime.scheduler := by
  suffices held : RuntimeOk (workersScheduler τ n mechanism) runtime ∧
      Stacks runtime.scheduler from held.2
  refine Machine.ReachableBy.invariant
    (?_ : ∀ runtime, (TaskNetwork.runtimeMachine (workersScheduler τ n mechanism)
      config).init runtime → RuntimeOk (workersScheduler τ n mechanism) runtime ∧
        Stacks runtime.scheduler) ?_
    (Machine.ReachableBy.runBy (.init initial) executed)
  · intro start initial
    refine ⟨RuntimeOk.initial initial, ?_⟩
    obtain ⟨⟨home, unset, scheduler⟩, -⟩ := initial
    rw [scheduler]
    exact stacks_workersStart home unset
  · rintro before label after ⟨ok, held⟩ stays taken
    refine ⟨ok.step taken, ?_⟩
    obtain ⟨place, core⟩ : before.scheduler.Conserved := ok.known
    cases TaskNetwork.runtimeNext_cases taken with
    | schedule stepped =>
        exact held.next core (by simpa [keepsStacks] using stays) stepped
    | alone => exact held
    | @together thread choice t effect network label after function stepped asked
        scheduled =>
        have home : sendsItselfAway mechanism before.scheduler label = false := by
          cases effect <;> cases asked <;> rfl
        exact held.next core home scheduled

/-! ## What the runtime computes -/

/-- Every run is a run of the workers and one of the processes over channels; no
assertion fails, neither of the workers nor on the buffers; a task on a thread that
can go on in a stream operation is not kept from it; a worker that switches to a
blocked task finds its wakeup; and every task is executed by one worker at a time. -/
theorem runtimeRefinesProcesses
    (config : TaskNetwork.Config τ ι α σ)
    (n : ℕ)
    (mechanism : Mechanism)
    (start runtime : Runtime config (Workers τ n))
    (labels :
      List (RuntimeLabel (WorkerLabel τ n) (Context τ n) (Option (Fin n))))
    (initial : (TaskNetwork.runtimeMachine (workersScheduler τ n mechanism)
      config).init start)
    (executed : (TaskNetwork.runtimeMachine (workersScheduler τ n mechanism)
      config).runBy (keepsStacks mechanism) start labels = some runtime) :
    (workersMachine τ n mechanism).run start.scheduler
        ((TaskNetwork.schedulerRefinement (workersScheduler τ n mechanism)
          config).trace start labels) = some runtime.scheduler ∧
    (config.tasks.machine config.capacity).run config.tasks.initial
        ((TaskNetwork.processesRefinement (workersScheduler τ n mechanism)
          config).trace start labels) = some runtime.network.abs ∧
    runtime.scheduler.failed = false ∧
    runtime.network.BuffersServe ∧
    (∀ self t target, (runtime.scheduler.thread self).function = some t →
      (runtime.network.step t).isSome = true →
        (runtime.next (workersScheduler τ n mechanism)
          (.stream self target)).isSome = true) ∧
    (∀ self t, runtime.scheduler.thread self = .resume t →
      (runtime.network.pc t).isBlocked = true → 0 < runtime.network.wake t) ∧
    runtime.scheduler.OneStackOneWorker := by
  have held := stacks_of_runBy initial executed
  obtain ⟨ok, runs, runs'⟩ :=
    TaskNetwork.run_refines initial (Machine.run_of_runBy executed)
  obtain ⟨place, core⟩ : runtime.scheduler.Conserved := ok.known
  refine ⟨runs, runs', core.ok, ok.coupled.streams.buffersServe, ?_, ?_,
    held.oneStack core⟩
  · intro self t target function enabled
    obtain ⟨⟨effect, network⟩, stepped⟩ := Option.isSome_iff_exists.mp enabled
    exact ok.accepts function stepped target
  · intro self t position blocked
    exact ok.woken (core.phase_resume position).2 blocked

/-- Where no thread of the runtime can go on, no process could go on over channels
of the same capacities.  Another run of the same tasks with streams of the same
sizes, with any number of workers and any placement, priorities and migration, has
written no more to any stream; and where it cannot go on either, it has written
the same and its tasks are in the same states. -/
theorem runtimeOutcomeUnique
    {config config' : TaskNetwork.Config τ ι α σ}
    (sameTasks : config'.tasks = config.tasks)
    (sameSizes : config'.capacity = config.capacity)
    {n n' : ℕ}
    {mechanism mechanism' : Mechanism}
    {runtime : Runtime config (Workers τ n)}
    {runtime' : Runtime config' (Workers τ n')}
    (reached : (TaskNetwork.runtimeMachine (workersScheduler τ n mechanism)
      config).ReachableBy (undisturbed mechanism) runtime)
    (quiescent : runtime.Quiescent (workersDiligence τ n mechanism))
    (all : runtime.AllStarted (workersScheduler τ n mechanism))
    (reached' : (TaskNetwork.runtimeMachine (workersScheduler τ n' mechanism')
      config').ReachableBy (undisturbed mechanism') runtime') :
    (config.tasks.machine config.capacity).Stuck runtime.network.abs ∧
    (∀ i, runtime'.network.written i <+: runtime.network.written i) ∧
    (runtime'.Quiescent (workersDiligence τ n' mechanism') →
      runtime'.AllStarted (workersScheduler τ n' mechanism') →
        runtime'.network.abs = runtime.network.abs) := by
  have goes := reached.mono fun _ _ meets => meets.2
  have goes' := reached'.mono fun _ _ meets => meets.2
  obtain ⟨written, agree⟩ := TaskNetwork.outcomes_agree sameTasks
    (fun _ _ room => sameSizes ▸ room) goes goes'
  refine ⟨?_, written quiescent all, ?_⟩
  · exact (RuntimeGoesOn.ofReachable goes).stuck quiescent all fun _ _ _ => rfl
  · intro quiescent' all'
    exact (agree quiescent' all' fun _ i _ => congrFun sameSizes.symm i).2
      quiescent all

section Terminating

variable [Fintype τ]

/-- A run of the runtime has at most a bounded number of steps for each worker, each
task, each step of the processes and each call: nothing that the threads do by
themselves goes on forever. -/
theorem runtimeRunsBounded
    (config : TaskNetwork.Config τ ι α σ)
    (n : ℕ)
    (mechanism : Mechanism)
    (bound : ℕ)
    (terminating : TaskNetwork.Terminating config.tasks config.capacity bound)
    (start runtime : Runtime config (Workers τ n))
    (labels :
      List (RuntimeLabel (WorkerLabel τ n) (Context τ n) (Option (Fin n))))
    (initial : (TaskNetwork.runtimeMachine (workersScheduler τ n mechanism)
      config).init start)
    (executed : (TaskNetwork.runtimeMachine (workersScheduler τ n mechanism)
      config).runBy (keepsStacks mechanism) start labels = some runtime) :
    labels.length ≤ n + 3 * Fintype.card τ + 19 * bound +
      14 * labels.countP (RuntimeLabel.isCall WorkerLabel.isCall) := by
  have short := TaskNetwork.runs_bounded (workersCosts τ n mechanism) terminating
    initial (Machine.run_of_runBy executed)
  have calls := TaskNetwork.sum_allowance_le (workersCosts τ n mechanism)
    (fun label => le_refl (WorkerLabel.allowance label)) labels
  have begins : (workersCosts τ n mechanism).work start.scheduler =
      n + Fintype.card τ := by
    obtain ⟨⟨home, unset, scheduler⟩, -⟩ := initial
    rw [scheduler]
    exact work_workersStart home unset
  have price : TaskNetwork.operationWork (workersCosts τ n mechanism).wakeWork =
      19 :=
    rfl
  rw [begins, price] at short
  omega

/-- Processes that end have one outcome.  Whatever the buffer implementation, the
number of workers, the placement, the priorities, the migration other than
`LPEL_MIG_WAIT_PROP` and the order of the steps, a run of the runtime in which all
tasks were started and no worker was told to terminate can be completed by its threads
alone, and then it has come to this outcome. -/
theorem runtimeComputes
    (tasks : Processes τ ι α σ)
    (capacity : ι → Option ℕ)
    (bound : ℕ)
    (terminating : TaskNetwork.Terminating tasks capacity bound) :
    ∃ outcome : Processes.State τ ι α σ,
      (tasks.machine capacity).Stuck outcome ∧
      ∀ (config : TaskNetwork.Config τ ι α σ),
        config.tasks = tasks → config.capacity = capacity →
      ∀ (n : ℕ) (mechanism : Mechanism), mechanism ≠ .waitProp →
      ∀ runtime : Runtime config (Workers τ n),
        (TaskNetwork.runtimeMachine (workersScheduler τ n mechanism)
          config).ReachableBy (fun _ label => goesOn label = true) runtime →
        runtime.AllStarted (workersScheduler τ n mechanism) →
        ∃ labels final,
          (∀ label ∈ labels,
            RuntimeLabel.isCall WorkerLabel.isCall label = false) ∧
          (TaskNetwork.runtimeMachine (workersScheduler τ n mechanism)
            config).run runtime labels = some final ∧
          final.Quiescent (workersDiligence τ n mechanism) ∧
          final.network.abs = outcome := by
  obtain ⟨steps, outcome, runs, stuck⟩ := terminating.exists_outcome
  refine ⟨outcome, stuck, ?_⟩
  rintro config rfl rfl n mechanism plain runtime reached all
  have goes := reached.mono fun before _ goes =>
    (undisturbed_of_goesOn plain before goes).2
  obtain ⟨labels, final, free, executed, quiescent, same⟩ := TaskNetwork.completes
    (workersCosts τ n mechanism) terminating runs stuck goes all
  refine ⟨labels, final, ?_, executed, quiescent, same⟩
  intro label member
  exact TaskNetwork.isCall_of_stepAllowance (workersCosts τ n mechanism)
    (fun _ => WorkerLabel.isCall_of_allowance) (free label member)

end Terminating

section Example

open TaskNetwork (handOver handOver_terminating)

/-- A stream that holds one item. -/
abbrev handOverCreated : TaskNetwork.Config Bool Unit ℕ ℕ :=
  createdConfig handOver fun _ => .one

/-- A writer and a reader. -/
abbrev HandOver (n : ℕ) : Type :=
  Runtime handOverCreated (Workers Bool n)

/-- What happens in a step of them. -/
abbrev HandOverLabel (n : ℕ) : Type :=
  RuntimeLabel (WorkerLabel Bool n) (Context Bool n) (Option (Fin n))

/-- The writer is created for one worker and the reader for another one, or for
the same. -/
def handOverStart {n : ℕ} (writer reader : Fin n) : HandOver n where
  scheduler := workersStart (fun t => some (if t then writer else reader))
    (fun _ => 0)
  network := TaskNetwork.State.initial _

theorem init_handOverStart
    {n : ℕ}
    (mechanism : Mechanism)
    (writer reader : Fin n) :
    (TaskNetwork.runtimeMachine (workersScheduler Bool n mechanism)
      handOverCreated).init (handOverStart writer reader) :=
  ⟨⟨fun t => some (if t then writer else reader), fun _ => 0, rfl⟩, rfl⟩

/-- A number of steps of a worker in its loop. -/
def goOn {n : ℕ} (wid : Fin n) (times : ℕ) : List (HandOverLabel n) :=
  List.replicate times (.schedule (.thread (.worker wid) none))

/-- A number of steps of the task on a worker. -/
def operate {n : ℕ} (wid : Fin n) (times : ℕ) : List (HandOverLabel n) :=
  List.replicate times (.stream (.worker wid) none)

/-- Both tasks on one worker. -/
def onOneWorker (wid : Fin 1) : List (HandOverLabel 1) :=
  [.schedule (.start true), .schedule (.start false)] ++ goOn wid 6 ++
    operate wid 5 ++ goOn wid 3 ++ operate wid 7 ++ goOn wid 3 ++
    operate wid 4 ++ [.schedule (.exit (.worker wid))] ++ goOn wid 3 ++
    operate wid 2 ++ [.schedule (.exit (.worker wid))] ++ goOn wid 5

/-- Each task on a worker of its own.  The writer blocks on the full stream, and its
worker waits until the reader has woken it up. -/
def untilWoken (first second : Fin 2) : List (HandOverLabel 2) :=
  [.schedule (.start true), .schedule (.start false)] ++ goOn first 5 ++
    operate first 5 ++ goOn first 5 ++ goOn second 5 ++ operate second 5

/-- Each task stays on its worker. -/
def onTwoWorkers (first second : Fin 2) : List (HandOverLabel 2) :=
  untilWoken first second ++ goOn first 4 ++ operate first 2 ++
    [.schedule (.exit (.worker first))] ++ goOn first 5 ++ operate second 3 ++
    [.schedule (.exit (.worker second))] ++ goOn second 5

/-- The wakeup of the writer is answered with the worker of the reader. -/
def sentToReader (first second : Fin 2) : List (HandOverLabel 2) :=
  untilWoken first second ++ [.schedule (.thread (.worker first) (some second))] ++
    operate second 2 ++ goOn second 4 ++ operate second 4

/-- Both tasks have exited from the workers, and no worker can go on. -/
def isQuiescent {n : ℕ} (mechanism : Mechanism) (runtime : HandOver n) : Bool :=
  ([true, false].all fun t =>
    (runtime.scheduler.history t).started &&
      (runtime.scheduler.task t).workerContext.isWorker &&
      (runtime.scheduler.thread (.wrapper t)).function.isNone) &&
  (List.finRange n).all fun wid =>
    (runtime.scheduler.thread (.worker wid)).function.isNone &&
    (none :: (List.finRange n).map some).all fun target =>
      (workersNext mechanism runtime.scheduler
        (.thread (.worker wid) target)).isNone

/-- A thread that is not in the function of a task does nothing for one. -/
theorem quiescent_of_isQuiescent
    {n : ℕ}
    {mechanism : Mechanism}
    {runtime : HandOver n}
    (quiescent : isQuiescent mechanism runtime = true) :
    runtime.Quiescent (workersDiligence Bool n mechanism) ∧
      runtime.AllStarted (workersScheduler Bool n mechanism) := by
  simp only [isQuiescent, Bool.and_eq_true, List.all_eq_true,
    Option.isNone_iff_eq_none] at quiescent
  obtain ⟨onWorkers, stuck⟩ := quiescent
  have here (t : Bool) := onWorkers t (by cases t <;> simp)
  have only : ∀ wc, runtime.scheduler.Uses wc → ∃ wid, wc = .worker wid := by
    rintro (wid | u) uses
    · exact ⟨wid, rfl⟩
    · rcases uses with isWorker | ⟨t, -, context⟩
      · cases isWorker
      · have isWorker := (here t).1.2
        rw [context] at isWorker
        cases isWorker
  have outside : ∀ wc, (runtime.scheduler.thread wc).function = none := by
    rintro (wid | t)
    · exact (stuck wid (List.mem_finRange wid)).1
    · exact (here t).2
  refine ⟨⟨?_, ?_, ?_⟩, ?_⟩
  · intro label internal
    cases label with
    | thread wc target =>
        obtain ⟨wid, rfl⟩ := only wc internal
        have still := (stuck wid (List.mem_finRange wid)).2 target
          (by cases target <;> simp)
        simp [Runtime.next, workersScheduler, workersMachine, still]
    | _ => cases internal
  · intro wc target
    simp [Runtime.next, workersScheduler, outside wc]
  · intro wc
    have still : workersNext mechanism runtime.scheduler (.exit wc) = none := by
      have nowhere := outside wc
      simp only [workersNext]
      split
      case h_1 position _ =>
        rw [position] at nowhere
        cases nowhere
      case h_2 => rfl
    simp [Runtime.next, workersScheduler, workersMachine, still]
  · intro t
    left
    change runtime.scheduler.phase t ≠ .created
    rw [phase_of_started (here t).1.1]
    cases (runtime.scheduler.task t).state <;>
      cases (runtime.scheduler.history t).block <;> simp [TaskState.phase]

/-- A run to the end in which no worker is told to terminate. -/
theorem exists_quiescent
    {n : ℕ}
    {mechanism : Mechanism}
    (plain : mechanism ≠ .waitProp)
    {start : HandOver n}
    (initial : (TaskNetwork.runtimeMachine (workersScheduler Bool n mechanism)
      _).init start)
    {labels : List (HandOverLabel n)}
    (passes : ((TaskNetwork.runtimeMachine (workersScheduler Bool n mechanism)
      _).runBy (fun _ label => goesOn label) start labels).map
        (isQuiescent mechanism) = some true) :
    ∃ runtime : HandOver n,
      (TaskNetwork.runtimeMachine (workersScheduler Bool n mechanism)
        _).ReachableBy (undisturbed mechanism) runtime ∧
      runtime.Quiescent (workersDiligence Bool n mechanism) ∧
      runtime.AllStarted (workersScheduler Bool n mechanism) := by
  obtain ⟨runtime, reached, tested⟩ :=
    Machine.exists_reachableBy_of_runBy initial passes
  exact ⟨runtime, reached.mono fun before _ => undisturbed_of_goesOn plain before,
    quiescent_of_isQuiescent tested⟩

/-- The writer is sent to the worker of the reader and writes its second item. -/
theorem runtimeRefinesProcesses_handOver :
    ∃ runtime : HandOver 2,
      (runtime.scheduler.task true).workerContext = .worker 1 ∧
      runtime.network.written () = [5, 6] ∧
      runtime.scheduler.failed = false ∧
      runtime.scheduler.OneStackOneWorker ∧
      (handOver.machine (fun _ => some 1)).run handOver.initial
        ((TaskNetwork.processesRefinement (workersScheduler Bool 2 .waitProp)
          handOverCreated).trace (handOverStart 0 1)
          (sentToReader 0 1)) = some runtime.network.abs := by
  obtain ⟨runtime, executed, tested⟩ := Option.map_eq_some_iff.mp
    (by decide : ((TaskNetwork.runtimeMachine (workersScheduler Bool 2 .waitProp)
      handOverCreated).runBy (keepsStacks .waitProp)
      (handOverStart 0 1) (sentToReader 0 1)).map (fun runtime => decide
        ((runtime.scheduler.task true).workerContext = .worker 1 ∧
          runtime.network.written () = [5, 6])) = some true)
  obtain ⟨context, written⟩ := of_decide_eq_true tested
  obtain ⟨-, runs, ok, -, -, -, alone⟩ := runtimeRefinesProcesses _ 2 .waitProp _
    runtime (sentToReader 0 1) (init_handOverStart _ 0 1) executed
  exact ⟨runtime, context, written, ok, alone, runs⟩

/-- One worker without migration and two with it come to the same end. -/
theorem runtimeOutcomeUnique_handOver :
    ∃ (runtime : HandOver 1) (runtime' : HandOver 2),
      runtime.Quiescent (workersDiligence Bool 1 .none) ∧
      runtime'.Quiescent (workersDiligence Bool 2 .rand) ∧
      runtime'.network.abs = runtime.network.abs := by
  obtain ⟨runtime, reached, quiescent, all⟩ := exists_quiescent
    (by simp : Mechanism.none ≠ .waitProp)
    (init_handOverStart .none 0 0)
    (by decide : ((TaskNetwork.runtimeMachine (workersScheduler Bool 1 .none)
      _).runBy (fun _ label => goesOn label) (handOverStart 0 0)
      (onOneWorker 0)).map (isQuiescent .none) = some true)
  obtain ⟨runtime', reached', quiescent', all'⟩ := exists_quiescent
    (by simp : Mechanism.rand ≠ .waitProp)
    (init_handOverStart .rand 0 1)
    (by decide : ((TaskNetwork.runtimeMachine (workersScheduler Bool 2 .rand)
      _).runBy (fun _ label => goesOn label) (handOverStart 0 1)
      (onTwoWorkers 0 1)).map (isQuiescent .rand) = some true)
  exact ⟨runtime, runtime', quiescent, quiescent',
    (runtimeOutcomeUnique rfl rfl reached quiescent all reached').2.2 quiescent'
      all'⟩

theorem runtimeRunsBounded_handOver :
    (onTwoWorkers 0 1).length ≤ 2 + 3 * 2 + 19 * 4 +
      14 * (onTwoWorkers 0 1).countP (RuntimeLabel.isCall WorkerLabel.isCall) := by
  obtain ⟨runtime, executed⟩ := Option.isSome_iff_exists.mp
    (by decide : ((TaskNetwork.runtimeMachine (workersScheduler Bool 2 .rand)
      handOverCreated).runBy (keepsStacks .rand) (handOverStart 0 1)
      (onTwoWorkers 0 1)).isSome = true)
  exact runtimeRunsBounded handOverCreated 2 .rand 4
    (handOver_terminating _) _ runtime (onTwoWorkers 0 1)
    (init_handOverStart _ 0 1) executed

/-- A state in which both tasks are started and have written nothing. -/
theorem exists_bothStarted :
    ∃ runtime : HandOver 2,
      (TaskNetwork.runtimeMachine (workersScheduler Bool 2 .rand) _).ReachableBy
        (fun _ label => goesOn label = true) runtime ∧
      runtime.network.written () = [] ∧
      runtime.AllStarted (workersScheduler Bool 2 .rand) := by
  obtain ⟨runtime, reached, tested⟩ := Machine.exists_reachableBy_of_runBy
    (init_handOverStart .rand 0 1)
    (by decide : ((TaskNetwork.runtimeMachine (workersScheduler Bool 2 .rand)
      handOverCreated).runBy (fun _ label => goesOn label)
      (handOverStart 0 1)
      [.schedule (.start true), .schedule (.start false)]).map (fun runtime =>
        decide (runtime.network.written () = [] ∧
          ∀ t, runtime.scheduler.phase t ≠ .created)) = some true)
  obtain ⟨nothing, started⟩ := of_decide_eq_true tested
  exact ⟨runtime, reached, nothing, fun t => .inl (started t)⟩

/-- With both tasks started, the two workers come to an end by themselves. -/
theorem runtimeComputes_handOver :
    ∃ (runtime final : HandOver 2) (labels : List (HandOverLabel 2)),
      runtime.network.written () = [] ∧
      (TaskNetwork.runtimeMachine (workersScheduler Bool 2 .rand)
        handOverCreated).run runtime labels = some final ∧
      final.Quiescent (workersDiligence Bool 2 .rand) := by
  obtain ⟨outcome, -, computes⟩ := runtimeComputes handOver (fun _ => some 1) 4
    (handOver_terminating _)
  obtain ⟨runtime, reached, nothing, all⟩ := exists_bothStarted
  obtain ⟨labels, final, -, executed, quiescent, -⟩ := computes
    handOverCreated rfl rfl 2 .rand (by simp) runtime reached all
  exact ⟨runtime, final, labels, nothing, executed, quiescent⟩

end Example

end Decen
end Lpel
