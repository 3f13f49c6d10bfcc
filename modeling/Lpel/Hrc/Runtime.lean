import Lpel.Hrc.Shutdown
import Lpel.Hrc.Stream
import Lpel.Hrc.Work
import Lpel.Hrc.WrapperWork
import Lpel.Network.Progress

/-!
# The hierarchical runtime

The master, the workers and the wrappers execute tasks that communicate through
streams.  They are a scheduler under which every task goes through its life cycle, so
what is known of tasks under a scheduler holds here: the runtime refines the processes
over channels, its outcome does not depend on the number of workers, on priorities or
on the order of the steps, and for processes that end it comes to this outcome.
-/

namespace Lpel
namespace Hrc

open Lifecycle (Phase Event)
open TaskNetwork (Runtime RuntimeLabel RuntimeOk)

variable {τ P : Type} {n : ℕ}

/-! ## The work of the threads -/

/-- What the threads have left to do. -/
def Threads.work [Fintype τ] (threads : Threads τ P n) : ℕ :=
  threads.sched.work + threads.wrappers.work

/-- What a step on behalf of a task outside adds. -/
def ThreadsLabel.allowance : ThreadsLabel τ n → ℕ
  | .sched label => label.allowance
  | .wrapper label => label.allowance

/-- What a step does of the work. -/
def ThreadsLabel.cost : ThreadsLabel τ n → ℕ
  | .sched label => label.cost
  | .wrapper label => label.cost

/-- Some thread outside, or the function of a task, calls the scheduler, and does not
end with it. -/
def ThreadsLabel.isCall : ThreadsLabel τ n → Bool
  | .sched (.start _) | .sched .stop | .sched (.yield _) | .sched (.wakeup _)
  | .wrapper (.check _) | .wrapper (.create _) | .wrapper (.start _)
  | .wrapper (.yield _) | .wrapper (.wakeup _) => true
  | .sched _ | .wrapper _ => false

theorem ThreadsLabel.allowance_le (label : ThreadsLabel τ n) :
    label.allowance ≤ if label.isCall then 9 else 0 := by
  obtain label | label := label <;> cases label <;>
    simp [allowance, isCall, SchedLabel.allowance, WrapperLabel.allowance]

/-- Every call has one. -/
theorem ThreadsLabel.isCall_of_allowance
    {label : ThreadsLabel τ n}
    (free : label.allowance = 0) :
    label.isCall = false := by
  obtain label | label := label <;> cases label <;> first | rfl | cases free

/-- What the threads do by themselves is no call. -/
theorem ThreadsLabel.allowance_of_isInternal
    (label : ThreadsLabel τ n)
    (internal : label.isInternal = true) :
    label.allowance = 0 := by
  obtain label | label := label <;> cases label <;>
    first | rfl | cases internal

/-- The termination message is a call. -/
theorem ThreadsLabel.goesOn_of_allowance
    (label : ThreadsLabel τ n)
    (free : label.allowance = 0) :
    label.goesOn = true := by
  obtain label | label := label
  · cases label <;> first | rfl | cases free
  · rfl

/-- Only a wakeup that a task asks for adds to the work. -/
theorem allowance_of_event
    {threads : Threads τ P n}
    {label : ThreadsLabel τ n}
    {t : τ}
    {event : Event}
    (is : threads.event label = some (t, event))
    (inOperation : event.inOperation = true) :
    label.allowance ≤ if event = .wakeup then 8 else 0 := by
  obtain label | label := label
  · cases label with
    | wakeup u =>
        cases is
        exact le_refl 8
    | start u =>
        cases is
        cases inOperation
    | yield wid =>
        obtain ⟨u, -, same⟩ := Option.map_eq_some_iff.mp is
        cases same
        cases inOperation
    | stop => cases is
    | _ => exact Nat.zero_le _
  · cases label with
    | wakeup u =>
        cases is
        exact le_refl 8
    | start u =>
        cases is
        cases inOperation
    | yield c =>
        obtain ⟨u, -, same⟩ := Option.map_eq_some_iff.mp is
        cases same
        cases inOperation
    | check | create => cases is
    | _ => exact Nat.zero_le _

section Threads

variable [DecidableEq τ] [LinearOrder P] [BoundedOrder P]
variable {policy : Policy P} {isWrapper : τ → Bool}
variable {threads after : Threads τ P n} {label : ThreadsLabel τ n}

/-- A step that is not made in the middle of an operation does some of the work. -/
theorem cost_of_event
    (taken : threadsNext policy isWrapper threads label = some after)
    (own : ∀ t event, threads.event label = some (t, event) →
      event.inOperation = false) :
    label.cost = 1 := by
  cases threadsNext_cases taken with
  | @sched label sched routed stepped =>
      cases label with
      | wakeup t => cases own t .wakeup rfl
      | commit wid =>
          rw [schedNext] at stepped
          cases workerNext_cases stepped with
          | @commit _ t position =>
              cases own t .commit (by
                simp [Threads.event, Sched.event, position, WorkerPc.task])
      | block wid =>
          rw [schedNext] at stepped
          cases workerNext_cases stepped with
          | @block _ t position =>
              cases own t .block (by
                simp [Threads.event, Sched.event, position, WorkerPc.task])
      | _ => rfl
  | @wrapper label wrappers routed stepped =>
      cases label with
      | wakeup t => cases own t .wakeup rfl
      | commit c =>
          cases wrappersNext_cases stepped with
          | @commit _ t position =>
              cases own t .commit (by
                simp [Threads.event, Wrappers.event, position,
                  WrapperPc.function])
      | block c =>
          cases wrappersNext_cases stepped with
          | @block _ t position =>
              cases own t .block (by
                simp [Threads.event, Wrappers.event, position,
                  WrapperPc.function])
      | _ => rfl

variable [Fintype τ]

/-- Every step does some of the work, unless it is only asked for. -/
theorem ThreadsOk.work_step
    (ok : ThreadsOk isWrapper threads)
    (taken : threadsNext policy isWrapper threads label = some after) :
    after.work + label.cost ≤ threads.work + label.allowance := by
  obtain ⟨place, core⟩ := ok.conserved
  cases threadsNext_cases taken with
  | @sched label sched routed stepped =>
      have paid := core.work_step stepped
      simp only [Threads.work, ThreadsLabel.cost, ThreadsLabel.allowance]
      omega
  | @wrapper label wrappers routed stepped =>
      have paid := ok.wrappers.work_step stepped
      simp only [Threads.work, ThreadsLabel.cost, ThreadsLabel.allowance]
      omega

/-- At the start the workers make their first requests, and the master may be told to
terminate. -/
theorem work_start_eq
    (initial : (threadsMachine n policy isWrapper).init threads) :
    threads.work = 5 * n := by
  obtain ⟨⟨memory, zero, scheds⟩, wrappers⟩ := initial
  rw [Threads.work, scheds, wrappers]
  simp [Sched.work, Wrappers.work, schedStart, wrappersStart, Sched.status,
    Status.work, TaskState.work, WorkerPc.work, MasterPc.work]
  omega

/-- What the steps of the threads cost. -/
def threadsCosts
    (policy : Policy P)
    (isWrapper : τ → Bool)
    (workers : 0 < n)
    (never : policy.NeverLowest) :
    Lifecycle.Costs (threadsDiligence policy isWrapper workers never) where
  work := Threads.work
  wakeWork := 8
  allowance := ThreadsLabel.allowance
  pays := by
    intro threads label after ok taken own
    have paid := ThreadsOk.work_step ok taken
    rw [cost_of_event taken own] at paid
    exact paid
  called := by
    intro threads label after t event ok taken is inOperation
    have paid := ThreadsOk.work_step ok taken
    have allowed := allowance_of_event is inOperation
    omega
  internal _ label internal := label.allowance_of_isInternal internal
  exit thread := by cases thread <;> rfl
  keeps _ label free := label.goesOn_of_allowance free

end Threads

/-! ## The types of the streams -/

/-- What `LpelStreamOpen` makes of the type of a stream that is opened for writing. -/
def StreamType.openWrite (type : StreamType) (wrapper : Bool) : StreamType :=
  if wrapper then .entry else type

/-- The same for reading. -/
def StreamType.openRead (type : StreamType) (wrapper : Bool) : StreamType :=
  if wrapper then .exit else type

/-- The type of a stream that was opened on both sides.  Where both tasks have
wrappers, the one that has opened it last decides. -/
def openedType (writerWrapped readerWrapped writerLast : Bool) : StreamType :=
  if writerLast then
    (StreamType.middle.openRead readerWrapped).openWrite writerWrapped
  else
    (StreamType.middle.openWrite writerWrapped).openRead readerWrapped

/-- Tasks over streams that were created with the given sizes and opened by their
tasks: "only entry stream is bounded". -/
def openedConfig
    {τ ι α σ : Type}
    (tasks : Processes τ ι α σ)
    (size : ι → StreamSize)
    (isWrapper : τ → Bool)
    (writerLast : ι → Bool) :
    TaskNetwork.Config τ ι α σ where
  impl := linkedBuffer α
  size := size
  bounded i := openedType (isWrapper (tasks.writer i)) (isWrapper (tasks.reader i))
    (writerLast i) = .entry
  finite_bounded finite := by cases finite
  tasks := tasks

/-! ## What the runtime computes -/

section Runtime

variable {ι α σ : Type} [DecidableEq τ] [LinearOrder P]

/-- A task to which a worker or a wrapper is about to switch is ready. -/
theorem ThreadsOk.phase_dispatch
    {isWrapper : τ → Bool}
    {threads : Threads τ P n}
    {t : τ}
    (ok : ThreadsOk isWrapper threads)
    (position : (∃ wid, threads.sched.worker wid = .dispatch t) ∨
      ∃ c, (threads.wrappers.ctx c).pc = .dispatch t) :
    threads.phase isWrapper t = .ready := by
  rcases position with ⟨wid, position⟩ | ⟨c, position⟩
  · obtain ⟨place, core⟩ := ok.conserved
    obtain ⟨alive, fits⟩ := core.executing (t := t) (by rw [position]; rfl)
    rw [position] at fits
    have ready : threads.sched.phase t = .ready :=
      phase_of_waiting alive.1 (.inr (.inl fits.1))
    have plain := ok.not_isWrapper (t := t) (by simp [ready])
    simp [Threads.phase, plain, ready]
  · obtain ⟨u, lives, situation⟩ := ok.wrappers.onThread position (by simp)
    obtain ⟨rfl, state, history, -⟩ := situation.of_dispatch position
    have ready : threads.wrappers.phase t = .ready := Wrappers.phase_eq state history
    have wrapped := ok.isWrapper_of (t := t) (by simp [ready])
    simp [Threads.phase, wrapped, ready]

variable [DecidableEq ι] [BoundedOrder P]

/-- Every run of the hierarchical runtime is a run of its threads and one of the
processes over channels; no assertion fails, neither of the threads nor on the
buffers; a task on a worker or a wrapper that can go on in a stream operation is not
kept from it; and a worker or a wrapper that switches to a blocked task finds its
wakeup. -/
theorem hrcRefinesProcesses
    (config : TaskNetwork.Config τ ι α σ)
    (policy : Policy P)
    (isWrapper : τ → Bool)
    (start runtime : Runtime config (Threads τ P n))
    (labels : List (RuntimeLabel (ThreadsLabel τ n) (Fin n ⊕ ℕ) Unit))
    (initial : (TaskNetwork.runtimeMachine (threadsScheduler n policy isWrapper)
      config).init start)
    (executed : (TaskNetwork.runtimeMachine (threadsScheduler n policy isWrapper)
      config).run start labels = some runtime) :
    (threadsMachine n policy isWrapper).run start.scheduler
        ((TaskNetwork.schedulerRefinement (threadsScheduler n policy isWrapper)
          config).trace start labels) = some runtime.scheduler ∧
    (config.tasks.machine config.capacity).run config.tasks.initial
        ((TaskNetwork.processesRefinement (threadsScheduler n policy isWrapper)
          config).trace start labels) = some runtime.network.abs ∧
    (runtime.scheduler.sched.failed = false ∧
      runtime.scheduler.wrappers.failed = false) ∧
    runtime.network.BuffersServe ∧
    (∀ thread t, runtime.scheduler.function thread = some t →
      (runtime.network.step t).isSome = true →
        (runtime.next (threadsScheduler n policy isWrapper)
          (.stream thread ())).isSome = true) ∧
    ∀ t, (∃ wid, runtime.scheduler.sched.worker wid = .dispatch t) ∨
        (∃ c, (runtime.scheduler.wrappers.ctx c).pc = .dispatch t) →
      (runtime.network.pc t).isBlocked = true → 0 < runtime.network.wake t := by
  obtain ⟨ok, runs, runs'⟩ := TaskNetwork.run_refines initial executed
  have known : ThreadsOk isWrapper runtime.scheduler := ok.known
  obtain ⟨place, core⟩ := known.conserved
  refine ⟨runs, runs', ⟨core.ok, known.wrappers.ok⟩,
    ok.coupled.streams.buffersServe, ?_, ?_⟩
  · intro thread t function enabled
    obtain ⟨⟨effect, network⟩, stepped⟩ := Option.isSome_iff_exists.mp enabled
    exact ok.accepts function stepped ()
  · intro t position blocked
    exact ok.woken (known.phase_dispatch position) blocked

variable [Fintype τ]

/-- A run of the hierarchical runtime has at most a bounded number of steps for each
worker, each task, each step of the processes and each call: nothing that the threads
do by themselves goes on forever. -/
theorem hrcRunsBounded
    (config : TaskNetwork.Config τ ι α σ)
    (policy : Policy P)
    (isWrapper : τ → Bool)
    (workers : 0 < n)
    (never : policy.NeverLowest)
    (bound : ℕ)
    (terminating : TaskNetwork.Terminating config.tasks config.capacity bound)
    (start runtime : Runtime config (Threads τ P n))
    (labels : List (RuntimeLabel (ThreadsLabel τ n) (Fin n ⊕ ℕ) Unit))
    (initial : (TaskNetwork.runtimeMachine (threadsScheduler n policy isWrapper)
      config).init start)
    (executed : (TaskNetwork.runtimeMachine (threadsScheduler n policy isWrapper)
      config).run start labels = some runtime) :
    labels.length ≤ 5 * n + 2 * Fintype.card τ + 14 * bound +
      9 * labels.countP (RuntimeLabel.isCall ThreadsLabel.isCall) := by
  have short := TaskNetwork.runs_bounded
    (threadsCosts policy isWrapper workers never) terminating initial executed
  have calls := TaskNetwork.sum_allowance_le
    (threadsCosts policy isWrapper workers never) ThreadsLabel.allowance_le labels
  have begins : (threadsCosts policy isWrapper workers never).work start.scheduler =
      5 * n :=
    work_start_eq initial.1
  have price : TaskNetwork.operationWork
      (threadsCosts policy isWrapper workers never).wakeWork = 14 :=
    rfl
  rw [begins, price] at short
  omega

end Runtime

section Example

open TaskNetwork (handOver handOver_terminating)

/-- The writer has a wrapper, and the reader has none. -/
def writerWrapped (t : Bool) : Bool :=
  t

/-- A stream that holds one item, opened by a wrapper for writing. -/
abbrev handOverOpened : TaskNetwork.Config Bool Unit ℕ ℕ :=
  openedConfig handOver (fun _ => .one) writerWrapped fun _ => false

/-- A writer on a wrapper and a reader on the only worker. -/
abbrev HandOver : Type :=
  Runtime handOverOpened (Threads Bool (Fin 3) 1)

/-- What happens in a step of them. -/
abbrev HandOverLabel : Type :=
  RuntimeLabel (ThreadsLabel Bool 1) (Fin 1 ⊕ ℕ) Unit

/-- No task is started. -/
def handOverStart (zero : Fin 3) : HandOver where
  scheduler :=
    { sched := schedStart (fun _ => true) zero
      wrappers := wrappersStart }
  network := TaskNetwork.State.initial _

/-- The step does not send the termination message. -/
def goesOn : HandOverLabel → Bool
  | .schedule label => label.goesOn
  | .stream _ _ => true

/-- Both tasks are created and started. -/
def bothStarted (wid : Fin 1) : List HandOverLabel :=
  [.schedule (.sched (.first wid)), .schedule (.sched (.start false)),
    .schedule (.wrapper (.check true)), .schedule (.wrapper (.create true)),
    .schedule (.wrapper (.start true))]

/-- The worker receives its task from the master and executes it. -/
def execute (wid : Fin 1) : List HandOverLabel :=
  List.replicate 2 (.schedule (.sched (.master noNeighbours))) ++
    [.schedule (.sched (.recv wid)), .schedule (.sched (.taskStart wid))]

/-- A number of steps of a wrapper in its loop. -/
def goOn (c times : ℕ) : List HandOverLabel :=
  List.replicate times (.schedule (.wrapper (.thread c)))

/-- A number of steps of the task on a thread. -/
def operate (thread : Fin 1 ⊕ ℕ) (times : ℕ) : List HandOverLabel :=
  List.replicate times (.stream thread ())

/-- The writer blocks on the full stream, and the reader wakes it up. -/
def handedOver (wid : Fin 1) (c : ℕ) : List HandOverLabel :=
  bothStarted wid ++ execute wid ++ goOn c 5 ++ operate (.inr c) 5 ++
    operate (.inl wid) 5 ++ goOn c 6 ++ operate (.inr c) 2

theorem hrcRefinesProcesses_handOver :
    ∃ runtime : HandOver,
      runtime.network.written () = [5, 6] ∧
      runtime.scheduler.sched.failed = false ∧
      (handOver.machine (fun _ => some 1)).run handOver.initial
        ((TaskNetwork.processesRefinement
          (threadsScheduler 1 evenPolicy writerWrapped)
          handOverOpened).trace (handOverStart 0) (handedOver 0 0)) =
        some runtime.network.abs := by
  obtain ⟨runtime, executed, tested⟩ := Option.map_eq_some_iff.mp
    (by decide : ((TaskNetwork.runtimeMachine
      (threadsScheduler 1 evenPolicy writerWrapped) handOverOpened).run
      (handOverStart 0) (handedOver 0 0)).map (fun runtime =>
        decide (runtime.network.written () = [5, 6])) = some true)
  obtain ⟨-, runs, ok, -⟩ := hrcRefinesProcesses _ evenPolicy writerWrapped _
    runtime (handedOver 0 0) ⟨⟨⟨_, _, rfl⟩, rfl⟩, rfl⟩ executed
  exact ⟨runtime, of_decide_eq_true tested, ok.1, runs⟩

/-- The same priority everywhere is not the lowest one. -/
theorem evenPolicy_neverLowest : evenPolicy.NeverLowest := by
  intro view
  have one : (1 : Fin 3) ≠ ⊥ := by decide
  simpa [lpelTaskCalPriority, evenPolicy] using one

theorem hrcRunsBounded_handOver :
    (handedOver 0 0).length ≤ 5 * 1 + 2 * 2 + 14 * 4 +
      9 * (handedOver 0 0).countP (RuntimeLabel.isCall ThreadsLabel.isCall) := by
  obtain ⟨runtime, executed⟩ := Option.isSome_iff_exists.mp
    (by decide : ((TaskNetwork.runtimeMachine
      (threadsScheduler 1 evenPolicy writerWrapped) handOverOpened).run
      (handOverStart 0) (handedOver 0 0)).isSome = true)
  exact hrcRunsBounded handOverOpened evenPolicy writerWrapped one_pos
    evenPolicy_neverLowest 4 (handOver_terminating _) _ runtime (handedOver 0 0)
    ⟨⟨⟨_, _, rfl⟩, rfl⟩, rfl⟩ executed

/-- A state in which both tasks are started and have written nothing. -/
theorem exists_bothStarted :
    ∃ runtime : HandOver,
      (TaskNetwork.runtimeMachine (threadsScheduler 1 evenPolicy writerWrapped)
        _).ReachableBy (Runtime.keepsGoing (threadsDiligence evenPolicy
          writerWrapped one_pos evenPolicy_neverLowest)) runtime ∧
      runtime.network.written () = [] ∧
      runtime.AllStarted (threadsScheduler 1 evenPolicy writerWrapped) := by
  obtain ⟨runtime, reached, tested⟩ := Machine.exists_reachableBy_of_runBy
    (⟨⟨⟨_, _, rfl⟩, rfl⟩, rfl⟩ : (TaskNetwork.runtimeMachine
      (threadsScheduler 1 evenPolicy writerWrapped) handOverOpened).init
      (handOverStart 0))
    (by decide : ((TaskNetwork.runtimeMachine
      (threadsScheduler 1 evenPolicy writerWrapped) handOverOpened).runBy
      (fun _ label => goesOn label) (handOverStart 0) (bothStarted 0)).map
        (fun runtime => decide (runtime.network.written () = [] ∧
          ∀ t, runtime.scheduler.phase writerWrapped t ≠ .created)) = some true)
  obtain ⟨nothing, started⟩ := of_decide_eq_true tested
  refine ⟨runtime, reached.mono ?_, nothing, fun t => .inl (started t)⟩
  rintro before (label | ⟨thread, choice⟩) goesOn
  · exact goesOn
  · trivial

end Example

end Hrc
end Lpel
