import Lpel.Hrc.Lifecycle
import Lpel.Hrc.WrapperLifecycle

/-!
# The threads of the hierarchical back end

The workers with their master and the wrappers share no task: `LpelTaskCreate` gives
a task the context of a wrapper unless it is created with `LPEL_MAP_MASTER`, and
`LpelWorkerRunTask` and `LpelWorkerTaskWakeup` send to the mailbox of the wrapper or
to the master accordingly.  Together they are a scheduler under which every task goes
through its life cycle.
-/

namespace Lpel
namespace Hrc

open Lifecycle (Phase Event)

variable {τ P : Type} {n : ℕ}

/-- The workers with the master, and the wrappers. -/
structure Threads (τ P : Type) (n : ℕ) where
  sched : Sched τ P n
  wrappers : Wrappers τ n

/-- What happens in a step. -/
inductive ThreadsLabel (τ : Type) (n : ℕ)
  | sched (label : SchedLabel τ n)
  | wrapper (label : WrapperLabel τ)

/-- A call for a task goes to where the task belongs. -/
def ThreadsLabel.routed (isWrapper : τ → Bool) : ThreadsLabel τ n → Bool
  | .sched (.start t) | .sched (.wakeup t) => !isWrapper t
  | .wrapper (.check t) | .wrapper (.create t) | .wrapper (.start t)
  | .wrapper (.wakeup t) => isWrapper t
  | .sched _ | .wrapper _ => true

/-- The phase of a task. -/
def Threads.phase
    (isWrapper : τ → Bool)
    (threads : Threads τ P n)
    (t : τ) : Phase :=
  if isWrapper t then threads.wrappers.phase t else threads.sched.phase t

/-- The workers come first. -/
theorem Threads.phase_eq
    (isWrapper : τ → Bool)
    (threads : Threads τ P n) :
    threads.phase isWrapper = fun t =>
      if !isWrapper t then threads.sched.phase t else threads.wrappers.phase t := by
  funext t
  unfold Threads.phase
  cases isWrapper t <;> rfl

/-- The event that a step is for a task. -/
def Threads.event (threads : Threads τ P n) :
    ThreadsLabel τ n → Option (τ × Event)
  | .sched label => threads.sched.event label
  | .wrapper label => threads.wrappers.event label

/-- The task in whose function a worker or a wrapper is. -/
def Threads.function (threads : Threads τ P n) : Fin n ⊕ ℕ → Option τ
  | .inl wid => (threads.sched.worker wid).function
  | .inr c => (threads.wrappers.ctx c).pc.function

/-- A task decides to block. -/
def ThreadsLabel.commit : Fin n ⊕ ℕ → ThreadsLabel τ n
  | .inl wid => .sched (.commit wid)
  | .inr c => .wrapper (.commit c)

/-- It blocks. -/
def ThreadsLabel.block : Fin n ⊕ ℕ → ThreadsLabel τ n
  | .inl wid => .sched (.block wid)
  | .inr c => .wrapper (.block c)

/-- Its function returns. -/
def ThreadsLabel.exit : Fin n ⊕ ℕ → ThreadsLabel τ n
  | .inl wid => .sched (.exit wid)
  | .inr c => .wrapper (.exit c)

/-- `LpelWorkerTaskWakeup`. -/
def ThreadsLabel.wakeup (isWrapper : τ → Bool) (t : τ) : ThreadsLabel τ n :=
  if isWrapper t then .wrapper (.wakeup t) else .sched (.wakeup t)

variable [DecidableEq τ] [LinearOrder P]

/-- The invariant of the threads. -/
structure ThreadsOk
    (isWrapper : τ → Bool)
    (threads : Threads τ P n) : Prop where
  conserved : threads.sched.Conserved
  wrappers : WrappersOk threads.wrappers
  /-- The workers and the master know nothing of a task with a wrapper. -/
  schedApart : ∀ t, isWrapper t = true → threads.sched.phase t = .created
  wrappersApart : ∀ t, isWrapper t = false → threads.wrappers.phase t = .created

namespace ThreadsOk

variable {isWrapper : τ → Bool} {threads : Threads τ P n} {t : τ}

/-- A task that the workers or the master know of has no wrapper. -/
theorem not_isWrapper
    (ok : ThreadsOk isWrapper threads)
    (known : threads.sched.phase t ≠ .created) :
    isWrapper t = false := by
  rw [Bool.eq_false_iff]
  intro wrapped
  exact known (ok.schedApart t wrapped)

/-- A task that a wrapper knows of has one. -/
theorem isWrapper_of
    (ok : ThreadsOk isWrapper threads)
    (known : threads.wrappers.phase t ≠ .created) :
    isWrapper t = true := by
  by_contra plain
  exact known (ok.wrappersApart t (by simpa using plain))

/-- A task on a worker is one of the workers. -/
theorem on_worker
    (ok : ThreadsOk isWrapper threads)
    {wid : Fin n}
    (inside : (threads.sched.worker wid).function = some t) :
    isWrapper t = false ∧ threads.phase isWrapper t = threads.sched.phase t := by
  obtain ⟨place, core⟩ := ok.conserved
  have plain : isWrapper t = false := by
    refine ok.not_isWrapper fun created => ?_
    rcases core.phase_function inside with ⟨is, -⟩ | ⟨⟨woken, is⟩, -⟩
    · exact absurd (created.symm.trans is) (by simp)
    · exact absurd (created.symm.trans is) (by simp)
  exact ⟨plain, by simp [Threads.phase, plain]⟩

/-- A task on a wrapper is its task. -/
theorem on_wrapper
    (ok : ThreadsOk isWrapper threads)
    {c : ℕ}
    (inside : (threads.wrappers.ctx c).pc.function = some t) :
    isWrapper t = true ∧
      threads.phase isWrapper t = threads.wrappers.phase t := by
  have wrapped : isWrapper t = true := by
    refine ok.isWrapper_of fun created => ?_
    rcases ok.wrappers.phase_function inside with ⟨is, -⟩ | ⟨⟨woken, is⟩, -⟩
    · exact absurd (created.symm.trans is) (by simp)
    · exact absurd (created.symm.trans is) (by simp)
  exact ⟨wrapped, by simp [Threads.phase, wrapped]⟩

/-- The tasks that execute their functions are on the workers and the wrappers. -/
theorem executes_iff
    (ok : ThreadsOk isWrapper threads) :
    (∃ thread, threads.function thread = some t) ↔
      (threads.phase isWrapper t).executes = true := by
  obtain ⟨place, core⟩ := ok.conserved
  constructor
  · rintro ⟨wid | c, inside⟩
    · rw [(ok.on_worker inside).2]
      rcases core.phase_function inside with ⟨is, -⟩ | ⟨⟨woken, is⟩, -⟩ <;> rw [is] <;>
        rfl
    · rw [(ok.on_wrapper inside).2]
      rcases ok.wrappers.phase_function inside with ⟨is, -⟩ | ⟨⟨woken, is⟩, -⟩ <;>
        rw [is] <;> rfl
  · intro executes
    unfold Threads.phase at executes
    split at executes
    case isTrue =>
      obtain ⟨c, inside⟩ := ok.wrappers.exists_function executes
      exact ⟨.inr c, inside⟩
    case isFalse =>
      obtain ⟨wid, inside⟩ := core.exists_function executes
      exact ⟨.inl wid, inside⟩

end ThreadsOk

variable [BoundedOrder P]

/-- A step of the threads. -/
def threadsNext
    (policy : Policy P)
    (isWrapper : τ → Bool)
    (threads : Threads τ P n)
    (label : ThreadsLabel τ n) : Option (Threads τ P n) :=
  if label.routed isWrapper then
    match label with
    | .sched label =>
        (schedNext policy threads.sched label).map fun sched =>
          { threads with sched := sched }
    | .wrapper label =>
        (wrappersNext threads.wrappers label).map fun wrappers =>
          { threads with wrappers := wrappers }
  else
    none

/-- The steps of the threads, with what each of them requires. -/
inductive ThreadsStep
    (policy : Policy P)
    (isWrapper : τ → Bool)
    (threads : Threads τ P n) : ThreadsLabel τ n → Threads τ P n → Prop
  | sched {label : SchedLabel τ n} {sched : Sched τ P n} :
      (ThreadsLabel.sched label).routed isWrapper = true →
      schedNext policy threads.sched label = some sched →
      ThreadsStep policy isWrapper threads (.sched label)
        { threads with sched := sched }
  | wrapper {label : WrapperLabel τ} {wrappers : Wrappers τ n} :
      (ThreadsLabel.wrapper (n := n) label).routed isWrapper = true →
      wrappersNext threads.wrappers label = some wrappers →
      ThreadsStep policy isWrapper threads (.wrapper label)
        { threads with wrappers := wrappers }

/-- Every step is one of these. -/
theorem threadsNext_cases
    {policy : Policy P}
    {isWrapper : τ → Bool}
    {threads after : Threads τ P n}
    {label : ThreadsLabel τ n}
    (taken : threadsNext policy isWrapper threads label = some after) :
    ThreadsStep policy isWrapper threads label after := by
  obtain ⟨routed, taken⟩ := Option.ite_none_right_eq_some.mp taken
  cases label with
  | sched label =>
      obtain ⟨sched, stepped, rfl⟩ := Option.map_eq_some_iff.mp taken
      exact .sched routed stepped
  | wrapper label =>
      obtain ⟨wrappers, stepped, rfl⟩ := Option.map_eq_some_iff.mp taken
      exact .wrapper routed stepped

/-- The workers, the master and the wrappers, with the tasks that have wrappers. -/
def threadsMachine
    (n : ℕ)
    (policy : Policy P)
    (isWrapper : τ → Bool) :
    Machine (Threads τ P n) (ThreadsLabel τ n) where
  init := fun threads =>
    (schedMachine n policy).init threads.sched ∧ threads.wrappers = wrappersStart
  next := threadsNext policy isWrapper

section Steps

variable {policy : Policy P} {isWrapper : τ → Bool}
variable {threads after : Threads τ P n}

/-- The invariant holds initially, and no task is started. -/
theorem ThreadsOk.start
    (initial : (threadsMachine n policy isWrapper).init threads) :
    ThreadsOk isWrapper threads ∧
      ∀ t, threads.phase isWrapper t = .created := by
  obtain ⟨⟨memory, zero, scheds⟩, wrappers⟩ := initial
  have sched (t : τ) : threads.sched.phase t = .created := by
    rw [scheds]
    rfl
  have wrapper (t : τ) : threads.wrappers.phase t = .created := by
    rw [wrappers]
    rfl
  refine ⟨⟨?_, ?_, fun t _ => sched t, fun t _ => wrapper t⟩, ?_⟩
  · rw [scheds]
    exact conserved_start memory zero
  · rw [wrappers]
    exact wrappersOk_start
  · intro t
    unfold Threads.phase
    split
    · exact wrapper t
    · exact sched t

/-- Every step keeps the invariant, and is what its event is for the task. -/
theorem ThreadsOk.step
    (ok : ThreadsOk isWrapper threads)
    {label : ThreadsLabel τ n}
    (taken : threadsNext policy isWrapper threads label = some after) :
    ThreadsOk isWrapper after ∧
      (Lifecycle.machine τ).run (threads.phase isWrapper)
        (threads.event label).toList = some (after.phase isWrapper) := by
  obtain ⟨place, core⟩ := ok.conserved
  cases threadsNext_cases taken with
  | @sched label sched routed stepped =>
      have goes := core.lifecycle stepped
      have unstarted (t : τ) (wrapped : isWrapper t = true) :
          threads.sched.event label ≠ some (t, .start) := by
        intro starts
        rw [label_of_start starts] at routed
        simp [ThreadsLabel.routed, wrapped] at routed
      have plain (t : τ) (what : Event)
          (is : threads.sched.event label = some (t, what)) :
          (!isWrapper t) = true := by
        rw [Bool.not_eq_true', Bool.eq_false_iff]
        intro wrapped
        obtain rfl := Lifecycle.start_of_created (is ▸ goes)
          (ok.schedApart t wrapped)
        exact unstarted t wrapped is
      refine ⟨⟨core.step stepped, ok.wrappers, ?_, ok.wrappersApart⟩, ?_⟩
      · intro t wrapped
        exact Lifecycle.created_of_run goes (ok.schedApart t wrapped)
          (unstarted t wrapped)
      · rw [Threads.phase_eq, Threads.phase_eq]
        exact Lifecycle.run_choose goes _ _ plain
  | @wrapper label wrappers routed stepped =>
      have goes := ok.wrappers.lifecycle stepped
      have unstarted (t : τ) (plain : isWrapper t = false) :
          threads.wrappers.event label ≠ some (t, .start) := by
        intro starts
        rw [Wrappers.label_of_start starts] at routed
        simp [ThreadsLabel.routed, plain] at routed
      have wrapped (t : τ) (what : Event)
          (is : threads.wrappers.event label = some (t, what)) :
          isWrapper t = true := by
        by_contra plain
        have plain : isWrapper t = false := by simpa using plain
        obtain rfl := Lifecycle.start_of_created (is ▸ goes)
          (ok.wrappersApart t plain)
        exact unstarted t plain is
      refine ⟨⟨⟨place, core⟩, ok.wrappers.step stepped, ok.schedApart, ?_⟩, ?_⟩
      · intro t plain
        exact Lifecycle.created_of_run goes (ok.wrappersApart t plain)
          (unstarted t plain)
      · exact Lifecycle.run_choose goes _ _ wrapped

/-- What a running task can ask for. -/
theorem ThreadsOk.asks_running
    (ok : ThreadsOk isWrapper threads)
    (policy : Policy P)
    {thread : Fin n ⊕ ℕ}
    {t : τ}
    (inside : threads.function thread = some t)
    (running : threads.phase isWrapper t = .running) :
    (threads.event (.commit thread) = some (t, .commit) ∧
      (threadsNext policy isWrapper threads (.commit thread)).isSome = true) ∧
    (threads.event (.exit thread) = some (t, .exit) ∧
      (threadsNext policy isWrapper threads (.exit thread)).isSome = true) := by
  obtain ⟨place, core⟩ := ok.conserved
  cases thread with
  | inl wid =>
      rw [(ok.on_worker inside).2] at running
      have asks := core.asks_running policy inside running
      simpa [ThreadsLabel.commit, ThreadsLabel.exit, Threads.event, threadsNext,
        ThreadsLabel.routed] using asks
  | inr c =>
      rw [(ok.on_wrapper inside).2] at running
      have asks := ok.wrappers.asks_running inside running
      simpa [ThreadsLabel.commit, ThreadsLabel.exit, Threads.event, threadsNext,
        ThreadsLabel.routed] using asks

/-- What a task that has committed to block asks for. -/
theorem ThreadsOk.asks_committed
    (ok : ThreadsOk isWrapper threads)
    (policy : Policy P)
    {thread : Fin n ⊕ ℕ}
    {t : τ}
    {woken : Bool}
    (inside : threads.function thread = some t)
    (committed : threads.phase isWrapper t = .committed woken) :
    threads.event (.block thread) = some (t, .block) ∧
      (threadsNext policy isWrapper threads (.block thread)).isSome = true := by
  obtain ⟨place, core⟩ := ok.conserved
  cases thread with
  | inl wid =>
      rw [(ok.on_worker inside).2] at committed
      have asks := core.asks_committed policy inside committed
      simpa [ThreadsLabel.block, Threads.event, threadsNext, ThreadsLabel.routed]
        using asks
  | inr c =>
      rw [(ok.on_wrapper inside).2] at committed
      have asks := ok.wrappers.asks_committed inside committed
      simpa [ThreadsLabel.block, Threads.event, threadsNext, ThreadsLabel.routed]
        using asks

/-- A task that waits for a wakeup can be woken up. -/
theorem ThreadsOk.asks_wakeup
    (ok : ThreadsOk isWrapper threads)
    (policy : Policy P)
    {t : τ}
    (awaits : (threads.phase isWrapper t).awaits = true) :
    threads.event (.wakeup isWrapper t) = some (t, .wakeup) ∧
      (threadsNext policy isWrapper threads (.wakeup isWrapper t)).isSome =
        true := by
  obtain ⟨place, core⟩ := ok.conserved
  unfold Threads.phase at awaits
  unfold ThreadsLabel.wakeup
  split at awaits
  case isTrue wrapped =>
    have asks := ok.wrappers.asks_wakeup awaits
    simpa [wrapped, Threads.event, Wrappers.event, threadsNext,
      ThreadsLabel.routed] using asks
  case isFalse plain =>
    have asks := core.asks_wakeup policy awaits
    simpa [plain, Threads.event, Sched.event, threadsNext, ThreadsLabel.routed]
      using asks

end Steps

/-- The threads as a scheduler. -/
def threadsScheduler
    (n : ℕ)
    (policy : Policy P)
    (isWrapper : τ → Bool) :
    Lifecycle.Scheduler τ (Threads τ P n) (ThreadsLabel τ n) (Fin n ⊕ ℕ) Unit where
  machine := threadsMachine n policy isWrapper
  phase := Threads.phase isWrapper
  event := Threads.event
  function := Threads.function
  commit := .commit
  block := .block
  exit := .exit
  wakeup _ whom _ := .wakeup isWrapper whom
  invariant := ThreadsOk isWrapper
  init _ initial := ThreadsOk.start initial
  step _ _ _ ok taken := ok.step taken
  executes _ _ ok := ok.executes_iff
  commits _ _ _ ok inside running := (ok.asks_running policy inside running).1
  blocks _ _ _ _ ok inside committed := ok.asks_committed policy inside committed
  exits _ _ _ ok inside running := (ok.asks_running policy inside running).2
  wakes _ _ _ _ _ ok _ _ awaits := ok.asks_wakeup policy awaits

/-- In every run, whatever the master, the workers and the wrappers do in any order,
every task goes through its life cycle: what happens to the tasks is a run of their
life cycles, which ends in the phases that the records of the tasks show; in
particular a task is executed only when it is ready, and is ready again once for each
wakeup of a block.  No assertion fails. -/
theorem hrcLifecycles
    (policy : Policy P)
    (isWrapper : τ → Bool)
    (start threads : Threads τ P n)
    (labels : List (ThreadsLabel τ n))
    (initial : (threadsMachine n policy isWrapper).init start)
    (executed : (threadsMachine n policy isWrapper).run start labels =
      some threads) :
    (Lifecycle.machine τ).run (fun _ => .created)
        ((threadsScheduler n policy isWrapper).lifecycles.trace start labels) =
      some (threads.phase isWrapper) ∧
    threads.sched.failed = false ∧ threads.wrappers.failed = false := by
  obtain ⟨known, starts⟩ := (threadsScheduler n policy isWrapper).lifecycles.init
    start initial
  obtain ⟨ok, runs⟩ := (threadsScheduler n policy isWrapper).lifecycles.run known
    executed
  obtain ⟨place, core⟩ := ThreadsOk.conserved ok
  have created : (threadsScheduler n policy isWrapper).lifecycles.abs start =
      fun _ => .created :=
    starts
  rw [created] at runs
  exact ⟨runs, core.ok, ok.wrappers.ok⟩

section Example

/-- A worker and a wrapper: one task of each is executed. -/
def bothRun (wid : Fin 1) (c : ℕ) : List (ThreadsLabel ℕ 1) :=
  [.sched (.first wid), .sched (.master alone), .sched (.start 7),
      .sched (.master alone), .sched (.recv wid), .sched (.taskStart wid),
      .sched (.commit wid), .sched (.wakeup 7), .wrapper (.check 8),
      .wrapper (.create 8), .wrapper (.start 8)] ++
    List.replicate 5 (.wrapper (.thread c))

theorem hrcLifecycles_both :
    ∃ threads : Threads ℕ (Fin 3) 1,
      threads.phase (fun t => t = 8) 7 = .committed true ∧
      threads.phase (fun t => t = 8) 8 = .running ∧
      threads.sched.failed = false ∧ threads.wrappers.failed = false := by
  obtain ⟨threads, executed, tested⟩ := Option.map_eq_some_iff.mp
    (by decide : ((threadsMachine 1 evenPolicy (fun t => t = 8)).run
      { sched := schedStart (fun _ => 0) 0, wrappers := wrappersStart }
      (bothRun 0 0)).map (fun threads => decide (
        threads.phase (fun t => t = 8) 7 = .committed true ∧
        threads.phase (fun t => t = 8) 8 = .running)) = some true)
  obtain ⟨committed, running⟩ := of_decide_eq_true tested
  exact ⟨threads, committed, running,
    (hrcLifecycles evenPolicy (fun t => t = 8) _ threads (bothRun 0 0)
      ⟨⟨_, _, rfl⟩, rfl⟩ executed).2⟩

end Example

end Hrc
end Lpel
