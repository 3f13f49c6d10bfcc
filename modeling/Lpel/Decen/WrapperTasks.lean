import Lpel.Decen.WorkerSteps

/-!
# Wrapper tasks stay with their wrappers

A task that is created with `LPEL_MAP_OTHERS` has a wrapper, which executes only
this task and never hands one off.  `LpelTaskCheckMigrate` leaves such a task
where it is, and a wakeup goes to the mailbox of its wrapper.  `LpelTaskYield`
asks for a target under `LPEL_MIG_WAIT_PROP` without looking at the wrapper: if
there is one, the task is left in `wc->migrated` of a loop that does not read it.
-/

namespace Lpel
namespace Decen

variable {τ : Type} {n : ℕ}

/-- A task that belongs to a wrapper is neither assigned to a worker nor woken up
there. -/
def Routed
    (home : τ → Option (Fin n))
    (wc : Context τ n)
    (msg : WorkerMsg τ) : Prop :=
  ∀ t, home t = none → msg = .assign t ∨ msg = .wakeup t → wc.isWorker = false

/-- The tasks created with `LPEL_MAP_OTHERS` stay with their wrappers. -/
structure WrappersKeepTasks
    (home : τ → Option (Fin n))
    (workers : Workers τ n) : Prop where
  context : ∀ t, home t = none →
    (workers.task t).workerContext = .wrapper t
  migrated : ∀ t, workers.migrated (.wrapper t) = none
  assigned : ∀ t, home t = none → ∀ wid,
    .assign t ∉ workers.mailbox (.worker wid)

/-- The same with what it rests on. -/
structure InWrappers
    (home : τ → Option (Fin n))
    (workers : Workers τ n) : Prop where
  context : ∀ t, home t = none →
    (workers.task t).workerContext = .wrapper t
  worker : ∀ t, home t ≠ none →
    (workers.task t).workerContext.isWorker = true
  migrated : ∀ t, workers.migrated (.wrapper t) = none
  mail : ∀ wc, ∀ msg ∈ workers.mailbox wc, Routed home wc msg

namespace InWrappers

variable {home : τ → Option (Fin n)} {workers after : Workers τ n}
variable {wc self : Context τ n} {t : τ}

theorem keep (inside : InWrappers home workers) :
    WrappersKeepTasks home workers where
  context := inside.context
  migrated := inside.migrated
  assigned := by
    intro t wrapped wid member
    have routed := inside.mail _ _ member t wrapped (.inl rfl)
    cases routed

/-- A task is on a worker exactly if it was created for one. -/
theorem isWorker_iff (inside : InWrappers home workers) (t : τ) :
    (workers.task t).workerContext.isWorker = true ↔ home t ≠ none := by
  refine ⟨?_, inside.worker t⟩
  intro onWorker wrapped
  rw [inside.context t wrapped] at onWorker
  cases onWorker

/-- Only some of the fields matter. -/
theorem congr
    (inside : InWrappers home workers)
    (context : ∀ t,
      (after.task t).workerContext = (workers.task t).workerContext)
    (migrated : after.migrated = workers.migrated)
    (mailbox : after.mailbox = workers.mailbox) :
    InWrappers home after where
  context := fun t wrapped => (context t).trans (inside.context t wrapped)
  worker := fun t mapped => by
    rw [context t]
    exact inside.worker t mapped
  migrated := fun t => by
    rw [migrated]
    exact inside.migrated t
  mail := by
    rw [mailbox]
    exact inside.mail

/-- What concerns a task is sent to its own context. -/
theorem routed_context
    (inside : InWrappers home workers)
    {msg : WorkerMsg τ}
    (concerns : ∀ u, msg = .assign u ∨ msg = .wakeup u → u = t) :
    Routed home (workers.task t).workerContext msg := by
  intro u wrapped about
  obtain rfl := concerns u about
  rw [inside.context u wrapped]
  rfl

variable [DecidableEq τ]

theorem setState
    (inside : InWrappers home workers)
    (t : τ)
    (state : TaskState) :
    InWrappers home (workers.setState t state) :=
  inside.congr (fun _ => workerContext_setState ..) rfl rfl

/-- A message is sent to where it belongs. -/
theorem send
    (inside : InWrappers home workers)
    {msg : WorkerMsg τ}
    (routed : Routed home wc msg) :
    InWrappers home (workers.send wc msg) := by
  refine ⟨inside.context, inside.worker, inside.migrated, ?_⟩
  intro other sent member
  by_cases same : other = wc
  · subst same
    simp only [Workers.send, Function.update_self, List.mem_append,
      List.mem_singleton] at member
    rcases member with member | rfl
    · exact inside.mail other sent member
    · exact routed
  · simp only [Workers.send, Function.update_of_ne same] at member
    exact inside.mail other sent member

theorem sendAssign (inside : InWrappers home workers) (t : τ) :
    InWrappers home
      (workers.sendAssign (workers.task t).workerContext t) := by
  apply inside.send
  apply inside.routed_context
  rintro u (same | same)
  · cases same
    rfl
  · cases same

theorem sendWakeup (inside : InWrappers home workers) (t : τ) :
    InWrappers home
      (workers.sendWakeup (workers.task t).workerContext t) := by
  have sent : InWrappers home
      (workers.send (workers.task t).workerContext (.wakeup t)) := by
    apply inside.send
    apply inside.routed_context
    rintro u (same | same)
    · cases same
    · cases same
      rfl
  exact sent.congr (fun _ => rfl) rfl rfl

/-- A task of a worker goes to another worker. -/
theorem setContext
    (inside : InWrappers home workers)
    (mapped : home t ≠ none)
    (wid : Fin n) :
    InWrappers home (workers.setContext t (.worker wid)) := by
  refine ⟨?_, ?_, inside.migrated, inside.mail⟩
  · intro u wrapped
    have different : u ≠ t := by
      rintro rfl
      exact mapped wrapped
    simpa [Workers.setContext, different] using inside.context u wrapped
  · intro u mapped'
    by_cases same : u = t
    · subst same
      simp [Workers.setContext, Context.isWorker]
    · simpa [Workers.setContext, same] using inside.worker u mapped'

theorem uncount (inside : InWrappers home workers) (wc : Context τ n) (t : τ) :
    InWrappers home (workers.uncount wc t) :=
  inside.congr (fun _ => rfl) rfl rfl

theorem putReady (inside : InWrappers home workers) (wc : Context τ n) (t : τ) :
    InWrappers home (workers.putReady wc t) := by
  unfold Workers.putReady
  split
  · exact inside.congr (fun _ => rfl) rfl rfl
  · exact inside.congr (fun _ => rfl) rfl rfl

theorem cleanupTaskContext
    (inside : InWrappers home workers)
    (wc : Context τ n)
    (t : Option τ) :
    InWrappers home (workers.cleanupTaskContext wc t) := by
  unfold Workers.cleanupTaskContext
  cases workers.markedDel wc <;> cases t <;>
    exact inside.congr (fun _ => rfl) rfl rfl

/-- `LpelWorkerMakeTaskReady` sends a task of a worker to another worker, or
leaves it where it is. -/
theorem makeTaskReady
    (inside : InWrappers home workers)
    (mapped : home t ≠ none)
    (mechanism : Mechanism)
    (target : Option (Fin n)) :
    InWrappers home
      (workers.lpelWorkerMakeTaskReady mechanism target t) := by
  have asserted : InWrappers home
      (workers.assert ((workers.task t).state = .ready)) :=
    inside.congr (fun _ => rfl) rfl rfl
  unfold Workers.lpelWorkerMakeTaskReady
  dsimp only
  split
  case h_1 wid =>
    split
    case isTrue =>
      have moved := (asserted.setContext mapped wid).uncount
        (workers.task t).workerContext t
      refine moved.send ?_
      rintro u wrapped (same | same)
      · cases same
        exact absurd wrapped mapped
      · cases same
    case isFalse => exact inside.congr (fun _ => rfl) rfl rfl
  case h_2 => exact inside.congr (fun _ => rfl) rfl rfl

/-- A message is processed where it belongs. -/
theorem processMessage
    (inside : InWrappers home workers)
    {msg : WorkerMsg τ}
    (routed : Routed home wc msg)
    (mechanism : Mechanism)
    (target : Option (Fin n)) :
    InWrappers home (workers.processMessage mechanism target wc msg) := by
  cases msg with
  | wakeup t =>
      have noted : InWrappers home
          ((workers.assert ((workers.task t).state ≠ .ready)).note t
            fun history => { history with block := .idle }) :=
        inside.congr (fun _ => rfl) rfl rfl
      have woken := noted.setState t .ready
      unfold Workers.processMessage
      dsimp only
      split
      case isTrue onWorker =>
        apply woken.makeTaskReady
        intro wrapped
        have notWorker := routed t wrapped (.inr rfl)
        rw [onWorker] at notWorker
        cases notWorker
      case isFalse => exact woken.congr (fun _ => rfl) rfl rfl
  | terminate => exact inside.congr (fun _ => rfl) rfl rfl
  | assign t =>
      have asserted : InWrappers home (workers.assert
          ((workers.task t).state = .created ∨
            (workers.task t).state = .ready)) :=
        inside.congr (fun _ => rfl) rfl rfl
      unfold Workers.processMessage
      dsimp only
      apply InWrappers.putReady
      split
      case isTrue =>
        exact (asserted.setState t .ready).congr (fun _ => rfl) rfl rfl
      case isFalse => exact asserted.congr (fun _ => rfl) rfl rfl
  | spmdreq => exact inside.congr (fun _ => rfl) rfl rfl

theorem receive
    (inside : InWrappers home workers)
    {mechanism : Mechanism}
    {target : Option (Fin n)}
    (received : workers.receive mechanism target wc = some after) :
    InWrappers home after := by
  unfold Workers.receive at received
  split at received
  case h_1 => cases received
  case h_2 msg rest mailbox =>
    obtain rfl := Option.some.inj received
    apply InWrappers.processMessage
    · refine ⟨inside.context, inside.worker, inside.migrated, ?_⟩
      intro other msg' member
      by_cases same : other = wc
      · subst same
        dsimp only at member
        rw [Function.update_self] at member
        apply inside.mail
        rw [mailbox]
        exact List.mem_cons_of_mem _ member
      · dsimp only at member
        rw [Function.update_of_ne same] at member
        exact inside.mail other msg' member
    · apply inside.mail
      rw [mailbox]
      exact List.mem_cons_self

/-- The hand-off is to the own context of the task. -/
theorem handOff
    (inside : InWrappers home workers)
    (wid : Fin n) :
    InWrappers home (workers.handOff (.worker wid)) := by
  unfold Workers.handOff
  split
  case h_1 => exact inside
  case h_2 t migrated =>
    have sent := (inside.sendAssign t).uncount (.worker wid) t
    refine ⟨sent.context, sent.worker, ?_, sent.mail⟩
    intro u
    change Function.update workers.migrated (.worker wid) none (.wrapper u) = _
    rw [Function.update_of_ne (by simp)]
    exact inside.migrated u

/-- A thread goes on in its loop or in the dispatcher. -/
theorem threadStep
    (inside : InWrappers home workers)
    {mechanism : Mechanism}
    {target : Option (Fin n)}
    (taken : workers.threadNext mechanism target self = some after) :
    InWrappers home after := by
  cases threadNext_cases taken with
  | fetch _ fetched | fetchNone _ fetched | pickSame _ fetched
  | pick _ fetched | pickNone _ fetched =>
      obtain ⟨-, rfl⟩ := Prod.mk.inj fetched
      exact inside.congr (fun _ => rfl) rfl rfl
  | takeWraptask | noWraptask | leaveWorker | again | dispatched
  | backWrapper => exact inside.congr (fun _ => rfl) rfl rfl
  | wait _ received =>
      exact (inside.receive received).congr (fun _ => rfl) rfl rfl
  | drain _ received | dispatcher _ received => exact inside.receive received
  | leaveWrapper =>
      exact (inside.cleanupTaskContext self none).congr (fun _ => rfl) rfl rfl
  | @taskStart t =>
      have asserted : InWrappers home
          (workers.assert ((workers.task t).state = .ready)) :=
        inside.congr (fun _ => rfl) rfl rfl
      exact (asserted.setState t .running).congr (fun _ => rfl) rfl rfl
  | backWorker position isWorker =>
      cases self with
      | worker wid =>
          exact ((inside.handOff wid).cleanupTaskContext (.worker wid)
            none).congr (fun _ => rfl) rfl rfl
      | wrapper t => cases isWorker

theorem dispatch
    (inside : InWrappers home workers)
    (self : Context τ n)
    (t : τ) :
    InWrappers home (workers.lpelWorkerDispatcher self t) := by
  unfold Workers.lpelWorkerDispatcher
  dsimp only
  split
  · exact inside.congr (fun _ => rfl) rfl rfl
  · exact inside.congr (fun _ => rfl) rfl rfl

/-- `LpelWorkerSelfTaskMigrate` of a task of a worker. -/
theorem selfTaskMigrate
    (inside : InWrappers home workers)
    (mapped : home t ≠ none)
    (self : Context τ n)
    (wid : Fin n) :
    InWrappers home (workers.lpelWorkerSelfTaskMigrate self t wid) := by
  have onWorker := inside.worker t mapped
  unfold Workers.lpelWorkerSelfTaskMigrate
  dsimp only
  split
  case isTrue => exact inside.congr (fun _ => rfl) rfl rfl
  case isFalse =>
    have moved := inside.setContext mapped wid
    refine ⟨moved.context, moved.worker, ?_, moved.mail⟩
    intro u
    have different : Context.wrapper u ≠ (workers.task t).workerContext := by
      intro same
      rw [← same] at onWorker
      cases onWorker
    dsimp only
    rw [Function.update_of_ne different]
    exact inside.migrated u

/-- `LpelTaskYield` of a task of a worker, or without a target. -/
theorem yield
    (inside : InWrappers home workers)
    {mechanism : Mechanism}
    {target : Option (Fin n)}
    (stays : ∀ wid, mechanism = .waitProp → target = some wid → 0 < wid.val →
      (workers.task t).workerContext.isWorker = true)
    (self : Context τ n) :
    InWrappers home (workers.lpelTaskYield mechanism target self t) := by
  have asserted : InWrappers home
      (workers.assert ((workers.task t).state = .running)) :=
    inside.congr (fun _ => rfl) rfl rfl
  have ready := asserted.setState t .ready
  have yielded : InWrappers home
      (((((workers.assert ((workers.task t).state = .running)).setState t
        .ready).putReady
          (((workers.assert ((workers.task t).state = .running)).setState t
            .ready).task t).workerContext t).taskStop t).lpelWorkerDispatcher
              self t) := by
    apply InWrappers.dispatch
    exact (ready.putReady _ t).congr (fun _ => rfl) rfl rfl
  unfold Workers.lpelTaskYield
  dsimp only
  split
  case h_1 wid =>
    split
    case isTrue positive =>
      apply InWrappers.selfTaskMigrate
      · exact ready.congr (fun _ => rfl) rfl rfl
      · exact (inside.isWorker_iff t).mp (stays wid rfl rfl positive)
    case isFalse => exact yielded
  case h_2 => exact yielded

theorem exit
    (inside : InWrappers home workers)
    (self : Context τ n)
    (t : τ) :
    InWrappers home (workers.lpelTaskExit self t) := by
  have asserted : InWrappers home
      (workers.assert ((workers.task t).state = .running)) :=
    inside.congr (fun _ => rfl) rfl rfl
  have zombie := asserted.setState t .zombie
  have exited : InWrappers home
      (((workers.assert ((workers.task t).state = .running)).setState t
        .zombie).lpelWorkerSelfTaskExit t) := by
    unfold Workers.lpelWorkerSelfTaskExit
    dsimp only
    have cleaned := (zombie.cleanupTaskContext
      (((workers.assert ((workers.task t).state = .running)).setState t
        .zombie).task t).workerContext (some t)).uncount
          (((workers.assert ((workers.task t).state = .running)).setState t
            .zombie).task t).workerContext t
    split
    · exact cleaned
    · exact cleaned.congr (fun _ => rfl) rfl rfl
  apply InWrappers.dispatch
  exact exited.congr (fun _ => rfl) rfl rfl

/-- `LpelTaskCheckMigrate` leaves a task of a wrapper where it is. -/
theorem checkMigrate
    (inside : InWrappers home workers)
    (mechanism : Mechanism)
    (target : Option (Fin n))
    (self : Context τ n)
    (t : τ) :
    InWrappers home
      (workers.lpelTaskCheckMigrate mechanism target self t) := by
  unfold Workers.lpelTaskCheckMigrate
  split
  case isTrue => exact inside
  case isFalse guarded =>
    rw [not_or, Bool.not_eq_false] at guarded
    have asserted : InWrappers home
        (workers.assert ((workers.task t).state = .running)) :=
      inside.congr (fun _ => rfl) rfl rfl
    dsimp only
    split
    case h_1 => exact asserted
    case h_2 wid =>
      split
      case isTrue => exact asserted
      case isFalse =>
        apply InWrappers.selfTaskMigrate
        · exact (asserted.setState t .ready).congr (fun _ => rfl) rfl rfl
        · exact (inside.isWorker_iff t).mp guarded.2

theorem block
    (inside : InWrappers home workers)
    (self : Context τ n)
    (t : τ) :
    InWrappers home (workers.lpelTaskBlockStream self t) := by
  apply InWrappers.dispatch
  exact (inside.setState t .blocked).congr (fun _ => rfl) rfl rfl

/-- A wakeup by a task goes to the context of the task that is woken up. -/
theorem wakeup
    (inside : InWrappers home workers)
    (mechanism : Mechanism)
    (target : Option (Fin n))
    (by_ whom : τ) :
    InWrappers home
      (workers.lpelWorkerTaskWakeup mechanism target by_ whom) := by
  unfold Workers.lpelWorkerTaskWakeup
  dsimp only
  split
  case isTrue onWorker =>
    split
    case isTrue => exact inside.sendWakeup whom
    case isFalse =>
      have noted : InWrappers home
          ((workers.assert ((workers.task whom).state ≠ .ready)).note whom
            fun history => { history with block := .idle }) :=
        inside.congr (fun _ => rfl) rfl rfl
      apply (noted.setState whom .ready).makeTaskReady
      exact (inside.isWorker_iff whom).mp onWorker
  case isFalse => exact inside.sendWakeup whom

/-- A wakeup by the handler of SPMD requests is on the worker of the task. -/
theorem wakeupLocal
    (inside : InWrappers home workers)
    (mechanism : Mechanism)
    (target : Option (Fin n))
    (wc : Context τ n)
    (onWorker : (workers.task t).workerContext.isWorker = true) :
    InWrappers home
      (workers.lpelWorkerTaskWakeupLocal mechanism target wc t) := by
  unfold Workers.lpelWorkerTaskWakeupLocal
  have asserted : InWrappers home
      ((workers.assert ((workers.task t).state ≠ .ready)).assert
        ((workers.task t).workerContext = wc)) :=
    inside.congr (fun _ => rfl) rfl rfl
  have noted : InWrappers home
      (((workers.assert ((workers.task t).state ≠ .ready)).assert
        ((workers.task t).workerContext = wc)).note t
          fun history => { history with block := .idle }) :=
    asserted.congr (fun _ => rfl) rfl rfl
  apply (noted.setState t .ready).makeTaskReady
  exact (inside.isWorker_iff t).mp onWorker

end InWrappers

/-- The running task of a wrapper is given no target when it yields. -/
def yieldsAtHome [DecidableEq τ] (mechanism : Mechanism)
    (workers : Workers τ n) : WorkerLabel τ n → Prop
  | .yield self target =>
      ∀ wid ct, mechanism = .waitProp → target = some wid → 0 < wid.val →
        workers.currentTask self = some ct →
        (workers.task ct).workerContext.isWorker = true
  | _ => True

variable [DecidableEq τ] {home : τ → Option (Fin n)}
variable {workers after : Workers τ n} {label : WorkerLabel τ n}
variable {mechanism : Mechanism}

/-- A step in which no wrapper is given a target. -/
theorem InWrappers.step
    (inside : InWrappers home workers)
    (taken : workersNext mechanism workers label = some after)
    (stays : yieldsAtHome mechanism workers label) :
    InWrappers home after := by
  have step := workersNext_cases taken
  cases step with
  | @start t =>
      have noted : InWrappers home
          ((workers.assert ((workers.task t).state = .created)).note t
            fun history => { history with started := true }) :=
        inside.congr (fun _ => rfl) rfl rfl
      exact noted.sendAssign t
  | @setPriority t prio =>
      refine inside.congr ?_ rfl rfl
      intro u
      by_cases same : u = t
      · subst same
        simp
      · simp [same]
  | terminate =>
      apply inside.send
      rintro u - (same | same) <;> cases same
  | notify =>
      apply inside.send
      rintro u - (same | same) <;> cases same
  | thread taken => exact inside.threadStep taken
  | @yield self target _ ct _ current =>
      apply inside.yield
      intro wid waits targeted positive
      exact stays wid ct waits targeted positive current
  | exit => exact inside.exit _ _
  | checkMigrate => exact inside.checkMigrate _ _ _ _
  | commit => exact inside.congr (fun _ => rfl) rfl rfl
  | block => exact inside.block _ _
  | wakeup => exact inside.wakeup _ _ _ _
  | @spmdWakeup self whom target =>
      simp only [workersNext, Option.ite_none_right_eq_some] at taken
      obtain ⟨⟨-, onWorker, -, context⟩, -⟩ := taken
      apply inside.wakeupLocal
      rw [context]
      exact onWorker

/-- A target for the running task of a wrapper takes it away. -/
theorem InWrappers.lost
    (inside : InWrappers home workers)
    (taken : workersNext mechanism workers label = some after)
    (keep : WrappersKeepTasks home after) :
    yieldsAtHome mechanism workers label := by
  have step := workersNext_cases taken
  cases step with
  | @yield self target _ ct _ current =>
      rintro wid other rfl rfl positive current'
      obtain rfl := Option.some.inj (current.symm.trans current')
      rw [inside.isWorker_iff]
      intro wrapped
      have context := keep.context ct wrapped
      have before : (workers.task ct).workerContext ≠ .worker wid := by
        rw [inside.context ct wrapped]
        simp
      simp [Workers.lpelTaskYield, positive, Workers.lpelWorkerSelfTaskMigrate,
        Workers.taskStop, Workers.assert, Workers.setState, Workers.setContext,
        before] at context
  | _ => trivial

/-- A task created with `LPEL_MAP_OTHERS` stays with its wrapper along exactly the
runs in which no wrapper is given a target for its yielding task. -/
theorem wrapperTasksStay
    (mechanism : Mechanism)
    (home : τ → Option (Fin n))
    (unset : τ → ℤ)
    (labels : List (WorkerLabel τ n)) :
    (workersMachine τ n mechanism).HoldsAlong (WrappersKeepTasks home)
        (workersStart home unset) labels ↔
      (workersMachine τ n mechanism).StepsMeet (yieldsAtHome mechanism)
        (workersStart home unset) labels := by
  have start : InWrappers home (workersStart home unset) := by
    refine ⟨?_, ?_, fun _ => rfl, ?_⟩
    · intro t wrapped
      simp [workersStart, wrapped]
    · intro t mapped
      obtain ⟨wid, mapped⟩ := Option.ne_none_iff_exists'.mp mapped
      simp [workersStart, mapped, Context.isWorker]
    · intro wc msg member
      cases member
  refine Machine.holdsAlong_iff_stepsMeet (InWrappers home) ?_ ?_ ?_ start
    labels
  · exact fun _ inside => inside.keep
  · exact fun _ _ _ inside taken stays => inside.step taken stays
  · exact fun _ _ _ inside taken keep => inside.lost taken keep

/-- A wrapper executes its task, which yields and is given worker 1 as a
target.  The wrapper goes on until it waits for a message. -/
def strandedTask : List (WorkerLabel ℕ 2) :=
  [.start 0, .thread (.wrapper 0) none, .thread (.wrapper 0) none,
    .thread (.wrapper 0) none, .thread (.wrapper 0) none,
    .thread (.wrapper 0) none, .yield (.wrapper 0) (some (Fin.last 1)),
    .thread (.wrapper 0) none, .thread (.wrapper 0) none,
    .thread (.wrapper 0) none]

/-- The task belongs to worker 1, which never hears of it. -/
theorem wrapperTasksStay_stranded :
    ∃ workers : Workers ℕ 2,
      (workersMachine ℕ 2 .waitProp).Reachable workers ∧
      ((workers.task 0).workerContext = .worker (Fin.last 1) ∧
        workers.migrated (.wrapper 0) = some 0 ∧
        workers.thread (.wrapper 0) = .wait ∧
        workers.mailbox (.wrapper 0) = [] ∧
        workers.mailbox (.worker (Fin.last 1)) = []) ∧
      ¬ WrappersKeepTasks (fun _ => none) workers := by
  obtain ⟨workers, reached, tested⟩ := Machine.exists_reachable_of_run
    (⟨fun _ => none, fun _ => 0, rfl⟩ : (workersMachine ℕ 2 .waitProp).init
      (workersStart (fun _ => none) fun _ => 0))
    (by decide : ((workersMachine ℕ 2 .waitProp).run
      (workersStart (fun _ => none) fun _ => 0) strandedTask).map
      (fun workers => decide
        ((workers.task 0).workerContext = .worker (Fin.last 1) ∧
          workers.migrated (.wrapper 0) = some 0 ∧
          workers.thread (.wrapper 0) = .wait ∧
          workers.mailbox (.wrapper 0) = [] ∧
          workers.mailbox (.worker (Fin.last 1)) = [])) = some true)
  have values := of_decide_eq_true tested
  refine ⟨workers, reached, values, ?_⟩
  intro keep
  have context := keep.context 0 rfl
  rw [values.1] at context
  cases context

end Decen
end Lpel
