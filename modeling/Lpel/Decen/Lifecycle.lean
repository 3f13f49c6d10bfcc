import Lpel.Decen.ThreadEffects
import Lpel.Lib.Lifecycle

/-!
# The life cycle of the tasks of the decentralised back end

The workers and the wrappers take a task through the phases of its life cycle.  A
task that is in a message, in a ready queue, in the slot of a wrapper or on its way to
another worker is ready, and a blocked task becomes ready when its wakeup is sent.  So
a migration of the running task is a yield for it, and handling a message is no event.
-/

namespace Lpel
namespace Decen

open Lifecycle (Phase Event)

variable {τ : Type} {n : ℕ}

/-! ## Phases -/

/-- The phase of a task that was started. -/
def TaskState.phase : TaskState → Block → Phase
  | .created, _ | .ready, _ | .blocked, .idle | .blocked, .sent => .ready
  | .running, .idle => .running
  | .running, .committed => .committed false
  | .running, .sent => .committed true
  | .blocked, .committed => .blocked
  | .zombie, _ => .exited

/-- The phase of a task. -/
def Workers.phase (workers : Workers τ n) (t : τ) : Phase :=
  if (workers.history t).started then
    (workers.task t).state.phase (workers.history t).block
  else
    .created

theorem phase_of_started
    {workers : Workers τ n}
    {t : τ}
    (started : (workers.history t).started = true) :
    workers.phase t = (workers.task t).state.phase (workers.history t).block := by
  rw [Workers.phase, if_pos started]

/-- A task with a phase was started. -/
theorem started_of_phase
    {workers : Workers τ n}
    {t : τ}
    (known : workers.phase t ≠ .created) :
    (workers.history t).started = true := by
  by_contra unstarted
  exact known (by rw [Workers.phase, if_neg unstarted])

/-- The state and the wakeup of a task that executes its function. -/
theorem TaskState.executes_phase
    {state : TaskState}
    {block : Block}
    (executes : (state.phase block).executes = true) :
    state = .running := by
  cases state <;> cases block <;> first | rfl | cases executes

/-- A wakeup is awaited where none was issued. -/
theorem TaskState.awaits_phase
    {state : TaskState}
    {block : Block}
    (awaits : (state.phase block).awaits = true) :
    block = .committed := by
  cases state <;> cases block <;> first | rfl | cases awaits

section Operations

variable [DecidableEq τ]

/-- The state of a task changes. -/
theorem phase_setState
    (workers : Workers τ n)
    {t : τ}
    (started : (workers.history t).started = true)
    (state : TaskState) :
    (workers.setState t state).phase =
      Function.update workers.phase t
        (state.phase (workers.history t).block) := by
  funext u
  by_cases same : u = t
  · subst same
    rw [Function.update_self, phase_of_started (by exact started)]
    simp [Workers.setState]
  · rw [Function.update_of_ne same]
    simp [Workers.phase, Workers.setState, same]

/-- The wakeup of a task is issued or taken. -/
theorem phase_note
    (workers : Workers τ n)
    {t : τ}
    (started : (workers.history t).started = true)
    (block : Block) :
    (workers.note t fun history => { history with block := block }).phase =
      Function.update workers.phase t
        ((workers.task t).state.phase block) := by
  funext u
  by_cases same : u = t
  · subst same
    rw [Function.update_self, phase_of_started (by simpa [Workers.note] using started)]
    simp [Workers.note]
  · rw [Function.update_of_ne same]
    simp [Workers.phase, Workers.note, same]

/-- A blocked task is woken up. -/
theorem phase_wake
    {workers : Workers τ n}
    {t : τ}
    (started : (workers.history t).started = true) :
    ((workers.note t fun history =>
        { history with block := .idle }).setState t .ready).phase =
      Function.update workers.phase t .ready := by
  rw [phase_setState _ (by simpa [Workers.note] using started),
    phase_note workers started,
    Function.update_idem]
  rfl

/-- A task that is given to another worker keeps its phase. -/
theorem phase_setContext (workers : Workers τ n) (t : τ) (wc : Context τ n) :
    (workers.setContext t wc).phase = workers.phase := by
  funext u
  by_cases same : u = t
  · subst same
    simp [Workers.phase, Workers.setContext]
  · simp [Workers.phase, Workers.setContext, same]

/-- `LpelTaskSetPriority`. -/
theorem phase_setPriority (workers : Workers τ n) (t : τ) (prio : ℤ) :
    Workers.phase
        { workers with
          task := Function.update workers.task t
            { workers.task t with prio := prio } } =
      workers.phase := by
  funext u
  by_cases same : u = t
  · subst same
    simp [Workers.phase]
  · simp [Workers.phase, same]

theorem phase_putReady (workers : Workers τ n) (wc : Context τ n) (t : τ) :
    (workers.putReady wc t).phase = workers.phase := by
  unfold Workers.putReady
  split <;> rfl

/-- `LpelWorkerMakeTaskReady`. -/
theorem phase_makeTaskReady
    (mechanism : Mechanism)
    (target : Option (Fin n))
    (workers : Workers τ n)
    (t : τ) :
    (workers.lpelWorkerMakeTaskReady mechanism target t).phase =
      workers.phase := by
  unfold Workers.lpelWorkerMakeTaskReady
  dsimp only
  split
  case h_1 wid =>
    split
    case isTrue => exact phase_setContext workers t (.worker wid)
    case isFalse => rfl
  case h_2 => rfl

/-- `CleanupTaskContext` destroys a task that has exited. -/
theorem phase_cleanup
    (workers : Workers τ n)
    (wc : Context τ n)
    (marked : Option τ) :
    (workers.cleanupTaskContext wc marked).phase = workers.phase := by
  have destroyed (t : τ) :
      (workers.lpelTaskDestroy t).phase = workers.phase := by
    funext u
    by_cases same : u = t
    · subst same
      simp [Workers.phase, Workers.lpelTaskDestroy, Workers.note, Workers.assert]
    · simp [Workers.phase, Workers.lpelTaskDestroy, Workers.note, Workers.assert,
        same]
  unfold Workers.cleanupTaskContext
  cases workers.markedDel wc <;> cases marked <;> first | rfl | exact destroyed _

/-- The task to be handed off is sent to its worker. -/
theorem phase_handOff (workers : Workers τ n) (wc : Context τ n) :
    (workers.handOff wc).phase = workers.phase := by
  unfold Workers.handOff
  cases workers.migrated wc <;> rfl

/-- The dispatcher starts. -/
theorem phase_dispatcher (workers : Workers τ n) (self : Context τ n) (t : τ) :
    (workers.lpelWorkerDispatcher self t).phase = workers.phase := by
  unfold Workers.lpelWorkerDispatcher
  dsimp only
  split <;> rfl

/-- `LpelWorkerSelfTaskMigrate`. -/
theorem phase_selfTaskMigrate
    (workers : Workers τ n)
    (self : Context τ n)
    (t : τ)
    (wid : Fin n) :
    (workers.lpelWorkerSelfTaskMigrate self t wid).phase = workers.phase := by
  unfold Workers.lpelWorkerSelfTaskMigrate
  dsimp only
  split
  case isTrue => rfl
  case isFalse => exact phase_setContext workers t (.worker wid)

/-- `LpelWorkerSelfTaskExit`. -/
theorem phase_selfTaskExit (workers : Workers τ n) (t : τ) :
    (workers.lpelWorkerSelfTaskExit t).phase = workers.phase := by
  unfold Workers.lpelWorkerSelfTaskExit
  dsimp only
  split <;> exact phase_cleanup workers _ (some t)

end Operations

/-! ## Events -/

section Steps

variable [DecidableEq τ]

/-- `LpelTaskCheckMigrate` takes the running task to another worker. -/
def Workers.departs
    (mechanism : Mechanism)
    (target : Option (Fin n))
    (workers : Workers τ n)
    (t : τ) : Bool :=
  match mechanism, target with
  | .rand, some wid =>
      (workers.task t).workerContext.isWorker &&
        decide ((workers.task t).workerContext ≠ .worker wid)
  | _, _ => false

/-- The event that a step is for a task. -/
def Workers.event (mechanism : Mechanism) (workers : Workers τ n) :
    WorkerLabel τ n → Option (τ × Event)
  | .start t => some (t, .start)
  | .setPriority _ _ | .terminate _ | .notify _ => none
  | .thread self _ =>
      match workers.thread self with
      | .resume t => some (t, .dispatch)
      | _ => none
  | .yield self _ => (workers.thread self).task.map fun t => (t, .yield)
  | .exit self => (workers.thread self).task.map fun t => (t, .exit)
  | .checkMigrate self target =>
      match (workers.thread self).task with
      | some t =>
          if workers.departs mechanism target t then some (t, .yield) else none
      | none => none
  | .commit self => (workers.thread self).task.map fun t => (t, .commit)
  | .block self => (workers.thread self).task.map fun t => (t, .block)
  | .wakeup _ whom _ | .spmdWakeup _ whom _ => some (whom, .wakeup)

variable {workers after : Workers τ n} {self wc : Context τ n} {t : τ}
variable {mechanism : Mechanism} {target : Option (Fin n)}
variable {place : τ → Option (Place τ n)}

/-- What happens to one task. -/
theorem goes_of
    {event : Event}
    (phase : Phase)
    (goes : (workers.phase t).next event = some phase)
    (becomes : after.phase = Function.update workers.phase t phase) :
    (Lifecycle.machine τ).run workers.phase (some (t, event)).toList =
      some after.phase := by
  refine Lifecycle.run_toList_iff.mpr (Lifecycle.next_iff.mpr ⟨?_, ?_⟩)
  · rw [becomes, Function.update_self]
    exact goes
  · intro u other
    rw [becomes, Function.update_of_ne other]

/-- A thread in the function of a task is where the task is. -/
theorem Core.of_function
    (core : Core workers none none place)
    (inside : (workers.thread self).function = some t) :
    (workers.history t).started = true ∧ (workers.task t).state = .running ∧
      place t = some (.running self) := by
  have task := Pc.task_of_function inside
  obtain ⟨at_, alive, -, fits⟩ := core.fits_at
    (t := t) (p := .running self) (by simp [Workers.copies, task])
  refine ⟨alive.1, ?_, at_⟩
  cases here : workers.thread self <;>
    simp_all [Pc.function, Pc.Fits, Workers.status]

/-- A task that a thread switches to is ready. -/
theorem Core.phase_resume
    (core : Core workers none none place)
    (position : workers.thread self = .resume t) :
    (workers.history t).started = true ∧ workers.phase t = .ready := by
  obtain ⟨-, alive, -, fits⟩ := core.fits_at (t := t) (p := .running self)
    (by simp [Workers.copies, position, Pc.task])
  rw [position] at fits
  refine ⟨alive.1, ?_⟩
  rw [phase_of_started alive.1, show (workers.task t).state = .ready from fits.1]
  rfl

/-- The running task. -/
theorem Core.phase_running
    (core : Core workers none none place)
    (position : workers.thread self = .running t) :
    (workers.history t).started = true ∧ workers.phase t = .running := by
  obtain ⟨started, state, -⟩ := core.of_function (by rw [position]; rfl)
  refine ⟨started, ?_⟩
  rw [phase_of_started started, state, (core.executes position).idle]
  rfl

/-- The task that is about to block. -/
theorem Core.phase_committed
    (core : Core workers none none place)
    (position : workers.thread self = .committed t) :
    (workers.history t).started = true ∧
      ∃ woken, workers.phase t = .committed woken := by
  obtain ⟨started, state, -⟩ := core.of_function (by rw [position]; rfl)
  obtain ⟨-, fits, -⟩ := core.onThread (t := t) (by rw [position]; rfl)
  rw [position] at fits
  have waits : (workers.history t).block ≠ .idle := fits.2
  refine ⟨started, ?_⟩
  rw [phase_of_started started, state]
  cases block : (workers.history t).block with
  | idle => exact absurd block waits
  | committed => exact ⟨false, rfl⟩
  | sent => exact ⟨true, rfl⟩

/-- A task in a block is about to block on its thread, or blocked. -/
theorem Core.blocking
    (core : Core workers none none place)
    (waits : (workers.history t).block ≠ .idle) :
    (workers.history t).started = true ∧
      ((workers.task t).state = .running ∨ (workers.task t).state = .blocked) := by
  by_cases here : (workers.thread (workers.task t).workerContext).task = some t
  · obtain ⟨-, alive, -, fits⟩ := core.fits_at (t := t)
      (p := .running (workers.task t).workerContext)
      (by simp [Workers.copies, here])
    refine ⟨alive.1, .inl ?_⟩
    cases position : workers.thread (workers.task t).workerContext with
    | running | committed =>
        rw [position] at fits
        exact fits.1
    | resume =>
        rw [position] at fits
        exact absurd fits.2 waits
    | _ =>
        rw [position] at fits
        cases fits
  · obtain ⟨-, alive, state⟩ := core.blocked_of waits rfl here
    exact ⟨alive.1, .inr state⟩

/-- Handling a message is no event for a task. -/
theorem Core.phase_receive
    (core : Core workers none none place)
    (idle : (workers.thread self).task = none)
    (received : workers.receive mechanism target self = some after) :
    after.phase = workers.phase := by
  unfold Workers.receive at received
  cases mail : workers.mailbox self with
  | nil => simp [mail] at received
  | cons msg rest =>
      simp only [mail, Option.some.injEq] at received
      subst received
      set taken : Workers τ n :=
        { workers with mailbox := Function.update workers.mailbox self rest }
        with isTaken
      cases msg with
      | terminate | spmdreq => rfl
      | wakeup t =>
          obtain ⟨-, blocked, -⟩ := core.takeWakeup idle mail
          have sent := core.sent_of_mail (t := t)
            (by rw [mail]; exact List.mem_cons_self)
          have started := (core.blocking (t := t) (by simp [sent])).1
          have woken : (((taken.assert ((taken.task t).state ≠ .ready)).note t
              fun history => { history with block := .idle }).setState t
                .ready).phase = workers.phase := by
            rw [phase_wake (by exact started)]
            refine Function.update_eq_iff.mpr ⟨?_, fun _ _ => rfl⟩
            rw [phase_of_started started, blocked, sent]
            rfl
          dsimp only [Workers.processMessage]
          split
          case isTrue => rw [phase_makeTaskReady, woken]
          case isFalse => exact woken
      | assign t =>
          obtain ⟨-, alive, -⟩ := core.fits_at (t := t) (p := .assigned self)
            (by simp [Workers.copies, mail])
          dsimp only [Workers.processMessage]
          rw [phase_putReady]
          split
          case isTrue created =>
            have state : (workers.task t).state = .created := created
            refine (phase_setState taken alive.1 .ready).trans
              (Function.update_eq_iff.mpr ⟨?_, fun _ _ => rfl⟩)
            rw [phase_of_started alive.1, state]
            rfl
          case isFalse => rfl

/-- A thread outside the functions of tasks at most starts to execute one. -/
theorem Core.lifecycle_thread
    (core : Core workers none none place)
    (taken : workers.threadNext mechanism target self = some after) :
    (Lifecycle.machine τ).run workers.phase
        (workers.event mechanism (.thread self target)).toList =
      some after.phase := by
  -- A step from elsewhere is no event, and the phases are as they were.
  have silent {pc : Pc τ n} (position : workers.thread self = pc)
      (elsewhere : ∀ t, pc ≠ .resume t) (same : after.phase = workers.phase) :
      (Lifecycle.machine τ).run workers.phase
          (workers.event mechanism (.thread self target)).toList =
        some after.phase := by
    have none : workers.event mechanism (.thread self target) = none := by
      cases pc with
      | resume t => exact absurd rfl (elsewhere t)
      | _ => simp [Workers.event, position]
    rw [none, same]
    rfl
  cases threadNext_cases taken with
  | fetch position takes | fetchNone position takes | pickSame position takes
  | pick position takes | pickNone position takes =>
      obtain ⟨-, rfl⟩ := Prod.mk.inj takes
      exact silent position (by simp) rfl
  | takeWraptask position | noWraptask position | leaveWorker position
  | again position | dispatched position | backWrapper position =>
      exact silent position (by simp) rfl
  | @wait middle position received =>
      have same : middle.phase = workers.phase :=
        core.phase_receive (by rw [position]; rfl) received
      exact silent position (by simp) same
  | drain position received =>
      exact silent position (by simp)
        (core.phase_receive (by rw [position]; rfl) received)
  | dispatcher position received =>
      obtain ⟨rfl, -⟩ := core.dispatches (.inl position)
      exact silent position (by simp)
        (core.phase_receive (by rw [position]; rfl) received)
  | leaveWrapper position =>
      exact silent position (by simp) (phase_cleanup workers self none)
  | backWorker position =>
      exact silent position (by simp)
        ((phase_cleanup (workers.handOff self) self none).trans
          (phase_handOff workers self))
  | @taskStart t position =>
      obtain ⟨started, ready⟩ := core.phase_resume position
      have idle : (workers.history t).block = .idle := by
        obtain ⟨-, fits, -⟩ := core.onThread (t := t) (by rw [position]; rfl)
        rw [position] at fits
        exact fits.2
      simp only [Workers.event, position]
      refine goes_of _ (by rw [ready]; rfl)
        ((phase_setState workers started .running).trans ?_)
      rw [idle]
      rfl

/-- The running task yields. -/
theorem phase_yield
    (started : (workers.history t).started = true) :
    (workers.lpelTaskYield mechanism target self t).phase =
      Function.update workers.phase t .ready := by
  have readied : (workers.setState t .ready).phase =
      Function.update workers.phase t .ready :=
    phase_setState workers started .ready
  have stays (before : Workers τ n) (wc : Context τ n)
      (same : before.phase = Function.update workers.phase t .ready) :
      (((before.putReady wc t).taskStop t).lpelWorkerDispatcher self t).phase =
        Function.update workers.phase t .ready := by
    rw [phase_dispatcher, ← same]
    exact phase_putReady before wc t
  unfold Workers.lpelTaskYield
  dsimp only
  split
  case h_1 wid =>
    split
    case isTrue =>
      rw [phase_selfTaskMigrate]
      exact readied
    case isFalse => exact stays _ _ readied
  case h_2 => exact stays _ _ readied

/-- The running task is taken to another worker, or goes on. -/
theorem phase_checkMigrate
    (started : (workers.history t).started = true)
    (mechanism : Mechanism)
    (target : Option (Fin n))
    (self : Context τ n) :
    (workers.lpelTaskCheckMigrate mechanism target self t).phase =
      if workers.departs mechanism target t then
        Function.update workers.phase t .ready
      else workers.phase := by
  unfold Workers.lpelTaskCheckMigrate
  split
  case isTrue stays =>
    have remains : workers.departs mechanism target t = false := by
      unfold Workers.departs
      split
      case h_1 =>
        rcases stays with other | wrapper
        · exact absurd rfl other
        · rw [wrapper]
          rfl
      case h_2 => rfl
    rw [remains]
    rfl
  case isFalse migrates =>
    rw [not_or, not_not, Bool.not_eq_false] at migrates
    obtain ⟨rfl, isWorker⟩ := migrates
    cases target with
    | none => rfl
    | some wid =>
        have departs : workers.departs .rand (some wid) t =
            decide ((workers.task t).workerContext ≠ .worker wid) := by
          simp [Workers.departs, isWorker]
        rw [departs]
        dsimp only
        split
        case isTrue here =>
          replace here : (workers.task t).workerContext = .worker wid := here
          rw [if_neg (by simp [here])]
          rfl
        case isFalse elsewhere =>
          replace elsewhere : (workers.task t).workerContext ≠ .worker wid :=
            elsewhere
          rw [if_pos (decide_eq_true elsewhere), phase_selfTaskMigrate]
          exact phase_setState workers started .ready

/-- The running task exits. -/
theorem phase_exit
    (started : (workers.history t).started = true) :
    (workers.lpelTaskExit self t).phase =
      Function.update workers.phase t .exited := by
  have exited : (workers.setState t .zombie).phase =
      Function.update workers.phase t .exited :=
    phase_setState workers started .zombie
  unfold Workers.lpelTaskExit
  dsimp only
  rw [phase_dispatcher, ← exited]
  exact phase_selfTaskExit
    ((workers.assert ((workers.task t).state = .running)).setState t .zombie) t

/-- The task that has committed to it blocks. -/
theorem phase_block
    (started : (workers.history t).started = true) :
    (workers.lpelTaskBlockStream self t).phase =
      Function.update workers.phase t
        (TaskState.blocked.phase (workers.history t).block) := by
  unfold Workers.lpelTaskBlockStream
  rw [phase_dispatcher]
  exact phase_setState workers started .blocked

/-- A task in a block is woken up on the worker where it is blocked. -/
theorem Core.goes_wakeLocal
    (core : Core workers none none place)
    (committed : (workers.history t).block = .committed)
    (notThere : (workers.thread (workers.task t).workerContext).task ≠ some t)
    (same : after.phase = ((workers.note t fun history =>
      { history with block := .idle }).setState t .ready).phase) :
    (Lifecycle.machine τ).run workers.phase (some (t, .wakeup)).toList =
      some after.phase := by
  obtain ⟨-, alive, state⟩ := core.blocked_of (by simp [committed]) rfl notThere
  refine goes_of .ready ?_ (same.trans (phase_wake alive.1))
  rw [phase_of_started alive.1, state, committed]
  rfl

/-- The wakeup of a task is sent. -/
theorem Core.goes_sendWakeup
    (core : Core workers none none place)
    (committed : (workers.history t).block = .committed) :
    (Lifecycle.machine τ).run workers.phase (some (t, .wakeup)).toList =
      some (workers.sendWakeup wc t).phase := by
  obtain ⟨started, state⟩ := core.blocking (t := t) (by simp [committed])
  refine goes_of ((workers.task t).state.phase .sent) ?_
    (phase_note workers started .sent)
  rw [phase_of_started started, committed]
  rcases state with state | state <;> rw [state] <;> rfl

/-- `LpelWorkerTaskWakeup` by the running task. -/
theorem Core.goes_wakeup
    (core : Core workers none none place)
    {whom : τ}
    (position : workers.thread self = .running t)
    (committed : (workers.history whom).block = .committed) :
    (Lifecycle.machine τ).run workers.phase (some (whom, .wakeup)).toList =
      some (workers.lpelWorkerTaskWakeup mechanism target t whom).phase := by
  have executes := core.executes position
  unfold Workers.lpelWorkerTaskWakeup
  dsimp only
  split
  case isFalse => exact core.goes_sendWakeup committed
  case isTrue =>
    split
    case isTrue => exact core.goes_sendWakeup committed
    case isFalse sameWorker =>
      -- the waking task is on the thread, so the other one is not
      rw [not_not, executes.context] at sameWorker
      refine core.goes_wakeLocal committed ?_ (phase_makeTaskReady ..)
      rw [← sameWorker, executes.task]
      intro same
      obtain rfl := Option.some.inj same
      exact absurd (executes.idle.symm.trans committed) (by simp)

/-- Every step is what its event is for the task. -/
theorem Core.lifecycle
    (core : Core workers none none place)
    {label : WorkerLabel τ n}
    (taken : workersNext mechanism workers label = some after) :
    (Lifecycle.machine τ).run workers.phase
        (workers.event mechanism label).toList =
      some after.phase := by
  cases workersNext_cases taken with
  | @start t unstarted =>
      obtain ⟨-, created⟩ := core.start unstarted
      refine goes_of .ready ?_ ?_
      · rw [Workers.phase, if_neg (by simp [unstarted])]
        rfl
      · funext u
        by_cases same : u = t
        · subst same
          simp [Workers.phase, Workers.sendAssign, Workers.send, Workers.note,
            Workers.assert, created, TaskState.phase]
        · simp [Workers.phase, Workers.sendAssign, Workers.send, Workers.note,
            Workers.assert, same]
  | @setPriority t prio =>
      rw [phase_setPriority workers t prio]
      rfl
  | terminate | notify => rfl
  | thread moved => exact core.lifecycle_thread moved
  | @yield self target t _ position current =>
      obtain rfl := core.current_eq position current
      obtain ⟨started, running⟩ := core.phase_running position
      simp only [Workers.event, position, Pc.task, Option.map_some]
      exact goes_of _ (by rw [running]; rfl) (phase_yield started)
  | @exit self t _ position current =>
      obtain rfl := core.current_eq position current
      obtain ⟨started, running⟩ := core.phase_running position
      simp only [Workers.event, position, Pc.task, Option.map_some]
      exact goes_of _ (by rw [running]; rfl) (phase_exit started)
  | @checkMigrate self target t _ position current =>
      obtain rfl := core.current_eq position current
      obtain ⟨started, running⟩ := core.phase_running position
      have phases := phase_checkMigrate started mechanism target self
      simp only [Workers.event, position, Pc.task]
      split
      case isTrue departs =>
        rw [if_pos departs] at phases
        exact goes_of _ (by rw [running]; rfl) phases
      case isFalse stays =>
        rw [if_neg stays] at phases
        rw [phases]
        rfl
  | @commit self t position =>
      obtain ⟨started, running⟩ := core.phase_running position
      obtain ⟨-, state, -⟩ := core.of_function (t := t) (by rw [position]; rfl)
      simp only [Workers.event, position, Pc.task, Option.map_some]
      refine goes_of _ (by rw [running]; rfl)
        ((phase_note workers started .committed).trans ?_)
      rw [state]
      rfl
  | @block self t position =>
      obtain ⟨started, -⟩ := core.phase_committed position
      obtain ⟨-, fits, -⟩ := core.onThread (t := t) (by rw [position]; rfl)
      rw [position] at fits
      have waits : (workers.history t).block ≠ .idle := fits.2
      simp only [Workers.event, position, Pc.task, Option.map_some]
      refine goes_of _ ?_ (phase_block started)
      rw [phase_of_started started, show (workers.task t).state = .running from fits.1]
      cases block : (workers.history t).block with
      | idle => exact absurd block waits
      | committed | sent => rfl
  | wakeup position committed => exact core.goes_wakeup position committed
  | @spmdWakeup self whom target handles committed context =>
      have idle : (workers.thread self).task = none := by
        cases position : workers.thread self <;>
          simp_all [Pc.handlesSpmd, Pc.task]
      refine core.goes_wakeLocal committed ?_ (phase_makeTaskReady ..)
      rw [context, idle]
      simp

/-! ## The scheduler -/

/-- The task of a thread in its function is running or about to block. -/
theorem Core.phase_function
    (core : Core workers none none place)
    (inside : (workers.thread self).function = some t) :
    workers.thread self = .running t ∧ workers.phase t = .running ∨
      workers.thread self = .committed t ∧
        ∃ woken, workers.phase t = .committed woken := by
  cases position : workers.thread self with
  | running u =>
      rw [position] at inside
      cases inside
      exact .inl ⟨rfl, (core.phase_running position).2⟩
  | committed u =>
      rw [position] at inside
      cases inside
      exact .inr ⟨rfl, (core.phase_committed position).2⟩
  | _ =>
      rw [position] at inside
      cases inside

/-- A task that executes its function does so on a thread. -/
theorem Core.exists_function
    (core : Core workers none none place)
    (executes : (workers.phase t).executes = true) :
    ∃ wc, (workers.thread wc).function = some t := by
  have started : (workers.history t).started = true :=
    started_of_phase (by intro created; rw [created] at executes; cases executes)
  rw [phase_of_started started] at executes
  have state := TaskState.executes_phase executes
  have fits := core.fits t (by simp)
  cases at_ : place t with
  | none =>
      rw [at_] at fits
      rcases fits.life with ⟨-, -, other⟩ | ⟨-, -, other⟩ <;>
        exact absurd (state.symm.trans other) (by simp)
  | some p =>
      rw [at_] at fits
      obtain ⟨-, fits⟩ := fits
      cases p with
      | running wc =>
          have copies := core.located t (.running wc)
          rw [at_, if_pos rfl, Workers.copies] at copies
          have task : (workers.thread wc).task = some t := by
            by_contra other
            rw [if_neg other] at copies
            cases copies
          refine ⟨wc, ?_⟩
          have stands := fits.2
          cases position : workers.thread wc with
          | running u | committed u =>
              rw [position] at task
              exact task
          | resume u =>
              rw [position] at stands
              exact absurd (state.symm.trans stands.1) (by simp)
          | _ =>
              rw [position] at task
              cases task
      | assigned wc =>
          rcases fits.1 with other | other <;>
            exact absurd (state.symm.trans other) (by simp)
      | ready wc | blocked wc | migrated wc | zombie wc =>
          exact absurd (state.symm.trans fits.1) (by simp)

/-- What a running task can ask for. -/
theorem Core.asks_running
    (core : Core workers none none place)
    (mechanism : Mechanism)
    (inside : (workers.thread self).function = some t)
    (running : workers.phase t = .running) :
    workers.thread self = .running t ∧
    (workers.event mechanism (.commit self) = some (t, .commit) ∧
      (workersNext mechanism workers (.commit self)).isSome = true) ∧
    (workers.event mechanism (.exit self) = some (t, .exit) ∧
      (workersNext mechanism workers (.exit self)).isSome = true) := by
  rcases core.phase_function inside with ⟨position, -⟩ | ⟨-, woken, committed⟩
  · have current := (core.executes position).current
    simp [Workers.event, workersNext, position, current, Pc.task]
  · rw [running] at committed
    cases committed

/-- What a task that has committed to block asks for. -/
theorem Core.asks_committed
    (core : Core workers none none place)
    (mechanism : Mechanism)
    {woken : Bool}
    (inside : (workers.thread self).function = some t)
    (committed : workers.phase t = .committed woken) :
    workers.event mechanism (.block self) = some (t, .block) ∧
      (workersNext mechanism workers (.block self)).isSome = true := by
  rcases core.phase_function inside with ⟨-, running⟩ | ⟨position, -⟩
  · rw [running] at committed
    cases committed
  · simp [Workers.event, workersNext, position, Pc.task]

/-- A task that waits for a wakeup can be woken up by a running one. -/
theorem asks_wakeup
    {whom : τ}
    (mechanism : Mechanism)
    (position : workers.thread self = .running t)
    (awaits : (workers.phase whom).awaits = true)
    (target : Option (Fin n)) :
    workers.event mechanism (.wakeup self whom target) =
        some (whom, .wakeup) ∧
      (workersNext mechanism workers
        (.wakeup self whom target)).isSome = true := by
  have started : (workers.history whom).started = true :=
    started_of_phase (by intro created; rw [created] at awaits; cases awaits)
  rw [phase_of_started started] at awaits
  have committed := TaskState.awaits_phase awaits
  simp [Workers.event, workersNext, position, committed]

end Steps

/-- The workers and wrappers as a scheduler. -/
def workersScheduler
    (τ : Type)
    (n : ℕ)
    [DecidableEq τ]
    (mechanism : Mechanism) :
    Lifecycle.Scheduler τ (Workers τ n) (WorkerLabel τ n) (Context τ n)
      (Option (Fin n)) where
  machine := workersMachine τ n mechanism
  phase := Workers.phase
  event := Workers.event mechanism
  function workers wc := (workers.thread wc).function
  commit := .commit
  block := .block
  exit := .exit
  wakeup := .wakeup
  invariant := Workers.Conserved
  init := by
    rintro _ ⟨home, unset, rfl⟩
    exact ⟨conserved_workersStart home unset, fun _ => rfl⟩
  step := by
    rintro workers label after ⟨place, core⟩ taken
    exact ⟨core.step taken, core.lifecycle taken⟩
  executes := by
    rintro workers t ⟨place, core⟩
    refine ⟨?_, core.exists_function⟩
    rintro ⟨wc, inside⟩
    rcases core.phase_function inside with ⟨-, is⟩ | ⟨-, woken, is⟩ <;>
      rw [is] <;> rfl
  commits := by
    rintro workers wc t ⟨place, core⟩ inside running
    exact (core.asks_running mechanism inside running).2.1
  blocks := by
    rintro workers wc t woken ⟨place, core⟩ inside committed
    exact core.asks_committed mechanism inside committed
  exits := by
    rintro workers wc t ⟨place, core⟩ inside running
    exact (core.asks_running mechanism inside running).2.2
  wakes := by
    rintro workers wc t whom target ⟨place, core⟩ inside running awaits
    exact asks_wakeup mechanism (core.asks_running mechanism inside running).1
      awaits target

/-- In every run, whatever the workers and wrappers do in any order, with any
migration mechanism and any answers of `LpelPickTargetWorker`, every task goes
through its life cycle: what happens to the tasks is a run of their life cycles,
which ends in the phases that the records of the tasks show.  No assertion fails. -/
theorem decenLifecycles
    [DecidableEq τ]
    (mechanism : Mechanism)
    (start workers : Workers τ n)
    (labels : List (WorkerLabel τ n))
    (initial : (workersMachine τ n mechanism).init start)
    (executed : (workersMachine τ n mechanism).run start labels = some workers) :
    (Lifecycle.machine τ).run (fun _ => .created)
        ((workersScheduler τ n mechanism).lifecycles.trace start labels) =
      some workers.phase ∧
    workers.failed = false := by
  obtain ⟨known, starts⟩ := (workersScheduler τ n mechanism).lifecycles.init start
    initial
  obtain ⟨⟨place, core⟩, runs⟩ :=
    (workersScheduler τ n mechanism).lifecycles.run known executed
  rw [show (workersScheduler τ n mechanism).lifecycles.abs start =
    fun _ => .created from starts] at runs
  exact ⟨runs, core.ok⟩

section Example

/-- The task that migrates to another worker and blocks there is ready again, since
its wakeup has been sent. -/
theorem decenLifecycles_migrated :
    ∃ workers : Workers ℕ 2,
      workers.phase 5 = .ready ∧ workers.phase 6 = .running ∧
      (Lifecycle.machine ℕ).run (fun _ => .created)
        ((workersScheduler ℕ 2 .rand).lifecycles.trace
          (workersStart (fun _ => some 0) (fun _ => 0)) (migratingRun 0 1)) =
        some workers.phase := by
  obtain ⟨workers, executed, tested⟩ := Option.map_eq_some_iff.mp
    (by decide : ((workersMachine ℕ 2 .rand).run
      (workersStart (fun _ => some 0) (fun _ => 0)) (migratingRun 0 1)).map
        (fun workers => decide (workers.phase 5 = .ready ∧
          workers.phase 6 = .running)) = some true)
  obtain ⟨ready, running⟩ := of_decide_eq_true tested
  exact ⟨workers, ready, running,
    (decenLifecycles .rand _ workers (migratingRun 0 1) ⟨_, _, rfl⟩ executed).1⟩

end Example

end Decen
end Lpel
