import Lpel.Decen.Moves

/-!
# Steps of the workers

The functions of `decen_worker.c` and `decen_task.c` keep the invariant, under
every migration mechanism.
-/

namespace Lpel
namespace Decen

variable {τ : Type} {n : ℕ} [DecidableEq τ]
variable {workers : Workers τ n} {hand : Option τ}
variable {owner : Option (Context τ n)}
variable {place : τ → Option (Place τ n)} {t : τ} {wc : Context τ n}

/-! ## Changes to the task on a thread -/

/-- What is known of the task on a thread. -/
theorem Core.onThread
    (core : Core workers none none place)
    (executes : (workers.thread wc).task = some t) :
    (workers.task t).workerContext = wc ∧
      (workers.thread wc).Fits (workers.status t) ∧
      workers.currentTask wc = some t := by
  obtain ⟨-, -, context, fits⟩ := core.fits_at
    (t := t) (p := .running wc) (by simp [Workers.copies, executes])
  refine ⟨context, fits, ?_⟩
  have ok := core.threads wc
  cases position : workers.thread wc <;> simp_all [Pc.Ok, Pc.task]

/-- What is known of a task in its function. -/
structure Workers.Executes
    (workers : Workers τ n)
    (wc : Context τ n)
    (t : τ) : Prop where
  task : (workers.thread wc).task = some t
  context : (workers.task t).workerContext = wc
  state : (workers.task t).state = .running
  idle : (workers.history t).block = .idle
  current : workers.currentTask wc = some t

theorem Core.executes
    (core : Core workers none none place)
    (position : workers.thread wc = .running t) :
    workers.Executes wc t := by
  have task : (workers.thread wc).task = some t := by
    rw [position]
    rfl
  obtain ⟨context, fits, current⟩ := core.onThread task
  rw [position] at fits
  exact { task, context, state := fits.1, idle := fits.2, current }

theorem note_self
    {event : History → History}
    (same : event (workers.history t) = workers.history t) :
    workers.note t event = workers := by
  rw [Workers.note, same, Function.update_eq_self]

theorem setState_self
    {state : TaskState}
    (same : (workers.task t).state = state) :
    workers.setState t state = workers := by
  rw [← same, Workers.setState, Function.update_eq_self]

/-- The task on a thread goes on. -/
theorem Core.advance
    (core : Core workers none none place)
    (executes : (workers.thread wc).task = some t)
    (idle : (workers.history t).block = .idle)
    (pc : Pc τ n)
    (goesOn : pc.task = some t)
    (state : TaskState)
    (block : Block)
    (notBlocked : state ≠ .blocked)
    (notSent : block ≠ .sent)
    (fits : pc.Fits { workers.status t with state := state, block := block }) :
    Core
      (((workers.note t fun history =>
        { history with block := block }).setState t state).setThread wc pc)
      none none place := by
  obtain ⟨present, alive, context, fitted⟩ := core.fits_at
    (t := t) (p := .running wc) (by simp [Workers.copies, executes])
  have wasNotBlocked : (workers.task t).state ≠ .blocked := by
    intro blocked
    have located := core.located t (.blocked (workers.task t).workerContext)
    rw [present, Workers.copies, if_pos ⟨blocked, rfl⟩] at located
    simp at located
  refine { core with
    located := ?_, held := by simp, fits := ?_, wakes := ?_, home := ?_,
    threads := ?_,
    migrates := core.migrates_setThread
      (fun _ => core.not_migrating_task executes) pc }
  · refine core.located.congr ?_
    intro u p
    cases p with
    | running other =>
        by_cases same : other = wc
        · subst same
          simp [Workers.copies, Workers.setThread, executes, goesOn]
        · simp [Workers.copies, Workers.setThread, Workers.setState,
            Workers.note, same]
    | blocked other =>
        by_cases same : u = t
        · subst same
          simp [Workers.copies, Workers.setThread, Workers.setState,
            Workers.note, notBlocked, wasNotBlocked]
        · simp [Workers.copies, Workers.setThread, Workers.setState,
            Workers.note, same]
    | _ => rfl
  · intro u _
    by_cases same : u = t
    · subst same
      rw [present]
      refine ⟨?_, ?_, ?_⟩
      · simpa [Workers.status, Workers.setThread, Workers.setState,
          Workers.note, History.Alive] using alive
      · simpa [Workers.status, Workers.setThread, Workers.setState,
          Workers.note] using context
      · simpa [Workers.status, Workers.setThread, Workers.setState,
          Workers.note] using fits
    · have elsewhere : place u ≠ some (.running wc) := by
        refine core.not_running_of ?_
        rw [executes]
        exact fun equal => same (Option.some.inj equal).symm
      have others := (core.fits u (by simp)).setThread elsewhere pc
      simpa [Workers.status, Workers.setThread, Workers.setState, Workers.note,
        same] using others
  · intro u other
    refine (core.wakes u other).trans ?_
    by_cases same : u = t
    · subst same
      simp [Workers.setThread, Workers.setState, Workers.note, idle, notSent]
    · simp [Workers.setThread, Workers.setState, Workers.note, same]
  · intro u v context
    exact core.home u v ((workerContext_setState ..).symm.trans context)
  · intro other
    have ok := core.threads_setThread (Pc.ok_of_task goesOn wc) other
    rwa [← (core.onThread executes).2.2, Function.update_eq_self] at ok

/-- `TaskStart`. -/
theorem Core.taskStart
    (core : Core workers none none place)
    (executes : workers.thread wc = .resume t) :
    Core ((workers.setState t .running).setThread wc (.running t)) none none
        place ∧
      (workers.task t).state = .ready := by
  have task : (workers.thread wc).task = some t := by
    rw [executes]
    rfl
  obtain ⟨-, fits, -⟩ := core.onThread task
  rw [executes] at fits
  have idle : (workers.history t).block = .idle := fits.2
  have unchanged : workers.note t (fun history =>
      { history with block := .idle }) = workers :=
    note_self (by rw [← idle])
  have advanced := core.advance task idle (.running t) rfl .running .idle
    (by simp) (by simp) ⟨rfl, rfl⟩
  rw [unchanged] at advanced
  exact ⟨advanced, fits.1⟩

/-- The task on a thread decides to block. -/
theorem Core.commit
    (core : Core workers none none place)
    (position : workers.thread wc = .running t) :
    Core
      ((workers.note t fun history =>
        { history with block := .committed }).setThread wc (.committed t))
      none none place := by
  have executes := core.executes position
  have advanced := core.advance executes.task executes.idle (.committed t) rfl
    .running .committed (by simp) (by simp) ⟨rfl, by simp⟩
  have unchanged (event : History → History) :
      (workers.note t event).setState t .running = workers.note t event :=
    setState_self executes.state
  rwa [unchanged] at advanced

/-- The task on a thread blocks. -/
theorem Core.block
    (core : Core workers none none place)
    (executes : workers.thread wc = .committed t)
    (pc : Pc τ n)
    (current : Option τ)
    (stays : pc.task = none)
    (ok : pc.Ok wc current) :
    Core (((workers.setState t .blocked).setCurrent wc current).setThread wc pc)
      none none (Function.update place t (some (.blocked wc))) := by
  obtain ⟨present, alive, context, fitted⟩ := core.fits_at
    (t := t) (p := .running wc) (by simp [Workers.copies, executes, Pc.task])
  have executesTask : (workers.thread wc).task = some t := by
    rw [executes]
    rfl
  have waits : (workers.history t).block ≠ .idle := by
    rw [executes] at fitted
    exact fitted.2
  refine { core with
    located := ?_, held := by simp, fits := ?_, wakes := ?_, home := ?_,
    threads := core.threads_setThread ok,
    migrates := core.migrates_setThread
      (fun _ => core.not_migrating_task executesTask) pc, owned := ?_ }
  · refine core.located.move _ ?_ ?_
    · intro u distinct p
      cases p with
      | running other =>
          by_cases same : other = wc
          · subst same
            simp [Workers.copies, Workers.setThread, stays, executesTask,
              distinct.symm]
          · simp [Workers.copies, Workers.setThread, Workers.setCurrent,
              Workers.setState, same]
      | blocked other =>
          simp [Workers.copies, Workers.setThread, Workers.setCurrent,
            Workers.setState, distinct]
      | _ => rfl
    · intro p
      have located := core.located t p
      rw [present] at located
      cases p with
      | running other =>
          by_cases same : other = wc
          · subst same
            simp [Workers.copies, Workers.setThread, stays]
          · simpa [Workers.copies, Workers.setThread, Workers.setCurrent,
              Workers.setState, same, Ne.symm same] using located
      | blocked other =>
          simp [Workers.copies, Workers.setThread, Workers.setCurrent,
            Workers.setState]
          change (workers.task t).workerContext = wc at context
          rw [context]
      | _ => exact located
  · intro u _
    by_cases same : u = t
    · subst same
      rw [Function.update_self]
      refine ⟨alive, ?_, waits, ?_⟩
      · simp [Workers.status, Workers.setThread, Workers.setCurrent,
          Workers.setState]
      · simpa [Workers.status, Workers.setThread, Workers.setCurrent,
          Workers.setState] using context
    · rw [Function.update_of_ne same]
      have elsewhere : place u ≠ some (.running wc) := by
        refine core.not_running_of ?_
        rw [executesTask]
        exact fun equal => same (Option.some.inj equal).symm
      have others := (core.fits u (by simp)).setThread elsewhere pc
      simpa [Workers.status, Workers.setThread, Workers.setCurrent,
        Workers.setState, same] using others
  · intro u other
    refine (core.wakes u other).trans ?_
    by_cases same : u = t
    · subst same
      simp [Workers.setThread, Workers.setCurrent, Workers.setState]
    · simp [Workers.setThread, Workers.setCurrent, Workers.setState, same]
  · intro u v context
    exact core.home u v ((workerContext_setState ..).symm.trans context)
  · intro other u
    rw [holder_move (q := .blocked wc) present rfl]
    exact core.owned other u

/-- The wakeup of a block is sent. -/
theorem Core.sendWakeup
    (core : Core workers none none place)
    (committed : (workers.history t).block = .committed) :
    Core (workers.sendWakeup (workers.task t).workerContext t) none none
      place := by
  refine { core with
    located := ?_, held := by simp, fits := ?_, wakes := ?_,
    notified := core.notified_send _ (by simp) }
  · refine core.located.congr ?_
    intro u p
    cases p with
    | assigned other =>
        by_cases same : other = (workers.task t).workerContext
        · subst same
          simp [Workers.copies, Workers.sendWakeup, Workers.send, Workers.note,
            List.count_append]
        · simp [Workers.copies, Workers.sendWakeup, Workers.send, Workers.note,
            same]
    | _ => rfl
  · intro u _
    have fits := core.fits u (by simp)
    by_cases same : u = t
    · subst same
      -- every place that fits a committed block fits a block with a wakeup
      cases at_ : place u with
      | none =>
          rw [at_] at fits
          exact absurd (fits.block.symm.trans committed) (by simp)
      | some p =>
          rw [at_] at fits
          cases p with
          | running other =>
              refine ⟨by simpa [Workers.status, Workers.sendWakeup,
                Workers.send, Workers.note, History.Alive] using fits.1,
                fits.2.1, ?_⟩
              have fitted := fits.2.2
              change Pc.Fits _ (workers.thread other)
              cases position : workers.thread other <;>
                simp_all [Pc.Fits, Workers.status, Workers.sendWakeup,
                  Workers.send, Workers.note]
          | _ =>
              simp_all [Fits, Place.Fits, Workers.status, Workers.sendWakeup,
                Workers.send, Workers.note, History.Alive]
    · simpa [Workers.status, Workers.sendWakeup, Workers.send, Workers.note,
        same] using fits
  · intro u other
    have wakes := core.wakes u other
    by_cases equal : u = t
    · subst equal
      rw [if_neg fun both => by simp [committed] at both] at wakes
      by_cases same : other = (workers.task u).workerContext
      · subst same
        simp [Workers.sendWakeup, Workers.send, Workers.note,
          List.count_append, wakes]
      · simp [Workers.sendWakeup, Workers.send, Workers.note, same,
          Ne.symm same, wakes]
    · refine Eq.trans ?_ (wakes.trans ?_)
      · by_cases same : other = (workers.task t).workerContext
        · subst same
          simp [Workers.sendWakeup, Workers.send, Workers.note,
            List.count_append, Ne.symm equal]
        · simp [Workers.sendWakeup, Workers.send, Workers.note, same]
      · simp [Workers.sendWakeup, Workers.send, Workers.note, equal]

/-- A task that is marked for deletion is destroyed. -/
theorem Core.destroy
    (core : Core workers hand owner place)
    (marked : workers.markedDel wc = some t) :
    Core
      { workers.lpelTaskDestroy t with
        markedDel := Function.update workers.markedDel wc none }
      hand owner (Function.update place t none) := by
  have present : place t = some (.zombie wc) := by
    apply core.located.place_eq
    simp [Workers.copies, marked]
  have notHeld : hand ≠ some t := by
    intro held
    rw [(core.held t held).1] at present
    exact absurd present (by simp)
  have fits := core.fits t notHeld
  rw [present] at fits
  obtain ⟨alive, state, idle⟩ := fits
  change (workers.task t).state = .zombie at state
  refine { core with
    located := ?_, held := ?_, fits := ?_, wakes := ?_, owned := ?_, ok := ?_ }
  · refine core.located.take present ?_ ?_
    · intro u p away
      cases p with
      | zombie other =>
          by_cases same : other = wc
          · subst same
            have distinct : u ≠ t := by simpa using away
            simp [Workers.copies, marked, distinct.symm]
          · simp [Workers.copies, same]
      | _ => rfl
    · simp [Workers.copies, marked]
  · intro u held
    have distinct : u ≠ t := fun same => notHeld (same ▸ held)
    simpa [Workers.lpelTaskDestroy, Workers.note, Workers.assert, distinct]
      using core.held u held
  · intro u other
    by_cases same : u = t
    · subst same
      rw [Function.update_self]
      refine ⟨?_, .inr ⟨?_, ?_, ?_⟩⟩
      · simpa [Workers.status, Workers.lpelTaskDestroy, Workers.note,
          Workers.assert] using idle
      · simpa [Workers.status, Workers.lpelTaskDestroy, Workers.note,
          Workers.assert] using alive.1
      · simp [Workers.status, Workers.lpelTaskDestroy, Workers.note]
      · exact state
    · rw [Function.update_of_ne same]
      simpa [Workers.status, Workers.lpelTaskDestroy, Workers.note,
        Workers.assert, same] using core.fits u other
  · intro u other
    refine (core.wakes u other).trans ?_
    by_cases same : u = t
    · subst same
      simp [Workers.lpelTaskDestroy, Workers.note, Workers.assert]
    · simp [Workers.lpelTaskDestroy, Workers.note, Workers.assert, same]
  · intro other u
    refine (core.owned other u).trans ?_
    by_cases same : u = t
    · subst same
      simp [holder, notHeld, present, Place.owner]
    · simp [holder, same]
  · simp [Workers.lpelTaskDestroy, Workers.note, Workers.assert, state, core.ok]

/-- A task is started. -/
theorem Core.start
    (core : Core workers none none place)
    (unstarted : (workers.history t).started = false) :
    Core (workers.note t fun history => { history with started := true })
        (some t) none place ∧
      (workers.task t).state = .created := by
  have fits := core.fits t (by simp)
  have nowhere : place t = none := by
    cases at_ : place t with
    | none => rfl
    | some p =>
        rw [at_] at fits
        exact absurd (fits.1.1.symm.trans unstarted) (by simp)
  rw [nowhere] at fits
  obtain ⟨-, alive, created⟩ | ⟨started, -⟩ := fits.life
  case inr => exact absurd (started.symm.trans unstarted) (by simp)
  refine ⟨{ core with
    located := core.located.congr ?_, held := ?_, fits := ?_, wakes := ?_,
    owned := ?_ }, created⟩
  · intro u p
    cases p <;> rfl
  · intro u same
    obtain rfl := Option.some.inj same
    refine ⟨nowhere, ⟨?_, ?_⟩, ?_⟩
    · simp [Workers.note]
    · simpa [Workers.status, Workers.note] using alive
    · simpa [Workers.status, Workers.note] using fits.block
  · intro u other
    have distinct : u ≠ t := fun same => other (by rw [same])
    simpa [Workers.status, Workers.note, distinct] using core.fits u (by simp)
  · intro u other
    refine (core.wakes u other).trans ?_
    by_cases same : u = t
    · subst same
      simp [Workers.note]
    · simp [Workers.note, same]
  · intro other u
    refine (core.owned other u).trans ?_
    by_cases same : u = t
    · subst same
      simp [holder, nowhere]
    · rw [holder_of_ne same]
      simp [holder]

/-- Mailboxes with the same assignments and wakeups are as good. -/
theorem Core.remail
    (core : Core workers none none place)
    (mailbox : Context τ n → List (WorkerMsg τ))
    (assigns : ∀ u other, (mailbox other).count (.assign u) =
      (workers.mailbox other).count (.assign u))
    (wakeups : ∀ u other, (mailbox other).count (.wakeup u) =
      (workers.mailbox other).count (.wakeup u))
    (notified : ∀ u, .spmdreq ∉ mailbox (.wrapper u)) :
    Core { workers with mailbox := mailbox } none none place := by
  refine { core with
    located := core.located.congr ?_, wakes := ?_, notified := notified }
  · intro u p
    cases p with
    | assigned other => exact assigns u other
    | _ => rfl
  · intro u other
    exact (wakeups u other).trans (core.wakes u other)

/-- A message without a task has been received. -/
theorem Core.dropMail
    (core : Core workers none none place)
    {msg : WorkerMsg τ}
    {rest : List (WorkerMsg τ)}
    (mail : workers.mailbox wc = msg :: rest)
    (noAssign : ∀ u, msg ≠ .assign u)
    (noWakeup : ∀ u, msg ≠ .wakeup u) :
    Core { workers with mailbox := Function.update workers.mailbox wc rest }
      none none place := by
  refine core.remail _ ?_ ?_ (core.notified_tail mail)
  · intro u other
    by_cases same : other = wc
    · subst same
      simp [mail, noAssign u]
    · simp [same]
  · intro u other
    by_cases same : other = wc
    · subst same
      simp [mail, noWakeup u]
    · simp [same]

/-- A message without a task is sent to a worker. -/
theorem Core.sendPlain
    (core : Core workers none none place)
    (wid : Fin n)
    {msg : WorkerMsg τ}
    (noAssign : ∀ u, msg ≠ .assign u)
    (noWakeup : ∀ u, msg ≠ .wakeup u) :
    Core (workers.send (.worker wid) msg) none none place := by
  refine core.remail _ ?_ ?_ ?_
  · intro u other
    by_cases same : other = .worker wid
    · subst same
      simp [noAssign u]
    · simp [same]
  · intro u other
    by_cases same : other = .worker wid
    · subst same
      simp [noWakeup u]
    · simp [same]
  · intro u
    simpa using core.notified u

/-- The invariant does not depend on the priorities. -/
theorem Core.setPriority
    (core : Core workers none none place)
    (t : τ)
    (prio : ℤ) :
    Core
      { workers with
        task := Function.update workers.task t
          { workers.task t with prio := prio } }
      none none place := by
  have same (u : τ) :
      (Function.update workers.task t { workers.task t with prio := prio }
        u).state = (workers.task u).state ∧
      (Function.update workers.task t { workers.task t with prio := prio }
        u).workerContext = (workers.task u).workerContext := by
    by_cases equal : u = t
    · subst equal
      simp
    · simp [equal]
  refine { core with
    located := core.located.congr ?_, fits := ?_, wakes := ?_, home := ?_ }
  · intro u p
    cases p with
    | blocked other => simp [Workers.copies, same u]
    | _ => rfl
  · intro u other
    simpa [Workers.status, same u] using core.fits u other
  · intro u other
    simpa [same u] using core.wakes u other
  · intro u v context
    exact core.home u v ((same u).2.symm.trans context)

/-! ## The functions of the source -/

omit [DecidableEq τ] in
/-- An assertion that holds changes nothing. -/
theorem assert_of
    {condition : Bool}
    (holds : condition = true) :
    workers.assert condition = workers := by
  simp [Workers.assert, holds]

omit [DecidableEq τ] in
/-- `TaskStop` of a task that has left its function. -/
theorem taskStop_of
    (stopped : (workers.task t).state ≠ .running) :
    workers.taskStop t = workers :=
  assert_of (decide_eq_true stopped)

/-- Some places fit the invariant. -/
def Workers.Conserved (workers : Workers τ n) : Prop :=
  ∃ place, Core workers none none place

/-- `LpelWorkerMakeTaskReady`: the task stays, or it is sent to another
worker. -/
theorem Core.makeTaskReady
    (core : Core workers (some t) (some wc) place)
    (mechanism : Mechanism)
    (target : Option (Fin n))
    (ready : (workers.task t).state = .ready)
    (context : (workers.task t).workerContext = wc) :
    (workers.lpelWorkerMakeTaskReady mechanism target t).Conserved := by
  subst context
  have stays : (workers.makeReady (workers.task t).workerContext t).Conserved :=
    ⟨_, core.makeReady ready rfl⟩
  unfold Workers.lpelWorkerMakeTaskReady
  rw [assert_of (decide_eq_true ready)]
  dsimp only
  split
  case h_1 wid =>
    split
    case isTrue =>
      have sent := (core.setContext wid).uncount.sendAssign
        (.inr (by simpa [Workers.uncount, Workers.setContext] using ready))
      simp only [Workers.uncount, Workers.setContext,
        Function.update_self] at sent
      exact ⟨_, sent⟩
    case isFalse => exact stays
  case h_2 => exact stays

/-- `ProcessMessage` on a worker that does not execute a task. -/
theorem Core.processMessage
    (core : Core workers none none place)
    (mechanism : Mechanism)
    (target : Option (Fin n))
    (idle : (workers.thread wc).task = none)
    {msg : WorkerMsg τ}
    {rest : List (WorkerMsg τ)}
    (mail : workers.mailbox wc = msg :: rest) :
    ({ workers with
      mailbox := Function.update workers.mailbox wc rest }.processMessage
        mechanism target wc msg).Conserved := by
  cases msg with
  | terminate =>
      have dropped := core.dropMail mail (by simp) (by simp)
      exact ⟨place, { dropped with located := dropped.located }⟩
  | spmdreq =>
      have dropped := core.dropMail mail (by simp) (by simp)
      have isWorker : wc.isWorker = true := by
        cases wc with
        | worker wid => rfl
        | wrapper u =>
            exact absurd (by simp [mail]) (core.notified u)
      dsimp only [Workers.processMessage]
      rw [assert_of isWorker]
      exact ⟨place, dropped⟩
  | wakeup t =>
      obtain ⟨taken, blocked, context⟩ := core.takeWakeup idle mail
      dsimp only [Workers.processMessage]
      rw [assert_of (by simp [blocked])]
      split
      case isTrue =>
        refine taken.makeTaskReady mechanism target ?_ ?_
        · simp [Workers.setState]
        · simpa [Workers.setState, Workers.note] using context
      case isFalse isWrapper =>
        refine ⟨_, taken.fillWraptask (by simpa using isWrapper) ?_ ?_⟩
        · simp [Workers.setState]
        · simpa [Workers.setState, Workers.note] using context
  | assign t =>
      obtain ⟨taken, state, context⟩ := core.takeAssign mail
      dsimp only [Workers.processMessage]
      rw [assert_of (decide_eq_true state)]
      split
      case isTrue =>
        refine ⟨_, ((taken.setState .ready (by simp)).countAssign
          wc).putReady ?_ ?_⟩
        · simp [Workers.countAssign, Workers.setState]
        · simpa [Workers.countAssign, Workers.setState] using context
      case isFalse old =>
        exact ⟨_, (taken.countAssign wc).putReady (state.resolve_left old)
          context⟩

theorem thread_makeTaskReady
    (mechanism : Mechanism)
    (target : Option (Fin n))
    (workers : Workers τ n)
    (t : τ) :
    (workers.lpelWorkerMakeTaskReady mechanism target t).thread =
      workers.thread := by
  unfold Workers.lpelWorkerMakeTaskReady
  dsimp only
  split
  case h_1 => split <;> rfl
  case h_2 => rfl

/-- The thread is where it was after `ProcessMessage`. -/
theorem thread_processMessage
    (mechanism : Mechanism)
    (target : Option (Fin n))
    (workers : Workers τ n)
    (wc : Context τ n)
    (msg : WorkerMsg τ) :
    (workers.processMessage mechanism target wc msg).thread =
      workers.thread := by
  cases msg with
  | terminate => rfl
  | spmdreq => rfl
  | wakeup t =>
      unfold Workers.processMessage
      dsimp only
      split
      case isTrue => exact thread_makeTaskReady ..
      case isFalse => rfl
  | assign t =>
      unfold Workers.processMessage Workers.putReady
      dsimp only
      split <;> split <;> rfl

/-- A message is handled on a worker that does not execute a task. -/
theorem Core.receive
    (core : Core workers none none place)
    {mechanism : Mechanism}
    {target : Option (Fin n)}
    (idle : (workers.thread wc).task = none)
    {after : Workers τ n}
    (received : workers.receive mechanism target wc = some after) :
    after.Conserved ∧ after.thread = workers.thread := by
  unfold Workers.receive at received
  cases mail : workers.mailbox wc with
  | nil => simp [mail] at received
  | cons msg rest =>
      simp only [mail, Option.some.injEq] at received
      subst received
      exact ⟨core.processMessage mechanism target idle mail,
        thread_processMessage ..⟩

/-- The dispatcher starts with a change of the thread. -/
theorem dispatcher_eq
    (workers : Workers τ n)
    (context : (workers.task t).workerContext = wc)
    (current : workers.currentTask wc = some t) :
    ∃ (pc : Pc τ n) (current : Option τ), pc.task = none ∧ pc.Ok wc current ∧
      workers.lpelWorkerDispatcher wc t =
        (workers.setCurrent wc current).setThread wc pc := by
  unfold Workers.lpelWorkerDispatcher
  rw [context]
  dsimp only
  split
  case isTrue isWorker =>
    refine ⟨.dispatcher wc t, some t, rfl, ⟨rfl, isWorker, rfl⟩, ?_⟩
    rw [setCurrent_self current]
  case isFalse => exact ⟨.back, none, rfl, trivial, rfl⟩

@[simp] theorem task_putReady (workers : Workers τ n) (wc : Context τ n) (t : τ) :
    (workers.putReady wc t).task = workers.task := by
  unfold Workers.putReady
  split <;> rfl

@[simp] theorem currentTask_putReady
    (workers : Workers τ n)
    (wc : Context τ n)
    (t : τ) :
    (workers.putReady wc t).currentTask = workers.currentTask := by
  unfold Workers.putReady
  split <;> rfl

/-- It does not matter whether the thread goes on before or after the task is
put down. -/
theorem putReady_setThread
    (workers : Workers τ n)
    (wc : Context τ n)
    (t : τ)
    (pc : Pc τ n)
    (current : Option τ) :
    ((workers.putReady wc t).setCurrent wc current).setThread wc pc =
      ((workers.setCurrent wc current).setThread wc pc).putReady wc t := by
  unfold Workers.putReady
  split <;> rfl

/-- `LpelWorkerSelfTaskMigrate`. -/
theorem Core.selfTaskMigrate
    (core : Core workers none none place)
    (executes : workers.Executes wc t)
    (wid : Fin n) :
    ((workers.setState t .ready).lpelWorkerSelfTaskMigrate wc t
      wid).Conserved := by
  have context : ((workers.setState t .ready).task t).workerContext = wc := by
    simpa [Workers.setState] using executes.context
  unfold Workers.lpelWorkerSelfTaskMigrate
  rw [context]
  dsimp only
  split
  case isTrue =>
    -- the task is there already, and goes on
    have advanced := core.advance executes.task executes.idle (.resume t) rfl
      .ready .idle (by simp) (by simp) ⟨rfl, rfl⟩
    rw [note_self (by rw [← executes.idle])] at advanced
    exact ⟨_, advanced⟩
  case isFalse =>
    have taken : Core (workers.setThread wc .back) (some t) (some wc)
        (Function.update place t none) := by
      have picked := core.pickUp executes.task .back (workers.currentTask wc)
        executes.idle rfl trivial
      rwa [setCurrent_self rfl] at picked
    have wrapped (u : τ) (wrapper : wc = .wrapper u) : t = u :=
      (core.home t u (executes.context.trans wrapper)).symm
    have moved := (taken.setState .ready (by simp)).setContext wid
    have left := moved.leaveMigrated wrapped
      (by simp [Workers.setContext, Workers.setState, Workers.setThread])
      (core.not_migrating_task executes.task)
      (by simp [Workers.setContext, Workers.setState])
      (by simp [Workers.setContext, Context.isWorker])
    exact ⟨_, left⟩

/-- `LpelTaskYield` of a task that stays on its worker. -/
theorem Core.yieldStays
    (core : Core workers none none place)
    (executes : workers.Executes wc t) :
    ((((workers.setState t .ready).putReady
      ((workers.setState t .ready).task t).workerContext t).taskStop
        t).lpelWorkerDispatcher wc t).Conserved := by
  have context : ((workers.setState t .ready).task t).workerContext = wc := by
    simpa [Workers.setState] using executes.context
  have stopped : (((workers.setState t .ready).putReady wc t).task t).state ≠
      .running := by
    simp [Workers.setState]
  rw [context, taskStop_of stopped]
  obtain ⟨pc, next, noTask, ok, left⟩ := dispatcher_eq
    ((workers.setState t .ready).putReady wc t) (t := t)
    (by rw [task_putReady, context])
    (by rw [currentTask_putReady]; exact executes.current)
  rw [left, putReady_setThread]
  have taken := core.pickUp executes.task pc next executes.idle noTask ok
  refine ⟨_, (taken.setState .ready (by simp)).putReady ?_ context⟩
  simp [Workers.setState]

/-- `LpelTaskYield`. -/
theorem Core.yield
    (core : Core workers none none place)
    (mechanism : Mechanism)
    (target : Option (Fin n))
    (position : workers.thread wc = .running t) :
    (workers.lpelTaskYield mechanism target wc t).Conserved := by
  have executes := core.executes position
  have stays := core.yieldStays executes
  unfold Workers.lpelTaskYield
  rw [assert_of (decide_eq_true executes.state)]
  dsimp only
  split
  case h_1 wid =>
    split
    case isTrue =>
      rw [taskStop_of (by simp [Workers.setState])]
      exact core.selfTaskMigrate executes wid
    case isFalse => exact stays
  case h_2 => exact stays

/-- The task marked for deletion is destroyed. -/
theorem Core.cleanup
    (core : Core workers hand owner place)
    (wc : Context τ n) :
    ∃ place', Core (workers.cleanupTaskContext wc none) hand owner place' ∧
      (workers.cleanupTaskContext wc none).markedDel wc = none := by
  unfold Workers.cleanupTaskContext
  cases marked : workers.markedDel wc with
  | none => exact ⟨place, core, marked⟩
  | some t => exact ⟨_, core.destroy marked, by simp⟩

theorem thread_cleanup (workers : Workers τ n) (wc : Context τ n) :
    (workers.cleanupTaskContext wc none).thread = workers.thread := by
  unfold Workers.cleanupTaskContext
  cases workers.markedDel wc <;> rfl

theorem migrated_cleanup (workers : Workers τ n) (wc : Context τ n) :
    (workers.cleanupTaskContext wc none).migrated = workers.migrated := by
  unfold Workers.cleanupTaskContext
  cases workers.markedDel wc <;> rfl

theorem currentTask_cleanup (workers : Workers τ n) (wc : Context τ n) :
    (workers.cleanupTaskContext wc none).currentTask = workers.currentTask := by
  unfold Workers.cleanupTaskContext
  cases workers.markedDel wc <;> rfl

theorem task_cleanup (workers : Workers τ n) (wc : Context τ n) :
    (workers.cleanupTaskContext wc none).task = workers.task := by
  unfold Workers.cleanupTaskContext
  cases workers.markedDel wc <;> rfl

@[simp] theorem task_selfTaskExit (workers : Workers τ n) (t : τ) :
    (workers.lpelWorkerSelfTaskExit t).task = workers.task := by
  unfold Workers.lpelWorkerSelfTaskExit
  dsimp only
  split <;> exact task_cleanup workers _

@[simp] theorem currentTask_selfTaskExit (workers : Workers τ n) (t : τ) :
    (workers.lpelWorkerSelfTaskExit t).currentTask = workers.currentTask := by
  unfold Workers.lpelWorkerSelfTaskExit
  dsimp only
  split <;> exact currentTask_cleanup workers _

/-- It does not matter whether the thread goes on before or after
`LpelWorkerSelfTaskExit`. -/
theorem selfTaskExit_setThread
    (context : (workers.task t).workerContext = wc)
    (pc : Pc τ n)
    (current : Option τ) :
    ((workers.lpelWorkerSelfTaskExit t).setCurrent wc current).setThread wc pc =
      let cleaned :=
        (((workers.setCurrent wc current).setThread wc pc).uncount wc
          t).cleanupTaskContext wc none
      { cleaned with
        markedDel := Function.update cleaned.markedDel wc (some t)
        terminate :=
          if wc.isWorker then cleaned.terminate
          else Function.update cleaned.terminate wc true } := by
  unfold Workers.lpelWorkerSelfTaskExit Workers.cleanupTaskContext
  rw [context]
  cases marked : workers.markedDel wc <;>
    simp only [Workers.setCurrent, Workers.setThread, Workers.uncount, marked] <;>
    split <;> rfl

/-- `LpelTaskExit`. -/
theorem Core.exit
    (core : Core workers none none place)
    (position : workers.thread wc = .running t) :
    (workers.lpelTaskExit wc t).Conserved := by
  have executes := core.executes position
  have context : ((workers.setState t .zombie).task t).workerContext = wc := by
    simpa [Workers.setState] using executes.context
  have exits : workers.lpelTaskExit wc t =
      ((workers.setState t .zombie).lpelWorkerSelfTaskExit
        t).lpelWorkerDispatcher wc t := by
    unfold Workers.lpelTaskExit
    rw [assert_of (decide_eq_true executes.state)]
    dsimp only
    rw [taskStop_of]
    rw [task_selfTaskExit]
    simp [Workers.setState]
  obtain ⟨pc, next, noTask, ok, left⟩ := dispatcher_eq
    ((workers.setState t .zombie).lpelWorkerSelfTaskExit t) (t := t)
    (by rw [task_selfTaskExit, context])
    (by rw [currentTask_selfTaskExit]; exact executes.current)
  rw [exits, left, selfTaskExit_setThread context]
  have taken := core.pickUp executes.task pc next executes.idle noTask ok
  have zombie : Core (((workers.setState t .zombie).setCurrent wc
      next).setThread wc pc) (some t) (some wc) (Function.update place t none) :=
    taken.setState .zombie (by simp)
  obtain ⟨place', cleaned, free⟩ := zombie.uncount.cleanup wc
  have marked := cleaned.mark free (by
    rw [task_cleanup]
    simp [Workers.setState, Workers.setThread, Workers.setCurrent,
      Workers.uncount])
  exact ⟨_, { marked with located := marked.located }⟩

/-- `LpelTaskBlockStream`. -/
theorem Core.blockStream
    (core : Core workers none none place)
    (position : workers.thread wc = .committed t) :
    (workers.lpelTaskBlockStream wc t).Conserved := by
  have task : (workers.thread wc).task = some t := by
    rw [position]
    rfl
  obtain ⟨context, -, current⟩ := core.onThread task
  obtain ⟨pc, next, noTask, ok, left⟩ := dispatcher_eq
    (workers.setState t .blocked) (t := t)
    (by simpa [Workers.setState] using context) current
  unfold Workers.lpelTaskBlockStream
  rw [taskStop_of (by simp [Workers.setState]), left]
  exact ⟨_, core.block position pc next noTask ok⟩

/-- `LpelTaskCheckMigrate`. -/
theorem Core.checkMigrate
    (core : Core workers none none place)
    (mechanism : Mechanism)
    (target : Option (Fin n))
    (position : workers.thread wc = .running t) :
    (workers.lpelTaskCheckMigrate mechanism target wc t).Conserved := by
  have executes := core.executes position
  unfold Workers.lpelTaskCheckMigrate
  rw [executes.context]
  split
  case isTrue => exact ⟨place, core⟩
  case isFalse migrates =>
    have isWorker : wc.isWorker = true := by
      simpa using (not_or.mp migrates).2
    rw [assert_of (decide_eq_true executes.state)]
    cases target with
    | none => exact ⟨place, core⟩
    | some wid =>
        dsimp only
        rw [executes.context]
        split
        case isTrue => exact ⟨place, core⟩
        case isFalse elsewhere =>
          rw [taskStop_of (by simp [Workers.setState])]
          exact core.selfTaskMigrate executes wid

/-- `LpelWorkerTaskWakeup` by the task on a thread. -/
theorem Core.taskWakeup
    (core : Core workers none none place)
    (mechanism : Mechanism)
    (target : Option (Fin n))
    (position : workers.thread wc = .running t)
    {whom : τ}
    (committed : (workers.history whom).block = .committed) :
    (workers.lpelWorkerTaskWakeup mechanism target t whom).Conserved := by
  have executes := core.executes position
  unfold Workers.lpelWorkerTaskWakeup
  rw [executes.context]
  dsimp only
  split
  case isFalse => exact ⟨place, core.sendWakeup committed⟩
  case isTrue =>
    split
    case isTrue => exact ⟨place, core.sendWakeup committed⟩
    case isFalse sameWorker =>
      -- the waking task is on the thread, so the other one is not
      have context : (workers.task whom).workerContext = wc :=
        (not_ne_iff.mp sameWorker).symm
      have notThere : (workers.thread wc).task ≠ some whom := by
        rw [executes.task]
        intro same
        obtain rfl := Option.some.inj same
        exact absurd (executes.idle.symm.trans committed) (by simp)
      obtain ⟨taken, blocked⟩ := core.wakeLocal committed context notThere
      rw [assert_of (by simp [blocked])]
      refine taken.makeTaskReady mechanism target ?_ ?_
      · simp [Workers.setState]
      · simpa [Workers.setState, Workers.note] using context

/-- `LpelWorkerTaskWakeupLocal` on a worker that does not execute a task. -/
theorem Core.taskWakeupLocal
    (core : Core workers none none place)
    (mechanism : Mechanism)
    (target : Option (Fin n))
    (idle : (workers.thread wc).task = none)
    (committed : (workers.history t).block = .committed)
    (context : (workers.task t).workerContext = wc) :
    (workers.lpelWorkerTaskWakeupLocal mechanism target wc t).Conserved := by
  have notThere : (workers.thread wc).task ≠ some t := by
    rw [idle]
    simp
  obtain ⟨taken, blocked⟩ := core.wakeLocal committed context notThere
  unfold Workers.lpelWorkerTaskWakeupLocal
  have notReady : workers.assert (decide ((workers.task t).state ≠ .ready)) =
      workers :=
    assert_of (by simp [blocked])
  rw [notReady]
  dsimp only
  rw [assert_of (decide_eq_true context)]
  refine taken.makeTaskReady mechanism target ?_ ?_
  · simp [Workers.setState]
  · simpa [Workers.setState, Workers.note] using context

end Decen
end Lpel
