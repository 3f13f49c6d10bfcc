import Lpel.Hrc.SchedInvariant

/-!
# The operations of the master

A round of `MasterLoop` takes a message and with it a task, changes the record
of the task while it holds it, and puts it down somewhere: in the queue, in the
mailbox of a worker, among the parked tasks, or nowhere when it destroys it.
There is one lemma for each operation, and one for each kind of message.
-/

namespace Lpel
namespace Hrc

variable {τ P : Type} {n : ℕ}

section Status

variable [DecidableEq τ] (sched : Sched τ P n) (t u : τ)

theorem status_setState (state : TaskState) :
    (sched.setState t state).status t =
      { sched.status t with state := state } := by
  simp [Sched.status, Sched.setState]

theorem status_setWakenup (wakenup : ℕ) :
    (sched.setWakenup t wakenup).status t =
      { sched.status t with wakenup := wakenup } := by
  simp [Sched.status, Sched.setWakenup]

@[simp] theorem status_setPrior (prior : P) :
    (sched.setPrior t prior).status = sched.status := by
  funext u
  by_cases same : u = t
  · subst same
    simp [Sched.status, Sched.setPrior]
  · simp [Sched.status, Sched.setPrior, same]

theorem prior_setState (state : TaskState) :
    (sched.setState t state).prior = sched.prior := by
  funext u
  by_cases same : u = t
  · subst same
    simp [Sched.prior, Sched.setState]
  · simp [Sched.prior, Sched.setState, same]

theorem prior_setWakenup (wakenup : ℕ) :
    (sched.setWakenup t wakenup).prior = sched.prior := by
  funext u
  by_cases same : u = t
  · subst same
    simp [Sched.prior, Sched.setWakenup]
  · simp [Sched.prior, Sched.setWakenup, same]

theorem status_note (event : History → History) :
    (sched.note t event).status t =
      { event (sched.history t) with
        state := (sched.task t).state
        wakenup := (sched.task t).wakenup } := by
  simp [Sched.status, Sched.note]

end Status

/-- A block whose wakeup was taken before the task is over when the task is
taken. -/
theorem Blocking.ended
    {status : Status}
    (blocking : Blocking status)
    (woken : status.wakenup = 1) :
    AtRest
      { status with
        state := .ready
        wakenup := 0
        returnsTaken := status.returnsTaken + 1
        readied := status.readied + 1 } := by
  obtain ⟨blocks, returnsTaken, wakesTaken, takenLeSent, sentLeBlocks⟩ :=
    blocking
  constructor <;> simp only <;> omega

/-- A block whose wakeup was not taken goes on when the task is taken. -/
theorem Blocking.parked
    {status : Status}
    (blocking : Blocking status)
    (notWoken : status.wakenup ≠ 1) :
    Parked { status with returnsTaken := status.returnsTaken + 1 } := by
  obtain ⟨blocks, returnsTaken, wakesTaken, takenLeSent, sentLeBlocks⟩ :=
    blocking
  constructor <;> simp only <;> omega

/-- The wakeup ends the block of a parked task. -/
theorem Parked.ended
    {status : Status}
    (parked : Parked status)
    (pending : status.wakesTaken < status.wakesSent) :
    AtRest
      { status with
        state := .ready
        wakesTaken := status.wakesTaken + 1
        readied := status.readied + 1 } := by
  obtain ⟨wakenup, blocks, returnsTaken, wakesTaken, takenLeSent,
    sentLeBlocks⟩ := parked
  constructor <;> simp only <;> omega

section Operations

variable [DecidableEq τ] [LinearOrder P]
variable {sched : Sched τ P n} {hand : Option τ}
variable {place : τ → Option (Place n)} {t : τ}

/-- A queue stays a heap when a task outside it changes. -/
theorem Core.queue_retask
    (core : Core sched hand place)
    (outside : t ∉ sched.readyTasks.tasks)
    (task : Task P) :
    sched.readyTasks.Valid fun u => (Function.update sched.task t task u).prior := by
  refine core.queue.congr ?_
  intro u queued
  have other : u ≠ t := by
    rintro rfl
    exact outside queued
  rw [Function.update_of_ne other]
  rfl

/-- Change the record of the held task. -/
theorem Core.retask
    (core : Core sched (some t) place)
    {task : Task P}
    (notReturned : task.state ≠ .returned) :
    Core { sched with task := Function.update sched.task t task } (some t)
      place := by
  refine { core with located := ?_, fits := ?_, queue := ?_ }
  · intro u p
    rw [← core.located u p]
    cases p with
    | parked =>
        by_cases same : u = t
        · subst same
          simp [Sched.copies, notReturned, core.not_returned]
        · simp [Sched.copies, same]
    | _ => rfl
  · intro u other
    have distinct : u ≠ t := fun same => other (by rw [same])
    have fits := core.fits u other
    simpa [Sched.status, distinct] using fits
  · exact core.queue_retask core.not_queued task

theorem Core.setPrior
    (core : Core sched (some t) place)
    (prior : P) :
    Core (sched.setPrior t prior) (some t) place :=
  core.retask core.not_returned

theorem Core.setWakenup
    (core : Core sched (some t) place)
    (wakenup : ℕ) :
    Core (sched.setWakenup t wakenup) (some t) place :=
  core.retask core.not_returned

theorem Core.makeReady
    (core : Core sched (some t) place) :
    Core (sched.setState t .ready) (some t) place :=
  core.retask (by simp)

/-- Note something in the history of the held task. -/
theorem Core.note
    (core : Core sched (some t) place)
    (event : History → History)
    (alive : (event (sched.history t)).Alive)
    (wakes : sched.mastermb.count (.wakeup t) +
        (event (sched.history t)).wakesTaken =
      (event (sched.history t)).wakesSent) :
    Core (sched.note t event) (some t) place := by
  refine { core with held := ?_, fits := ?_, wakes := ?_ }
  · rintro u hand
    obtain rfl := Option.some.inj hand
    refine ⟨(core.held t (by simp)).1, ?_⟩
    simpa [Sched.note] using alive
  · intro u other
    have distinct : u ≠ t := fun same => other (by rw [same])
    have fits := core.fits u other
    simpa [Sched.note, Sched.status, distinct] using fits
  · intro u
    by_cases same : u = t
    · subst same
      simpa [Sched.note] using wakes
    · simpa [Sched.note, same] using core.wakes u

/-- Count a return of the held task. -/
theorem Core.countReturn
    (core : Core sched (some t) place) :
    Core
      (sched.note t fun history =>
        { history with returnsTaken := history.returnsTaken + 1 })
      (some t) place :=
  core.note _ (core.held t rfl).2 (core.wakes t)

/-- Count that the held task was made ready. -/
theorem Core.countReadied
    (core : Core sched (some t) place) :
    Core
      (sched.note t fun history =>
        { history with readied := history.readied + 1 })
      (some t) place :=
  core.note _ (core.held t rfl).2 (core.wakes t)

/-- The places of the others, and that of the task that is put down. -/
theorem Core.fits_putDown
    {after : Sched τ P n}
    (core : Core sched (some t) place)
    (target : Option (Place n))
    (worker : after.worker = sched.worker)
    (others : ∀ u, u ≠ t → after.status u = sched.status u)
    (putDown : Fits after.worker (after.status t) target) :
    ∀ u, none ≠ some u →
      Fits after.worker (after.status u) (Function.update place t target u) := by
  intro u _
  by_cases same : u = t
  · subst same
    rw [Function.update_self]
    exact putDown
  · rw [Function.update_of_ne same, others u same, worker]
    exact core.fits u fun equal => same (Option.some.inj equal).symm

/-- Put the held task into the ready queue. -/
theorem Core.enqueue
    (core : Core sched (some t) place)
    (rest : AtRest (sched.status t)) :
    Core (sched.enqueue t) none
      (Function.update place t (some .queued)) := by
  have queued : (sched.enqueue t).readyTasks.tasks =
      t ::ₘ sched.readyTasks.tasks :=
    Taskqueue.tasks_push core.queue _ t
  have others (u : τ) (distinct : u ≠ t) :
      (sched.enqueue t).task u = sched.task u := by
    simp [Sched.enqueue, Sched.setState, distinct]
  have itself : ((sched.enqueue t).task t).state = .inqueue := by
    simp [Sched.enqueue, Sched.setState]
  refine { core with located := ?_, held := by simp, fits := ?_, queue := ?_ }
  · refine core.located.put (core.held t rfl).1 _ ?_ ?_
    · intro u p away
      cases p with
      | queued =>
          have distinct : u ≠ t := by simpa using away
          rw [Sched.copies, queued, Multiset.count_cons_of_ne distinct]
          rfl
      | parked =>
          by_cases same : u = t
          · subst same
            simp [Sched.copies, itself, core.not_returned]
          · rw [Sched.copies, others u same]
            rfl
      | _ => rfl
    · rw [Sched.copies, queued, Multiset.count_cons_self]
      rfl
  · refine core.fits_putDown _ rfl ?_ ⟨(core.held t rfl).2, ?_, ?_⟩
    · intro u distinct
      simp only [Sched.status, others u distinct]
      rfl
    · exact itself
    · have same : (sched.enqueue t).status t =
          { sched.status t with state := .inqueue } :=
        status_setState sched t .inqueue
      rw [same]
      exact ⟨rest.wakenup, rest.blocks, rest.wakesSent, rest.wakesTaken,
        rest.returnsTaken⟩
  · refine Taskqueue.valid_push ?_ t
    exact core.queue_retask core.not_queued _

/-- Send the held task to a waiting worker. -/
theorem Core.send
    (core : Core sched (some t) place)
    (wid : Fin n)
    (ready : (sched.task t).state = .ready)
    (rest : AtRest (sched.status t))
    (waiting : sched.waitworkers wid = 1) :
    Core
      ({ sched with
        waitworkers := Function.update sched.waitworkers wid 0 }.sendTask wid t)
      none (Function.update place t (some (.toWorker wid))) := by
  refine { core with
    located := ?_, held := by simp, fits := ?_, tokens := ?_, messages := ?_,
    ok := ?_ }
  · refine core.located.put (core.held t rfl).1 _ ?_ ?_
    · intro u p away
      cases p with
      | toWorker other =>
          by_cases same : other = wid
          · subst same
            have distinct : u ≠ t := by simpa using away
            simp [Sched.copies, Sched.sendTask, Sched.sendWorker, Sched.assert,
              List.count_append, distinct.symm]
          · simp [Sched.copies, Sched.sendTask, Sched.sendWorker, Sched.assert,
              same]
      | _ => rfl
    · simp [Sched.copies, Sched.sendTask, Sched.sendWorker, Sched.assert,
        List.count_append]
  · refine core.fits_putDown _ rfl ?_ ⟨(core.held t rfl).2, ready, rest⟩
    intro u _
    rfl
  · intro other
    have tokens := core.tokens other
    by_cases same : other = wid
    · subst same
      simp only [Sched.tokens, Sched.sendTask, Sched.sendWorker, Sched.assert,
        Function.update_self, List.countP_append] at tokens ⊢
      rw [waiting] at tokens
      simp only [List.countP_singleton, WorkerMsg.isAssign, if_true]
      omega
    · simpa [Sched.tokens, Sched.sendTask, Sched.sendWorker, Sched.assert,
        same] using tokens
  · intro other msg member
    by_cases same : other = wid
    · subst same
      simp only [Sched.sendTask, Sched.sendWorker, Sched.assert,
        Function.update_self, List.mem_append, List.mem_singleton] at member
      obtain earlier | rfl := member
      · exact core.messages other msg earlier
      · rfl
    · simp only [Sched.sendTask, Sched.sendWorker, Sched.assert,
        Function.update_of_ne same] at member
      exact core.messages other msg member
  · simp [Sched.sendTask, Sched.sendWorker, Sched.assert, core.ok, ready]

/-- Park the held task. -/
theorem Core.park
    (core : Core sched (some t) place)
    (parked : Parked (sched.status t)) :
    Core (sched.setState t .returned) none
      (Function.update place t (some .parked)) := by
  have others (u : τ) (distinct : u ≠ t) :
      (sched.setState t .returned).task u = sched.task u := by
    simp [Sched.setState, distinct]
  refine { core with located := ?_, held := by simp, fits := ?_, queue := ?_ }
  · refine core.located.put (core.held t rfl).1 _ ?_ ?_
    · intro u p away
      cases p with
      | parked =>
          have distinct : u ≠ t := by simpa using away
          rw [Sched.copies, others u distinct]
          rfl
      | _ => rfl
    · simp [Sched.copies, Sched.setState, core.not_returned]
  · refine core.fits_putDown _ rfl ?_ ⟨(core.held t rfl).2, ?_, ?_⟩
    · intro u distinct
      simp only [Sched.status, others u distinct]
      rfl
    · rw [status_setState]
    · rw [status_setState]
      exact ⟨parked.wakenup, parked.blocks, parked.returnsTaken,
        parked.wakesTaken, parked.taken_le_sent, parked.sent_le_blocks⟩
  · exact core.queue_retask core.not_queued _

/-- Destroy the held task. -/
theorem Core.destroy
    (core : Core sched (some t) place)
    (zombie : (sched.task t).state = .zombie)
    (rest : AtRest (sched.status t)) :
    Core (sched.lpelTaskDestroy t) none place := by
  have nowhere := (core.held t rfl).1
  have placed : Function.update place t none = place := by
    rw [← nowhere]
    exact Function.update_eq_self t place
  rw [← placed]
  refine { core with
    located := ?_, held := by simp, fits := ?_, wakes := ?_, ok := ?_ }
  · rw [placed]
    exact core.located
  · refine core.fits_putDown _ rfl ?_ ⟨?_, Or.inr ⟨?_, ?_, ?_⟩⟩
    · intro u distinct
      simp [Sched.status, Sched.lpelTaskDestroy, Sched.note, Sched.assert,
        distinct]
    · rw [Sched.lpelTaskDestroy, status_note]
      exact ⟨rest.wakenup, rest.blocks, rest.wakesSent, rest.wakesTaken,
        rest.returnsTaken⟩
    · rw [Sched.lpelTaskDestroy, status_note]
      exact (core.held t rfl).2.1
    · rw [Sched.lpelTaskDestroy, status_note]
    · rw [Sched.lpelTaskDestroy, status_note]
      exact zombie
  · intro u
    have wakes := core.wakes u
    by_cases same : u = t
    · subst same
      simpa [Sched.lpelTaskDestroy, Sched.note, Sched.assert] using wakes
    · simpa [Sched.lpelTaskDestroy, Sched.note, Sched.assert, same] using wakes
  · simp [Sched.lpelTaskDestroy, Sched.note, Sched.assert, core.ok, zombie]

omit [LinearOrder P] in
/-- The task that is taken. -/
theorem Core.held_take
    {after : Sched τ P n}
    (alive : (after.history t).Alive) :
    ∀ u, some t = some u →
      Function.update place t none u = none ∧ (after.history u).Alive := by
  intro u same
  obtain rfl := Option.some.inj same
  exact ⟨Function.update_self .., alive⟩

/-- The places of the others while a task is taken. -/
theorem Core.fits_take
    {after : Sched τ P n}
    (core : Core sched none place)
    (worker : after.worker = sched.worker)
    (others : ∀ u, u ≠ t → after.status u = sched.status u) :
    ∀ u, some t ≠ some u →
      Fits after.worker (after.status u) (Function.update place t none u) := by
  intro u other
  have distinct : u ≠ t := fun same => other (by rw [same])
  rw [Function.update_of_ne distinct, others u distinct, worker]
  exact core.fits u (by simp)

/-- Take a message with its task. -/
theorem Core.take
    (core : Core sched none place)
    {msg : WorkerMsg τ n}
    {rest : List (WorkerMsg τ n)}
    {p : Place n}
    (carries : msg = .assign t ∧ p = .toMaster ∨ msg = .ret t ∧ p = .returning)
    (mail : sched.mastermb = msg :: rest) :
    Core { sched with mastermb := rest } (some t)
        (Function.update place t none) ∧
      place t = some p := by
  have present : place t = some p := by
    apply core.located.place_eq
    obtain ⟨rfl, rfl⟩ | ⟨rfl, rfl⟩ := carries <;>
      simp [Sched.copies, mail]
  have counts (other : WorkerMsg τ n) (distinct : other ≠ msg) :
      rest.count other = sched.mastermb.count other := by
    rw [mail, List.count_cons_of_ne distinct.symm]
  have alive := core.fits t (by simp)
  rw [present] at alive
  refine ⟨{ core with
    located := ?_, held := Core.held_take alive.1,
    fits := core.fits_take rfl fun _ _ => rfl, wakes := ?_, tokens := ?_ },
    present⟩
  · refine core.located.take present ?_ ?_
    · intro u q away
      cases q with
      | toMaster | returning =>
          refine counts _ ?_
          obtain ⟨rfl, rfl⟩ | ⟨rfl, rfl⟩ := carries <;> simp_all
      | _ => rfl
    · obtain ⟨rfl, rfl⟩ | ⟨rfl, rfl⟩ := carries <;> simp [Sched.copies, mail]
  · intro u
    rw [← core.wakes u]
    refine congrArg (· + _) (counts _ ?_)
    obtain ⟨rfl, -⟩ | ⟨rfl, -⟩ := carries <;> simp
  · intro wid
    rw [← core.tokens wid]
    refine congrArg (· + _ + _) (counts _ ?_)
    obtain ⟨rfl, -⟩ | ⟨rfl, -⟩ := carries <;> simp

/-- Take back a task that has stopped. -/
theorem Core.takeReturn
    (core : Core sched none place)
    {rest : List (WorkerMsg τ n)}
    (mail : sched.mastermb = .ret t :: rest) :
    Core { sched with mastermb := rest } (some t)
        (Function.update place t none) ∧
      Stopped (sched.status t) := by
  obtain ⟨held, present⟩ := core.take (Or.inr ⟨rfl, rfl⟩) mail
  have fits := core.fits t (by simp)
  rw [present] at fits
  exact ⟨held, fits.2⟩

/-- Park a blocked task whose wakeup was not handled. -/
theorem Core.parkReturn
    (core : Core sched (some t) place)
    (blocked : (sched.task t).state = .blocked)
    (blocking : Blocking (sched.status t))
    (notWoken : (sched.task t).wakenup ≠ 1) :
    Core
      ((sched.note t fun history =>
        { history with returnsTaken := history.returnsTaken + 1 }).setState t
          .returned)
      none (Function.update place t (some .parked)) := by
  apply core.countReturn.park
  simpa [Sched.status, Sched.note, blocked] using blocking.parked notWoken

/-- A wakeup in the mailbox has not been counted as taken. -/
theorem Core.taken_lt_sent
    (core : Core sched hand place)
    {rest : List (WorkerMsg τ n)}
    (mail : sched.mastermb = .wakeup t :: rest) :
    (sched.history t).wakesTaken < (sched.history t).wakesSent := by
  have wakes := core.wakes t
  rw [mail, List.count_cons_self] at wakes
  omega

/-- Taking a wakeup from the mailbox and counting it. -/
theorem Core.wakes_take
    (core : Core sched hand place)
    {rest : List (WorkerMsg τ n)}
    (mail : sched.mastermb = .wakeup t :: rest)
    {history : τ → History}
    (taken : history = Function.update sched.history t
      { sched.history t with
        wakesTaken := (sched.history t).wakesTaken + 1 })
    (u : τ) :
    rest.count (.wakeup u) + (history u).wakesTaken =
      (history u).wakesSent := by
  have wakes := core.wakes u
  rw [mail] at wakes
  subst taken
  by_cases same : u = t
  · subst same
    rw [List.count_cons_self] at wakes
    simp only [Function.update_self]
    omega
  · rw [List.count_cons_of_ne (by simpa using Ne.symm same)] at wakes
    simpa [same] using wakes

omit [DecidableEq τ] in
/-- Change the status of a task that is in a block. -/
theorem Fits.inBlock
    {worker : Fin n → WorkerPc τ}
    {status after : Status}
    {at_ : Option (Place n)}
    (fits : Fits worker status at_)
    (notAtRest : ¬ AtRest status)
    (state : after.state = status.state)
    (alive : status.toHistory.Alive → after.toHistory.Alive)
    (blocking : Blocking status → Blocking after)
    (parked : status.state = .returned → Parked status → Parked after) :
    Fits worker after at_ := by
  have stopped (stopped : Stopped status) : Stopped after := by
    simp only [Stopped, state] at stopped ⊢
    cases current : status.state <;> rw [current] at stopped
    case blocked => exact blocking stopped
    case ready | zombie => exact absurd stopped notAtRest
    all_goals exact stopped
  cases at_ with
  | none => exact absurd fits.rest notAtRest
  | some p =>
      refine ⟨alive fits.1, ?_⟩
      have fits := fits.2
      cases p with
      | toMaster | queued | toWorker => exact absurd fits.2 notAtRest
      | parked => exact ⟨state.trans fits.1, parked fits.1 fits.2⟩
      | returning => exact stopped fits
      | executing wid =>
          simp only [Place.Fits] at fits ⊢
          cases pc : worker wid <;> rw [pc] at fits
          case start | recv | finished => exact fits
          case dispatch | running => exact absurd fits.2 notAtRest
          case committed => exact ⟨state.trans fits.1, blocking fits.2⟩
          case stopped | back => exact stopped fits

omit [DecidableEq τ] in
/-- A wakeup that comes before the task is back is remembered in its flag. -/
theorem Fits.early
    {worker : Fin n → WorkerPc τ}
    {status : Status}
    {at_ : Option (Place n)}
    (fits : Fits worker status at_)
    (pending : status.wakesTaken < status.wakesSent)
    (notReturned : status.state ≠ .returned) :
    Fits worker
      { status with wakesTaken := status.wakesTaken + 1, wakenup := 1 } at_ := by
  refine fits.inBlock ?_ rfl (fun alive => alive) ?_ ?_
  · intro rest
    have sent := rest.wakesSent
    have taken := rest.wakesTaken
    omega
  · rintro ⟨blocks, returnsTaken, wakesTaken, takenLeSent, sentLeBlocks⟩
    constructor <;> simp only <;> omega
  · intro returned
    exact absurd returned notReturned

/-- A wakeup of a task that is not back yet. -/
theorem Core.early
    (core : Core sched none place)
    {rest : List (WorkerMsg τ n)}
    (mail : sched.mastermb = .wakeup t :: rest)
    (notReturned : (sched.task t).state ≠ .returned) :
    Core
      (({ sched with mastermb := rest }.note t fun history =>
        { history with wakesTaken := history.wakesTaken + 1 }).setWakenup t 1)
      none place := by
  refine { core with
    located := ?_, held := by simp, fits := ?_, wakes := ?_, tokens := ?_,
    queue := ?_ }
  · intro u p
    rw [← core.located u p]
    cases p with
    | toMaster | returning =>
        simp [Sched.copies, Sched.note, Sched.setWakenup, mail]
    | parked =>
        by_cases same : u = t
        · subst same
          simp [Sched.copies, Sched.note, Sched.setWakenup]
        · simp [Sched.copies, Sched.note, Sched.setWakenup, same]
    | _ => rfl
  · intro u _
    have fits := core.fits u (by simp)
    by_cases same : u = t
    · subst same
      rw [status_setWakenup, status_note]
      exact fits.early (core.taken_lt_sent mail) notReturned
    · simpa [Sched.status, Sched.note, Sched.setWakenup, same] using fits
  · exact core.wakes_take mail rfl
  · intro wid
    have tokens := core.tokens wid
    simpa [Sched.tokens, Sched.note, Sched.setWakenup, mail] using tokens
  · rw [prior_setWakenup]
    exact core.queue

/-- A wakeup takes its task from the parked tasks. -/
theorem Core.unpark
    (core : Core sched none place)
    {rest : List (WorkerMsg τ n)}
    (mail : sched.mastermb = .wakeup t :: rest)
    (returned : (sched.task t).state = .returned) :
    Core
        (({ sched with mastermb := rest }.note t fun history =>
          { history with wakesTaken := history.wakesTaken + 1 }).setState t
            .ready)
        (some t) (Function.update place t none) ∧
      Parked (sched.status t) := by
  have present : place t = some .parked := by
    apply core.located.place_eq
    rw [Sched.copies, if_pos returned]
    exact one_ne_zero
  have fits := core.fits t (by simp)
  rw [present] at fits
  refine ⟨{ core with
    located := ?_, held := Core.held_take ?_, fits := core.fits_take rfl ?_,
    wakes := ?_, tokens := ?_, queue := ?_ }, fits.2.2⟩
  · refine core.located.take present ?_ ?_
    · intro u p away
      cases p with
      | toMaster | returning =>
          simp [Sched.copies, Sched.note, Sched.setState, mail]
      | parked =>
          have distinct : u ≠ t := by simpa using away
          simp [Sched.copies, Sched.note, Sched.setState, distinct]
      | _ => rfl
    · simp [Sched.copies, Sched.note, Sched.setState, returned]
  · simpa [Sched.note, Sched.setState, Sched.status, History.Alive]
      using fits.1
  · intro u distinct
    simp [Sched.status, Sched.note, Sched.setState, distinct]
  · exact core.wakes_take mail rfl
  · intro wid
    have tokens := core.tokens wid
    simpa [Sched.tokens, Sched.note, Sched.setState, mail] using tokens
  · rw [prior_setState]
    exact core.queue

/-- A request that cannot be served makes the worker wait. -/
theorem Core.wait
    (core : Core sched none place)
    {wid : Fin n}
    {rest : List (WorkerMsg τ n)}
    (mail : sched.mastermb = .request wid :: rest) :
    Core
        { sched with
          mastermb := rest
          waitworkers := Function.update sched.waitworkers wid 1 }
        none place ∧
      sched.waitworkers wid = 0 := by
  have notWaiting : sched.waitworkers wid = 0 ∧
      rest.count (.request wid) + 1 +
        (sched.workermbs wid).countP WorkerMsg.isAssign =
          (sched.worker wid).asked := by
    have tokens := core.tokens wid
    have asked : (sched.worker wid).asked ≤ 1 := by
      cases sched.worker wid <;> simp [WorkerPc.asked]
    simp only [Sched.tokens, mail, List.count_cons_self] at tokens
    omega
  refine ⟨{ core with
    located := ?_, held := by simp, wakes := ?_, tokens := ?_ },
    notWaiting.1⟩
  · intro u p
    rw [← core.located u p]
    cases p with
    | toMaster | returning => simp [Sched.copies, mail]
    | _ => rfl
  · intro u
    rw [← core.wakes u]
    simp [mail]
  · intro other
    by_cases same : other = wid
    · subst same
      simpa [Sched.tokens] using notWaiting.2
    · rw [← core.tokens other]
      simp [Sched.tokens, mail, same, Ne.symm same]

/-- Take the head of the ready queue. -/
theorem Core.dequeue
    (core : Core sched none place)
    (head : lpelTaskqueuePeek sched.readyTasks = some t) :
    Core
        { sched with
          readyTasks := (lpelTaskqueuePop sched.prior sched.readyTasks).2 }
        (some t) (Function.update place t none) ∧
      AtRest (sched.status t) := by
  have popped := Taskqueue.tasks_pop core.queue head
  have member : t ∈ sched.readyTasks.tasks := by
    rw [popped]
    exact Multiset.mem_cons_self t _
  have present : place t = some .queued := by
    apply core.located.place_eq
    exact Multiset.count_ne_zero.mpr member
  have fits := core.fits t (by simp)
  rw [present] at fits
  refine ⟨{ core with
    located := ?_, held := Core.held_take fits.1,
    fits := core.fits_take rfl fun _ _ => rfl, queue := ?_ }, fits.2.2⟩
  · refine core.located.take present ?_ ?_
    · intro u p away
      cases p with
      | queued =>
          have distinct : u ≠ t := by simpa using away
          rw [Sched.copies, Sched.copies, popped,
            Multiset.count_cons_of_ne distinct]
      | _ => rfl
    · rw [Sched.copies, popped, Multiset.count_cons_self]
      rfl
  · exact Taskqueue.valid_pop core.queue head

/-- The two states differ only in the order of the queue and in the priorities
of queued tasks. -/
structure Reprioritised (sched after : Sched τ P n) : Prop where
  frame : ∃ task readyTasks,
    after = { sched with task := task, readyTasks := readyTasks }
  status : after.status = sched.status
  tasks : after.readyTasks.tasks = sched.readyTasks.tasks
  queue : after.readyTasks.Valid after.prior

omit [DecidableEq τ] in
theorem Reprioritised.trans
    {first second third : Sched τ P n}
    (left : Reprioritised first second)
    (right : Reprioritised second third) :
    Reprioritised first third := by
  obtain ⟨task, readyTasks, rfl⟩ := left.frame
  obtain ⟨task', readyTasks', rfl⟩ := right.frame
  exact ⟨⟨task', readyTasks', rfl⟩, right.status.trans left.status,
    right.tasks.trans left.tasks, right.queue⟩

/-- The order of the queue is no part of where the tasks are. -/
theorem Core.reprioritise
    (core : Core sched hand place)
    {after : Sched τ P n}
    (changed : Reprioritised sched after) :
    Core after hand place := by
  have status := changed.status
  have tasks := changed.tasks
  have queue := changed.queue
  obtain ⟨task, readyTasks, rfl⟩ := changed.frame
  refine { core with located := ?_, fits := ?_, queue := queue }
  · intro u p
    rw [← core.located u p]
    cases p with
    | queued => rw [Sched.copies, Sched.copies, tasks]
    | parked =>
        have state : (task u).state = (sched.task u).state :=
          congrArg Status.state (congrFun status u)
        rw [Sched.copies, Sched.copies, state]
    | _ => rfl
  · intro u other
    rw [status]
    exact core.fits u other

variable [BoundedOrder P]

/-- One neighbour: `assert(pos > 0)` holds. -/
theorem Core.updatePriority
    (core : Core sched hand place)
    (policy : Policy P)
    (free : ∀ u, hand = some u → (sched.status u).state ≠ .inqueue)
    (neighbour : Option τ × SchedView) :
    Reprioritised sched (sched.updatePriority policy neighbour) := by
  have same : Reprioritised sched sched :=
    ⟨⟨sched.task, sched.readyTasks, rfl⟩, rfl, rfl, core.queue⟩
  obtain ⟨t | t, view⟩ := neighbour
  · exact same
  rw [Sched.updatePriority]
  split
  case isFalse => exact same
  case isTrue inqueue =>
    have other : hand ≠ some t := fun held => free t held inqueue
    have member := (core.inqueue_iff other).mp inqueue
    obtain ⟨after, updated, tasks⟩ := Taskqueue.tasks_updatePriority member
      sched.prior (lpelTaskCalPriority policy view)
    simp only [updated]
    refine ⟨⟨_, after, rfl⟩, status_setPrior sched t _, tasks, ?_⟩
    have valid :=
      Taskqueue.valid_updatePriority core.queue
        (Multiset.count_eq_one_of_mem core.queue_nodup member) updated
    refine valid.congr ?_
    intro u _
    by_cases equal : u = t
    · subst equal
      simp [Sched.prior, Sched.setPrior]
    · simp [Sched.prior, Sched.setPrior, equal]

theorem Core.updatePriorityList
    (core : Core sched hand place)
    (policy : Policy P)
    (free : ∀ u, hand = some u → (sched.status u).state ≠ .inqueue)
    (list : List (Option τ × SchedView)) :
    Reprioritised sched (sched.updatePriorityList policy list) := by
  induction list generalizing sched with
  | nil => exact ⟨⟨sched.task, sched.readyTasks, rfl⟩, rfl, rfl, core.queue⟩
  | cons neighbour list inductionHypothesis =>
      have first := core.updatePriority policy free neighbour
      refine first.trans (inductionHypothesis (core.reprioritise first) ?_)
      rw [first.status]
      exact free

/-- All neighbours. -/
theorem Core.updatePriorityNeigh
    (core : Core sched hand place)
    (policy : Policy P)
    (observed : Observed τ)
    (free : ∀ u, hand = some u → (sched.status u).state ≠ .inqueue) :
    Reprioritised sched (sched.updatePriorityNeigh policy observed) := by
  have first := core.updatePriorityList policy free observed.producers
  refine first.trans ?_
  refine (core.reprioritise first).updatePriorityList policy ?_ _
  rw [first.status]
  exact free

/-- What `servePendingReq` does. -/
theorem servePendingReq_cases
    (policy : Policy P)
    (view : SchedView)
    (sched : Sched τ P n)
    (t : τ) :
    (∃ wid, sched.waitworkers wid = 1 ∧
      sched.servePendingReq policy view t =
        (some wid,
          { sched.setPrior t (lpelTaskCalPriority policy view) with
            waitworkers :=
              Function.update sched.waitworkers wid 0 }.sendTask wid t)) ∨
    (∀ wid, sched.waitworkers wid ≠ 1) ∧
      sched.servePendingReq policy view t =
        (none, sched.setPrior t (lpelTaskCalPriority policy view)) := by
  rw [Sched.servePendingReq]
  cases found : (List.finRange n).find? fun wid =>
      (sched.setPrior t (lpelTaskCalPriority policy view)).waitworkers wid = 1 with
  | some wid =>
      refine Or.inl ⟨wid, ?_, rfl⟩
      have waiting := List.find?_some found
      exact of_decide_eq_true waiting
  | none =>
      refine Or.inr ⟨?_, rfl⟩
      intro wid waiting
      exact List.find?_eq_none.mp found wid (List.mem_finRange wid)
        (decide_eq_true waiting)

/-- Give the held task to a waiting worker, or put it into the queue after some
more work of the master. -/
theorem Core.serve
    (core : Core sched (some t) place)
    (policy : Policy P)
    (view : SchedView)
    (ready : (sched.status t).state = .ready)
    (rest : AtRest (sched.status t))
    (otherwise : Sched τ P n → Sched τ P n)
    (queues : ∀ before,
      Core before (some t) place → before.status = sched.status →
      ∃ place', Core (otherwise before) none place') :
    ∃ place', Core
      (match sched.servePendingReq policy view t with
        | (some _, after) => after
        | (none, after) => otherwise after) none place' := by
  have priced := core.setPrior (lpelTaskCalPriority policy view)
  obtain ⟨wid, waiting, served⟩ | ⟨-, notServed⟩ :=
    servePendingReq_cases policy view sched t
  · simp only [served]
    refine ⟨_, priced.send wid ?_ ?_ waiting⟩
    · rw [← status_setPrior sched t (lpelTaskCalPriority policy view)] at ready
      exact ready
    · rw [status_setPrior]
      exact rest
  · simp only [notServed]
    exact queues _ priced (status_setPrior sched t _)

/-- Put the held task into the queue if its priority is the lowest, and serve
it otherwise. -/
theorem Core.offer
    (core : Core sched (some t) place)
    (policy : Policy P)
    (own serve : SchedView)
    (ready : (sched.status t).state = .ready)
    (rest : AtRest (sched.status t))
    (otherwise : Sched τ P n → Sched τ P n)
    (queues : ∀ before,
      Core before (some t) place → before.status = sched.status →
      ∃ place', Core (otherwise before) none place') :
    ∃ place', Core
      (if (sched.setPrior t (lpelTaskCalPriority policy own)).prior t = ⊥ then
        (sched.setPrior t (lpelTaskCalPriority policy own)).enqueue t
      else
        match (sched.setPrior t
            (lpelTaskCalPriority policy own)).servePendingReq policy serve t with
        | (some _, after) => after
        | (none, after) => otherwise after) none place' := by
  have priced := core.setPrior (lpelTaskCalPriority policy own)
  rw [← status_setPrior sched t (lpelTaskCalPriority policy own)]
    at ready rest queues
  split
  · exact ⟨_, priced.enqueue rest⟩
  · exact priced.serve policy serve ready rest otherwise queues

/-- `case TASK_READY` of a returned task. -/
theorem Core.handleReady
    (core : Core sched (some t) place)
    (policy : Policy P)
    (observed : Observed τ)
    (ready : (sched.status t).state = .ready)
    (rest : AtRest (sched.status t)) :
    ∃ place', Core (sched.handleReady policy observed t) none place' := by
  refine core.offer policy observed.own observed.serve ready rest _ ?_
  intro before core' status
  have free : ∀ u, some t = some u → (before.status u).state ≠ .inqueue := by
    rintro u held
    obtain rfl := Option.some.inj held
    rw [status, ready]
    decide
  have changed := core'.updatePriorityNeigh policy observed free
  refine ⟨_, ((core'.reprioritise changed).setPrior _).enqueue ?_⟩
  rw [status_setPrior, changed.status, status]
  exact rest

/-- `case WORKER_MSG_ASSIGN`. -/
theorem Core.handleAssign
    (core : Core sched none place)
    (policy : Policy P)
    (observed : Observed τ)
    {rest : List (WorkerMsg τ n)}
    (mail : sched.mastermb = .assign t :: rest) :
    ∃ place', Core
      ({ sched with mastermb := rest }.handleAssign policy observed t) none
      place' := by
  obtain ⟨held, present⟩ := core.take (Or.inl ⟨rfl, rfl⟩) mail
  have fits := core.fits t (by simp)
  rw [present] at fits
  obtain ⟨-, created, atRest⟩ := fits
  have asserted : { sched with mastermb := rest }.assert
      ((sched.task t).state = TaskState.created) =
        { sched with mastermb := rest } := by
    have state : (sched.task t).state = .created := created
    simp [Sched.assert, state]
  unfold Sched.handleAssign
  dsimp only
  rw [asserted]
  have made := held.makeReady
  have status := status_setState { sched with mastermb := rest } t .ready
  have atRest' :
      AtRest (({ sched with mastermb := rest }.setState t .ready).status t) := by
    rw [status]
    exact ⟨atRest.wakenup, atRest.blocks, atRest.wakesSent, atRest.wakesTaken,
      atRest.returnsTaken⟩
  refine made.serve policy observed.serve (by rw [status]) atRest' _ ?_
  intro before core' same
  refine ⟨_, (core'.setPrior _).enqueue ?_⟩
  rw [status_setPrior, same]
  exact atRest'

/-- `case WORKER_MSG_RETURN`. -/
theorem Core.handleReturn
    (core : Core sched none place)
    (policy : Policy P)
    (observed : Observed τ)
    {rest : List (WorkerMsg τ n)}
    (mail : sched.mastermb = .ret t :: rest) :
    ∃ place', Core
      ({ sched with mastermb := rest }.handleReturn policy observed t) none
      place' := by
  obtain ⟨held, stopped⟩ := core.takeReturn mail
  have state : (sched.status t).state = (sched.task t).state := rfl
  rw [Stopped, state] at stopped
  unfold Sched.handleReturn
  dsimp only
  cases current : (sched.task t).state with
  | created | running | inqueue | returned =>
      rw [current] at stopped
      exact absurd stopped id
  | ready =>
      rw [current] at stopped
      exact held.handleReady policy observed current stopped
  | zombie =>
      rw [current] at stopped
      have free : ∀ u, some t = some u → (sched.status u).state ≠ .inqueue := by
        rintro u equal
        obtain rfl := Option.some.inj equal
        rw [state, current]
        decide
      have changed := held.updatePriorityNeigh policy observed free
      have status := congrFun changed.status t
      refine ⟨_, (held.reprioritise changed).destroy ?_ ?_⟩
      · exact (congrArg Status.state status).trans current
      · rw [status]
        exact stopped
  | blocked =>
      rw [current] at stopped
      dsimp only
      split
      case isTrue woken =>
        have ended := stopped.ended woken
        have made := (held.countReturn.setWakenup 0).makeReady.countReadied
        refine made.handleReady policy observed ?_ ?_
        · simp [Sched.status, Sched.note, Sched.setState, Sched.setWakenup]
        · simpa [Sched.status, Sched.note, Sched.setState, Sched.setWakenup,
            current] using ended
      case isFalse notWoken =>
        have parked := held.parkReturn current stopped notWoken
        exact ⟨_, parked.reprioritise
          (parked.updatePriorityNeigh policy observed (by simp))⟩

/-- `case WORKER_MSG_WAKEUP`. -/
theorem Core.handleWakeup
    (core : Core sched none place)
    (policy : Policy P)
    (observed : Observed τ)
    {rest : List (WorkerMsg τ n)}
    (mail : sched.mastermb = .wakeup t :: rest) :
    ∃ place', Core
      ({ sched with mastermb := rest }.handleWakeup policy observed t) none
      place' := by
  unfold Sched.handleWakeup
  dsimp only
  split
  case isTrue notReturned => exact ⟨place, core.early mail notReturned⟩
  case isFalse returned =>
    obtain ⟨held, parked⟩ := core.unpark mail (not_ne_iff.mp returned)
    have ended := parked.ended (core.taken_lt_sent mail)
    have made := held.countReadied
    refine made.offer policy observed.own observed.serve ?_ ?_ _ ?_
    · simp [Sched.status, Sched.note, Sched.setState]
    · simpa [Sched.status, Sched.note, Sched.setState] using ended
    · intro before core' same
      refine ⟨_, core'.enqueue ?_⟩
      rw [same]
      simpa [Sched.status, Sched.note, Sched.setState] using ended

/-- `case WORKER_MSG_REQUEST`. -/
theorem Core.handleRequest
    (core : Core sched none place)
    {wid : Fin n}
    {rest : List (WorkerMsg τ n)}
    (mail : sched.mastermb = .request wid :: rest) :
    ∃ place', Core ({ sched with mastermb := rest }.handleRequest wid) none
      place' := by
  obtain ⟨waits, notWaiting⟩ := core.wait mail
  unfold Sched.handleRequest
  split
  case h_1 => exact ⟨place, waits⟩
  case h_2 t head =>
    split
    case isTrue => exact ⟨place, waits⟩
    case isFalse =>
      obtain ⟨held, atRest⟩ := waits.dequeue head
      have sent := held.makeReady.send wid ?_ ?_ ?_
      · have back : Function.update (Function.update sched.waitworkers wid 1)
            wid 0 = sched.waitworkers := by
          rw [Function.update_idem, ← notWaiting, Function.update_eq_self]
        have pops : (Sched.sendTask (Sched.setState { sched with
            mastermb := rest } t .ready) wid t).prior = sched.prior :=
          prior_setState { sched with mastermb := rest } t .ready
        simp only [Sched.setState, back] at sent
        refine ⟨Function.update (Function.update place t none) t
          (some (.toWorker wid)), ?_⟩
        dsimp only
        rw [pops]
        exact sent
      · simp [Sched.setState]
      · rw [status_setState]
        exact ⟨atRest.wakenup, atRest.blocks, atRest.wakesSent,
          atRest.wakesTaken, atRest.returnsTaken⟩
      · simp [Sched.setState]

/-- The switch of a round keeps the invariant. -/
theorem Core.handle
    (core : Core sched none place)
    (policy : Policy P)
    (observed : Observed τ)
    {msg : WorkerMsg τ n}
    {rest : List (WorkerMsg τ n)}
    (mail : sched.mastermb = msg :: rest) :
    ∃ place', Core ({ sched with mastermb := rest }.handle policy observed msg)
      none place' := by
  cases msg with
  | assign t => exact core.handleAssign policy observed mail
  | ret t => exact core.handleReturn policy observed mail
  | wakeup t => exact core.handleWakeup policy observed mail
  | request wid => exact core.handleRequest mail
  | terminate =>
      refine ⟨place, { core with
        located := ?_, held := by simp, wakes := ?_, tokens := ?_ }⟩
      · intro u p
        rw [← core.located u p]
        cases p with
        | toMaster | returning =>
            simp [Sched.copies, Sched.handle, mail]
        | _ => rfl
      · intro u
        have wakes := core.wakes u
        simpa [Sched.handle, mail] using wakes
      · intro wid
        have tokens := core.tokens wid
        simpa [Sched.tokens, Sched.handle, mail] using tokens

/-- A round of the master keeps the invariant. -/
theorem Core.round
    (core : Core sched none place)
    (policy : Policy P)
    (observed : Observed τ)
    {msg : WorkerMsg τ n}
    {rest : List (WorkerMsg τ n)}
    (mail : sched.mastermb = msg :: rest) :
    ∃ place', Core ({ sched with mastermb := rest }.handle policy observed
      msg).leave none place' := by
  obtain ⟨place', core'⟩ := core.handle policy observed mail
  refine ⟨place', ?_⟩
  unfold Sched.leave
  split
  · exact { core' with }
  · exact core'

end Operations

end Hrc
end Lpel
