import Lpel.Hrc.Rounds
import Lpel.Hrc.SchedWakeup
import Lpel.Lib.Lifecycle

/-!
# The life cycle of the tasks of the workers

The master and the workers take a task through the phases of its life cycle.  What
the master does with a task is no event for it: a task that is sent to the master, is
in the queue, or is on its way to a worker is ready, and a blocked task becomes ready
when its wakeup is sent, whichever of the wakeup and the blocked task reaches the
master first.
-/

namespace Lpel
namespace Hrc

open Lifecycle (Phase Event)

variable {τ P : Type} {n : ℕ}

/-- The phase of a task. -/
def Status.phase (status : Status) : Phase :=
  if status.started then
    match status.state with
    | .created | .ready | .inqueue => .ready
    | .running =>
        if status.blocks = status.readied then
          .running
        else
          .committed (status.wakesSent = status.blocks)
    | .blocked | .returned =>
        if status.wakesSent = status.blocks then .ready else .blocked
    | .zombie => .exited
  else
    .created

def Sched.phase (sched : Sched τ P n) (t : τ) : Phase :=
  (sched.status t).phase

/-- The task in whose function a worker is. -/
def WorkerPc.function : WorkerPc τ → Option τ
  | .running t | .committed t => some t
  | _ => none

/-- The event that a step is for a task. -/
def Sched.event (sched : Sched τ P n) : SchedLabel τ n → Option (τ × Event)
  | .start t => some (t, .start)
  | .wakeup t => some (t, .wakeup)
  | .taskStart wid => (sched.worker wid).task.map fun t => (t, .dispatch)
  | .commit wid => (sched.worker wid).task.map fun t => (t, .commit)
  | .block wid => (sched.worker wid).task.map fun t => (t, .block)
  | .yield wid => (sched.worker wid).task.map fun t => (t, .yield)
  | .exit wid => (sched.worker wid).task.map fun t => (t, .exit)
  | .stop | .first _ | .recv _ | .request _ | .ret _ | .master _ | .broadcast =>
      none

theorem WorkerPc.task_of_function
    {pc : WorkerPc τ}
    {t : τ}
    (inside : pc.function = some t) :
    pc.task = some t := by
  cases pc <;> simp_all [WorkerPc.function, WorkerPc.task]

section Phases

variable {status : Status}

/-- A task that waits to be executed. -/
theorem phase_of_waiting
    (started : status.started = true)
    (waits : status.state = .created ∨ status.state = .ready ∨
      status.state = .inqueue) :
    status.phase = .ready := by
  unfold Status.phase
  obtain is | is | is := waits <;> simp [started, is]

/-- A task that runs and is not about to block. -/
theorem phase_of_running
    (started : status.started = true)
    (is : status.state = .running)
    (rest : AtRest status) :
    status.phase = .running := by
  simp [Status.phase, started, is, rest.blocks]

/-- A task that runs and is about to block. -/
theorem phase_of_committed
    (started : status.started = true)
    (is : status.state = .running)
    (blocking : Blocking status) :
    status.phase = .committed (status.wakesSent = status.blocks) := by
  have inBlock := blocking.blocks
  simp only [Status.phase, started, is, if_true]
  rw [if_neg (by omega)]

/-- A task in a block. -/
theorem phase_of_blocked
    (started : status.started = true)
    (is : status.state = .blocked ∨ status.state = .returned) :
    status.phase =
      if status.wakesSent = status.blocks then .ready else .blocked := by
  unfold Status.phase
  obtain is | is := is <;> simp [started, is]

/-- A task that has exited. -/
theorem phase_of_zombie
    (started : status.started = true)
    (is : status.state = .zombie) :
    status.phase = .exited := by
  simp [Status.phase, started, is]

end Phases

section Rounds

variable {sched after : Sched τ P n} {t : τ}

/-- A rearrangement is no event for a task. -/
theorem Rearranged.phase
    (rearranged : Rearranged sched after) :
    after.phase = sched.phase := by
  funext u
  unfold Sched.phase
  rw [rearranged.status]

/-- The phases change at most where the statuses do. -/
theorem phase_congr
    (others : ∀ u, u ≠ t → after.status u = sched.status u)
    (own : after.phase t = sched.phase t) :
    after.phase = sched.phase := by
  funext u
  by_cases same : u = t
  · subst same
    exact own
  · unfold Sched.phase
    rw [others u same]

/-- The loop condition is no event for a task. -/
theorem phase_leave (sched : Sched τ P n) : sched.leave.phase = sched.phase := by
  unfold Sched.leave
  split <;> rfl

variable [DecidableEq τ]

/-- What happens to one task. -/
theorem goes_of
    {event : Event}
    (others : ∀ u, u ≠ t → after.status u = sched.status u)
    (goes : (sched.phase t).next event = some (after.phase t)) :
    (Lifecycle.machine τ).run sched.phase
        (some (t, event)).toList = some after.phase := by
  refine Lifecycle.run_toList_iff.mpr (Lifecycle.next_iff.mpr ⟨goes, ?_⟩)
  intro u other
  unfold Sched.phase
  rw [others u other]

/-- A ready task stays ready when it is sent to a worker or queued. -/
theorem Offered.phase
    (offered : Offered sched after t)
    (ready : (sched.task t).state = .ready) :
    after.phase = sched.phase := by
  rcases offered.outcome with ⟨-, -, -, -, status⟩ | ⟨-, -, status⟩
  · funext u
    unfold Sched.phase
    rw [status]
  · refine phase_congr (t := t) ?_ ?_
    · intro u other
      rw [status, Function.update_of_ne other]
    · have is : (sched.status t).state = .ready := ready
      unfold Sched.phase
      rw [status, Function.update_self]
      simp [Status.phase, is]

variable [LinearOrder P] {place : τ → Option (Place n)}

/-- A task is started. -/
theorem Core.goes_start
    (core : Core sched none place)
    (unstarted : (sched.history t).started = false) :
    (sched.phase t).next .start =
      some ((((sched.assert ((sched.task t).state = .created)).note t
        fun history => { history with started := true }).sendMaster
          (.assign t)).phase t) := by
  have created : (sched.status t).state = .created := by
    have fits := core.fits t (by simp)
    cases at_ : place t with
    | none =>
        rw [at_] at fits
        rcases fits.life with ⟨-, -, created⟩ | ⟨started, -⟩
        · exact created
        · exact absurd (unstarted.symm.trans started) (by decide)
    | some p =>
        rw [at_] at fits
        exact absurd (unstarted.symm.trans fits.1.1) (by decide)
  have before : sched.phase t = .created := by
    have is : (sched.status t).started = false := unstarted
    simp [Sched.phase, Status.phase, is]
  rw [before, show Phase.next .created .start = some .ready from rfl]
  congr 1
  refine (phase_of_waiting ?_ (.inl ?_)).symm
  · simp [Sched.status, Sched.sendMaster, Sched.note]
  · simpa [Sched.status, Sched.sendMaster, Sched.note, Sched.assert] using created

/-- A task is woken up in the block that it has committed to. -/
theorem Core.goes_wakeup
    (core : Core sched none place)
    (pending : (sched.history t).wakesSent < (sched.history t).blocks) :
    (sched.phase t).next .wakeup =
      some (((sched.note t fun history =>
        { history with wakesSent := history.wakesSent + 1 }).sendMaster
          (.wakeup t)).phase t) := by
  have fits := core.fits t (by simp)
  have unsent : (sched.status t).wakesSent < (sched.status t).blocks := pending
  have started : (sched.status t).started = true := by
    cases at_ : place t with
    | none =>
        rw [at_] at fits
        have rest := fits.rest
        have sent := rest.wakesSent
        have blocks := rest.blocks
        omega
    | some p =>
        rw [at_] at fits
        exact fits.1.1
  obtain ⟨woken, waking⟩ : (sched.status t).wakesSent + 1 =
        (sched.status t).blocks ∧
      ((sched.status t).state = .running ∧
          (sched.status t).blocks ≠ (sched.status t).readied ∨
        (sched.status t).state = .blocked ∨
        (sched.status t).state = .returned) := by
    rcases Fits.situation fits with ⟨rest, -⟩ | ⟨blocking, inside⟩ | ⟨parked, is⟩
    · have sent := rest.wakesSent
      have blocks := rest.blocks
      omega
    · obtain ⟨blocks, -, taken, takenLeSent, sentLeBlocks⟩ := blocking
      refine ⟨by omega, ?_⟩
      rcases inside with running | blocked
      · exact .inl ⟨running, by omega⟩
      · exact .inr (.inl blocked)
    · obtain ⟨-, blocks, -, taken, takenLeSent, sentLeBlocks⟩ := parked
      exact ⟨by omega, .inr (.inr is)⟩
  have becomes : (((sched.note t fun history =>
      { history with wakesSent := history.wakesSent + 1 }).sendMaster
        (.wakeup t)).status t) =
      { sched.status t with wakesSent := (sched.status t).wakesSent + 1 } := by
    simp [Sched.status, Sched.sendMaster, Sched.note]
  unfold Sched.phase
  rw [becomes]
  rcases waking with ⟨running, inBlock⟩ | blocked | returned
  · simp [Status.phase, started, running, inBlock, woken, unsent.ne, Phase.next]
  · simp [Status.phase, started, blocked, woken, unsent.ne, Phase.next]
  · simp [Status.phase, started, returned, woken, unsent.ne, Phase.next]

/-- The task in whose function a worker is executes it. -/
theorem Core.phase_function
    (core : Core sched none place)
    {wid : Fin n}
    (inside : (sched.worker wid).function = some t) :
    sched.phase t = .running ∧ sched.worker wid = .running t ∨
      (∃ woken, sched.phase t = .committed woken) ∧
        sched.worker wid = .committed t := by
  obtain ⟨alive, fits⟩ := core.executing (WorkerPc.task_of_function inside)
  cases position : sched.worker wid with
  | running u =>
      rw [position] at inside fits
      cases inside
      exact .inl ⟨phase_of_running alive.1 fits.1 fits.2, rfl⟩
  | committed u =>
      rw [position] at inside fits
      cases inside
      exact .inr ⟨⟨_, phase_of_committed alive.1 fits.1 fits.2⟩, rfl⟩
  | _ =>
      rw [position] at inside
      cases inside

/-- The task of a worker leaves its function. -/
theorem Core.goes_stop
    (core : Core sched none place)
    {wid : Fin n}
    {event : Event}
    {state : TaskState}
    (executes : (sched.worker wid).task = some t)
    (goes : (sched.history t).Alive → (sched.worker wid).Fits (sched.status t) →
      (sched.phase t).next event =
        some (Status.phase { sched.status t with state := state })) :
    (Lifecycle.machine τ).run sched.phase
        ((sched.worker wid).task.map fun t => (t, event)).toList =
      some (sched.stop wid t state).phase := by
  obtain ⟨alive, fits⟩ := core.executing executes
  rw [executes]
  refine goes_of ?_ ?_
  · intro u other
    exact (congrFun (status_setState_eq (sched.assert _) t state) u).trans
      (Function.update_of_ne other _ _)
  · rw [goes alive fits]
    congr 1
    exact congrArg Status.phase
      (status_setState (sched.assert _) t state).symm

/-- The worker switches to a task. -/
theorem Core.goes_taskStart
    (core : Core sched none place)
    {wid : Fin n}
    (position : sched.worker wid = .dispatch t) :
    (Lifecycle.machine τ).run sched.phase
        ((sched.worker wid).task.map fun t => (t, Event.dispatch)).toList =
      some ((((sched.assert ((sched.task t).state = .ready)).setState t
        .running).setWorker wid (.running t)).phase) := by
  refine core.goes_stop (by rw [position]; rfl) ?_
  intro alive fits
  rw [position] at fits
  obtain ⟨ready, wakenup, blocks, wakesSent, wakesTaken, returnsTaken⟩ := fits
  have runs : AtRest { sched.status t with state := .running } :=
    ⟨wakenup, blocks, wakesSent, wakesTaken, returnsTaken⟩
  rw [Sched.phase, phase_of_waiting alive.1 (.inr (.inl ready))]
  exact congrArg some (phase_of_running alive.1 rfl runs).symm

/-- A running task commits to block. -/
theorem Core.goes_commit
    (core : Core sched none place)
    {wid : Fin n}
    (position : sched.worker wid = .running t) :
    (Lifecycle.machine τ).run sched.phase
        ((sched.worker wid).task.map fun t => (t, Event.commit)).toList =
      some (((sched.note t fun history =>
        { history with blocks := history.blocks + 1 }).setWorker wid
          (.committed t)).phase) := by
  have executes : (sched.worker wid).task = some t := by rw [position]; rfl
  obtain ⟨alive, fits⟩ := core.executing executes
  rw [position] at fits
  obtain ⟨running, rest⟩ := fits
  rw [executes]
  refine goes_of ?_ ?_
  · intro u other
    simp [Sched.status, Sched.note, Sched.setWorker, other]
  · rw [Sched.phase, phase_of_running alive.1 running rest]
    have sent := rest.wakesSent
    have blocks := rest.blocks
    have unsent : (sched.status t).wakesSent ≠ (sched.status t).blocks + 1 := by
      omega
    have inBlock : (sched.status t).blocks + 1 ≠ (sched.status t).readied := by
      omega
    have becomes : (((sched.note t fun history =>
        { history with blocks := history.blocks + 1 }).setWorker wid
          (.committed t)).status t) =
        { sched.status t with blocks := (sched.status t).blocks + 1 } := by
      simp [Sched.status, Sched.note, Sched.setWorker]
    have started : (sched.status t).started = true := alive.1
    rw [Sched.phase, becomes]
    simp [Status.phase, started, running, unsent, inBlock, Phase.next]

/-- A task that executes its function is on a worker. -/
theorem Core.exists_function
    (core : Core sched none place)
    (executes : (sched.phase t).executes = true) :
    ∃ wid, (sched.worker wid).function = some t := by
  have running : (sched.status t).state = .running := by
    unfold Sched.phase Status.phase at executes
    split at executes
    case isTrue =>
      split at executes
      case h_4 is => exact is
      case h_5 | h_6 =>
        split at executes <;> cases executes
      all_goals cases executes
    case isFalse => cases executes
  have fits := core.fits t (by simp)
  cases at_ : place t with
  | none =>
      rw [at_] at fits
      rcases fits.life with ⟨-, -, created⟩ | ⟨-, -, zombie⟩
      · exact absurd (running.symm.trans created) (by decide)
      · exact absurd (running.symm.trans zombie) (by decide)
  | some p =>
      rw [at_] at fits
      have fits := fits.2
      cases p with
      | toMaster | queued | toWorker | parked =>
          exact absurd (running.symm.trans fits.1) (by decide)
      | returning => simp [Place.Fits, Stopped, running] at fits
      | executing wid =>
          have here := core.located t (.executing wid)
          rw [at_, if_pos rfl, Sched.copies] at here
          have executes : (sched.worker wid).task = some t := by
            by_contra other
            rw [if_neg other] at here
            cases here
          refine ⟨wid, ?_⟩
          simp only [Place.Fits] at fits
          cases position : sched.worker wid with
          | running u | committed u =>
              rw [position] at executes
              exact executes
          | dispatch u =>
              rw [position] at fits
              exact absurd (running.symm.trans fits.1) (by decide)
          | stopped u | back u =>
              rw [position] at fits
              simp [WorkerPc.Fits, Stopped, running] at fits
          | start | recv | finished =>
              rw [position] at fits
              exact absurd fits id

/-- A task that has committed to block, or is in a block, and whose wakeup was not
sent can be woken up. -/
theorem Core.pending_of_awaits
    (core : Core sched none place)
    (awaits : (sched.phase t).awaits = true) :
    (sched.history t).wakesSent < (sched.history t).blocks := by
  have fits := core.fits t (by simp)
  have sentLeBlocks : (sched.status t).wakesSent ≤ (sched.status t).blocks := by
    rcases Fits.situation fits with ⟨rest, -⟩ | ⟨blocking, -⟩ | ⟨parked, -⟩
    · exact (rest.wakesSent.trans rest.blocks.symm).le
    · exact blocking.sent_le_blocks
    · exact parked.sent_le_blocks
  have unsent : (sched.status t).wakesSent ≠ (sched.status t).blocks := by
    intro sent
    unfold Sched.phase Status.phase at awaits
    split at awaits
    case isTrue =>
      split at awaits
      case h_4 =>
        split at awaits
        · cases awaits
        · simp [sent, Phase.awaits] at awaits
      case h_5 | h_6 =>
        cases awaits
      all_goals cases awaits
    case isFalse => cases awaits
  exact lt_of_le_of_ne sentLeBlocks unsent

variable [BoundedOrder P]

/-- A round of the master is no event for a task. -/
theorem Core.phase_handle
    (core : Core sched none place)
    (policy : Policy P)
    (observed : Observed τ)
    {msg : WorkerMsg τ n}
    {rest : List (WorkerMsg τ n)}
    (mail : sched.mastermb = msg :: rest) :
    ({ sched with mastermb := rest }.handle policy observed msg).phase =
      sched.phase := by
  have others (state : TaskState) (t u : τ) (other : u ≠ t) :
      (({ sched with mastermb := rest } : Sched τ P n).setState t state).status u =
        sched.status u := by
    rw [status_setState_eq, Function.update_of_ne other]
    rfl
  cases handle_cases policy observed { sched with mastermb := rest } msg with
  | @assigned t offered =>
      rw [offered.phase (by simp [Sched.setState])]
      have fits := core.fits t (by simp)
      rw [(core.take (Or.inl ⟨rfl, rfl⟩) mail).2] at fits
      obtain ⟨alive, created, -⟩ := fits
      refine phase_congr (others .ready t) ?_
      rw [Sched.phase, Sched.phase, phase_of_waiting alive.1 (.inl created)]
      exact phase_of_waiting alive.1 (.inr (.inl (by simp [status_setState])))
  | yielded ready offered => exact offered.phase ready
  | @resumed t blocked flag offered =>
      rw [offered.phase (by simp [Sched.note, Sched.setState])]
      obtain ⟨held, stopped⟩ := core.takeReturn mail
      have started : (sched.status t).started = true := (held.held t rfl).2.1
      have blocking : Blocking (sched.status t) := by
        have is : (sched.status t).state = .blocked := blocked
        rwa [Stopped, is] at stopped
      have sent : (sched.status t).wakesSent = (sched.status t).blocks := by
        obtain ⟨blocks, -, taken, takenLeSent, sentLeBlocks⟩ := blocking
        have flag : (sched.status t).wakenup = 1 := flag
        omega
      refine phase_congr (t := t) ?_ ?_
      · intro u other
        simp [Sched.status, Sched.note, Sched.setWakenup, Sched.setState, other]
      · rw [Sched.phase, Sched.phase, phase_of_blocked started (.inl blocked),
          if_pos sent]
        refine phase_of_waiting ?_ (.inr (.inl ?_))
        · simpa [Sched.status, Sched.note, Sched.setWakenup, Sched.setState]
            using started
        · simp [Sched.status, Sched.note, Sched.setState]
  | @parked t blocked noFlag rearranged =>
      rw [rearranged.phase]
      refine phase_congr (t := t) ?_ ?_
      · intro u other
        simp [Sched.status, Sched.note, Sched.setState, other]
      · have is : (sched.task t).state = .blocked := blocked
        simp [Sched.phase, Status.phase, Sched.status, Sched.note, Sched.setState,
          is]
  | @destroyed t zombie rearranged =>
      rw [rearranged.phase]
      refine phase_congr (t := t) ?_ ?_
      · intro u other
        simp [Sched.status, Sched.note, other]
      · rw [Sched.phase, status_note]
        rfl
  | unexpected _ _ _ rearranged => exact rearranged.phase
  | @early t notReturned rearranged =>
      rw [rearranged.phase]
      refine phase_congr (t := t) ?_ ?_
      · intro u other
        simp [Sched.status, Sched.note, Sched.setWakenup, other]
      · rw [Sched.phase, status_setWakenup, status_note]
        rfl
  | @woken t returned offered =>
      rw [offered.phase (by simp [Sched.note, Sched.setState])]
      have parked := (core.unpark mail returned).2
      have alive := (core.unpark mail returned).1.held t rfl
      have sent : (sched.status t).wakesSent = (sched.status t).blocks := by
        obtain ⟨-, blocks, -, taken, -, sentLeBlocks⟩ := parked
        have later : (sched.status t).wakesTaken < (sched.status t).wakesSent :=
          core.taken_lt_sent mail
        omega
      have started : (sched.status t).started = true := by
        simpa [Sched.status, Sched.note, Sched.setState] using alive.2.1
      refine phase_congr (t := t) ?_ ?_
      · intro u other
        simp [Sched.status, Sched.note, Sched.setState, other]
      · rw [Sched.phase, Sched.phase, phase_of_blocked started (.inr returned),
          if_pos sent]
        refine phase_of_waiting ?_ (.inr (.inl ?_))
        · simpa [Sched.status, Sched.note, Sched.setState] using started
        · simp [Sched.status, Sched.note, Sched.setState]
  | waits _ same =>
      rw [same]
      rfl
  | @served wid t head notLowest rearranged =>
      rw [rearranged.phase]
      have queued : t ∈ sched.readyTasks.tasks := by
        rw [Taskqueue.tasks_pop core.queue head]
        exact Multiset.mem_cons_self t _
      have present : sched.copies t .queued ≠ 0 :=
        Multiset.count_ne_zero.mpr queued
      have fits := core.fits t (by simp)
      rw [core.located.place_eq present] at fits
      obtain ⟨alive, inqueue, -⟩ := fits
      refine phase_congr (others .ready t) ?_
      change ((({ sched with mastermb := rest } : Sched τ P n).setState t
        .ready).status t).phase = _
      rw [Sched.phase, phase_of_waiting alive.1 (.inr (.inr inqueue))]
      exact phase_of_waiting alive.1 (.inr (.inl (by simp [status_setState])))
  | told same =>
      rw [same]
      rfl

/-- Every step is what its event is for the task. -/
theorem Core.lifecycle
    (core : Core sched none place)
    {policy : Policy P}
    {label : SchedLabel τ n}
    (taken : schedNext policy sched label = some after) :
    (Lifecycle.machine τ).run sched.phase (sched.event label).toList =
      some after.phase := by
  cases label with
  | start t =>
      cases schedNext_cases taken with
      | start unstarted =>
          refine goes_of ?_ (core.goes_start unstarted)
          intro u other
          simp [Sched.status, Sched.sendMaster, Sched.note, Sched.assert, other]
      | worker step => cases step
  | wakeup t =>
      cases schedNext_cases taken with
      | wakeup pending =>
          refine goes_of ?_ (core.goes_wakeup pending)
          intro u other
          simp [Sched.status, Sched.sendMaster, Sched.note, other]
      | worker step => cases step
  | stop =>
      obtain rfl := Option.some.inj taken
      rfl
  | broadcast =>
      cases schedNext_cases taken with
      | broadcast inside position => rfl
      | worker step => cases step
  | master observed =>
      cases schedNext_cases taken with
      | master loop mail =>
          rw [phase_leave, core.phase_handle policy observed mail]
          rfl
      | worker step => cases step
  | first wid =>
      rw [schedNext] at taken
      cases workerNext_cases taken
      rfl
  | recv wid =>
      rw [schedNext] at taken
      cases workerNext_cases taken <;> rfl
  | request wid =>
      rw [schedNext] at taken
      cases workerNext_cases taken
      rfl
  | ret wid =>
      rw [schedNext] at taken
      cases workerNext_cases taken
      rfl
  | taskStart wid =>
      rw [schedNext] at taken
      cases workerNext_cases taken with
      | taskStart position => exact core.goes_taskStart position
  | commit wid =>
      rw [schedNext] at taken
      cases workerNext_cases taken with
      | commit position => exact core.goes_commit position
  | block wid =>
      rw [schedNext] at taken
      cases workerNext_cases taken with
      | @block _ t position =>
          refine core.goes_stop (by rw [position]; rfl) ?_
          intro alive fits
          rw [position] at fits
          rw [Sched.phase, phase_of_committed alive.1 fits.1 fits.2]
          refine Eq.trans ?_
            (congrArg some (phase_of_blocked alive.1 (.inl rfl)).symm)
          by_cases sent : (sched.status t).wakesSent = (sched.status t).blocks
          · rw [decide_eq_true sent, if_pos sent]
            rfl
          · rw [decide_eq_false sent, if_neg sent]
            rfl
  | yield wid =>
      rw [schedNext] at taken
      cases workerNext_cases taken with
      | yield position =>
          refine core.goes_stop (by rw [position]; rfl) ?_
          intro alive fits
          rw [position] at fits
          rw [Sched.phase, phase_of_running alive.1 fits.1 fits.2]
          exact congrArg some (phase_of_waiting alive.1 (.inr (.inl rfl))).symm
  | exit wid =>
      rw [schedNext] at taken
      cases workerNext_cases taken with
      | exit position =>
          refine core.goes_stop (by rw [position]; rfl) ?_
          intro alive fits
          rw [position] at fits
          rw [Sched.phase, phase_of_running alive.1 fits.1 fits.2]
          exact congrArg some (phase_of_zombie alive.1 rfl).symm

end Rounds

section Asks

variable {sched : Sched τ P n} {t : τ} {wid : Fin n}
variable [DecidableEq τ] [LinearOrder P] {place : τ → Option (Place n)}

/-- A worker in the function of a running task. -/
theorem Core.position_running
    (core : Core sched none place)
    (inside : (sched.worker wid).function = some t)
    (running : sched.phase t = .running) :
    sched.worker wid = .running t := by
  rcases core.phase_function inside with ⟨-, position⟩ | ⟨⟨woken, is⟩, -⟩
  · exact position
  · exact absurd (running.symm.trans is) (by simp)

/-- A worker in the function of a task that is about to block. -/
theorem Core.position_committed
    (core : Core sched none place)
    {woken : Bool}
    (inside : (sched.worker wid).function = some t)
    (committed : sched.phase t = .committed woken) :
    sched.worker wid = .committed t := by
  rcases core.phase_function inside with ⟨is, -⟩ | ⟨-, position⟩
  · exact absurd (committed.symm.trans is) (by simp)
  · exact position

variable [BoundedOrder P]

/-- What a running task can ask for. -/
theorem Core.asks_running
    (core : Core sched none place)
    (policy : Policy P)
    (inside : (sched.worker wid).function = some t)
    (running : sched.phase t = .running) :
    (sched.event (.commit wid) = some (t, .commit) ∧
      (schedNext policy sched (.commit wid)).isSome = true) ∧
    (sched.event (.exit wid) = some (t, .exit) ∧
      (schedNext policy sched (.exit wid)).isSome = true) := by
  have position := core.position_running inside running
  simp [Sched.event, schedNext, workerNext, position, WorkerPc.task]

/-- What a task that has committed to block asks for. -/
theorem Core.asks_committed
    (core : Core sched none place)
    (policy : Policy P)
    {woken : Bool}
    (inside : (sched.worker wid).function = some t)
    (committed : sched.phase t = .committed woken) :
    sched.event (.block wid) = some (t, .block) ∧
      (schedNext policy sched (.block wid)).isSome = true := by
  have position := core.position_committed inside committed
  simp [Sched.event, schedNext, workerNext, position, WorkerPc.task]

/-- A task that waits for a wakeup can be woken up. -/
theorem Core.asks_wakeup
    (core : Core sched none place)
    (policy : Policy P)
    (awaits : (sched.phase t).awaits = true) :
    (schedNext policy sched (.wakeup t)).isSome = true := by
  have pending := core.pending_of_awaits awaits
  simp [schedNext, pending]

end Asks

/-- Only a start is a start. -/
theorem label_of_start
    {sched : Sched τ P n}
    {label : SchedLabel τ n}
    {t : τ}
    (is : sched.event label = some (t, .start)) :
    label = .start t := by
  cases label with
  | start u =>
      cases is
      rfl
  | taskStart wid | commit wid | block wid | yield wid | exit wid =>
      obtain ⟨u, -, same⟩ := Option.map_eq_some_iff.mp is
      cases same
  | wakeup | stop | first | recv | request | ret | master | broadcast => cases is

end Hrc
end Lpel
