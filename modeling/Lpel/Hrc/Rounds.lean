import Lpel.Hrc.SchedSafety

/-!
# What a round of the master does

A round of `MasterLoop` rearranges the ready queue and the priorities, and does at
most one thing to a task: it sends the task of the message, or the head of the queue,
to a worker, puts it into the queue, parks it, destroys it, or notes that its wakeup
was early.
-/

namespace Lpel
namespace Hrc

variable {τ P : Type} {n : ℕ}

/-- The two states differ only in the order of the queue, in priorities and in a
failed assertion. -/
structure Rearranged (sched after : Sched τ P n) : Prop where
  status : after.status = sched.status
  waitworkers : after.waitworkers = sched.waitworkers
  terminate : after.terminate = sched.terminate
  master : after.master = sched.master
  mastermb : after.mastermb = sched.mastermb
  workermbs : after.workermbs = sched.workermbs
  worker : after.worker = sched.worker

/-- The master sends a ready task to a waiting worker, or puts it into the queue. -/
structure Offered [DecidableEq τ] (sched after : Sched τ P n) (t : τ) : Prop where
  terminate : after.terminate = sched.terminate
  master : after.master = sched.master
  mastermb : after.mastermb = sched.mastermb
  worker : after.worker = sched.worker
  outcome :
    (∃ wid, sched.waitworkers wid = 1 ∧
      after.waitworkers = Function.update sched.waitworkers wid 0 ∧
      after.workermbs = Function.update sched.workermbs wid
        (sched.workermbs wid ++ [.assign t]) ∧
      after.status = sched.status) ∨
    after.waitworkers = sched.waitworkers ∧ after.workermbs = sched.workermbs ∧
      after.status = Function.update sched.status t
        { sched.status t with state := .inqueue }

namespace Rearranged

variable {sched after last : Sched τ P n} {t : τ}

theorem refl (sched : Sched τ P n) : Rearranged sched sched :=
  ⟨rfl, rfl, rfl, rfl, rfl, rfl, rfl⟩

theorem trans
    (first : Rearranged sched after)
    (second : Rearranged after last) :
    Rearranged sched last :=
  ⟨second.status.trans first.status, second.waitworkers.trans first.waitworkers,
    second.terminate.trans first.terminate, second.master.trans first.master,
    second.mastermb.trans first.mastermb, second.workermbs.trans first.workermbs,
    second.worker.trans first.worker⟩

theorem assert (sched : Sched τ P n) (condition : Bool) :
    Rearranged sched (sched.assert condition) :=
  ⟨rfl, rfl, rfl, rfl, rfl, rfl, rfl⟩

variable [DecidableEq τ]

theorem setPrior (sched : Sched τ P n) (t : τ) (prior : P) :
    Rearranged sched (sched.setPrior t prior) :=
  ⟨status_setPrior sched t prior, rfl, rfl, rfl, rfl, rfl, rfl⟩

/-- Offering a task after a rearrangement. -/
theorem offered
    (first : Rearranged sched after)
    (second : Offered after last t) :
    Offered sched last t where
  terminate := second.terminate.trans first.terminate
  master := second.master.trans first.master
  mastermb := second.mastermb.trans first.mastermb
  worker := second.worker.trans first.worker
  outcome := by
    rw [← first.status, ← first.waitworkers, ← first.workermbs]
    exact second.outcome

variable [LinearOrder P] [BoundedOrder P]

theorem updatePriority
    (policy : Policy P)
    (sched : Sched τ P n)
    (neighbour : Option τ × SchedView) :
    Rearranged sched (sched.updatePriority policy neighbour) := by
  obtain ⟨t | t, view⟩ := neighbour
  · exact refl sched
  · rw [Sched.updatePriority]
    split
    case isTrue =>
      dsimp only
      split
      case h_1 =>
        exact ⟨status_setPrior sched t _, rfl, rfl, rfl, rfl, rfl, rfl⟩
      case h_2 => exact assert sched false
    case isFalse => exact refl sched

theorem updatePriorityList
    (policy : Policy P)
    (sched : Sched τ P n)
    (list : List (Option τ × SchedView)) :
    Rearranged sched (sched.updatePriorityList policy list) := by
  induction list generalizing sched with
  | nil => exact refl sched
  | cons neighbour list inductionHypothesis =>
      exact (updatePriority policy sched neighbour).trans (inductionHypothesis _)

theorem updatePriorityNeigh
    (policy : Policy P)
    (observed : Observed τ)
    (sched : Sched τ P n) :
    Rearranged sched (sched.updatePriorityNeigh policy observed) :=
  (updatePriorityList policy _ _).trans (updatePriorityList policy _ _)

end Rearranged

/-- The statuses after the state of a task has changed. -/
theorem status_setState_eq
    [DecidableEq τ]
    (sched : Sched τ P n)
    (t : τ)
    (state : TaskState) :
    (sched.setState t state).status =
      Function.update sched.status t { sched.status t with state := state } := by
  funext u
  by_cases same : u = t
  · subst same
    rw [Function.update_self, status_setState]
  · simp [Sched.status, Sched.setState, same]

/-- The statuses after something has happened to a task. -/
theorem status_note_eq
    [DecidableEq τ]
    (sched : Sched τ P n)
    (t : τ)
    (event : History → History) :
    (sched.note t event).status =
      Function.update sched.status t
        { event (sched.status t).toHistory with
          state := (sched.status t).state
          wakenup := (sched.status t).wakenup } := by
  funext u
  by_cases same : u = t
  · subst same
    rw [Function.update_self, status_note]
    rfl
  · simp [Sched.status, Sched.note, same]

/-- Something happens to a task before or after a rearrangement. -/
theorem Rearranged.note
    [DecidableEq τ]
    {sched after : Sched τ P n}
    (rearranged : Rearranged sched after)
    (t : τ)
    (event : History → History) :
    Rearranged (sched.note t event) (after.note t event) :=
  ⟨by rw [status_note_eq, status_note_eq, rearranged.status],
    rearranged.waitworkers, rearranged.terminate, rearranged.master,
    rearranged.mastermb, rearranged.workermbs, rearranged.worker⟩

namespace Offered

variable {sched after : Sched τ P n} {t : τ}
variable [DecidableEq τ] [LinearOrder P]

/-- Nobody waits, or the task has the lowest priority. -/
theorem enqueue (sched : Sched τ P n) (t : τ) :
    Offered sched (sched.enqueue t) t where
  terminate := rfl
  master := rfl
  mastermb := rfl
  worker := rfl
  outcome := .inr ⟨rfl, rfl, status_setState_eq sched t .inqueue⟩

variable [BoundedOrder P]

/-- A waiting worker is served, or nobody waits. -/
theorem serve
    (policy : Policy P)
    (view : SchedView)
    (sched : Sched τ P n)
    (t : τ)
    {otherwise : Sched τ P n → Sched τ P n}
    (queues : ∀ before, Offered before (otherwise before) t) :
    Offered sched
      (match sched.servePendingReq policy view t with
        | (some _, after) => after
        | (none, after) => otherwise after) t := by
  have priced := Rearranged.setPrior sched t (lpelTaskCalPriority policy view)
  obtain ⟨wid, waiting, served⟩ | ⟨-, notServed⟩ :=
    servePendingReq_cases policy view sched t
  · simp only [served]
    exact ⟨rfl, rfl, rfl, rfl, .inl ⟨wid, waiting, rfl, rfl, priced.status⟩⟩
  · simp only [notServed]
    exact priced.offered (queues _)

/-- `case TASK_READY` of a returned task. -/
theorem handleReady
    (policy : Policy P)
    (observed : Observed τ)
    (sched : Sched τ P n)
    (t : τ) :
    Offered sched (sched.handleReady policy observed t) t := by
  have priced := Rearranged.setPrior sched t (lpelTaskCalPriority policy observed.own)
  rw [Sched.handleReady]
  dsimp only
  split
  case isTrue => exact priced.offered (enqueue _ t)
  case isFalse =>
    refine priced.offered (serve policy _ _ t fun before => ?_)
    exact ((Rearranged.updatePriorityNeigh policy observed before).trans
      (Rearranged.setPrior _ t _)).offered (enqueue _ t)

end Offered

/-- What the master does with a message. -/
inductive Round
    [DecidableEq τ]
    [LinearOrder P]
    [BoundedOrder P]
    (sched after : Sched τ P n) : WorkerMsg τ n → Prop
  | assigned {t : τ} :
      Offered (sched.setState t .ready) after t →
      Round sched after (.assign t)
  | yielded {t : τ} :
      (sched.task t).state = .ready →
      Offered sched after t →
      Round sched after (.ret t)
  | resumed {t : τ} :
      (sched.task t).state = .blocked →
      (sched.task t).wakenup = 1 →
      Offered
        ((((sched.note t fun history =>
            { history with returnsTaken := history.returnsTaken + 1 }).setWakenup
              t 0).setState t .ready).note t fun history =>
                { history with readied := history.readied + 1 }) after t →
      Round sched after (.ret t)
  | parked {t : τ} :
      (sched.task t).state = .blocked →
      (sched.task t).wakenup ≠ 1 →
      Rearranged
        ((sched.note t fun history =>
          { history with returnsTaken := history.returnsTaken + 1 }).setState t
            .returned) after →
      Round sched after (.ret t)
  | destroyed {t : τ} :
      (sched.task t).state = .zombie →
      Rearranged
        (sched.note t fun history => { history with destroyed := true }) after →
      Round sched after (.ret t)
  | unexpected {t : τ} :
      (sched.task t).state ≠ .ready →
      (sched.task t).state ≠ .blocked →
      (sched.task t).state ≠ .zombie →
      Rearranged sched after →
      Round sched after (.ret t)
  | early {t : τ} :
      (sched.task t).state ≠ .returned →
      Rearranged
        ((sched.note t fun history =>
          { history with wakesTaken := history.wakesTaken + 1 }).setWakenup t
            1) after →
      Round sched after (.wakeup t)
  | woken {t : τ} :
      (sched.task t).state = .returned →
      Offered
        (((sched.note t fun history =>
            { history with wakesTaken := history.wakesTaken + 1 }).setState t
              .ready).note t fun history =>
                { history with readied := history.readied + 1 }) after t →
      Round sched after (.wakeup t)
  | waits {wid : Fin n} :
      (∀ t, lpelTaskqueuePeek sched.readyTasks = some t → sched.prior t = ⊥) →
      after = { sched with
        waitworkers := Function.update sched.waitworkers wid 1 } →
      Round sched after (.request wid)
  | served {wid : Fin n} {t : τ} :
      lpelTaskqueuePeek sched.readyTasks = some t →
      sched.prior t ≠ ⊥ →
      Rearranged ((sched.setState t .ready).sendWorker wid (.assign t)) after →
      Round sched after (.request wid)
  | told :
      after = { sched with terminate := true } →
      Round sched after .terminate

section Rounds

variable [DecidableEq τ] [LinearOrder P] [BoundedOrder P]

/-- Every round is one of these. -/
theorem handle_cases
    (policy : Policy P)
    (observed : Observed τ)
    (sched : Sched τ P n)
    (msg : WorkerMsg τ n) :
    Round sched (sched.handle policy observed msg) msg := by
  cases msg with
  | terminate => exact .told rfl
  | assign t =>
      refine .assigned ?_
      have asserted : Rearranged (sched.setState t .ready)
          ((sched.assert ((sched.task t).state = .created)).setState t .ready) :=
        ⟨rfl, rfl, rfl, rfl, rfl, rfl, rfl⟩
      rw [Sched.handle, Sched.handleAssign]
      refine asserted.offered (Offered.serve policy _ _ t fun before => ?_)
      exact (Rearranged.setPrior _ t _).offered (Offered.enqueue _ t)
  | ret t =>
      rw [Sched.handle, Sched.handleReturn]
      split
      case h_1 blocked =>
        dsimp only
        split
        case isTrue flag => exact .resumed blocked flag (Offered.handleReady ..)
        case isFalse noFlag =>
          exact .parked blocked noFlag (Rearranged.updatePriorityNeigh ..)
      case h_2 ready => exact .yielded ready (Offered.handleReady ..)
      case h_3 zombie =>
        have first := Rearranged.updatePriorityNeigh policy observed sched
        exact .destroyed zombie ((first.trans (Rearranged.assert ..)).note t _)
      case h_4 notBlocked notReady notZombie =>
        exact .unexpected notReady notBlocked notZombie (Rearranged.assert ..)
  | wakeup t =>
      rw [Sched.handle, Sched.handleWakeup]
      dsimp only
      split
      case isTrue notReturned =>
        exact .early notReturned (Rearranged.refl _)
      case isFalse returned =>
        refine .woken (not_not.mp returned) ?_
        have priced := Rearranged.setPrior
          (((sched.note t fun history =>
            { history with wakesTaken := history.wakesTaken + 1 }).setState t
              .ready).note t fun history =>
                { history with readied := history.readied + 1 }) t
          (lpelTaskCalPriority policy observed.own)
        split
        case isTrue => exact priced.offered (Offered.enqueue _ t)
        case isFalse =>
          exact priced.offered
            (Offered.serve policy _ _ t fun before => Offered.enqueue before t)
  | request wid =>
      rw [Sched.handle, Sched.handleRequest]
      split
      case h_1 empty =>
        refine .waits ?_ rfl
        intro t head
        rw [empty] at head
        cases head
      case h_2 t head =>
        split
        case isTrue lowest =>
          refine .waits ?_ rfl
          intro u head'
          rw [head] at head'
          cases head'
          exact lowest
        case isFalse notLowest =>
          exact .served head notLowest ⟨rfl, rfl, rfl, rfl, rfl, rfl, rfl⟩

/-- A round does not leave the loop before its condition is tested. -/
theorem master_handle
    (policy : Policy P)
    (observed : Observed τ)
    (sched : Sched τ P n)
    (msg : WorkerMsg τ n) :
    (sched.handle policy observed msg).master = sched.master := by
  cases handle_cases policy observed sched msg with
  | assigned offered | yielded _ offered | resumed _ _ offered
  | woken _ offered => exact offered.master
  | parked _ _ rearranged | destroyed _ rearranged | unexpected _ _ _ rearranged
  | early _ rearranged | served _ _ rearranged => exact rearranged.master
  | waits _ same | told same => rw [same]

end Rounds

end Hrc
end Lpel
