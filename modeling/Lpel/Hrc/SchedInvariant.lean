import Lpel.Hrc.Scheduler
import Lpel.Lib.Placement

/-!
# Where the tasks are

The invariant of the scheduler.  A map gives the one place where each task is;
the state of the task, its `wakenup` flag and its history fit that place.  Each
worker that has asked for a task and not yet received one is represented once:
by its request, by its entry in `waitworkers` or by a task in its mailbox.

Within a round of the master the task of the message is in no place but in the
hands of the master.  The invariant therefore has the held task as a parameter,
and a round is followed operation by operation.
-/

namespace Lpel
namespace Hrc

variable {τ P : Type} {n : ℕ}

/-- The places where a task can be. -/
inductive Place (n : ℕ)
  | toMaster
  | queued
  | toWorker (wid : Fin n)
  | executing (wid : Fin n)
  | returning
  | parked
  deriving DecidableEq

/-- The task that a worker executes. -/
def WorkerPc.task : WorkerPc τ → Option τ
  | .dispatch t | .running t | .committed t | .stopped t | .back t => some t
  | .start | .recv | .finished => none

/-- The worker has sent a request for which it has not received a task. -/
def WorkerPc.asked : WorkerPc τ → ℕ
  | .recv | .back _ | .finished => 1
  | .start | .dispatch _ | .running _ | .committed _ | .stopped _ => 0

/-- The messages that the master sends. -/
def WorkerMsg.forWorker : WorkerMsg τ n → Bool
  | .assign _ | .terminate => true
  | _ => false

def WorkerMsg.isAssign : WorkerMsg τ n → Bool
  | .assign _ => true
  | _ => false

/-- How often a task is at a place. -/
def Sched.copies [DecidableEq τ] (sched : Sched τ P n) (t : τ) : Place n → ℕ
  | .toMaster => sched.mastermb.count (.assign t)
  | .queued => sched.readyTasks.tasks.count t
  | .toWorker wid => (sched.workermbs wid).count (.assign t)
  | .executing wid => if (sched.worker wid).task = some t then 1 else 0
  | .returning => sched.mastermb.count (.ret t)
  | .parked => if (sched.task t).state = .returned then 1 else 0

/-- How often a worker is represented as waiting for a task. -/
def Sched.tokens [DecidableEq τ] (sched : Sched τ P n) (wid : Fin n) : ℕ :=
  sched.mastermb.count (.request wid) + sched.waitworkers wid +
    (sched.workermbs wid).countP WorkerMsg.isAssign

/-- The history of a task with the fields of its record that only the scheduler
changes. -/
structure Status extends History where
  state : TaskState
  wakenup : ℕ

def Sched.status (sched : Sched τ P n) (t : τ) : Status :=
  { sched.history t with
    state := (sched.task t).state
    wakenup := (sched.task t).wakenup }

/-- The task is not in a block: every block it has been in is over. -/
structure AtRest (status : Status) : Prop where
  wakenup : status.wakenup = 0
  blocks : status.blocks = status.readied
  wakesSent : status.wakesSent = status.readied
  wakesTaken : status.wakesTaken = status.readied
  returnsTaken : status.returnsTaken = status.readied

/-- The task is in a block and the master has not taken it back. -/
structure Blocking (status : Status) : Prop where
  blocks : status.blocks = status.readied + 1
  returnsTaken : status.returnsTaken = status.readied
  wakesTaken : status.wakesTaken = status.readied + status.wakenup
  taken_le_sent : status.wakesTaken ≤ status.wakesSent
  sent_le_blocks : status.wakesSent ≤ status.blocks

/-- The task is in a block and the master has taken it back before its
wakeup. -/
structure Parked (status : Status) : Prop where
  wakenup : status.wakenup = 0
  blocks : status.blocks = status.readied + 1
  returnsTaken : status.returnsTaken = status.readied + 1
  wakesTaken : status.wakesTaken = status.readied
  taken_le_sent : status.wakesTaken ≤ status.wakesSent
  sent_le_blocks : status.wakesSent ≤ status.blocks

/-- The task has left its function: it yields, it has exited or it is blocked. -/
def Stopped (status : Status) : Prop :=
  match status.state with
  | .ready | .zombie => AtRest status
  | .blocked => Blocking status
  | _ => False

/-- What holds of the task that a worker executes. -/
def WorkerPc.Fits (status : Status) : WorkerPc τ → Prop
  | .dispatch _ => status.state = .ready ∧ AtRest status
  | .running _ => status.state = .running ∧ AtRest status
  | .committed _ => status.state = .running ∧ Blocking status
  | .stopped _ | .back _ => Stopped status
  | .start | .recv | .finished => False

/-- What holds of a task at a place. -/
def Place.Fits (worker : Fin n → WorkerPc τ) (status : Status) :
    Place n → Prop
  | .toMaster => status.state = .created ∧ AtRest status
  | .queued => status.state = .inqueue ∧ AtRest status
  | .toWorker _ => status.state = .ready ∧ AtRest status
  | .executing wid => (worker wid).Fits status
  | .returning => Stopped status
  | .parked => status.state = .returned ∧ Parked status

/-- The task has been started and not been destroyed. -/
def History.Alive (history : History) : Prop :=
  history.started = true ∧ history.destroyed = false

/-- The task has not been started, or has been destroyed. -/
structure Outside (status : Status) : Prop where
  rest : AtRest status
  life : status.started = false ∧ status.destroyed = false ∧
      status.state = .created ∨
    status.started = true ∧ status.destroyed = true ∧ status.state = .zombie

/-- What holds of a task that the master does not hold. -/
def Fits (worker : Fin n → WorkerPc τ) (status : Status) :
    Option (Place n) → Prop
  | none => Outside status
  | some place => status.toHistory.Alive ∧ place.Fits worker status

/-- The invariant, with the task that the master holds and the places of the
others. -/
structure Core
    [DecidableEq τ]
    [LinearOrder P]
    (sched : Sched τ P n)
    (hand : Option τ)
    (place : τ → Option (Place n)) : Prop where
  located : Placed sched.copies place
  held : ∀ t, hand = some t → place t = none ∧ (sched.history t).Alive
  fits : ∀ t, hand ≠ some t → Fits sched.worker (sched.status t) (place t)
  wakes : ∀ t, sched.mastermb.count (.wakeup t) + (sched.history t).wakesTaken =
    (sched.history t).wakesSent
  tokens : ∀ wid, sched.tokens wid = (sched.worker wid).asked
  queue : sched.readyTasks.Valid sched.prior
  messages : ∀ wid, ∀ msg ∈ sched.workermbs wid, msg.forWorker = true
  ok : sched.failed = false

section Core

variable [DecidableEq τ] [LinearOrder P]
variable {sched : Sched τ P n} {hand : Option τ}
variable {place : τ → Option (Place n)} {t : τ}

/-- A task that the master holds is nowhere else. -/
theorem Core.copies_held
    (core : Core sched (some t) place)
    (p : Place n) :
    sched.copies t p = 0 :=
  core.located.copies_of_none (core.held t rfl).1 p

theorem Core.not_queued
    (core : Core sched (some t) place) :
    t ∉ sched.readyTasks.tasks :=
  Multiset.count_eq_zero.mp (core.copies_held .queued)

theorem Core.not_returned
    (core : Core sched (some t) place) :
    (sched.task t).state ≠ .returned := by
  intro returned
  have copies := core.copies_held .parked
  rw [Sched.copies, if_pos returned] at copies
  omega

/-- The queue holds no task twice. -/
theorem Core.queue_nodup
    (core : Core sched hand place) :
    sched.readyTasks.tasks.Nodup := by
  rw [Multiset.nodup_iff_count_le_one]
  intro u
  exact core.located.copies_le_one u .queued

/-- A task in the queue has the state `TASK_INQUEUE`, and only such a task. -/
theorem Core.inqueue_iff
    (core : Core sched hand place)
    {u : τ}
    (other : hand ≠ some u) :
    (sched.task u).state = .inqueue ↔ u ∈ sched.readyTasks.tasks := by
  have fits := core.fits u other
  constructor
  · intro inqueue
    rw [← Multiset.count_pos]
    change 0 < sched.copies u .queued
    rw [core.located u]
    cases at_ : place u with
    | none =>
        rw [at_] at fits
        have life := fits.life
        simp [Sched.status, inqueue] at life
    | some p =>
        rw [at_] at fits
        have fits := fits.2
        cases p with
        | queued => simp
        | toMaster | toWorker | parked =>
            have state : (sched.task u).state = _ := fits.1
            rw [inqueue] at state
            exact absurd state (by decide)
        | executing wid =>
            simp only [Place.Fits] at fits
            cases pc : sched.worker wid <;>
              simp [pc, WorkerPc.Fits, Stopped, Sched.status, inqueue] at fits
        | returning => simp [Place.Fits, Stopped, Sched.status, inqueue] at fits
  · intro queued
    have present : sched.copies u .queued ≠ 0 := by
      have positive := Multiset.count_pos.mpr queued
      exact Nat.pos_iff_ne_zero.mp positive
    rw [core.located.place_eq present] at fits
    exact fits.2.1

end Core

end Hrc
end Lpel
