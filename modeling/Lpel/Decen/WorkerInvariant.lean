import Lpel.Decen.Worker
import Lpel.Lib.Placement

/-!
# Where the tasks of the workers are

The invariant of the decentralised scheduler.  A task is in one place, and its
state, its worker context and the wakeup of its block fit that place.  As for
the hierarchical back end a step is followed operation by operation, with the
task that is being moved as a parameter of the invariant; a second parameter is
the worker that counts it in `num_tasks`.
-/

namespace Lpel
namespace Decen

variable {τ : Type} {n : ℕ}

/-- The places where a task can be. -/
inductive Place (τ : Type) (n : ℕ)
  /-- `WORKER_MSG_ASSIGN` in the mailbox. -/
  | assigned (wc : Context τ n)
  /-- A ready queue, or the slot `wraptask`. -/
  | ready (wc : Context τ n)
  | running (wc : Context τ n)
  | blocked (wc : Context τ n)
  | migrated (wc : Context τ n)
  /-- `marked_del`. -/
  | zombie (wc : Context τ n)
  deriving DecidableEq

/-- The worker that counts a task at a place. -/
def Place.owner : Place τ n → Option (Context τ n)
  | .ready wc | .running wc | .blocked wc | .migrated wc => some wc
  | .assigned _ | .zombie _ => none

/-- The task that a thread executes. -/
def Pc.task : Pc τ n → Option τ
  | .resume t | .running t | .committed t => some t
  | _ => none

/-- What a thread knows of its worker. -/
def Pc.Ok (wc : Context τ n) (current : Option τ) : Pc τ n → Prop
  | .resume t | .running t | .committed t => current = some t
  | .dispatcher wc' t | .pick wc' t =>
      wc' = wc ∧ wc.isWorker = true ∧ current = some t
  | _ => True

/-- How often a task is at a place. -/
def Workers.copies [DecidableEq τ] (workers : Workers τ n) (t : τ) :
    Place τ n → ℕ
  | .assigned wc => (workers.mailbox wc).count (.assign t)
  | .ready wc =>
      (workers.sched wc).count t +
        if workers.wraptask wc = some t then 1 else 0
  | .running wc => if (workers.thread wc).task = some t then 1 else 0
  | .blocked wc =>
      if (workers.task t).state = .blocked ∧
          (workers.task t).workerContext = wc then 1 else 0
  | .migrated wc => if workers.migrated wc = some t then 1 else 0
  | .zombie wc => if workers.markedDel wc = some t then 1 else 0

/-- The history of a task with the fields of its record that matter here. -/
structure Status (τ : Type) (n : ℕ) extends History where
  state : TaskState
  workerContext : Context τ n

def Workers.status (workers : Workers τ n) (t : τ) : Status τ n :=
  { workers.history t with
    state := (workers.task t).state
    workerContext := (workers.task t).workerContext }

/-- What holds of the task that a thread executes. -/
def Pc.Fits (status : Status τ n) : Pc τ n → Prop
  | .resume _ => status.state = .ready ∧ status.block = .idle
  | .running _ => status.state = .running ∧ status.block = .idle
  | .committed _ => status.state = .running ∧ status.block ≠ .idle
  | _ => False

/-- What holds of a task at a place. -/
def Place.Fits (thread : Context τ n → Pc τ n) (status : Status τ n) :
    Place τ n → Prop
  | .assigned wc =>
      (status.state = .created ∨ status.state = .ready) ∧
        status.block = .idle ∧ status.workerContext = wc
  | .ready wc =>
      status.state = .ready ∧ status.block = .idle ∧ status.workerContext = wc
  | .running wc => status.workerContext = wc ∧ (thread wc).Fits status
  | .blocked wc =>
      status.state = .blocked ∧ status.block ≠ .idle ∧
        status.workerContext = wc
  | .migrated _ =>
      status.state = .ready ∧ status.block = .idle ∧
        status.workerContext.isWorker = true
  | .zombie _ => status.state = .zombie ∧ status.block = .idle

/-- The task has been started and not been destroyed. -/
def History.Alive (history : History) : Prop :=
  history.started = true ∧ history.destroyed = false

/-- The task has not been started, or has been destroyed. -/
structure Outside (status : Status τ n) : Prop where
  block : status.block = .idle
  life : status.started = false ∧ status.destroyed = false ∧
      status.state = .created ∨
    status.started = true ∧ status.destroyed = true ∧ status.state = .zombie

/-- What holds of a task that is not being moved. -/
def Fits (thread : Context τ n → Pc τ n) (status : Status τ n) :
    Option (Place τ n) → Prop
  | none => Outside status
  | some place => status.toHistory.Alive ∧ place.Fits thread status

/-- The worker that counts a task. -/
def holder
    [DecidableEq τ]
    (hand : Option τ)
    (owner : Option (Context τ n))
    (place : τ → Option (Place τ n))
    (t : τ) : Option (Context τ n) :=
  if hand = some t then owner else (place t).bind Place.owner

/-- The invariant, with the task that is being moved, the worker that counts it
and the places of the others. -/
structure Core
    [DecidableEq τ]
    (workers : Workers τ n)
    (hand : Option τ)
    (owner : Option (Context τ n))
    (place : τ → Option (Place τ n)) : Prop where
  located : Placed workers.copies place
  held : ∀ t, hand = some t →
    place t = none ∧ (workers.history t).Alive ∧
      (workers.history t).block = .idle
  fits : ∀ t, hand ≠ some t →
    Fits workers.thread (workers.status t) (place t)
  wakes : ∀ t wc, (workers.mailbox wc).count (.wakeup t) =
    if (workers.history t).block = .sent ∧
      (workers.task t).workerContext = wc then 1 else 0
  notified : ∀ t, .spmdreq ∉ workers.mailbox (.wrapper t)
  home : ∀ t u, (workers.task t).workerContext = .wrapper u → u = t
  threads : ∀ wc, (workers.thread wc).Ok wc (workers.currentTask wc)
  migrates : ∀ wc, workers.migrated wc ≠ none → wc.isWorker = true →
    workers.thread wc = .back
  wrapped : ∀ t u, workers.migrated (.wrapper u) = some t → t = u
  owned : ∀ wc t, t ∈ workers.owned wc ↔ holder hand owner place t = some wc
  counted : ∀ wid, workers.numTasks (.worker wid) =
    (workers.owned (.worker wid)).card
  ok : workers.failed = false

section Core

variable [DecidableEq τ]
variable {workers : Workers τ n} {hand : Option τ}
variable {owner : Option (Context τ n)}
variable {place : τ → Option (Place τ n)} {t : τ} {wc : Context τ n}

/-- A task that is being moved is nowhere else. -/
theorem Core.copies_held
    (core : Core workers (some t) owner place)
    (p : Place τ n) :
    workers.copies t p = 0 :=
  core.located.copies_of_none (core.held t rfl).1 p

/-- What is known of a task at a place. -/
theorem Core.fits_at
    (core : Core workers none owner place)
    {p : Place τ n}
    (present : workers.copies t p ≠ 0) :
    place t = some p ∧ (workers.history t).Alive ∧
      p.Fits workers.thread (workers.status t) := by
  have at_ := core.located.place_eq present
  have fits := core.fits t (by simp)
  rw [at_] at fits
  exact ⟨at_, fits⟩

theorem Core.not_blocked
    (core : Core workers (some t) owner place) :
    (workers.task t).state ≠ .blocked := by
  intro blocked
  have copies := core.copies_held (.blocked (workers.task t).workerContext)
  rw [Workers.copies, if_pos ⟨blocked, rfl⟩] at copies
  exact absurd copies one_ne_zero

/-- Only the task on a thread is executed by it. -/
theorem Core.not_running_of
    (core : Core workers hand owner place)
    {u : τ}
    (other : (workers.thread wc).task ≠ some u) :
    place u ≠ some (.running wc) := by
  intro at_
  have copies := core.located u (.running wc)
  rw [at_, Workers.copies, if_neg other, if_pos rfl] at copies
  exact absurd copies (by decide)

/-- The slot of the wrapper of a task that is being moved is free. -/
theorem Core.wraptask_free
    (core : Core workers (some t) owner place)
    (isWrapper : (workers.task t).workerContext.isWorker = false) :
    workers.wraptask (workers.task t).workerContext = none := by
  cases context : (workers.task t).workerContext with
  | worker wid =>
      rw [context] at isWrapper
      exact absurd isWrapper (by simp [Context.isWorker])
  | wrapper u =>
      cases slot : workers.wraptask (.wrapper u) with
      | none => rfl
      | some v =>
          have present : place v = some (.ready (.wrapper u)) := by
            apply core.located.place_eq
            rw [Workers.copies, if_pos slot]
            omega
          have distinct : some t ≠ some v := by
            intro same
            rw [← Option.some.inj same, (core.held t rfl).1] at present
            exact absurd present (by simp)
          have fits := core.fits v distinct
          rw [present] at fits
          have here : u = v := core.home v u fits.2.2.2
          have there : u = t := core.home t u context
          rw [← here, ← there] at distinct
          exact absurd rfl distinct

omit [DecidableEq τ] in
/-- What holds of a task elsewhere does not depend on a thread. -/
theorem Fits.setThread
    [DecidableEq τ]
    {thread : Context τ n → Pc τ n}
    {status : Status τ n}
    {at_ : Option (Place τ n)}
    (fits : Fits thread status at_)
    (elsewhere : at_ ≠ some (.running wc))
    (pc : Pc τ n) :
    Fits (Function.update thread wc pc) status at_ := by
  cases at_ with
  | none => exact fits
  | some p =>
      cases p with
      | running other =>
          have distinct : other ≠ wc := by
            rintro rfl
            exact elsewhere rfl
          simpa [Fits, Place.Fits, Function.update_of_ne distinct] using fits
      | _ => exact fits

/-- The dispatcher on a stack is the one of the worker that executes there. -/
theorem Core.dispatches
    (core : Core workers hand owner place)
    {self : Context τ n}
    (position : workers.thread self = .dispatcher wc t ∨
      workers.thread self = .pick wc t) :
    wc = self ∧ self.isWorker = true ∧ workers.currentTask self = some t := by
  have ok := core.threads self
  rcases position with position | position
  · rwa [position] at ok
  · rwa [position] at ok

/-- Nothing is to be handed off by a worker that is not back in its loop. -/
theorem Core.not_migrating
    (core : Core workers hand owner place)
    (elsewhere : workers.thread wc ≠ .back)
    (isWorker : wc.isWorker = true) :
    workers.migrated wc = none := by
  by_contra migrating
  exact elsewhere (core.migrates wc migrating isWorker)

/-- A thread that executes a task has nothing to hand off.  A wrapper keeps the
task that it should hand off, and it never executes another one. -/
theorem Core.not_migrating_task
    (core : Core workers none none place)
    (executes : (workers.thread wc).task = some t) :
    workers.migrated wc = none := by
  cases wc with
  | worker wid =>
      refine core.not_migrating ?_ rfl
      intro back
      rw [back] at executes
      exact absurd executes (by simp [Pc.task])
  | wrapper u =>
      cases migrating : workers.migrated (.wrapper u) with
      | none => rfl
      | some v =>
          obtain ⟨here, -, context, -⟩ := core.fits_at
            (t := t) (p := .running (.wrapper u))
            (by simp [Workers.copies, executes])
          obtain rfl := core.home t u context
          obtain rfl := core.wrapped v u migrating
          have there : place v = some (.migrated (.wrapper v)) := by
            apply core.located.place_eq
            simp [Workers.copies, migrating]
          exact absurd (here.symm.trans there) (by simp)

omit [DecidableEq τ] in
/-- A thread that executes a task knows it as its current one. -/
theorem Pc.ok_of_task
    {pc : Pc τ n}
    (executes : pc.task = some t)
    (wc : Context τ n) :
    pc.Ok wc (some t) := by
  cases pc <;> simp_all [Pc.Ok, Pc.task]

/-- The threads after one has gone on. -/
theorem Core.threads_setThread
    (core : Core workers hand owner place)
    {pc : Pc τ n}
    {current : Option τ}
    (ok : pc.Ok wc current)
    (other : Context τ n) :
    (Function.update workers.thread wc pc other).Ok other
      (Function.update workers.currentTask wc current other) := by
  by_cases same : other = wc
  · subst same
    simpa using ok
  · simpa [same] using core.threads other

/-- The tasks to be handed off after a thread has gone on. -/
theorem Core.migrates_setThread
    (core : Core workers hand owner place)
    (free : wc.isWorker = true → workers.migrated wc = none)
    (pc : Pc τ n)
    (other : Context τ n)
    (migrating : workers.migrated other ≠ none)
    (isWorker : other.isWorker = true) :
    Function.update workers.thread wc pc other = .back := by
  have distinct : other ≠ wc := by
    rintro rfl
    exact migrating (free isWorker)
  rw [Function.update_of_ne distinct]
  exact core.migrates other migrating isWorker

/-- The worker context does not change with the state. -/
theorem workerContext_setState
    (workers : Workers τ n)
    (t u : τ)
    (state : TaskState) :
    ((workers.setState t state).task u).workerContext =
      (workers.task u).workerContext := by
  by_cases same : u = t
  · subst same
    simp [Workers.setState]
  · simp [Workers.setState, same]

/-- A thread that executes no task goes on without one. -/
theorem Core.goOn
    (core : Core workers hand owner place)
    (wc : Context τ n)
    (pc : Pc τ n)
    (current : Option τ)
    (idle : (workers.thread wc).task = none)
    (stays : pc.task = none)
    (ok : pc.Ok wc current)
    (free : wc.isWorker = true → workers.migrated wc = none) :
    Core ((workers.setCurrent wc current).setThread wc pc) hand owner place := by
  refine { core with
    located := ?_, fits := ?_, threads := core.threads_setThread ok,
    migrates := core.migrates_setThread free pc }
  · refine core.located.congr ?_
    intro u p
    cases p with
    | running other =>
        by_cases same : other = wc
        · subst same
          simp [Workers.copies, Workers.setThread, idle, stays]
        · simp [Workers.copies, Workers.setThread, Workers.setCurrent, same]
    | _ => rfl
  · intro u other
    refine (core.fits u other).setThread (core.not_running_of ?_) pc
    rw [idle]
    simp

theorem setCurrent_self
    {current : Option τ}
    (same : workers.currentTask wc = current) :
    workers.setCurrent wc current = workers := by
  rw [← same, Workers.setCurrent, Function.update_eq_self]

/-- A thread that executes no task goes on without one, in the same task
context. -/
theorem Core.setThread
    (core : Core workers hand owner place)
    (wc : Context τ n)
    (pc : Pc τ n)
    (idle : (workers.thread wc).task = none)
    (stays : pc.task = none)
    (ok : pc.Ok wc (workers.currentTask wc))
    (free : wc.isWorker = true → workers.migrated wc = none) :
    Core (workers.setThread wc pc) hand owner place := by
  have went := core.goOn wc pc (workers.currentTask wc) idle stays ok free
  rwa [setCurrent_self rfl] at went

end Core

end Decen
end Lpel
