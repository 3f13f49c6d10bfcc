import Lpel.Decen.WorkerSteps

/-!
# Conservation of tasks by the workers

The invariant holds in every reachable state of the workers.
-/

namespace Lpel
namespace Decen

variable {τ : Type} {n : ℕ}

section Steps

variable [DecidableEq τ]
variable {workers after : Workers τ n} {mechanism : Mechanism}
variable {place : τ → Option (Place τ n)} {t : τ} {wc self : Context τ n}

/-- Fetching a task leaves the thread where it is. -/
theorem fetchReady_frame
    {next : Option τ}
    (fetched : workers.fetchReady wc = (next, after)) :
    after.thread = workers.thread ∧ after.migrated = workers.migrated ∧
      after.currentTask = workers.currentTask := by
  obtain ⟨-, rfl⟩ := Prod.mk.inj fetched
  exact ⟨rfl, rfl, rfl⟩

/-- The thread switches to a ready task of its worker. -/
theorem Core.switchReady
    (core : Core workers none none place)
    {rest : Workers τ n}
    (idle : (workers.thread wc).task = none)
    (free : wc.isWorker = true → workers.migrated wc = none)
    (fetched : workers.fetchReady wc = (some t, rest)) :
    ∃ place', Core (rest.switchTo wc wc t) none none place' := by
  obtain ⟨thread, migrated, -⟩ := fetchReady_frame fetched
  rw [← thread] at idle
  rw [← migrated] at free
  obtain ⟨held, ready, context⟩ := core.fetchReady fetched
  exact ⟨_, held.execute (.resume t) idle free rfl context
    ⟨ready, (held.held t rfl).2.2⟩⟩

/-- The task to be handed off is sent to its worker. -/
theorem Core.handOff
    (core : Core workers none none place)
    (wc : Context τ n) :
    ∃ place', Core (workers.handOff wc) none none place' ∧
      (workers.handOff wc).migrated wc = none := by
  unfold Workers.handOff
  cases migrating : workers.migrated wc with
  | none => exact ⟨place, core, migrating⟩
  | some t =>
      obtain ⟨held, ready⟩ := core.takeMigrated migrating
      exact ⟨_, held.uncount.sendAssign (.inr ready), by simp⟩

theorem thread_handOff (workers : Workers τ n) (wc : Context τ n) :
    (workers.handOff wc).thread = workers.thread := by
  unfold Workers.handOff
  cases workers.migrated wc <;> rfl

/-- Every step of a thread outside the functions of tasks keeps the
invariant. -/
theorem Core.threadStep
    (core : Core workers none none place)
    {target : Option (Fin n)}
    (taken : workers.threadNext mechanism target self = some after) :
    after.Conserved := by
  have idle {pc : Pc τ n} (position : workers.thread self = pc)
      (noTask : pc.task = none) : (workers.thread self).task = none := by
    rw [position]
    exact noTask
  have goesOn (pc : Pc τ n) (noTask : (workers.thread self).task = none)
      (notBack : workers.thread self ≠ .back) (noTask' : pc.task = none)
      (ok : pc.Ok self (workers.currentTask self)) :
      (workers.setThread self pc).Conserved :=
    ⟨place, core.setThread self pc noTask noTask' ok
      (core.not_migrating notBack)⟩
  cases threadNext_cases taken with
  | fetch position fetched =>
      exact core.switchReady (idle position rfl)
        (core.not_migrating (by simp [position])) fetched
  | fetchNone position fetched =>
      obtain ⟨thread, migrated, -⟩ := fetchReady_frame fetched
      refine ⟨place, (core.fetchNone fetched).setThread self .wait ?_ rfl
        trivial ?_⟩
      · rw [thread]
        exact idle position rfl
      · rw [migrated]
        exact core.not_migrating (by simp [position])
  | @takeWraptask t position slot =>
      obtain ⟨held, ready, context⟩ := core.takeWraptask slot
      exact ⟨_, held.execute (.resume t) (idle position rfl)
        (core.not_migrating (by simp [position])) rfl context
          ⟨ready, (held.held t rfl).2.2⟩⟩
  | noWraptask position =>
      exact goesOn .wait (idle position rfl) (by simp [position]) rfl trivial
  | wait position received =>
      obtain ⟨⟨place', handled⟩, thread⟩ := core.receive (idle position rfl)
        received
      refine ⟨place', handled.setThread self .drain ?_ rfl trivial
        (handled.not_migrating (by simp [thread, position]))⟩
      rw [thread]
      exact idle position rfl
  | drain position received =>
      exact (core.receive (idle position rfl) received).1
  | leaveWorker position =>
      exact goesOn .left (idle position rfl) (by simp [position]) rfl trivial
  | leaveWrapper position =>
      obtain ⟨place', cleaned, -⟩ := core.cleanup self
      refine ⟨place', cleaned.setThread self .left ?_ rfl trivial ?_⟩
      · rw [thread_cleanup]
        exact idle position rfl
      · rw [migrated_cleanup]
        exact core.not_migrating (by simp [position])
  | again position =>
      exact goesOn .loop (idle position rfl) (by simp [position]) rfl trivial
  | taskStart position =>
      obtain ⟨started, ready⟩ := core.taskStart position
      rw [assert_of (decide_eq_true ready)]
      exact ⟨place, started⟩
  | dispatcher position received =>
      obtain ⟨rfl, -⟩ := core.dispatches (.inl position)
      exact (core.receive (idle position rfl) received).1
  | dispatched position =>
      obtain ⟨rfl, isWorker, current⟩ := core.dispatches (.inl position)
      exact goesOn _ (idle position rfl) (by simp [position]) rfl
        ⟨rfl, isWorker, current⟩
  | pickSame position fetched =>
      obtain ⟨rfl, -, current⟩ := core.dispatches (.inr position)
      obtain ⟨place', executed⟩ := core.switchReady (idle position rfl)
        (core.not_migrating (by simp [position])) fetched
      obtain ⟨-, -, sameCurrent⟩ := fetchReady_frame fetched
      rw [← sameCurrent] at current
      rw [Workers.switchTo, setCurrent_self current] at executed
      exact ⟨place', executed⟩
  | pick position fetched =>
      obtain ⟨rfl, -⟩ := core.dispatches (.inr position)
      exact core.switchReady (idle position rfl)
        (core.not_migrating (by simp [position])) fetched
  | pickNone position fetched =>
      obtain ⟨rfl, -⟩ := core.dispatches (.inr position)
      obtain ⟨thread, migrated, -⟩ := fetchReady_frame fetched
      refine ⟨place, (core.fetchNone fetched).goOn _ .back none ?_ rfl trivial
        ?_⟩
      · rw [thread]
        exact idle position rfl
      · rw [migrated]
        exact core.not_migrating (by simp [position])
  | backWorker position =>
      obtain ⟨placed, handed, free⟩ := core.handOff self
      obtain ⟨place', cleaned, -⟩ := handed.cleanup self
      refine ⟨place', cleaned.setThread self .drain ?_ rfl trivial ?_⟩
      · rw [thread_cleanup, thread_handOff]
        exact idle position rfl
      · rw [migrated_cleanup]
        exact fun _ => free
  | backWrapper position isWrapper =>
      refine ⟨place, core.setThread self .drain (idle position rfl) rfl trivial
        ?_⟩
      intro isWorker
      rw [isWorker] at isWrapper
      cases isWrapper

/-- The invariant holds initially. -/
theorem conserved_workersStart (home : τ → Option (Fin n)) (unset : τ → ℤ) :
    (workersStart home unset).Conserved := by
  refine ⟨fun _ => none, ?_⟩
  constructor
  · intro u p
    cases p <;> simp [Workers.copies, workersStart, Pc.task]
  · simp
  · intro u _
    exact ⟨rfl, .inl ⟨rfl, rfl, rfl⟩⟩
  · intro u wc
    simp [workersStart]
  · intro u
    simp [workersStart]
  · intro u v context
    cases mapped : home u with
    | none => simpa [workersStart, mapped, eq_comm] using context
    | some wid => simp [workersStart, mapped] at context
  · intro wc
    trivial
  · intro wc migrating
    exact absurd rfl migrating
  · intro u v migrating
    exact absurd migrating (by simp [workersStart])
  · intro wc u
    simp [workersStart, holder]
  · intro wid
    rfl
  · rfl

/-- `LpelTaskSelf` is the task on the thread. -/
theorem Core.current_eq
    (core : Core workers none none place)
    (position : workers.thread self = .running t)
    {ct : τ}
    (current : workers.currentTask self = some ct) :
    t = ct :=
  Option.some.inj ((core.executes position).current.symm.trans current)

/-- Every step keeps the invariant. -/
theorem Core.step
    (core : Core workers none none place)
    {label : WorkerLabel τ n}
    (taken : workersNext mechanism workers label = some after) :
    after.Conserved := by
  cases workersNext_cases taken with
  | start unstarted =>
      obtain ⟨started, created⟩ := core.start unstarted
      rw [assert_of (decide_eq_true created)]
      exact ⟨_, started.sendAssign (.inl created)⟩
  | @setPriority t prio => exact ⟨place, core.setPriority t prio⟩
  | terminate => exact ⟨place, core.sendPlain _ (by simp) (by simp)⟩
  | notify => exact ⟨place, core.sendPlain _ (by simp) (by simp)⟩
  | thread taken => exact core.threadStep taken
  | @yield _ target _ _ position current =>
      obtain rfl := core.current_eq position current
      exact core.yield mechanism target position
  | exit position current =>
      obtain rfl := core.current_eq position current
      exact core.exit position
  | @checkMigrate _ target _ _ position current =>
      obtain rfl := core.current_eq position current
      exact core.checkMigrate mechanism target position
  | commit position => exact ⟨place, core.commit position⟩
  | block position => exact core.blockStream position
  | @wakeup _ _ _ target position committed =>
      exact core.taskWakeup mechanism target position committed
  | @spmdWakeup self _ target handles committed context =>
      have idle : (workers.thread self).task = none := by
        cases position : workers.thread self <;>
          simp_all [Pc.handlesSpmd, Pc.task]
      rw [context]
      exact core.taskWakeupLocal mechanism target idle committed context

/-- The invariant holds in every reachable state. -/
theorem Workers.Conserved.ofReachable
    (reached : (workersMachine τ n mechanism).Reachable workers) :
    workers.Conserved := by
  refine Machine.Reachable.invariant ?_ ?_ reached
  · rintro _ ⟨home, unset, rfl⟩
    exact conserved_workersStart home unset
  · rintro _ _ _ ⟨place, core⟩ taken
    exact core.step taken

end Steps

/-- The context that a task at a place is executed by. -/
def Place.context : Place τ n → Option (Context τ n)
  | .assigned wc | .ready wc | .running wc | .blocked wc => some wc
  | .migrated _ | .zombie _ => none

/-- The task is once at one place, which belongs to its worker context unless it
is being migrated or deleted, and nowhere else. -/
def Workers.InOnePlace
    [DecidableEq τ]
    (workers : Workers τ n)
    (t : τ) : Prop :=
  ∃ place, workers.copies t place = 1 ∧
    (∀ other, other ≠ place → workers.copies t other = 0) ∧
    ∀ wc, place.context = some wc → (workers.task t).workerContext = wc

/-- The place that fits a task belongs to its worker context. -/
theorem Place.Fits.context
    {thread : Context τ n → Pc τ n}
    {status : Status τ n}
    {p : Place τ n}
    (fits : p.Fits thread status)
    {wc : Context τ n}
    (here : p.context = some wc) :
    status.workerContext = wc := by
  cases p with
  | assigned other => exact fits.2.2.trans (Option.some.inj here)
  | ready other => exact fits.2.2.trans (Option.some.inj here)
  | running other => exact fits.1.trans (Option.some.inj here)
  | blocked other => exact fits.2.2.trans (Option.some.inj here)
  | migrated other | zombie other => exact absurd here (by simp [Place.context])

/-- In every reachable state every task that is started and not destroyed is in
exactly one place; there is at most one wakeup for it, in the mailbox of its
worker context; every worker counts the tasks that were assigned to it and have
neither exited nor been handed off; and no assertion has failed. -/
theorem tasksConserved
    [DecidableEq τ]
    {mechanism : Mechanism}
    {workers : Workers τ n}
    (reached : (workersMachine τ n mechanism).Reachable workers) :
    (∀ t, (workers.history t).Alive → workers.InOnePlace t) ∧
    (∀ t wc, (workers.mailbox wc).count (.wakeup t) ≤
      if (workers.task t).workerContext = wc then 1 else 0) ∧
    (∀ wid, 0 ≤ workers.numTasks (.worker wid) ∧
      workers.numTasks (.worker wid) = (workers.owned (.worker wid)).card) ∧
    workers.failed = false := by
  obtain ⟨place, core⟩ := Workers.Conserved.ofReachable reached
  refine ⟨?_, ?_, ?_, core.ok⟩
  · intro t alive
    have fits := core.fits t (by simp)
    cases at_ : place t with
    | none =>
        rw [at_] at fits
        have life := fits.life
        simp only [Workers.status, alive.1, alive.2] at life
        simp at life
    | some p =>
        rw [at_] at fits
        obtain ⟨once, nowhere⟩ := core.located.only at_
        refine ⟨p, once, nowhere, ?_⟩
        intro wc here
        exact fits.2.context here
  · intro t wc
    rw [core.wakes t wc]
    split
    case isTrue sent => rw [if_pos sent.2]
    case isFalse => exact Nat.zero_le _
  · intro wid
    refine ⟨?_, core.counted wid⟩
    rw [core.counted wid]
    exact Int.natCast_nonneg _

section Example

/-- A task starts on the first worker, migrates to the second one and blocks
there, and a task on the first worker wakes it up. -/
def migratingRun (source target : Fin 2) : List (WorkerLabel ℕ 2) :=
  let first := WorkerLabel.thread (.worker source) none
  let second := WorkerLabel.thread (.worker target) none
  [.start 5, .start 6, first, first, first, first, first, first,
    .checkMigrate (.worker source) (some target), first, first, first, first,
    second, second, second, second, second,
    .commit (.worker target), .block (.worker target),
    .wakeup (.worker source) 5 none]

/-- A blocked task that has migrated, with its wakeup in flight. -/
theorem tasksConserved_migrated :
    ∃ workers : Workers ℕ 2,
      (workersMachine ℕ 2 .rand).Reachable workers ∧
      (workers.task 5).state = .blocked ∧
      workers.mailbox (.worker 1) = [.wakeup 5] ∧
      workers.InOnePlace 5 ∧
      workers.numTasks (.worker 0) = (workers.owned (.worker 0)).card ∧
      workers.failed = false := by
  obtain ⟨workers, reached, tested⟩ := Machine.exists_reachable_of_run
    (⟨_, _, rfl⟩ : (workersMachine ℕ 2 .rand).init
      (workersStart (fun _ => some 0) (fun _ => 0)))
    (by decide : ((workersMachine ℕ 2 .rand).run
      (workersStart (fun _ => some 0) (fun _ => 0)) (migratingRun 0 1)).map
        (fun workers => decide ((workers.task 5).state = .blocked ∧
          workers.mailbox (.worker 1) = [.wakeup 5] ∧
          (workers.history 5).started = true ∧
          (workers.history 5).destroyed = false)) = some true)
  obtain ⟨blocked, mail, alive⟩ := of_decide_eq_true tested
  have conserved := tasksConserved reached
  exact ⟨workers, reached, blocked, mail, conserved.1 5 alive,
    (conserved.2.2.1 0).2, conserved.2.2.2⟩

end Example

end Decen
end Lpel
