import Lpel.Decen.Lifecycle
import Lpel.Decen.WorkerSafety
import Lpel.Decen.WrapperTasks
import Lpel.Lib.Refinement

/-!
# What the workers leave undone

A worker waits for a message only when it has no ready task.  So where no thread
can go on, every task that was started and has not exited is blocked, and nobody
has issued its wakeup: the scheduler neither forgets a ready task nor loses a
message.  This is about the time before the workers are told to terminate, and
about wrappers that keep their tasks.
-/

namespace Lpel
namespace Decen

variable {τ : Type} {n : ℕ}

/-- A task that is created for nobody belongs to its wrapper. -/
theorem inWrappers_workersStart
    (home : τ → Option (Fin n))
    (unset : τ → ℤ) :
    InWrappers home (workersStart home unset) where
  context t wrapped := by simp [workersStart, wrapped]
  worker t mapped := by
    obtain ⟨wid, mapped⟩ := Option.ne_none_iff_exists'.mp mapped
    simp [workersStart, mapped, Context.isWorker]
  migrated _ := rfl
  mail _ _ member := absurd member (by simp [workersStart])

variable [DecidableEq τ]

/-- No worker is told to terminate, and no wrapper is given a target. -/
def keepsGoing
    (mechanism : Mechanism)
    (workers : Workers τ n)
    (label : WorkerLabel τ n) : Prop :=
  (∀ wid, label ≠ .terminate wid) ∧ yieldsAtHome mechanism workers label

/-- The step does not tell a worker to terminate. -/
def WorkerLabel.goesOn : WorkerLabel τ n → Bool
  | .terminate _ => false
  | _ => true

/-- Only `LPEL_MIG_WAIT_PROP` gives a target to a wrapper. -/
theorem keepsGoing_of_goesOn
    {mechanism : Mechanism}
    (plain : mechanism ≠ .waitProp)
    (workers : Workers τ n)
    {label : WorkerLabel τ n}
    (goesOn : label.goesOn = true) :
    keepsGoing mechanism workers label := by
  cases label <;> simp_all [keepsGoing, yieldsAtHome, WorkerLabel.goesOn]

/-- A thread waits only without a ready task, and leaves its loop only when its
task has exited. -/
structure Attentive (workers : Workers τ n) : Prop where
  ready : ∀ wc, workers.thread wc = .wait → ∀ t, (workers.sched wc).count t = 0
  slot : ∀ wc, workers.thread wc = .wait → workers.wraptask wc = none
  queue : ∀ u t, (workers.sched (.wrapper u)).count t = 0
  worker : ∀ wid, workers.wraptask (.worker wid) = none
  mail : ∀ wc, .terminate ∉ workers.mailbox wc
  goesOn : ∀ wid, workers.terminate (.worker wid) = false
  exited : ∀ u, workers.terminate (.wrapper u) = true →
    (workers.task u).state = .zombie
  left : ∀ wc, workers.thread wc = .left →
    ∃ u, wc = .wrapper u ∧ (workers.task u).state = .zombie

section Steps

variable {workers after : Workers τ n} {self : Context τ n} {t : τ}
variable {mechanism : Mechanism} {place : τ → Option (Place τ n)}

namespace Attentive

/-- What one thread does keeps the others attentive. -/
theorem acts
    (attentive : Attentive workers)
    (acts : Acts workers after self)
    (wait : after.thread self = .wait →
      (∀ t, (after.sched self).count t = 0) ∧ after.wraptask self = none)
    (left : after.thread self = .left → workers.thread self = .left ∨
      after.terminate self = true) :
    Attentive after := by
  have mail (wc : Context τ n) : .terminate ∉ after.mailbox wc :=
    fun member => attentive.mail wc (acts.mail wc member)
  have goesOn (wid : Fin n) : after.terminate (.worker wid) = false := by
    rw [Bool.eq_false_iff]
    intro terminates
    rcases acts.terminate _ terminates with before | mailed | ⟨t, same, -⟩
    · rw [attentive.goesOn wid] at before
      cases before
    · exact attentive.mail _ mailed
    · cases same
  have exited (u : τ) (terminates : after.terminate (.wrapper u) = true) :
      (after.task u).state = .zombie := by
    rcases acts.terminate _ terminates with before | mailed | ⟨t, same, zombie⟩
    · exact (acts.zombie u).mpr (attentive.exited u before)
    · exact absurd mailed (attentive.mail _)
    · cases same
      exact zombie
  have stillLeft (wc : Context τ n) (before : workers.thread wc = .left) :
      ∃ u, wc = .wrapper u ∧ (after.task u).state = .zombie := by
    obtain ⟨u, same, zombie⟩ := attentive.left wc before
    exact ⟨u, same, (acts.zombie u).mpr zombie⟩
  refine ⟨?_, ?_, ?_, ?_, mail, goesOn, exited, ?_⟩
  · intro wc waits
    by_cases same : wc = self
    · subst same
      exact (wait waits).1
    · rw [acts.sched wc same]
      exact attentive.ready wc (acts.thread wc same ▸ waits)
  · intro wc waits
    by_cases same : wc = self
    · subst same
      exact (wait waits).2
    · rw [acts.wraptask wc same]
      exact attentive.slot wc (acts.thread wc same ▸ waits)
  · intro u t
    have fewer := acts.queue (.wrapper u) rfl t
    rw [attentive.queue u t] at fewer
    omega
  · intro wid
    by_contra filled
    exact acts.slot (.worker wid) rfl filled (attentive.worker wid)
  · intro wc leaves
    by_cases same : wc = self
    · subst same
      rcases left leaves with before | terminates
      · exact stillLeft wc before
      · cases wc with
        | worker wid =>
            rw [goesOn wid] at terminates
            cases terminates
        | wrapper u => exact ⟨u, rfl, exited u terminates⟩
    · exact stillLeft wc (acts.thread wc same ▸ leaves)

/-- The thread neither waits nor has left its loop. -/
theorem busy
    (attentive : Attentive workers)
    (acts : Acts workers after self)
    (wait : after.thread self ≠ .wait)
    (left : after.thread self ≠ .left) :
    Attentive after :=
  attentive.acts acts (fun waits => absurd waits wait)
    fun leaves => absurd leaves left

/-- No thread does anything. -/
theorem still
    (attentive : Attentive workers)
    (acts : Acts workers after self)
    (thread : after.thread = workers.thread)
    (sched : after.sched = workers.sched)
    (wraptask : after.wraptask = workers.wraptask) :
    Attentive after := by
  refine attentive.acts acts ?_ ?_
  · intro waits
    rw [thread] at waits
    rw [sched, wraptask]
    exact ⟨attentive.ready self waits, attentive.slot self waits⟩
  · intro leaves
    rw [thread] at leaves
    exact .inl leaves

/-- A task exits. -/
theorem zombie
    (attentive : Attentive workers) :
    Attentive (workers.setState t .zombie) := by
  have dies (u : τ) (zombie : (workers.task u).state = .zombie) :
      ((workers.setState t .zombie).task u).state = .zombie := by
    by_cases same : u = t
    · subst same
      simp [Workers.setState]
    · simpa [Workers.setState, same] using zombie
  refine { attentive with exited := ?_, left := ?_ }
  · exact fun u terminates => dies u (attentive.exited u terminates)
  · intro wc leaves
    obtain ⟨u, same, zombie⟩ := attentive.left wc leaves
    exact ⟨u, same, dies u zombie⟩

/-- The thread goes on outside the functions of tasks. -/
theorem goes
    (attentive : Attentive workers)
    (acts : Acts workers after self)
    (goes : Goes workers after self) :
    Attentive after := by
  refine attentive.acts acts ?_ fun leaves => .inr (goes.left leaves)
  intro waits
  obtain ⟨empty, slot⟩ := goes.wait waits
  cases self with
  | worker wid =>
      refine ⟨empty rfl, ?_⟩
      by_contra filled
      exact acts.slot (.worker wid) rfl filled (attentive.worker wid)
  | wrapper u =>
      refine ⟨?_, slot rfl⟩
      intro t
      have fewer := acts.queue (.wrapper u) rfl t
      rw [attentive.queue u t] at fewer
      omega

end Attentive

/-- Every step keeps the threads attentive, unless it tells a worker to
terminate. -/
theorem Core.attentive
    (core : Core workers none none place)
    (attentive : Attentive workers)
    {label : WorkerLabel τ n}
    (goesOn : ∀ wid, label ≠ .terminate wid)
    (taken : workersNext mechanism workers label = some after) :
    Attentive after := by
  cases workersNext_cases taken with
  | @start t unstarted =>
      have noted : Acts workers
          ((workers.assert ((workers.task t).state = .created)).note t
            fun history => { history with started := true })
          (workers.task t).workerContext :=
        .ofFields (fun _ _ => rfl) rfl rfl rfl rfl rfl
      exact attentive.still (noted.trans (.sendAssign _ _ t _)) rfl rfl rfl
  | @setPriority t prio =>
      exact attentive.still (.setPriority t prio (workers.task t).workerContext)
        rfl rfl rfl
  | @terminate wid => exact absurd rfl (goesOn wid)
  | @notify wid =>
      have notified : Acts workers (workers.send (.worker wid) .spmdreq)
          (.worker wid) :=
        .send (by simp)
      exact attentive.still notified rfl rfl rfl
  | thread moved =>
      obtain ⟨acts, -, goes⟩ := core.acts_threadStep moved
      exact attentive.goes acts goes
  | @yield _ target _ _ position current =>
      obtain rfl := core.current_eq position current
      obtain ⟨acts, -, leaves⟩ := core.acts_yield position mechanism target
      exact attentive.busy acts leaves.wait leaves.left
  | exit position current =>
      obtain rfl := core.current_eq position current
      obtain ⟨acts, -, leaves⟩ := core.acts_exit position
      exact attentive.zombie.busy acts leaves.wait leaves.left
  | @checkMigrate _ target _ _ position current =>
      obtain rfl := core.current_eq position current
      rcases core.acts_checkMigrate position mechanism target with
        same | ⟨acts, -, leaves⟩
      · rw [same]
        exact attentive
      · exact attentive.busy acts leaves.wait leaves.left
  | @commit self t position =>
      have acts : Acts workers
          ((workers.note t fun history =>
            { history with block := .committed }).setThread self
              (.committed t)) self :=
        .ofFields (fun _ other => Function.update_of_ne other _ _) rfl rfl rfl
          rfl rfl
      exact attentive.busy acts (by simp [Workers.setThread])
        (by simp [Workers.setThread])
  | block position =>
      obtain ⟨acts, -, leaves⟩ := core.acts_block position
      exact attentive.busy acts leaves.wait leaves.left
  | @wakeup _ _ _ target position committed =>
      obtain ⟨acts, -, thread⟩ := core.acts_wakeup position committed mechanism
        target
      exact attentive.busy acts (by simp [thread]) (by simp [thread])
  | @spmdWakeup self whom target handles committed context =>
      simp only [workersNext, Option.ite_none_right_eq_some] at taken
      obtain ⟨⟨-, isWorker, -⟩, -⟩ := taken
      obtain ⟨acts, -, thread⟩ := core.acts_wakeLocal committed context isWorker
        mechanism target _
      have same := congrFun thread self
      refine attentive.busy acts ?_ ?_
      · intro waits
        rw [same.symm.trans waits] at handles
        cases handles
      · intro leaves
        rw [same.symm.trans leaves] at handles
        cases handles

end Steps

section Idle

variable {workers after : Workers τ n} {mechanism : Mechanism}

/-- What is known where all steps keep the system going. -/
structure GoesOn (workers : Workers τ n) : Prop where
  conserved : workers.Conserved
  attentive : Attentive workers
  wrappers : ∃ home, InWrappers home workers

theorem goesOn_workersStart (home : τ → Option (Fin n)) (unset : τ → ℤ) :
    GoesOn (workersStart home unset) where
  conserved := conserved_workersStart home unset
  attentive := by
    constructor <;> simp [workersStart, Schedctx.count, lpelSchedCreate]
  wrappers := ⟨home, inWrappers_workersStart home unset⟩

/-- A step that keeps the system going. -/
theorem GoesOn.step
    (known : GoesOn workers)
    {label : WorkerLabel τ n}
    (keeps : keepsGoing mechanism workers label)
    (taken : workersNext mechanism workers label = some after) :
    GoesOn after := by
  obtain ⟨⟨place, core⟩, attentive, home, inside⟩ := known
  exact ⟨core.step taken, core.attentive attentive keeps.1 taken, home,
    inside.step taken keeps.2⟩

/-- The rule for runs whose steps all keep the system going. -/
theorem GoesOn.ofReachable
    (reached : (workersMachine τ n mechanism).ReachableBy (keepsGoing mechanism)
      workers) :
    GoesOn workers := by
  refine Machine.ReachableBy.invariant ?_ ?_ reached
  · rintro _ ⟨home, unset, rfl⟩
    exact goesOn_workersStart home unset
  · intro before label after known keeps taken
    exact known.step keeps taken

/-- The workers, and the wrappers of the tasks that were started. -/
def Workers.Uses (workers : Workers τ n) (wc : Context τ n) : Prop :=
  wc.isWorker = true ∨
    ∃ t, (workers.history t).started = true ∧
      (workers.task t).workerContext = wc

/-- No thread can go on, and none is in the function of a task. -/
structure Workers.Idle (mechanism : Mechanism) (workers : Workers τ n) :
    Prop where
  function : ∀ wc, workers.Uses wc → (workers.thread wc).function = none
  thread : ∀ wc, workers.Uses wc → ∀ target,
    workers.threadNext mechanism target wc = none

/-- An idle thread waits for a message, or has left its loop. -/
theorem Workers.Idle.waits
    (idle : workers.Idle mechanism)
    {wc : Context τ n}
    (uses : workers.Uses wc) :
    workers.thread wc = .left ∨
      workers.thread wc = .wait ∧ workers.mailbox wc = [] := by
  have stuck := idle.thread wc uses none
  have outside := idle.function wc uses
  unfold Workers.threadNext at stuck
  cases position : workers.thread wc with
  | left => exact .inl rfl
  | running t | committed t =>
      rw [position] at outside
      cases outside
  | wait =>
      refine .inr ⟨rfl, ?_⟩
      simp only [position, Option.map_eq_none_iff, Workers.receive] at stuck
      cases mail : workers.mailbox wc with
      | nil => rfl
      | cons msg rest => simp [mail] at stuck
  | loop | drain | resume t | dispatcher wc' t | pick wc' t | back =>
      simp only [position] at stuck
      repeat' split at stuck
      all_goals cases stuck

/-- An idle system has done with a task, unless the task is blocked. -/
theorem GoesOn.idle
    (known : GoesOn workers)
    (idle : workers.Idle mechanism)
    (t : τ)
    (started : (workers.history t).started = true) :
    (workers.task t).state = .zombie ∨
      (workers.task t).state = .blocked ∧
        (workers.history t).block = .committed := by
  obtain ⟨⟨place, core⟩, attentive, home, inside⟩ := known
  have fits := core.fits t (by simp)
  -- The thread of a task that has not exited waits with an empty mailbox.
  have waits (wc : Context τ n) (context : (workers.task t).workerContext = wc)
      (alive : (workers.task t).state ≠ .zombie) :
      workers.thread wc = .wait ∧ workers.mailbox wc = [] := by
    rcases idle.waits (.inr ⟨t, started, context⟩) with left | waiting
    · obtain ⟨u, rfl, zombie⟩ := attentive.left wc left
      rw [core.home t u context] at zombie
      exact absurd zombie alive
    · exact waiting
  cases at_ : place t with
  | none =>
      rw [at_] at fits
      rcases fits.life with ⟨unstarted, -⟩ | ⟨-, -, zombie⟩
      · rw [show (workers.history t).started = false from unstarted] at started
        cases started
      · exact .inl zombie
  | some p =>
      rw [at_] at fits
      have copies := core.located t p
      rw [at_, if_pos rfl] at copies
      cases p with
      | assigned wc =>
          obtain ⟨-, state, -, context⟩ := fits
          obtain ⟨-, mail⟩ := waits wc context (by
            intro zombie
            rcases state with state | state <;>
              exact absurd (zombie.symm.trans state) (by simp))
          simp [Workers.copies, mail] at copies
      | ready wc =>
          obtain ⟨-, state, -, context⟩ := fits
          obtain ⟨waiting, -⟩ := waits wc context (by
            intro zombie
            exact absurd (zombie.symm.trans state) (by simp))
          simp [Workers.copies, attentive.ready wc waiting,
            attentive.slot wc waiting] at copies
      | running wc =>
          rcases idle.waits (.inr ⟨t, started, fits.2.1⟩) with
            left | ⟨waiting, -⟩
          · simp [Workers.copies, left, Pc.task] at copies
          · simp [Workers.copies, waiting, Pc.task] at copies
      | blocked wc =>
          obtain ⟨-, state, block, context⟩ := fits
          refine .inr ⟨state, ?_⟩
          obtain ⟨-, mail⟩ := waits wc context (by
            intro zombie
            exact absurd (zombie.symm.trans state) (by simp))
          have wakes := core.wakes t wc
          rw [mail] at wakes
          cases wakeup : (workers.history t).block with
          | idle => exact absurd wakeup block
          | committed => rfl
          | sent =>
              rw [if_pos ⟨wakeup, context⟩] at wakes
              cases wakes
      | migrated wc =>
          cases wc with
          | worker wid =>
              have back := core.migrates (.worker wid) (by
                intro nothing
                simp [Workers.copies, nothing] at copies) rfl
              rcases idle.waits (.inl rfl : workers.Uses (.worker wid)) with
                left | ⟨waiting, -⟩
              · rw [back] at left
                cases left
              · rw [back] at waiting
                cases waiting
          | wrapper u => simp [Workers.copies, inside.migrated u] at copies
      | zombie wc => exact .inl fits.2.1

/-- The steps that the threads in use take by themselves. -/
def Workers.internal (workers : Workers τ n) : WorkerLabel τ n → Prop
  | .thread wc _ => workers.Uses wc
  | _ => False

/-- Where no thread in use goes on by itself, a task that does not execute its
function was not started, has exited or waits for a wakeup. -/
theorem GoesOn.rests
    (known : GoesOn workers)
    (stops : ∀ label, workers.internal label →
      workersNext mechanism workers label = none)
    (nobody : ∀ t, (workers.phase t).executes = false)
    (t : τ) :
    (workers.phase t).rests = true := by
  obtain ⟨place, core⟩ := known.conserved
  have idle : workers.Idle mechanism := by
    refine ⟨?_, fun wc uses target => stops (.thread wc target) uses⟩
    intro wc _
    by_contra inside
    obtain ⟨u, inside⟩ := Option.ne_none_iff_exists'.mp inside
    have own := nobody u
    rcases core.phase_function inside with ⟨-, is⟩ | ⟨-, woken, is⟩ <;>
      simp [is, Lifecycle.Phase.executes] at own
  cases started : (workers.history t).started with
  | false =>
      rw [Workers.phase, started]
      rfl
  | true =>
      rw [phase_of_started started]
      rcases known.idle idle t started with state | ⟨state, block⟩
      · rw [state]
        cases (workers.history t).block <;> rfl
      · rw [state, block]
        rfl

/-- The workers and wrappers forget no task. -/
def workersDiligence
    (τ : Type)
    (n : ℕ)
    [DecidableEq τ]
    (mechanism : Mechanism) :
    Lifecycle.Diligence (workersScheduler τ n mechanism) where
  keeps := keepsGoing mechanism
  internal := Workers.internal
  known := GoesOn
  init := by
    rintro _ ⟨home, unset, rfl⟩
    exact goesOn_workersStart home unset
  step _ _ _ known keeps taken := known.step keeps taken
  keeps_internal _ label internal := by
    cases label <;> first | cases internal; done | exact ⟨by simp, trivial⟩
  keeps_commit _ _ := ⟨by simp [workersScheduler], trivial⟩
  keeps_block _ _ := ⟨by simp [workersScheduler], trivial⟩
  keeps_exit _ _ := ⟨by simp [workersScheduler], trivial⟩
  keeps_wakeup _ _ _ _ := ⟨by simp [workersScheduler], trivial⟩
  dispatches workers label t event internal is := by
    cases label with
    | thread wc target =>
        simp only [workersScheduler, Workers.event] at is
        split at is
        case h_1 =>
          cases is
          rfl
        case h_2 => cases is
    | _ => cases internal
  rests _ known stops nobody := known.rests stops nobody

/-- Where no thread can go on, a task that was started has exited, or it is
blocked and nobody has issued its wakeup. -/
theorem idleWorkersLeaveNothing
    (mechanism : Mechanism)
    (workers : Workers τ n)
    (reached : (workersMachine τ n mechanism).ReachableBy (keepsGoing mechanism)
      workers)
    (idle : workers.Idle mechanism)
    (t : τ)
    (started : (workers.history t).started = true) :
    (workers.task t).state = .zombie ∨
      (workers.task t).state = .blocked ∧
        (workers.history t).block = .committed :=
  (GoesOn.ofReachable reached).idle idle t started

end Idle

section Example

/-- A task blocks on the only worker, which then has nothing to do. -/
def blockingRun : List (WorkerLabel Unit 1) :=
  let goOn := WorkerLabel.thread (.worker 0) none
  [.start (), goOn, goOn, goOn, goOn, goOn, .commit (.worker 0),
    .block (.worker 0), goOn, goOn, goOn, goOn, goOn]

/-- The worker waits, and the task is blocked. -/
theorem idleWorkersLeaveNothing_blocked :
    ∃ workers : Workers Unit 1,
      workers.thread (.worker 0) = .wait ∧
      (workers.task ()).state ≠ .zombie ∧
      ((workers.task ()).state = .zombie ∨
        (workers.task ()).state = .blocked ∧
          (workers.history ()).block = .committed) := by
  obtain ⟨workers, reached, tested⟩ := Machine.exists_reachableBy_of_runBy
    (⟨_, _, rfl⟩ : (workersMachine Unit 1 .none).init
      (workersStart (fun _ => some 0) (fun _ => 0)))
    (by decide : ((workersMachine Unit 1 .none).runBy
      (fun _ label => label.goesOn)
      (workersStart (fun _ => some 0) (fun _ => 0)) blockingRun).map
        (fun workers => decide (workers.thread (.worker 0) = .wait ∧
          workers.mailbox (.worker 0) = [] ∧
          (workers.history ()).started = true ∧
          (workers.task ()).workerContext = .worker 0 ∧
          (workers.task ()).state ≠ .zombie)) = some true)
  obtain ⟨waits, mail, started, context, alive⟩ := of_decide_eq_true tested
  have keeps : (workersMachine Unit 1 .none).ReachableBy (keepsGoing .none)
      workers :=
    reached.mono fun before _ goesOn =>
      keepsGoing_of_goesOn (by simp) before goesOn
  have only : ∀ wc, workers.Uses wc → wc = .worker 0 := by
    rintro (wid | u) uses
    · rw [Subsingleton.elim wid 0]
    · rcases uses with isWorker | ⟨t, -, here⟩
      · cases isWorker
      · rw [context] at here
        cases here
  refine ⟨workers, waits, alive,
    idleWorkersLeaveNothing .none workers keeps ⟨?_, ?_⟩ () started⟩
  · intro wc uses
    rw [only wc uses, waits]
    rfl
  · intro wc uses target
    rw [only wc uses]
    simp [Workers.threadNext, waits, Workers.receive, mail]

end Example

end Decen
end Lpel
