import Lpel.Hrc.IdleWorker
import Lpel.Hrc.Threads

/-!
# What idle threads leave behind

As long as nobody sends the termination message, the master stays in `MasterLoop` and
no worker leaves `WorkerLoop`.  When then nothing more happens by itself and no task
is executed, the mailboxes are empty, every worker has asked for a task and waits, and
no wrapper has a message.  What is left of the tasks are those that were not started,
those that have exited and those that wait for a wakeup, and a task of the lowest
priority in the queue, which no worker gets.
-/

namespace Lpel
namespace Hrc

open Lifecycle (Phase Event)

variable {τ P : Type} {n : ℕ}

/-- The steps that the master and the workers take by themselves. -/
def SchedLabel.isInternal : SchedLabel τ n → Bool
  | .first _ | .recv _ | .taskStart _ | .request _ | .ret _ | .master _
  | .broadcast => true
  | .start _ | .wakeup _ | .stop | .commit _ | .block _ | .yield _ | .exit _ =>
      false

/-- The termination message is not sent. -/
def SchedLabel.goesOn : SchedLabel τ n → Bool
  | .stop => false
  | _ => true

/-- The termination message was not sent. -/
structure Sched.GoesOn (sched : Sched τ P n) : Prop where
  terminate : sched.terminate = false
  master : sched.master = .loop
  mastermb : .terminate ∉ sched.mastermb
  workermbs : ∀ wid, .terminate ∉ sched.workermbs wid
  worker : ∀ wid, sched.worker wid ≠ .finished

namespace Sched.GoesOn

variable {sched after : Sched τ P n} {wid : Fin n} {t : τ}

/-- Only these five fields count. -/
theorem congr
    (goesOn : sched.GoesOn)
    (terminate : after.terminate = sched.terminate)
    (master : after.master = sched.master)
    (mastermb : after.mastermb = sched.mastermb)
    (workermbs : after.workermbs = sched.workermbs)
    (worker : after.worker = sched.worker) :
    after.GoesOn where
  terminate := terminate.trans goesOn.terminate
  master := master.trans goesOn.master
  mastermb := by
    rw [mastermb]
    exact goesOn.mastermb
  workermbs := by
    rw [workermbs]
    exact goesOn.workermbs
  worker := by
    rw [worker]
    exact goesOn.worker

theorem rearranged
    (goesOn : sched.GoesOn)
    (rearranged : Rearranged sched after) :
    after.GoesOn :=
  goesOn.congr rearranged.terminate rearranged.master rearranged.mastermb
    rearranged.workermbs rearranged.worker

/-- The master takes a message. -/
theorem tail
    (goesOn : sched.GoesOn)
    {msg : WorkerMsg τ n}
    {rest : List (WorkerMsg τ n)}
    (mail : sched.mastermb = msg :: rest) :
    Sched.GoesOn { sched with mastermb := rest } where
  terminate := goesOn.terminate
  master := goesOn.master
  mastermb := by
    have absent := goesOn.mastermb
    rw [mail] at absent
    exact fun member => absent (List.mem_cons_of_mem _ member)
  workermbs := goesOn.workermbs
  worker := goesOn.worker

theorem sendMaster
    (goesOn : sched.GoesOn)
    {msg : WorkerMsg τ n}
    (other : msg ≠ .terminate) :
    (sched.sendMaster msg).GoesOn where
  terminate := goesOn.terminate
  master := goesOn.master
  mastermb := by
    intro member
    rcases List.mem_append.mp member with before | last
    · exact goesOn.mastermb before
    · exact other (List.mem_singleton.mp last).symm
  workermbs := goesOn.workermbs
  worker := goesOn.worker

theorem setWorker
    (goesOn : sched.GoesOn)
    (wid : Fin n)
    {pc : WorkerPc τ}
    (alive : pc ≠ .finished) :
    (sched.setWorker wid pc).GoesOn where
  terminate := goesOn.terminate
  master := goesOn.master
  mastermb := goesOn.mastermb
  workermbs := goesOn.workermbs
  worker := by
    intro other
    by_cases same : other = wid
    · subst same
      simpa [Sched.setWorker] using alive
    · simpa [Sched.setWorker, same] using goesOn.worker other

/-- A mailbox of a worker without a termination message. -/
theorem mailbox
    (goesOn : sched.GoesOn)
    (wid : Fin n)
    {messages : List (WorkerMsg τ n)}
    (absent : .terminate ∉ messages) :
    Sched.GoesOn { sched with
      workermbs := Function.update sched.workermbs wid messages } where
  terminate := goesOn.terminate
  master := goesOn.master
  mastermb := goesOn.mastermb
  workermbs := by
    intro other
    by_cases same : other = wid
    · subst same
      simpa using absent
    · simpa [same] using goesOn.workermbs other
  worker := goesOn.worker

/-- A message that a worker takes is not the termination message. -/
theorem receive
    (goesOn : sched.GoesOn)
    {msg : WorkerMsg τ n}
    {rest : List (WorkerMsg τ n)}
    (mail : sched.workermbs wid = msg :: rest) :
    msg ≠ .terminate ∧ .terminate ∉ rest := by
  have absent := goesOn.workermbs wid
  rw [mail, List.mem_cons, not_or] at absent
  exact ⟨fun same => absent.1 same.symm, absent.2⟩

theorem sendTask
    (goesOn : sched.GoesOn)
    (wid : Fin n)
    (t : τ) :
    (sched.sendWorker wid (.assign t)).GoesOn := by
  refine goesOn.mailbox wid ?_
  intro member
  rcases List.mem_append.mp member with before | last
  · exact goesOn.workermbs wid before
  · cases List.mem_singleton.mp last

variable [DecidableEq τ]

theorem offered
    (goesOn : sched.GoesOn)
    (offered : Offered sched after t) :
    after.GoesOn where
  terminate := offered.terminate.trans goesOn.terminate
  master := offered.master.trans goesOn.master
  mastermb := by
    rw [offered.mastermb]
    exact goesOn.mastermb
  workermbs := by
    rcases offered.outcome with ⟨wid, -, -, mailboxes, -⟩ | ⟨-, mailboxes, -⟩
    · rw [mailboxes]
      exact (goesOn.sendTask wid t).workermbs
    · rw [mailboxes]
      exact goesOn.workermbs
  worker := by
    rw [offered.worker]
    exact goesOn.worker

/-- A step of a worker. -/
theorem workerStep
    (goesOn : sched.GoesOn)
    {label : SchedLabel τ n}
    (step : WorkerStep sched wid label after) :
    after.GoesOn := by
  cases step with
  | first => exact (goesOn.sendMaster (by simp)).setWorker wid (by simp)
  | @assigned _ t rest position mail =>
      have received := goesOn.mailbox wid (goesOn.receive mail).2
      exact (received.rearranged (Rearranged.assert _ _)).setWorker wid (by simp)
  | terminated position mail => exact absurd rfl (goesOn.receive mail).1
  | unexpected position mail =>
      exact (goesOn.mailbox wid (goesOn.receive mail).2).rearranged
        (Rearranged.assert _ _)
  | taskStart | commit | block | yield | exit =>
      refine Sched.GoesOn.setWorker ?_ wid (by simp)
      exact goesOn.congr rfl rfl rfl rfl rfl
  | request => exact (goesOn.sendMaster (by simp)).setWorker wid (by simp)
  | ret =>
      exact ((goesOn.rearranged (Rearranged.assert _ _)).sendMaster
        (by simp)).setWorker wid (by simp)

variable [LinearOrder P] [BoundedOrder P]

/-- A round of the master. -/
theorem handle
    (goesOn : sched.GoesOn)
    (policy : Policy P)
    (observed : Observed τ)
    {msg : WorkerMsg τ n}
    (other : msg ≠ .terminate) :
    (sched.handle policy observed msg).GoesOn := by
  cases handle_cases policy observed sched msg with
  | assigned offered | yielded _ offered | resumed _ _ offered
  | woken _ offered =>
      refine Sched.GoesOn.offered ?_ offered
      exact goesOn.congr rfl rfl rfl rfl rfl
  | parked _ _ rearranged | destroyed _ rearranged | early _ rearranged =>
      refine Sched.GoesOn.rearranged ?_ rearranged
      exact goesOn.congr rfl rfl rfl rfl rfl
  | unexpected _ _ _ rearranged => exact goesOn.rearranged rearranged
  | waits _ same =>
      rw [same]
      exact goesOn.congr rfl rfl rfl rfl rfl
  | @served wid t _ _ rearranged =>
      refine Sched.GoesOn.rearranged (Sched.GoesOn.sendTask ?_ wid t) rearranged
      exact goesOn.congr rfl rfl rfl rfl rfl
  | told => exact absurd rfl other

/-- Every step but the termination message. -/
theorem step
    (goesOn : sched.GoesOn)
    {policy : Policy P}
    {label : SchedLabel τ n}
    (other : label.goesOn = true)
    (taken : schedNext policy sched label = some after) :
    after.GoesOn := by
  cases schedNext_cases taken with
  | start | wakeup =>
      refine Sched.GoesOn.sendMaster ?_ (by simp)
      exact goesOn.congr rfl rfl rfl rfl rfl
  | stop => cases other
  | @master observed msg rest loop mail =>
      have other : msg ≠ .terminate := by
        rintro rfl
        exact goesOn.mastermb (by rw [mail]; exact List.mem_cons_self)
      have handled := (goesOn.tail mail).handle policy observed other
      unfold Sched.leave
      rw [if_neg (by simp [handled.terminate])]
      exact handled
  | broadcast inside position =>
      exact absurd (position.symm.trans goesOn.master) (by simp)
  | worker step => exact goesOn.workerStep step

end Sched.GoesOn

/-- At the start nobody has sent anything. -/
theorem goesOn_start (memory : ℕ → τ) (zero : P) :
    (schedStart memory zero : Sched τ P n).GoesOn := by
  constructor <;> simp [schedStart]

/-- Nothing happens by itself, and no worker is in the function of a task. -/
structure Sched.Idle
    [DecidableEq τ]
    [LinearOrder P]
    [BoundedOrder P]
    (policy : Policy P)
    (sched : Sched τ P n) : Prop where
  internal : ∀ label : SchedLabel τ n, label.isInternal = true →
    schedNext policy sched label = none
  function : ∀ wid, (sched.worker wid).function = none

section Idle

variable [DecidableEq τ] [LinearOrder P] [BoundedOrder P]
variable {sched after : Sched τ P n} {place : τ → Option (Place n)} {t : τ}
variable {policy : Policy P}

/-- Every worker waits for a message. -/
theorem Sched.Idle.worker
    (idle : sched.Idle policy)
    (goesOn : sched.GoesOn)
    (wid : Fin n) :
    sched.worker wid = .recv ∧ sched.workermbs wid = [] := by
  have step (label : SchedLabel τ n) (internal : label.isInternal = true) :=
    idle.internal label internal
  have function := idle.function wid
  have position : sched.worker wid = .recv := by
    cases position : sched.worker wid with
    | recv => rfl
    | finished => exact absurd position (goesOn.worker wid)
    | running t | committed t =>
        rw [position] at function
        cases function
    | start =>
        exact absurd (step (.first wid) rfl) (by simp [schedNext, workerNext, position])
    | dispatch t =>
        exact absurd (step (.taskStart wid) rfl)
          (by simp [schedNext, workerNext, position])
    | stopped t =>
        exact absurd (step (.request wid) rfl)
          (by simp [schedNext, workerNext, position])
    | back t =>
        exact absurd (step (.ret wid) rfl) (by simp [schedNext, workerNext, position])
  refine ⟨position, ?_⟩
  cases mail : sched.workermbs wid with
  | nil => rfl
  | cons msg rest =>
      refine absurd (step (.recv wid) rfl) ?_
      cases msg <;> simp [schedNext, workerNext, position, mail]

/-- The master has no message. -/
theorem Sched.Idle.mastermb
    (idle : sched.Idle policy)
    (goesOn : sched.GoesOn) :
    sched.mastermb = [] := by
  have view : SchedView := { inStreams := [], outStreams := [], rand := 0 }
  have waits := idle.internal (.master
    { own := view, serve := view, requeue := view, producers := [],
      consumers := [] }) rfl
  cases mail : sched.mastermb with
  | nil => rfl
  | cons msg rest => simp [schedNext, goesOn.master, mail] at waits

/-- Every worker has asked for a task, and none is left for it. -/
theorem Sched.Idle.waitworkers
    (idle : sched.Idle policy)
    (goesOn : sched.GoesOn)
    (core : Core sched none place)
    (wid : Fin n) :
    sched.waitworkers wid = 1 := by
  obtain ⟨position, mail⟩ := idle.worker goesOn wid
  have tokens := core.tokens wid
  simpa [Sched.tokens, idle.mastermb goesOn, mail, position, WorkerPc.asked]
    using tokens

/-- A task that is not in the queue was not started, is destroyed, or waits for a
wakeup. -/
theorem Sched.Idle.left
    (idle : sched.Idle policy)
    (goesOn : sched.GoesOn)
    (core : Core sched none place)
    (notQueued : t ∉ sched.readyTasks.tasks) :
    (sched.status t).started = false ∨
    (sched.status t).destroyed = true ∧ (sched.status t).state = .zombie ∨
    (sched.status t).started = true ∧ (sched.status t).state = .returned ∧
      (sched.status t).wakesSent < (sched.status t).blocks := by
  have fits := core.fits t (by simp)
  have located := core.located t
  cases at_ : place t with
  | none =>
      rw [at_] at fits
      rcases fits.life with ⟨unstarted, -⟩ | ⟨-, destroyed, zombie⟩
      · exact .inl unstarted
      · exact .inr (.inl ⟨destroyed, zombie⟩)
  | some p =>
      have here := located p
      rw [at_, if_pos rfl] at here
      rw [at_] at fits
      cases p with
      | toMaster | returning =>
          simp [Sched.copies, idle.mastermb goesOn] at here
      | queued =>
          refine absurd (Multiset.count_pos.mp ?_) notQueued
          rw [show sched.readyTasks.tasks.count t = 1 from here]
          exact one_pos
      | toWorker wid =>
          simp [Sched.copies, (idle.worker goesOn wid).2] at here
      | executing wid =>
          simp [Sched.copies, (idle.worker goesOn wid).1, WorkerPc.task] at here
      | parked =>
          obtain ⟨alive, is, parked⟩ := fits
          have wakes := core.wakes t
          rw [idle.mastermb goesOn, List.count_nil, Nat.zero_add] at wakes
          have sent : (sched.status t).wakesTaken = (sched.status t).wakesSent :=
            wakes
          have taken := parked.wakesTaken
          have blocks := parked.blocks
          exact .inr (.inr ⟨alive.1, is, by omega⟩)

/-- Such a task does not go on without a start or a wakeup. -/
theorem Sched.Idle.rests
    (idle : sched.Idle policy)
    (goesOn : sched.GoesOn)
    (core : Core sched none place)
    (notQueued : t ∉ sched.readyTasks.tasks) :
    (sched.phase t).rests = true := by
  unfold Sched.phase
  rcases idle.left goesOn core notQueued with
    unstarted | ⟨-, zombie⟩ | ⟨started, returned, pending⟩
  · simp [Status.phase, unstarted, Phase.rests]
  · unfold Status.phase
    split <;> simp [zombie, Phase.rests]
  · rw [phase_of_blocked started (.inr returned), if_neg pending.ne]
    rfl

/-- Every worker waits in front of its mailbox, and the master in front of his. -/
theorem idle_of_waiting
    (loop : sched.master = .loop)
    (noMail : sched.mastermb = [])
    (workers : ∀ wid, sched.worker wid = .recv ∧ sched.workermbs wid = []) :
    sched.Idle policy where
  internal := by
    intro label internal
    cases label with
    | first wid | recv wid | taskStart wid | request wid | ret wid =>
        simp [schedNext, workerNext, workers wid]
    | master observed => simp [schedNext, loop, noMail]
    | broadcast => simp [schedNext, loop]
    | start | wakeup | stop | commit | block | yield | exit => cases internal
  function := by
    intro wid
    rw [(workers wid).1]
    rfl

/-- When the master and the workers have nothing more to do, in a run in which the
termination message is not sent and in which no task that is parked or destroyed
raises the priority of a queued task while a worker waits, then every task is
destroyed, waits in a block for a wakeup that was not sent, was not started, or is in
the queue with the priority `LPEL_DBL_MIN`. -/
theorem quietMasterLeavesNothing
    (policy : Policy P)
    (sched : Sched τ P n)
    (workers : 0 < n)
    (reached : (schedMachine n policy).ReachableBy
      (fun sched label => label.goesOn = true ∧ quiet policy sched label = true)
      sched)
    (idle : sched.Idle policy)
    (t : τ) :
    (sched.history t).started = false ∨
    (sched.history t).destroyed = true ∨
    (sched.task t).state = .returned ∧
      (sched.history t).wakesSent < (sched.history t).blocks ∨
    t ∈ sched.readyTasks.tasks ∧ sched.prior t = ⊥ := by
  obtain ⟨place, core⟩ := Sched.Conserved.ofReachable reached.reachable
  have noIdle := (idleWorkers (reached.mono fun _ _ met => met.2)).1
  have goesOn : sched.GoesOn := by
    refine Machine.ReachableBy.invariant ?_ ?_ reached
    · rintro _ ⟨memory, zero, rfl⟩
      exact goesOn_start memory zero
    · intro before label after goesOn met taken
      exact goesOn.step met.1 taken
  by_cases queued : t ∈ sched.readyTasks.tasks
  · have waits := idle.waitworkers goesOn core ⟨0, workers⟩
    exact .inr (.inr (.inr ⟨queued, noIdle _ waits t queued⟩))
  · rcases idle.left goesOn core queued with
      unstarted | ⟨destroyed, -⟩ | ⟨-, returned, pending⟩
    · exact .inl unstarted
    · exact .inr (.inl destroyed)
    · exact .inr (.inr (.inl ⟨returned, pending⟩))

end Idle

section Example

/-- An entry task is ahead of its reader, which waits for another task: the entry
task stays in the queue with the lowest priority. -/
theorem quietMasterLeavesNothing_settled :
    ∃ sched : Sched ℕ (WithBot (WithTop ℤ)) 1,
      sched.Idle demandPolicy ∧
      (sched.task 2).state = .returned ∧
      1 ∈ sched.readyTasks.tasks ∧ sched.prior 1 = ⊥ := by
  obtain ⟨sched, reached, tested⟩ := Machine.exists_reachableBy_of_runBy
    (⟨_, _, rfl⟩ : (schedMachine 1 demandPolicy).init
      (schedStart (fun _ => 0) (priorfunc14 0 0 0)))
    (by decide : ((schedMachine 1 demandPolicy).runBy
      (fun sched label => label.goesOn && quiet demandPolicy sched label)
      (schedStart (fun _ => 0) (priorfunc14 0 0 0)) (stallRun 0 2)).map
      (fun sched => decide (sched.mastermb = [] ∧ sched.master = .loop ∧
        (∀ wid, sched.worker wid = .recv ∧ sched.workermbs wid = []) ∧
        (sched.task 2).state = .returned ∧
        (sched.task 1).state = .inqueue ∧ (sched.history 1).started = true ∧
        (sched.history 1).destroyed = false)) = some true)
  obtain ⟨noMail, loop, workers, returned, inqueue, started, alive⟩ :=
    of_decide_eq_true tested
  have idle : sched.Idle demandPolicy := idle_of_waiting loop noMail workers
  refine ⟨sched, idle, returned, ?_⟩
  rcases quietMasterLeavesNothing demandPolicy sched one_pos
      (reached.mono fun _ _ met => by simpa using met) idle 1 with
    unstarted | destroyed | ⟨is, -⟩ | queued
  · exact absurd (started.symm.trans unstarted) (by decide)
  · exact absurd (alive.symm.trans destroyed) (by decide)
  · exact absurd (inqueue.symm.trans is) (by decide)
  · exact queued

end Example

/-! ## Where no priority is the lowest one -/

/-- `LpelTaskCalPriority` never returns `LPEL_DBL_MIN`. -/
def Policy.NeverLowest [LinearOrder P] [BoundedOrder P] (policy : Policy P) : Prop :=
  ∀ view, lpelTaskCalPriority policy view ≠ ⊥

/-- No queued task has the lowest priority. -/
def Sched.Wanted [LinearOrder P] [BoundedOrder P] (sched : Sched τ P n) : Prop :=
  ∀ t, (sched.task t).state = .inqueue → sched.prior t ≠ ⊥

namespace Sched.Wanted

variable [DecidableEq τ] [LinearOrder P] [BoundedOrder P]
variable {sched after : Sched τ P n} {t : τ} {policy : Policy P}

theorem setState
    (wanted : sched.Wanted)
    (t : τ)
    {state : TaskState}
    (other : state ≠ .inqueue) :
    (sched.setState t state).Wanted := by
  intro u inqueue
  rw [prior_setState]
  refine wanted u ?_
  by_cases same : u = t
  · subst same
    exact absurd (by simpa [Sched.setState] using inqueue) other
  · simpa [Sched.setState, same] using inqueue

theorem setPrior
    (wanted : sched.Wanted)
    (t : τ)
    {prior : P}
    (notLowest : prior ≠ ⊥) :
    (sched.setPrior t prior).Wanted := by
  intro u inqueue
  by_cases same : u = t
  · subst same
    simpa [Sched.prior, Sched.setPrior] using notLowest
  · have before := wanted u (by simpa [Sched.setPrior, same] using inqueue)
    simpa [Sched.prior, Sched.setPrior, same] using before

theorem setWakenup
    (wanted : sched.Wanted)
    (t : τ)
    (wakenup : ℕ) :
    (sched.setWakenup t wakenup).Wanted := by
  intro u inqueue
  rw [prior_setWakenup]
  refine wanted u ?_
  by_cases same : u = t
  · subst same
    simpa [Sched.setWakenup] using inqueue
  · simpa [Sched.setWakenup, same] using inqueue

theorem note
    (wanted : sched.Wanted)
    (t : τ)
    (event : History → History) :
    (sched.note t event).Wanted :=
  wanted

theorem enqueue
    (wanted : sched.Wanted)
    (notLowest : sched.prior t ≠ ⊥) :
    (sched.enqueue t).Wanted := by
  intro u inqueue
  have prior : (sched.enqueue t).prior u = sched.prior u :=
    congrFun (prior_setState sched t .inqueue) u
  rw [prior]
  by_cases same : u = t
  · subst same
    exact notLowest
  · refine wanted u ?_
    simpa [Sched.enqueue, Sched.setState, same] using inqueue

/-- A task with a calculated priority is served or queued. -/
theorem serve
    (wanted : sched.Wanted)
    (never : policy.NeverLowest)
    (view : SchedView)
    (t : τ)
    (otherwise : Sched τ P n → Sched τ P n)
    (queues : ∀ before : Sched τ P n, before.Wanted → before.prior t ≠ ⊥ →
      (otherwise before).Wanted) :
    Sched.Wanted
      (match sched.servePendingReq policy view t with
        | (some _, after) => after
        | (none, after) => otherwise after) := by
  have priced := wanted.setPrior t (never view)
  obtain ⟨wid, -, served⟩ | ⟨-, notServed⟩ :=
    servePendingReq_cases policy view sched t
  · simp only [served]
    exact priced
  · simp only [notServed]
    refine queues _ priced ?_
    simpa [Sched.prior, Sched.setPrior] using never view

theorem updatePriority
    (wanted : sched.Wanted)
    (never : policy.NeverLowest)
    (neighbour : Option τ × SchedView) :
    (sched.updatePriority policy neighbour).Wanted := by
  obtain ⟨u | u, view⟩ := neighbour
  · exact wanted
  · rw [Sched.updatePriority]
    split
    · dsimp only
      split
      · exact wanted.setPrior u (never view)
      · exact wanted
    · exact wanted

theorem updatePriorityNeigh
    (wanted : sched.Wanted)
    (never : policy.NeverLowest)
    (observed : Observed τ) :
    (sched.updatePriorityNeigh policy observed).Wanted := by
  rw [updatePriorityNeigh_eq, Sched.updatePriorityList]
  induction observed.neighbours generalizing sched with
  | nil => exact wanted
  | cons neighbour list inductionHypothesis =>
      exact inductionHypothesis (wanted.updatePriority never neighbour)

/-- `case TASK_READY` of a returned task. -/
theorem handleReady
    (wanted : sched.Wanted)
    (never : policy.NeverLowest)
    (observed : Observed τ)
    (t : τ) :
    (sched.handleReady policy observed t).Wanted := by
  have priced := wanted.setPrior t (never observed.own)
  unfold Sched.handleReady
  dsimp only
  split
  case isTrue lowest =>
    exact absurd (by simpa [Sched.prior, Sched.setPrior] using lowest)
      (never observed.own)
  case isFalse =>
    refine priced.serve never _ t _ fun before kept _ => ?_
    refine ((kept.updatePriorityNeigh never observed).setPrior t
      (never observed.requeue)).enqueue ?_
    simpa [Sched.prior, Sched.setPrior] using never observed.requeue

/-- `case WORKER_MSG_RETURN` of `MasterLoop`. -/
theorem handleReturn
    (wanted : sched.Wanted)
    (never : policy.NeverLowest)
    (observed : Observed τ)
    (t : τ) :
    (sched.handleReturn policy observed t).Wanted := by
  unfold Sched.handleReturn
  split
  case h_1 =>
    have noted := wanted.note t fun history =>
      { history with returnsTaken := history.returnsTaken + 1 }
    dsimp only
    split
    · refine Sched.Wanted.handleReady ?_ never observed t
      exact ((noted.setWakenup t 0).setState t (by decide)).note t _
    · exact (noted.setState t (by decide)).updatePriorityNeigh never observed
  case h_2 => exact wanted.handleReady never observed t
  case h_3 => exact wanted.updatePriorityNeigh never observed
  case h_4 => exact wanted

/-- `case WORKER_MSG_WAKEUP` of `MasterLoop`. -/
theorem handleWakeup
    (wanted : sched.Wanted)
    (never : policy.NeverLowest)
    (observed : Observed τ)
    (t : τ) :
    (sched.handleWakeup policy observed t).Wanted := by
  have noted := wanted.note t fun history =>
    { history with wakesTaken := history.wakesTaken + 1 }
  unfold Sched.handleWakeup
  dsimp only
  split
  · exact noted.setWakenup t 1
  · have ready := (noted.setState t
      (by decide : TaskState.ready ≠ .inqueue)).note t fun history =>
        { history with readied := history.readied + 1 }
    have priced := ready.setPrior t (never observed.own)
    split
    case isTrue lowest =>
      exact absurd (by simpa [Sched.prior, Sched.setPrior] using lowest)
        (never observed.own)
    case isFalse =>
      exact priced.serve never _ t _ fun before kept notLowest =>
        kept.enqueue notLowest

/-- The `switch` of `MasterLoop`. -/
theorem handle
    (wanted : sched.Wanted)
    (never : policy.NeverLowest)
    (observed : Observed τ)
    (msg : WorkerMsg τ n) :
    (sched.handle policy observed msg).Wanted := by
  cases msg with
  | terminate => exact wanted
  | assign t =>
      have highest : (⊤ : P) ≠ ⊥ := by
        intro same
        exact never observed.own
          (le_bot_iff.mp (le_top.trans_eq same))
      have asserted : (sched.assert ((sched.task t).state = .created)).Wanted :=
        wanted
      have ready := asserted.setState t (by decide : TaskState.ready ≠ .inqueue)
      refine ready.serve never _ t _ fun before kept _ => ?_
      refine (kept.setPrior t highest).enqueue ?_
      simpa [Sched.prior, Sched.setPrior] using highest
  | ret t => exact wanted.handleReturn never observed t
  | wakeup t => exact wanted.handleWakeup never observed t
  | request wid =>
      rw [Sched.handle, Sched.handleRequest]
      split
      · exact wanted
      · split
        · exact wanted
        · exact wanted.setState _ (by decide)

/-- Every step. -/
theorem step
    (wanted : sched.Wanted)
    (never : policy.NeverLowest)
    {label : SchedLabel τ n}
    (taken : schedNext policy sched label = some after) :
    after.Wanted := by
  cases schedNext_cases taken with
  | start | wakeup | stop | broadcast => exact wanted
  | @master observed msg rest loop mail =>
      have taken : Sched.Wanted { sched with mastermb := rest } := wanted
      have handled := taken.handle never observed msg
      unfold Sched.leave
      split <;> exact handled
  | worker step =>
      have asserted (condition : Bool) : (sched.assert condition).Wanted := wanted
      cases step with
      | first | assigned | terminated | unexpected | commit | request | ret =>
          exact wanted
      | taskStart | block | yield | exit =>
          exact (asserted _).setState _ (by decide)

/-- Then a worker waits only beside an empty queue, so every step is quiet. -/
theorem quiet
    (wanted : sched.Wanted)
    {place : τ → Option (Place n)}
    (core : Core sched none place)
    (noIdle : sched.NoIdle)
    (label : SchedLabel τ n) :
    Hrc.quiet policy sched label = true := by
  cases label with
  | master observed =>
      refine (core.quiet_iff policy observed).mpr ?_
      rintro - ⟨wid, waiting⟩ u queued
      have inqueue := (core.inqueue_iff (by simp)).mpr queued
      exact absurd (noIdle wid waiting u queued) (wanted u inqueue)
  | _ => rfl

end Sched.Wanted

end Hrc
end Lpel
