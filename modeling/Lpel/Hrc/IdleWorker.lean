import Mathlib.Order.WithBot
import Lpel.Hrc.SchedSafety

/-!
# Idle workers beside ready tasks

A worker is left waiting when the queue is empty or its head has the priority
`LPEL_DBL_MIN`.  A task that becomes ready later is first offered to a waiting
worker.  A queued task whose priority is raised by `updatePriorityNeigh` is not:
when the returned task is parked or destroyed nobody looks at `waitworkers`
again, and the worker waits beside a task that its request would have got.
-/

namespace Lpel
namespace Hrc

variable {τ P : Type} {n : ℕ}

/-- While a worker waits every queued task has the lowest priority. -/
def Sched.NoIdle [LinearOrder P] [BoundedOrder P] (sched : Sched τ P n) :
    Prop :=
  ∀ wid, sched.waitworkers wid = 1 →
    ∀ t ∈ sched.readyTasks.tasks, sched.prior t = ⊥

section

variable [DecidableEq τ]

/-- What the last recalculation of the priority of a task reads. -/
def lastView (u : τ) : List (Option τ × SchedView) → Option SchedView
  | [] => none
  | (neighbour, view) :: list =>
      (lastView u list).or (if neighbour = some u then some view else none)

/-- The neighbours of the task of the message, in the order in which
`updatePriorityNeigh` visits them. -/
def Observed.neighbours (observed : Observed τ) : List (Option τ × SchedView) :=
  observed.producers ++ observed.consumers

variable [LinearOrder P] [BoundedOrder P]

/-- The master is about to handle the return of a task that it will park or
destroy. -/
def Sched.abandons (sched : Sched τ P n) : Bool :=
  match sched.mastermb with
  | .ret t :: _ =>
      (sched.task t).state = .zombie ∨
        (sched.task t).state = .blocked ∧ (sched.task t).wakenup ≠ 1
  | _ => false

/-- If the step is the return of a task that is parked or destroyed, and a
worker waits, then the recalculated priority of every queued neighbour is
`LPEL_DBL_MIN`. -/
def quiet (policy : Policy P) (sched : Sched τ P n) : SchedLabel τ n → Bool
  | .master observed =>
      (sched.abandons ∧ ∃ wid, sched.waitworkers wid = 1) →
        observed.neighbours.all fun neighbour =>
          match neighbour.1 with
          | none => true
          | some u =>
              (sched.task u).state = .inqueue →
                (lastView u observed.neighbours).all fun view =>
                  lpelTaskCalPriority policy view = ⊥
  | _ => true

/-! ## What changes the queue, the stored priorities and the waiting workers -/

variable {sched : Sched τ P n} {hand : Option τ}
variable {place : τ → Option (Place n)} {t : τ}

omit [DecidableEq τ] in
/-- Fewer waiting workers and fewer queued tasks with the same priorities. -/
theorem Sched.NoIdle.mono
    {after : Sched τ P n}
    (noIdle : sched.NoIdle)
    (waits : ∀ wid, after.waitworkers wid = 1 → sched.waitworkers wid = 1)
    (tasks : ∀ u ∈ after.readyTasks.tasks,
      u ∈ sched.readyTasks.tasks ∧ after.prior u = sched.prior u) :
    after.NoIdle := by
  intro wid waiting u queued
  obtain ⟨before, same⟩ := tasks u queued
  rw [same]
  exact noIdle wid (waits wid waiting) u before

omit [DecidableEq τ] in
/-- Nobody waits. -/
theorem noIdle_of_none
    (nobody : ∀ wid, sched.waitworkers wid ≠ 1) :
    sched.NoIdle := by
  intro wid waiting
  exact absurd waiting (nobody wid)

omit [LinearOrder P] [BoundedOrder P] in
theorem prior_setPrior_of_ne
    {u : τ}
    (distinct : u ≠ t)
    (prior : P) :
    (sched.setPrior t prior).prior u = sched.prior u := by
  simp [Sched.prior, Sched.setPrior, distinct]

/-- Change the priority of the held task. -/
theorem Core.noIdle_setPrior
    (core : Core sched (some t) place)
    (noIdle : sched.NoIdle)
    (prior : P) :
    (sched.setPrior t prior).NoIdle := by
  refine noIdle.mono (fun _ waiting => waiting) ?_
  intro u queued
  refine ⟨queued, prior_setPrior_of_ne ?_ prior⟩
  rintro rfl
  exact core.not_queued queued

/-- Put a task of the lowest priority into the queue. -/
theorem Core.noIdle_enqueue
    (core : Core sched (some t) place)
    (noIdle : sched.NoIdle)
    (lowest : sched.prior t = ⊥) :
    (sched.enqueue t).NoIdle := by
  intro wid waiting u queued
  have prior : (sched.enqueue t).prior = sched.prior :=
    prior_setState sched t .inqueue
  have tasks : (sched.enqueue t).readyTasks.tasks =
      t ::ₘ sched.readyTasks.tasks :=
    Taskqueue.tasks_push core.queue _ t
  rw [prior]
  rw [tasks, Multiset.mem_cons] at queued
  obtain rfl | queued := queued
  · exact lowest
  · exact noIdle wid waiting u queued

/-- Serve a waiting worker, or put the task into the queue if nobody waits. -/
theorem Core.noIdle_serve
    (core : Core sched (some t) place)
    (noIdle : sched.NoIdle)
    (policy : Policy P)
    (view : SchedView)
    (otherwise : Sched τ P n → Sched τ P n)
    (keeps : ∀ before, (otherwise before).waitworkers = before.waitworkers) :
    Sched.NoIdle
      (match sched.servePendingReq policy view t with
        | (some _, after) => after
        | (none, after) => otherwise after) := by
  obtain ⟨wid, -, served⟩ | ⟨nobody, notServed⟩ :=
    servePendingReq_cases policy view sched t
  · simp only [served]
    refine (core.noIdle_setPrior noIdle
      (lpelTaskCalPriority policy view)).mono ?_ ?_
    · intro other waiting
      by_cases same : other = wid
      · subst same
        simp [Sched.sendTask, Sched.sendWorker, Sched.assert] at waiting
      · simpa [Sched.sendTask, Sched.sendWorker, Sched.assert, Sched.setPrior,
          same] using waiting
    · intro u queued
      exact ⟨queued, rfl⟩
  · simp only [notServed]
    apply noIdle_of_none
    intro wid
    rw [keeps]
    exact nobody wid

/-- Put the task into the queue if its priority is the lowest, and serve it
otherwise. -/
theorem Core.noIdle_offer
    (core : Core sched (some t) place)
    (noIdle : sched.NoIdle)
    (policy : Policy P)
    (own serve : SchedView)
    (otherwise : Sched τ P n → Sched τ P n)
    (keeps : ∀ before, (otherwise before).waitworkers = before.waitworkers) :
    Sched.NoIdle
      (if (sched.setPrior t (lpelTaskCalPriority policy own)).prior t = ⊥ then
        (sched.setPrior t (lpelTaskCalPriority policy own)).enqueue t
      else
        match (sched.setPrior t
            (lpelTaskCalPriority policy own)).servePendingReq policy serve t with
        | (some _, after) => after
        | (none, after) => otherwise after) := by
  have priced := core.setPrior (lpelTaskCalPriority policy own)
  have noIdle' := core.noIdle_setPrior noIdle (lpelTaskCalPriority policy own)
  split
  case isTrue lowest => exact priced.noIdle_enqueue noIdle' lowest
  case isFalse => exact priced.noIdle_serve noIdle' policy serve otherwise keeps

theorem waitworkers_updatePriority
    (policy : Policy P)
    (sched : Sched τ P n)
    (neighbour : Option τ × SchedView) :
    (sched.updatePriority policy neighbour).waitworkers =
      sched.waitworkers := by
  obtain ⟨t | t, view⟩ := neighbour
  · rfl
  · rw [Sched.updatePriority]
    split
    · dsimp only
      split <;> rfl
    · rfl

theorem waitworkers_updatePriorityList
    (policy : Policy P)
    (sched : Sched τ P n)
    (list : List (Option τ × SchedView)) :
    (sched.updatePriorityList policy list).waitworkers =
      sched.waitworkers := by
  induction list generalizing sched with
  | nil => rfl
  | cons neighbour list inductionHypothesis =>
      exact (inductionHypothesis _).trans
        (waitworkers_updatePriority policy sched neighbour)

theorem waitworkers_updatePriorityNeigh
    (policy : Policy P)
    (observed : Observed τ)
    (sched : Sched τ P n) :
    (sched.updatePriorityNeigh policy observed).waitworkers =
      sched.waitworkers :=
  (waitworkers_updatePriorityList policy _ _).trans
    (waitworkers_updatePriorityList policy _ _)

theorem updatePriorityNeigh_eq
    (policy : Policy P)
    (observed : Observed τ)
    (sched : Sched τ P n) :
    sched.updatePriorityNeigh policy observed =
      sched.updatePriorityList policy observed.neighbours :=
  (List.foldl_append ..).symm

/-- The priority of a queued task after one neighbour. -/
theorem Core.prior_updatePriority
    (core : Core sched hand place)
    (policy : Policy P)
    {u : τ}
    (queued : u ∈ sched.readyTasks.tasks)
    (neighbour : Option τ)
    (view : SchedView) :
    (sched.updatePriority policy (neighbour, view)).prior u =
      if neighbour = some u then lpelTaskCalPriority policy view
      else sched.prior u := by
  have inqueue : (sched.task u).state = .inqueue := by
    refine (core.inqueue_iff ?_).mpr queued
    rintro rfl
    exact core.not_queued queued
  cases neighbour with
  | none => rfl
  | some v =>
      by_cases same : v = u
      · subst same
        obtain ⟨after, updated, -⟩ := Taskqueue.tasks_updatePriority queued
          sched.prior (lpelTaskCalPriority policy view)
        rw [Sched.updatePriority, if_pos inqueue, if_pos rfl]
        simp only [updated]
        simp [Sched.prior, Sched.setPrior]
      · have other : some v ≠ some u := fun equal => same (Option.some.inj equal)
        rw [Sched.updatePriority, if_neg other]
        split
        · dsimp only
          split
          · exact prior_setPrior_of_ne (Ne.symm same) _
          · rfl
        · rfl

/-- The priority of a queued task after all neighbours. -/
theorem Core.prior_updatePriorityList
    (core : Core sched hand place)
    (policy : Policy P)
    (free : ∀ u, hand = some u → (sched.status u).state ≠ .inqueue)
    {u : τ}
    (queued : u ∈ sched.readyTasks.tasks)
    (list : List (Option τ × SchedView)) :
    (sched.updatePriorityList policy list).prior u =
      ((lastView u list).map (lpelTaskCalPriority policy)).getD
        (sched.prior u) := by
  induction list generalizing sched with
  | nil => rfl
  | cons neighbour list inductionHypothesis =>
      obtain ⟨neighbour, view⟩ := neighbour
      have changed := core.updatePriority policy free (neighbour, view)
      have free' : ∀ v, hand = some v →
          ((sched.updatePriority policy (neighbour, view)).status v).state ≠
            .inqueue := by
        rw [changed.status]
        exact free
      have queued' : u ∈
          (sched.updatePriority policy (neighbour, view)).readyTasks.tasks := by
        rw [changed.tasks]
        exact queued
      refine (inductionHypothesis (core.reprioritise changed) free'
        queued').trans ?_
      rw [core.prior_updatePriority policy queued, lastView]
      cases lastView u list with
      | some last => rfl
      | none =>
          by_cases same : neighbour = some u
          · simp [same]
          · simp [same]

/-- A waiting worker stays beside tasks of the lowest priority exactly if every
queued neighbour keeps it. -/
theorem Core.noIdle_updatePriorityNeigh
    (core : Core sched hand place)
    (noIdle : sched.NoIdle)
    (policy : Policy P)
    (observed : Observed τ)
    (free : ∀ u, hand = some u → (sched.status u).state ≠ .inqueue) :
    (sched.updatePriorityNeigh policy observed).NoIdle ↔
      ((∃ wid, sched.waitworkers wid = 1) →
        ∀ u ∈ sched.readyTasks.tasks,
          ∀ view ∈ lastView u observed.neighbours,
            lpelTaskCalPriority policy view = ⊥) := by
  have changed := core.updatePriorityNeigh policy observed free
  have waits := waitworkers_updatePriorityNeigh policy observed sched
  have prior (u : τ) (queued : u ∈ sched.readyTasks.tasks) :=
    core.prior_updatePriorityList policy free queued observed.neighbours
  rw [← updatePriorityNeigh_eq] at prior
  unfold Sched.NoIdle
  rw [waits, changed.tasks]
  constructor
  · rintro after ⟨wid, waiting⟩ u queued view last
    have lowest := after wid waiting u queued
    rw [prior u queued, Option.mem_def.mp last] at lowest
    exact lowest
  · intro settled wid waiting u queued
    rw [prior u queued]
    cases last : lastView u observed.neighbours with
    | none => exact noIdle wid waiting u queued
    | some view => exact settled ⟨wid, waiting⟩ u queued view last

omit [LinearOrder P] [BoundedOrder P] in
/-- Only a task in the list has a last view. -/
theorem mem_of_lastView
    {u : τ}
    {list : List (Option τ × SchedView)}
    {view : SchedView}
    (last : view ∈ lastView u list) :
    ∃ neighbour ∈ list, neighbour.1 = some u := by
  induction list with
  | nil => exact absurd last (by simp [lastView])
  | cons neighbour list inductionHypothesis =>
      obtain ⟨neighbour, first⟩ := neighbour
      by_cases same : neighbour = some u
      · exact ⟨(neighbour, first), List.mem_cons_self, same⟩
      · simp only [lastView, if_neg same, Option.or_none] at last
        obtain ⟨found, member, isU⟩ := inductionHypothesis last
        exact ⟨found, List.mem_cons_of_mem _ member, isU⟩

/-- The test on the neighbours, over the queued tasks. -/
theorem Core.quiet_iff
    (core : Core sched none place)
    (policy : Policy P)
    (observed : Observed τ) :
    quiet policy sched (.master observed) = true ↔
      (sched.abandons = true → (∃ wid, sched.waitworkers wid = 1) →
        ∀ u ∈ sched.readyTasks.tasks,
          ∀ view ∈ lastView u observed.neighbours,
            lpelTaskCalPriority policy view = ⊥) := by
  simp only [quiet, decide_eq_true_eq, List.all_eq_true, and_imp]
  refine imp_congr_right fun _ => imp_congr_right fun _ => ?_
  constructor
  · intro all u queued view last
    obtain ⟨neighbour, member, isU⟩ := mem_of_lastView last
    have tested := all neighbour member
    rw [isU] at tested
    have inqueue := (core.inqueue_iff (by simp)).mpr queued
    simp only [inqueue, Option.mem_def.mp last] at tested
    simpa using tested
  · intro all neighbour _
    obtain ⟨neighbour | u, _⟩ := neighbour
    · rfl
    · refine decide_eq_true fun inqueue => ?_
      have queued := (core.inqueue_iff (by simp)).mp inqueue
      rw [Option.all_eq_true]
      intro view last
      exact decide_eq_true (all u queued view last)

theorem noIdle_setState
    (sched : Sched τ P n)
    (t : τ)
    (state : TaskState) :
    (sched.setState t state).NoIdle ↔ sched.NoIdle := by
  unfold Sched.NoIdle
  rw [prior_setState]
  exact Iff.rfl

theorem noIdle_setWakenup
    (sched : Sched τ P n)
    (t : τ)
    (wakenup : ℕ) :
    (sched.setWakenup t wakenup).NoIdle ↔ sched.NoIdle := by
  unfold Sched.NoIdle
  rw [prior_setWakenup]
  exact Iff.rfl

theorem noIdle_stop
    (sched : Sched τ P n)
    (wid : Fin n)
    (t : τ)
    (state : TaskState) :
    (sched.stop wid t state).NoIdle ↔ sched.NoIdle :=
  noIdle_setState (sched.assert ((sched.task t).state = .running)) t state

/-- A step of a worker leaves the queue and the waiting workers alone. -/
theorem noIdle_workerStep
    {wid : Fin n}
    {label : SchedLabel τ n}
    {after : Sched τ P n}
    (step : WorkerStep sched wid label after) :
    after.NoIdle ↔ sched.NoIdle := by
  cases step with
  | first | assigned | terminated | unexpected | commit | request | ret =>
      exact Iff.rfl
  | @taskStart _ t =>
      exact noIdle_setState (sched.assert ((sched.task t).state = .ready)) t _
  | block | yield | exit => exact noIdle_stop sched wid _ _

/-! ## The rounds of the master -/

/-- `case WORKER_MSG_ASSIGN` leaves no worker idle. -/
theorem Core.noIdle_handleAssign
    (core : Core sched none place)
    (noIdle : sched.NoIdle)
    (policy : Policy P)
    (observed : Observed τ)
    {rest : List (WorkerMsg τ n)}
    (mail : sched.mastermb = .assign t :: rest) :
    ({ sched with mastermb := rest }.handleAssign policy observed t).NoIdle := by
  obtain ⟨held, present⟩ := core.take (Or.inl ⟨rfl, rfl⟩) mail
  have fits := core.fits t (by simp)
  rw [present] at fits
  have created : (sched.task t).state = .created := fits.2.1
  unfold Sched.handleAssign
  rw [assert_eq_self (decide_eq_true created)]
  refine held.makeReady.noIdle_serve ?_ policy observed.serve _ fun _ => rfl
  exact (noIdle_setState _ _ _).mpr noIdle

/-- `case TASK_READY` leaves no worker idle. -/
theorem Core.noIdle_handleReady
    (core : Core sched (some t) place)
    (noIdle : sched.NoIdle)
    (policy : Policy P)
    (observed : Observed τ) :
    (sched.handleReady policy observed t).NoIdle := by
  refine core.noIdle_offer noIdle policy observed.own observed.serve _ ?_
  exact waitworkers_updatePriorityNeigh policy observed

/-- `case WORKER_MSG_WAKEUP` leaves no worker idle. -/
theorem Core.noIdle_handleWakeup
    (core : Core sched none place)
    (noIdle : sched.NoIdle)
    (policy : Policy P)
    (observed : Observed τ)
    {rest : List (WorkerMsg τ n)}
    (mail : sched.mastermb = .wakeup t :: rest) :
    ({ sched with mastermb := rest }.handleWakeup policy observed t).NoIdle := by
  unfold Sched.handleWakeup
  dsimp only
  split
  case isTrue => exact (noIdle_setWakenup _ t 1).mpr noIdle
  case isFalse returned =>
    obtain ⟨held, -⟩ := core.unpark mail (not_ne_iff.mp returned)
    refine held.countReadied.noIdle_offer ?_ policy observed.own observed.serve _ fun _ => rfl
    exact (noIdle_setState _ _ _).mpr noIdle

/-- `case WORKER_MSG_REQUEST` makes a worker wait only beside tasks of the lowest
priority. -/
theorem Core.noIdle_handleRequest
    (core : Core sched none place)
    (noIdle : sched.NoIdle)
    {wid : Fin n}
    {rest : List (WorkerMsg τ n)} :
    ({ sched with mastermb := rest }.handleRequest wid).NoIdle := by
  unfold Sched.handleRequest
  split
  case h_1 head =>
    intro _ _ u queued
    have empty := (Taskqueue.peek_eq_none core.queue).mp head
    rw [show _ = _ from empty] at queued
    exact absurd queued (Multiset.notMem_zero u)
  case h_2 t head =>
    split
    case isTrue lowest =>
      intro _ _ u queued
      have highest := Taskqueue.peek_highest core.queue head u queued
      exact le_bot_iff.mp (highest.trans_eq lowest)
    case isFalse =>
      have prior : (Sched.sendTask (Sched.setState { sched with
          mastermb := rest } t .ready) wid t).prior = sched.prior :=
        prior_setState { sched with mastermb := rest } t .ready
      refine noIdle.mono (fun _ waiting => waiting) ?_
      intro u queued
      refine ⟨?_, congrFun prior u⟩
      dsimp only at queued
      rw [prior] at queued
      rw [Taskqueue.tasks_pop core.queue head]
      exact Multiset.mem_cons_of_mem queued

/-- `case WORKER_MSG_RETURN` leaves a worker idle exactly when it abandons its
task and raises a neighbour. -/
theorem Core.noIdle_handleReturn
    (core : Core sched none place)
    (noIdle : sched.NoIdle)
    (policy : Policy P)
    (observed : Observed τ)
    {rest : List (WorkerMsg τ n)}
    (mail : sched.mastermb = .ret t :: rest) :
    ({ sched with mastermb := rest }.handleReturn policy observed t).NoIdle ↔
      quiet policy sched (.master observed) = true := by
  rw [core.quiet_iff]
  obtain ⟨held, stopped⟩ := core.takeReturn mail
  have abandons : sched.abandons =
      decide ((sched.task t).state = .zombie ∨
        (sched.task t).state = .blocked ∧ (sched.task t).wakenup ≠ 1) := by
    rw [Sched.abandons, mail]
  have state : (sched.status t).state = (sched.task t).state := rfl
  rw [Stopped, state] at stopped
  unfold Sched.handleReturn
  dsimp only
  cases current : (sched.task t).state with
  | created | running | inqueue | returned =>
      rw [current] at stopped
      exact absurd stopped id
  | ready =>
      refine iff_of_true (held.noIdle_handleReady noIdle policy observed) ?_
      rw [abandons, current]
      simp
  | zombie =>
      have free : ∀ u, some t = some u → (sched.status u).state ≠ .inqueue := by
        rintro u equal
        obtain rfl := Option.some.inj equal
        rw [state, current]
        decide
      rw [abandons, current]
      refine (held.noIdle_updatePriorityNeigh noIdle policy observed free).trans ?_
      simp
  | blocked =>
      rw [current] at stopped
      rw [abandons, current]
      dsimp only
      split
      case isTrue woken =>
        have flag : (sched.task t).wakenup = 1 := woken
        have made := (held.countReturn.setWakenup 0).makeReady.countReadied
        have still := (noIdle_setState _ t .ready).mpr
          ((noIdle_setWakenup ({ sched with mastermb := rest }.note t
            fun history => { history with
              returnsTaken := history.returnsTaken + 1 }) t 0).mpr noIdle)
        refine iff_of_true (made.noIdle_handleReady still policy observed) ?_
        simp [flag]
      case isFalse notWoken =>
        have flag : (sched.task t).wakenup ≠ 1 := notWoken
        have parked := held.parkReturn current stopped notWoken
        have still := (noIdle_setState ({ sched with mastermb := rest }.note t
          fun history => { history with
            returnsTaken := history.returnsTaken + 1 }) t .returned).mpr noIdle
        refine (parked.noIdle_updatePriorityNeigh still policy observed
          (by simp)).trans ?_
        simp [flag, Sched.setState, Sched.note]

/-- A round of the master leaves a worker idle exactly when it is not quiet. -/
theorem Core.noIdle_round
    (core : Core sched none place)
    (noIdle : sched.NoIdle)
    (policy : Policy P)
    (observed : Observed τ)
    {msg : WorkerMsg τ n}
    {rest : List (WorkerMsg τ n)}
    (mail : sched.mastermb = msg :: rest) :
    ({ sched with mastermb := rest }.handle policy observed msg).leave.NoIdle ↔
      quiet policy sched (.master observed) = true := by
  have leaves : ∀ handled : Sched τ P n,
      handled.leave.NoIdle ↔ handled.NoIdle := by
    intro handled
    unfold Sched.leave
    split <;> exact Iff.rfl
  have served (abandons : sched.abandons = false) :
      quiet policy sched (.master observed) = true := by
    rw [core.quiet_iff, abandons]
    simp
  rw [leaves]
  cases msg with
  | ret t => exact core.noIdle_handleReturn noIdle policy observed mail
  | assign t =>
      refine iff_of_true (core.noIdle_handleAssign noIdle policy observed mail) ?_
      exact served (by rw [Sched.abandons, mail])
  | wakeup t =>
      refine iff_of_true (core.noIdle_handleWakeup noIdle policy observed mail) ?_
      exact served (by rw [Sched.abandons, mail])
  | request wid =>
      refine iff_of_true (core.noIdle_handleRequest noIdle) ?_
      exact served (by rw [Sched.abandons, mail])
  | terminate =>
      refine iff_of_true noIdle ?_
      exact served (by rw [Sched.abandons, mail])

/-- A step leaves a worker idle exactly when it is not quiet. -/
theorem Core.noIdle_step
    (core : Core sched none place)
    (noIdle : sched.NoIdle)
    {policy : Policy P}
    {label : SchedLabel τ n}
    {after : Sched τ P n}
    (taken : schedNext policy sched label = some after) :
    after.NoIdle ↔ quiet policy sched label = true := by
  cases schedNext_cases taken with
  | start | wakeup | stop | broadcast => exact iff_of_true noIdle rfl
  | master _ mail => exact core.noIdle_round noIdle policy _ mail
  | worker step =>
      refine iff_of_true ((noIdle_workerStep step).mpr noIdle) ?_
      cases step <;> rfl

/-- In a run of quiet steps no worker waits beside a task that its request would
have got, and the first step that is not quiet leaves a worker in this
situation. -/
theorem idleWorkers
    {policy : Policy P}
    (reached : (schedMachine n policy).ReachableBy
      (fun sched label => quiet policy sched label = true) sched) :
    sched.NoIdle ∧
      ∀ label after, schedNext policy sched label = some after →
        (after.NoIdle ↔ quiet policy sched label = true) := by
  have noIdle : sched.NoIdle := by
    induction reached with
    | init initial =>
        obtain ⟨memory, zero, rfl⟩ := initial
        exact noIdle_of_none fun wid => by simp [schedStart]
    | step before met taken inductionHypothesis =>
        obtain ⟨place, core⟩ := Sched.Conserved.ofReachable before.reachable
        exact (core.noIdle_step inductionHypothesis taken).mpr met
  obtain ⟨place, core⟩ := Sched.Conserved.ofReachable reached.reachable
  exact ⟨noIdle, fun label after taken => core.noIdle_step noIdle taken⟩

end

section Example

/-- The default priority function of `taskpriority.c`. -/
def priorfunc14 (_ : ℕ) (inRec outRec : ℤ) : WithBot (WithTop ℤ) :=
  let inRec := if inRec = -1 then 0 else inRec
  let outRec := if outRec = -1 then 0 else outRec
  ((inRec - outRec : ℤ) : WithTop ℤ)

/-- An entry task may be ahead of its successor by one record. -/
def demandPolicy : Policy (WithBot (WithTop ℤ)) :=
  { negDemandLim := 1
    priorCal := priorfunc14 }

/-- An entry task with so many records in its output stream. -/
def entryTask (records : ℤ) : SchedView :=
  { inStreams := [some { type := .entry, fillLevel := 0 }]
    outStreams := [some { type := .middle, fillLevel := records }]
    rand := 0 }

/-- The round in which the entry task yields after it has written two records. -/
def ahead : Observed ℕ :=
  { own := entryTask 2
    serve := entryTask 2
    requeue := entryTask 2
    producers := []
    consumers := [] }

/-- The round in which the reader of the entry task is returned, with so many
records left in the stream between the two. -/
def readerReturned (records : ℤ) : Observed ℕ :=
  { own := noStreams
    serve := noStreams
    requeue := noStreams
    producers := [(some 1, entryTask records)]
    consumers := [] }

/-- An entry task writes two records and yields, and its reader blocks with so
many records left to read. -/
def stallRun (wid : Fin 1) (records : ℤ) : List (SchedLabel ℕ 1) :=
  [.first wid, .master alone, .start 1, .master alone, .recv wid,
    .taskStart wid, .start 2, .master alone, .yield wid, .request wid, .ret wid,
    .master alone, .master ahead, .recv wid, .taskStart wid, .commit wid,
    .block wid, .request wid, .ret wid, .master alone,
    .master (readerReturned records)]

/-- The reader blocks on the empty stream.  Its return raises the entry task in
the queue, but the only worker goes on waiting, and no message is left. -/
theorem idleWorkers_stalled :
    ∃ sched : Sched ℕ (WithBot (WithTop ℤ)) 1,
      (schedMachine 1 demandPolicy).Reachable sched ∧
      sched.mastermb = [] ∧ sched.workermbs 0 = [] ∧ sched.worker 0 = .recv ∧
      ¬ sched.NoIdle := by
  obtain ⟨sched, reached, tested⟩ := Machine.exists_reachable_of_run
    (⟨_, _, rfl⟩ : (schedMachine 1 demandPolicy).init
      (schedStart (fun _ => 0) (priorfunc14 0 0 0)))
    (by decide : ((schedMachine 1 demandPolicy).run
      (schedStart (fun _ => 0) (priorfunc14 0 0 0)) (stallRun 0 0)).map
      (fun sched => decide (sched.mastermb = [] ∧ sched.workermbs 0 = [] ∧
        sched.worker 0 = .recv ∧ sched.waitworkers 0 = 1 ∧
        (sched.task 1).state = .inqueue ∧ sched.prior 1 ≠ ⊥)) = some true)
  obtain ⟨noMail, noTask, receives, waiting, inqueue, raised⟩ :=
    of_decide_eq_true tested
  refine ⟨sched, reached, noMail, noTask, receives, ?_⟩
  intro noIdle
  obtain ⟨place, core⟩ := Sched.Conserved.ofReachable reached
  have queued := (core.inqueue_iff (by simp)).mp inqueue
  exact raised (noIdle 0 waiting 1 queued)

/-- The reader blocks elsewhere, with both records still in the stream. -/
theorem idleWorkers_settled :
    ∃ sched : Sched ℕ (WithBot (WithTop ℤ)) 1,
      (schedMachine 1 demandPolicy).ReachableBy
        (fun sched label => quiet demandPolicy sched label = true) sched ∧
      sched.waitworkers 0 = 1 ∧ (sched.task 1).state = .inqueue ∧
      sched.NoIdle := by
  obtain ⟨sched, reached, tested⟩ := Machine.exists_reachableBy_of_runBy
    (⟨_, _, rfl⟩ : (schedMachine 1 demandPolicy).init
      (schedStart (fun _ => 0) (priorfunc14 0 0 0)))
    (by decide : ((schedMachine 1 demandPolicy).runBy (quiet demandPolicy)
      (schedStart (fun _ => 0) (priorfunc14 0 0 0)) (stallRun 0 2)).map
      (fun sched => decide (sched.waitworkers 0 = 1 ∧
        (sched.task 1).state = .inqueue)) = some true)
  obtain ⟨waiting, inqueue⟩ := of_decide_eq_true tested
  exact ⟨sched, reached, waiting, inqueue, (idleWorkers reached).1⟩

end Example

end Hrc
end Lpel
