import Lpel.Decen.WorkerSafety

/-!
# One stack, one worker

A thread is on the stack of a task from the switch to the task until the switch
away from it, so also while the task is in the dispatcher.  With
`LPEL_MIG_WAIT_PROP` a task is sent to another worker when it becomes ready.
`LpelWorkerSelfTaskMigrate` leaves the stack first, for it "shouldn't migrate the
task itself in the task's context".  `LpelWorkerMakeTaskReady` does not: a task
that finds its own wakeup, or its own finished SPMD request, in the dispatcher
is sent away while the dispatcher still runs on its stack.
-/

namespace Lpel
namespace Decen

variable {τ : Type} {n : ℕ}

/-- The task whose dispatcher a thread is in. -/
def Pc.dispatching : Pc τ n → Option τ
  | .dispatcher _ t | .pick _ t => some t
  | _ => none

/-- The task on whose stack a thread is. -/
def Pc.stack (pc : Pc τ n) : Option τ :=
  pc.task.or pc.dispatching

variable [DecidableEq τ]

/-- `LpelWorkerMakeTaskReady` sends a task of the given worker away. -/
def sendsAway
    (mechanism : Mechanism)
    (target : Option (Fin n))
    (wc : Context τ n) : Bool :=
  match mechanism, target with
  | .waitProp, some wid => 0 < wid.val ∧ Context.worker wid ≠ wc
  | _, _ => false

/-- A task sends itself away, in the dispatcher on its own stack. -/
def sendsItselfAway (mechanism : Mechanism) (workers : Workers τ n) :
    WorkerLabel τ n → Bool
  | .thread self target =>
      match workers.thread self with
      | .dispatcher wc t =>
          (workers.mailbox wc).head? = some (.wakeup t) ∧
            sendsAway mechanism target (workers.task t).workerContext
      | _ => false
  | .spmdWakeup self whom target =>
      (workers.thread self).dispatching = some whom ∧
        sendsAway mechanism target (workers.task whom).workerContext
  | _ => false

/-- A task that is in the dispatcher belongs to the worker of the thread, and it
is neither being sent to another one nor being destroyed. -/
structure AtHome (workers : Workers τ n) (wc : Context τ n) (t : τ) :
    Prop where
  context : (workers.task t).workerContext = wc
  alive : (workers.history t).Alive
  unassigned : ∀ other, .assign t ∉ workers.mailbox other
  unmigrated : ∀ other, workers.migrated other ≠ some t
  marked : ∀ other, workers.markedDel other = some t → other = wc

/-- Every thread that is in a dispatcher is there with a task of its own. -/
def Stacks (workers : Workers τ n) : Prop :=
  ∀ self t, (workers.thread self).dispatching = some t → AtHome workers self t

/-- What happens to a task does not concern its home. -/
structure Keeps (workers after : Workers τ n) (t : τ) : Prop where
  context : (after.task t).workerContext = (workers.task t).workerContext
  alive : (workers.history t).Alive → (after.history t).Alive
  assigned : ∀ wc, .assign t ∈ after.mailbox wc →
    .assign t ∈ workers.mailbox wc
  migrated : ∀ wc, after.migrated wc = some t → workers.migrated wc = some t
  marked : ∀ wc, after.markedDel wc = some t → workers.markedDel wc = some t

section Keeps

variable {workers after last : Workers τ n} {t u : τ} {wc self : Context τ n}

omit [DecidableEq τ] in
theorem AtHome.keep
    (home : AtHome workers self t)
    (keeps : Keeps workers after t) :
    AtHome after self t where
  context := keeps.context.trans home.context
  alive := keeps.alive home.alive
  unassigned := fun wc member => home.unassigned wc (keeps.assigned wc member)
  unmigrated := fun wc migrated => home.unmigrated wc (keeps.migrated wc migrated)
  marked := fun wc marked => home.marked wc (keeps.marked wc marked)

namespace Keeps

omit [DecidableEq τ] in
theorem refl (workers : Workers τ n) (t : τ) : Keeps workers workers t :=
  ⟨rfl, id, fun _ => id, fun _ => id, fun _ => id⟩

omit [DecidableEq τ] in
theorem trans
    (first : Keeps workers after t)
    (second : Keeps after last t) :
    Keeps workers last t where
  context := second.context.trans first.context
  alive := second.alive ∘ first.alive
  assigned := fun wc => first.assigned wc ∘ second.assigned wc
  migrated := fun wc => first.migrated wc ∘ second.migrated wc
  marked := fun wc => first.marked wc ∘ second.marked wc

omit [DecidableEq τ] in
/-- Only some of the fields matter. -/
theorem ofFields
    (task : after.task = workers.task)
    (history : after.history = workers.history)
    (mailbox : after.mailbox = workers.mailbox)
    (migrated : after.migrated = workers.migrated)
    (markedDel : after.markedDel = workers.markedDel) :
    Keeps workers after t where
  context := by rw [task]
  alive := by rw [history]; exact id
  assigned := by rw [mailbox]; exact fun _ => id
  migrated := by rw [migrated]; exact fun _ => id
  marked := by rw [markedDel]; exact fun _ => id

theorem setState (workers : Workers τ n) (u : τ) (state : TaskState) :
    Keeps workers (workers.setState u state) t :=
  ⟨workerContext_setState .., id, fun _ => id, fun _ => id, fun _ => id⟩

/-- The wakeup of a task does not concern its life. -/
theorem setBlock (workers : Workers τ n) (u : τ) (block : Block) :
    Keeps workers
      (workers.note u fun history => { history with block := block }) t := by
  refine ⟨rfl, ?_, fun _ => id, fun _ => id, fun _ => id⟩
  intro alive
  by_cases same : t = u
  · subst same
    simpa [Workers.note, History.Alive] using alive
  · simpa [Workers.note, same] using alive

theorem send
    {msg : WorkerMsg τ}
    (other : msg ≠ .assign t) :
    Keeps workers (workers.send wc msg) t := by
  refine ⟨rfl, id, ?_, fun _ => id, fun _ => id⟩
  intro wc' member
  by_cases same : wc' = wc
  · subst same
    simpa [Workers.send, Ne.symm other] using member
  · simpa [Workers.send, same] using member

/-- `LpelWorkerMakeTaskReady` of another task, or of one that stays. -/
theorem makeTaskReady
    {mechanism : Mechanism}
    {target : Option (Fin n)}
    (stays : t = u →
      sendsAway mechanism target (workers.task u).workerContext = false) :
    Keeps workers (workers.lpelWorkerMakeTaskReady mechanism target u) t := by
  have queued (condition : Bool) (wc : Context τ n) :
      Keeps workers ((workers.assert condition).makeReady wc u) t :=
    ofFields rfl rfl rfl rfl rfl
  unfold Workers.lpelWorkerMakeTaskReady
  dsimp only
  split
  case h_1 wid =>
    split
    case isTrue leaves =>
      have other : t ≠ u := by
        intro same
        have stays := stays same
        simp only [sendsAway, decide_eq_false_iff_not] at stays
        exact stays leaves
      constructor
      case context =>
        simp [Workers.sendAssign, Workers.send, Workers.uncount,
          Workers.setContext, Workers.assert, other]
      case alive => exact id
      case assigned =>
        intro wc' member
        by_cases same : wc' = .worker wid
        · subst same
          simpa [Workers.sendAssign, Workers.send, Workers.uncount,
            Workers.setContext, Workers.assert, other] using member
        · simpa [Workers.sendAssign, Workers.send, Workers.uncount,
            Workers.setContext, Workers.assert, same] using member
      case migrated => exact fun _ => id
      case marked => exact fun _ => id
    case isFalse => exact queued _ _
  case h_2 => exact queued _ _

/-- `ProcessMessage`, unless it is the wakeup of the task and sends it away. -/
theorem processMessage
    {mechanism : Mechanism}
    {target : Option (Fin n)}
    {msg : WorkerMsg τ}
    (stays : msg = .wakeup t →
      sendsAway mechanism target (workers.task t).workerContext = false) :
    Keeps workers (workers.processMessage mechanism target wc msg) t := by
  cases msg with
  | terminate => exact ofFields rfl rfl rfl rfl rfl
  | spmdreq => exact ofFields rfl rfl rfl rfl rfl
  | wakeup u =>
      have woken (condition : Bool) : Keeps workers
          (((workers.assert condition).note u fun history =>
            { history with block := .idle }).setState u .ready) t :=
        (setBlock workers u .idle).trans
          ((setState _ u .ready).trans (ofFields rfl rfl rfl rfl rfl))
      dsimp only [Workers.processMessage]
      split
      case isTrue =>
        refine (woken _).trans (makeTaskReady ?_)
        rintro rfl
        rw [workerContext_setState]
        exact stays rfl
      case isFalse =>
        exact (woken _).trans (ofFields rfl rfl rfl rfl rfl)
  | assign u =>
      dsimp only [Workers.processMessage]
      have counted {before : Workers τ n} (keeps : Keeps workers before t) :
          Keeps workers ((before.countAssign wc u).putReady wc u) t := by
        refine keeps.trans ?_
        unfold Workers.putReady
        split
        · exact ofFields rfl rfl rfl rfl rfl
        · exact ofFields rfl rfl rfl rfl rfl
      have asserted (condition : Bool) :
          Keeps workers (workers.assert condition) t :=
        ofFields rfl rfl rfl rfl rfl
      split
      case isTrue => exact counted ((asserted _).trans (setState _ u .ready))
      case isFalse => exact counted (asserted _)

theorem receive
    {mechanism : Mechanism}
    {target : Option (Fin n)}
    (received : workers.receive mechanism target wc = some after)
    (stays : (workers.mailbox wc).head? = some (.wakeup t) →
      sendsAway mechanism target (workers.task t).workerContext = false) :
    Keeps workers after t := by
  unfold Workers.receive at received
  cases mail : workers.mailbox wc with
  | nil => simp [mail] at received
  | cons msg rest =>
      simp only [mail, Option.some.injEq] at received
      subst received
      have taken : Keeps workers
          { workers with mailbox := Function.update workers.mailbox wc rest }
          t := by
        refine ⟨rfl, id, ?_, fun _ => id, fun _ => id⟩
        intro other member
        by_cases same : other = wc
        · subst same
          rw [mail]
          simp only [Function.update_self] at member
          exact List.mem_cons_of_mem _ member
        · simpa [same] using member
      refine taken.trans (processMessage ?_)
      rintro rfl
      exact stays (by rw [mail]; rfl)

/-- Only the task that is marked for deletion is destroyed. -/
theorem cleanup
    (other : workers.markedDel wc ≠ some t) :
    Keeps workers (workers.cleanupTaskContext wc none) t := by
  unfold Workers.cleanupTaskContext
  cases marked : workers.markedDel wc with
  | none => exact refl workers t
  | some u =>
      have distinct : t ≠ u := by
        rintro rfl
        exact other marked
      refine ⟨rfl, ?_, fun _ => id, fun _ => id, ?_⟩
      · intro alive
        simpa [Workers.lpelTaskDestroy, Workers.note, Workers.assert, distinct]
          using alive
      · intro wc' marked'
        by_cases same : wc' = wc
        · subst same
          simp at marked'
        · simpa [same] using marked'

/-- Only the task that is to be handed off is sent away. -/
theorem handOff
    (other : workers.migrated wc ≠ some t) :
    Keeps workers (workers.handOff wc) t := by
  unfold Workers.handOff
  cases migrating : workers.migrated wc with
  | none => exact refl workers t
  | some u =>
      have distinct : t ≠ u := by
        rintro rfl
        exact other migrating
      have sent : Keeps workers
          (workers.sendAssign (workers.task u).workerContext u) t :=
        send (by simpa using Ne.symm distinct)
      refine ⟨sent.context, sent.alive, sent.assigned, ?_, sent.marked⟩
      intro wc' migrated
      by_cases same : wc' = wc
      · subst same
        simp at migrated
      · simpa [same] using migrated

end Keeps

end Keeps

section Stacks

variable {workers after : Workers τ n} {mechanism : Mechanism}
variable {place : τ → Option (Place τ n)} {t : τ} {wc self : Context τ n}

/-- The task that a thread executes is at home. -/
theorem Core.atHome
    (core : Core workers none none place)
    (executes : (workers.thread wc).task = some t) :
    AtHome workers wc t := by
  obtain ⟨here, alive, context, -⟩ := core.fits_at
    (t := t) (p := .running wc) (by simp [Workers.copies, executes])
  have only := (core.located.only here).2
  constructor
  case context => exact context
  case alive => exact alive
  case unassigned =>
    intro other member
    have absent := only (.assigned other) (by simp)
    exact List.count_pos_iff.mpr member |>.ne' absent
  case unmigrated =>
    intro other migrated
    have absent := only (.migrated other) (by simp)
    simp [Workers.copies, migrated] at absent
  case marked =>
    intro other marked
    have absent := only (.zombie other) (by simp)
    simp [Workers.copies, marked] at absent

/-- A step of one thread, which leaves the tasks of the others at home. -/
theorem Stacks.step
    (held : Stacks workers)
    (self : Context τ n)
    (thread : ∀ other, other ≠ self → after.thread other = workers.thread other)
    (keeps : ∀ other u, other ≠ self → AtHome workers other u →
      Keeps workers after u)
    (own : ∀ u, (after.thread self).dispatching = some u →
      AtHome after self u) :
    Stacks after := by
  intro other u dispatching
  by_cases same : other = self
  · subst same
    exact own u dispatching
  · rw [thread other same] at dispatching
    have home := held other u dispatching
    exact home.keep (keeps other u same home)

omit [DecidableEq τ] in
/-- A step of no thread. -/
theorem Stacks.congr
    (held : Stacks workers)
    (thread : after.thread = workers.thread)
    (keeps : ∀ other u, AtHome workers other u → Keeps workers after u) :
    Stacks after := by
  intro other u dispatching
  rw [thread] at dispatching
  have home := held other u dispatching
  exact home.keep (keeps other u home)

/-- A thread goes on outside the dispatcher. -/
theorem Stacks.goOn
    (held : Stacks workers)
    (self : Context τ n)
    (pc : Pc τ n)
    (outside : pc.dispatching = none)
    (thread : after.thread = Function.update workers.thread self pc)
    (keeps : ∀ other u, other ≠ self → AtHome workers other u →
      Keeps workers after u) :
    Stacks after := by
  refine held.step self ?_ keeps ?_
  · intro other distinct
    rw [thread, Function.update_of_ne distinct]
  · intro u dispatching
    rw [thread, Function.update_self, outside] at dispatching
    exact absurd dispatching (by simp)

/-- A message concerns only tasks of the worker that receives it. -/
theorem Core.keeps_receive
    (core : Core workers none none place)
    {target : Option (Fin n)}
    (received : workers.receive mechanism target self = some after)
    {other : Context τ n}
    {u : τ}
    (distinct : other ≠ self)
    (home : AtHome workers other u) :
    Keeps workers after u := by
  refine Keeps.receive received ?_
  intro head
  have wakes := core.wakes u self
  have member : .wakeup u ∈ workers.mailbox self := List.mem_of_head? head
  rw [if_neg ?_] at wakes
  · exact absurd wakes (List.count_pos_iff.mpr member).ne'
  · rintro ⟨-, context⟩
    exact distinct (home.context.symm.trans context)

/-- The steps of a thread outside the functions of tasks. -/
theorem Stacks.threadStep
    (held : Stacks workers)
    (core : Core workers none none place)
    {target : Option (Fin n)}
    (stays : sendsItselfAway mechanism workers (.thread self target) = false)
    (taken : workers.threadNext mechanism target self = some after) :
    Stacks after := by
  cases threadNext_cases taken with
  | fetch _ fetched | fetchNone _ fetched | pickSame _ fetched
  | pick _ fetched | pickNone _ fetched =>
      obtain ⟨-, rfl⟩ := Prod.mk.inj fetched
      exact held.goOn self _ rfl rfl
        fun _ _ _ _ => .ofFields rfl rfl rfl rfl rfl
  | takeWraptask | noWraptask | leaveWorker | again | backWrapper =>
      exact held.goOn self _ rfl rfl
        fun _ _ _ _ => .ofFields rfl rfl rfl rfl rfl
  | wait position received =>
      obtain ⟨-, thread⟩ := core.receive (by rw [position]; rfl) received
      refine held.goOn self .drain rfl (by rw [← thread]; rfl) ?_
      intro other u distinct home
      exact (core.keeps_receive received distinct home).trans
        (.ofFields rfl rfl rfl rfl rfl)
  | drain position received =>
      obtain ⟨-, thread⟩ := core.receive (by rw [position]; rfl) received
      refine held.goOn self .drain rfl ?_ ?_
      · rw [thread, ← position, Function.update_eq_self]
      · intro other u distinct home
        exact core.keeps_receive received distinct home
  | leaveWrapper =>
      refine held.goOn self .left rfl ?_ ?_
      · rw [← thread_cleanup workers self]
        rfl
      · intro other u distinct home
        have unmarked : workers.markedDel self ≠ some u := fun marked =>
          distinct (home.marked self marked).symm
        exact (Keeps.cleanup unmarked).trans (.ofFields rfl rfl rfl rfl rfl)
  | @taskStart t =>
      refine held.goOn self (.running t) rfl rfl ?_
      intro other u _ _
      exact (Keeps.setState workers t .running).trans
        (.ofFields rfl rfl rfl rfl rfl)
  | @dispatcher wc _ _ position received =>
      -- the message does not send the task of this dispatcher away
      have home := held self _ (by rw [position]; rfl)
      obtain ⟨rfl, -⟩ := core.dispatches (.inl position)
      obtain ⟨-, thread⟩ := core.receive (by rw [position]; rfl) received
      refine held.step wc ?_ ?_ ?_
      · intro other _
        rw [thread]
      · intro other u distinct atHome
        exact core.keeps_receive received distinct atHome
      · intro u dispatching
        rw [thread, position] at dispatching
        obtain rfl := Option.some.inj dispatching
        refine home.keep (Keeps.receive received ?_)
        intro head
        simpa [sendsItselfAway, position, head] using stays
  | @dispatched wc t position =>
      have home := held self t (by rw [position]; rfl)
      refine held.step self ?_ ?_ ?_
      · intro other distinct
        exact Function.update_of_ne distinct _ _
      · exact fun _ _ _ _ => .ofFields rfl rfl rfl rfl rfl
      · intro u dispatching
        have same : t = u := by
          simpa [Workers.setThread, Pc.dispatching] using dispatching
        subst same
        exact home.keep (.ofFields rfl rfl rfl rfl rfl)
  | backWorker =>
      refine held.goOn self .drain rfl ?_ ?_
      · rw [← thread_handOff workers self,
          ← thread_cleanup (workers.handOff self) self]
        rfl
      · intro other u distinct home
        have handed := Keeps.handOff (home.unmigrated self)
        have unmarked : (workers.handOff self).markedDel self ≠ some u := by
          intro marked
          exact distinct (home.marked self (handed.marked self marked)).symm
        exact handed.trans ((Keeps.cleanup unmarked).trans
          (.ofFields rfl rfl rfl rfl rfl))

/-- A task that stops goes to the dispatcher of its worker, or back to its
wrapper. -/
theorem Stacks.dispatch
    (held : Stacks workers)
    {before : Workers τ n}
    (thread : before.thread = workers.thread)
    (keeps : ∀ other u, other ≠ self → AtHome workers other u →
      Keeps workers before u)
    (home : AtHome before self t) :
    Stacks (before.lpelWorkerDispatcher self t) := by
  unfold Workers.lpelWorkerDispatcher
  rw [home.context]
  dsimp only
  split
  case isTrue =>
    refine held.step self ?_ ?_ ?_
    · intro other distinct
      rw [← thread]
      exact Function.update_of_ne distinct _ _
    · intro other u distinct atHome
      exact (keeps other u distinct atHome).trans
        (.ofFields rfl rfl rfl rfl rfl)
    · intro u dispatching
      have same : t = u := by
        simpa [Workers.setThread, Pc.dispatching] using dispatching
      subst same
      exact home.keep (.ofFields rfl rfl rfl rfl rfl)
  case isFalse =>
    refine held.goOn self .back rfl (by rw [← thread]; rfl) ?_
    intro other u distinct atHome
    exact (keeps other u distinct atHome).trans
      (.ofFields rfl rfl rfl rfl rfl)

/-- `LpelWorkerSelfTaskMigrate` leaves the stack of the task. -/
theorem Stacks.selfTaskMigrate
    (held : Stacks workers)
    (core : Core workers none none place)
    (executes : workers.Executes self t)
    (wid : Fin n) :
    Stacks ((workers.setState t .ready).lpelWorkerSelfTaskMigrate self t
      wid) := by
  have home := core.atHome executes.task
  unfold Workers.lpelWorkerSelfTaskMigrate
  dsimp only
  split
  case isTrue =>
    refine held.goOn self (.resume t) rfl rfl ?_
    intro other u _ _
    exact (Keeps.setState workers t .ready).trans
      (.ofFields rfl rfl rfl rfl rfl)
  case isFalse =>
    refine held.goOn self .back rfl rfl ?_
    intro other u distinct atHome
    have apart : u ≠ t := by
      rintro rfl
      exact distinct (atHome.context.symm.trans home.context)
    constructor
    case context => simp [Workers.setContext, Workers.setState, apart]
    case alive => exact id
    case assigned => exact fun _ => id
    case migrated =>
      intro wc migrated
      dsimp only at migrated
      by_cases same : wc = ((workers.setState t .ready).task t).workerContext
      · subst same
        rw [Function.update_self] at migrated
        exact absurd (Option.some.inj migrated).symm apart
      · rw [Function.update_of_ne same] at migrated
        exact migrated
    case marked => exact fun _ => id

theorem Stacks.yield
    (held : Stacks workers)
    (core : Core workers none none place)
    (mechanism : Mechanism)
    (target : Option (Fin n))
    (position : workers.thread self = .running t) :
    Stacks (workers.lpelTaskYield mechanism target self t) := by
  have executes := core.executes position
  have stays : Stacks ((((workers.setState t .ready).putReady
      ((workers.setState t .ready).task t).workerContext t).taskStop
        t).lpelWorkerDispatcher self t) := by
    have keeps (u : τ) : Keeps workers
        (((workers.setState t .ready).putReady
          ((workers.setState t .ready).task t).workerContext t).taskStop t)
        u := by
      refine (Keeps.setState workers t .ready).trans ?_
      unfold Workers.putReady
      split
      · exact .ofFields rfl rfl rfl rfl rfl
      · exact .ofFields rfl rfl rfl rfl rfl
    refine held.dispatch ?_ (fun _ u _ _ => keeps u)
      ((core.atHome executes.task).keep (keeps t))
    unfold Workers.putReady
    split
    · rfl
    · rfl
  unfold Workers.lpelTaskYield
  rw [assert_of (decide_eq_true executes.state)]
  dsimp only
  split
  case h_1 wid =>
    split
    case isTrue =>
      rw [taskStop_of (by simp [Workers.setState])]
      exact held.selfTaskMigrate core executes wid
    case isFalse => exact stays
  case h_2 => exact stays

theorem Stacks.checkMigrate
    (held : Stacks workers)
    (core : Core workers none none place)
    (mechanism : Mechanism)
    (target : Option (Fin n))
    (position : workers.thread self = .running t) :
    Stacks (workers.lpelTaskCheckMigrate mechanism target self t) := by
  have executes := core.executes position
  unfold Workers.lpelTaskCheckMigrate
  split
  case isTrue => exact held
  case isFalse =>
    rw [assert_of (decide_eq_true executes.state)]
    cases target with
    | none => exact held
    | some wid =>
        dsimp only
        split
        case isTrue => exact held
        case isFalse =>
          rw [taskStop_of (by simp [Workers.setState])]
          exact held.selfTaskMigrate core executes wid

theorem Stacks.block
    (held : Stacks workers)
    (core : Core workers none none place)
    (position : workers.thread self = .committed t) :
    Stacks (workers.lpelTaskBlockStream self t) := by
  have home : AtHome workers self t := core.atHome (by rw [position]; rfl)
  have keeps (u : τ) :
      Keeps workers ((workers.setState t .blocked).taskStop t) u :=
    (Keeps.setState workers t .blocked).trans (.ofFields rfl rfl rfl rfl rfl)
  exact held.dispatch rfl (fun _ u _ _ => keeps u) (home.keep (keeps t))

/-- `LpelWorkerSelfTaskExit` cleans up and marks the task. -/
theorem selfTaskExit_fields (workers : Workers τ n) (t : τ) :
    let wc := (workers.task t).workerContext
    let cleaned := workers.cleanupTaskContext wc none
    let after := workers.lpelWorkerSelfTaskExit t
    after.task = cleaned.task ∧ after.thread = cleaned.thread ∧
      after.history = cleaned.history ∧ after.mailbox = cleaned.mailbox ∧
      after.migrated = cleaned.migrated ∧
      after.markedDel = Function.update cleaned.markedDel wc (some t) := by
  unfold Workers.lpelWorkerSelfTaskExit
  dsimp only
  split
  · exact ⟨rfl, rfl, rfl, rfl, rfl, rfl⟩
  · exact ⟨rfl, rfl, rfl, rfl, rfl, rfl⟩

/-- `LpelTaskExit` marks the task at its own worker. -/
theorem Stacks.exit
    (held : Stacks workers)
    (core : Core workers none none place)
    (position : workers.thread self = .running t) :
    Stacks (workers.lpelTaskExit self t) := by
  have executes := core.executes position
  have home := core.atHome executes.task
  unfold Workers.lpelTaskExit
  rw [assert_of (decide_eq_true executes.state)]
  dsimp only
  have context : ((workers.setState t .zombie).task t).workerContext = self := by
    rw [workerContext_setState]
    exact home.context
  have fields := selfTaskExit_fields (workers.setState t .zombie) t
  dsimp only at fields
  rw [context] at fields
  rw [task_cleanup, thread_cleanup] at fields
  obtain ⟨task, thread, history, mailbox, migrated, markedDel⟩ := fields
  -- nothing happens to a task that is not marked, but that it may be marked now
  have cleaned {u : τ} (unmarked : workers.markedDel self ≠ some u) :
      Keeps workers
        ((workers.setState t .zombie).cleanupTaskContext self none) u :=
    (Keeps.setState workers t .zombie).trans (Keeps.cleanup unmarked)
  refine held.dispatch thread ?_ ?_
  · intro other u distinct atHome
    have unmarked : workers.markedDel self ≠ some u := fun marked =>
      distinct (atHome.marked self marked).symm
    have apart : u ≠ t := by
      rintro rfl
      exact distinct (atHome.context.symm.trans home.context)
    have keeps := cleaned unmarked
    constructor
    case context =>
      refine Eq.trans ?_ (workerContext_setState workers t u .zombie)
      exact congrArg (fun task => (task u).workerContext) task
    case alive =>
      intro alive
      have still := keeps.alive alive
      rwa [← history] at still
    case assigned =>
      intro wc member
      apply keeps.assigned
      rwa [← mailbox]
    case migrated =>
      intro wc marked
      apply keeps.migrated
      rwa [← migrated]
    case marked =>
      intro wc marked
      apply keeps.marked
      change (Workers.lpelWorkerSelfTaskExit _ t).markedDel wc = some u at marked
      rw [markedDel] at marked
      by_cases same : wc = self
      · subst same
        rw [Function.update_self] at marked
        exact absurd (Option.some.inj marked).symm apart
      · rwa [Function.update_of_ne same] at marked
  · have unmarked : workers.markedDel self ≠ some t := by
      intro marked
      obtain ⟨here, -⟩ := core.fits_at
        (t := t) (p := .running self) (by simp [Workers.copies, executes.task])
      have there : place t = some (.zombie self) := by
        apply core.located.place_eq
        simp [Workers.copies, marked]
      exact absurd (here.symm.trans there) (by simp)
    have atHome := home.keep (cleaned unmarked)
    constructor
    case context =>
      refine Eq.trans ?_ context
      exact congrArg (fun task => (task t).workerContext) task
    case alive =>
      have alive := atHome.alive
      rwa [← history] at alive
    case unassigned =>
      intro wc member
      apply atHome.unassigned wc
      rwa [← mailbox]
    case unmigrated =>
      intro wc marked
      apply atHome.unmigrated wc
      rwa [← migrated]
    case marked =>
      intro wc marked
      change (Workers.lpelWorkerSelfTaskExit _ t).markedDel wc = some t at marked
      rw [markedDel] at marked
      by_cases same : wc = self
      · exact same
      · rw [Function.update_of_ne same] at marked
        exact atHome.marked wc marked

/-- `LpelWorkerTaskWakeup` sends only a task away that is not in a
dispatcher. -/
theorem Stacks.taskWakeup
    (held : Stacks workers)
    (core : Core workers none none place)
    (mechanism : Mechanism)
    (target : Option (Fin n))
    (position : workers.thread self = .running t)
    (whom : τ) :
    Stacks (workers.lpelWorkerTaskWakeup mechanism target t whom) := by
  have executes := core.executes position
  have sends (wc : Context τ n) : Stacks (workers.sendWakeup wc whom) := by
    refine held.congr rfl ?_
    intro other u _
    exact (Keeps.send (by simp)).trans (Keeps.setBlock _ whom .sent)
  unfold Workers.lpelWorkerTaskWakeup
  rw [executes.context]
  dsimp only
  split
  case isFalse => exact sends _
  case isTrue =>
    split
    case isTrue => exact sends _
    case isFalse sameWorker =>
      have context : (workers.task whom).workerContext = self :=
        (not_ne_iff.mp sameWorker).symm
      intro other u dispatching
      rw [thread_makeTaskReady] at dispatching
      change (workers.thread other).dispatching = some u at dispatching
      have home := held other u dispatching
      -- a task in a dispatcher of the same worker would be on this thread
      have apart : u ≠ whom := by
        rintro rfl
        obtain rfl := home.context.symm.trans context
        rw [position] at dispatching
        exact absurd dispatching (by simp [Pc.dispatching])
      refine home.keep ?_
      refine (Keeps.setBlock workers whom .idle).trans
        (Keeps.trans ?_ (Keeps.makeTaskReady fun same => absurd same apart))
      exact Keeps.setState _ whom .ready |>.trans
        (.ofFields rfl rfl rfl rfl rfl)

/-- `LpelWorkerTaskWakeupLocal`, by the handler of SPMD requests. -/
theorem Stacks.taskWakeupLocal
    (held : Stacks workers)
    {target : Option (Fin n)}
    (context : (workers.task t).workerContext = self)
    (stays : sendsItselfAway mechanism workers (.spmdWakeup self t target) =
      false) :
    Stacks (workers.lpelWorkerTaskWakeupLocal mechanism target self t) := by
  intro other u dispatching
  unfold Workers.lpelWorkerTaskWakeupLocal at dispatching
  rw [thread_makeTaskReady] at dispatching
  change (workers.thread other).dispatching = some u at dispatching
  have home := held other u dispatching
  refine home.keep ?_
  unfold Workers.lpelWorkerTaskWakeupLocal
  refine (Keeps.setBlock workers t .idle).trans
    (Keeps.trans ?_ (Keeps.makeTaskReady ?_))
  · exact Keeps.setState _ t .ready |>.trans (.ofFields rfl rfl rfl rfl rfl)
  · rintro rfl
    obtain rfl := home.context.symm.trans context
    rw [workerContext_setState]
    change sendsAway mechanism target (workers.task u).workerContext = false
    simpa [sendsItselfAway, dispatching] using stays

/-- Every step that does not send a task away from its own stack keeps the tasks
in the dispatchers at home. -/
theorem Stacks.next
    (held : Stacks workers)
    (core : Core workers none none place)
    {label : WorkerLabel τ n}
    (stays : sendsItselfAway mechanism workers label = false)
    (taken : workersNext mechanism workers label = some after) :
    Stacks after := by
  cases workersNext_cases taken with
  | @start t unstarted =>
      refine held.congr rfl ?_
      intro other u home
      have apart : u ≠ t := by
        rintro rfl
        exact absurd (home.alive.1.symm.trans unstarted) (by simp)
      refine Keeps.trans ?_ (Keeps.send (by simpa using Ne.symm apart))
      refine ⟨rfl, ?_, fun _ => id, fun _ => id, fun _ => id⟩
      intro alive
      simpa [Workers.note, Workers.assert, apart] using alive
  | @setPriority t prio =>
      refine held.congr rfl ?_
      intro other u _
      refine ⟨?_, id, fun _ => id, fun _ => id, fun _ => id⟩
      by_cases same : u = t
      · subst same
        simp
      · simp [same]
  | terminate | notify =>
      exact held.congr rfl fun _ _ _ => Keeps.send (by simp)
  | thread taken => exact held.threadStep core stays taken
  | @yield _ target _ _ position current =>
      obtain rfl := core.current_eq position current
      exact held.yield core mechanism target position
  | exit position current =>
      obtain rfl := core.current_eq position current
      exact held.exit core position
  | @checkMigrate _ target _ _ position current =>
      obtain rfl := core.current_eq position current
      exact held.checkMigrate core mechanism target position
  | @commit self t position =>
      refine held.goOn self (.committed t) rfl rfl ?_
      intro other u _ _
      exact (Keeps.setBlock workers t .committed).trans
        (.ofFields rfl rfl rfl rfl rfl)
  | block position => exact held.block core position
  | @wakeup _ whom _ target position _ =>
      exact held.taskWakeup core mechanism target position whom
  | spmdWakeup _ _ context =>
      rw [context]
      exact held.taskWakeupLocal context stays

end Stacks

/-- No task is on its way to a worker while a thread is on its stack, and no two
threads are on one stack. -/
def Workers.OneStackOneWorker (workers : Workers τ n) : Prop :=
  (∀ t wc, .assign t ∈ workers.mailbox wc →
    ∀ self, (workers.thread self).stack ≠ some t) ∧
  ∀ t self other, (workers.thread self).stack = some t →
    (workers.thread other).stack = some t → self = other

/-- The task on whose stack a thread is, is at home. -/
theorem Stacks.atHome
    {workers : Workers τ n}
    {place : τ → Option (Place τ n)}
    (held : Stacks workers)
    (core : Core workers none none place)
    {self : Context τ n}
    {t : τ}
    (stack : (workers.thread self).stack = some t) :
    AtHome workers self t := by
  rw [Pc.stack, Option.or_eq_some_iff] at stack
  obtain executes | ⟨-, dispatching⟩ := stack
  · exact core.atHome executes
  · exact held self t dispatching

omit [DecidableEq τ] in
/-- At the start no thread is in a dispatcher. -/
theorem stacks_workersStart
    (home : τ → Option (Fin n))
    (unset : τ → ℤ) :
    Stacks (workersStart home unset) := by
  intro self t dispatching
  exact absurd dispatching (by simp [workersStart, Pc.dispatching])

/-- Where the tasks in the dispatchers are at home, every task is executed by one
worker at a time. -/
theorem Stacks.oneStack
    {workers : Workers τ n}
    {place : τ → Option (Place τ n)}
    (held : Stacks workers)
    (core : Core workers none none place) :
    workers.OneStackOneWorker := by
  refine ⟨?_, ?_⟩
  · intro t wc assigned self stack
    exact (held.atHome core stack).unassigned wc assigned
  · intro t self other stack stack'
    exact (held.atHome core stack).context.symm.trans
      (held.atHome core stack').context

/-- With `LPEL_MIG_WAIT_PROP` every task is executed by one worker at a time, as
long as no task is sent away in the dispatcher on its own stack. -/
theorem oneStackOneWorker
    {workers : Workers τ n}
    (reached : (workersMachine τ n .waitProp).ReachableBy
      (fun workers label => sendsItselfAway .waitProp workers label = false)
      workers) :
    workers.OneStackOneWorker := by
  have held : workers.Conserved ∧ Stacks workers := by
    refine Machine.ReachableBy.invariant
      (?_ : ∀ workers, (workersMachine τ n .waitProp).init workers →
        workers.Conserved ∧ Stacks workers) ?_ reached
    · rintro _ ⟨home, unset, rfl⟩
      exact ⟨conserved_workersStart home unset, stacks_workersStart home unset⟩
    · rintro workers label after ⟨⟨place, core⟩, held⟩ stays taken
      exact ⟨core.step taken, held.next core stays taken⟩
  obtain ⟨⟨place, core⟩, held⟩ := held
  exact held.oneStack core

section Example

/-- A task blocks on the first worker, and a task of the second one wakes it up
before it has handled its messages. -/
def wokenInDispatcher (first second : Fin 2) : List (WorkerLabel ℕ 2) :=
  let here := WorkerLabel.thread (.worker first) none
  let there := WorkerLabel.thread (.worker second) none
  [.start 5, .start 6, here, here, here, here, here,
    there, there, there, there, there,
    .commit (.worker first), .block (.worker first),
    .wakeup (.worker second) 5 none]

/-- The wakeup is answered with the second worker, which executes the task as
soon as its own one has exited. -/
def sentAway (first second : Fin 2) : List (WorkerLabel ℕ 2) :=
  let there := WorkerLabel.thread (.worker second) none
  wokenInDispatcher first second ++
    [.thread (.worker first) (some second), .exit (.worker second), there, there,
      there]

/-- Two workers are on the stack of one task: one in its dispatcher, and one that
it was sent to from there. -/
theorem oneStackOneWorker_sentAway :
    ∃ workers : Workers ℕ 2,
      (workersMachine ℕ 2 .waitProp).Reachable workers ∧
      workers.thread (.worker 0) = .dispatcher (.worker 0) 5 ∧
      workers.thread (.worker 1) = .resume 5 ∧
      ¬ workers.OneStackOneWorker := by
  obtain ⟨workers, reached, tested⟩ := Machine.exists_reachable_of_run
    (⟨_, _, rfl⟩ : (workersMachine ℕ 2 .waitProp).init
      (workersStart (fun t => if t = 5 then some 0 else some 1) (fun _ => 0)))
    (by decide : ((workersMachine ℕ 2 .waitProp).run
      (workersStart (fun t => if t = 5 then some 0 else some 1) (fun _ => 0))
      (sentAway 0 1)).map (fun workers => decide (
        workers.thread (.worker 0) = .dispatcher (.worker 0) 5 ∧
        workers.thread (.worker 1) = .resume 5)) = some true)
  obtain ⟨dispatches, resumes⟩ := of_decide_eq_true tested
  refine ⟨workers, reached, dispatches, resumes, ?_⟩
  rintro ⟨-, unique⟩
  have same := unique 5 (.worker 0) (.worker 1) (by rw [dispatches]; rfl)
    (by rw [resumes]; rfl)
  exact absurd same (by decide)

/-- The same task stays where it is, and then migrates in a yield. -/
theorem oneStackOneWorker_yielded :
    ∃ workers : Workers ℕ 2, workers.mailbox (.worker 1) = [.assign 5] ∧
      workers.OneStackOneWorker := by
  obtain ⟨workers, reached, tested⟩ := Machine.exists_reachableBy_of_runBy
    (⟨_, _, rfl⟩ : (workersMachine ℕ 2 .waitProp).init
      (workersStart (fun t => if t = 5 then some 0 else some 1) (fun _ => 0)))
    (by decide : ((workersMachine ℕ 2 .waitProp).runBy
      (fun workers label => !sendsItselfAway .waitProp workers label)
      (workersStart (fun t => if t = 5 then some 0 else some 1) (fun _ => 0))
      (wokenInDispatcher 0 1 ++ [.thread (.worker 0) none,
        .thread (.worker 0) none, .thread (.worker 0) none,
        .thread (.worker 0) none, .yield (.worker 0) (some 1),
        .thread (.worker 0) none])).map (fun workers => decide (
          workers.mailbox (.worker 1) = [.assign 5])) = some true)
  refine ⟨workers, of_decide_eq_true tested, oneStackOneWorker (reached.mono ?_)⟩
  intro workers label stays
  simpa using stays

end Example

end Decen
end Lpel
