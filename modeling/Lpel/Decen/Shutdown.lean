import Lpel.Decen.Stacks

/-!
# Shutting the workers down

A worker leaves its loop when it has been told to terminate and counts no task.
The test looks at the counter of the worker only.  A task that another worker
starts, migrates or hands off to it later is counted by neither side and stays
in the mailbox of a worker that has stopped, where the assertions of
`LpelMailboxDestroy` find it.
-/

namespace Lpel
namespace Decen

variable {τ : Type} {n : ℕ} [DecidableEq τ]

/-- The worker has left `WorkerLoop`. -/
def Workers.hasLeft (workers : Workers τ n) (wc : Context τ n) : Bool :=
  wc.isWorker ∧ workers.thread wc = .left

/-- `LpelWorkerMakeTaskReady` sends a task of the given worker to one that has
left. -/
def Workers.sendsToLeft
    (workers : Workers τ n)
    (mechanism : Mechanism)
    (target : Option (Fin n))
    (wc : Context τ n) : Bool :=
  match target with
  | some wid =>
      sendsAway mechanism (some wid) wc ∧ workers.hasLeft (.worker wid)
  | none => false

/-- The thread receives a message in its next step. -/
def Pc.receives : Pc τ n → Bool
  | .wait | .drain | .dispatcher _ _ => true
  | _ => false

/-- A step sends a message to a worker that has left its loop: it starts a task,
hands one off or makes one ready there, or it repeats the termination or issues
an SPMD request. -/
def reachesLeft (mechanism : Mechanism) (workers : Workers τ n) :
    WorkerLabel τ n → Bool
  | .start t => workers.hasLeft (workers.task t).workerContext
  | .terminate wid | .notify wid => workers.hasLeft (.worker wid)
  | .thread self target =>
      match workers.thread self with
      | .back =>
          match workers.migrated self with
          | some t =>
              self.isWorker ∧ workers.hasLeft (workers.task t).workerContext
          | none => false
      | pc =>
          match (workers.mailbox self).head? with
          | some (.wakeup _) =>
              pc.receives ∧ workers.sendsToLeft mechanism target self
          | _ => false
  | .wakeup self whom target =>
      (workers.task whom).workerContext = self ∧
        workers.sendsToLeft mechanism target self
  | .spmdWakeup self _ target => workers.sendsToLeft mechanism target self
  | _ => false

/-- A worker that has left has no message and counts no task. -/
def LeftEmpty (workers : Workers τ n) : Prop :=
  ∀ wid, workers.thread (.worker wid) = .left →
    workers.mailbox (.worker wid) = [] ∧ workers.numTasks (.worker wid) = 0

/-- Nothing happens to a worker. -/
structure Untouched (workers after : Workers τ n) (wc : Context τ n) :
    Prop where
  mailbox : after.mailbox wc = workers.mailbox wc
  numTasks : after.numTasks wc = workers.numTasks wc

namespace Untouched

variable {workers after last : Workers τ n} {t : τ} {wc self : Context τ n}

omit [DecidableEq τ] in
theorem trans
    (first : Untouched workers after wc)
    (second : Untouched after last wc) :
    Untouched workers last wc :=
  ⟨second.mailbox.trans first.mailbox, second.numTasks.trans first.numTasks⟩

omit [DecidableEq τ] in
theorem ofFields
    (mailbox : after.mailbox = workers.mailbox)
    (numTasks : after.numTasks = workers.numTasks) :
    Untouched workers after wc :=
  ⟨by rw [mailbox], by rw [numTasks]⟩

theorem send
    {target : Context τ n}
    {msg : WorkerMsg τ}
    (other : wc ≠ target) :
    Untouched workers (workers.send target msg) wc :=
  ⟨by simp [Workers.send, other], rfl⟩

theorem uncount
    (other : wc ≠ self) :
    Untouched workers (workers.uncount self t) wc :=
  ⟨rfl, by simp [Workers.uncount, other]⟩

/-- A task of another worker is made ready, here or on a third one. -/
theorem makeTaskReady
    {mechanism : Mechanism}
    {target : Option (Fin n)}
    (other : wc ≠ (workers.task t).workerContext)
    (elsewhere : ∀ wid, target = some wid →
      sendsAway mechanism target (workers.task t).workerContext = true →
        wc ≠ .worker wid) :
    Untouched workers (workers.lpelWorkerMakeTaskReady mechanism target t)
      wc := by
  unfold Workers.lpelWorkerMakeTaskReady
  dsimp only
  split
  case h_1 wid =>
    split
    case isTrue leaves =>
      refine trans ?_ (send (elsewhere wid rfl (decide_eq_true leaves)))
      exact ⟨rfl, by simp [Workers.uncount, Workers.setContext,
        Workers.assert, other]⟩
    case isFalse => exact ofFields rfl rfl
  case h_2 => exact ofFields rfl rfl

theorem cleanup (workers : Workers τ n) (self wc : Context τ n) :
    Untouched workers (workers.cleanupTaskContext self none) wc := by
  unfold Workers.cleanupTaskContext
  cases workers.markedDel self with
  | none => exact ofFields rfl rfl
  | some u => exact ofFields rfl rfl

theorem handOff
    (other : wc ≠ self)
    (elsewhere : ∀ u, workers.migrated self = some u →
      wc ≠ (workers.task u).workerContext) :
    Untouched workers (workers.handOff self) wc := by
  unfold Workers.handOff
  cases migrating : workers.migrated self with
  | none => exact ofFields rfl rfl
  | some u =>
      have sent : Untouched workers
          ((workers.sendAssign (workers.task u).workerContext u).uncount self u)
          wc :=
        (send (elsewhere u migrating)).trans (uncount other)
      exact ⟨sent.mailbox, sent.numTasks⟩

theorem dispatcher (workers : Workers τ n) (self : Context τ n) (t : τ) :
    Untouched workers (workers.lpelWorkerDispatcher self t) wc := by
  unfold Workers.lpelWorkerDispatcher
  dsimp only
  split
  · exact ofFields rfl rfl
  · exact ofFields rfl rfl

theorem putReady
    (workers : Workers τ n)
    (self : Context τ n)
    (t : τ)
    (wc : Context τ n) :
    Untouched workers (workers.putReady self t) wc := by
  unfold Workers.putReady
  split
  · exact ofFields rfl rfl
  · exact ofFields rfl rfl

/-- `ProcessMessage` of another worker. -/
theorem processMessage
    {mechanism : Mechanism}
    {target : Option (Fin n)}
    {msg : WorkerMsg τ}
    (other : wc ≠ self)
    (woken : ∀ u, msg = .wakeup u → (workers.task u).workerContext = self)
    (elsewhere : ∀ u wid, msg = .wakeup u → target = some wid →
      sendsAway mechanism target self = true → wc ≠ .worker wid) :
    Untouched workers (workers.processMessage mechanism target self msg) wc := by
  cases msg with
  | terminate => exact ofFields rfl rfl
  | spmdreq => exact ofFields rfl rfl
  | wakeup u =>
      have context := woken u rfl
      dsimp only [Workers.processMessage]
      split
      case isTrue =>
        refine trans ?_ (makeTaskReady ?_ ?_)
        · exact ofFields rfl rfl
        · rw [workerContext_setState]
          exact fun same => other (same.trans context)
        · rw [workerContext_setState]
          intro wid asked leaves
          refine elsewhere u wid rfl asked ?_
          rw [← context]
          exact leaves
      case isFalse => exact ofFields rfl rfl
  | assign u =>
      have counted {before : Workers τ n} (kept : Untouched workers before wc) :
          Untouched workers ((before.countAssign self u).putReady self u) wc := by
        refine kept.trans (trans ?_ (putReady _ self u wc))
        exact ⟨rfl, by simp [Workers.countAssign, other]⟩
      dsimp only [Workers.processMessage]
      split
      case isTrue => exact counted (ofFields rfl rfl)
      case isFalse => exact counted (ofFields rfl rfl)

end Untouched

section Steps

variable {workers after : Workers τ n} {mechanism : Mechanism}
variable {place : τ → Option (Place τ n)} {t : τ} {wc self : Context τ n}

/-- A wakeup is for a task of the worker that receives it. -/
theorem Core.woken
    (core : Core workers none none place)
    (member : .wakeup t ∈ workers.mailbox wc) :
    (workers.task t).workerContext = wc := by
  have wakes := core.wakes t wc
  by_contra elsewhere
  rw [if_neg fun both => elsewhere both.2] at wakes
  exact absurd wakes (List.count_pos_iff.mpr member).ne'

/-- Another worker receives a message that does not send a task here. -/
theorem Core.untouched_receive
    (core : Core workers none none place)
    {target : Option (Fin n)}
    (received : workers.receive mechanism target self = some after)
    (other : wc ≠ self)
    (elsewhere : ∀ u wid, (workers.mailbox self).head? = some (.wakeup u) →
      target = some wid → sendsAway mechanism target self = true →
        wc ≠ .worker wid) :
    Untouched workers after wc := by
  unfold Workers.receive at received
  cases mail : workers.mailbox self with
  | nil => simp [mail] at received
  | cons msg rest =>
      simp only [mail, Option.some.injEq] at received
      subst received
      have taken : Untouched workers
          { workers with mailbox := Function.update workers.mailbox self rest }
          wc :=
        ⟨by simp [other], rfl⟩
      refine taken.trans (Untouched.processMessage other ?_ ?_)
      · rintro u rfl
        exact core.woken (by rw [mail]; exact List.mem_cons_self)
      · rintro u wid rfl
        exact elsewhere u wid (by rw [mail]; rfl)

omit [DecidableEq τ] in
/-- A step of one thread that does not concern the workers that have left. -/
theorem LeftEmpty.step
    [DecidableEq τ]
    (empty : LeftEmpty workers)
    (self : Context τ n)
    (thread : ∀ other, other ≠ self → after.thread other = workers.thread other)
    (kept : ∀ wid, .worker wid ≠ self → workers.hasLeft (.worker wid) = true →
      Untouched workers after (.worker wid))
    (own : ∀ wid, self = .worker wid → after.thread self = .left →
      after.mailbox self = [] ∧ after.numTasks self = 0) :
    LeftEmpty after := by
  intro wid left
  by_cases same : Context.worker wid = self
  · subst same
    exact own wid rfl left
  · rw [thread _ same] at left
    obtain ⟨noMail, noTask⟩ := empty wid left
    have untouched := kept wid same (by simp [Workers.hasLeft, left,
      Context.isWorker])
    exact ⟨untouched.mailbox.trans noMail, untouched.numTasks.trans noTask⟩

/-- A thread goes on in its loop or in a task. -/
theorem LeftEmpty.goOn
    (empty : LeftEmpty workers)
    (self : Context τ n)
    (pc : Pc τ n)
    (stays : pc ≠ .left)
    (thread : after.thread = Function.update workers.thread self pc)
    (kept : ∀ wid, .worker wid ≠ self → workers.hasLeft (.worker wid) = true →
      Untouched workers after (.worker wid)) :
    LeftEmpty after := by
  refine empty.step self ?_ kept ?_
  · intro other distinct
    rw [thread, Function.update_of_ne distinct]
  · intro wid _ left
    rw [thread, Function.update_self] at left
    exact absurd left stays

/-- A step that moves no thread. -/
theorem LeftEmpty.congr
    (empty : LeftEmpty workers)
    (thread : after.thread = workers.thread)
    (kept : ∀ wid, workers.hasLeft (.worker wid) = true →
      Untouched workers after (.worker wid)) :
    LeftEmpty after := by
  intro wid left
  rw [thread] at left
  obtain ⟨noMail, noTask⟩ := empty wid left
  have untouched := kept wid (by simp [Workers.hasLeft, left, Context.isWorker])
  exact ⟨untouched.mailbox.trans noMail, untouched.numTasks.trans noTask⟩

/-- A worker that has left is not the target of a migration that is safe. -/
theorem ne_target
    {target : Option (Fin n)}
    (safe : workers.sendsToLeft mechanism target self = false)
    {wid : Fin n}
    (left : workers.hasLeft (.worker wid) = true)
    (wid' : Fin n)
    (asked : target = some wid')
    (leaves : sendsAway mechanism target self = true) :
    (.worker wid : Context τ n) ≠ .worker wid' := by
  intro same
  rw [same] at left
  subst asked
  simp [Workers.sendsToLeft, leaves, left] at safe

theorem sendsToLeft_of_receives
    {target : Option (Fin n)}
    {u : τ}
    (safe : reachesLeft mechanism workers (.thread self target) = false)
    (receives : (workers.thread self).receives = true)
    (head : (workers.mailbox self).head? = some (.wakeup u)) :
    workers.sendsToLeft mechanism target self = false := by
  cases position : workers.thread self <;>
    simp_all [reachesLeft, Pc.receives]

/-- A message is received that does not send a task to a worker that has
left. -/
theorem Core.kept_receive
    (core : Core workers none none place)
    {target : Option (Fin n)}
    (safe : reachesLeft mechanism workers (.thread self target) = false)
    (receives : (workers.thread self).receives = true)
    (received : workers.receive mechanism target self = some after)
    (wid : Fin n)
    (other : .worker wid ≠ self)
    (left : workers.hasLeft (.worker wid) = true) :
    Untouched workers after (.worker wid) := by
  refine core.untouched_receive received other ?_
  intro u wid' head asked leaves
  exact ne_target (sendsToLeft_of_receives safe receives head) left wid' asked
    leaves

/-- The steps of a thread outside the functions of tasks.  A worker leaves its
loop when its mailbox is empty and it counts no task. -/
theorem LeftEmpty.threadStep
    (empty : LeftEmpty workers)
    (core : Core workers none none place)
    {target : Option (Fin n)}
    (safe : reachesLeft mechanism workers (.thread self target) = false)
    (taken : workers.threadNext mechanism target self = some after) :
    LeftEmpty after := by
  cases threadNext_cases taken with
  | fetch _ fetched | fetchNone _ fetched | pickSame _ fetched
  | pick _ fetched | pickNone _ fetched =>
      obtain ⟨-, rfl⟩ := Prod.mk.inj fetched
      exact empty.goOn self _ (by simp) rfl fun _ _ _ => .ofFields rfl rfl
  | takeWraptask | noWraptask | again | taskStart | dispatched
  | backWrapper =>
      exact empty.goOn self _ (by simp) rfl fun _ _ _ => .ofFields rfl rfl
  | wait position received =>
      obtain ⟨-, thread⟩ := core.receive (by rw [position]; rfl) received
      refine empty.goOn self .drain (by simp) (by rw [← thread]; rfl) ?_
      intro wid other left
      exact (core.kept_receive safe (by rw [position]; rfl) received wid other
        left).trans (.ofFields rfl rfl)
  | drain position received =>
      obtain ⟨-, thread⟩ := core.receive (by rw [position]; rfl) received
      refine empty.goOn self .drain (by simp) ?_
        (core.kept_receive safe (by rw [position]; rfl) received)
      rw [thread, ← position, Function.update_eq_self]
  | leaveWorker position noMessage isWorker counted =>
      have noMail : workers.mailbox self = [] := by
        unfold Workers.receive at noMessage
        cases mail : workers.mailbox self with
        | nil => rfl
        | cons msg rest => simp [mail] at noMessage
      refine empty.step self ?_ (fun _ _ _ => .ofFields rfl rfl) ?_
      · intro other distinct
        exact Function.update_of_ne distinct _ _
      · intro wid _ _
        exact ⟨noMail, counted⟩
  | leaveWrapper position _ isWrapper =>
      refine empty.step self ?_ ?_ ?_
      · intro other distinct
        rw [← thread_cleanup workers self]
        exact Function.update_of_ne distinct _ _
      · intro wid _ _
        exact (Untouched.cleanup workers self _).trans (.ofFields rfl rfl)
      · rintro wid rfl
        cases isWrapper
  | @dispatcher wc t _ position received =>
      obtain ⟨rfl, -⟩ := core.dispatches (.inl position)
      obtain ⟨-, thread⟩ := core.receive (by rw [position]; rfl) received
      refine empty.goOn wc (.dispatcher wc t) (by simp) ?_
        (core.kept_receive safe (by rw [position]; rfl) received)
      rw [thread, ← position, Function.update_eq_self]
  | backWorker position isWorker =>
      refine empty.goOn self .drain (by simp) ?_ ?_
      · rw [← thread_handOff workers self,
          ← thread_cleanup (workers.handOff self) self]
        rfl
      · intro wid other left
        have elsewhere (u : τ) (migrating : workers.migrated self = some u) :
            .worker wid ≠ (workers.task u).workerContext := by
          intro same
          rw [same] at left
          simp [reachesLeft, position, migrating, isWorker, left] at safe
        exact (Untouched.handOff other elsewhere).trans
          ((Untouched.cleanup _ self _).trans (.ofFields rfl rfl))

/-- A task stops. -/
theorem LeftEmpty.dispatch
    (empty : LeftEmpty workers)
    {before : Workers τ n}
    (thread : before.thread = workers.thread)
    (kept : ∀ wid, .worker wid ≠ self → workers.hasLeft (.worker wid) = true →
      Untouched workers before (.worker wid)) :
    LeftEmpty (before.lpelWorkerDispatcher self t) := by
  have untouched (wid : Fin n) (other : .worker wid ≠ self)
      (left : workers.hasLeft (.worker wid) = true) :=
    (kept wid other left).trans (Untouched.dispatcher before self t)
  revert untouched
  unfold Workers.lpelWorkerDispatcher
  dsimp only
  split
  case isTrue =>
    intro untouched
    exact empty.goOn self (.dispatcher _ t) (by simp) (by rw [← thread]; rfl)
      untouched
  case isFalse =>
    intro untouched
    exact empty.goOn self .back (by simp) (by rw [← thread]; rfl) untouched

/-- A task leaves itself to the loop. -/
theorem LeftEmpty.selfTaskMigrate
    (empty : LeftEmpty workers)
    (self : Context τ n)
    (t : τ)
    (wid : Fin n) :
    LeftEmpty ((workers.setState t .ready).lpelWorkerSelfTaskMigrate self t
      wid) := by
  unfold Workers.lpelWorkerSelfTaskMigrate
  dsimp only
  split
  · exact empty.goOn self _ (by simp) rfl fun _ _ _ => .ofFields rfl rfl
  · exact empty.goOn self _ (by simp) rfl fun _ _ _ => .ofFields rfl rfl

theorem LeftEmpty.yield
    (empty : LeftEmpty workers)
    (core : Core workers none none place)
    (mechanism : Mechanism)
    (target : Option (Fin n))
    (position : workers.thread self = .running t) :
    LeftEmpty (workers.lpelTaskYield mechanism target self t) := by
  have executes := core.executes position
  have stays : LeftEmpty ((((workers.setState t .ready).putReady
      ((workers.setState t .ready).task t).workerContext t).taskStop
        t).lpelWorkerDispatcher self t) := by
    refine empty.dispatch ?_ ?_
    · unfold Workers.putReady
      split
      · rfl
      · rfl
    · intro wid _ _
      have queued := Untouched.putReady (workers.setState t .ready)
        ((workers.setState t .ready).task t).workerContext t (.worker wid)
      exact ⟨queued.mailbox, queued.numTasks⟩
  unfold Workers.lpelTaskYield
  rw [assert_of (decide_eq_true executes.state)]
  dsimp only
  split
  case h_1 wid =>
    split
    case isTrue =>
      rw [taskStop_of (by simp [Workers.setState])]
      exact empty.selfTaskMigrate self t wid
    case isFalse => exact stays
  case h_2 => exact stays

theorem LeftEmpty.checkMigrate
    (empty : LeftEmpty workers)
    (core : Core workers none none place)
    (mechanism : Mechanism)
    (target : Option (Fin n))
    (position : workers.thread self = .running t) :
    LeftEmpty (workers.lpelTaskCheckMigrate mechanism target self t) := by
  have executes := core.executes position
  unfold Workers.lpelTaskCheckMigrate
  split
  case isTrue => exact empty
  case isFalse =>
    rw [assert_of (decide_eq_true executes.state)]
    cases target with
    | none => exact empty
    | some wid =>
        dsimp only
        split
        case isTrue => exact empty
        case isFalse =>
          rw [taskStop_of (by simp [Workers.setState])]
          exact empty.selfTaskMigrate self t wid

theorem LeftEmpty.exit
    (empty : LeftEmpty workers)
    (core : Core workers none none place)
    (position : workers.thread self = .running t) :
    LeftEmpty (workers.lpelTaskExit self t) := by
  have executes := core.executes position
  have context : ((workers.setState t .zombie).task t).workerContext = self := by
    rw [workerContext_setState]
    exact executes.context
  unfold Workers.lpelTaskExit
  rw [assert_of (decide_eq_true executes.state)]
  dsimp only
  refine empty.dispatch ?_ ?_
  · have fields := selfTaskExit_fields (workers.setState t .zombie) t
    dsimp only at fields
    rw [thread_cleanup] at fields
    exact fields.2.1
  · intro wid other _
    have cleaned := Untouched.cleanup (workers.setState t .zombie) self
      (.worker wid)
    have uncounted := cleaned.trans (Untouched.uncount (t := t) other)
    unfold Workers.lpelWorkerSelfTaskExit
    rw [context]
    dsimp only
    split
    · exact ⟨uncounted.mailbox, uncounted.numTasks⟩
    · exact ⟨uncounted.mailbox, uncounted.numTasks⟩

/-- A worker that counts a task has not left. -/
theorem Core.not_left_of_owner
    (core : Core workers none none place)
    (empty : LeftEmpty workers)
    {p : Place τ n}
    (at_ : place t = some p)
    (counts : p.owner = some wc) :
    workers.hasLeft wc = false := by
  by_contra left
  cases wc with
  | wrapper u =>
      exact left (by simp [Workers.hasLeft, Context.isWorker])
  | worker wid =>
      have member : t ∈ workers.owned (.worker wid) := by
        rw [core.owned]
        simp [holder, at_, counts]
      have position : workers.thread (.worker wid) = .left := by
        simpa [Workers.hasLeft, Context.isWorker] using left
      have counted := core.counted wid
      rw [(empty wid position).2] at counted
      have positive := Finset.card_pos.mpr ⟨t, member⟩
      omega

/-- A task that waits for its wakeup belongs to a worker that counts it. -/
theorem Core.not_left_of_waits
    (core : Core workers none none place)
    (empty : LeftEmpty workers)
    (waits : (workers.history t).block ≠ .idle) :
    workers.hasLeft (workers.task t).workerContext = false := by
  have fits := core.fits t (by simp)
  cases at_ : place t with
  | none =>
      rw [at_] at fits
      exact absurd fits.block waits
  | some p =>
      rw [at_] at fits
      obtain ⟨-, fits⟩ := fits
      cases p with
      | blocked other =>
          have context : (workers.task t).workerContext = other := fits.2.2
          exact core.not_left_of_owner empty at_ (by rw [context]; rfl)
      | running other =>
          have context : (workers.task t).workerContext = other := fits.1
          exact core.not_left_of_owner empty at_ (by rw [context]; rfl)
      | assigned other => exact absurd fits.2.1 waits
      | ready other => exact absurd fits.2.1 waits
      | migrated other => exact absurd fits.2.1 waits
      | zombie other => exact absurd fits.2 waits

theorem LeftEmpty.taskWakeup
    (empty : LeftEmpty workers)
    (core : Core workers none none place)
    {target : Option (Fin n)}
    {whom : τ}
    (safe : reachesLeft mechanism workers (.wakeup self whom target) = false)
    (position : workers.thread self = .running t)
    (committed : (workers.history whom).block = .committed) :
    LeftEmpty (workers.lpelWorkerTaskWakeup mechanism target t whom) := by
  have executes := core.executes position
  have here := core.not_left_of_waits empty
    (by rw [committed]; simp : (workers.history whom).block ≠ .idle)
  have sends : LeftEmpty
      (workers.sendWakeup (workers.task whom).workerContext whom) := by
    refine empty.congr rfl ?_
    intro wid left
    refine Untouched.trans (Untouched.send ?_) (.ofFields rfl rfl)
    intro same
    rw [← same, left] at here
    exact absurd here (by simp)
  unfold Workers.lpelWorkerTaskWakeup
  rw [executes.context]
  dsimp only
  split
  case isFalse => exact sends
  case isTrue =>
    split
    case isTrue => exact sends
    case isFalse sameWorker =>
      have context : (workers.task whom).workerContext = self :=
        (not_ne_iff.mp sameWorker).symm
      have safe' : workers.sendsToLeft mechanism target self = false := by
        simpa [reachesLeft, context] using safe
      refine empty.congr (thread_makeTaskReady ..) ?_
      intro wid left
      refine Untouched.trans ?_ (Untouched.makeTaskReady ?_ ?_)
      · exact .ofFields rfl rfl
      · rw [workerContext_setState]
        intro same
        rw [same] at left
        exact absurd (left.symm.trans here) (by simp)
      · rw [workerContext_setState]
        intro wid' asked leaves
        exact ne_target safe' left wid' asked (by rw [← context]; exact leaves)

theorem LeftEmpty.taskWakeupLocal
    (empty : LeftEmpty workers)
    {target : Option (Fin n)}
    (safe : workers.sendsToLeft mechanism target self = false)
    (handles : (workers.thread self).handlesSpmd = true)
    (context : (workers.task t).workerContext = self) :
    LeftEmpty (workers.lpelWorkerTaskWakeupLocal mechanism target self t) := by
  unfold Workers.lpelWorkerTaskWakeupLocal
  refine empty.congr (thread_makeTaskReady ..) ?_
  intro wid left
  refine Untouched.trans ?_ (Untouched.makeTaskReady ?_ ?_)
  · exact .ofFields rfl rfl
  · rw [workerContext_setState]
    intro same
    change Context.worker wid = (workers.task t).workerContext at same
    have position : workers.thread self = .left := by
      rw [← context, ← same]
      simpa [Workers.hasLeft, Context.isWorker] using left
    rw [position] at handles
    exact absurd handles (by simp [Pc.handlesSpmd])
  · rw [workerContext_setState]
    intro wid' asked leaves
    refine ne_target safe left wid' asked ?_
    rw [← context]
    exact leaves

/-- Every step that sends no message to a worker that has left keeps it
empty. -/
theorem LeftEmpty.next
    (empty : LeftEmpty workers)
    (core : Core workers none none place)
    {label : WorkerLabel τ n}
    (safe : reachesLeft mechanism workers label = false)
    (taken : workersNext mechanism workers label = some after) :
    LeftEmpty after := by
  cases workersNext_cases taken with
  | @start t _ =>
      refine empty.congr rfl ?_
      intro wid left
      have other : .worker wid ≠ (workers.task t).workerContext := by
        intro same
        rw [same] at left
        exact absurd (left.symm.trans safe) (by simp)
      have sent : Untouched workers
          (workers.send (workers.task t).workerContext (.assign t))
          (.worker wid) :=
        Untouched.send other
      exact ⟨sent.mailbox, sent.numTasks⟩
  | setPriority => exact empty.congr rfl fun _ _ => .ofFields rfl rfl
  | terminate | notify =>
      refine empty.congr rfl ?_
      intro wid' left
      refine Untouched.send ?_
      intro same
      rw [same] at left
      exact absurd (left.symm.trans safe) (by simp)
  | thread taken => exact empty.threadStep core safe taken
  | @yield _ target _ _ position current =>
      obtain rfl := core.current_eq position current
      exact empty.yield core mechanism target position
  | exit position current =>
      obtain rfl := core.current_eq position current
      exact empty.exit core position
  | @checkMigrate _ target _ _ position current =>
      obtain rfl := core.current_eq position current
      exact empty.checkMigrate core mechanism target position
  | @commit self _ _ =>
      exact empty.goOn self _ (by simp) rfl fun _ _ _ => .ofFields rfl rfl
  | block => exact empty.dispatch rfl fun _ _ _ => .ofFields rfl rfl
  | wakeup position committed =>
      exact empty.taskWakeup core safe position committed
  | spmdWakeup handles _ context =>
      rw [context]
      exact empty.taskWakeupLocal safe handles context

end Steps

/-- The assertion of `LpelMailboxDestroy`. -/
def Workers.mailboxDestroyed (workers : Workers τ n) (wc : Context τ n) : Bool :=
  workers.mailbox wc = []

/-- The assertions of `LpelSchedDestroy`. -/
def lpelSchedDestroy (sc : Schedctx τ) : Bool :=
  ∀ i, (sc.queue i).length = 0

/-- The worker can be cleaned up: the assertions on its mailbox and its ready
queues hold, and no task is left with it. -/
structure Workers.Deserted
    (workers : Workers τ n)
    (wid : Fin n) : Prop where
  mailbox : workers.mailboxDestroyed (.worker wid) = true
  sched : lpelSchedDestroy (workers.sched (.worker wid)) = true
  tasks : ∀ t p, workers.copies t p ≠ 0 →
    p.context ≠ some (.worker wid) ∧ p.owner ≠ some (.worker wid)

/-- A worker that counts no task has none. -/
theorem Core.owner_ne
    {workers : Workers τ n}
    {place : τ → Option (Place τ n)}
    {wid : Fin n}
    (core : Core workers none none place)
    (noTask : workers.numTasks (.worker wid) = 0)
    {t : τ}
    {p : Place τ n}
    (present : workers.copies t p ≠ 0) :
    p.owner ≠ some (.worker wid) := by
  intro counts
  have member : t ∈ workers.owned (.worker wid) := by
    rw [core.owned]
    simp [holder, core.located.place_eq present, counts]
  have counted := core.counted wid
  have positive := Finset.card_pos.mpr ⟨t, member⟩
  omega

/-- A worker without messages that counts no task can be cleaned up. -/
theorem Core.deserted
    {workers : Workers τ n}
    {place : τ → Option (Place τ n)}
    {wid : Fin n}
    (core : Core workers none none place)
    (noMail : workers.mailbox (.worker wid) = [])
    (noTask : workers.numTasks (.worker wid) = 0) :
    workers.Deserted wid := by
  refine ⟨?_, ?_, ?_⟩
  · simp [Workers.mailboxDestroyed, noMail]
  · rw [lpelSchedDestroy, decide_eq_true_iff]
    intro i
    rw [List.length_eq_zero_iff, List.eq_nil_iff_forall_not_mem]
    intro t queued
    have present : workers.copies t (.ready (.worker wid)) ≠ 0 := by
      have positive := List.count_pos_iff.mpr queued
      rw [Workers.copies, Schedctx.count,
        ← Finset.add_sum_erase _ _ (Finset.mem_univ i)]
      omega
    exact core.owner_ne noTask present rfl
  · intro t p present
    have counts := core.owner_ne noTask present
    refine ⟨?_, counts⟩
    intro here
    cases p with
    | assigned wc =>
        obtain rfl := Option.some.inj here
        simp [Workers.copies, noMail] at present
    | ready wc | running wc | blocked wc => exact counts here
    | migrated wc | zombie wc => exact absurd here (by simp [Place.context])

/-- Every worker that has left its loop can be cleaned up, as long as no step
sends a message to a worker that has left. -/
theorem shutdownLosesNoTask
    {mechanism : Mechanism}
    {workers : Workers τ n}
    (reached : (workersMachine τ n mechanism).ReachableBy
      (fun workers label => reachesLeft mechanism workers label = false)
      workers)
    {wid : Fin n}
    (left : workers.thread (.worker wid) = .left) :
    workers.Deserted wid := by
  have held : workers.Conserved ∧ LeftEmpty workers := by
    refine Machine.ReachableBy.invariant
      (?_ : ∀ workers, (workersMachine τ n mechanism).init workers →
        workers.Conserved ∧ LeftEmpty workers) ?_ reached
    · rintro _ ⟨home, unset, rfl⟩
      refine ⟨conserved_workersStart home unset, ?_⟩
      intro wid left
      exact absurd left (by simp [workersStart])
    · rintro workers label after ⟨⟨place, core⟩, empty⟩ safe taken
      exact ⟨core.step taken, empty.next core safe taken⟩
  obtain ⟨⟨place, core⟩, empty⟩ := held
  obtain ⟨noMail, noTask⟩ := empty wid left
  exact core.deserted noMail noTask

section Example

/-- Both workers are told to terminate while a task runs on the first one.  The
second worker has no task and leaves. -/
def terminated (first second : Fin 2) : List (WorkerLabel ℕ 2) :=
  let here := WorkerLabel.thread (.worker first) none
  let there := WorkerLabel.thread (.worker second) none
  [.start 5, here, here, here, here, here,
    .terminate first, .terminate second, there, there, there]

/-- The running task then migrates to the worker that has left. -/
def migratesToLeft (first second : Fin 2) : List (WorkerLabel ℕ 2) :=
  terminated first second ++
    [.checkMigrate (.worker first) (some second), .thread (.worker first) none]

/-- A running task is stranded in the mailbox of a worker that has stopped, where
`LpelMailboxDestroy` fails. -/
theorem shutdownLosesNoTask_migrated :
    ∃ workers : Workers ℕ 2,
      (workersMachine ℕ 2 .rand).Reachable workers ∧
      workers.thread (.worker 1) = .left ∧
      workers.mailbox (.worker 1) = [.assign 5] ∧
      ¬ workers.Deserted 1 := by
  obtain ⟨workers, reached, tested⟩ := Machine.exists_reachable_of_run
    (⟨_, _, rfl⟩ : (workersMachine ℕ 2 .rand).init
      (workersStart (fun _ => some 0) (fun _ => 0)))
    (by decide : ((workersMachine ℕ 2 .rand).run
      (workersStart (fun _ => some 0) (fun _ => 0)) (migratesToLeft 0 1)).map
        (fun workers => decide (workers.thread (.worker 1) = .left ∧
          workers.mailbox (.worker 1) = [.assign 5])) = some true)
  obtain ⟨left, mail⟩ := of_decide_eq_true tested
  refine ⟨workers, reached, left, mail, ?_⟩
  intro deserted
  have empty := deserted.mailbox
  simp [Workers.mailboxDestroyed, mail] at empty

/-- The running task stays on the first worker and exits there. -/
theorem shutdownLosesNoTask_exited :
    ∃ workers : Workers ℕ 2, (workers.task 5).state = .zombie ∧
      workers.thread (.worker 1) = .left ∧ workers.Deserted 1 := by
  obtain ⟨workers, reached, tested⟩ := Machine.exists_reachableBy_of_runBy
    (⟨_, _, rfl⟩ : (workersMachine ℕ 2 .rand).init
      (workersStart (fun _ => some 0) (fun _ => 0)))
    (by decide : ((workersMachine ℕ 2 .rand).runBy
      (fun workers label => !reachesLeft .rand workers label)
      (workersStart (fun _ => some 0) (fun _ => 0))
      (terminated 0 1 ++ [.exit (.worker 0)])).map (fun workers => decide (
        (workers.task 5).state = .zombie ∧
        workers.thread (.worker 1) = .left)) = some true)
  obtain ⟨exited, left⟩ := of_decide_eq_true tested
  refine ⟨workers, exited, left, shutdownLosesNoTask (reached.mono ?_) left⟩
  intro workers label safe
  simpa using safe

end Example

end Decen
end Lpel
