import Lpel.Hrc.SchedWakeup

/-!
# Shutting the master down

The master leaves its loop when it has been told to terminate and its ready
queue is empty, whatever the workers do at that time.  It then tells the workers
to terminate, and what they still send to it is left to `cleanupMasterMb`, which
expects requests and returned tasks that have exited.  A task that yields or
blocks after the master has gone, or whose start or wakeup was still in the
mailbox, is found there instead, or is lost.
-/

namespace Lpel
namespace Hrc

variable {τ P : Type} {n : ℕ}

/-! ## The last message of a worker -/

/-- The worker has been sent the termination message. -/
def Sched.Told (sched : Sched τ P n) (wid : Fin n) : Prop :=
  match sched.master with
  | .loop => False
  | .broadcast i => wid.val < i

/-- A worker finishes with the termination message, which is the last one that
it is sent. -/
structure Farewell (sched : Sched τ P n) : Prop where
  silent : ∀ wid, ¬ sched.Told wid →
    .terminate ∉ sched.workermbs wid ∧ sched.worker wid ≠ .finished
  last : ∀ wid, .terminate ∉ (sched.workermbs wid).dropLast
  finished : ∀ wid, sched.worker wid = .finished → sched.workermbs wid = []

/-- All threads stay where they are, and the workers are sent nothing but
tasks. -/
structure OnlyAssigns (sched after : Sched τ P n) : Prop where
  worker : after.worker = sched.worker
  master : after.master = sched.master
  mastermb : after.mastermb = sched.mastermb
  quiet : ∀ wid, .terminate ∉ sched.workermbs wid →
    .terminate ∉ after.workermbs wid

namespace OnlyAssigns

variable {sched after last : Sched τ P n} {t : τ}

theorem trans
    (first : OnlyAssigns sched after)
    (second : OnlyAssigns after last) :
    OnlyAssigns sched last :=
  ⟨second.worker.trans first.worker, second.master.trans first.master,
    second.mastermb.trans first.mastermb,
    fun wid none => second.quiet wid (first.quiet wid none)⟩

theorem ofFields
    (worker : after.worker = sched.worker)
    (master : after.master = sched.master)
    (mastermb : after.mastermb = sched.mastermb)
    (workermbs : after.workermbs = sched.workermbs) :
    OnlyAssigns sched after :=
  ⟨worker, master, mastermb, fun wid none => by rwa [workermbs]⟩

theorem congr
    (rest : OnlyAssigns after last)
    (worker : after.worker = sched.worker)
    (master : after.master = sched.master)
    (mastermb : after.mastermb = sched.mastermb)
    (workermbs : after.workermbs = sched.workermbs) :
    OnlyAssigns sched last :=
  (ofFields worker master mastermb workermbs).trans rest

theorem sendTask (sched : Sched τ P n) (wid : Fin n) (t : τ) :
    OnlyAssigns sched (sched.sendTask wid t) := by
  refine ⟨rfl, rfl, rfl, ?_⟩
  intro other none
  by_cases same : other = wid
  · subst same
    simpa [Sched.sendTask, Sched.sendWorker, Sched.assert] using none
  · simpa [Sched.sendTask, Sched.sendWorker, Sched.assert, same] using none

variable [DecidableEq τ] [LinearOrder P] [BoundedOrder P]

theorem updatePriority
    (policy : Policy P)
    (sched : Sched τ P n)
    (neighbour : Option τ × SchedView) :
    OnlyAssigns sched (sched.updatePriority policy neighbour) := by
  obtain ⟨t | t, view⟩ := neighbour
  · exact ofFields rfl rfl rfl rfl
  · rw [Sched.updatePriority]
    split
    · dsimp only
      split <;> exact ofFields rfl rfl rfl rfl
    · exact ofFields rfl rfl rfl rfl

theorem updatePriorityList
    (policy : Policy P)
    (sched : Sched τ P n)
    (list : List (Option τ × SchedView)) :
    OnlyAssigns sched (sched.updatePriorityList policy list) := by
  induction list generalizing sched with
  | nil => exact ofFields rfl rfl rfl rfl
  | cons neighbour list inductionHypothesis =>
      exact (updatePriority policy sched neighbour).trans
        (inductionHypothesis _)

theorem updatePriorityNeigh
    (policy : Policy P)
    (observed : Observed τ)
    (sched : Sched τ P n) :
    OnlyAssigns sched (sched.updatePriorityNeigh policy observed) :=
  (updatePriorityList policy _ _).trans (updatePriorityList policy _ _)

/-- A waiting worker is served, or nobody waits. -/
theorem serve
    (policy : Policy P)
    (view : SchedView)
    (sched : Sched τ P n)
    (t : τ)
    {otherwise : Sched τ P n → Sched τ P n}
    (keeps : ∀ before, OnlyAssigns before (otherwise before)) :
    OnlyAssigns sched
      (match sched.servePendingReq policy view t with
        | (some _, after) => after
        | (none, after) => otherwise after) := by
  obtain ⟨wid, -, served⟩ | ⟨-, notServed⟩ :=
    servePendingReq_cases policy view sched t
  · simp only [served]
    exact (sendTask _ wid t).congr rfl rfl rfl rfl
  · simp only [notServed]
    exact (keeps _).congr rfl rfl rfl rfl

theorem handleReady
    (policy : Policy P)
    (observed : Observed τ)
    (sched : Sched τ P n)
    (t : τ) :
    OnlyAssigns sched (sched.handleReady policy observed t) := by
  unfold Sched.handleReady
  dsimp only
  split
  · exact ofFields rfl rfl rfl rfl
  · refine (serve policy observed.serve _ t ?_).congr rfl rfl rfl rfl
    intro before
    exact (updatePriorityNeigh policy observed before).trans (ofFields rfl rfl rfl rfl)

theorem handleReturn
    (policy : Policy P)
    (observed : Observed τ)
    (sched : Sched τ P n)
    (t : τ) :
    OnlyAssigns sched (sched.handleReturn policy observed t) := by
  unfold Sched.handleReturn
  split
  · dsimp only
    split
    · exact (handleReady policy observed _ t).congr rfl rfl rfl rfl
    · exact (updatePriorityNeigh policy observed _).congr rfl rfl rfl rfl
  · exact handleReady policy observed sched t
  · exact (updatePriorityNeigh policy observed sched).trans (ofFields rfl rfl rfl rfl)
  · exact ofFields rfl rfl rfl rfl

theorem handleWakeup
    (policy : Policy P)
    (observed : Observed τ)
    (sched : Sched τ P n)
    (t : τ) :
    OnlyAssigns sched (sched.handleWakeup policy observed t) := by
  unfold Sched.handleWakeup
  dsimp only
  split
  · exact ofFields rfl rfl rfl rfl
  · split
    · exact ofFields rfl rfl rfl rfl
    · refine (serve policy observed.serve _ t ?_).congr rfl rfl rfl rfl
      exact fun before => ofFields rfl rfl rfl rfl

/-- A round of the master. -/
theorem handle
    (policy : Policy P)
    (observed : Observed τ)
    (sched : Sched τ P n)
    (msg : WorkerMsg τ n) :
    OnlyAssigns sched (sched.handle policy observed msg) := by
  cases msg with
  | ret t => exact handleReturn policy observed sched t
  | wakeup t => exact handleWakeup policy observed sched t
  | terminate => exact ofFields rfl rfl rfl rfl
  | assign t =>
      dsimp only [Sched.handle, Sched.handleAssign]
      refine (serve policy observed.serve _ t ?_).congr rfl rfl rfl rfl
      exact fun before => ofFields rfl rfl rfl rfl
  | request wid =>
      dsimp only [Sched.handle]
      unfold Sched.handleRequest
      split
      · exact ofFields rfl rfl rfl rfl
      · next t _ =>
        split
        · exact ofFields rfl rfl rfl rfl
        · have sent := sendTask (sched.setState t .ready) wid t
          exact ⟨sent.worker, sent.master, sent.mastermb, sent.quiet⟩

end OnlyAssigns

section Steps

variable {sched after : Sched τ P n}

/-- A worker goes on without taking a message. -/
theorem Farewell.goOn
    (farewell : Farewell sched)
    (wid : Fin n)
    (pc : WorkerPc τ)
    (goesOn : pc ≠ .finished)
    (master : after.master = sched.master)
    (workermbs : after.workermbs = sched.workermbs)
    (worker : after.worker = Function.update sched.worker wid pc) :
    Farewell after := by
  refine ⟨?_, ?_, ?_⟩
  · intro other notTold
    rw [Sched.Told, master] at notTold
    obtain ⟨none, works⟩ := farewell.silent other notTold
    rw [workermbs, worker]
    refine ⟨none, ?_⟩
    by_cases same : other = wid
    · subst same
      simpa using goesOn
    · simpa [same] using works
  · intro other
    rw [workermbs]
    exact farewell.last other
  · intro other finished
    rw [workermbs]
    rw [worker] at finished
    by_cases same : other = wid
    · subst same
      simp only [Function.update_self] at finished
      exact absurd finished goesOn
    · rw [Function.update_of_ne same] at finished
      exact farewell.finished other finished

/-- A worker takes a message, and finishes only with the last one. -/
theorem Farewell.receive
    (farewell : Farewell sched)
    {wid : Fin n}
    {msg : WorkerMsg τ n}
    {rest : List (WorkerMsg τ n)}
    (mail : sched.workermbs wid = msg :: rest)
    (pc : WorkerPc τ)
    (finishes : pc = .finished → msg = .terminate)
    (master : after.master = sched.master)
    (workermbs : after.workermbs = Function.update sched.workermbs wid rest)
    (worker : after.worker = Function.update sched.worker wid pc) :
    Farewell after := by
  have lastOne := farewell.last wid
  rw [mail] at lastOne
  refine ⟨?_, ?_, ?_⟩
  · intro other notTold
    rw [Sched.Told, master] at notTold
    obtain ⟨none, works⟩ := farewell.silent other notTold
    rw [workermbs, worker]
    by_cases same : other = wid
    · subst same
      rw [mail] at none
      simp only [Function.update_self]
      refine ⟨fun member => none (List.mem_cons_of_mem _ member), ?_⟩
      intro finished
      rw [finishes finished] at none
      exact none List.mem_cons_self
    · simpa [same] using ⟨none, works⟩
  · intro other
    rw [workermbs]
    by_cases same : other = wid
    · subst same
      rw [Function.update_self]
      cases rest with
      | nil => simp
      | cons next rest =>
          rw [List.dropLast_cons_cons] at lastOne
          exact fun member => lastOne (List.mem_cons_of_mem _ member)
    · rw [Function.update_of_ne same]
      exact farewell.last other
  · intro other finished
    rw [worker] at finished
    rw [workermbs]
    by_cases same : other = wid
    · subst same
      rw [Function.update_self] at finished ⊢
      rw [finishes finished] at lastOne
      cases rest with
      | nil => rfl
      | cons next rest =>
          rw [List.dropLast_cons_cons] at lastOne
          exact absurd List.mem_cons_self lastOne
    · rw [Function.update_of_ne same] at finished ⊢
      exact farewell.finished other finished

/-- The master sends tasks before it has told any worker to terminate. -/
theorem Farewell.assigns
    (farewell : Farewell sched)
    (loop : sched.master = .loop)
    (assigns : OnlyAssigns sched after) :
    Farewell after := by
  have silent (wid : Fin n) := farewell.silent wid (by simp [Sched.Told, loop])
  refine ⟨?_, ?_, ?_⟩
  · intro wid _
    rw [assigns.worker]
    exact ⟨assigns.quiet wid (silent wid).1, (silent wid).2⟩
  · intro wid member
    exact assigns.quiet wid (silent wid).1 (List.mem_of_mem_dropLast member)
  · intro wid finished
    rw [assigns.worker] at finished
    exact absurd finished (silent wid).2

/-- The master tells the next worker to terminate. -/
theorem Farewell.broadcast
    (farewell : Farewell sched)
    {i : ℕ}
    (position : sched.master = .broadcast i)
    (inside : i < n) :
    Farewell { sched.sendWorker ⟨i, inside⟩ .terminate with
      master := .broadcast (i + 1) } := by
  have notTold : ¬ sched.Told ⟨i, inside⟩ := by simp [Sched.Told, position]
  obtain ⟨none, works⟩ := farewell.silent ⟨i, inside⟩ notTold
  refine ⟨?_, ?_, ?_⟩
  · intro wid later
    have beyond : i < wid.val := by
      simp only [Sched.Told] at later
      omega
    have distinct : wid ≠ ⟨i, inside⟩ := by
      rintro rfl
      exact absurd beyond (Nat.lt_irrefl i)
    have before : ¬ sched.Told wid := by
      simp only [Sched.Told, position]
      omega
    simpa [Sched.sendWorker, distinct] using farewell.silent wid before
  · intro wid
    by_cases same : wid = ⟨i, inside⟩
    · subst same
      simpa [Sched.sendWorker] using none
    · simpa [Sched.sendWorker, same] using farewell.last wid
  · intro wid finished
    by_cases same : wid = ⟨i, inside⟩
    · subst same
      exact absurd finished works
    · simpa [Sched.sendWorker, same] using farewell.finished wid finished

variable [DecidableEq τ]

theorem Farewell.workerStep
    (farewell : Farewell sched)
    {wid : Fin n}
    {label : SchedLabel τ n}
    (step : WorkerStep sched wid label after) :
    Farewell after := by
  cases step with
  | assigned _ mail =>
      exact farewell.receive mail _ (by simp) rfl rfl rfl
  | terminated _ mail =>
      exact farewell.receive mail _ (fun _ => rfl) rfl rfl rfl
  | unexpected position mail =>
      refine farewell.receive mail .recv (by simp) rfl rfl ?_
      rw [← position, Function.update_eq_self]
      rfl
  | first | taskStart | commit | block | yield | exit | request | ret =>
      exact farewell.goOn wid _ (by simp) rfl rfl rfl

variable [LinearOrder P] [BoundedOrder P]

theorem Farewell.next
    (farewell : Farewell sched)
    {policy : Policy P}
    {label : SchedLabel τ n}
    (taken : schedNext policy sched label = some after) :
    Farewell after := by
  cases schedNext_cases taken with
  | start | wakeup | stop =>
      exact ⟨farewell.silent, farewell.last, farewell.finished⟩
  | @master observed msg rest loop =>
      have taken : Farewell { sched with mastermb := rest } :=
        ⟨farewell.silent, farewell.last, farewell.finished⟩
      have assigns := OnlyAssigns.handle policy observed
        { sched with mastermb := rest } msg
      have handled := taken.assigns loop assigns
      unfold Sched.leave
      split
      case isTrue =>
        refine ⟨?_, handled.last, handled.finished⟩
        intro wid _
        refine handled.silent wid ?_
        rw [Sched.Told, assigns.master, loop]
        exact id
      case isFalse => exact handled
  | broadcast inside position => exact farewell.broadcast position inside
  | worker step => exact farewell.workerStep step

end Steps

/-! ## The tasks when the master has gone -/

/-- A worker executes the function of the task or is about to. -/
def Sched.UnderWay (sched : Sched τ P n) (t : τ) : Prop :=
  ∃ wid, .assign t ∈ sched.workermbs wid ∨ sched.worker wid = .dispatch t ∨
    sched.worker wid = .running t

/-- A task that has been started needs nothing more of the master: it has
exited, it is under way on a worker, or it is in the ready queue, which is empty
when the master leaves. -/
def Sched.Settled (sched : Sched τ P n) (t : τ) : Prop :=
  (sched.history t).Alive →
    (sched.task t).state = .zombie ∨ (sched.task t).state = .inqueue ∨
      sched.UnderWay t

/-- After this round the master leaves its loop. -/
def Sched.lastRound
    [DecidableEq τ]
    [LinearOrder P]
    [BoundedOrder P]
    (policy : Policy P)
    (observed : Observed τ)
    (sched : Sched τ P n) : Bool :=
  match sched.mastermb with
  | [] => false
  | msg :: rest =>
      let handled := { sched with mastermb := rest }.handle policy observed msg
      handled.terminate ∧ lpelTaskqueueSize handled.readyTasks = 0

/-- The master leaves only when all tasks are settled and it has been told to
terminate once.  After that no task is started and `LpelStop` is not called, and
the tasks that are under way neither yield nor block. -/
def inTime
    [DecidableEq τ]
    [LinearOrder P]
    [BoundedOrder P]
    (policy : Policy P)
    (sched : Sched τ P n) :
    SchedLabel τ n → Prop
  | .master observed =>
      sched.lastRound policy observed = true →
        (∀ t, sched.Settled t) ∧ .terminate ∉ sched.mastermb.tail
  | .start _ | .stop | .commit _ | .yield _ => sched.master = .loop
  | _ => True

/-- The invariant after the master has left its loop. -/
structure Closed (sched : Sched τ P n) : Prop where
  settled : ∀ t, sched.Settled t
  once : .terminate ∉ sched.mastermb
  empty : sched.readyTasks.tasks = 0

section Settled

variable {sched after : Sched τ P n} {t u : τ}

theorem Sched.Settled.congr
    (settled : sched.Settled u)
    (history : after.history u = sched.history u)
    (state : (after.task u).state = (sched.task u).state)
    (way : sched.UnderWay u → after.UnderWay u) :
    after.Settled u := by
  intro alive
  rw [history] at alive
  rw [state]
  exact (settled alive).imp_right (Or.imp_right way)

/-- A worker that is not under way with a task goes on. -/
theorem Sched.UnderWay.step
    (way : sched.UnderWay u)
    (wid : Fin n)
    {pc : WorkerPc τ}
    (mail : ∀ other, .assign u ∈ sched.workermbs other →
      .assign u ∈ after.workermbs other)
    (worker : after.worker = Function.update sched.worker wid pc)
    (notDispatched : sched.worker wid ≠ .dispatch u)
    (notRunning : sched.worker wid ≠ .running u) :
    after.UnderWay u := by
  obtain ⟨other, assigned | dispatched | running⟩ := way
  · exact ⟨other, .inl (mail other assigned)⟩
  · have distinct : other ≠ wid := by
      rintro rfl
      exact notDispatched dispatched
    refine ⟨other, .inr (.inl ?_)⟩
    rw [worker, Function.update_of_ne distinct]
    exact dispatched
  · have distinct : other ≠ wid := by
      rintro rfl
      exact notRunning running
    refine ⟨other, .inr (.inr ?_)⟩
    rw [worker, Function.update_of_ne distinct]
    exact running

variable [DecidableEq τ] [LinearOrder P]
variable {place : τ → Option (Place n)}

/-- Where a task is that is under way. -/
theorem Core.underWay
    (core : Core sched none place)
    (way : sched.UnderWay t) :
    (∃ wid, place t = some (.toWorker wid)) ∨
      ∃ wid, place t = some (.executing wid) ∧
        (sched.worker wid = .dispatch t ∨ sched.worker wid = .running t) := by
  obtain ⟨wid, assigned | pc⟩ := way
  · left
    refine ⟨wid, core.located.place_eq ?_⟩
    exact (List.count_pos_iff.mpr assigned).ne'
  · right
    refine ⟨wid, core.place_executing ?_, pc⟩
    obtain pc | pc := pc <;> rw [pc] <;> rfl

/-- A task that is under way is in no block. -/
theorem Core.underWay_fits
    (core : Core sched none place)
    (way : sched.UnderWay t) :
    ((sched.task t).state = .ready ∨ (sched.task t).state = .running) ∧
      AtRest (sched.status t) := by
  have fits := core.fits t (by simp)
  obtain ⟨wid, at_⟩ | ⟨wid, at_, pc⟩ := core.underWay way
  · rw [at_] at fits
    exact ⟨.inl fits.2.1, fits.2.2⟩
  · rw [at_] at fits
    obtain ⟨-, fits⟩ := fits
    simp only [Place.Fits] at fits
    obtain pc | pc := pc <;> rw [pc] at fits
    · exact ⟨.inl fits.1, fits.2⟩
    · exact ⟨.inr fits.1, fits.2⟩

/-- A settled task is in no block. -/
theorem Core.atRest_of_settled
    (core : Core sched none place)
    (settled : sched.Settled t) :
    AtRest (sched.status t) := by
  have fits := core.fits t (by simp)
  cases at_ : place t with
  | none =>
      rw [at_] at fits
      exact fits.rest
  | some p =>
      rw [at_] at fits
      obtain zombie | inqueue | way := settled fits.1
      · obtain ⟨rest, -⟩ | ⟨-, state⟩ | ⟨-, state⟩ :=
          (core.fits t (by simp)).situation
        · exact rest
        all_goals simp [Sched.status, zombie] at state
      · obtain ⟨rest, -⟩ | ⟨-, state⟩ | ⟨-, state⟩ :=
          (core.fits t (by simp)).situation
        · exact rest
        all_goals simp [Sched.status, inqueue] at state
      · exact (core.underWay_fits way).2

/-- The messages in the mailbox of the master when all tasks are settled. -/
theorem Core.message_of_settled
    (core : Core sched none place)
    (settled : ∀ t, sched.Settled t)
    {msg : WorkerMsg τ n}
    (member : msg ∈ sched.mastermb) :
    msg = .terminate ∨ (∃ wid, msg = .request wid) ∨
      ∃ t, msg = .ret t ∧ (sched.task t).state = .zombie := by
  have copies := (List.count_pos_iff.mpr member).ne'
  cases msg with
  | terminate => exact .inl rfl
  | request wid => exact .inr (.inl ⟨wid, rfl⟩)
  | assign t =>
      have at_ : place t = some .toMaster := core.located.place_eq copies
      have fits := core.fits t (by simp)
      rw [at_] at fits
      have created : (sched.task t).state = .created := fits.2.1
      exfalso
      obtain zombie | inqueue | way := settled t fits.1
      · rw [created] at zombie
        exact absurd zombie (by decide)
      · rw [created] at inqueue
        exact absurd inqueue (by decide)
      · obtain ready | running := (core.underWay_fits way).1
        · rw [created] at ready
          exact absurd ready (by decide)
        · rw [created] at running
          exact absurd running (by decide)
  | wakeup t =>
      have rest := core.atRest_of_settled (settled t)
      have sent : (sched.history t).wakesSent = (sched.history t).readied :=
        rest.wakesSent
      have taken : (sched.history t).wakesTaken = (sched.history t).readied :=
        rest.wakesTaken
      have wakes := core.wakes t
      omega
  | ret t =>
      have at_ : place t = some .returning := core.located.place_eq copies
      have fits := core.fits t (by simp)
      rw [at_] at fits
      have stopped : Stopped (sched.status t) := fits.2
      refine .inr (.inr ⟨t, rfl, ?_⟩)
      obtain zombie | inqueue | way := settled t fits.1
      · exact zombie
      · simp [Stopped, Sched.status, inqueue] at stopped
      · exfalso
        obtain ⟨wid, elsewhere⟩ | ⟨wid, elsewhere, -⟩ := core.underWay way
        · exact absurd (at_.symm.trans elsewhere) (by simp)
        · exact absurd (at_.symm.trans elsewhere) (by simp)

omit [DecidableEq τ] [LinearOrder P] in
/-- A worker sends messages and goes on without a task that is under way. -/
theorem Closed.goOn
    (closed : Closed sched)
    {wid : Fin n}
    {pc : WorkerPc τ}
    (sent : List (WorkerMsg τ n))
    (notTerminate : .terminate ∉ sent)
    (task : after.task = sched.task)
    (history : after.history = sched.history)
    (readyTasks : after.readyTasks = sched.readyTasks)
    (mastermb : after.mastermb = sched.mastermb ++ sent)
    (mail : ∀ u other, .assign u ∈ sched.workermbs other →
      .assign u ∈ after.workermbs other)
    (worker : after.worker = Function.update sched.worker wid pc)
    (notDispatched : ∀ u, sched.worker wid ≠ .dispatch u)
    (notRunning : ∀ u, sched.worker wid ≠ .running u) :
    Closed after := by
  refine ⟨?_, ?_, ?_⟩
  · intro u
    refine (closed.settled u).congr (by rw [history]) (by rw [task]) ?_
    intro way
    exact way.step wid (mail u) worker (notDispatched u) (notRunning u)
  · rw [mastermb]
    simpa using ⟨closed.once, notTerminate⟩
  · rw [readyTasks]
    exact closed.empty

omit [LinearOrder P] in
/-- The task of a worker goes on. -/
theorem Closed.moveOn
    (closed : Closed sched)
    {wid : Fin n}
    {pc : WorkerPc τ}
    (settled : after.Settled t)
    (executes : (sched.worker wid).task = some t)
    (others : ∀ u, u ≠ t → after.history u = sched.history u ∧
      (after.task u).state = (sched.task u).state)
    (readyTasks : after.readyTasks = sched.readyTasks)
    (mastermb : after.mastermb = sched.mastermb)
    (workermbs : after.workermbs = sched.workermbs)
    (worker : after.worker = Function.update sched.worker wid pc) :
    Closed after := by
  refine ⟨?_, ?_, ?_⟩
  · intro u
    by_cases same : u = t
    · subst same
      exact settled
    · obtain ⟨history, state⟩ := others u same
      refine (closed.settled u).congr history state ?_
      intro way
      refine way.step wid ?_ worker ?_ ?_
      · rw [workermbs]
        exact fun _ member => member
      · intro dispatched
        rw [dispatched] at executes
        exact same (Option.some.inj executes)
      · intro running
        rw [running] at executes
        exact same (Option.some.inj executes)
  · rw [mastermb]
    exact closed.once
  · rw [readyTasks]
    exact closed.empty

/-- A step of a worker after the master has left. -/
theorem Closed.workerStep
    (closed : Closed sched)
    (core : Core sched none place)
    {wid : Fin n}
    {label : SchedLabel τ n}
    (noCommit : ∀ any, label ≠ .commit any)
    (noYield : ∀ any, label ≠ .yield any)
    (step : WorkerStep sched wid label after) :
    Closed after := by
  cases step with
  | commit => exact absurd rfl (noCommit _)
  | yield => exact absurd rfl (noYield _)
  | first position =>
      exact closed.goOn [_] (by simp) rfl rfl rfl rfl
        (fun _ _ member => member) rfl (by simp [position])
        (by simp [position])
  | request position =>
      exact closed.goOn [_] (by simp) rfl rfl rfl rfl
        (fun _ _ member => member) rfl (by simp [position])
        (by simp [position])
  | ret position =>
      exact closed.goOn [_] (by simp) rfl rfl rfl rfl
        (fun _ _ member => member) rfl (by simp [position])
        (by simp [position])
  | terminated position mail =>
      refine closed.goOn [] (by simp) rfl rfl rfl
        (List.append_nil _).symm ?_ rfl (by simp [position])
        (by simp [position])
      intro u other assigned
      by_cases same : other = wid
      · subst same
        simpa [mail, Sched.setWorker] using assigned
      · simpa [Sched.setWorker, same] using assigned
  | unexpected position mail notAssign notTerminate =>
      have expected := core.messages wid _ (by rw [mail]; exact
        List.mem_cons_self)
      exfalso
      cases ‹WorkerMsg τ n› <;> simp_all [WorkerMsg.forWorker]
  | @assigned _ t rest position mail =>
      refine ⟨?_, closed.once, closed.empty⟩
      intro u
      refine (closed.settled u).congr rfl rfl ?_
      intro way
      by_cases same : u = t
      · subst same
        refine ⟨wid, .inr (.inl ?_)⟩
        simp [Sched.setWorker]
      · refine way.step wid ?_ rfl (by simp [position]) (by simp [position])
        intro other assigned
        by_cases here : other = wid
        · subst here
          simpa [mail, same, Sched.setWorker, Sched.assert] using assigned
        · simpa [here, Sched.setWorker, Sched.assert] using assigned
  | @block _ t position =>
      have fits := (core.executing (t := t) (by rw [position]; rfl)).2
      rw [position] at fits
      have rest := core.atRest_of_settled (closed.settled t)
      have blocking := fits.2.blocks
      rw [rest.blocks] at blocking
      omega
  | @taskStart _ t position =>
      refine closed.moveOn (t := t) ?_ (by rw [position]; rfl) ?_ rfl rfl rfl rfl
      · intro _
        refine .inr (.inr ⟨wid, .inr (.inr ?_)⟩)
        simp [Sched.setWorker]
      · intro u distinct
        simp [Sched.setWorker, Sched.setState, Sched.assert, distinct]
  | @exit _ t position =>
      refine closed.moveOn (t := t) ?_ (by rw [position]; rfl) ?_ rfl rfl rfl rfl
      · intro _
        refine .inl ?_
        simp [Sched.stop, Sched.setWorker, Sched.setState]
      · intro u distinct
        simp [Sched.stop, Sched.setWorker, Sched.setState, Sched.assert, distinct]

variable [BoundedOrder P]

/-- The last request takes the last task from the queue. -/
theorem settled_handleRequest
    {rest : List (WorkerMsg τ n)}
    (settled : ∀ t, sched.Settled t)
    (wid : Fin n)
    (u : τ) :
    ({ sched with mastermb := rest }.handleRequest wid).Settled u := by
  unfold Sched.handleRequest
  split
  case h_1 => exact settled u
  case h_2 t _ =>
    split
    case isTrue => exact settled u
    case isFalse =>
      by_cases same : u = t
      · subst same
        intro _
        refine .inr (.inr ⟨wid, .inl ?_⟩)
        simp [Sched.sendTask, Sched.sendWorker]
      · refine (settled u).congr rfl ?_ ?_
        · simp [Sched.sendTask, Sched.sendWorker, Sched.setState, Sched.assert,
            same]
        · rintro ⟨other, assigned | pc⟩
          · refine ⟨other, .inl ?_⟩
            by_cases here : other = wid
            · subst here
              simpa [Sched.sendTask, Sched.sendWorker, Sched.setState,
                Sched.assert, same] using assigned
            · simpa [Sched.sendTask, Sched.sendWorker, Sched.setState,
                Sched.assert, here] using assigned
          · exact ⟨other, .inr pc⟩

/-- The last returned task has exited. -/
theorem Core.settled_handleReturn
    (core : Core sched none place)
    (policy : Policy P)
    (observed : Observed τ)
    {rest : List (WorkerMsg τ n)}
    (mail : sched.mastermb = .ret t :: rest)
    (settled : ∀ t, sched.Settled t)
    (zombie : (sched.task t).state = .zombie)
    (u : τ) :
    ({ sched with mastermb := rest }.handleReturn policy observed t).Settled
      u := by
  obtain ⟨held, -⟩ := core.takeReturn mail
  have free : ∀ v, some t = some v → (sched.status v).state ≠ .inqueue := by
    intro v equal
    obtain rfl := Option.some.inj equal
    simp [Sched.status, zombie]
  have changed := held.updatePriorityNeigh policy observed free
  have status := changed.status
  obtain ⟨task, readyTasks, frame⟩ := changed.frame
  unfold Sched.handleReturn
  rw [zombie]
  dsimp only
  rw [frame] at status ⊢
  by_cases same : u = t
  · subst same
    rintro ⟨-, notDestroyed⟩
    simp [Sched.lpelTaskDestroy, Sched.note] at notDestroyed
  · refine (settled u).congr ?_ ?_ id
    · simp [Sched.lpelTaskDestroy, Sched.note, Sched.assert, same]
    · exact congrArg Status.state (congrFun status u)

/-- The round in which the master leaves. -/
theorem Core.settled_handle
    (core : Core sched none place)
    (policy : Policy P)
    (observed : Observed τ)
    {msg : WorkerMsg τ n}
    {rest : List (WorkerMsg τ n)}
    (mail : sched.mastermb = msg :: rest)
    (settled : ∀ t, sched.Settled t)
    (u : τ) :
    ({ sched with mastermb := rest }.handle policy observed msg).Settled u := by
  obtain rfl | ⟨wid, rfl⟩ | ⟨t, rfl, zombie⟩ :=
    core.message_of_settled settled (by rw [mail]; exact List.mem_cons_self)
  · exact settled u
  · exact settled_handleRequest settled wid u
  · exact core.settled_handleReturn policy observed mail settled zombie u

/-- After the master has left every step keeps the invariant, and the step with
which it leaves establishes it. -/
theorem Closed.next
    (closed : sched.master ≠ .loop → Closed sched)
    (core : Core sched none place)
    {policy : Policy P}
    {label : SchedLabel τ n}
    (met : inTime policy sched label)
    (taken : schedNext policy sched label = some after)
    (left : after.master ≠ .loop) :
    Closed after := by
  cases schedNext_cases taken with
  | start | stop => exact absurd met left
  | @wakeup t pending =>
      have rest := core.atRest_of_settled ((closed left).settled t)
      have sent : (sched.history t).wakesSent = (sched.history t).readied :=
        rest.wakesSent
      have blocks : (sched.history t).blocks = (sched.history t).readied :=
        rest.blocks
      omega
  | @master observed msg rest loop mail =>
      have assigns := OnlyAssigns.handle policy observed
        { sched with mastermb := rest } msg
      unfold Sched.leave at left ⊢
      split at left
      case isFalse => exact absurd (assigns.master.trans loop) left
      case isTrue leaves =>
        rw [if_pos leaves]
        have last : sched.lastRound policy observed = true := by
          rw [Sched.lastRound, mail]
          exact decide_eq_true leaves
        obtain ⟨settled, once⟩ := met last
        rw [mail, List.tail_cons] at once
        refine ⟨core.settled_handle policy observed mail settled, ?_,
          Taskqueue.tasks_of_size leaves.2⟩
        intro member
        dsimp only at member
        rw [assigns.mastermb] at member
        exact once member
  | @broadcast i inside position =>
      have before := closed (by rw [position]; simp)
      refine ⟨?_, before.once, before.empty⟩
      intro u
      refine (before.settled u).congr rfl rfl ?_
      rintro ⟨wid, assigned | pc⟩
      · refine ⟨wid, .inl ?_⟩
        by_cases same : wid = ⟨i, inside⟩
        · subst same
          simpa [Sched.sendWorker] using assigned
        · simpa [Sched.sendWorker, same] using assigned
      · exact ⟨wid, .inr pc⟩
  | worker step =>
      have stays : after.master = sched.master := by
        cases step <;> rfl
      rw [stays] at left
      -- a task in its function can neither commit nor yield any more
      refine (closed left).workerStep core ?_ ?_ step
      · rintro any rfl
        exact absurd met left
      · rintro any rfl
        exact absurd met left

end Settled

/-! ## Cleaning up -/

section Cleanup

variable [DecidableEq τ]

/-- One message in `cleanupMasterMb`. -/
def Sched.cleanupMsg (sched : Sched τ P n) : WorkerMsg τ n → Sched τ P n
  | .request _ => sched
  | .ret t =>
      (sched.assert ((sched.task t).state = .zombie)).lpelTaskDestroy t
  | _ => sched.assert false

/-- `cleanupMasterMb`. -/
def Sched.cleanupMasterMb (sched : Sched τ P n) : Sched τ P n :=
  sched.mastermb.foldl Sched.cleanupMsg { sched with mastermb := [] }

/-- A message that `cleanupMasterMb` expects. -/
def Sched.Expected (sched : Sched τ P n) (msg : WorkerMsg τ n) : Prop :=
  (∃ wid, msg = .request wid) ∨
    ∃ t, msg = .ret t ∧ (sched.task t).state = .zombie

/-- The messages that are expected keep the assertions, and the tasks that they
return are destroyed. -/
theorem cleanup_expected
    (sched : Sched τ P n)
    (msgs : List (WorkerMsg τ n))
    (expected : ∀ msg ∈ msgs, sched.Expected msg) :
    (msgs.foldl Sched.cleanupMsg sched).failed = sched.failed ∧
      ∀ t, ((msgs.foldl Sched.cleanupMsg sched).history t).destroyed =
        ((sched.history t).destroyed || decide (.ret t ∈ msgs)) := by
  induction msgs generalizing sched with
  | nil => simp
  | cons msg msgs inductionHypothesis =>
      obtain ⟨wid, rfl⟩ | ⟨u, rfl, zombie⟩ := expected msg List.mem_cons_self
      · obtain ⟨failed, destroyed⟩ := inductionHypothesis sched
          fun msg member => expected msg (List.mem_cons_of_mem _ member)
        refine ⟨failed, ?_⟩
        intro t
        simpa [Sched.cleanupMsg] using destroyed t
      · obtain ⟨failed, destroyed⟩ := inductionHypothesis
          (sched.cleanupMsg (.ret u))
          fun msg member => expected msg (List.mem_cons_of_mem _ member)
        refine ⟨?_, ?_⟩
        · refine failed.trans ?_
          simp [Sched.cleanupMsg, Sched.lpelTaskDestroy, Sched.assert,
            Sched.note, zombie]
        · intro t
          refine (destroyed t).trans ?_
          by_cases same : t = u
          · subst same
            simp [Sched.cleanupMsg, Sched.lpelTaskDestroy, Sched.note]
          · simp [Sched.cleanupMsg, Sched.lpelTaskDestroy, Sched.note,
              Sched.assert, same]

/-- What is left when all threads have finished: requests and returned tasks
that have exited, so that no assertion of the cleanup fails and every task that
was started is destroyed. -/
structure Sched.CleanShutdown (sched : Sched τ P n) : Prop where
  messages : ∀ msg ∈ sched.mastermb, sched.Expected msg
  ok : sched.cleanupMasterMb.failed = false
  tasks : ∀ t, (sched.history t).started = true →
    (sched.cleanupMasterMb.history t).destroyed = true

variable [LinearOrder P]
variable {sched : Sched τ P n} {place : τ → Option (Place n)} {t : τ}

omit [DecidableEq τ] [LinearOrder P] in
/-- No task is under way when all workers have finished. -/
theorem Farewell.not_underWay
    (farewell : Farewell sched)
    (finished : ∀ wid, sched.worker wid = .finished)
    (t : τ) :
    ¬ sched.UnderWay t := by
  rintro ⟨wid, assigned | dispatched | running⟩
  · rw [farewell.finished wid (finished wid)] at assigned
    exact absurd assigned List.not_mem_nil
  · rw [finished wid] at dispatched
    exact absurd dispatched (by simp)
  · rw [finished wid] at running
    exact absurd running (by simp)

/-- When all workers have finished, every task that is left has exited. -/
theorem Closed.zombie
    (closed : Closed sched)
    (core : Core sched none place)
    (notUnderWay : ∀ t, ¬ sched.UnderWay t)
    (alive : (sched.history t).Alive) :
    (sched.task t).state = .zombie := by
  obtain zombie | inqueue | way := closed.settled t alive
  · exact zombie
  · have queued := (core.inqueue_iff (by simp)).mp inqueue
    rw [closed.empty] at queued
    exact absurd queued (Multiset.notMem_zero t)
  · exact absurd way (notUnderWay t)

/-- A task that has exited and is on no worker has been returned. -/
theorem Core.returning_of_zombie
    (core : Core sched none place)
    (finished : ∀ wid, sched.worker wid = .finished)
    (alive : (sched.history t).Alive)
    (zombie : (sched.task t).state = .zombie) :
    .ret t ∈ sched.mastermb := by
  have fits := core.fits t (by simp)
  have state : (sched.status t).state = .zombie := zombie
  cases at_ : place t with
  | none =>
      rw [at_] at fits
      have life := fits.life
      simp only [Sched.status, alive.1, alive.2] at life
      simp at life
  | some p =>
      rw [at_] at fits
      obtain ⟨-, fits⟩ := fits
      cases p with
      | toMaster | queued | toWorker wid | parked =>
          have other := fits.1
          rw [state] at other
          exact absurd other (by decide)
      | executing wid =>
          rw [Place.Fits, finished wid] at fits
          exact absurd fits id
      | returning =>
          have copies := (core.located.only at_).1
          refine List.count_pos_iff.mp ?_
          rw [Sched.copies] at copies
          omega

/-- The cleanup after the workers have finished. -/
theorem Closed.cleanShutdown
    (closed : Closed sched)
    (core : Core sched none place)
    (farewell : Farewell sched)
    (finished : ∀ wid, sched.worker wid = .finished) :
    sched.CleanShutdown := by
  have messages (msg : WorkerMsg τ n) (member : msg ∈ sched.mastermb) :
      sched.Expected msg := by
    obtain rfl | expected := core.message_of_settled closed.settled member
    · exact absurd member closed.once
    · exact expected
  obtain ⟨failed, destroyed⟩ := cleanup_expected { sched with mastermb := [] }
    sched.mastermb messages
  refine ⟨messages, failed.trans core.ok, ?_⟩
  intro t started
  refine (destroyed t).trans ?_
  cases gone : (sched.history t).destroyed with
  | true => rfl
  | false =>
      have zombie := closed.zombie core (farewell.not_underWay finished)
        (⟨started, gone⟩ : (sched.history t).Alive)
      have returned := core.returning_of_zombie finished ⟨started, gone⟩ zombie
      simp [returned]

/-- When the master has told all workers to terminate and they have finished,
the shutdown is clean, as long as the master left in time. -/
theorem masterShutdown
    [BoundedOrder P]
    {policy : Policy P}
    (reached : (schedMachine n policy).ReachableBy (inTime policy) sched)
    (left : sched.master = .broadcast n)
    (finished : ∀ wid, sched.worker wid = .finished) :
    sched.CleanShutdown := by
  have held : sched.Conserved ∧ Farewell sched ∧
      (sched.master ≠ .loop → Closed sched) := by
    refine Machine.ReachableBy.invariant
      (?_ : ∀ sched, (schedMachine n policy).init sched →
        sched.Conserved ∧ Farewell sched ∧
          (sched.master ≠ .loop → Closed sched)) ?_ reached
    · rintro _ ⟨memory, zero, rfl⟩
      refine ⟨conserved_start memory zero, ?_, fun left => absurd rfl left⟩
      constructor <;> simp [schedStart]
    · rintro sched label after ⟨⟨place, core⟩, farewell, closed⟩ met taken
      exact ⟨core.step taken, farewell.next taken, Closed.next closed core met
        taken⟩
  obtain ⟨⟨place, core⟩, farewell, closed⟩ := held
  exact (closed (by rw [left]; simp)).cleanShutdown core farewell finished

end Cleanup

section Example

instance [DecidableEq τ] (sched : Sched τ P n) (t : τ) :
    Decidable (sched.Settled t) :=
  inferInstanceAs (Decidable (_ ∧ _ → _ ∨ _ ∨ ∃ _, _))

instance
    [DecidableEq τ]
    [Fintype τ]
    [LinearOrder P]
    [BoundedOrder P]
    (policy : Policy P)
    (sched : Sched τ P n)
    (label : SchedLabel τ n) :
    Decidable (inTime policy sched label) :=
  match label with
  | .master _ => inferInstanceAs (Decidable (_ → (∀ _, _) ∧ _))
  | .start _ | .stop | .commit _ | .yield _ =>
      inferInstanceAs (Decidable (_ = _))
  | .wakeup _ | .first _ | .recv _ | .taskStart _ | .block _ | .exit _ |
    .request _ | .ret _ | .broadcast => inferInstanceAs (Decidable True)

/-- A round in which the task of the message has no neighbours. -/
def noNeighbours : Observed τ :=
  { own := noStreams
    serve := noStreams
    requeue := noStreams
    producers := []
    consumers := [] }

/-- The master leaves while a task runs on the only worker.  The task then stops
in the given way, and the worker finishes. -/
def stoppedRun (t : τ) (wid : Fin 1) (stops : SchedLabel τ 1) :
    List (SchedLabel τ 1) :=
  [.first wid, .master noNeighbours, .start t, .master noNeighbours, .recv wid,
    .taskStart wid, .stop, .master noNeighbours, stops, .request wid, .ret wid,
    .broadcast, .recv wid]

/-- The task yields, is returned to a master that has gone, and is lost. -/
theorem masterShutdown_yielded :
    ∃ sched : Sched ℕ (Fin 3) 1,
      (schedMachine 1 evenPolicy).Reachable sched ∧
      sched.master = .broadcast 1 ∧ (∀ wid, sched.worker wid = .finished) ∧
      sched.mastermb = [.request 0, .ret 7] ∧
      (sched.task 7).state = .ready ∧
      sched.cleanupMasterMb.failed = true ∧
      ¬ sched.CleanShutdown := by
  obtain ⟨sched, reached, tested⟩ := Machine.exists_reachable_of_run
    (⟨_, _, rfl⟩ : (schedMachine 1 evenPolicy).init
      (schedStart (fun _ => 0) 0))
    (by decide : ((schedMachine 1 evenPolicy).run (schedStart (fun _ => 0) 0)
      (stoppedRun 7 0 (.yield 0))).map (fun sched => decide (
        sched.master = .broadcast 1 ∧ (∀ wid, sched.worker wid = .finished) ∧
        sched.mastermb = [.request 0, .ret 7] ∧
        (sched.task 7).state = .ready ∧
        sched.cleanupMasterMb.failed = true)) = some true)
  obtain ⟨left, finished, mail, ready, failed⟩ := of_decide_eq_true tested
  refine ⟨sched, reached, left, finished, mail, ready, failed, ?_⟩
  intro clean
  exact absurd (clean.ok.symm.trans failed) (by decide)

/-- The task exits and is destroyed in the cleanup. -/
theorem masterShutdown_exited :
    ∃ sched : Sched (Fin 1) (Fin 3) 1,
      sched.mastermb = [.request 0, .ret 0] ∧ sched.CleanShutdown := by
  obtain ⟨sched, reached, tested⟩ := Machine.exists_reachableBy_of_runBy
    (⟨_, _, rfl⟩ : (schedMachine 1 evenPolicy).init
      (schedStart (fun _ => 0) 0 : Sched (Fin 1) (Fin 3) 1))
    (by decide : ((schedMachine 1 evenPolicy).runBy
      (fun sched label => decide (inTime evenPolicy sched label))
      (schedStart (fun _ => 0) 0 : Sched (Fin 1) (Fin 3) 1)
      (stoppedRun 0 0 (.exit 0))).map
        (fun sched => decide (sched.master = .broadcast 1 ∧
          (∀ wid, sched.worker wid = .finished) ∧
          sched.mastermb = [.request 0, .ret 0])) = some true)
  obtain ⟨left, finished, mail⟩ := of_decide_eq_true tested
  refine ⟨sched, mail, masterShutdown (reached.mono ?_) left finished⟩
  intro sched label met
  exact of_decide_eq_true met

end Example

end Hrc
end Lpel
