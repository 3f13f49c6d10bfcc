import Lpel.Hrc.Diligence
import Lpel.Lib.Potential

/-!
# The work of the threads

What the master, the workers and the wrappers have left to do: the messages that they
have not taken, the tasks that they have not executed, and what a thread does after it
has executed a task.  Every step does some of it, and only a start, a wakeup and a
yield add to it.
-/

namespace Lpel
namespace Hrc

open Lifecycle (Phase Event)

variable {τ P : Type} {n : ℕ}

/-- What has to be done before a task in this state is executed, and after it.  A
task that was not started is not executed. -/
def TaskState.work (started : Bool) : TaskState → ℕ
  | .created | .ready | .inqueue => if started then 7 else 0
  | .running => if started then 6 else 0
  | .blocked | .returned | .zombie => 0

/-- A task that was woken up early is executed once more. -/
def Status.work (status : Status) : ℕ :=
  status.state.work status.started + 7 * status.wakenup

/-- What a message gives to its receiver and to others to do. -/
def WorkerMsg.work : WorkerMsg τ n → ℕ
  | .wakeup _ => 8
  | .request _ => 2
  | .terminate | .assign _ | .ret _ => 1

/-- What a worker does before it waits again. -/
def WorkerPc.work : WorkerPc τ → ℕ
  | .start => 3
  | .stopped _ => 5
  | .back _ => 2
  | .recv | .dispatch _ | .running _ | .committed _ | .finished => 0

/-- The termination messages that the master has not sent. -/
def MasterPc.work (n : ℕ) : MasterPc → ℕ
  | .loop => 2 * n
  | .broadcast i => 2 * (n - i)

/-- What the master and the workers have left to do. -/
def Sched.work [Fintype τ] (sched : Sched τ P n) : ℕ :=
  (∑ t, (sched.status t).work) + (∑ wid, (sched.worker wid).work) +
    (∑ wid, sched.waitworkers wid) + (∑ wid, (sched.workermbs wid).length) +
      (sched.mastermb.map WorkerMsg.work).sum + sched.master.work n

/-- What a step on behalf of a task outside adds. -/
def SchedLabel.allowance : SchedLabel τ n → ℕ
  | .start _ | .stop | .yield _ => 9
  | .wakeup _ => 8
  | .first _ | .recv _ | .taskStart _ | .commit _ | .block _ | .exit _
  | .request _ | .ret _ | .master _ | .broadcast => 0

/-- What a step does of the work: nothing, if it is only asked for. -/
def SchedLabel.cost : SchedLabel τ n → ℕ
  | .wakeup _ | .commit _ | .block _ => 0
  | _ => 1

section Sched

variable [Fintype τ] {sched after : Sched τ P n} {t : τ} {wid : Fin n}

/-- Some thread sends a message to the master. -/
theorem work_sendMaster (sched : Sched τ P n) (msg : WorkerMsg τ n) :
    (sched.sendMaster msg).work = sched.work + msg.work := by
  have same : (sched.sendMaster msg).status = sched.status := rfl
  simp only [Sched.work, same]
  simp only [Sched.sendMaster, List.map_append, List.sum_append, List.map_cons,
    List.map_nil, List.sum_cons, List.sum_nil]
  omega

theorem work_assert (sched : Sched τ P n) (condition : Bool) :
    (sched.assert condition).work = sched.work :=
  rfl

/-- The master takes a message. -/
theorem work_tail
    {msg : WorkerMsg τ n}
    {rest : List (WorkerMsg τ n)}
    (mail : sched.mastermb = msg :: rest) :
    Sched.work { sched with mastermb := rest } + msg.work = sched.work := by
  have same : Sched.status { sched with mastermb := rest } = sched.status := rfl
  simp only [Sched.work, same, mail, List.map_cons, List.sum_cons]
  omega

/-- A worker goes on. -/
theorem work_setWorker
    (sched : Sched τ P n)
    (wid : Fin n)
    (pc : WorkerPc τ)
    {before : WorkerPc τ}
    (position : sched.worker wid = before) :
    (sched.setWorker wid pc).work + before.work = sched.work + pc.work := by
  subst position
  have same : (sched.setWorker wid pc).status = sched.status := rfl
  have changed := sum_update WorkerPc.work sched.worker wid pc
  simp only [Sched.work, same]
  simp only [Sched.setWorker]
  omega

/-- The mailbox of a worker changes. -/
theorem work_mailbox
    (sched : Sched τ P n)
    (wid : Fin n)
    (messages : List (WorkerMsg τ n)) :
    Sched.work { sched with
        workermbs := Function.update sched.workermbs wid messages } +
      (sched.workermbs wid).length = sched.work + messages.length := by
  have same : Sched.status { sched with
      workermbs := Function.update sched.workermbs wid messages } =
    sched.status := rfl
  have changed := sum_update List.length sched.workermbs wid messages
  simp only [Sched.work, same]
  omega

/-- A worker waits, or is served. -/
theorem work_waitworkers
    (sched : Sched τ P n)
    (wid : Fin n)
    (waits : ℕ) :
    Sched.work { sched with
        waitworkers := Function.update sched.waitworkers wid waits } +
      sched.waitworkers wid = sched.work + waits := by
  have same : Sched.status { sched with
      waitworkers := Function.update sched.waitworkers wid waits } =
    sched.status := rfl
  have changed := sum_update (fun waits => waits) sched.waitworkers wid waits
  simp only [Sched.work, same]
  omega

/-- The two states differ in the status of one task. -/
theorem work_changed
    (waitworkers : after.waitworkers = sched.waitworkers)
    (master : after.master = sched.master)
    (mastermb : after.mastermb = sched.mastermb)
    (workermbs : after.workermbs = sched.workermbs)
    (worker : after.worker = sched.worker)
    (others : ∀ u, u ≠ t → after.status u = sched.status u) :
    after.work + (sched.status t).work = sched.work + (after.status t).work := by
  classical
  have updated : after.status = Function.update sched.status t (after.status t) := by
    funext u
    by_cases same : u = t
    · subst same
      rw [Function.update_self]
    · rw [Function.update_of_ne same, others u same]
  have changed := sum_update Status.work sched.status t (after.status t)
  rw [← updated] at changed
  simp only [Sched.work, waitworkers, master, mastermb, workermbs, worker]
  omega

theorem Rearranged.work (rearranged : Rearranged sched after) :
    after.work = sched.work := by
  obtain ⟨status, waitworkers, -, master, mastermb, workermbs, worker⟩ := rearranged
  simp only [Sched.work, status, waitworkers, master, mastermb, workermbs, worker]

variable [DecidableEq τ]

/-- A ready task that is queued, or sent to a worker that waits for it. -/
theorem Offered.work
    (offered : Offered sched after t)
    (ready : (sched.task t).state = .ready) :
    after.work ≤ sched.work := by
  obtain ⟨-, master, mastermb, worker, outcome⟩ := offered
  rcases outcome with ⟨wid, waiting, waitworkers, workermbs, status⟩ |
    ⟨waitworkers, workermbs, status⟩
  · have waits := sum_update (fun waits => waits) sched.waitworkers wid 0
    have mail := sum_update List.length sched.workermbs wid
      (sched.workermbs wid ++ [.assign t])
    rw [List.length_append, List.length_singleton] at mail
    simp only [Sched.work, status, waitworkers, master, mastermb, workermbs, worker]
    omega
  · have changed := work_changed (t := t) waitworkers master mastermb workermbs worker
      (by
        intro u other
        rw [status, Function.update_of_ne other])
    have is : (sched.status t).state = .ready := ready
    rw [status, Function.update_self] at changed
    have same : Status.work { sched.status t with state := .inqueue } =
        (sched.status t).work := by
      simp only [Status.work, is, TaskState.work]
    omega

end Sched

section Rounds

variable [Fintype τ] {sched after : Sched τ P n} {t : τ}

/-- The master goes on. -/
theorem work_master (sched : Sched τ P n) (master : MasterPc) :
    Sched.work { sched with master := master } + sched.master.work n =
      sched.work + master.work n := by
  have same : Sched.status { sched with master := master } = sched.status := rfl
  simp only [Sched.work, same]
  omega

/-- The loop condition costs nothing. -/
theorem work_leave (loop : sched.master = .loop) : sched.leave.work = sched.work := by
  unfold Sched.leave
  split
  case isTrue =>
    have leaves := work_master sched (.broadcast 0)
    rw [loop] at leaves
    exact Nat.add_right_cancel leaves
  case isFalse => rfl

/-- One task gets that much more to do. -/
theorem work_le
    (sched : Sched τ P n)
    (t : τ)
    (more : ℕ)
    (waitworkers : after.waitworkers = sched.waitworkers)
    (master : after.master = sched.master)
    (mastermb : after.mastermb = sched.mastermb)
    (workermbs : after.workermbs = sched.workermbs)
    (worker : after.worker = sched.worker)
    (others : ∀ u, u ≠ t → after.status u = sched.status u)
    (own : (after.status t).work ≤ (sched.status t).work + more) :
    after.work ≤ sched.work + more := by
  have changed := work_changed waitworkers master mastermb workermbs worker others
  omega

variable [DecidableEq τ]

/-- A task that is woken up early, or not at all, has at most so much to do. -/
theorem TaskState.work_le (started : Bool) (state : TaskState) :
    state.work started ≤ 7 := by
  cases started <;> cases state <;> decide

/-- Some thread starts a task. -/
theorem work_start (sched : Sched τ P n) (t : τ) :
    (((sched.assert ((sched.task t).state = .created)).note t
      fun history => { history with started := true }).sendMaster
        (.assign t)).work ≤ sched.work + 8 := by
  have noted : ((sched.assert ((sched.task t).state = .created)).note t
      fun history => { history with started := true }).work ≤ sched.work + 7 := by
    refine work_le sched t 7 rfl rfl rfl rfl rfl (fun u other => ?_) ?_
    · simp [Sched.status, Sched.note, Sched.assert, other]
    · have bounded := TaskState.work_le true (sched.task t).state
      simp only [Status.work, Sched.status, Sched.note, Sched.assert,
        Function.update_self]
      omega
  rw [work_sendMaster]
  simp only [WorkerMsg.work]
  omega

/-- Something happens to a task that gives nobody anything to do. -/
theorem work_note
    (sched : Sched τ P n)
    (t : τ)
    (event : History → History)
    (started : (event (sched.history t)).started = (sched.history t).started) :
    (sched.note t event).work ≤ sched.work := by
  refine work_le sched t 0 rfl rfl rfl rfl rfl (fun u other => ?_) ?_
  · simp [Sched.status, Sched.note, other]
  · simp [Status.work, Sched.status, Sched.note, started]

/-- The task of a worker changes its state, and the worker goes on. -/
theorem work_setState
    (sched : Sched τ P n)
    (wid : Fin n)
    {t : τ}
    (state : TaskState)
    (pc : WorkerPc τ)
    {before : WorkerPc τ}
    {old : TaskState}
    (position : sched.worker wid = before)
    (started : (sched.history t).started = true)
    (is : (sched.task t).state = old) :
    ((sched.setState t state).setWorker wid pc).work + before.work +
        old.work true = sched.work + pc.work + state.work true := by
  have stated : (sched.setState t state).work + (sched.status t).work =
      sched.work + ((sched.setState t state).status t).work := by
    refine work_changed rfl rfl rfl rfl rfl fun u other => ?_
    rw [status_setState_eq, Function.update_of_ne other]
  have goesOn := work_setWorker (sched.setState t state) wid pc position
  rw [status_setState] at stated
  simp only [Status.work, Sched.status, started, is] at stated
  omega

variable [LinearOrder P] {place : τ → Option (Place n)}

/-- A step of a worker. -/
theorem Core.work_worker
    (core : Core sched none place)
    {wid : Fin n}
    {label : SchedLabel τ n}
    (step : WorkerStep sched wid label after) :
    after.work + label.cost ≤ sched.work + label.allowance := by
  have receive {rest : List (WorkerMsg τ n)} {msg : WorkerMsg τ n}
      (mail : sched.workermbs wid = msg :: rest) :
      Sched.work { sched with
        workermbs := Function.update sched.workermbs wid rest } + 1 = sched.work := by
    have taken := work_mailbox sched wid rest
    rw [mail, List.length_cons] at taken
    omega
  have change {t : τ} {before : WorkerPc τ} {old : TaskState}
      (state : TaskState) (pc : WorkerPc τ) (condition : Bool)
      (position : sched.worker wid = before) (executes : before.task = some t)
      (is : before.Fits (sched.status t) → (sched.status t).state = old) :
      (((sched.assert condition).setState t state).setWorker wid pc).work +
          before.work + old.work true =
        sched.work + pc.work + state.work true := by
    subst position
    obtain ⟨alive, fits⟩ := core.executing executes
    exact work_setState (sched.assert condition) wid state pc rfl alive.1 (is fits)
  cases step with
  | first position =>
      have sent := work_sendMaster sched (.request wid)
      have goesOn := work_setWorker (sched.sendMaster (.request wid)) wid .recv position
      simp only [WorkerPc.work, WorkerMsg.work, SchedLabel.cost,
        SchedLabel.allowance] at sent goesOn ⊢
      omega
  | @assigned _ t rest position mail =>
      have taken := receive mail
      have goesOn := work_setWorker (Sched.assert
        { sched with workermbs := Function.update sched.workermbs wid rest }
          ((sched.task t).state = .ready)) wid (.dispatch t) position
      have same := work_assert
        { sched with workermbs := Function.update sched.workermbs wid rest }
        ((sched.task t).state = .ready)
      simp only [WorkerPc.work, SchedLabel.cost, SchedLabel.allowance] at goesOn ⊢
      omega
  | @terminated _ rest position mail =>
      have taken := receive mail
      have goesOn := work_setWorker
        { sched with workermbs := Function.update sched.workermbs wid rest } wid
        .finished position
      simp only [WorkerPc.work, SchedLabel.cost, SchedLabel.allowance] at goesOn ⊢
      omega
  | @unexpected _ _ rest position mail =>
      have taken := receive mail
      have same := work_assert
        { sched with workermbs := Function.update sched.workermbs wid rest } false
      simp only [SchedLabel.cost, SchedLabel.allowance]
      omega
  | @taskStart _ t position =>
      have changed := change .running (.running t) ((sched.task t).state = .ready)
        position rfl And.left
      simp only [WorkerPc.work, TaskState.work, SchedLabel.cost,
        SchedLabel.allowance, if_true] at changed ⊢
      omega
  | @commit _ t position =>
      have noted := work_note sched t (fun history =>
        { history with blocks := history.blocks + 1 }) rfl
      have goesOn := work_setWorker (sched.note t fun history =>
        { history with blocks := history.blocks + 1 }) wid (.committed t) position
      simp only [WorkerPc.work, SchedLabel.cost, SchedLabel.allowance] at goesOn ⊢
      omega
  | @block _ t position =>
      have changed := change .blocked (.stopped t) ((sched.task t).state = .running)
        position rfl And.left
      simp only [Sched.stop, WorkerPc.work, TaskState.work, SchedLabel.cost,
        SchedLabel.allowance, if_true] at changed ⊢
      omega
  | @yield _ t position =>
      have changed := change .ready (.stopped t) ((sched.task t).state = .running)
        position rfl And.left
      simp only [Sched.stop, WorkerPc.work, TaskState.work, SchedLabel.cost,
        SchedLabel.allowance, if_true] at changed ⊢
      omega
  | @exit _ t position =>
      have changed := change .zombie (.stopped t) ((sched.task t).state = .running)
        position rfl And.left
      simp only [Sched.stop, WorkerPc.work, TaskState.work, SchedLabel.cost,
        SchedLabel.allowance, if_true] at changed ⊢
      omega
  | @request _ t position =>
      have sent := work_sendMaster sched (.request wid)
      have goesOn := work_setWorker (sched.sendMaster (.request wid)) wid (.back t)
        position
      simp only [WorkerPc.work, WorkerMsg.work, SchedLabel.cost,
        SchedLabel.allowance] at sent goesOn ⊢
      omega
  | @ret _ t position =>
      have sent := work_sendMaster (sched.assert ((sched.task t).state ≠ .running))
        (.ret t)
      have goesOn := work_setWorker
        ((sched.assert ((sched.task t).state ≠ .running)).sendMaster (.ret t)) wid
        .recv position
      have same := work_assert sched ((sched.task t).state ≠ .running)
      simp only [WorkerPc.work, WorkerMsg.work, SchedLabel.cost,
        SchedLabel.allowance] at sent goesOn ⊢
      omega

variable [BoundedOrder P]

/-- A round of the master. -/
theorem Core.work_handle
    (core : Core sched none place)
    (policy : Policy P)
    (observed : Observed τ)
    {msg : WorkerMsg τ n}
    {rest : List (WorkerMsg τ n)}
    (mail : sched.mastermb = msg :: rest) :
    ({ sched with mastermb := rest }.handle policy observed msg).work + 1 ≤
      sched.work := by
  have paid := work_tail mail
  obtain ⟨taken, is⟩ : ∃ taken : Sched τ P n,
      { sched with mastermb := rest } = taken :=
    ⟨_, rfl⟩
  rw [is] at paid ⊢
  have statuses (u : τ) : taken.status u = sched.status u := by
    rw [← is]
    rfl
  cases handle_cases policy observed taken msg with
  | @assigned t offered =>
      have fits := core.fits t (by simp)
      rw [(core.take (Or.inl ⟨rfl, rfl⟩) mail).2] at fits
      have created : (taken.status t).state = .created := by
        rw [statuses t]
        exact fits.2.1
      have offers := (offered.work (by simp [Sched.setState])).trans
        (work_le taken t 0 rfl rfl rfl rfl rfl (fun u other => by
          rw [status_setState_eq, Function.update_of_ne other]) (by
          rw [status_setState]
          simp [Status.work, created, TaskState.work]))
      simp only [WorkerMsg.work] at paid
      omega
  | yielded ready offered =>
      have offers := offered.work ready
      simp only [WorkerMsg.work] at paid
      omega
  | @resumed t blocked flag offered =>
      have offers := (offered.work (by simp [Sched.note, Sched.setState])).trans
        (work_le taken t 0 rfl rfl rfl rfl rfl (fun u other => by
          simp [Sched.status, Sched.note, Sched.setWakenup, Sched.setState,
            other]) (by
          simp only [Status.work, Sched.status, Sched.note, Sched.setWakenup,
            Sched.setState, Function.update_self, blocked, flag, TaskState.work]
          split <;> omega))
      simp only [WorkerMsg.work] at paid
      omega
  | @parked t blocked noFlag rearranged =>
      have same := rearranged.work.le.trans
        (work_le taken t 0 rfl rfl rfl rfl rfl (fun u other => by
          simp [Sched.status, Sched.note, Sched.setState, other]) (by
          simp only [Status.work, Sched.status, Sched.note, Sched.setState,
            Function.update_self, blocked, TaskState.work, le_refl, Nat.add_zero]))
      simp only [WorkerMsg.work] at paid
      omega
  | @destroyed t zombie rearranged =>
      have same := rearranged.work.le.trans
        (work_le taken t 0 rfl rfl rfl rfl rfl (fun u other => by
          simp [Sched.status, Sched.note, other]) (by
          simp [Status.work, Sched.status, Sched.note]))
      simp only [WorkerMsg.work] at paid
      omega
  | unexpected _ _ _ rearranged =>
      have same := rearranged.work
      simp only [WorkerMsg.work] at paid
      omega
  | @early t notReturned rearranged =>
      have same := rearranged.work.le.trans
        (work_le taken t 7 rfl rfl rfl rfl rfl (fun u other => by
          simp [Sched.status, Sched.note, Sched.setWakenup, other]) (by
          rw [status_setWakenup, status_note]
          simp only [Status.work, Sched.status]
          omega))
      simp only [WorkerMsg.work] at paid
      omega
  | @woken t returned offered =>
      have offers := (offered.work (by simp [Sched.note, Sched.setState])).trans
        (work_le taken t 7 rfl rfl rfl rfl rfl (fun u other => by
          simp [Sched.status, Sched.note, Sched.setState, other]) (by
          simp only [Status.work, Sched.status, Sched.note, Sched.setState,
            Function.update_self, TaskState.work]
          split <;> omega))
      simp only [WorkerMsg.work] at paid
      omega
  | @waits wid _ same =>
      have waits := work_waitworkers taken wid 1
      rw [← same] at waits
      simp only [WorkerMsg.work] at paid
      omega
  | @served wid t head notLowest rearranged =>
      have inqueue : (taken.status t).state = .inqueue := by
        rw [← is] at head
        have queued : t ∈ sched.readyTasks.tasks := by
          rw [Taskqueue.tasks_pop core.queue head]
          exact Multiset.mem_cons_self t _
        rw [statuses t]
        exact (core.inqueue_iff (by simp)).mpr queued
      have served : (taken.setState t .ready).work ≤ taken.work + 0 :=
        work_le taken t 0 rfl rfl rfl rfl rfl (fun u other => by
          rw [status_setState_eq, Function.update_of_ne other]) (by
          rw [status_setState taken t .ready]
          simp [Status.work, inqueue, TaskState.work])
      have mailed := work_mailbox (taken.setState t .ready) wid
        ((taken.setState t .ready).workermbs wid ++ [.assign t])
      rw [List.length_append, List.length_singleton] at mailed
      have same := rearranged.work
      unfold Sched.sendWorker at same
      simp only [WorkerMsg.work] at paid
      omega
  | told same =>
      have told : Sched.work { taken with terminate := true } = taken.work := rfl
      rw [same, told]
      simp only [WorkerMsg.work] at paid
      omega

/-- Every step does some of the work, unless it is only asked for. -/
theorem Core.work_step
    (core : Core sched none place)
    {policy : Policy P}
    {label : SchedLabel τ n}
    (taken : schedNext policy sched label = some after) :
    after.work + label.cost ≤ sched.work + label.allowance := by
  cases schedNext_cases taken with
  | @start t unstarted =>
      have starts := work_start sched t
      simp only [SchedLabel.cost, SchedLabel.allowance]
      omega
  | @wakeup t pending =>
      have noted := work_note sched t (fun history =>
        { history with wakesSent := history.wakesSent + 1 }) rfl
      rw [work_sendMaster]
      simp only [WorkerMsg.work, SchedLabel.cost, SchedLabel.allowance]
      omega
  | stop =>
      rw [work_sendMaster]
      simp only [WorkerMsg.work, SchedLabel.cost, SchedLabel.allowance]
      omega
  | @master observed msg rest loop mail =>
      have handled := core.work_handle policy observed mail
      have left := work_leave ((master_handle policy observed
        { sched with mastermb := rest } msg).trans loop)
      simp only [SchedLabel.cost, SchedLabel.allowance]
      omega
  | @broadcast i inside position =>
      have sent := work_mailbox sched ⟨i, inside⟩
        (sched.workermbs ⟨i, inside⟩ ++ [.terminate])
      rw [List.length_append, List.length_singleton] at sent
      have goesOn := work_master (sched.sendWorker ⟨i, inside⟩ .terminate)
        (.broadcast (i + 1))
      have before : (sched.sendWorker ⟨i, inside⟩ .terminate).master = .broadcast i :=
        position
      rw [before] at goesOn
      unfold Sched.sendWorker at goesOn ⊢
      simp only [MasterPc.work, SchedLabel.cost, SchedLabel.allowance] at goesOn ⊢
      omega
  | worker step => exact core.work_worker step

end Rounds

end Hrc
end Lpel
