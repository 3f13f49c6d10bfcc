import Lpel.Decen.Idle
import Lpel.Lib.Potential

/-!
# The work of the decentralised back end

Every step of the workers does some of the work that is left: a message is handled, a
ready task is executed, or a thread comes closer to waiting.  New work comes from
starting a task, from a message to a worker, from a task that yields or migrates, and
from a wakeup.
-/

namespace Lpel
namespace Decen

open Lifecycle (Event)

variable {τ : Type} {n : ℕ}

/-- A context is a worker or a wrapper. -/
def Context.equiv (τ : Type) (n : ℕ) : Fin n ⊕ τ ≃ Context τ n where
  toFun := Sum.elim .worker .wrapper
  invFun
    | .worker wid => .inl wid
    | .wrapper t => .inr t
  left_inv := by rintro (wid | t) <;> rfl
  right_inv := by rintro (wid | t) <;> rfl

instance [Fintype τ] : Fintype (Context τ n) :=
  Fintype.ofEquiv _ (Context.equiv τ n)

theorem Context.card (τ : Type) (n : ℕ) [Fintype τ] :
    Fintype.card (Context τ n) = n + Fintype.card τ := by
  rw [Fintype.ofEquiv_card (Context.equiv τ n), Fintype.card_sum,
    Fintype.card_fin]

/-- The steps of a thread until it waits, unless it gets more to do. -/
def Pc.work : Pc τ n → ℕ
  | .wait | .left => 0
  | .loop => 1
  | .drain => 2
  | .back => 3
  | .pick _ _ => 4
  | .dispatcher _ _ => 5
  | .running _ | .committed _ => 6
  | .resume _ => 7

/-- A ready task is worth the step to it. -/
def readyWork : ℕ := 7

/-- A message is worth the steps of the thread that it awakes, with what it
makes ready. -/
def WorkerMsg.work : WorkerMsg τ → ℕ
  | .wakeup _ => 13
  | .assign _ => 10
  | .terminate | .spmdreq => 3

/-- The length of the ready queues. -/
def Schedctx.size (sc : Schedctx τ) : ℕ :=
  ∑ i, (sc.queue i).length

/-- A task is appended. -/
theorem Schedctx.size_makeReady
    (sc : Schedctx τ)
    (prio : ℤ)
    (t : τ) :
    (lpelSchedMakeReady sc prio t).size = sc.size + 1 := by
  have replaced := sum_update List.length sc.queue (clampPrio prio)
    (sc.queue (clampPrio prio) ++ [t])
  rw [List.length_append, List.length_singleton] at replaced
  unfold size lpelSchedMakeReady
  dsimp only
  omega

/-- The next task is taken. -/
theorem Schedctx.size_fetchReady (sc : Schedctx τ) :
    sc.size = (lpelSchedFetchReady sc).2.size +
      (lpelSchedFetchReady sc).1.toList.length := by
  unfold lpelSchedFetchReady
  split
  case h_1 => rfl
  case h_2 i found =>
    have nonempty : sc.queue i ≠ [] := by
      have tested := List.find?_some found
      simpa using tested
    obtain ⟨t, rest, queue⟩ := List.exists_cons_of_ne_nil nonempty
    have replaced := sum_update List.length sc.queue i (sc.queue i).tail
    rw [queue, List.tail_cons, List.length_cons] at replaced
    unfold size
    rw [queue]
    simp only [List.tail_cons, List.head?_cons, Option.toList_some,
      List.length_singleton]
    omega

/-- A task to be handed off is worth the message about it. -/
def handOffWork : ℕ := 10

/-- The worth of a task that is kept somewhere. -/
def slotWork (price : ℕ) (slot : Option τ) : ℕ :=
  price * slot.toList.length

/-- The work that is left to the threads. -/
def Workers.work [Fintype τ] (workers : Workers τ n) : ℕ :=
  (∑ wc, (workers.thread wc).work) +
    (∑ wc, ((workers.mailbox wc).map WorkerMsg.work).sum) +
    (∑ wc, readyWork * (workers.sched wc).size) +
    (∑ wc, slotWork readyWork (workers.wraptask wc)) +
    ∑ wc, slotWork handOffWork (workers.migrated wc)

/-- The work at the start: every thread is in its loop. -/
theorem work_workersStart
    [Fintype τ]
    (home : τ → Option (Fin n))
    (unset : τ → ℤ) :
    (workersStart home unset).work = n + Fintype.card τ := by
  simp [Workers.work, workersStart, Pc.work, Schedctx.size, lpelSchedCreate,
    slotWork, Context.card]

section Work

variable [Fintype τ] [DecidableEq τ] {workers after : Workers τ n}
variable {self wc : Context τ n} {t : τ} {mechanism : Mechanism}
variable {target : Option (Fin n)} {place : τ → Option (Place τ n)}

/-- The position of a thread. -/
theorem work_setThread (workers : Workers τ n) (wc : Context τ n) (pc : Pc τ n) :
    (workers.setThread wc pc).work + (workers.thread wc).work =
      workers.work + pc.work := by
  have changed := sum_update Pc.work workers.thread wc pc
  unfold Workers.work Workers.setThread
  dsimp only
  omega

/-- A message is sent. -/
theorem work_send (workers : Workers τ n) (wc : Context τ n) (msg : WorkerMsg τ) :
    (workers.send wc msg).work = workers.work + msg.work := by
  have changed := sum_update (fun mailbox => (mailbox.map WorkerMsg.work).sum)
    workers.mailbox wc (workers.mailbox wc ++ [msg])
  simp only [List.map_append, List.sum_append, List.map_cons, List.map_nil,
    List.sum_singleton] at changed
  unfold Workers.work Workers.send
  dsimp only
  omega

/-- A message is taken. -/
theorem work_tail
    {msg : WorkerMsg τ}
    {rest : List (WorkerMsg τ)}
    (mail : workers.mailbox wc = msg :: rest) :
    Workers.work
        { workers with mailbox := Function.update workers.mailbox wc rest } +
        msg.work =
      workers.work := by
  have changed := sum_update (fun mailbox => (mailbox.map WorkerMsg.work).sum)
    workers.mailbox wc rest
  rw [mail, List.map_cons, List.sum_cons] at changed
  unfold Workers.work
  dsimp only
  omega

/-- A task is put into a ready queue. -/
theorem work_makeReady (workers : Workers τ n) (wc : Context τ n) (t : τ) :
    (workers.makeReady wc t).work = workers.work + readyWork := by
  have changed := sum_update (fun sc => readyWork * Schedctx.size sc)
    workers.sched wc
    (lpelSchedMakeReady (workers.sched wc) (workers.task t).prio t)
  rw [Schedctx.size_makeReady, Nat.mul_add, Nat.mul_one] at changed
  unfold Workers.work Workers.makeReady
  dsimp only
  omega

/-- The slot of a wrapper. -/
theorem work_setWraptask
    (workers : Workers τ n)
    (wc : Context τ n)
    (slot : Option τ) :
    (workers.setWraptask wc slot).work +
        slotWork readyWork (workers.wraptask wc) =
      workers.work + slotWork readyWork slot := by
  have changed := sum_update (slotWork readyWork) workers.wraptask wc slot
  unfold Workers.work Workers.setWraptask
  dsimp only
  omega

/-- The task to be handed off. -/
theorem work_migrated
    (workers : Workers τ n)
    (wc : Context τ n)
    (slot : Option τ) :
    Workers.work
        { workers with
          migrated := Function.update workers.migrated wc slot } +
        slotWork handOffWork (workers.migrated wc) =
      workers.work + slotWork handOffWork slot := by
  have changed := sum_update (slotWork handOffWork) workers.migrated wc slot
  unfold Workers.work
  dsimp only
  omega

/-- A task is fetched from the ready queues. -/
theorem work_fetchReady
    {next : Option τ}
    (fetched : workers.fetchReady wc = (next, after)) :
    after.work + readyWork * next.toList.length = workers.work ∧
      after.thread = workers.thread := by
  obtain ⟨rfl, rfl⟩ := Prod.mk.inj fetched
  refine ⟨?_, rfl⟩
  have changed := sum_update (fun sc => readyWork * Schedctx.size sc)
    workers.sched wc (lpelSchedFetchReady (workers.sched wc)).2
  rw [Schedctx.size_fetchReady (workers.sched wc), Nat.mul_add] at changed
  unfold Workers.work
  dsimp only
  omega

/-- A ready task is put where its context looks for it. -/
theorem work_putReady (workers : Workers τ n) (wc : Context τ n) (t : τ) :
    (workers.putReady wc t).work ≤ workers.work + readyWork := by
  unfold Workers.putReady
  split
  · exact (work_makeReady ..).le
  · have filled := work_setWraptask workers wc (some t)
    simp only [slotWork, Option.toList_some, List.length_singleton,
      Nat.mul_one] at filled
    omega

/-- `LpelWorkerMakeTaskReady` puts the task into a queue or into a message. -/
theorem work_makeTaskReady
    (mechanism : Mechanism)
    (target : Option (Fin n))
    (workers : Workers τ n)
    (t : τ) :
    (workers.lpelWorkerMakeTaskReady mechanism target t).work ≤
      workers.work + 10 := by
  have queued (before : Workers τ n) (wc : Context τ n) :
      (before.makeReady wc t).work ≤ before.work + 10 := by
    rw [work_makeReady]
    simp [readyWork]
  unfold Workers.lpelWorkerMakeTaskReady
  dsimp only
  split
  case h_1 wid =>
    split
    case isTrue => exact (work_send ..).le
    case isFalse => exact queued ..
  case h_2 => exact queued ..

/-- `CleanupTaskContext`. -/
theorem work_cleanup
    (workers : Workers τ n)
    (wc : Context τ n)
    (marked : Option τ) :
    (workers.cleanupTaskContext wc marked).work = workers.work := by
  unfold Workers.cleanupTaskContext
  cases workers.markedDel wc <;> cases marked <;> rfl

/-- What a message is worth pays for what it makes ready, and for the loop of a
thread that was waiting for it. -/
theorem work_processMessage
    (mechanism : Mechanism)
    (target : Option (Fin n))
    (workers : Workers τ n)
    (wc : Context τ n)
    (msg : WorkerMsg τ) :
    (workers.processMessage mechanism target wc msg).work + 3 ≤
      workers.work + msg.work := by
  cases msg with
  | wakeup t =>
      dsimp only [Workers.processMessage, WorkerMsg.work]
      split
      case isTrue =>
        have ready := work_makeTaskReady mechanism target
          (((workers.assert ((workers.task t).state ≠ .ready)).note t
            fun history => { history with block := .idle }).setState t .ready) t
        exact Nat.add_le_add_right ready 3
      case isFalse =>
        have filled := work_setWraptask
          (((workers.assert ((workers.task t).state ≠ .ready)).note t
            fun history => { history with block := .idle }).setState t .ready)
          wc (some t)
        simp only [slotWork, readyWork, Option.toList_some,
          List.length_singleton, Nat.mul_one] at filled
        change _ + _ = workers.work + 7 at filled
        omega
  | terminate | spmdreq => exact le_refl _
  | assign t =>
      dsimp only [Workers.processMessage, WorkerMsg.work]
      split
      all_goals exact Nat.add_le_add_right (work_putReady ..) 3

/-- A message is taken from the mailbox and processed. -/
theorem work_receive
    (received : workers.receive mechanism target wc = some after) :
    after.work + 3 ≤ workers.work := by
  unfold Workers.receive at received
  cases mail : workers.mailbox wc with
  | nil => simp [mail] at received
  | cons msg rest =>
      simp only [mail, Option.some.injEq] at received
      subst received
      have handled := work_processMessage mechanism target
        { workers with mailbox := Function.update workers.mailbox wc rest } wc
        msg
      have taken := work_tail mail
      omega

/-- The task to be handed off is sent to its worker. -/
theorem work_handOff (workers : Workers τ n) (wc : Context τ n) :
    (workers.handOff wc).work = workers.work := by
  unfold Workers.handOff
  cases migrating : workers.migrated wc with
  | none => rfl
  | some t =>
      have sent := work_send workers (workers.task t).workerContext (.assign t)
      have cleared := work_migrated
        ((workers.sendAssign (workers.task t).workerContext t).uncount wc t) wc
        none
      change _ + slotWork handOffWork (workers.migrated wc) =
        (workers.send (workers.task t).workerContext (.assign t)).work + _
        at cleared
      rw [migrating, sent] at cleared
      exact Nat.add_right_cancel cleared

/-- A thread at a known position goes on to another one. -/
theorem work_goOn
    (workers : Workers τ n)
    {was : Pc τ n}
    (position : workers.thread self = was)
    (pc : Pc τ n) :
    (workers.setThread self pc).work + was.work = workers.work + pc.work := by
  rw [← position]
  exact work_setThread workers self pc

/-- A thread switches to a task. -/
theorem work_switchTo
    (workers : Workers τ n)
    {was : Pc τ n}
    (position : workers.thread self = was)
    (wc : Context τ n)
    (t : τ) :
    (workers.switchTo wc self t).work + was.work = workers.work + 7 := by
  have went := work_setThread (workers.setCurrent wc (some t)) self (.resume t)
  rw [← position]
  exact went

/-- Every step of a thread outside the functions of tasks does some work. -/
theorem Core.work_threadStep
    (core : Core workers none none place)
    (taken : workers.threadNext mechanism target self = some after) :
    after.work + 1 ≤ workers.work := by
  cases threadNext_cases taken with
  | @fetch t rest position fetched =>
      obtain ⟨work, thread⟩ := work_fetchReady fetched
      have went := work_switchTo rest
        ((congrFun thread self).trans position) self t
      simp only [Pc.work, readyWork, Option.toList_some,
        List.length_singleton] at work went
      omega
  | @fetchNone rest position fetched =>
      obtain ⟨work, thread⟩ := work_fetchReady fetched
      have went := work_goOn rest
        ((congrFun thread self).trans position) .wait
      simp only [Pc.work, Option.toList_none, List.length_nil] at work went
      omega
  | @takeWraptask t position slot =>
      have emptied := work_setWraptask workers self none
      have went := work_switchTo (workers.setWraptask self none)
        position self t
      rw [slot] at emptied
      simp only [Pc.work, slotWork, readyWork, Option.toList_some,
        Option.toList_none, List.length_singleton, List.length_nil] at emptied went
      omega
  | noWraptask position =>
      have went := work_goOn workers position .wait
      simp only [Pc.work] at went
      omega
  | @wait received position receives =>
      have handled := work_receive receives
      obtain ⟨-, thread⟩ := core.receive (by rw [position]; rfl) receives
      have went := work_goOn received
        ((congrFun thread self).trans position) .drain
      simp only [Pc.work] at went
      omega
  | drain position receives | dispatcher position receives =>
      have handled := work_receive receives
      omega
  | leaveWorker position =>
      have went := work_goOn workers position .left
      simp only [Pc.work] at went
      omega
  | leaveWrapper position =>
      have cleaned := work_cleanup workers self none
      have went := work_goOn (workers.cleanupTaskContext self none)
        ((congrFun (thread_cleanup workers self) self).trans position) .left
      simp only [Pc.work] at went
      omega
  | again position =>
      have went := work_goOn workers position .loop
      simp only [Pc.work] at went
      omega
  | @taskStart t position =>
      have went := work_setThread ((workers.assert
        ((workers.task t).state = .ready)).setState t .running) self (.running t)
      change _ + (workers.thread self).work = workers.work + _ at went
      rw [position] at went
      simp only [Pc.work] at went
      omega
  | @dispatched wc t position =>
      have went := work_goOn workers position (.pick wc t)
      simp only [Pc.work] at went
      omega
  | @pickSame wc t rest position fetched =>
      obtain ⟨work, thread⟩ := work_fetchReady fetched
      have went := work_goOn rest
        ((congrFun thread self).trans position) (.resume t)
      simp only [Pc.work, readyWork, Option.toList_some,
        List.length_singleton] at work went
      omega
  | @pick wc t next rest position fetched =>
      obtain ⟨work, thread⟩ := work_fetchReady fetched
      have went := work_switchTo rest
        ((congrFun thread self).trans position) wc next
      simp only [Pc.work, readyWork, Option.toList_some,
        List.length_singleton] at work went
      omega
  | @pickNone wc t rest position fetched =>
      obtain ⟨work, thread⟩ := work_fetchReady fetched
      have went := work_setThread (rest.setCurrent wc none) self .back
      change _ + (rest.thread self).work = rest.work + _ at went
      rw [congrFun thread self, position] at went
      simp only [Pc.work, Option.toList_none, List.length_nil] at work went
      omega
  | backWorker position =>
      have handed := work_handOff workers self
      have cleaned := work_cleanup (workers.handOff self) self none
      have went := work_setThread
        ((workers.handOff self).cleanupTaskContext self none) self .drain
      rw [thread_cleanup, thread_handOff, position] at went
      simp only [Pc.work] at went
      omega
  | backWrapper position =>
      have went := work_goOn workers position .drain
      simp only [Pc.work] at went
      omega

/-- The dispatcher starts on the stack of a task that has stopped. -/
theorem work_dispatcher
    (workers : Workers τ n)
    (self : Context τ n)
    (t : τ) :
    (workers.lpelWorkerDispatcher self t).work + (workers.thread self).work ≤
      workers.work + 5 := by
  unfold Workers.lpelWorkerDispatcher
  dsimp only
  split
  · exact (work_setThread ..).le
  · have went := work_setThread
      (workers.setCurrent (workers.task t).workerContext none) self .back
    change _ + (workers.thread self).work = workers.work + 3 at went
    omega

/-- `LpelWorkerSelfTaskMigrate` leaves at most a task to be handed off. -/
theorem work_selfTaskMigrate
    (workers : Workers τ n)
    (self : Context τ n)
    (t : τ)
    (wid : Fin n) :
    (workers.lpelWorkerSelfTaskMigrate self t wid).work +
        (workers.thread self).work ≤
      workers.work + 13 := by
  unfold Workers.lpelWorkerSelfTaskMigrate
  dsimp only
  split
  · rw [work_setThread]
    simp [Pc.work]
  · have marked := work_migrated (workers.setContext t (.worker wid))
      (workers.task t).workerContext (some t)
    have went := work_setThread
      { workers.setContext t (.worker wid) with
        migrated := Function.update workers.migrated
          (workers.task t).workerContext (some t) } self .back
    change _ + (workers.thread self).work = _ + 3 at went
    change _ + _ = workers.work + 10 at marked
    exact went.le.trans (Nat.add_le_add_right
      ((Nat.le_add_right ..).trans marked.le) 3)

/-- `LpelTaskYield`. -/
theorem work_yield
    (mechanism : Mechanism)
    (target : Option (Fin n))
    (workers : Workers τ n)
    (self : Context τ n)
    (t : τ) :
    (workers.lpelTaskYield mechanism target self t).work ≤ workers.work + 13 := by
  unfold Workers.lpelTaskYield
  dsimp only
  set before := (workers.assert ((workers.task t).state = .running)).setState t
    .ready with isBefore
  have same : before.work = workers.work := rfl
  have stays (wc : Context τ n) :
      (((before.putReady wc t).taskStop t).lpelWorkerDispatcher self t).work ≤
        workers.work + 13 := by
    have ready := work_putReady before wc t
    have left := work_dispatcher ((before.putReady wc t).taskStop t) self t
    have stopped : ((before.putReady wc t).taskStop t).work =
      (before.putReady wc t).work := rfl
    simp only [readyWork] at ready
    omega
  split
  case h_1 wid =>
    split
    case isTrue =>
      have left := work_selfTaskMigrate (before.taskStop t) self t wid
      have stopped : (before.taskStop t).work = before.work := rfl
      omega
    case isFalse => exact stays _
  case h_2 => exact stays _

/-- `LpelTaskCheckMigrate`. -/
theorem work_checkMigrate
    (mechanism : Mechanism)
    (target : Option (Fin n))
    (workers : Workers τ n)
    (self : Context τ n)
    (t : τ) :
    (workers.lpelTaskCheckMigrate mechanism target self t).work ≤
      workers.work + 13 := by
  have stays : workers.work ≤ workers.work + 13 := Nat.le_add_right ..
  unfold Workers.lpelTaskCheckMigrate
  split
  case isTrue => exact stays
  case isFalse =>
    dsimp only
    split
    case h_1 => exact stays
    case h_2 wid =>
      split
      case isTrue => exact stays
      case isFalse =>
        have left := work_selfTaskMigrate (((workers.assert
          ((workers.task t).state = .running)).setState t .ready).taskStop t)
          self t wid
        exact (Nat.le_add_right ..).trans left

/-- `LpelTaskExit` leaves the function of the task. -/
theorem work_exit
    (position : workers.thread self = .running t) :
    (workers.lpelTaskExit self t).work + 1 ≤ workers.work := by
  unfold Workers.lpelTaskExit
  dsimp only
  set exited := ((workers.assert ((workers.task t).state = .running)).setState t
    .zombie).lpelWorkerSelfTaskExit t with isExited
  have same : exited.work = workers.work ∧ exited.thread = workers.thread := by
    rw [isExited]
    unfold Workers.lpelWorkerSelfTaskExit Workers.cleanupTaskContext
    dsimp only
    split <;> split <;> exact ⟨rfl, rfl⟩
  have left := work_dispatcher (exited.taskStop t) self t
  have stopped : (exited.taskStop t).work = exited.work ∧
    (exited.taskStop t).thread = exited.thread := ⟨rfl, rfl⟩
  rw [stopped.1, stopped.2, same.1, same.2, position] at left
  simp only [Pc.work] at left
  omega

/-- `LpelTaskBlockStream` leaves the function of the task. -/
theorem work_block
    (position : workers.thread self = .committed t) :
    (workers.lpelTaskBlockStream self t).work + 1 ≤ workers.work := by
  have left := work_dispatcher ((workers.setState t .blocked).taskStop t) self t
  change (workers.lpelTaskBlockStream self t).work +
    (workers.thread self).work ≤ workers.work + 5 at left
  rw [position] at left
  simp only [Pc.work] at left
  omega

/-- A wakeup is a message, or makes the task ready. -/
theorem work_wakeup
    (mechanism : Mechanism)
    (target : Option (Fin n))
    (workers : Workers τ n)
    (by_ whom : τ) :
    (workers.lpelWorkerTaskWakeup mechanism target by_ whom).work ≤
      workers.work + 13 := by
  have sent (wc : Context τ n) :
      (workers.sendWakeup wc whom).work ≤ workers.work + 13 :=
    (work_send workers wc (.wakeup whom)).le
  unfold Workers.lpelWorkerTaskWakeup
  dsimp only
  split
  case isTrue =>
    split
    case isTrue => exact sent _
    case isFalse =>
      exact (work_makeTaskReady ..).trans (Nat.add_le_add_left (by decide) _)
  case isFalse => exact sent _

/-- A wakeup by the handler of SPMD requests makes the task ready. -/
theorem work_wakeupLocal
    (mechanism : Mechanism)
    (target : Option (Fin n))
    (workers : Workers τ n)
    (wc : Context τ n)
    (t : τ) :
    (workers.lpelWorkerTaskWakeupLocal mechanism target wc t).work ≤
      workers.work + 13 :=
  (work_makeTaskReady ..).trans (Nat.add_le_add_left (by decide) _)

end Work

/-! ## Calls -/

/-- Some thread outside, or the function of a task, calls the scheduler, and does not
end with it. -/
def WorkerLabel.isCall : WorkerLabel τ n → Bool
  | .start _ | .setPriority _ _ | .terminate _ | .notify _ | .yield _ _
  | .checkMigrate _ _ => true
  | .thread _ _ | .exit _ | .commit _ | .block _ | .wakeup _ _ _
  | .spmdWakeup _ _ _ => false

/-- What a call gives the threads to do. -/
def WorkerLabel.allowance (label : WorkerLabel τ n) : ℕ :=
  if label.isCall then 14 else 0

/-- Every call has one. -/
theorem WorkerLabel.isCall_of_allowance
    {label : WorkerLabel τ n}
    (free : label.allowance = 0) :
    label.isCall = false := by
  by_contra call
  rw [allowance, if_pos (by simpa using call)] at free
  cases free

/-- Only a call tells a worker to terminate, or is a yield. -/
theorem keepsGoing_of_not_isCall
    [DecidableEq τ]
    (mechanism : Mechanism)
    (workers : Workers τ n)
    {label : WorkerLabel τ n}
    (free : label.isCall = false) :
    keepsGoing mechanism workers label := by
  cases label <;> first | cases free; done | exact ⟨by simp, trivial⟩

section Costs

variable [Fintype τ] [DecidableEq τ] {workers after : Workers τ n}
variable {mechanism : Mechanism} {label : WorkerLabel τ n}
variable {place : τ → Option (Place τ n)}

/-- A step that is not made in the middle of an operation does some of the work, or
is a call. -/
theorem Core.work_step
    (core : Core workers none none place)
    (taken : workersNext mechanism workers label = some after)
    (own : ∀ t event, workers.event mechanism label = some (t, event) →
      event.inOperation = false) :
    after.work + 1 ≤ workers.work + label.allowance := by
  cases workersNext_cases taken with
  | @start t =>
      have sent := work_send ((workers.assert
        ((workers.task t).state = .created)).note t
          fun history => { history with started := true })
        (workers.task t).workerContext (.assign t)
      exact Nat.add_le_add_right (sent.le.trans (Nat.add_le_add_left
        (by decide : (10 : ℕ) ≤ 13) _)) 1
  | setPriority => exact Nat.add_le_add_left (by decide : 1 ≤ 14) _
  | terminate | notify =>
      rw [work_send]
      exact Nat.add_le_add_left (by decide : 3 + 1 ≤ 14) _
  | thread moved => exact core.work_threadStep moved
  | yield => exact Nat.add_le_add_right (work_yield ..) 1
  | exit position current =>
      obtain rfl := core.current_eq position current
      exact work_exit position
  | checkMigrate => exact Nat.add_le_add_right (work_checkMigrate ..) 1
  | @commit self t position =>
      cases own t .commit (by simp [Workers.event, position, Pc.task])
  | @block self t position =>
      cases own t .block (by simp [Workers.event, position, Pc.task])
  | @wakeup self whom => cases own whom .wakeup rfl
  | @spmdWakeup self whom => cases own whom .wakeup rfl

/-- What is done in the middle of an operation costs nothing, unless it is a
wakeup. -/
theorem work_called
    {t : τ}
    {event : Event}
    (taken : workersNext mechanism workers label = some after)
    (is : workers.event mechanism label = some (t, event))
    (inOperation : event.inOperation = true) :
    after.work ≤ workers.work + if event = .wakeup then 13 else 0 := by
  cases workersNext_cases taken with
  | @commit self u position =>
      have went := work_setThread (workers.note u fun history =>
        { history with block := .committed }) self (.committed u)
      change _ + (workers.thread self).work = workers.work + 6 at went
      rw [position] at went
      exact (Nat.add_right_cancel went).le.trans (Nat.le_add_right ..)
  | block position =>
      exact ((Nat.le_add_right ..).trans (work_block position)).trans
        (Nat.le_add_right ..)
  | wakeup =>
      cases is
      exact work_wakeup ..
  | spmdWakeup =>
      cases is
      exact work_wakeupLocal ..
  | start =>
      cases is
      cases inOperation
  | setPriority | terminate | notify => cases is
  | thread =>
      simp only [Workers.event] at is
      split at is <;> cases is
      cases inOperation
  | yield | exit =>
      obtain ⟨u, -, same⟩ := Option.map_eq_some_iff.mp is
      cases same
      cases inOperation
  | checkMigrate =>
      simp only [Workers.event] at is
      split at is
      case h_1 =>
        split at is <;> cases is
        cases inOperation
      case h_2 => cases is

/-- What the steps of the workers cost. -/
def workersCosts
    (τ : Type)
    (n : ℕ)
    [Fintype τ]
    [DecidableEq τ]
    (mechanism : Mechanism) :
    Lifecycle.Costs (workersDiligence τ n mechanism) where
  work := Workers.work
  wakeWork := 13
  allowance := WorkerLabel.allowance
  pays := by
    rintro workers label after ⟨place, core⟩ taken own
    exact core.work_step taken own
  called _ _ _ _ _ _ taken is inOperation := work_called taken is inOperation
  internal _ label internal := by
    cases label <;> first | rfl | cases internal
  exit _ := rfl
  keeps workers _ free :=
    keepsGoing_of_not_isCall mechanism workers (WorkerLabel.isCall_of_allowance free)

end Costs

end Decen
end Lpel
