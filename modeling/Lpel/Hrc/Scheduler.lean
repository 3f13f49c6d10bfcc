import Mathlib.Data.List.FinRange
import Lpel.Hrc.Task
import Lpel.Hrc.Taskqueue

/-!
# The scheduler of the hierarchical back end

`hrc_worker_op.c`: the master, `n` workers and their mailboxes.  One round of
`MasterLoop` is one step: while a task is in the hands of the master no other
thread writes to its record, and the only messages of a round are sent by
`sendTask`, after the last use of the task.  A step of a worker is one message
received or sent, or one change of the state of its task.

Tasks may be started, and wakeups and the termination message sent, by any
thread at any time.  A wakeup is sent once for each block, at any time after the
task has committed to block; `History` counts what has happened to a task and is
read by no step except for that guard.

Wrapper tasks never reach the master.  A task that is not a wrapper task has
either no worker context or that of a worker, and in both cases
`LpelWorkerTaskWakeup` sends to the master, so the field is not kept.
-/

namespace Lpel
namespace Hrc

/-- `workermsg_t`. -/
inductive WorkerMsg (τ : Type) (n : ℕ)
  | terminate
  | wakeup (t : τ)
  | assign (t : τ)
  | request (wid : Fin n)
  | ret (t : τ)
  deriving DecidableEq

/-- Where a worker is in `WorkerLoop`, or in the task it executes. -/
inductive WorkerPc (τ : Type)
  /-- Before the first `requestTask`. -/
  | start
  /-- In `LpelMailboxRecv`. -/
  | recv
  /-- A task was received, before its `TaskStart`. -/
  | dispatch (t : τ)
  /-- In the function of the task. -/
  | running (t : τ)
  /-- In a stream operation that is about to call `LpelTaskBlockStream`. -/
  | committed (t : τ)
  /-- The state of the task is set, before `requestTask`. -/
  | stopped (t : τ)
  /-- Back in `WorkerLoop`, before `returnTask`. -/
  | back (t : τ)
  | finished
  deriving DecidableEq

/-- Where the master is. -/
inductive MasterPc
  | loop
  /-- In `LpelWorkerBroadcast`, before the message to worker `i`. -/
  | broadcast (i : ℕ)
  deriving DecidableEq

/-- What has happened to a task, as the handlers note it.  That these numbers are
those of the messages taken and of the places of the task is proved of runs. -/
structure History where
  started : Bool
  destroyed : Bool
  /-- How often the task has committed to block. -/
  blocks : ℕ
  wakesSent : ℕ
  /-- `WORKER_MSG_WAKEUP` messages handled by the master. -/
  wakesTaken : ℕ
  /-- `WORKER_MSG_RETURN` messages handled with the task in state
  `TASK_BLOCKED`. -/
  returnsTaken : ℕ
  /-- How often the master has made the blocked task ready. -/
  readied : ℕ

/-- The master, the workers and the mailboxes. -/
structure Sched (τ P : Type) (n : ℕ) where
  task : τ → Task P
  history : τ → History
  readyTasks : Taskqueue τ
  waitworkers : Fin n → ℕ
  terminate : Bool
  master : MasterPc
  mastermb : List (WorkerMsg τ n)
  workermbs : Fin n → List (WorkerMsg τ n)
  worker : Fin n → WorkerPc τ
  /-- An assertion has failed. -/
  failed : Bool

/-- What the master reads of memory that other threads write during one round:
the streams of the task of the message, at each of the three places where its
priority is calculated, and the task at the other end of each of its streams,
with the streams of that task. -/
structure Observed (τ : Type) where
  own : SchedView
  serve : SchedView
  requeue : SchedView
  producers : List (Option τ × SchedView)
  consumers : List (Option τ × SchedView)

namespace Sched

variable {τ P : Type} {n : ℕ}
variable [DecidableEq τ]

/-- `assert`. -/
def assert (sched : Sched τ P n) (condition : Bool) : Sched τ P n :=
  { sched with failed := sched.failed || !condition }

/-- The stored priorities. -/
def prior (sched : Sched τ P n) (t : τ) : P :=
  (sched.task t).prior

def setState (sched : Sched τ P n) (t : τ) (state : TaskState) :
    Sched τ P n :=
  { sched with
    task := Function.update sched.task t { sched.task t with state := state } }

def setWakenup (sched : Sched τ P n) (t : τ) (wakenup : ℕ) : Sched τ P n :=
  { sched with
    task :=
      Function.update sched.task t { sched.task t with wakenup := wakenup } }

def setPrior (sched : Sched τ P n) (t : τ) (prior : P) : Sched τ P n :=
  { sched with
    task := Function.update sched.task t { sched.task t with prior := prior } }

/-- Note that something has happened to a task. -/
def note
    (sched : Sched τ P n)
    (t : τ)
    (event : History → History) : Sched τ P n :=
  { sched with
    history := Function.update sched.history t (event (sched.history t)) }

/-- `LpelMailboxSend(mastermb, &msg)`. -/
def sendMaster (sched : Sched τ P n) (msg : WorkerMsg τ n) : Sched τ P n :=
  { sched with mastermb := sched.mastermb ++ [msg] }

/-- `LpelMailboxSend(workermbs[wid], &msg)`. -/
def sendWorker (sched : Sched τ P n) (wid : Fin n) (msg : WorkerMsg τ n) :
    Sched τ P n :=
  { sched with
    workermbs :=
      Function.update sched.workermbs wid (sched.workermbs wid ++ [msg]) }

def setWorker (sched : Sched τ P n) (wid : Fin n) (pc : WorkerPc τ) :
    Sched τ P n :=
  { sched with worker := Function.update sched.worker wid pc }

/-- `sendTask`. -/
def sendTask (sched : Sched τ P n) (wid : Fin n) (t : τ) : Sched τ P n :=
  (sched.assert ((sched.task t).state = .ready)).sendWorker wid (.assign t)

variable [LinearOrder P] [BoundedOrder P]

/-- `servePendingReq`, with the worker that gets the task. -/
def servePendingReq
    (policy : Policy P)
    (view : SchedView)
    (sched : Sched τ P n)
    (t : τ) : Option (Fin n) × Sched τ P n :=
  let sched := sched.setPrior t (lpelTaskCalPriority policy view)
  match (List.finRange n).find? fun i => sched.waitworkers i = 1 with
  | some i =>
      (some i,
        { sched with
          waitworkers := Function.update sched.waitworkers i 0 }.sendTask i t)
  | none => (none, sched)

/-- One round of the loop of `updatePriorityList`. -/
def updatePriority
    (policy : Policy P)
    (sched : Sched τ P n) :
    Option τ × SchedView → Sched τ P n
  | (none, _) => sched
  | (some t, view) =>
      if (sched.task t).state = .inqueue then
        let np := lpelTaskCalPriority policy view
        match lpelTaskqueueUpdatePriority sched.prior sched.readyTasks t np with
        | some readyTasks =>
            { sched.setPrior t np with readyTasks := readyTasks }
        | none => sched.assert false
      else
        sched

/-- `updatePriorityList`. -/
def updatePriorityList
    (policy : Policy P)
    (sched : Sched τ P n)
    (list : List (Option τ × SchedView)) : Sched τ P n :=
  list.foldl (updatePriority policy) sched

/-- `updatePriorityNeigh`. -/
def updatePriorityNeigh
    (policy : Policy P)
    (observed : Observed τ)
    (sched : Sched τ P n) : Sched τ P n :=
  updatePriorityList policy
    (updatePriorityList policy sched observed.producers) observed.consumers

/-- `t->state = TASK_INQUEUE` and the push that follows it everywhere. -/
def enqueue (sched : Sched τ P n) (t : τ) : Sched τ P n :=
  let sched := sched.setState t .inqueue
  { sched with
    readyTasks := lpelTaskqueuePush sched.prior sched.readyTasks t }

/-- `case WORKER_MSG_ASSIGN` of `MasterLoop`. -/
def handleAssign
    (policy : Policy P)
    (observed : Observed τ)
    (sched : Sched τ P n)
    (t : τ) : Sched τ P n :=
  let sched := sched.assert ((sched.task t).state = .created)
  let sched := sched.setState t .ready
  match sched.servePendingReq policy observed.serve t with
  | (some _, sched) => sched
  | (none, sched) => (sched.setPrior t ⊤).enqueue t

/-- `case TASK_READY` of a returned task. -/
def handleReady
    (policy : Policy P)
    (observed : Observed τ)
    (sched : Sched τ P n)
    (t : τ) : Sched τ P n :=
  let sched := sched.setPrior t (lpelTaskCalPriority policy observed.own)
  if sched.prior t = ⊥ then
    sched.enqueue t
  else
    match sched.servePendingReq policy observed.serve t with
    | (some _, sched) => sched
    | (none, sched) =>
        let sched := sched.updatePriorityNeigh policy observed
        let prior := lpelTaskCalPriority policy observed.requeue
        (sched.setPrior t prior).enqueue t

/-- `LpelTaskDestroy`. -/
def lpelTaskDestroy (sched : Sched τ P n) (t : τ) : Sched τ P n :=
  (sched.assert ((sched.task t).state = .zombie)).note t
    fun history => { history with destroyed := true }

/-- `case WORKER_MSG_RETURN` of `MasterLoop`. -/
def handleReturn
    (policy : Policy P)
    (observed : Observed τ)
    (sched : Sched τ P n)
    (t : τ) : Sched τ P n :=
  match (sched.task t).state with
  | .blocked =>
      let sched := sched.note t fun history =>
        { history with returnsTaken := history.returnsTaken + 1 }
      if (sched.task t).wakenup = 1 then
        -- no break: the task is treated as if it were returned as ready
        (((sched.setWakenup t 0).setState t .ready).note t fun history =>
          { history with readied := history.readied + 1 }).handleReady
            policy observed t
      else
        (sched.setState t .returned).updatePriorityNeigh policy observed
  | .ready => sched.handleReady policy observed t
  | .zombie => (sched.updatePriorityNeigh policy observed).lpelTaskDestroy t
  | _ => sched.assert false

/-- `case WORKER_MSG_WAKEUP` of `MasterLoop`. -/
def handleWakeup
    (policy : Policy P)
    (observed : Observed τ)
    (sched : Sched τ P n)
    (t : τ) : Sched τ P n :=
  let sched := sched.note t fun history =>
    { history with wakesTaken := history.wakesTaken + 1 }
  if (sched.task t).state ≠ .returned then
    sched.setWakenup t 1
  else
    let sched := (sched.setState t .ready).note t fun history =>
      { history with readied := history.readied + 1 }
    let sched := sched.setPrior t (lpelTaskCalPriority policy observed.own)
    if sched.prior t = ⊥ then
      sched.enqueue t
    else
      match sched.servePendingReq policy observed.serve t with
      | (some _, sched) => sched
      | (none, sched) => sched.enqueue t

/-- `case WORKER_MSG_REQUEST` of `MasterLoop`. -/
def handleRequest (sched : Sched τ P n) (wid : Fin n) : Sched τ P n :=
  match lpelTaskqueuePeek sched.readyTasks with
  | none =>
      { sched with waitworkers := Function.update sched.waitworkers wid 1 }
  | some t =>
      if sched.prior t = ⊥ then
        { sched with waitworkers := Function.update sched.waitworkers wid 1 }
      else
        let sched := (sched.setState t .ready).sendTask wid t
        { sched with
          readyTasks := (lpelTaskqueuePop sched.prior sched.readyTasks).2 }

/-- The `switch` of `MasterLoop`. -/
def handle
    (policy : Policy P)
    (observed : Observed τ)
    (sched : Sched τ P n) :
    WorkerMsg τ n → Sched τ P n
  | .assign t => sched.handleAssign policy observed t
  | .ret t => sched.handleReturn policy observed t
  | .wakeup t => sched.handleWakeup policy observed t
  | .request wid => sched.handleRequest wid
  | .terminate => { sched with terminate := true }

/-- The loop condition of `MasterLoop`. -/
def leave (sched : Sched τ P n) : Sched τ P n :=
  if sched.terminate ∧ lpelTaskqueueSize sched.readyTasks = 0 then
    { sched with master := .broadcast 0 }
  else
    sched

end Sched

/-- What happens in a step. -/
inductive SchedLabel (τ : Type) (n : ℕ)
  /-- Some thread calls `LpelTaskStart`. -/
  | start (t : τ)
  /-- Some thread calls `LpelTaskUnblock` for the current block of a task. -/
  | wakeup (t : τ)
  /-- Some thread sends the termination message to the master. -/
  | stop
  /-- A worker requests its first task. -/
  | first (wid : Fin n)
  /-- A worker takes a message from its mailbox. -/
  | recv (wid : Fin n)
  /-- `TaskStart` of the task on a worker. -/
  | taskStart (wid : Fin n)
  /-- The task on a worker decides in a stream operation that it has to block. -/
  | commit (wid : Fin n)
  /-- It calls `LpelTaskBlockStream`. -/
  | block (wid : Fin n)
  /-- It calls `LpelTaskYield`. -/
  | yield (wid : Fin n)
  /-- It calls `LpelTaskExit`, or its function returns. -/
  | exit (wid : Fin n)
  /-- It requests a task for its worker and switches back. -/
  | request (wid : Fin n)
  /-- The worker returns the task to the master. -/
  | ret (wid : Fin n)
  /-- The master takes a message and handles it. -/
  | master (observed : Observed τ)
  /-- The master sends the termination message to the next worker. -/
  | broadcast

section

variable {τ P : Type} {n : ℕ}
variable [DecidableEq τ]

/-- `assert( t->state == TASK_RUNNING )` and the new state of the task. -/
def Sched.stop
    (sched : Sched τ P n)
    (wid : Fin n)
    (t : τ)
    (state : TaskState) : Sched τ P n :=
  ((sched.assert ((sched.task t).state = .running)).setState t state).setWorker
    wid (.stopped t)

/-- A step of a worker. -/
def workerNext (sched : Sched τ P n) (wid : Fin n) :
    SchedLabel τ n → Option (Sched τ P n)
  | .first _ =>
      if sched.worker wid = .start then
        some ((sched.sendMaster (.request wid)).setWorker wid .recv)
      else
        none
  | .recv _ =>
      match sched.worker wid, sched.workermbs wid with
      | .recv, msg :: rest =>
          let sched :=
            { sched with
              workermbs := Function.update sched.workermbs wid rest }
          match msg with
          | .assign t =>
              some ((sched.assert ((sched.task t).state = .ready)).setWorker
                wid (.dispatch t))
          | .terminate => some (sched.setWorker wid .finished)
          | _ => some (sched.assert false)
      | _, _ => none
  | .taskStart _ =>
      match sched.worker wid with
      | .dispatch t =>
          some (((sched.assert ((sched.task t).state = .ready)).setState t
            .running).setWorker wid (.running t))
      | _ => none
  | .commit _ =>
      match sched.worker wid with
      | .running t =>
          some ((sched.note t fun history =>
            { history with blocks := history.blocks + 1 }).setWorker wid
              (.committed t))
      | _ => none
  | .block _ =>
      match sched.worker wid with
      | .committed t => some (sched.stop wid t .blocked)
      | _ => none
  | .yield _ =>
      match sched.worker wid with
      | .running t => some (sched.stop wid t .ready)
      | _ => none
  | .exit _ =>
      match sched.worker wid with
      | .running t => some (sched.stop wid t .zombie)
      | _ => none
  | .request _ =>
      match sched.worker wid with
      | .stopped t =>
          some ((sched.sendMaster (.request wid)).setWorker wid (.back t))
      | _ => none
  | .ret _ =>
      match sched.worker wid with
      | .back t =>
          some (((sched.assert ((sched.task t).state ≠ .running)).sendMaster
            (.ret t)).setWorker wid .recv)
      | _ => none
  | _ => none

/-- The steps of a worker, with what each of them requires. -/
inductive WorkerStep (sched : Sched τ P n) (wid : Fin n) :
    SchedLabel τ n → Sched τ P n → Prop
  | first {any : Fin n} :
      sched.worker wid = .start →
      WorkerStep sched wid (.first any)
        ((sched.sendMaster (.request wid)).setWorker wid .recv)
  | assigned {any : Fin n} {t : τ} {rest : List (WorkerMsg τ n)} :
      sched.worker wid = .recv →
      sched.workermbs wid = .assign t :: rest →
      WorkerStep sched wid (.recv any)
        ((Sched.assert
          { sched with workermbs := Function.update sched.workermbs wid rest }
          ((sched.task t).state = .ready)).setWorker wid (.dispatch t))
  | terminated {any : Fin n} {rest : List (WorkerMsg τ n)} :
      sched.worker wid = .recv →
      sched.workermbs wid = .terminate :: rest →
      WorkerStep sched wid (.recv any)
        (Sched.setWorker
          { sched with workermbs := Function.update sched.workermbs wid rest }
          wid .finished)
  | unexpected {any : Fin n} {msg : WorkerMsg τ n}
      {rest : List (WorkerMsg τ n)} :
      sched.worker wid = .recv →
      sched.workermbs wid = msg :: rest →
      (∀ t, msg ≠ .assign t) →
      msg ≠ .terminate →
      WorkerStep sched wid (.recv any)
        (Sched.assert
          { sched with workermbs := Function.update sched.workermbs wid rest }
          false)
  | taskStart {any : Fin n} {t : τ} :
      sched.worker wid = .dispatch t →
      WorkerStep sched wid (.taskStart any)
        (((sched.assert ((sched.task t).state = .ready)).setState t
          .running).setWorker wid (.running t))
  | commit {any : Fin n} {t : τ} :
      sched.worker wid = .running t →
      WorkerStep sched wid (.commit any)
        ((sched.note t fun history =>
          { history with blocks := history.blocks + 1 }).setWorker wid
            (.committed t))
  | block {any : Fin n} {t : τ} :
      sched.worker wid = .committed t →
      WorkerStep sched wid (.block any) (sched.stop wid t .blocked)
  | yield {any : Fin n} {t : τ} :
      sched.worker wid = .running t →
      WorkerStep sched wid (.yield any) (sched.stop wid t .ready)
  | exit {any : Fin n} {t : τ} :
      sched.worker wid = .running t →
      WorkerStep sched wid (.exit any) (sched.stop wid t .zombie)
  | request {any : Fin n} {t : τ} :
      sched.worker wid = .stopped t →
      WorkerStep sched wid (.request any)
        ((sched.sendMaster (.request wid)).setWorker wid (.back t))
  | ret {any : Fin n} {t : τ} :
      sched.worker wid = .back t →
      WorkerStep sched wid (.ret any)
        (((sched.assert ((sched.task t).state ≠ .running)).sendMaster
          (.ret t)).setWorker wid .recv)

/-- Every step of a worker is one of these. -/
theorem workerNext_cases
    {sched after : Sched τ P n}
    {wid : Fin n}
    {label : SchedLabel τ n}
    (taken : workerNext sched wid label = some after) :
    WorkerStep sched wid label after := by
  cases label with
  | first any =>
      simp only [workerNext, Option.ite_none_right_eq_some,
        Option.some.injEq] at taken
      obtain ⟨position, rfl⟩ := taken
      exact .first position
  | recv any =>
      simp only [workerNext] at taken
      split at taken
      case h_2 => exact absurd taken (by simp)
      case h_1 msg rest position mail =>
        cases msg <;> obtain rfl := Option.some.inj taken
        case assign t => exact .assigned position mail
        case terminate => exact .terminated position mail
        all_goals exact .unexpected position mail (by simp) (by simp)
  | taskStart any
  | commit any
  | block any
  | yield any
  | exit any
  | request any
  | ret any =>
      simp only [workerNext] at taken
      split at taken
      case h_2 => exact absurd taken (by simp)
      case h_1 t position =>
        obtain rfl := Option.some.inj taken
        constructor
        exact position
  | start | wakeup | stop | master | broadcast =>
      exact absurd taken (by simp [workerNext])

variable [LinearOrder P] [BoundedOrder P]

/-- A step of the system. -/
def schedNext (policy : Policy P) (sched : Sched τ P n) :
    SchedLabel τ n → Option (Sched τ P n)
  | .start t =>
      if (sched.history t).started then
        none
      else
        some (((sched.assert ((sched.task t).state = .created)).note t
          fun history => { history with started := true }).sendMaster
            (.assign t))
  | .wakeup t =>
      if (sched.history t).wakesSent < (sched.history t).blocks then
        some ((sched.note t fun history =>
          { history with wakesSent := history.wakesSent + 1 }).sendMaster
            (.wakeup t))
      else
        none
  | .stop => some (sched.sendMaster .terminate)
  | .master observed =>
      match sched.master, sched.mastermb with
      | .loop, msg :: rest =>
          some (({ sched with mastermb := rest }.handle policy observed
            msg).leave)
      | _, _ => none
  | .broadcast =>
      match sched.master with
      | .loop => none
      | .broadcast i =>
          if inside : i < n then
            some { sched.sendWorker ⟨i, inside⟩ .terminate with
              master := .broadcast (i + 1) }
          else
            none
  | .first wid => workerNext sched wid (.first wid)
  | .recv wid => workerNext sched wid (.recv wid)
  | .taskStart wid => workerNext sched wid (.taskStart wid)
  | .commit wid => workerNext sched wid (.commit wid)
  | .block wid => workerNext sched wid (.block wid)
  | .yield wid => workerNext sched wid (.yield wid)
  | .exit wid => workerNext sched wid (.exit wid)
  | .request wid => workerNext sched wid (.request wid)
  | .ret wid => workerNext sched wid (.ret wid)

/-- The steps of the system, with what each of them requires. -/
inductive SchedStep (policy : Policy P) (sched : Sched τ P n) :
    SchedLabel τ n → Sched τ P n → Prop
  | start {t : τ} :
      (sched.history t).started = false →
      SchedStep policy sched (.start t)
        (((sched.assert ((sched.task t).state = .created)).note t
          fun history => { history with started := true }).sendMaster
            (.assign t))
  | wakeup {t : τ} :
      (sched.history t).wakesSent < (sched.history t).blocks →
      SchedStep policy sched (.wakeup t)
        ((sched.note t fun history =>
          { history with wakesSent := history.wakesSent + 1 }).sendMaster
            (.wakeup t))
  | stop : SchedStep policy sched .stop (sched.sendMaster .terminate)
  | master
      {observed : Observed τ}
      {msg : WorkerMsg τ n}
      {rest : List (WorkerMsg τ n)} :
      sched.master = .loop →
      sched.mastermb = msg :: rest →
      SchedStep policy sched (.master observed)
        (({ sched with mastermb := rest }.handle policy observed msg).leave)
  | broadcast {i : ℕ} (inside : i < n) :
      sched.master = .broadcast i →
      SchedStep policy sched .broadcast
        { sched.sendWorker ⟨i, inside⟩ .terminate with
          master := .broadcast (i + 1) }
  | worker {wid : Fin n} {label : SchedLabel τ n} {after : Sched τ P n} :
      WorkerStep sched wid label after →
      SchedStep policy sched label after

/-- Every step is one of these. -/
theorem schedNext_cases
    {policy : Policy P}
    {sched after : Sched τ P n}
    {label : SchedLabel τ n}
    (taken : schedNext policy sched label = some after) :
    SchedStep policy sched label after := by
  cases label with
  | start t =>
      simp only [schedNext, Option.ite_none_left_eq_some,
        Option.some.injEq] at taken
      obtain ⟨unstarted, rfl⟩ := taken
      exact .start (by simpa using unstarted)
  | wakeup t =>
      simp only [schedNext, Option.ite_none_right_eq_some,
        Option.some.injEq] at taken
      obtain ⟨pending, rfl⟩ := taken
      exact .wakeup pending
  | stop =>
      obtain rfl := Option.some.inj taken
      exact .stop
  | master observed =>
      simp only [schedNext] at taken
      split at taken
      case h_2 => exact absurd taken (by simp)
      case h_1 msg rest loop mail =>
        obtain rfl := Option.some.inj taken
        exact .master loop mail
  | broadcast =>
      simp only [schedNext] at taken
      split at taken
      case h_1 => exact absurd taken (by simp)
      case h_2 i position =>
        split at taken
        case isFalse => exact absurd taken (by simp)
        case isTrue inside =>
          obtain rfl := Option.some.inj taken
          exact .broadcast inside position
  | first | recv | taskStart | commit | block | yield | exit | request | ret =>
      rw [schedNext] at taken
      exact .worker (workerNext_cases taken)

/-- No task is started and every worker is before its first request.  The array
of the ready queue holds what `malloc` left in it, and `zero` is the priority
that `LpelTaskCreate` stores. -/
def schedStart (memory : ℕ → τ) (zero : P) : Sched τ P n :=
  { task := fun _ => { state := .created, wakenup := 0, prior := zero }
    history := fun _ =>
      { started := false
        destroyed := false
        blocks := 0
        wakesSent := 0
        wakesTaken := 0
        returnsTaken := 0
        readied := 0 }
    readyTasks := lpelTaskqueueInit memory
    waitworkers := fun _ => 0
    terminate := false
    master := .loop
    mastermb := []
    workermbs := fun _ => []
    worker := fun _ => .start
    failed := false }

/-- The scheduler with a number of workers and a policy. -/
def schedMachine (n : ℕ) (policy : Policy P) :
    Machine (Sched τ P n) (SchedLabel τ n) where
  init := fun sched => ∃ memory zero, sched = schedStart memory zero
  next := schedNext policy

end

end Hrc
end Lpel
