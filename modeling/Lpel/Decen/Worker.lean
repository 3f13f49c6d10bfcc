import Mathlib.Data.Finset.Card
import Lpel.Decen.Scheduler
import Lpel.Lib.Machine

/-!
# The workers of the decentralised back end

`decen_worker.c` with the parts of `decen_task.c` that call it: any number of
workers, a wrapper for each task that asks for one, and their mailboxes.  Every
worker and wrapper is a thread.  It executes its loop or a task, and a task that
stops runs the dispatcher on its own stack: the dispatcher handles the messages
of the worker and switches to the next ready task, back to the loop, or returns
to the task itself.

A step of a thread handles one message, makes one scheduling decision, or
performs one operation of the running task.  The answers of
`LpelPickTargetWorker` are arguments of the steps that ask for them.  A wakeup
is issued once for each block, at any time after the task has committed to
block, by a running task or by the handler of SPMD requests on the worker of the
blocked task.

`numTasks` is the exact value of the unsigned counter, so that an underflow shows
as a negative number.
-/

namespace Lpel
namespace Decen

/-- `lpel_taskstate_t`. -/
inductive TaskState
  | created
  | running
  | ready
  | blocked
  | zombie
  deriving DecidableEq

/-- `workerctx_t` as an identity: a worker, or the wrapper that was created for a
task. -/
inductive Context (τ : Type) (n : ℕ)
  | worker (wid : Fin n)
  | wrapper (t : τ)
  deriving DecidableEq

/-- `0 <= wc->wid`. -/
def Context.isWorker {τ : Type} {n : ℕ} : Context τ n → Bool
  | .worker _ => true
  | .wrapper _ => false

/-- The part of `lpel_task_t` that the scheduler uses. -/
structure Task (τ : Type) (n : ℕ) where
  state : TaskState
  workerContext : Context τ n
  /-- `sched_info.prio`. -/
  prio : ℤ

/-- `workermsg_t`, without the sender of a notification. -/
inductive WorkerMsg (τ : Type)
  | terminate
  | wakeup (t : τ)
  | assign (t : τ)
  | spmdreq
  deriving DecidableEq

/-- `tm_conf.mechanism`. -/
inductive Mechanism
  | none
  | rand
  | waitProp
  deriving DecidableEq

/-- Where a thread is. -/
inductive Pc (τ : Type) (n : ℕ)
  /-- Before the next ready task is fetched in the loop. -/
  | loop
  /-- In `WaitForNewMessage`. -/
  | wait
  /-- Switched to a task, before its `TaskStart`. -/
  | resume (t : τ)
  /-- In the function of a task. -/
  | running (t : τ)
  /-- In a stream operation that is about to call `LpelTaskBlockStream`. -/
  | committed (t : τ)
  /-- In `FetchAllMessages` of the dispatcher. -/
  | dispatcher (wc : Context τ n) (t : τ)
  /-- Before the next ready task is fetched in the dispatcher. -/
  | pick (wc : Context τ n) (t : τ)
  /-- Back in the loop after a task. -/
  | back
  /-- In `FetchAllMessages` of the loop. -/
  | drain
  | left
  deriving DecidableEq

/-- The wakeup of the current block of a task. -/
inductive Block
  /-- The task is not in a block, or it is being woken up. -/
  | idle
  /-- The task has committed to block, and its wakeup is not issued. -/
  | committed
  /-- The wakeup is in a mailbox. -/
  | sent
  deriving DecidableEq

/-- What has happened to a task. -/
structure History where
  started : Bool
  destroyed : Bool
  block : Block

/-- The workers and wrappers with their mailboxes. -/
structure Workers (τ : Type) (n : ℕ) where
  task : τ → Task τ n
  history : τ → History
  mailbox : Context τ n → List (WorkerMsg τ)
  sched : Context τ n → Schedctx τ
  wraptask : Context τ n → Option τ
  migrated : Context τ n → Option τ
  markedDel : Context τ n → Option τ
  currentTask : Context τ n → Option τ
  numTasks : Context τ n → ℤ
  terminate : Context τ n → Bool
  thread : Context τ n → Pc τ n
  /-- The tasks whose `WORKER_MSG_ASSIGN` a worker has handled and that have
  since neither exited nor been handed off. -/
  owned : Context τ n → Finset τ
  /-- An assertion has failed. -/
  failed : Bool

namespace Workers

variable {τ : Type} {n : ℕ} [DecidableEq τ]

/-- `assert`. -/
def assert (workers : Workers τ n) (condition : Bool) : Workers τ n :=
  { workers with failed := workers.failed || !condition }

def setState (workers : Workers τ n) (t : τ) (state : TaskState) :
    Workers τ n :=
  { workers with
    task :=
      Function.update workers.task t { workers.task t with state := state } }

def setContext (workers : Workers τ n) (t : τ) (wc : Context τ n) :
    Workers τ n :=
  { workers with
    task :=
      Function.update workers.task t
        { workers.task t with workerContext := wc } }

/-- Note that something has happened to a task. -/
def note
    (workers : Workers τ n)
    (t : τ)
    (event : History → History) : Workers τ n :=
  { workers with
    history := Function.update workers.history t (event (workers.history t)) }

def setThread (workers : Workers τ n) (wc : Context τ n) (pc : Pc τ n) :
    Workers τ n :=
  { workers with thread := Function.update workers.thread wc pc }

def setCurrent (workers : Workers τ n) (wc : Context τ n) (t : Option τ) :
    Workers τ n :=
  { workers with currentTask := Function.update workers.currentTask wc t }

/-- `LpelMailboxSend(wc->mailbox, &msg)`. -/
def send (workers : Workers τ n) (wc : Context τ n) (msg : WorkerMsg τ) :
    Workers τ n :=
  { workers with
    mailbox :=
      Function.update workers.mailbox wc (workers.mailbox wc ++ [msg]) }

/-- `SendAssign`. -/
def sendAssign (workers : Workers τ n) (target : Context τ n) (t : τ) :
    Workers τ n :=
  workers.send target (.assign t)

/-- `SendWakeup`. -/
def sendWakeup (workers : Workers τ n) (target : Context τ n) (t : τ) :
    Workers τ n :=
  (workers.send target (.wakeup t)).note t fun history =>
    { history with block := .sent }

/-- `wc->num_tasks++`. -/
def countAssign (workers : Workers τ n) (wc : Context τ n) (t : τ) :
    Workers τ n :=
  { workers with
    numTasks := Function.update workers.numTasks wc (workers.numTasks wc + 1)
    owned := Function.update workers.owned wc (insert t (workers.owned wc)) }

/-- `wc->num_tasks--`. -/
def uncount (workers : Workers τ n) (wc : Context τ n) (t : τ) :
    Workers τ n :=
  { workers with
    numTasks := Function.update workers.numTasks wc (workers.numTasks wc - 1)
    owned := Function.update workers.owned wc ((workers.owned wc).erase t) }

/-- `LpelSchedMakeReady( wc->sched, t)`. -/
def makeReady (workers : Workers τ n) (wc : Context τ n) (t : τ) :
    Workers τ n :=
  { workers with
    sched :=
      Function.update workers.sched wc
        (lpelSchedMakeReady (workers.sched wc) (workers.task t).prio t) }

/-- `wc->wraptask = t`. -/
def setWraptask (workers : Workers τ n) (wc : Context τ n) (t : Option τ) :
    Workers τ n :=
  { workers with wraptask := Function.update workers.wraptask wc t }

/-- Put a ready task where the context looks for it: into the slot of a wrapper,
or into the ready queues of a worker. -/
def putReady (workers : Workers τ n) (wc : Context τ n) (t : τ) : Workers τ n :=
  if wc.isWorker then workers.makeReady wc t
  else workers.setWraptask wc (some t)

/-- `LpelWorkerMakeTaskReady`, with the answer of `LpelPickTargetWorker`. -/
def lpelWorkerMakeTaskReady
    (mechanism : Mechanism)
    (target : Option (Fin n))
    (workers : Workers τ n)
    (t : τ) : Workers τ n :=
  let workers := workers.assert ((workers.task t).state = .ready)
  let wc := (workers.task t).workerContext
  match mechanism, target with
  | .waitProp, some wid =>
      if 0 < wid.val ∧ Context.worker wid ≠ wc then
        ((workers.setContext t (.worker wid)).uncount wc t).sendAssign
          (.worker wid) t
      else
        workers.makeReady wc t
  | _, _ => workers.makeReady wc t

/-- `LpelWorkerTaskWakeup`, called by a task. -/
def lpelWorkerTaskWakeup
    (mechanism : Mechanism)
    (target : Option (Fin n))
    (workers : Workers τ n)
    (by_ whom : τ) : Workers τ n :=
  let wc := (workers.task whom).workerContext
  if wc.isWorker then
    if (workers.task by_).workerContext ≠ wc then
      workers.sendWakeup wc whom
    else
      ((((workers.assert ((workers.task whom).state ≠ .ready)).note whom
        fun history => { history with block := .idle }).setState whom
          .ready).lpelWorkerMakeTaskReady mechanism target whom)
  else
    workers.sendWakeup wc whom

/-- `LpelWorkerTaskWakeupLocal`. -/
def lpelWorkerTaskWakeupLocal
    (mechanism : Mechanism)
    (target : Option (Fin n))
    (workers : Workers τ n)
    (wc : Context τ n)
    (t : τ) : Workers τ n :=
  let workers := workers.assert ((workers.task t).state ≠ .ready)
  let workers := workers.assert ((workers.task t).workerContext = wc)
  ((workers.note t fun history => { history with block := .idle }).setState t
    .ready).lpelWorkerMakeTaskReady mechanism target t

/-- `LpelTaskDestroy`. -/
def lpelTaskDestroy (workers : Workers τ n) (t : τ) : Workers τ n :=
  (workers.assert ((workers.task t).state = .zombie)).note t fun history =>
    { history with destroyed := true }

/-- `CleanupTaskContext`. -/
def cleanupTaskContext
    (workers : Workers τ n)
    (wc : Context τ n)
    (t : Option τ) : Workers τ n :=
  let workers :=
    match workers.markedDel wc with
    | some marked =>
        { workers.lpelTaskDestroy marked with
          markedDel := Function.update workers.markedDel wc none }
    | none => workers
  match t with
  | some t =>
      { workers with markedDel := Function.update workers.markedDel wc (some t) }
  | none => workers

/-- `ProcessMessage`. -/
def processMessage
    (mechanism : Mechanism)
    (target : Option (Fin n))
    (workers : Workers τ n)
    (wc : Context τ n) :
    WorkerMsg τ → Workers τ n
  | .wakeup t =>
      let workers :=
        ((workers.assert ((workers.task t).state ≠ .ready)).note t
          fun history => { history with block := .idle }).setState t .ready
      if wc.isWorker then
        workers.lpelWorkerMakeTaskReady mechanism target t
      else
        workers.setWraptask wc (some t)
  | .terminate =>
      { workers with terminate := Function.update workers.terminate wc true }
  | .assign t =>
      let workers := workers.assert
        ((workers.task t).state = .created ∨ (workers.task t).state = .ready)
      let workers :=
        if (workers.task t).state = .created then workers.setState t .ready
        else workers
      (workers.countAssign wc t).putReady wc t
  | .spmdreq => workers.assert wc.isWorker

/-- Take a message from the mailbox and process it. -/
def receive
    (mechanism : Mechanism)
    (target : Option (Fin n))
    (workers : Workers τ n)
    (wc : Context τ n) : Option (Workers τ n) :=
  match workers.mailbox wc with
  | [] => none
  | msg :: rest =>
      some ({ workers with
        mailbox := Function.update workers.mailbox wc rest }.processMessage
          mechanism target wc msg)

/-- `LpelWorkerDispatcher( t)` up to its first message or its switch. -/
def lpelWorkerDispatcher
    (workers : Workers τ n)
    (self : Context τ n)
    (t : τ) : Workers τ n :=
  let wc := (workers.task t).workerContext
  if wc.isWorker then
    workers.setThread self (.dispatcher wc t)
  else
    (workers.setCurrent wc none).setThread self .back

/-- `LpelWorkerSelfTaskExit`. -/
def lpelWorkerSelfTaskExit (workers : Workers τ n) (t : τ) : Workers τ n :=
  let wc := (workers.task t).workerContext
  let workers := (workers.cleanupTaskContext wc (some t)).uncount wc t
  if wc.isWorker then workers
  else
    { workers with terminate := Function.update workers.terminate wc true }

/-- `LpelWorkerSelfTaskMigrate`, which ends in a switch back to the loop. -/
def lpelWorkerSelfTaskMigrate
    (workers : Workers τ n)
    (self : Context τ n)
    (t : τ)
    (wid : Fin n) : Workers τ n :=
  let wc := (workers.task t).workerContext
  if wc = .worker wid then
    workers.setThread self (.resume t)
  else
    { workers.setContext t (.worker wid) with
      migrated := Function.update workers.migrated wc (some t)
      thread := Function.update workers.thread self .back }

/-- `TaskStop`. -/
def taskStop (workers : Workers τ n) (t : τ) : Workers τ n :=
  workers.assert ((workers.task t).state ≠ .running)

/-- `LpelTaskYield`. -/
def lpelTaskYield
    (mechanism : Mechanism)
    (target : Option (Fin n))
    (workers : Workers τ n)
    (self : Context τ n)
    (ct : τ) : Workers τ n :=
  let workers := workers.assert ((workers.task ct).state = .running)
  let workers := workers.setState ct .ready
  let stays :=
    ((workers.putReady (workers.task ct).workerContext ct).taskStop
      ct).lpelWorkerDispatcher self ct
  match mechanism, target with
  | .waitProp, some wid =>
      if 0 < wid.val then
        (workers.taskStop ct).lpelWorkerSelfTaskMigrate self ct wid
      else
        stays
  | _, _ => stays

/-- `LpelTaskExit`. -/
def lpelTaskExit
    (workers : Workers τ n)
    (self : Context τ n)
    (ct : τ) : Workers τ n :=
  let workers := workers.assert ((workers.task ct).state = .running)
  (((workers.setState ct .zombie).lpelWorkerSelfTaskExit ct).taskStop
    ct).lpelWorkerDispatcher self ct

/-- `LpelTaskBlockStream`. -/
def lpelTaskBlockStream
    (workers : Workers τ n)
    (self : Context τ n)
    (t : τ) : Workers τ n :=
  ((workers.setState t .blocked).taskStop t).lpelWorkerDispatcher self t

/-- `LpelTaskCheckMigrate`. -/
def lpelTaskCheckMigrate
    (mechanism : Mechanism)
    (target : Option (Fin n))
    (workers : Workers τ n)
    (self : Context τ n)
    (t : τ) : Workers τ n :=
  if mechanism ≠ .rand ∨ (workers.task t).workerContext.isWorker = false then
    workers
  else
    let workers := workers.assert ((workers.task t).state = .running)
    match target with
    | none => workers
    | some wid =>
        if (workers.task t).workerContext = .worker wid then workers
        else
          ((workers.setState t .ready).taskStop t).lpelWorkerSelfTaskMigrate self
            t wid

/-- The hand-off of `wc->migrated` in `WorkerLoop`. -/
def handOff (workers : Workers τ n) (wc : Context τ n) : Workers τ n :=
  match workers.migrated wc with
  | none => workers
  | some t =>
      { (workers.sendAssign (workers.task t).workerContext t).uncount wc t with
        migrated := Function.update workers.migrated wc none }

/-- Switch to a task that was fetched. -/
def switchTo
    (workers : Workers τ n)
    (wc self : Context τ n)
    (t : τ) : Workers τ n :=
  (workers.setCurrent wc (some t)).setThread self (.resume t)

/-- Fetch the next ready task of a worker. -/
def fetchReady (workers : Workers τ n) (wc : Context τ n) :
    Option τ × Workers τ n :=
  let fetched := lpelSchedFetchReady (workers.sched wc)
  (fetched.1,
    { workers with sched := Function.update workers.sched wc fetched.2 })

/-- The next step of a thread outside the functions of tasks. -/
def threadNext
    (mechanism : Mechanism)
    (target : Option (Fin n))
    (workers : Workers τ n)
    (self : Context τ n) : Option (Workers τ n) :=
  match workers.thread self with
  | .loop =>
      if self.isWorker then
        match workers.fetchReady self with
        | (some t, workers) => some (workers.switchTo self self t)
        | (none, workers) => some (workers.setThread self .wait)
      else
        match workers.wraptask self with
        | some t => some ((workers.setWraptask self none).switchTo self self t)
        | none => some (workers.setThread self .wait)
  | .wait =>
      (workers.receive mechanism target self).map fun workers =>
        workers.setThread self .drain
  | .drain =>
      match workers.receive mechanism target self with
      | some workers => some workers
      | none =>
          if self.isWorker then
            if workers.numTasks self = 0 ∧ workers.terminate self then
              some (workers.setThread self .left)
            else
              some (workers.setThread self .loop)
          else
            if workers.terminate self then
              some ((workers.cleanupTaskContext self none).setThread self .left)
            else
              some (workers.setThread self .loop)
  | .resume t =>
      -- `TaskStart`
      some (((workers.assert ((workers.task t).state = .ready)).setState t
        .running).setThread self (.running t))
  | .dispatcher wc t =>
      match workers.receive mechanism target wc with
      | some workers => some workers
      | none => some (workers.setThread self (.pick wc t))
  | .pick wc t =>
      match workers.fetchReady wc with
      | (some next, workers) =>
          if next = t then some (workers.setThread self (.resume t))
          else some (workers.switchTo wc self next)
      | (none, workers) =>
          some ((workers.setCurrent wc none).setThread self .back)
  | .back =>
      if self.isWorker then
        some (((workers.handOff self).cleanupTaskContext self none).setThread
          self .drain)
      else
        some (workers.setThread self .drain)
  | .running _ | .committed _ | .left => none

end Workers

/-- What happens in a step. -/
inductive WorkerLabel (τ : Type) (n : ℕ)
  /-- Some thread calls `LpelTaskStart`. -/
  | start (t : τ)
  /-- Some thread calls `LpelTaskSetPriority`. -/
  | setPriority (t : τ) (prio : ℤ)
  /-- Some thread sends a worker the termination message. -/
  | terminate (wid : Fin n)
  /-- Some thread notifies a worker of an SPMD request. -/
  | notify (wid : Fin n)
  /-- A thread goes on in its loop or in the dispatcher. -/
  | thread (self : Context τ n) (target : Option (Fin n))
  /-- The running task calls `LpelTaskYield`. -/
  | yield (self : Context τ n) (target : Option (Fin n))
  /-- The running task calls `LpelTaskExit`, or its function returns. -/
  | exit (self : Context τ n)
  /-- The running task calls `LpelTaskCheckMigrate`. -/
  | checkMigrate (self : Context τ n) (target : Option (Fin n))
  /-- The running task decides in a stream operation that it has to block. -/
  | commit (self : Context τ n)
  /-- It calls `LpelTaskBlockStream`. -/
  | block (self : Context τ n)
  /-- The running task unblocks another one. -/
  | wakeup (self : Context τ n) (whom : τ) (target : Option (Fin n))
  /-- The handler of SPMD requests unblocks a task of its worker. -/
  | spmdWakeup (self : Context τ n) (whom : τ) (target : Option (Fin n))

section

variable {τ : Type} {n : ℕ} [DecidableEq τ]

/-- The thread is where `LpelSpmdHandleRequests` is called. -/
def Pc.handlesSpmd : Pc τ n → Bool
  | .loop | .pick _ _ => true
  | _ => false

/-- A step of the system. -/
def workersNext (mechanism : Mechanism) (workers : Workers τ n) :
    WorkerLabel τ n → Option (Workers τ n)
  | .start t =>
      if (workers.history t).started then
        none
      else
        some (((workers.assert ((workers.task t).state = .created)).note t
          fun history => { history with started := true }).sendAssign
            (workers.task t).workerContext t)
  | .setPriority t prio =>
      some { workers with
        task := Function.update workers.task t
          { workers.task t with prio := prio } }
  | .terminate wid => some (workers.send (.worker wid) .terminate)
  | .notify wid => some (workers.send (.worker wid) .spmdreq)
  | .thread self target => workers.threadNext mechanism target self
  | .yield self target =>
      match workers.thread self, workers.currentTask self with
      | .running _, some ct =>
          some (workers.lpelTaskYield mechanism target self ct)
      | _, _ => none
  | .exit self =>
      match workers.thread self, workers.currentTask self with
      | .running _, some ct => some (workers.lpelTaskExit self ct)
      | _, _ => none
  | .checkMigrate self target =>
      match workers.thread self, workers.currentTask self with
      | .running _, some ct =>
          some (workers.lpelTaskCheckMigrate mechanism target self ct)
      | _, _ => none
  | .commit self =>
      match workers.thread self with
      | .running t =>
          some ((workers.note t fun history =>
            { history with block := .committed }).setThread self (.committed t))
      | _ => none
  | .block self =>
      match workers.thread self with
      | .committed t => some (workers.lpelTaskBlockStream self t)
      | _ => none
  | .wakeup self whom target =>
      match workers.thread self with
      | .running t =>
          if (workers.history whom).block = .committed then
            some (workers.lpelWorkerTaskWakeup mechanism target t whom)
          else
            none
      | _ => none
  | .spmdWakeup self whom target =>
      if (workers.thread self).handlesSpmd ∧ self.isWorker ∧
          (workers.history whom).block = .committed ∧
          (workers.task whom).workerContext = self then
        some (workers.lpelWorkerTaskWakeupLocal mechanism target
          (workers.task whom).workerContext whom)
      else
        none

/-- The steps of a thread outside the functions of tasks, with what each of them
requires. -/
inductive ThreadStep
    (mechanism : Mechanism)
    (target : Option (Fin n))
    (workers : Workers τ n)
    (self : Context τ n) : Workers τ n → Prop
  | fetch {t : τ} {rest : Workers τ n} :
      workers.thread self = .loop →
      workers.fetchReady self = (some t, rest) →
      self.isWorker = true →
      ThreadStep mechanism target workers self (rest.switchTo self self t)
  | fetchNone {rest : Workers τ n} :
      workers.thread self = .loop →
      workers.fetchReady self = (none, rest) →
      self.isWorker = true →
      ThreadStep mechanism target workers self (rest.setThread self .wait)
  | takeWraptask {t : τ} :
      workers.thread self = .loop →
      workers.wraptask self = some t →
      self.isWorker = false →
      ThreadStep mechanism target workers self
        ((workers.setWraptask self none).switchTo self self t)
  | noWraptask :
      workers.thread self = .loop →
      workers.wraptask self = none →
      self.isWorker = false →
      ThreadStep mechanism target workers self (workers.setThread self .wait)
  | wait {received : Workers τ n} :
      workers.thread self = .wait →
      workers.receive mechanism target self = some received →
      ThreadStep mechanism target workers self
        (received.setThread self .drain)
  | drain {received : Workers τ n} :
      workers.thread self = .drain →
      workers.receive mechanism target self = some received →
      ThreadStep mechanism target workers self received
  | leaveWorker :
      workers.thread self = .drain →
      workers.receive mechanism target self = none →
      self.isWorker = true →
      workers.numTasks self = 0 →
      workers.terminate self = true →
      ThreadStep mechanism target workers self (workers.setThread self .left)
  | leaveWrapper :
      workers.thread self = .drain →
      workers.receive mechanism target self = none →
      self.isWorker = false →
      workers.terminate self = true →
      ThreadStep mechanism target workers self
        ((workers.cleanupTaskContext self none).setThread self .left)
  | again :
      workers.thread self = .drain →
      workers.receive mechanism target self = none →
      (workers.terminate self = true →
        self.isWorker = true ∧ workers.numTasks self ≠ 0) →
      ThreadStep mechanism target workers self (workers.setThread self .loop)
  /-- `TaskStart`. -/
  | taskStart {t : τ} :
      workers.thread self = .resume t →
      ThreadStep mechanism target workers self
        (((workers.assert ((workers.task t).state = .ready)).setState t
          .running).setThread self (.running t))
  | dispatcher {wc : Context τ n} {t : τ} {received : Workers τ n} :
      workers.thread self = .dispatcher wc t →
      workers.receive mechanism target wc = some received →
      ThreadStep mechanism target workers self received
  | dispatched {wc : Context τ n} {t : τ} :
      workers.thread self = .dispatcher wc t →
      workers.receive mechanism target wc = none →
      ThreadStep mechanism target workers self
        (workers.setThread self (.pick wc t))
  /-- The short circuit: the task that has stopped goes on. -/
  | pickSame {wc : Context τ n} {t : τ} {rest : Workers τ n} :
      workers.thread self = .pick wc t →
      workers.fetchReady wc = (some t, rest) →
      ThreadStep mechanism target workers self
        (rest.setThread self (.resume t))
  | pick {wc : Context τ n} {t next : τ} {rest : Workers τ n} :
      workers.thread self = .pick wc t →
      workers.fetchReady wc = (some next, rest) →
      next ≠ t →
      ThreadStep mechanism target workers self (rest.switchTo wc self next)
  | pickNone {wc : Context τ n} {t : τ} {rest : Workers τ n} :
      workers.thread self = .pick wc t →
      workers.fetchReady wc = (none, rest) →
      ThreadStep mechanism target workers self
        ((rest.setCurrent wc none).setThread self .back)
  | backWorker :
      workers.thread self = .back →
      self.isWorker = true →
      ThreadStep mechanism target workers self
        (((workers.handOff self).cleanupTaskContext self none).setThread self
          .drain)
  | backWrapper :
      workers.thread self = .back →
      self.isWorker = false →
      ThreadStep mechanism target workers self (workers.setThread self .drain)

/-- Every step of a thread is one of these. -/
theorem threadNext_cases
    {mechanism : Mechanism}
    {target : Option (Fin n)}
    {workers after : Workers τ n}
    {self : Context τ n}
    (taken : workers.threadNext mechanism target self = some after) :
    ThreadStep mechanism target workers self after := by
  unfold Workers.threadNext at taken
  cases position : workers.thread self with
  | loop =>
      simp only [position] at taken
      split at taken
      case isTrue isWorker =>
        split at taken
        case h_1 fetched =>
          obtain rfl := Option.some.inj taken
          exact .fetch position fetched isWorker
        case h_2 fetched =>
          obtain rfl := Option.some.inj taken
          exact .fetchNone position fetched isWorker
      case isFalse isWrapper =>
        rw [Bool.not_eq_true] at isWrapper
        split at taken
        case h_1 slot =>
          obtain rfl := Option.some.inj taken
          exact .takeWraptask position slot isWrapper
        case h_2 slot =>
          obtain rfl := Option.some.inj taken
          exact .noWraptask position slot isWrapper
  | wait =>
      simp only [position, Option.map_eq_some_iff] at taken
      obtain ⟨received, receives, rfl⟩ := taken
      exact .wait position receives
  | drain =>
      simp only [position] at taken
      split at taken
      case h_1 received =>
        obtain rfl := Option.some.inj taken
        exact .drain position received
      case h_2 noMessage =>
        split at taken
        case isTrue isWorker =>
          split at taken
          case isTrue finished =>
            obtain rfl := Option.some.inj taken
            exact .leaveWorker position noMessage isWorker finished.1 finished.2
          case isFalse unfinished =>
            obtain rfl := Option.some.inj taken
            refine .again position noMessage ?_
            intro terminate
            exact ⟨isWorker, fun counted => unfinished ⟨counted, terminate⟩⟩
        case isFalse isWrapper =>
          rw [Bool.not_eq_true] at isWrapper
          split at taken
          case isTrue terminate =>
            obtain rfl := Option.some.inj taken
            exact .leaveWrapper position noMessage isWrapper terminate
          case isFalse unfinished =>
            obtain rfl := Option.some.inj taken
            refine .again position noMessage ?_
            intro terminate
            exact absurd terminate unfinished
  | resume t =>
      simp only [position] at taken
      obtain rfl := Option.some.inj taken
      exact .taskStart position
  | dispatcher wc t =>
      simp only [position] at taken
      split at taken
      case h_1 received =>
        obtain rfl := Option.some.inj taken
        exact .dispatcher position received
      case h_2 noMessage =>
        obtain rfl := Option.some.inj taken
        exact .dispatched position noMessage
  | pick wc t =>
      simp only [position] at taken
      split at taken
      case h_1 next rest fetched =>
        split at taken
        case isTrue same =>
          subst same
          obtain rfl := Option.some.inj taken
          exact .pickSame position fetched
        case isFalse other =>
          obtain rfl := Option.some.inj taken
          exact .pick position fetched other
      case h_2 fetched =>
        obtain rfl := Option.some.inj taken
        exact .pickNone position fetched
  | back =>
      simp only [position] at taken
      split at taken
      case isTrue isWorker =>
        obtain rfl := Option.some.inj taken
        exact .backWorker position isWorker
      case isFalse isWrapper =>
        rw [Bool.not_eq_true] at isWrapper
        obtain rfl := Option.some.inj taken
        exact .backWrapper position isWrapper
  | running t | committed t | left => simp [position] at taken

/-- The steps of the system, with what each of them requires. -/
inductive WorkersStep (mechanism : Mechanism) (workers : Workers τ n) :
    WorkerLabel τ n → Workers τ n → Prop
  | start {t : τ} :
      (workers.history t).started = false →
      WorkersStep mechanism workers (.start t)
        (((workers.assert ((workers.task t).state = .created)).note t
          fun history => { history with started := true }).sendAssign
            (workers.task t).workerContext t)
  | setPriority {t : τ} {prio : ℤ} :
      WorkersStep mechanism workers (.setPriority t prio)
        { workers with
          task := Function.update workers.task t
            { workers.task t with prio := prio } }
  | terminate {wid : Fin n} :
      WorkersStep mechanism workers (.terminate wid)
        (workers.send (.worker wid) .terminate)
  | notify {wid : Fin n} :
      WorkersStep mechanism workers (.notify wid)
        (workers.send (.worker wid) .spmdreq)
  | thread {self : Context τ n} {target : Option (Fin n)} {after : Workers τ n} :
      workers.threadNext mechanism target self = some after →
      WorkersStep mechanism workers (.thread self target) after
  | yield {self : Context τ n} {target : Option (Fin n)} {t ct : τ} :
      workers.thread self = .running t →
      workers.currentTask self = some ct →
      WorkersStep mechanism workers (.yield self target)
        (workers.lpelTaskYield mechanism target self ct)
  | exit {self : Context τ n} {t ct : τ} :
      workers.thread self = .running t →
      workers.currentTask self = some ct →
      WorkersStep mechanism workers (.exit self)
        (workers.lpelTaskExit self ct)
  | checkMigrate {self : Context τ n} {target : Option (Fin n)} {t ct : τ} :
      workers.thread self = .running t →
      workers.currentTask self = some ct →
      WorkersStep mechanism workers (.checkMigrate self target)
        (workers.lpelTaskCheckMigrate mechanism target self ct)
  | commit {self : Context τ n} {t : τ} :
      workers.thread self = .running t →
      WorkersStep mechanism workers (.commit self)
        ((workers.note t fun history =>
          { history with block := .committed }).setThread self (.committed t))
  | block {self : Context τ n} {t : τ} :
      workers.thread self = .committed t →
      WorkersStep mechanism workers (.block self)
        (workers.lpelTaskBlockStream self t)
  | wakeup {self : Context τ n} {whom t : τ} {target : Option (Fin n)} :
      workers.thread self = .running t →
      (workers.history whom).block = .committed →
      WorkersStep mechanism workers (.wakeup self whom target)
        (workers.lpelWorkerTaskWakeup mechanism target t whom)
  | spmdWakeup {self : Context τ n} {whom : τ} {target : Option (Fin n)} :
      (workers.thread self).handlesSpmd = true →
      (workers.history whom).block = .committed →
      (workers.task whom).workerContext = self →
      WorkersStep mechanism workers (.spmdWakeup self whom target)
        (workers.lpelWorkerTaskWakeupLocal mechanism target
          (workers.task whom).workerContext whom)

/-- Every step is one of these. -/
theorem workersNext_cases
    {mechanism : Mechanism}
    {workers after : Workers τ n}
    {label : WorkerLabel τ n}
    (taken : workersNext mechanism workers label = some after) :
    WorkersStep mechanism workers label after := by
  cases label with
  | start t =>
      simp only [workersNext, Option.ite_none_left_eq_some,
        Option.some.injEq] at taken
      obtain ⟨unstarted, rfl⟩ := taken
      exact .start (by simpa using unstarted)
  | setPriority | terminate | notify =>
      obtain rfl := Option.some.inj taken
      constructor
  | thread self target => exact .thread taken
  | yield self target | exit self | checkMigrate self target =>
      simp only [workersNext] at taken
      split at taken
      case h_2 => exact absurd taken (by simp)
      case h_1 t ct position current =>
        obtain rfl := Option.some.inj taken
        constructor
        · exact position
        · exact current
  | commit self | block self =>
      simp only [workersNext] at taken
      split at taken
      case h_2 => exact absurd taken (by simp)
      case h_1 t position =>
        obtain rfl := Option.some.inj taken
        constructor
        exact position
  | wakeup self whom target =>
      simp only [workersNext] at taken
      split at taken
      case h_2 => exact absurd taken (by simp)
      case h_1 t position =>
        rw [Option.ite_none_right_eq_some] at taken
        obtain ⟨committed, taken⟩ := taken
        obtain rfl := Option.some.inj taken
        exact .wakeup position committed
  | spmdWakeup self whom target =>
      simp only [workersNext, Option.ite_none_right_eq_some,
        Option.some.injEq] at taken
      obtain ⟨⟨handles, -, committed, context⟩, rfl⟩ := taken
      exact .spmdWakeup handles committed context

/-- No task is started.  `home` says for which worker each task is created, with
`none` for `LPEL_MAP_OTHERS`; `unset` is what the counter of a wrapper holds,
which is not initialised. -/
def workersStart (home : τ → Option (Fin n)) (unset : τ → ℤ) : Workers τ n :=
  { task := fun t =>
      { state := .created
        workerContext :=
          match home t with
          | some wid => .worker wid
          | none => .wrapper t
        prio := 0 }
    history := fun _ =>
      { started := false
        destroyed := false
        block := .idle }
    mailbox := fun _ => []
    sched := fun _ => lpelSchedCreate
    wraptask := fun _ => none
    migrated := fun _ => none
    markedDel := fun _ => none
    currentTask := fun _ => none
    numTasks := fun wc =>
      match wc with
      | .worker _ => 0
      | .wrapper t => unset t
    terminate := fun _ => false
    thread := fun _ => .loop
    owned := fun _ => ∅
    failed := false }

/-- The workers under a migration mechanism. -/
def workersMachine (τ : Type) (n : ℕ) [DecidableEq τ] (mechanism : Mechanism) :
    Machine (Workers τ n) (WorkerLabel τ n) where
  init := fun workers => ∃ home unset, workers = workersStart home unset
  next := workersNext mechanism

end

end Decen
end Lpel
