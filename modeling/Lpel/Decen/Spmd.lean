import Mathlib.Logic.Function.Basic
import Lpel.Lib.Machine

/-!
# Requests for SPMD execution

`spmdext.c`: a task asks all workers to execute a function together.  The
requests are put into a queue of `n` slots, whose tail is advanced by an atomic
addition before the slot is written.  Every worker handles the requests before it
executes its next task: the worker of the request is the master of a round, in
which all workers meet at a start barrier and at a stop barrier.  Each worker has
one counting semaphore for both barriers and for its release as a slave.

A step of a worker is one access to the queue, to an atomic variable or to a
semaphore.  A request is copied from its slot in one step and written to it in
four.  `wctx` stands for the worker itself and for its identifier, and the
function that is requested is not called by the code.  The dispatcher calls the
handler as soon as the request of its task is written.

A failed assertion stops the program.  `issued`, `taken` and `round` record what
has happened and are read by no step.
-/

namespace Lpel
namespace Decen

/-- `spmdreq_t`, as it lies in the queue. -/
structure Spmdreq (n : ℕ) (F A τ : Type) where
  wctx : Option (Fin n)
  func : F
  arg : A
  task : τ

/-- `spmdreq_t` whose `wctx` is not `NULL`. -/
structure Request (n : ℕ) (F A τ : Type) where
  wctx : Fin n
  func : F
  arg : A
  task : τ
  deriving DecidableEq

/-- Where a worker is. -/
inductive SpmdPc (n : ℕ) (F A τ : Type)
  /-- In no function of the module. -/
  | out
  /-- In `LpelSpmdRequest`, before `atomic_fetch_add`. -/
  | append (req : Request n F A τ)
  /-- Before one of the fields is written. -/
  | setWctx (tail : ℕ) (req : Request n F A τ)
  | setFunc (tail : ℕ) (req : Request n F A τ)
  | setArg (tail : ℕ) (req : Request n F A τ)
  | setTask (tail : ℕ) (req : Request n F A τ)
  /-- In `LpelSpmdHandleRequests`, before `head` is loaded. -/
  | load
  /-- Before the request is copied. -/
  | copy (head : ℕ)
  /-- The master has waited `i` times at the start barrier. -/
  | startWait (head : ℕ) (curreq : Request n F A τ) (i : ℕ)
  /-- In the critical section, before the slot is invalidated. -/
  | invalidate (head : ℕ) (curreq : Request n F A τ)
  | moveHead (head : ℕ) (curreq : Request n F A τ)
  | loadTail (curreq : Request n F A τ)
  | storeTail (tail : ℕ) (curreq : Request n F A τ)
  /-- The master signals the other threads, before thread `i`. -/
  | signal (curreq : Request n F A τ) (i : ℕ)
  /-- Not the master, before its signal at the start barrier. -/
  | enter (curreq : Request n F A τ)
  /-- Before the wait at the start barrier. -/
  | wait (curreq : Request n F A τ)
  /-- Between the barriers. -/
  | exec (curreq : Request n F A τ)
  /-- The master has waited `i` times at the stop barrier. -/
  | stopWait (curreq : Request n F A τ) (i : ℕ)
  /-- Before the pending flag is cleared. -/
  | finish (curreq : Request n F A τ)
  /-- Not the master, before its signal at the stop barrier. -/
  | leave (curreq : Request n F A τ)
  deriving DecidableEq

/-- The assertions on the pending flag. -/
inductive SpmdFailure
  /-- `assert( 0 == worker_data[wc->wid].pending)`. -/
  | outstanding
  /-- `assert( 1 == master_data->pending )`. -/
  | notPending
  deriving DecidableEq

/-- The variables of the module and the workers. -/
structure Spmd (n : ℕ) (F A τ : Type) where
  reqQueue : ℕ → Spmdreq n F A τ
  qhead : ℕ
  qtail : ℕ
  sema : Fin n → ℕ
  pending : Fin n → ℕ
  thread : Fin n → SpmdPc n F A τ
  failed : Option SpmdFailure
  /-- The requests, in the order of their `atomic_fetch_add`. -/
  issued : List (Request n F A τ)
  /-- The requests that were taken from the queue, by their workers. -/
  taken : List (Fin n)
  /-- How many rounds a worker has completed. -/
  round : Fin n → ℕ

namespace Spmd

variable {n : ℕ} {F A τ : Type}

def setThread (spmd : Spmd n F A τ) (w : Fin n) (pc : SpmdPc n F A τ) :
    Spmd n F A τ :=
  { spmd with thread := Function.update spmd.thread w pc }

/-- Write to a slot of the queue. -/
def setSlot (spmd : Spmd n F A τ) (slot : ℕ) (req : Spmdreq n F A τ) :
    Spmd n F A τ :=
  { spmd with reqQueue := Function.update spmd.reqQueue slot req }

def setPending (spmd : Spmd n F A τ) (w : Fin n) (pending : ℕ) :
    Spmd n F A τ :=
  { spmd with pending := Function.update spmd.pending w pending }

/-- `sem_post`. -/
def semPost (spmd : Spmd n F A τ) (w : Fin n) : Spmd n F A τ :=
  { spmd with sema := Function.update spmd.sema w (spmd.sema w + 1) }

/-- `sem_wait`, which blocks while the semaphore is zero. -/
def semWait (spmd : Spmd n F A τ) (w : Fin n) : Option (Spmd n F A τ) :=
  if 0 < spmd.sema w then
    some { spmd with sema := Function.update spmd.sema w (spmd.sema w - 1) }
  else
    none

/-- `assert`. -/
def fail (spmd : Spmd n F A τ) (failure : SpmdFailure) : Spmd n F A τ :=
  { spmd with failed := some failure }

/-- The worker goes on to its next round. -/
def nextRound (spmd : Spmd n F A τ) (w : Fin n) : Spmd n F A τ :=
  { spmd with
    thread := Function.update spmd.thread w .load
    round := Function.update spmd.round w (spmd.round w + 1) }

/-- `LpelSpmdRequest` up to the addition. -/
def lpelSpmdRequest
    (spmd : Spmd n F A τ)
    (req : Request n F A τ) : Spmd n F A τ :=
  if spmd.pending req.wctx = 0 then
    (spmd.setPending req.wctx 1).setThread req.wctx (.append req)
  else
    spmd.fail .outstanding

/-- `atomic_fetch_add(&qtail, 1)`. -/
def fetchAdd
    (spmd : Spmd n F A τ)
    (w : Fin n)
    (req : Request n F A τ) : Spmd n F A τ :=
  { spmd with
    qtail := spmd.qtail + 1
    issued := spmd.issued ++ [req]
    thread :=
      Function.update spmd.thread w (.setWctx (spmd.qtail % n) req) }

/-- `curreq = req_queue[head]`, and which part of the start barrier follows. -/
def copyRequest (spmd : Spmd n F A τ) (w : Fin n) (head : ℕ) :
    Spmd n F A τ :=
  let slot := spmd.reqQueue head
  match slot.wctx with
  | none =>
      -- all requests handled
      spmd.setThread w .out
  | some m =>
      let curreq : Request n F A τ :=
        { wctx := m
          func := slot.func
          arg := slot.arg
          task := slot.task }
      if m = w then
        spmd.setThread w (.startWait head curreq 0)
      else
        spmd.setThread w (.enter curreq)

/-- `req_queue[head].wctx = NULL`. -/
def takeRequest
    (spmd : Spmd n F A τ)
    (w : Fin n)
    (head : ℕ)
    (curreq : Request n F A τ) : Spmd n F A τ :=
  { (spmd.setSlot head { spmd.reqQueue head with wctx := none }).setThread w
      (.moveHead head curreq) with
    taken := spmd.taken ++ [curreq.wctx] }

/-- One round of the loop that signals the other threads. -/
def signalNext
    (spmd : Spmd n F A τ)
    (w : Fin n)
    (curreq : Request n F A τ)
    (i : ℕ) : Spmd n F A τ :=
  if inside : i < n then
    if (⟨i, inside⟩ : Fin n) ≠ w then
      (spmd.semPost ⟨i, inside⟩).setThread w (.signal curreq (i + 1))
    else
      spmd.setThread w (.signal curreq (i + 1))
  else
    spmd.setThread w (.exec curreq)

/-- The next step of a worker in a function of the module. -/
def workerNext (spmd : Spmd n F A τ) (w : Fin n) : Option (Spmd n F A τ) :=
  match spmd.thread w with
  | .out => none
  | .append req => some (spmd.fetchAdd w req)
  | .setWctx tail req =>
      some ((spmd.setSlot tail
        { spmd.reqQueue tail with wctx := some req.wctx }).setThread w
          (.setFunc tail req))
  | .setFunc tail req =>
      some ((spmd.setSlot tail
        { spmd.reqQueue tail with func := req.func }).setThread w
          (.setArg tail req))
  | .setArg tail req =>
      some ((spmd.setSlot tail
        { spmd.reqQueue tail with arg := req.arg }).setThread w
          (.setTask tail req))
  | .setTask tail req =>
      some ((spmd.setSlot tail
        { spmd.reqQueue tail with task := req.task }).setThread w .load)
  | .load => some (spmd.setThread w (.copy spmd.qhead))
  | .copy head => some (spmd.copyRequest w head)
  | .startWait head curreq i =>
      if i < n - 1 then
        (spmd.semWait w).map fun spmd =>
          spmd.setThread w (.startWait head curreq (i + 1))
      else
        some (spmd.setThread w (.invalidate head curreq))
  | .invalidate head curreq => some (spmd.takeRequest w head curreq)
  | .moveHead head curreq =>
      some { spmd.setThread w (.loadTail curreq) with
        qhead := (head + 1) % n }
  | .loadTail curreq =>
      some (spmd.setThread w (.storeTail spmd.qtail curreq))
  | .storeTail tail curreq =>
      some { spmd.setThread w (.signal curreq 0) with
        qtail := if n ≤ tail then tail % n else tail }
  | .signal curreq i => some (spmd.signalNext w curreq i)
  | .enter curreq =>
      some ((spmd.semPost curreq.wctx).setThread w (.wait curreq))
  | .wait curreq =>
      (spmd.semWait w).map fun spmd => spmd.setThread w (.exec curreq)
  | .exec curreq =>
      if curreq.wctx = w then
        some (spmd.setThread w (.stopWait curreq 0))
      else
        some (spmd.setThread w (.leave curreq))
  | .stopWait curreq i =>
      if i < n - 1 then
        (spmd.semWait w).map fun spmd =>
          spmd.setThread w (.stopWait curreq (i + 1))
      else
        some (spmd.setThread w (.finish curreq))
  | .finish _ =>
      if spmd.pending w = 1 then
        some ((spmd.setPending w 0).nextRound w)
      else
        some (spmd.fail .notPending)
  | .leave curreq => some ((spmd.semPost curreq.wctx).nextRound w)

end Spmd

/-- What happens in a step. -/
inductive SpmdLabel (n : ℕ) (F A τ : Type)
  /-- A task on the worker calls `LpelTaskEnterSPMD`. -/
  | request (req : Request n F A τ)
  /-- The worker calls `LpelSpmdHandleRequests` from its loop or from the
  dispatcher. -/
  | handle (w : Fin n)
  /-- The worker goes on in one of the two functions. -/
  | step (w : Fin n)

section

variable {n : ℕ} {F A τ : Type}

/-- A step of the system. -/
def spmdNext (spmd : Spmd n F A τ) (label : SpmdLabel n F A τ) :
    Option (Spmd n F A τ) :=
  match spmd.failed with
  | some _ => none
  | none =>
      match label with
      | .request req =>
          match spmd.thread req.wctx with
          | .out => some (spmd.lpelSpmdRequest req)
          | _ => none
      | .handle w =>
          match spmd.thread w with
          | .out => some (spmd.setThread w .load)
          | _ => none
      | .step w => spmd.workerNext w

/-- A step is a call on a worker that is in no function of the module, or the next
step of one that is. -/
theorem spmdNext_cases
    {spmd after : Spmd n F A τ}
    {label : SpmdLabel n F A τ}
    (taken : spmdNext spmd label = some after) :
    spmd.failed = none ∧
      ((∃ req, label = .request req ∧ spmd.thread req.wctx = .out ∧
          after = spmd.lpelSpmdRequest req) ∨
        (∃ w, label = .handle w ∧ spmd.thread w = .out ∧
          after = spmd.setThread w .load) ∨
        ∃ w, label = .step w ∧ spmd.workerNext w = some after) := by
  unfold spmdNext at taken
  split at taken
  case h_1 => exact absurd taken (by simp)
  case h_2 running =>
    refine ⟨running, ?_⟩
    cases label with
    | request req =>
        dsimp only at taken
        split at taken
        case h_1 position =>
          exact .inl ⟨req, rfl, position, (Option.some.inj taken).symm⟩
        case h_2 => exact absurd taken (by simp)
    | handle w =>
        dsimp only at taken
        split at taken
        case h_1 position =>
          exact .inr (.inl ⟨w, rfl, position, (Option.some.inj taken).symm⟩)
        case h_2 => exact absurd taken (by simp)
    | step w => exact .inr (.inr ⟨w, rfl, taken⟩)

/-- A step is made by a worker. -/
theorem SpmdLabel.pos : SpmdLabel n F A τ → 0 < n
  | .request req => req.wctx.pos
  | .handle w | .step w => w.pos

/-- `LpelSpmdInit`, with what `malloc` left in the other fields of the queue. -/
def lpelSpmdInit (memory : ℕ → F × A × τ) : Spmd n F A τ :=
  { reqQueue := fun slot =>
      { wctx := none
        func := (memory slot).1
        arg := (memory slot).2.1
        task := (memory slot).2.2 }
    qhead := 0
    qtail := 0
    sema := fun _ => 0
    pending := fun _ => 0
    thread := fun _ => .out
    failed := none
    issued := []
    taken := []
    round := fun _ => 0 }

/-- The SPMD module with `n` workers. -/
def spmdMachine (n : ℕ) (F A τ : Type) :
    Machine (Spmd n F A τ) (SpmdLabel n F A τ) where
  init := fun spmd => ∃ memory, spmd = lpelSpmdInit memory
  next := spmdNext

end

end Decen
end Lpel
