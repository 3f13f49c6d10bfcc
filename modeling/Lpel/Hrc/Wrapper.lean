import Mathlib.Data.List.Nodup
import Lpel.Hrc.Scheduler

/-!
# Wrappers of the hierarchical back end

`hrc_worker_op.c`: a task that is not created for the workers gets a wrapper, a thread
that executes this task alone.  When the task has exited the context of the wrapper
goes into the list `freewrappers`, from where the next task that needs one takes it,
with its mailbox.

A step is one round of `WrapperLoop` or of what follows it, one message sent, or one
change of the state of a task.  The check of `freewrappers` before the lock and what is
done under the lock are two steps, since another wrapper may be added in between.  A
wakeup is sent once for each block, at any time after the task has committed to it;
`WrapperHistory` records what has happened to a task and is read by no step except
for such guards.

The task of a wrapper is created with `LPEL_MAP_OTHERS` or `LPEL_MAP_SOSI`, so the
`wid` of the context is negative.
-/

namespace Lpel
namespace Hrc

/-- Where the thread of a wrapper is. -/
inductive WrapperPc (τ : Type)
  /-- There is no thread. -/
  | ended
  /-- At the beginning of a round of `WrapperLoop`. -/
  | loop
  /-- In `LpelMailboxRecv`. -/
  | recv
  /-- Switched to the task, before its `TaskStart`. -/
  | dispatch (t : τ)
  /-- In the function of the task. -/
  | running (t : τ)
  /-- In a stream operation that is about to call `LpelTaskBlockStream`. -/
  | committed (t : τ)
  /-- At the loop condition. -/
  | back
  /-- Before `LpelTaskDestroy`. -/
  | destroy
  /-- Before `addFreeWrapper`. -/
  | release
  deriving DecidableEq

/-- The part of `workerctx_t` that a wrapper uses. -/
structure WrapperCtx (τ : Type) (n : ℕ) where
  pc : WrapperPc τ
  mailbox : List (WorkerMsg τ n)
  terminate : Bool
  currentTask : Option τ
  deriving DecidableEq

/-- The wakeup of the current block of a task. -/
inductive WrapperBlock
  /-- The task is not in a block, or it has been woken up. -/
  | idle
  /-- The task has committed to block, and its wakeup is not sent. -/
  | committed
  /-- The wakeup is in the mailbox. -/
  | sent
  deriving DecidableEq

/-- What has happened to a task. -/
structure WrapperHistory where
  started : Bool
  destroyed : Bool
  block : WrapperBlock
  deriving DecidableEq

/-- The tasks with wrappers and the contexts. -/
structure Wrappers (τ : Type) (n : ℕ) where
  state : τ → TaskState
  /-- `worker_context`. -/
  workerContext : τ → Option ℕ
  /-- In `getFreeWrapper` for a task: whether the check before the lock has found
  the list empty. -/
  checked : τ → Option Bool
  history : τ → WrapperHistory
  ctx : ℕ → WrapperCtx τ n
  freewrappers : List ℕ
  /-- The number of contexts that were allocated. -/
  allocated : ℕ
  /-- An assertion has failed. -/
  failed : Bool

namespace Wrappers

variable {τ : Type} {n : ℕ}

/-- `assert`. -/
def assert (wrappers : Wrappers τ n) (condition : Bool) : Wrappers τ n :=
  { wrappers with failed := wrappers.failed || !condition }

def setCtx (wrappers : Wrappers τ n) (c : ℕ) (ctx : WrapperCtx τ n) :
    Wrappers τ n :=
  { wrappers with ctx := Function.update wrappers.ctx c ctx }

/-- The thread of a wrapper goes on. -/
def setPc (wrappers : Wrappers τ n) (c : ℕ) (pc : WrapperPc τ) :
    Wrappers τ n :=
  wrappers.setCtx c { wrappers.ctx c with pc := pc }

/-- `LpelMailboxSend(wc->mailbox, &msg)`. -/
def send (wrappers : Wrappers τ n) (c : ℕ) (msg : WorkerMsg τ n) :
    Wrappers τ n :=
  wrappers.setCtx c
    { wrappers.ctx c with mailbox := (wrappers.ctx c).mailbox ++ [msg] }

/-- The end of `LpelCreateWrapperContext`: a context gets its thread. -/
def restart (wrappers : Wrappers τ n) (c : ℕ) (mailbox : List (WorkerMsg τ n)) :
    Wrappers τ n :=
  wrappers.setCtx c
    { pc := .loop, mailbox := mailbox, terminate := false, currentTask := none }

variable [DecidableEq τ]

def setState (wrappers : Wrappers τ n) (t : τ) (state : TaskState) :
    Wrappers τ n :=
  { wrappers with state := Function.update wrappers.state t state }

/-- Note that something has happened to a task. -/
def note
    (wrappers : Wrappers τ n)
    (t : τ)
    (event : WrapperHistory → WrapperHistory) : Wrappers τ n :=
  { wrappers with
    history := Function.update wrappers.history t (event (wrappers.history t)) }

/-- The rest of `LpelCreateWrapperContext`, after the check before the lock. -/
def lpelCreateWrapperContext
    (wrappers : Wrappers τ n)
    (t : τ)
    (empty : Bool) : Wrappers τ n :=
  match empty, wrappers.freewrappers with
  | false, c :: next =>
      { wrappers.restart c (wrappers.ctx c).mailbox with
        freewrappers := next
        workerContext := Function.update wrappers.workerContext t (some c) }
  | _, _ =>
      { wrappers.restart wrappers.allocated [] with
        allocated := wrappers.allocated + 1
        workerContext :=
          Function.update wrappers.workerContext t (some wrappers.allocated) }

/-- The `switch` of `WrapperLoop`. -/
def handle
    (wrappers : Wrappers τ n)
    (c : ℕ) : WorkerMsg τ n → Wrappers τ n
  | .assign t =>
      let wrappers :=
        (wrappers.assert (wrappers.state t = .created)).setState t .ready
      wrappers.setCtx c
        { wrappers.ctx c with currentTask := some t, pc := .back }
  | .wakeup t =>
      let wrappers :=
        ((wrappers.assert (wrappers.state t = .blocked)).setState t
          .ready).note t fun history => { history with block := .idle }
      wrappers.setCtx c
        { wrappers.ctx c with currentTask := some t, pc := .back }
  | _ => (wrappers.assert false).setPc c .back

/-- `LpelTaskDestroy(wp->current_task)`. -/
def lpelTaskDestroy (wrappers : Wrappers τ n) (c : ℕ) : Wrappers τ n :=
  match (wrappers.ctx c).currentTask with
  | some t =>
      ((wrappers.assert (wrappers.state t = .zombie)).note t fun history =>
        { history with destroyed := true }).setPc c .release
  | none => (wrappers.assert false).setPc c .release

/-- `addFreeWrapper`. -/
def addFreeWrapper (wrappers : Wrappers τ n) (c : ℕ) : Wrappers τ n :=
  { (wrappers.assert ((wrappers.ctx c).mailbox = [] ∧
      (wrappers.ctx c).terminate)).setPc c .ended with
    freewrappers := c :: wrappers.freewrappers }

/-- The next step of the thread of a wrapper that is not in the function of its
task. -/
def threadNext (wrappers : Wrappers τ n) (c : ℕ) : Option (Wrappers τ n) :=
  match (wrappers.ctx c).pc with
  | .loop =>
      match (wrappers.ctx c).currentTask with
      | some t => some (wrappers.setPc c (.dispatch t))
      | none => some (wrappers.setPc c .recv)
  | .recv =>
      match (wrappers.ctx c).mailbox with
      | [] => none
      | msg :: rest =>
          some ((wrappers.setCtx c
            { wrappers.ctx c with mailbox := rest }).handle c msg)
  | .dispatch t =>
      some (((wrappers.assert (wrappers.state t = .ready)).setState t
        .running).setPc c (.running t))
  | .back =>
      if (wrappers.ctx c).terminate then
        some (wrappers.setPc c .destroy)
      else
        some (wrappers.setPc c .loop)
  | .destroy => some (wrappers.lpelTaskDestroy c)
  | .release => some (wrappers.addFreeWrapper c)
  | .running _ | .committed _ | .ended => none

/-- `LpelTaskBlockStream`. -/
def lpelTaskBlockStream (wrappers : Wrappers τ n) (c : ℕ) (t : τ) :
    Wrappers τ n :=
  let wrappers :=
    (wrappers.assert (wrappers.state t = .running)).setState t .blocked
  wrappers.setCtx c { wrappers.ctx c with currentTask := none, pc := .back }

/-- `LpelTaskYield`. -/
def lpelTaskYield (wrappers : Wrappers τ n) (c : ℕ) (t : τ) : Wrappers τ n :=
  ((wrappers.assert (wrappers.state t = .running)).setState t .ready).setPc c
    .back

/-- `LpelTaskExit`, or the return of the function of the task. -/
def lpelTaskExit (wrappers : Wrappers τ n) (c : ℕ) (t : τ) : Wrappers τ n :=
  let wrappers :=
    (wrappers.assert (wrappers.state t = .running)).setState t .zombie
  wrappers.setCtx c { wrappers.ctx c with terminate := true, pc := .back }

end Wrappers

/-- What happens in a step. -/
inductive WrapperLabel (τ : Type)
  /-- Some thread calls `LpelTaskCreate`: the check before the lock. -/
  | check (t : τ)
  /-- The rest of `LpelTaskCreate`. -/
  | create (t : τ)
  /-- Some thread calls `LpelTaskStart`. -/
  | start (t : τ)
  /-- Some thread calls `LpelTaskUnblock` for the current block of a task. -/
  | wakeup (t : τ)
  /-- The thread of a wrapper goes on. -/
  | thread (c : ℕ)
  /-- The task of a wrapper decides in a stream operation that it has to block. -/
  | commit (c : ℕ)
  /-- It calls `LpelTaskBlockStream`. -/
  | block (c : ℕ)
  /-- It calls `LpelTaskYield`. -/
  | yield (c : ℕ)
  /-- It calls `LpelTaskExit`, or its function returns. -/
  | exit (c : ℕ)

section

variable {τ : Type} {n : ℕ} [DecidableEq τ]

/-- A step of the wrappers. -/
def wrappersNext (wrappers : Wrappers τ n) :
    WrapperLabel τ → Option (Wrappers τ n)
  | .check t =>
      if wrappers.checked t = none then
        some { wrappers with
          checked := Function.update wrappers.checked t
            (some wrappers.freewrappers.isEmpty) }
      else
        none
  | .create t =>
      match wrappers.workerContext t, wrappers.checked t with
      | none, some empty => some (wrappers.lpelCreateWrapperContext t empty)
      | _, _ => none
  | .start t =>
      match wrappers.workerContext t with
      | some c =>
          if (wrappers.history t).started then
            none
          else
            some (((wrappers.assert (wrappers.state t = .created)).note t
              fun history => { history with started := true }).send c
                (.assign t))
      | none => none
  | .wakeup t =>
      match wrappers.workerContext t with
      | some c =>
          if (wrappers.history t).block = .committed then
            some ((wrappers.note t fun history =>
              { history with block := .sent }).send c (.wakeup t))
          else
            none
      | none => none
  | .thread c => wrappers.threadNext c
  | .commit c =>
      match (wrappers.ctx c).pc with
      | .running t =>
          some ((wrappers.note t fun history =>
            { history with block := .committed }).setPc c (.committed t))
      | _ => none
  | .block c =>
      match (wrappers.ctx c).pc with
      | .committed t => some (wrappers.lpelTaskBlockStream c t)
      | _ => none
  | .yield c =>
      match (wrappers.ctx c).pc with
      | .running t => some (wrappers.lpelTaskYield c t)
      | _ => none
  | .exit c =>
      match (wrappers.ctx c).pc with
      | .running t => some (wrappers.lpelTaskExit c t)
      | _ => none

/-- The steps of the wrappers, with what each of them requires. -/
inductive WrappersStep (wrappers : Wrappers τ n) :
    WrapperLabel τ → Wrappers τ n → Prop
  | check {t : τ} :
      wrappers.checked t = none →
      WrappersStep wrappers (.check t)
        { wrappers with
          checked := Function.update wrappers.checked t
            (some wrappers.freewrappers.isEmpty) }
  | create {t : τ} {empty : Bool} :
      wrappers.workerContext t = none →
      wrappers.checked t = some empty →
      WrappersStep wrappers (.create t)
        (wrappers.lpelCreateWrapperContext t empty)
  | start {t : τ} {c : ℕ} :
      wrappers.workerContext t = some c →
      (wrappers.history t).started = false →
      WrappersStep wrappers (.start t)
        (((wrappers.assert (wrappers.state t = .created)).note t
          fun history => { history with started := true }).send c (.assign t))
  | wakeup {t : τ} {c : ℕ} :
      wrappers.workerContext t = some c →
      (wrappers.history t).block = .committed →
      WrappersStep wrappers (.wakeup t)
        ((wrappers.note t fun history =>
          { history with block := .sent }).send c (.wakeup t))
  | thread {c : ℕ} {after : Wrappers τ n} :
      wrappers.threadNext c = some after →
      WrappersStep wrappers (.thread c) after
  | commit {c : ℕ} {t : τ} :
      (wrappers.ctx c).pc = .running t →
      WrappersStep wrappers (.commit c)
        ((wrappers.note t fun history =>
          { history with block := .committed }).setPc c (.committed t))
  | block {c : ℕ} {t : τ} :
      (wrappers.ctx c).pc = .committed t →
      WrappersStep wrappers (.block c) (wrappers.lpelTaskBlockStream c t)
  | yield {c : ℕ} {t : τ} :
      (wrappers.ctx c).pc = .running t →
      WrappersStep wrappers (.yield c) (wrappers.lpelTaskYield c t)
  | exit {c : ℕ} {t : τ} :
      (wrappers.ctx c).pc = .running t →
      WrappersStep wrappers (.exit c) (wrappers.lpelTaskExit c t)

/-- Every step is one of these. -/
theorem wrappersNext_cases
    {wrappers after : Wrappers τ n}
    {label : WrapperLabel τ}
    (taken : wrappersNext wrappers label = some after) :
    WrappersStep wrappers label after := by
  cases label with
  | check t =>
      obtain ⟨unchecked, same⟩ := Option.ite_none_right_eq_some.mp taken
      obtain rfl := Option.some.inj same
      exact .check unchecked
  | create t =>
      simp only [wrappersNext] at taken
      split at taken
      case h_1 none empty =>
        obtain rfl := Option.some.inj taken
        exact .create none empty
      case h_2 => cases taken
  | start t =>
      simp only [wrappersNext] at taken
      split at taken
      case h_1 c context =>
        obtain ⟨unstarted, same⟩ := Option.ite_none_left_eq_some.mp taken
        obtain rfl := Option.some.inj same
        exact .start context (by simpa using unstarted)
      case h_2 => cases taken
  | wakeup t =>
      simp only [wrappersNext] at taken
      split at taken
      case h_1 c context =>
        obtain ⟨committed, same⟩ := Option.ite_none_right_eq_some.mp taken
        obtain rfl := Option.some.inj same
        exact .wakeup context committed
      case h_2 => cases taken
  | thread c => exact .thread taken
  | commit c | block c | yield c | exit c =>
      simp only [wrappersNext] at taken
      split at taken
      case h_1 t position =>
        obtain rfl := Option.some.inj taken
        constructor
        exact position
      case h_2 => cases taken

/-- No task is created, and there is no wrapper. -/
def wrappersStart : Wrappers τ n where
  state := fun _ => .created
  workerContext := fun _ => none
  checked := fun _ => none
  history := fun _ => { started := false, destroyed := false, block := .idle }
  ctx := fun _ =>
    { pc := .ended, mailbox := [], terminate := false, currentTask := none }
  freewrappers := []
  allocated := 0
  failed := false

/-- The wrappers. -/
def wrappersMachine (τ : Type) (n : ℕ) [DecidableEq τ] :
    Machine (Wrappers τ n) (WrapperLabel τ) where
  init := fun wrappers => wrappers = wrappersStart
  next := wrappersNext

end

end Hrc
end Lpel
