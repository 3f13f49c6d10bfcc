import Lpel.Lib.ProcessNetwork
import Lpel.Stream.System

/-!
# Tasks that communicate through streams

Any number of tasks and streams, where each stream has been opened by one task
for writing and by one for reading, and the tasks only call `LpelStreamWrite` and
`LpelStreamRead`.  The granularity is the one of the streams of a single
consumer: every operation on a semaphore, every critical section, every top with
its pop, every block, every lookup of the task at the other end and every
`LpelTaskUnblock` is one step, and so is the return from a block.  Nobody polls,
so `is_poll` stays 0.

The function of a task is a process.  It goes on where the stream operation puts
its item or takes one; what is left of the operation then only releases a
semaphore and wakes the other task.
-/

namespace Lpel
namespace TaskNetwork

/-- One back end with the streams and the functions of all tasks. -/
structure Config (τ ι α σ : Type) where
  /-- The buffer implementation. -/
  impl : BufferImpl α
  /-- The size given to `LpelStreamCreate`. -/
  size : ι → StreamSize
  /-- Whether reads and writes of the stream use `e_sem`. -/
  bounded : ι → Bool
  /-- A buffer that can be full is guarded by `e_sem`. -/
  finite_bounded : impl.finite = true → ∀ i, bounded i = true
  /-- The functions of the tasks, and the tasks that open each stream. -/
  tasks : Processes τ ι α σ

/-- How many items a stream can hold. -/
def Config.capacity
    {τ ι α σ : Type}
    (config : Config τ ι α σ)
    (i : ι) : Option ℕ :=
  if config.bounded i then some (config.size i).val else none

/-- Where a task is in `LpelStreamWrite` or `LpelStreamRead`. -/
inductive CallPc
  /-- The semaphore was 0, before `LpelTaskBlockStream`. -/
  | toBlock
  /-- In `LpelTaskBlockStream`. -/
  | blocked
  /-- Before the put, or before the top and the pop. -/
  | buffer
  /-- Before the V operation on the other semaphore. -/
  | release
  /-- That semaphore was negative, before the lookup of the other task. -/
  | lookup
  /-- Before `LpelTaskUnblock`. -/
  | unblock
  deriving DecidableEq

/-- Where a task is. -/
inductive TaskPc (ι : Type)
  /-- In its own function. -/
  | outside
  /-- In `LpelStreamWrite`. -/
  | write (i : ι) (pc : CallPc)
  /-- In `LpelStreamRead`. -/
  | read (i : ι) (pc : CallPc)
  deriving DecidableEq

/-- What a step means for the scheduler. -/
inductive Effect (τ : Type)
  | none
  /-- The task will call `LpelTaskBlockStream`. -/
  | commit
  /-- It calls `LpelTaskBlockStream`. -/
  | block
  /-- It calls `LpelTaskUnblock`. -/
  | unblock (whom : τ)
  deriving DecidableEq

variable {τ ι α σ : Type}

/-- The streams, and what each task is doing. -/
structure State (config : Config τ ι α σ) where
  stream : ι → StreamSystem.Stream config.impl.Buf
  pc : τ → TaskPc ι
  /-- Wakeups sent to each task and not yet used. -/
  wake : τ → ℕ
  process : τ → σ
  /-- History: the items put into each stream. -/
  written : ι → List α
  /-- History: the items popped from each stream. -/
  popped : ι → List α

namespace State

variable {config : Config τ ι α σ} [DecidableEq τ] [DecidableEq ι]

def setPc (state : State config) (t : τ) (pc : TaskPc ι) : State config :=
  { state with pc := Function.update state.pc t pc }

def setStream
    (state : State config)
    (i : ι)
    (stream : StreamSystem.Stream config.impl.Buf) : State config :=
  { state with stream := Function.update state.stream i stream }

def setProcess (state : State config) (t : τ) (process : σ) : State config :=
  { state with process := Function.update state.process t process }

/-- A wakeup is sent. -/
def sendWake (state : State config) (t : τ) : State config :=
  { state with wake := Function.update state.wake t (state.wake t + 1) }

/-- The P operation on `e_sem` in `LpelStreamWrite`. -/
def lpelStreamWrite (state : State config) (t : τ) (i : ι) :
    Effect τ × State config :=
  if config.bounded i then
    let stream := state.stream i
    let taken := state.setStream i { stream with eSem := stream.eSem - 1 }
    if stream.eSem = 0 then
      (.commit, taken.setPc t (.write i .toBlock))
    else
      (.none, taken.setPc t (.write i .buffer))
  else
    (.none, state.setPc t (.write i .buffer))

/-- The critical section of `LpelStreamWrite`. -/
def putUnderLock
    (state : State config)
    (t : τ)
    (i : ι)
    (item : α)
    (after : σ) : State config :=
  let stream := state.stream i
  (({ state with
    written := Function.update state.written i (state.written i ++ [item]) }
      |>.setStream i
        { stream with
          buffer := config.impl.lpelBufferPut stream.buffer item
          isPoll := false }).setProcess t after).setPc t (.write i .release)

/-- The V operation on `n_sem`. -/
def releaseItem (state : State config) (t : τ) (i : ι) : State config :=
  let stream := state.stream i
  (state.setStream i { stream with nSem := stream.nSem + 1 }).setPc t
    (if stream.nSem < 0 then .write i .lookup else .outside)

/-- The P operation on `n_sem` in `LpelStreamRead`. -/
def lpelStreamRead (state : State config) (t : τ) (i : ι) :
    Effect τ × State config :=
  let stream := state.stream i
  let taken := state.setStream i { stream with nSem := stream.nSem - 1 }
  if stream.nSem = 0 then
    (.commit, taken.setPc t (.read i .toBlock))
  else
    (.none, taken.setPc t (.read i .buffer))

/-- Take the top item; the step is not enabled where `item != NULL` fails. -/
def topAndPop
    (state : State config)
    (t : τ)
    (i : ι)
    (after : α → σ) : Option (State config) :=
  let stream := state.stream i
  (config.impl.lpelBufferTop stream.buffer).map fun item =>
    (({ state with
      popped := Function.update state.popped i (state.popped i ++ [item]) }
        |>.setStream i
          { stream with
            buffer := config.impl.lpelBufferPop stream.buffer }).setProcess t
              (after item)).setPc t (.read i .release)

/-- The V operation on `e_sem`. -/
def releaseSpace (state : State config) (t : τ) (i : ι) : State config :=
  if config.bounded i then
    let stream := state.stream i
    (state.setStream i { stream with eSem := stream.eSem + 1 }).setPc t
      (if stream.eSem < 0 then .read i .lookup else .outside)
  else
    state.setPc t .outside

/-- The next step of a task that is not blocked. -/
def step (state : State config) (t : τ) : Option (Effect τ × State config) :=
  match state.pc t with
  | .outside =>
      match config.tasks.act t (state.process t) with
      | .write i _ _ => some (state.lpelStreamWrite t i)
      | .read i _ => some (state.lpelStreamRead t i)
      | .exit => none
  | .write i .toBlock => some (.block, state.setPc t (.write i .blocked))
  | .read i .toBlock => some (.block, state.setPc t (.read i .blocked))
  | .write i .buffer =>
      match config.tasks.act t (state.process t) with
      | .write _ item after => some (.none, state.putUnderLock t i item after)
      | _ => none
  | .read i .buffer =>
      match config.tasks.act t (state.process t) with
      | .read _ after =>
          (state.topAndPop t i after).map fun popped => (.none, popped)
      | _ => none
  | .write i .release => some (.none, state.releaseItem t i)
  | .read i .release => some (.none, state.releaseSpace t i)
  | .write i .lookup => some (.none, state.setPc t (.write i .unblock))
  | .read i .lookup => some (.none, state.setPc t (.read i .unblock))
  | .write i .unblock =>
      let whom := config.tasks.reader i
      some (.unblock whom, (state.sendWake whom).setPc t .outside)
  | .read i .unblock =>
      let whom := config.tasks.writer i
      some (.unblock whom, (state.sendWake whom).setPc t .outside)
  | .write _ .blocked | .read _ .blocked => none

/-- `LpelTaskBlockStream` returns. -/
def returnFromBlock (state : State config) (t : τ) : State config :=
  let woken :=
    { state with wake := Function.update state.wake t (state.wake t - 1) }
  match state.pc t with
  | .write i .blocked => woken.setPc t (.write i .buffer)
  | .read i .blocked => woken.setPc t (.read i .buffer)
  | _ => state

/-- `LpelStreamCreate` and the opening of all streams. -/
def initial (config : Config τ ι α σ) : State config where
  stream := fun i =>
    { buffer := config.impl.lpelBufferInit (config.size i)
      nSem := 0
      eSem := (config.size i).val
      isPoll := false }
  pc := fun _ => .outside
  wake := fun _ => 0
  process := config.tasks.start
  written := fun _ => []
  popped := fun _ => []

end State

/-- Whether the task has called `LpelTaskBlockStream` or is about to. -/
def TaskPc.waits : TaskPc ι → Bool
  | .write _ .toBlock | .write _ .blocked
  | .read _ .toBlock | .read _ .blocked => true
  | _ => false

/-- Whether the task is in `LpelTaskBlockStream`. -/
def TaskPc.isBlocked : TaskPc ι → Bool
  | .write _ .blocked | .read _ .blocked => true
  | _ => false

/-- What a step of a task does. -/
inductive Stepped
    {config : Config τ ι α σ}
    [DecidableEq τ]
    [DecidableEq ι]
    (state : State config)
    (t : τ) : Effect τ → State config → Prop
  | reserveFull {i : ι} {item : α} {goesOn : σ} :
      state.pc t = .outside →
      config.tasks.act t (state.process t) = .write i item goesOn →
      config.bounded i = true →
      (state.stream i).eSem = 0 →
      Stepped state t .commit
        ((state.setStream i
          { state.stream i with eSem := (state.stream i).eSem - 1 }).setPc t
            (.write i .toBlock))
  | reserveCell {i : ι} {item : α} {goesOn : σ} :
      state.pc t = .outside →
      config.tasks.act t (state.process t) = .write i item goesOn →
      config.bounded i = true →
      (state.stream i).eSem ≠ 0 →
      Stepped state t .none
        ((state.setStream i
          { state.stream i with eSem := (state.stream i).eSem - 1 }).setPc t
            (.write i .buffer))
  | reserveNothing {i : ι} {item : α} {goesOn : σ} :
      state.pc t = .outside →
      config.tasks.act t (state.process t) = .write i item goesOn →
      config.bounded i = false →
      Stepped state t .none (state.setPc t (.write i .buffer))
  | reserveItem {i : ι} {goesOn : α → σ} :
      state.pc t = .outside →
      config.tasks.act t (state.process t) = .read i goesOn →
      (state.stream i).nSem ≠ 0 →
      Stepped state t .none
        ((state.setStream i
          { state.stream i with nSem := (state.stream i).nSem - 1 }).setPc t
            (.read i .buffer))
  | reserveEmpty {i : ι} {goesOn : α → σ} :
      state.pc t = .outside →
      config.tasks.act t (state.process t) = .read i goesOn →
      (state.stream i).nSem = 0 →
      Stepped state t .commit
        ((state.setStream i
          { state.stream i with nSem := (state.stream i).nSem - 1 }).setPc t
            (.read i .toBlock))
  | blockWriter {i : ι} :
      state.pc t = .write i .toBlock →
      Stepped state t .block (state.setPc t (.write i .blocked))
  | blockReader {i : ι} :
      state.pc t = .read i .toBlock →
      Stepped state t .block (state.setPc t (.read i .blocked))
  | put {i j : ι} {item : α} {goesOn : σ} :
      state.pc t = .write i .buffer →
      config.tasks.act t (state.process t) = .write j item goesOn →
      Stepped state t .none (state.putUnderLock t i item goesOn)
  | pop {i j : ι} {goesOn : α → σ} {popped : State config} :
      state.pc t = .read i .buffer →
      config.tasks.act t (state.process t) = .read j goesOn →
      state.topAndPop t i goesOn = some popped →
      Stepped state t .none popped
  | releaseItem {i : ι} :
      state.pc t = .write i .release →
      Stepped state t .none (state.releaseItem t i)
  | releaseSpace {i : ι} :
      state.pc t = .read i .release →
      Stepped state t .none (state.releaseSpace t i)
  | lookupReader {i : ι} :
      state.pc t = .write i .lookup →
      Stepped state t .none (state.setPc t (.write i .unblock))
  | lookupWriter {i : ι} :
      state.pc t = .read i .lookup →
      Stepped state t .none (state.setPc t (.read i .unblock))
  | unblockReader {i : ι} :
      state.pc t = .write i .unblock →
      Stepped state t (.unblock (config.tasks.reader i))
        ((state.sendWake (config.tasks.reader i)).setPc t .outside)
  | unblockWriter {i : ι} :
      state.pc t = .read i .unblock →
      Stepped state t (.unblock (config.tasks.writer i))
        ((state.sendWake (config.tasks.writer i)).setPc t .outside)

/-- Every step is one of these. -/
theorem step_cases
    {config : Config τ ι α σ}
    [DecidableEq τ]
    [DecidableEq ι]
    {state after : State config}
    {t : τ}
    {effect : Effect τ}
    (taken : state.step t = some (effect, after)) :
    Stepped state t effect after := by
  unfold State.step at taken
  split at taken
  case h_1 outside =>
    split at taken
    case h_1 i item goesOn action =>
      unfold State.lpelStreamWrite at taken
      simp only [Option.some.injEq] at taken
      split at taken
      case isTrue bounded =>
        split at taken
        case isTrue full =>
          obtain ⟨rfl, rfl⟩ := Prod.mk.inj taken
          exact .reserveFull outside action bounded full
        case isFalse free =>
          obtain ⟨rfl, rfl⟩ := Prod.mk.inj taken
          exact .reserveCell outside action bounded free
      case isFalse unbounded =>
        obtain ⟨rfl, rfl⟩ := Prod.mk.inj taken
        exact .reserveNothing outside action (by simpa using unbounded)
    case h_2 i goesOn action =>
      unfold State.lpelStreamRead at taken
      simp only [Option.some.injEq] at taken
      split at taken
      case isTrue empty =>
        obtain ⟨rfl, rfl⟩ := Prod.mk.inj taken
        exact .reserveEmpty outside action empty
      case isFalse some =>
        obtain ⟨rfl, rfl⟩ := Prod.mk.inj taken
        exact .reserveItem outside action some
    case h_3 => cases taken
  case h_4 position =>
    split at taken
    case h_1 action =>
      obtain ⟨rfl, rfl⟩ := Prod.mk.inj (Option.some.inj taken)
      exact .put position action
    case h_2 => cases taken
  case h_5 position =>
    split at taken
    case h_1 action =>
      obtain ⟨popped, pops, same⟩ := Option.map_eq_some_iff.mp taken
      obtain ⟨rfl, rfl⟩ := Prod.mk.inj same
      exact .pop position action pops
    case h_2 => cases taken
  case h_2 position =>
    obtain ⟨rfl, rfl⟩ := Prod.mk.inj (Option.some.inj taken)
    exact .blockWriter position
  case h_3 position =>
    obtain ⟨rfl, rfl⟩ := Prod.mk.inj (Option.some.inj taken)
    exact .blockReader position
  case h_6 position =>
    obtain ⟨rfl, rfl⟩ := Prod.mk.inj (Option.some.inj taken)
    exact .releaseItem position
  case h_7 position =>
    obtain ⟨rfl, rfl⟩ := Prod.mk.inj (Option.some.inj taken)
    exact .releaseSpace position
  case h_8 position =>
    obtain ⟨rfl, rfl⟩ := Prod.mk.inj (Option.some.inj taken)
    exact .lookupReader position
  case h_9 position =>
    obtain ⟨rfl, rfl⟩ := Prod.mk.inj (Option.some.inj taken)
    exact .lookupWriter position
  case h_10 position =>
    obtain ⟨rfl, rfl⟩ := Prod.mk.inj (Option.some.inj taken)
    exact .unblockReader position
  case h_11 position =>
    obtain ⟨rfl, rfl⟩ := Prod.mk.inj (Option.some.inj taken)
    exact .unblockWriter position
  case h_12 | h_13 => cases taken

/-- What happens in a step. -/
inductive Label (τ : Type)
  /-- A task goes on. -/
  | step (t : τ)
  /-- A blocked task to which a wakeup was sent goes on. -/
  | resume (t : τ)

/-- A step of the system. -/
def next
    {config : Config τ ι α σ}
    [DecidableEq τ]
    [DecidableEq ι]
    (state : State config) :
    Label τ → Option (State config)
  | .step t => (state.step t).map Prod.snd
  | .resume t =>
      if (state.pc t).isBlocked ∧ 0 < state.wake t then
        some (state.returnFromBlock t)
      else
        none

/-- The tasks with their streams. -/
def machine
    (config : Config τ ι α σ)
    [DecidableEq τ]
    [DecidableEq ι] : Machine (State config) (Label τ) where
  init := fun state => state = State.initial config
  next := next

end TaskNetwork
end Lpel
