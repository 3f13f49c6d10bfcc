import Lpel.Network.System
import Lpel.Stream.Accounting

/-!
# Accounting for all streams

The invariant of the tasks that communicate through streams.  Seen from one
stream, its writer is a producer and its reader has a role, and the accounting of
a single stream applies.  It refers to what the producer is going to write; here
that is any list that starts with what was written and with the item that is
being written.

A step of a task concerns one stream, and so does a wakeup, so the views of the
other streams do not change.
-/

namespace Lpel
namespace TaskNetwork

open StreamSystem (ProdPc Role StreamOk SpaceOk View)

variable {τ ι α σ : Type}

namespace CallPc

/-- The position of a writer as a producer. -/
def prodPc : CallPc → ProdPc
  | .toBlock => .toBlock
  | .blocked => .blocked
  | .buffer => .put
  | .release => .vN false
  | .lookup => .lookup
  | .unblock => .unblock false

/-- The position of a reader as a consumer. -/
def role : CallPc → Role
  | .toBlock | .blocked => .waiting
  | .buffer => .top
  | .release => .release
  | .lookup | .unblock => .wake

/-- The buffer operation is still to come. -/
def pending : CallPc → Bool
  | .toBlock | .blocked | .buffer => true
  | .release | .lookup | .unblock => false

end CallPc

namespace TaskPc

variable [DecidableEq ι]

/-- A task as the producer of a stream. -/
def prodPc (i : ι) : TaskPc ι → ProdPc
  | .write j pc => if j = i then pc.prodPc else .idle
  | .outside | .read _ _ => .idle

/-- A task as the consumer of a stream. -/
def role (i : ι) : TaskPc ι → Role
  | .read j pc => if j = i then pc.role else .none
  | .outside | .write _ _ => .none

/-- The task is in no operation on another stream. -/
def OnlyAbout (i : ι) (pc : TaskPc ι) : Prop :=
  ∀ j, j ≠ i → pc.prodPc j = .idle ∧ pc.role j = .none

@[simp] theorem prodPc_write (i : ι) (pc : CallPc) :
    (TaskPc.write i pc).prodPc i = pc.prodPc :=
  if_pos rfl

@[simp] theorem role_read (i : ι) (pc : CallPc) :
    (TaskPc.read i pc).role i = pc.role :=
  if_pos rfl

@[simp] theorem prodPc_outside (i : ι) :
    (TaskPc.outside : TaskPc ι).prodPc i = .idle := rfl

@[simp] theorem role_outside (i : ι) :
    (TaskPc.outside : TaskPc ι).role i = .none := rfl

@[simp] theorem prodPc_read (i j : ι) (pc : CallPc) :
    (TaskPc.read j pc).prodPc i = .idle := rfl

@[simp] theorem role_write (i j : ι) (pc : CallPc) :
    (TaskPc.write j pc).role i = .none := rfl

@[simp] theorem onlyAbout_outside (i : ι) :
    (TaskPc.outside : TaskPc ι).OnlyAbout i :=
  fun _ _ => ⟨rfl, rfl⟩

@[simp] theorem onlyAbout_write (i : ι) (pc : CallPc) :
    (TaskPc.write i pc).OnlyAbout i :=
  fun _ other => ⟨if_neg (Ne.symm other), rfl⟩

@[simp] theorem onlyAbout_read (i : ι) (pc : CallPc) :
    (TaskPc.read i pc).OnlyAbout i :=
  fun _ other => ⟨rfl, if_neg (Ne.symm other)⟩

/-- A producer that waits is a task that waits to write. -/
theorem exists_write_of_waits
    {i : ι}
    {pc : TaskPc ι}
    (waits : (pc.prodPc i).waits = true) :
    ∃ call, pc = .write i call ∧ pc.waits = true := by
  cases pc with
  | outside => cases waits
  | read j call => cases waits
  | write j call =>
      by_cases same : j = i
      · subst same
        rw [prodPc_write] at waits
        refine ⟨call, rfl, ?_⟩
        cases call <;> simp_all [CallPc.prodPc, ProdPc.waits, TaskPc.waits]
      · rw [prodPc, if_neg same] at waits
        cases waits

/-- A consumer that waits is a task that waits to read. -/
theorem exists_read_of_waiting
    {i : ι}
    {pc : TaskPc ι}
    (waiting : pc.role i = .waiting) :
    ∃ call, pc = .read i call ∧ pc.waits = true := by
  cases pc with
  | outside => cases waiting
  | write j call => cases waiting
  | read j call =>
      by_cases same : j = i
      · subst same
        rw [role_read] at waiting
        refine ⟨call, rfl, ?_⟩
        cases call <;> simp_all [CallPc.role, TaskPc.waits]
      · rw [role, if_neg same] at waiting
        cases waiting

end TaskPc

/-- What a position says about the task: which end of the stream it has, and that
its function is at the call as long as the buffer operation is to come. -/
def TaskPc.Fits
    (config : Config τ ι α σ)
    (t : τ)
    (process : σ) : TaskPc ι → Prop
  | .outside => True
  | .write i pc => config.tasks.writer i = t ∧ (pc.pending = true →
      ∃ item after, config.tasks.act t process = .write i item after)
  | .read i pc => config.tasks.reader i = t ∧ (pc.pending = true →
      ∃ after, config.tasks.act t process = .read i after)

/-- The streams as those of one consumer task, with the items that their
producers are going to write. -/
def Config.streams
    (config : Config τ ι α σ)
    (script : ι → List α) : StreamSystem.Config ι α where
  impl := config.impl
  size := config.size
  bounded := config.bounded
  finite_bounded := config.finite_bounded
  script := script

namespace State

variable {config : Config τ ι α σ} [DecidableEq ι]

/-- The writer of a stream as its producer. -/
def writerPc (state : State config) (i : ι) : ProdPc :=
  (state.pc (config.tasks.writer i)).prodPc i

/-- The reader of a stream as its consumer. -/
def readerRole (state : State config) (i : ι) : Role :=
  (state.pc (config.tasks.reader i)).role i

/-- The wakeups sent to the writer on account of the stream. -/
def writerWake (state : State config) (i : ι) : ℕ :=
  if (state.writerPc i).waits then state.wake (config.tasks.writer i) else 0

/-- The wakeups sent to the reader on account of the stream. -/
def readerWake (state : State config) (i : ι) : ℕ :=
  if state.readerRole i = .waiting then
    state.wake (config.tasks.reader i)
  else
    0

/-- One stream. -/
def view
    (state : State config)
    (script : ι → List α)
    (i : ι) : View (config.streams script) where
  stream := state.stream i
  pc := state.writerPc i
  wake := state.writerWake i
  role := state.readerRole i
  items := (state.written i).drop (state.popped i).length
  written := state.written i
  popped := state.popped i
  blocks :=
    if (state.writerPc i).waits = true ∧ state.writerWake i = 0 then 1 else 0
  unblocks := 0

/-- The task is about to put an item into a stream. -/
def Writing (state : State config) (t : τ) (i : ι) (item : α) : Prop :=
  ∃ pc after, state.pc t = .write i pc ∧ pc.pending = true ∧
    config.tasks.act t (state.process t) = .write i item after

/-- The scripts start with what was written and what is being written. -/
structure Covers
    (state : State config)
    (script : ι → List α) : Prop where
  written : ∀ i, state.written i <+: script i
  writing : ∀ t i item, state.Writing t i item →
    state.written i ++ [item] <+: script i

end State

/-- The scripts that cover a step cover the state before it: an item that was
about to be put still is, or was put. -/
theorem covers_of_step
    {config : Config τ ι α σ}
    {state after : State config}
    (grows : ∀ j, state.written j <+: after.written j)
    (writing : ∀ u j item, state.Writing u j item →
      after.Writing u j item ∧ after.written j = state.written j ∨
        after.written j = state.written j ++ [item])
    {script : ι → List α}
    (covered : after.Covers script) :
    state.Covers script where
  written j := (grows j).trans (covered.written j)
  writing := by
    intro u j item puts
    rcases writing u j item puts with still | done
    · rw [← still.2]
      exact covered.writing u j item still.1
    · rw [← done]
      exact covered.written j

/-- The invariant. -/
structure Invariant
    {config : Config τ ι α σ}
    [DecidableEq ι]
    (state : State config) : Prop where
  calls : ∀ t, (state.pc t).Fits config t (state.process t)
  streams : ∀ script, state.Covers script → ∀ i,
    StreamOk (config.streams script) i (state.view script i)
  items : ∀ i, SpaceOk true (state.stream i).nSem
    (state.readerRole i = .waiting)
    (state.readerWake i + (state.writerPc i).owes.toNat)
  woken : ∀ t, (state.pc t).waits = false → state.wake t = 0

section

variable {config : Config τ ι α σ} [DecidableEq ι]
variable {state after : State config} {i j : ι} {t : τ}

/-- The accounting of a view is the one of any record with the same fields. -/
theorem streamOk_view
    {script : ι → List α}
    {view : View (config.streams script)}
    (ok : StreamOk (config.streams script) i view)
    (stream : state.stream i = view.stream)
    (pc : state.writerPc i = view.pc)
    (wake : state.writerWake i = view.wake)
    (role : state.readerRole i = view.role)
    (written : state.written i = view.written)
    (popped : state.popped i = view.popped) :
    StreamOk (config.streams script) i (state.view script i) := by
  have items : view.written.drop view.popped.length = view.items := by
    rw [ok.fifo, List.drop_left]
  have same : state.view script i =
      { view with
        blocks :=
          if (state.writerPc i).waits = true ∧ state.writerWake i = 0 then 1
          else 0
        unblocks := 0 } := by
    simp only [State.view, stream, pc, wake, role, items, written, popped]
  rw [same]
  exact { ok with blockCount := by simp [pc, wake] }

/-- A step that concerns one stream does not change what the others see. -/
structure Concerns (state after : State config) (i : ι) : Prop where
  tasks : ∀ t, after.pc t = state.pc t ∧ after.wake t = state.wake t ∨
    (state.pc t).OnlyAbout i ∧ (after.pc t).OnlyAbout i
  stream : ∀ j, j ≠ i → after.stream j = state.stream j
  written : ∀ j, j ≠ i → after.written j = state.written j
  popped : ∀ j, j ≠ i → after.popped j = state.popped j

namespace Concerns

/-- The writer of another stream is where it was. -/
theorem writerPc (concerns : Concerns state after i) (other : j ≠ i) :
    after.writerPc j = state.writerPc j := by
  unfold State.writerPc
  rcases concerns.tasks (config.tasks.writer j) with same | about
  · rw [same.1]
  · rw [(about.1 j other).1, (about.2 j other).1]

/-- The reader of another stream is where it was. -/
theorem readerRole (concerns : Concerns state after i) (other : j ≠ i) :
    after.readerRole j = state.readerRole j := by
  unfold State.readerRole
  rcases concerns.tasks (config.tasks.reader j) with same | about
  · rw [same.1]
  · rw [(about.1 j other).2, (about.2 j other).2]

/-- The wakeups of the writer of another stream are where they were. -/
theorem writerWake (concerns : Concerns state after i) (other : j ≠ i) :
    after.writerWake j = state.writerWake j := by
  unfold State.writerWake
  rw [concerns.writerPc other]
  rcases concerns.tasks (config.tasks.writer j) with same | about
  · rw [same.2]
  · have idle : state.writerPc j = .idle := (about.1 j other).1
    rw [idle]
    rfl

/-- The wakeups of the reader of another stream are where they were. -/
theorem readerWake (concerns : Concerns state after i) (other : j ≠ i) :
    after.readerWake j = state.readerWake j := by
  unfold State.readerWake
  rw [concerns.readerRole other]
  rcases concerns.tasks (config.tasks.reader j) with same | about
  · rw [same.2]
  · have idle : state.readerRole j = .none := (about.1 j other).2
    rw [idle]
    rfl

end Concerns

/-- A step keeps the invariant if it does so for the stream it concerns. -/
theorem Invariant.onStream
    (invariant : Invariant state)
    (concerns : Concerns state after i)
    (covers : ∀ script, after.Covers script → state.Covers script)
    (calls : ∀ t, (after.pc t).Fits config t (after.process t))
    (woken : ∀ t, (after.pc t).waits = false → after.wake t = 0)
    (stream : ∀ script, after.Covers script →
      StreamOk (config.streams script) i (state.view script i) →
      StreamOk (config.streams script) i (after.view script i))
    (items : SpaceOk true (after.stream i).nSem
      (after.readerRole i = .waiting)
      (after.readerWake i + (after.writerPc i).owes.toNat)) :
    Invariant after where
  calls := calls
  woken := woken
  streams := by
    intro script covered j
    have ok := invariant.streams script (covers script covered)
    by_cases same : j = i
    · subst same
      exact stream script covered (ok j)
    · exact streamOk_view (ok j) (concerns.stream j same)
        (concerns.writerPc same) (concerns.writerWake same)
        (concerns.readerRole same) (concerns.written j same)
        (concerns.popped j same)
  items := by
    intro j
    by_cases same : j = i
    · subst same
      exact items
    · rw [concerns.stream j same, concerns.readerRole same,
        concerns.readerWake same, concerns.writerPc same]
      exact invariant.items j

/-- The invariant holds initially. -/
theorem invariant_initial (config : Config τ ι α σ) :
    Invariant (State.initial config) where
  calls _ := trivial
  streams := by
    intro script _ i
    exact streamOk_view (StreamOk.create (config.streams script) i) rfl rfl rfl
      rfl rfl rfl
  items _ := .inr ⟨Int.le_refl 0, rfl⟩
  woken _ _ := rfl

end

end TaskNetwork
end Lpel
