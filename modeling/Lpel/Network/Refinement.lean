import Lpel.Decen.Buffer
import Lpel.Hrc.Buffer
import Lpel.Network.Steps

/-!
# Streams as channels

Tasks that communicate through streams refine a network of processes with
channels, in which a write and a read are one step each: a write takes effect in
its critical section and a read where it pops the item.  What the protocol adds
does not show: the items written to a stream do not depend on the order of the
steps, on the sizes of the streams or on the back end, and a system in which
nobody can go on is one in which the processes could not go on either.
-/

namespace Lpel
namespace TaskNetwork

open StreamSystem (ProdPc Role StreamOk SpaceOk View)

variable {τ ι α σ : Type} {config : Config τ ι α σ}
variable {state after : State config} {i : ι} {t : τ}

/-- The processes and channels of a state. -/
def State.abs (state : State config) : Processes.State τ ι α σ where
  process := state.process
  sent := state.written
  received := fun i => (state.popped i).length

/-- Whether the next step of the task is its buffer operation. -/
def TaskPc.atBuffer : TaskPc ι → Bool
  | .write _ .buffer | .read _ .buffer => true
  | _ => false

/-- The step of the processes that a step amounts to. -/
def State.observe (state : State config) : Label τ → List τ
  | .step t => if (state.pc t).atBuffer then [t] else []
  | .resume _ => []

/-- A return from a block is no step of the processes. -/
theorem abs_returnFromBlock
    [DecidableEq τ]
    (state : State config)
    (t : τ) :
    (state.returnFromBlock t).abs = state.abs := by
  unfold State.returnFromBlock
  dsimp only
  split <;> rfl

/-- The function of the task has returned. -/
def State.Done (state : State config) (t : τ) : Prop :=
  state.pc t = .outside ∧ config.tasks.act t (state.process t) = .exit

/-- The task has returned, or it is blocked and no wakeup was sent to it. -/
def State.Resting (state : State config) (t : τ) : Prop :=
  state.Done t ∨ (state.pc t).isBlocked = true ∧ state.wake t = 0

/-- A blocked task at rest has no wakeup. -/
theorem State.Resting.unwoken
    (resting : state.Resting t)
    (blocked : (state.pc t).isBlocked = true) :
    state.wake t = 0 := by
  rcases resting with done | resting
  · rw [done.1] at blocked
    cases blocked
  · exact resting.2

/-- A task at rest in a stream operation is blocked. -/
theorem State.Resting.isBlocked
    (resting : state.Resting t)
    (inside : state.pc t ≠ .outside) :
    (state.pc t).isBlocked = true := by
  rcases resting with done | blocked
  · exact absurd done.1 inside
  · exact blocked.1

variable [DecidableEq ι]

/-- A task at rest has no operation half finished. -/
structure AtRest (pc : TaskPc ι) (i : ι) : Prop where
  item : (pc.prodPc i).unreleased = 0
  owes : (pc.prodPc i).owes = false
  cell : (pc.role i).unreleased = 0
  owed : (pc.role i).owed = 0

/-- That is so for a task that has returned or is blocked. -/
theorem State.Resting.atRest
    (resting : state.Resting t)
    (i : ι) :
    AtRest (state.pc t) i := by
  rcases resting with done | ⟨blocked, -⟩
  · rw [done.1]
    constructor <;> rfl
  · cases position : state.pc t with
    | outside => constructor <;> rfl
    | write j call =>
        rw [position] at blocked
        cases call <;> cases blocked
        by_cases same : j = i
        · subst same
          constructor <;>
            simp [CallPc.prodPc, ProdPc.unreleased, ProdPc.owes,
              Role.unreleased, Role.owed]
        · constructor <;>
            simp [TaskPc.prodPc, same, ProdPc.unreleased, ProdPc.owes,
              Role.unreleased, Role.owed]
    | read j call =>
        rw [position] at blocked
        cases call <;> cases blocked
        by_cases same : j = i
        · subst same
          constructor <;>
            simp [CallPc.role, ProdPc.unreleased, ProdPc.owes,
              Role.unreleased, Role.owed]
        · constructor <;>
            simp [TaskPc.role, same, ProdPc.unreleased, ProdPc.owes,
              Role.unreleased, Role.owed]

/-- What is popped from a stream was written to it before. -/
theorem Invariant.fifo (invariant : Invariant state) (i : ι) :
    state.written i =
      state.popped i ++ (state.written i).drop (state.popped i).length :=
  (invariant.accounted i).fifo

/-- A stream about to be written to has room. -/
theorem Invariant.hasRoom
    (invariant : Invariant state)
    (position : state.pc t = .write i .buffer) :
    config.impl.lpelBufferIsSpace (state.stream i).buffer = true ∧
      Processes.room (config.capacity i)
        ((state.written i).length - (state.popped i).length) = true := by
  have ok := invariant.accounted i
  have writerPc : (state.view state.nextScript i).pc = .put :=
    (invariant.writer_at position).2
  refine ⟨ok.isSpace writerPc, ?_⟩
  by_cases bounded : config.bounded i = true
  · have eCount := ok.eCount bounded
    rw [writerPc] at eCount
    change (state.stream i).eSem = ((config.size i).val : ℤ) -
      ((state.written i).drop (state.popped i).length).length - 1 -
        (state.readerRole i).unreleased at eCount
    have space := ok.space
    rw [writerPc] at space
    change SpaceOk (config.bounded i) (state.stream i).eSem false _ at space
    rw [bounded, spaceOk_true_iff] at space
    have released := (state.readerRole i).account_nonneg.2
    simp only [Config.capacity, bounded, if_true, Processes.room,
      decide_eq_true_eq]
    rw [List.length_drop] at eCount
    rcases space with ⟨waits, -⟩ | ⟨low, -⟩
    · cases waits
    · omega
  · simp [Config.capacity, bounded, Processes.room]

/-- A stream about to be read from has an item, the oldest one. -/
theorem Invariant.hasItem
    (invariant : Invariant state)
    (position : state.pc t = .read i .buffer) :
    ∃ item,
      config.impl.lpelBufferTop (state.stream i).buffer = some item ∧
      (state.written i)[(state.popped i).length]? = some item := by
  have ok := invariant.accounted i
  obtain ⟨item, rest, items⟩ := ok.exists_item (invariant.reader_at position).2
  have top := config.impl.top_eq ok.holds
  rw [items] at top
  refine ⟨item, top, ?_⟩
  change (state.written i).drop (state.popped i).length = item :: rest at items
  rw [← List.head?_drop, items, List.head?_cons]

/-- A writer that rests in a block waits for a full stream. -/
theorem Invariant.full_of_resting
    (invariant : Invariant state)
    (resting : ∀ t, state.Resting t)
    (position : state.pc t = .write i .blocked) :
    Processes.room (config.capacity i)
      ((state.written i).length - (state.popped i).length) = false := by
  obtain ⟨writer, writerPc⟩ := invariant.writer_at position
  have ok := invariant.accounted i
  have rest := (resting (config.tasks.reader i)).atRest i
  have wakes : state.writerWake i = 0 :=
    (invariant.writerWake_eq position).trans
      ((resting t).unwoken (by rw [position]; rfl))
  have space := ok.space
  change SpaceOk (config.bounded i) (state.stream i).eSem
    (state.writerPc i).waits
      (state.writerWake i + (state.readerRole i).owed) at space
  rw [writerPc, wakes, show (state.readerRole i).owed = 0 from rest.owed] at space
  by_cases bounded : config.bounded i = true
  · have eCount := ok.eCount bounded
    change (state.stream i).eSem = ((config.size i).val : ℤ) -
      ((state.written i).drop (state.popped i).length).length -
        (state.writerPc i).reserved - (state.readerRole i).unreleased at eCount
    rw [writerPc, show (state.readerRole i).unreleased = 0 from rest.cell,
      List.length_drop, show CallPc.blocked.prodPc.reserved = 1 from rfl] at eCount
    rw [bounded, spaceOk_true_iff] at space
    simp only [Config.capacity, bounded, if_true, Processes.room,
      decide_eq_false_iff_not]
    rcases space with ⟨-, full, -⟩ | ⟨-, owed⟩
    · omega
    · cases owed
  · rw [Bool.not_eq_true] at bounded
    rw [bounded] at space
    cases space.1

/-- A reader that rests in a block waits for an empty stream. -/
theorem Invariant.empty_of_resting
    (invariant : Invariant state)
    (resting : ∀ t, state.Resting t)
    (position : state.pc t = .read i .blocked) :
    (state.written i)[(state.popped i).length]? = none := by
  obtain ⟨reader, role⟩ := invariant.reader_at position
  have ok := invariant.accounted i
  have rest := (resting (config.tasks.writer i)).atRest i
  have wakes : state.readerWake i = 0 :=
    (invariant.readerWake_eq position).trans
      ((resting t).unwoken (by rw [position]; rfl))
  have nCount := ok.nCount
  change (state.stream i).nSem =
    (((state.written i).drop (state.popped i).length).length : ℤ) -
      (state.writerPc i).unreleased - (state.readerRole i).reserved at nCount
  rw [role, show (state.writerPc i).unreleased = 0 from rest.item,
    List.length_drop, show CallPc.blocked.role.reserved = 1 from rfl] at nCount
  have items := spaceOk_true_iff.mp (invariant.items i)
  rw [role, wakes, show (state.writerPc i).owes = false from rest.owes] at items
  rw [List.getElem?_eq_none_iff]
  rcases items with ⟨-, empty, -⟩ | ⟨-, owed⟩
  · omega
  · cases owed

variable [DecidableEq τ]

/-- A put is a write of the processes. -/
theorem Invariant.abs_put
    (invariant : Invariant state)
    {item : α}
    {goesOn : σ}
    (position : state.pc t = .write i .buffer)
    (action : config.tasks.act t (state.process t) = .write i item goesOn) :
    config.tasks.next config.capacity state.abs t =
      some (state.putUnderLock t i item goesOn).abs :=
  Processes.next_write _ _ _ action (invariant.hasRoom position).2 rfl rfl rfl

/-- A pop is a read of the processes. -/
theorem Invariant.abs_pop
    (invariant : Invariant state)
    {goesOn : α → σ}
    (position : state.pc t = .read i .buffer)
    (action : config.tasks.act t (state.process t) = .read i goesOn)
    (popped : state.topAndPop t i goesOn = some after) :
    config.tasks.next config.capacity state.abs t = some after.abs := by
  obtain ⟨item, top, first⟩ := invariant.hasItem position
  obtain ⟨item', top', rfl⟩ := Option.map_eq_some_iff.mp popped
  rw [top] at top'
  obtain rfl := Option.some.inj top'
  refine Processes.next_read _ _ _ action first rfl rfl ?_
  funext j
  by_cases same : j = i
  · subst same
    simp [State.abs, State.setPc, State.setProcess, State.setStream]
  · simp [State.abs, State.setPc, State.setProcess, State.setStream, same]

/-- The release of a cell is no step of the processes. -/
theorem abs_releaseSpace (state : State config) (t : τ) (i : ι) :
    (state.releaseSpace t i).abs = state.abs := by
  unfold State.releaseSpace
  split <;> rfl

/-- Every step of a task amounts to at most one step of its process. -/
theorem Invariant.abs_step
    (invariant : Invariant state)
    {effect : Effect τ}
    (stepped : Stepped state t effect after) :
    (config.tasks.machine config.capacity).run state.abs
      (if (state.pc t).atBuffer then [t] else []) = some after.abs := by
  cases stepped with
  | put position action =>
      have fits := invariant.calls t
      rw [position] at fits
      obtain ⟨item', goesOn', action'⟩ := fits.2 rfl
      obtain ⟨rfl, rfl, rfl⟩ := Action.write.inj (action'.symm.trans action)
      rw [position]
      exact Machine.run_cons_iff.mpr
        ⟨_, invariant.abs_put position action, rfl⟩
  | pop position action popped =>
      have fits := invariant.calls t
      rw [position] at fits
      obtain ⟨goesOn', action'⟩ := fits.2 rfl
      obtain ⟨rfl, rfl⟩ := Action.read.inj (action'.symm.trans action)
      rw [position]
      exact Machine.run_cons_iff.mpr
        ⟨_, invariant.abs_pop position action popped, rfl⟩
  | reserveFull outside | reserveCell outside | reserveNothing outside
  | reserveItem outside | reserveEmpty outside =>
      rw [outside]
      rfl
  | blockWriter position | blockReader position | lookupReader position
  | lookupWriter position | unblockReader position | unblockWriter position
  | releaseItem position =>
      rw [position]
      rfl
  | releaseSpace position =>
      rw [position, abs_releaseSpace]
      rfl

/-- Tasks with streams refine processes with channels. -/
def refinement (config : Config τ ι α σ) :
    Refinement (machine config) (config.tasks.machine config.capacity) where
  invariant := Invariant
  abs := State.abs
  observe := State.observe
  init := by
    rintro _ rfl
    exact ⟨invariant_initial config, rfl⟩
  step := by
    intro state label after invariant taken
    cases label with
    | step t =>
        obtain ⟨⟨effect, result⟩, stepped, rfl⟩ := Option.map_eq_some_iff.mp taken
        have cases_ := step_cases stepped
        exact ⟨invariant.step cases_, invariant.abs_step cases_⟩
    | resume t =>
        obtain ⟨⟨blocked, woken⟩, taken⟩ := Option.ite_none_right_eq_some.mp taken
        obtain rfl := Option.some.inj taken
        refine ⟨invariant.resume blocked woken, ?_⟩
        rw [abs_returnFromBlock]
        rfl

/-! ## Progress -/

/-- A task that has not returned and is not blocked can go on. -/
theorem Invariant.exists_step
    (invariant : Invariant state)
    (active : (state.pc t).isBlocked = false)
    (busy : ¬ state.Done t) :
    ∃ effect after, state.step t = some (effect, after) := by
  unfold State.step
  have fits := invariant.calls t
  cases position : state.pc t with
  | outside =>
      cases action : config.tasks.act t (state.process t) with
      | write i item goesOn => exact ⟨_, _, rfl⟩
      | read i goesOn => exact ⟨_, _, rfl⟩
      | exit => exact absurd ⟨position, action⟩ busy
  | write i call =>
      rw [position] at fits active
      cases call with
      | blocked => cases active
      | buffer =>
          obtain ⟨item, goesOn, action⟩ := fits.2 rfl
          exact ⟨_, _, by simp only [action]; rfl⟩
      | toBlock | release | lookup | unblock => exact ⟨_, _, rfl⟩
  | read i call =>
      rw [position] at active
      cases call with
      | blocked => cases active
      | buffer =>
          obtain ⟨item, top, -⟩ := invariant.hasItem position
          rw [position] at fits
          obtain ⟨goesOn, action⟩ := fits.2 rfl
          obtain ⟨popped, pops⟩ :
              ∃ popped, state.topAndPop t i goesOn = some popped := by
            simp only [State.topAndPop, top, Option.map_some, Option.some.injEq,
              exists_eq']
          exact ⟨.none, popped, by simp only [action, pops, Option.map_some]⟩
      | toBlock | release | lookup | unblock => exact ⟨_, _, rfl⟩

/-- Where all tasks rest, no process could go on, and not either with other
capacities of streams for which nobody waits. -/
theorem Invariant.stuck_of_resting
    (invariant : Invariant state)
    (resting : ∀ t, state.Resting t)
    {capacity : ι → Option ℕ}
    (sameSizes : ∀ t i, state.pc t = .write i .blocked →
      capacity i = config.capacity i) :
    (config.tasks.machine capacity).Stuck state.abs := by
  intro t
  have fits := invariant.calls t
  cases position : state.pc t with
  | outside =>
      rcases resting t with done | blocked
      · exact Processes.next_exit done.2
      · rw [position] at blocked
        cases blocked.1
  | write i call =>
      have blocked := (resting t).isBlocked (by simp [position])
      rw [position] at fits blocked
      cases call <;> cases blocked
      obtain ⟨item, goesOn, action⟩ := fits.2 rfl
      refine Processes.next_full action ?_
      rw [sameSizes t i position]
      exact invariant.full_of_resting resting position
  | read i call =>
      have blocked := (resting t).isBlocked (by simp [position])
      rw [position] at fits blocked
      cases call <;> cases blocked
      obtain ⟨goesOn, action⟩ := fits.2 rfl
      exact Processes.next_empty action
        (invariant.empty_of_resting resting position)

/-- Where no step is enabled all tasks rest. -/
theorem Invariant.resting_of_stuck
    (invariant : Invariant state)
    (stuck : (machine config).Stuck state)
    (t : τ) :
    state.Resting t := by
  cases blocked : (state.pc t).isBlocked with
  | true =>
      right
      refine ⟨blocked, ?_⟩
      by_contra woken
      have returns := stuck (.resume t)
      simp [machine, next, blocked, Nat.pos_of_ne_zero woken] at returns
  | false =>
      left
      by_contra busy
      obtain ⟨effect, after, taken⟩ := invariant.exists_step blocked busy
      have stays := stuck (.step t)
      simp [machine, next, taken] at stays

/-! ## Results -/

/-- What a run amounts to. -/
theorem abs_of_run
    {labels : List (Label τ)}
    (executed : (machine config).run (State.initial config) labels =
      some state) :
    Invariant state ∧
      ∃ steps, (config.tasks.machine config.capacity).run config.tasks.initial
        steps = some state.abs := by
  obtain ⟨invariant, runs⟩ := (refinement config).run
    (invariant_initial config) executed
  exact ⟨invariant, _, runs⟩

/-- No assertion on a buffer fails: there is space for the item of a task that is
about to put it, and an item for one that is about to take it. -/
def State.BuffersServe (state : State config) : Prop :=
  (∀ t i, state.pc t = .write i .buffer →
    config.impl.lpelBufferIsSpace (state.stream i).buffer = true) ∧
  ∀ t i, state.pc t = .read i .buffer →
    (config.impl.lpelBufferTop (state.stream i).buffer).isSome = true

omit [DecidableEq τ] in
theorem Invariant.buffersServe (invariant : Invariant state) :
    state.BuffersServe := by
  refine ⟨fun t i position => (invariant.hasRoom position).1, ?_⟩
  intro t i position
  obtain ⟨item, top, -⟩ := invariant.hasItem position
  rw [top]
  rfl

/-- Every run amounts to a run of the processes over channels with the capacities
of the streams; what is popped from a stream is what was written to it, in order;
and no assertion of `LpelStreamWrite` or `LpelStreamRead` fails. -/
theorem streamsRefineChannels
    (config : Config τ ι α σ)
    (labels : List (Label τ))
    (state : State config)
    (executed : (machine config).run (State.initial config) labels = some state) :
    (config.tasks.machine config.capacity).run config.tasks.initial
        ((refinement config).trace (State.initial config) labels) =
      some state.abs ∧
    (∀ i, state.popped i <+: state.written i) ∧
    (∀ t i, state.pc t = .write i .buffer →
      config.impl.lpelBufferIsSpace (state.stream i).buffer = true) ∧
    ∀ t i, state.pc t = .read i .buffer →
      (config.impl.lpelBufferTop (state.stream i).buffer).isSome = true := by
  obtain ⟨invariant, runs⟩ := (refinement config).run
    (invariant_initial config) executed
  refine ⟨runs, ?_, invariant.buffersServe⟩
  intro i
  rw [invariant.fifo i]
  exact List.prefix_append ..

/-- The items written to each stream do not depend on the order of the steps, on
the sizes of the streams or on the back end: of any two runs of the same tasks
one has written a prefix of what the other has. -/
theorem historiesIndependent
    {config config' : Config τ ι α σ}
    (sameTasks : config'.tasks = config.tasks)
    {labels labels' : List (Label τ)}
    {state : State config}
    {state' : State config'}
    (executed : (machine config).run (State.initial config) labels = some state)
    (executed' : (machine config').run (State.initial config') labels' =
      some state')
    (i : ι) :
    state.written i <+: state'.written i ∨
      state'.written i <+: state.written i := by
  obtain ⟨-, steps, runs⟩ := abs_of_run executed
  obtain ⟨-, steps', runs'⟩ := abs_of_run executed'
  rw [sameTasks] at runs'
  exact Processes.histories_comparable runs runs' i

/-- Where no task can go on, the processes could not go on over channels of the
same capacities either.  Whatever another run of the same tasks has written by
then, with streams of the same sizes, was written here, and if that run cannot
go on it has written the same and its tasks are in the same states. -/
theorem stuckRunsAgree
    {config config' : Config τ ι α σ}
    (sameTasks : config'.tasks = config.tasks)
    (sameSizes : config'.capacity = config.capacity)
    {labels labels' : List (Label τ)}
    {state : State config}
    {state' : State config'}
    (executed : (machine config).run (State.initial config) labels = some state)
    (stuck : (machine config).Stuck state)
    (executed' : (machine config').run (State.initial config') labels' =
      some state') :
    (config.tasks.machine config.capacity).Stuck state.abs ∧
    (∀ i, state'.written i <+: state.written i) ∧
    ((machine config').Stuck state' → state'.abs = state.abs) := by
  obtain ⟨invariant, steps, runs⟩ := abs_of_run executed
  obtain ⟨invariant', steps', runs'⟩ := abs_of_run executed'
  rw [sameTasks, sameSizes] at runs'
  have absStuck : (config.tasks.machine config.capacity).Stuck state.abs :=
    invariant.stuck_of_resting (invariant.resting_of_stuck stuck)
      fun _ _ _ => rfl
  refine ⟨absStuck, Processes.sent_prefix_of_stuck runs absStuck runs', ?_⟩
  intro stuck'
  have absStuck' := invariant'.stuck_of_resting
    (invariant'.resting_of_stuck stuck') fun _ _ _ => rfl
  rw [sameTasks, sameSizes] at absStuck'
  exact (Processes.commutes config.tasks config.capacity).stuck_unique runs
    absStuck runs' absStuck'

section Example

/-- One task writes two items, and another one reads them. -/
def handOver : Processes Bool Unit ℕ ℕ where
  start _ := 0
  act
    | true, written =>
        if written < 2 then .write () (5 + written) (written + 1) else .exit
    | false, last => if last = 6 then .exit else .read () id
  writer _ := true
  reader _ := false
  writes := by
    intro t state i item after action
    cases t
    · simp only at action
      split at action <;> cases action
    · rfl
  reads := by
    intro t state i after action
    cases t
    · rfl
    · simp only at action
      split at action <;> cases action

/-- A stream that holds one item, with a given buffer. -/
def handOverConfig (impl : BufferImpl ℕ) : Config Bool Unit ℕ ℕ where
  impl := impl
  size _ := .one
  bounded _ := true
  finite_bounded _ _ := rfl
  tasks := handOver

/-- The writer finds the stream full and blocks, and the reader wakes it up. -/
def handOverRun : List (Label Bool) :=
  [.step true, .step true, .step true, .step true, .step true,
    .step false, .step false, .step false, .step false, .step false,
    .resume true, .step true, .step true,
    .step false, .step false, .step false]

/-- The tasks are the same over both buffers. -/
theorem handOver_tasks :
    (handOverConfig (Hrc.linkedBuffer ℕ)).tasks =
      (handOverConfig (Decen.ringBuffer ℕ)).tasks :=
  rfl

/-- No task can go on. -/
def State.isStuck {config : Config Bool Unit ℕ ℕ} (state : State config) : Bool :=
  [Label.step true, .step false, .resume true, .resume false].all fun label =>
    (next state label).isNone

theorem State.stuck_of_isStuck
    {config : Config Bool Unit ℕ ℕ}
    {state : State config}
    (stuck : state.isStuck = true) :
    (machine config).Stuck state := by
  simp only [isStuck, List.all_cons, List.all_nil, Bool.and_true,
    Bool.and_eq_true, Option.isNone_iff_eq_none] at stuck
  rintro (t | t) <;> cases t
  · exact stuck.2.1
  · exact stuck.1
  · exact stuck.2.2.2
  · exact stuck.2.2.1

theorem streamsRefineChannels_handOver :
    ∃ state : State (handOverConfig (Decen.ringBuffer ℕ)),
      state.written () = [5, 6] ∧
      (handOver.machine (fun _ => some 1)).run handOver.initial
        ((refinement (handOverConfig (Decen.ringBuffer ℕ))).trace
          (State.initial _) handOverRun) = some state.abs := by
  obtain ⟨state, executed, tested⟩ := Option.map_eq_some_iff.mp
    (by decide : ((machine (handOverConfig (Decen.ringBuffer ℕ))).run
      (State.initial _) handOverRun).map
        (fun state => decide (state.written () = [5, 6])) = some true)
  exact ⟨state, of_decide_eq_true tested,
    (streamsRefineChannels _ handOverRun state executed).1⟩

/-- The same over the linked buffer, interrupted after the first item. -/
theorem historiesIndependent_handOver :
    ∃ (state : State (handOverConfig (Decen.ringBuffer ℕ)))
      (state' : State (handOverConfig (Hrc.linkedBuffer ℕ))),
      state.written () = [5, 6] ∧ state'.written () = [5] ∧
      (state.written () <+: state'.written () ∨
        state'.written () <+: state.written ()) := by
  obtain ⟨state, executed, tested⟩ := Option.map_eq_some_iff.mp
    (by decide : ((machine (handOverConfig (Decen.ringBuffer ℕ))).run
      (State.initial _) handOverRun).map
        (fun state => decide (state.written () = [5, 6])) = some true)
  obtain ⟨state', executed', tested'⟩ := Option.map_eq_some_iff.mp
    (by decide : ((machine (handOverConfig (Hrc.linkedBuffer ℕ))).run
      (State.initial _) [.step true, .step true]).map
        (fun state => decide (state.written () = [5])) = some true)
  exact ⟨state, state', of_decide_eq_true tested, of_decide_eq_true tested',
    historiesIndependent handOver_tasks executed executed' ()⟩

/-- Over both buffers the run ends where no task can go on. -/
theorem stuckRunsAgree_handOver :
    ∃ (state : State (handOverConfig (Decen.ringBuffer ℕ)))
      (state' : State (handOverConfig (Hrc.linkedBuffer ℕ))),
      (machine (handOverConfig (Hrc.linkedBuffer ℕ))).Stuck state' ∧
      state'.abs = state.abs := by
  obtain ⟨state, executed, stuck⟩ := Option.map_eq_some_iff.mp
    (by decide : ((machine (handOverConfig (Decen.ringBuffer ℕ))).run
      (State.initial _) handOverRun).map State.isStuck = some true)
  obtain ⟨state', executed', stuck'⟩ := Option.map_eq_some_iff.mp
    (by decide : ((machine (handOverConfig (Hrc.linkedBuffer ℕ))).run
      (State.initial _) handOverRun).map State.isStuck = some true)
  have ends := State.stuck_of_isStuck stuck'
  exact ⟨state, state', ends,
    (stuckRunsAgree handOver_tasks rfl executed (State.stuck_of_isStuck stuck)
      executed').2.2 ends⟩

end Example

end TaskNetwork
end Lpel
