import Lpel.Network.Steps

/-!
# What the scheduler sees of the streams

A step of a task changes the position and the process of no other task.  The
effect of the step tells the scheduler whether the task waits afterwards and which
task it wakes up; a task that is woken up waits, and no other wakeup was sent to
it.
-/

namespace Lpel
namespace TaskNetwork

variable {τ ι α σ : Type} {config : Config τ ι α σ}
variable {state after : State config} {t u : τ}

/-- A task that is in `LpelTaskBlockStream` waits. -/
theorem TaskPc.waits_of_isBlocked
    {pc : TaskPc ι}
    (blocked : pc.isBlocked = true) :
    pc.waits = true := by
  cases pc with
  | outside => cases blocked
  | write i call | read i call => cases call <;> first | rfl | cases blocked

/-- A blocked task is in a stream operation. -/
theorem TaskPc.exists_of_isBlocked
    {pc : TaskPc ι}
    (blocked : pc.isBlocked = true) :
    ∃ i, pc = .write i .blocked ∨ pc = .read i .blocked := by
  cases pc with
  | outside => cases blocked
  | write i call =>
      cases call <;> first | exact ⟨i, .inl rfl⟩ | cases blocked
  | read i call =>
      cases call <;> first | exact ⟨i, .inr rfl⟩ | cases blocked

variable [DecidableEq τ]

/-- A return from a block. -/
theorem returnFromBlock_of_isBlocked
    (state : State config)
    (t : τ)
    (blocked : (state.pc t).isBlocked = true) :
    ((state.returnFromBlock t).pc t).waits = false ∧
      (state.returnFromBlock t).pc t ≠ .outside := by
  obtain ⟨i, position | position⟩ := TaskPc.exists_of_isBlocked blocked <;>
    simp [State.returnFromBlock, position, State.setPc, TaskPc.waits]

/-- A task that is not blocked has nothing to return from. -/
theorem returnFromBlock_of_not_isBlocked
    (state : State config)
    (t : τ)
    (active : (state.pc t).isBlocked = false) :
    state.returnFromBlock t = state := by
  unfold State.returnFromBlock
  dsimp only
  split
  case h_1 position | h_2 position =>
    rw [position] at active
    cases active
  case h_3 => rfl

/-- The other tasks are where they were. -/
theorem returnFromBlock_frame
    (state : State config)
    (t : τ)
    (other : u ≠ t) :
    (state.returnFromBlock t).pc u = state.pc u ∧
      (state.returnFromBlock t).wake u = state.wake u := by
  unfold State.returnFromBlock
  dsimp only
  split <;> simp [State.setPc, other]

/-- The processes go on only in the buffer operations. -/
theorem returnFromBlock_process (state : State config) (t : τ) :
    (state.returnFromBlock t).process = state.process := by
  unfold State.returnFromBlock
  dsimp only
  split <;> rfl

/-- What a step says to the scheduler is what the task does. -/
def Effect.Seen (state after : State config) (t : τ) : Effect τ → Prop
  | .none =>
      (state.pc t).waits = false ∧ (after.pc t).waits = false ∧
        after.wake = state.wake
  | .commit =>
      (state.pc t).waits = false ∧ (after.pc t).waits = true ∧
        (after.pc t).isBlocked = false ∧ after.wake = state.wake
  | .block =>
      (state.pc t).waits = true ∧ (state.pc t).isBlocked = false ∧
        (after.pc t).isBlocked = true ∧ after.wake = state.wake
  | .unblock whom =>
      (state.pc t).waits = false ∧ after.pc t = .outside ∧
        (state.pc whom).waits = true ∧ state.wake whom = 0 ∧
          after.wake = Function.update state.wake whom 1

variable [DecidableEq ι] {effect : Effect τ}

/-- The other tasks are where they were. -/
theorem Stepped.frame
    (stepped : Stepped state t effect after)
    (other : u ≠ t) :
    after.pc u = state.pc u ∧ after.process u = state.process u := by
  cases stepped with
  | reserveFull | reserveCell | reserveNothing | reserveItem | reserveEmpty
  | blockWriter | blockReader | put | releaseItem | lookupReader
  | lookupWriter | unblockReader | unblockWriter =>
      simp [State.setPc, State.setStream, State.putUnderLock, State.setProcess,
        State.releaseItem, State.sendWake, other]
  | pop position action popped =>
      obtain ⟨item, -, rfl⟩ := Option.map_eq_some_iff.mp popped
      simp [State.setPc, State.setStream, State.setProcess, other]
  | releaseSpace =>
      unfold State.releaseSpace
      split <;> simp [State.setPc, State.setStream, other]

/-- Every step is what its effect says. -/
theorem Invariant.seen
    (invariant : Invariant state)
    (stepped : Stepped state t effect after) :
    effect.Seen state after t := by
  cases stepped with
  | reserveFull outside | reserveEmpty outside | reserveCell outside
  | reserveNothing outside | reserveItem outside =>
      simp [Effect.Seen, State.setPc, State.setStream, TaskPc.waits,
        TaskPc.isBlocked, outside]
  | blockWriter position | blockReader position | put position
  | lookupReader position | lookupWriter position =>
      simp [Effect.Seen, State.setPc, State.setStream, State.putUnderLock,
        State.setProcess, TaskPc.waits, TaskPc.isBlocked, position]
  | pop position action popped =>
      obtain ⟨item, -, rfl⟩ := Option.map_eq_some_iff.mp popped
      simp [Effect.Seen, State.setPc, State.setStream, State.setProcess,
        TaskPc.waits, position]
  | releaseItem position =>
      refine ⟨by rw [position]; rfl, ?_, rfl⟩
      simp only [State.releaseItem, State.setPc, Function.update_self]
      split <;> rfl
  | releaseSpace position =>
      refine ⟨by rw [position]; rfl, ?_, ?_⟩ <;> unfold State.releaseSpace <;>
        split
      · simp only [State.setPc, Function.update_self]
        split <;> rfl
      · simp [State.setPc, TaskPc.waits]
      · rfl
      · rfl
  | unblockReader position =>
      obtain ⟨waits, unwoken, -⟩ := invariant.unblockReader position
      refine ⟨by rw [position]; rfl, by simp [State.setPc], waits, unwoken, ?_⟩
      simp [State.setPc, State.sendWake, unwoken]
  | unblockWriter position =>
      obtain ⟨waits, unwoken, -⟩ := invariant.unblockWriter position
      refine ⟨by rw [position]; rfl, by simp [State.setPc], waits, unwoken, ?_⟩
      simp [State.setPc, State.sendWake, unwoken]

end TaskNetwork
end Lpel
