import Lpel.Network.Moves

/-!
# Steps of tasks that communicate through streams

Every step of `LpelStreamWrite` and `LpelStreamRead` keeps the invariant.
-/

namespace Lpel
namespace TaskNetwork

open StreamSystem (ProdPc Role StreamOk SpaceOk View)

variable {τ ι α σ : Type} [DecidableEq ι] [DecidableEq τ]
variable {config : Config τ ι α σ}
variable {state after : State config} {i j : ι} {t : τ}

/-! ## `LpelStreamWrite` -/

section Write

variable {item : α} {goesOn : σ}

/-- The P operation on `e_sem` finds no cell. -/
theorem Invariant.reserveFull
    (invariant : Invariant state)
    (outside : state.pc t = .outside)
    (action : config.tasks.act t (state.process t) = .write i item goesOn)
    (bounded : config.bounded i = true)
    (full : (state.stream i).eSem = 0) :
    Invariant ((state.setStream i
      { state.stream i with eSem := (state.stream i).eSem - 1 }).setPc t
        (.write i .toBlock)) := by
  obtain ⟨writer, idle, unwoken, unused⟩ :=
    invariant.writer_outside outside action
  have moves := moves_setStream state t i
    (by simp [outside])
    { state.stream i with eSem := (state.stream i).eSem - 1 }
    (TaskPc.onlyAbout_write i .toBlock)
  have sameRole : (TaskPc.write i .toBlock).role i = (state.pc t).role i := by
    simp [outside]
  refine invariant.onStream moves.concerns
    (moves.covers rfl (not_writing outside))
    (moves.calls invariant ⟨writer, fun _ => ⟨item, goesOn, action⟩⟩)
    (moves.woken invariant fun _ => unused) ?_ ?_
  · intro script covered ok
    have more := written_lt (t := t) .toBlock covered
      (by simp [State.setPc]) rfl action
    exact moves.viewWriter writer sameRole
      (ok.reserveFull idle more bounded full) (Function.update_self ..)
      (TaskPc.prodPc_write ..) (unwoken.trans unused.symm) rfl rfl rfl
  · refine moves.items invariant ?_ sameRole ?_
    · rw [stream_setStream]
    · rw [moves.writerPc_self writer, idle, TaskPc.prodPc_write]
      rfl

/-- The P operation on `e_sem` reserves a cell. -/
theorem Invariant.reserveCell
    (invariant : Invariant state)
    (outside : state.pc t = .outside)
    (action : config.tasks.act t (state.process t) = .write i item goesOn)
    (bounded : config.bounded i = true)
    (free : (state.stream i).eSem ≠ 0) :
    Invariant ((state.setStream i
      { state.stream i with eSem := (state.stream i).eSem - 1 }).setPc t
        (.write i .buffer)) := by
  obtain ⟨writer, idle, unwoken, unused⟩ :=
    invariant.writer_outside outside action
  have moves := moves_setStream state t i
    (by simp [outside])
    { state.stream i with eSem := (state.stream i).eSem - 1 }
    (TaskPc.onlyAbout_write i .buffer)
  have sameRole : (TaskPc.write i .buffer).role i = (state.pc t).role i := by
    simp [outside]
  refine invariant.onStream moves.concerns
    (moves.covers rfl (not_writing outside))
    (moves.calls invariant ⟨writer, fun _ => ⟨item, goesOn, action⟩⟩)
    (moves.woken invariant fun _ => unused) ?_ ?_
  · intro script covered ok
    have more := written_lt (t := t) .buffer covered
      (by simp [State.setPc]) rfl action
    exact moves.viewWriter writer sameRole
      (ok.reserveCell idle more bounded free) (stream_setStream ..)
      (TaskPc.prodPc_write ..) unwoken rfl rfl rfl
  · refine moves.items invariant ?_ sameRole ?_
    · rw [stream_setStream]
    · rw [moves.writerPc_self writer, idle, TaskPc.prodPc_write]
      rfl

/-- A write to an unbounded stream needs no cell. -/
theorem Invariant.reserveNothing
    (invariant : Invariant state)
    (outside : state.pc t = .outside)
    (action : config.tasks.act t (state.process t) = .write i item goesOn)
    (unbounded : config.bounded i = false) :
    Invariant (state.setPc t (.write i .buffer)) := by
  obtain ⟨writer, idle, unwoken, unused⟩ :=
    invariant.writer_outside outside action
  have moves := moves_setPc state t i
    (by simp [outside]) (TaskPc.onlyAbout_write i .buffer)
  have sameRole : (TaskPc.write i .buffer).role i = (state.pc t).role i := by
    simp [outside]
  refine invariant.onStream moves.concerns
    (moves.covers rfl (not_writing outside))
    (moves.calls invariant ⟨writer, fun _ => ⟨item, goesOn, action⟩⟩)
    (moves.woken invariant fun _ => unused) ?_ ?_
  · intro script covered ok
    have more := written_lt (t := t) .buffer covered
      (by simp [State.setPc]) rfl action
    exact moves.viewWriter writer sameRole
      (ok.reserveNothing idle more unbounded) rfl (TaskPc.prodPc_write ..)
      unwoken rfl rfl rfl
  · refine moves.items invariant rfl sameRole ?_
    rw [moves.writerPc_self writer, idle, TaskPc.prodPc_write]
    rfl

/-- A writer goes on between positions with the same account. -/
theorem Invariant.relabelWriter
    (invariant : Invariant state)
    {call call' : CallPc}
    (position : state.pc t = .write i call)
    (waits : call'.prodPc.waits = call.prodPc.waits)
    (reserved : call'.prodPc.reserved = call.prodPc.reserved)
    (unreleased : call'.prodPc.unreleased = call.prodPc.unreleased)
    (owes : call'.prodPc.owes = call.prodPc.owes)
    (pending : call'.pending = call.pending)
    (unused : (TaskPc.write i call').waits = (TaskPc.write i call).waits) :
    Invariant (state.setPc t (.write i call')) := by
  obtain ⟨writer, writerPc⟩ := invariant.writer_at position
  have moves := moves_setPc state t i
    (by simp [position]) (TaskPc.onlyAbout_write i call')
  have sameRole : (TaskPc.write i call').role i = (state.pc t).role i := by
    simp [position]
  have fits := invariant.calls t
  rw [position] at fits
  refine invariant.onStream moves.concerns (moves.covers rfl ?_)
    (moves.calls invariant ⟨writer, fun still => fits.2 (pending ▸ still)⟩)
    (moves.woken invariant ?_) ?_ ?_
  · rintro j item ⟨pc, after, inCall, still, action⟩
    rw [position] at inCall
    obtain ⟨rfl, rfl⟩ := TaskPc.write.inj inCall
    exact ⟨call', after, Function.update_self .., pending.trans still, action⟩
  · intro notWaiting
    refine invariant.woken t ?_
    rw [position, ← unused, notWaiting]
  · intro script covered ok
    have viewPc : (state.view script i).pc = call.prodPc := writerPc
    refine moves.viewWriter writer sameRole
      (ok.relabel call'.prodPc (viewPc ▸ waits) (viewPc ▸ reserved)
        (viewPc ▸ unreleased) rfl rfl rfl) rfl (TaskPc.prodPc_write ..) ?_ rfl
      rfl rfl
    have wake := invariant.writerWake_eq position
    rw [← waits] at wake
    exact wake
  · refine moves.items invariant rfl sameRole ?_
    rw [moves.writerPc_self writer, writerPc, TaskPc.prodPc_write, owes]

/-- The critical section of `LpelStreamWrite`. -/
theorem Invariant.put
    (invariant : Invariant state)
    (position : state.pc t = .write i .buffer)
    (action : config.tasks.act t (state.process t) = .write i item goesOn) :
    Invariant (state.putUnderLock t i item goesOn) := by
  obtain ⟨writer, writerPc⟩ := invariant.writer_at position
  have unused : state.wake t = 0 := invariant.woken t (by rw [position]; rfl)
  have moves : Moves state (state.putUnderLock t i item goesOn) t i
      (.write i .release) :=
    { pc := rfl
      wake := rfl
      process := fun _ other => Function.update_of_ne other _ _
      was := by simp [position]
      is := TaskPc.onlyAbout_write i .release
      stream := fun _ other => Function.update_of_ne other _ _
      written := fun _ other => Function.update_of_ne other _ _
      popped := fun _ _ => rfl }
  have sameRole : (TaskPc.write i .release).role i = (state.pc t).role i := by
    simp [position]
  have put : (state.putUnderLock t i item goesOn).written i =
      state.written i ++ [item] :=
    Function.update_self ..
  refine invariant.onStream moves.concerns ?_
    (moves.calls invariant ⟨writer, fun still => by cases still⟩)
    (moves.woken invariant fun _ => unused) ?_ ?_
  · intro script covered
    refine covers_of_step ?_ ?_ covered
    · intro j
      by_cases same : j = i
      · subst same
        rw [put]
        exact List.prefix_append ..
      · rw [moves.written j same]
    · intro u j item' writes
      by_cases same : u = t
      · -- the task has put the item that it was about to put
        subst same
        right
        obtain ⟨pc, after, inCall, -, action'⟩ := writes
        rw [position] at inCall
        obtain ⟨rfl, -⟩ := TaskPc.write.inj inCall
        rw [action] at action'
        obtain ⟨-, rfl, -⟩ := Action.write.inj action'
        exact put
      · left
        refine ⟨(moves.writing_other same).mpr writes, moves.written j ?_⟩
        obtain ⟨pc, -, inCall, -⟩ := writes
        rintro rfl
        exact same ((invariant.writer_at inCall).1.symm.trans writer)
  · intro script covered ok
    have nextItem : (script i)[(state.written i).length]? = some item := by
      obtain ⟨more, extended⟩ := covered.written i
      rw [put] at extended
      rw [← extended, List.append_assoc,
        List.getElem?_append_right (le_refl _), Nat.sub_self]
      rfl
    refine moves.viewWriter writer sameRole
      (ok.put writerPc nextItem false false) (Function.update_self ..)
      (TaskPc.prodPc_write ..) ?_ rfl put rfl
    exact (invariant.writerWake_eq position).trans rfl
  · refine moves.items invariant ?_ sameRole ?_
    · simp [State.putUnderLock, State.setStream, State.setProcess, State.setPc]
    · rw [moves.writerPc_self writer, writerPc, TaskPc.prodPc_write]
      rfl

/-- The V operation on `n_sem` finds out whether the reader waits. -/
theorem Invariant.releaseItem
    (invariant : Invariant state)
    (position : state.pc t = .write i .release) :
    Invariant (state.releaseItem t i) := by
  obtain ⟨writer, writerPc⟩ := invariant.writer_at position
  have unused : state.wake t = 0 := invariant.woken t (by rw [position]; rfl)
  have items := spaceOk_true_iff.mp (invariant.items i)
  rw [writerPc] at items
  change _ ∨ (_ ∧ state.readerWake i + 0 = _) at items
  unfold State.releaseItem
  dsimp only
  split
  case isTrue waiting =>
    have moves := moves_setStream state t i
      (by simp [position])
      { state.stream i with nSem := (state.stream i).nSem + 1 }
      (TaskPc.onlyAbout_write i .lookup)
    have sameRole : (TaskPc.write i .lookup).role i = (state.pc t).role i := by
      simp [position]
    refine invariant.onStream moves.concerns
      (moves.covers rfl (not_writing_of position rfl))
      (moves.calls invariant ⟨writer, fun still => by cases still⟩)
      (moves.woken invariant fun _ => unused) ?_ ?_
    · intro script covered ok
      exact moves.viewWriter writer sameRole
        (ok.releaseItem writerPc .lookup rfl rfl rfl) (stream_setStream ..)
        (TaskPc.prodPc_write ..) (invariant.writerWake_eq position) rfl rfl rfl
    · -- the reader waits, and is owed the wakeup from now on
      rw [spaceOk_true_iff, stream_setStream, moves.readerRole_eq sameRole,
        moves.readerWake_eq sameRole, moves.writerPc_self writer,
        TaskPc.prodPc_write]
      rcases items with ⟨waits, empty, none⟩ | ⟨low, -⟩
      · right
        rw [waits]
        exact ⟨by simp [empty], by simp_all [CallPc.prodPc, ProdPc.owes]⟩
      · omega
  case isFalse low =>
    have moves := moves_setStream state t i
      (by simp [position])
      { state.stream i with nSem := (state.stream i).nSem + 1 }
      (TaskPc.onlyAbout_outside i)
    have sameRole : (TaskPc.outside : TaskPc ι).role i = (state.pc t).role i := by
      simp [position]
    refine invariant.onStream moves.concerns
      (moves.covers rfl (not_writing_of position rfl))
      (moves.calls invariant trivial) (moves.woken invariant fun _ => unused)
      ?_ ?_
    · intro script covered ok
      exact moves.viewWriter writer sameRole
        (ok.releaseItem writerPc .idle rfl rfl rfl) (stream_setStream ..)
        (TaskPc.prodPc_outside ..) (invariant.writerWake_eq position) rfl rfl rfl
    · rw [spaceOk_true_iff, stream_setStream, moves.readerRole_eq sameRole,
        moves.readerWake_eq sameRole, moves.writerPc_self writer,
        TaskPc.prodPc_outside]
      rcases items with ⟨-, empty, -⟩ | ⟨-, owed⟩
      · omega
      · exact .inr ⟨by simp only; omega, owed⟩

/-- `LpelTaskUnblock` sends the reader the wakeup it is owed. -/
theorem Invariant.unblockReader
    (invariant : Invariant state)
    (position : state.pc t = .write i .unblock) :
    (state.pc (config.tasks.reader i)).waits = true ∧
      state.wake (config.tasks.reader i) = 0 ∧
      Invariant ((state.sendWake (config.tasks.reader i)).setPc t .outside) := by
  obtain ⟨writer, writerPc⟩ := invariant.writer_at position
  obtain ⟨waiting, unwoken, low⟩ := invariant.reader_waits (i := i)
    (by rw [writerPc]; rfl)
  obtain ⟨call, reading, waits⟩ := TaskPc.exists_read_of_waiting waiting
  have wake : state.wake (config.tasks.reader i) = 0 := by
    rwa [State.readerWake, if_pos waiting] at unwoken
  have distinct : config.tasks.reader i ≠ t := by
    intro same
    rw [same, position] at reading
    cases reading
  refine ⟨waits, wake, ?_⟩
  set after := (state.sendWake (config.tasks.reader i)).setPc t .outside
    with result
  have role : after.readerRole i = state.readerRole i := by
    simp [result, State.readerRole, State.setPc, State.sendWake, distinct]
  have idle : after.writerPc i = .idle := by
    simp [result, State.writerPc, State.setPc, writer]
  refine invariant.unblock (i := i) result (by simp [position]) (by simp [reading]) waits
    (by rw [position]; rfl) (not_writing_of position rfl) ?_ ?_
  · intro script ok
    have viewPc : (state.view script i).pc = .unblock false := writerPc
    refine streamOk_view (ok.relabel .idle (by rw [viewPc]; rfl)
      (by rw [viewPc]; rfl) (by rw [viewPc]; rfl) rfl rfl rfl) rfl idle ?_ role
      rfl rfl
    rw [State.writerWake, idle]
    exact ((invariant.writerWake_eq position).trans rfl).symm
  · rw [spaceOk_true_iff, idle, role]
    refine .inr ⟨low, ?_⟩
    rw [State.readerWake, role, if_pos waiting]
    simp [result, State.setPc, State.sendWake, wake, waiting, ProdPc.owes]

/-- `LpelTaskBlockStream` returns in `LpelStreamWrite`. -/
theorem Invariant.resumeWriter
    (invariant : Invariant state)
    (position : state.pc t = .write i .blocked)
    (woken : 0 < state.wake t) :
    Invariant (state.returnFromBlock t) := by
  obtain ⟨writer, writerPc⟩ := invariant.writer_at position
  have wakes : state.writerWake i = state.wake t :=
    (invariant.writerWake_eq position).trans rfl
  have once : state.wake t = 1 := by
    have owed := ((invariant.accounted i).producer_woken
      (by change 0 < state.writerWake i; omega)).1
    change state.writerWake i = 1 at owed
    omega
  have fits := invariant.calls t
  rw [position] at fits
  set after := state.returnFromBlock t with result
  rw [State.returnFromBlock, position] at result
  dsimp only at result
  have role : after.readerRole i = state.readerRole i := by
    unfold State.readerRole
    by_cases same : config.tasks.reader i = t
    · simp [result, State.setPc, same, position]
    · simp [result, State.setPc, same]
  have reader : after.readerWake i = state.readerWake i := by
    unfold State.readerWake
    rw [role]
    by_cases same : config.tasks.reader i = t
    · have unused : state.readerRole i = .none := by
        rw [State.readerRole, same, position]
        rfl
      rw [unused]
      rfl
    · simp [result, State.setPc, same]
  have putting : after.writerPc i = .put := by
    simp [result, State.writerPc, State.setPc, writer, CallPc.prodPc]
  refine invariant.resumeTo (i := i) result once (by simp [position]) (by simp)
    ⟨writer, fun _ => fits.2 rfl⟩ ?_ ?_ ?_
  · rintro j item ⟨pc, goesOn, inCall, -, action⟩
    rw [position] at inCall
    obtain ⟨rfl, rfl⟩ := TaskPc.write.inj inCall
    rw [result]
    exact ⟨.buffer, goesOn, Function.update_self .., rfl, action⟩
  · intro script ok
    refine streamOk_view (ok.resume writerPc ?_) (result ▸ rfl) putting ?_ role
      (result ▸ rfl) (result ▸ rfl)
    · change 0 < state.writerWake i
      omega
    · change _ = state.writerWake i - 1
      rw [State.writerWake, putting, wakes, once]
      rfl
  · have items := invariant.items i
    rw [writerPc] at items
    rw [role, reader, putting, result]
    exact items

end Write

/-! ## `LpelStreamRead` -/

section Read

variable {goesOn : α → σ}

/-- The P operation on `n_sem`. -/
theorem Invariant.reserveItem
    (invariant : Invariant state)
    (outside : state.pc t = .outside)
    (action : config.tasks.act t (state.process t) = .read i goesOn)
    {call : CallPc}
    (branch : call =
      if (state.stream i).nSem = 0 then .toBlock else .buffer) :
    Invariant ((state.setStream i
      { state.stream i with nSem := (state.stream i).nSem - 1 }).setPc t
        (.read i call)) := by
  obtain ⟨reader, role, unused⟩ := invariant.reader_outside outside action
  have moves := moves_setStream state t i
    (by simp [outside])
    { state.stream i with nSem := (state.stream i).nSem - 1 }
    (TaskPc.onlyAbout_read i call)
  have samePc : (TaskPc.read i call).prodPc i = (state.pc t).prodPc i := by
    simp [outside]
  have callRole : call.role =
      if (state.stream i).nSem = 0 then .waiting else .top := by
    rw [branch]
    split <;> rfl
  refine invariant.onStream moves.concerns
    (moves.covers rfl (not_writing outside))
    (moves.calls invariant ⟨reader, fun _ => ⟨goesOn, action⟩⟩)
    (moves.woken invariant fun _ => unused) ?_ ?_
  · intro script _ ok
    exact moves.viewReader reader samePc (ok.reserveItem role)
      (stream_setStream ..) rfl rfl ((TaskPc.role_read ..).trans callRole) rfl rfl
  · have items := spaceOk_true_iff.mp (invariant.items i)
    rw [role] at items
    rw [spaceOk_true_iff, stream_setStream, moves.readerRole_self reader,
      moves.writerPc_eq samePc, TaskPc.role_read, callRole]
    have wake : ((state.setStream i { state.stream i with
        nSem := (state.stream i).nSem - 1 }).setPc t
          (.read i call)).readerWake i = 0 := by
      unfold State.readerWake
      rw [reader, moves.wake, unused, ite_self]
    rw [wake]
    simp at items
    obtain ⟨low, unwoken, owes⟩ := items
    by_cases empty : (state.stream i).nSem = 0
    · left
      simp [empty, owes]
    · right
      simp only [empty, if_false, owes]
      exact ⟨by omega, rfl⟩

/-- A reader goes on between positions with the same account. -/
theorem Invariant.relabelReader
    (invariant : Invariant state)
    {call call' : CallPc}
    (position : state.pc t = .read i call)
    (role : call'.role = call.role)
    (pending : call'.pending = call.pending)
    (unused : (TaskPc.read i call').waits = (TaskPc.read i call).waits) :
    Invariant (state.setPc t (.read i call')) := by
  obtain ⟨reader, readerRole⟩ := invariant.reader_at position
  have moves := moves_setPc state t i
    (by simp [position]) (TaskPc.onlyAbout_read i call')
  have samePc : (TaskPc.read i call').prodPc i = (state.pc t).prodPc i := by
    simp [position]
  have sameRole : (TaskPc.read i call').role i = (state.pc t).role i := by
    simp [position, role]
  have fits := invariant.calls t
  rw [position] at fits
  refine invariant.onStream moves.concerns
    (moves.covers rfl (not_writing_read position))
    (moves.calls invariant ⟨reader, fun still => fits.2 (pending ▸ still)⟩)
    (moves.woken invariant ?_) ?_ ?_
  · intro notWaiting
    refine invariant.woken t ?_
    rw [position, ← unused, notWaiting]
  · intro script _ ok
    exact moves.viewReader reader samePc ok rfl rfl rfl
      ((TaskPc.role_read ..).trans (role.trans readerRole.symm)) rfl rfl
  · refine moves.items invariant rfl sameRole ?_
    rw [moves.writerPc_eq samePc]

/-- Taking the top item and popping it. -/
theorem Invariant.pop
    (invariant : Invariant state)
    (position : state.pc t = .read i .buffer)
    (popped : state.topAndPop t i goesOn = some after) :
    Invariant after := by
  obtain ⟨reader, role⟩ := invariant.reader_at position
  have unused : state.wake t = 0 := invariant.woken t (by rw [position]; rfl)
  obtain ⟨item, top, rfl⟩ := Option.map_eq_some_iff.mp popped
  set after := State.setPc _ t (.read i .release) with result
  have moves : Moves state after t i (.read i .release) :=
    { pc := rfl
      wake := rfl
      process := fun _ other => Function.update_of_ne other _ _
      was := by simp [position]
      is := TaskPc.onlyAbout_read i .release
      stream := fun _ other => Function.update_of_ne other _ _
      written := fun _ _ => rfl
      popped := fun _ other => Function.update_of_ne other _ _ }
  have samePc : (TaskPc.read i .release).prodPc i = (state.pc t).prodPc i := by
    simp [position]
  refine invariant.onStream moves.concerns
    (moves.covers rfl (not_writing_read position))
    (moves.calls invariant ⟨reader, fun still => by cases still⟩)
    (moves.woken invariant fun _ => unused) ?_ ?_
  · intro script _ ok
    obtain ⟨first, rest, items⟩ := ok.exists_item role
    have same : first = item := by
      have top' := config.impl.top_eq ok.holds
      rw [items] at top'
      exact Option.some.inj (top'.symm.trans top)
    subst same
    exact moves.viewReader reader samePc (ok.topAndPop role items)
      (Function.update_self ..) rfl rfl (TaskPc.role_read ..) rfl
      (Function.update_self ..)
  · have items := invariant.items i
    rw [role] at items
    have wake : after.readerWake i = state.readerWake i := by
      unfold State.readerWake
      rw [reader, moves.wake, unused, ite_self, ite_self]
    rw [moves.readerRole_self reader, wake, moves.writerPc_eq samePc,
      TaskPc.role_read]
    have nSem : (after.stream i).nSem = (state.stream i).nSem := by
      simp [result, State.setStream, State.setProcess, State.setPc]
    rw [nSem]
    exact items

/-- The V operation on `e_sem` finds out whether the writer waits. -/
theorem Invariant.releaseSpace
    (invariant : Invariant state)
    (position : state.pc t = .read i .release) :
    Invariant (state.releaseSpace t i) := by
  obtain ⟨reader, role⟩ := invariant.reader_at position
  have unused : state.wake t = 0 := invariant.woken t (by rw [position]; rfl)
  have items := invariant.items i
  rw [role] at items
  have wakes : state.readerWake i = 0 := invariant.readerWake_eq position
  rw [wakes] at items
  -- what is kept wherever the reader goes on
  have kept {after : State config} {goesTo : TaskPc ι}
      (moves : Moves state after t i goesTo)
      (written : after.written = state.written)
      (nSem : (after.stream i).nSem = (state.stream i).nSem)
      (samePc : goesTo.prodPc i = (state.pc t).prodPc i)
      (notWaiting : goesTo.role i ≠ .waiting)
      (fits : goesTo.Fits config t (after.process t))
      (stream : ∀ script,
        StreamOk (config.streams script) i (state.view script i) →
        StreamOk (config.streams script) i (after.view script i)) :
      Invariant after := by
    refine invariant.onStream moves.concerns
      (moves.covers written (not_writing_read position))
      (moves.calls invariant fits) (moves.woken invariant fun _ => unused)
      (fun script _ => stream script) ?_
    have afterRole := moves.readerRole_self reader
    rw [State.readerWake, afterRole, if_neg notWaiting,
      moves.writerPc_eq samePc, nSem]
    simpa [notWaiting, CallPc.role] using items
  unfold State.releaseSpace
  split
  case isTrue bounded =>
    dsimp only
    have is : (if (state.stream i).eSem < 0 then TaskPc.read i .lookup
        else .outside).OnlyAbout i := by
      split <;> simp
    have goesTo : (if (state.stream i).eSem < 0 then TaskPc.read i .lookup
        else .outside).role i =
        if (state.stream i).eSem < 0 then .wake else .none := by
      split <;> simp [CallPc.role]
    have samePc : (if (state.stream i).eSem < 0 then TaskPc.read i .lookup
        else .outside).prodPc i = (state.pc t).prodPc i := by
      rw [position]
      split <;> rfl
    have moves := moves_setStream state t i
      (by simp [position])
      { state.stream i with eSem := (state.stream i).eSem + 1 } is
    refine kept moves rfl (by rw [stream_setStream]) samePc ?_ ?_ ?_
    · rw [goesTo]
      split <;> simp
    · split
      · exact ⟨reader, fun still => by cases still⟩
      · trivial
    · intro script ok
      exact moves.viewReader reader samePc (ok.releaseCell role bounded)
        (stream_setStream ..) rfl rfl goesTo rfl rfl
  case isFalse unbounded =>
    have moves := moves_setPc state t i
      (by simp [position]) (TaskPc.onlyAbout_outside i)
    refine kept moves rfl rfl (by simp [position]) (by simp) trivial ?_
    intro script ok
    exact moves.viewReader reader (by simp [position])
      (ok.releaseNothing role (Bool.eq_false_iff.mpr unbounded)) rfl rfl rfl rfl
      rfl rfl

/-- `LpelTaskUnblock` sends the writer the wakeup it is owed. -/
theorem Invariant.unblockWriter
    (invariant : Invariant state)
    (position : state.pc t = .read i .unblock) :
    (state.pc (config.tasks.writer i)).waits = true ∧
      state.wake (config.tasks.writer i) = 0 ∧
      Invariant ((state.sendWake (config.tasks.writer i)).setPc t .outside) := by
  obtain ⟨reader, role⟩ := invariant.reader_at position
  obtain ⟨viewWaits, sent⟩ := (invariant.accounted i).unblockProducer role
  have waiting : (state.writerPc i).waits = true := viewWaits
  have unwoken : state.writerWake i = 0 := by
    have woken := (sent.producer_woken (Nat.succ_pos _)).1
    change state.writerWake i + 1 = 1 at woken
    omega
  obtain ⟨call, writing, waits⟩ := TaskPc.exists_write_of_waits waiting
  have wake : state.wake (config.tasks.writer i) = 0 := by
    rwa [State.writerWake, if_pos waiting] at unwoken
  have distinct : config.tasks.writer i ≠ t := by
    intro same
    rw [same, position] at writing
    cases writing
  refine ⟨waits, wake, ?_⟩
  set after := (state.sendWake (config.tasks.writer i)).setPc t .outside
    with result
  have writerPc : after.writerPc i = state.writerPc i := by
    simp [result, State.writerPc, State.setPc, State.sendWake, distinct]
  have idle : after.readerRole i = .none := by
    simp [result, State.readerRole, State.setPc, reader]
  refine invariant.unblock (i := i) result (by simp [position])
    (by simp [writing]) waits (by rw [position]; rfl)
    (not_writing_read position) ?_ ?_
  · intro script ok
    refine streamOk_view (ok.unblockProducer role).2 rfl writerPc ?_ idle rfl rfl
    change after.writerWake i = state.writerWake i + 1
    rw [unwoken, State.writerWake, writerPc, if_pos waiting]
    simp [result, State.setPc, State.sendWake, wake]
  · have items := invariant.items i
    rw [role] at items
    have wakes : state.readerWake i = 0 := invariant.readerWake_eq position
    rw [State.readerWake, idle, writerPc]
    rw [wakes] at items
    exact items

/-- `LpelTaskBlockStream` returns in `LpelStreamRead`. -/
theorem Invariant.resumeReader
    (invariant : Invariant state)
    (position : state.pc t = .read i .blocked)
    (woken : 0 < state.wake t) :
    Invariant (state.returnFromBlock t) := by
  obtain ⟨reader, role⟩ := invariant.reader_at position
  have wakes : state.readerWake i = state.wake t :=
    (invariant.readerWake_eq position).trans rfl
  have items := spaceOk_true_iff.mp (invariant.items i)
  rw [role, wakes] at items
  obtain ⟨low, once, owes⟩ : 0 ≤ (state.stream i).nSem ∧ state.wake t = 1 ∧
      (state.writerPc i).owes.toNat = 0 := by
    rcases items with ⟨-, -, none⟩ | ⟨low, owed⟩
    · omega
    · change _ = 1 at owed
      exact ⟨low, by omega, by omega⟩
  have fits := invariant.calls t
  rw [position] at fits
  set after := state.returnFromBlock t with result
  rw [State.returnFromBlock, position] at result
  dsimp only at result
  have writerPc : after.writerPc i = state.writerPc i := by
    unfold State.writerPc
    by_cases same : config.tasks.writer i = t
    · simp [result, State.setPc, same, position]
    · simp [result, State.setPc, same]
  have writerWake : after.writerWake i = state.writerWake i := by
    unfold State.writerWake
    rw [writerPc]
    by_cases same : config.tasks.writer i = t
    · have unused : state.writerPc i = .idle := by
        rw [State.writerPc, same, position]
        rfl
      rw [unused]
      rfl
    · simp [result, State.setPc, same]
  have topping : after.readerRole i = .top := by
    simp [result, State.readerRole, State.setPc, reader, CallPc.role]
  refine invariant.resumeTo (i := i) result once (by simp [position]) (by simp)
    ⟨reader, fun _ => fits.2 rfl⟩ (not_writing_read position) ?_ ?_
  · intro script ok
    exact streamOk_view (ok.wakeReader role low) (result ▸ rfl) writerPc
      writerWake topping (result ▸ rfl) (result ▸ rfl)
  · rw [spaceOk_true_iff, State.readerWake, topping, writerPc, result]
    right
    exact ⟨low, by simpa using owes⟩

end Read

/-! ## Runs -/

/-- Every step of a task keeps the invariant. -/
theorem Invariant.step
    (invariant : Invariant state)
    {effect : Effect τ}
    (stepped : Stepped state t effect after) :
    Invariant after := by
  cases stepped with
  | reserveFull outside action bounded full =>
      exact invariant.reserveFull outside action bounded full
  | reserveCell outside action bounded free =>
      exact invariant.reserveCell outside action bounded free
  | reserveNothing outside action unbounded =>
      exact invariant.reserveNothing outside action unbounded
  | reserveItem outside action some =>
      exact invariant.reserveItem outside action (if_neg some).symm
  | reserveEmpty outside action empty =>
      exact invariant.reserveItem outside action (if_pos empty).symm
  | blockWriter position =>
      exact invariant.relabelWriter position rfl rfl rfl rfl rfl rfl
  | blockReader position => exact invariant.relabelReader position rfl rfl rfl
  | @put i j item goesOn position action =>
      have fits := invariant.calls t
      rw [position] at fits
      obtain ⟨item', goesOn', action'⟩ := fits.2 rfl
      obtain ⟨rfl, rfl, rfl⟩ := Action.write.inj (action'.symm.trans action)
      exact invariant.put position action
  | pop position _ popped => exact invariant.pop position popped
  | releaseItem position => exact invariant.releaseItem position
  | releaseSpace position => exact invariant.releaseSpace position
  | lookupReader position =>
      exact invariant.relabelWriter position rfl rfl rfl rfl rfl rfl
  | lookupWriter position => exact invariant.relabelReader position rfl rfl rfl
  | unblockReader position => exact (invariant.unblockReader position).2.2
  | unblockWriter position => exact (invariant.unblockWriter position).2.2

/-- A blocked task that returns keeps the invariant. -/
theorem Invariant.resume
    (invariant : Invariant state)
    (blocked : (state.pc t).isBlocked = true)
    (woken : 0 < state.wake t) :
    Invariant (state.returnFromBlock t) := by
  cases position : state.pc t with
  | outside =>
      rw [position] at blocked
      cases blocked
  | write i call =>
      cases call with
      | blocked => exact invariant.resumeWriter position woken
      | _ =>
          rw [position] at blocked
          cases blocked
  | read i call =>
      cases call with
      | blocked => exact invariant.resumeReader position woken
      | _ =>
          rw [position] at blocked
          cases blocked

end TaskNetwork
end Lpel
