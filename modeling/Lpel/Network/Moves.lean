import Lpel.Network.Invariant

/-!
# Moves of one task

A step of `LpelStreamWrite` or `LpelStreamRead` moves one task and concerns one
stream; a wakeup concerns a task that waits on it.  Here is what the three kinds
of steps (a move, a wakeup that is sent, and one that is used) need to keep the
invariant.
-/

namespace Lpel
namespace TaskNetwork

open StreamSystem (ProdPc Role StreamOk SpaceOk View)

variable {τ ι α σ : Type} {config : Config τ ι α σ}

/-- A guarded semaphore is accounted for by one of two cases. -/
theorem spaceOk_true_iff {semaphore : ℤ} {waits : Bool} {owed : ℕ} :
    SpaceOk true semaphore waits owed ↔
      (waits = true ∧ semaphore = -1 ∧ owed = 0) ∨
        (0 ≤ semaphore ∧ owed = waits.toNat) := by
  simp [SpaceOk]

/-- A task that has called `LpelStreamWrite` still has its item. -/
theorem written_lt
    {after : State config}
    {i : ι}
    {t : τ}
    {item : α}
    {goesOn : σ}
    {script : ι → List α}
    (call : CallPc)
    (covered : after.Covers script)
    (position : after.pc t = .write i call)
    (pending : call.pending = true)
    (action : config.tasks.act t (after.process t) = .write i item goesOn) :
    (after.written i).length < (script i).length := by
  have length :=
    (covered.writing t i item ⟨call, goesOn, position, pending, action⟩).length_le
  rw [List.length_append, List.length_singleton] at length
  omega

/-- A task outside of stream operations is writing nothing. -/
theorem not_writing
    {state after : State config}
    {t : τ}
    (outside : state.pc t = .outside)
    (j : ι)
    (item : α)
    (writes : state.Writing t j item) :
    after.Writing t j item := by
  obtain ⟨pc, -, position, -⟩ := writes
  rw [outside] at position
  cases position

/-- A task that has put its item is writing nothing. -/
theorem not_writing_of
    {state after : State config}
    {i : ι}
    {t : τ}
    {call : CallPc}
    (position : state.pc t = .write i call)
    (done : call.pending = false)
    (j : ι)
    (item : α)
    (writes : state.Writing t j item) :
    after.Writing t j item := by
  obtain ⟨pc, -, inCall, still, -⟩ := writes
  rw [position] at inCall
  obtain ⟨rfl, rfl⟩ := TaskPc.write.inj inCall
  rw [done] at still
  cases still

/-- A reader writes nothing. -/
theorem not_writing_read
    {state after : State config}
    {i : ι}
    {t : τ}
    {call : CallPc}
    (position : state.pc t = .read i call)
    (j : ι)
    (item : α)
    (writes : state.Writing t j item) :
    after.Writing t j item := by
  obtain ⟨pc, -, inCall, -⟩ := writes
  rw [position] at inCall
  cases inCall

variable [DecidableEq ι]

/-- What is known of a task before it calls `LpelStreamWrite`. -/
theorem Invariant.writer_outside
    {state : State config}
    {i : ι}
    {t : τ}
    {item : α}
    {goesOn : σ}
    (invariant : Invariant state)
    (outside : state.pc t = .outside)
    (action : config.tasks.act t (state.process t) = .write i item goesOn) :
    config.tasks.writer i = t ∧ state.writerPc i = .idle ∧
      state.writerWake i = 0 ∧ state.wake t = 0 := by
  have writer := config.tasks.writes action
  have idle : state.writerPc i = .idle := by
    rw [State.writerPc, writer, outside]
    rfl
  refine ⟨writer, idle, ?_, invariant.woken t (by rw [outside]; rfl)⟩
  rw [State.writerWake, idle]
  rfl

/-- What is known of a task in `LpelStreamWrite`. -/
theorem Invariant.writer_at
    {state : State config}
    {i : ι}
    {t : τ}
    {call : CallPc}
    (invariant : Invariant state)
    (position : state.pc t = .write i call) :
    config.tasks.writer i = t ∧ state.writerPc i = call.prodPc := by
  have fits := invariant.calls t
  rw [position] at fits
  refine ⟨fits.1, ?_⟩
  rw [State.writerPc, fits.1, position, TaskPc.prodPc_write]

/-- What is known of a task in `LpelStreamRead`. -/
theorem Invariant.reader_at
    {state : State config}
    {i : ι}
    {t : τ}
    {call : CallPc}
    (invariant : Invariant state)
    (position : state.pc t = .read i call) :
    config.tasks.reader i = t ∧ state.readerRole i = call.role := by
  have fits := invariant.calls t
  rw [position] at fits
  refine ⟨fits.1, ?_⟩
  rw [State.readerRole, fits.1, position, TaskPc.role_read]

/-- The wakeups for a writer in `LpelStreamWrite`. -/
theorem Invariant.writerWake_eq
    {state : State config}
    {i : ι}
    {t : τ}
    {call : CallPc}
    (invariant : Invariant state)
    (position : state.pc t = .write i call) :
    state.writerWake i = if call.prodPc.waits then state.wake t else 0 := by
  obtain ⟨writer, writerPc⟩ := invariant.writer_at position
  rw [State.writerWake, writerPc, writer]

/-- The wakeups for a reader in `LpelStreamRead`. -/
theorem Invariant.readerWake_eq
    {state : State config}
    {i : ι}
    {t : τ}
    {call : CallPc}
    (invariant : Invariant state)
    (position : state.pc t = .read i call) :
    state.readerWake i = if call.role = .waiting then state.wake t else 0 := by
  obtain ⟨reader, readerRole⟩ := invariant.reader_at position
  rw [State.readerWake, readerRole, reader]

/-- What was written to a stream and what its writer is about to put. -/
def State.nextScript (state : State config) (i : ι) : List α :=
  state.written i ++
    match config.tasks.act (config.tasks.writer i)
      (state.process (config.tasks.writer i)) with
    | .write _ item _ => [item]
    | _ => []

/-- That covers the state. -/
theorem Invariant.covers_nextScript
    {state : State config}
    (invariant : Invariant state) :
    state.Covers state.nextScript where
  written _ := List.prefix_append _ _
  writing := by
    rintro t i item ⟨call, goesOn, position, -, action⟩
    have writer := (invariant.writer_at position).1
    rw [State.nextScript, writer, action]

/-- The accounting of a stream. -/
theorem Invariant.accounted
    {state : State config}
    (invariant : Invariant state)
    (i : ι) :
    StreamOk (config.streams state.nextScript) i
      (state.view state.nextScript i) :=
  invariant.streams _ invariant.covers_nextScript i

/-- The reader that is to be woken waits on the stream. -/
theorem Invariant.reader_waits
    {state : State config}
    {i : ι}
    (invariant : Invariant state)
    (owes : (state.writerPc i).owes = true) :
    state.readerRole i = .waiting ∧ state.readerWake i = 0 ∧
      0 ≤ (state.stream i).nSem := by
  have items := spaceOk_true_iff.mp (invariant.items i)
  rw [owes, Bool.toNat_true] at items
  rcases items with ⟨-, -, none⟩ | ⟨low, owed⟩
  · omega
  · cases waiting : decide (state.readerRole i = .waiting) with
    | false =>
        rw [waiting, Bool.toNat_false] at owed
        omega
    | true =>
        rw [waiting, Bool.toNat_true] at owed
        exact ⟨of_decide_eq_true waiting, by omega, low⟩

/-- What is known of a task before it calls `LpelStreamRead`. -/
theorem Invariant.reader_outside
    {state : State config}
    {i : ι}
    {t : τ}
    {goesOn : α → σ}
    (invariant : Invariant state)
    (outside : state.pc t = .outside)
    (action : config.tasks.act t (state.process t) = .read i goesOn) :
    config.tasks.reader i = t ∧ state.readerRole i = .none ∧
      state.wake t = 0 := by
  have reader := config.tasks.reads action
  refine ⟨reader, ?_, invariant.woken t (by rw [outside]; rfl)⟩
  rw [State.readerRole, reader, outside]
  rfl

variable [DecidableEq τ]
variable {state after : State config} {i j : ι} {t u : τ}

/-- A step that moves one task, which is and stays in operations on one stream,
and sends no wakeup. -/
structure Moves
    (state after : State config)
    (t : τ)
    (i : ι)
    (position : TaskPc ι) : Prop where
  pc : after.pc = Function.update state.pc t position
  wake : after.wake = state.wake
  process : ∀ u, u ≠ t → after.process u = state.process u
  was : (state.pc t).OnlyAbout i
  is : position.OnlyAbout i
  stream : ∀ j, j ≠ i → after.stream j = state.stream j
  written : ∀ j, j ≠ i → after.written j = state.written j
  popped : ∀ j, j ≠ i → after.popped j = state.popped j

namespace Moves

variable {position : TaskPc ι}

/-- The step concerns that stream only. -/
theorem concerns (moves : Moves state after t i position) :
    Concerns state after i where
  tasks := by
    intro u
    rw [moves.pc, moves.wake]
    by_cases same : u = t
    · subst same
      right
      rw [Function.update_self]
      exact ⟨moves.was, moves.is⟩
    · left
      exact ⟨Function.update_of_ne same _ _, rfl⟩
  stream := moves.stream
  written := moves.written
  popped := moves.popped

/-- The writer after its own move. -/
theorem writerPc_self
    (moves : Moves state after t i position)
    (writer : config.tasks.writer i = t) :
    after.writerPc i = position.prodPc i := by
  rw [State.writerPc, writer, moves.pc, Function.update_self]

/-- The reader after its own move. -/
theorem readerRole_self
    (moves : Moves state after t i position)
    (reader : config.tasks.reader i = t) :
    after.readerRole i = position.role i := by
  rw [State.readerRole, reader, moves.pc, Function.update_self]

/-- A move that does not show in the position of the writer. -/
theorem writerPc_eq
    (moves : Moves state after t i position)
    (same : position.prodPc i = (state.pc t).prodPc i) :
    after.writerPc i = state.writerPc i := by
  unfold State.writerPc
  rw [moves.pc]
  by_cases writer : config.tasks.writer i = t
  · rw [writer, Function.update_self, same]
  · rw [Function.update_of_ne writer]

/-- A move that does not show in the position of the reader. -/
theorem readerRole_eq
    (moves : Moves state after t i position)
    (same : position.role i = (state.pc t).role i) :
    after.readerRole i = state.readerRole i := by
  unfold State.readerRole
  rw [moves.pc]
  by_cases reader : config.tasks.reader i = t
  · rw [reader, Function.update_self, same]
  · rw [Function.update_of_ne reader]

/-- The wakeups of the writer stay where they are. -/
theorem writerWake_eq
    (moves : Moves state after t i position)
    (same : position.prodPc i = (state.pc t).prodPc i) :
    after.writerWake i = state.writerWake i := by
  rw [State.writerWake, moves.writerPc_eq same, moves.wake]
  rfl

/-- The wakeups of the reader stay where they are. -/
theorem readerWake_eq
    (moves : Moves state after t i position)
    (same : position.role i = (state.pc t).role i) :
    after.readerWake i = state.readerWake i := by
  rw [State.readerWake, moves.readerRole_eq same, moves.wake]
  rfl

/-- The calls of all tasks after a move. -/
theorem calls
    (moves : Moves state after t i position)
    (invariant : Invariant state)
    (fits : position.Fits config t (after.process t))
    (u : τ) :
    (after.pc u).Fits config u (after.process u) := by
  rw [moves.pc]
  by_cases same : u = t
  · subst same
    rwa [Function.update_self]
  · rw [Function.update_of_ne same, moves.process u same]
    exact invariant.calls u

/-- Only tasks that wait have wakeups after a move. -/
theorem woken
    (moves : Moves state after t i position)
    (invariant : Invariant state)
    (unused : position.waits = false → state.wake t = 0)
    (u : τ)
    (waits : (after.pc u).waits = false) :
    after.wake u = 0 := by
  rw [moves.wake]
  rw [moves.pc] at waits
  by_cases same : u = t
  · subst same
    rw [Function.update_self] at waits
    exact unused waits
  · rw [Function.update_of_ne same] at waits
    exact invariant.woken u waits

/-- What other tasks are about to write does not change with a move. -/
theorem writing_other
    (moves : Moves state after t i position)
    (other : u ≠ t)
    {item : α} :
    after.Writing u j item ↔ state.Writing u j item := by
  unfold State.Writing
  rw [moves.pc, Function.update_of_ne other, moves.process u other]

/-- The scripts that cover the state after a move without a put cover the state
before it. -/
theorem covers
    (moves : Moves state after t i position)
    (written : after.written = state.written)
    (putting : ∀ j item, state.Writing t j item → after.Writing t j item)
    (script : ι → List α)
    (covered : after.Covers script) :
    state.Covers script := by
  refine covers_of_step ?_ ?_ covered
  · intro j
    rw [written]
  · intro u j item writes
    left
    refine ⟨?_, congrFun written j⟩
    by_cases same : u = t
    · subst same
      exact putting j item writes
    · exact (moves.writing_other same).mpr writes

/-- The account of the items is kept by moves that leave `n_sem`, the reader and
the wakeups that the writer owes as they are. -/
theorem items
    (moves : Moves state after t i position)
    (invariant : Invariant state)
    (nSem : (after.stream i).nSem = (state.stream i).nSem)
    (role : position.role i = (state.pc t).role i)
    (owes : (after.writerPc i).owes = (state.writerPc i).owes) :
    SpaceOk true (after.stream i).nSem
      (after.readerRole i = .waiting)
      (after.readerWake i + (after.writerPc i).owes.toNat) := by
  rw [nSem, moves.readerRole_eq role, moves.readerWake_eq role, owes]
  exact invariant.items i

/-- The accounting after a move of the writer. -/
theorem viewWriter
    {script : ι → List α}
    {view : View (config.streams script)}
    (moves : Moves state after t i position)
    (writer : config.tasks.writer i = t)
    (sameRole : position.role i = (state.pc t).role i)
    (ok : StreamOk (config.streams script) i view)
    (stream : after.stream i = view.stream)
    (pc : position.prodPc i = view.pc)
    (wake : view.wake = if view.pc.waits then state.wake t else 0)
    (role : view.role = state.readerRole i)
    (written : after.written i = view.written)
    (popped : after.popped i = view.popped) :
    StreamOk (config.streams script) i (after.view script i) := by
  have writerPc : after.writerPc i = view.pc :=
    (moves.writerPc_self writer).trans pc
  refine streamOk_view ok stream writerPc ?_
    ((moves.readerRole_eq sameRole).trans role.symm) written popped
  rw [State.writerWake, writerPc, writer, moves.wake, wake]

/-- The accounting after a move of the reader. -/
theorem viewReader
    {script : ι → List α}
    {view : View (config.streams script)}
    (moves : Moves state after t i position)
    (reader : config.tasks.reader i = t)
    (samePc : position.prodPc i = (state.pc t).prodPc i)
    (ok : StreamOk (config.streams script) i view)
    (stream : after.stream i = view.stream)
    (pc : view.pc = state.writerPc i)
    (wake : view.wake = state.writerWake i)
    (role : position.role i = view.role)
    (written : after.written i = view.written)
    (popped : after.popped i = view.popped) :
    StreamOk (config.streams script) i (after.view script i) :=
  streamOk_view ok stream ((moves.writerPc_eq samePc).trans pc.symm)
    ((moves.writerWake_eq samePc).trans wake.symm)
    ((moves.readerRole_self reader).trans role) written popped

end Moves

/-- A step that changes one stream and the position of a task. -/
theorem moves_setStream
    (state : State config)
    (t : τ)
    (i : ι)
    (was : (state.pc t).OnlyAbout i)
    (stream : StreamSystem.Stream config.impl.Buf)
    {position : TaskPc ι}
    (is : position.OnlyAbout i) :
    Moves state ((state.setStream i stream).setPc t position) t i position where
  pc := rfl
  wake := rfl
  process _ _ := rfl
  was := was
  is := is
  stream _ other := Function.update_of_ne other _ _
  written _ _ := rfl
  popped _ _ := rfl

/-- The stream that a step changes. -/
@[simp] theorem stream_setStream
    (state : State config)
    (t : τ)
    (i : ι)
    (stream : StreamSystem.Stream config.impl.Buf)
    (position : TaskPc ι) :
    ((state.setStream i stream).setPc t position).stream i = stream :=
  Function.update_self ..

/-- A step that changes only the position of a task. -/
theorem moves_setPc
    (state : State config)
    (t : τ)
    (i : ι)
    (was : (state.pc t).OnlyAbout i)
    {position : TaskPc ι}
    (is : position.OnlyAbout i) :
    Moves state (state.setPc t position) t i position where
  pc := rfl
  wake := rfl
  process _ _ := rfl
  was := was
  is := is
  stream _ _ := rfl
  written _ _ := rfl
  popped _ _ := rfl

/-- A task sends a wakeup to a task that waits on the stream, and leaves its
operation. -/
theorem Invariant.unblock
    {whom : τ}
    (invariant : Invariant state)
    (result : after = (state.sendWake whom).setPc t .outside)
    (was : (state.pc t).OnlyAbout i)
    (isAbout : (state.pc whom).OnlyAbout i)
    (waits : (state.pc whom).waits = true)
    (active : (state.pc t).waits = false)
    (putting : ∀ j item, state.Writing t j item → after.Writing t j item)
    (stream : ∀ script,
      StreamOk (config.streams script) i (state.view script i) →
      StreamOk (config.streams script) i (after.view script i))
    (items : SpaceOk true (after.stream i).nSem
      (after.readerRole i = .waiting)
      (after.readerWake i + (after.writerPc i).owes.toNat)) :
    Invariant after := by
  have distinct : t ≠ whom := by
    rintro rfl
    rw [active] at waits
    cases waits
  have pc : after.pc = Function.update state.pc t .outside :=
    result ▸ rfl
  have wake : after.wake =
      Function.update state.wake whom (state.wake whom + 1) :=
    result ▸ rfl
  have process : after.process = state.process := result ▸ rfl
  have written : after.written = state.written := result ▸ rfl
  have concerns : Concerns state after i := by
    refine ⟨?_, fun _ _ => result ▸ rfl, fun _ _ => result ▸ rfl,
      fun _ _ => result ▸ rfl⟩
    intro u
    rw [pc, wake]
    by_cases same : u = t
    · subst same
      exact .inr ⟨was, by simp⟩
    · by_cases woken : u = whom
      · subst woken
        exact .inr ⟨isAbout, by simpa [same] using isAbout⟩
      · exact .inl ⟨by simp [same], by simp [woken]⟩
  refine invariant.onStream concerns ?_ ?_ ?_ (fun script _ => stream script)
    items
  · intro script covered
    refine covers_of_step (by simp [written]) ?_ covered
    intro u j item writes
    refine .inl ⟨?_, congrFun written j⟩
    by_cases same : u = t
    · subst same
      exact putting j item writes
    · unfold State.Writing
      rwa [pc, Function.update_of_ne same, process]
  · intro u
    rw [pc, process]
    by_cases same : u = t
    · subst same
      rw [Function.update_self]
      trivial
    · rw [Function.update_of_ne same]
      exact invariant.calls u
  · intro u idle
    rw [pc] at idle
    by_cases same : u = t
    · subst same
      rw [wake, Function.update_of_ne distinct]
      exact invariant.woken u active
    · rw [Function.update_of_ne same] at idle
      have other : u ≠ whom := by
        rintro rfl
        rw [waits] at idle
        cases idle
      rw [wake, Function.update_of_ne other]
      exact invariant.woken u idle

/-- `LpelTaskBlockStream` returns in a task to which one wakeup was sent. -/
theorem Invariant.resumeTo
    {position : TaskPc ι}
    (invariant : Invariant state)
    (result : after =
      { state with wake := Function.update state.wake t (state.wake t - 1) }.setPc
        t position)
    (once : state.wake t = 1)
    (was : (state.pc t).OnlyAbout i)
    (is : position.OnlyAbout i)
    (fits : position.Fits config t (state.process t))
    (putting : ∀ j item, state.Writing t j item → after.Writing t j item)
    (stream : ∀ script,
      StreamOk (config.streams script) i (state.view script i) →
      StreamOk (config.streams script) i (after.view script i))
    (items : SpaceOk true (after.stream i).nSem
      (after.readerRole i = .waiting)
      (after.readerWake i + (after.writerPc i).owes.toNat)) :
    Invariant after := by
  have pc : after.pc = Function.update state.pc t position := result ▸ rfl
  have wake : after.wake = Function.update state.wake t (state.wake t - 1) :=
    result ▸ rfl
  have process : after.process = state.process := result ▸ rfl
  have written : after.written = state.written := result ▸ rfl
  have concerns : Concerns state after i := by
    refine ⟨?_, fun _ _ => result ▸ rfl, fun _ _ => result ▸ rfl,
      fun _ _ => result ▸ rfl⟩
    intro u
    rw [pc, wake]
    by_cases same : u = t
    · subst same
      exact .inr ⟨was, by simpa using is⟩
    · exact .inl ⟨by simp [same], by simp [same]⟩
  refine invariant.onStream concerns ?_ ?_ ?_ (fun script _ => stream script)
    items
  · intro script covered
    refine covers_of_step (by simp [written]) ?_ covered
    intro u j item writes
    refine .inl ⟨?_, congrFun written j⟩
    by_cases same : u = t
    · subst same
      exact putting j item writes
    · unfold State.Writing
      rwa [pc, Function.update_of_ne same, process]
  · intro u
    rw [pc, process]
    by_cases same : u = t
    · subst same
      rwa [Function.update_self]
    · rw [Function.update_of_ne same]
      exact invariant.calls u
  · intro u idle
    rw [pc] at idle
    rw [wake]
    by_cases same : u = t
    · subst same
      rw [Function.update_self, once]
    · rw [Function.update_of_ne same] at idle ⊢
      exact invariant.woken u idle

end TaskNetwork
end Lpel
