import Mathlib.Data.Int.Basic
import Lpel.Lib.Machine

/-!
# Trying to write to a stream

In both back ends `LpelStreamTryWrite` asks the buffer for space and calls
`LpelStreamWrite` if there is some.  This module adds the calls of one writer to
the steps of a stream, and relates two things that each back end decides for
itself: whether the stream is full, and whether the write blocks.
-/

namespace Lpel

variable {σ ℓ α : Type}

/-- Where a writer is in `LpelStreamWrite`.  The number is a bound for the steps
that it still has to make. -/
inductive WriteStage
  | outside
  /-- It has committed to block. -/
  | waiting
  /-- Before its item is in the buffer. -/
  | unput (left : ℕ)
  | put (left : ℕ)
  deriving DecidableEq

/-- A stream with its two sides, as one writer sees it. -/
structure Writer (σ ℓ α : Type) where
  machine : Machine σ ℓ
  /-- `LpelBufferIsSpace`. -/
  isSpace : σ → Bool
  /-- The stream holds as many items as it may. -/
  full : σ → Bool
  /-- The writer has the stream open, is in no call and may write the item. -/
  mayWrite : σ → α → Bool
  stage : σ → WriteStage
  /-- The items put so far. -/
  written : σ → List α
  /-- The item of the call, before it is put. -/
  pending : σ → Option α
  /-- The step that begins a call of `LpelStreamWrite`. -/
  write : α → ℓ
  /-- Whether the step is one of the writer. -/
  own : ℓ → Bool
  /-- The step is one from which the writer commits to block. -/
  Blocks : σ → ℓ → Prop
  /-- The stream has not been taken from the writer, and `malloc` returns. -/
  Attached : σ → Prop
  /-- No call of `LpelStreamWrite` has more steps. -/
  steps : ℕ

/-- Where the writer is in `LpelStreamTryWrite`. -/
inductive TryPc (α : Type)
  | outside
  /-- There was space, before `LpelStreamWrite`; the flag says whether the stream
  was full at the check. -/
  | checked (full : Bool) (item : α)
  /-- In `LpelStreamWrite`, with the items that were put before. -/
  | inside (full : Bool) (item : α) (before : List α)
  deriving DecidableEq

/-- What a call has returned, and whether the stream was full at its check. -/
inductive TryResult (α : Type)
  /-- `-1`. -/
  | refused (full : Bool)
  /-- `0`, with the items put before and after the call. -/
  | wrote (full : Bool) (item : α) (before after : List α)

/-- A refused item found a full stream, and another one is appended. -/
def TryResult.Correct : TryResult α → Prop
  | .refused full => full = true
  | .wrote full item before after => full = false ∧ after = before ++ [item]

/-- The stream and the calls of the writer. -/
structure TryState (σ α : Type) where
  system : σ
  pc : TryPc α
  /-- History: the results of the calls, the last one first. -/
  results : List (TryResult α)

/-- Before the first call. -/
def TryState.start (system : σ) : TryState σ α where
  system := system
  pc := .outside
  results := []

/-- What moves next. -/
inductive TryLabel (ℓ α : Type)
  /-- The writer calls `LpelStreamTryWrite`. -/
  | tryWrite (item : α)
  /-- The writer goes on to call `LpelStreamWrite`. -/
  | write
  /-- Another step. -/
  | step (label : ℓ)

namespace Writer

variable (writer : Writer σ ℓ α)

/-- The check of `LpelStreamTryWrite`. -/
def lpelStreamTryWrite (state : TryState σ α) (item : α) :
    Option (TryState σ α) :=
  match state.pc with
  | .outside =>
      if writer.mayWrite state.system item then
        if writer.isSpace state.system then
          some { state with pc := .checked (writer.full state.system) item }
        else
          some { state with
            results := .refused (writer.full state.system) :: state.results }
      else
        none
  | _ => none

/-- The first step of `LpelStreamWrite` in `LpelStreamTryWrite`. -/
def tryCall (state : TryState σ α) : Option (TryState σ α) :=
  match state.pc with
  | .checked full item =>
      (writer.machine.next state.system (writer.write item)).map fun system =>
        { state with
          system := system
          pc := .inside full item (writer.written state.system) }
  | _ => none

/-- Another step, while the writer may be in a call. -/
def tryStep (state : TryState σ α) (label : ℓ) : Option (TryState σ α) :=
  match state.pc with
  | .outside =>
      (writer.machine.next state.system label).map fun system =>
        { state with system := system }
  | .checked _ _ =>
      if writer.own label then
        none
      else
        (writer.machine.next state.system label).map fun system =>
          { state with system := system }
  | .inside full item before =>
      (writer.machine.next state.system label).map fun system =>
        if writer.stage system = .outside then
          { system := system
            pc := .outside
            results :=
              .wrote full item before (writer.written system) ::
                state.results }
        else
          { state with system := system }

/-- The stream, and the calls of `LpelStreamTryWrite` by the writer. -/
def tryMachine : Machine (TryState σ α) (TryLabel ℓ α) where
  init := fun state => ∃ system, writer.machine.init system ∧
    state = .start system
  next := fun state label =>
    match label with
    | .tryWrite item => writer.lpelStreamTryWrite state item
    | .write => writer.tryCall state
    | .step label => writer.tryStep state label

/-- The steps that the writer makes in a call. -/
def ownLabel : TryLabel ℓ α → Bool
  | .tryWrite _ => false
  | .write => true
  | .step label => writer.own label

/-- A bound for the steps that the writer still has to make in its call. -/
def left (state : TryState σ α) : ℕ :=
  match state.pc with
  | .outside => 0
  | .checked _ _ => writer.steps
  | .inside _ _ _ =>
      match writer.stage state.system with
      | .unput left | .put left => left
      | .outside | .waiting => 0

/-- What is expected of the calls: none of them blocks, each goes on to write
exactly if the stream was not full at its check, and none stands still. -/
structure TryOk (state : TryState σ α) : Prop where
  results : ∀ result ∈ state.results, result.Correct
  checked : ∀ full item, state.pc = .checked full item → full = false
  inside : ∀ full item before, state.pc = .inside full item before →
    full = false ∧ writer.stage state.system ≠ .waiting
  moves : state.pc ≠ .outside → writer.Attached state.system →
    ∃ label after, writer.ownLabel label = true ∧
      writer.tryMachine.next state label = some after ∧
      writer.left after < writer.left state

/-- The condition on a step: the check finds no space in a full stream, and a
call does not take the step from which it blocks. -/
def Meets (state : TryState σ α) : TryLabel ℓ α → Prop
  | .tryWrite _ => writer.isSpace state.system = true →
      writer.full state.system = false
  | .write => ∀ full item, state.pc = .checked full item →
      ¬writer.Blocks state.system (writer.write item)
  | .step label => state.pc ≠ .outside → ¬writer.Blocks state.system label

/-- What a back end provides.  `inv` is an invariant of the stream and `still`
what the writer knows after its check. -/
structure Laws (inv still : σ → Prop) : Prop where
  steps_pos : 0 < writer.steps
  kept : ∀ {before after label}, inv before →
    writer.machine.next before label = some after → inv after
  refuses : ∀ {system}, inv system → writer.isSpace system = false →
    writer.full system = true
  still_of_isSpace : ∀ {system}, inv system → writer.isSpace system = true →
    still system
  own_of_blocks : ∀ {system label}, writer.Blocks system label →
    writer.own label = true
  /-- The other steps leave the writer where it is. -/
  others : ∀ {before after label}, inv before →
    writer.machine.next before label = some after → writer.own label = false →
    writer.stage after = writer.stage before ∧
      writer.written after = writer.written before ∧
      writer.pending after = writer.pending before ∧
      writer.mayWrite after = writer.mayWrite before ∧
      (still before → still after)
  write : ∀ {before after item}, inv before →
    writer.mayWrite before item = true → still before →
    writer.machine.next before (writer.write item) = some after →
    (writer.Blocks before (writer.write item) ∧
        writer.stage after = .waiting) ∨
      (¬writer.Blocks before (writer.write item) ∧
        writer.pending after = some item ∧
        writer.written after = writer.written before ∧
        ∃ left < writer.steps, writer.stage after = .unput left)
  unput : ∀ {before after label left}, inv before →
    writer.stage before = .unput left → writer.own label = true →
    writer.machine.next before label = some after →
    (0 < left ∧ writer.Blocks before label ∧
        writer.stage after = .waiting) ∨
      (¬writer.Blocks before label ∧
        writer.pending after = writer.pending before ∧
        writer.written after = writer.written before ∧
        ∃ left' < left, writer.stage after = .unput left') ∨
      (¬writer.Blocks before label ∧
        (∀ item, writer.pending before = some item →
          writer.written after = writer.written before ++ [item]) ∧
        ∃ left' < left, writer.stage after = .put left')
  put : ∀ {before after label left}, inv before →
    writer.stage before = .put left → writer.own label = true →
    writer.machine.next before label = some after →
    ¬writer.Blocks before label ∧
      writer.written after = writer.written before ∧
      ((0 < left ∧ writer.stage after = .outside) ∨
        ∃ left' < left, writer.stage after = .put left')
  canWrite : ∀ {system item}, writer.mayWrite system item = true →
    writer.Attached system →
    ∃ after, writer.machine.next system (writer.write item) = some after
  canMove : ∀ {system}, inv system → writer.stage system ≠ .outside →
    writer.stage system ≠ .waiting → writer.Attached system →
    ∃ label after, writer.own label = true ∧
      writer.machine.next system label = some after

/-- The invariant of the runs whose steps meet the condition. -/
structure Trying (inv still : σ → Prop) (state : TryState σ α) : Prop where
  base : inv state.system
  results : ∀ result ∈ state.results, result.Correct
  checked : ∀ full item, state.pc = .checked full item → full = false ∧
    writer.mayWrite state.system item = true ∧ still state.system
  inside : ∀ full item before, state.pc = .inside full item before →
    full = false ∧
      ((writer.pending state.system = some item ∧
          writer.written state.system = before ∧
          ∃ left, writer.stage state.system = .unput left) ∨
        (writer.written state.system = before ++ [item] ∧
          ∃ left, writer.stage state.system = .put left))

variable {writer} {inv still : σ → Prop} {state after : TryState σ α}

section Steps

variable {system : σ} {label : ℓ} {full : Bool} {item : α} {before : List α}

theorem tryCall_checked
    (position : state.pc = .checked full item)
    (taken : writer.machine.next state.system (writer.write item) =
      some system) :
    writer.tryCall state = some
      { state with
        system := system
        pc := .inside full item (writer.written state.system) } := by
  simp [tryCall, position, taken]

theorem tryStep_inside
    (position : state.pc = .inside full item before)
    (taken : writer.machine.next state.system label = some system) :
    writer.tryStep state label = some
      (if writer.stage system = .outside then
        { system := system
          pc := .outside
          results :=
            .wrote full item before (writer.written system) ::
              state.results }
      else
        { state with system := system }) := by
  simp [tryStep, position, taken]

/-- The call of `LpelStreamWrite`. -/
theorem tryCall_cases
    (taken : writer.tryCall state = some after) :
    ∃ full item system, state.pc = .checked full item ∧
      writer.machine.next state.system (writer.write item) = some system ∧
      after =
        { state with
          system := system
          pc := .inside full item (writer.written state.system) } := by
  unfold tryCall at taken
  split at taken
  case h_1 full item position =>
    obtain ⟨system, moved, rfl⟩ := Option.map_eq_some_iff.mp taken
    exact ⟨full, item, system, position, moved, rfl⟩
  case h_2 => exact absurd taken (by simp)

/-- A step of the other tasks before that call. -/
theorem tryStep_checked
    (position : state.pc = .checked full item)
    (taken : writer.tryStep state label = some after) :
    writer.own label = false ∧ ∃ system,
      writer.machine.next state.system label = some system ∧
      after = { state with system := system } := by
  simp only [tryStep, position] at taken
  cases own : writer.own label with
  | true => simp [own] at taken
  | false =>
      simp only [own, Bool.false_eq_true, if_false] at taken
      obtain ⟨system, moved, rfl⟩ := Option.map_eq_some_iff.mp taken
      exact ⟨rfl, system, moved, by rw [position]⟩

end Steps

namespace Trying

/-- The writer is in no call. -/
theorem ofOutside
    (base : inv state.system)
    (results : ∀ result ∈ state.results, result.Correct)
    (outside : state.pc = .outside) :
    writer.Trying inv still state where
  base := base
  results := results
  checked := fun full item position => by
    rw [outside] at position
    cases position
  inside := fun full item before position => by
    rw [outside] at position
    cases position

/-- The writer is in `LpelStreamWrite`. -/
theorem ofInside
    {item : α}
    {before : List α}
    (base : inv state.system)
    (results : ∀ result ∈ state.results, result.Correct)
    (inside : state.pc = .inside false item before)
    (stage : (writer.pending state.system = some item ∧
        writer.written state.system = before ∧
        ∃ left, writer.stage state.system = .unput left) ∨
      (writer.written state.system = before ++ [item] ∧
        ∃ left, writer.stage state.system = .put left)) :
    writer.Trying inv still state where
  base := base
  results := results
  checked := fun full item position => by
    rw [inside] at position
    cases position
  inside := fun full item before position => by
    rw [inside] at position
    cases position
    exact ⟨rfl, stage⟩

/-- A writer in a call can go on. -/
theorem moves
    (trying : writer.Trying inv still state)
    (laws : writer.Laws inv still)
    (calling : state.pc ≠ .outside)
    (attached : writer.Attached state.system) :
    ∃ label after, writer.ownLabel label = true ∧
      writer.tryMachine.next state label = some after ∧
      writer.left after < writer.left state := by
  cases position : state.pc with
  | outside => exact absurd position calling
  | checked full item =>
      obtain ⟨-, mayWrite, known⟩ := trying.checked full item position
      obtain ⟨system, taken⟩ := laws.canWrite mayWrite attached
      refine ⟨.write, _, rfl, tryCall_checked position taken, ?_⟩
      rcases laws.write trying.base mayWrite known taken with
        ⟨-, stage⟩ | ⟨-, -, -, left, less, stage⟩
      · simpa [Writer.left, position, stage] using laws.steps_pos
      · simpa [Writer.left, position, stage] using less
  | inside full item before =>
      obtain ⟨-, ⟨-, -, left, stage⟩ | ⟨-, left, stage⟩⟩ :=
        trying.inside full item before position
      · obtain ⟨label, system, own, taken⟩ := laws.canMove trying.base
          (by simp [stage]) (by simp [stage]) attached
        refine ⟨.step label, _, own, tryStep_inside position taken, ?_⟩
        rcases laws.unput trying.base stage own taken with
          ⟨positive, -, stage'⟩ | ⟨-, -, -, left', less, stage'⟩ |
          ⟨-, -, left', less, stage'⟩
        · simpa [Writer.left, position, stage, stage'] using positive
        · simpa [Writer.left, position, stage, stage'] using less
        · simpa [Writer.left, position, stage, stage'] using less
      · obtain ⟨label, system, own, taken⟩ := laws.canMove trying.base
          (by simp [stage]) (by simp [stage]) attached
        refine ⟨.step label, _, own, tryStep_inside position taken, ?_⟩
        obtain ⟨-, -, ⟨positive, stage'⟩ | ⟨left', less, stage'⟩⟩ :=
          laws.put trying.base stage own taken
        · simpa [Writer.left, position, stage, stage'] using positive
        · simpa [Writer.left, position, stage, stage'] using less

theorem tryOk
    (trying : writer.Trying inv still state)
    (laws : writer.Laws inv still) :
    writer.TryOk state where
  results := trying.results
  checked := fun full item position => (trying.checked full item position).1
  inside := fun full item before position => by
    obtain ⟨notFull, stages⟩ := trying.inside full item before position
    refine ⟨notFull, ?_⟩
    rcases stages with ⟨-, -, left, stage⟩ | ⟨-, left, stage⟩ <;>
      simp [stage]
  moves := trying.moves laws

/-- The check, in a state that meets the condition. -/
theorem lpelStreamTryWrite
    (trying : writer.Trying inv still state)
    (laws : writer.Laws inv still)
    {item : α}
    (taken : writer.lpelStreamTryWrite state item = some after)
    (meets : writer.Meets state (.tryWrite item)) :
    writer.Trying inv still after := by
  unfold Writer.lpelStreamTryWrite at taken
  split at taken
  case h_2 => exact absurd taken (by simp)
  case h_1 outside =>
    split at taken
    case isFalse => exact absurd taken (by simp)
    case isTrue mayWrite =>
      split at taken
      case isTrue space =>
        cases taken
        refine ⟨trying.base, trying.results, ?_, ?_⟩
        · intro full item position
          cases position
          exact ⟨meets space, mayWrite,
            laws.still_of_isSpace trying.base space⟩
        · intro full item before position
          cases position
      case isFalse noSpace =>
        cases taken
        refine ofOutside trying.base ?_ outside
        intro result member
        rcases List.mem_cons.mp member with rfl | earlier
        · exact laws.refuses trying.base (Bool.eq_false_iff.mpr noSpace)
        · exact trying.results result earlier

/-- The call of `LpelStreamWrite`, in a state that meets the condition. -/
theorem tryCall
    (trying : writer.Trying inv still state)
    (laws : writer.Laws inv still)
    (taken : writer.tryCall state = some after)
    (meets : writer.Meets state .write) :
    writer.Trying inv still after := by
  obtain ⟨full, item, system, position, moved, rfl⟩ := tryCall_cases taken
  obtain ⟨rfl, mayWrite, known⟩ := trying.checked full item position
  rcases laws.write trying.base mayWrite known moved with
    ⟨blocking, -⟩ | ⟨-, pending, written, left, -, stage⟩
  · exact absurd blocking (meets false item position)
  · exact ofInside (laws.kept trying.base moved) trying.results rfl
      (.inl ⟨pending, written, left, stage⟩)

/-- A step of the stream that meets the condition. -/
theorem tryStep
    (trying : writer.Trying inv still state)
    (laws : writer.Laws inv still)
    {label : ℓ}
    (taken : writer.tryStep state label = some after)
    (meets : writer.Meets state (.step label)) :
    writer.Trying inv still after := by
  cases position : state.pc with
  | outside =>
      simp only [Writer.tryStep, position] at taken
      obtain ⟨system, moved, rfl⟩ := Option.map_eq_some_iff.mp taken
      exact ofOutside (laws.kept trying.base moved) trying.results rfl
  | checked full item =>
      obtain ⟨rfl, mayWrite, known⟩ := trying.checked full item position
      obtain ⟨other, system, moved, rfl⟩ := tryStep_checked position taken
      obtain ⟨-, -, -, mayWrite', known'⟩ := laws.others trying.base moved
        other
      refine ⟨laws.kept trying.base moved, trying.results, ?_, ?_⟩
      · intro full item' same
        rw [position] at same
        cases same
        rw [mayWrite']
        exact ⟨rfl, mayWrite, known' known⟩
      · intro full item before same
        rw [position] at same
        cases same
  | inside full item before =>
      have notBlocking := meets (by simp [position])
      obtain ⟨rfl, stages⟩ := trying.inside full item before position
      have moved : ∃ system,
          writer.machine.next state.system label = some system := by
        simp only [Writer.tryStep, position] at taken
        obtain ⟨system, moved, -⟩ := Option.map_eq_some_iff.mp taken
        exact ⟨system, moved⟩
      obtain ⟨system, moved⟩ := moved
      have base := laws.kept trying.base moved
      rw [tryStep_inside position moved] at taken
      obtain rfl := Option.some.inj taken
      -- still in the call, or the call has appended its item and returns
      have goesOn : ((writer.pending system = some item ∧
            writer.written system = before ∧
            ∃ left, writer.stage system = .unput left) ∨
          (writer.written system = before ++ [item] ∧
            ∃ left, writer.stage system = .put left)) ∨
          (writer.written system = before ++ [item] ∧
            writer.stage system = .outside) := by
        cases own : writer.own label with
        | false =>
            obtain ⟨stage, written, pending, -⟩ := laws.others trying.base moved
              own
            rw [stage, written, pending]
            exact .inl stages
        | true =>
            rcases stages with ⟨pending, written, left, stage⟩ |
              ⟨written, left, stage⟩
            · rcases laws.unput trying.base stage own moved with
                ⟨-, blocking, -⟩ | ⟨-, pending', written', left', -, stage'⟩ |
                ⟨-, written', left', -, stage'⟩
              · exact absurd blocking notBlocking
              · exact .inl (.inl ⟨pending'.trans pending,
                  written'.trans written, left', stage'⟩)
              · refine .inl (.inr ⟨?_, left', stage'⟩)
                rw [written' item pending, written]
            · obtain ⟨-, written', ⟨-, stage'⟩ | ⟨left', -, stage'⟩⟩ :=
                laws.put trying.base stage own moved
              · exact .inr ⟨written'.trans written, stage'⟩
              · exact .inl (.inr ⟨written'.trans written, left', stage'⟩)
      rcases goesOn with stages' | ⟨written, outside⟩
      · have inCall : writer.stage system ≠ .outside := by
          rcases stages' with ⟨-, -, left, stage⟩ | ⟨-, left, stage⟩ <;>
            simp [stage]
        rw [if_neg inCall]
        exact ofInside base trying.results position stages'
      · rw [if_pos outside]
        refine ofOutside base ?_ rfl
        intro result member
        rcases List.mem_cons.mp member with rfl | earlier
        · exact ⟨rfl, written⟩
        · exact trying.results result earlier

/-- A check that does not meet the condition goes on with a full stream. -/
theorem meets_tryWrite
    {item : α}
    (taken : writer.lpelStreamTryWrite state item = some after)
    (ok : writer.TryOk after) :
    writer.Meets state (.tryWrite item) := by
  intro space
  unfold Writer.lpelStreamTryWrite at taken
  split at taken
  case h_2 => exact absurd taken (by simp)
  case h_1 outside =>
    split at taken
    case isFalse => exact absurd taken (by simp)
    case isTrue mayWrite =>
      cases taken
      exact ok.checked _ item rfl

/-- A call that does not meet the condition commits the writer to block. -/
theorem meets_write
    (trying : writer.Trying inv still state)
    (laws : writer.Laws inv still)
    (taken : writer.tryCall state = some after)
    (ok : writer.TryOk after) :
    writer.Meets state .write := by
  intro full item position blocking
  obtain ⟨full', item', system, position', moved, rfl⟩ := tryCall_cases taken
  rw [position] at position'
  cases position'
  obtain ⟨-, mayWrite, known⟩ := trying.checked full item position
  rcases laws.write trying.base mayWrite known moved with
    ⟨-, stage⟩ | ⟨notBlocking, -⟩
  · exact (ok.inside _ _ _ rfl).2 stage
  · exact notBlocking blocking

/-- The same for the later steps. -/
theorem meets_step
    (trying : writer.Trying inv still state)
    (laws : writer.Laws inv still)
    {label : ℓ}
    (taken : writer.tryStep state label = some after)
    (ok : writer.TryOk after) :
    writer.Meets state (.step label) := by
  intro calling blocking
  have own := laws.own_of_blocks blocking
  cases position : state.pc with
  | outside => exact calling position
  | checked full item =>
      obtain ⟨other, -⟩ := tryStep_checked position taken
      rw [own] at other
      cases other
  | inside full item before =>
      obtain ⟨rfl, stages⟩ := trying.inside full item before position
      simp only [Writer.tryStep, position] at taken
      obtain ⟨system, moved, rfl⟩ := Option.map_eq_some_iff.mp taken
      rcases stages with ⟨-, -, left, stage⟩ | ⟨-, left, stage⟩
      · rcases laws.unput trying.base stage own moved with
          ⟨-, -, stage'⟩ | ⟨notBlocking, -⟩ | ⟨notBlocking, -⟩
        · have inCall : writer.stage system ≠ .outside := by simp [stage']
          rw [if_neg inCall] at ok
          exact (ok.inside _ _ _ rfl).2 stage'
        · exact notBlocking blocking
        · exact notBlocking blocking
      · exact (laws.put trying.base stage own moved).1 blocking

end Trying

/-- Along a run the calls of `LpelStreamTryWrite` are as expected exactly if all
of its steps meet the condition. -/
theorem tryOk_iff_meets
    (laws : writer.Laws inv still)
    {start : σ}
    (held : inv start)
    (labels : List (TryLabel ℓ α)) :
    writer.tryMachine.HoldsAlong writer.TryOk (.start start) labels ↔
      writer.tryMachine.StepsMeet writer.Meets (.start start) labels := by
  apply Machine.holdsAlong_iff_stepsMeet (writer.Trying inv still)
  · exact fun _ trying => trying.tryOk laws
  · intro state label after trying taken meets
    cases label with
    | tryWrite item => exact trying.lpelStreamTryWrite laws taken meets
    | write => exact trying.tryCall laws taken meets
    | step label => exact trying.tryStep laws taken meets
  · intro state label after trying taken ok
    cases label with
    | tryWrite item => exact Trying.meets_tryWrite taken ok
    | write => exact trying.meets_write laws taken ok
    | step label => exact trying.meets_step laws taken ok
  · exact Trying.ofOutside held (by simp [TryState.start]) rfl

end Writer

end Lpel
