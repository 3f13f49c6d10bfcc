import Lpel.Stream.TryWrite
import Lpel.Decen.Stream
import Lpel.Hrc.EntryStream

/-!
# `LpelStreamTryWrite` in the two back ends

In the decentralised back end the check looks at the buffer and the write at
`e_sem`.  The reader empties a cell before it does its V operation, so for a
moment there is space in the buffer and `e_sem` is 0.

In the hierarchical back end the check always finds space, also in an entry
stream that holds as many items as its size.  There `e_sem` is 0 as well when the
reader is between its pop and its V operation, and items that were written or read
while the stream was of another type shift the account.
-/

namespace Lpel

namespace Decen

open StreamSystem

variable {ι α : Type} [DecidableEq ι]

/-- The reader is between the pop and the V operation on the stream, which lacks
only the item that was popped. -/
def InWindow
    {size : ι → StreamSize}
    {script : ι → List α}
    (state : State (streams size script))
    (i : ι) : Prop :=
  state.cons = .readV i ∧ (state.unread i).length + 1 = (size i).val

/-- The producer of a stream. -/
def writer
    [DecidableEq α]
    (size : ι → StreamSize)
    (script : ι → List α)
    (i : ι) :
    Writer (State (streams size script)) (Label ι) α where
  machine := machine (streams size script)
  isSpace := fun state => lpelBufferIsSpace (state.stream i).buffer
  full := fun state => decide ((size i).val ≤ (state.unread i).length)
  mayWrite := fun state item => decide (state.prod i = .idle ∧
    (script i)[(state.written i).length]? = some item)
  stage := fun state =>
    match state.prod i with
    | .idle | .closed => .outside
    | .toBlock | .blocked => .waiting
    | .put => .unput 4
    | .vN _ => .put 3
    | .lookup | .lookupPoll => .put 2
    | .unblock _ => .put 1
  written := fun state => state.written i
  pending := fun state => (script i)[(state.written i).length]?
  write := fun _ => .write i
  own := fun label =>
    match label with
    | .write j | .prod j | .resumeProd j | .closeOut j => decide (j = i)
    | _ => false
  Blocks := fun state label => label = .write i ∧ InWindow state i
  Attached := fun _ => True
  steps := 5

section Laws

variable {size : ι → StreamSize} {script : ι → List α} {i : ι}
variable {state after : State (streams size script)}

/-- A step that is not one of the producer. -/
structure Aside (state after : State (streams size script)) (i : ι) :
    Prop where
  prod : after.prod i = state.prod i
  written : after.written i = state.written i
  popped : (state.popped i).length ≤ (after.popped i).length

omit [DecidableEq ι] in
theorem Aside.ofSame
    (prod : after.prod = state.prod)
    (written : after.written = state.written)
    (popped : after.popped = state.popped) :
    Aside state after i :=
  ⟨congrFun prod i, congrFun written i, by rw [popped]⟩

omit [DecidableEq ι] in
/-- The reader only takes items away. -/
theorem Aside.unread_le
    (aside : Aside state after i) :
    (after.unread i).length ≤ (state.unread i).length := by
  have popped := aside.popped
  simp only [State.unread, List.length_drop, aside.written]
  omega

/-- The steps of the consumer. -/
theorem aside_consStep
    (taken : consStep state = some after) :
    Aside state after i := by
  cases position : state.cons with
  | idle | readBlocked | pollBlocked | polled =>
      simp [consStep, position] at taken
  | readToBlock | readLookup | readUnblock | pollStore | pollAssert =>
      simp only [consStep, position, Option.some.injEq] at taken
      subst taken
      exact .ofSame rfl rfl rfl
  | readTop j =>
      simp only [consStep, position, topAndPop, Option.map_eq_some_iff] at taken
      obtain ⟨item, -, rfl⟩ := taken
      refine ⟨rfl, rfl, ?_⟩
      by_cases same : i = j
      · subst same
        simp
      · simp [same]
  | readV j =>
      simp only [consStep, position, releaseSpace, Option.some.injEq] at taken
      subst taken
      split <;> exact .ofSame rfl rfl rfl
  | pollFast iter =>
      simp only [consStep, position, pollFastStep] at taken
      split at taken
      case isTrue =>
        obtain ⟨sd, -, rfl⟩ := Option.map_eq_some_iff.mp taken
        split <;> exact .ofSame rfl rfl rfl
      case isFalse =>
        cases taken
        exact .ofSame rfl rfl rfl
  | pollRegister iter cnt =>
      simp only [consStep, position, pollRegisterStep] at taken
      split at taken
      case isTrue =>
        obtain ⟨sd, -, rfl⟩ := Option.map_eq_some_iff.mp taken
        split
        · split <;> exact .ofSame rfl rfl rfl
        · exact .ofSame rfl rfl rfl
      case isFalse =>
        cases taken
        exact .ofSame rfl rfl rfl
  | pollSwitch doCtxSwitch cnt =>
      cases doCtxSwitch <;>
        simp only [consStep, position, Option.some.injEq] at taken <;>
        subst taken <;> exact .ofSame rfl rfl rfl
  | pollUnregister iter cnt =>
      simp only [consStep, position, pollUnregisterStep] at taken
      split at taken
      case isTrue =>
        obtain ⟨sd, -, rfl⟩ := Option.map_eq_some_iff.mp taken
        exact .ofSame rfl rfl rfl
      case isFalse =>
        cases taken
        exact .ofSame rfl rfl rfl
  | pollReturn =>
      simp only [consStep, position, Option.map_eq_some_iff] at taken
      obtain ⟨sd, -, rfl⟩ := taken
      exact .ofSame rfl rfl rfl

/-- The steps of another producer. -/
theorem aside_prodStep
    {j : ι}
    (other : i ≠ j)
    (taken : prodStep state j = some after) :
    Aside state after i := by
  cases position : state.prod j with
  | idle | blocked | closed => simp [prodStep, position] at taken
  | toBlock | lookup | lookupPoll =>
      simp only [prodStep, position, Option.some.injEq] at taken
      subst taken
      exact ⟨by simp [other], rfl, le_rfl⟩
  | unblock pollWakeup =>
      cases pollWakeup <;>
        simp only [prodStep, position, Option.some.injEq] at taken <;>
        subst taken <;> exact ⟨by simp [other], rfl, le_rfl⟩
  | put =>
      simp only [prodStep, position, Option.map_eq_some_iff] at taken
      obtain ⟨item, -, rfl⟩ := taken
      exact ⟨by simp [putUnderLock, other], by simp [putUnderLock, other],
        le_rfl⟩
  | vN pollWakeup =>
      simp only [prodStep, position, Option.some.injEq] at taken
      subst taken
      exact ⟨by simp [releaseItem, other], rfl, le_rfl⟩

/-- Only the V operation of a read is outstanding between a pop and a
return. -/
theorem unreleased_eq_one_iff (pc : ConsPc ι) :
    (pc.role i).unreleased = 1 ↔ pc = .readV i := by
  cases pc with
  | readV j =>
      by_cases same : j = i <;> simp [ConsPc.role, Role.unreleased, same]
  | readToBlock j | readBlocked j | readTop j | readLookup j | readUnblock j =>
      by_cases same : j = i <;> simp [ConsPc.role, Role.unreleased, same]
  | _ => simp [ConsPc.role, Role.unreleased]

/-- A producer that is about to write to a stream with space finds `e_sem` at 0
exactly while the reader is between its pop and its V operation. -/
theorem eSem_eq_zero_iff
    (invariant : Invariant state)
    (idle : state.prod i = .idle)
    (room : (state.unread i).length < (size i).val) :
    (state.stream i).eSem = 0 ↔ InWindow state i := by
  have count := (invariant.streams i).eCount rfl
  have unreleased := unreleased_eq_one_iff (i := i) state.cons
  have unreleased_le : (state.cons.role i).unreleased = 0 ∨
      (state.cons.role i).unreleased = 1 := by
    cases state.cons.role i <;> simp [Role.unreleased]
  simp only [State.view, idle, ProdPc.reserved] at count
  change (state.stream i).eSem = ((size i).val : ℤ) - _ - _ - _ at count
  rw [InWindow, ← unreleased]
  omega

/-- `LpelStreamWrite` finds the producer in a call. -/
theorem write_cases
    (invariant : Invariant state)
    (room : (state.unread i).length < (size i).val)
    (taken : lpelStreamWrite state i = some after) :
    after.written = state.written ∧
      ((InWindow state i ∧ after.prod i = .toBlock) ∨
        (¬InWindow state i ∧ after.prod i = .put)) := by
  simp only [lpelStreamWrite, Option.ite_none_right_eq_some] at taken
  obtain ⟨⟨idle, -⟩, taken⟩ := taken
  have window := eSem_eq_zero_iff invariant idle room
  change (if true = true then _ else _) = some after at taken
  rw [if_pos rfl] at taken
  split at taken
  case isTrue none =>
    cases taken
    exact ⟨rfl, .inl ⟨window.mp none, by simp⟩⟩
  case isFalse some =>
    cases taken
    exact ⟨rfl, .inr ⟨fun inside => some (window.mpr inside), by simp⟩⟩

/-- There is space in the buffer as long as the stream is not full. -/
theorem isSpace_iff
    (invariant : Invariant state) :
    lpelBufferIsSpace (state.stream i).buffer = true ↔
      (state.unread i).length < (size i).val :=
  Buffer.Holds.isSpace_iff (invariant.streams i).holds

/-- The later steps of a producer that does not wait. -/
theorem prodStep_cases
    (taken : prodStep state i = some after) :
    (state.prod i = .toBlock ∧ after.prod i = .blocked) ∨
    (state.prod i = .put ∧ (∃ item, (script i)[(state.written i).length]? =
        some item ∧ after.written i = state.written i ++ [item]) ∧
      ∃ pollWakeup, after.prod i = .vN pollWakeup) ∨
    (after.written i = state.written i ∧
      ((∃ pollWakeup, state.prod i = .vN pollWakeup) ∧
          (after.prod i = .lookup ∨ after.prod i = .lookupPoll ∨
            after.prod i = .idle) ∨
        (state.prod i = .lookup ∨ state.prod i = .lookupPoll) ∧
          (∃ pollWakeup, after.prod i = .unblock pollWakeup) ∨
        (∃ pollWakeup, state.prod i = .unblock pollWakeup) ∧
          after.prod i = .idle)) := by
  cases position : state.prod i with
  | idle | blocked | closed => simp [prodStep, position] at taken
  | toBlock =>
      simp only [prodStep, position, Option.some.injEq] at taken
      subst taken
      simp
  | put =>
      simp only [prodStep, position, Option.map_eq_some_iff] at taken
      obtain ⟨item, next, rfl⟩ := taken
      refine .inr (.inl ⟨rfl, ⟨item, next, ?_⟩,
        (state.stream i).isPoll && state.pollToken, ?_⟩)
      · simp [putUnderLock]
      · simp [putUnderLock]
  | vN pollWakeup =>
      simp only [prodStep, position, Option.some.injEq] at taken
      subst taken
      refine .inr (.inr ⟨rfl, .inl ⟨⟨pollWakeup, rfl⟩, ?_⟩⟩)
      simp only [releaseItem, Function.update_self]
      split
      · exact .inl rfl
      · split
        · exact .inr (.inl rfl)
        · exact .inr (.inr rfl)
  | lookup | lookupPoll =>
      simp only [prodStep, position, Option.some.injEq] at taken
      subst taken
      simp
  | unblock pollWakeup =>
      cases pollWakeup <;>
        simp only [prodStep, position, Option.some.injEq] at taken <;>
        subst taken <;> simp

/-- A producer with an item left can call `LpelStreamWrite`. -/
theorem exists_write
    (idle : state.prod i = .idle)
    (more : (state.written i).length < (script i).length) :
    ∃ after, lpelStreamWrite state i = some after := by
  have enabled : state.prod i = .idle ∧
      (state.written i).length < ((streams size script).script i).length :=
    ⟨idle, more⟩
  simp only [lpelStreamWrite, if_pos enabled]
  split
  · split <;> exact ⟨_, rfl⟩
  · exact ⟨_, rfl⟩

variable [DecidableEq α]

/-- Every step that is not one of the producer. -/
theorem aside_next
    {label : Label ι}
    (other : (writer size script i).own label = false)
    (taken : next state label = some after) :
    Aside state after i := by
  cases label with
  | write j =>
      have different : i ≠ j := Ne.symm (of_decide_eq_false other)
      simp only [next, lpelStreamWrite] at taken
      split at taken
      case isFalse => exact absurd taken (by simp)
      case isTrue =>
        split at taken
        · split at taken <;> cases taken <;>
            exact ⟨by simp [different], rfl, le_rfl⟩
        · cases taken
          exact ⟨by simp [different], rfl, le_rfl⟩
  | prod j => exact aside_prodStep (Ne.symm (of_decide_eq_false other)) taken
  | resumeProd j =>
      have different : i ≠ j := Ne.symm (of_decide_eq_false other)
      simp only [next, resumeProd, Option.ite_none_right_eq_some,
        Option.some.injEq] at taken
      obtain ⟨-, rfl⟩ := taken
      exact ⟨by simp [different], rfl, le_rfl⟩
  | closeOut j =>
      have different : i ≠ j := Ne.symm (of_decide_eq_false other)
      simp only [next, closeOut, Option.ite_none_right_eq_some,
        Option.some.injEq] at taken
      obtain ⟨-, rfl⟩ := taken
      exact ⟨by simp [different], rfl, le_rfl⟩
  | read j =>
      simp only [next, lpelStreamRead, Option.ite_none_right_eq_some] at taken
      obtain ⟨-, taken⟩ := taken
      split at taken <;> cases taken <;> exact .ofSame rfl rfl rfl
  | buildSet elems | poll =>
      simp only [next, lpelStreamPoll, Option.ite_none_right_eq_some,
        Option.some.injEq] at taken
      obtain ⟨-, rfl⟩ := taken
      exact .ofSame rfl rfl rfl
  | cons => exact aside_consStep taken
  | resumeCons =>
      simp only [next, resumeCons, Option.ite_none_right_eq_some] at taken
      obtain ⟨-, taken⟩ := taken
      split at taken
      case h_3 => exact absurd taken (by simp)
      all_goals
        cases taken
        exact .ofSame rfl rfl rfl
  | proceed =>
      simp only [next] at taken
      split at taken
      case h_1 =>
        cases taken
        exact .ofSame rfl rfl rfl
      case h_2 => exact absurd taken (by simp)
  | closeIn j =>
      simp only [next, closeIn, Option.ite_none_right_eq_some,
        Option.some.injEq] at taken
      obtain ⟨-, rfl⟩ := taken
      exact .ofSame rfl rfl rfl

/-- A producer in a call goes on by its next step. -/
theorem prodStep_of_own
    {label : Label ι}
    (notIdle : state.prod i ≠ .idle)
    (notBlocked : state.prod i ≠ .blocked)
    (own : (writer size script i).own label = true)
    (taken : next state label = some after) :
    label = .prod i ∧ prodStep state i = some after := by
  cases label with
  | prod j =>
      obtain rfl : j = i := of_decide_eq_true own
      exact ⟨rfl, taken⟩
  | write j =>
      obtain rfl : j = i := of_decide_eq_true own
      simp [next, lpelStreamWrite, notIdle] at taken
  | resumeProd j =>
      obtain rfl : j = i := of_decide_eq_true own
      simp [next, resumeProd, notBlocked] at taken
  | closeOut j =>
      obtain rfl : j = i := of_decide_eq_true own
      simp [next, closeOut, notIdle] at taken
  | _ => cases own

/-- The positions before and after the put. -/
theorem stage_eq_unput
    {left : ℕ}
    (stage : (writer size script i).stage state = .unput left) :
    left = 4 ∧ state.prod i = .put := by
  simp only [writer] at stage
  split at stage <;> cases stage
  rename_i position
  exact ⟨rfl, position⟩

theorem stage_eq_put
    {left : ℕ}
    (stage : (writer size script i).stage state = .put left) :
    (left = 3 ∧ ∃ pollWakeup, state.prod i = .vN pollWakeup) ∨
      (left = 2 ∧ (state.prod i = .lookup ∨ state.prod i = .lookupPoll)) ∨
      (left = 1 ∧ ∃ pollWakeup, state.prod i = .unblock pollWakeup) := by
  cases position : state.prod i <;> simp_all [writer]

/-- A producer in a call that does not wait can go on. -/
theorem exists_prodStep
    (invariant : Invariant state)
    (notOutside : (writer size script i).stage state ≠ .outside)
    (notWaiting : (writer size script i).stage state ≠ .waiting) :
    ∃ after, prodStep state i = some after := by
  cases position : state.prod i with
  | idle | closed => exact absurd (by simp [writer, position]) notOutside
  | toBlock | blocked => exact absurd (by simp [writer, position]) notWaiting
  | put =>
      have more : (state.written i).length <
          ((streams size script).script i).length :=
        (invariant.streams i).pending
          (by simp [State.view, position, ProdPc.reserved])
      simp only [prodStep, position]
      rw [List.getElem?_eq_getElem more]
      exact ⟨_, rfl⟩
  | unblock pollWakeup => cases pollWakeup <;> simp [prodStep, position]
  | _ => simp [prodStep, position]

/-- The producer keeps to the protocol of its calls. -/
theorem writer_laws (size : ι → StreamSize) (script : ι → List α) (i : ι) :
    (writer size script i).Laws Invariant
      fun state => (state.unread i).length < (size i).val where
  steps_pos := by simp [writer]
  kept := fun invariant taken => invariant.step taken
  refuses := by
    intro state invariant noSpace
    refine decide_eq_true ?_
    by_contra room
    have space := (isSpace_iff (i := i) invariant).mpr (by omega)
    exact absurd (space.symm.trans noSpace) (by simp)
  still_of_isSpace := fun invariant space => (isSpace_iff invariant).mp space
  own_of_blocks := by
    rintro state label ⟨rfl, -⟩
    simp [writer]
  others := by
    intro before after label invariant taken other
    have aside := aside_next other taken
    refine ⟨?_, aside.written, ?_, ?_, aside.unread_le.trans_lt⟩
    · simp only [writer, aside.prod]
    · simp only [writer, aside.written]
    · simp only [writer, aside.prod, aside.written]
  write := by
    intro before after item invariant mayWrite room taken
    obtain ⟨-, next⟩ := of_decide_eq_true mayWrite
    obtain ⟨written, ⟨inside, position⟩ | ⟨outside, position⟩⟩ :=
      write_cases invariant room taken
    · left
      exact ⟨⟨rfl, inside⟩, by simp [writer, position]⟩
    · right
      refine ⟨fun blocks => outside blocks.2, ?_, congrFun written i, 4,
        by simp [writer], by simp [writer, position]⟩
      simpa [writer, written] using next
  unput := by
    intro before after label left invariant stage own taken
    obtain ⟨rfl, position⟩ := stage_eq_unput stage
    obtain ⟨rfl, taken⟩ := prodStep_of_own (by simp [position])
      (by simp [position]) own taken
    right
    right
    refine ⟨fun blocks => absurd blocks.1 (by simp), ?_⟩
    rcases prodStep_cases taken with ⟨waits, -⟩ |
      ⟨-, ⟨item, next, written⟩, pollWakeup, position'⟩ | ⟨-, later⟩
    · rw [position] at waits
      cases waits
    · refine ⟨?_, 3, by omega, by simp [writer, position']⟩
      intro item' pending
      obtain rfl := Option.some.inj (next.symm.trans pending)
      exact written
    · simp [position] at later
  put := by
    intro before after label left invariant stage own taken
    have positions := stage_eq_put stage
    have notIdle : before.prod i ≠ .idle := by
      intro idle
      simp [idle] at positions
    have notBlocked : before.prod i ≠ .blocked := by
      intro blocked
      simp [blocked] at positions
    obtain ⟨rfl, taken⟩ := prodStep_of_own notIdle notBlocked own taken
    refine ⟨fun blocks => absurd blocks.1 (by simp), ?_⟩
    rcases prodStep_cases taken with ⟨waits, -⟩ | ⟨puts, -⟩ |
      ⟨written, later⟩
    · simp [waits] at positions
    · simp [puts] at positions
    · refine ⟨written, ?_⟩
      rcases later with ⟨⟨pollWakeup, position⟩, position'⟩ |
        ⟨position, pollWakeup, position'⟩ | ⟨⟨pollWakeup, position⟩, position'⟩
      · obtain rfl : left = 3 := by simpa [position] using positions
        rcases position' with position' | position' | position'
        · exact .inr ⟨2, by omega, by simp [writer, position']⟩
        · exact .inr ⟨2, by omega, by simp [writer, position']⟩
        · exact .inl ⟨by omega, by simp [writer, position']⟩
      · obtain rfl : left = 2 := by
          rcases position with position | position <;>
            simpa [position] using positions
        exact .inr ⟨1, by omega, by simp [writer, position']⟩
      · obtain rfl : left = 1 := by simpa [position] using positions
        exact .inl ⟨by omega, by simp [writer, position']⟩
  canWrite := by
    intro state item mayWrite _
    obtain ⟨idle, next⟩ := of_decide_eq_true mayWrite
    exact exists_write idle (List.getElem?_eq_some_iff.mp next).1
  canMove := by
    intro state invariant notOutside notWaiting _
    obtain ⟨after, taken⟩ := exists_prodStep invariant notOutside notWaiting
    exact ⟨.prod i, after, by simp [writer], taken⟩

end Laws

end Decen

namespace Hrc

variable {α : Type}

/-- `LpelBufferIsSpace`. -/
def lpelBufferIsSpace (_ : Buffer α) : Bool := true

/-- The item of a call, before it is put. -/
def WritePc.pending : WritePc α → Option α
  | .pE item | .alloc item | .link _ item | .advance _ item => some item
  | _ => none

/-- Where the producer is in its call. -/
def WritePc.stage : WritePc α → WriteStage
  | .idle => .outside
  | .toBlock _ | .blocked _ => .waiting
  | .pE _ => .unput 8
  | .alloc _ => .unput 7
  | .link _ _ => .unput 6
  | .advance _ _ => .unput 5
  | .vN => .put 4
  | .lookup => .put 3
  | .unblock => .put 2
  | .count => .put 1

/-- All places of the stream are taken: by the items that are not read, by the one
that the reader has popped and for which it has not done V, and by those that it has
read without V because the stream was of another type.  An item that was written
without P for that reason takes none. -/
def PlacesTaken (size : StreamSize) (stream : Stream α) : Prop :=
  (stream.written.length : ℤ) - stream.popped.length + stream.cons.holding +
    stream.readPlain = size.val + stream.writtenPlain

/-- The reader is between the pop and the V operation on the stream, which lacks
only the item that was popped. -/
def InWindow (size : StreamSize) (stream : Stream α) : Prop :=
  stream.cons.holding = 1 ∧
    stream.written.length + 1 = stream.popped.length + size.val

/-- On a stream that was an entry stream whenever an item was written or read, and
that is not full, the places are taken only in this window. -/
theorem placesTaken_iff_inWindow
    {size : StreamSize}
    {stream : Stream α}
    (written : stream.writtenPlain = 0)
    (read : stream.readPlain = 0)
    (notFull : stream.written.length < stream.popped.length + size.val) :
    PlacesTaken size stream ↔ InWindow size stream := by
  have holding : stream.cons.holding = 0 ∨ stream.cons.holding = 1 := by
    cases stream.cons <;> simp [ReadPc.holding]
  unfold PlacesTaken InWindow
  omega

/-- The producer of a stream. -/
def writer (α : Type) (size : StreamSize) :
    Writer (Stream α) (StreamLabel α) α where
  machine := streamMachine α size
  isSpace := fun stream => lpelBufferIsSpace stream.buffer
  full := fun stream => decide (stream.type = .entry ∧
    size.val ≤ stream.written.length - stream.popped.length)
  mayWrite := fun stream _ => stream.prod.isIdle && stream.prodOpen
  stage := fun stream => stream.prod.stage
  written := Stream.written
  pending := fun stream => stream.prod.pending
  write := .write
  own := fun label =>
    match label with
    | .openWrite _ | .write _ | .prod _ | .resumeProd | .closeOut => true
    | _ => false
  Blocks := fun stream label => (∃ address, label = .prod address) ∧
    (∃ item, stream.prod = .pE item) ∧ PlacesTaken size stream
  Attached := fun stream => stream.prodStream = true ∧
    ∃ address, stream.buffer.heap address = none
  steps := 9

/-- Every item had its P and its V operation, or was written or read while the
stream was of another type. -/
structure ItemAccount (size : StreamSize) (stream : Stream α) : Prop where
  written : (stream.pOps : ℤ) + stream.writtenPlain =
    stream.written.length + stream.prod.holding
  popped : (stream.vOps : ℤ) + stream.readPlain + stream.cons.holding =
    stream.popped.length
  entry : EntryAccount size stream

namespace ItemAccount

variable {size : StreamSize} {stream before after : Stream α}
variable {label : StreamLabel α}

theorem create (size : StreamSize) :
    ItemAccount size (lpelStreamCreate size : Stream α) where
  written := rfl
  popped := rfl
  entry := EntryAccount.ofReachable (.init rfl)

/-- Every step keeps the account of the items. -/
theorem step
    (account : ItemAccount size before)
    (taken : streamNext before label = some after) :
    ItemAccount size after := by
  have entry := account.entry.step taken
  obtain ⟨written, popped, -⟩ := account
  cases StreamStep.of_next taken with
  | openWrite | openRead | closeOut | takeOver => exact ⟨written, popped, entry⟩
  | writeEntry position | writeOther position | reserveNone position
  | reserveSome position | block position | alloc position | link position
  | advance position | releaseWaiting position | release position
  | lookup position | unblock position | countWrite position
  | resumeProd position =>
      refine ⟨?_, popped, entry⟩
      rw [position] at written
      simp only [WritePc.holding, List.length_append, List.length_singleton]
        at written ⊢
      omega
  | readNone position | readSome position | blockRead position | top position
  | pop position | free position | testEntry position | testOther position
  | spaceWaiting position | space position | lookupProd position
  | unblockProd position | countRead position | pool position
  | resumeCons position | freeStream _ position =>
      refine ⟨written, ?_, entry⟩
      rw [position] at popped
      simp only [ReadPc.holding, List.length_append, List.length_singleton]
        at popped ⊢
      omega

/-- A producer before its P operation finds `e_sem` at 0 exactly if all places are
taken. -/
theorem eSem_eq_zero_iff
    (account : ItemAccount size stream)
    {item : α}
    (position : stream.prod = .pE item) :
    stream.eSem = 0 ↔ PlacesTaken size stream := by
  obtain ⟨written, popped, entry⟩ := account
  have identity := entry.identity
  simp only [position, WritePc.holding] at written
  unfold PlacesTaken
  omega

end ItemAccount

section Laws

variable {size : StreamSize} {stream after : Stream α} {label : StreamLabel α}

/-- The steps of the reader leave the producer where it is. -/
theorem aside_reader
    (other : (writer α size).own label = false)
    (taken : streamNext stream label = some after) :
    after.prod = stream.prod ∧ after.written = stream.written ∧
      after.prodOpen = stream.prodOpen := by
  cases StreamStep.of_next taken with
  | openWrite | writeEntry | writeOther | reserveNone | reserveSome | block
  | alloc | link | advance | releaseWaiting | release | lookup | unblock
  | countWrite | resumeProd | closeOut => cases other
  | _ => exact ⟨rfl, rfl, rfl⟩

/-- A producer commits to block only from its P operation. -/
theorem not_blocks
    (position : ∀ item, stream.prod ≠ .pE item) :
    ¬(writer α size).Blocks stream label := by
  rintro ⟨-, ⟨item, reserving⟩, -⟩
  exact position item reserving

/-- Its item is in the buffer after that. -/
theorem not_blocks_of_put
    {left : ℕ}
    (stage : stream.prod.stage = .put left) :
    ¬(writer α size).Blocks stream label := by
  apply not_blocks
  intro item reserving
  rw [reserving] at stage
  cases stage

/-- The producer keeps to the protocol of its calls. -/
theorem writer_laws (size : StreamSize) :
    (writer α size).Laws (ItemAccount size) fun _ => True where
  steps_pos := by simp [writer]
  kept := fun account taken => account.step taken
  refuses := fun _ noSpace => by cases noSpace
  still_of_isSpace := fun _ _ => trivial
  own_of_blocks := by
    rintro stream label ⟨⟨address, rfl⟩, -⟩
    rfl
  others := by
    intro before after label _ taken other
    obtain ⟨prod, written, prodOpen⟩ := aside_reader other taken
    refine ⟨?_, written, ?_, ?_, id⟩
    · simp only [writer, prod]
    · simp only [writer, prod]
    · simp only [writer, prod, prodOpen]
  write := by
    intro before after item _ _ _ taken
    have taken : streamNext before (.write item) = some after := taken
    right
    cases StreamStep.of_next taken with
    | writeEntry position =>
        exact ⟨not_blocks (by simp [position]), rfl, rfl, 8, by simp [writer],
          rfl⟩
    | writeOther position =>
        exact ⟨not_blocks (by simp [position]), rfl, rfl, 7, by simp [writer],
          rfl⟩
    | freeStream frees => rcases frees with impossible | impossible <;>
        cases impossible
  unput := by
    intro before after label left account stage own taken
    have stage : before.prod.stage = .unput left := stage
    cases StreamStep.of_next taken with
    | reserveNone position none =>
        rw [position] at stage
        cases stage
        exact .inl ⟨by omega, ⟨⟨_, rfl⟩, ⟨_, position⟩,
          (account.eSem_eq_zero_iff position).mp none⟩, rfl⟩
    | reserveSome position some =>
        rw [position] at stage
        cases stage
        refine .inr (.inl ⟨fun blocks => some
          ((account.eSem_eq_zero_iff position).mpr blocks.2.2), ?_, rfl, 7,
          by omega, rfl⟩)
        simp [writer, position, WritePc.pending]
    | alloc position =>
        rw [position] at stage
        cases stage
        refine .inr (.inl ⟨not_blocks (by simp [position]), ?_, rfl, 6,
          by omega, rfl⟩)
        simp [writer, position, WritePc.pending]
    | link position =>
        rw [position] at stage
        cases stage
        refine .inr (.inl ⟨not_blocks (by simp [position]), ?_, rfl, 5,
          by omega, rfl⟩)
        simp [writer, position, WritePc.pending]
    | advance position =>
        rw [position] at stage
        cases stage
        refine .inr (.inr ⟨not_blocks (by simp [position]), ?_, 4, by omega,
          rfl⟩)
        intro item pending
        obtain rfl : _ = item := by
          simpa [writer, position, WritePc.pending] using pending
        rfl
    | openWrite position | writeEntry position | writeOther position
    | block position | releaseWaiting position | release position
    | lookup position | unblock position | countWrite position
    | resumeProd position | closeOut position =>
        rw [position] at stage
        cases stage
    | freeStream frees => rcases frees with rfl | rfl <;> cases own
    | _ => cases own
  put := by
    intro before after label left _ stage own taken
    have stage : before.prod.stage = .put left := stage
    refine ⟨not_blocks_of_put stage, ?_⟩
    cases StreamStep.of_next taken with
    | releaseWaiting position =>
        rw [position] at stage
        cases stage
        exact ⟨rfl, .inr ⟨3, by omega, rfl⟩⟩
    | release position =>
        rw [position] at stage
        cases stage
        exact ⟨rfl, .inr ⟨1, by omega, rfl⟩⟩
    | lookup position =>
        rw [position] at stage
        cases stage
        exact ⟨rfl, .inr ⟨2, by omega, rfl⟩⟩
    | unblock position =>
        rw [position] at stage
        cases stage
        exact ⟨rfl, .inr ⟨1, by omega, rfl⟩⟩
    | countWrite position =>
        rw [position] at stage
        cases stage
        exact ⟨rfl, .inl ⟨by omega, rfl⟩⟩
    | openWrite position | writeEntry position | writeOther position
    | reserveNone position | reserveSome position | block position
    | alloc position | link position | advance position
    | resumeProd position | closeOut position =>
        rw [position] at stage
        cases stage
    | freeStream frees => rcases frees with rfl | rfl <;> cases own
    | _ => cases own
  canWrite := by
    intro stream item mayWrite attached
    obtain ⟨idle, opened⟩ := Bool.and_eq_true_iff.mp mayWrite
    exact ⟨_, if_pos ⟨idle, opened, attached.1⟩⟩
  canMove := by
    intro stream _ notOutside notWaiting attached
    obtain ⟨pointer, address, free⟩ := attached
    refine ⟨.prod address, ?_⟩
    cases position : stream.prod with
    | idle => exact absurd (by simp [writer, position, WritePc.stage]) notOutside
    | toBlock | blocked =>
        exact absurd (by simp [writer, position, WritePc.stage]) notWaiting
    | _ =>
        simp [writer, streamMachine, streamNext, writeStep, position, pointer,
          free]

end Laws

end Hrc

/-- Along a run the calls of `LpelStreamTryWrite` never block, refuse an item
exactly if the stream is full at the check and append it otherwise, exactly if
all steps of the run meet the condition.  In the decentralised back end this
excludes the call of `LpelStreamWrite` between a pop from a full stream and its V
operation.  In the hierarchical back end it excludes the check of a full entry
stream and the P operation while all places of the stream are taken, which is the
same window on a stream that was always used as an entry stream. -/
theorem tryWriteNeverBlocks
    {ι α : Type}
    [DecidableEq ι]
    [DecidableEq α] :
    (∀ (size : ι → StreamSize) (script : ι → List α) (i : ι)
      (labels : List (TryLabel (StreamSystem.Label ι) α)),
      (Decen.writer size script i).tryMachine.HoldsAlong
          (Decen.writer size script i).TryOk
          (.start (StreamSystem.initial (Decen.streams size script))) labels ↔
        (Decen.writer size script i).tryMachine.StepsMeet
          (Decen.writer size script i).Meets
          (.start (StreamSystem.initial (Decen.streams size script))) labels) ∧
    (∀ (size : StreamSize) (labels : List (TryLabel (Hrc.StreamLabel α) α)),
      (Hrc.writer α size).tryMachine.HoldsAlong (Hrc.writer α size).TryOk
          (.start (Hrc.lpelStreamCreate size)) labels ↔
        (Hrc.writer α size).tryMachine.StepsMeet (Hrc.writer α size).Meets
          (.start (Hrc.lpelStreamCreate size)) labels) ∧
    ∀ (size : StreamSize) (stream : Hrc.Stream α),
      stream.writtenPlain = 0 → stream.readPlain = 0 →
      stream.written.length < stream.popped.length + size.val →
      (Hrc.PlacesTaken size stream ↔ Hrc.InWindow size stream) := by
  refine ⟨?_, ?_, fun _ _ => Hrc.placesTaken_iff_inWindow⟩
  · intro size script i labels
    apply Writer.tryOk_iff_meets (Decen.writer_laws size script i)
    exact StreamSystem.Invariant.ofReachable (.init rfl)
  · intro size labels
    exact Writer.tryOk_iff_meets (Hrc.writer_laws size)
      (Hrc.ItemAccount.create size) labels

/-- The reader of an entry stream of size 1 has popped the only item and not yet done
its V operation. -/
def poppedEntry : List (Hrc.StreamLabel ℕ) :=
  [.openWrite true, .openRead false, .write 7, .prod 1, .prod 1, .prod 1,
    .prod 1, .prod 1, .prod 1, .read, .cons, .cons]

/-- The stream has no unread item, and `e_sem` is 0. -/
theorem tryWriteNeverBlocks_poppedEntry :
    ∃ stream : Hrc.Stream ℕ, (Hrc.streamMachine ℕ .one).Reachable stream ∧
      stream.written = stream.popped ∧ stream.eSem = 0 ∧
      Hrc.PlacesTaken .one stream := by
  obtain ⟨stream, reached, tested⟩ := Machine.exists_reachable_of_run
    (rfl : (Hrc.streamMachine ℕ .one).init (Hrc.lpelStreamCreate .one))
    (by decide : ((Hrc.streamMachine ℕ .one).run (Hrc.lpelStreamCreate .one)
      poppedEntry).map (fun stream => decide (stream.written = [7] ∧
        stream.popped = [7] ∧ stream.writtenPlain = 0 ∧ stream.readPlain = 0 ∧
        stream.cons.holding = 1 ∧ stream.eSem = 0)) = some true)
  obtain ⟨written, popped, writtenPlain, readPlain, holding, none⟩ :=
    of_decide_eq_true tested
  obtain ⟨-, -, window⟩ := tryWriteNeverBlocks (ι := Unit) (α := ℕ)
  refine ⟨stream, reached, written.trans popped.symm, none, ?_⟩
  refine (window .one stream writtenPlain readPlain ?_).mpr ⟨holding, ?_⟩
  · simp [written, popped, StreamSize.one]
  · simp [written, popped, StreamSize.one]

section Blocked

/-- The producer of a stream with one cell and two items. -/
def twoItems : Writer (StreamSystem.State (Decen.streams
    (fun _ : Unit => StreamSize.one) fun _ => [7, 8]))
    (StreamSystem.Label Unit) ℕ :=
  Decen.writer (fun _ => .one) (fun _ => [7, 8]) ()

/-- The consumer pops the first item, and the producer tries to write the second
one. -/
def emptiedCell : List (TryLabel (StreamSystem.Label Unit) ℕ) :=
  [.step (.write ()), .step (.prod ()), .step (.prod ()), .step (.read ()),
    .step .cons, .tryWrite 8, .write]

/-- The producer fills an entry stream of size 1 and tries to write to it. -/
def fullEntry : List (TryLabel (Hrc.StreamLabel ℕ) ℕ) :=
  [.step (.openWrite true), .step (.openRead false), .step (.write 7),
    .step (.prod 1), .step (.prod 1), .step (.prod 1), .step (.prod 1),
    .step (.prod 1), .step (.prod 1), .tryWrite 8, .write, .step (.prod 2)]

/-- A call blocks that has found space, and one that should have been refused. -/
theorem tryWrite_blocked :
    (∃ state, twoItems.tryMachine.Reachable state ∧
      state.pc = .inside false 8 [7] ∧
      twoItems.stage state.system = .waiting) ∧
    ∃ state, (Hrc.writer ℕ .one).tryMachine.Reachable state ∧
      state.pc = .inside true 8 [7] ∧
      (Hrc.writer ℕ .one).stage state.system = .waiting := by
  refine ⟨?_, ?_⟩
  · obtain ⟨state, reached, tested⟩ := Machine.exists_reachable_of_run
      (⟨_, rfl, rfl⟩ : twoItems.tryMachine.init (.start
        (StreamSystem.initial _)))
      (by decide : (twoItems.tryMachine.run (.start (StreamSystem.initial _))
        emptiedCell).map (fun state => decide (
          state.pc = .inside false 8 [7] ∧
            twoItems.stage state.system = .waiting)) = some true)
    exact ⟨state, reached, of_decide_eq_true tested⟩
  · obtain ⟨state, reached, tested⟩ := Machine.exists_reachable_of_run
      (⟨_, rfl, rfl⟩ : (Hrc.writer ℕ .one).tryMachine.init (.start
        (Hrc.lpelStreamCreate .one)))
      (by decide : ((Hrc.writer ℕ .one).tryMachine.run (.start
        (Hrc.lpelStreamCreate .one)) fullEntry).map (fun state => decide (
          state.pc = .inside true 8 [7] ∧
            (Hrc.writer ℕ .one).stage state.system = .waiting)) = some true)
    exact ⟨state, reached, of_decide_eq_true tested⟩

end Blocked

end Lpel
