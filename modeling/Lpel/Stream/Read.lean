import Lpel.Stream.Producer

/-!
# Steps of a read

The consumer alone moves from one situation of the handshake to another.  A read
goes from `Settled` to `ReadWait` when its P operation finds no item, and comes
back when the wakeup is delivered.
-/

namespace Lpel
namespace StreamSystem

variable {ι α : Type} [DecidableEq ι] {config : Config ι α}

/-- A step of the consumer between positions in which nobody wakes it. -/
theorem Settled.move
    {before after : State config}
    {registered : List ι}
    (settled : Settled before registered)
    (notReading : ∀ i, after.cons.role i ≠ .waiting)
    (prod : after.prod = before.prod)
    (consWake : after.consWake = before.consWake)
    (pollToken : after.pollToken = before.pollToken)
    (isPoll : ∀ i, (after.stream i).isPoll = (before.stream i).isPoll) :
    Settled after registered where
  notReading := notReading
  noDebt := by
    intro i
    rw [prod]
    exact settled.noDebt i
  noWake := by
    rw [consWake]
    exact settled.noWake
  noToken := by
    rw [pollToken]
    exact settled.noToken
  isPoll := by
    intro i
    rw [isPoll]
    exact settled.isPoll i

/-- No stream is marked for polling where none is registered. -/
theorem Settled.isPoll_eq_false
    {state : State config}
    (settled : Settled state [])
    (i : ι) :
    (state.stream i).isPoll = false := by
  cases marked : (state.stream i).isPoll with
  | false => rfl
  | true => simpa using settled.isPoll i marked

namespace Invariant

variable {before after : State config}

/-- The unread items are those the accounting is about, so the oldest of them is
the top of the buffer. -/
theorem top_eq
    (invariant : Invariant before)
    (i : ι) :
    config.impl.lpelBufferTop (before.stream i).buffer =
      (before.unread i).head? :=
  config.impl.top_eq (invariant.streams i).holds

/-- The buffer has a top exactly when there are unread items. -/
theorem top_isSome_iff
    (invariant : Invariant before)
    (i : ι) :
    (config.impl.lpelBufferTop (before.stream i).buffer).isSome = true ↔
      before.unread i ≠ [] := by
  rw [invariant.top_eq i]
  cases before.unread i <;> simp

/-- A step of the consumer that releases nothing, put together from its
parts. -/
theorem consumer
    (invariant : Invariant before)
    (streams : ∀ i, StreamOk config i (after.view i))
    (cons : ConsOk after after.cons)
    (ring : after.ring.Spells after.members)
    (readCount : ∀ i, after.readBlocks i = after.readUnblocks i +
      if after.cons.role i = .waiting ∧ after.consWake = 0 then 1 else 0)
    (prod : after.prod = before.prod)
    (written : after.written = before.written)
    (streamLive : after.streamLive = before.streamLive)
    (prodSdLive : after.prodSdLive = before.prodSdLive)
    (consSdLive : after.consSdLive = before.consSdLive)
    (used : ∀ i, after.cons.role i ≠ .none → before.consSdLive i = true) :
    Invariant after where
  streams := streams
  cons := cons
  ring := ring
  readCount := readCount
  live := by
    intro i
    have live := invariant.live i
    refine ⟨?_, ?_, ?_, ?_⟩
    · rw [consSdLive, streamLive, live.cons_eq]
    · rw [prodSdLive, prod]
      exact live.prod_iff
    · rw [streamLive, prod, written]
      exact live.released
    · rw [consSdLive]
      exact used i

/-- The streams are accounted for after a step that only touches `is_poll` and
keeps what the consumer is doing with each of them. -/
theorem streams_of_poll
    (invariant : Invariant before)
    (stream : ∀ i,
      (after.stream i).buffer = (before.stream i).buffer ∧
      (after.stream i).nSem = (before.stream i).nSem ∧
      (after.stream i).eSem = (before.stream i).eSem)
    (role : ∀ i, after.cons.role i = before.cons.role i)
    (others : after.prod = before.prod ∧ after.prodWake = before.prodWake ∧
      after.written = before.written ∧ after.popped = before.popped ∧
      after.prodBlocks = before.prodBlocks ∧
      after.prodUnblocks = before.prodUnblocks) :
    ∀ i, StreamOk config i (after.view i) := by
  intro i
  obtain ⟨prod, prodWake, written, popped, prodBlocks, prodUnblocks⟩ := others
  obtain ⟨buffer, nSem, eSem⟩ := stream i
  have kept := (invariant.streams i).relabel (before.prod i)
    rfl rfl rfl buffer nSem eSem
  simpa [State.view, State.unread, role i, prod, prodWake, written, popped,
    prodBlocks, prodUnblocks] using kept

/-- What a step of a read leaves alone. -/
structure ReadFrame (before after : State config) : Prop where
  ring_eq : after.ring = before.ring
  members_eq : after.members = before.members
  prod_eq : after.prod = before.prod
  written_eq : after.written = before.written
  streamLive_eq : after.streamLive = before.streamLive
  prodSdLive_eq : after.prodSdLive = before.prodSdLive
  consSdLive_eq : after.consSdLive = before.consSdLive
  consWake_eq : after.consWake = before.consWake
  pollToken_eq : after.pollToken = before.pollToken
  readBlocks_eq : after.readBlocks = before.readBlocks
  readUnblocks_eq : after.readUnblocks = before.readUnblocks

omit [DecidableEq ι] in
/-- A step of a read on one stream. -/
theorem ReadFrame.ofState
    {stream : ι → Stream config.impl.Buf}
    {cons : ConsPc ι}
    {popped : ι → List α}
    {prodWake prodUnblocks : ι → ℕ} :
    ReadFrame before
      { before with
        stream := stream, cons := cons, popped := popped
        prodWake := prodWake, prodUnblocks := prodUnblocks } where
  ring_eq := rfl
  members_eq := rfl
  prod_eq := rfl
  written_eq := rfl
  streamLive_eq := rfl
  prodSdLive_eq := rfl
  consSdLive_eq := rfl
  consWake_eq := rfl
  pollToken_eq := rfl
  readBlocks_eq := rfl
  readUnblocks_eq := rfl

/-- A step of a read that nobody has to wake, put together from its parts. -/
theorem readMove
    (invariant : Invariant before)
    (i : ι)
    (settled : Settled before [])
    (live : before.consSdLive i = true)
    (frame : ReadFrame before after)
    (isPoll : ∀ j, (after.stream j).isPoll = (before.stream j).isPoll)
    (position : after.cons = .idle ∨ after.cons = .readTop i ∨
      after.cons = .readV i ∨ after.cons = .readLookup i ∨
      after.cons = .readUnblock i)
    (stream : StreamOk config i (after.view i))
    (others : ∀ j, j ≠ i → after.view j = before.view j) :
    Invariant after := by
  have notReading : ∀ j, after.cons.role j ≠ .waiting := by
    intro j
    rcases position with position | position | position | position | position <;>
      simp only [position, ConsPc.role] <;> (try split) <;> simp
  have settled' : Settled after [] :=
    settled.move notReading frame.prod_eq frame.consWake_eq frame.pollToken_eq
      isPoll
  refine invariant.consumer ?_ ?_ ?_ ?_ frame.prod_eq frame.written_eq
    frame.streamLive_eq frame.prodSdLive_eq frame.consSdLive_eq ?_
  · intro j
    by_cases same : j = i
    · subst same
      exact stream
    · rw [others j same]
      exact invariant.streams j
  · rcases position with position | position | position | position | position <;>
      rw [position] <;> exact settled'
  · rw [frame.ring_eq, frame.members_eq]
    exact invariant.ring
  · intro j
    have readCount := invariant.readCount j
    simpa [notReading j, settled.notReading j, frame.readBlocks_eq,
      frame.readUnblocks_eq] using readCount
  · intro j uses
    have same : i = j := by
      rcases position with idle | position | position | position | position
      · simp [idle, ConsPc.role] at uses
      all_goals simpa [position, ConsPc.role] using uses
    exact same ▸ live

/-- `LpelStreamRead` up to its P operation keeps the invariant. -/
theorem lpelStreamRead
    (invariant : Invariant before)
    {i : ι}
    (taken : lpelStreamRead before i = some after) :
    Invariant after := by
  unfold StreamSystem.lpelStreamRead at taken
  split at taken
  case isFalse => exact absurd taken (by simp)
  case isTrue enabled =>
    obtain ⟨idle, live⟩ := enabled
    have settled : Settled before [] :=
      invariant.consAt idle
    have reserved := (invariant.streams i).reserveItem
      (by simp [State.view, idle, ConsPc.role])
    dsimp only at taken
    split at taken
    case isTrue none =>
      obtain rfl := Option.some.inj taken
      refine invariant.consumer ?_ ?_ invariant.ring ?_ rfl rfl rfl rfl rfl ?_
      · intro j
        by_cases same : j = i
        · subst same
          simpa [State.view, State.unread, ConsPc.role, none] using reserved
        · have kept := invariant.streams j
          simpa [State.view, State.unread, ConsPc.role, idle, same,
            Ne.symm same] using kept
      · refine ⟨?_, settled.noToken, ?_, ?_, Or.inl ⟨?_, settled.noDebt i,
          settled.noWake⟩⟩
        · intro j
          simp [ConsPc.role, eq_comm]
        · intro j
          have unmarked := settled.isPoll_eq_false j
          by_cases same : j = i
          · subst same
            simpa using unmarked
          · simpa [same] using unmarked
        · intro j _
          exact settled.noDebt j
        · simp [none]
      · intro j
        have readCount := invariant.readCount j
        by_cases same : j = i
        · subst same
          simp [ConsPc.role, idle] at readCount
          simp [ConsPc.role, settled.noWake, readCount]
        · simp [ConsPc.role, idle] at readCount
          simp [ConsPc.role, same, Ne.symm same, readCount]
      · intro j uses
        obtain rfl : i = j := by simpa [ConsPc.role] using uses
        exact live
    case isFalse some =>
      obtain rfl := Option.some.inj taken
      refine invariant.readMove i settled live
        ReadFrame.ofState
        (apply_update_stream _ rfl) (by simp) ?_ ?_
      · simpa [State.view, State.unread, ConsPc.role, some] using reserved
      · intro j ne
        simp [State.view, State.unread, ConsPc.role, idle, ne, Ne.symm ne]

/-- Taking the top item keeps the invariant. -/
theorem topAndPop
    (invariant : Invariant before)
    {i : ι}
    (position : before.cons = .readTop i)
    (taken : topAndPop before i = some after) :
    Invariant after := by
  have settled : Settled before [] :=
    invariant.consAt position
  have live := (invariant.live i).used (by simp [position, ConsPc.role])
  have ok := invariant.streams i
  have topping : (before.view i).role = .top := by
    simp [State.view, position, ConsPc.role]
  obtain ⟨item, rest, items⟩ := ok.exists_item topping
  have top : config.impl.lpelBufferTop (before.stream i).buffer = some item := by
    rw [invariant.top_eq i]
    change (before.view i).items.head? = some item
    rw [items]
    rfl
  simp only [StreamSystem.topAndPop, top, Option.map_some,
    Option.some.injEq] at taken
  subst taken
  have unread : (before.written i).drop ((before.popped i).length + 1) =
      rest := by
    have fifo := ok.fifo
    rw [items] at fifo
    simp only [State.view] at fifo
    simp [fifo, List.drop_append]
  refine invariant.readMove i settled live
    ReadFrame.ofState
    (apply_update_stream _ rfl) (by simp) ?_ ?_
  · have popped := ok.topAndPop topping items
    simpa [State.view, State.unread, ConsPc.role, unread] using popped
  · intro j ne
    simp [State.view, State.unread, ConsPc.role, position, ne, Ne.symm ne]

/-- Releasing the cell after a read keeps the invariant. -/
theorem releaseSpace
    (invariant : Invariant before)
    {i : ι}
    (position : before.cons = .readV i) :
    Invariant (releaseSpace before i) := by
  have settled : Settled before [] :=
    invariant.consAt position
  have live := (invariant.live i).used (by simp [position, ConsPc.role])
  have ok := invariant.streams i
  have releasing : (before.view i).role = .release := by
    simp [State.view, position, ConsPc.role]
  unfold StreamSystem.releaseSpace
  split
  case isTrue bounded =>
    have released := ok.releaseCell releasing bounded
    by_cases wakes : (before.stream i).eSem < 0
    · simp only [wakes, if_true]
      refine invariant.readMove i settled live
        ReadFrame.ofState
        (apply_update_stream _ rfl) (by simp) ?_ ?_
      · simpa [State.view, State.unread, ConsPc.role, wakes] using released
      · intro j ne
        simp [State.view, State.unread, ConsPc.role, position, ne, Ne.symm ne]
    · simp only [wakes, if_false]
      refine invariant.readMove i settled live
        ReadFrame.ofState
        (apply_update_stream _ rfl) (by simp) ?_ ?_
      · simpa [State.view, State.unread, ConsPc.role, wakes] using released
      · intro j ne
        simp [State.view, State.unread, ConsPc.role, position, ne, Ne.symm ne]
  case isFalse unbounded =>
    have released := ok.releaseNothing releasing (by simpa using unbounded)
    refine invariant.readMove i settled live
      ReadFrame.ofState
      (fun _ => rfl) (by simp) ?_ ?_
    · simpa [State.view, State.unread, ConsPc.role] using released
    · intro j ne
      simp [State.view, State.unread, ConsPc.role, position, Ne.symm ne]

/-- The lookup of the producer keeps the invariant. -/
theorem readLookup
    (invariant : Invariant before)
    {i : ι}
    (position : before.cons = .readLookup i) :
    Invariant { before with cons := .readUnblock i } := by
  have settled : Settled before [] :=
    invariant.consAt position
  have live := (invariant.live i).used (by simp [position, ConsPc.role])
  refine invariant.readMove i settled live
    ReadFrame.ofState
    (fun _ => rfl) (by simp) ?_ ?_
  · have kept := invariant.streams i
    simpa [State.view, State.unread, ConsPc.role, position] using kept
  · intro j ne
    simp [State.view, State.unread, ConsPc.role, position]

/-- `LpelTaskUnblock` of the producer at the end of a read keeps the
invariant. -/
theorem readUnblock
    (invariant : Invariant before)
    {i : ι}
    (position : before.cons = .readUnblock i) :
    Invariant
      { before with
        prodWake := Function.update before.prodWake i (before.prodWake i + 1)
        prodUnblocks := Function.update before.prodUnblocks i
          (before.prodUnblocks i + 1)
        cons := .idle } := by
  have settled : Settled before [] :=
    invariant.consAt position
  have live := (invariant.live i).used (by simp [position, ConsPc.role])
  have waking : (before.view i).role = .wake := by
    simp [State.view, position, ConsPc.role]
  obtain ⟨-, woken⟩ := (invariant.streams i).unblockProducer waking
  refine invariant.readMove i settled live
    ReadFrame.ofState
    (fun _ => rfl) (by simp) ?_ ?_
  · simpa [State.view, State.unread, ConsPc.role] using woken
  · intro j ne
    simp [State.view, State.unread, ConsPc.role, position, ne, Ne.symm ne]

/-- Blocking in a read keeps the invariant. -/
theorem readToBlock
    (invariant : Invariant before)
    {i : ι}
    (position : before.cons = .readToBlock i) :
    Invariant { before with cons := .readBlocked i } := by
  have roles : ∀ j, (ConsPc.readBlocked i).role j = before.cons.role j := by
    intro j
    rw [position]
    rfl
  have waiting : ReadWait before i :=
    invariant.consAt position
  refine invariant.consumer ?_ ?_ invariant.ring ?_ rfl rfl rfl rfl rfl ?_
  · exact invariant.streams_of_poll (fun _ => ⟨rfl, rfl, rfl⟩) roles
      ⟨rfl, rfl, rfl, rfl, rfl, rfl⟩
  · refine ⟨?_, waiting.noToken, waiting.isPoll, waiting.onlyDebt,
      waiting.signal⟩
    intro j
    dsimp only
    rw [roles j]
    exact waiting.reading j
  · intro j
    have readCount := invariant.readCount j
    simpa [roles j] using readCount
  · intro j uses
    rw [roles j] at uses
    exact (invariant.live j).used uses

/-- Delivering a wakeup to a consumer blocked in a read keeps the invariant. -/
theorem resumeRead
    (invariant : Invariant before)
    {i : ι}
    (position : before.cons = .readBlocked i)
    (woken : 0 < before.consWake) :
    Invariant
      { before with
        cons := .readTop i
        consWake := before.consWake - 1 } := by
  have waiting : ReadWait before i :=
    invariant.consAt position
  have live := (invariant.live i).used (by simp [position, ConsPc.role])
  obtain ⟨released, noDebt, sent⟩ : 0 ≤ (before.stream i).nSem ∧
      (before.prod i).owes = false ∧ before.consWake = 1 := by
    rcases waiting.signal with ⟨-, -, noWake⟩ | ⟨-, -, noWake⟩ | sent
    · omega
    · omega
    · exact sent
  have notReading : ∀ j, (ConsPc.readTop i).role j ≠ .waiting := by
    intro j
    simp only [ConsPc.role]
    split <;> simp
  refine invariant.consumer ?_ ?_ invariant.ring ?_ rfl rfl rfl rfl rfl ?_
  · intro j
    by_cases same : j = i
    · subst same
      have topping := (invariant.streams j).wakeReader
        (by simp [State.view, position, ConsPc.role]) released
      simpa [State.view, State.unread, ConsPc.role] using topping
    · have kept := invariant.streams j
      simpa [State.view, State.unread, ConsPc.role, position,
        Ne.symm same] using kept
  · refine ⟨notReading, ?_, ?_, waiting.noToken, ?_⟩
    · intro j
      by_cases same : j = i
      · subst same
        exact noDebt
      · exact waiting.onlyDebt j same
    · simp [sent]
    · intro j marked
      rw [waiting.isPoll j] at marked
      exact absurd marked (by decide)
  · intro j
    have readCount := invariant.readCount j
    simpa [notReading j, sent] using readCount
  · intro j uses
    obtain rfl : i = j := by simpa [ConsPc.role] using uses
    exact live

end Invariant

end StreamSystem
end Lpel
