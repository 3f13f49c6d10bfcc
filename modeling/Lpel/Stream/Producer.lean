import Lpel.Stream.Invariant

/-!
# Steps of the producers

A producer takes part in the handshake with the consumer in six ways: it does
not take part at all, it puts an item and may take the poll token, it releases
the item, it looks the consumer up for a reading or for a polling wakeup, and it
sends the wakeup.  Each way keeps the situation the consumer is in.
-/

namespace Lpel
namespace StreamSystem

variable {ι α : Type} [DecidableEq ι] {config : Config ι α}

omit [DecidableEq ι] in
/-- A producer that owes a wakeup is the only one that may. -/
theorem OnlyDebt.eq_of_owes
    {state : State config}
    {i j : ι}
    (only : OnlyDebt state j)
    (owes : (state.prod i).owes = true) :
    j = i := by
  by_contra ne
  rw [only i (Ne.symm ne)] at owes
  exact absurd owes (by decide)

omit [DecidableEq ι] in
/-- No producer owes a wakeup where there is no debt. -/
theorem NoDebt.not_owes
    {state : State config}
    {i : ι}
    (noDebt : NoDebt state)
    (owes : (state.prod i).owes = true) :
    False := by
  rw [noDebt i] at owes
  exact absurd owes (by decide)

/-- The consumer is always in one of the three situations. -/
theorem ConsOk.situation
    {state : State config}
    {pc : ConsPc ι}
    (ok : ConsOk state pc) :
    (∃ registered, Settled state registered) ∨
      (∃ i, pc.readWaits i ∧ ReadWait state i) ∨
      (pc.pollWaits = true ∧ ∃ registered, PollWait state registered) := by
  cases pc with
  | idle | readTop | readV | readLookup | readUnblock => exact Or.inl ⟨_, ok⟩
  | readToBlock i => exact Or.inr (Or.inl ⟨i, Or.inl rfl, ok⟩)
  | readBlocked i => exact Or.inr (Or.inl ⟨i, Or.inr rfl, ok⟩)
  | pollFast => exact Or.inl ⟨_, ok.1.settled⟩
  | pollStore => exact Or.inl ⟨_, ok.settled⟩
  | pollRegister =>
      obtain ⟨_, _, _, _, waiting⟩ := ok
      exact Or.inr (Or.inr ⟨rfl, _, waiting⟩)
  | pollSwitch doCtxSwitch =>
      cases doCtxSwitch with
      | true =>
          obtain ⟨_, _, _, _, waiting, _⟩ := ok
          exact Or.inr (Or.inr ⟨rfl, _, waiting⟩)
      | false =>
          obtain ⟨_, _, done⟩ := ok
          exact Or.inl ⟨_, done.settled⟩
  | pollBlocked =>
      obtain ⟨_, _, _, _, waiting, _⟩ := ok
      exact Or.inr (Or.inr ⟨rfl, _, waiting⟩)
  | pollAssert =>
      obtain ⟨_, _, done⟩ := ok
      exact Or.inl ⟨_, done.settled⟩
  | pollUnregister =>
      obtain ⟨_, _, _, _, done⟩ := ok
      exact Or.inl ⟨_, done.settled⟩
  | pollReturn => exact Or.inl ⟨_, ok.settled⟩
  | polled => exact Or.inl ⟨_, ok.settled⟩

/-- In a poll the debtor is the producer that took the token. -/
theorem PollWait.tookToken_of_owes
    {state : State config}
    {registered : List ι}
    {i : ι}
    (waiting : PollWait state registered)
    (owes : (state.prod i).owes = true) :
    TookToken state i ∧ i ∈ state.members ∧ state.consWake = 0 := by
  rcases waiting.signal with ⟨-, noDebt, -⟩ | ⟨-, j, member, -, only, signal⟩
  · exact (noDebt.not_owes owes).elim
  · obtain rfl := only.eq_of_owes owes
    rcases signal with ⟨took, noWake⟩ | ⟨free, -⟩
    · exact ⟨took, member, noWake⟩
    · rw [free] at owes
      exact absurd owes (by decide)

/-- In a read the debtor is the producer of that stream. -/
theorem ReadWait.debtor_of_owes
    {state : State config}
    {i j : ι}
    (waiting : ReadWait state j)
    (owes : (state.prod i).owes = true) :
    j = i ∧ (state.prod i = .lookup ∨ state.prod i = .unblock false) ∧
      state.consWake = 0 := by
  obtain rfl := waiting.onlyDebt.eq_of_owes owes
  refine ⟨rfl, ?_⟩
  rcases waiting.signal with ⟨-, free, -⟩ | ⟨-, debt, noWake⟩ | ⟨-, free, -⟩
  · rw [free] at owes
    exact absurd owes (by decide)
  · exact ⟨debt, noWake⟩
  · rw [free] at owes
    exact absurd owes (by decide)

/-- The fields that only the consumer writes are unchanged. -/
structure SameConsumer (before after : State config) : Prop where
  cons_eq : after.cons = before.cons
  ring_eq : after.ring = before.ring
  members_eq : after.members = before.members
  pollRing_eq : after.pollRing = before.pollRing
  pollMembers_eq : after.pollMembers = before.pollMembers
  pollBlocks_eq : after.pollBlocks = before.pollBlocks
  consSdLive_eq : after.consSdLive = before.consSdLive
  streamLive_eq : after.streamLive = before.streamLive
  readBlocks_eq : after.readBlocks = before.readBlocks

omit [DecidableEq ι] in
/-- A step of a producer. -/
theorem SameConsumer.ofState
    {before : State config}
    {stream : ι → Stream config.impl.Buf}
    {prod : ι → ProdPc}
    {prodWake prodBlocks prodUnblocks readUnblocks : ι → ℕ}
    {consWake pollWakes : ℕ}
    {pollToken : Bool}
    {wakeupSd : Option ι}
    {prodSdLive : ι → Bool}
    {written : ι → List α} :
    SameConsumer before
      { before with
        stream := stream, prod := prod, prodWake := prodWake
        consWake := consWake, pollToken := pollToken, wakeupSd := wakeupSd
        prodSdLive := prodSdLive, written := written
        prodBlocks := prodBlocks, prodUnblocks := prodUnblocks
        readUnblocks := readUnblocks, pollWakes := pollWakes } where
  cons_eq := rfl
  ring_eq := rfl
  members_eq := rfl
  pollRing_eq := rfl
  pollMembers_eq := rfl
  pollBlocks_eq := rfl
  consSdLive_eq := rfl
  streamLive_eq := rfl
  readBlocks_eq := rfl

/-- A step of a producer as the consumer sees it. -/
structure Handover (before after : State config) : Prop
    extends SameConsumer before after where
  unread : ∀ i, before.unread i ≠ [] → after.unread i ≠ []
  token : after.pollToken = true → before.pollToken = true
  settled : ∀ registered, Settled before registered →
    Settled after registered ∧ after.wakeupSd = before.wakeupSd ∧
      after.pollWakes = before.pollWakes
  readWait : ∀ i, ReadWait before i → ReadWait after i
  pollWait : ∀ registered, PollWait before registered →
    PollWait after registered

omit [DecidableEq ι] in
/-- A call of `LpelStreamPoll` goes on while a producer steps. -/
theorem PollCall.handover
    {before after : State config}
    {blocks : ℕ}
    (call : PollCall before blocks)
    (same : SameConsumer before after) :
    PollCall after blocks where
  ring_eq := by rw [same.ring_eq, same.pollRing_eq, call.ring_eq]
  members_eq := by rw [same.members_eq, same.pollMembers_eq, call.members_eq]
  nonempty := by
    rw [same.members_eq]
    exact call.nonempty
  live := by
    rw [same.members_eq, same.consSdLive_eq]
    exact call.live
  blocks_eq := by rw [same.pollBlocks_eq, call.blocks_eq]

namespace Handover

variable {before after : State config}

/-- The fast path of a poll goes on while a producer steps. -/
theorem pollFast
    (handover : Handover before after)
    (fast : PollFast before) :
    PollFast after where
  toPollCall := fast.toPollCall.handover handover.toSameConsumer
  settled := (handover.settled _ fast.settled).1
  wakes := by
    rw [(handover.settled _ fast.settled).2.2]
    exact fast.wakes

/-- A poll about to block or blocked stays so while a producer steps. -/
theorem pollSleep
    (handover : Handover before after)
    {cnt : ℤ}
    {blocks : ℕ}
    (sleeping : PollSleep before cnt blocks) :
    PollSleep after cnt blocks := by
  obtain ⟨count, cnt_eq, bounded, call, waiting, token⟩ := sleeping
  have same := handover.toSameConsumer
  refine ⟨count, cnt_eq, ?_, call.handover same, ?_, ?_⟩
  · rw [same.members_eq]
    exact bounded
  · rw [same.members_eq]
    exact handover.pollWait _ waiting
  · rw [same.members_eq]
    intro still
    exact token (handover.token still)

/-- A poll that has been told a nonempty stream stays so. -/
theorem pollDone
    (handover : Handover before after)
    {registered : List ι}
    (done : PollDone before registered) :
    PollDone after registered where
  settled := (handover.settled _ done.settled).1
  call := by
    obtain ⟨blocks, bounded, call, wakes⟩ := done.call
    refine ⟨blocks, bounded, call.handover handover.toSameConsumer, ?_⟩
    rw [(handover.settled _ done.settled).2.2]
    exact wakes
  found := by
    obtain ⟨i, member, wakeup, nonempty⟩ := done.found
    refine ⟨i, ?_, ?_, handover.unread i nonempty⟩
    · rw [handover.members_eq]
      exact member
    · rw [(handover.settled _ done.settled).2.1]
      exact wakeup

/-- A poll that has returned has returned the same while a producer steps. -/
theorem returned
    (handover : Handover before after)
    {sd : ι}
    (returned : Returned before sd) :
    Returned after sd where
  settled := (handover.settled _ returned.settled).1
  member := by
    rw [handover.pollMembers_eq]
    exact returned.member
  nonempty := handover.unread sd returned.nonempty
  set_eq := by
    rw [handover.ring_eq]
    exact returned.set_eq
  next_eq := by
    rw [handover.ring_eq, handover.pollRing_eq]
    exact returned.next_eq
  rotated := by
    rw [handover.members_eq, handover.pollMembers_eq]
    exact returned.rotated
  wakes := by
    rw [(handover.settled _ returned.settled).2.2, handover.pollBlocks_eq]
    exact returned.wakes
  blocks_le := by
    rw [handover.pollBlocks_eq]
    exact returned.blocks_le

/-- Whatever the consumer relies on survives a step of a producer. -/
theorem consOk
    (handover : Handover before after)
    (ok : ConsOk before before.cons) :
    ConsOk after after.cons := by
  rw [handover.cons_eq]
  cases position : before.cons with
  | idle | readTop | readV | readLookup | readUnblock =>
      rw [position] at ok
      exact (handover.settled _ ok).1
  | readToBlock | readBlocked =>
      rw [position] at ok
      exact handover.readWait _ ok
  | pollFast iter =>
      rw [position] at ok
      refine ⟨handover.pollFast ok.1, ?_⟩
      rw [handover.ring_eq, handover.members_eq]
      exact ok.2
  | pollStore =>
      rw [position] at ok
      exact handover.pollFast ok
  | pollRegister iter cnt =>
      rw [position] at ok
      obtain ⟨count, cnt_eq, at_count, call, waiting⟩ := ok
      refine ⟨count, cnt_eq, ?_, call.handover handover.toSameConsumer, ?_⟩
      · rw [handover.ring_eq, handover.members_eq]
        exact at_count
      · rw [handover.members_eq]
        exact handover.pollWait _ waiting
  | pollSwitch doCtxSwitch cnt =>
      rw [position] at ok
      cases doCtxSwitch with
      | true => exact handover.pollSleep ok
      | false =>
          obtain ⟨count, cnt_eq, done⟩ := ok
          refine ⟨count, cnt_eq, ?_⟩
          rw [handover.members_eq]
          exact handover.pollDone done
  | pollBlocked cnt =>
      rw [position] at ok
      exact handover.pollSleep ok
  | pollAssert cnt =>
      rw [position] at ok
      obtain ⟨count, cnt_eq, done⟩ := ok
      refine ⟨count, cnt_eq, ?_⟩
      rw [handover.members_eq]
      exact handover.pollDone done
  | pollUnregister iter cnt =>
      rw [position] at ok
      obtain ⟨count, total, cnt_eq, at_count, done⟩ := ok
      refine ⟨count, total, cnt_eq, ?_, ?_⟩
      · rw [handover.ring_eq, handover.members_eq]
        exact at_count
      · rw [handover.members_eq]
        exact handover.pollDone done
  | pollReturn =>
      rw [position] at ok
      exact handover.pollDone ok
  | polled sd =>
      rw [position] at ok
      exact handover.returned ok

/-- A step in which the producer neither signals nor takes back a signal. -/
theorem silent
    (same : SameConsumer before after)
    (consWake : after.consWake = before.consWake)
    (pollToken : after.pollToken = before.pollToken)
    (wakeupSd : after.wakeupSd = before.wakeupSd)
    (pollWakes : after.pollWakes = before.pollWakes)
    (isPoll : ∀ j, (after.stream j).isPoll = (before.stream j).isPoll)
    (nSem : ∀ j, (after.stream j).nSem = (before.stream j).nSem)
    (unread : ∀ j, after.unread j = before.unread j)
    (prod : ∀ j, after.prod j = before.prod j ∨
      ((after.prod j).owes = false ∧ (before.prod j).owes = false)) :
    Handover before after := by
  have owes : ∀ j, (after.prod j).owes = (before.prod j).owes := by
    intro j
    rcases prod j with equal | ⟨none, none'⟩
    · rw [equal]
    · rw [none, none']
  have owing : ∀ j, (before.prod j).owes = true → after.prod j = before.prod j := by
    intro j debt
    rcases prod j with equal | ⟨-, none⟩
    · exact equal
    · rw [none] at debt
      exact absurd debt (by decide)
  have onlyDebt : ∀ j, OnlyDebt before j → OnlyDebt after j := by
    intro j only k ne
    rw [owes]
    exact only k ne
  refine ⟨same, ?_, ?_, ?_, ?_, ?_⟩
  · intro j nonempty
    rw [unread]
    exact nonempty
  · rw [pollToken]
    exact id
  · intro registered settled
    refine ⟨⟨?_, ?_, ?_, ?_, ?_⟩, wakeupSd, pollWakes⟩
    · rw [same.cons_eq]
      exact settled.notReading
    · intro j
      rw [owes]
      exact settled.noDebt j
    · rw [consWake]
      exact settled.noWake
    · rw [pollToken]
      exact settled.noToken
    · intro j
      rw [isPoll]
      exact settled.isPoll j
  · intro i waiting
    refine ⟨?_, ?_, ?_, onlyDebt i waiting.onlyDebt, ?_⟩
    · rw [same.cons_eq]
      exact waiting.reading
    · rw [pollToken]
      exact waiting.noToken
    · intro j
      rw [isPoll]
      exact waiting.isPoll j
    · rw [nSem, owes, consWake]
      rcases waiting.signal with none | ⟨released, debt, noWake⟩ | sent
      · exact Or.inl none
      · refine Or.inr (Or.inl ⟨released, ?_, noWake⟩)
        rw [owing i (by rcases debt with debt | debt <;> rw [debt] <;> rfl)]
        exact debt
      · exact Or.inr (Or.inr sent)
  · intro registered waiting
    refine ⟨?_, ?_, ?_, ?_, ?_⟩
    · rw [same.cons_eq]
      exact waiting.notReading
    · rw [same.members_eq]
      exact waiting.subset
    · intro j
      rw [isPoll]
      exact waiting.isPoll j
    · rw [pollWakes, consWake]
      exact waiting.wakes
    · rw [pollToken, consWake, same.members_eq]
      rcases waiting.signal with ⟨token, noDebt, noWake, empty⟩ |
        ⟨taken, i, member, nonempty, only, signal⟩
      · refine Or.inl ⟨token, ?_, noWake, ?_⟩
        · intro j
          rw [owes]
          exact noDebt j
        · intro j registered'
          rw [isPoll, unread]
          exact empty j registered'
      · refine Or.inr ⟨taken, i, member, ?_, onlyDebt i only, ?_⟩
        · rw [unread]
          exact nonempty
        · rw [owes, wakeupSd]
          rcases signal with ⟨took, noWake⟩ | sent
          · refine Or.inl ⟨?_, noWake⟩
            unfold TookToken at took ⊢
            rw [owing i (by
              rcases took with took | took | ⟨took, -⟩ <;> rw [took] <;> rfl),
              wakeupSd]
            exact took
          · exact Or.inr sent

/-- The debts when one producer moves to a position without debt. -/
theorem onlyDebt_of_prod
    {i j : ι}
    {pc : ProdPc}
    (prod : after.prod = Function.update before.prod i pc)
    (only : OnlyDebt before j)
    (free : pc.owes = false ∨ j = i) :
    OnlyDebt after j := by
  intro k ne
  rw [prod]
  by_cases same : k = i
  · subst same
    rw [Function.update_self]
    rcases free with free | equal
    · exact free
    · exact absurd equal.symm ne
  · rw [Function.update_of_ne same]
    exact only k ne

/-- The critical section of a write appends to the unread items. -/
theorem unread_putUnderLock
    {i : ι}
    (item : α)
    (popped : (before.popped i).length ≤ (before.written i).length) :
    (StreamSystem.putUnderLock before i item).unread i =
      before.unread i ++ [item] := by
  simp only [State.unread, StreamSystem.putUnderLock, Function.update_self]
  exact List.drop_append_of_le_length popped

section PutUnderLock

variable {i : ι} {item : α}

theorem unread_putUnderLock_of_ne
    {j : ι}
    (ne : j ≠ i) :
    (StreamSystem.putUnderLock before i item).unread j = before.unread j := by
  simp only [State.unread, StreamSystem.putUnderLock, Function.update_of_ne ne]

theorem prod_putUnderLock_of_ne
    {j : ι}
    (ne : j ≠ i) :
    (StreamSystem.putUnderLock before i item).prod j = before.prod j :=
  Function.update_of_ne ne _ _

/-- A stream with unread items keeps some. -/
theorem grows_putUnderLock
    (popped : (before.popped i).length ≤ (before.written i).length)
    {j : ι}
    (nonempty : before.unread j ≠ []) :
    (StreamSystem.putUnderLock before i item).unread j ≠ [] := by
  by_cases same : j = i
  · subst same
    rw [unread_putUnderLock item popped]
    simp
  · rw [unread_putUnderLock_of_ne same]
    exact nonempty

/-- The stream of the write is not marked any more. -/
theorem isPoll_putUnderLock
    {j : ι}
    (marked : ((StreamSystem.putUnderLock before i item).stream j).isPoll =
      true) :
    j ≠ i ∧ (before.stream j).isPoll = true := by
  by_cases same : j = i
  · subst same
    simp [StreamSystem.putUnderLock] at marked
  · simpa [StreamSystem.putUnderLock, same] using marked

/-- Without a token the producer goes on alone. -/
theorem noToken_putUnderLock
    (token : before.pollToken = false) :
    (StreamSystem.putUnderLock before i item).pollToken = false ∧
      (StreamSystem.putUnderLock before i item).prod =
        Function.update before.prod i (.vN false) := by
  simp [StreamSystem.putUnderLock, token]

/-- A consumer that waits in a read is not yet woken. -/
theorem readWait_putUnderLock
    (putting : before.prod i = .put)
    {j : ι}
    (waiting : ReadWait before j) :
    ReadWait (StreamSystem.putUnderLock before i item) j := by
  obtain ⟨token, prod⟩ := noToken_putUnderLock waiting.noToken
  refine ⟨waiting.reading, token, ?_,
    onlyDebt_of_prod prod waiting.onlyDebt (Or.inl rfl), ?_⟩
  · intro k
    by_contra marked
    have before' := (isPoll_putUnderLock (by simpa using marked)).2
    rw [waiting.isPoll k] at before'
    exact absurd before' (by decide)
  · have signal := waiting.signal
    by_cases same : j = i
    · subst same
      rw [prod]
      simpa [StreamSystem.putUnderLock, putting, ProdPc.owes] using signal
    · rw [prod_putUnderLock_of_ne same]
      simpa [StreamSystem.putUnderLock, same] using signal

/-- The token of a poll is taken if the stream is marked. -/
theorem pollWait_of_token
    (popped : (before.popped i).length ≤ (before.written i).length)
    {registered : List ι}
    (waiting : PollWait before registered)
    (token : before.pollToken = true)
    (noDebt : NoDebt before)
    (noWake : before.consWake = 0)
    (empty : ∀ j ∈ registered, (before.stream j).isPoll = true ∧
      before.unread j = []) :
    PollWait (StreamSystem.putUnderLock before i item) registered := by
  refine ⟨waiting.notReading, waiting.subset,
    fun j marked => waiting.isPoll j (isPoll_putUnderLock marked).2,
    waiting.wakes, ?_⟩
  cases marked : (before.stream i).isPoll with
  | true =>
      refine Or.inr ⟨?_, i, waiting.subset i (waiting.isPoll i marked),
        ?_, ?_, Or.inl ⟨Or.inl ?_, noWake⟩⟩
      · simp [StreamSystem.putUnderLock, marked]
      · rw [unread_putUnderLock item popped]
        simp
      · intro j ne
        rw [prod_putUnderLock_of_ne ne]
        exact noDebt j
      · simp [StreamSystem.putUnderLock, marked, token]
  | false =>
      refine Or.inl ⟨?_, ?_, noWake, ?_⟩
      · simp [StreamSystem.putUnderLock, marked, token]
      · intro j
        by_cases same : j = i
        · subst same
          simp [StreamSystem.putUnderLock, marked, ProdPc.owes]
        · rw [prod_putUnderLock_of_ne same]
          exact noDebt j
      · intro j registered'
        obtain ⟨polled, none⟩ := empty j registered'
        have ne : j ≠ i := by
          rintro rfl
          rw [marked] at polled
          exact absurd polled (by decide)
        rw [unread_putUnderLock_of_ne ne]
        refine ⟨?_, none⟩
        simpa [StreamSystem.putUnderLock, ne] using polled

theorem pollWait_putUnderLock
    (putting : before.prod i = .put)
    (popped : (before.popped i).length ≤ (before.written i).length)
    {registered : List ι}
    (waiting : PollWait before registered) :
    PollWait (StreamSystem.putUnderLock before i item) registered := by
  rcases waiting.signal with ⟨token, noDebt, noWake, empty⟩ |
    ⟨taken, j, member, nonempty, only, signal⟩
  · exact pollWait_of_token popped waiting token noDebt noWake empty
  · obtain ⟨token, prod⟩ := noToken_putUnderLock taken
    refine ⟨waiting.notReading, waiting.subset,
      fun j marked => waiting.isPoll j (isPoll_putUnderLock marked).2,
      waiting.wakes, ?_⟩
    refine Or.inr ⟨token, j, member, grows_putUnderLock popped nonempty,
      onlyDebt_of_prod prod only (Or.inl rfl), ?_⟩
    rcases signal with ⟨took, noWake⟩ | ⟨free, sent⟩
    · have ne : j ≠ i := by
        rintro rfl
        simp [TookToken, putting] at took
      refine Or.inl ⟨?_, noWake⟩
      unfold TookToken at took ⊢
      rw [prod_putUnderLock_of_ne ne]
      exact took
    · refine Or.inr ⟨?_, sent⟩
      rw [prod]
      by_cases same : j = i
      · subst same
        rw [Function.update_self]
        rfl
      · rw [Function.update_of_ne same]
        exact free

/-- The critical section of a write takes the poll token if it is there. -/
theorem putUnderLock
    (putting : before.prod i = .put)
    (popped : (before.popped i).length ≤ (before.written i).length) :
    Handover before (putUnderLock before i item) := by
  refine ⟨SameConsumer.ofState, fun _ => grows_putUnderLock popped, ?_, ?_,
    fun _ => readWait_putUnderLock putting,
    fun _ => pollWait_putUnderLock putting popped⟩
  · simp only [StreamSystem.putUnderLock]
    split
    · intro impossible
      exact absurd impossible (by decide)
    · exact id
  · intro registered settled
    obtain ⟨token, prod⟩ := noToken_putUnderLock settled.noToken
    refine ⟨⟨settled.notReading, ?_, settled.noWake, token, ?_⟩, rfl, rfl⟩
    · intro j
      rw [prod]
      by_cases same : j = i
      · subst same
        rw [Function.update_self]
        rfl
      · rw [Function.update_of_ne same]
        exact settled.noDebt j
    · intro j marked
      exact settled.isPoll j (isPoll_putUnderLock marked).2

end PutUnderLock

/-- Only the producer that releases an item moves. -/
theorem prod_releaseItem (i : ι) (pollWakeup : Bool) :
    (StreamSystem.releaseItem before i pollWakeup).prod =
      Function.update before.prod i
        ((StreamSystem.releaseItem before i pollWakeup).prod i) := by
  simp only [StreamSystem.releaseItem, Function.update_self]

theorem isPoll_releaseItem (i j : ι) (pollWakeup : Bool) :
    ((StreamSystem.releaseItem before i pollWakeup).stream j).isPoll =
      (before.stream j).isPoll := by
  by_cases same : j = i
  · subst same
    simp [StreamSystem.releaseItem]
  · simp [StreamSystem.releaseItem, same]

section ReleaseItem

variable {i : ι} {pollWakeup : Bool}

theorem pollWakeup_of_owes
    (noDebt : (ProdPc.vN pollWakeup).owes = false) :
    pollWakeup = false := by
  cases pollWakeup with
  | true => exact absurd noDebt (by simp [ProdPc.owes])
  | false => rfl

/-- Where the producer goes on when the consumer does not wait. -/
theorem prod_releaseItem_self
    (nLow : 0 ≤ (before.stream i).nSem ∨
      ((before.stream i).nSem = -1 ∧ before.cons.role i = .waiting))
    (notWaiting : before.cons.role i ≠ .waiting) :
    (StreamSystem.releaseItem before i pollWakeup).prod i =
      if pollWakeup then .lookupPoll else .idle := by
  have released : 0 ≤ (before.stream i).nSem := by
    rcases nLow with low | ⟨-, waiting⟩
    · exact low
    · exact absurd waiting notWaiting
  simp only [StreamSystem.releaseItem, Function.update_self]
  rw [if_neg (by omega)]

/-- A producer that owes no wakeup owes none after the release either. -/
theorem owes_releaseItem
    (releasing : before.prod i = .vN pollWakeup)
    (nLow : 0 ≤ (before.stream i).nSem ∨
      ((before.stream i).nSem = -1 ∧ before.cons.role i = .waiting))
    (notWaiting : before.cons.role i ≠ .waiting)
    (noDebt : (before.prod i).owes = false) :
    ((StreamSystem.releaseItem before i pollWakeup).prod i).owes = false := by
  rw [releasing] at noDebt
  rw [prod_releaseItem_self nLow notWaiting, pollWakeup_of_owes noDebt]
  rfl

/-- A consumer that waits in a read gets its item, or is not concerned. -/
theorem readWait_releaseItem
    (releasing : before.prod i = .vN pollWakeup)
    (nLow : 0 ≤ (before.stream i).nSem ∨
      ((before.stream i).nSem = -1 ∧ before.cons.role i = .waiting))
    {j : ι}
    (waiting : ReadWait before j) :
    ReadWait (StreamSystem.releaseItem before i pollWakeup) j := by
  have isPoll : ∀ k,
      ((StreamSystem.releaseItem before i pollWakeup).stream k).isPoll =
        false := by
    intro k
    rw [isPoll_releaseItem]
    exact waiting.isPoll k
  by_cases same : j = i
  · subst same
    refine ⟨waiting.reading, waiting.noToken, isPoll,
      onlyDebt_of_prod (prod_releaseItem j pollWakeup) waiting.onlyDebt
        (Or.inr rfl), ?_⟩
    rcases waiting.signal with ⟨none, noDebt, noWake⟩ |
      ⟨-, debt, -⟩ | ⟨released, noDebt, sent⟩
    · refine Or.inr (Or.inl ⟨?_, Or.inl ?_, noWake⟩)
      · simp [StreamSystem.releaseItem, none]
      · simp [StreamSystem.releaseItem, none]
    · simp [releasing] at debt
    · refine Or.inr (Or.inr ⟨?_, ?_, sent⟩)
      · simp only [StreamSystem.releaseItem, Function.update_self]
        omega
      · rw [releasing] at noDebt
        simp only [StreamSystem.releaseItem, Function.update_self]
        rw [if_neg (by omega), pollWakeup_of_owes noDebt]
        rfl
  · have notWaiting : before.cons.role i ≠ .waiting := by
      intro role
      exact same ((waiting.reading i).mp role).symm
    have free := owes_releaseItem releasing nLow notWaiting
      (waiting.onlyDebt i (Ne.symm same))
    refine ⟨waiting.reading, waiting.noToken, isPoll,
      onlyDebt_of_prod (prod_releaseItem i pollWakeup) waiting.onlyDebt
        (Or.inl free), ?_⟩
    rw [prod_releaseItem, Function.update_of_ne same]
    have signal := waiting.signal
    simpa [StreamSystem.releaseItem, same] using signal

/-- A poll is not concerned, but for the producer that has taken its token. -/
theorem pollWait_releaseItem
    (releasing : before.prod i = .vN pollWakeup)
    (nLow : 0 ≤ (before.stream i).nSem ∨
      ((before.stream i).nSem = -1 ∧ before.cons.role i = .waiting))
    {registered : List ι}
    (waiting : PollWait before registered) :
    PollWait (StreamSystem.releaseItem before i pollWakeup) registered := by
  have notWaiting := waiting.notReading i
  refine ⟨waiting.notReading, waiting.subset, ?_, waiting.wakes, ?_⟩
  · intro j
    rw [isPoll_releaseItem]
    exact waiting.isPoll j
  · rcases waiting.signal with ⟨token, noDebt, noWake, empty⟩ |
      ⟨taken, j, member, nonempty, only, signal⟩
    · refine Or.inl ⟨token, ?_, noWake, ?_⟩
      · intro j
        by_cases same : j = i
        · subst same
          exact owes_releaseItem releasing nLow notWaiting (noDebt j)
        · rw [prod_releaseItem, Function.update_of_ne same]
          exact noDebt j
      · intro j registered'
        rw [isPoll_releaseItem]
        exact empty j registered'
    · by_cases same : j = i
      · subst same
        refine Or.inr ⟨taken, j, member, nonempty,
          onlyDebt_of_prod (prod_releaseItem j pollWakeup) only (Or.inr rfl), ?_⟩
        rcases signal with ⟨took, noWake⟩ | ⟨noDebt, sent⟩
        · have wakeup : pollWakeup = true := by
            simpa [TookToken, releasing] using took
          refine Or.inl ⟨Or.inr (Or.inl ?_), noWake⟩
          rw [prod_releaseItem_self nLow notWaiting, wakeup]
          rfl
        · exact Or.inr
            ⟨owes_releaseItem releasing nLow notWaiting noDebt, sent⟩
      · have free := owes_releaseItem releasing nLow notWaiting
          (only i (Ne.symm same))
        refine Or.inr ⟨taken, j, member, nonempty,
          onlyDebt_of_prod (prod_releaseItem i pollWakeup) only (Or.inl free),
          ?_⟩
        unfold TookToken at signal ⊢
        rw [prod_releaseItem, Function.update_of_ne same]
        exact signal

/-- V on `n_sem` finds out whether the consumer waits for the item. -/
theorem releaseItem
    (releasing : before.prod i = .vN pollWakeup)
    (nLow : 0 ≤ (before.stream i).nSem ∨
      ((before.stream i).nSem = -1 ∧ before.cons.role i = .waiting)) :
    Handover before (releaseItem before i pollWakeup) := by
  refine ⟨SameConsumer.ofState, fun _ => id, id, ?_,
    fun _ => readWait_releaseItem releasing nLow,
    fun _ => pollWait_releaseItem releasing nLow⟩
  intro registered settled
  refine ⟨⟨settled.notReading, ?_, settled.noWake, settled.noToken, ?_⟩,
    rfl, rfl⟩
  · intro j
    by_cases same : j = i
    · subst same
      exact owes_releaseItem releasing nLow (settled.notReading j)
        (settled.noDebt j)
    · rw [prod_releaseItem, Function.update_of_ne same]
      exact settled.noDebt j
  · intro j
    rw [isPoll_releaseItem]
    exact settled.isPoll j

end ReleaseItem

/-- The lookup of the consumer for a wakeup from a read. -/
theorem lookup
    {i : ι}
    (looking : before.prod i = .lookup) :
    Handover before
      { before with prod := Function.update before.prod i (.unblock false) } := by
  have owes : (before.prod i).owes = true := by
    rw [looking]
    rfl
  refine ⟨SameConsumer.ofState, fun _ => id, id,
    ?_, ?_, ?_⟩
  · intro registered settled
    exact (settled.noDebt.not_owes owes).elim
  · intro j waiting
    obtain rfl := waiting.onlyDebt.eq_of_owes owes
    refine ⟨waiting.reading, waiting.noToken, waiting.isPoll,
      onlyDebt_of_prod rfl waiting.onlyDebt (Or.inr rfl), ?_⟩
    have signal := waiting.signal
    simpa [looking, ProdPc.owes] using signal
  · intro registered waiting
    exfalso
    rcases waiting.signal with ⟨-, noDebt, -⟩ | ⟨-, j, -, -, only, signal⟩
    · exact (noDebt.not_owes owes).elim
    · obtain rfl := only.eq_of_owes owes
      rcases signal with ⟨took, -⟩ | ⟨noDebt, -⟩
      · simp [TookToken, looking] at took
      · exact absurd owes (by simp [noDebt])

/-- The lookup of the consumer for a wakeup from a poll. -/
theorem lookupPoll
    {i : ι}
    (looking : before.prod i = .lookupPoll) :
    Handover before
      { before with
        wakeupSd := some i
        prod := Function.update before.prod i (.unblock true) } := by
  have owes : (before.prod i).owes = true := by
    rw [looking]
    rfl
  refine ⟨SameConsumer.ofState, fun _ => id, id,
    ?_, ?_, ?_⟩
  · intro registered settled
    exact (settled.noDebt.not_owes owes).elim
  · intro j waiting
    obtain rfl := waiting.onlyDebt.eq_of_owes owes
    have signal := waiting.signal
    simp [looking, ProdPc.owes] at signal
  · intro registered waiting
    refine ⟨waiting.notReading, waiting.subset, waiting.isPoll,
      waiting.wakes, ?_⟩
    rcases waiting.signal with ⟨-, noDebt, -⟩ |
      ⟨taken, j, member, nonempty, only, signal⟩
    · exact (noDebt.not_owes owes).elim
    · obtain rfl := only.eq_of_owes owes
      rcases signal with ⟨-, noWake⟩ | ⟨noDebt, -⟩
      · refine Or.inr ⟨taken, j, member, nonempty,
          onlyDebt_of_prod rfl only (Or.inr rfl),
          Or.inl ⟨Or.inr (Or.inr ⟨?_, rfl⟩), noWake⟩⟩
        exact Function.update_self _ _ _
      · exact absurd owes (by simp [noDebt])

/-- `LpelTaskUnblock` of a consumer that waits in a read. -/
theorem unblockReader
    {i : ι}
    (unblocking : before.prod i = .unblock false) :
    Handover before
      { before with
        consWake := before.consWake + 1
        readUnblocks := Function.update before.readUnblocks i
          (before.readUnblocks i + 1)
        prod := Function.update before.prod i .idle } := by
  have owes : (before.prod i).owes = true := by
    rw [unblocking]
    rfl
  refine ⟨SameConsumer.ofState, fun _ => id, id,
    ?_, ?_, ?_⟩
  · intro registered settled
    exact (settled.noDebt.not_owes owes).elim
  · intro j waiting
    obtain rfl := waiting.onlyDebt.eq_of_owes owes
    refine ⟨waiting.reading, waiting.noToken, waiting.isPoll,
      onlyDebt_of_prod rfl waiting.onlyDebt (Or.inr rfl), ?_⟩
    have signal := waiting.signal
    simp only [unblocking, ProdPc.owes] at signal
    simp at signal
    simp [signal, ProdPc.owes]
  · intro registered waiting
    exfalso
    rcases waiting.signal with ⟨-, noDebt, -⟩ | ⟨-, j, -, -, only, signal⟩
    · exact (noDebt.not_owes owes).elim
    · obtain rfl := only.eq_of_owes owes
      rcases signal with ⟨took, -⟩ | ⟨noDebt, -⟩
      · simp [TookToken, unblocking] at took
      · exact absurd owes (by simp [noDebt])

/-- `LpelTaskUnblock` of a consumer that waits in a poll. -/
theorem unblockPoller
    {i : ι}
    (unblocking : before.prod i = .unblock true) :
    Handover before
      { before with
        consWake := before.consWake + 1
        pollWakes := before.pollWakes + 1
        prod := Function.update before.prod i .idle } := by
  have owes : (before.prod i).owes = true := by
    rw [unblocking]
    rfl
  refine ⟨SameConsumer.ofState, fun _ => id, id,
    ?_, ?_, ?_⟩
  · intro registered settled
    exact (settled.noDebt.not_owes owes).elim
  · intro j waiting
    obtain rfl := waiting.onlyDebt.eq_of_owes owes
    have signal := waiting.signal
    simp [unblocking, ProdPc.owes] at signal
  · intro registered waiting
    refine ⟨waiting.notReading, waiting.subset, waiting.isPoll, ?_, ?_⟩
    · simp [waiting.wakes]
    rcases waiting.signal with ⟨-, noDebt, -⟩ |
      ⟨taken, j, member, nonempty, only, signal⟩
    · exact (noDebt.not_owes owes).elim
    · obtain rfl := only.eq_of_owes owes
      rcases signal with ⟨took, noWake⟩ | ⟨noDebt, -⟩
      · have wakeup : before.wakeupSd = some j := by
          simpa [TookToken, unblocking] using took
        refine Or.inr ⟨taken, j, member, nonempty,
          onlyDebt_of_prod rfl only (Or.inr rfl), Or.inr ⟨?_, ?_, wakeup⟩⟩
        · simp [ProdPc.owes]
        · simp [noWake]
      · exact absurd owes (by simp [noDebt])

end Handover

/-- A field of a stream that an update keeps is kept in all streams. -/
theorem apply_update_stream
    {β γ : Type}
    {stream : ι → β}
    {i : ι}
    {changed : β}
    (field : β → γ)
    (kept : field changed = field (stream i))
    (j : ι) :
    field (Function.update stream i changed j) = field (stream j) := by
  by_cases same : j = i
  · subst same
    rw [Function.update_self, kept]
  · rw [Function.update_of_ne same]

/-- Moving one producer between positions without debt. -/
theorem silent_update_prod
    {prod : ι → ProdPc}
    {i : ι}
    {pc : ProdPc}
    (free : (prod i).owes = false)
    (free' : pc.owes = false)
    (j : ι) :
    Function.update prod i pc j = prod j ∨
      ((Function.update prod i pc j).owes = false ∧ (prod j).owes = false) := by
  by_cases same : j = i
  · subst same
    rw [Function.update_self]
    exact Or.inr ⟨free', free⟩
  · rw [Function.update_of_ne same]
    exact Or.inl rfl

namespace Invariant

variable {before after : State config}

/-- The items popped from a stream have been put into it. -/
theorem popped_le
    (invariant : Invariant before)
    (i : ι) :
    (before.popped i).length ≤ (before.written i).length := by
  have fifo := (invariant.streams i).fifo
  simp only [State.view] at fifo
  rw [fifo, List.length_append]
  omega

/-- A stream whose producer has work to do has not been destroyed. -/
theorem streamLive_of_busy
    (invariant : Invariant before)
    {i : ι}
    (busy : (before.prod i ≠ .idle ∧ before.prod i ≠ .closed) ∨
      (before.written i).length < (config.script i).length) :
    before.streamLive i = true := by
  by_contra dead
  obtain ⟨stopped, complete⟩ :=
    (invariant.live i).released (by simpa using dead)
  rcases busy with ⟨notIdle, notClosed⟩ | more
  · rcases stopped with idle | closed
    · exact notIdle idle
    · exact notClosed closed
  · omega

/-- A step of one producer that stays open, put together from its parts. -/
theorem producer
    (invariant : Invariant before)
    (i : ι)
    (pc : ProdPc)
    (handover : Handover before after)
    (prod : after.prod = Function.update before.prod i pc)
    (stays : pc ≠ .closed)
    (busy : (before.prod i ≠ .idle ∧ before.prod i ≠ .closed) ∨
      (before.prod i = .idle ∧
        (before.written i).length < (config.script i).length))
    (prodSdLive : after.prodSdLive = before.prodSdLive)
    (stream : StreamOk config i (after.view i))
    (others : ∀ j, j ≠ i → after.view j = before.view j)
    (readCount : ∀ j, after.readBlocks j = after.readUnblocks j +
      if after.cons.role j = .waiting ∧ after.consWake = 0 then 1 else 0) :
    Invariant after where
  streams := by
    intro j
    by_cases same : j = i
    · subst same
      exact stream
    · rw [others j same]
      exact invariant.streams j
  cons := handover.consOk invariant.cons
  ring := by
    rw [handover.ring_eq, handover.members_eq]
    exact invariant.ring
  readCount := readCount
  live := by
    intro j
    have live := invariant.live j
    by_cases same : j = i
    · subst same
      have alive : before.streamLive j = true := by
        apply invariant.streamLive_of_busy
        rcases busy with moving | ⟨-, more⟩
        · exact Or.inl moving
        · exact Or.inr more
      have open' : before.prod j ≠ .closed := by
        rcases busy with moving | ⟨idle, -⟩
        · exact moving.2
        · simp [idle]
      refine ⟨?_, ?_, ?_, ?_⟩
      · rw [handover.consSdLive_eq, handover.streamLive_eq, live.cons_eq]
      · rw [prodSdLive, prod, Function.update_self, live.prod_iff]
        simp [open', stays]
      · rw [handover.streamLive_eq, alive]
        simp
      · rw [handover.cons_eq, handover.consSdLive_eq]
        exact live.used
    · have written : after.written j = before.written j :=
        congrArg View.written (others j same)
      refine ⟨?_, ?_, ?_, ?_⟩
      · rw [handover.consSdLive_eq, handover.streamLive_eq, live.cons_eq]
      · rw [prodSdLive, prod, Function.update_of_ne same, live.prod_iff]
      · rw [handover.streamLive_eq, prod, Function.update_of_ne same, written]
        exact live.released
      · rw [handover.cons_eq, handover.consSdLive_eq]
        exact live.used

/-- `LpelStreamWrite` up to its P operation keeps the invariant. -/
theorem lpelStreamWrite
    (invariant : Invariant before)
    {i : ι}
    (taken : lpelStreamWrite before i = some after) :
    Invariant after := by
  have ok := invariant.streams i
  unfold StreamSystem.lpelStreamWrite at taken
  split at taken
  case isFalse => exact absurd taken (by simp)
  case isTrue enabled =>
    obtain ⟨idle, more⟩ := enabled
    have owes : (before.prod i).owes = false := by
      rw [idle]
      rfl
    split at taken
    case isTrue bounded =>
      dsimp only at taken
      split at taken
      case isTrue full =>
        obtain rfl := Option.some.inj taken
        refine invariant.producer i .toBlock ?_ rfl (by simp)
          (Or.inr ⟨idle, more⟩) rfl ?_ ?_ invariant.readCount
        · refine Handover.silent SameConsumer.ofState
            rfl rfl rfl rfl ?_ ?_ (fun _ => rfl) ?_
          · exact apply_update_stream _ rfl
          · exact apply_update_stream _ rfl
          · exact silent_update_prod owes rfl
        · have := ok.reserveFull idle more bounded full
          simpa [State.view, State.unread] using this
        · intro j ne
          simp [State.view, State.unread, ne]
      case isFalse free =>
        obtain rfl := Option.some.inj taken
        refine invariant.producer i .put ?_ rfl (by simp)
          (Or.inr ⟨idle, more⟩) rfl ?_ ?_ invariant.readCount
        · refine Handover.silent SameConsumer.ofState
            rfl rfl rfl rfl ?_ ?_ (fun _ => rfl) ?_
          · exact apply_update_stream _ rfl
          · exact apply_update_stream _ rfl
          · exact silent_update_prod owes rfl
        · have := ok.reserveCell idle more bounded free
          simpa [State.view, State.unread] using this
        · intro j ne
          simp [State.view, State.unread, ne]
    case isFalse unbounded =>
      obtain rfl := Option.some.inj taken
      refine invariant.producer i .put ?_ rfl (by simp)
        (Or.inr ⟨idle, more⟩) rfl ?_ ?_ invariant.readCount
      · exact Handover.silent SameConsumer.ofState
          rfl rfl rfl rfl (fun _ => rfl) (fun _ => rfl) (fun _ => rfl)
          (silent_update_prod owes rfl)
      · have := ok.reserveNothing idle more (by simpa using unbounded)
        simpa [State.view, State.unread] using this
      · intro j ne
        simp [State.view, State.unread, ne]

/-- Every later step of `LpelStreamWrite` keeps the invariant. -/
theorem prodStep
    (invariant : Invariant before)
    {i : ι}
    (taken : prodStep before i = some after) :
    Invariant after := by
  have ok := invariant.streams i
  unfold StreamSystem.prodStep at taken
  cases position : before.prod i with
  | idle | blocked | closed => simp [position] at taken
  | toBlock =>
      simp only [position, Option.some.injEq] at taken
      subst taken
      refine invariant.producer i .blocked ?_ rfl (by simp)
        (Or.inl (by simp [position])) rfl ?_ ?_ invariant.readCount
      · exact Handover.silent SameConsumer.ofState
          rfl rfl rfl rfl (fun _ => rfl) (fun _ => rfl) (fun _ => rfl)
          (silent_update_prod (by rw [position]; rfl) rfl)
      · have kept := ok.relabel .blocked
          (by simp [State.view, position, ProdPc.waits])
          (by simp [State.view, position, ProdPc.reserved])
          (by simp [State.view, position, ProdPc.unreleased]) rfl rfl rfl
        simpa [State.view, State.unread] using kept
      · intro j ne
        simp [State.view, State.unread, ne]
  | put =>
      simp only [position, Option.map_eq_some_iff] at taken
      obtain ⟨item, nextItem, rfl⟩ := taken
      have popped := invariant.popped_le i
      refine invariant.producer i _ (Handover.putUnderLock position popped) rfl
        (by simp) (Or.inl (by simp [position])) rfl ?_ ?_ invariant.readCount
      · have put := ok.put position nextItem
          ((before.stream i).isPoll && before.pollToken) false
        have unread := Handover.unread_putUnderLock item popped
        simp only [State.view, unread]
        simpa [State.view, StreamSystem.putUnderLock] using put
      · intro j ne
        simp [State.view, State.unread, StreamSystem.putUnderLock, ne]
  | vN pollWakeup =>
      simp only [position, Option.some.injEq] at taken
      subst taken
      refine invariant.producer i _
        (Handover.releaseItem position ok.nLow) rfl ?_
        (Or.inl (by simp [position])) rfl ?_ ?_ invariant.readCount
      · split
        · simp
        · split <;> simp
      · have released := ok.releaseItem position
          (if (before.stream i).nSem < 0 then .lookup
            else if pollWakeup then .lookupPoll else .idle)
          (by split; rfl; split <;> rfl) (by split; rfl; split <;> rfl)
          (by split; rfl; split <;> rfl)
        simpa [State.view, State.unread, StreamSystem.releaseItem] using released
      · intro j ne
        simp [State.view, State.unread, StreamSystem.releaseItem, ne]
  | lookup =>
      simp only [position, Option.some.injEq] at taken
      subst taken
      refine invariant.producer i _ (Handover.lookup position) rfl (by simp)
        (Or.inl (by simp [position])) rfl ?_ ?_ invariant.readCount
      · have kept := ok.relabel (.unblock false)
          (by simp [State.view, position, ProdPc.waits])
          (by simp [State.view, position, ProdPc.reserved])
          (by simp [State.view, position, ProdPc.unreleased]) rfl rfl rfl
        simpa [State.view, State.unread] using kept
      · intro j ne
        simp [State.view, State.unread, ne]
  | lookupPoll =>
      simp only [position, Option.some.injEq] at taken
      subst taken
      refine invariant.producer i _ (Handover.lookupPoll position) rfl (by simp)
        (Or.inl (by simp [position])) rfl ?_ ?_ invariant.readCount
      · have kept := ok.relabel (.unblock true)
          (by simp [State.view, position, ProdPc.waits])
          (by simp [State.view, position, ProdPc.reserved])
          (by simp [State.view, position, ProdPc.unreleased]) rfl rfl rfl
        simpa [State.view, State.unread] using kept
      · intro j ne
        simp [State.view, State.unread, ne]
  | unblock pollWakeup =>
      have owes : (before.prod i).owes = true := by
        rw [position]
        rfl
      have kept := ok.relabel .idle
          (by simp [State.view, position, ProdPc.waits])
        (by simp [State.view, position, ProdPc.reserved])
        (by simp [State.view, position, ProdPc.unreleased]) rfl rfl rfl
      cases pollWakeup with
      | true =>
          simp only [position, Option.some.injEq] at taken
          subst taken
          refine invariant.producer i _ (Handover.unblockPoller position) rfl
            (by simp) (Or.inl (by simp [position])) rfl ?_ ?_ ?_
          · simpa [State.view, State.unread] using kept
          · intro j ne
            simp [State.view, State.unread, ne]
          · intro j
            have notReading : before.cons.role j ≠ .waiting := by
              rcases invariant.cons.situation with ⟨_, settled⟩ |
                ⟨_, -, waiting⟩ | ⟨-, _, waiting⟩
              · exact settled.notReading j
              · have debtor := (waiting.debtor_of_owes owes).2.1
                simp [position] at debtor
              · exact waiting.notReading j
            have readCount := invariant.readCount j
            simp only [notReading, false_and, if_false] at readCount ⊢
            exact readCount
      | false =>
          simp only [position, Option.some.injEq] at taken
          subst taken
          refine invariant.producer i _ (Handover.unblockReader position) rfl
            (by simp) (Or.inl (by simp [position])) rfl ?_ ?_ ?_
          · simpa [State.view, State.unread] using kept
          · intro j ne
            simp [State.view, State.unread, ne]
          · intro j
            rcases invariant.cons.situation with ⟨_, settled⟩ |
              ⟨_, -, waiting⟩ | ⟨-, _, waiting⟩
            · exact (settled.noDebt.not_owes owes).elim
            · obtain ⟨same, -, noWake⟩ := waiting.debtor_of_owes owes
              rw [same] at waiting
              have readCount := invariant.readCount j
              simp only [waiting.reading j, noWake] at readCount ⊢
              by_cases reader : j = i
              · subst reader
                simpa using readCount
              · simpa [reader] using readCount
            · have took := (waiting.tookToken_of_owes owes).1
              simp [TookToken, position] at took

/-- Delivering a wakeup to a producer keeps the invariant. -/
theorem resumeProd
    (invariant : Invariant before)
    {i : ι}
    (taken : resumeProd before i = some after) :
    Invariant after := by
  unfold StreamSystem.resumeProd at taken
  split at taken
  case isFalse => exact absurd taken (by simp)
  case isTrue enabled =>
    obtain ⟨blocked, woken⟩ := enabled
    obtain rfl := Option.some.inj taken
    refine invariant.producer i .put ?_ rfl (by simp)
      (Or.inl (by simp [blocked])) rfl ?_ ?_ invariant.readCount
    · exact Handover.silent SameConsumer.ofState
        rfl rfl rfl rfl (fun _ => rfl) (fun _ => rfl) (fun _ => rfl)
        (silent_update_prod (by rw [blocked]; rfl) rfl)
    · have resumed := (invariant.streams i).resume blocked woken
      simpa [State.view, State.unread] using resumed
    · intro j ne
      simp [State.view, State.unread, ne]

/-- Closing a descriptor after the last write keeps the invariant. -/
theorem closeOut
    (invariant : Invariant before)
    {i : ι}
    (taken : closeOut before i = some after) :
    Invariant after := by
  unfold StreamSystem.closeOut at taken
  split at taken
  case isFalse => exact absurd taken (by simp)
  case isTrue enabled =>
    obtain ⟨idle, complete⟩ := enabled
    obtain rfl := Option.some.inj taken
    have handover : Handover before
        { before with
          prod := Function.update before.prod i .closed
          prodSdLive := Function.update before.prodSdLive i false } :=
      Handover.silent SameConsumer.ofState
        rfl rfl rfl rfl (fun _ => rfl) (fun _ => rfl) (fun _ => rfl)
        (silent_update_prod (by rw [idle]; rfl) rfl)
    refine ⟨?_, handover.consOk invariant.cons, invariant.ring,
      invariant.readCount, ?_⟩
    · intro j
      by_cases same : j = i
      · subst same
        have kept := (invariant.streams j).relabel .closed
          (by simp [State.view, idle, ProdPc.waits])
          (by simp [State.view, idle, ProdPc.reserved])
          (by simp [State.view, idle, ProdPc.unreleased]) rfl rfl rfl
        simpa [State.view, State.unread] using kept
      · have kept := invariant.streams j
        simpa [State.view, State.unread, same] using kept
    · intro j
      have live := invariant.live j
      refine ⟨live.cons_eq, ?_, ?_, live.used⟩
      · by_cases same : j = i
        · subst same
          simp
        · simpa [same] using live.prod_iff
      · by_cases same : j = i
        · subst same
          simp [complete]
        · simpa [same] using live.released

end Invariant

end StreamSystem
end Lpel
