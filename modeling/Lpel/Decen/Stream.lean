import Lpel.Decen.Buffer
import Lpel.Stream.Safety

/-!
# Streams of the decentralised back end

Every stream is bounded by its ring buffer, and both semaphores are used on all
of them.  The two results are the correctness of the bounded protocol between a
producer and its consumer, and the safety of tearing a stream down.
-/

namespace Lpel
namespace Decen

open StreamSystem

variable {ι α : Type} [DecidableEq ι]

/-- The streams of one consumer task in the decentralised back end. -/
def streams (size : ι → StreamSize) (script : ι → List α) : Config ι α where
  impl := ringBuffer α
  size := size
  bounded := fun _ => true
  finite_bounded := fun _ _ => rfl
  script := script

variable {size : ι → StreamSize} {script : ι → List α}

/-- A wakeup of the reading consumer is pending: the producer has released an
item and found it waiting, or the wakeup is not yet delivered. -/
def ReaderWakeupPending (state : State (streams size script)) (i : ι) : Prop :=
  0 < state.consWake ∨ state.prod i = .lookup ∨ state.prod i = .unblock false

/-- A wakeup of the producer is pending. -/
def WriterWakeupPending (state : State (streams size script)) (i : ι) : Prop :=
  0 < state.prodWake i ∨ state.cons = .readLookup i ∨
    state.cons = .readUnblock i

/-- The producer has committed to block in a write to the stream. -/
def WriterWaits (state : State (streams size script)) (i : ι) : Prop :=
  state.prod i = .toBlock ∨ state.prod i = .blocked

/-- What the bounded protocol guarantees for one stream in every state. -/
structure BoundedStream (state : State (streams size script)) (i : ι) : Prop where
  nSem_range : -1 ≤ (state.stream i).nSem ∧ (state.stream i).nSem ≤ (size i).val
  eSem_range : -1 ≤ (state.stream i).eSem ∧ (state.stream i).eSem ≤ (size i).val
  /-- The assertion before the put. -/
  space : state.prod i = .put →
    lpelBufferIsSpace (state.stream i).buffer = true
  /-- The assertion after the top. -/
  item : state.cons = .readTop i →
    lpelBufferTop (state.stream i).buffer ≠ none
  /-- The items read are a prefix of the items written. -/
  fifo : state.popped i <+: state.written i ∧ state.written i <+: script i
  /-- Each block of the producer but the one still waiting for it has had its one
  `LpelTaskUnblock`. -/
  writerWakeups : state.prodBlocks i = state.prodUnblocks i +
    if (state.prod i).waits = true ∧ state.prodWake i = 0 then 1 else 0
  writerWoken : 0 < state.prodWake i → state.prodWake i = 1 ∧ WriterWaits state i
  /-- The same for the consumer. -/
  readerWakeups : state.readBlocks i = state.readUnblocks i +
    if state.cons.role i = .waiting ∧ state.consWake = 0 then 1 else 0
  readerWoken : 0 < state.consWake → state.consWake = 1 ∧
    ((∃ j, state.cons.readWaits j) ∨ state.cons.pollWaits = true)
  /-- No wakeup is lost. -/
  readerSignalled : state.cons.readWaits i → 0 ≤ (state.stream i).nSem →
    ReaderWakeupPending state i
  writerSignalled : WriterWaits state i → 0 ≤ (state.stream i).eSem →
    WriterWakeupPending state i
  /-- The two sides never wait for each other. -/
  noDeadlock : state.cons.readWaits i → WriterWaits state i →
    ReaderWakeupPending state i ∨ WriterWakeupPending state i

omit [DecidableEq ι] in
/-- A producer waits exactly between its failed P operation and its wakeup. -/
theorem writerWaits_iff
    {state : State (streams size script)}
    {i : ι} :
    WriterWaits state i ↔ (state.prod i).waits = true := by
  unfold WriterWaits
  cases state.prod i <;> simp [ProdPc.waits]

/-- The bounded protocol is correct for every stream in every interleaving. -/
theorem boundedStreamProtocol
    {size : ι → StreamSize}
    {script : ι → List α}
    {state : State (streams size script)}
    (reached : (machine (streams size script)).Reachable state)
    (i : ι) :
    BoundedStream state i := by
  have invariant := Invariant.ofReachable reached
  have ok := invariant.streams i
  have reader : state.cons.readWaits i →
      state.cons.role i = .waiting ∧
        ((state.stream i).nSem = -1 ∨ ReaderWakeupPending state i) := by
    intro waits
    have cons := invariant.cons
    have waiting : ReadWait state i := by
      rcases waits with position | position
      · rw [position] at cons
        exact cons
      · rw [position] at cons
        exact cons
    refine ⟨(waiting.reading i).mpr rfl, ?_⟩
    rcases waiting.signal with ⟨none, -⟩ | ⟨-, debt, -⟩ | ⟨-, -, sent⟩
    · exact Or.inl none
    · exact Or.inr (Or.inr debt)
    · exact Or.inr (Or.inl (by omega))
  have writer : 0 < state.prodWake i ∨ state.cons.role i = .wake →
      WriterWakeupPending state i := by
    rintro (sent | role)
    · exact Or.inl sent
    · exact Or.inr (ConsPc.eq_of_role_wake role)
  refine
    { nSem_range := (ok.bounds rfl).1
      eSem_range := (ok.bounds rfl).2
      space := ok.isSpace
      item := ?_
      fifo := ⟨⟨state.unread i, ok.fifo.symm⟩, ok.ofScript⟩
      writerWakeups := ok.blockCount
      writerWoken := ?_
      readerWakeups := invariant.readCount i
      readerWoken := ?_
      readerSignalled := ?_
      writerSignalled := ?_
      noDeadlock := ?_ }
  · intro position missing
    obtain ⟨item, rest, items⟩ := ok.exists_item
      (by simp [State.view, position, ConsPc.role])
    have head : (state.unread i).head? = none :=
      (invariant.top_eq i).symm.trans missing
    have items' : state.unread i = item :: rest := items
    simp [items'] at head
  · intro woken
    obtain ⟨single, waits⟩ := ok.producer_woken woken
    exact ⟨single, writerWaits_iff.mpr waits⟩
  · intro woken
    rcases invariant.cons.situation with ⟨_, settled⟩ |
      ⟨j, reads, waiting⟩ | ⟨polls, _, waiting⟩
    · have noWake := settled.noWake
      omega
    · refine ⟨?_, Or.inl ⟨j, reads⟩⟩
      rcases waiting.signal with ⟨-, -, noWake⟩ | ⟨-, -, noWake⟩ | ⟨-, -, sent⟩
      · omega
      · omega
      · exact sent
    · refine ⟨?_, Or.inr polls⟩
      rcases waiting.signal with ⟨-, -, noWake, -⟩ | ⟨-, _, -, -, -, signal⟩
      · omega
      · rcases signal with ⟨-, noWake⟩ | ⟨-, sent, -⟩
        · omega
        · exact sent
  · intro waits released
    rcases (reader waits).2 with none | pending
    · omega
    · exact pending
  · intro waits free
    exact writer (ok.producer_signalled (writerWaits_iff.mp waits) free)
  · intro reads writes
    obtain ⟨role, none | pending⟩ := reader reads
    · right
      exact writer (Or.inl (ok.no_deadlock (writerWaits_iff.mp writes) role none))
    · exact Or.inl pending

/-- One stream with a single cell and a single item. -/
def oneItem : Config Unit ℕ :=
  streams (fun _ => .one) (fun _ => [7])

/-- The consumer blocks in a read, and the producer finds it waiting. -/
def blockedRead : List (Label Unit) :=
  [.read (), .cons, .write (), .prod (), .prod ()]

/-- The protocol is correct while the producer is about to wake the consumer. -/
theorem boundedStreamProtocol_blockedRead :
    ∃ state : State oneItem, (machine oneItem).Reachable state ∧
      state.prod () = .lookup ∧ BoundedStream state () := by
  obtain ⟨state, reached, tested⟩ := Machine.exists_reachable_of_run
    (rfl : (machine oneItem).init (initial oneItem))
    (by decide : ((machine oneItem).run (initial oneItem) blockedRead).map
      (fun state => decide (state.prod () = .lookup)) = some true)
  exact ⟨state, reached, of_decide_eq_true tested,
    boundedStreamProtocol reached ()⟩

/-- What a step may dereference: a stream or one of its two descriptors. -/
inductive Obj (ι : Type)
  | stream (i : ι)
  | prodSd (i : ι)
  | consSd (i : ι)

/-- The object has not been released. -/
def Obj.Live (state : State (streams size script)) : Obj ι → Prop
  | .stream i => state.streamLive i = true
  | .prodSd i => state.prodSdLive i = true
  | .consSd i => state.consSdLive i = true

/-- One round of a loop over the set: the descriptor whose `next` is followed,
the descriptor returned, and its stream. -/
def iterAccesses (ring : Streamset ι) (iter : StreamIter ι) : List (Obj ι) :=
  if lpelStreamIterHasNext ring iter then
    let follow := if iter.cur.isSome then iter.cur else iter.prev
    let sd := (lpelStreamIterNext ring iter).cur
    follow.toList.map .consSd ++ sd.toList.map .consSd ++ sd.toList.map .stream
  else
    []

/-- The objects each step of the three functions dereferences. -/
def accesses (state : State (streams size script)) : Label ι → List (Obj ι)
  | .write i => [.prodSd i, .stream i]
  | .prod i =>
      match state.prod i with
      | .put =>
          [.prodSd i, .stream i] ++
            if (state.stream i).isPoll then [.consSd i] else []
      | .vN _ => [.prodSd i, .stream i]
      | .lookup | .lookupPoll => [.prodSd i, .stream i, .consSd i]
      | .toBlock | .unblock _ => [.prodSd i]
      | .idle | .blocked | .closed => []
  | .resumeProd i => [.prodSd i]
  | .read i => [.consSd i, .stream i]
  | .poll => state.ring.set.toList.map .consSd
  | .cons =>
      match state.cons with
      | .readTop i | .readV i => [.consSd i, .stream i]
      | .readLookup i => [.consSd i, .stream i, .prodSd i]
      | .readToBlock i | .readUnblock i => [.consSd i]
      | .pollFast iter | .pollRegister iter _ | .pollUnregister iter _ =>
          iterAccesses state.ring iter
      | _ => []
  | .resumeCons | .proceed | .buildSet _ | .closeOut _ | .closeIn _ => []

section Teardown

variable {state : State (streams size script)}

/-- The descriptor and the stream of a busy producer are live, and so is the
descriptor of its consumer. -/
theorem live_of_busy
    (invariant : Invariant state)
    {i : ι}
    (busy : (state.prod i ≠ .idle ∧ state.prod i ≠ .closed) ∨
      (state.prod i = .idle ∧
        (state.written i).length < (script i).length)) :
    (Obj.prodSd i).Live state ∧ (Obj.stream i).Live state ∧
      (Obj.consSd i).Live state := by
  have live := invariant.live i
  have alive : state.streamLive i = true := by
    apply invariant.streamLive_of_busy
    rcases busy with moving | ⟨-, more⟩
    · exact Or.inl moving
    · exact Or.inr more
  refine ⟨live.prod_iff.mpr ?_, alive, live.cons_eq.trans alive⟩
  rcases busy with moving | ⟨idle, -⟩
  · exact moving.2
  · simp [idle]

/-- The consumer uses only live descriptors and streams. -/
theorem live_of_consSdLive
    (invariant : Invariant state)
    {i : ι}
    (alive : state.consSdLive i = true) :
    (Obj.consSd i).Live state ∧ (Obj.stream i).Live state :=
  ⟨alive, (invariant.live i).cons_eq.symm.trans alive⟩

/-- A round of a loop over a set of open descriptors dereferences only live
objects. -/
theorem live_of_iterAccesses
    (invariant : Invariant state)
    {iter : StreamIter ι}
    {count blocks : ℕ}
    (at_count : iter.At state.ring state.members count)
    (call : PollCall state blocks)
    {obj : Obj ι}
    (accessed : obj ∈ iterAccesses state.ring iter) :
    obj.Live state := by
  have positive : 0 < state.members.length :=
    List.length_pos_iff.mpr call.nonempty
  have member : ∀ sd ∈ state.members,
      (Obj.consSd sd).Live state ∧ (Obj.stream sd).Live state := by
    intro sd member
    exact live_of_consSdLive invariant (call.live sd member)
  unfold iterAccesses at accessed
  split at accessed
  case isFalse => simp at accessed
  case isTrue hasNext =>
    rw [at_count.hasNext_iff invariant.ring positive] at hasNext
    obtain ⟨-, current⟩ := at_count.next invariant.ring hasNext
    have follow : ∀ sd,
        (if iter.cur.isSome then iter.cur else iter.prev) = some sd →
          sd ∈ state.members := by
      intro sd followed
      rw [at_count.cur_eq] at followed
      by_cases start : count = 0
      · simp only [start, if_true, Option.isSome_none, Bool.false_eq_true,
          if_false] at followed
        rw [at_count.prev_eq start, invariant.ring.set_eq] at followed
        exact List.mem_of_getLast? followed
      · rw [if_neg start, List.getElem?_eq_getElem (by omega)] at followed
        simp only [Option.isSome_some, if_true, Option.some.injEq] at followed
        rw [← followed]
        exact List.getElem_mem _
    simp only [current, Option.toList_some, List.map_cons, List.map_nil,
      List.mem_append, List.mem_map, Option.mem_toList, List.mem_singleton]
      at accessed
    rcases accessed with (⟨sd, followed, rfl⟩ | rfl) | rfl
    · exact (member sd (follow sd followed)).1
    · exact (member _ (List.getElem_mem hasNext)).1
    · exact (member _ (List.getElem_mem hasNext)).2

/-- A producer still going on after its V operation has a consumer that waits
for it. -/
theorem consumer_waits
    (invariant : Invariant state)
    {i : ι}
    (touching : state.prod i = .lookup ∨ state.prod i = .lookupPoll) :
    state.cons.readWaits i ∨
      (state.cons.pollWaits = true ∧ i ∈ state.members) := by
  have owes : (state.prod i).owes = true := by
    rcases touching with looking | looking <;> rw [looking] <;> rfl
  rcases invariant.cons.situation with ⟨_, settled⟩ |
    ⟨j, reads, waiting⟩ | ⟨polls, _, waiting⟩
  · exact (settled.noDebt.not_owes owes).elim
  · obtain ⟨rfl, -⟩ := waiting.debtor_of_owes owes
    exact Or.inl reads
  · exact Or.inr ⟨polls, (waiting.tookToken_of_owes owes).2.1⟩

/-- The steps of a producer dereference only live objects. -/
theorem live_of_prod
    (invariant : Invariant state)
    {i : ι}
    {obj : Obj ι}
    (accessed : obj ∈ accesses state (.prod i)) :
    obj.Live state := by
  by_cases busy : state.prod i ≠ .idle ∧ state.prod i ≠ .closed
  · obtain ⟨prodLive, streamLive, consLive⟩ :=
      live_of_busy invariant (Or.inl busy)
    have among : obj = .prodSd i ∨ obj = .stream i ∨ obj = .consSd i := by
      simp only [accesses] at accessed
      cases position : state.prod i with
      | put =>
          simp only [position] at accessed
          split at accessed <;> simp at accessed <;> tauto
      | vN =>
          simp [position] at accessed
          tauto
      | lookup | lookupPoll =>
          simp [position] at accessed
          exact accessed
      | toBlock | unblock =>
          simp [position] at accessed
          exact Or.inl accessed
      | idle | blocked | closed => simp [position] at accessed
    rcases among with rfl | rfl | rfl
    · exact prodLive
    · exact streamLive
    · exact consLive
  · simp only [accesses] at accessed
    by_cases idle : state.prod i = .idle
    · simp [idle] at accessed
    · have closed : state.prod i = .closed := by
        by_contra open'
        exact busy ⟨idle, open'⟩
      simp [closed] at accessed

/-- The steps of the consumer dereference only live objects. -/
theorem live_of_cons
    (invariant : Invariant state)
    {obj : Obj ι}
    (accessed : obj ∈ accesses state .cons) :
    obj.Live state := by
  have used : ∀ i, state.cons.role i ≠ .none →
      (Obj.consSd i).Live state ∧ (Obj.stream i).Live state := by
    intro i uses
    exact live_of_consSdLive invariant ((invariant.live i).used uses)
  have cons := invariant.cons
  simp only [accesses] at accessed
  cases position : state.cons with
  | readToBlock i | readUnblock i =>
      simp [position] at accessed
      rw [accessed]
      exact (used i (by simp [position, ConsPc.role])).1
  | readTop i | readV i =>
      obtain ⟨consLive, streamLive⟩ := used i (by simp [position, ConsPc.role])
      simp [position] at accessed
      rcases accessed with rfl | rfl
      · exact consLive
      · exact streamLive
  | readLookup i =>
      obtain ⟨consLive, streamLive⟩ := used i (by simp [position, ConsPc.role])
      have waits := ((invariant.streams i).unblockProducer
        (by simp [State.view, position, ConsPc.role])).1
      have prodLive : (Obj.prodSd i).Live state := by
        refine (invariant.live i).prod_iff.mpr ?_
        intro closed
        simp [State.view, closed, ProdPc.waits] at waits
      simp [position] at accessed
      rcases accessed with rfl | rfl | rfl
      · exact consLive
      · exact streamLive
      · exact prodLive
  | pollFast iter =>
      rw [position] at cons
      simp only [position] at accessed
      obtain ⟨fast, count, at_count⟩ := cons
      exact live_of_iterAccesses invariant at_count fast.toPollCall accessed
  | pollRegister iter cnt =>
      rw [position] at cons
      simp only [position] at accessed
      obtain ⟨count, -, at_count, call, -⟩ := cons
      exact live_of_iterAccesses invariant at_count call accessed
  | pollUnregister iter cnt =>
      rw [position] at cons
      simp only [position] at accessed
      obtain ⟨count, total, -, at_count, done⟩ := cons
      obtain ⟨blocks, -, call, -⟩ := done.call
      exact live_of_iterAccesses invariant at_count call accessed
  | _ => simp [position] at accessed

end Teardown

/-- Tearing a stream down is safe: no step of a write, a read or a poll
dereferences what has been released, and a producer past its V operation goes on
to the stream only for a consumer that waits for it. -/
theorem teardownAccessesLive
    {size : ι → StreamSize}
    {script : ι → List α}
    {state : State (streams size script)}
    (reached : (machine (streams size script)).Reachable state) :
    (∀ label after,
      (machine (streams size script)).next state label = some after →
        ∀ obj ∈ accesses state label, obj.Live state) ∧
    (∀ i, state.prod i = .lookup ∨ state.prod i = .lookupPoll →
      state.cons.readWaits i ∨
        (state.cons.pollWaits = true ∧ i ∈ state.members)) := by
  have invariant := Invariant.ofReachable reached
  refine ⟨?_, fun i => consumer_waits invariant⟩
  intro label after taken obj accessed
  cases label with
  | prod i => exact live_of_prod invariant accessed
  | cons => exact live_of_cons invariant accessed
  | write i =>
      have enabled : state.prod i = .idle ∧
          (state.written i).length < (script i).length := by
        by_contra disabled
        have blocked : lpelStreamWrite state i = none := if_neg disabled
        exact absurd (blocked.symm.trans taken) (by simp)
      obtain ⟨prodLive, streamLive, -⟩ :=
        live_of_busy invariant (Or.inr enabled)
      simp only [accesses, List.mem_cons, List.not_mem_nil, or_false] at accessed
      rcases accessed with rfl | rfl
      · exact prodLive
      · exact streamLive
  | resumeProd i =>
      have enabled : state.prod i = .blocked ∧ 0 < state.prodWake i := by
        by_contra disabled
        have blocked : resumeProd state i = none := if_neg disabled
        exact absurd (blocked.symm.trans taken) (by simp)
      simp only [accesses, List.mem_singleton] at accessed
      rw [accessed]
      refine (live_of_busy invariant (Or.inl ?_)).1
      simp [enabled.1]
  | read i =>
      have enabled : state.cons = .idle ∧ state.consSdLive i = true := by
        by_contra disabled
        have blocked : lpelStreamRead state i = none := if_neg disabled
        exact absurd (blocked.symm.trans taken) (by simp)
      obtain ⟨consLive, streamLive⟩ := live_of_consSdLive invariant enabled.2
      simp only [accesses, List.mem_cons, List.not_mem_nil, or_false] at accessed
      rcases accessed with rfl | rfl
      · exact consLive
      · exact streamLive
  | poll =>
      have enabled : state.cons = .idle ∧ state.members ≠ [] ∧
          ∀ i ∈ state.members, state.consSdLive i = true := by
        by_contra disabled
        have blocked : lpelStreamPoll state = none := if_neg disabled
        exact absurd (blocked.symm.trans taken) (by simp)
      simp only [accesses, List.mem_map, Option.mem_toList] at accessed
      obtain ⟨sd, handle, rfl⟩ := accessed
      have handle' : state.ring.set = some sd := handle
      rw [invariant.ring.set_eq] at handle'
      exact enabled.2.2 sd (List.mem_of_getLast? handle')
  | _ => simp [accesses] at accessed

/-- The lookup of a consumer blocked in a read is safe. -/
theorem teardownAccessesLive_blockedRead :
    ∃ state : State oneItem, (machine oneItem).Reachable state ∧
      state.prod () = .lookup ∧ state.cons.readWaits () ∧
      (Obj.consSd ()).Live state := by
  obtain ⟨state, reached, tested⟩ := Machine.exists_reachable_of_run
    (rfl : (machine oneItem).init (initial oneItem))
    (by decide : ((machine oneItem).run (initial oneItem) blockedRead).map
      (fun state => decide (state.prod () = .lookup ∧
        state.cons = .readBlocked ())) = some true)
  obtain ⟨looking, blocked⟩ := of_decide_eq_true tested
  obtain ⟨after, taken⟩ :
      ∃ after, (machine oneItem).next state (.prod ()) = some after := by
    simp [machine, next, prodStep, looking]
  refine ⟨state, reached, looking, Or.inr blocked, ?_⟩
  refine (teardownAccessesLive reached).1 (.prod ()) after taken _ ?_
  simp [accesses, looking]

end Decen
end Lpel
