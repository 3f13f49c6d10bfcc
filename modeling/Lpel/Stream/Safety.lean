import Lpel.Decen.Buffer
import Lpel.Stream.Poll

/-!
# Safety of the stream protocol

Every step keeps the invariant, so it holds in every reachable state.  The
guarantees of `LpelStreamPoll` are read off from it for any back end.
-/

namespace Lpel
namespace StreamSystem

variable {ι α : Type} [DecidableEq ι] {config : Config ι α}

namespace Invariant

variable {before after : State config}

/-- The initial state satisfies the invariant. -/
theorem initial (config : Config ι α) : Invariant (initial config) where
  streams := fun i => StreamOk.create config i
  cons := by
    refine ⟨?_, fun _ => rfl, rfl, rfl, ?_⟩
    · intro i
      simp [StreamSystem.initial, ConsPc.role]
    · intro i marked
      simp [StreamSystem.initial, lpelStreamCreate] at marked
  ring := ⟨List.nodup_nil, rfl, by simp [StreamSystem.initial]⟩
  readCount := by
    intro i
    simp [StreamSystem.initial, ConsPc.role]
  live := by
    intro i
    refine ⟨rfl, ?_, ?_, ?_⟩
    · simp [StreamSystem.initial]
    · simp [StreamSystem.initial]
    · simp [StreamSystem.initial]

/-- Every later step of a call of the consumer keeps the invariant. -/
theorem consStep
    (invariant : Invariant before)
    (taken : consStep before = some after) :
    Invariant after := by
  unfold StreamSystem.consStep at taken
  cases position : before.cons with
  | idle | readBlocked | pollBlocked | polled => simp [position] at taken
  | readToBlock i =>
      simp only [position, Option.some.injEq] at taken
      exact taken ▸ invariant.readToBlock position
  | readTop i =>
      simp only [position] at taken
      exact invariant.topAndPop position taken
  | readV i =>
      simp only [position, Option.some.injEq] at taken
      exact taken ▸ invariant.releaseSpace position
  | readLookup i =>
      simp only [position, Option.some.injEq] at taken
      exact taken ▸ invariant.readLookup position
  | readUnblock i =>
      simp only [position, Option.some.injEq] at taken
      exact taken ▸ invariant.readUnblock position
  | pollFast iter =>
      simp only [position] at taken
      exact invariant.pollFastStep position taken
  | pollStore =>
      simp only [position, Option.some.injEq] at taken
      exact taken ▸ invariant.pollStore position
  | pollRegister iter cnt =>
      simp only [position] at taken
      exact invariant.pollRegisterStep position taken
  | pollSwitch doCtxSwitch cnt =>
      cases doCtxSwitch with
      | true =>
          simp only [position, Option.some.injEq] at taken
          exact taken ▸ invariant.pollSwitch position
      | false =>
          simp only [position, Option.some.injEq] at taken
          exact taken ▸ invariant.pollNoSwitch position
  | pollAssert cnt =>
      simp only [position, Option.some.injEq] at taken
      exact taken ▸ invariant.pollAssert position
  | pollUnregister iter cnt =>
      simp only [position] at taken
      exact invariant.pollUnregisterStep position taken
  | pollReturn =>
      simp only [position] at taken
      exact invariant.pollReturn position taken

/-- Delivering a wakeup to the consumer keeps the invariant. -/
theorem resumeCons
    (invariant : Invariant before)
    (taken : resumeCons before = some after) :
    Invariant after := by
  unfold StreamSystem.resumeCons at taken
  split at taken
  case isFalse => exact absurd taken (by simp)
  case isTrue woken =>
    cases position : before.cons with
    | readBlocked i =>
        simp only [position, Option.some.injEq] at taken
        exact taken ▸ invariant.resumeRead position woken
    | pollBlocked cnt =>
        simp only [position, Option.some.injEq] at taken
        exact taken ▸ invariant.resumePoll position woken
    | _ => simp [position] at taken

/-- Making a new set keeps the invariant. -/
theorem buildSet
    (invariant : Invariant before)
    {elems : List ι}
    (idle : before.cons = .idle)
    (nodup : elems.Nodup) :
    Invariant
      { before with
        ring := lpelStreamsetPutAll before.ring.next elems
        members := elems } := by
  have settled : Settled before [] :=
    invariant.consAt idle
  refine invariant.pollMove PollFrame.ofState (by simp [idle, ConsPc.role])
    (by simp [idle, ConsPc.role]) (lpelStreamsetPutAll_spells _ nodup) ?_
  dsimp only
  rw [idle]
  exact settled.move (by simp [ConsPc.role]) rfl rfl rfl (fun _ => rfl)

/-- Going on after a poll keeps the invariant. -/
theorem proceed
    (invariant : Invariant before)
    {sd : ι}
    (position : before.cons = .polled sd) :
    Invariant { before with cons := .idle } := by
  have returned : Returned before sd :=
    invariant.consAt position
  refine invariant.pollMove PollFrame.ofState (by simp [position, ConsPc.role])
    (fun _ => rfl) invariant.ring ?_
  exact returned.settled.move (by simp [ConsPc.role]) rfl rfl rfl (fun _ => rfl)

/-- A producer whose last item has been received has finished its write, unless
the consumer is using the stream. -/
theorem producer_finished
    (invariant : Invariant before)
    {i : ι}
    (settled : Settled before [])
    (unused : before.cons.role i = .none)
    (received : (before.popped i).length = (config.script i).length) :
    (before.prod i = .idle ∨ before.prod i = .closed) ∧
      (before.written i).length = (config.script i).length := by
  have ok := invariant.streams i
  have written : (before.written i).length ≤ (config.script i).length :=
    ok.ofScript.length_le
  have popped := invariant.popped_le i
  have complete : (before.written i).length = (config.script i).length := by
    omega
  refine ⟨?_, complete⟩
  have empty : before.unread i = [] := by
    unfold State.unread
    exact List.drop_eq_nil_of_le (by omega)
  have notPending : (before.prod i).reserved ≠ 1 := by
    intro reserved
    have pending := ok.pending reserved
    simp only [State.view] at pending
    omega
  have noDebt := settled.noDebt i
  cases position : before.prod i with
  | idle => exact Or.inl rfl
  | closed => exact Or.inr rfl
  | toBlock | blocked | put => simp [position, ProdPc.reserved] at notPending
  | lookup | lookupPoll | unblock => simp [position, ProdPc.owes] at noDebt
  | vN pollWakeup =>
      have nCount := ok.nCount
      have nLow := ok.nLow
      simp only [State.view, position, empty, unused, ProdPc.unreleased,
        Role.reserved, List.length_nil] at nCount nLow
      simp at nLow
      omega

/-- `LpelStreamClose(in, 1)` after the last item keeps the invariant. -/
theorem closeIn
    (invariant : Invariant before)
    {i : ι}
    (taken : closeIn before i = some after) :
    Invariant after := by
  unfold StreamSystem.closeIn at taken
  split at taken
  case isFalse => exact absurd taken (by simp)
  case isTrue enabled =>
    obtain ⟨idle, live, -, received⟩ := enabled
    obtain rfl := Option.some.inj taken
    have settled : Settled before [] :=
      invariant.consAt idle
    have finished := invariant.producer_finished settled
      (by simp [idle, ConsPc.role]) received
    refine ⟨invariant.streams, ?_, invariant.ring, invariant.readCount, ?_⟩
    · dsimp only
      rw [idle]
      exact settled.move (by simp [ConsPc.role]) rfl rfl rfl (fun _ => rfl)
    · intro j
      have alive := invariant.live j
      by_cases same : j = i
      · subst same
        refine ⟨by simp, alive.prod_iff, fun _ => finished, ?_⟩
        simp [idle, ConsPc.role]
      · refine ⟨?_, alive.prod_iff, ?_, ?_⟩
        · simpa [same] using alive.cons_eq
        · simpa [same] using alive.released
        · simpa [same] using alive.used

/-- Every step keeps the invariant. -/
theorem step
    (invariant : Invariant before)
    {label : Label ι}
    (taken : next before label = some after) :
    Invariant after := by
  cases label with
  | write i => exact invariant.lpelStreamWrite taken
  | prod i => exact invariant.prodStep taken
  | resumeProd i => exact invariant.resumeProd taken
  | closeOut i => exact invariant.closeOut taken
  | read i => exact invariant.lpelStreamRead taken
  | buildSet elems =>
      simp only [next] at taken
      split at taken
      case isTrue enabled =>
        obtain rfl := Option.some.inj taken
        exact invariant.buildSet enabled.1 enabled.2.1
      case isFalse => exact absurd taken (by simp)
  | poll => exact invariant.lpelStreamPoll taken
  | cons => exact invariant.consStep taken
  | resumeCons => exact invariant.resumeCons taken
  | proceed =>
      simp only [next] at taken
      split at taken
      case h_1 sd position =>
        obtain rfl := Option.some.inj taken
        exact invariant.proceed position
      case h_2 => exact absurd taken (by simp)
  | closeIn i => exact invariant.closeIn taken

/-- The invariant holds in every reachable state. -/
theorem ofReachable
    {state : State config}
    (reached : (machine config).Reachable state) :
    Invariant state := by
  refine Machine.Reachable.invariant ?_ ?_ reached
  · rintro _ rfl
    exact Invariant.initial config
  · intro _ _ _ held taken
    exact held.step taken

end Invariant

/-- A wakeup of the polling consumer is pending: a producer has taken the poll
token, or the wakeup has been sent and not yet delivered. -/
def PollWakeupPending (state : State config) : Prop :=
  0 < state.consWake ∨ ∃ i, state.prod i = .vN true ∨
    state.prod i = .lookupPoll ∨ state.prod i = .unblock true

/-- What `LpelStreamPoll` guarantees when it returns a descriptor. -/
structure PollResult (state : State config) (sd : ι) : Prop where
  /-- The descriptor is a member of the set the poll was called on. -/
  member : sd ∈ state.pollMembers
  /-- Its buffer is not empty. -/
  nonempty : (config.impl.lpelBufferTop (state.stream sd).buffer).isSome = true
  /-- The handle is the descriptor, and no descriptor was relinked. -/
  ring_eq : state.ring = { state.pollRing with set := some sd }
  /-- The ring still spells the members, from another starting point. -/
  members : state.ring.Spells state.members ∧
    ∃ count, state.members = state.pollMembers.rotate count
  /-- The poll token is gone. -/
  noToken : state.pollToken = false
  /-- No stream is left marked. -/
  isPoll : ∀ i ∈ state.members, (state.stream i).isPoll = false
  /-- The task was woken as often as it blocked, at most once. -/
  wakes : state.pollWakes = state.pollBlocks ∧ state.pollBlocks ≤ 1

/-- The handshake between `LpelStreamPoll` and the writes of any number of
producers, in every interleaving and on either back end. -/
theorem pollHandshake
    {config : Config ι α}
    {state : State config}
    (reached : (machine config).Reachable state) :
    (∀ sd, state.cons = .polled sd → PollResult state sd) ∧
    (∀ cnt, state.cons = .pollAssert cnt → state.pollToken = false) ∧
    (∀ cnt, state.cons = .pollBlocked cnt →
      (∃ i ∈ state.members,
        (config.impl.lpelBufferTop (state.stream i).buffer).isSome = true) →
      PollWakeupPending state) := by
  have invariant := Invariant.ofReachable reached
  have cons := invariant.cons
  refine ⟨?_, ?_, ?_⟩
  · intro sd position
    rw [position] at cons
    have returned : Returned state sd := cons
    refine ⟨returned.member, ?_, ?_, ⟨invariant.ring, returned.rotated⟩,
      returned.settled.noToken, ?_, returned.wakes, returned.blocks_le⟩
    · rw [invariant.top_isSome_iff]
      exact returned.nonempty
    · rw [← returned.set_eq]
      dsimp only
      rw [← returned.next_eq]
    · intro i _
      exact returned.settled.isPoll_eq_false i
  · intro cnt position
    rw [position] at cons
    obtain ⟨_, _, done⟩ := cons
    exact done.settled.noToken
  · rintro cnt position ⟨i, member, present⟩
    rw [position] at cons
    obtain ⟨count, -, -, -, waiting, token⟩ := cons
    rw [invariant.top_isSome_iff] at present
    rcases waiting.signal with ⟨still, -, -, empty⟩ | ⟨-, j, -, -, -, signal⟩
    · have registered : i ∈ state.members.take count := by
        rw [token still, List.take_length]
        exact member
      exact absurd (empty i registered).2 present
    · rcases signal with ⟨took, -⟩ | ⟨-, sent, -⟩
      · refine Or.inr ⟨j, ?_⟩
        rcases took with took | took | ⟨took, -⟩
        · exact Or.inl took
        · exact Or.inr (Or.inl took)
        · exact Or.inr (Or.inr took)
      · left
        omega

/-- One stream with a single cell and a single item. -/
def polledStream : Config Unit ℕ where
  impl := Decen.ringBuffer ℕ
  size := fun _ => .one
  bounded := fun _ => true
  finite_bounded := fun _ _ => rfl
  script := fun _ => [7]

/-- The consumer blocks in a poll, is woken by the write and returns. -/
def blockedPoll : List (Label Unit) :=
  [.buildSet [()], .poll, .cons, .cons, .cons, .cons, .cons, .cons,
    .write (), .prod (), .prod (), .prod (), .prod (), .resumeCons,
    .cons, .cons, .cons]

/-- A poll that blocked returns the stream that was written. -/
theorem pollHandshake_blockedPoll :
    ∃ state : State polledStream, (machine polledStream).Reachable state ∧
      state.pollBlocks = 1 ∧ PollResult state () := by
  obtain ⟨state, reached, tested⟩ := Machine.exists_reachable_of_run
    (rfl : (machine polledStream).init (initial polledStream))
    (by decide : ((machine polledStream).run (initial polledStream)
      blockedPoll).map (fun state => decide (state.pollBlocks = 1 ∧
        state.cons = .polled ())) = some true)
  obtain ⟨blocked, returned⟩ := of_decide_eq_true tested
  exact ⟨state, reached, blocked, (pollHandshake reached).1 () returned⟩

end StreamSystem
end Lpel
