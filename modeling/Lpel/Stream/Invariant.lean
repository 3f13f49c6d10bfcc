import Lpel.Stream.Accounting

/-!
# The invariant of the stream protocol

The accounting of each stream is joined by the handshake that decides who wakes
the consumer.  At any time the consumer is in one of three situations: nobody is
about to wake it (`Settled`), it waits in a read (`ReadWait`), or it has placed
the poll token and waits for a producer to take it (`PollWait`).  Producers only
move within a situation, and the consumer alone goes from one to the other.
-/

namespace Lpel
namespace StreamSystem

variable {ι α : Type} [DecidableEq ι] {config : Config ι α}

/-- What the consumer is doing with the given stream. -/
def ConsPc.role (pc : ConsPc ι) (i : ι) : Role :=
  match pc with
  | .readToBlock j | .readBlocked j => if j = i then .waiting else .none
  | .readTop j => if j = i then .top else .none
  | .readV j => if j = i then .release else .none
  | .readLookup j | .readUnblock j => if j = i then .wake else .none
  | _ => .none

/-- The consumer owes a wakeup only at the end of a read. -/
theorem ConsPc.eq_of_role_wake
    {pc : ConsPc ι}
    {i : ι}
    (waking : pc.role i = .wake) :
    pc = .readLookup i ∨ pc = .readUnblock i := by
  cases pc with
  | readLookup j =>
      obtain rfl : j = i := by simpa [ConsPc.role] using waking
      exact Or.inl rfl
  | readUnblock j =>
      obtain rfl : j = i := by simpa [ConsPc.role] using waking
      exact Or.inr rfl
  | readToBlock j | readBlocked j | readTop j | readV j =>
      simp only [ConsPc.role] at waking
      split at waking <;> cases waking
  | _ => simp [ConsPc.role] at waking

/-- The consumer has committed to block in a read of the stream. -/
def ConsPc.readWaits (pc : ConsPc ι) (i : ι) : Prop :=
  pc = .readToBlock i ∨ pc = .readBlocked i

/-- The consumer has placed the poll token and not yet been told a stream. -/
def ConsPc.pollWaits : ConsPc ι → Bool
  | .pollRegister _ _ | .pollSwitch true _ | .pollBlocked _ => true
  | _ => false

/-- The items put into a stream and not yet popped from it. -/
def State.unread (state : State config) (i : ι) : List α :=
  (state.written i).drop (state.popped i).length

/-- The part of the state the accounting of one stream is about. -/
def State.view (state : State config) (i : ι) : View config where
  stream := state.stream i
  pc := state.prod i
  wake := state.prodWake i
  role := state.cons.role i
  items := state.unread i
  written := state.written i
  popped := state.popped i
  blocks := state.prodBlocks i
  unblocks := state.prodUnblocks i

/-- No producer is committed to waking the consumer. -/
def NoDebt (state : State config) : Prop :=
  ∀ i, (state.prod i).owes = false

/-- Only the given producer may be committed to waking the consumer. -/
def OnlyDebt (state : State config) (i : ι) : Prop :=
  ∀ j, j ≠ i → (state.prod j).owes = false

/-- Nobody wakes the consumer, and at most the given streams are marked for
polling. -/
structure Settled (state : State config) (registered : List ι) : Prop where
  notReading : ∀ i, state.cons.role i ≠ .waiting
  noDebt : NoDebt state
  noWake : state.consWake = 0
  noToken : state.pollToken = false
  isPoll : ∀ i, (state.stream i).isPoll = true → i ∈ registered

/-- The consumer has committed to block in a read: either `n_sem` is -1, or its
producer has released an item and the wakeup is on its way. -/
structure ReadWait (state : State config) (i : ι) : Prop where
  reading : ∀ j, state.cons.role j = .waiting ↔ j = i
  noToken : state.pollToken = false
  isPoll : ∀ j, (state.stream j).isPoll = false
  onlyDebt : OnlyDebt state i
  signal :
    ((state.stream i).nSem = -1 ∧ (state.prod i).owes = false ∧
      state.consWake = 0) ∨
    (0 ≤ (state.stream i).nSem ∧
      (state.prod i = .lookup ∨ state.prod i = .unblock false) ∧
      state.consWake = 0) ∨
    (0 ≤ (state.stream i).nSem ∧ (state.prod i).owes = false ∧
      state.consWake = 1)

/-- The producer has taken the poll token and not yet sent the wakeup. -/
def TookToken (state : State config) (i : ι) : Prop :=
  state.prod i = .vN true ∨ state.prod i = .lookupPoll ∨
    (state.prod i = .unblock true ∧ state.wakeupSd = some i)

/-- The consumer has placed the poll token and registered some streams: either
the token is still there and these streams are empty, or the producer of a
nonempty stream of the set has taken it. -/
structure PollWait (state : State config) (registered : List ι) : Prop where
  notReading : ∀ i, state.cons.role i ≠ .waiting
  subset : ∀ i ∈ registered, i ∈ state.members
  isPoll : ∀ i, (state.stream i).isPoll = true → i ∈ registered
  wakes : state.pollWakes = state.consWake
  signal :
    (state.pollToken = true ∧ NoDebt state ∧ state.consWake = 0 ∧
      ∀ i ∈ registered, (state.stream i).isPoll = true ∧ state.unread i = []) ∨
    (state.pollToken = false ∧ ∃ i ∈ state.members,
      state.unread i ≠ [] ∧ OnlyDebt state i ∧
        ((TookToken state i ∧ state.consWake = 0) ∨
          ((state.prod i).owes = false ∧ state.consWake = 1 ∧
            state.wakeupSd = some i)))

/-- A call of `LpelStreamPoll` is going on and has blocked so many times. -/
structure PollCall (state : State config) (blocks : ℕ) : Prop where
  ring_eq : state.ring = state.pollRing
  members_eq : state.members = state.pollMembers
  nonempty : state.members ≠ []
  live : ∀ i ∈ state.members, state.consSdLive i = true
  blocks_eq : state.pollBlocks = blocks

/-- The call is in its fast path. -/
structure PollFast (state : State config) : Prop extends PollCall state 0 where
  settled : Settled state []
  wakes : state.pollWakes = 0

/-- The call is about to block or blocked, with the first streams registered. -/
def PollSleep (state : State config) (cnt : ℤ) (blocks : ℕ) : Prop :=
  ∃ count : ℕ, cnt = count ∧ count ≤ state.members.length ∧
    PollCall state blocks ∧ PollWait state (state.members.take count) ∧
    (state.pollToken = true → count = state.members.length)

/-- The call has been told a nonempty stream, with some streams still
registered. -/
structure PollDone (state : State config) (registered : List ι) : Prop where
  settled : Settled state registered
  call : ∃ blocks ≤ 1, PollCall state blocks ∧ state.pollWakes = blocks
  found : ∃ i ∈ state.members, state.wakeupSd = some i ∧ state.unread i ≠ []

/-- The latest call has returned the given descriptor. -/
structure Returned (state : State config) (sd : ι) : Prop where
  settled : Settled state []
  member : sd ∈ state.pollMembers
  nonempty : state.unread sd ≠ []
  set_eq : state.ring.set = some sd
  next_eq : state.ring.next = state.pollRing.next
  rotated : ∃ count, state.members = state.pollMembers.rotate count
  wakes : state.pollWakes = state.pollBlocks
  blocks_le : state.pollBlocks ≤ 1

/-- What holds at each position of the consumer. -/
def ConsOk (state : State config) : ConsPc ι → Prop
  | .idle | .readTop _ | .readV _ | .readLookup _ | .readUnblock _ =>
      Settled state []
  | .readToBlock i | .readBlocked i => ReadWait state i
  | .pollFast iter =>
      PollFast state ∧ ∃ count, iter.At state.ring state.members count
  | .pollStore => PollFast state
  | .pollRegister iter cnt =>
      ∃ count : ℕ, cnt = count ∧ iter.At state.ring state.members count ∧
        PollCall state 0 ∧ PollWait state (state.members.take count)
  | .pollSwitch true cnt => PollSleep state cnt 0
  | .pollBlocked cnt => PollSleep state cnt 1
  | .pollSwitch false cnt | .pollAssert cnt =>
      ∃ count : ℕ, cnt = count ∧ PollDone state (state.members.take count)
  | .pollUnregister iter cnt =>
      ∃ count total : ℕ, cnt = total - count ∧
        iter.At state.ring state.members count ∧
        PollDone state ((state.members.take total).drop count)
  | .pollReturn => PollDone state []
  | .polled sd => Returned state sd

/-- What is released, and what has been settled before. -/
structure LiveOk (state : State config) (i : ι) : Prop where
  cons_eq : state.consSdLive i = state.streamLive i
  prod_iff : state.prodSdLive i = true ↔ state.prod i ≠ .closed
  released : state.streamLive i = false →
    (state.prod i = .idle ∨ state.prod i = .closed) ∧
      (state.written i).length = (config.script i).length
  used : state.cons.role i ≠ .none → state.consSdLive i = true

/-- The invariant of the stream protocol. -/
structure Invariant (state : State config) : Prop where
  streams : ∀ i, StreamOk config i (state.view i)
  cons : ConsOk state state.cons
  ring : state.ring.Spells state.members
  readCount : ∀ i, state.readBlocks i = state.readUnblocks i +
    if state.cons.role i = .waiting ∧ state.consWake = 0 then 1 else 0
  live : ∀ i, LiveOk state i

/-- What is known of the consumer at its position. -/
theorem Invariant.consAt
    {state : State config}
    (invariant : Invariant state)
    {pc : ConsPc ι}
    (position : state.cons = pc) :
    ConsOk state pc := by
  rw [← position]
  exact invariant.cons

end StreamSystem
end Lpel
