import Lpel.Stream.System

/-!
# Accounting for one stream

The two semaphores of a stream count its items and its free cells up to the
operations the two sides have half finished.  `StreamOk` relates both counters,
the buffer and the position of either side for a single stream.  Each atomic
operation of the protocol has one lemma here, and none of them mentions the
other streams of the system.
-/

namespace Lpel
namespace StreamSystem

variable {ι α : Type}

namespace ProdPc

/-- The producer has committed to block and has not been resumed. -/
def waits : ProdPc → Bool
  | .toBlock | .blocked => true
  | _ => false

/-- The cell the producer has reserved and not yet filled. -/
def reserved : ProdPc → ℤ
  | .toBlock | .blocked | .put => 1
  | _ => 0

/-- The item the producer has put and not yet released. -/
def unreleased : ProdPc → ℤ
  | .vN _ => 1
  | _ => 0

/-- The producer is committed to waking the consumer. -/
def owes : ProdPc → Bool
  | .vN true | .lookup | .lookupPoll | .unblock _ => true
  | _ => false

/-- A waiting producer has reserved a cell. -/
theorem reserved_of_waits {pc : ProdPc} (waiting : pc.waits = true) :
    pc.reserved = 1 ∧ pc.unreleased = 0 := by
  cases pc <;> simp_all [waits, reserved, unreleased]

/-- What the producer has half finished is never negative. -/
theorem account_nonneg (pc : ProdPc) : 0 ≤ pc.reserved ∧ 0 ≤ pc.unreleased := by
  cases pc <;> simp [reserved, unreleased]

end ProdPc

/-- What the consumer is doing with one particular stream. -/
inductive Role
  | none
  /-- Committed to block on `n_sem`. -/
  | waiting
  /-- About to take the top item. -/
  | top
  /-- About to release the cell. -/
  | release
  /-- Committed to waking the producer. -/
  | wake
  deriving DecidableEq

namespace Role

/-- The item the consumer has reserved and not yet popped. -/
def reserved : Role → ℤ
  | .waiting | .top => 1
  | _ => 0

/-- The cell the consumer has emptied and not yet released. -/
def unreleased : Role → ℤ
  | .release => 1
  | _ => 0

/-- The wakeup the consumer owes to the producer. -/
def owed : Role → ℕ
  | .wake => 1
  | _ => 0

/-- What the consumer has half finished is never negative. -/
theorem account_nonneg (role : Role) :
    0 ≤ role.reserved ∧ 0 ≤ role.unreleased := by
  cases role <;> simp [reserved, unreleased]

end Role

/-- Everything the accounting of one stream refers to. -/
structure View (config : Config ι α) where
  stream : Stream config.impl.Buf
  pc : ProdPc
  wake : ℕ
  role : Role
  items : List α
  written : List α
  popped : List α
  blocks : ℕ
  unblocks : ℕ

/-- The space side: a waiting producer has either found no cell and is owed no
wakeup, or it is owed exactly one. -/
def SpaceOk (bounded : Bool) (eSem : ℤ) (waits : Bool) (owed : ℕ) : Prop :=
  if bounded then
    (waits = true ∧ eSem = -1 ∧ owed = 0) ∨ (0 ≤ eSem ∧ owed = waits.toNat)
  else
    waits = false ∧ owed = 0

/-- The accounting of one stream. -/
structure StreamOk
    (config : Config ι α)
    (i : ι)
    (view : View config) : Prop where
  holds : config.impl.Holds (config.size i) view.stream.buffer view.items
  fifo : view.written = view.popped ++ view.items
  ofScript : view.written <+: config.script i
  pending : view.pc.reserved = 1 → view.written.length < (config.script i).length
  nCount : view.stream.nSem =
    view.items.length - view.pc.unreleased - view.role.reserved
  nLow : 0 ≤ view.stream.nSem ∨
    (view.stream.nSem = -1 ∧ view.role = .waiting)
  eCount : config.bounded i = true → view.stream.eSem =
    (config.size i).val - view.items.length - view.pc.reserved -
      view.role.unreleased
  space : SpaceOk (config.bounded i) view.stream.eSem view.pc.waits
    (view.wake + view.role.owed)
  blockCount : view.blocks =
    view.unblocks + if view.pc.waits = true ∧ view.wake = 0 then 1 else 0

namespace StreamOk

variable {config : Config ι α} {i : ι} {view : View config}

/-- A stream just created is accounted for. -/
theorem create (config : Config ι α) (i : ι) :
    StreamOk config i
      { stream := lpelStreamCreate config i
        pc := .idle, wake := 0, role := .none
        items := [], written := [], popped := [], blocks := 0, unblocks := 0 } where
  holds := config.impl.init_holds _
  fifo := rfl
  ofScript := List.nil_prefix
  pending := by simp [ProdPc.reserved]
  nCount := rfl
  nLow := Or.inl (by simp [lpelStreamCreate])
  eCount := by
    intro _
    simp [lpelStreamCreate, ProdPc.reserved, Role.unreleased]
  space := by
    unfold SpaceOk
    split <;> simp [lpelStreamCreate, ProdPc.waits, Role.owed]
  blockCount := by simp [ProdPc.waits]

/-- Steps between positions with the same account, and any change of
`is_poll`. -/
theorem relabel
    (ok : StreamOk config i view)
    (pc : ProdPc)
    {stream : Stream config.impl.Buf}
    (waits : pc.waits = view.pc.waits)
    (reserved : pc.reserved = view.pc.reserved)
    (unreleased : pc.unreleased = view.pc.unreleased)
    (buffer : stream.buffer = view.stream.buffer)
    (nSem : stream.nSem = view.stream.nSem)
    (eSem : stream.eSem = view.stream.eSem) :
    StreamOk config i { view with pc := pc, stream := stream } where
  holds := buffer ▸ ok.holds
  fifo := ok.fifo
  ofScript := ok.ofScript
  pending := by
    intro reserving
    exact ok.pending (reserved ▸ reserving)
  nCount := by
    simp only [nSem, unreleased]
    exact ok.nCount
  nLow := by
    simp only [nSem]
    exact ok.nLow
  eCount := by
    intro bounded
    simp only [eSem, reserved]
    exact ok.eCount bounded
  space := by
    simp only [eSem, waits]
    exact ok.space
  blockCount := by
    simp only [waits]
    exact ok.blockCount

/-- P on `e_sem` finds no cell: the producer commits to block. -/
theorem reserveFull
    (ok : StreamOk config i view)
    (idle : view.pc = .idle)
    (more : view.written.length < (config.script i).length)
    (bounded : config.bounded i = true)
    (full : view.stream.eSem = 0) :
    StreamOk config i
      { view with
        stream := { view.stream with eSem := view.stream.eSem - 1 }
        pc := .toBlock
        blocks := view.blocks + 1 } where
  holds := ok.holds
  fifo := ok.fifo
  ofScript := ok.ofScript
  pending := fun _ => more
  nCount := by
    have nCount := ok.nCount
    simp only [idle, ProdPc.unreleased] at nCount ⊢
    exact nCount
  nLow := ok.nLow
  eCount := by
    intro _
    have eCount := ok.eCount bounded
    simp only [idle, ProdPc.reserved] at eCount ⊢
    omega
  space := by
    have space := ok.space
    simp only [SpaceOk, bounded, if_true, idle, ProdPc.waits, full] at space ⊢
    simp at space
    left
    simp [space]
  blockCount := by
    have space := ok.space
    have blockCount := ok.blockCount
    simp only [SpaceOk, bounded, if_true, idle, ProdPc.waits, full] at space
    simp only [idle, ProdPc.waits] at blockCount ⊢
    simp at space blockCount ⊢
    simp [space, blockCount]

/-- P on `e_sem` reserves a free cell. -/
theorem reserveCell
    (ok : StreamOk config i view)
    (idle : view.pc = .idle)
    (more : view.written.length < (config.script i).length)
    (bounded : config.bounded i = true)
    (free : view.stream.eSem ≠ 0) :
    StreamOk config i
      { view with
        stream := { view.stream with eSem := view.stream.eSem - 1 }
        pc := .put } where
  holds := ok.holds
  fifo := ok.fifo
  ofScript := ok.ofScript
  pending := fun _ => more
  nCount := by
    have nCount := ok.nCount
    simp only [idle, ProdPc.unreleased] at nCount ⊢
    exact nCount
  nLow := ok.nLow
  eCount := by
    intro _
    have eCount := ok.eCount bounded
    simp only [idle, ProdPc.reserved] at eCount ⊢
    omega
  space := by
    have space := ok.space
    simp only [SpaceOk, bounded, if_true, idle, ProdPc.waits] at space ⊢
    simp at space ⊢
    omega
  blockCount := by
    have blockCount := ok.blockCount
    simp only [idle, ProdPc.waits] at blockCount ⊢
    exact blockCount

/-- A write to an unbounded stream needs no cell. -/
theorem reserveNothing
    (ok : StreamOk config i view)
    (idle : view.pc = .idle)
    (more : view.written.length < (config.script i).length)
    (unbounded : config.bounded i = false) :
    StreamOk config i { view with pc := .put } where
  holds := ok.holds
  fifo := ok.fifo
  ofScript := ok.ofScript
  pending := fun _ => more
  nCount := by
    have nCount := ok.nCount
    simp only [idle, ProdPc.unreleased] at nCount ⊢
    exact nCount
  nLow := ok.nLow
  eCount := by
    intro bounded
    simp [unbounded] at bounded
  space := by
    have space := ok.space
    simp only [idle, ProdPc.waits] at space ⊢
    exact space
  blockCount := by
    have blockCount := ok.blockCount
    simp only [idle, ProdPc.waits] at blockCount ⊢
    exact blockCount

/-- A delivered wakeup lets the producer go on to the critical section. -/
theorem resume
    (ok : StreamOk config i view)
    (blocked : view.pc = .blocked)
    (woken : 0 < view.wake) :
    StreamOk config i
      { view with pc := .put, wake := view.wake - 1 } where
  holds := ok.holds
  fifo := ok.fifo
  ofScript := ok.ofScript
  pending := by
    intro _
    exact ok.pending (by rw [blocked]; rfl)
  nCount := by
    have nCount := ok.nCount
    simp only [blocked, ProdPc.unreleased] at nCount ⊢
    exact nCount
  nLow := ok.nLow
  eCount := by
    intro bounded
    have eCount := ok.eCount bounded
    simp only [blocked, ProdPc.reserved] at eCount ⊢
    exact eCount
  space := by
    have space := ok.space
    simp only [SpaceOk, blocked, ProdPc.waits, Bool.toNat_true] at space ⊢
    by_cases bounded : config.bounded i = true
    · rw [if_pos bounded] at space ⊢
      rcases space with ⟨-, -, none⟩ | ⟨free, owed⟩
      · omega
      · right
        exact ⟨free, by simp only [Bool.toNat_false]; omega⟩
    · rw [if_neg bounded] at space
      exact absurd space.1 (by decide)
  blockCount := by
    have space := ok.space
    have blockCount := ok.blockCount
    simp only [SpaceOk, blocked, ProdPc.waits] at space blockCount ⊢
    split at space
    · simp at space blockCount ⊢
      rw [blockCount, if_neg (by omega)]
      rfl
    · simp at space

/-- The assertion of space before the put never fails. -/
theorem isSpace
    (ok : StreamOk config i view)
    (putting : view.pc = .put) :
    config.impl.lpelBufferIsSpace view.stream.buffer = true := by
  apply config.impl.isSpace_of_room ok.holds
  intro finite
  have bounded := config.finite_bounded finite i
  have eCount := ok.eCount bounded
  have space := ok.space
  simp only [SpaceOk, bounded, if_true, putting, ProdPc.waits,
    ProdPc.reserved] at eCount space
  have released := view.role.account_nonneg.2
  simp at space
  omega

/-- The critical section of a write puts the next item of the script. -/
theorem put
    (ok : StreamOk config i view)
    (putting : view.pc = .put)
    {item : α}
    (nextItem : (config.script i)[view.written.length]? = some item)
    (pollWakeup isPoll : Bool) :
    StreamOk config i
      { view with
        stream :=
          { view.stream with
            buffer := config.impl.lpelBufferPut view.stream.buffer item
            isPoll := isPoll }
        pc := .vN pollWakeup
        items := view.items ++ [item]
        written := view.written ++ [item] } where
  holds := config.impl.put_holds ok.holds (ok.isSpace putting) item
  fifo := by
    simp only [ok.fifo, List.append_assoc]
  ofScript := by
    obtain ⟨rest, scriptEq⟩ := ok.ofScript
    rw [← scriptEq, List.getElem?_append_right (le_refl _), Nat.sub_self] at nextItem
    cases rest with
    | nil => simp at nextItem
    | cons first rest =>
        simp only [List.getElem?_cons_zero, Option.some.injEq] at nextItem
        subst nextItem
        exact ⟨rest, by simp [← scriptEq]⟩
  pending := by simp [ProdPc.reserved]
  nCount := by
    have nCount := ok.nCount
    simp only [putting, ProdPc.unreleased] at nCount ⊢
    simp only [List.length_append, List.length_singleton]
    omega
  nLow := ok.nLow
  eCount := by
    intro bounded
    have eCount := ok.eCount bounded
    simp only [putting, ProdPc.reserved] at eCount ⊢
    simp only [List.length_append, List.length_singleton]
    omega
  space := by
    have space := ok.space
    simp only [putting, ProdPc.waits] at space ⊢
    exact space
  blockCount := by
    have blockCount := ok.blockCount
    simp only [putting, ProdPc.waits] at blockCount ⊢
    exact blockCount

/-- V on `n_sem` releases the item that was put. -/
theorem releaseItem
    (ok : StreamOk config i view)
    {pollWakeup : Bool}
    (releasing : view.pc = .vN pollWakeup)
    (pc : ProdPc)
    (waits : pc.waits = false)
    (reserved : pc.reserved = 0)
    (unreleased : pc.unreleased = 0) :
    StreamOk config i
      { view with
        stream := { view.stream with nSem := view.stream.nSem + 1 }
        pc := pc } where
  holds := ok.holds
  fifo := ok.fifo
  ofScript := ok.ofScript
  pending := by simp [reserved]
  nCount := by
    have nCount := ok.nCount
    rw [releasing] at nCount
    simp only [ProdPc.unreleased] at nCount
    simp only [unreleased]
    omega
  nLow := by
    left
    rcases ok.nLow with low | low
    · simp only
      omega
    · simp only
      omega
  eCount := by
    intro bounded
    have eCount := ok.eCount bounded
    rw [releasing] at eCount
    simp only [reserved]
    exact eCount
  space := by
    have space := ok.space
    rw [releasing] at space
    simp only [waits]
    exact space
  blockCount := by
    have blockCount := ok.blockCount
    rw [releasing] at blockCount
    simp only [waits]
    exact blockCount

/-- P on `n_sem` by a consumer that is not using the stream. -/
theorem reserveItem
    (ok : StreamOk config i view)
    (unused : view.role = .none) :
    StreamOk config i
      { view with
        stream := { view.stream with nSem := view.stream.nSem - 1 }
        role := if view.stream.nSem = 0 then .waiting else .top } where
  holds := ok.holds
  fifo := ok.fifo
  ofScript := ok.ofScript
  pending := ok.pending
  nCount := by
    have nCount := ok.nCount
    have reservedOne :
        (if view.stream.nSem = 0 then Role.waiting else Role.top).reserved = 1 := by
      split <;> rfl
    simp only [unused, Role.reserved] at nCount
    simp only [reservedOne]
    omega
  nLow := by
    have nLow := ok.nLow
    simp only [unused] at nLow
    by_cases none : view.stream.nSem = 0
    · right
      simp [none]
    · left
      simp at nLow
      simp only
      omega
  eCount := by
    intro bounded
    have eCount := ok.eCount bounded
    have unreleasedZero :
        (if view.stream.nSem = 0 then Role.waiting else Role.top).unreleased = 0 := by
      split <;> rfl
    simp only [unused, Role.unreleased] at eCount
    simp only [unreleasedZero]
    exact eCount
  space := by
    have space := ok.space
    have owedZero :
        (if view.stream.nSem = 0 then Role.waiting else Role.top).owed = 0 := by
      split <;> rfl
    simp only [unused, Role.owed] at space
    simp only [owedZero]
    exact space
  blockCount := ok.blockCount

/-- A delivered wakeup lets the consumer take the item released for it. -/
theorem wakeReader
    (ok : StreamOk config i view)
    (waiting : view.role = .waiting)
    (released : 0 ≤ view.stream.nSem) :
    StreamOk config i { view with role := .top } where
  holds := ok.holds
  fifo := ok.fifo
  ofScript := ok.ofScript
  pending := ok.pending
  nCount := by
    have nCount := ok.nCount
    simp only [waiting, Role.reserved] at nCount ⊢
    exact nCount
  nLow := Or.inl released
  eCount := by
    intro bounded
    have eCount := ok.eCount bounded
    simp only [waiting, Role.unreleased] at eCount ⊢
    exact eCount
  space := by
    have space := ok.space
    simp only [waiting, Role.owed] at space ⊢
    exact space
  blockCount := ok.blockCount

/-- The assertion `item != NULL` of a read never fails. -/
theorem exists_item
    (ok : StreamOk config i view)
    (topping : view.role = .top) :
    ∃ item rest, view.items = item :: rest := by
  have nCount := ok.nCount
  have nLow := ok.nLow
  have released := view.pc.account_nonneg.2
  simp only [topping, Role.reserved] at nCount nLow
  simp at nLow
  cases items : view.items with
  | nil =>
      simp only [items, List.length_nil] at nCount
      omega
  | cons item rest => exact ⟨item, rest, rfl⟩

/-- Taking the top item and popping it. -/
theorem topAndPop
    (ok : StreamOk config i view)
    (topping : view.role = .top)
    {item : α}
    {rest : List α}
    (items : view.items = item :: rest) :
    StreamOk config i
      { view with
        stream :=
          { view.stream with
            buffer := config.impl.lpelBufferPop view.stream.buffer }
        role := .release
        items := rest
        popped := view.popped ++ [item] } where
  holds := config.impl.pop_holds (items ▸ ok.holds)
  fifo := by simp [ok.fifo, items]
  ofScript := ok.ofScript
  pending := ok.pending
  nCount := by
    have nCount := ok.nCount
    simp only [topping, items, List.length_cons, Role.reserved] at nCount ⊢
    omega
  nLow := by
    have nLow := ok.nLow
    simp only [topping] at nLow
    simpa using nLow
  eCount := by
    intro bounded
    have eCount := ok.eCount bounded
    simp only [topping, items, List.length_cons, Role.unreleased] at eCount ⊢
    omega
  space := by
    have space := ok.space
    simp only [topping, Role.owed] at space ⊢
    exact space
  blockCount := ok.blockCount

/-- V on `e_sem` releases the emptied cell and finds out whether the producer
waits for it. -/
theorem releaseCell
    (ok : StreamOk config i view)
    (releasing : view.role = .release)
    (bounded : config.bounded i = true) :
    StreamOk config i
      { view with
        stream := { view.stream with eSem := view.stream.eSem + 1 }
        role := if view.stream.eSem < 0 then .wake else .none } where
  holds := ok.holds
  fifo := ok.fifo
  ofScript := ok.ofScript
  pending := ok.pending
  nCount := by
    have nCount := ok.nCount
    simp only [releasing, Role.reserved] at nCount
    have reservedZero :
        (if view.stream.eSem < 0 then Role.wake else Role.none).reserved = 0 := by
      split <;> rfl
    simp only [reservedZero]
    exact nCount
  nLow := by
    have nLow := ok.nLow
    simp only [releasing] at nLow
    left
    simpa using nLow
  eCount := by
    intro _
    have eCount := ok.eCount bounded
    simp only [releasing, Role.unreleased] at eCount
    have unreleasedZero :
        (if view.stream.eSem < 0 then Role.wake else Role.none).unreleased = 0 := by
      split <;> rfl
    simp only [unreleasedZero]
    omega
  space := by
    have space := ok.space
    simp only [SpaceOk, bounded, if_true, releasing, Role.owed,
      Nat.add_zero] at space ⊢
    right
    rcases space with ⟨waiting, none, noWake⟩ | ⟨some, owed⟩
    · simp [waiting, none, noWake]
    · refine ⟨by omega, ?_⟩
      rw [if_neg (by omega)]
      exact owed
  blockCount := ok.blockCount

/-- A read of an unbounded stream releases nothing. -/
theorem releaseNothing
    (ok : StreamOk config i view)
    (releasing : view.role = .release)
    (unbounded : config.bounded i = false) :
    StreamOk config i { view with role := .none } where
  holds := ok.holds
  fifo := ok.fifo
  ofScript := ok.ofScript
  pending := ok.pending
  nCount := by
    have nCount := ok.nCount
    simp only [releasing, Role.reserved] at nCount ⊢
    exact nCount
  nLow := by
    have nLow := ok.nLow
    simp only [releasing] at nLow
    left
    simpa using nLow
  eCount := by
    intro bounded
    simp [unbounded] at bounded
  space := by
    have space := ok.space
    simp only [releasing, Role.owed] at space ⊢
    exact space
  blockCount := ok.blockCount

/-- `LpelTaskUnblock` sends the producer the wakeup it is owed. -/
theorem unblockProducer
    (ok : StreamOk config i view)
    (waking : view.role = .wake) :
    view.pc.waits = true ∧
      StreamOk config i
        { view with
          role := .none
          wake := view.wake + 1
          unblocks := view.unblocks + 1 } := by
  have space := ok.space
  have waiting : view.pc.waits = true ∧ view.wake = 0 := by
    simp only [SpaceOk, waking, Role.owed] at space
    cases waits : view.pc.waits with
    | false => simp [waits] at space
    | true =>
        simp [waits] at space ⊢
        omega
  refine ⟨waiting.1, ?_⟩
  exact
    { holds := ok.holds
      fifo := ok.fifo
      ofScript := ok.ofScript
      pending := ok.pending
      nCount := by
        have nCount := ok.nCount
        simp only [waking, Role.reserved] at nCount ⊢
        exact nCount
      nLow := by
        have nLow := ok.nLow
        simp only [waking] at nLow
        left
        simpa using nLow
      eCount := by
        intro bounded
        have eCount := ok.eCount bounded
        simp only [waking, Role.unreleased] at eCount ⊢
        exact eCount
      space := by
        simp only [waking, Role.owed] at space ⊢
        exact space
      blockCount := by
        have blockCount := ok.blockCount
        simp only [waiting, and_self, if_true] at blockCount ⊢
        simp [blockCount] }

/-- Both counters of a bounded stream stay between -1 and its size. -/
theorem bounds
    (ok : StreamOk config i view)
    (bounded : config.bounded i = true) :
    (-1 ≤ view.stream.nSem ∧ view.stream.nSem ≤ (config.size i).val) ∧
      (-1 ≤ view.stream.eSem ∧ view.stream.eSem ≤ (config.size i).val) := by
  have nCount := ok.nCount
  have nLow := ok.nLow
  have eCount := ok.eCount bounded
  have space := ok.space
  have written := view.pc.account_nonneg
  have read := view.role.account_nonneg
  simp only [SpaceOk, bounded, if_true] at space
  have eLow : -1 ≤ view.stream.eSem ∧
      0 ≤ view.stream.eSem + view.pc.reserved := by
    rcases space with ⟨waits, none, -⟩ | ⟨free, -⟩
    · have reserved := (ProdPc.reserved_of_waits waits).1
      omega
    · omega
  refine ⟨⟨?_, ?_⟩, eLow.1, ?_⟩
  · omega
  · omega
  · omega

/-- A waiting producer for which there is a cell has its wakeup coming. -/
theorem producer_signalled
    (ok : StreamOk config i view)
    (waits : view.pc.waits = true)
    (free : 0 ≤ view.stream.eSem) :
    0 < view.wake ∨ view.role = .wake := by
  have space := ok.space
  simp only [SpaceOk, waits, Bool.toNat_true] at space
  by_cases bounded : config.bounded i = true
  · rw [if_pos bounded] at space
    rcases space with ⟨-, none, -⟩ | ⟨-, owed⟩
    · omega
    · cases role : view.role with
      | wake => exact Or.inr rfl
      | none | waiting | top | release =>
          simp only [role, Role.owed] at owed
          omega
  · rw [if_neg bounded] at space
    exact absurd space.1 (by decide)

/-- A delivered wakeup is the only one, and its producer waits for it. -/
theorem producer_woken
    (ok : StreamOk config i view)
    (woken : 0 < view.wake) :
    view.wake = 1 ∧ view.pc.waits = true := by
  have space := ok.space
  unfold SpaceOk at space
  cases waits : view.pc.waits with
  | true =>
      refine ⟨?_, rfl⟩
      simp only [waits, Bool.toNat_true] at space
      split at space
      · omega
      · exact absurd space.1 (by decide)
  | false =>
      exfalso
      simp only [waits, Bool.toNat_false] at space
      split at space
      · rcases space with ⟨impossible, -⟩ | ⟨-, owed⟩
        · exact absurd impossible (by decide)
        · omega
      · omega

/-- A waiting producer and a consumer that found no item cannot both go without
a wakeup: the buffer would be empty and full. -/
theorem no_deadlock
    (ok : StreamOk config i view)
    (waits : view.pc.waits = true)
    (reading : view.role = .waiting)
    (none : view.stream.nSem = -1) :
    0 < view.wake := by
  have space := ok.space
  have nCount := ok.nCount
  obtain ⟨reserved, unreleased⟩ := ProdPc.reserved_of_waits waits
  simp only [SpaceOk, waits, reading, Role.owed, Bool.toNat_true] at space
  simp only [reading, Role.reserved, unreleased, none] at nCount
  split at space
  case isTrue bounded =>
    have eCount := ok.eCount bounded
    simp only [reading, Role.unreleased, reserved] at eCount
    have positive := (config.size i).pos
    rcases space with ⟨-, noCell, -⟩ | ⟨-, owed⟩
    · omega
    · omega
  case isFalse => exact absurd space.1 (by decide)

end StreamOk

end StreamSystem
end Lpel
