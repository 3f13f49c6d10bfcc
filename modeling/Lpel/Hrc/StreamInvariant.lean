import Lpel.Hrc.Stream

/-!
# The unbounded stream protocol

The linked buffer alone is not safe: between linking a new entry and advancing
the tail the reader could pop up to the entry the writer still points at.  Only
`n_sem` keeps the reader away from it.  The invariant therefore spans both
layers: an account of `n_sem` and of the wakeups of the consumer, and the shape
of the list with the positions of both sides in it.
-/

namespace Lpel
namespace Hrc

variable {α : Type}

namespace WritePc

/-- The item the producer has put and not yet released. -/
def unreleased : WritePc α → ℤ
  | .vN => 1
  | _ => 0

/-- The producer is committed to waking the consumer. -/
def owes : WritePc α → Bool
  | .lookup | .unblock => true
  | _ => false

/-- The entry that is linked but not yet reached by the tail. -/
def ahead : WritePc α → List (ℕ × α)
  | .advance address item => [(address, item)]
  | _ => []

/-- The entry that is created but not yet linked. -/
def created : WritePc α → Option (ℕ × α)
  | .link address item => some (address, item)
  | _ => none

end WritePc

namespace ReadPc

/-- The item the consumer has reserved and not yet popped. -/
def reserved : ReadPc α → ℤ
  | .toBlock | .blocked | .top | .pop _ => 1
  | _ => 0

/-- The consumer has committed to block and has not been resumed. -/
def waits : ReadPc α → Bool
  | .toBlock | .blocked => true
  | _ => false

/-- The old head, between advancing the head and freeing it. -/
def releasing : ReadPc α → Option ℕ
  | .release old => some old
  | _ => none

/-- The item read and not yet popped. -/
def popping : ReadPc α → Option α
  | .pop item => some item
  | _ => none

end ReadPc

/-- The account of `n_sem`: it counts the released items that are not reserved,
and a consumer that found none has its wakeup coming once there is one. -/
structure Account
    (nSem : ℤ)
    (unread : ℤ)
    (prod : WritePc α)
    (cons : ReadPc α)
    (consWake blocks unblocks : ℕ) : Prop where
  count : nSem = unread - prod.unreleased - cons.reserved
  signal : if cons.waits = true then
      (nSem = -1 ∧ prod.owes = false ∧ consWake = 0) ∨
        (0 ≤ nSem ∧ prod.owes = true ∧ consWake = 0) ∨
        (0 ≤ nSem ∧ prod.owes = false ∧ consWake = 1)
    else 0 ≤ nSem ∧ prod.owes = false ∧ consWake = 0
  wakeups : blocks =
    unblocks + if cons.waits = true ∧ consWake = 0 then 1 else 0

/-- The shape of the buffer.  `nodes` are the entries the tail has reached. -/
structure Shape
    (buf : Buffer α)
    (prod : WritePc α)
    (cons : ReadPc α)
    (nodes : List (ℕ × α)) : Prop where
  spells : buf.Spells (nodes ++ prod.ahead)
  tail_eq : buf.tail = lastAddress buf.head nodes
  ahead : ∀ node ∈ prod.ahead, nextEntry buf buf.tail = some node.1
  created : ∀ node ∈ prod.created,
    buf.heap node.1 = some ⟨some node.2, none⟩ ∧
      node.1 ∉ addresses buf.head (nodes ++ prod.ahead)
  releasing : ∀ old ∈ cons.releasing,
    buf.heap old ≠ none ∧ old ∉ addresses buf.head (nodes ++ prod.ahead) ∧
      ∀ node ∈ prod.created, old ≠ node.1
  popping : ∀ item ∈ cons.popping, nodes.head?.map Prod.snd = some item

/-- The invariant of the unbounded protocol. -/
structure Invariant (stream : Stream α) : Prop where
  account : Account stream.nSem (stream.written.length - stream.popped.length)
    stream.prod stream.cons stream.consWake stream.readBlocks
    stream.readUnblocks
  shape : ∃ nodes, Shape stream.buffer stream.prod stream.cons nodes ∧
    stream.written = stream.popped ++ nodes.map Prod.snd

namespace Account

variable {nSem unread : ℤ} {prod : WritePc α} {cons : ReadPc α}
  {consWake blocks unblocks : ℕ}

/-- Steps of either side between positions with the same account. -/
theorem relabel
    (account : Account nSem unread prod cons consWake blocks unblocks)
    {prod' : WritePc α}
    {cons' : ReadPc α}
    (unreleased : prod'.unreleased = prod.unreleased)
    (owes : prod'.owes = prod.owes)
    (reserved : cons'.reserved = cons.reserved)
    (waits : cons'.waits = cons.waits) :
    Account nSem unread prod' cons' consWake blocks unblocks where
  count := by
    rw [unreleased, reserved]
    exact account.count
  signal := by
    rw [owes, waits]
    exact account.signal
  wakeups := by
    rw [waits]
    exact account.wakeups

/-- The end of a put: one more item is there, not yet released. -/
theorem put
    (account : Account nSem unread prod cons consWake blocks unblocks)
    (unreleased : prod.unreleased = 0)
    (owes : prod.owes = false) :
    Account nSem (unread + 1) .vN cons consWake blocks unblocks where
  count := by
    have count := account.count
    simp only [WritePc.unreleased]
    omega
  signal := by
    have signal := account.signal
    rw [owes] at signal
    exact signal
  wakeups := account.wakeups

/-- V on `n_sem` releases the item and finds out whether the consumer waits. -/
theorem releaseItem
    (account : Account nSem unread (.vN : WritePc α) cons consWake blocks
      unblocks) :
    Account (nSem + 1) unread
      (if nSem < 0 then .lookup else .count : WritePc α) cons consWake blocks
      unblocks where
  count := by
    have count := account.count
    simp only [WritePc.unreleased] at count
    split <;> simp only [WritePc.unreleased] <;> omega
  signal := by
    have signal := account.signal
    cases waits : cons.waits with
    | true =>
        simp only [waits, if_true, WritePc.owes] at signal ⊢
        rcases signal with ⟨none, -, noWake⟩ | ⟨-, impossible, -⟩ | sent
        · right
          left
          rw [if_pos (by omega)]
          exact ⟨by omega, rfl, noWake⟩
        · exact absurd impossible (by decide)
        · right
          right
          rw [if_neg (by omega)]
          exact ⟨by omega, rfl, sent.2.2⟩
    | false =>
        simp only [waits, Bool.false_eq_true, if_false, WritePc.owes] at signal ⊢
        rw [if_neg (by omega)]
        exact ⟨by omega, rfl, signal.2.2⟩
  wakeups := account.wakeups

/-- `LpelTaskUnblock` sends the consumer the wakeup it is owed. -/
theorem unblock
    (account : Account nSem unread (.unblock : WritePc α) cons consWake blocks
      unblocks) :
    Account nSem unread (.count : WritePc α) cons (consWake + 1) blocks
      (unblocks + 1) := by
  have signal := account.signal
  have wakeups := account.wakeups
  have count := account.count
  cases waits : cons.waits with
  | false =>
      simp only [waits, Bool.false_eq_true, if_false, WritePc.owes] at signal
      exact absurd signal.2.1 (by decide)
  | true =>
      simp only [waits, if_true, WritePc.owes] at signal
      obtain ⟨released, noWake⟩ : 0 ≤ nSem ∧ consWake = 0 := by
        rcases signal with ⟨-, impossible, -⟩ | ⟨released, -, noWake⟩ |
          ⟨-, impossible, -⟩
        · exact absurd impossible (by decide)
        · exact ⟨released, noWake⟩
        · exact absurd impossible (by decide)
      refine ⟨count, ?_, ?_⟩
      · simp [waits, released, noWake, WritePc.owes]
      · simpa [waits, noWake] using wakeups

/-- P on `n_sem` by an idle consumer. -/
theorem reserveItem
    (account : Account nSem unread prod cons consWake blocks unblocks)
    (reserved : cons.reserved = 0)
    (waits : cons.waits = false) :
    Account (nSem - 1) unread prod
      (if nSem = 0 then .toBlock else .top : ReadPc α) consWake
      (if nSem = 0 then blocks + 1 else blocks) unblocks := by
  have signal := account.signal
  have wakeups := account.wakeups
  have count := account.count
  simp only [waits, Bool.false_eq_true, if_false, false_and] at signal wakeups
  obtain ⟨released, noDebt, noWake⟩ := signal
  by_cases none : nSem = 0
  · simp only [none, if_true]
    refine ⟨?_, ?_, ?_⟩
    · simp only [ReadPc.reserved]
      omega
    · simp [ReadPc.waits, noDebt, noWake]
    · simp [ReadPc.waits, noWake, wakeups]
  · simp only [none, if_false]
    refine ⟨?_, ?_, ?_⟩
    · simp only [ReadPc.reserved]
      omega
    · simp only [ReadPc.waits, Bool.false_eq_true, if_false]
      exact ⟨by omega, noDebt, noWake⟩
    · simpa [ReadPc.waits] using wakeups

/-- A delivered wakeup lets the consumer go on to the item released for it. -/
theorem resume
    (account : Account nSem unread prod (.blocked : ReadPc α) consWake blocks
      unblocks)
    (woken : 0 < consWake) :
    Account nSem unread prod (.top : ReadPc α) (consWake - 1) blocks
      unblocks := by
  have signal := account.signal
  have wakeups := account.wakeups
  have count := account.count
  simp only [ReadPc.waits, if_true] at signal
  obtain ⟨released, noDebt, sent⟩ : 0 ≤ nSem ∧ prod.owes = false ∧
      consWake = 1 := by
    rcases signal with ⟨-, -, noWake⟩ | ⟨-, -, noWake⟩ | sent
    · omega
    · omega
    · exact sent
  refine ⟨count, ?_, ?_⟩
  · simp [ReadPc.waits, released, noDebt, sent]
  · simpa [ReadPc.waits, sent] using wakeups

/-- Popping an item takes it out of the account. -/
theorem pop
    {item : α}
    (account : Account nSem unread prod (.pop item) consWake blocks unblocks)
    (old : ℕ) :
    Account nSem (unread - 1) prod (.release old : ReadPc α) consWake blocks
      unblocks where
  count := by
    have count := account.count
    simp only [ReadPc.reserved] at count ⊢
    omega
  signal := account.signal
  wakeups := account.wakeups

/-- A consumer past its P operation has an item to take. -/
theorem unread_pos
    (account : Account nSem unread prod cons consWake blocks unblocks)
    (reserved : cons.reserved = 1)
    (waits : cons.waits = false) :
    0 < unread := by
  have signal := account.signal
  have count := account.count
  simp only [waits, Bool.false_eq_true, if_false] at signal
  have released : 0 ≤ prod.unreleased := by
    cases prod <;> simp [WritePc.unreleased]
  omega

/-- `n_sem` is never below -1. -/
theorem nSem_ge
    (account : Account nSem unread prod cons consWake blocks unblocks) :
    -1 ≤ nSem := by
  have signal := account.signal
  split at signal
  · omega
  · omega

end Account

namespace Shape

variable {buf : Buffer α} {prod : WritePc α} {cons : ReadPc α}
  {nodes : List (ℕ × α)}

/-- Steps of either side between positions of the same shape. -/
theorem relabel
    (shape : Shape buf prod cons nodes)
    {prod' : WritePc α}
    {cons' : ReadPc α}
    (ahead : prod'.ahead = prod.ahead)
    (created : prod'.created = prod.created)
    (releasing : cons'.releasing = cons.releasing)
    (popping : cons'.popping = cons.popping) :
    Shape buf prod' cons' nodes := by
  constructor
  · rw [ahead]
    exact shape.spells
  · exact shape.tail_eq
  · rw [ahead]
    exact shape.ahead
  · rw [ahead, created]
    exact shape.created
  · rw [ahead, created, releasing]
    exact shape.releasing
  · rw [popping]
    exact shape.popping

/-- The tail is an entry of the list. -/
theorem tail_mem
    (shape : Shape buf prod cons nodes) :
    buf.tail ∈ addresses buf.head (nodes ++ prod.ahead) := by
  have member := lastAddress_mem buf.head nodes
  rw [← shape.tail_eq] at member
  simp only [addresses, List.map_append, List.mem_cons, List.mem_append]
    at member ⊢
  rcases member with first | rest
  · exact Or.inl first
  · exact Or.inr (Or.inl rest)

/-- Creating an entry at an address that is not allocated. -/
theorem createEntry
    {item : α}
    (shape : Shape buf (.alloc item) cons nodes)
    {address : ℕ}
    (fresh : buf.heap address = none) :
    Shape (createEntry buf address (some item)) (.link address item) cons
      nodes := by
  have outside : address ∉ addresses buf.head (nodes ++ []) := by
    intro member
    exact shape.spells.linked.allocated member fresh
  refine ⟨shape.spells.createEntry outside _, shape.tail_eq, ?_, ?_, ?_,
    shape.popping⟩
  · simp [WritePc.ahead]
  · intro node created
    obtain rfl : (address, item) = node := by
      simpa [WritePc.created] using created
    exact ⟨Function.update_self _ _ _, outside⟩
  · intro old releasing
    obtain ⟨allocated, notListed, -⟩ := shape.releasing old releasing
    have other : old ≠ address := by
      rintro rfl
      exact allocated fresh
    refine ⟨?_, notListed, ?_⟩
    · simpa [Hrc.createEntry, other] using allocated
    · intro node created
      obtain rfl : (address, item) = node := by
        simpa [WritePc.created] using created
      exact other

/-- Linking the created entry behind the tail. -/
theorem linkTail
    {address : ℕ}
    {item : α}
    (shape : Shape buf (.link address item) cons nodes) :
    Shape (linkTail buf address) (.advance address item) cons nodes := by
  obtain ⟨entry, outside⟩ := shape.created (address, item) rfl
  have holds : buf.Holds nodes := by
    refine ⟨?_, shape.tail_eq⟩
    have spells := shape.spells
    simpa [WritePc.ahead] using spells
  have outside' : address ∉ addresses buf.head nodes := by
    simpa [WritePc.ahead] using outside
  obtain ⟨spells, linked⟩ := holds.linkTail outside' entry
  refine ⟨spells, shape.tail_eq, ?_, ?_, ?_, shape.popping⟩
  · intro node ahead
    obtain rfl : node = (address, item) := by
      simpa [WritePc.ahead] using ahead
    exact linked
  · intro node created
    simp [WritePc.created] at created
  · intro old releasing
    obtain ⟨allocated, notListed, notCreated⟩ := shape.releasing old releasing
    have notTail : old ≠ buf.tail := by
      rintro rfl
      exact notListed shape.tail_mem
    refine ⟨?_, ?_, ?_⟩
    · simpa [Hrc.linkTail, notTail] using allocated
    · have notNew : old ≠ address := notCreated (address, item) rfl
      simp only [WritePc.ahead, List.append_nil, addresses, List.mem_cons,
        not_or] at notListed
      simp only [WritePc.ahead, addresses, List.map_append, List.map_cons,
        List.map_nil, List.mem_cons, List.mem_append, List.not_mem_nil,
        or_false, not_or]
      exact ⟨notListed.1, notListed.2, notNew⟩
    · simp [WritePc.created]

/-- Advancing the tail over the linked entry. -/
theorem advanceTail
    {address : ℕ}
    {item : α}
    (shape : Shape buf (.advance address item) cons nodes) :
    Shape (advanceTail buf) .vN cons (nodes ++ [(address, item)]) := by
  have linked := shape.ahead (address, item) (by simp [WritePc.ahead])
  have holds := Buffer.Holds.advanceTail shape.spells linked
  refine ⟨?_, holds.tail_eq, ?_, ?_, ?_, ?_⟩
  · have spells := holds.toSpells
    simpa [WritePc.ahead] using spells
  · simp [WritePc.ahead]
  · simp [WritePc.created]
  · intro old releasing
    obtain ⟨allocated, notListed, -⟩ := shape.releasing old releasing
    refine ⟨allocated, ?_, by simp [WritePc.created]⟩
    simpa [WritePc.ahead, Hrc.advanceTail] using notListed
  · intro item' popping
    have first := shape.popping item' popping
    cases nodes with
    | nil => simp at first
    | cons node nodes => simpa using first

/-- The top of a nonempty list. -/
theorem top
    (shape : Shape buf prod .top nodes)
    {node : ℕ × α}
    {rest : List (ℕ × α)}
    (nonempty : nodes = node :: rest) :
    lpelBufferTop buf = some node.2 ∧
      Shape buf prod (.pop node.2) nodes := by
  subst nonempty
  refine ⟨?_, shape.spells, shape.tail_eq, shape.ahead, shape.created, ?_, ?_⟩
  · rw [shape.spells.top]
    rfl
  · simp [ReadPc.releasing]
  · intro item popping
    obtain rfl : node.2 = item := by
      simpa [ReadPc.popping] using popping
    rfl

/-- Advancing the head over the item read: the old head is neither the tail nor
any other entry in use. -/
theorem advanceHead
    {node : ℕ × α}
    (shape : Shape buf prod (.pop node.2) (node :: nodes)) :
    Shape (advanceHead buf) prod (.release buf.head) nodes := by
  have spells : buf.Spells (node :: (nodes ++ prod.ahead)) := shape.spells
  obtain ⟨head, spells'⟩ := spells.advanceHead
  have notListed : buf.head ∉
      addresses (Hrc.advanceHead buf).head (nodes ++ prod.ahead) := by
    rw [head]
    exact spells.head_not_mem
  refine ⟨spells', ?_, shape.ahead, ?_, ?_, ?_⟩
  · rw [head]
    exact shape.tail_eq
  · intro entry created
    obtain ⟨cell, outside⟩ := shape.created entry created
    refine ⟨cell, ?_⟩
    rw [head]
    intro member
    apply outside
    simp only [addresses, List.cons_append, List.map_cons,
      List.mem_cons] at member ⊢
    exact Or.inr member
  · intro old releasing
    obtain rfl : buf.head = old := by
      simpa [ReadPc.releasing] using releasing
    refine ⟨?_, notListed, ?_⟩
    · exact spells.linked.allocated (by simp [addresses])
    · intro entry created equal
      apply (shape.created entry created).2
      rw [← equal]
      simp [addresses]
  · simp [ReadPc.popping]

/-- Freeing the old head. -/
theorem freeEntry
    {old : ℕ}
    (shape : Shape buf prod (.release old) nodes) :
    Shape (freeEntry buf old) prod .typeTest nodes := by
  obtain ⟨-, notListed, notCreated⟩ := shape.releasing old rfl
  have notTail : buf.tail ≠ old := by
    rintro rfl
    exact notListed shape.tail_mem
  refine ⟨shape.spells.freeEntry notListed, shape.tail_eq, ?_, ?_, ?_, ?_⟩
  · intro node ahead
    have linked := shape.ahead node ahead
    simpa [nextEntry, Hrc.freeEntry, notTail] using linked
  · intro node created
    obtain ⟨cell, outside⟩ := shape.created node created
    refine ⟨?_, outside⟩
    have other : node.1 ≠ old := Ne.symm (notCreated node created)
    simpa [Hrc.freeEntry, other] using cell
  · simp [ReadPc.releasing]
  · simp [ReadPc.popping]

end Shape

namespace Invariant

variable {before after : Stream α}

/-- A new stream satisfies the invariant. -/
theorem create (size : StreamSize) :
    Invariant (lpelStreamCreate size : Stream α) where
  account := ⟨rfl, ⟨Int.le_refl 0, rfl, rfl⟩, rfl⟩
  shape := by
    have holds := Buffer.Holds.init (α := α) 0
    refine ⟨[], ⟨?_, holds.tail_eq, ?_, ?_, ?_, ?_⟩, rfl⟩
    · exact holds.toSpells
    · simp [lpelStreamCreate, WritePc.ahead]
    · simp [lpelStreamCreate, WritePc.created]
    · simp [lpelStreamCreate, ReadPc.releasing]
    · simp [lpelStreamCreate, ReadPc.popping]

/-- Steps of the producer between positions with the same account and shape. -/
theorem relabelProd
    (invariant : Invariant before)
    {prod : WritePc α}
    (account : prod.unreleased = before.prod.unreleased ∧
      prod.owes = before.prod.owes)
    (shape : prod.ahead = before.prod.ahead ∧
      prod.created = before.prod.created) :
    Invariant { before with prod := prod } := by
  obtain ⟨nodes, kept, fifo⟩ := invariant.shape
  exact ⟨invariant.account.relabel account.1 account.2 rfl rfl, nodes,
    kept.relabel shape.1 shape.2 rfl rfl, fifo⟩

/-- Steps of the consumer between positions with the same account and shape. -/
theorem relabelCons
    (invariant : Invariant before)
    {cons : ReadPc α}
    (account : cons.reserved = before.cons.reserved ∧
      cons.waits = before.cons.waits)
    (shape : cons.releasing = before.cons.releasing ∧
      cons.popping = before.cons.popping) :
    Invariant { before with cons := cons } := by
  obtain ⟨nodes, kept, fifo⟩ := invariant.shape
  exact ⟨invariant.account.relabel rfl rfl account.1 account.2, nodes,
    kept.relabel rfl rfl shape.1 shape.2, fifo⟩

/-- A step that leaves alone all that the invariant is about. -/
theorem frame
    (invariant : Invariant before)
    (buffer : after.buffer = before.buffer)
    (nSem : after.nSem = before.nSem)
    (sides : after.prod = before.prod ∧ after.cons = before.cons)
    (wakeups : after.consWake = before.consWake ∧
      after.readBlocks = before.readBlocks ∧
      after.readUnblocks = before.readUnblocks)
    (items : after.written = before.written ∧ after.popped = before.popped) :
    Invariant after := by
  refine ⟨?_, ?_⟩
  · rw [nSem, sides.1, sides.2, wakeups.1, wakeups.2.1, wakeups.2.2, items.1,
      items.2]
    exact invariant.account
  · rw [buffer, sides.1, sides.2, items.1, items.2]
    exact invariant.shape

/-- Every step keeps the invariant. -/
theorem step
    (invariant : Invariant before)
    {label : StreamLabel α}
    (taken : streamNext before label = some after) :
    Invariant after := by
  have account := invariant.account
  obtain ⟨nodes, shape, fifo⟩ := invariant.shape
  cases StreamStep.of_next taken with
  | openWrite | openRead | closeOut | takeOver =>
      exact invariant.frame rfl rfl ⟨rfl, rfl⟩ ⟨rfl, rfl, rfl⟩ ⟨rfl, rfl⟩
  | writeEntry position | writeOther position
  | reserveNone position | reserveSome position | block position
  | lookup position | countWrite position | resumeProd position =>
      refine (invariant.relabelProd ?_ ?_).frame rfl rfl ⟨rfl, rfl⟩
        ⟨rfl, rfl, rfl⟩ ⟨rfl, rfl⟩
      · simp [position, WritePc.unreleased, WritePc.owes]
      · simp [position, WritePc.ahead, WritePc.created]
  | alloc position fresh =>
      rw [position] at account shape
      exact ⟨account.relabel rfl rfl rfl rfl, nodes, shape.createEntry fresh,
        fifo⟩
  | link position =>
      rw [position] at account shape
      exact ⟨account.relabel rfl rfl rfl rfl, nodes, shape.linkTail, fifo⟩
  | @advance _ new item position =>
      rw [position] at account shape
      refine ⟨?_, nodes ++ [(new, item)], shape.advanceTail, by simp [fifo]⟩
      have put := account.put rfl rfl
      convert put using 1
      simp only [List.length_append, List.length_singleton]
      omega
  | releaseWaiting position waiting =>
      rw [position] at account shape
      have released := account.releaseItem
      rw [if_pos waiting] at released
      exact ⟨released, nodes, shape.relabel rfl rfl rfl rfl, fifo⟩
  | release position free =>
      rw [position] at account shape
      have released := account.releaseItem
      rw [if_neg free] at released
      exact ⟨released, nodes, shape.relabel rfl rfl rfl rfl, fifo⟩
  | unblock position =>
      rw [position] at account shape
      exact ⟨account.unblock, nodes, shape.relabel rfl rfl rfl rfl, fifo⟩
  | readNone idle none =>
      rw [idle] at account shape
      have reserved := account.reserveItem rfl rfl
      rw [if_pos none, if_pos none] at reserved
      exact ⟨reserved, nodes, shape.relabel rfl rfl rfl rfl, fifo⟩
  | readSome idle some =>
      rw [idle] at account shape
      have reserved := account.reserveItem rfl rfl
      rw [if_neg some, if_neg some] at reserved
      exact ⟨reserved, nodes, shape.relabel rfl rfl rfl rfl, fifo⟩
  | blockRead position | testEntry position | testOther position
  | spaceWaiting position | space position | lookupProd position
  | unblockProd position | countRead position | pool position =>
      refine (invariant.relabelCons ?_ ?_).frame rfl rfl ⟨rfl, rfl⟩
        ⟨rfl, rfl, rfl⟩ ⟨rfl, rfl⟩
      · simp [position, ReadPc.reserved, ReadPc.waits]
      · simp [position, ReadPc.releasing, ReadPc.popping]
  | freeStream _ idle =>
      refine (invariant.relabelCons ?_ ?_).frame rfl rfl ⟨rfl, rfl⟩
        ⟨rfl, rfl, rfl⟩ ⟨rfl, rfl⟩
      · simp [idle, ReadPc.reserved, ReadPc.waits]
      · simp [idle, ReadPc.releasing, ReadPc.popping]
  | @top item position first =>
      rw [position] at account shape
      have unread := account.unread_pos rfl rfl
      cases nodes with
      | nil => simp [fifo] at unread
      | cons node rest =>
          obtain ⟨top, shape'⟩ := shape.top rfl
          obtain rfl : node.2 = item := by
            rw [first] at top
            exact (Option.some.inj top).symm
          exact ⟨account.relabel rfl rfl rfl rfl, node :: rest, shape', fifo⟩
  | @pop item position =>
      rw [position] at account shape
      have first := shape.popping item rfl
      cases nodes with
      | nil => simp at first
      | cons node rest =>
          obtain rfl : node.2 = item := by simpa using first
          refine ⟨?_, rest, shape.advanceHead, by simp [fifo]⟩
          have popped := account.pop before.buffer.head
          convert popped using 1
          simp only [List.length_append, List.length_singleton]
          omega
  | free position =>
      rw [position] at account shape
      exact ⟨account.relabel rfl rfl rfl rfl, nodes, shape.freeEntry, fifo⟩
  | resumeCons position woken =>
      rw [position] at account shape
      exact ⟨account.resume woken, nodes, shape.relabel rfl rfl rfl rfl, fifo⟩

/-- The invariant holds in every reachable state. -/
theorem ofReachable
    {size : StreamSize}
    {stream : Stream α}
    (reached : (streamMachine α size).Reachable stream) :
    Invariant stream := by
  refine Machine.Reachable.invariant ?_ ?_ reached
  · rintro _ rfl
    exact Invariant.create size
  · intro _ _ _ held taken
    exact held.step taken

end Invariant

/-- What the unbounded protocol guarantees in every state. -/
structure UnboundedStream (stream : Stream α) : Prop where
  nSem_ge : -1 ≤ stream.nSem
  /-- The assertion after the top. -/
  item : stream.cons = .top → lpelBufferTop stream.buffer ≠ none
  /-- The items read are a prefix of the items written. -/
  fifo : stream.popped <+: stream.written
  /-- Each block of the consumer but the one still waiting for it has had its one
  `LpelTaskUnblock`. -/
  wakeups : stream.readBlocks = stream.readUnblocks +
    if stream.cons.waits = true ∧ stream.consWake = 0 then 1 else 0
  woken : 0 < stream.consWake → stream.consWake = 1 ∧ stream.cons.waits = true
  /-- A consumer that waits although there is an item has its wakeup coming. -/
  signalled : stream.cons.waits = true → 0 ≤ stream.nSem →
    0 < stream.consWake ∨ stream.prod = .lookup ∨ stream.prod = .unblock
  /-- The entry being released is not the tail, nor the entry a put is about to
  link or to advance to. -/
  released : ∀ old, stream.cons = .release old →
    old ≠ stream.buffer.tail ∧ ∀ address item,
      stream.prod = .link address item ∨ stream.prod = .advance address item →
        old ≠ address
  /-- The entry a put dereferences is allocated. -/
  tail_live : stream.buffer.heap stream.buffer.tail ≠ none

/-- The unbounded protocol is correct in every interleaving. -/
theorem unboundedStreamProtocol
    {size : StreamSize}
    {stream : Stream α}
    (reached : (streamMachine α size).Reachable stream) :
    UnboundedStream stream := by
  have invariant := Invariant.ofReachable reached
  have account := invariant.account
  have signal := account.signal
  obtain ⟨nodes, shape, fifo⟩ := invariant.shape
  refine
    { nSem_ge := account.nSem_ge
      item := ?_
      fifo := ⟨nodes.map Prod.snd, fifo.symm⟩
      wakeups := account.wakeups
      woken := ?_
      signalled := ?_
      released := ?_
      tail_live := shape.spells.linked.allocated shape.tail_mem }
  · intro position
    rw [position] at account
    have unread := account.unread_pos rfl rfl
    cases nodes with
    | nil => simp [fifo] at unread
    | cons node rest =>
        rw [shape.spells.top]
        simp
  · intro sent
    split at signal
    case isTrue waits => exact ⟨by omega, waits⟩
    case isFalse => omega
  · intro waits released
    rw [if_pos waits] at signal
    rcases signal with ⟨none, -⟩ | ⟨-, owes, -⟩ | ⟨-, -, sent⟩
    · omega
    · right
      cases position : stream.prod <;> simp_all [WritePc.owes]
    · left
      omega
  · intro old position
    obtain ⟨-, notListed, notCreated⟩ :=
      shape.releasing old (by rw [position]; rfl)
    refine ⟨?_, ?_⟩
    · rintro rfl
      exact notListed shape.tail_mem
    · rintro address item (linking | advancing)
      · exact notCreated (address, item) (by rw [linking]; rfl)
      · rintro rfl
        apply notListed
        simp [advancing, WritePc.ahead, addresses]

/-- The consumer blocks, is woken by the first write and is about to free the old
head. -/
def blockedRead : List (StreamLabel ℕ) :=
  [.openWrite false, .openRead false, .read, .cons, .write 7, .prod 1, .prod 0,
    .prod 0, .prod 0, .prod 0, .prod 0, .resumeCons, .cons, .cons]

/-- The protocol is correct while the old head is being released. -/
theorem unboundedStreamProtocol_blockedRead :
    ∃ stream : Stream ℕ, (streamMachine ℕ streamBufferSize).Reachable stream ∧
      stream.cons = .release 0 ∧ UnboundedStream stream := by
  obtain ⟨stream, reached, tested⟩ := Machine.exists_reachable_of_run
    (rfl : (streamMachine ℕ streamBufferSize).init
      (lpelStreamCreate streamBufferSize))
    (by decide : ((streamMachine ℕ streamBufferSize).run
      (lpelStreamCreate streamBufferSize) blockedRead).map
      (fun stream => decide (stream.cons = .release 0)) = some true)
  exact ⟨stream, reached, of_decide_eq_true tested,
    unboundedStreamProtocol reached⟩

end Hrc
end Lpel
