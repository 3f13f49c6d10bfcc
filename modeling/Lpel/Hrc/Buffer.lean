import Lpel.Buffer
import Lpel.Lib.LinkedList

/-!
# The hierarchical linked buffer

`hrc_buffer.c` keeps the items of a stream in a linked list of entries.  `head`
points at a dummy entry whose successor holds the oldest item; the writer
modifies only `tail` and the entry it points at, the reader only `head`.

`LpelBufferPut` and `LpelBufferPop` are composed of the memory accesses they
make, so that a stream can interleave them.
-/

namespace Lpel
namespace Hrc

variable {α : Type}

/-- `buffer_t` of `hrc_buffer.h` with the allocated entries. -/
structure Buffer (α : Type) where
  heap : Heap α
  head : ℕ
  tail : ℕ

/-- The entry behind the given one; following `NULL` yields `none`. -/
def nextEntry (buf : Buffer α) (address : ℕ) : Option ℕ :=
  (buf.heap address).bind Cell.next

/-- `createEntry` at the address that `malloc` returns. -/
def createEntry (buf : Buffer α) (address : ℕ) (data : Option α) : Buffer α :=
  { buf with heap := Function.update buf.heap address (some ⟨data, none⟩) }

/-- `free`. -/
def freeEntry (buf : Buffer α) (address : ℕ) : Buffer α :=
  { buf with heap := Function.update buf.heap address none }

/-- `LpelBufferInit`, with the dummy entry at the given address. -/
def lpelBufferInit (address : ℕ) : Buffer α :=
  createEntry { heap := fun _ => none, head := address, tail := address }
    address none

/-- `LpelBufferTop`. -/
def lpelBufferTop (buf : Buffer α) : Option α :=
  (nextEntry buf buf.head).bind fun address =>
    (buf.heap address).bind Cell.data

/-- `LpelBufferIsEmpty`. -/
def lpelBufferIsEmpty (buf : Buffer α) : Bool :=
  (nextEntry buf buf.head).isNone

/-- `buf->head = t->next` in `LpelBufferPop`. -/
def advanceHead (buf : Buffer α) : Buffer α :=
  { buf with head := (nextEntry buf buf.head).getD buf.head }

/-- `LpelBufferPop`. -/
def lpelBufferPop (buf : Buffer α) : Buffer α :=
  if (nextEntry buf buf.head).isNone then buf
  else freeEntry (advanceHead buf) buf.head

/-- `buf->tail->next = ...` in `LpelBufferPut`. -/
def linkTail (buf : Buffer α) (address : ℕ) : Buffer α :=
  { buf with
    heap := Function.update buf.heap buf.tail
      ((buf.heap buf.tail).map fun cell => { cell with next := some address }) }

/-- `buf->tail = buf->tail->next` in `LpelBufferPut`. -/
def advanceTail (buf : Buffer α) : Buffer α :=
  { buf with tail := (nextEntry buf buf.tail).getD buf.tail }

/-- `LpelBufferPut` with the address that `malloc` returns. -/
def lpelBufferPut (buf : Buffer α) (address : ℕ) (item : α) : Buffer α :=
  advanceTail (linkTail (createEntry buf address (some item)) address)

/-- The list of entries behind the dummy. -/
structure Buffer.Spells (buf : Buffer α) (nodes : List (ℕ × α)) : Prop where
  linked : Linked buf.heap buf.head nodes
  nodup : (addresses buf.head nodes).Nodup

/-- The list and the tail at its end. -/
structure Buffer.Holds (buf : Buffer α) (nodes : List (ℕ × α)) : Prop
    extends buf.Spells nodes where
  tail_eq : buf.tail = lastAddress buf.head nodes

namespace Buffer.Spells

variable {buf : Buffer α} {nodes : List (ℕ × α)} {node : ℕ × α}

/-- The top is the oldest item. -/
theorem top
    (spells : buf.Spells nodes) :
    lpelBufferTop buf = nodes.head?.map Prod.snd :=
  spells.linked.first

/-- The successor of the dummy. -/
theorem nextEntry_head
    (spells : buf.Spells (node :: nodes)) :
    nextEntry buf buf.head = some node.1 := by
  obtain ⟨⟨data, cell⟩, -, -⟩ := spells.linked
  simp [nextEntry, cell]

/-- Advancing the head drops the oldest item. -/
theorem advanceHead
    (spells : buf.Spells (node :: nodes)) :
    (advanceHead buf).head = node.1 ∧ (advanceHead buf).Spells nodes := by
  have head : (Hrc.advanceHead buf).head = node.1 := by
    simp [Hrc.advanceHead, spells.nextEntry_head]
  refine ⟨head, ?_, ?_⟩
  · rw [head]
    exact spells.linked.2.2
  · rw [head]
    have nodup := spells.nodup
    simp only [addresses, List.map_cons, List.nodup_cons] at nodup
    simpa [addresses] using nodup.2

/-- The old head is not an entry of the list any more. -/
theorem head_not_mem
    (spells : buf.Spells (node :: nodes)) :
    buf.head ∉ addresses node.1 nodes := by
  have nodup := spells.nodup
  simp only [addresses, List.map_cons, List.nodup_cons] at nodup
  simpa [addresses] using nodup.1

/-- Freeing an address outside of the list keeps it. -/
theorem freeEntry
    (spells : buf.Spells nodes)
    {address : ℕ}
    (outside : address ∉ addresses buf.head nodes) :
    (freeEntry buf address).Spells nodes :=
  ⟨spells.linked.update outside none, spells.nodup⟩

/-- Allocating an address outside of the list keeps it. -/
theorem createEntry
    (spells : buf.Spells nodes)
    {address : ℕ}
    (outside : address ∉ addresses buf.head nodes)
    (data : Option α) :
    (createEntry buf address data).Spells nodes :=
  ⟨spells.linked.update outside _, spells.nodup⟩

end Buffer.Spells

namespace Buffer.Holds

variable {buf : Buffer α} {nodes : List (ℕ × α)}

/-- A fresh buffer holds nothing. -/
theorem init (address : ℕ) :
    (lpelBufferInit address : Buffer α).Holds [] where
  linked := ⟨none, by simp [lpelBufferInit, Hrc.createEntry]⟩
  nodup := by simp [addresses]
  tail_eq := rfl

/-- Linking a created entry behind the tail appends it to the list; the tail is
then one entry behind. -/
theorem linkTail
    (holds : buf.Holds nodes)
    {address : ℕ}
    {item : α}
    (outside : address ∉ addresses buf.head nodes)
    (created : buf.heap address = some ⟨some item, none⟩) :
    (linkTail buf address).Spells (nodes ++ [(address, item)]) ∧
      nextEntry (linkTail buf address) buf.tail = some address := by
  obtain ⟨data, tailCell⟩ := holds.linked.last
  have tailCell' : buf.heap buf.tail = some ⟨data, none⟩ := by
    rw [holds.tail_eq, tailCell]
  refine ⟨⟨?_, ?_⟩, ?_⟩
  · have linked := holds.linked.link holds.nodup outside created tailCell
    rw [← holds.tail_eq] at linked
    simpa [Hrc.linkTail, tailCell'] using linked
  · have nodup := holds.nodup
    simp only [addresses, List.map_append, List.map_cons, List.map_nil,
      List.mem_cons, not_or] at nodup outside ⊢
    rw [← List.cons_append, List.nodup_append]
    refine ⟨nodup, List.nodup_singleton address, ?_⟩
    intro member inside other single equal
    rw [List.mem_singleton.mp single] at equal
    subst equal
    rcases List.mem_cons.mp inside with first | rest
    · exact outside.1 first
    · exact outside.2 rest
  · simp [nextEntry, Hrc.linkTail, tailCell']

/-- Advancing the tail over the linked entry completes the put. -/
theorem advanceTail
    {address : ℕ}
    {item : α}
    (spells : buf.Spells (nodes ++ [(address, item)]))
    (linked : nextEntry buf buf.tail = some address) :
    (advanceTail buf).Holds (nodes ++ [(address, item)]) where
  linked := spells.linked
  nodup := spells.nodup
  tail_eq := by
    simp only [Hrc.advanceTail, linked, Option.getD_some]
    rw [lastAddress_append]

/-- A put at an address that is not in use appends. -/
theorem put
    (holds : buf.Holds nodes)
    {address : ℕ}
    (item : α)
    (outside : address ∉ addresses buf.head nodes) :
    (lpelBufferPut buf address item).Holds (nodes ++ [(address, item)]) := by
  have created : (Hrc.createEntry buf address (some item)).Holds nodes :=
    ⟨holds.createEntry outside _, holds.tail_eq⟩
  have entry : (Hrc.createEntry buf address (some item)).heap address =
      some ⟨some item, none⟩ := Function.update_self _ _ _
  obtain ⟨spells, linked⟩ := created.linkTail outside entry
  exact advanceTail spells linked

/-- A pop removes the oldest item and frees the old dummy. -/
theorem pop
    {node : ℕ × α}
    (holds : buf.Holds (node :: nodes)) :
    (lpelBufferPop buf).Holds nodes := by
  obtain ⟨head, spells⟩ := holds.advanceHead
  have popped : lpelBufferPop buf = Hrc.freeEntry (Hrc.advanceHead buf) buf.head := by
    simp [lpelBufferPop, holds.nextEntry_head]
  have outside : buf.head ∉ addresses (Hrc.advanceHead buf).head nodes := by
    rw [head]
    exact holds.head_not_mem
  rw [popped]
  refine ⟨spells.freeEntry outside, ?_⟩
  have tail_eq := holds.tail_eq
  simp only [lastAddress] at tail_eq
  simp only [Hrc.freeEntry, head]
  exact tail_eq

end Buffer.Holds

/-- The linked list as the buffer implementation of the hierarchical back end.
`malloc` is a counter above all addresses in use. -/
def linkedBuffer (α : Type) : BufferImpl α where
  Buf := Buffer α × ℕ
  lpelBufferInit := fun _ => (lpelBufferInit 0, 1)
  lpelBufferTop := fun buf => lpelBufferTop buf.1
  lpelBufferPop := fun buf => (lpelBufferPop buf.1, buf.2)
  lpelBufferIsSpace := fun _ => true
  lpelBufferPut := fun buf item => (lpelBufferPut buf.1 buf.2 item, buf.2 + 1)
  finite := false
  Holds := fun _ buf items => ∃ nodes : List (ℕ × α),
    nodes.map Prod.snd = items ∧ buf.1.Holds nodes ∧
      ∀ address ∈ addresses buf.1.head nodes, address < buf.2
  init_holds := by
    intro size
    refine ⟨[], rfl, Buffer.Holds.init 0, ?_⟩
    intro address member
    obtain rfl : address = 0 := by
      simpa [addresses, lpelBufferInit, createEntry] using member
    exact Nat.zero_lt_one
  top_eq := by
    rintro size buf items ⟨nodes, rfl, holds, -⟩
    rw [holds.top]
    cases nodes <;> rfl
  pop_holds := by
    rintro size buf item items ⟨nodes, equal, holds, below⟩
    cases nodes with
    | nil => simp at equal
    | cons node nodes =>
        simp only [List.map_cons, List.cons.injEq] at equal
        refine ⟨nodes, equal.2, holds.pop, ?_⟩
        intro address member
        apply below
        have head : (lpelBufferPop buf.1).head = node.1 := by
          simp [lpelBufferPop, holds.nextEntry_head, freeEntry, advanceHead]
        rw [head] at member
        simp only [addresses, List.map_cons, List.mem_cons] at member ⊢
        exact Or.inr member
  isSpace_of_room := fun _ _ => rfl
  put_holds := by
    rintro size buf items ⟨nodes, rfl, holds, below⟩ - item
    have outside : buf.2 ∉ addresses buf.1.head nodes := by
      intro member
      exact absurd (below _ member) (Nat.lt_irrefl _)
    refine ⟨nodes ++ [(buf.2, item)], by simp, holds.put item outside, ?_⟩
    intro address member
    simp only [addresses, List.map_append, List.map_cons, List.map_nil,
      List.mem_cons, List.mem_append, List.not_mem_nil, or_false] at member
    have older : address = buf.1.head ∨ address ∈ nodes.map Prod.fst →
        address < buf.2 := by
      intro old
      exact below address (List.mem_cons.mpr old)
    rcases member with head | old | last
    · exact Nat.lt_succ_of_lt (older (Or.inl head))
    · exact Nat.lt_succ_of_lt (older (Or.inr old))
    · simp [last]

end Hrc
end Lpel
