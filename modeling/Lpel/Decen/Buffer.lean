import Lpel.Buffer
import Lpel.Lib.CyclicSegment

/-!
# The decentralised ring buffer

`decen_buffer.c` keeps the items of a stream in a ring of `size` cells with a
read and a write index and no counter.  An empty cell holds `NULL`; the reader
clears a cell before it advances, so full and empty are told apart by the
cells at the two indices alone.  The indices are 64-bit words and wrap by
adding `1 - size` modulo `2 ^ 64`.
-/

namespace Lpel
namespace Decen

/-- `buffer_t` of `decen_buffer.h`. -/
structure Buffer (α : Type) where
  /-- Index of the oldest item. -/
  pread : UInt64
  /-- Index of the next cell to fill. -/
  pwrite : UInt64
  /-- Number of cells. -/
  size : UInt64
  /-- The cells; `none` is `NULL`. -/
  data : ℕ → Option α

variable {α : Type}

/-- `LpelBufferInit`: all cells cleared. -/
def lpelBufferInit (size : StreamSize) : Buffer α where
  pread := 0
  pwrite := 0
  size := UInt64.ofNat size.val
  data := fun _ => none

/-- `LpelBufferTop`. -/
def lpelBufferTop (buf : Buffer α) : Option α :=
  buf.data buf.pread.toNat

/-- The index update `index += (index+1 >= size) ? (1-size) : 1`. -/
def advance (size index : UInt64) : UInt64 :=
  index + if index + 1 ≥ size then 1 - size else 1

/-- `LpelBufferPop`: clear the cell, then advance the read index. -/
def lpelBufferPop (buf : Buffer α) : Buffer α :=
  { buf with
    data := Function.update buf.data buf.pread.toNat none
    pread := advance buf.size buf.pread }

/-- `LpelBufferIsSpace`: the cell at the write index is empty. -/
def lpelBufferIsSpace (buf : Buffer α) : Bool :=
  (buf.data buf.pwrite.toNat).isNone

/-- `LpelBufferPut`: fill the cell, then advance the write index.  Its own
assertion of space is checked by `LpelStreamWrite` just before the call. -/
def lpelBufferPut (buf : Buffer α) (item : α) : Buffer α :=
  { buf with
    data := Function.update buf.data buf.pwrite.toNat (some item)
    pwrite := advance buf.size buf.pwrite }

/-- `LpelBufferIsEmpty`. -/
def lpelBufferIsEmpty (buf : Buffer α) : Bool :=
  (buf.data buf.pread.toNat).isNone

/-- The wrap by unsigned underflow is the step of a counter modulo `size`. -/
theorem advance_toNat
    {size index : UInt64}
    (inside : index.toNat < size.toNat) :
    (advance size index).toNat = (index.toNat + 1) % size.toNat := by
  have sizeBound : size.toNat < 2 ^ 64 := size.toNat_lt
  have succToNat : (index + 1).toNat = index.toNat + 1 := by
    rw [UInt64.toNat_add]
    exact Nat.mod_eq_of_lt (by simpa using Nat.lt_of_le_of_lt inside sizeBound)
  unfold advance
  split
  · rename_i last
    have lastEq : index.toNat + 1 = size.toNat := by
      rw [ge_iff_le, UInt64.le_iff_toNat_le, succToNat] at last
      omega
    rw [lastEq, Nat.mod_self, UInt64.toNat_add, UInt64.toNat_sub]
    simp only [UInt64.toNat_one]
    omega
  · rename_i notLast
    have inside' : index.toNat + 1 < size.toNat := by
      rw [ge_iff_le, UInt64.le_iff_toNat_le, succToNat] at notLast
      omega
    rw [succToNat, Nat.mod_eq_of_lt inside']

/-- The ring holds the given items between its two indices. -/
structure Buffer.Holds
    (size : StreamSize)
    (buf : Buffer α)
    (items : List α) : Prop where
  /-- The stored size is the size of the stream. -/
  size_eq : buf.size.toNat = size.val
  /-- The nonempty cells are the items, from the read index on. -/
  segment : CyclicSegment size.val buf.pread.toNat buf.data items
  /-- The write index is the first cell behind the items. -/
  pwrite_eq : buf.pwrite.toNat = (buf.pread.toNat + items.length) % size.val

namespace Buffer.Holds

variable {size : StreamSize} {buf : Buffer α} {items : List α}

/-- A freshly initialised ring is empty. -/
theorem init (size : StreamSize) :
    (lpelBufferInit size : Buffer α).Holds size [] where
  size_eq := by
    have sizeBound := size.lt
    simp only [lpelBufferInit, UInt64.toNat_ofNat']
    omega
  segment := CyclicSegment.empty size.pos
  pwrite_eq := by simp [lpelBufferInit]

/-- The top cell holds the oldest item. -/
theorem top (holds : buf.Holds size items) :
    lpelBufferTop buf = items.head? :=
  holds.segment.first

/-- The ring has space exactly while it holds fewer items than its size. -/
theorem isSpace_iff (holds : buf.Holds size items) :
    lpelBufferIsSpace buf = true ↔ items.length < size.val := by
  rw [lpelBufferIsSpace, Option.isNone_iff_eq_none, holds.pwrite_eq]
  exact holds.segment.behind_eq_none_iff

/-- The write index lies inside the ring. -/
theorem pwrite_lt (holds : buf.Holds size items) :
    buf.pwrite.toNat < size.val := by
  rw [holds.pwrite_eq]
  exact Nat.mod_lt _ size.pos

/-- Popping removes the oldest item. -/
theorem pop {item : α} (holds : buf.Holds size (item :: items)) :
    (lpelBufferPop buf).Holds size items where
  size_eq := holds.size_eq
  segment := by
    have readAdvance : (lpelBufferPop buf).pread.toNat =
        (buf.pread.toNat + 1) % size.val := by
      rw [← holds.size_eq]
      exact advance_toNat (holds.size_eq ▸ holds.segment.start_lt)
    rw [readAdvance]
    exact holds.segment.pop
  pwrite_eq := by
    have readAdvance : (lpelBufferPop buf).pread.toNat =
        (buf.pread.toNat + 1) % size.val := by
      rw [← holds.size_eq]
      exact advance_toNat (holds.size_eq ▸ holds.segment.start_lt)
    rw [readAdvance, Nat.mod_add_mod]
    change buf.pwrite.toNat = _
    rw [holds.pwrite_eq, List.length_cons, Nat.add_assoc,
      Nat.add_comm 1 items.length]

/-- Putting appends, provided there is space. -/
theorem put
    (holds : buf.Holds size items)
    (space : lpelBufferIsSpace buf = true)
    (item : α) :
    (lpelBufferPut buf item).Holds size (items ++ [item]) where
  size_eq := holds.size_eq
  segment := by
    have pushed := holds.segment.push (holds.isSpace_iff.mp space) item
    rw [← holds.pwrite_eq] at pushed
    exact pushed
  pwrite_eq := by
    have writeAdvance : (lpelBufferPut buf item).pwrite.toNat =
        (buf.pwrite.toNat + 1) % size.val := by
      rw [← holds.size_eq]
      exact advance_toNat (holds.size_eq ▸ holds.pwrite_lt)
    rw [writeAdvance, holds.pwrite_eq, Nat.mod_add_mod, List.length_append,
      List.length_singleton, Nat.add_assoc]
    rfl

end Buffer.Holds

/-- The ring as the buffer implementation of the decentralised back end. -/
def ringBuffer (α : Type) : BufferImpl α where
  Buf := Buffer α
  lpelBufferInit := lpelBufferInit
  lpelBufferTop := lpelBufferTop
  lpelBufferPop := lpelBufferPop
  lpelBufferIsSpace := lpelBufferIsSpace
  lpelBufferPut := lpelBufferPut
  finite := true
  Holds := fun size buf items => buf.Holds size items
  init_holds := Buffer.Holds.init
  top_eq := Buffer.Holds.top
  pop_holds := Buffer.Holds.pop
  isSpace_of_room := fun holds room => holds.isSpace_iff.mpr (room rfl)
  put_holds := Buffer.Holds.put

end Decen
end Lpel
