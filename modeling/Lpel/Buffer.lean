import Mathlib.Algebra.Group.Nat.Defs
import Mathlib.Data.List.Basic

/-!
# The buffer interface of a stream

Both back ends implement the same five buffer operations: the decentralised
one with a bounded ring, the hierarchical one with a linked list.  The stream
protocols use a buffer only through these operations, so they are stated once
over an implementation together with the list of items it holds.
-/

namespace Lpel

/-- Sizes a stream can have: the positive values of C type `int`. -/
structure StreamSize where
  /-- The number of items. -/
  val : ℕ
  /-- A stream has room for at least one item. -/
  pos : 0 < val
  /-- The size is an `int`. -/
  lt : val < 2 ^ 31

/-- `STREAM_BUFFER_SIZE`, the size used when `LpelStreamCreate` is given 0. -/
def streamBufferSize : StreamSize := ⟨16, by decide, by decide⟩

/-- The least size. -/
def StreamSize.one : StreamSize := ⟨1, by decide, by decide⟩

/-- The buffer operations of one back end.  An absent item models `NULL`. -/
structure BufferImpl (α : Type) where
  /-- `buffer_t`. -/
  Buf : Type
  /-- `LpelBufferInit`. -/
  lpelBufferInit : StreamSize → Buf
  /-- `LpelBufferTop`. -/
  lpelBufferTop : Buf → Option α
  /-- `LpelBufferPop`. -/
  lpelBufferPop : Buf → Buf
  /-- `LpelBufferIsSpace`. -/
  lpelBufferIsSpace : Buf → Bool
  /-- `LpelBufferPut`. -/
  lpelBufferPut : Buf → α → Buf
  /-- Whether the size limits the number of items. -/
  finite : Bool
  /-- The buffer of the given size holds the given items, oldest first. -/
  Holds : StreamSize → Buf → List α → Prop
  /-- A fresh buffer is empty. -/
  init_holds : ∀ size, Holds size (lpelBufferInit size) []
  /-- The top is the oldest item. -/
  top_eq : ∀ {size buf items}, Holds size buf items →
    lpelBufferTop buf = items.head?
  /-- Popping removes the oldest item. -/
  pop_holds : ∀ {size buf item items}, Holds size buf (item :: items) →
    Holds size (lpelBufferPop buf) items
  /-- There is space while the items do not fill the size. -/
  isSpace_of_room : ∀ {size buf items}, Holds size buf items →
    (finite = true → items.length < size.val) → lpelBufferIsSpace buf = true
  /-- Putting appends, provided there is space. -/
  put_holds : ∀ {size buf items}, Holds size buf items →
    lpelBufferIsSpace buf = true → ∀ item,
      Holds size (lpelBufferPut buf item) (items ++ [item])

end Lpel
