import Mathlib.Data.List.Basic
import Mathlib.Data.Nat.ModEq
import Mathlib.Logic.Function.Basic

/-!
# Cyclic segments of a cell array

A queue kept in an array of `size` cells occupies the cells from `start` on,
wrapping at the end, and leaves every other cell empty.  There is no counter:
the contents of the cells alone tell a full array from an empty one.
-/

namespace Lpel

universe u

variable {α : Type u}

/-- The cells hold exactly the given items, in order, from `start` on. -/
structure CyclicSegment
    (size start : ℕ)
    (cells : ℕ → Option α)
    (items : List α) : Prop where
  /-- The first cell lies inside the array. -/
  start_lt : start < size
  /-- The items fit. -/
  length_le : items.length ≤ size
  /-- The cell at each offset holds the item of that index, or nothing. -/
  cell : ∀ offset < size, cells ((start + offset) % size) = items[offset]?

namespace CyclicSegment

variable {size start : ℕ} {cells : ℕ → Option α} {items : List α}

/-- An array of empty cells is the empty segment at any start. -/
theorem empty (start_lt : start < size) :
    CyclicSegment size start (fun _ => (none : Option α)) [] where
  start_lt := start_lt
  length_le := Nat.zero_le _
  cell := by
    intro offset _
    simp

/-- The first cell holds the oldest item. -/
theorem first (segment : CyclicSegment size start cells items) :
    cells start = items.head? := by
  have sizePositive : 0 < size := Nat.zero_lt_of_lt segment.start_lt
  have cellZero := segment.cell 0 sizePositive
  rw [Nat.add_zero, Nat.mod_eq_of_lt segment.start_lt] at cellZero
  rw [cellZero, List.head?_eq_getElem?]

/-- The cell behind the last item is empty exactly when a cell is left. -/
theorem behind_eq_none_iff (segment : CyclicSegment size start cells items) :
    cells ((start + items.length) % size) = none ↔ items.length < size := by
  constructor
  · intro behindEmpty
    by_contra full
    have lengthEq : items.length = size :=
      Nat.le_antisymm segment.length_le (Nat.le_of_not_lt full)
    rw [lengthEq, Nat.add_mod_right, Nat.mod_eq_of_lt segment.start_lt,
      segment.first, List.head?_eq_none_iff] at behindEmpty
    have sizePositive : 0 < size := Nat.zero_lt_of_lt segment.start_lt
    rw [behindEmpty, List.length_nil] at lengthEq
    omega
  · intro room
    rw [segment.cell items.length room]
    simp

/-- Offsets below the size address distinct cells. -/
theorem offset_injective
    {first second : ℕ}
    (first_lt : first < size)
    (second_lt : second < size)
    (equal : (start + first) % size = (start + second) % size) :
    first = second := by
  have congruent : first ≡ second [MOD size] :=
    Nat.ModEq.add_left_cancel' start equal
  have reduced : first % size = second % size := congruent
  rwa [Nat.mod_eq_of_lt first_lt, Nat.mod_eq_of_lt second_lt] at reduced

/-- Filling the cell behind the last item appends to the segment. -/
theorem push
    (segment : CyclicSegment size start cells items)
    (room : items.length < size)
    (item : α) :
    CyclicSegment size start
      (Function.update cells ((start + items.length) % size) (some item))
      (items ++ [item]) where
  start_lt := segment.start_lt
  length_le := by
    rw [List.length_append, List.length_singleton]
    exact room
  cell := by
    intro offset offset_lt
    by_cases last : offset = items.length
    · subst last
      simp
    · have different :
          (start + offset) % size ≠ (start + items.length) % size := by
        intro equal
        exact last (offset_injective offset_lt room equal)
      rw [Function.update_of_ne different, segment.cell offset offset_lt]
      rcases Nat.lt_or_gt_of_ne last with before | after
      · rw [List.getElem?_append_left before]
      · rw [List.getElem?_eq_none (Nat.le_of_lt after),
          List.getElem?_eq_none (by simpa using Nat.succ_le_of_lt after)]

/-- Emptying the first cell and moving the start removes the oldest item. -/
theorem pop
    {item : α}
    (segment : CyclicSegment size start cells (item :: items)) :
    CyclicSegment size ((start + 1) % size)
      (Function.update cells start none) items where
  start_lt := Nat.mod_lt _ (Nat.zero_lt_of_lt segment.start_lt)
  length_le := Nat.le_of_succ_le segment.length_le
  cell := by
    intro offset offset_lt
    have shifted : ((start + 1) % size + offset) % size =
        (start + (offset + 1)) % size := by
      rw [Nat.mod_add_mod, Nat.add_assoc, Nat.add_comm 1 offset]
    rw [shifted]
    by_cases inside : offset + 1 < size
    · have different : (start + (offset + 1)) % size ≠ start := by
        intro equal
        have zeroOffset : (start + (offset + 1)) % size = (start + 0) % size := by
          rw [equal, Nat.add_zero, Nat.mod_eq_of_lt segment.start_lt]
        have offsetZero := offset_injective inside
          (Nat.zero_lt_of_lt offset_lt) zeroOffset
        omega
      rw [Function.update_of_ne different, segment.cell (offset + 1) inside,
        List.getElem?_cons_succ]
    · have wraps : offset + 1 = size := by omega
      rw [wraps, Nat.add_mod_right, Nat.mod_eq_of_lt segment.start_lt,
        Function.update_self, List.getElem?_eq_none]
      have lengthBound := segment.length_le
      rw [List.length_cons] at lengthBound
      omega

end CyclicSegment

end Lpel
