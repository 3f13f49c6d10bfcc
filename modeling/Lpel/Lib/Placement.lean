import Mathlib.Data.Nat.Notation
import Mathlib.Data.Option.Basic
import Mathlib.Logic.Function.Basic

/-!
# Items in exactly one place

A system that passes items around is described by how often each item is found
at each place.  A placement gives every item at most one place, and says that it
is found there once and nowhere else.  An item without a place is outside the
system or on the way from one place to another.
-/

namespace Lpel

universe u v

variable {ι : Type u} {π : Type v} [DecidableEq ι] [DecidableEq π]

/-- Every item is found once at its place and nowhere else. -/
def Placed (copies : ι → π → ℕ) (place : ι → Option π) : Prop :=
  ∀ item p, copies item p = if place item = some p then 1 else 0

namespace Placed

variable {copies : ι → π → ℕ} {place : ι → Option π} {item : ι} {p : π}

omit [DecidableEq ι] in
/-- An item is at the place where it is found. -/
theorem place_eq
    (placed : Placed copies place)
    (present : copies item p ≠ 0) :
    place item = some p := by
  by_contra elsewhere
  rw [placed item p, if_neg elsewhere] at present
  exact present rfl

omit [DecidableEq ι] in
theorem copies_le_one
    (placed : Placed copies place)
    (item : ι)
    (p : π) :
    copies item p ≤ 1 := by
  rw [placed item p]
  split <;> omega

omit [DecidableEq ι] in
/-- An item that has no place is found nowhere. -/
theorem copies_of_none
    (placed : Placed copies place)
    (nowhere : place item = none)
    (p : π) :
    copies item p = 0 := by
  rw [placed item p, nowhere]
  simp

omit [DecidableEq ι] in
/-- Change the counts and keep the places. -/
theorem congr
    {copies' : ι → π → ℕ}
    (placed : Placed copies place)
    (same : ∀ item p, copies' item p = copies item p) :
    Placed copies' place := by
  intro item p
  rw [same item p]
  exact placed item p

/-- Move one item and leave the others where they are. -/
theorem move
    {copies' : ι → π → ℕ}
    (placed : Placed copies place)
    (target : Option π)
    (others : ∀ other, other ≠ item → ∀ p, copies' other p = copies other p)
    (moved : ∀ p, copies' item p = if target = some p then 1 else 0) :
    Placed copies' (Function.update place item target) := by
  intro other p
  by_cases same : other = item
  · subst same
    rw [Function.update_self]
    exact moved p
  · rw [Function.update_of_ne same, others other same p]
    exact placed other p

/-- Put an item that has no place at a place. -/
theorem put
    {copies' : ι → π → ℕ}
    (placed : Placed copies place)
    (nowhere : place item = none)
    (p : π)
    (others : ∀ other q, other ≠ item ∨ q ≠ p →
      copies' other q = copies other q)
    (added : copies' item p = copies item p + 1) :
    Placed copies' (Function.update place item (some p)) := by
  refine placed.move (some p) ?_ ?_
  · intro other distinct q
    exact others other q (.inl distinct)
  · intro q
    by_cases same : p = q
    · subst same
      rw [added, placed.copies_of_none nowhere, if_pos rfl]
    · rw [others item q (.inr (Ne.symm same)), placed.copies_of_none nowhere,
        if_neg fun equal => same (Option.some.inj equal)]

/-- Take an item from its place. -/
theorem take
    {copies' : ι → π → ℕ}
    (placed : Placed copies place)
    (at_ : place item = some p)
    (others : ∀ other q, other ≠ item ∨ q ≠ p →
      copies' other q = copies other q)
    (removed : copies item p = copies' item p + 1) :
    Placed copies' (Function.update place item none) := by
  refine placed.move none ?_ ?_
  · intro other distinct q
    exact others other q (.inl distinct)
  · intro q
    rw [if_neg (by simp)]
    by_cases same : p = q
    · subst same
      rw [placed item p, if_pos at_] at removed
      omega
    · rw [others item q (.inr (Ne.symm same)), placed item q, at_,
        if_neg fun equal => same (Option.some.inj equal)]

omit [DecidableEq ι] in
/-- An item with a place is found there once and nowhere else. -/
theorem only
    (placed : Placed copies place)
    (at_ : place item = some p) :
    copies item p = 1 ∧ ∀ other, other ≠ p → copies item other = 0 := by
  refine ⟨?_, ?_⟩
  · rw [placed item p, if_pos at_]
  · intro other distinct
    rw [placed item other, at_, if_neg]
    intro same
    exact distinct (Option.some.inj same).symm

end Placed

end Lpel
