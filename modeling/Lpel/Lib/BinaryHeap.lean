import Mathlib.Data.Finset.Card
import Mathlib.Data.Multiset.MapFold
import Mathlib.Logic.Equiv.Basic
import Mathlib.Order.Defs.LinearOrder
import Mathlib.Order.Interval.Finset.Nat

/-!
# Binary heaps in an array

A heap occupies the slots `1, …, count - 1` of an array; the parent of slot `i`
is slot `i / 2`.  Sifting carries one item along a path and moves the items it
passes into the hole.  What the array holds after a sift is described twice: as
a rearrangement of the array in which the item was put into the hole at once,
and, from the order in which only the edges at the hole may be wrong, as an
ordered heap.
-/

namespace Lpel
namespace BinaryHeap

universe u v

variable {β : Type u} {P : Type v} [LinearOrder P]

/-- Move the hole at `position` up while the item has a higher key than the
parent of the hole, then put the item there.  The first argument bounds the
number of rounds; the position is enough. -/
def siftUp (key : β → P) : ℕ → (ℕ → β) → ℕ → β → ℕ → β
  | 0, slots, position, item => Function.update slots position item
  | rounds + 1, slots, position, item =>
      if position / 2 ≠ 0 ∧ key (slots (position / 2)) < key item then
        siftUp key rounds
          (Function.update slots position (slots (position / 2)))
          (position / 2) item
      else
        Function.update slots position item

/-- The child of a slot with the higher key, the left one on a tie. -/
def higherChild
    (key : β → P)
    (slots : ℕ → β)
    (count position : ℕ) : ℕ :=
  if position * 2 + 1 < count ∧
      key (slots (position * 2)) < key (slots (position * 2 + 1)) then
    position * 2 + 1
  else
    position * 2

/-- Move the hole at `position` down while one of its children has a higher key
than the item, then put the item there. -/
def siftDown (key : β → P) (count : ℕ) : ℕ → (ℕ → β) → ℕ → β → ℕ → β
  | 0, slots, position, item => Function.update slots position item
  | rounds + 1, slots, position, item =>
      if position * 2 < count ∧
          key item < key (slots (higherChild key slots count position)) then
        siftDown key count rounds
          (Function.update slots position
            (slots (higherChild key slots count position)))
          (higherChild key slots count position) item
      else
        Function.update slots position item

/-- The slots that `siftUp` reads or writes. -/
def siftUpVisits (key : β → P) : ℕ → (ℕ → β) → ℕ → β → List ℕ
  | 0, _, position, _ => [position]
  | rounds + 1, slots, position, item =>
      if position / 2 ≠ 0 then
        if key (slots (position / 2)) < key item then
          position / 2 :: position ::
            siftUpVisits key rounds
              (Function.update slots position (slots (position / 2)))
              (position / 2) item
        else
          [position / 2, position]
      else
        [position]

/-- The slots that `siftDown` reads or writes. -/
def siftDownVisits (key : β → P) (count : ℕ) :
    ℕ → (ℕ → β) → ℕ → β → List ℕ
  | 0, _, position, _ => [position]
  | rounds + 1, slots, position, item =>
      let child := higherChild key slots count position
      let compared :=
        if position * 2 + 1 < count then [position * 2, position * 2 + 1]
        else []
      if position * 2 < count then
        if key item < key (slots child) then
          compared ++ child :: position ::
            siftDownVisits key count rounds
              (Function.update slots position (slots child)) child item
        else
          compared ++ [child, position]
      else
        [position]

/-- The items of the heap. -/
def items (slots : ℕ → β) (count : ℕ) : Multiset β :=
  (Finset.Ico 1 count).val.map slots

/-- No item has a higher key than its parent. -/
def Ordered (key : β → P) (slots : ℕ → β) (count : ℕ) : Prop :=
  ∀ i, 2 ≤ i → i < count → key (slots i) ≤ key (slots (i / 2))

/-- The children of `position` may be moved up to its parent. -/
def Bypass
    (key : β → P)
    (slots : ℕ → β)
    (count position : ℕ) : Prop :=
  ∀ i, i < count → i / 2 = position → 2 ≤ position →
    key (slots i) ≤ key (slots (position / 2))

/-- Only the edge above `position` may be out of order. -/
structure OrderedBelow
    (key : β → P)
    (slots : ℕ → β)
    (count position : ℕ) : Prop where
  edges : ∀ i, 2 ≤ i → i < count → i ≠ position →
    key (slots i) ≤ key (slots (i / 2))
  bypass : Bypass key slots count position

/-- Only the edges below `position` may be out of order. -/
structure OrderedAbove
    (key : β → P)
    (slots : ℕ → β)
    (count position : ℕ) : Prop where
  edges : ∀ i, 2 ≤ i → i < count → i / 2 ≠ position →
    key (slots i) ≤ key (slots (i / 2))
  bypass : Bypass key slots count position

/-- Moving the hole from `position` to `target` exchanges the two slots of the
array in which the item fills the hole. -/
theorem update_update_eq_swap
    (slots : ℕ → β)
    (item : β)
    {position target : ℕ}
    (distinct : target ≠ position) :
    Function.update
        (Function.update slots position (slots target)) target item =
      Function.update slots position item ∘ Equiv.swap position target := by
  funext i
  by_cases atTarget : i = target
  · subst atTarget
    simp
  by_cases atPosition : i = position
  · subst atPosition
    simp [atTarget, distinct]
  · simp [atTarget, atPosition, Equiv.swap_apply_of_ne_of_ne]

/-- The items depend only on the slots in use. -/
theorem items_congr
    {left right : ℕ → β}
    {count : ℕ}
    (agree : ∀ i, 1 ≤ i → i < count → left i = right i) :
    items left count = items right count := by
  apply Multiset.map_congr rfl
  intro i member
  have inside := Finset.mem_Ico.mp (Finset.mem_val.mp member)
  exact agree i inside.1 inside.2

/-- One more slot is one more item. -/
theorem items_succ
    (slots : ℕ → β)
    {count : ℕ}
    (positive : 1 ≤ count) :
    items slots (count + 1) = slots count ::ₘ items slots count := by
  unfold items
  rw [Nat.Ico_succ_right_eq_insert_Ico positive,
    Finset.insert_val_of_notMem (by simp), Multiset.map_cons]

theorem mem_items
    {slots : ℕ → β}
    {count : ℕ}
    {item : β} :
    item ∈ items slots count ↔ ∃ i, 1 ≤ i ∧ i < count ∧ slots i = item := by
  simp [items, and_assoc]

/-- An item that occurs once determines its slot. -/
theorem slot_unique
    [DecidableEq β]
    {slots : ℕ → β}
    {count i j : ℕ}
    (once : (items slots count).count (slots i) = 1)
    (iInside : i ∈ Finset.Ico 1 count)
    (jInside : j ∈ Finset.Ico 1 count)
    (equal : slots i = slots j) :
    i = j := by
  rw [items, Multiset.count_map] at once
  have single : ((Finset.Ico 1 count).filter fun k => slots i = slots k).card ≤
      1 := once.le
  rw [Finset.card_le_one] at single
  refine single i ?_ j ?_
  · exact Finset.mem_filter.mpr ⟨iInside, rfl⟩
  · exact Finset.mem_filter.mpr ⟨jInside, equal⟩

/-- Exchanging two slots of the heap keeps its items. -/
theorem items_swap
    (slots : ℕ → β)
    {count left right : ℕ}
    (leftInside : left ∈ Finset.Ico 1 count)
    (rightInside : right ∈ Finset.Ico 1 count) :
    items (slots ∘ Equiv.swap left right) count = items slots count := by
  have fixed :
      (Finset.Ico 1 count).map (Equiv.swap left right).toEmbedding =
        Finset.Ico 1 count := by
    apply Finset.eq_of_subset_of_card_le
    · intro i member
      obtain ⟨j, inside, rfl⟩ := Finset.mem_map.mp member
      rw [Equiv.coe_toEmbedding, Equiv.swap_apply_def]
      split
      · exact rightInside
      · split
        · exact leftInside
        · exact inside
    · rw [Finset.card_map]
  unfold items
  rw [← Multiset.map_map]
  congr 1
  exact congrArg Finset.val fixed

/-- Moving the last item to the root removes the root. -/
theorem items_move_last
    (slots : ℕ → β)
    {last : ℕ}
    (positive : 1 ≤ last) :
    items slots (last + 1) =
      slots 1 ::ₘ items (Function.update slots 1 (slots last)) last := by
  have rootInside : 1 ∈ Finset.Ico 1 (last + 1) := by simp; omega
  have lastInside : last ∈ Finset.Ico 1 (last + 1) := by simp; omega
  rw [← items_swap slots rootInside lastInside, items_succ _ positive]
  congr 1
  · simp
  · apply items_congr
    intro i _ within
    have notLast : i ≠ last := by omega
    by_cases root : i = 1
    · subst root
      simp
    · simp [root, notLast, Equiv.swap_apply_of_ne_of_ne]

/-- The slot a sift up moves to. -/
theorem half_inside
    {count position : ℕ}
    (inside : position ∈ Finset.Ico 1 count)
    (parent : position / 2 ≠ 0) :
    position / 2 ∈ Finset.Ico 1 count := by
  simp only [Finset.mem_Ico] at inside ⊢
  omega

/-- Sifting up only rearranges. -/
theorem items_siftUp
    (key : β → P)
    (rounds : ℕ)
    (slots : ℕ → β)
    {count position : ℕ}
    (item : β)
    (inside : position ∈ Finset.Ico 1 count) :
    items (siftUp key rounds slots position item) count =
      items (Function.update slots position item) count := by
  induction rounds generalizing slots position with
  | zero => rfl
  | succ rounds inductionHypothesis =>
      unfold siftUp
      split
      case isTrue moves =>
        have parentInside := half_inside inside moves.1
        have distinct : position / 2 ≠ position := by
          have := moves.1
          omega
        rw [inductionHypothesis _ parentInside,
          update_update_eq_swap slots item distinct,
          items_swap _ inside parentInside]
      case isFalse => rfl

/-- The slots a sift down moves to. -/
theorem higherChild_inside
    (key : β → P)
    (slots : ℕ → β)
    {count position : ℕ}
    (inside : position ∈ Finset.Ico 1 count)
    (child : position * 2 < count) :
    higherChild key slots count position ∈ Finset.Ico 1 count := by
  simp only [Finset.mem_Ico] at inside ⊢
  unfold higherChild
  split <;> omega

theorem higherChild_half
    (key : β → P)
    (slots : ℕ → β)
    (count position : ℕ) :
    higherChild key slots count position / 2 = position := by
  unfold higherChild
  split <;> omega

/-- Sifting down only rearranges. -/
theorem items_siftDown
    (key : β → P)
    (rounds : ℕ)
    (slots : ℕ → β)
    {count position : ℕ}
    (item : β)
    (inside : position ∈ Finset.Ico 1 count) :
    items (siftDown key count rounds slots position item) count =
      items (Function.update slots position item) count := by
  induction rounds generalizing slots position with
  | zero => rfl
  | succ rounds inductionHypothesis =>
      unfold siftDown
      split
      case isTrue moves =>
        have childInside := higherChild_inside key slots inside moves.1
        have distinct : higherChild key slots count position ≠ position := by
          have half := higherChild_half key slots count position
          have positive := (Finset.mem_Ico.mp inside).1
          omega
        rw [inductionHypothesis _ childInside,
          update_update_eq_swap slots item distinct,
          items_swap _ inside childInside]
      case isFalse => rfl

/-- Exchanging a slot with its lower parent moves the wrong edge up. -/
theorem OrderedBelow.swap
    {key : β → P}
    {slots : ℕ → β}
    {count position : ℕ}
    (order : OrderedBelow key slots count position)
    (parent : position / 2 ≠ 0)
    (lower : key (slots (position / 2)) < key (slots position))
    (inside : position < count) :
    OrderedBelow key (slots ∘ Equiv.swap position (position / 2)) count
      (position / 2) := by
  have swapped (i : ℕ) :
      (slots ∘ Equiv.swap position (position / 2)) i =
        if i = position then slots (position / 2)
        else if i = position / 2 then slots position
        else slots i := by
    simp only [Function.comp_apply, Equiv.swap_apply_def, apply_ite slots]
  have edges := order.edges
  have bypass := order.bypass
  constructor
  · intro i large within other
    rw [swapped i, swapped (i / 2)]
    by_cases atPosition : i = position
    · subst atPosition
      have distinct : i / 2 ≠ i := by omega
      simp only [if_true, if_neg distinct]
      exact lower.le
    rw [if_neg atPosition, if_neg other]
    by_cases below : i / 2 = position
    · rw [if_pos below]
      exact bypass i within below (by omega)
    rw [if_neg below]
    by_cases sibling : i / 2 = position / 2
    · rw [if_pos sibling]
      have edge := edges i large within atPosition
      rw [sibling] at edge
      exact edge.trans lower.le
    · rw [if_neg sibling]
      exact edges i large within atPosition
  · intro i within child large
    rw [swapped i, swapped (position / 2 / 2)]
    have above : position / 2 / 2 ≠ position ∧
        position / 2 / 2 ≠ position / 2 := by omega
    rw [if_neg above.1, if_neg above.2]
    have grand := edges (position / 2) large (by omega) (by omega)
    by_cases atPosition : i = position
    · rw [if_pos atPosition]
      exact grand
    have other : i ≠ position / 2 := by omega
    rw [if_neg atPosition, if_neg other]
    have edge := edges i (by omega) within atPosition
    rw [child] at edge
    exact edge.trans grand

/-- Sifting up repairs the edge above the hole. -/
theorem ordered_siftUp
    {key : β → P}
    {rounds : ℕ}
    {slots : ℕ → β}
    {count position : ℕ}
    {item : β}
    (enough : position ≤ rounds)
    (inside : position < count)
    (order :
      OrderedBelow key (Function.update slots position item) count position) :
    Ordered key (siftUp key rounds slots position item) count := by
  induction rounds generalizing slots position with
  | zero =>
      intro i large within
      exact order.edges i large within (by omega)
  | succ rounds inductionHypothesis =>
      unfold siftUp
      split
      case isTrue moves =>
        have distinct : position / 2 ≠ position := by
          have := moves.1
          omega
        refine inductionHypothesis (by omega) (by omega) ?_
        rw [update_update_eq_swap slots item distinct]
        refine order.swap moves.1 ?_ inside
        simpa [Function.update_of_ne distinct] using moves.2
      case isFalse stays =>
        intro i large within
        by_cases atPosition : i = position
        · subst atPosition
          have distinct : i / 2 ≠ i := by omega
          have notLower : ¬ key (slots (i / 2)) < key item := by
            intro lower
            exact stays ⟨by omega, lower⟩
          simpa [Function.update_of_ne distinct] using notLower
        · exact order.edges i large within atPosition

/-- The higher child is at least as high as each child. -/
theorem le_higherChild
    (key : β → P)
    (slots : ℕ → β)
    {count position i : ℕ}
    (within : i < count)
    (child : i / 2 = position) :
    key (slots i) ≤ key (slots (higherChild key slots count position)) := by
  unfold higherChild
  have sides : i = position * 2 ∨ i = position * 2 + 1 := by omega
  split
  case isTrue higher =>
    obtain rfl | rfl := sides
    · exact higher.2.le
    · exact le_refl _
  case isFalse lower =>
    obtain rfl | rfl := sides
    · exact le_refl _
    · exact le_of_not_gt fun higher => lower ⟨within, higher⟩

/-- Exchanging a slot with its higher child moves the wrong edges down. -/
theorem OrderedAbove.swap
    {key : β → P}
    {slots : ℕ → β}
    {count position child : ℕ}
    (order : OrderedAbove key slots count position)
    (positive : 1 ≤ position)
    (parent : child / 2 = position)
    (within : child < count)
    (highest : ∀ i, i < count → i / 2 = position →
      key (slots i) ≤ key (slots child))
    (higher : key (slots position) < key (slots child)) :
    OrderedAbove key (slots ∘ Equiv.swap position child) count child := by
  have swapped (i : ℕ) :
      (slots ∘ Equiv.swap position child) i =
        if i = position then slots child
        else if i = child then slots position
        else slots i := by
    simp only [Function.comp_apply, Equiv.swap_apply_def, apply_ite slots]
  have edges := order.edges
  have bypass := order.bypass
  constructor
  · intro i large inside other
    rw [swapped i, swapped (i / 2)]
    by_cases atPosition : i = position
    · subst atPosition
      have above : i / 2 ≠ i ∧ i / 2 ≠ child := by omega
      rw [if_pos rfl, if_neg above.1, if_neg above.2]
      exact bypass child within parent large
    rw [if_neg atPosition, if_neg other]
    by_cases below : i / 2 = position
    · rw [if_pos below]
      by_cases atChild : i = child
      · rw [if_pos atChild]
        exact higher.le
      · rw [if_neg atChild]
        exact highest i inside below
    · rw [if_neg below]
      have notChild : i ≠ child := by
        rintro rfl
        exact below parent
      rw [if_neg notChild]
      exact edges i large inside below
  · intro i inside below large
    have others : i ≠ position ∧ i ≠ child := by omega
    rw [swapped i, swapped (child / 2), parent, if_pos rfl,
      if_neg others.1, if_neg others.2]
    have edge := edges i (by omega) inside (by omega)
    rw [below] at edge
    exact edge

/-- Sifting down repairs the edges below the hole. -/
theorem ordered_siftDown
    {key : β → P}
    {rounds : ℕ}
    {slots : ℕ → β}
    {count position : ℕ}
    {item : β}
    (enough : count ≤ rounds + position)
    (positive : 1 ≤ position)
    (order :
      OrderedAbove key (Function.update slots position item) count position) :
    Ordered key (siftDown key count rounds slots position item) count := by
  induction rounds generalizing slots position with
  | zero =>
      intro i large within
      exact order.edges i large within (by omega)
  | succ rounds inductionHypothesis =>
      have half := higherChild_half key slots count position
      have distinct : higherChild key slots count position ≠ position := by
        omega
      have placed (i : ℕ) (child : i / 2 = position) :
          Function.update slots position item i = slots i := by
        refine Function.update_of_ne ?_ item slots
        omega
      unfold siftDown
      split
      case isTrue moves =>
        have inside : higherChild key slots count position < count := by
          unfold higherChild
          split <;> omega
        refine inductionHypothesis (by omega) (by omega) ?_
        rw [update_update_eq_swap slots item distinct]
        refine order.swap positive half inside ?_ ?_
        · intro i within child
          rw [placed i child, placed _ half]
          exact le_higherChild key slots within child
        · rw [placed _ half, Function.update_self]
          exact moves.2
      case isFalse stays =>
        intro i large within
        by_cases child : i / 2 = position
        · rw [placed i child, child, Function.update_self]
          have notHigher :
              ¬ key item < key (slots (higherChild key slots count position)) := by
            intro higher
            exact stays ⟨by omega, higher⟩
          exact (le_higherChild key slots within child).trans
            (le_of_not_gt notHigher)
        · exact order.edges i large within child

/-- A sift up stays at or above the slot it starts from. -/
theorem le_of_mem_siftUpVisits
    {key : β → P}
    {rounds : ℕ}
    {slots : ℕ → β}
    {position i : ℕ}
    {item : β}
    (visited : i ∈ siftUpVisits key rounds slots position item) :
    i ≤ position := by
  induction rounds generalizing slots position with
  | zero =>
      rw [siftUpVisits, List.mem_singleton] at visited
      exact visited.le
  | succ rounds inductionHypothesis =>
      unfold siftUpVisits at visited
      split at visited
      · split at visited
        · obtain here | here | above := by simpa using visited
          · omega
          · omega
          · have := inductionHypothesis above
            omega
        · obtain here | here := by simpa using visited
          · omega
          · omega
      · obtain rfl := List.mem_singleton.mp visited
        exact le_refl _

/-- A sift down visits the slot it starts from and slots of the heap. -/
theorem lt_of_mem_siftDownVisits
    {key : β → P}
    {count rounds : ℕ}
    {slots : ℕ → β}
    {position i : ℕ}
    {item : β}
    (visited : i ∈ siftDownVisits key count rounds slots position item) :
    i = position ∨ i < count := by
  induction rounds generalizing slots position with
  | zero =>
      rw [siftDownVisits, List.mem_singleton] at visited
      exact .inl visited
  | succ rounds inductionHypothesis =>
      have compared
          (member : i ∈ if position * 2 + 1 < count then
            [position * 2, position * 2 + 1] else []) : i < count := by
        split at member
        · obtain rfl | rfl := by simpa using member
          · omega
          · omega
        · exact absurd member List.not_mem_nil
      have childInside (child : position * 2 < count) :
          higherChild key slots count position < count := by
        unfold higherChild
        split <;> omega
      dsimp only [siftDownVisits] at visited
      by_cases child : position * 2 < count
      · have inside := childInside child
        rw [if_pos child] at visited
        by_cases moves :
            key item < key (slots (higherChild key slots count position))
        · rw [if_pos moves, List.mem_append, List.mem_cons, List.mem_cons]
            at visited
          obtain member | here | here | below := visited
          · exact .inr (compared member)
          · exact .inr (by omega)
          · exact .inl here
          · have := inductionHypothesis below
            exact .inr (by omega)
        · rw [if_neg moves, List.mem_append, List.mem_pair] at visited
          obtain member | here | here := visited
          · exact .inr (compared member)
          · exact .inr (by omega)
          · exact .inl here
      · rw [if_neg child] at visited
        exact .inl (List.mem_singleton.mp visited)

/-- The root of an ordered heap has the highest key. -/
theorem Ordered.le_root
    {key : β → P}
    {slots : ℕ → β}
    {count : ℕ}
    (order : Ordered key slots count)
    (i : ℕ)
    (positive : 1 ≤ i)
    (within : i < count) :
    key (slots i) ≤ key (slots 1) := by
  induction i using Nat.strongRecOn with
  | ind i inductionHypothesis =>
      by_cases root : i = 1
      · rw [root]
      · exact (order i (by omega) within).trans
          (inductionHypothesis (i / 2) (by omega) (by omega) (by omega))

end BinaryHeap
end Lpel
