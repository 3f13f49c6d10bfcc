import Mathlib.Data.List.Nodup
import Mathlib.Logic.Function.Basic

/-!
# Singly linked lists in a heap

A heap maps addresses to allocated cells.  `Linked` says that the cells reached
from an address through their `next` fields carry given addresses and items;
the starting cell is a dummy whose own item does not matter.
-/

namespace Lpel

/-- A cell of a linked list. -/
structure Cell (α : Type) where
  data : Option α
  next : Option ℕ
  deriving DecidableEq

/-- Allocated cells by address. -/
abbrev Heap (α : Type) := ℕ → Option (Cell α)

variable {α : Type}

/-- The cells behind `start`, up to one without a successor. -/
def Linked (heap : Heap α) : ℕ → List (ℕ × α) → Prop
  | start, [] => ∃ data, heap start = some ⟨data, none⟩
  | start, node :: nodes =>
      (∃ data, heap start = some ⟨data, some node.1⟩) ∧
        (∃ next, heap node.1 = some ⟨some node.2, next⟩) ∧
        Linked heap node.1 nodes

/-- The address of the last cell. -/
def lastAddress : ℕ → List (ℕ × α) → ℕ
  | start, [] => start
  | _, node :: nodes => lastAddress node.1 nodes

/-- The addresses of the dummy and the cells behind it. -/
def addresses (start : ℕ) (nodes : List (ℕ × α)) : List ℕ :=
  start :: nodes.map Prod.fst

/-- The last address after one more cell has been linked. -/
theorem lastAddress_append
    (start : ℕ)
    (nodes : List (ℕ × α))
    (node : ℕ × α) :
    lastAddress start (nodes ++ [node]) = node.1 := by
  induction nodes generalizing start with
  | nil => rfl
  | cons first nodes inductionHypothesis => exact inductionHypothesis first.1

/-- The last address is one of the list. -/
theorem lastAddress_mem
    (start : ℕ)
    (nodes : List (ℕ × α)) :
    lastAddress start nodes ∈ addresses start nodes := by
  induction nodes generalizing start with
  | nil => simp [lastAddress, addresses]
  | cons first nodes inductionHypothesis =>
      have member := inductionHypothesis first.1
      simp only [lastAddress, addresses, List.map_cons, List.mem_cons] at member ⊢
      exact Or.inr member

namespace Linked

variable {heap after : Heap α} {start : ℕ} {nodes : List (ℕ × α)}

/-- Every cell of the list is allocated. -/
theorem allocated
    (linked : Linked heap start nodes)
    {address : ℕ}
    (member : address ∈ addresses start nodes) :
    heap address ≠ none := by
  induction nodes generalizing start with
  | nil =>
      obtain ⟨data, cell⟩ := linked
      obtain rfl : address = start := by simpa [addresses] using member
      simp [cell]
  | cons node nodes inductionHypothesis =>
      obtain ⟨⟨data, cell⟩, -, rest⟩ := linked
      simp only [addresses, List.map_cons, List.mem_cons] at member
      rcases member with rfl | member
      · simp [cell]
      · exact inductionHypothesis rest (by simpa [addresses] using member)

/-- The list depends only on its own cells. -/
theorem congr
    (linked : Linked heap start nodes)
    (agree : ∀ address ∈ addresses start nodes, after address = heap address) :
    Linked after start nodes := by
  induction nodes generalizing start with
  | nil =>
      obtain ⟨data, cell⟩ := linked
      exact ⟨data, by rw [agree start (by simp [addresses]), cell]⟩
  | cons node nodes inductionHypothesis =>
      obtain ⟨⟨data, cell⟩, ⟨next, cell'⟩, rest⟩ := linked
      refine ⟨⟨data, ?_⟩, ⟨next, ?_⟩, inductionHypothesis rest ?_⟩
      · rw [agree start (by simp [addresses]), cell]
      · rw [agree node.1 (by simp [addresses]), cell']
      · intro address member
        apply agree
        simp only [addresses, List.map_cons, List.mem_cons] at member ⊢
        exact Or.inr member

/-- A change outside of the list keeps it. -/
theorem update
    (linked : Linked heap start nodes)
    {address : ℕ}
    (fresh : address ∉ addresses start nodes)
    (cell : Option (Cell α)) :
    Linked (Function.update heap address cell) start nodes := by
  apply linked.congr
  intro other member
  rw [Function.update_of_ne]
  rintro rfl
  exact fresh member

/-- The last cell has no successor. -/
theorem last
    (linked : Linked heap start nodes) :
    ∃ data, heap (lastAddress start nodes) = some ⟨data, none⟩ := by
  induction nodes generalizing start with
  | nil => exact linked
  | cons node nodes inductionHypothesis => exact inductionHypothesis linked.2.2

/-- The cell behind the dummy carries the first item. -/
theorem first
    (linked : Linked heap start nodes) :
    ((heap start).bind Cell.next).bind (fun address =>
      (heap address).bind Cell.data) = nodes.head?.map Prod.snd := by
  cases nodes with
  | nil =>
      obtain ⟨data, cell⟩ := linked
      simp [cell]
  | cons node nodes =>
      obtain ⟨⟨data, cell⟩, ⟨next, cell'⟩, -⟩ := linked
      simp [cell, cell']

/-- Linking one more cell behind the last one. -/
theorem link
    (linked : Linked heap start nodes)
    (nodup : (addresses start nodes).Nodup)
    {address : ℕ}
    {item : α}
    (fresh : address ∉ addresses start nodes)
    (cell : heap address = some ⟨some item, none⟩)
    {data : Option α}
    (tail : heap (lastAddress start nodes) = some ⟨data, none⟩) :
    Linked (Function.update heap (lastAddress start nodes)
      (some ⟨data, some address⟩)) start (nodes ++ [(address, item)]) := by
  induction nodes generalizing start with
  | nil =>
      have other : address ≠ start := by
        simpa [addresses] using fresh
      refine ⟨⟨data, ?_⟩, ⟨none, ?_⟩, ⟨some item, ?_⟩⟩
      · exact Function.update_self _ _ _
      · simpa [lastAddress, other] using cell
      · simpa [lastAddress, other] using cell
  | cons node nodes inductionHypothesis =>
      obtain ⟨⟨first, firstCell⟩, ⟨next, nextCell⟩, rest⟩ := linked
      simp only [addresses, List.map_cons, List.nodup_cons] at nodup
      have member := lastAddress_mem node.1 nodes
      have notStart : start ≠ lastAddress node.1 nodes := by
        rintro equal
        rw [← equal] at member
        exact nodup.1 (by simpa [addresses] using member)
      have fresh' : address ∉ addresses node.1 nodes := by
        intro inside
        apply fresh
        simp only [addresses, List.map_cons, List.mem_cons] at inside ⊢
        exact Or.inr inside
      have linked' := inductionHypothesis rest
        (by simpa [addresses] using nodup.2) fresh' tail
      refine ⟨⟨first, ?_⟩, ?_, linked'⟩
      · change Function.update heap (lastAddress node.1 nodes) _ start = _
        rw [Function.update_of_ne notStart, firstCell]
      · change ∃ next, Function.update heap (lastAddress node.1 nodes) _ node.1 =
          some ⟨some node.2, next⟩
        by_cases single : node.1 = lastAddress node.1 nodes
        · refine ⟨some address, ?_⟩
          rw [← single, Function.update_self]
          change heap (lastAddress node.1 nodes) = _ at tail
          rw [← single, nextCell] at tail
          simp only [Option.some.injEq, Cell.mk.injEq] at tail
          rw [tail.1]
        · refine ⟨next, ?_⟩
          rw [Function.update_of_ne single, nextCell]

end Linked

end Lpel
