import Lpel.Lib.BinaryHeap

/-!
# The ready queue of the master

`hrc_taskqueue.c`: an array of task pointers in which the slots `1` to
`count - 1` form a heap on the priorities stored in the tasks.  The priorities
are not part of the queue; every operation is given the stored priorities of the
tasks as they are when it runs.
-/

namespace Lpel
namespace Hrc

variable {τ : Type} {P : Type} [LinearOrder P]

/-- `taskqueue_t`.  Slots that were never written hold what `malloc` left. -/
structure Taskqueue (τ : Type) where
  heap : ℕ → τ
  count : ℕ
  alloc : ℕ

/-- `BLOCKSIZE`. -/
def blocksize : ℕ := 50

/-- `upHeap`. -/
def upHeap (prior : τ → P) (tq : Taskqueue τ) (pos : ℕ) : Taskqueue τ :=
  { tq with heap := BinaryHeap.siftUp prior pos tq.heap pos (tq.heap pos) }

/-- `downHeap`. -/
def downHeap (prior : τ → P) (tq : Taskqueue τ) (pos : ℕ) : Taskqueue τ :=
  { tq with
    heap :=
      BinaryHeap.siftDown prior tq.count tq.count tq.heap pos (tq.heap pos) }

/-- `searchItem`, with `none` for the answer `-1`. -/
def searchItem [DecidableEq τ] (tq : Taskqueue τ) (t : τ) : Option ℕ :=
  (List.range' 1 (tq.count - 1)).find? fun i => tq.heap i = t

/-- `LpelTaskqueueInit` on the memory that `malloc` returns. -/
def lpelTaskqueueInit (memory : ℕ → τ) : Taskqueue τ :=
  { heap := memory
    count := 1
    alloc := blocksize }

/-- `LpelTaskqueuePush`. -/
def lpelTaskqueuePush (prior : τ → P) (tq : Taskqueue τ) (t : τ) :
    Taskqueue τ :=
  let alloc := if tq.alloc ≤ tq.count then tq.alloc + blocksize else tq.alloc
  let placed : Taskqueue τ :=
    { heap := Function.update tq.heap tq.count t
      count := tq.count
      alloc := alloc }
  { upHeap prior placed tq.count with count := tq.count + 1 }

/-- `LpelTaskqueueRemoveHead`. -/
def lpelTaskqueueRemoveHead (prior : τ → P) (tq : Taskqueue τ) : Taskqueue τ :=
  downHeap prior
    { tq with
      heap := Function.update tq.heap 1 (tq.heap (tq.count - 1))
      count := tq.count - 1 }
    1

/-- `LpelTaskqueuePeek`. -/
def lpelTaskqueuePeek (tq : Taskqueue τ) : Option τ :=
  if tq.count = 1 then none else some (tq.heap 1)

/-- `LpelTaskqueuePop`. -/
def lpelTaskqueuePop (prior : τ → P) (tq : Taskqueue τ) :
    Option τ × Taskqueue τ :=
  if tq.count = 1 then
    (none, tq)
  else
    (some (tq.heap 1), lpelTaskqueueRemoveHead prior tq)

/-- `LpelTaskqueueSize`. -/
def lpelTaskqueueSize (tq : Taskqueue τ) : ℕ :=
  tq.count - 1

/-- `LpelTaskqueueUpdatePriority`, where `prior` are the priorities before the
call and `none` says that `assert(pos > 0)` has failed.  The new priority is
stored in the task before the heap is repaired. -/
def lpelTaskqueueUpdatePriority
    [DecidableEq τ]
    (prior : τ → P)
    (tq : Taskqueue τ)
    (t : τ)
    (np : P) : Option (Taskqueue τ) :=
  (searchItem tq t).map fun pos =>
    if prior t < np then
      upHeap (Function.update prior t np) tq pos
    else if np < prior t then
      downHeap (Function.update prior t np) tq pos
    else
      tq

namespace Taskqueue

/-- The queued tasks. -/
def tasks (tq : Taskqueue τ) : Multiset τ :=
  BinaryHeap.items tq.heap tq.count

/-- The queue is a heap on the stored priorities. -/
structure Valid (prior : τ → P) (tq : Taskqueue τ) : Prop where
  positive : 1 ≤ tq.count
  ordered : BinaryHeap.Ordered prior tq.heap tq.count

/-- Only the priorities of queued tasks matter. -/
theorem Valid.congr
    {prior prior' : τ → P}
    {tq : Taskqueue τ}
    (valid : tq.Valid prior)
    (agree : ∀ t ∈ tq.tasks, prior' t = prior t) :
    tq.Valid prior' := by
  refine ⟨valid.positive, ?_⟩
  intro i large within
  have member (j : ℕ) (positive : 1 ≤ j) (inside : j < tq.count) :
      prior' (tq.heap j) = prior (tq.heap j) :=
    agree _ (BinaryHeap.mem_items.mpr ⟨j, positive, inside, rfl⟩)
  rw [member i (by omega) within, member (i / 2) (by omega) (by omega)]
  exact valid.ordered i large within

theorem valid_init (prior : τ → P) (memory : ℕ → τ) :
    (lpelTaskqueueInit memory).Valid prior := by
  refine ⟨le_refl 1, ?_⟩
  intro i large within
  simp only [lpelTaskqueueInit] at within
  omega

@[simp] theorem tasks_init (memory : ℕ → τ) :
    (lpelTaskqueueInit memory).tasks = 0 := by
  simp [tasks, lpelTaskqueueInit, BinaryHeap.items]

/-- Pushing adds the task. -/
theorem tasks_push
    {prior : τ → P}
    {tq : Taskqueue τ}
    (valid : tq.Valid prior)
    (prior' : τ → P)
    (t : τ) :
    (lpelTaskqueuePush prior' tq t).tasks = t ::ₘ tq.tasks := by
  have inside : tq.count ∈ Finset.Ico 1 (tq.count + 1) := by
    have positive := valid.positive
    simp
    omega
  simp only [tasks, lpelTaskqueuePush, upHeap, Function.update_self]
  rw [BinaryHeap.items_siftUp _ _ _ _ inside, Function.update_idem,
    BinaryHeap.items_succ _ valid.positive, Function.update_self]
  congr 1
  apply BinaryHeap.items_congr
  intro i _ within
  exact Function.update_of_ne (by omega) _ _

/-- Pushing keeps the heap. -/
theorem valid_push
    {prior : τ → P}
    {tq : Taskqueue τ}
    (valid : tq.Valid prior)
    (t : τ) :
    (lpelTaskqueuePush prior tq t).Valid prior := by
  refine ⟨Nat.le_add_left 1 tq.count, ?_⟩
  have positive := valid.positive
  simp only [lpelTaskqueuePush, upHeap, Function.update_self]
  refine BinaryHeap.ordered_siftUp (le_refl _) (by omega) ⟨?_, ?_⟩
  · intro i large within other
    rw [Function.update_idem, Function.update_of_ne other,
      Function.update_of_ne (by omega)]
    exact valid.ordered i large (by omega)
  · intro i within child _
    omega

/-- An empty queue has no head. -/
theorem peek_eq_none
    {prior : τ → P}
    {tq : Taskqueue τ}
    (valid : tq.Valid prior) :
    lpelTaskqueuePeek tq = none ↔ tq.tasks = 0 := by
  have positive := valid.positive
  unfold lpelTaskqueuePeek
  split
  case isTrue empty => simp [tasks, BinaryHeap.items, empty]
  case isFalse nonempty =>
    simp only [reduceCtorEq, false_iff]
    intro none
    have root : tq.heap 1 ∈ tq.tasks :=
      BinaryHeap.mem_items.mpr ⟨1, le_refl 1, by omega, rfl⟩
    rw [none] at root
    exact absurd root (Multiset.notMem_zero _)

/-- A queue of size zero holds no task. -/
theorem tasks_of_size
    {tq : Taskqueue τ}
    (size : lpelTaskqueueSize tq = 0) :
    tq.tasks = 0 := by
  have count : tq.count ≤ 1 := by
    unfold lpelTaskqueueSize at size
    omega
  simp [tasks, BinaryHeap.items, count]

/-- The head has the highest priority in the queue. -/
theorem peek_highest
    {prior : τ → P}
    {tq : Taskqueue τ}
    {t : τ}
    (valid : tq.Valid prior)
    (head : lpelTaskqueuePeek tq = some t) :
    ∀ u ∈ tq.tasks, prior u ≤ prior t := by
  intro u member
  unfold lpelTaskqueuePeek at head
  split at head
  · exact absurd head (by simp)
  obtain ⟨i, positive, within, rfl⟩ := BinaryHeap.mem_items.mp member
  obtain rfl := Option.some.inj head
  exact valid.ordered.le_root i positive within

/-- The order of the heap after its last item is moved to the root. -/
theorem orderedAbove_root
    {prior : τ → P}
    {tq : Taskqueue τ}
    (valid : tq.Valid prior)
    (item : τ) :
    BinaryHeap.OrderedAbove prior (Function.update tq.heap 1 item)
      (tq.count - 1) 1 := by
  constructor
  · intro i large within other
    rw [Function.update_of_ne (by omega), Function.update_of_ne other]
    exact valid.ordered i large (by omega)
  · intro i _ _ large
    omega

/-- Popping removes the head. -/
theorem tasks_pop
    {prior : τ → P}
    {tq : Taskqueue τ}
    {t : τ}
    (valid : tq.Valid prior)
    (head : lpelTaskqueuePeek tq = some t) :
    tq.tasks = t ::ₘ (lpelTaskqueuePop prior tq).2.tasks := by
  have positive := valid.positive
  unfold lpelTaskqueuePeek at head
  split at head
  · exact absurd head (by simp)
  case isFalse nonempty =>
    obtain rfl := Option.some.inj head
    have count : tq.count = tq.count - 1 + 1 := by omega
    have moved := BinaryHeap.items_move_last tq.heap
      (show 1 ≤ tq.count - 1 by omega)
    rw [← count] at moved
    rw [lpelTaskqueuePop, if_neg nonempty]
    refine moved.trans (congrArg _ ?_)
    simp only [lpelTaskqueueRemoveHead, downHeap, tasks, Function.update_self]
    by_cases single : tq.count - 1 = 1
    · rw [single]
      simp [BinaryHeap.items]
    · have inside : 1 ∈ Finset.Ico 1 (tq.count - 1) := by
        simp
        omega
      rw [BinaryHeap.items_siftDown _ _ _ _ inside, Function.update_idem]

/-- Popping keeps the heap. -/
theorem valid_pop
    {prior : τ → P}
    {tq : Taskqueue τ}
    {t : τ}
    (valid : tq.Valid prior)
    (head : lpelTaskqueuePeek tq = some t) :
    (lpelTaskqueuePop prior tq).2.Valid prior := by
  have positive := valid.positive
  unfold lpelTaskqueuePeek at head
  split at head
  · exact absurd head (by simp)
  case isFalse nonempty =>
    rw [lpelTaskqueuePop, if_neg nonempty]
    refine ⟨show 1 ≤ tq.count - 1 by omega, ?_⟩
    simp only [lpelTaskqueueRemoveHead, downHeap, Function.update_self]
    refine BinaryHeap.ordered_siftDown (by omega) (le_refl 1) ?_
    rw [Function.update_idem]
    exact orderedAbove_root valid _

section UpdatePriority

variable [DecidableEq τ]

/-- A queued task is found. -/
theorem searchItem_of_mem
    {tq : Taskqueue τ}
    {t : τ}
    (member : t ∈ tq.tasks) :
    ∃ pos, searchItem tq t = some pos ∧ pos ∈ Finset.Ico 1 tq.count ∧
      tq.heap pos = t := by
  obtain ⟨i, positive, within, holds⟩ := BinaryHeap.mem_items.mp member
  have found : (searchItem tq t).isSome := by
    unfold searchItem
    rw [List.find?_isSome]
    refine ⟨i, ?_, by simpa using holds⟩
    rw [List.mem_range'_1]
    omega
  obtain ⟨pos, searched⟩ := Option.isSome_iff_exists.mp found
  refine ⟨pos, searched, ?_, by simpa using List.find?_some searched⟩
  have inside := List.mem_of_find?_eq_some searched
  rw [List.mem_range'_1] at inside
  rw [Finset.mem_Ico]
  omega

/-- Updating the priority of a queued task succeeds and keeps the tasks. -/
theorem tasks_updatePriority
    {tq : Taskqueue τ}
    {t : τ}
    (member : t ∈ tq.tasks)
    (prior : τ → P)
    (np : P) :
    ∃ after, lpelTaskqueueUpdatePriority prior tq t np = some after ∧
      after.tasks = tq.tasks := by
  obtain ⟨pos, searched, inside, -⟩ := searchItem_of_mem member
  refine ⟨_, by rw [lpelTaskqueueUpdatePriority, searched, Option.map_some], ?_⟩
  split
  · simp only [tasks, upHeap]
    rw [BinaryHeap.items_siftUp _ _ _ _ inside, Function.update_eq_self]
  · split
    · simp only [tasks, downHeap]
      rw [BinaryHeap.items_siftDown _ _ _ _ inside, Function.update_eq_self]
    · rfl

/-- Updating the priority of a task that is queued once keeps the heap. -/
theorem valid_updatePriority
    {prior : τ → P}
    {tq after : Taskqueue τ}
    {t : τ}
    {np : P}
    (valid : tq.Valid prior)
    (once : tq.tasks.count t = 1)
    (updated : lpelTaskqueueUpdatePriority prior tq t np = some after) :
    after.Valid (Function.update prior t np) := by
  have member : t ∈ tq.tasks :=
    Multiset.count_pos.mp (by omega)
  obtain ⟨pos, searched, inside, rfl⟩ := searchItem_of_mem member
  have bounds := Finset.mem_Ico.mp inside
  have elsewhere (i : ℕ) (positive : 1 ≤ i) (within : i < tq.count)
      (other : i ≠ pos) :
      Function.update prior (tq.heap pos) np (tq.heap i) =
        prior (tq.heap i) := by
    apply Function.update_of_ne
    intro equal
    exact other (BinaryHeap.slot_unique once inside
      (Finset.mem_Ico.mpr ⟨positive, within⟩) equal.symm).symm
  have bypass : BinaryHeap.Bypass (Function.update prior (tq.heap pos) np)
      tq.heap tq.count pos := by
    intro i within child large
    rw [elsewhere i (by omega) within (by omega),
      elsewhere (pos / 2) (by omega) (by omega) (by omega)]
    have edge := valid.ordered i (by omega) within
    rw [child] at edge
    exact edge.trans (valid.ordered pos large bounds.2)
  rw [lpelTaskqueueUpdatePriority, searched, Option.map_some,
    Option.some.injEq] at updated
  subst updated
  split
  case isTrue raised =>
    refine ⟨valid.positive, ?_⟩
    refine BinaryHeap.ordered_siftUp (le_refl pos) bounds.2 ⟨?_, ?_⟩
    · intro i large (within : i < tq.count) other
      rw [Function.update_eq_self, elsewhere i (by omega) within other]
      refine (valid.ordered i large within).trans ?_
      by_cases parent : i / 2 = pos
      · rw [parent, Function.update_self]
        exact raised.le
      · rw [elsewhere (i / 2) (by omega) (by omega) parent]
    · rw [Function.update_eq_self]
      exact bypass
  case isFalse notRaised =>
    split
    case isTrue lowered =>
      refine ⟨valid.positive, ?_⟩
      refine BinaryHeap.ordered_siftDown (Nat.le_add_right _ _) bounds.1
        ⟨?_, ?_⟩
      · intro i large (within : i < tq.count) notChild
        rw [Function.update_eq_self,
          elsewhere (i / 2) (by omega) (by omega) notChild]
        refine le_trans ?_ (valid.ordered i large within)
        by_cases atPosition : i = pos
        · rw [atPosition, Function.update_self]
          exact lowered.le
        · rw [elsewhere i (by omega) within atPosition]
      · rw [Function.update_eq_self]
        exact bypass
    case isFalse notLowered =>
      refine valid.congr ?_
      intro u _
      have equal : np = prior (tq.heap pos) :=
        le_antisymm (le_of_not_gt notRaised) (le_of_not_gt notLowered)
      rw [equal, Function.update_eq_self]

end UpdatePriority

end Taskqueue

end Hrc
end Lpel
