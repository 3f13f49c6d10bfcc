import Lpel.Hrc.Taskqueue
import Lpel.Lib.Machine

/-!
# The ready queue over whole runs

A queue and the priorities stored in the tasks, under any sequence of the
operations of `hrc_taskqueue.c`.  `LpelTaskqueueUpdatePriority` is called on
tasks that are in the queue, and it is the only way in which the priority of a
queued task changes.  The slots of the array that an operation reads or writes
are part of the model.

Nothing keeps a task from being pushed twice.  An update then changes the key of
two slots at once and repairs the heap at the first of them only.
-/

namespace Lpel
namespace Hrc

variable {τ : Type} {P : Type} [LinearOrder P] [DecidableEq τ]

/-- A queue and the priorities stored in the tasks. -/
structure ReadyQueue (τ P : Type) where
  tq : Taskqueue τ
  prior : τ → P

/-- The calls on a queue, and the change of the priority of a task that is not
queued. -/
inductive QueueOp (τ P : Type) where
  | push (t : τ)
  | pop
  | peek
  | updatePriority (t : τ) (np : P)
  | setPrior (t : τ) (p : P)

/-- The slots that `upHeap` reads or writes. -/
def upHeapVisits (prior : τ → P) (tq : Taskqueue τ) (pos : ℕ) : List ℕ :=
  pos :: BinaryHeap.siftUpVisits prior pos tq.heap pos (tq.heap pos)

/-- The slots that `downHeap` reads or writes. -/
def downHeapVisits (prior : τ → P) (tq : Taskqueue τ) (pos : ℕ) : List ℕ :=
  pos ::
    BinaryHeap.siftDownVisits prior tq.count tq.count tq.heap pos (tq.heap pos)

/-- The slots that `searchItem` reads: all up to the one it returns. -/
def searchItemVisits (tq : Taskqueue τ) (t : τ) : List ℕ :=
  match searchItem tq t with
  | some pos => List.range' 1 pos
  | none => List.range' 1 (tq.count - 1)

namespace ReadyQueue

/-- A call, or `none` where the environment does not make it. -/
def step (queue : ReadyQueue τ P) : QueueOp τ P → Option (ReadyQueue τ P)
  | .push t => some { queue with tq := lpelTaskqueuePush queue.prior queue.tq t }
  | .pop => some { queue with tq := (lpelTaskqueuePop queue.prior queue.tq).2 }
  | .peek => some queue
  | .updatePriority t np =>
      -- the call is only made for a task of the queue
      if t ∈ queue.tq.tasks then
        (lpelTaskqueueUpdatePriority queue.prior queue.tq t np).map fun tq =>
          { tq := tq, prior := Function.update queue.prior t np }
      else
        none
  | .setPrior t p =>
      if t ∈ queue.tq.tasks then none
      else some { queue with prior := Function.update queue.prior t p }

/-- The slots of the array that a call reads or writes. -/
def accesses (queue : ReadyQueue τ P) : QueueOp τ P → List ℕ
  | .push t =>
      queue.tq.count ::
        upHeapVisits queue.prior
          { queue.tq with
            heap := Function.update queue.tq.heap queue.tq.count t }
          queue.tq.count
  | .pop =>
      if queue.tq.count = 1 then []
      else
        1 :: (queue.tq.count - 1) :: 1 ::
          downHeapVisits queue.prior
            { queue.tq with
              heap := Function.update queue.tq.heap 1
                (queue.tq.heap (queue.tq.count - 1))
              count := queue.tq.count - 1 }
            1
  | .peek => if queue.tq.count = 1 then [] else [1]
  | .updatePriority t np =>
      searchItemVisits queue.tq t ++
        match searchItem queue.tq t with
        | none => []
        | some pos =>
            if queue.prior t < np then
              upHeapVisits (Function.update queue.prior t np) queue.tq pos
            else if np < queue.prior t then
              downHeapVisits (Function.update queue.prior t np) queue.tq pos
            else
              []
  | .setPrior _ _ => []

end ReadyQueue

/-- All sequences of calls from `LpelTaskqueueInit`. -/
def queueMachine (τ P : Type) [LinearOrder P] [DecidableEq τ] :
    Machine (ReadyQueue τ P) (QueueOp τ P) where
  init queue := ∃ memory, queue.tq = lpelTaskqueueInit memory
  next := ReadyQueue.step

namespace ReadyQueue

/-- An updated task is in the queue once. -/
def updatesOnce (queue : ReadyQueue τ P) : QueueOp τ P → Bool
  | .updatePriority t _ => queue.tq.tasks.count t = 1
  | _ => true

/-- A heap inside its array. -/
structure Invariant (queue : ReadyQueue τ P) : Prop where
  valid : queue.tq.Valid queue.prior
  fits : queue.tq.count ≤ queue.tq.alloc

omit [DecidableEq τ] in
theorem fits_push
    (prior : τ → P)
    {tq : Taskqueue τ}
    (fits : tq.count ≤ tq.alloc)
    (t : τ) :
    tq.count < (lpelTaskqueuePush prior tq t).alloc := by
  simp only [lpelTaskqueuePush, upHeap, blocksize]
  split <;> omega

theorem fits_updatePriority
    {prior : τ → P}
    {tq after : Taskqueue τ}
    {t : τ}
    {np : P}
    (updated : lpelTaskqueueUpdatePriority prior tq t np = some after) :
    after.count = tq.count ∧ after.alloc = tq.alloc := by
  obtain ⟨pos, -, rfl⟩ := Option.map_eq_some_iff.mp updated
  split
  · exact ⟨rfl, rfl⟩
  · split
    · exact ⟨rfl, rfl⟩
    · exact ⟨rfl, rfl⟩

omit [DecidableEq τ] in
theorem Invariant.pop
    {queue : ReadyQueue τ P}
    (held : queue.Invariant) :
    Invariant { queue with tq := (lpelTaskqueuePop queue.prior queue.tq).2 } := by
  cases head : lpelTaskqueuePeek queue.tq with
  | none =>
      have empty : queue.tq.count = 1 := by
        unfold lpelTaskqueuePeek at head
        split at head
        · assumption
        · exact absurd head (by simp)
      simp only [lpelTaskqueuePop, if_pos empty]
      exact held
  | some t =>
      refine ⟨Taskqueue.valid_pop held.valid head, ?_⟩
      have fits := held.fits
      unfold lpelTaskqueuePop
      split
      · exact fits
      · simp only [lpelTaskqueueRemoveHead, downHeap]
        omega

/-- Every call keeps the invariant, an update if the task is queued once. -/
theorem Invariant.step
    {queue after : ReadyQueue τ P}
    {op : QueueOp τ P}
    (held : queue.Invariant)
    (once : queue.updatesOnce op = true)
    (taken : queue.step op = some after) :
    after.Invariant := by
  cases op with
  | push t =>
      obtain rfl := Option.some.inj taken
      exact ⟨Taskqueue.valid_push held.valid t,
        fits_push queue.prior held.fits t⟩
  | pop =>
      obtain rfl := Option.some.inj taken
      exact held.pop
  | peek =>
      obtain rfl := Option.some.inj taken
      exact held
  | updatePriority t np =>
      simp only [ReadyQueue.step] at taken
      split at taken
      · obtain ⟨tq, updated, rfl⟩ := Option.map_eq_some_iff.mp taken
        have shape := fits_updatePriority updated
        refine ⟨Taskqueue.valid_updatePriority held.valid
          (of_decide_eq_true once) updated, ?_⟩
        have fits := held.fits
        simp only
        omega
      · exact absurd taken (by simp)
  | setPrior t p =>
      simp only [ReadyQueue.step] at taken
      split at taken
      · exact absurd taken (by simp)
      case isFalse absent =>
        obtain rfl := Option.some.inj taken
        refine ⟨held.valid.congr ?_, held.fits⟩
        intro u member
        apply Function.update_of_ne
        rintro rfl
        exact absent member

theorem Invariant.ofReachable
    {queue : ReadyQueue τ P}
    (reached : (queueMachine τ P).ReachableBy
      (fun queue op => queue.updatesOnce op = true) queue) :
    queue.Invariant := by
  refine Machine.ReachableBy.invariant ?_ ?_ reached
  · rintro queue ⟨memory, initial⟩
    have valid := Taskqueue.valid_init queue.prior memory
    rw [← initial] at valid
    refine ⟨valid, ?_⟩
    rw [initial]
    simp [lpelTaskqueueInit, blocksize]
  · intro queue op after held once taken
    exact held.step once taken

omit [DecidableEq τ] in
theorem lt_of_mem_upHeapVisits
    {prior : τ → P}
    {tq : Taskqueue τ}
    {pos bound i : ℕ}
    (inside : pos < bound)
    (visited : i ∈ upHeapVisits prior tq pos) :
    i < bound := by
  obtain here | above := List.mem_cons.mp visited
  · omega
  · have := BinaryHeap.le_of_mem_siftUpVisits above
    omega

omit [DecidableEq τ] in
theorem lt_of_mem_downHeapVisits
    {prior : τ → P}
    {tq : Taskqueue τ}
    {pos bound i : ℕ}
    (inside : pos < bound)
    (fits : tq.count ≤ bound)
    (visited : i ∈ downHeapVisits prior tq pos) :
    i < bound := by
  obtain here | below := List.mem_cons.mp visited
  · omega
  · have := BinaryHeap.lt_of_mem_siftDownVisits below
    omega

/-- Every slot that a call uses is inside the array. -/
theorem Invariant.accesses_lt
    {queue after : ReadyQueue τ P}
    {op : QueueOp τ P}
    (held : queue.Invariant)
    (taken : queue.step op = some after) :
    ∀ i ∈ queue.accesses op, i < after.tq.alloc := by
  intro i used
  have positive := held.valid.positive
  have fits := held.fits
  cases op with
  | push t =>
      obtain rfl := Option.some.inj taken
      have room := fits_push queue.prior fits t
      obtain rfl | visited := List.mem_cons.mp used
      · exact room
      · exact lt_of_mem_upHeapVisits room visited
  | pop =>
      obtain rfl := Option.some.inj taken
      simp only [accesses] at used
      simp only [lpelTaskqueuePop]
      split at used
      · exact absurd used List.not_mem_nil
      case isFalse nonempty =>
        rw [if_neg nonempty]
        simp only [lpelTaskqueueRemoveHead, downHeap]
        simp only [List.mem_cons] at used
        obtain rfl | rfl | rfl | visited := used
        · omega
        · omega
        · omega
        · refine lt_of_mem_downHeapVisits ?_ ?_ visited
          · omega
          · simp only
            omega
  | peek =>
      obtain rfl := Option.some.inj taken
      simp only [accesses] at used
      split at used
      · exact absurd used List.not_mem_nil
      · obtain rfl := List.mem_singleton.mp used
        omega
  | updatePriority t np =>
      simp only [ReadyQueue.step] at taken
      split at taken
      case isFalse => exact absurd taken (by simp)
      case isTrue member =>
        obtain ⟨tq, updated, rfl⟩ := Option.map_eq_some_iff.mp taken
        obtain ⟨pos, searched, inside, -⟩ := Taskqueue.searchItem_of_mem member
        have bounds := Finset.mem_Ico.mp inside
        simp only [(fits_updatePriority updated).2]
        simp only [accesses, searchItemVisits, searched, List.mem_append,
          List.mem_range'_1] at used
        obtain read | visited := used
        · omega
        split at visited
        · exact lt_of_mem_upHeapVisits (by omega) visited
        · split at visited
          · exact lt_of_mem_downHeapVisits (by omega) fits visited
          · exact absurd visited List.not_mem_nil
  | setPrior t p => exact absurd used List.not_mem_nil

/-- What a priority queue is: each call answers with a task of the highest
priority, and the queued tasks change by the pushed or popped task only. -/
structure PriorityQueue (queue : ReadyQueue τ P) : Prop where
  bounds : 1 ≤ queue.tq.count ∧ queue.tq.count ≤ queue.tq.alloc
  inside : ∀ op after, queue.step op = some after →
    ∀ i ∈ queue.accesses op, i < after.tq.alloc
  order : ∀ i, 2 ≤ i → i < queue.tq.count →
    queue.prior (queue.tq.heap i) ≤ queue.prior (queue.tq.heap (i / 2))
  size : lpelTaskqueueSize queue.tq = queue.tq.tasks.card
  push : ∀ t,
    (lpelTaskqueuePush queue.prior queue.tq t).tasks = t ::ₘ queue.tq.tasks
  pop : match lpelTaskqueuePop queue.prior queue.tq with
    | (none, after) => queue.tq.tasks = 0 ∧ after.tasks = 0
    | (some t, after) => queue.tq.tasks = t ::ₘ after.tasks ∧
        ∀ u ∈ queue.tq.tasks, queue.prior u ≤ queue.prior t
  peek : match lpelTaskqueuePeek queue.tq with
    | none => queue.tq.tasks = 0
    | some t => t ∈ queue.tq.tasks ∧
        ∀ u ∈ queue.tq.tasks, queue.prior u ≤ queue.prior t
  update : ∀ t ∈ queue.tq.tasks, ∀ np, ∃ after,
    lpelTaskqueueUpdatePriority queue.prior queue.tq t np = some after ∧
      after.tasks = queue.tq.tasks

omit [DecidableEq τ] in
theorem size_eq_card
    {tq : Taskqueue τ} :
    lpelTaskqueueSize tq = tq.tasks.card := by
  simp [lpelTaskqueueSize, Taskqueue.tasks, BinaryHeap.items]

omit [DecidableEq τ] in
/-- `LpelTaskqueuePop` answers what `LpelTaskqueuePeek` does. -/
theorem pop_eq_peek
    (prior : τ → P)
    (tq : Taskqueue τ) :
    (lpelTaskqueuePop prior tq).1 = lpelTaskqueuePeek tq := by
  unfold lpelTaskqueuePop lpelTaskqueuePeek
  split
  · rfl
  · rfl

omit [DecidableEq τ] in
theorem pop_none
    {prior : τ → P}
    {tq : Taskqueue τ}
    (head : lpelTaskqueuePeek tq = none) :
    lpelTaskqueuePop prior tq = (none, tq) := by
  unfold lpelTaskqueuePeek at head
  split at head
  case isTrue empty => rw [lpelTaskqueuePop, if_pos empty]
  case isFalse => exact absurd head (by simp)

/-- The ready queue is a priority queue as long as only tasks that are queued
once are given a new priority. -/
theorem isPriorityQueue
    {queue : ReadyQueue τ P}
    (reached : (queueMachine τ P).ReachableBy
      (fun queue op => queue.updatesOnce op = true) queue) :
    queue.PriorityQueue := by
  have held := Invariant.ofReachable reached
  have valid := held.valid
  constructor
  case bounds => exact ⟨valid.positive, held.fits⟩
  case inside =>
    intro op after taken
    exact held.accesses_lt taken
  case order => exact valid.ordered
  case size => exact size_eq_card
  case push =>
    intro t
    exact Taskqueue.tasks_push valid queue.prior t
  case pop =>
    cases head : lpelTaskqueuePeek queue.tq with
    | none =>
        have empty := (Taskqueue.peek_eq_none valid).mp head
        rw [pop_none head]
        exact ⟨empty, empty⟩
    | some t =>
        have answer : (lpelTaskqueuePop queue.prior queue.tq).1 = some t :=
          (pop_eq_peek queue.prior queue.tq).trans head
        have removed := Taskqueue.tasks_pop valid head
        rw [← Prod.mk.eta (p := lpelTaskqueuePop queue.prior queue.tq), answer]
        exact ⟨removed, Taskqueue.peek_highest valid head⟩
  case peek =>
    cases head : lpelTaskqueuePeek queue.tq with
    | none => exact (Taskqueue.peek_eq_none valid).mp head
    | some t =>
        refine ⟨?_, Taskqueue.peek_highest valid head⟩
        rw [Taskqueue.tasks_pop valid head]
        exact Multiset.mem_cons_self t _
  case update =>
    intro t member np
    exact Taskqueue.tasks_updatePriority member queue.prior np

/-- The queue after `LpelTaskqueueInit`. -/
def emptyQueue : ReadyQueue ℕ ℕ :=
  { tq := lpelTaskqueueInit fun _ => 0, prior := fun _ => 0 }

/-- A queue of three tasks. -/
def threeQueued : List (QueueOp ℕ ℕ) :=
  [.setPrior 0 5, .setPrior 1 3, .setPrior 2 4, .push 0, .push 1, .push 2]

theorem isPriorityQueue_raised :
    ∃ queue : ReadyQueue ℕ ℕ, queue.PriorityQueue ∧
      lpelTaskqueuePeek queue.tq = some 1 := by
  obtain ⟨queue, reached, head⟩ := Machine.exists_reachableBy_of_runBy
    (⟨_, rfl⟩ : (queueMachine ℕ ℕ).init emptyQueue)
    (by decide : ((queueMachine ℕ ℕ).runBy updatesOnce emptyQueue
      (threeQueued ++ [.updatePriority 1 10])).map
      (fun queue => decide (lpelTaskqueuePeek queue.tq = some 1)) = some true)
  exact ⟨queue, isPriorityQueue reached, of_decide_eq_true head⟩

/-- A task that is pushed twice and then raised leaves a slot with a higher
priority than its parent. -/
theorem pushedTwice_unordered :
    ∃ queue : ReadyQueue ℕ ℕ, (queueMachine ℕ ℕ).Reachable queue ∧
      ¬ queue.PriorityQueue := by
  obtain ⟨queue, reached, unordered⟩ := Machine.exists_reachable_of_run
    (⟨_, rfl⟩ : (queueMachine ℕ ℕ).init emptyQueue)
    (by decide : ((queueMachine ℕ ℕ).run emptyQueue
      (threeQueued ++ [.push 1, .updatePriority 1 10])).map
      (fun queue => decide (4 < queue.tq.count ∧
        queue.prior (queue.tq.heap (4 / 2)) < queue.prior (queue.tq.heap 4))) =
          some true)
  refine ⟨queue, reached, ?_⟩
  intro correct
  obtain ⟨within, higher⟩ := of_decide_eq_true unordered
  have order := correct.order 4 (by decide) within
  exact absurd higher (not_lt.mpr order)

end ReadyQueue

end Hrc
end Lpel
