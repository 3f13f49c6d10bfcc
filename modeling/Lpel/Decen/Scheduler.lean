import Mathlib.Algebra.BigOperators.Fin
import Mathlib.Data.List.FinRange

/-!
# The ready queues of a worker

`decen_scheduler.c`: one first-in first-out queue for each priority.  A task is
appended to the queue of its priority, clamped to the range of the queues, and
the next task is the head of the highest queue that is not empty.
-/

namespace Lpel
namespace Decen

variable {τ : Type}

/-- `SCHED_NUM_PRIO`. -/
abbrev schedNumPrio : ℕ := 2

/-- `schedctx_t`. -/
structure Schedctx (τ : Type) where
  queue : Fin schedNumPrio → List τ

/-- The queue for a priority. -/
def clampPrio (prio : ℤ) : Fin schedNumPrio :=
  if prio < 0 then 0
  else if (schedNumPrio : ℤ) ≤ prio then Fin.last 1
  else Fin.ofNat schedNumPrio prio.toNat

/-- `LpelSchedCreate`. -/
def lpelSchedCreate : Schedctx τ :=
  { queue := fun _ => [] }

/-- `LpelSchedMakeReady` for a task of a priority. -/
def lpelSchedMakeReady (sc : Schedctx τ) (prio : ℤ) (t : τ) : Schedctx τ :=
  { queue := Function.update sc.queue (clampPrio prio)
      (sc.queue (clampPrio prio) ++ [t]) }

/-- `LpelSchedFetchReady`. -/
def lpelSchedFetchReady (sc : Schedctx τ) : Option τ × Schedctx τ :=
  match (List.finRange schedNumPrio).reverse.find? fun i =>
      !(sc.queue i).isEmpty with
  | none => (none, sc)
  | some i =>
      ((sc.queue i).head?,
        { queue := Function.update sc.queue i (sc.queue i).tail })

namespace Schedctx

variable [DecidableEq τ]

/-- How often a task is in the queues. -/
def count (sc : Schedctx τ) (t : τ) : ℕ :=
  ∑ i, (sc.queue i).count t

@[simp] theorem count_create (t : τ) :
    (lpelSchedCreate : Schedctx τ).count t = 0 := by
  simp [count, lpelSchedCreate]

/-- Replacing one queue. -/
theorem count_update
    (sc : Schedctx τ)
    (i : Fin schedNumPrio)
    (queue : List τ)
    (t : τ) :
    count { queue := Function.update sc.queue i queue } t +
        (sc.queue i).count t =
      sc.count t + queue.count t := by
  have others (j : Fin schedNumPrio) (member : j ∈ Finset.univ.erase i) :
      (Function.update sc.queue i queue j).count t = (sc.queue j).count t := by
    rw [Function.update_of_ne (Finset.ne_of_mem_erase member)]
  unfold count
  dsimp only
  rw [← Finset.add_sum_erase _ _ (Finset.mem_univ i),
    ← Finset.add_sum_erase _ (fun j => (sc.queue j).count t)
      (Finset.mem_univ i),
    Finset.sum_congr rfl others, Function.update_self]
  omega

/-- The task is queued once more. -/
theorem count_makeReady
    (sc : Schedctx τ)
    (prio : ℤ)
    (t u : τ) :
    (lpelSchedMakeReady sc prio t).count u =
      sc.count u + if t = u then 1 else 0 := by
  have replaced := count_update sc (clampPrio prio)
    (sc.queue (clampPrio prio) ++ [t]) u
  rw [List.count_append, List.count_singleton] at replaced
  simp only [beq_iff_eq] at replaced
  unfold lpelSchedMakeReady
  omega

/-- The fetched task is queued once less. -/
theorem count_fetchReady
    (sc : Schedctx τ)
    (u : τ) :
    sc.count u = (lpelSchedFetchReady sc).2.count u +
      if (lpelSchedFetchReady sc).1 = some u then 1 else 0 := by
  unfold lpelSchedFetchReady
  split
  case h_1 => simp
  case h_2 i found =>
    have nonempty : sc.queue i ≠ [] := by
      have tested := List.find?_some found
      simpa using tested
    have replaced := count_update sc i (sc.queue i).tail u
    obtain ⟨t, rest, queue⟩ := List.exists_cons_of_ne_nil nonempty
    rw [queue, List.tail_cons, List.count_cons] at replaced
    simp only [beq_iff_eq] at replaced
    simp only [queue, List.tail_cons, List.head?_cons, Option.some.injEq]
    omega

end Schedctx

end Decen
end Lpel
