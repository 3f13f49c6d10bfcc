import Mathlib.Algebra.Order.Ring.Int
import Mathlib.Order.BoundedOrder.Lattice
import Lpel.Hrc.Stream

/-!
# Tasks of the hierarchical back end and their priorities

The part of `lpel_task_t` that the scheduler reads, and the dynamic priority of
`hrc_task.c`.  A priority is a finite `double`: any linear order, with
`LPEL_DBL_MIN`, which is `-DBL_MAX`, as its least and `DBL_MAX` as its greatest
element.

The streams of a task are read while other threads move their counters, so what
one call of `LpelTaskCalPriority` reads is an argument of it.  The records are
counted in an `int`, which wraps around.
-/

namespace Lpel
namespace Hrc

/-- `lpel_taskstate_t`. -/
inductive TaskState
  | created
  | running
  | ready
  | blocked
  | zombie
  | inqueue
  | returned
  deriving DecidableEq

/-- The part of `lpel_task_t` that the scheduler uses. -/
structure Task (P : Type) where
  state : TaskState
  /-- 1 if the wakeup was handled before the task was returned. -/
  wakenup : ℕ
  /-- `sched_info.prior`. -/
  prior : P

/-- The value of an `int` after it has wrapped around. -/
def wrapInt (value : ℤ) : ℤ := value.bmod (2 ^ 32)

/-- A value in the range of `int` is kept. -/
theorem wrapInt_of_range
    {value : ℤ}
    (lower : -2 ^ 31 ≤ value)
    (upper : value < 2 ^ 31) :
    wrapInt value = value := by
  apply Int.bmod_eq_of_le <;> omega

@[simp] theorem wrapInt_wrapInt_add (first second : ℤ) :
    wrapInt (wrapInt first + second) = wrapInt (first + second) :=
  Int.bmod_add_bmod

/-- What is read of a stream in the list of a task. -/
structure StreamView where
  type : StreamType
  /-- `LpelStreamFillLevel`. -/
  fillLevel : ℤ

/-- What one call of `LpelTaskCalPriority` reads: the two stream lists of the
task, where `none` is a descriptor whose `stream` is `NULL`, and the answer of
`rand()`. -/
structure SchedView where
  inStreams : List (Option StreamView)
  outStreams : List (Option StreamView)
  rand : ℕ

/-- The second argument of `countRec`. -/
inductive InOut
  | i
  | o
  deriving DecidableEq

/-- The streams that are not counted: entry streams on the input side and exit
streams on the output side. -/
def InOut.notCounted : InOut → StreamType → Bool
  | .i, .entry => true
  | .o, .exit => true
  | _, _ => false

/-- One round of the loop of `countRec` on `cnt` and `flag`. -/
def countRound
    (inout : InOut)
    (count : ℤ × Bool) :
    Option StreamView → ℤ × Bool
  | none => count
  | some stream =>
      if inout.notCounted stream.type then
        (count.1, true)
      else
        (wrapInt (count.1 + stream.fillLevel), count.2)

/-- `countRec`. -/
def countRec (list : List (Option StreamView)) (inout : InOut) : ℤ :=
  if list.isEmpty then
    -1
  else
    let count := list.foldl (countRound inout) (0, false)
    if count.2 ∧ count.1 = 0 then -1 else count.1

/-- The two settings of the scheduler: `neg_demand_lim` and the priority
function, given the answer of `rand()` and the two record counts. -/
structure Policy (P : Type) where
  negDemandLim : ℤ
  priorCal : ℕ → ℤ → ℤ → P

variable {P : Type} [LinearOrder P] [BoundedOrder P]

/-- `LpelTaskCalPriority`, compiled with `_USE_NEG_DEMAND_LIMIT_`. -/
def lpelTaskCalPriority (policy : Policy P) (view : SchedView) : P :=
  let inRec := countRec view.inStreams .i
  let outRec := countRec view.outStreams .o
  if inRec = -1 ∧ policy.negDemandLim < outRec ∧ 0 < policy.negDemandLim then
    ⊥
  else
    policy.priorCal view.rand inRec outRec

end Hrc
end Lpel
