import Mathlib.Algebra.Order.Ring.Int
import Mathlib.Data.Int.Cast.Lemmas
import Lpel.Hrc.Pools

/-!
# The record limit of a task

`hrc_task.c` lets a task yield after a number of records.  The limit is kept in
`rec_limit`: every output stream that is opened adds `rec_limit_factor` to it, and
every one that is closed takes it away again.  `LpelStreamWrite` calls
`LpelTaskCheckYield` after each record, and `TaskStart` resets the count.

The limit and the factor move while the count runs.  The yield is on equality,
so a count that has passed the limit is not noticed any more.  The two results
say for which runs the limit is what it is meant to be, and for which runs a task
yields in time.  The three numbers are of type `int` and wrap around.
-/

namespace Lpel
namespace Hrc

variable {δ : Type}

/-- The part of `sched_task_t` that concerns the record limit. -/
structure SchedInfo (δ : Type) where
  recCnt : Int32
  recLimit : Int32
  recLimitFactor : Int32
  inStreams : List δ
  outStreams : List δ

namespace SchedInfo

/-- `LpelTaskCreate`. -/
def lpelTaskCreate : SchedInfo δ where
  recCnt := 0
  recLimit := 0
  recLimitFactor := -1
  inStreams := []
  outStreams := []

/-- `LpelTaskSetRecLimit`. -/
def lpelTaskSetRecLimit (info : SchedInfo δ) (lim : Int32) : SchedInfo δ :=
  { info with recLimitFactor := lim }

/-- `LpelTaskAddStream`. -/
def lpelTaskAddStream (info : SchedInfo δ) (des : δ) : Mode → SchedInfo δ
  | .r => { info with inStreams := des :: info.inStreams }
  | .w =>
      { info with
        recLimit := info.recLimit + info.recLimitFactor
        outStreams := des :: info.outStreams }

/-- `LpelTaskRemoveStream`, for a descriptor that is in the list. -/
def lpelTaskRemoveStream [DecidableEq δ] (info : SchedInfo δ) (des : δ) :
    Mode → Option (SchedInfo δ)
  | .r =>
      if des ∈ info.inStreams then
        some { info with inStreams := info.inStreams.erase des }
      else
        none
  | .w =>
      if des ∈ info.outStreams then
        some { info with
          recLimit := info.recLimit - info.recLimitFactor
          outStreams := info.outStreams.erase des }
      else
        none

/-- `TaskStart`. -/
def taskStart (info : SchedInfo δ) : SchedInfo δ :=
  { info with recCnt := 0 }

/-- `LpelTaskCheckYield` yields. -/
def yields (info : SchedInfo δ) : Bool :=
  0 ≤ info.recLimit ∧ info.recCnt = info.recLimit

/-- `LpelTaskCheckYield`; the task is started again within it if it yields. -/
def lpelTaskCheckYield (info : SchedInfo δ) : SchedInfo δ :=
  if info.recLimit < 0 then
    info
  else
    let info := if info.recCnt = info.recLimit then info.taskStart else info
    { info with recCnt := info.recCnt + 1 }

end SchedInfo

/-- A task with what it has done since its last `TaskStart`. -/
structure RecordTask (δ : Type) where
  info : SchedInfo δ
  /-- A record is written, before `LpelTaskCheckYield`. -/
  pending : Bool
  /-- History: the records written while the limit was not negative. -/
  written : ℕ
  /-- History: the largest limit in force. -/
  largest : ℤ

/-- What the task does, or what is done to it. -/
inductive RecordLabel (δ : Type)
  | setRecLimit (lim : Int32)
  | addStream (des : δ) (mode : Mode)
  | removeStream (des : δ) (mode : Mode)
  /-- `LpelStreamWrite` up to its last call. -/
  | write
  | checkYield
  /-- `TaskStart`, after the task was blocked or has yielded on its own. -/
  | restart

namespace RecordTask

/-- The task goes on with other streams. -/
def setInfo (task : RecordTask δ) (info : SchedInfo δ) : RecordTask δ :=
  { task with
    info := info
    largest := max task.largest info.recLimit.toInt }

/-- A new period begins. -/
def start (task : RecordTask δ) (info : SchedInfo δ) : RecordTask δ :=
  { task with
    info := info
    pending := false
    written := 0
    largest := info.recLimit.toInt }

end RecordTask

/-- One call.  The task does not open or close a stream while it is in
`LpelStreamWrite`. -/
def recordNext [DecidableEq δ] (task : RecordTask δ) :
    RecordLabel δ → Option (RecordTask δ)
  | .setRecLimit lim =>
      some { task with info := task.info.lpelTaskSetRecLimit lim }
  | .addStream des mode =>
      if task.pending then none
      else some (task.setInfo (task.info.lpelTaskAddStream des mode))
  | .removeStream des mode =>
      if task.pending then none
      else (task.info.lpelTaskRemoveStream des mode).map task.setInfo
  | .write =>
      if task.pending then none
      else
        some { task with
          pending := true
          written := if 0 ≤ task.info.recLimit then task.written + 1
            else task.written }
  | .checkYield =>
      if task.info.yields then
        some (task.start task.info.lpelTaskCheckYield)
      else
        some { task with
          info := task.info.lpelTaskCheckYield
          pending := false }
  | .restart =>
      if task.pending then none
      else some (task.start task.info.taskStart)

/-- A task that was created and started. -/
def recordStart : RecordTask δ where
  info := SchedInfo.lpelTaskCreate
  pending := false
  written := 0
  largest := 0

/-- All sequences of calls on a task. -/
def recordMachine (δ : Type) [DecidableEq δ] :
    Machine (RecordTask δ) (RecordLabel δ) where
  init := fun task => task = recordStart
  next := recordNext

/-- The calls, with what each of them requires and does. -/
inductive RecordStep [DecidableEq δ] (task : RecordTask δ) :
    RecordLabel δ → RecordTask δ → Prop
  | setRecLimit {lim : Int32} :
      RecordStep task (.setRecLimit lim)
        { task with info := { task.info with recLimitFactor := lim } }
  | addInput {des : δ} :
      task.pending = false →
      RecordStep task (.addStream des .r)
        (task.setInfo
          { task.info with inStreams := des :: task.info.inStreams })
  | addOutput {des : δ} :
      task.pending = false →
      RecordStep task (.addStream des .w)
        (task.setInfo
          { task.info with
            recLimit := task.info.recLimit + task.info.recLimitFactor
            outStreams := des :: task.info.outStreams })
  | removeInput {des : δ} :
      task.pending = false →
      RecordStep task (.removeStream des .r)
        (task.setInfo
          { task.info with inStreams := task.info.inStreams.erase des })
  | removeOutput {des : δ} :
      task.pending = false →
      des ∈ task.info.outStreams →
      RecordStep task (.removeStream des .w)
        (task.setInfo
          { task.info with
            recLimit := task.info.recLimit - task.info.recLimitFactor
            outStreams := task.info.outStreams.erase des })
  | write :
      task.pending = false →
      RecordStep task .write
        { task with
          pending := true
          written := if 0 ≤ task.info.recLimit then task.written + 1
            else task.written }
  | unlimited :
      task.info.recLimit < 0 →
      RecordStep task .checkYield { task with pending := false }
  /-- The count has reached the limit: the task yields, and it is started
  again. -/
  | yield :
      0 ≤ task.info.recLimit →
      task.info.recCnt = task.info.recLimit →
      RecordStep task .checkYield
        (task.start { task.info with recCnt := 0 + 1 })
  | pass :
      0 ≤ task.info.recLimit →
      task.info.recCnt ≠ task.info.recLimit →
      RecordStep task .checkYield
        { task with
          info := { task.info with recCnt := task.info.recCnt + 1 }
          pending := false }
  | restart :
      task.pending = false →
      RecordStep task .restart (task.start { task.info with recCnt := 0 })

/-- Every call is one of these. -/
theorem recordNext_cases
    [DecidableEq δ]
    {task after : RecordTask δ}
    {label : RecordLabel δ}
    (taken : recordNext task label = some after) :
    RecordStep task label after := by
  cases label with
  | setRecLimit lim =>
      obtain rfl := Option.some.inj taken
      exact .setRecLimit
  | addStream des mode =>
      simp only [recordNext, Option.ite_none_left_eq_some,
        Option.some.injEq] at taken
      obtain ⟨outside, rfl⟩ := taken
      cases mode with
      | r => exact .addInput (by simpa using outside)
      | w => exact .addOutput (by simpa using outside)
  | removeStream des mode =>
      simp only [recordNext, Option.ite_none_left_eq_some,
        Option.map_eq_some_iff] at taken
      obtain ⟨outside, info, removed, rfl⟩ := taken
      cases mode with
      | r =>
          simp only [SchedInfo.lpelTaskRemoveStream,
            Option.ite_none_right_eq_some, Option.some.injEq] at removed
          obtain ⟨-, rfl⟩ := removed
          exact .removeInput (by simpa using outside)
      | w =>
          simp only [SchedInfo.lpelTaskRemoveStream,
            Option.ite_none_right_eq_some, Option.some.injEq] at removed
          obtain ⟨member, rfl⟩ := removed
          exact .removeOutput (by simpa using outside) member
  | write =>
      simp only [recordNext, Option.ite_none_left_eq_some,
        Option.some.injEq] at taken
      obtain ⟨outside, rfl⟩ := taken
      exact .write (by simpa using outside)
  | checkYield =>
      simp only [recordNext, SchedInfo.yields, decide_eq_true_eq] at taken
      split at taken
      · rename_i reached
        obtain rfl := Option.some.inj taken
        rw [SchedInfo.lpelTaskCheckYield,
          if_neg (Int32.not_lt.mpr reached.1), if_pos reached.2]
        exact .yield reached.1 reached.2
      · rename_i unreached
        obtain rfl := Option.some.inj taken
        by_cases negative : task.info.recLimit < 0
        · rw [SchedInfo.lpelTaskCheckYield, if_pos negative]
          exact .unlimited negative
        · have different : task.info.recCnt ≠ task.info.recLimit :=
            fun same => unreached ⟨Int32.not_lt.mp negative, same⟩
          rw [SchedInfo.lpelTaskCheckYield, if_neg negative, if_neg different]
          exact .pass (Int32.not_lt.mp negative) different
  | restart =>
      simp only [recordNext, Option.ite_none_left_eq_some,
        Option.some.injEq] at taken
      obtain ⟨outside, rfl⟩ := taken
      exact .restart (by simpa using outside)

/-! ## The limit -/

/-- The limit that the open output streams give. -/
structure Accounted (info : SchedInfo δ) : Prop where
  limit : info.recLimit.toInt =
    info.recLimitFactor.toInt * info.outStreams.length
  closed : info.outStreams = [] → info.recLimit = 0
  negative : info.recLimit < 0 → info.recLimitFactor < 0

/-- The other two facts follow from the first one. -/
theorem accounted_iff {info : SchedInfo δ} :
    Accounted info ↔
      info.recLimit.toInt =
        info.recLimitFactor.toInt * info.outStreams.length := by
  constructor
  · exact Accounted.limit
  · intro limit
    refine ⟨limit, ?_, ?_⟩
    · intro closed
      rw [← Int32.toInt_inj, limit, closed]
      simp
    · intro negative
      rw [Int32.lt_iff_toInt_lt, Int32.toInt_zero] at negative ⊢
      by_contra factor
      have product :
          0 ≤ info.recLimitFactor.toInt * info.outStreams.length :=
        Int.mul_nonneg (by omega) (by omega)
      omega

/-- A value in the range of `int`. -/
def InRange (value : ℤ) : Prop :=
  -2 ^ 31 ≤ value ∧ value < 2 ^ 31

/-- The values in the range are those that do not wrap around. -/
theorem bmod_eq_self_iff {value : ℤ} :
    value.bmod (2 ^ 32) = value ↔ InRange value := by
  constructor
  · intro same
    have lower := Int.le_bmod (x := value) (m := 2 ^ 32) (by decide)
    have upper := Int.bmod_lt (x := value) (m := 2 ^ 32) (by decide)
    unfold InRange
    omega
  · intro range
    obtain ⟨lower, upper⟩ := range
    apply Int.bmod_eq_of_le <;> omega

/-- The factor is not changed while an output stream is open, and no output
stream is opened that takes the limit out of the range of `int`. -/
def KeepsAccount (task : RecordTask δ) : RecordLabel δ → Prop
  | .setRecLimit lim =>
      task.info.outStreams = [] ∨ lim = task.info.recLimitFactor
  | .addStream _ .w =>
      InRange
        (task.info.recLimitFactor.toInt * (task.info.outStreams.length + 1))
  | _ => True

/-- A limit in the range of `int` is left in it when a stream is closed. -/
theorem InRange.pred
    {factor : ℤ}
    {count : ℕ}
    (range : InRange (factor * (count + 1))) :
    InRange (factor * count) := by
  obtain ⟨lower, upper⟩ := range
  rw [mul_add, mul_one] at lower upper
  have count_nonneg : (0 : ℤ) ≤ count := Int.natCast_nonneg count
  rcases le_total 0 factor with nonneg | nonpos
  · have product := Int.mul_nonneg nonneg count_nonneg
    constructor <;> omega
  · have product := Int.mul_nonpos_of_nonpos_of_nonneg nonpos count_nonneg
    constructor <;> omega

/-- A call keeps the account exactly if it keeps the factor and the range. -/
theorem Accounted.step_iff
    [DecidableEq δ]
    {task after : RecordTask δ}
    {label : RecordLabel δ}
    (accounted : Accounted task.info)
    (taken : recordNext task label = some after) :
    Accounted after.info ↔ KeepsAccount task label := by
  have limit := accounted.limit
  cases recordNext_cases taken with
  | @setRecLimit lim =>
      rw [accounted_iff, limit]
      simp only [KeepsAccount, mul_eq_mul_right_iff, Int.natCast_eq_zero,
        List.length_eq_zero_iff, Int32.toInt_inj]
      tauto
  | addOutput =>
      rw [accounted_iff]
      simp only [RecordTask.setInfo, List.length_cons, Nat.cast_succ,
        Int32.toInt_add, limit, KeepsAccount, ← bmod_eq_self_iff, mul_add,
        mul_one]
  | removeOutput _ member =>
      refine iff_of_true (accounted_iff.mpr ?_) trivial
      obtain ⟨count, length⟩ : ∃ count, task.info.outStreams.length = count + 1 :=
        Nat.exists_eq_add_one.mpr (List.length_pos_of_mem member)
      have range : InRange (task.info.recLimitFactor.toInt * (count + 1)) := by
        have same := limit
        rw [length, Nat.cast_succ] at same
        rw [← same]
        exact ⟨Int32.le_toInt _, Int32.toInt_lt _⟩
      simp only [RecordTask.setInfo, List.length_erase_of_mem member, length,
        Nat.add_sub_cancel, Int32.toInt_sub, limit]
      rw [Nat.cast_succ, mul_add, mul_one, add_sub_cancel_right]
      exact bmod_eq_self_iff.mpr range.pred
  | addInput | removeInput | write | unlimited | yield | pass | restart =>
      exact iff_of_true (accounted_iff.mpr limit) trivial

/-- The limit is the factor times the number of open output streams along exactly
the sequences of calls in which the factor is not changed while an output stream
is open and no output stream is opened that takes the limit out of the range of
`int`. -/
theorem recLimitAccounted
    [DecidableEq δ]
    (labels : List (RecordLabel δ)) :
    (recordMachine δ).HoldsAlong (fun task => Accounted task.info) recordStart
        labels ↔
      (recordMachine δ).StepsMeet KeepsAccount recordStart labels := by
  have created : Accounted (recordStart : RecordTask δ).info :=
    accounted_iff.mpr (by simp [recordStart, SchedInfo.lpelTaskCreate])
  refine Machine.holdsAlong_iff_stepsMeet (fun task => Accounted task.info)
    ?_ ?_ ?_ created labels
  · exact fun _ accounted => accounted
  · exact fun _ _ _ accounted taken => (accounted.step_iff taken).mpr
  · exact fun _ _ _ accounted taken => (accounted.step_iff taken).mp

/-- The factor is raised to 5 while an output stream is open, which is then
closed. -/
def raisedFactor : List (RecordLabel ℕ) :=
  [.addStream 1 .w, .setRecLimit 5, .removeStream 1 .w]

/-- A task without output streams is left with a negative limit under a positive
factor. -/
theorem recLimit_raisedFactor :
    ∃ task : RecordTask ℕ, (recordMachine ℕ).Reachable task ∧
      (task.info.recLimit = -6 ∧ task.info.recLimitFactor = 5 ∧
        task.info.outStreams = []) ∧
      ¬ Accounted task.info := by
  obtain ⟨task, reached, tested⟩ := Machine.exists_reachable_of_run
    (rfl : (recordMachine ℕ).init recordStart)
    (by decide : ((recordMachine ℕ).run recordStart raisedFactor).map
      (fun task => decide (task.info.recLimit = -6 ∧
        task.info.recLimitFactor = 5 ∧ task.info.outStreams = [])) =
          some true)
  have values := of_decide_eq_true tested
  refine ⟨task, reached, values, ?_⟩
  intro accounted
  have zero := accounted.closed values.2.2
  rw [values.1] at zero
  exact absurd zero (by decide)

/-! ## The yield -/

namespace RecordTask

/-- The task yields in time. -/
structure Limited (task : RecordTask δ) : Prop where
  /-- A task whose count has reached or passed the limit yields at its next
  `LpelTaskCheckYield`. -/
  yields : 0 ≤ task.info.recLimit → task.info.recLimit ≤ task.info.recCnt →
    task.info.yields = true
  /-- It has not written more than one record above the largest limit. -/
  bounded : 0 < task.written → (task.written : ℤ) ≤ task.largest + 1

/-- What the history has to do with the count. -/
structure Counted (task : RecordTask δ) : Prop where
  nonneg : 0 ≤ task.info.recCnt.toInt
  largest : task.info.recLimit.toInt ≤ task.largest
  written : (task.written : ℤ) ≤ task.info.recCnt.toInt +
    if task.pending = true ∧ 0 ≤ task.info.recLimit then 1 else 0

/-- The count has not passed the limit, or there is none. -/
def below (recCnt recLimit : Int32) : Prop :=
  recLimit < 0 ∨ recCnt ≤ recLimit

theorem below_iff {recCnt recLimit : Int32} :
    below recCnt recLimit ↔
      recLimit.toInt < 0 ∨ recCnt.toInt ≤ recLimit.toInt := by
  rw [below, Int32.lt_iff_toInt_lt, Int32.le_iff_toInt_le, Int32.toInt_zero]

/-- A task yields in time exactly if its count has not passed the limit. -/
theorem yields_iff (task : RecordTask δ) :
    (0 ≤ task.info.recLimit → task.info.recLimit ≤ task.info.recCnt →
      task.info.yields = true) ↔
      below task.info.recCnt task.info.recLimit := by
  simp only [SchedInfo.yields, below_iff, decide_eq_true_eq,
    Int32.le_iff_toInt_le, ← Int32.toInt_inj, Int32.toInt_zero]
  omega

/-- One more record does not take the count out of the range of `int`. -/
theorem toInt_recCnt_add_one
    {recCnt recLimit : Int32}
    (inTime : below recCnt recLimit)
    (limited : 0 ≤ recLimit)
    (unreached : recCnt ≠ recLimit) :
    (recCnt + 1).toInt = recCnt.toInt + 1 ∧
      recCnt.toInt + 1 ≤ recLimit.toInt := by
  rw [below_iff] at inTime
  rw [Int32.le_iff_toInt_le, Int32.toInt_zero] at limited
  rw [ne_eq, ← Int32.toInt_inj] at unreached
  have lower := recCnt.le_toInt
  have upper := recLimit.toInt_lt
  have next : recCnt.toInt + 1 ≤ recLimit.toInt := by omega
  refine ⟨?_, next⟩
  rw [Int32.toInt_add, Int32.toInt_one, bmod_eq_self_iff]
  constructor <;> omega

end RecordTask

/-- No check is made under the limit 0, and no output stream is opened or closed
such that the count has passed the new limit. -/
def keepsBelow (task : RecordTask δ) : RecordLabel δ → Prop
  | .checkYield => task.info.recLimit ≠ 0
  | .addStream _ .w =>
      RecordTask.below task.info.recCnt
        (task.info.recLimit + task.info.recLimitFactor)
  | .removeStream _ .w =>
      RecordTask.below task.info.recCnt
        (task.info.recLimit - task.info.recLimitFactor)
  | _ => True

namespace RecordTask

variable [DecidableEq δ] {task after : RecordTask δ} {label : RecordLabel δ}

/-- A call of a task that yields in time keeps the relation of the history to the
count. -/
theorem Counted.step
    (counted : task.Counted)
    (limited : task.Limited)
    (taken : recordNext task label = some after) :
    after.Counted := by
  have nonneg := counted.nonneg
  have largest := counted.largest
  have written := counted.written
  have inTime := (yields_iff task).mp limited.yields
  cases recordNext_cases taken with
  | setRecLimit => exact ⟨nonneg, largest, written⟩
  | addInput outside | addOutput outside | removeInput outside
  | removeOutput outside =>
      refine ⟨nonneg, le_max_right _ _, ?_⟩
      simp only [outside, Bool.false_eq_true, false_and, if_false] at written
      simpa [setInfo, outside] using written
  | write outside =>
      refine ⟨nonneg, largest, ?_⟩
      simp only [outside, Bool.false_eq_true, false_and, if_false] at written
      simp only [true_and]
      split
      · push_cast
        omega
      · omega
  | unlimited negative =>
      refine ⟨nonneg, largest, ?_⟩
      rw [if_neg fun held => Int32.not_le.mpr negative held.2] at written
      simpa using written
  | yield => exact ⟨by simp [start], le_rfl, by simp [start]⟩
  | pass limit unreached =>
      obtain ⟨next, -⟩ := toInt_recCnt_add_one inTime limit unreached
      refine ⟨?_, largest, ?_⟩
      · dsimp only
        omega
      · simp only [Bool.false_eq_true, false_and, if_false, next]
        split at written <;> omega
  | restart => exact ⟨by simp [start], le_rfl, by simp [start]⟩

/-- A task that yields in time does so after a call exactly if the call keeps the
count below the limit. -/
theorem Limited.step_iff
    (counted : task.Counted)
    (limited : task.Limited)
    (taken : recordNext task label = some after) :
    after.Limited ↔ keepsBelow task label := by
  have nonneg := counted.nonneg
  have largest := counted.largest
  have written := counted.written
  have bounded := limited.bounded
  have inTime := (yields_iff task).mp limited.yields
  -- the bound on the records holds after every call
  have bounded' : 0 < after.written →
      (after.written : ℤ) ≤ after.largest + 1 := by
    cases recordNext_cases taken with
    | setRecLimit | unlimited | pass => exact bounded
    | addInput | addOutput | removeInput | removeOutput =>
        intro some
        have before := bounded some
        simp only [setInfo]
        omega
    | write outside =>
        simp only [outside, Bool.false_eq_true, false_and, if_false] at written
        rw [below_iff] at inTime
        dsimp only
        split
        · rename_i limit
          rw [Int32.le_iff_toInt_le, Int32.toInt_zero] at limit
          intro _
          push_cast
          omega
        · exact bounded
    | yield | restart => exact fun some => absurd some (by simp [start])
  have after_iff : after.Limited ↔
      below after.info.recCnt after.info.recLimit := by
    rw [← yields_iff]
    exact ⟨Limited.yields, fun yields => ⟨yields, bounded'⟩⟩
  rw [after_iff]
  cases recordNext_cases taken with
  | setRecLimit | addInput | removeInput | write =>
      exact iff_of_true inTime trivial
  | addOutput | removeOutput => exact Iff.rfl
  | unlimited negative =>
      refine iff_of_true inTime ?_
      rintro zero
      rw [zero] at negative
      exact absurd negative (by decide)
  | yield limit reached =>
      rw [Int32.le_iff_toInt_le, Int32.toInt_zero] at limit
      simp only [start, below_iff, keepsBelow, ne_eq, ← Int32.toInt_inj,
        Int32.zero_add, Int32.toInt_zero, Int32.toInt_one]
      omega
  | pass limit unreached =>
      obtain ⟨next, bound⟩ := toInt_recCnt_add_one inTime limit unreached
      refine iff_of_true (below_iff.mpr ?_) ?_
      · exact .inr (next ▸ bound)
      · rintro zero
        rw [zero, Int32.toInt_zero] at bound
        omega
  | restart =>
      refine iff_of_true (below_iff.mpr ?_) trivial
      simp only [start, Int32.toInt_zero]
      omega

end RecordTask

end Hrc
end Lpel
