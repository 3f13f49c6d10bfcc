import Mathlib.Algebra.BigOperators.Group.List.Basic
import Mathlib.Algebra.Ring.Int.Defs
import Mathlib.Data.List.Induction

/-!
# Timing, and the wait times of a worker

`timing.c` keeps a time in seconds and nanoseconds.  A worker that is monitored
adds up the times for which it waits, and prints their sum when it is destroyed.

A time is normalized if its nanoseconds are less than a second.  `LpelTimingAdd`
carries only what is above a second, so a sum of exactly one second is left as it
is.
-/

namespace Lpel

/-- `lpel_timing_t`. -/
structure Timing where
  tvSec : ℤ
  tvNsec : ℤ
  deriving DecidableEq

/-- `TIMING_BILLION`. -/
def timingBillion : ℤ := 1000000000

/-- `LpelTimingZero`. -/
def lpelTimingZero : Timing where
  tvSec := 0
  tvNsec := 0

/-- `LpelTimingAdd`. -/
def lpelTimingAdd (t val : Timing) : Timing :=
  let sum : Timing :=
    { tvSec := t.tvSec + val.tvSec
      tvNsec := t.tvNsec + val.tvNsec }
  if sum.tvNsec > timingBillion then
    { tvSec := sum.tvSec + 1
      tvNsec := sum.tvNsec - timingBillion }
  else
    sum

/-- `LpelTimingDiff`. -/
def lpelTimingDiff (start finish : Timing) : Timing :=
  let res : Timing :=
    if finish.tvNsec < start.tvNsec then
      { tvSec := start.tvSec + 1
        tvNsec := start.tvNsec - timingBillion }
    else
      start
  { tvSec := finish.tvSec - res.tvSec
    tvNsec := finish.tvNsec - res.tvNsec }

/-- `LpelTimingEnd`, with the current time.  It is written as
`LpelTimingDiff`. -/
def lpelTimingEnd (t now : Timing) : Timing :=
  lpelTimingDiff t now

/-- `%lu`. -/
def formatUnsigned (value : ℤ) : String :=
  toString (value % 2 ^ 64).toNat

/-- `%09lu`. -/
def formatPadded (value : ℤ) : String :=
  let digits := formatUnsigned value
  String.ofList (List.replicate (9 - digits.length) '0') ++ digits

/-- `PrintTimingNs`, or `none` where its assertion fails. -/
def printTimingNs (t : Timing) : Option String :=
  if t.tvSec = 0 then
    some (formatUnsigned t.tvNsec ++ " ")
  else if 0 ≤ t.tvNsec ∧ t.tvNsec < 1000000000 then
    some (formatUnsigned t.tvSec ++ formatPadded t.tvNsec ++ " ")
  else
    none

namespace Timing

/-- The time in nanoseconds. -/
def nanoseconds (t : Timing) : ℤ :=
  t.tvSec * timingBillion + t.tvNsec

/-- The nanoseconds are less than a second. -/
def Normalized (t : Timing) : Prop :=
  0 ≤ t.tvNsec ∧ t.tvNsec < timingBillion

instance (t : Timing) : Decidable t.Normalized :=
  inferInstanceAs (Decidable (_ ∧ _))

variable {t val start finish : Timing}

/-- A normalized time is determined by its nanoseconds. -/
theorem Normalized.ext
    (normalized : start.Normalized)
    (normalized' : finish.Normalized)
    (same : start.nanoseconds = finish.nanoseconds) :
    start = finish := by
  obtain ⟨nonneg, less⟩ := normalized
  obtain ⟨nonneg', less'⟩ := normalized'
  unfold nanoseconds timingBillion at same
  unfold timingBillion at less less'
  have seconds : start.tvSec = finish.tvSec := by omega
  have rest : start.tvNsec = finish.tvNsec := by omega
  cases start
  cases finish
  simp_all

/-- `LpelTimingAdd` adds up the nanoseconds, normalized or not. -/
theorem nanoseconds_add (t val : Timing) :
    (lpelTimingAdd t val).nanoseconds = t.nanoseconds + val.nanoseconds := by
  unfold lpelTimingAdd nanoseconds timingBillion
  dsimp only
  split
  · dsimp only
    omega
  · dsimp only
    omega

/-- The sum is normalized unless the carry is exactly one second. -/
theorem Normalized.add_iff
    (normalized : t.Normalized)
    (normalized' : val.Normalized) :
    (lpelTimingAdd t val).Normalized ↔
      t.tvNsec + val.tvNsec ≠ timingBillion := by
  obtain ⟨nonneg, less⟩ := normalized
  obtain ⟨nonneg', less'⟩ := normalized'
  unfold lpelTimingAdd Normalized
  unfold timingBillion at *
  dsimp only
  split
  · dsimp only
    omega
  · dsimp only
    omega

/-- The same in terms of the whole sum. -/
theorem Normalized.add_iff_dvd
    (normalized : t.Normalized)
    (normalized' : val.Normalized) :
    (lpelTimingAdd t val).Normalized ↔
      (val.tvNsec ≠ 0 → ¬timingBillion ∣ t.nanoseconds + val.nanoseconds) := by
  rw [normalized.add_iff normalized']
  obtain ⟨nonneg, less⟩ := normalized
  obtain ⟨nonneg', less'⟩ := normalized'
  unfold nanoseconds
  unfold timingBillion at *
  omega

/-- `LpelTimingDiff` of normalized times is normalized. -/
theorem Normalized.diff
    (normalized : start.Normalized)
    (normalized' : finish.Normalized) :
    (lpelTimingDiff start finish).Normalized := by
  obtain ⟨nonneg, less⟩ := normalized
  obtain ⟨nonneg', less'⟩ := normalized'
  unfold lpelTimingDiff Normalized
  unfold timingBillion at *
  split
  · dsimp only
    omega
  · dsimp only
    omega

theorem nanoseconds_diff (start finish : Timing) :
    (lpelTimingDiff start finish).nanoseconds =
      finish.nanoseconds - start.nanoseconds := by
  unfold lpelTimingDiff nanoseconds timingBillion
  split
  · dsimp only
    omega
  · dsimp only
    omega

/-- Adding the difference gives back the end, unless it is a whole second. -/
theorem Normalized.add_diff_iff
    (normalized : start.Normalized)
    (normalized' : finish.Normalized) :
    lpelTimingAdd start (lpelTimingDiff start finish) = finish ↔
      (finish.tvNsec = 0 → start.tvNsec = 0) := by
  have difference := normalized.diff normalized'
  have value : (lpelTimingAdd start (lpelTimingDiff start finish)).nanoseconds =
      finish.nanoseconds := by
    rw [nanoseconds_add, nanoseconds_diff]
    omega
  have carry : start.tvNsec + (lpelTimingDiff start finish).tvNsec ≠
      timingBillion ↔ (finish.tvNsec = 0 → start.tvNsec = 0) := by
    obtain ⟨nonneg, less⟩ := normalized
    obtain ⟨nonneg', less'⟩ := normalized'
    unfold lpelTimingDiff
    unfold timingBillion at *
    split
    · dsimp only
      omega
    · dsimp only
      omega
  rw [← carry, ← normalized.add_iff difference]
  constructor
  · intro same
    rw [same]
    exact normalized'
  · intro sum
    exact sum.ext normalized' value

end Timing

/-! ## The monitoring context of a worker -/

/-- `LPEL_MON_TIME`. -/
def flagTimes (flags : ℕ) : Bool := flags.testBit 0

/-- `LPEL_MON_TASK`. -/
def flagTask (flags : ℕ) : Bool := flags.testBit 1

/-- `LPEL_MON_WORKER`. -/
def flagWorker (flags : ℕ) : Bool := flags.testBit 3

/-- `LPEL_MON_STREAM`. -/
def flagStreams (flags : ℕ) : Bool := flags.testBit 4

/-- `LPEL_MON_LOAD`. -/
def flagLoad (flags : ℕ) : Bool := flags.testBit 6

/-- `PrintNormTSns`, with `monitoring_begin`. -/
def printNormTSns (begin t : Timing) : Option String :=
  let normTs := lpelTimingDiff begin t
  if 0 ≤ normTs.tvNsec ∧ normTs.tvNsec < 1000000000 then
    some (formatUnsigned normTs.tvSec ++ "." ++ formatPadded normTs.tvNsec ++
      " ")
  else
    none

/-- `mon_worker_t`. -/
structure MonWorker where
  flags : ℕ
  waitCurrent : Timing
  waitCnt : ℕ
  waitTime : Timing
  /-- What was printed. -/
  outfile : List String

/-- `MonCbWorkerCreate`, up to its entry for the start. -/
def monCbWorkerCreate (flags : ℕ) : MonWorker where
  flags := flags
  waitCurrent := lpelTimingZero
  waitCnt := 0
  waitTime := lpelTimingZero
  outfile := []

/-- `MonCbWorkerWaitStart`. -/
def monCbWorkerWaitStart (now : Timing) (mon : MonWorker) : MonWorker :=
  { mon with
    waitCurrent := now
    waitCnt := if flagLoad mon.flags then mon.waitCnt + 1 else mon.waitCnt }

/-- The entry that `MonCbWorkerWaitStop` prints. -/
def waitEntry (begin now : Timing) (mon : MonWorker) : Option String := do
  let stamp ← if flagTimes mon.flags then printNormTSns begin now else some ""
  let waited ← printTimingNs mon.waitCurrent
  return stamp ++ "W" ++ waited ++ "#"

/-- `MonCbWorkerWaitStop` takes the time of the wait. -/
def MonWorker.endWait (finish : Timing) (mon : MonWorker) : MonWorker :=
  if flagWorker mon.flags ∨ flagLoad mon.flags then
    { mon with waitCurrent := lpelTimingEnd mon.waitCurrent finish }
  else
    mon

/-- It prints an entry. -/
def MonWorker.printWait (begin now : Timing) (mon : MonWorker) :
    Option MonWorker :=
  if flagWorker mon.flags then
    (waitEntry begin now mon).map fun entry =>
      { mon with outfile := mon.outfile ++ [entry] }
  else
    some mon

/-- It adds the wait to the others. -/
def MonWorker.addWait (mon : MonWorker) : MonWorker :=
  if flagLoad mon.flags then
    { mon with waitTime := lpelTimingAdd mon.waitTime mon.waitCurrent }
  else
    mon

/-- `MonCbWorkerWaitStop`, with the times at which the wait ends and at which the
entry is printed. -/
def monCbWorkerWaitStop (begin finish now : Timing) (mon : MonWorker) :
    Option MonWorker :=
  ((mon.endWait finish).printWait begin now).map MonWorker.addWait

/-- `printStatistic`. -/
def printStatistic (mon : MonWorker) : Option String :=
  (printTimingNs mon.waitTime).map fun waited =>
    "WC" ++ toString mon.waitCnt ++ "WT" ++ waited

/-- What `MonCbWorkerDestroy` prints. -/
def monCbWorkerDestroy (begin now : Timing) (mon : MonWorker) :
    Option String := do
  let stamp ←
    if (flagWorker mon.flags ∧ flagTimes mon.flags) ∨ flagLoad mon.flags then
      printNormTSns begin now
    else
      some ""
  if flagWorker mon.flags ∨ flagLoad mon.flags then
    let statistic ← if flagLoad mon.flags then printStatistic mon else some ""
    return stamp ++ "E#" ++ statistic
  else
    return stamp

/-- The sum of waits in `wait_time`. -/
def accumulate (waits : List Timing) : Timing :=
  waits.foldl lpelTimingAdd lpelTimingZero

/-- The sum of waits in nanoseconds. -/
def totalWait (waits : List Timing) : ℤ :=
  (waits.map Timing.nanoseconds).sum

/-- How long the waits were, from the clock readings at their starts and ends. -/
def waitTimes (clock : List (Timing × Timing × Timing)) : List Timing :=
  clock.map fun wait => lpelTimingDiff wait.1 wait.2.1

/-- The waits of a worker, each from its start to its end. -/
def MonWorker.waitAll (begin : Timing) (mon : MonWorker) :
    List (Timing × Timing × Timing) → Option MonWorker
  | [] => some mon
  | (start, finish, now) :: waits =>
      (monCbWorkerWaitStop begin finish now
        (monCbWorkerWaitStart start mon)).bind fun mon =>
          mon.waitAll begin waits

section Worker

variable {begin start finish now t : Timing} {mon : MonWorker}

/-- The assertion of `PrintTimingNs` holds for a normalized time. -/
theorem Timing.Normalized.printTimingNs
    (normalized : t.Normalized) :
    ∃ text, Lpel.printTimingNs t = some text := by
  obtain ⟨nonneg, less⟩ := normalized
  unfold Lpel.printTimingNs
  split
  · exact ⟨_, rfl⟩
  · rw [if_pos ⟨nonneg, less⟩]
    exact ⟨_, rfl⟩

theorem Timing.Normalized.printNormTSns
    (normalized : begin.Normalized)
    (normalized' : t.Normalized) :
    ∃ text, Lpel.printNormTSns begin t = some text := by
  obtain ⟨nonneg, less⟩ := normalized.diff normalized'
  unfold Lpel.printNormTSns
  rw [if_pos ⟨nonneg, less⟩]
  exact ⟨_, rfl⟩

theorem waitEntry_isSome
    (mon : MonWorker)
    (normalized : begin.Normalized)
    (current : mon.waitCurrent.Normalized)
    (clock : now.Normalized) :
    ∃ entry, waitEntry begin now mon = some entry := by
  obtain ⟨stamp, stamped⟩ := normalized.printNormTSns clock
  obtain ⟨waited, printed⟩ := current.printTimingNs
  unfold waitEntry
  cases times : flagTimes mon.flags with
  | true =>
      rw [if_pos rfl, stamped, printed]
      exact ⟨_, rfl⟩
  | false =>
      rw [if_neg (by simp), printed]
      exact ⟨_, rfl⟩

theorem MonWorker.addWait_of_load
    (load : flagLoad mon.flags = true) :
    mon.addWait =
      { mon with waitTime := lpelTimingAdd mon.waitTime mon.waitCurrent } :=
  if_pos load

/-- `MonCbWorkerWaitStop` adds the wait to `wait_time`. -/
theorem waitStop_eq
    (load : flagLoad mon.flags = true)
    (normalized : begin.Normalized)
    (starts : start.Normalized)
    (finishes : finish.Normalized)
    (clock : now.Normalized) :
    ∃ after, monCbWorkerWaitStop begin finish now
        (monCbWorkerWaitStart start mon) = some after ∧
      after.flags = mon.flags ∧
      after.waitTime =
        lpelTimingAdd mon.waitTime (lpelTimingDiff start finish) := by
  let ended : MonWorker :=
    { monCbWorkerWaitStart start mon with
      waitCurrent := lpelTimingDiff start finish }
  have ends : (monCbWorkerWaitStart start mon).endWait finish = ended :=
    if_pos (Or.inr load)
  obtain ⟨entry, printed⟩ := waitEntry_isSome ended normalized
    (starts.diff finishes) clock
  unfold monCbWorkerWaitStop
  rw [ends, MonWorker.printWait, printed]
  split
  · refine ⟨_, rfl, ?_⟩
    rw [MonWorker.addWait_of_load (by exact load)]
    exact ⟨rfl, rfl⟩
  · refine ⟨_, rfl, ?_⟩
    rw [MonWorker.addWait_of_load (by exact load)]
    exact ⟨rfl, rfl⟩

/-- After its waits the worker has added all of them to `wait_time`. -/
theorem waitAll_eq
    (waits : List (Timing × Timing × Timing))
    (load : flagLoad mon.flags = true)
    (normalized : begin.Normalized)
    (clock : ∀ wait ∈ waits, wait.1.Normalized ∧ wait.2.1.Normalized ∧
      wait.2.2.Normalized) :
    ∃ after, mon.waitAll begin waits = some after ∧
      after.flags = mon.flags ∧
      after.waitTime = (waitTimes waits).foldl lpelTimingAdd mon.waitTime := by
  induction waits generalizing mon with
  | nil => exact ⟨mon, rfl, rfl, rfl⟩
  | cons wait waits inductionHypothesis =>
      obtain ⟨starts, finishes, printed⟩ := clock wait (by simp)
      obtain ⟨after, stopped, flags, waited⟩ := waitStop_eq load normalized
        starts finishes printed
      obtain ⟨last, rest, same, total⟩ := inductionHypothesis (flags ▸ load)
        fun wait member => clock wait (List.mem_cons_of_mem _ member)
      refine ⟨last, ?_, same.trans flags, ?_⟩
      · rw [MonWorker.waitAll, stopped]
        exact rest
      · rw [total, waited]
        rfl

/-- What the worker prints at its end can be printed if the statistic can. -/
theorem destroy_isSome
    (load : flagLoad mon.flags = true)
    (normalized : begin.Normalized)
    (clock : now.Normalized)
    (printed : (printStatistic mon).isSome = true) :
    (monCbWorkerDestroy begin now mon).isSome = true := by
  obtain ⟨stamp, stamped⟩ := normalized.printNormTSns clock
  obtain ⟨statistic, printed⟩ := Option.isSome_iff_exists.mp printed
  unfold monCbWorkerDestroy
  rw [if_pos (.inr load), stamped]
  simp only [load, or_true, if_true, printed]
  rfl

end Worker

/-! ## Sums of waits -/

/-- A sum is normalized and right, and can be printed. -/
structure Accumulated (waits : List Timing) : Prop where
  normalized : (accumulate waits).Normalized
  nanoseconds_eq : (accumulate waits).nanoseconds = totalWait waits
  printed : ∀ mon : MonWorker, mon.waitTime = accumulate waits →
    (printStatistic mon).isSome = true

theorem accumulate_append (waits : List Timing) (wait : Timing) :
    accumulate (waits ++ [wait]) = lpelTimingAdd (accumulate waits) wait := by
  rw [accumulate, List.foldl_append]
  rfl

/-- The sum has the right value, normalized or not. -/
theorem nanoseconds_accumulate (waits : List Timing) :
    (accumulate waits).nanoseconds = totalWait waits := by
  induction waits using List.reverseRecOn with
  | nil => rfl
  | append_singleton waits wait inductionHypothesis =>
      rw [accumulate_append, Timing.nanoseconds_add, inductionHypothesis]
      simp [totalWait]

/-- A normalized sum can be printed. -/
theorem accumulated_iff {waits : List Timing} :
    Accumulated waits ↔ (accumulate waits).Normalized := by
  refine ⟨Accumulated.normalized, ?_⟩
  intro normalized
  refine ⟨normalized, nanoseconds_accumulate waits, ?_⟩
  intro mon waited
  obtain ⟨text, printed⟩ := normalized.printTimingNs
  rw [printStatistic, waited, printed]
  rfl

/-- The sums along a sequence of waits are normalized exactly if none of them is
made a whole number of seconds by a wait that is not. -/
theorem accumulated_prefixes_iff
    {waits : List Timing}
    (normalized : ∀ wait ∈ waits, wait.Normalized) :
    (∀ sums, sums <+: waits → Accumulated sums) ↔
      ∀ sums wait, sums ++ [wait] <+: waits → wait.tvNsec ≠ 0 →
        ¬timingBillion ∣ totalWait (sums ++ [wait]) := by
  induction waits using List.reverseRecOn with
  | nil =>
      refine iff_of_true ?_ ?_
      · intro sums within
        rw [List.prefix_nil.mp within, accumulated_iff]
        decide
      · intro sums wait within
        exact absurd (List.prefix_nil.mp within) (by simp)
  | append_singleton waits last inductionHypothesis =>
      have earlier := inductionHypothesis fun wait member =>
        normalized wait (List.mem_append_left _ member)
      have added := normalized last (by simp)
      -- the last wait is the only one that is not covered by the hypothesis
      have step (held : Accumulated waits) :
          Accumulated (waits ++ [last]) ↔ (last.tvNsec ≠ 0 →
            ¬timingBillion ∣ totalWait (waits ++ [last])) := by
        rw [accumulated_iff, accumulate_append,
          held.normalized.add_iff_dvd added, held.nanoseconds_eq]
        simp [totalWait]
      constructor
      · intro all sums wait within
        have held := all waits (List.prefix_append waits [last])
        rcases List.prefix_concat_iff.mp within with whole | inside
        · obtain ⟨rfl, same⟩ := List.append_inj' whole rfl
          obtain rfl : wait = last := by simpa using same
          exact (step held).mp (all _ List.prefix_rfl)
        · refine earlier.mp ?_ sums wait inside
          intro sums within
          exact all sums (within.trans (List.prefix_append waits [last]))
      · intro all sums within
        have before := earlier.mpr fun sums wait within =>
          all sums wait (within.trans (List.prefix_append waits [last]))
        rcases List.prefix_concat_iff.mp within with rfl | inside
        · exact (step (before waits List.prefix_rfl)).mpr
            (all waits last List.prefix_rfl)
        · exact before sums inside

/-- These sums are what a worker has in `wait_time` after its waits, and prints at
its end. -/
theorem exists_waitAll
    {flags : ℕ}
    {begin now : Timing}
    {clock : List (Timing × Timing × Timing)}
    (load : flagLoad flags = true)
    (normalized : begin.Normalized)
    (ends : now.Normalized)
    (readings : ∀ wait ∈ clock, wait.1.Normalized ∧ wait.2.1.Normalized ∧
      wait.2.2.Normalized) :
    ∃ mon, (monCbWorkerCreate flags).waitAll begin clock = some mon ∧
      mon.waitTime = accumulate (waitTimes clock) ∧
      (Accumulated (waitTimes clock) →
        (monCbWorkerDestroy begin now mon).isSome = true) := by
  obtain ⟨mon, waited, same, total⟩ := waitAll_eq clock
    (show flagLoad (monCbWorkerCreate flags).flags = true from load) normalized
    readings
  refine ⟨mon, waited, total, ?_⟩
  intro accumulated
  have load : flagLoad mon.flags = true := by
    rw [same]
    exact load
  exact destroy_isSome load normalized ends (accumulated.printed mon total)

/-- `LpelTimingDiff` is exact.  `LpelTimingAdd` undoes it unless the end is a
whole second and the start is not.  Sums of waits stay normalized, and can be
printed, exactly if no wait that is not a whole number of seconds makes the sum
one; and these are the sums that a worker keeps and prints. -/
theorem timingArithmetic
    {start finish : Timing}
    {waits : List Timing}
    (starts : start.Normalized)
    (finishes : finish.Normalized)
    (normalized : ∀ wait ∈ waits, wait.Normalized) :
    (lpelTimingDiff start finish).Normalized ∧
    (lpelTimingDiff start finish).nanoseconds =
      finish.nanoseconds - start.nanoseconds ∧
    (lpelTimingAdd start (lpelTimingDiff start finish) = finish ↔
      (finish.tvNsec = 0 → start.tvNsec = 0)) ∧
    ((∀ sums, sums <+: waits → Accumulated sums) ↔
      ∀ sums wait, sums ++ [wait] <+: waits → wait.tvNsec ≠ 0 →
        ¬timingBillion ∣ totalWait (sums ++ [wait])) ∧
    ∀ (flags : ℕ) (begin now : Timing) (clock : List (Timing × Timing × Timing)),
      flagLoad flags = true → begin.Normalized → now.Normalized →
      (∀ wait ∈ clock, wait.1.Normalized ∧ wait.2.1.Normalized ∧
        wait.2.2.Normalized) →
      waitTimes clock = waits →
      ∃ mon, (monCbWorkerCreate flags).waitAll begin clock = some mon ∧
        mon.waitTime = accumulate waits ∧
        (Accumulated waits → (monCbWorkerDestroy begin now mon).isSome = true) := by
  refine ⟨?_, ?_, ?_, ?_, ?_⟩
  · exact starts.diff finishes
  · exact Timing.nanoseconds_diff start finish
  · exact starts.add_diff_iff finishes
  · exact accumulated_prefixes_iff normalized
  · rintro flags begin now clock load begins ends readings rfl
    exact exists_waitAll load begins ends readings

/-- From half past the second 0 to half past the second 1, and a wait of this
time. -/
theorem timingArithmetic_half :
    lpelTimingAdd { tvSec := 0, tvNsec := 500000000 }
        (lpelTimingDiff { tvSec := 0, tvNsec := 500000000 }
          { tvSec := 1, tvNsec := 500000000 }) =
        { tvSec := 1, tvNsec := 500000000 } ∧
      ∀ sums, sums <+: [{ tvSec := 1, tvNsec := 500000000 }] →
        Accumulated sums := by
  obtain ⟨-, -, sum, waits, -⟩ := timingArithmetic
    (by decide : Timing.Normalized { tvSec := 0, tvNsec := 500000000 })
    (by decide : Timing.Normalized { tvSec := 1, tvNsec := 500000000 })
    (by decide : ∀ wait ∈ [({ tvSec := 1, tvNsec := 500000000 } : Timing)],
      wait.Normalized)
  refine ⟨?_, ?_⟩
  · exact sum.mpr (by decide)
  · refine waits.mpr ?_
    intro sums wait within _
    obtain ⟨rfl, rfl⟩ : sums = [] ∧
        wait = { tvSec := 1, tvNsec := 500000000 } := by
      cases sums with
      | nil => simpa using within
      | cons first rest =>
          have length := within.length_le
          simp at length
    decide

/-- Two waits of one and a half seconds and of half a second. -/
def twoWaits : List Timing :=
  [{ tvSec := 1, tvNsec := 500000000 }, { tvSec := 0, tvNsec := 500000000 }]

/-- The sum is left with a whole second in its nanoseconds, which fails the
assertion when the worker prints it; and half a second before the second 1 plus
the difference is not the second 1. -/
theorem timingArithmetic_wholeSecond :
    (∀ wait ∈ twoWaits, wait.Normalized) ∧
      ¬(accumulate twoWaits).Normalized ∧
      printStatistic
        { monCbWorkerCreate (1 <<< 6) with
          waitCnt := 2
          waitTime := accumulate twoWaits } = none ∧
      lpelTimingAdd { tvSec := 0, tvNsec := 500000000 }
        (lpelTimingDiff { tvSec := 0, tvNsec := 500000000 }
          { tvSec := 1, tvNsec := 0 }) ≠ { tvSec := 1, tvNsec := 0 } := by
  decide

end Lpel
