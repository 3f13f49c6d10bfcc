import Mathlib.Algebra.Order.Field.Rat
import Mathlib.Data.Int.ConditionallyCompleteOrder
import Mathlib.Data.Rat.Defs
import Mathlib.Order.Interval.Set.Defs
import Mathlib.Order.Monotone.Basic
import Mathlib.Order.WithBot
import Mathlib.Tactic.GCongr
import Mathlib.Tactic.NormNum
import Mathlib.Tactic.Positivity
import Lpel.Hrc.Task

/-!
# The priority functions

`taskpriority.c` computes the priority of a task from the number of records in
its input and in its output streams.  The number `-1` stands for an entry or for
an exit task, and most of the functions treat these apart.

All of them but the random one are back pressure: the priority rises with the
records that wait for the task and falls with the records that wait behind it.
This includes the places where `countRec` changes from `-1` to a number and the
limit on the negative demand of an entry task.

A priority is an exact rational number, `DBL_MAX` or `LPEL_DBL_MIN`.
-/

namespace Lpel
namespace Hrc
namespace TaskPriority

/-- The priorities; the greatest one is `DBL_MAX`, the least one
`LPEL_DBL_MIN`. -/
abbrev Prior : Type := WithBot (WithTop ℚ)

/-- A finite priority. -/
def Prior.of (value : ℚ) : Prior := ((value : WithTop ℚ) : WithBot (WithTop ℚ))

@[simp] theorem Prior.of_le_of {first second : ℚ} :
    Prior.of first ≤ Prior.of second ↔ first ≤ second := by
  rw [Prior.of, Prior.of, WithBot.coe_le_coe, WithTop.coe_le_coe]

/-- The common form of the functions 1 to 12. -/
def priorCases
    (entry : ℤ → ℚ)
    (exit : ℤ → Prior)
    (middle : ℤ → ℤ → ℚ)
    (inRec outRec : ℤ) : Prior :=
  if inRec = -1 then .of (entry outRec)
  else if outRec = -1 then exit inRec
  else .of (middle inRec outRec)

/-- `if (out == -1) out = 0`. -/
def counted (outRec : ℤ) : ℤ :=
  if outRec = -1 then 0 else outRec

/-- `(in + 1.0)/(out + 1.0)`. -/
def ratio (inRec outRec : ℤ) : ℚ :=
  (inRec + 1) / (outRec + 1)

/-- `(in + 1.0) * (in + 1.0)/(out + 1.0)`. -/
def squareRatio (inRec outRec : ℤ) : ℚ :=
  (inRec + 1) * (inRec + 1) / (outRec + 1)

/-- `(in + 1.0)/(out + 1.0)/(out + 1.0)`. -/
def ratioSquare (inRec outRec : ℤ) : ℚ :=
  (inRec + 1) / (outRec + 1) / (outRec + 1)

/-- `1.0/(1.0 + out)`, where an exit task counts as one without records. -/
def inverse (outRec : ℤ) : ℚ :=
  1 / (1 + counted outRec)

/-- `1.0/(1.0 + out)/(out + 1.0)`, in the same way. -/
def inverseSquare (outRec : ℤ) : ℚ :=
  1 / (1 + counted outRec) / (counted outRec + 1)

def priorfunc1 : ℤ → ℤ → Prior :=
  priorCases (fun _ => 0) (fun _ => ⊤) ratio

def priorfunc2 : ℤ → ℤ → Prior :=
  priorCases (fun _ => 0) (fun inRec => .of (inRec + 1)) ratio

def priorfunc3 : ℤ → ℤ → Prior :=
  priorCases inverse (fun _ => ⊤) ratio

def priorfunc4 : ℤ → ℤ → Prior :=
  priorCases inverse (fun inRec => .of (inRec + 1)) ratio

def priorfunc5 : ℤ → ℤ → Prior :=
  priorCases (fun _ => 0) (fun _ => ⊤) squareRatio

def priorfunc6 : ℤ → ℤ → Prior :=
  priorCases (fun _ => 0) (fun inRec => .of ((inRec + 1) * (inRec + 1)))
    squareRatio

def priorfunc7 : ℤ → ℤ → Prior :=
  priorCases inverse (fun _ => ⊤) squareRatio

def priorfunc8 : ℤ → ℤ → Prior :=
  priorCases inverse (fun inRec => .of ((inRec + 1) * (inRec + 1)))
    squareRatio

def priorfunc9 : ℤ → ℤ → Prior :=
  priorCases (fun _ => 0) (fun _ => ⊤) ratioSquare

def priorfunc10 : ℤ → ℤ → Prior :=
  priorCases (fun _ => 0) (fun inRec => .of (inRec + 1)) ratioSquare

def priorfunc11 : ℤ → ℤ → Prior :=
  priorCases inverseSquare (fun _ => ⊤) ratioSquare

def priorfunc12 : ℤ → ℤ → Prior :=
  priorCases inverseSquare (fun inRec => .of (inRec + 1)) ratioSquare

/-- `priorfunc13`, given the answer of `rand()`. -/
def priorfunc13 (rand : ℕ) : Prior := .of rand

/-- `priorfunc14`. -/
def priorfunc14 (inRec outRec : ℤ) : Prior :=
  .of ((counted inRec - counted outRec : ℤ) : ℚ)

/-- The function that `LpelTaskSetPriorityFunc` selects. -/
def lpelTaskSetPriorityFunc (func : ℤ) (rand : ℕ) : ℤ → ℤ → Prior :=
  match func with
  | 1 => priorfunc1
  | 2 => priorfunc2
  | 3 => priorfunc3
  | 4 => priorfunc4
  | 5 => priorfunc5
  | 6 => priorfunc6
  | 7 => priorfunc7
  | 8 => priorfunc8
  | 9 => priorfunc9
  | 10 => priorfunc10
  | 11 => priorfunc11
  | 12 => priorfunc12
  | 13 => fun _ _ => priorfunc13 rand
  | 14 => priorfunc14
  | _ => priorfunc14

/-! ## Back pressure -/

/-- The counts that `countRec` returns. -/
def counts : Set ℤ := Set.Ici (-1)

/-- The priority rises with the input and falls with the output. -/
structure BackPressure (prior : ℤ → ℤ → Prior) : Prop where
  rises : ∀ outRec ∈ counts, MonotoneOn (fun inRec => prior inRec outRec) counts
  falls : ∀ inRec ∈ counts, AntitoneOn (prior inRec) counts

/-- The same for a formula of a middle task, on numbers of records. -/
structure MiddlePressure (middle : ℤ → ℤ → ℚ) : Prop where
  rises : ∀ {outRec first second : ℤ}, 0 ≤ outRec → 0 ≤ first →
    first ≤ second → middle first outRec ≤ middle second outRec
  falls : ∀ {inRec first second : ℤ}, 0 ≤ inRec → 0 ≤ first →
    first ≤ second → middle inRec second ≤ middle inRec first
  nonneg : ∀ {inRec outRec : ℤ}, 0 ≤ inRec → 0 ≤ outRec →
    0 ≤ middle inRec outRec

theorem ratio_pressure : MiddlePressure ratio where
  rises := by
    intro outRec first second out first_nonneg first_le
    have outRat : (0 : ℚ) ≤ outRec := by exact_mod_cast out
    have firstRat : (first : ℚ) ≤ second := by exact_mod_cast first_le
    unfold ratio
    gcongr
  falls := by
    intro inRec first second input first_nonneg first_le
    have inRat : (0 : ℚ) ≤ inRec := by exact_mod_cast input
    have firstRat : (0 : ℚ) ≤ first := by exact_mod_cast first_nonneg
    have secondRat : (first : ℚ) ≤ second := by exact_mod_cast first_le
    unfold ratio
    gcongr
  nonneg := by
    intro inRec outRec input out
    have inRat : (0 : ℚ) ≤ inRec := by exact_mod_cast input
    have outRat : (0 : ℚ) ≤ outRec := by exact_mod_cast out
    unfold ratio
    positivity

theorem squareRatio_pressure : MiddlePressure squareRatio where
  rises := by
    intro outRec first second out first_nonneg first_le
    have outRat : (0 : ℚ) ≤ outRec := by exact_mod_cast out
    have firstRat : (0 : ℚ) ≤ first := by exact_mod_cast first_nonneg
    have secondRat : (first : ℚ) ≤ second := by exact_mod_cast first_le
    have secondNonneg : (0 : ℚ) ≤ second := firstRat.trans secondRat
    unfold squareRatio
    gcongr
  falls := by
    intro inRec first second input first_nonneg first_le
    have inRat : (0 : ℚ) ≤ inRec := by exact_mod_cast input
    have firstRat : (0 : ℚ) ≤ first := by exact_mod_cast first_nonneg
    have secondRat : (first : ℚ) ≤ second := by exact_mod_cast first_le
    unfold squareRatio
    gcongr
  nonneg := by
    intro inRec outRec input out
    have inRat : (0 : ℚ) ≤ inRec := by exact_mod_cast input
    have outRat : (0 : ℚ) ≤ outRec := by exact_mod_cast out
    unfold squareRatio
    positivity

theorem ratioSquare_pressure : MiddlePressure ratioSquare where
  rises := by
    intro outRec first second out first_nonneg first_le
    have outRat : (0 : ℚ) ≤ outRec := by exact_mod_cast out
    have firstRat : (first : ℚ) ≤ second := by exact_mod_cast first_le
    unfold ratioSquare
    gcongr
  falls := by
    intro inRec first second input first_nonneg first_le
    have inRat : (0 : ℚ) ≤ inRec := by exact_mod_cast input
    have firstRat : (0 : ℚ) ≤ first := by exact_mod_cast first_nonneg
    have secondRat : (first : ℚ) ≤ second := by exact_mod_cast first_le
    unfold ratioSquare
    gcongr
  nonneg := by
    intro inRec outRec input out
    have inRat : (0 : ℚ) ≤ inRec := by exact_mod_cast input
    have outRat : (0 : ℚ) ≤ outRec := by exact_mod_cast out
    unfold ratioSquare
    positivity

theorem counted_nonneg
    {outRec : ℤ}
    (out : outRec ∈ counts) :
    0 ≤ counted outRec := by
  have bound : -1 ≤ outRec := out
  unfold counted
  split <;> omega

theorem counted_monotone : MonotoneOn counted counts := by
  intro first first_mem second _ first_le
  have bound : -1 ≤ first := first_mem
  unfold counted
  split <;> split <;> omega

section Cases

variable {entry : ℤ → ℚ} {exit : ℤ → Prior} {middle : ℤ → ℤ → ℚ}
variable {inRec outRec : ℤ}

/-- An entry task is not before a middle task without input. -/
theorem MiddlePressure.entry_le
    (pressure : MiddlePressure middle)
    (entry_eq : (∀ outRec, entry outRec = 0) ∨
      ∀ outRec, entry outRec = middle 0 (counted outRec))
    (out : outRec ∈ counts) :
    entry outRec ≤ middle 0 (counted outRec) := by
  rcases entry_eq with zero | same
  · rw [zero]
    exact pressure.nonneg le_rfl (counted_nonneg out)
  · rw [same]

/-- An exit task is not behind a middle task. -/
theorem MiddlePressure.le_exit
    (pressure : MiddlePressure middle)
    (exit_eq : (∀ inRec, exit inRec = ⊤) ∨
      ∀ inRec, exit inRec = .of (middle inRec 0))
    (input : 0 ≤ inRec)
    (out : 0 ≤ outRec) :
    .of (middle inRec outRec) ≤ exit inRec := by
  rcases exit_eq with top | same
  · rw [top]
    exact le_top
  · rw [same, Prior.of_le_of]
    exact pressure.falls input le_rfl out

theorem MiddlePressure.cases_rise
    (pressure : MiddlePressure middle)
    (entry_eq : (∀ outRec, entry outRec = 0) ∨
      ∀ outRec, entry outRec = middle 0 (counted outRec))
    (exit_eq : (∀ inRec, exit inRec = ⊤) ∨
      ∀ inRec, exit inRec = .of (middle inRec 0))
    (out : outRec ∈ counts) :
    MonotoneOn (fun inRec => priorCases entry exit middle inRec outRec)
      counts := by
  intro first first_mem second second_mem first_le
  have out' : -1 ≤ outRec := out
  have first' : -1 ≤ first := first_mem
  have start := pressure.entry_le entry_eq out
  simp only [priorCases]
  by_cases firstEntry : first = -1
  · rw [if_pos firstEntry]
    by_cases secondEntry : second = -1
    · rw [if_pos secondEntry]
    have second_nonneg : 0 ≤ second := by omega
    rw [if_neg secondEntry]
    by_cases outExit : outRec = -1
    · rw [if_pos outExit]
      rw [counted, if_pos outExit] at start
      calc Prior.of (entry outRec)
          ≤ .of (middle 0 0) := Prior.of_le_of.mpr start
        _ ≤ .of (middle second 0) := Prior.of_le_of.mpr
          (pressure.rises le_rfl le_rfl second_nonneg)
        _ ≤ exit second := pressure.le_exit exit_eq second_nonneg le_rfl
    · rw [if_neg outExit, Prior.of_le_of]
      rw [counted, if_neg outExit] at start
      exact start.trans (pressure.rises (by omega) le_rfl second_nonneg)
  · rw [if_neg firstEntry, if_neg (by omega : second ≠ -1)]
    by_cases outExit : outRec = -1
    · rw [if_pos outExit, if_pos outExit]
      rcases exit_eq with top | same
      · rw [top, top]
      · rw [same, same, Prior.of_le_of]
        exact pressure.rises le_rfl (by omega) first_le
    · rw [if_neg outExit, if_neg outExit, Prior.of_le_of]
      exact pressure.rises (by omega) (by omega) first_le

theorem MiddlePressure.cases_fall
    (pressure : MiddlePressure middle)
    (entry_eq : (∀ outRec, entry outRec = 0) ∨
      ∀ outRec, entry outRec = middle 0 (counted outRec))
    (exit_eq : (∀ inRec, exit inRec = ⊤) ∨
      ∀ inRec, exit inRec = .of (middle inRec 0))
    (input : inRec ∈ counts) :
    AntitoneOn (priorCases entry exit middle inRec) counts := by
  intro first first_mem second second_mem first_le
  have input' : -1 ≤ inRec := input
  have first' : -1 ≤ first := first_mem
  simp only [priorCases]
  by_cases inEntry : inRec = -1
  · rw [if_pos inEntry, if_pos inEntry, Prior.of_le_of]
    rcases entry_eq with zero | same
    · rw [zero, zero]
    · rw [same, same]
      exact pressure.falls le_rfl (counted_nonneg first_mem)
        (counted_monotone first_mem second_mem first_le)
  · rw [if_neg inEntry, if_neg inEntry]
    by_cases firstExit : first = -1
    · rw [if_pos firstExit]
      by_cases secondExit : second = -1
      · rw [if_pos secondExit]
      · rw [if_neg secondExit]
        exact pressure.le_exit exit_eq (by omega) (by omega)
    · rw [if_neg firstExit, if_neg (by omega : second ≠ -1), Prior.of_le_of]
      exact pressure.falls (by omega) (by omega) first_le

/-- An entry task has priority 0 or that of a middle task without input, and an
exit task has `DBL_MAX` or the priority of a middle task without output. -/
theorem priorCases_pressure
    (pressure : MiddlePressure middle)
    (entry_eq : (∀ outRec, entry outRec = 0) ∨
      ∀ outRec, entry outRec = middle 0 (counted outRec))
    (exit_eq : (∀ inRec, exit inRec = ⊤) ∨
      ∀ inRec, exit inRec = .of (middle inRec 0)) :
    BackPressure (priorCases entry exit middle) where
  rises := fun _ out => pressure.cases_rise entry_eq exit_eq out
  falls := fun _ input => pressure.cases_fall entry_eq exit_eq input

end Cases

/-- An entry task of the functions 3, 4, 7 and 8. -/
theorem inverse_eq_ratio (outRec : ℤ) :
    inverse outRec = ratio 0 (counted outRec) := by
  simp [inverse, ratio, add_comm]

theorem inverse_eq_squareRatio (outRec : ℤ) :
    inverse outRec = squareRatio 0 (counted outRec) := by
  simp [inverse, squareRatio, add_comm]

/-- An entry task of the functions 11 and 12. -/
theorem inverseSquare_eq_ratioSquare (outRec : ℤ) :
    inverseSquare outRec = ratioSquare 0 (counted outRec) := by
  simp [inverseSquare, ratioSquare, add_comm]

theorem priorfunc14_pressure : BackPressure priorfunc14 := by
  refine ⟨?_, ?_⟩
  · intro outRec _ first first_mem second second_mem first_le
    have rises := counted_monotone first_mem second_mem first_le
    simp only [priorfunc14, Prior.of_le_of, Int.cast_le]
    omega
  · intro inRec _ first first_mem second second_mem first_le
    have rises := counted_monotone first_mem second_mem first_le
    simp only [priorfunc14, Prior.of_le_of, Int.cast_le]
    omega

/-- Every function but the random one is back pressure. -/
theorem priorityFunc_pressure
    {func : ℤ}
    (notRandom : func ≠ 13)
    (rand : ℕ) :
    BackPressure (lpelTaskSetPriorityFunc func rand) := by
  unfold lpelTaskSetPriorityFunc
  split
  case h_1 =>
    exact priorCases_pressure ratio_pressure (.inl fun _ => rfl)
      (.inl fun _ => rfl)
  case h_2 =>
    exact priorCases_pressure ratio_pressure (.inl fun _ => rfl)
      (.inr fun _ => by simp [ratio])
  case h_3 =>
    exact priorCases_pressure ratio_pressure (.inr inverse_eq_ratio)
      (.inl fun _ => rfl)
  case h_4 =>
    exact priorCases_pressure ratio_pressure (.inr inverse_eq_ratio)
      (.inr fun _ => by simp [ratio])
  case h_5 =>
    exact priorCases_pressure squareRatio_pressure (.inl fun _ => rfl)
      (.inl fun _ => rfl)
  case h_6 =>
    exact priorCases_pressure squareRatio_pressure (.inl fun _ => rfl)
      (.inr fun _ => by simp [squareRatio])
  case h_7 =>
    exact priorCases_pressure squareRatio_pressure
      (.inr inverse_eq_squareRatio) (.inl fun _ => rfl)
  case h_8 =>
    exact priorCases_pressure squareRatio_pressure
      (.inr inverse_eq_squareRatio) (.inr fun _ => by simp [squareRatio])
  case h_9 =>
    exact priorCases_pressure ratioSquare_pressure (.inl fun _ => rfl)
      (.inl fun _ => rfl)
  case h_10 =>
    exact priorCases_pressure ratioSquare_pressure (.inl fun _ => rfl)
      (.inr fun _ => by simp [ratioSquare])
  case h_11 =>
    exact priorCases_pressure ratioSquare_pressure
      (.inr inverseSquare_eq_ratioSquare) (.inl fun _ => rfl)
  case h_12 =>
    exact priorCases_pressure ratioSquare_pressure
      (.inr inverseSquare_eq_ratioSquare) (.inr fun _ => by simp [ratioSquare])
  case h_13 => exact absurd rfl notRandom
  case h_14 => exact priorfunc14_pressure
  case h_15 => exact priorfunc14_pressure

/-! ## The counts -/

/-- The records that an element of a list adds to the count. -/
def recordsOf (inout : InOut) : Option StreamView → ℤ
  | none => 0
  | some stream =>
      if inout.notCounted stream.type then 0 else stream.fillLevel

/-- The element is an entry stream on the input or an exit stream on the output
side. -/
def isOpenEnd (inout : InOut) : Option StreamView → Bool
  | none => false
  | some stream => inout.notCounted stream.type

/-- The records of a list, added up without wrapping around. -/
def recordSum (inout : InOut) (list : List (Option StreamView)) : ℤ :=
  (list.map (recordsOf inout)).sum

/-- The loop of `countRec` adds up the records and looks for an open end. -/
theorem foldl_countRound
    (inout : InOut)
    (list : List (Option StreamView))
    (total : ℤ)
    (flag : Bool) :
    list.foldl (countRound inout) (wrapInt total, flag) =
      (wrapInt (total + recordSum inout list),
        flag || list.any (isOpenEnd inout)) := by
  induction list generalizing total flag with
  | nil => simp [recordSum]
  | cons elem list inductionHypothesis =>
      have sum_cons : recordSum inout (elem :: list) =
          recordsOf inout elem + recordSum inout list := by
        simp [recordSum]
      rw [List.foldl_cons, List.any_cons, sum_cons, ← add_assoc]
      cases elem with
      | none =>
          rw [countRound, inductionHypothesis]
          simp [recordsOf, isOpenEnd]
      | some stream =>
          cases end_ : inout.notCounted stream.type with
          | true =>
              rw [countRound, if_pos end_, inductionHypothesis]
              simp [recordsOf, isOpenEnd, end_]
          | false =>
              rw [countRound, if_neg (by simp [end_]),
                wrapInt_wrapInt_add, inductionHypothesis]
              simp [recordsOf, isOpenEnd, end_]

/-- `countRec` in terms of the sum of the records. -/
theorem countRec_eq
    (list : List (Option StreamView))
    (inout : InOut) :
    countRec list inout =
      if list = [] ∨ (list.any (isOpenEnd inout) = true ∧
          wrapInt (recordSum inout list) = 0) then -1
      else wrapInt (recordSum inout list) := by
  have sum := foldl_countRound inout list 0 false
  rw [show wrapInt 0 = 0 from rfl, zero_add, Bool.false_or] at sum
  unfold countRec
  rw [sum]
  cases list with
  | nil => rfl
  | cons elem list => simp

/-- A sum in the range of `int` is the number of records. -/
theorem wrapInt_recordSum
    {list : List (Option StreamView)}
    {inout : InOut}
    (nonneg : 0 ≤ recordSum inout list)
    (fits : recordSum inout list < 2 ^ 31) :
    wrapInt (recordSum inout list) = recordSum inout list :=
  wrapInt_of_range (by omega) fits

variable {σ : Type}

/-- The descriptors of a task, each with its stream or with `NULL`. -/
structure TaskStreams (σ : Type) where
  inStreams : List (Option σ)
  outStreams : List (Option σ)

/-- What is read of the streams of a list. -/
def readStreams
    (type : σ → StreamType)
    (fillLevel : σ → ℤ)
    (list : List (Option σ)) : List (Option StreamView) :=
  list.map (Option.map fun s => { type := type s, fillLevel := fillLevel s })

/-- `LpelTaskCalPriority` under a priority function and a limit, for the fill
levels that the streams have. -/
def taskPriority
    (func negDemandLim : ℤ)
    (task : TaskStreams σ)
    (type : σ → StreamType)
    (rand : ℕ)
    (fillLevel : σ → ℤ) : Prior :=
  lpelTaskCalPriority
    { negDemandLim := negDemandLim
      priorCal := lpelTaskSetPriorityFunc func }
    { inStreams := readStreams type fillLevel task.inStreams
      outStreams := readStreams type fillLevel task.outStreams
      rand := rand }

/-- Put `k` more items into a stream. -/
def addItems [DecidableEq σ] (fillLevel : σ → ℤ) (s : σ) (k : ℤ) : σ → ℤ :=
  Function.update fillLevel s (fillLevel s + k)

section Counts

variable {fillLevel more : σ → ℤ}
variable (type : σ → StreamType) (list : List (Option σ)) (inout : InOut)

/-- The open ends of a list do not depend on the fill levels. -/
theorem any_isOpenEnd_readStreams (fillLevel more : σ → ℤ) :
    (readStreams type fillLevel list).any (isOpenEnd inout) =
      (readStreams type more list).any (isOpenEnd inout) := by
  simp only [readStreams, List.any_map]
  congr 1
  funext elem
  cases elem <;> rfl

/-- No element of a list takes records away from the count. -/
theorem recordSum_nonneg (nonneg : ∀ s, 0 ≤ fillLevel s) :
    0 ≤ recordSum inout (readStreams type fillLevel list) := by
  apply List.sum_nonneg
  simp only [readStreams, List.map_map, List.mem_map]
  rintro records ⟨elem, -, rfl⟩
  cases elem with
  | none => rfl
  | some s =>
      simp only [Function.comp_apply, Option.map_some, recordsOf]
      split
      · rfl
      · exact nonneg s

/-- More items make a greater count. -/
theorem recordSum_mono (le : ∀ s, fillLevel s ≤ more s) :
    recordSum inout (readStreams type fillLevel list) ≤
      recordSum inout (readStreams type more list) := by
  simp only [recordSum, readStreams, List.map_map]
  apply List.sum_le_sum
  intro elem _
  cases elem with
  | none => rfl
  | some s =>
      simp only [Function.comp_apply, Option.map_some, recordsOf]
      split
      · rfl
      · exact le s

/-- The sentinel is the least count. -/
theorem countRec_mem_counts
    (nonneg : ∀ s, 0 ≤ fillLevel s)
    (fits : recordSum inout (readStreams type fillLevel list) < 2 ^ 31) :
    countRec (readStreams type fillLevel list) inout ∈ counts := by
  have sum_nonneg := recordSum_nonneg type list inout nonneg
  change -1 ≤ countRec _ _
  rw [countRec_eq, wrapInt_recordSum sum_nonneg fits]
  split <;> omega

/-- `countRec` rises with the fill levels, also where it leaves the sentinel. -/
theorem countRec_mono
    (nonneg : ∀ s, 0 ≤ fillLevel s)
    (le : ∀ s, fillLevel s ≤ more s)
    (fits : recordSum inout (readStreams type more list) < 2 ^ 31) :
    countRec (readStreams type fillLevel list) inout ≤
      countRec (readStreams type more list) inout := by
  have sum_nonneg := recordSum_nonneg type list inout nonneg
  have sum_le := recordSum_mono type list inout le
  have same_end := any_isOpenEnd_readStreams type list inout fillLevel more
  have same_nil : readStreams type fillLevel list = [] ↔
      readStreams type more list = [] := by
    simp [readStreams]
  rw [countRec_eq, countRec_eq, same_end,
    wrapInt_recordSum sum_nonneg (by omega),
    wrapInt_recordSum (by omega) fits]
  simp only [same_nil]
  split
  · split <;> omega
  · rename_i counts
    rw [if_neg]
    · exact sum_le
    · rintro (empty | ⟨ends, zero⟩)
      · exact counts (.inl empty)
      · exact counts (.inr ⟨ends, by omega⟩)

/-- Items of a stream that is not in the list are not counted. -/
theorem readStreams_congr
    {list : List (Option σ)}
    (same : ∀ s, some s ∈ list → fillLevel s = more s) :
    readStreams type fillLevel list = readStreams type more list := by
  apply List.map_congr_left
  intro elem member
  cases elem with
  | none => rfl
  | some s => simp [same s member]

end Counts

/-- The limit on the negative demand of an entry task keeps the back
pressure. -/
theorem calPriority_pressure
    {prior : ℤ → ℤ → Prior}
    (pressure : BackPressure prior)
    (negDemandLim : ℤ) :
    BackPressure fun inRec outRec =>
      if inRec = -1 ∧ negDemandLim < outRec ∧ 0 < negDemandLim then ⊥
      else prior inRec outRec := by
  refine ⟨?_, ?_⟩
  · intro outRec out first first_mem second second_mem first_le
    have first' : -1 ≤ first := first_mem
    dsimp only
    split
    · exact bot_le
    · rename_i allowed
      rw [if_neg]
      · exact pressure.rises outRec out first_mem second_mem first_le
      · rintro ⟨entry, limited⟩
        exact allowed ⟨by omega, limited⟩
  · intro inRec input first first_mem second second_mem first_le
    dsimp only
    split
    · exact bot_le
    · rename_i allowed
      rw [if_neg]
      · exact pressure.falls inRec input first_mem second_mem first_le
      · rintro ⟨entry, limited, positive⟩
        exact allowed ⟨entry, by omega, positive⟩

/-- As long as the sums of the records are in the range of `int`, the priority of
a task is back pressure: items in an input stream that is not at the same time an
output stream of the task do not lower it, and items in an output stream that is
not at the same time an input stream do not raise it. -/
theorem priorityIsBackPressure
    [DecidableEq σ]
    (func negDemandLim : ℤ)
    (notRandom : func ≠ 13)
    (task : TaskStreams σ)
    (type : σ → StreamType)
    (fillLevel : σ → ℤ)
    (nonneg : ∀ s, 0 ≤ fillLevel s)
    (s : σ)
    (k : ℤ)
    (positive : 1 ≤ k)
    (inFits : recordSum .i
      (readStreams type (addItems fillLevel s k) task.inStreams) < 2 ^ 31)
    (outFits : recordSum .o
      (readStreams type (addItems fillLevel s k) task.outStreams) < 2 ^ 31)
    (rand later : ℕ) :
    (some s ∈ task.inStreams → some s ∉ task.outStreams →
      taskPriority func negDemandLim task type rand fillLevel ≤
        taskPriority func negDemandLim task type later
          (addItems fillLevel s k)) ∧
    (some s ∈ task.outStreams → some s ∉ task.inStreams →
      taskPriority func negDemandLim task type later (addItems fillLevel s k) ≤
        taskPriority func negDemandLim task type rand fillLevel) := by
  have pressure := calPriority_pressure
    (priorityFunc_pressure notRandom rand) negDemandLim
  have sameFunc : lpelTaskSetPriorityFunc func later =
      lpelTaskSetPriorityFunc func rand := by
    unfold lpelTaskSetPriorityFunc
    split <;> first | rfl | contradiction
  have le (other : σ) : fillLevel other ≤ addItems fillLevel s k other := by
    by_cases same : other = s
    · subst same
      simp only [addItems, Function.update_self]
      omega
    · simp [addItems, same]
  have nonneg' (other : σ) : 0 ≤ addItems fillLevel s k other :=
    (nonneg other).trans (le other)
  have inFits' := (recordSum_mono type task.inStreams .i le).trans_lt inFits
  have outFits' := (recordSum_mono type task.outStreams .o le).trans_lt outFits
  have others {list : List (Option σ)} (notListed : some s ∉ list) :
      readStreams type (addItems fillLevel s k) list =
        readStreams type fillLevel list := by
    apply readStreams_congr
    intro other member
    have different : other ≠ s := by
      rintro rfl
      exact notListed member
    simp [addItems, different]
  refine ⟨?_, ?_⟩
  · intro _ notOutput
    simp only [taskPriority, lpelTaskCalPriority, others notOutput, sameFunc]
    exact pressure.rises _ (countRec_mem_counts _ _ _ nonneg outFits')
      (countRec_mem_counts _ _ _ nonneg inFits')
      (countRec_mem_counts _ _ _ nonneg' inFits)
      (countRec_mono _ _ _ nonneg le inFits)
  · intro _ notInput
    simp only [taskPriority, lpelTaskCalPriority, others notInput, sameFunc]
    exact pressure.falls _ (countRec_mem_counts _ _ _ nonneg inFits')
      (countRec_mem_counts _ _ _ nonneg outFits')
      (countRec_mem_counts _ _ _ nonneg' outFits)
      (countRec_mono _ _ _ nonneg le outFits)

/-- A middle task that reads stream 1 and writes stream 2. -/
def middleTask : TaskStreams ℕ where
  inStreams := [some 1]
  outStreams := [some 2]

/-- Two more items in stream 1 do not lower the priority of the task, and two more
in stream 2 do not raise it. -/
theorem priorityIsBackPressure_middleTask :
    taskPriority 4 10 middleTask (fun _ => .middle) 0 (fun _ => 3) ≤
        taskPriority 4 10 middleTask (fun _ => .middle) 0
          (addItems (fun _ => 3) 1 2) ∧
      taskPriority 4 10 middleTask (fun _ => .middle) 0
          (addItems (fun _ => 3) 2 2) ≤
        taskPriority 4 10 middleTask (fun _ => .middle) 0 (fun _ => 3) :=
  ⟨(priorityIsBackPressure 4 10 (by decide) middleTask (fun _ => .middle)
      (fun _ => 3) (fun _ => by decide) 1 2 (by decide) (by decide) (by decide)
      0 0).1 (by decide) (by decide),
    (priorityIsBackPressure 4 10 (by decide) middleTask (fun _ => .middle)
      (fun _ => 3) (fun _ => by decide) 2 2 (by decide) (by decide) (by decide)
      0 0).2 (by decide) (by decide)⟩

/-- A task that reads the streams 1 and 2 and writes stream 1 itself. -/
def feedbackTask : TaskStreams ℕ where
  inStreams := [some 1, some 2]
  outStreams := [some 1]

/-- Stream 2 holds five items. -/
def feedbackLevel (s : ℕ) : ℤ :=
  if s = 2 then 5 else 0

/-- An item in the stream that the task reads and writes lowers its priority
from `(5 + 1) / (0 + 1)` to `(6 + 1) / (1 + 1)`. -/
theorem priority_feedbackTask :
    ¬ ∀ (func negDemandLim : ℤ) (task : TaskStreams ℕ)
        (type : ℕ → StreamType) (fillLevel : ℕ → ℤ) (s : ℕ) (k : ℤ) (rand : ℕ),
      func ≠ 13 → (∀ s, 0 ≤ fillLevel s) → 1 ≤ k →
      recordSum .i
        (readStreams type (addItems fillLevel s k) task.inStreams) < 2 ^ 31 →
      recordSum .o
        (readStreams type (addItems fillLevel s k) task.outStreams) < 2 ^ 31 →
      some s ∈ task.inStreams →
      taskPriority func negDemandLim task type rand fillLevel ≤
        taskPriority func negDemandLim task type rand
          (addItems fillLevel s k) := by
  intro rises
  have nonneg (s : ℕ) : 0 ≤ feedbackLevel s := by
    unfold feedbackLevel
    split <;> decide
  have before : taskPriority 1 0 feedbackTask (fun _ => .middle) 0
      feedbackLevel = .of 6 := by
    decide +kernel
  have after : taskPriority 1 0 feedbackTask (fun _ => .middle) 0
      (addItems feedbackLevel 1 1) = .of (7 / 2) := by
    decide +kernel
  have raised := rises 1 0 feedbackTask (fun _ => .middle) feedbackLevel 1 1 0
    (by decide) nonneg (by decide) (by decide) (by decide) (by decide)
  rw [before, after, Prior.of_le_of] at raised
  norm_num at raised

end TaskPriority
end Hrc
end Lpel
