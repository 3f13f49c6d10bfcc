import Mathlib.Algebra.Ring.Int.Defs
import Mathlib.Data.Int.Init
import Mathlib.Tactic.Common

/-!
# The configuration check

`LpelInit` asks the platform for its number of cores and `LpelStart` checks the
configuration against it.  The values of a configuration are C integers of 32
bits, and so is the count that is kept in `pu_count`.

A build either has `sysconf`, or it takes the number from `LpelGetNumCores`, which
reads the variable `LPEL_NUM_WORKERS`.  The code behind this query stores the
error code of a successful call in place of the number.
-/

namespace Lpel

/-- `lpel_backend_type`. -/
inductive BackendType
  | decenLpel
  | hrcLpel
  deriving DecidableEq

/-- `lpel_config_t`, without the monitoring callbacks. -/
structure LpelConfig where
  numWorkers : Int32
  procWorkers : Int32
  procOthers : Int32
  flags : Int32
  type : BackendType

/-- `LPEL_ERR_FAIL`, which is also a value of `pu_count`. -/
def lpelErrFail : Int32 := -1

/-- `LPEL_ERR_INVAL`. -/
def lpelErrInval : Int32 := 1

/-- `LPEL_FLAG_PINNED`. -/
def lpelFlagPinned : Int32 := 1

/-- `LPEL_FLAG_EXCLUSIVE`. -/
def lpelFlagExclusive : Int32 := 2

/-- `LPEL_ICFG`, with the value of `_lpel_global_config`. -/
def lpelIcfg (globalConfig : LpelConfig) (flag : Int32) : Bool :=
  globalConfig.flags &&& flag == flag

/-- What the number of cores depends on. -/
structure Platform where
  /-- The result of `sysconf(_SC_NPROCESSORS_ONLN)`, in a build that has it. -/
  sysconf : Option Int32
  /-- The value of `LPEL_NUM_WORKERS` as `strtoul` reads it, and whether `errno`
  is `EINVAL` afterwards. -/
  numWorkersVariable : Option (UInt64 × Bool)

/-- `LpelGetNumCores`: the returned value, and the stored one. -/
def lpelGetNumCores (platform : Platform) : Int32 × Option Int32 :=
  let procAvail : Int32 := platform.sysconf.getD (-1)
  let procAvail :=
    if procAvail = -1 then
      match platform.numWorkersVariable with
      | some (n, false) => n.toUInt32.toInt32
      | some (_, true) => procAvail
      | none => procAvail
    else
      procAvail
  if procAvail = -1 then
    (lpelErrFail, none)
  else
    (0, some procAvail)

/-- `LpelHwLocInit` without `hwloc`: the next value of `pu_count`. -/
def lpelHwLocInit (platform : Platform) (puCount : Int32) : Int32 :=
  match platform.sysconf with
  | some count => count
  | none =>
      let (res, result) := lpelGetNumCores platform
      let puCount := result.getD puCount
      if res = 0 then res else puCount

/-- `LpelHwLocCheckConfig`.  The result of `LpelCanSetExclusive` has no effect on
it. -/
def lpelHwLocCheckConfig
    (puCount : Int32)
    (globalConfig cfg : LpelConfig) : Int32 :=
  let insane : Bool :=
    match cfg.type with
    | .decenLpel => cfg.numWorkers ≤ 0 || cfg.procWorkers ≤ 0
    | .hrcLpel => cfg.numWorkers ≤ 1 || cfg.procWorkers ≤ 0
  if insane then
    lpelErrInval
  else if cfg.procOthers < 0 then
    lpelErrInval
  else if puCount ≠ lpelErrFail ∧
      cfg.procWorkers + cfg.procOthers > puCount then
    lpelErrInval
  else if puCount ≠ lpelErrFail ∧ lpelIcfg globalConfig lpelFlagExclusive ∧
      (cfg.procOthers = 0 ∨ cfg.numWorkers > cfg.procWorkers) then
    lpelErrInval
  else if lpelIcfg globalConfig lpelFlagExclusive ∧
      ¬lpelIcfg globalConfig lpelFlagPinned then
    lpelErrInval
  else
    0

/-! ## What the check is to accept -/

/-- The number of cores that the query of `LpelHwLocInit` yields. -/
def Platform.cores (platform : Platform) : Option Int32 :=
  match platform.sysconf with
  | some count => if count = -1 then none else some count
  | none => (lpelGetNumCores platform).2

namespace LpelConfig

/-- The numbers themselves are in range. -/
structure Sane (cfg : LpelConfig) : Prop where
  numWorkers_ge : (match cfg.type with
    | .decenLpel => 1
    | .hrcLpel => 2) ≤ cfg.numWorkers.toInt
  procWorkers_ge : 1 ≤ cfg.procWorkers.toInt
  procOthers_ge : 0 ≤ cfg.procOthers.toInt

/-- The number of processors, which may not fit into an `int`. -/
def sum (cfg : LpelConfig) : ℤ :=
  cfg.procWorkers.toInt + cfg.procOthers.toInt

/-- A worker can have a processor of its own. -/
def OneToOne (cfg : LpelConfig) : Prop :=
  lpelIcfg cfg lpelFlagExclusive = true →
    1 ≤ cfg.procOthers.toInt ∧ cfg.numWorkers.toInt ≤ cfg.procWorkers.toInt

/-- Exclusive workers are pinned. -/
def ExclusivePinned (cfg : LpelConfig) : Prop :=
  lpelIcfg cfg lpelFlagExclusive = true → lpelIcfg cfg lpelFlagPinned = true

/-- A configuration for a number of cores, if it is known. -/
def Valid (cfg : LpelConfig) (cores : Option Int32) : Prop :=
  cfg.Sane ∧
    (∀ c, cores = some c → cfg.sum ≤ c.toInt ∧ cfg.OneToOne) ∧
    cfg.ExclusivePinned

variable {cfg : LpelConfig}

/-- The C sum of two numbers in range. -/
theorem Sane.sum_toInt
    (sane : cfg.Sane) :
    (cfg.procWorkers + cfg.procOthers).toInt =
      if cfg.sum < 2 ^ 31 then cfg.sum else cfg.sum - 2 ^ 32 := by
  have workers := sane.procWorkers_ge
  have others := sane.procOthers_ge
  have workers_lt := cfg.procWorkers.toInt_lt
  have others_lt := cfg.procOthers.toInt_lt
  rw [Int32.toInt_add, LpelConfig.sum]
  split
  case isTrue fits =>
    exact Int.bmod_eq_of_le (by omega) (by omega)
  case isFalse exceeds =>
    rw [← Int.sub_bmod_right]
    exact Int.bmod_eq_of_le (by omega) (by omega)

/-- A check that is passed. -/
theorem ite_inval_eq_zero_iff
    (condition : Prop)
    [Decidable condition]
    (rest : Int32) :
    (if condition then lpelErrInval else rest) = 0 ↔ ¬condition ∧ rest = 0 := by
  have inval : lpelErrInval ≠ 0 := by decide
  split
  case isTrue failed => simp [failed, inval]
  case isFalse passed => simp [passed]

/-- The number of workers is checked against the backend. -/
theorem insane_eq_false_iff (cfg : LpelConfig) :
    (match cfg.type with
      | .decenLpel => cfg.numWorkers ≤ 0 || cfg.procWorkers ≤ 0
      | .hrcLpel => cfg.numWorkers ≤ 1 || cfg.procWorkers ≤ 0) = false ∧
      ¬cfg.procOthers < 0 ↔ cfg.Sane := by
  have zero : (0 : Int32).toInt = 0 := by decide
  have one : (1 : Int32).toInt = 1 := by decide
  constructor
  · rintro ⟨workers, others⟩
    rw [Int32.lt_iff_toInt_lt, zero] at others
    cases type : cfg.type with
    | decenLpel =>
        simp only [type, Bool.or_eq_false_iff, decide_eq_false_iff_not,
          Int32.le_iff_toInt_le, zero] at workers
        refine ⟨?_, by omega, by omega⟩
        simp only [type]
        omega
    | hrcLpel =>
        simp only [type, Bool.or_eq_false_iff, decide_eq_false_iff_not,
          Int32.le_iff_toInt_le, zero, one] at workers
        refine ⟨?_, by omega, by omega⟩
        simp only [type]
        omega
  · rintro ⟨workers, procs, others⟩
    rw [Int32.lt_iff_toInt_lt, zero]
    refine ⟨?_, by omega⟩
    cases type : cfg.type with
    | decenLpel =>
        simp only [type] at workers
        simp only [Bool.or_eq_false_iff, decide_eq_false_iff_not,
          Int32.le_iff_toInt_le, zero]
        omega
    | hrcLpel =>
        simp only [type] at workers
        simp only [Bool.or_eq_false_iff, decide_eq_false_iff_not,
          Int32.le_iff_toInt_le, zero, one]
        omega

/-- What the check accepts, for a given `pu_count`. -/
theorem check_eq_zero_iff (puCount : Int32) (cfg : LpelConfig) :
    lpelHwLocCheckConfig puCount cfg cfg = 0 ↔
      cfg.Sane ∧
        (puCount ≠ lpelErrFail →
          (cfg.procWorkers + cfg.procOthers).toInt ≤ puCount.toInt ∧
          cfg.OneToOne) ∧
        cfg.ExclusivePinned := by
  have zero : (0 : Int32).toInt = 0 := by decide
  rw [lpelHwLocCheckConfig]
  simp only [ite_inval_eq_zero_iff, Bool.not_eq_true, and_true]
  rw [← and_assoc, insane_eq_false_iff]
  constructor
  · rintro ⟨sane, enough, oneToOne, pinned⟩
    have others := sane.procOthers_ge
    refine ⟨sane, ?_, ?_⟩
    · intro known
      refine ⟨?_, ?_⟩
      · by_contra less
        exact enough ⟨known, Int32.lt_iff_toInt_lt.mpr (Int.not_le.mp less)⟩
      · intro exclusive
        have pair : ¬(cfg.procOthers = 0 ∨ cfg.numWorkers > cfg.procWorkers) :=
          fun failed => oneToOne ⟨known, exclusive, failed⟩
        rw [not_or, ← Int32.toInt_inj, zero, gt_iff_lt,
          Int32.lt_iff_toInt_lt] at pair
        omega
    · intro exclusive
      by_contra free
      exact pinned ⟨exclusive, by simpa using free⟩
  · rintro ⟨sane, enough, pinned⟩
    refine ⟨sane, ?_, ?_, ?_⟩
    · rintro ⟨known, less⟩
      exact Int.not_le.mpr (Int32.lt_iff_toInt_lt.mp less) (enough known).1
    · rintro ⟨known, exclusive, failed⟩
      obtain ⟨others, workers⟩ := (enough known).2 exclusive
      rw [← Int32.toInt_inj, zero, gt_iff_lt, Int32.lt_iff_toInt_lt] at failed
      omega
    · rintro ⟨exclusive, free⟩
      rw [pinned exclusive] at free
      cases free

/-- With the number of cores in `pu_count`, a sum that exceeds an `int` passes. -/
theorem Sane.sum_le_iff
    (sane : cfg.Sane)
    {puCount : Int32}
    (nonneg : 0 ≤ puCount.toInt) :
    (cfg.procWorkers + cfg.procOthers).toInt ≤ puCount.toInt ↔
      cfg.sum ≤ puCount.toInt ∨ 2 ^ 31 ≤ cfg.sum := by
  have workers_lt := cfg.procWorkers.toInt_lt
  have others_lt := cfg.procOthers.toInt_lt
  rw [sane.sum_toInt]
  unfold LpelConfig.sum
  split
  · omega
  · omega

/-- When the check does what it is for. -/
def CheckExact (cfg : LpelConfig) (platform : Platform) : Prop :=
  match platform.sysconf, platform.cores with
  | some _, some _ =>
      cfg.Sane ∧ cfg.OneToOne ∧ cfg.ExclusivePinned → cfg.sum < 2 ^ 31
  | some _, none => True
  | none, some c =>
      cfg.Sane ∧ cfg.OneToOne ∧ cfg.ExclusivePinned →
        c.toInt < cfg.sum ∧ cfg.sum < 2 ^ 31
  | none, none =>
      cfg.Sane ∧ cfg.ExclusivePinned → 2 ^ 31 ≤ cfg.sum ∧ cfg.OneToOne

end LpelConfig

/-- `pu_count` after some calls of `LpelInit`. -/
def lpelHwLocInits (platforms : List Platform) : Int32 :=
  platforms.foldl (fun puCount platform => lpelHwLocInit platform puCount) 0

namespace Platform

/-- `LpelGetNumCores` stores a number exactly if it succeeds. -/
theorem getNumCores_cases (platform : Platform) :
    lpelGetNumCores platform = (lpelErrFail, none) ∨
      ∃ count, lpelGetNumCores platform = (0, some count) := by
  unfold lpelGetNumCores
  dsimp only
  generalize (if platform.sysconf.getD (-1) = -1 then _ else _ : Int32) = count
  split
  · exact .inl rfl
  · exact .inr ⟨count, rfl⟩

variable {platform : Platform}

/-- Without `sysconf`, no number is ever kept. -/
theorem init_eq_zero
    (without : platform.sysconf = none) :
    lpelHwLocInit platform 0 = 0 := by
  rw [lpelHwLocInit, without]
  obtain failed | ⟨count, stored⟩ := getNumCores_cases platform
  · rw [failed]
    rfl
  · rw [stored]
    rfl

theorem inits_eq_zero
    {platforms : List Platform}
    (without : ∀ platform ∈ platforms, platform.sysconf = none) :
    lpelHwLocInits platforms = 0 := by
  unfold lpelHwLocInits
  induction platforms with
  | nil => rfl
  | cons platform platforms inductionHypothesis =>
      rw [List.foldl_cons, init_eq_zero (without platform (by simp))]
      apply inductionHypothesis
      intro other member
      exact without other (by simp [member])

/-- With `sysconf`, its result is kept. -/
theorem init_eq_sysconf
    {count : Int32}
    (build : platform.sysconf = some count)
    (puCount : Int32) :
    lpelHwLocInit platform puCount = count := by
  rw [lpelHwLocInit, build]

theorem cores_eq_sysconf
    {count : Int32}
    (build : platform.sysconf = some count) :
    platform.cores = if count = -1 then none else some count := by
  rw [cores, build]

end Platform

namespace LpelConfig

/-- The check with a number in `pu_count` against the one for another number. -/
theorem check_known_iff
    (cfg : LpelConfig)
    {puCount : Int32}
    (nonneg : 0 ≤ puCount.toInt)
    (c : Int32) :
    (lpelHwLocCheckConfig puCount cfg cfg = 0 ↔ cfg.Valid (some c)) ↔
      (cfg.Sane ∧ cfg.OneToOne ∧ cfg.ExclusivePinned →
        (cfg.sum ≤ puCount.toInt ∨ 2 ^ 31 ≤ cfg.sum ↔ cfg.sum ≤ c.toInt)) := by
  have known : puCount ≠ lpelErrFail := by
    rintro rfl
    exact absurd nonneg (by decide)
  rw [check_eq_zero_iff, Valid]
  constructor
  · rintro exact ⟨sane, oneToOne, pinned⟩
    rw [← sane.sum_le_iff nonneg]
    constructor
    · intro enough
      exact (exact.mp ⟨sane, fun _ => ⟨enough, oneToOne⟩, pinned⟩).2.1 c rfl |>.1
    · intro enough
      refine (exact.mpr ⟨sane, ?_, pinned⟩).2.1 known |>.1
      rintro _ ⟨⟩
      exact ⟨enough, oneToOne⟩
  · intro exact
    constructor
    · rintro ⟨sane, enough, pinned⟩
      obtain ⟨enough, oneToOne⟩ := enough known
      refine ⟨sane, ?_, pinned⟩
      rintro _ ⟨⟩
      rw [sane.sum_le_iff nonneg, exact ⟨sane, oneToOne, pinned⟩] at enough
      exact ⟨enough, oneToOne⟩
    · rintro ⟨sane, enough, pinned⟩
      obtain ⟨enough, oneToOne⟩ := enough c rfl
      refine ⟨sane, fun _ => ?_, pinned⟩
      rw [sane.sum_le_iff nonneg, exact ⟨sane, oneToOne, pinned⟩]
      exact ⟨enough, oneToOne⟩

/-- The check with the error code in `pu_count`. -/
theorem check_unknown_iff (cfg : LpelConfig) :
    lpelHwLocCheckConfig lpelErrFail cfg cfg = 0 ↔ cfg.Valid none := by
  rw [check_eq_zero_iff, Valid]
  simp

/-- The check with zero in `pu_count` against the one for no number. -/
theorem check_zero_iff (cfg : LpelConfig) :
    (lpelHwLocCheckConfig 0 cfg cfg = 0 ↔ cfg.Valid none) ↔
      (cfg.Sane ∧ cfg.ExclusivePinned → 2 ^ 31 ≤ cfg.sum ∧ cfg.OneToOne) := by
  have zero : (0 : Int32).toInt = 0 := by decide
  have known : (0 : Int32) ≠ lpelErrFail := by decide
  rw [check_eq_zero_iff, Valid]
  constructor
  · rintro exact ⟨sane, pinned⟩
    obtain ⟨-, enough, -⟩ := exact.mpr ⟨sane, by simp, pinned⟩
    obtain ⟨enough, oneToOne⟩ := enough known
    rw [sane.sum_le_iff (Int.le_of_eq zero.symm), zero] at enough
    have workers := sane.procWorkers_ge
    have others := sane.procOthers_ge
    refine ⟨?_, oneToOne⟩
    unfold LpelConfig.sum at *
    omega
  · intro exact
    constructor
    · rintro ⟨sane, -, pinned⟩
      exact ⟨sane, by simp, pinned⟩
    · rintro ⟨sane, -, pinned⟩
      obtain ⟨exceeds, oneToOne⟩ := exact ⟨sane, pinned⟩
      refine ⟨sane, fun _ => ⟨?_, oneToOne⟩, pinned⟩
      exact (sane.sum_le_iff (Int.le_of_eq zero.symm)).mpr (.inr exceeds)

end LpelConfig

/-- The check is exact unless the sum exceeds an `int`; in a build without
`sysconf` it accepts no other sum. -/
theorem configCheck_exact_iff
    (earlier : List Platform)
    (platform : Platform)
    (sameBuild : ∀ other ∈ earlier,
      other.sysconf.isSome = platform.sysconf.isSome)
    (positive : ∀ c, platform.cores = some c → 1 ≤ c.toInt)
    (cfg : LpelConfig) :
    (lpelHwLocCheckConfig (lpelHwLocInit platform (lpelHwLocInits earlier))
        cfg cfg = 0 ↔
      cfg.Valid platform.cores) ↔ cfg.CheckExact platform := by
  rw [LpelConfig.CheckExact]
  cases build : platform.sysconf with
  | some count =>
      rw [Platform.init_eq_sysconf build]
      cases queried : platform.cores with
      | none =>
          rw [Platform.cores_eq_sysconf build, ite_eq_left_iff] at queried
          obtain rfl : count = lpelErrFail := by
            by_contra known
            exact absurd (queried known) (by simp)
          exact iff_of_true cfg.check_unknown_iff trivial
      | some c =>
          have least := positive c queried
          rw [Platform.cores_eq_sysconf build,
            Option.ite_none_left_eq_some] at queried
          obtain ⟨-, ⟨⟩⟩ := queried
          rw [cfg.check_known_iff (by omega)]
          refine imp_congr_right ?_
          intro _
          have range := count.toInt_lt
          omega
  | none =>
      have without : ∀ other ∈ earlier, other.sysconf = none := by
        intro other member
        have same := sameBuild other member
        rw [build] at same
        exact Option.isSome_eq_false_iff.mp same |> Option.isNone_iff_eq_none.mp
      rw [Platform.inits_eq_zero without, Platform.init_eq_zero build]
      cases queried : platform.cores with
      | none => exact cfg.check_zero_iff
      | some c =>
          have zero : (0 : Int32).toInt = 0 := by decide
          have least := positive c queried
          rw [cfg.check_known_iff (Int.le_of_eq zero.symm), zero]
          refine imp_congr_right ?_
          rintro ⟨sane, -⟩
          have range := c.toInt_lt
          have workers := sane.procWorkers_ge
          have others := sane.procOthers_ge
          unfold LpelConfig.sum
          omega

/-- A configuration for one worker, with the given numbers of processors. -/
def oneWorker (procWorkers procOthers : Int32) : LpelConfig where
  numWorkers := 1
  procWorkers := procWorkers
  procOthers := procOthers
  flags := 0
  type := .decenLpel

theorem oneWorker_valid
    {procWorkers procOthers : Int32}
    (workers : 1 ≤ procWorkers.toInt)
    (others : 0 ≤ procOthers.toInt)
    {c : Int32}
    (enough : procWorkers.toInt + procOthers.toInt ≤ c.toInt) :
    (oneWorker procWorkers procOthers).Valid (some c) := by
  have shared : lpelIcfg (oneWorker procWorkers procOthers) lpelFlagExclusive =
      false := by
    simp only [lpelIcfg, oneWorker]
    decide
  have single : (1 : Int32).toInt = 1 := by decide
  refine ⟨⟨Int.le_of_eq single.symm, workers, others⟩, ?_, ?_⟩
  · rintro _ ⟨⟩
    refine ⟨enough, ?_⟩
    intro exclusive
    rw [shared] at exclusive
    cases exclusive
  · intro exclusive
    rw [shared] at exclusive
    cases exclusive

/-- Two of four processors are for a worker, and one for the others. -/
theorem configCheck_exact_iff_four :
    lpelHwLocCheckConfig (lpelHwLocInit ⟨some 4, none⟩ (lpelHwLocInits []))
        (oneWorker 2 1) (oneWorker 2 1) = 0 ∧
      lpelHwLocCheckConfig (lpelHwLocInit ⟨some 4, none⟩ (lpelHwLocInits []))
        (oneWorker 2 3) (oneWorker 2 3) ≠ 0 := by
  have positive : ∀ c, Platform.cores ⟨some 4, none⟩ = some c → 1 ≤ c.toInt := by
    rintro _ ⟨⟩
    decide
  have exact := configCheck_exact_iff [] ⟨some 4, none⟩ (by simp) positive
  refine ⟨?_, ?_⟩
  · refine ((exact (oneWorker 2 1)).mpr ?_).mpr ?_
    · intro _
      decide
    · exact oneWorker_valid (by decide) (by decide) (by decide)
  · intro accepted
    refine absurd (((exact (oneWorker 2 3)).mpr ?_).mp accepted) ?_
    · intro _
      decide
    · rintro ⟨-, enough, -⟩
      exact absurd (enough 4 rfl).1 (by decide)

/-- More than `INT_MAX` processors pass for four cores, and one processor does not
if their number is in `LPEL_NUM_WORKERS`. -/
theorem configCheck_inexact :
    ¬(lpelHwLocCheckConfig (lpelHwLocInit ⟨some 4, none⟩ 0)
          (oneWorker 2147483647 1) (oneWorker 2147483647 1) = 0 ↔
        (oneWorker 2147483647 1).Valid (some 4)) ∧
      ¬(lpelHwLocCheckConfig (lpelHwLocInit ⟨none, some (4, false)⟩ 0)
          (oneWorker 1 0) (oneWorker 1 0) = 0 ↔
        (oneWorker 1 0).Valid
          (Platform.cores ⟨none, some (4, false)⟩)) := by
  refine ⟨?_, ?_⟩
  · intro exact
    have valid := exact.mp (by decide)
    exact absurd (valid.2.1 4 rfl).1 (by decide)
  · intro exact
    have valid : (oneWorker 1 0).Valid (some 4) :=
      oneWorker_valid (by decide) (by decide) (by decide)
    exact absurd (exact.mpr valid) (by decide)

end Lpel
