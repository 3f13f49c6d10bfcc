import Lpel.HwLoc
import Lpel.Lib.Machine

/-!
# Pinning threads to cores

`LpelHwLocStart` and `LpelThreadAssign` in a build with
`pthread_setaffinity_np`.  A cycle is a call of `LpelInit`, one of `LpelStart`,
some calls of `LpelThreadAssign` and one of `LpelCleanup`.

The position of the round robin over the cores for other threads is a static
variable.  It is left as it is when a new cycle sets the number of these cores.
-/

namespace Lpel

/-- `LPEL_ERR_ASSIGN`. -/
def lpelErrAssign : Int32 := 2

/-- `LPEL_ERR_EXCL`. -/
def lpelErrExcl : Int32 := 3

/-- `LPEL_MAP_OTHERS`. -/
def lpelMapOthers : Int32 := -1

/-- The static variables of `lpel_hwloc.c`.  A `cpu_set_t` is the list of its
cores. -/
structure HwLoc where
  puCount : Int32
  cpusetOthers : List Int32
  offsetOthers : Int32
  rotOthers : Int32
  procOthers : Int32
  cpusetWorkers : List Int32
  procWorkers : Int32

/-- `CPU_SET` for every `i` of a loop. -/
def cpuSetRange (start stop : Int32) : List Int32 :=
  (List.range (stop.toInt - start.toInt).toNat).map fun i =>
    start + Int32.ofNat i

/-- `LpelHwLocStart`. -/
def lpelHwLocStart (hw : HwLoc) (cfg : LpelConfig) : HwLoc :=
  let hw := { hw with
    procWorkers := cfg.procWorkers
    cpusetWorkers := cpuSetRange 0 cfg.procWorkers }
  if cfg.procOthers = 0 then
    { hw with
      offsetOthers := 0
      procOthers := hw.procWorkers
      cpusetOthers := cpuSetRange 0 hw.procWorkers }
  else
    { hw with
      offsetOthers := cfg.procWorkers
      procOthers := cfg.procOthers
      cpusetOthers := cpuSetRange cfg.procWorkers
        (cfg.procWorkers + cfg.procOthers) }

/-- The set of cores that `LpelThreadAssign` chooses, or `none` where it divides
by zero or fails the assertion. -/
def chooseCpuset
    (hw : HwLoc)
    (globalConfig : LpelConfig)
    (core : Int32) : Option (List Int32 × HwLoc) :=
  if lpelIcfg globalConfig lpelFlagPinned then
    if core = lpelMapOthers then
      if hw.procOthers = 0 then
        none
      else
        some ([hw.rotOthers + hw.offsetOthers],
          { hw with rotOthers := (hw.rotOthers + 1) % hw.procOthers })
    else if 0 ≤ core ∧ core < globalConfig.numWorkers then
      if hw.procWorkers = 0 then
        none
      else
        some ([core % hw.procWorkers], hw)
    else
      none
  else
    some (if core = lpelMapOthers then hw.cpusetOthers else hw.cpusetWorkers, hw)

/-- `LpelThreadAssign`: the returned value and the chosen set.  The last two
arguments say whether `pthread_setaffinity_np` and `pthread_setschedparam`
succeed. -/
def lpelThreadAssign
    (hw : HwLoc)
    (globalConfig : LpelConfig)
    (core : Int32)
    (affinity schedparam : Bool) : Option (Int32 × List Int32 × HwLoc) :=
  (chooseCpuset hw globalConfig core).map fun (cpuset, hw) =>
    if !affinity then
      (lpelErrAssign, cpuset, hw)
    else if lpelIcfg globalConfig lpelFlagExclusive && core != lpelMapOthers &&
        !schedparam then
      (lpelErrExcl, cpuset, hw)
    else
      (0, cpuset, hw)

/-- Where the program is in a cycle. -/
inductive CyclePhase
  | cleaned
  | initialised
  | started
  deriving DecidableEq

/-- The state of the library, with the calls of the current cycle. -/
structure Library where
  globalConfig : LpelConfig
  hw : HwLoc
  phase : CyclePhase
  /-- The arguments of `LpelThreadAssign`, each with the chosen set. -/
  assigned : List (Int32 × List Int32)

/-- `LpelInit`. -/
def lpelInit (lib : Library) (platform : Platform) (cfg : LpelConfig) :
    Library :=
  { lib with
    globalConfig := cfg
    hw := { lib.hw with puCount := lpelHwLocInit platform lib.hw.puCount } }

/-- `LpelStart`, up to the start of the workers. -/
def lpelStart (lib : Library) (cfg : LpelConfig) : Int32 × Library :=
  let res := lpelHwLocCheckConfig lib.hw.puCount lib.globalConfig cfg
  if res ≠ 0 then
    (res, lib)
  else
    (0, { lib with hw := lpelHwLocStart lib.hw cfg })

/-- The calls of a program. -/
inductive CycleLabel
  | init (platform : Platform) (cfg : LpelConfig)
  | start
  | assign (core : Int32) (affinity schedparam : Bool)
  | cleanup

namespace LpelConfig

/-- The configurations that are looked at: exclusive, and with a sum that is an
`int`. -/
def Exclusive (cfg : LpelConfig) : Prop :=
  lpelIcfg cfg lpelFlagPinned = true ∧ lpelIcfg cfg lpelFlagExclusive = true ∧
    cfg.sum < 2 ^ 31

instance (cfg : LpelConfig) : Decidable cfg.Exclusive :=
  inferInstanceAs (Decidable (_ ∧ _ ∧ _))

/-- The arguments of `LpelThreadAssign`. -/
def Assignable (cfg : LpelConfig) (core : Int32) : Prop :=
  core = lpelMapOthers ∨ 0 ≤ core ∧ core < cfg.numWorkers

instance (cfg : LpelConfig) (core : Int32) : Decidable (cfg.Assignable core) :=
  inferInstanceAs (Decidable (_ ∨ _ ∧ _))

end LpelConfig

namespace Library

/-- A call, or `none` where it is not allowed or has no result. -/
def step (lib : Library) : CycleLabel → Option Library
  | .init platform cfg =>
      if lib.phase = .cleaned then
        some { lpelInit lib platform cfg with
          phase := .initialised
          assigned := [] }
      else
        none
  | .start =>
      let (res, after) := lpelStart lib lib.globalConfig
      if lib.phase = .initialised ∧ lib.globalConfig.Exclusive ∧ res = 0 then
        some { after with phase := .started }
      else
        none
  | .assign core affinity schedparam =>
      if lib.phase = .started ∧ lib.globalConfig.Assignable core then
        (lpelThreadAssign lib.hw lib.globalConfig core affinity schedparam).map
          fun (_, cpuset, hw) =>
            { lib with
              hw := hw
              assigned := lib.assigned ++ [(core, cpuset)] }
      else
        none
  | .cleanup =>
      if lib.phase = .started then
        some { lib with phase := .cleaned }
      else
        none

/-- Nothing was called yet: all static variables are zero. -/
def initial : Library where
  globalConfig := ⟨0, 0, 0, 0, .decenLpel⟩
  hw := ⟨0, [], 0, 0, 0, [], 0⟩
  phase := .cleaned
  assigned := []

end Library

/-- All programs that run cycles with exclusive configurations. -/
def cycleMachine : Machine Library CycleLabel where
  init lib := lib = Library.initial
  next := Library.step

namespace Library

/-- What pinning is for: a worker has a core of its own, below those of the other
threads, and every call completes. -/
structure PinnedRight (lib : Library) : Prop where
  other : ∀ cpuset, (lpelMapOthers, cpuset) ∈ lib.assigned →
    ∃ cpu : Int32, cpuset = [cpu] ∧
      lib.globalConfig.procWorkers.toInt ≤ cpu.toInt ∧
      cpu.toInt < lib.globalConfig.sum
  worker : ∀ core cpuset, (core, cpuset) ∈ lib.assigned → core ≠ lpelMapOthers →
    ∃ cpu : Int32, cpuset = [cpu] ∧ 0 ≤ cpu.toInt ∧
      cpu.toInt < lib.globalConfig.procWorkers.toInt
  distinct : ∀ core cpuset core' cpuset', (core, cpuset) ∈ lib.assigned →
    (core', cpuset') ∈ lib.assigned → core ≠ lpelMapOthers →
    core' ≠ lpelMapOthers → core ≠ core' → cpuset ≠ cpuset'
  completes : lib.phase = .started → ∀ core, lib.globalConfig.Assignable core →
    ∀ affinity schedparam, (lpelThreadAssign lib.hw lib.globalConfig core
      affinity schedparam).isSome = true

/-- The position is one of the round robin, and where the number of cores is not
known, no other worker with the same remainder was assigned. -/
def PositionOk (lib : Library) : CycleLabel → Prop
  | .assign core _ _ =>
      if core = lpelMapOthers then
        lib.hw.rotOthers.toInt < lib.globalConfig.procOthers.toInt
      else
        lib.hw.puCount = lpelErrFail →
          ∀ core' cpuset, (core', cpuset) ∈ lib.assigned →
            core' ≠ lpelMapOthers → core' ≠ core →
            core' % lib.globalConfig.procWorkers ≠
              core % lib.globalConfig.procWorkers
  | _ => True

/-- What `LpelStart` leaves behind. -/
structure Started (lib : Library) : Prop where
  exclusive : lib.globalConfig.Exclusive
  sane : lib.globalConfig.Sane
  oneToOne : lib.hw.puCount ≠ lpelErrFail →
    1 ≤ lib.globalConfig.procOthers.toInt ∧
      lib.globalConfig.numWorkers.toInt ≤ lib.globalConfig.procWorkers.toInt
  procWorkers_eq : lib.hw.procWorkers = lib.globalConfig.procWorkers
  others : lib.globalConfig.procOthers.toInt = 0 ∧
      lib.hw.procOthers = lib.globalConfig.procWorkers ∨
    1 ≤ lib.globalConfig.procOthers.toInt ∧
      lib.hw.offsetOthers = lib.globalConfig.procWorkers ∧
      lib.hw.procOthers = lib.globalConfig.procOthers

/-- The invariant of all cycles. -/
structure Cycling (lib : Library) : Prop where
  rot_nonneg : 0 ≤ lib.hw.rotOthers.toInt
  rot_lt : lib.hw.rotOthers.toInt < 2 ^ 31 - 1
  started : lib.phase = .started → lib.Started
  assigned_eq : ∀ core cpuset, (core, cpuset) ∈ lib.assigned →
    core ≠ lpelMapOthers →
    cpuset = [core % lib.globalConfig.procWorkers] ∧
      lib.globalConfig.Assignable core

/-- The C remainder of numbers in range. -/
theorem mod_toInt
    {left right : Int32}
    (nonneg : 0 ≤ left.toInt) :
    (left % right).toInt = left.toInt % right.toInt := by
  rw [Int32.toInt_mod, Int.tmod_eq_emod_of_nonneg nonneg]

variable {lib after : Library}

theorem Cycling.initial : Library.initial.Cycling where
  rot_nonneg := by decide
  rot_lt := by decide
  started := by
    intro phase
    cases phase
  assigned_eq := by
    intro core cpuset member
    cases member

theorem ne_zero_of_toInt
    {value : Int32}
    (positive : 1 ≤ value.toInt) :
    value ≠ 0 := by
  rintro rfl
  exact absurd positive (by decide)

/-- The number of cores that the round robin goes over. -/
theorem Started.procOthers_ge
    (started : lib.Started) :
    1 ≤ lib.hw.procOthers.toInt := by
  obtain ⟨-, same⟩ | ⟨others, -, same⟩ := started.others
  · rw [same]
    exact started.sane.procWorkers_ge
  · rw [same]
    exact others

/-- The numbers that are divided by. -/
theorem Started.ne_zero
    (started : lib.Started) :
    lib.hw.procWorkers ≠ 0 ∧ lib.hw.procOthers ≠ 0 := by
  refine ⟨?_, ne_zero_of_toInt started.procOthers_ge⟩
  rw [started.procWorkers_eq]
  exact ne_zero_of_toInt started.sane.procWorkers_ge

/-- The choice of `LpelThreadAssign` in a cycle. -/
theorem Started.choose
    (started : lib.Started)
    {core : Int32}
    (assignable : lib.globalConfig.Assignable core) :
    chooseCpuset lib.hw lib.globalConfig core = some
      (if core = lpelMapOthers then
        ([lib.hw.rotOthers + lib.hw.offsetOthers],
          { lib.hw with
            rotOthers := (lib.hw.rotOthers + 1) % lib.hw.procOthers })
      else
        ([core % lib.globalConfig.procWorkers], lib.hw)) := by
  obtain ⟨workers, others⟩ := started.ne_zero
  rw [chooseCpuset, if_pos started.exclusive.1]
  by_cases other : core = lpelMapOthers
  · rw [if_pos other, if_pos other, if_neg others]
  · rw [if_neg other, if_neg other, if_pos (assignable.resolve_left other),
      if_neg workers, started.procWorkers_eq]

/-- Whatever the system calls return, a chosen set is recorded. -/
theorem threadAssign_eq
    (lib : Library)
    (core : Int32)
    (affinity schedparam : Bool) :
    (lpelThreadAssign lib.hw lib.globalConfig core affinity schedparam).map
        (fun result => result.2) =
      chooseCpuset lib.hw lib.globalConfig core := by
  rw [lpelThreadAssign, Option.map_map]
  refine Eq.trans (Option.map_congr ?_) Option.map_id'
  rintro ⟨cpuset, hw⟩ -
  simp only [Function.comp_apply]
  split
  · rfl
  · split
    · rfl
    · rfl

/-- Every call completes in a cycle. -/
theorem Started.completes
    (started : lib.Started)
    {core : Int32}
    (assignable : lib.globalConfig.Assignable core)
    (affinity schedparam : Bool) :
    (lpelThreadAssign lib.hw lib.globalConfig core affinity
      schedparam).isSome = true := by
  rw [← Option.isSome_map, threadAssign_eq, started.choose assignable]
  rfl

theorem Started.start
    (exclusive : lib.globalConfig.Exclusive)
    (accepted : lpelHwLocCheckConfig lib.hw.puCount lib.globalConfig
      lib.globalConfig = 0) :
    Started
      { lib with
        hw := lpelHwLocStart lib.hw lib.globalConfig
        phase := .started } := by
  rw [LpelConfig.check_eq_zero_iff] at accepted
  obtain ⟨sane, known, -⟩ := accepted
  have kept : (lpelHwLocStart lib.hw lib.globalConfig).puCount =
      lib.hw.puCount := by
    rw [lpelHwLocStart]
    split
    · rfl
    · rfl
  constructor
  case exclusive => exact exclusive
  case sane => exact sane
  case oneToOne =>
    intro count
    dsimp only at count
    rw [kept] at count
    exact (known count).2 exclusive.2.1
  case procWorkers_eq =>
    dsimp only
    rw [lpelHwLocStart]
    split
    · rfl
    · rfl
  case others =>
    dsimp only
    rw [lpelHwLocStart]
    split
    case isTrue none =>
      refine .inl ⟨?_, rfl⟩
      rw [none]
      decide
    case isFalse some =>
      have least := sane.procOthers_ge
      refine .inr ⟨?_, rfl, rfl⟩
      by_contra less
      have zero : lib.globalConfig.procOthers.toInt = (0 : Int32).toInt := by
        rw [show (0 : Int32).toInt = 0 by decide]
        omega
      exact some (Int32.toInt_inj.mp zero)

/-- The steps of a cycle. -/
theorem step_cases
    {label : CycleLabel}
    (cycling : lib.Cycling)
    (taken : lib.step label = some after) :
    (∃ platform cfg, label = .init platform cfg ∧ after =
      { lpelInit lib platform cfg with
        phase := .initialised
        assigned := [] }) ∨
    (label = .start ∧ after.Started ∧ after.hw.rotOthers = lib.hw.rotOthers ∧
      after =
        { lib with
          hw := after.hw
          phase := .started }) ∨
    (∃ core affinity schedparam, label = .assign core affinity schedparam ∧
      lib.Started ∧ lib.globalConfig.Assignable core ∧ after =
        { lib with
          hw := if core = lpelMapOthers then
              { lib.hw with
                rotOthers := (lib.hw.rotOthers + 1) % lib.hw.procOthers }
            else
              lib.hw
          assigned := lib.assigned ++ [(core,
            if core = lpelMapOthers then
              [lib.hw.rotOthers + lib.hw.offsetOthers]
            else
              [core % lib.globalConfig.procWorkers])] }) ∨
    (label = .cleanup ∧ after = { lib with phase := .cleaned }) := by
  cases label with
  | init platform cfg =>
      simp only [step, Option.ite_none_right_eq_some, Option.some.injEq] at taken
      exact .inl ⟨platform, cfg, rfl, taken.2.symm⟩
  | start =>
      simp only [step, Option.ite_none_right_eq_some, Option.some.injEq] at taken
      obtain ⟨⟨-, exclusive, accepted⟩, rfl⟩ := taken
      have passed : lpelHwLocCheckConfig lib.hw.puCount lib.globalConfig
          lib.globalConfig = 0 := by
        by_contra failed
        rw [lpelStart, if_pos failed] at accepted
        exact failed accepted
      rw [lpelStart, if_neg (not_not.mpr passed)]
      refine .inr (.inl ⟨rfl, Started.start exclusive passed, ?_, rfl⟩)
      dsimp only
      rw [lpelHwLocStart]
      split
      · rfl
      · rfl
  | assign core affinity schedparam =>
      simp only [step, Option.ite_none_right_eq_some] at taken
      obtain ⟨⟨phase, assignable⟩, taken⟩ := taken
      have started := cycling.started phase
      refine .inr (.inr (.inl ⟨core, affinity, schedparam, rfl, started,
        assignable, ?_⟩))
      have chosen := threadAssign_eq lib core affinity schedparam
      rw [started.choose assignable] at chosen
      obtain ⟨⟨res, cpuset, hw⟩, returned, chosen⟩ :=
        Option.map_eq_some_iff.mp chosen
      rw [returned, Option.map_some, Option.some.injEq] at taken
      subst taken
      dsimp only at chosen ⊢
      split at chosen
      case isTrue other =>
        obtain ⟨rfl, rfl⟩ := Prod.mk.inj chosen
        rw [if_pos other, if_pos other]
      case isFalse worker =>
        obtain ⟨rfl, rfl⟩ := Prod.mk.inj chosen
        rw [if_neg worker, if_neg worker]
  | cleanup =>
      simp only [step, Option.ite_none_right_eq_some, Option.some.injEq] at taken
      exact .inr (.inr (.inr ⟨rfl, taken.2.symm⟩))

/-- The position stays one of some round robin. -/
theorem Started.rot_step
    (started : lib.Started)
    (cycling : lib.Cycling) :
    0 ≤ ((lib.hw.rotOthers + 1) % lib.hw.procOthers).toInt ∧
      ((lib.hw.rotOthers + 1) % lib.hw.procOthers).toInt < 2 ^ 31 - 1 := by
  have nonneg := cycling.rot_nonneg
  have less := cycling.rot_lt
  have one : (1 : Int32).toInt = 1 := by decide
  have next : (lib.hw.rotOthers + 1).toInt = lib.hw.rotOthers.toInt + 1 := by
    rw [Int32.toInt_add, one]
    exact Int.bmod_eq_of_le (by omega) (by omega)
  have positive := started.procOthers_ge
  have range := lib.hw.procOthers.toInt_lt
  rw [mod_toInt (by omega)]
  have nonneg' := Int.emod_nonneg (lib.hw.rotOthers + 1).toInt
    (by omega : lib.hw.procOthers.toInt ≠ 0)
  have less' := Int.emod_lt_of_pos (lib.hw.rotOthers + 1).toInt
    (by omega : 0 < lib.hw.procOthers.toInt)
  omega

/-- Every call keeps the invariant of all cycles. -/
theorem Cycling.step
    {label : CycleLabel}
    (cycling : lib.Cycling)
    (taken : lib.step label = some after) :
    after.Cycling := by
  obtain ⟨platform, cfg, rfl, rfl⟩ | ⟨rfl, started, rot, split⟩ |
    ⟨core, affinity, schedparam, rfl, started, assignable, rfl⟩ |
    ⟨rfl, rfl⟩ := step_cases cycling taken
  · exact
      { rot_nonneg := cycling.rot_nonneg
        rot_lt := cycling.rot_lt
        started := by
          intro phase
          cases phase
        assigned_eq := by
          intro core cpuset member
          cases member }
  · constructor
    case rot_nonneg =>
      rw [rot]
      exact cycling.rot_nonneg
    case rot_lt =>
      rw [rot]
      exact cycling.rot_lt
    case started => exact fun _ => started
    case assigned_eq =>
      rw [split]
      exact cycling.assigned_eq
  · have rot := started.rot_step cycling
    constructor
    case rot_nonneg =>
      dsimp only
      split
      · exact rot.1
      · exact cycling.rot_nonneg
    case rot_lt =>
      dsimp only
      split
      · exact rot.2
      · exact cycling.rot_lt
    case started =>
      intro _
      dsimp only
      split
      · exact ⟨started.exclusive, started.sane, started.oneToOne,
          started.procWorkers_eq, started.others⟩
      · exact ⟨started.exclusive, started.sane, started.oneToOne,
          started.procWorkers_eq, started.others⟩
    case assigned_eq =>
      intro core' cpuset member worker
      rw [List.mem_append, List.mem_singleton] at member
      obtain earlier | new := member
      · exact cycling.assigned_eq core' cpuset earlier worker
      · obtain ⟨rfl, rfl⟩ := Prod.mk.inj new
        rw [if_neg worker]
        exact ⟨rfl, assignable⟩
  · exact
      { rot_nonneg := cycling.rot_nonneg
        rot_lt := cycling.rot_lt
        started := by
          intro phase
          cases phase
        assigned_eq := cycling.assigned_eq }

/-- The core for another thread is in range exactly if the position is. -/
theorem Started.position_iff
    (started : lib.Started)
    (cycling : lib.Cycling) :
    (lib.globalConfig.procWorkers.toInt ≤
        (lib.hw.rotOthers + lib.hw.offsetOthers).toInt ∧
      (lib.hw.rotOthers + lib.hw.offsetOthers).toInt < lib.globalConfig.sum) ↔
      lib.hw.rotOthers.toInt < lib.globalConfig.procOthers.toInt := by
  have nonneg := cycling.rot_nonneg
  have less := cycling.rot_lt
  have workers := started.sane.procWorkers_ge
  have fits := started.exclusive.2.2
  unfold LpelConfig.sum at *
  obtain ⟨none, -⟩ | ⟨least, offset, -⟩ := started.others
  · omega
  · rw [offset, Int32.toInt_add]
    by_cases exceeds : lib.hw.rotOthers.toInt +
        lib.globalConfig.procWorkers.toInt < 2 ^ 31
    · rw [Int.bmod_eq_of_le (by omega) (by omega)]
      omega
    · have wraps : (lib.hw.rotOthers.toInt +
          lib.globalConfig.procWorkers.toInt).bmod (2 ^ 32) =
            lib.hw.rotOthers.toInt + lib.globalConfig.procWorkers.toInt -
              2 ^ 32 := by
        have range := lib.globalConfig.procWorkers.toInt_lt
        rw [← Int.sub_bmod_right]
        exact Int.bmod_eq_of_le (by omega) (by omega)
      rw [wraps]
      omega

/-- A worker is given one of the cores for workers. -/
theorem Started.worker_range
    (started : lib.Started)
    {core : Int32}
    (assignable : lib.globalConfig.Assignable core)
    (worker : core ≠ lpelMapOthers) :
    0 ≤ (core % lib.globalConfig.procWorkers).toInt ∧
      (core % lib.globalConfig.procWorkers).toInt <
        lib.globalConfig.procWorkers.toInt := by
  have zero : (0 : Int32).toInt = 0 := by decide
  obtain ⟨nonneg, -⟩ := assignable.resolve_left worker
  have positive := started.sane.procWorkers_ge
  rw [Int32.le_iff_toInt_le, zero] at nonneg
  rw [mod_toInt nonneg]
  exact ⟨Int.emod_nonneg _ (by omega), Int.emod_lt_of_pos _ (by omega)⟩

/-- Where the number of cores is known, a worker is given its own number. -/
theorem Started.worker_eq
    (started : lib.Started)
    (known : lib.hw.puCount ≠ lpelErrFail)
    {core : Int32}
    (assignable : lib.globalConfig.Assignable core)
    (worker : core ≠ lpelMapOthers) :
    core % lib.globalConfig.procWorkers = core := by
  have zero : (0 : Int32).toInt = 0 := by decide
  obtain ⟨nonneg, less⟩ := assignable.resolve_left worker
  obtain ⟨-, enough⟩ := started.oneToOne known
  rw [Int32.le_iff_toInt_le, zero] at nonneg
  rw [Int32.lt_iff_toInt_lt] at less
  rw [← Int32.toInt_inj, mod_toInt nonneg]
  exact Int.emod_eq_of_lt nonneg (by omega)

/-- A new worker is apart from the others under the condition. -/
theorem Started.apart_iff
    (started : lib.Started)
    (cycling : lib.Cycling)
    {core : Int32}
    (assignable : lib.globalConfig.Assignable core)
    (worker : core ≠ lpelMapOthers)
    (affinity schedparam : Bool) :
    (∀ core' cpuset, (core', cpuset) ∈ lib.assigned → core' ≠ lpelMapOthers →
      core' ≠ core → cpuset ≠ [core % lib.globalConfig.procWorkers]) ↔
      lib.PositionOk (.assign core affinity schedparam) := by
  rw [PositionOk, if_neg worker]
  constructor
  · intro apart _ core' cpuset member worker' other same
    obtain ⟨rfl, -⟩ := cycling.assigned_eq core' cpuset member worker'
    exact apart core' _ member worker' other (by rw [same])
  · intro apart core' cpuset member worker' other same
    obtain ⟨rfl, assignable'⟩ :=
      cycling.assigned_eq core' cpuset member worker'
    have same := List.head_eq_of_cons_eq same
    by_cases known : lib.hw.puCount = lpelErrFail
    · exact apart known core' _ member worker' other same
    · rw [started.worker_eq known assignable worker,
        started.worker_eq known assignable' worker'] at same
      exact other same

/-- Every call of a cycle completes, right or not. -/
theorem Cycling.completes
    (cycling : lib.Cycling)
    (phase : lib.phase = .started) :
    ∀ core, lib.globalConfig.Assignable core → ∀ affinity schedparam,
      (lpelThreadAssign lib.hw lib.globalConfig core affinity
        schedparam).isSome = true := by
  intro core assignable affinity schedparam
  exact (cycling.started phase).completes assignable affinity schedparam

theorem Cycling.pinnedRight_nil
    (cycling : lib.Cycling)
    (nothing : lib.assigned = []) :
    lib.PinnedRight where
  other := by
    intro cpuset member
    rw [nothing] at member
    cases member
  worker := by
    intro core cpuset member
    rw [nothing] at member
    cases member
  distinct := by
    intro core cpuset core' cpuset' member
    rw [nothing] at member
    cases member
  completes := cycling.completes

/-- A thread of the others is pinned to a core of theirs. -/
theorem PinnedRight.assignOther
    {cpu : Int32}
    (right : lib.PinnedRight)
    (config_eq : after.globalConfig = lib.globalConfig)
    (assigned_eq : after.assigned = lib.assigned ++ [(lpelMapOthers, [cpu])])
    (completes : after.phase = .started →
      ∀ core, after.globalConfig.Assignable core → ∀ affinity schedparam,
        (lpelThreadAssign after.hw after.globalConfig core affinity
          schedparam).isSome = true)
    (range : lib.globalConfig.procWorkers.toInt ≤ cpu.toInt ∧
      cpu.toInt < lib.globalConfig.sum) :
    after.PinnedRight := by
  have earlier {core : Int32} {cpuset : List Int32}
      (member : (core, cpuset) ∈ after.assigned)
      (worker : core ≠ lpelMapOthers) :
      (core, cpuset) ∈ lib.assigned := by
    rw [assigned_eq, List.mem_append, List.mem_singleton] at member
    obtain earlier | new := member
    · exact earlier
    · exact absurd (Prod.mk.inj new).1 worker
  constructor
  case completes => exact completes
  case other =>
    intro cpuset member
    rw [config_eq]
    rw [assigned_eq, List.mem_append, List.mem_singleton] at member
    obtain earlier | new := member
    · exact right.other cpuset earlier
    · obtain ⟨-, rfl⟩ := Prod.mk.inj new
      exact ⟨cpu, rfl, range⟩
  case worker =>
    intro core cpuset member worker
    rw [config_eq]
    exact right.worker core cpuset (earlier member worker) worker
  case distinct =>
    intro core₁ cpuset₁ core₂ cpuset₂ member₁ member₂ worker₁ worker₂
    exact right.distinct core₁ cpuset₁ core₂ cpuset₂ (earlier member₁ worker₁)
      (earlier member₂ worker₂) worker₁ worker₂

/-- A worker is pinned to a core that no other worker has. -/
theorem PinnedRight.assignWorker
    {core cpu : Int32}
    (right : lib.PinnedRight)
    (config_eq : after.globalConfig = lib.globalConfig)
    (assigned_eq : after.assigned = lib.assigned ++ [(core, [cpu])])
    (completes : after.phase = .started →
      ∀ core, after.globalConfig.Assignable core → ∀ affinity schedparam,
        (lpelThreadAssign after.hw after.globalConfig core affinity
          schedparam).isSome = true)
    (worker : core ≠ lpelMapOthers)
    (range : 0 ≤ cpu.toInt ∧ cpu.toInt < lib.globalConfig.procWorkers.toInt)
    (apart : ∀ core' cpuset, (core', cpuset) ∈ lib.assigned →
      core' ≠ lpelMapOthers → core' ≠ core → cpuset ≠ [cpu]) :
    after.PinnedRight := by
  constructor
  case completes => exact completes
  case other =>
    intro cpuset member
    rw [config_eq]
    rw [assigned_eq, List.mem_append, List.mem_singleton] at member
    obtain earlier | new := member
    · exact right.other cpuset earlier
    · exact absurd (Prod.mk.inj new).1.symm worker
  case worker =>
    intro core' cpuset member worker'
    rw [config_eq]
    rw [assigned_eq, List.mem_append, List.mem_singleton] at member
    obtain earlier | new := member
    · exact right.worker core' cpuset earlier worker'
    · obtain ⟨rfl, rfl⟩ := Prod.mk.inj new
      exact ⟨cpu, rfl, range⟩
  case distinct =>
    intro core₁ cpuset₁ core₂ cpuset₂ member₁ member₂ worker₁ worker₂ distinct
    rw [assigned_eq, List.mem_append, List.mem_singleton] at member₁ member₂
    obtain earlier₁ | new₁ := member₁
    · obtain earlier₂ | new₂ := member₂
      · exact right.distinct core₁ cpuset₁ core₂ cpuset₂ earlier₁ earlier₂
          worker₁ worker₂ distinct
      · obtain ⟨rfl, rfl⟩ := Prod.mk.inj new₂
        exact apart core₁ cpuset₁ earlier₁ worker₁ distinct
    · obtain ⟨rfl, rfl⟩ := Prod.mk.inj new₁
      obtain earlier₂ | new₂ := member₂
      · exact (apart core₂ cpuset₂ earlier₂ worker₂ distinct.symm).symm
      · exact absurd (Prod.mk.inj new₂).1.symm distinct

/-- Pinning stays right under the condition. -/
theorem PinnedRight.step
    {label : CycleLabel}
    (right : lib.PinnedRight)
    (cycling : lib.Cycling)
    (ok : lib.PositionOk label)
    (taken : lib.step label = some after) :
    after.PinnedRight := by
  have completes := (cycling.step taken).completes
  obtain ⟨platform, cfg, rfl, rfl⟩ | ⟨rfl, -, -, split⟩ |
    ⟨core, affinity, schedparam, rfl, started, assignable, rfl⟩ |
    ⟨rfl, rfl⟩ := step_cases cycling taken
  · exact (cycling.step taken).pinnedRight_nil rfl
  · constructor
    case completes => exact completes
    case other =>
      rw [split]
      exact right.other
    case worker =>
      rw [split]
      exact right.worker
    case distinct =>
      rw [split]
      exact right.distinct
  · by_cases other : core = lpelMapOthers
    · rw [PositionOk, if_pos other] at ok
      simp only [if_pos other] at completes ⊢
      subst other
      exact right.assignOther rfl rfl completes
        ((started.position_iff cycling).mpr ok)
    · rw [← started.apart_iff cycling assignable other] at ok
      simp only [if_neg other] at completes ⊢
      exact right.assignWorker rfl rfl completes other
        (started.worker_range assignable other) ok
  · exact
      { other := right.other
        worker := right.worker
        distinct := right.distinct
        completes := completes }

/-- Pinning is lost with every step that does not meet the condition. -/
theorem PinnedRight.positionOk
    {label : CycleLabel}
    (cycling : lib.Cycling)
    (taken : lib.step label = some after)
    (right : after.PinnedRight) :
    lib.PositionOk label := by
  obtain ⟨platform, cfg, rfl, -⟩ | ⟨rfl, -⟩ |
    ⟨core, affinity, schedparam, rfl, started, assignable, rfl⟩ |
    ⟨rfl, -⟩ := step_cases cycling taken
  · exact trivial
  · exact trivial
  · by_cases other : core = lpelMapOthers
    · subst other
      obtain ⟨cpu, same, range⟩ := right.other
        [lib.hw.rotOthers + lib.hw.offsetOthers] (by simp)
      obtain rfl := List.head_eq_of_cons_eq same
      rw [PositionOk, if_pos rfl]
      exact (started.position_iff cycling).mp range
    · rw [← started.apart_iff cycling assignable other]
      intro core' cpuset member worker apart
      exact right.distinct core' cpuset core _ (by simp [member])
        (by simp [if_neg other]) worker other apart
  · exact trivial

end Library

/-- Exclusive pinning is one-to-one along exactly the runs in which the position
that earlier calls have left is below the number of cores for other threads at
every call for such a thread, and, if the number of cores is not known, no two
workers have the same remainder. -/
theorem pinning_iff (labels : List CycleLabel) :
    cycleMachine.HoldsAlong Library.PinnedRight Library.initial labels ↔
      cycleMachine.StepsMeet Library.PositionOk Library.initial labels := by
  refine Machine.holdsAlong_iff_stepsMeet
    (fun lib => lib.Cycling ∧ lib.PinnedRight) ?_ ?_ ?_ ?_ labels
  · rintro lib ⟨-, right⟩
    exact right
  · rintro lib label after ⟨cycling, right⟩ taken ok
    exact ⟨cycling.step taken, right.step cycling ok taken⟩
  · rintro lib label after ⟨cycling, -⟩ taken right
    exact right.positionOk cycling taken
  · exact ⟨.initial, Library.Cycling.initial.pinnedRight_nil rfl⟩

/-- A pinned and exclusive configuration. -/
def exclusiveConfig (workers procOthers : Int32) : LpelConfig where
  numWorkers := workers
  procWorkers := workers
  procOthers := procOthers
  flags := 3
  type := .decenLpel

/-- A cycle on four cores, with the given calls. -/
def cycle (cfg : LpelConfig) (cores : List Int32) : List CycleLabel :=
  [.init ⟨some 4, none⟩ cfg, .start] ++
    cores.map (fun core => .assign core true true) ++ [.cleanup]

/-- The condition on a position where the number of cores is known. -/
def positionTest (lib : Library) : CycleLabel → Bool
  | .assign core _ _ =>
      decide (lib.hw.puCount ≠ lpelErrFail ∧ (core = lpelMapOthers →
        lib.hw.rotOthers.toInt < lib.globalConfig.procOthers.toInt))
  | _ => true

/-- The number of cores for other threads grows from one cycle to the next. -/
theorem pinning_iff_growing :
    (cycleMachine.run Library.initial
      (cycle (exclusiveConfig 2 1) [0, 1, -1, -1] ++
        cycle (exclusiveConfig 2 2) [-1, 1, -1, 0])).isSome = true ∧
    cycleMachine.HoldsAlong Library.PinnedRight Library.initial
      (cycle (exclusiveConfig 2 1) [0, 1, -1, -1] ++
        cycle (exclusiveConfig 2 2) [-1, 1, -1, 0]) := by
  refine ⟨by decide, (pinning_iff _).mpr ?_⟩
  refine Machine.stepsMeet_of_runBy ?_
    (by decide : (cycleMachine.runBy positionTest Library.initial _).isSome = true)
  intro lib label tested
  cases label with
  | assign core affinity schedparam =>
      obtain ⟨known, position⟩ := of_decide_eq_true tested
      rw [Library.PositionOk]
      split
      case isTrue other => exact position other
      case isFalse => exact fun unknown => absurd unknown known
  | _ => trivial

/-- The number of cores for other threads shrinks from three to one.  The thread
of the second cycle is pinned to core 3, where only core 1 is for such threads. -/
theorem pinning_shrinking :
    ∃ lib, cycleMachine.Reachable lib ∧ lib.phase = .started ∧
      lib.globalConfig.procWorkers = 1 ∧ lib.globalConfig.procOthers = 1 ∧
      lib.assigned = [(lpelMapOthers, [3])] ∧ ¬lib.PinnedRight := by
  obtain ⟨lib, reached, tested⟩ := Machine.exists_reachable_of_run
    (rfl : cycleMachine.init Library.initial)
    (by decide : (cycleMachine.run Library.initial
      (cycle (exclusiveConfig 1 3) [-1, -1] ++
        [.init ⟨some 4, none⟩ (exclusiveConfig 1 1), .start,
          .assign (-1) true true])).map
      (fun lib => decide (lib.phase = .started ∧
        lib.globalConfig.procWorkers = 1 ∧ lib.globalConfig.procOthers = 1 ∧
        lib.assigned = [(lpelMapOthers, [3])])) = some true)
  obtain ⟨phase, workers, others, assigned⟩ := of_decide_eq_true tested
  refine ⟨lib, reached, phase, workers, others, assigned, ?_⟩
  intro right
  obtain ⟨cpu, same, -, less⟩ := right.other [3] (by rw [assigned]; simp)
  obtain rfl := List.head_eq_of_cons_eq same
  rw [LpelConfig.sum, workers, others] at less
  exact absurd less (by decide)

end Lpel
