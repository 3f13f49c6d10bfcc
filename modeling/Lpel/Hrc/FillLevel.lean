import Lpel.Hrc.Priority
import Lpel.Hrc.StreamInvariant

/-!
# The fill level of a stream

The master reads the number of records in a stream as `write_cnt - read_cnt`.
The producer counts an item after it has made the item readable, and the consumer
counts it after the pop, so the consumer may be the first to count.  The
difference is then `-1`, which is also the mark of an entry or an exit task.

The master takes no lock.  It loads the two counters one after the other, in an
order that is left open, and both sides go on between the two loads.  A counter
that was loaded early may be passed by the other one in the meantime.

The counters are of type `int` and wrap around.
-/

namespace Lpel
namespace Hrc

open TaskPriority

variable {α : Type}

/-- `LpelStreamFillLevel` for the counters `write_cnt` and `read_cnt` that it has
loaded, where `none` is the stream `NULL`. -/
def lpelStreamFillLevel : Option (ℤ × ℤ) → ℤ
  | none => 0
  | some (writeCnt, readCnt) => wrapInt (writeCnt - readCnt)

/-- The items that were put and not yet popped. -/
def Stream.items (stream : Stream α) : ℕ :=
  stream.written.length - stream.popped.length

namespace WritePc

/-- The item that was put and is not yet in `write_cnt`. -/
def uncounted : WritePc α → ℕ
  | .vN | .lookup | .unblock | .count => 1
  | _ => 0

/-- The producer is between the V operation and `write_cnt++`. -/
def released : WritePc α → Bool
  | .lookup | .unblock | .count => true
  | _ => false

end WritePc

/-- The item that was popped and is not yet in `read_cnt`. -/
def ReadPc.uncounted : ReadPc α → ℕ
  | .release _ | .typeTest | .vE | .lookup | .unblock | .count => 1
  | _ => 0

/-- The consumer does not count the last item of the stream before the producer
does.  The producer does not count an item of a stream with `2 ^ 31 - 1` items
before the consumer counts the one that it has popped. -/
def CountsInOrder (stream : Stream α) : StreamLabel α → Prop
  | .cons => stream.cons = .count → stream.prod.released = true →
      lpelBufferIsEmpty stream.buffer = false
  | .prod _ => stream.prod = .count → stream.cons.uncounted = 1 →
      stream.items ≠ 2 ^ 31 - 1
  | _ => True

/-- The counters in terms of what was put and popped. -/
structure Counters (stream : Stream α) : Prop where
  written : stream.written.length = stream.writeCnt + stream.prod.uncounted
  popped : stream.popped.length = stream.readCnt + stream.cons.uncounted

/-- What a step does to the counters. -/
inductive CountStep (before : Stream α) :
    StreamLabel α → Stream α → Prop
  | none {label : StreamLabel α} {after : Stream α}
      (writes : after.writeCnt = before.writeCnt)
      (reads : after.readCnt = before.readCnt)
      (notRead : label = .cons → before.cons ≠ .count)
      (notWritten : ∀ address, label = .prod address →
        before.prod ≠ .count) :
      CountStep before label after
  | write {address : ℕ} {after : Stream α}
      (position : before.prod = .count)
      (writes : after.writeCnt = before.writeCnt + 1)
      (reads : after.readCnt = before.readCnt) :
      CountStep before (.prod address) after
  | read {after : Stream α}
      (position : before.cons = .count)
      (writes : after.writeCnt = before.writeCnt)
      (reads : after.readCnt = before.readCnt + 1) :
      CountStep before .cons after

variable {before after stream : Stream α} {label : StreamLabel α}

theorem CountStep.of_next
    (taken : streamNext before label = some after) :
    CountStep before label after := by
  cases StreamStep.of_next taken with
  | countWrite position => exact .write position rfl rfl
  | countRead position => exact .read position rfl rfl
  | freeStream frees =>
      rcases frees with rfl | rfl <;>
        exact .none rfl rfl (by simp) (by simp)
  | _ => exact .none rfl rfl (by simp [*]) (by simp [*])

/-- The counters follow what was put and popped. -/
theorem Counters.step
    (counters : Counters before)
    (taken : streamNext before label = some after) :
    Counters after := by
  obtain ⟨written, popped⟩ := counters
  cases StreamStep.of_next taken with
  | openWrite | openRead | closeOut | takeOver => exact ⟨written, popped⟩
  | writeEntry position | writeOther position | reserveNone position
  | reserveSome position | block position | alloc position | link position
  | advance position | releaseWaiting position | release position
  | lookup position | unblock position | countWrite position
  | resumeProd position =>
      refine ⟨?_, popped⟩
      simpa [position, WritePc.uncounted] using written
  | readNone position | readSome position | blockRead position | top position
  | pop position | free position | testEntry position | testOther position
  | spaceWaiting position | space position | lookupProd position
  | unblockProd position | countRead position | pool position
  | resumeCons position | freeStream _ position =>
      refine ⟨written, ?_⟩
      simpa [position, ReadPc.uncounted] using popped

/-- The invariant of the runs in which the two sides count in order. -/
structure Level (stream : Stream α) : Prop where
  invariant : Invariant stream
  counters : Counters stream
  few : stream.items < 2 ^ 31
  nonneg : stream.readCnt ≤ stream.writeCnt
  bounded : stream.writeCnt < stream.readCnt + 2 ^ 31

/-- Between its V operation and its `write_cnt++` the producer sees all entries
linked. -/
theorem Invariant.isEmpty_iff
    (invariant : Invariant stream)
    (released : stream.prod.released = true) :
    lpelBufferIsEmpty stream.buffer = true ↔
      stream.written.length = stream.popped.length := by
  obtain ⟨nodes, shape, fifo⟩ := invariant.shape
  have spells := shape.spells
  have ahead : stream.prod.ahead = [] := by
    cases position : stream.prod <;> simp_all [WritePc.released, WritePc.ahead]
  rw [ahead, List.append_nil] at spells
  rw [fifo, List.length_append, List.length_map]
  cases nodes with
  | nil =>
      obtain ⟨data, cell⟩ := spells.linked
      simp [lpelBufferIsEmpty, nextEntry, cell]
  | cons node rest => simp [lpelBufferIsEmpty, spells.nextEntry_head]

/-- No item is popped before it is put, and none before its V operation. -/
theorem Invariant.popped_le
    (invariant : Invariant stream) :
    stream.popped.length ≤ stream.written.length := by
  obtain ⟨nodes, -, fifo⟩ := invariant.shape
  rw [fifo, List.length_append]
  omega

theorem Invariant.popped_lt
    (invariant : Invariant stream)
    (reader : stream.cons = .count)
    (writer : stream.prod = .vN) :
    stream.popped.length < stream.written.length := by
  have count := invariant.account.count
  have signal := invariant.account.signal
  simp only [reader, writer, WritePc.unreleased, ReadPc.reserved,
    ReadPc.waits, Bool.false_eq_true, if_false] at count signal
  omega

/-- The level of two loaded counters is their difference, wrapped around. -/
theorem fillLevel_eq_wrap (writeCnt readCnt : ℤ) :
    lpelStreamFillLevel (some (wrapInt writeCnt, wrapInt readCnt)) =
      wrapInt (writeCnt - readCnt) := by
  rw [lpelStreamFillLevel, wrapInt, wrapInt, wrapInt, Int.bmod_sub_bmod,
    Int.sub_bmod_bmod]
  rfl

/-- A difference that is small enough does not wrap around. -/
theorem fillLevel_eq
    (writeCnt readCnt : ℤ)
    (lower : readCnt ≤ writeCnt + 2 ^ 31)
    (upper : writeCnt < readCnt + 2 ^ 31) :
    lpelStreamFillLevel (some (wrapInt writeCnt, wrapInt readCnt)) =
      writeCnt - readCnt := by
  rw [fillLevel_eq_wrap]
  exact wrapInt_of_range (by omega) (by omega)

/-- The level if both counters are loaded at the same moment. -/
def Stream.level (stream : Stream α) : ℤ :=
  lpelStreamFillLevel
    (some (wrapInt stream.writeCnt, wrapInt stream.readCnt))

namespace Level

theorem level_nonneg
    (level : Level stream) :
    0 ≤ stream.level := by
  have nonneg := level.nonneg
  have bounded := level.bounded
  rw [Stream.level, fillLevel_eq _ _ (by omega) (by omega)]
  omega

theorem create (size : StreamSize) :
    Level (lpelStreamCreate size : Stream α) where
  invariant := Invariant.create size
  counters := ⟨rfl, rfl⟩
  few := by simp [Stream.items, lpelStreamCreate]
  nonneg := le_rfl
  bounded := by simp [lpelStreamCreate]

/-- The consumer counts an item.  The level falls below 0 if it was the last one
and the producer has not counted it. -/
theorem read_iff
    (level : Level stream)
    (position : stream.cons = .count) :
    stream.readCnt + 1 ≤ stream.writeCnt ↔
      (stream.prod.released = true →
        lpelBufferIsEmpty stream.buffer = false) := by
  obtain ⟨written, popped⟩ := level.counters
  have popped_le := level.invariant.popped_le
  rw [position] at popped
  cases writer : stream.prod with
  | vN =>
      have popped_lt := level.invariant.popped_lt position writer
      simp only [writer, WritePc.uncounted, ReadPc.uncounted] at written popped
      simp only [WritePc.released, Bool.false_eq_true, false_implies, iff_true]
      omega
  | lookup | unblock | count =>
      have empty := level.invariant.isEmpty_iff (by simp [writer,
        WritePc.released])
      simp only [writer, WritePc.uncounted, ReadPc.uncounted] at written popped
      simp only [WritePc.released, true_implies]
      rw [← Bool.not_eq_true, empty]
      omega
  | _ =>
      simp only [writer, WritePc.uncounted, ReadPc.uncounted] at written popped
      simp only [WritePc.released, Bool.false_eq_true, false_implies, iff_true]
      omega

/-- The producer counts an item.  The level wraps around if the stream is full
of items and the consumer has not counted the one that it has popped. -/
theorem write_iff
    (level : Level stream)
    (position : stream.prod = .count) :
    stream.writeCnt + 1 < stream.readCnt + 2 ^ 31 ↔
      (stream.cons.uncounted = 1 → stream.items ≠ 2 ^ 31 - 1) := by
  obtain ⟨written, popped⟩ := level.counters
  have popped_le := level.invariant.popped_le
  have few := level.few
  have uncounted : stream.cons.uncounted ≤ 1 := by
    cases stream.cons <;> simp [ReadPc.uncounted]
  simp only [position, WritePc.uncounted] at written
  unfold Stream.items at few ⊢
  omega

/-- The invariant is kept by a step that counts in order. -/
theorem step
    (level : Level before)
    (taken : streamNext before label = some after)
    (few : after.items < 2 ^ 31)
    (inOrder : CountsInOrder before label) :
    Level after := by
  have invariant := level.invariant.step taken
  have counters := level.counters.step taken
  have nonneg := level.nonneg
  have bounded := level.bounded
  cases CountStep.of_next taken with
  | none writes reads =>
      exact ⟨invariant, counters, few, by omega, by omega⟩
  | write position writes reads =>
      have upper := (level.write_iff position).mpr (inOrder position)
      exact ⟨invariant, counters, few, by omega, by omega⟩
  | read position writes reads =>
      have lower := (level.read_iff position).mpr (inOrder position)
      exact ⟨invariant, counters, few, by omega, by omega⟩

/-- A step that does not count in order makes the level negative. -/
theorem inOrder
    (level : Level before)
    (taken : streamNext before label = some after)
    (nonneg : 0 ≤ after.level) :
    CountsInOrder before label := by
  have lower := level.nonneg
  have upper := level.bounded
  cases CountStep.of_next taken with
  | none writes reads notRead notWritten =>
      cases label with
      | cons => exact fun position => absurd position (notRead rfl)
      | prod address => exact fun position => absurd position (notWritten _ rfl)
      | _ => trivial
  | write position writes reads =>
      intro _
      refine (level.write_iff position).mp ?_
      by_contra wraps
      have full : (after.writeCnt : ℤ) - after.readCnt = 2 ^ 31 := by omega
      rw [Stream.level, fillLevel_eq_wrap, full] at nonneg
      exact absurd nonneg (by decide)
  | read position writes reads =>
      intro _
      refine (level.read_iff position).mp ?_
      rw [Stream.level, fillLevel_eq _ _ (by omega) (by omega)] at nonneg
      omega

end Level

/-! ## The master -/

/-- Where the master is in `LpelStreamFillLevel`. -/
inductive SamplePc
  | idle
  /-- It has loaded `write_cnt`. -/
  | write (writeCnt : ℤ)
  /-- It has loaded `read_cnt`. -/
  | read (readCnt : ℤ)
  deriving DecidableEq

/-- A stream and the master that samples it. -/
structure Sampled (α : Type) where
  stream : Stream α
  master : SamplePc
  /-- History: the levels that were returned to the master. -/
  returned : List ℤ

/-- A step of the stream, or a load of the master. -/
inductive SampleLabel (α : Type)
  | stream (label : StreamLabel α)
  | loadWrite
  | loadRead

/-- The master has loaded both counters. -/
def Sampled.finish (sampled : Sampled α) (writeCnt readCnt : ℤ) : Sampled α :=
  { sampled with
    master := .idle
    returned :=
      lpelStreamFillLevel (some (writeCnt, readCnt)) :: sampled.returned }

/-- One step.  The counters are loaded in either order. -/
def sampleNext (sampled : Sampled α) :
    SampleLabel α → Option (Sampled α)
  | .stream label =>
      ((streamNext sampled.stream label).filter
        fun after => after.items < 2 ^ 31).map
          fun after => { sampled with stream := after }
  | .loadWrite =>
      let writeCnt := wrapInt sampled.stream.writeCnt
      match sampled.master with
      | .idle => some { sampled with master := .write writeCnt }
      | .write _ => none
      | .read readCnt => some (sampled.finish writeCnt readCnt)
  | .loadRead =>
      let readCnt := wrapInt sampled.stream.readCnt
      match sampled.master with
      | .idle => some { sampled with master := .read readCnt }
      | .write writeCnt => some (sampled.finish writeCnt readCnt)
      | .read _ => none

/-- A new stream that was not sampled. -/
def sampleStart (size : StreamSize) : Sampled α where
  stream := lpelStreamCreate size
  master := .idle
  returned := []

/-- A stream of the given size with fewer than `2 ^ 31` items and the master that
samples it at any moment. -/
def sampleMachine (α : Type) (size : StreamSize) :
    Machine (Sampled α) (SampleLabel α) where
  init := fun sampled => sampled = sampleStart size
  next := sampleNext

namespace Sampled

/-- The level that the master returns if it makes its remaining loads now. -/
def remaining (sampled : Sampled α) : ℤ :=
  match sampled.master with
  | .idle => sampled.stream.level
  | .write writeCnt =>
      lpelStreamFillLevel
        (some (writeCnt, wrapInt sampled.stream.readCnt))
  | .read readCnt =>
      lpelStreamFillLevel
        (some (wrapInt sampled.stream.writeCnt, readCnt))

/-- No level is negative: none that was returned, not the one that the master
gets by its remaining loads, and not the one of both loads. -/
structure NeverNegative (sampled : Sampled α) : Prop where
  returned : ∀ level ∈ sampled.returned, 0 ≤ level
  remaining : 0 ≤ sampled.remaining
  level : 0 ≤ sampled.stream.level

end Sampled

/-- While the master has loaded `write_cnt` the consumer does not count past it.
While the master has loaded `read_cnt` the producer does not count `2 ^ 31` items
ahead of it. -/
def KeepsLoaded (stream : Stream α) : SamplePc → StreamLabel α → Prop
  | .write writeCnt, .cons =>
      stream.cons = .count → wrapInt stream.readCnt ≠ writeCnt
  | .read readCnt, .prod _ =>
      stream.prod = .count →
        wrapInt stream.writeCnt ≠ wrapInt (readCnt + (2 ^ 31 - 1))
  | _, _ => True

/-- The two sides count in order, and in order with the counter that the master
has loaded. -/
def SamplesInOrder (sampled : Sampled α) : SampleLabel α → Prop
  | .stream label =>
      CountsInOrder sampled.stream label ∧
        KeepsLoaded sampled.stream sampled.master label
  | _ => True

/-- The loaded counter is not passed by the other one. -/
def Loaded (stream : Stream α) : SamplePc → Prop
  | .idle => True
  | .write writeCnt =>
      ∃ count : ℕ, wrapInt count = writeCnt ∧ stream.readCnt ≤ count ∧
        count < stream.readCnt + 2 ^ 31
  | .read readCnt =>
      ∃ count : ℕ, wrapInt count = readCnt ∧ count ≤ stream.writeCnt ∧
        stream.writeCnt < count + 2 ^ 31

/-- The invariant of the runs in which no level is negative. -/
structure SampleLevel (sampled : Sampled α) : Prop where
  level : Level sampled.stream
  loaded : Loaded sampled.stream sampled.master
  returned : ∀ level ∈ sampled.returned, 0 ≤ level

/-- Counters that are near each other wrap to different values. -/
theorem eq_of_wrapInt_eq
    {first second : ℤ}
    (same : wrapInt first = wrapInt second)
    (lower : second - 2 ^ 31 ≤ first)
    (upper : first < second + 2 ^ 31) :
    first = second := by
  have zero : wrapInt (first - second) = 0 :=
    Int.bmod_eq_bmod_iff_bmod_sub_eq_zero.mp same
  rw [wrapInt_of_range (by omega) (by omega)] at zero
  omega

/-- A step of the stream keeps the order of the loaded counter exactly if it does
not count past it. -/
theorem Loaded.step
    {master : SamplePc}
    (loaded : Loaded before master)
    (counted : CountStep before label after)
    (keeps : KeepsLoaded before master label) :
    Loaded after master := by
  cases master with
  | idle => trivial
  | write writeCnt =>
      obtain ⟨count, rfl, lower, upper⟩ := loaded
      refine ⟨count, rfl, ?_⟩
      cases counted with
      | none writes reads | write _ writes reads => omega
      | read position writes reads =>
          have passes : before.readCnt ≠ count := by
            rintro rfl
            exact keeps position rfl
          omega
  | read readCnt =>
      obtain ⟨count, rfl, lower, upper⟩ := loaded
      refine ⟨count, rfl, ?_⟩
      cases counted with
      | none writes reads | read _ writes reads => omega
      | write position writes reads =>
          have passes : before.writeCnt ≠ count + (2 ^ 31 - 1) := by
            intro full
            refine keeps position ?_
            rw [wrapInt_wrapInt_add, full]
            push_cast
            rfl
          omega

namespace SampleLevel

variable {sampled next : Sampled α} {sampleLabel : SampleLabel α}

theorem neverNegative
    (held : SampleLevel sampled) :
    sampled.NeverNegative := by
  refine ⟨held.returned, ?_, held.level.level_nonneg⟩
  have loaded := held.loaded
  unfold Sampled.remaining
  cases position : sampled.master with
  | idle => exact held.level.level_nonneg
  | write writeCnt =>
      rw [position] at loaded
      obtain ⟨count, rfl, lower, upper⟩ := loaded
      dsimp only
      rw [fillLevel_eq count sampled.stream.readCnt (by omega) (by omega)]
      omega
  | read readCnt =>
      rw [position] at loaded
      obtain ⟨count, rfl, lower, upper⟩ := loaded
      dsimp only
      rw [fillLevel_eq sampled.stream.writeCnt count (by omega) (by omega)]
      omega

/-- A load finds counters that are not passed. -/
theorem finish
    (held : SampleLevel sampled)
    {writeCnt readCnt : ℤ}
    (nonneg : 0 ≤ lpelStreamFillLevel (some (writeCnt, readCnt))) :
    SampleLevel (sampled.finish writeCnt readCnt) where
  level := held.level
  loaded := trivial
  returned := List.forall_mem_cons.mpr ⟨nonneg, held.returned⟩

/-- The invariant is kept by a step that is in order. -/
theorem step
    (held : SampleLevel sampled)
    (taken : sampleNext sampled sampleLabel = some next)
    (inOrder : SamplesInOrder sampled sampleLabel) :
    SampleLevel next := by
  have lower := held.level.nonneg
  have upper := held.level.bounded
  have remaining := held.neverNegative.remaining
  cases sampleLabel with
  | stream label =>
      obtain ⟨after, filtered, rfl⟩ := Option.map_eq_some_iff.mp taken
      obtain ⟨taken, few⟩ := Option.filter_eq_some_iff.mp filtered
      exact ⟨held.level.step taken (of_decide_eq_true few) inOrder.1,
        held.loaded.step (CountStep.of_next taken) inOrder.2, held.returned⟩
  | loadWrite =>
      cases position : sampled.master with
      | idle =>
          simp only [sampleNext, position, Option.some.injEq] at taken
          obtain rfl := taken
          exact ⟨held.level, ⟨_, rfl, lower, upper⟩, held.returned⟩
      | write => simp [sampleNext, position] at taken
      | read readCnt =>
          simp only [sampleNext, position, Option.some.injEq] at taken
          obtain rfl := taken
          simp only [Sampled.remaining, position] at remaining
          exact held.finish remaining
  | loadRead =>
      cases position : sampled.master with
      | idle =>
          simp only [sampleNext, position, Option.some.injEq] at taken
          obtain rfl := taken
          exact ⟨held.level, ⟨_, rfl, lower, upper⟩, held.returned⟩
      | read => simp [sampleNext, position] at taken
      | write writeCnt =>
          simp only [sampleNext, position, Option.some.injEq] at taken
          obtain rfl := taken
          simp only [Sampled.remaining, position] at remaining
          exact held.finish remaining

/-- A step that counts past the loaded counter makes the level negative that the
master gets by its remaining load. -/
theorem keepsLoaded
    (held : SampleLevel sampled)
    (counted : CountStep sampled.stream label after)
    (nonneg : 0 ≤ { sampled with stream := after }.remaining) :
    KeepsLoaded sampled.stream sampled.master label := by
  have loaded := held.loaded
  unfold Sampled.remaining at nonneg
  cases position : sampled.master with
  | idle => cases label <;> trivial
  | write writeCnt =>
      rw [position] at loaded nonneg
      obtain ⟨count, rfl, lower, upper⟩ := loaded
      cases counted with
      | none _ _ notRead =>
          cases label with
          | cons => exact fun counts => absurd counts (notRead rfl)
          | _ => trivial
      | write => trivial
      | read _ _ reads =>
          intro _ same
          have reached := eq_of_wrapInt_eq same (by omega) (by omega)
          dsimp only at nonneg
          rw [fillLevel_eq count after.readCnt (by omega) (by omega)] at nonneg
          omega
  | read readCnt =>
      rw [position] at loaded nonneg
      obtain ⟨count, rfl, lower, upper⟩ := loaded
      cases counted with
      | none _ _ _ notWritten =>
          cases label with
          | prod address =>
              exact fun counts => absurd counts (notWritten address rfl)
          | _ => trivial
      | read => trivial
      | write _ writes =>
          intro _ same
          rw [wrapInt_wrapInt_add] at same
          have reached := eq_of_wrapInt_eq same (by omega) (by omega)
          have full : (after.writeCnt : ℤ) - count = 2 ^ 31 := by omega
          dsimp only at nonneg
          rw [fillLevel_eq_wrap, full] at nonneg
          exact absurd nonneg (by decide)

/-- A step that is not in order makes a level negative. -/
theorem inOrder
    (held : SampleLevel sampled)
    (taken : sampleNext sampled sampleLabel = some next)
    (never : next.NeverNegative) :
    SamplesInOrder sampled sampleLabel := by
  cases sampleLabel with
  | stream label =>
      obtain ⟨after, filtered, rfl⟩ := Option.map_eq_some_iff.mp taken
      obtain ⟨taken, -⟩ := Option.filter_eq_some_iff.mp filtered
      exact ⟨held.level.inOrder taken never.level,
        held.keepsLoaded (CountStep.of_next taken) never.remaining⟩
  | loadWrite | loadRead => trivial

theorem start (size : StreamSize) :
    SampleLevel (sampleStart size : Sampled α) where
  level := Level.create size
  loaded := trivial
  returned := by simp [sampleStart]

/-- The invariant holds in every state of a run whose steps are in order. -/
theorem ofReachable
    {size : StreamSize}
    (reached : (sampleMachine α size).ReachableBy SamplesInOrder sampled) :
    SampleLevel sampled := by
  refine Machine.ReachableBy.invariant ?_ ?_ reached
  · rintro _ rfl
    exact start size
  · exact fun _ _ _ held inOrder taken => held.step taken inOrder

end SampleLevel

/-! ## What the master concludes -/

/-- What was read of the streams of a list, in runs whose steps are in order. -/
def AllInOrder (α : Type) (list : List (Option StreamView)) : Prop :=
  ∀ view, some view ∈ list →
    ∃ (size : StreamSize) (sampled : Sampled α),
      (sampleMachine α size).ReachableBy SamplesInOrder sampled ∧
        view.fillLevel ∈ sampled.returned

/-- The list is empty, or it has an entry stream (on the output side an exit
stream) and its other streams are empty. -/
def IsEnd (list : List (Option StreamView)) (inout : InOut) : Prop :=
  list = [] ∨
    (∃ view, some view ∈ list ∧ inout.notCounted view.type = true) ∧
    ∀ view, some view ∈ list → inout.notCounted view.type = false →
      view.fillLevel = 0

/-- The list is not empty and has no entry stream (on the output side no exit
stream). -/
def IsMiddle (list : List (Option StreamView)) (inout : InOut) : Prop :=
  list ≠ [] ∧
    ∀ view, some view ∈ list → inout.notCounted view.type = false

/-- The sum of the records does not wrap around to the sentinel, and in a list
with an entry stream (on the output side an exit stream) it does not wrap around
to 0. -/
structure SumFits (list : List (Option StreamView)) (inout : InOut) :
    Prop where
  sentinel : ¬ 2 ^ 32 ∣ recordSum inout list + 1
  zero : (∃ view, some view ∈ list ∧ inout.notCounted view.type = true) →
    2 ^ 32 ∣ recordSum inout list → recordSum inout list = 0

theorem wrapInt_eq_zero_iff {value : ℤ} :
    wrapInt value = 0 ↔ 2 ^ 32 ∣ value :=
  Int.dvd_iff_bmod_eq_zero.symm

theorem wrapInt_eq_neg_one_iff {value : ℤ} :
    wrapInt value = -1 ↔ 2 ^ 32 ∣ value + 1 := by
  rw [← wrapInt_eq_zero_iff]
  constructor
  · intro sentinel
    rw [← wrapInt_wrapInt_add, sentinel]
    rfl
  · intro zero
    have same := wrapInt_wrapInt_add (value + 1) (-1)
    rw [zero, add_neg_cancel_right] at same
    rw [← same]
    rfl

section Lists

variable {list : List (Option StreamView)} {inout : InOut}

/-- No stream of the list takes records away from the count. -/
theorem AllInOrder.records_nonneg
    (allInOrder : AllInOrder α list) :
    ∀ records ∈ list.map (recordsOf inout), 0 ≤ records := by
  simp only [List.mem_map]
  rintro records ⟨elem, member, rfl⟩
  cases elem with
  | none => exact le_rfl
  | some view =>
      simp only [recordsOf]
      split
      · exact le_rfl
      · obtain ⟨size, sampled, reached, returned⟩ := allInOrder view member
        exact (SampleLevel.ofReachable reached).returned _ returned

theorem any_isOpenEnd_iff :
    list.any (isOpenEnd inout) = true ↔
      ∃ view, some view ∈ list ∧ inout.notCounted view.type = true := by
  rw [List.any_eq_true]
  constructor
  · rintro ⟨elem, member, ends⟩
    cases elem with
    | none => exact absurd ends (by simp [isOpenEnd])
    | some view => exact ⟨view, member, ends⟩
  · rintro ⟨view, member, ends⟩
    exact ⟨some view, member, ends⟩

/-- The records of a list add up to 0 only if its streams are empty. -/
theorem AllInOrder.recordSum_eq_zero_iff
    (allInOrder : AllInOrder α list) :
    recordSum inout list = 0 ↔
      ∀ view, some view ∈ list → inout.notCounted view.type = false →
        view.fillLevel = 0 := by
  constructor
  · intro zero view member counted
    have records := List.all_zero_of_le_zero_le_of_sum_eq_zero
      allInOrder.records_nonneg zero (List.mem_map_of_mem member)
    simpa [recordsOf, counted] using records
  · intro empty
    apply List.sum_eq_zero
    simp only [List.mem_map]
    rintro records ⟨elem, member, rfl⟩
    cases elem with
    | none => rfl
    | some view =>
        simp only [recordsOf]
        split
        · rfl
        · rename_i counted
          exact empty view member (Bool.eq_false_iff.mpr counted)

/-- The sum of the records is not negative. -/
theorem AllInOrder.recordSum_nonneg
    (allInOrder : AllInOrder α list) :
    0 ≤ recordSum inout list :=
  List.sum_nonneg allInOrder.records_nonneg

/-- A sum in the range of `int` is not mistaken. -/
theorem AllInOrder.sumFits
    (allInOrder : AllInOrder α list)
    (fits : recordSum inout list < 2 ^ 31) :
    SumFits list inout := by
  have nonneg : 0 ≤ recordSum inout list := allInOrder.recordSum_nonneg
  exact ⟨by omega, fun _ divides => by omega⟩

/-- The sentinel stands for the end of a network and for nothing else, exactly if
the sum does not wrap around to it. -/
theorem AllInOrder.countRec_eq_neg_one_iff
    (allInOrder : AllInOrder α list) :
    (countRec list inout = -1 ↔ IsEnd list inout) ↔ SumFits list inout := by
  have nonneg : 0 ≤ recordSum inout list := allInOrder.recordSum_nonneg
  have sum_nil : list = [] → recordSum inout list = 0 := by
    rintro rfl
    rfl
  have isEnd : IsEnd list inout ↔ list = [] ∨
      list.any (isOpenEnd inout) = true ∧ recordSum inout list = 0 := by
    rw [IsEnd, any_isOpenEnd_iff, allInOrder.recordSum_eq_zero_iff]
  have sumFits : SumFits list inout ↔ ¬ 2 ^ 32 ∣ recordSum inout list + 1 ∧
      (list.any (isOpenEnd inout) = true → 2 ^ 32 ∣ recordSum inout list →
        recordSum inout list = 0) := by
    rw [any_isOpenEnd_iff]
    exact ⟨fun fits => ⟨fits.sentinel, fits.zero⟩, fun fits => ⟨fits.1, fits.2⟩⟩
  have counted : countRec list inout = -1 ↔ (list = [] ∨
      list.any (isOpenEnd inout) = true ∧ 2 ^ 32 ∣ recordSum inout list) ∨
        2 ^ 32 ∣ recordSum inout list + 1 := by
    rw [countRec_eq, ← wrapInt_eq_zero_iff, ← wrapInt_eq_neg_one_iff]
    split
    · rename_i ends
      exact iff_of_true rfl (.inl ends)
    · rename_i goesOn
      exact (or_iff_right goesOn).symm
  rw [counted, isEnd, sumFits]
  by_cases sentinel : 2 ^ 32 ∣ recordSum inout list + 1
  · simp only [sentinel, or_true, true_iff, not_true_eq_false, false_and,
      iff_false]
    rintro (empty | ⟨-, zero⟩)
    · have zero := sum_nil empty
      omega
    · omega
  · simp only [sentinel, or_false, not_false_eq_true, true_and]
    constructor
    · intro same ends divides
      rcases same.mp (.inr ⟨ends, divides⟩) with empty | ⟨-, zero⟩
      · exact sum_nil empty
      · exact zero
    · intro zero
      constructor
      · rintro (empty | ⟨ends, divides⟩)
        · exact .inl empty
        · exact .inr ⟨ends, zero ends divides⟩
      · rintro (empty | ⟨ends, same⟩)
        · exact .inl empty
        · exact .inr ⟨ends, same ▸ dvd_zero _⟩

theorem IsMiddle.not_isEnd
    (middle : IsMiddle list inout) :
    ¬IsEnd list inout := by
  rintro (empty | ⟨⟨view, member, ends⟩, -⟩)
  · exact middle.1 empty
  · rw [middle.2 view member] at ends
    exact absurd ends (by simp)

/-- The count of a middle task is the sum of the records. -/
theorem IsMiddle.countRec_eq
    (middle : IsMiddle list inout) :
    countRec list inout = wrapInt (recordSum inout list) := by
  rw [TaskPriority.countRec_eq, if_neg]
  rintro (empty | ⟨ends, -⟩)
  · exact middle.1 empty
  · obtain ⟨view, member, ends⟩ := any_isOpenEnd_iff.mp ends
    rw [middle.2 view member] at ends
    exact absurd ends (by simp)

end Lists

/-- Along a run the level is never negative exactly if all of its steps are in
order.  For what the master reads in such runs `countRec` returns the sentinel
exactly for the end of a network, if and only if the sum does not wrap around to
it, and then the priority of a middle task is computed from two counts that are
not the sentinel. -/
theorem fillLevelInOrder
    {P : Type}
    [LinearOrder P]
    [BoundedOrder P] :
    (∀ (size : StreamSize) (labels : List (SampleLabel α)),
      (sampleMachine α size).HoldsAlong Sampled.NeverNegative
          (sampleStart size) labels ↔
        (sampleMachine α size).StepsMeet SamplesInOrder
          (sampleStart size) labels) ∧
    (∀ (list : List (Option StreamView)) (inout : InOut),
      AllInOrder α list →
      ((countRec list inout = -1 ↔ IsEnd list inout) ↔
        SumFits list inout)) ∧
    ∀ (view : SchedView) (policy : Policy P),
      AllInOrder α view.inStreams → AllInOrder α view.outStreams →
      SumFits view.inStreams .i → SumFits view.outStreams .o →
      IsMiddle view.inStreams .i → IsMiddle view.outStreams .o →
      ∃ inRec outRec : ℤ, inRec ≠ -1 ∧ outRec ≠ -1 ∧
        inRec = wrapInt (recordSum .i view.inStreams) ∧
        outRec = wrapInt (recordSum .o view.outStreams) ∧
        lpelTaskCalPriority policy view =
          policy.priorCal view.rand inRec outRec := by
  refine ⟨?_, ?_, ?_⟩
  · intro size labels
    apply Machine.holdsAlong_iff_stepsMeet SampleLevel
    · exact fun _ held => held.neverNegative
    · exact fun _ _ _ held taken inOrder => held.step taken inOrder
    · exact fun _ _ _ held taken never => held.inOrder taken never
    · exact SampleLevel.start size
  · intro list inout allInOrder
    exact allInOrder.countRec_eq_neg_one_iff
  · intro view policy inOrder outOrder inFits outFits inMiddle outMiddle
    have input : countRec view.inStreams .i ≠ -1 := fun sentinel =>
      inMiddle.not_isEnd
        ((inOrder.countRec_eq_neg_one_iff.mpr inFits).mp sentinel)
    have output : countRec view.outStreams .o ≠ -1 := fun sentinel =>
      outMiddle.not_isEnd
        ((outOrder.countRec_eq_neg_one_iff.mpr outFits).mp sentinel)
    refine ⟨_, _, input, output, inMiddle.countRec_eq, outMiddle.countRec_eq,
      ?_⟩
    simp only [lpelTaskCalPriority]
    rw [if_neg]
    rintro ⟨entry, -⟩
    exact input entry

/-- The producer has written and counted an item, the consumer has not read it,
and the master samples the stream. -/
def oneItem : List (SampleLabel ℕ) :=
  [.stream (.openWrite false), .stream (.openRead false), .stream (.write 7),
    .stream (.prod 1), .stream (.prod 0), .stream (.prod 0), .stream (.prod 0),
    .stream (.prod 0), .loadRead, .loadWrite]

/-- A stream of a middle task with one item. -/
def oneItemView : StreamView where
  type := .middle
  fillLevel := 1

/-- The priority of a task between two such streams. -/
theorem fillLevelInOrder_oneItem :
    AllInOrder ℕ [some oneItemView] ∧
      (countRec [some oneItemView] .i = -1 ↔ IsEnd [some oneItemView] .i) ∧
      ∀ policy : Policy Bool, ∃ inRec outRec : ℤ, inRec ≠ -1 ∧ outRec ≠ -1 ∧
        inRec = wrapInt (recordSum .i [some oneItemView]) ∧
        outRec = wrapInt (recordSum .o [some oneItemView]) ∧
        lpelTaskCalPriority policy
          { inStreams := [some oneItemView]
            outStreams := [some oneItemView]
            rand := 0 } = policy.priorCal 0 inRec outRec := by
  obtain ⟨sampled, reached, tested⟩ := Machine.exists_reachableBy_of_runBy
    (rfl : (sampleMachine ℕ streamBufferSize).init
      (sampleStart streamBufferSize))
    (by decide : ((sampleMachine ℕ streamBufferSize).runBy
      (fun sampled _ => decide (sampled.stream.cons.uncounted ≠ 1 ∧
        (sampled.stream.prod ≠ .count ∨ sampled.master = .idle)))
      (sampleStart streamBufferSize) oneItem).map
      (fun sampled => decide (1 ∈ sampled.returned)) = some true)
  have inOrder : AllInOrder ℕ [some oneItemView] := by
    intro view member
    obtain rfl : view = oneItemView := by simpa using member
    refine ⟨streamBufferSize, sampled, reached.mono ?_,
      of_decide_eq_true tested⟩
    intro before label met
    obtain ⟨uncounted, outside⟩ := of_decide_eq_true met
    cases label with
    | stream label =>
        cases label with
        | cons =>
            have elsewhere : before.stream.cons ≠ .count := by
              intro position
              simp [position, ReadPc.uncounted] at uncounted
            refine ⟨fun position => absurd position elsewhere, ?_⟩
            cases before.master with
            | write => exact fun position => absurd position elsewhere
            | _ => trivial
        | prod address =>
            refine ⟨fun _ counts => absurd counts uncounted, ?_⟩
            rcases outside with elsewhere | idle
            · cases before.master with
              | read => exact fun position => absurd position elsewhere
              | _ => trivial
            · rw [idle]
              trivial
        | _ => exact ⟨trivial, by cases before.master <;> trivial⟩
    | _ => trivial
  have fits (inout : InOut) : SumFits [some oneItemView] inout :=
    inOrder.sumFits (by cases inout <;> decide)
  have middle (inout : InOut) : IsMiddle [some oneItemView] inout := by
    cases inout <;> simp [IsMiddle, oneItemView, InOut.notCounted]
  obtain ⟨-, sentinel, priority⟩ := fillLevelInOrder (α := ℕ) (P := Bool)
  exact ⟨inOrder, (sentinel _ .i inOrder).mpr (fits .i), fun policy =>
    priority { inStreams := [some oneItemView]
               outStreams := [some oneItemView]
               rand := 0 }
      policy inOrder inOrder (fits .i) (fits .o) (middle .i) (middle .o)⟩

/-- The consumer counts the only item of the stream before the producer does. -/
def countedFirst : List (SampleLabel ℕ) :=
  [.stream (.openWrite false), .stream (.openRead false), .stream (.write 7),
    .stream (.prod 1), .stream (.prod 0), .stream (.prod 0), .stream (.prod 0),
    .stream .read, .stream .cons, .stream .cons, .stream .cons, .stream .cons,
    .stream .cons, .loadWrite, .loadRead]

/-- The producer and the consumer count an item in order, after the master has
loaded `write_cnt` and before it loads `read_cnt`. -/
def countedBetween : List (SampleLabel ℕ) :=
  [.stream (.openWrite false), .stream (.openRead false), .loadWrite,
    .stream (.write 7), .stream (.prod 1), .stream (.prod 0), .stream (.prod 0),
    .stream (.prod 0), .stream (.prod 0), .stream .read, .stream .cons,
    .stream .cons, .stream .cons, .stream .cons, .stream .cons, .loadRead]

/-- What the master reads of such a middle stream. -/
def negativeView : StreamView where
  type := .middle
  fillLevel := -1

/-- In both runs a task that reads a middle stream is taken for an entry task. -/
theorem fillLevel_countedFirst :
    (∃ sampled : Sampled ℕ,
      (sampleMachine ℕ streamBufferSize).run (sampleStart streamBufferSize)
        countedFirst = some sampled ∧
      sampled.stream.type = .middle ∧ sampled.returned = [-1]) ∧
    (∃ sampled : Sampled ℕ,
      (sampleMachine ℕ streamBufferSize).run (sampleStart streamBufferSize)
        countedBetween = some sampled ∧
      sampled.stream.type = .middle ∧ sampled.returned = [-1] ∧
      sampled.stream.level = 0) ∧
    countRec [some negativeView] .i = -1 ∧
    ¬IsEnd [some negativeView] .i := by
  have reads (labels : List (SampleLabel ℕ)) (test : Sampled ℕ → Bool)
      (tested : ((sampleMachine ℕ streamBufferSize).run
        (sampleStart streamBufferSize) labels).map test = some true) :
      ∃ sampled, (sampleMachine ℕ streamBufferSize).run
        (sampleStart streamBufferSize) labels = some sampled ∧
        test sampled = true :=
    Option.map_eq_some_iff.mp tested
  refine ⟨?_, ?_, by decide, ?_⟩
  · obtain ⟨sampled, executed, tested⟩ := reads countedFirst
      (fun sampled => decide (sampled.stream.type = .middle ∧
        sampled.returned = [-1])) (by decide)
    exact ⟨sampled, executed, of_decide_eq_true tested⟩
  · obtain ⟨sampled, executed, tested⟩ := reads countedBetween
      (fun sampled => decide (sampled.stream.type = .middle ∧
        sampled.returned = [-1] ∧ sampled.stream.level = 0)) (by decide)
    exact ⟨sampled, executed, of_decide_eq_true tested⟩
  · apply IsMiddle.not_isEnd
    simp [IsMiddle, negativeView, InOut.notCounted]

end Hrc
end Lpel
