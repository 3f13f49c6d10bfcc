import Lpel.Monitoring.Tracking
import Mathlib.Algebra.BigOperators.Ring.Finset

/-!
# The items in the log of a monitored task

The counters that `PrintDirtyList` prints, and those of the records that are still
to be printed, make up the calls that have moved items, for each record.  For each
stream they do so unless a descriptor with a counter is bound to another stream.
-/

namespace Lpel

variable {κ ω : Type}

namespace Monitoring

variable {s after : Monitoring κ ω}

/-- The counter of an entry, if it has a key. -/
def amount (key : StreamEntry → ℕ) (n : ℕ) (entry : StreamEntry) : ℕ :=
  if key entry = n then entry.counter else 0

/-- The sum of the printed counters of the entries with a key. -/
def printedCount
    (key : StreamEntry → ℕ)
    (n : ℕ)
    (log : List (StopEntry ω)) : ℕ :=
  ((printedEntries log).map (amount key n)).sum

/-- The counter of the record at an address, if it has a key. -/
def amountAt
    (key : StreamEntry → ℕ)
    (n : ℕ)
    (heap : Records κ)
    (ms : ℕ) : ℕ :=
  match heap ms with
  | none => 0
  | some record => amount key n (printEntry record)

/-- The sum of the counters of the records of the task with a key. -/
def unprintedCount
    (key : StreamEntry → ℕ)
    (n : ℕ)
    (s : Monitoring κ ω) : ℕ :=
  ∑ ms ∈ s.records, amountAt key n s.heap ms

/-- The printed counters and those that are still to be printed make up a
total. -/
def Balanced
    (key : StreamEntry → ℕ)
    (total : ℕ → ℕ)
    (s : Monitoring κ ω) : Prop :=
  ∀ n, printedCount key n s.log + unprintedCount key n s = total n

theorem Balanced.initial
    (key : StreamEntry → ℕ)
    (addr : κ)
    (tid flags : ℕ)
    (heap : Records κ) :
    Balanced key (fun _ => 0)
      (Monitoring.initial addr tid flags heap : Monitoring κ ω) := by
  intro n
  rfl

section Balance

variable {key : StreamEntry → ℕ} {total : ℕ → ℕ}

theorem Balanced.ofQuiet
    (balanced : s.Balanced key total)
    (quiet : s.Quiet after) :
    after.Balanced key total := by
  intro n
  rw [printedCount, quiet.printed_eq, unprintedCount, quiet.records_eq,
    quiet.heap_eq]
  exact balanced n

variable [DecidableEq κ]

/-- The counter of a changed record is exchanged in the sum. -/
theorem Written.unprinted_eq
    {ms : ℕ}
    {record record' : MonStream κ}
    {items : ℕ}
    (tracked : s.Tracked)
    (written : s.Written after ms record record' items)
    (n : ℕ) :
    unprintedCount key n after + amount key n (printEntry record) =
      unprintedCount key n s + amount key n (printEntry record') := by
  have member : ms ∈ s.records :=
    (tracked.records_iff ms).mpr ⟨record, written.own⟩
  have before : amountAt key n s.heap ms = amount key n (printEntry record) := by
    rw [amountAt, written.own.1]
  have here : amountAt key n after.heap ms =
      amount key n (printEntry record') := by
    rw [amountAt, written.heap_eq, Function.update_self]
  have others : ∑ other ∈ s.records.erase ms, amountAt key n after.heap other =
      ∑ other ∈ s.records.erase ms, amountAt key n s.heap other := by
    apply Finset.sum_congr rfl
    intro other inside
    rw [amountAt, amountAt, written.heap_eq,
      Function.update_of_ne (Finset.ne_of_mem_erase inside)]
  rw [unprintedCount, unprintedCount, written.records_eq,
    ← Finset.add_sum_erase _ _ member,
    ← Finset.add_sum_erase s.records (amountAt key n s.heap) member, before,
    here, others]
  omega

/-- What is printed of the list, in terms of the records of the task. -/
theorem sum_dirtyEntries
    {dirty : List ℕ}
    (tracked : s.Tracked)
    (dirtied : Dirtied s.mt s.heap dirty)
    (n : ℕ) :
    ((dirtyEntries s.heap dirty).map (amount key n)).sum =
      ∑ ms ∈ s.records, if ms ∈ dirty then amountAt key n s.heap ms else 0 := by
  have listed : (dirtyEntries s.heap dirty).map (amount key n) =
      dirty.map (amountAt key n s.heap) := by
    rw [dirtyEntries, List.map_filterMap, ← List.filterMap_eq_map]
    apply List.filterMap_congr
    intro ms member
    obtain ⟨record, here, -⟩ := dirtied.chain.own member
    simp only [here, Option.map_some, Function.comp_apply, amountAt]
  have own : s.records.filter (fun ms => ms ∈ dirty) = dirty.toFinset := by
    ext ms
    rw [Finset.mem_filter, List.mem_toFinset, tracked.records_iff]
    constructor
    · exact fun inside => inside.2
    · intro member
      obtain ⟨record, here, own, -⟩ := dirtied.chain.own member
      exact ⟨⟨record, here, own⟩, member⟩
  rw [listed, ← Finset.sum_filter, own, List.sum_toFinset _ dirtied.nodup]

/-- The printed counters are moved from the records to the log. -/
theorem Printed.unprinted_eq
    {dirty : List ℕ}
    (tracked : s.Tracked)
    (printed : s.Printed after dirty)
    (n : ℕ) :
    unprintedCount key n after +
        ((dirtyEntries s.heap dirty).map (amount key n)).sum =
      unprintedCount key n s := by
  have left (ms : ℕ) : amountAt key n after.heap ms =
      if ms ∈ dirty then 0 else amountAt key n s.heap ms := by
    by_cases member : ms ∈ dirty
    · rw [if_pos member]
      have prints : after.heap ms = (s.heap ms).bind printedRecord := by
        rw [printed.heap_eq, printedRecords, if_pos member]
      rw [amountAt]
      split
      case h_1 => rfl
      case h_2 found here =>
        rw [prints] at here
        obtain ⟨record, -, here⟩ := Option.bind_eq_some_iff.mp here
        obtain ⟨-, rfl⟩ := (printedRecord_eq_some_iff _ _).mp here
        simp [amount, printEntry]
    · rw [if_neg member, amountAt, printed.heap_eq, printedRecords,
        if_neg member, amountAt]
  have all : unprintedCount key n after =
      ∑ ms ∈ s.records, amountAt key n after.heap ms := by
    rw [unprintedCount, printed.records_eq]
    apply Finset.sum_filter_of_ne
    intro ms _ positive
    rw [amountAt] at positive
    split at positive
    case h_1 => exact absurd rfl positive
    case h_2 record here =>
      rw [here]
      rfl
  rw [all, sum_dirtyEntries tracked printed.dirtied, unprintedCount,
    ← Finset.sum_add_distrib]
  apply Finset.sum_congr rfl
  intro ms _
  rw [left]
  split
  · exact Nat.zero_add _
  · exact Nat.add_zero _

/-- A new record has nothing to print. -/
theorem Opened.unprinted_eq
    {address : ℕ}
    {record : MonStream κ}
    (tracked : s.Tracked)
    (opened : s.Opened after address record)
    (n : ℕ) :
    unprintedCount key n after = unprintedCount key n s := by
  have fresh : address ∉ s.records := by
    intro member
    obtain ⟨found, here, -⟩ := (tracked.records_iff address).mp member
    rw [opened.free] at here
    cases here
  have nothing : amountAt key n after.heap address = 0 := by
    rw [amountAt, opened.heap_eq, Function.update_self]
    simp [amount, printEntry, opened.counter_eq]
  rw [unprintedCount, opened.records_eq, Finset.sum_insert fresh, nothing,
    Nat.zero_add, unprintedCount]
  apply Finset.sum_congr rfl
  intro ms member
  rw [amountAt, amountAt, opened.heap_eq, Function.update_of_ne]
  rintro rfl
  exact fresh member

theorem Balanced.ofOpened
    {address : ℕ}
    {record : MonStream κ}
    (balanced : s.Balanced key total)
    (tracked : s.Tracked)
    (opened : s.Opened after address record) :
    after.Balanced key total := by
  intro n
  rw [printedCount, opened.printed_eq, opened.unprinted_eq tracked]
  exact balanced n

theorem Balanced.ofPrinted
    {dirty : List ℕ}
    (balanced : s.Balanced key total)
    (tracked : s.Tracked)
    (printed : s.Printed after dirty) :
    after.Balanced key total := by
  intro n
  have moved : unprintedCount key n after + _ = _ :=
    printed.unprinted_eq tracked n
  have before := balanced n
  rw [printedCount] at before
  rw [printedCount, printed.printed_eq, List.map_append, List.sum_append]
  omega

theorem Balanced.ofForeign
    {ms : ℕ}
    {found : Option (MonStream κ)}
    (balanced : s.Balanced key total)
    (tracked : s.Tracked)
    (before : s.Foreign (s.heap ms)) :
    Balanced key total { s with heap := Function.update s.heap ms found } := by
  intro n
  rw [← balanced n]
  apply congrArg (printedCount key n s.log + ·)
  apply Finset.sum_congr rfl
  intro other member
  simp only [amountAt]
  rw [Function.update_of_ne]
  rintro rfl
  obtain ⟨record, here, own⟩ := (tracked.records_iff other).mp member
  apply before
  rw [here, Option.map_some, own]

/-- Items that are counted in a record are counted for its key. -/
theorem Balanced.ofWritten
    {ms : ℕ}
    {record record' : MonStream κ}
    {items : ℕ}
    (balanced : s.Balanced key total)
    (tracked : s.Tracked)
    (written : s.Written after ms record record' items)
    (same : key (printEntry record') = key (printEntry record)) :
    after.Balanced key (Function.update total (key (printEntry record))
      (total (key (printEntry record)) + items)) := by
  intro n
  have exchanged : unprintedCount key n after + _ = _ :=
    written.unprinted_eq tracked n
  have before := balanced n
  have counter : (printEntry record').counter =
      (printEntry record).counter + items := written.counter_eq
  rw [amount, amount, same, counter] at exchanged
  rw [printedCount] at before
  rw [printedCount, written.printed_eq]
  by_cases here : key (printEntry record) = n
  · subst here
    rw [if_pos rfl, if_pos rfl] at exchanged
    rw [Function.update_self]
    omega
  · rw [if_neg here, if_neg here] at exchanged
    rw [Function.update_of_ne (Ne.symm here)]
    omega

end Balance

section Run

variable [DecidableEq κ]

/-- For every record, the items that were moved are printed or in its counter. -/
theorem Balanced.serial_step
    {label : MonLabel κ ω}
    (balanced : s.Balanced StreamEntry.serial s.finishes)
    (tracked : s.Tracked)
    (taken : s.step label = some after) :
    after.Balanced StreamEntry.serial after.finishes := by
  cases tracked.stepped taken with
  | quiet quiet =>
      rw [quiet.finishes_eq]
      exact balanced.ofQuiet quiet
  | opened address record opened =>
      rw [opened.finishes_eq]
      exact balanced.ofOpened tracked opened
  | written ms record record' items written _ =>
      rw [written.finishes_eq]
      exact balanced.ofWritten tracked written written.serial_eq
  | printed dirty printed =>
      rw [printed.finishes_eq]
      exact balanced.ofPrinted tracked printed
  | foreign ms found before later after_eq =>
      rw [after_eq]
      exact balanced.ofForeign tracked before

theorem Balanced.ofReachable
    {flags : ℕ}
    (reached : (monMachine κ ω flags).Reachable s) :
    s.Balanced StreamEntry.serial s.finishes := by
  refine Machine.Reachable.invariant_of
    (fun _ => Tracked.ofReachable)
    (?_ : ∀ s, (monMachine κ ω flags).init s →
      s.Balanced StreamEntry.serial s.finishes) ?_ reached
  · rintro _ ⟨addr, tid, heap, rfl, -⟩
    exact .initial _ addr tid flags heap
  · intro s label after tracked balanced taken
    exact balanced.serial_step tracked taken

end Run

/-! ## The dirty list along a run -/

/-- The callbacks for a descriptor. -/
def callbacks (ms newSid : ℕ) : List (MonLabel κ ω) :=
  [.close ms, .replace ms newSid, .readFinish ms, .writeFinish ms, .blockon ms,
    .wakeup ms]

/-- The list is printed, every record once, and is empty then. -/
structure PrintedOnce (s after : Monitoring κ ω) (dirty : List ℕ) : Prop where
  entries : ∃ records : List (MonStream κ),
    dirty.map s.heap = records.map some ∧
      printedEntries after.log =
        printedEntries s.log ++ records.map printEntry
  list_eq : after.mt.dirtyList = .dirtyEnd
  clean : ∀ ms record, after.Own ms record → record.dirty = .null
  freed_iff : ∀ ms record, s.Own ms record →
    (after.heap ms = none ↔ record.state = .closed)
  others : ∀ ms ∉ dirty, after.heap ms = s.heap ms

theorem Printed.once
    {dirty : List ℕ}
    (printed : s.Printed after dirty) :
    s.PrintedOnce after dirty := by
  have dirtied := printed.dirtied
  constructor
  case entries =>
    obtain ⟨records, listed, entries⟩ := dirtied.chain.exists_listed
    refine ⟨records, listed, ?_⟩
    rw [printed.printed_eq, entries]
  case list_eq => rw [printed.mt_eq]
  case clean =>
    intro ms record own
    have cleaned := dirtied.printed
    by_contra listed
    rw [Own, printed.heap_eq, printed.mt_eq] at own
    exact List.not_mem_nil
      ((cleaned.mem_iff ms).mpr ⟨record, own.1, own.2, listed⟩)
  case freed_iff =>
    intro ms record own
    rw [printed.heap_eq, printedRecords, own.1, Option.bind_some]
    have freed : printedRecord record = none ↔ record.state = .closed := by
      rw [Option.eq_none_iff_forall_ne_some]
      constructor
      · intro none
        by_contra opened
        exact none _ ((printedRecord_eq_some_iff record _).mpr ⟨opened, rfl⟩)
      · intro closed found prints
        exact ((printedRecord_eq_some_iff record _).mp prints).1 closed
    split
    case isTrue => exact freed
    case isFalse absent =>
      refine iff_of_false (by simp) ?_
      intro closed
      refine absent ((dirtied.mem_iff ms).mpr ⟨record, own.1, own.2, ?_⟩)
      exact dirtied.marked ms record own.1 own.2 (.inr (by simp [closed]))
  case others =>
    intro ms absent
    rw [printed.heap_eq, printedRecords, if_neg absent]

variable [DecidableEq κ]

/-- What the dirty list of a task is to be. -/
structure DirtyListRight (s : Monitoring κ ω) (dirty : List ℕ) : Prop where
  nodup : dirty.Nodup
  chain : DirtyChain s.mt.addr s.heap s.mt.dirtyList dirty
  mem_iff : ∀ ms, ms ∈ dirty ↔
    ∃ record, s.Own ms record ∧ record.dirty ≠ .null
  marked : ∀ ms record, s.Own ms record →
    0 < record.counter ∨ record.state = .opened ∨ record.state = .replaced ∨
      record.state = .closed → ms ∈ dirty
  /-- The callbacks for open descriptors complete. -/
  callable : ∀ ms, s.Callable ms → ∀ newSid, ∀ label ∈ callbacks ms newSid,
    (s.step label).isSome = true
  stop : s.destroyed = false → flagStreams s.mt.flags = true →
    s.mt.mw ≠ none → ∀ state rounds, dirty.length ≤ rounds →
      ∃ after, s.step (.stop state rounds) = some after ∧
        s.PrintedOnce after dirty
  /-- The serials tell the records apart. -/
  serial_inj : ∀ ms ms' record record', s.Own ms record → s.Own ms' record' →
    record.serial = record'.serial → ms = ms'
  serial_freed : ∀ ms record, s.Own ms record → record.serial ∉ s.freed
  counted : ∀ ms record, s.Own ms record →
    printedCount StreamEntry.serial record.serial s.log + record.counter =
      s.finishes record.serial
  freed_counted : ∀ serial ∈ s.freed,
    printedCount StreamEntry.serial serial s.log = s.finishes serial

/-- A callback for an open descriptor completes. -/
theorem Tracked.callable_isSome
    {ms : ℕ}
    (tracked : s.Tracked)
    (callable : s.Callable ms)
    (newSid : ℕ)
    (label : MonLabel κ ω)
    (member : label ∈ callbacks ms newSid) :
    (s.step label).isSome = true := by
  obtain ⟨sid, bound⟩ := Option.isSome_iff_exists.mp callable.2
  obtain ⟨record, own, -⟩ := tracked.own_of_bound bound
  have completes (fields : MonStream κ → MonStream κ)
      (keeps : KeepsLink fields) :
      (setAndMark fields s.mt s.heap ms).isSome = true := by
    obtain ⟨mt', result, -⟩ := setAndMark_eq keeps own.1 own.2
    rw [result]
    rfl
  simp only [callbacks, List.mem_cons, List.not_mem_nil, or_false] at member
  obtain rfl | rfl | rfl | rfl | rfl | rfl := member
  · rw [Monitoring.step, if_pos callable, Option.isSome_map]
    exact completes _ ⟨fun _ => rfl, fun _ => rfl⟩
  · rw [Monitoring.step, if_pos callable, Option.isSome_map]
    exact completes _ ⟨fun _ => rfl, fun _ => rfl⟩
  · rw [Monitoring.step, if_pos callable, Option.isSome_map]
    exact completes _ ⟨fun _ => rfl, fun _ => rfl⟩
  · rw [Monitoring.step, if_pos callable, Option.isSome_map]
    exact completes _ ⟨fun _ => rfl, fun _ => rfl⟩
  · rw [Monitoring.step, if_pos callable, Option.isSome_map,
      monCbStreamBlockon, own.1, Option.bind_some, Option.isSome_map]
    exact completes _ ⟨fun _ => rfl, fun _ => rfl⟩
  · rw [Monitoring.step, if_pos callable, Option.isSome_map,
      monCbStreamWakeup, own.1]
    rfl

/-- The counter of a record is the only one with its serial. -/
theorem Tracked.unprinted_serial
    {ms : ℕ}
    {record : MonStream κ}
    (tracked : s.Tracked)
    (own : s.Own ms record) :
    unprintedCount StreamEntry.serial record.serial s = record.counter := by
  have here : amountAt StreamEntry.serial record.serial s.heap ms =
      record.counter := by
    rw [amountAt, own.1]
    exact if_pos rfl
  rw [unprintedCount, Finset.sum_eq_single ms, here]
  · intro other member distinct
    obtain ⟨found, there⟩ := (tracked.records_iff other).mp member
    rw [amountAt, there.1]
    apply if_neg
    intro same
    exact distinct (tracked.serials.inj other ms record.serial
      ⟨found, there, same⟩ ⟨record, own, rfl⟩)
  · intro absent
    exact absurd ((tracked.records_iff ms).mpr ⟨record, own⟩) absent

theorem Tracked.unprinted_freed
    {serial : ℕ}
    (tracked : s.Tracked)
    (freed : serial ∈ s.freed) :
    unprintedCount StreamEntry.serial serial s = 0 := by
  apply Finset.sum_eq_zero
  intro ms member
  obtain ⟨record, own⟩ := (tracked.records_iff ms).mp member
  rw [amountAt, own.1]
  apply if_neg
  intro same
  exact tracked.serials.apart ms serial ⟨record, own, same⟩ freed

/-- `MonCbTaskStop` prints the list once. -/
theorem stop_printed
    {dirty : List ℕ}
    (dirtied : Dirtied s.mt s.heap dirty)
    (running : s.destroyed = false)
    (streams : flagStreams s.mt.flags = true)
    (assigned : s.mt.mw ≠ none)
    (state : Char)
    (rounds : ℕ)
    (enough : dirty.length ≤ rounds) :
    ∃ after, s.step (.stop state rounds) = some after ∧
      s.Printed after dirty := by
  obtain ⟨mw, worker⟩ := Option.ne_none_iff_exists'.mp assigned
  let entry : StopEntry ω :=
    { mw := mw
      status := if state = taskBlocked then s.mt.blockon else state
      tid := s.mt.tid
      streams := dirtyEntries s.heap dirty }
  have entries : printedEntries [entry] = dirtyEntries s.heap dirty := by
    simp [printedEntries, entry]
  have stopped : monCbTaskStop s.mt s.heap state rounds = some
      ({ s.mt with dirtyList := .dirtyEnd }, printedRecords s.heap dirty,
        [entry]) := by
    rw [monCbTaskStop, worker]
    simp only [streams, if_true,
      printDirtyList_eq dirtied.chain dirtied.nodup enough, Option.map_some]
    rw [← worker]
  let after : Monitoring κ ω :=
    { s.put ({ s.mt with dirtyList := .dirtyEnd }, printedRecords s.heap dirty) with
      log := s.log ++ [entry]
      records := s.records.filter fun ms => (printedRecords s.heap dirty ms).isSome
      freed := s.freed ++ freedSerials (printedEntries [entry]) }
  refine ⟨after, ?_, ?_⟩
  · rw [Monitoring.step, if_pos running, stopped, Option.map_some]
  · exact
      { streams := streams
        dirtied := dirtied
        mt_eq := rfl
        heap_eq := rfl
        printed_eq := by rw [printedEntries_append, entries]
        bound_eq := rfl
        records_eq := rfl
        opens_eq := rfl
        freed_eq := by
          dsimp only [after]
          rw [entries]
        finishes_eq := rfl
        moved_eq := rfl }

end Monitoring

/-- The dirty list of a task is right along every sequence of callbacks. -/
theorem dirtyList_right
    [DecidableEq κ]
    {flags : ℕ}
    {s : Monitoring κ ω}
    (reached : (monMachine κ ω flags).Reachable s) :
    ∃ dirty, s.DirtyListRight dirty := by
  have tracked := Monitoring.Tracked.ofReachable reached
  have balanced := Monitoring.Balanced.ofReachable reached
  obtain ⟨dirty, dirtied⟩ := tracked.dirtied
  refine ⟨dirty, ?_⟩
  constructor
  case nodup => exact dirtied.nodup
  case chain => exact dirtied.chain
  case mem_iff =>
    intro ms
    rw [dirtied.mem_iff]
    simp only [Monitoring.Own, and_assoc]
  case marked =>
    intro ms record own marks
    refine (dirtied.mem_iff ms).mpr ⟨record, own.1, own.2, ?_⟩
    apply dirtied.marked ms record own.1 own.2
    obtain counter | state | state | state := marks
    · exact .inl counter
    · exact .inr (by simp [state])
    · exact .inr (by simp [state])
    · exact .inr (by simp [state])
  case callable =>
    intro ms callable newSid label member
    exact tracked.callable_isSome callable newSid label member
  case stop =>
    intro running streams assigned state rounds enough
    obtain ⟨after, stopped, printed⟩ := Monitoring.stop_printed dirtied
      running streams assigned state rounds enough
    exact ⟨after, stopped, printed.once⟩
  case serial_inj =>
    intro ms ms' record record' own own' same
    exact tracked.serials.inj ms ms' record.serial ⟨record, own, rfl⟩
      ⟨record', own', same.symm⟩
  case serial_freed =>
    intro ms record own
    exact tracked.serials.apart ms record.serial ⟨record, own, rfl⟩
  case counted =>
    intro ms record own
    rw [← tracked.unprinted_serial own]
    exact balanced record.serial
  case freed_counted =>
    intro serial freed
    have sum := balanced serial
    rwa [tracked.unprinted_freed freed, Nat.add_zero] at sum

/-- A task whose streams are monitored, created while no records exist. -/
def monitored (flags : ℕ) : Monitoring ℕ ℕ :=
  .initial 0 7 flags fun _ => none

theorem monMachine_init (flags : ℕ) :
    (monMachine ℕ ℕ flags).init (monitored flags) := by
  refine ⟨0, 7, fun _ => none, rfl, ?_⟩
  intro ms
  simp [Monitoring.Foreign]

/-- A descriptor that is closed before its items are printed. -/
theorem dirtyList_right_closed :
    ∃ s, (monMachine ℕ ℕ 16).Reachable s ∧
      printedEntries s.log = [⟨1, .r, .closed, 2, false, true, true, 0⟩] ∧
      s.freed = [0] ∧ ∃ dirty, s.DirtyListRight dirty := by
  obtain ⟨s, reached, tested⟩ := Machine.exists_reachable_of_run
    (monMachine_init 16)
    (by decide : ((monMachine ℕ ℕ 16).run (monitored 16)
      [.assign (some 3), .start, .open 5 1 .r, .readFinish 5, .wakeup 5,
        .readFinish 5, .close 5, .stop taskZombie 1]).map
      (fun s => decide (
        printedEntries s.log = [⟨1, .r, .closed, 2, false, true, true, 0⟩] ∧
          s.freed = [0])) = some true)
  obtain ⟨printed, freed⟩ := of_decide_eq_true tested
  exact ⟨s, reached, printed, freed, dirtyList_right reached⟩

end Lpel
