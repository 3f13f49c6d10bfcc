import Lpel.Monitoring.Steps
import Mathlib.Data.Finset.Basic

/-!
# The records of a monitored task

The invariant of all sequences of callbacks: a record of the task is either open or
on the dirty list, its descriptor is bound to the stream that it names, and every
record that was allocated is at one address or was freed once.
-/

namespace Lpel

variable {κ ω : Type}

namespace Monitoring

variable {s after : Monitoring κ ω}

/-! ## The records behind a step -/

/-- The new record is one of the task, next to those that it had. -/
theorem Opened.own_iff
    {address : ℕ}
    {record : MonStream κ}
    (opened : s.Opened after address record)
    (ms : ℕ)
    (found : MonStream κ) :
    after.Own ms found ↔ ms = address ∧ found = record ∨ s.Own ms found := by
  rw [Own, Own, opened.heap_eq, opened.addr_eq]
  by_cases same : ms = address
  · subst same
    rw [Function.update_self, opened.free]
    constructor
    · rintro ⟨here, -⟩
      exact .inl ⟨rfl, (Option.some.inj here).symm⟩
    · rintro (⟨-, rfl⟩ | ⟨here, -⟩)
      · exact ⟨rfl, opened.montask_eq⟩
      · cases here
  · rw [Function.update_of_ne same]
    simp [same]

/-- Of the records that the task had, the open ones are left. -/
theorem Printed.own_iff
    {dirty : List ℕ}
    (printed : s.Printed after dirty)
    (ms : ℕ)
    (found : MonStream κ) :
    after.Own ms found ↔ ∃ record, s.Own ms record ∧
      if ms ∈ dirty then printedRecord record = some found
      else found = record := by
  have addr_eq : after.mt.addr = s.mt.addr := by rw [printed.mt_eq]
  rw [Own, printed.heap_eq, addr_eq, printedRecords]
  split
  case isTrue =>
    constructor
    · rintro ⟨here, own⟩
      obtain ⟨record, before, prints⟩ := Option.bind_eq_some_iff.mp here
      obtain ⟨-, rfl⟩ := (printedRecord_eq_some_iff _ _).mp prints
      exact ⟨record, ⟨before, own⟩, prints⟩
    · rintro ⟨record, ⟨before, own⟩, prints⟩
      refine ⟨Option.bind_eq_some_iff.mpr ⟨record, before, prints⟩, ?_⟩
      obtain ⟨-, rfl⟩ := (printedRecord_eq_some_iff _ _).mp prints
      exact own
  case isFalse =>
    constructor
    · intro here
      exact ⟨found, here, rfl⟩
    · rintro ⟨_, here, rfl⟩
      exact here

variable [DecidableEq κ]

theorem Written.addr_eq
    {ms : ℕ}
    {record record' : MonStream κ}
    {items : ℕ}
    (written : s.Written after ms record record' items) :
    after.mt.addr = s.mt.addr := by
  obtain marked | ⟨same, -⟩ := written.marked
  · exact marked.addr_eq
  · rw [same]

/-- The changed record is one of the task, in place of the old one. -/
theorem Written.own_iff
    {ms : ℕ}
    {record record' : MonStream κ}
    {items : ℕ}
    (written : s.Written after ms record record' items)
    (other : ℕ)
    (found : MonStream κ) :
    after.Own other found ↔
      if other = ms then found = record' else s.Own other found := by
  rw [Own, Own, written.heap_eq, written.addr_eq]
  split
  case isTrue same =>
    subst same
    rw [Function.update_self]
    constructor
    · rintro ⟨here, -⟩
      exact (Option.some.inj here).symm
    · rintro rfl
      exact ⟨rfl, written.montask_eq⟩
  case isFalse other => rw [Function.update_of_ne other]

/-! ## The invariant -/

/-- A step that leaves the records where they are. -/
theorem Tracked.ofQuiet
    (tracked : s.Tracked)
    (quiet : s.Quiet after) :
    after.Tracked := by
  have own (ms : ℕ) (record : MonStream κ) :
      after.Own ms record ↔ s.Own ms record := by
    rw [Own, Own, quiet.heap_eq, quiet.addr_eq]
  obtain ⟨dirty, dirtied⟩ := tracked.dirtied
  constructor
  case dirtied =>
    refine ⟨dirty, dirtied.nodup, ?_, ?_, ?_⟩
    · rw [quiet.addr_eq, quiet.list_eq, quiet.heap_eq]
      exact dirtied.chain
    · rw [quiet.addr_eq, quiet.heap_eq]
      exact dirtied.mem_iff
    · rw [quiet.addr_eq, quiet.heap_eq]
      exact dirtied.marked
  case bound_eq =>
    rw [quiet.bound_eq, quiet.addr_eq, quiet.heap_eq]
    exact tracked.bound_eq
  case records_iff =>
    intro ms
    rw [quiet.records_eq, tracked.records_iff]
    simp only [own]
  case serials =>
    rw [quiet.opens_eq, quiet.freed_eq]
    apply tracked.serials.congr
    intro ms serial
    simp only [HasSerial, own]

/-- A step that allocates a record. -/
theorem Tracked.ofOpened
    {address : ℕ}
    {record : MonStream κ}
    (tracked : s.Tracked)
    (opened : s.Opened after address record) :
    after.Tracked := by
  have own := opened.own_iff
  obtain ⟨dirty, dirtied⟩ := tracked.dirtied
  constructor
  case dirtied =>
    rw [opened.heap_eq]
    refine ⟨address :: dirty, dirtied.push ?_ opened.montask_eq opened.dirty_eq
      opened.addr_eq opened.list_eq⟩
    intro member
    obtain ⟨found, here, -⟩ := dirtied.chain.own member
    rw [opened.free] at here
    cases here
  case bound_eq =>
    intro ms
    rw [opened.bound_eq, opened.heap_eq, opened.addr_eq]
    by_cases same : ms = address
    · subst same
      rw [Function.update_self, Function.update_self]
      have state : record.state ≠ .closed := by
        rw [opened.state_eq]
        simp
      exact (openSid_own opened.montask_eq state).symm
    · rw [Function.update_of_ne same, Function.update_of_ne same]
      exact tracked.bound_eq ms
  case records_iff =>
    intro ms
    rw [opened.records_eq, Finset.mem_insert, tracked.records_iff]
    simp only [own, exists_or, exists_and_left, exists_eq, and_true]
  case serials =>
    rw [opened.opens_eq, opened.freed_eq]
    refine tracked.serials.allocate address ?_ ?_
    · rintro serial ⟨found, ⟨here, -⟩, -⟩
      rw [opened.free] at here
      cases here
    · intro ms serial
      simp only [HasSerial, own]
      constructor
      · rintro ⟨found, ⟨rfl, rfl⟩ | here, rfl⟩
        · exact .inl ⟨rfl, opened.serial_eq⟩
        · exact .inr ⟨found, here, rfl⟩
      · rintro (⟨rfl, rfl⟩ | ⟨found, here, rfl⟩)
        · exact ⟨record, .inl ⟨rfl, rfl⟩, opened.serial_eq⟩
        · exact ⟨found, .inr here, rfl⟩

/-- A step that changes a record. -/
theorem Tracked.ofWritten
    {ms : ℕ}
    {record record' : MonStream κ}
    {items : ℕ}
    (tracked : s.Tracked)
    (written : s.Written after ms record record' items) :
    after.Tracked := by
  have addr_eq := written.addr_eq
  have own := written.own_iff
  obtain ⟨dirty, dirtied⟩ := tracked.dirtied
  constructor
  case dirtied =>
    rw [written.heap_eq]
    obtain marked | ⟨same, dirty_eq, state_eq, rfl⟩ := written.marked
    · obtain ⟨listed, dirty_eq, list_eq⟩ | ⟨clean, dirty_eq, list_eq⟩ :=
        marked.links
      · refine ⟨dirty, dirtied.keep written.own.1 written.own.2
          written.montask_eq dirty_eq ?_ addr_eq list_eq⟩
        intro _
        rwa [dirty_eq]
      · refine ⟨ms :: dirty, dirtied.push ?_ written.montask_eq dirty_eq addr_eq
          list_eq⟩
        intro member
        obtain ⟨found, here, -, listed⟩ := dirtied.chain.own member
        obtain rfl := Option.some.inj (written.own.1.symm.trans here)
        exact listed clean
    · refine ⟨dirty, dirtied.keep written.own.1 written.own.2
        written.montask_eq dirty_eq ?_ addr_eq (by rw [same])⟩
      rw [written.counter_eq, state_eq, dirty_eq, Nat.add_zero]
      exact dirtied.marked ms record written.own.1 written.own.2
  case bound_eq =>
    intro other
    rw [written.bound_eq, written.heap_eq, addr_eq]
    by_cases same : other = ms
    · subst same
      rw [Function.update_self, Function.update_self]
    · rw [Function.update_of_ne same, Function.update_of_ne same]
      exact tracked.bound_eq other
  case records_iff =>
    intro other
    rw [written.records_eq, tracked.records_iff]
    simp only [own]
    split
    case isTrue same =>
      subst same
      exact iff_of_true ⟨record, written.own⟩ ⟨record', rfl⟩
    case isFalse => exact Iff.rfl
  case serials =>
    rw [written.opens_eq, written.freed_eq]
    apply tracked.serials.congr
    intro other serial
    simp only [HasSerial, own]
    split
    case isTrue same =>
      subst same
      constructor
      · rintro ⟨_, rfl, serial_eq⟩
        exact ⟨record, written.own, written.serial_eq.symm.trans serial_eq⟩
      · rintro ⟨found, here, serial_eq⟩
        obtain rfl := Option.some.inj (written.own.1.symm.trans here.1)
        exact ⟨record', rfl, written.serial_eq.trans serial_eq⟩
    case isFalse => exact Iff.rfl

/-- A listed record is told by its serial. -/
theorem Tracked.eq_of_serial
    {dirty : List ℕ}
    {ms ms' : ℕ}
    {record record' : MonStream κ}
    (tracked : s.Tracked)
    (dirtied : Dirtied s.mt s.heap dirty)
    (listed : ms' ∈ dirty)
    (here' : s.heap ms' = some record')
    (here : s.Own ms record)
    (same : record'.serial = record.serial) :
    ms' = ms := by
  obtain ⟨_, found, own', -⟩ := dirtied.chain.own listed
  obtain rfl := Option.some.inj (here'.symm.trans found)
  exact tracked.serials.inj ms' ms record.serial ⟨record', ⟨here', own'⟩, same⟩
    ⟨record, here, rfl⟩

theorem Tracked.nodup_freedSerials
    {dirty : List ℕ}
    (tracked : s.Tracked)
    (dirtied : Dirtied s.mt s.heap dirty) :
    (freedSerials (dirtyEntries s.heap dirty)).Nodup := by
  let serialOf (ms : ℕ) : Option ℕ :=
    (s.heap ms).bind fun record =>
      if record.montask = s.mt.addr then some record.serial else none
  have all : (dirtyEntries s.heap dirty).map StreamEntry.serial =
      dirty.filterMap serialOf := by
    rw [dirtyEntries, List.map_filterMap]
    apply List.filterMap_congr
    intro ms member
    obtain ⟨record, here, own, -⟩ := dirtied.chain.own member
    simp only [serialOf, here, Option.map_some, Option.bind_some, if_pos own]
    rfl
  have nodup : (dirty.filterMap serialOf).Nodup := by
    apply List.Nodup.filterMap ?_ dirtied.nodup
    intro ms ms' serial here there
    simp only [serialOf, Option.mem_def, Option.bind_eq_some_iff,
      Option.ite_none_right_eq_some, Option.some.injEq] at here there
    obtain ⟨record, here, own, serial_eq⟩ := here
    obtain ⟨record', there, own', serial_eq'⟩ := there
    exact tracked.serials.inj ms ms' serial ⟨record, ⟨here, own⟩, serial_eq⟩
      ⟨record', ⟨there, own'⟩, serial_eq'⟩
  rw [← all] at nodup
  exact nodup.sublist (List.filter_sublist.map _)

/-- The records that are left are those that were not freed. -/
theorem Printed.hasSerial_iff
    {dirty : List ℕ}
    (printed : s.Printed after dirty)
    (tracked : s.Tracked)
    (ms serial : ℕ) :
    after.HasSerial ms serial ↔ s.HasSerial ms serial ∧
      serial ∉ freedSerials (dirtyEntries s.heap dirty) := by
  have dirtied := printed.dirtied
  simp only [HasSerial, printed.own_iff, mem_freedSerials]
  constructor
  · rintro ⟨found, ⟨record, here, prints⟩, rfl⟩
    split at prints
    case isTrue member =>
      obtain ⟨opened, rfl⟩ := (printedRecord_eq_some_iff _ _).mp prints
      refine ⟨⟨record, here, rfl⟩, ?_⟩
      rintro ⟨ms', listed, record', here', closed, same⟩
      obtain rfl := tracked.eq_of_serial dirtied listed here' here same
      obtain rfl := Option.some.inj (here'.symm.trans here.1)
      exact opened closed
    case isFalse absent =>
      subst prints
      refine ⟨⟨found, here, rfl⟩, ?_⟩
      rintro ⟨ms', listed, record', here', -, same⟩
      obtain rfl := tracked.eq_of_serial dirtied listed here' here same
      exact absent listed
  · rintro ⟨⟨record, here, rfl⟩, kept⟩
    by_cases member : ms ∈ dirty
    · have opened : record.state ≠ .closed := by
        intro closed
        exact kept ⟨ms, member, record, here.1, closed, rfl⟩
      have prints := (printedRecord_eq_some_iff record _).mpr ⟨opened, rfl⟩
      exact ⟨_, ⟨record, here, Eq.mpr (if_pos member) prints⟩, rfl⟩
    · refine ⟨record, ⟨record, here, ?_⟩, rfl⟩
      rw [if_neg member]

/-- A step that prints the list. -/
theorem Tracked.ofPrinted
    {dirty : List ℕ}
    (tracked : s.Tracked)
    (printed : s.Printed after dirty) :
    after.Tracked := by
  have dirtied := printed.dirtied
  have own := printed.own_iff
  constructor
  case dirtied =>
    rw [printed.heap_eq, printed.mt_eq]
    exact ⟨[], dirtied.printed⟩
  case bound_eq =>
    intro ms
    rw [printed.bound_eq, tracked.bound_eq]
    ext sid
    rw [openSid_eq_some_iff, openSid_eq_some_iff]
    simp only [own]
    split
    case isTrue member =>
      constructor
      · rintro ⟨record, here, opened, sid_eq⟩
        exact ⟨_, ⟨record, here, (printedRecord_eq_some_iff _ _).mpr
          ⟨opened, rfl⟩⟩, by simp, sid_eq⟩
      · rintro ⟨_, ⟨record, here, prints⟩, -, sid_eq⟩
        obtain ⟨opened, rfl⟩ := (printedRecord_eq_some_iff _ _).mp prints
        exact ⟨record, here, opened, sid_eq⟩
    case isFalse => simp
  case records_iff =>
    intro ms
    rw [printed.records_eq, Finset.mem_filter, tracked.records_iff,
      Option.isSome_iff_exists]
    constructor
    · rintro ⟨⟨record, here⟩, found, present⟩
      refine ⟨found, (own ms found).mpr ⟨record, here, ?_⟩⟩
      rw [printed.heap_eq, printedRecords] at present
      split at present
      case isTrue member =>
        rw [if_pos member]
        rwa [here.1, Option.bind_some] at present
      case isFalse absent =>
        rw [if_neg absent]
        exact Option.some.inj (present.symm.trans here.1)
    · rintro ⟨found, present⟩
      obtain ⟨record, here, -⟩ := (own ms found).mp present
      exact ⟨⟨record, here⟩, found, present.1⟩
  case serials =>
    rw [printed.opens_eq, printed.freed_eq]
    apply tracked.serials.free
    · exact tracked.nodup_freedSerials dirtied
    · intro serial member
      obtain ⟨ms, listed, record, here, -, rfl⟩ :=
        (mem_freedSerials serial).mp member
      obtain ⟨_, here', own', -⟩ := dirtied.chain.own listed
      obtain rfl := Option.some.inj (here.symm.trans here')
      exact ⟨ms, record, ⟨here, own'⟩, rfl⟩
    · exact printed.hasSerial_iff tracked

/-- A step that changes a record of another task. -/
theorem Tracked.ofForeign
    {ms : ℕ}
    {found : Option (MonStream κ)}
    (tracked : s.Tracked)
    (before : s.Foreign (s.heap ms))
    (later : s.Foreign found) :
    Tracked { s with heap := Function.update s.heap ms found } := by
  have own (other : ℕ) (record : MonStream κ) :
      Own { s with heap := Function.update s.heap ms found } other record ↔
        s.Own other record := by
    apply and_congr_left
    exact Dirtied.own_update_iff before later
  obtain ⟨dirty, dirtied⟩ := tracked.dirtied
  constructor
  case dirtied => exact ⟨dirty, dirtied.foreign before later⟩
  case bound_eq =>
    intro other
    rw [tracked.bound_eq]
    ext sid
    rw [openSid_eq_some_iff, openSid_eq_some_iff]
    simp only [own]
  case records_iff =>
    intro other
    rw [tracked.records_iff]
    simp only [own]
  case serials =>
    apply tracked.serials.congr
    intro other serial
    simp only [HasSerial, own]

/-- Every step keeps the invariant. -/
theorem Tracked.step
    {label : MonLabel κ ω}
    (tracked : s.Tracked)
    (taken : s.step label = some after) :
    after.Tracked := by
  cases tracked.stepped taken with
  | quiet quiet => exact tracked.ofQuiet quiet
  | opened address record opened => exact tracked.ofOpened opened
  | written ms record record' items written _ => exact tracked.ofWritten written
  | printed dirty printed => exact tracked.ofPrinted printed
  | foreign ms found before later after_eq =>
      rw [after_eq]
      exact tracked.ofForeign before later

theorem Tracked.initial
    {addr : κ}
    {tid flags : ℕ}
    {heap : Records κ}
    (others : ∀ ms, (Monitoring.initial addr tid flags heap :
      Monitoring κ ω).Foreign (heap ms)) :
    (Monitoring.initial addr tid flags heap : Monitoring κ ω).Tracked := by
  have none (ms : ℕ) (record : MonStream κ) :
      ¬(Monitoring.initial addr tid flags heap : Monitoring κ ω).Own ms record := by
    rintro ⟨here, own⟩
    apply others ms
    rw [show heap ms = some record from here, Option.map_some, own]
  constructor
  case dirtied =>
    refine ⟨[], List.nodup_nil, rfl, ?_, ?_⟩
    · intro ms
      constructor
      · intro member
        cases member
      · rintro ⟨record, here, own, -⟩
        exact absurd ⟨here, own⟩ (none ms record)
    · intro ms record here own
      exact absurd ⟨here, own⟩ (none ms record)
  case bound_eq =>
    intro ms
    refine (Option.eq_none_iff_forall_ne_some.mpr ?_).symm
    intro sid bound
    obtain ⟨record, own, -⟩ := openSid_eq_some_iff.mp bound
    exact none ms record own
  case records_iff =>
    intro ms
    constructor
    · intro member
      cases member
    · rintro ⟨record, own⟩
      exact absurd own (none ms record)
  case serials =>
    constructor
    case lt =>
      rintro ms serial ⟨record, own, -⟩
      exact absurd own (none ms record)
    case inj =>
      rintro ms ms' serial ⟨record, own, -⟩
      exact absurd own (none ms record)
    case freed_lt =>
      intro serial member
      cases member
    case freed_nodup => exact List.nodup_nil
    case apart =>
      rintro ms serial ⟨record, own, -⟩
      exact absurd own (none ms record)
    case total =>
      intro serial less
      exact absurd less (Nat.not_lt_zero serial)

theorem Tracked.ofReachable
    {flags : ℕ}
    (reached : (monMachine κ ω flags).Reachable s) :
    s.Tracked := by
  refine Machine.Reachable.invariant ?_ ?_ reached
  · rintro _ ⟨addr, tid, heap, rfl, others⟩
    exact .initial others
  · intro s label after tracked taken
    exact tracked.step taken

end Monitoring

end Lpel
