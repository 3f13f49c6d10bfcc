import Lpel.Monitoring.DirtyList

/-!
# What a callback does to the records of its task

Every step of a sequence of callbacks is described by one of five structures.
The invariants of the records follow from these descriptions alone.
-/

namespace Lpel

variable {κ ω : Type}

/-- Every allocated record is at one address or was freed once. -/
structure Serials
    (has : ℕ → ℕ → Prop)
    (opens : ℕ)
    (freed : List ℕ) : Prop where
  lt : ∀ ms serial, has ms serial → serial < opens
  inj : ∀ ms ms' serial, has ms serial → has ms' serial → ms = ms'
  freed_lt : ∀ serial ∈ freed, serial < opens
  freed_nodup : freed.Nodup
  apart : ∀ ms serial, has ms serial → serial ∉ freed
  total : ∀ serial < opens, serial ∈ freed ∨ ∃ ms, has ms serial

namespace Serials

variable {has has' : ℕ → ℕ → Prop} {opens : ℕ} {freed : List ℕ}

theorem congr
    (serials : Serials has opens freed)
    (same : ∀ ms serial, has' ms serial ↔ has ms serial) :
    Serials has' opens freed := by
  have equal : has' = has := by
    funext ms serial
    exact propext (same ms serial)
  rwa [equal]

/-- A record is allocated. -/
theorem allocate
    (serials : Serials has opens freed)
    (address : ℕ)
    (free : ∀ serial, ¬has address serial)
    (added : ∀ ms serial, has' ms serial ↔
      ms = address ∧ serial = opens ∨ has ms serial) :
    Serials has' (opens + 1) freed where
  lt := by
    intro ms serial here
    obtain ⟨-, rfl⟩ | here := (added ms serial).mp here
    · exact Nat.lt_succ_self _
    · exact Nat.lt_succ_of_lt (serials.lt ms serial here)
  inj := by
    intro ms ms' serial here there
    obtain ⟨rfl, newest⟩ | here := (added ms serial).mp here
    · obtain ⟨rfl, -⟩ | there := (added ms' serial).mp there
      · rfl
      · exact absurd newest (Nat.ne_of_lt (serials.lt ms' serial there))
    · obtain ⟨rfl, newest⟩ | there := (added ms' serial).mp there
      · exact absurd newest (Nat.ne_of_lt (serials.lt ms serial here))
      · exact serials.inj ms ms' serial here there
  freed_lt := by
    intro serial member
    exact Nat.lt_succ_of_lt (serials.freed_lt serial member)
  freed_nodup := serials.freed_nodup
  apart := by
    intro ms serial here member
    obtain ⟨-, rfl⟩ | here := (added ms serial).mp here
    · exact absurd (serials.freed_lt _ member) (Nat.lt_irrefl _)
    · exact serials.apart ms serial here member
  total := by
    intro serial less
    obtain less | rfl := Nat.lt_succ_iff_lt_or_eq.mp less
    · obtain member | ⟨ms, here⟩ := serials.total serial less
      · exact .inl member
      · exact .inr ⟨ms, (added ms serial).mpr (.inr here)⟩
    · exact .inr ⟨address, (added address serial).mpr (.inl ⟨rfl, rfl⟩)⟩

/-- Some records are freed. -/
theorem free
    (serials : Serials has opens freed)
    {gone : List ℕ}
    (nodup : gone.Nodup)
    (present : ∀ serial ∈ gone, ∃ ms, has ms serial)
    (left : ∀ ms serial, has' ms serial ↔ has ms serial ∧ serial ∉ gone) :
    Serials has' opens (freed ++ gone) where
  lt := fun ms serial here =>
    serials.lt ms serial ((left ms serial).mp here).1
  inj := fun ms ms' serial here there =>
    serials.inj ms ms' serial ((left ms serial).mp here).1
      ((left ms' serial).mp there).1
  freed_lt := by
    intro serial member
    obtain member | member := List.mem_append.mp member
    · exact serials.freed_lt serial member
    · obtain ⟨ms, here⟩ := present serial member
      exact serials.lt ms serial here
  freed_nodup := by
    refine List.nodup_append.mpr ⟨serials.freed_nodup, nodup, ?_⟩
    rintro serial member _ member' rfl
    obtain ⟨ms, here⟩ := present serial member'
    exact serials.apart ms serial here member
  apart := by
    intro ms serial here member
    obtain ⟨here, absent⟩ := (left ms serial).mp here
    obtain member | member := List.mem_append.mp member
    · exact serials.apart ms serial here member
    · exact absent member
  total := by
    intro serial less
    obtain member | ⟨ms, here⟩ := serials.total serial less
    · exact .inl (List.mem_append_left gone member)
    · by_cases member : serial ∈ gone
      · exact .inl (List.mem_append_right freed member)
      · exact .inr ⟨ms, (left ms serial).mpr ⟨here, member⟩⟩

/-- Every record was freed once exactly if none is left. -/
theorem perm_range_iff
    (serials : Serials has opens freed) :
    freed.Perm (List.range opens) ↔ ∀ ms serial, ¬has ms serial := by
  rw [List.perm_ext_iff_of_nodup serials.freed_nodup List.nodup_range]
  constructor
  · intro same ms serial here
    apply serials.apart ms serial here
    rw [same, List.mem_range]
    exact serials.lt ms serial here
  · intro none serial
    rw [List.mem_range]
    constructor
    · exact serials.freed_lt serial
    · intro less
      obtain member | ⟨ms, here⟩ := serials.total serial less
      · exact member
      · exact absurd here (none ms serial)

end Serials

/-! ## What a step does -/

theorem printedEntries_append (log entries : List (StopEntry ω)) :
    printedEntries (log ++ entries) =
      printedEntries log ++ printedEntries entries :=
  List.flatMap_append

/-- The link and the list after a record was marked. -/
structure MarkedBy
    (mt mt' : MonTask κ ω)
    (ms : ℕ)
    (record record' : MonStream κ) : Prop where
  addr_eq : mt'.addr = mt.addr
  flags_eq : mt'.flags = mt.flags
  mw_eq : mt'.mw = mt.mw
  links : record.dirty ≠ .null ∧ record'.dirty = record.dirty ∧
      mt'.dirtyList = mt.dirtyList ∨
    record.dirty = .null ∧ record'.dirty = mt.dirtyList ∧
      mt'.dirtyList = .stream ms

/-- The fields that are set before a record is marked. -/
structure KeepsLink (fields : MonStream κ → MonStream κ) : Prop where
  montask_eq : ∀ record, (fields record).montask = record.montask
  dirty_eq : ∀ record, (fields record).dirty = record.dirty

theorem MarkedBy.ofFields
    {fields : MonStream κ → MonStream κ}
    {mt mt' : MonTask κ ω}
    {ms : ℕ}
    {record record' : MonStream κ}
    (keeps : KeepsLink fields)
    (marked : MarkedBy mt mt' ms (fields record) record') :
    MarkedBy mt mt' ms record record' where
  addr_eq := marked.addr_eq
  flags_eq := marked.flags_eq
  mw_eq := marked.mw_eq
  links := by
    have links := marked.links
    rwa [keeps.dirty_eq] at links

section Specs

variable [DecidableEq κ] {mt : MonTask κ ω} {heap : Records κ} {ms : ℕ}
variable {record : MonStream κ}

/-- The record after `MarkDirty`. -/
def MonStream.markedIn (record : MonStream κ) (list : Dirty) : MonStream κ :=
  { record with
    dirty := if record.dirty = .null then list else record.dirty }

/-- `MarkDirty` puts a record in front of the list if it is not on it. -/
theorem markDirty_eq
    (here : heap ms = some record)
    (own : record.montask = mt.addr) :
    ∃ mt', markDirty mt heap ms = some (mt', Function.update heap ms
        (some (record.markedIn mt.dirtyList))) ∧
      MarkedBy mt mt' ms record (record.markedIn mt.dirtyList) := by
  have marked (clean : record.dirty ≠ .null) :
      Function.update heap ms (some (record.markedIn mt.dirtyList)) = heap := by
    rw [MonStream.markedIn, if_neg clean, ← here, Function.update_eq_self]
  let list : MonTask κ ω :=
    { mt with
      dirtyList :=
        if record.dirty = .null then .stream ms else mt.dirtyList }
  refine ⟨copyCounter list record, ?_, ?_⟩
  · rw [markDirty, here, Option.bind_some, if_pos own]
    by_cases clean : record.dirty = .null
    · simp only [list, MonStream.markedIn, if_pos clean]
    · rw [marked clean]
      simp only [list, if_neg clean]
  · rw [copyCounter]
    by_cases clean : record.dirty = .null
    · cases mode : record.mode <;>
        exact ⟨rfl, rfl, rfl, .inr ⟨clean, if_pos clean, if_pos clean⟩⟩
    · cases mode : record.mode <;>
        exact ⟨rfl, rfl, rfl, .inl ⟨clean, if_neg clean, if_neg clean⟩⟩

/-- A callback sets some fields of a record and marks it. -/
theorem setAndMark_eq
    {fields : MonStream κ → MonStream κ}
    (keeps : KeepsLink fields)
    (here : heap ms = some record)
    (own : record.montask = mt.addr) :
    ∃ mt', setAndMark fields mt heap ms = some (mt', Function.update heap ms
        (some ((fields record).markedIn mt.dirtyList))) ∧
      MarkedBy mt mt' ms record ((fields record).markedIn mt.dirtyList) := by
  have own' : (fields record).montask = mt.addr :=
    (keeps.montask_eq record).trans own
  obtain ⟨mt', result, marked⟩ := markDirty_eq
    (Function.update_self ms (some (fields record)) heap) own'
  refine ⟨mt', ?_, marked.ofFields keeps⟩
  rw [setAndMark, here, Option.bind_some, result, Function.update_idem]

end Specs

namespace Monitoring

variable {s after : Monitoring κ ω}

/-- The record at an address is one of the task. -/
def Own (s : Monitoring κ ω) (ms : ℕ) (record : MonStream κ) : Prop :=
  s.heap ms = some record ∧ record.montask = s.mt.addr

/-- The record at an address is the one that was allocated after so many
others. -/
def HasSerial (s : Monitoring κ ω) (ms serial : ℕ) : Prop :=
  ∃ record, s.Own ms record ∧ record.serial = serial

/-- Nothing happens to the records. -/
structure Quiet (s after : Monitoring κ ω) : Prop where
  addr_eq : after.mt.addr = s.mt.addr
  flags_eq : after.mt.flags = s.mt.flags
  list_eq : after.mt.dirtyList = s.mt.dirtyList
  heap_eq : after.heap = s.heap
  printed_eq : printedEntries after.log = printedEntries s.log
  bound_eq : after.bound = s.bound
  records_eq : after.records = s.records
  opens_eq : after.opens = s.opens
  freed_eq : after.freed = s.freed
  finishes_eq : after.finishes = s.finishes
  moved_eq : after.moved = s.moved

/-- A callback changes other fields of the task. -/
theorem Quiet.ofTask
    {mt : MonTask κ ω}
    {destroyed : Bool}
    (addr_eq : mt.addr = s.mt.addr)
    (flags_eq : mt.flags = s.mt.flags)
    (list_eq : mt.dirtyList = s.mt.dirtyList) :
    Quiet s
      { s with
        mt := mt
        destroyed := destroyed } where
  addr_eq := addr_eq
  flags_eq := flags_eq
  list_eq := list_eq
  heap_eq := rfl
  printed_eq := rfl
  bound_eq := rfl
  records_eq := rfl
  opens_eq := rfl
  freed_eq := rfl
  finishes_eq := rfl
  moved_eq := rfl

/-- A record is allocated. -/
structure Opened
    (s after : Monitoring κ ω)
    (address : ℕ)
    (record : MonStream κ) : Prop where
  free : s.heap address = none
  montask_eq : record.montask = s.mt.addr
  dirty_eq : record.dirty = s.mt.dirtyList
  state_eq : record.state = .opened
  counter_eq : record.counter = 0
  serial_eq : record.serial = s.opens
  addr_eq : after.mt.addr = s.mt.addr
  flags_eq : after.mt.flags = s.mt.flags
  list_eq : after.mt.dirtyList = .stream address
  heap_eq : after.heap = Function.update s.heap address (some record)
  printed_eq : printedEntries after.log = printedEntries s.log
  bound_eq : after.bound = Function.update s.bound address (some record.sid)
  records_eq : after.records = insert address s.records
  opens_eq : after.opens = s.opens + 1
  freed_eq : after.freed = s.freed
  finishes_eq : after.finishes = s.finishes
  moved_eq : after.moved = s.moved

variable [DecidableEq κ]

/-- The stream that an open descriptor is bound to, according to its record. -/
def openSid (mt : κ) (found : Option (MonStream κ)) : Option ℕ :=
  found.bind fun record =>
    if record.montask = mt ∧ record.state ≠ .closed then
      some record.sid
    else
      none

/-- A record is changed, and items are counted in it. -/
structure Written
    (s after : Monitoring κ ω)
    (ms : ℕ)
    (record record' : MonStream κ)
    (items : ℕ) : Prop where
  own : s.Own ms record
  montask_eq : record'.montask = s.mt.addr
  serial_eq : record'.serial = record.serial
  counter_eq : record'.counter = record.counter + items
  marked : MarkedBy s.mt after.mt ms record record' ∨
    after.mt = s.mt ∧ record'.dirty = record.dirty ∧
      record'.state = record.state ∧ items = 0
  heap_eq : after.heap = Function.update s.heap ms (some record')
  printed_eq : printedEntries after.log = printedEntries s.log
  bound_eq : after.bound =
    Function.update s.bound ms (openSid s.mt.addr (some record'))
  records_eq : after.records = s.records
  opens_eq : after.opens = s.opens
  freed_eq : after.freed = s.freed
  finishes_eq : after.finishes = Function.update s.finishes record.serial
    (s.finishes record.serial + items)
  moved_eq : after.moved = Function.update s.moved record.sid
    (s.moved record.sid + items)

/-- The list is printed. -/
structure Printed (s after : Monitoring κ ω) (dirty : List ℕ) : Prop where
  streams : flagStreams s.mt.flags = true
  dirtied : Dirtied s.mt s.heap dirty
  mt_eq : after.mt = { s.mt with dirtyList := .dirtyEnd }
  heap_eq : after.heap = printedRecords s.heap dirty
  printed_eq : printedEntries after.log =
    printedEntries s.log ++ dirtyEntries s.heap dirty
  bound_eq : after.bound = s.bound
  records_eq : after.records =
    s.records.filter fun ms => (after.heap ms).isSome
  opens_eq : after.opens = s.opens
  freed_eq : after.freed = s.freed ++ freedSerials (dirtyEntries s.heap dirty)
  finishes_eq : after.finishes = s.finishes
  moved_eq : after.moved = s.moved

/-- What a step does. -/
inductive Stepped
    (s after : Monitoring κ ω)
    (label : MonLabel κ ω) : Prop
  | quiet (quiet : s.Quiet after)
  | opened (address : ℕ) (record : MonStream κ)
      (opened : s.Opened after address record)
  | written (ms : ℕ) (record record' : MonStream κ) (items : ℕ)
      (written : s.Written after ms record record' items)
      (sid_eq : record'.sid = record.sid ∨
        items = 0 ∧ label = .replace ms record'.sid)
  | printed (dirty : List ℕ) (printed : s.Printed after dirty)
  | foreign (ms : ℕ) (found : Option (MonStream κ))
      (before : s.Foreign (s.heap ms))
      (later : s.Foreign found)
      (after_eq : after = { s with heap := Function.update s.heap ms found })

/-- The invariant of all sequences of callbacks. -/
structure Tracked (s : Monitoring κ ω) : Prop where
  dirtied : ∃ dirty, Dirtied s.mt s.heap dirty
  bound_eq : ∀ ms, s.bound ms = openSid s.mt.addr (s.heap ms)
  records_iff : ∀ ms, ms ∈ s.records ↔ ∃ record, s.Own ms record
  serials : Serials s.HasSerial s.opens s.freed

theorem openSid_eq_some_iff
    {ms sid : ℕ} :
    openSid s.mt.addr (s.heap ms) = some sid ↔
      ∃ record, s.Own ms record ∧ record.state ≠ .closed ∧
        record.sid = sid := by
  simp only [openSid, Option.bind_eq_some_iff, Option.ite_none_right_eq_some,
    Option.some.injEq, Own, and_assoc]

/-- The record of an open descriptor. -/
theorem Tracked.own_of_bound
    (tracked : s.Tracked)
    {ms sid : ℕ}
    (bound : s.bound ms = some sid) :
    ∃ record, s.Own ms record ∧ record.state ≠ .closed ∧ record.sid = sid := by
  rw [tracked.bound_eq] at bound
  exact openSid_eq_some_iff.mp bound

/-- What a callback for an open descriptor does to its record. -/
theorem Tracked.marked
    {ms : ℕ}
    {result : MonTask κ ω × Records κ}
    (tracked : s.Tracked)
    (fields : MonStream κ → MonStream κ)
    (keeps : KeepsLink fields)
    (callable : s.Callable ms)
    (called : setAndMark fields s.mt s.heap ms = some result) :
    ∃ record mt, s.Own ms record ∧ record.state ≠ .closed ∧
      s.bound ms = some record.sid ∧
      result = (mt, Function.update s.heap ms
        (some ((fields record).markedIn s.mt.dirtyList))) ∧
      MarkedBy s.mt mt ms record ((fields record).markedIn s.mt.dirtyList) := by
  obtain ⟨sid, bound⟩ := Option.isSome_iff_exists.mp callable.2
  obtain ⟨record, own, opened, rfl⟩ := tracked.own_of_bound bound
  obtain ⟨mt, result', marked⟩ := setAndMark_eq keeps own.1 own.2
  rw [called] at result'
  exact ⟨record, mt, own, opened, bound, Option.some.inj result', marked⟩

theorem openSid_own
    {mt : κ}
    {record : MonStream κ}
    (own : record.montask = mt)
    (opened : record.state ≠ .closed) :
    openSid mt (some record) = some record.sid := by
  rw [openSid, Option.bind_some, if_pos ⟨own, opened⟩]

theorem openSid_closed
    {mt : κ}
    {record : MonStream κ}
    (closed : record.state = .closed) :
    openSid mt (some record) = none := by
  rw [openSid, Option.bind_some, if_neg (fun opened => opened.2 closed)]

/-- A descriptor that stays open is bound as before. -/
theorem bound_eq_update
    {ms : ℕ}
    {record record' : MonStream κ}
    (bound : s.bound ms = some record.sid)
    (own : record'.montask = s.mt.addr)
    (opened : record'.state ≠ .closed)
    (same : record'.sid = record.sid) :
    s.bound =
      Function.update s.bound ms (openSid s.mt.addr (some record')) := by
  rw [openSid_own own opened, same, ← bound, Function.update_eq_self]

/-- A callback without an item changes the task, a record and its descriptor. -/
theorem Written.ofRecord
    {ms : ℕ}
    {record record' : MonStream κ}
    {mt : MonTask κ ω}
    {bound : ℕ → Option ℕ}
    (own : s.Own ms record)
    (montask_eq : record'.montask = record.montask)
    (serial_eq : record'.serial = record.serial)
    (counter_eq : record'.counter = record.counter)
    (marked : MarkedBy s.mt mt ms record record' ∨
      mt = s.mt ∧ record'.dirty = record.dirty ∧ record'.state = record.state)
    (bound_eq : bound =
      Function.update s.bound ms (openSid s.mt.addr (some record'))) :
    Written s
      { s with
        mt := mt
        heap := Function.update s.heap ms (some record')
        bound := bound }
      ms record record' 0 where
  own := own
  montask_eq := montask_eq.trans own.2
  serial_eq := serial_eq
  counter_eq := counter_eq
  marked := by simpa using marked
  heap_eq := rfl
  printed_eq := rfl
  bound_eq := bound_eq
  records_eq := rfl
  opens_eq := rfl
  freed_eq := rfl
  finishes_eq := by simp
  moved_eq := by simp

/-- `MonCbStreamReadFinish` and `MonCbStreamWriteFinish` count an item. -/
theorem Tracked.finish
    {ms : ℕ}
    {result : MonTask κ ω × Records κ}
    {label : MonLabel κ ω}
    (tracked : s.Tracked)
    (callable : s.Callable ms)
    (called : monCbStreamReadFinish s.mt s.heap ms = some result) :
    Stepped s ((s.countItem ms).put result) label := by
  obtain ⟨record, mt, own, opened, bound, rfl, marked⟩ :=
    tracked.marked
      (fun ms =>
        { ms with
          counter := ms.counter + 1
          strevtFlags := ms.strevtFlags ||| stMoved })
      ⟨fun _ => rfl, fun _ => rfl⟩ callable called
  refine .written ms record
    (MonStream.markedIn
      { record with
        counter := record.counter + 1
        strevtFlags := record.strevtFlags ||| stMoved }
      s.mt.dirtyList) 1 ?_ (.inl rfl)
  exact
    { own := own
      montask_eq := own.2
      serial_eq := rfl
      counter_eq := rfl
      marked := .inl marked
      heap_eq := rfl
      printed_eq := rfl
      bound_eq := bound_eq_update bound own.2 opened rfl
      records_eq := rfl
      opens_eq := rfl
      freed_eq := rfl
      finishes_eq := by simp only [countItem, put, own.1]
      moved_eq := by simp only [countItem, put, bound] }

/-- `MonCbStreamReplace` binds a descriptor to another stream. -/
theorem Tracked.replace
    {ms newSid : ℕ}
    (tracked : s.Tracked)
    (taken : s.step (.replace ms newSid) = some after) :
    ∃ record record', s.Written after ms record record' 0 ∧
      record'.sid = newSid := by
  simp only [step, Option.ite_none_right_eq_some,
    Option.map_eq_some_iff] at taken
  obtain ⟨callable, result, called, rfl⟩ := taken
  obtain ⟨record, mt, own, opened, bound, rfl, marked⟩ :=
    tracked.marked
      (fun ms =>
        { ms with
          state := .replaced
          sid := newSid })
      ⟨fun _ => rfl, fun _ => rfl⟩ callable called
  refine ⟨record, _, .ofRecord own rfl rfl rfl (.inl marked) ?_, rfl⟩
  rw [openSid_own]
  · rfl
  · exact own.2
  · simp [MonStream.markedIn]

/-- `MonCbStreamClose` closes a descriptor. -/
theorem Tracked.close
    {ms : ℕ}
    (tracked : s.Tracked)
    (taken : s.step (.close ms) = some after) :
    ∃ record record', s.Written after ms record record' 0 ∧
      record'.sid = record.sid := by
  simp only [step, Option.ite_none_right_eq_some,
    Option.map_eq_some_iff] at taken
  obtain ⟨callable, result, called, rfl⟩ := taken
  obtain ⟨record, mt, own, opened, bound, rfl, marked⟩ :=
    tracked.marked (fun ms => { ms with state := .closed })
      ⟨fun _ => rfl, fun _ => rfl⟩ callable called
  refine ⟨record, _, .ofRecord own rfl rfl rfl (.inl marked) ?_, rfl⟩
  rw [openSid_closed]
  rfl

/-- `MonCbStreamBlockon` sets a flag of a record, and marks it. -/
theorem Tracked.blockon
    {ms : ℕ}
    (tracked : s.Tracked)
    (taken : s.step (.blockon ms) = some after) :
    ∃ record record', s.Written after ms record record' 0 ∧
      record'.sid = record.sid := by
  simp only [step, Option.ite_none_right_eq_some,
    Option.map_eq_some_iff] at taken
  obtain ⟨callable, result, called, rfl⟩ := taken
  obtain ⟨before, -, blocked⟩ := Option.bind_eq_some_iff.mp called
  obtain ⟨result, marks, rfl⟩ := Option.map_eq_some_iff.mp blocked
  obtain ⟨record, mt, own, opened, bound, rfl, marked⟩ :=
    tracked.marked
      (fun ms => { ms with strevtFlags := ms.strevtFlags ||| stBlockon })
      ⟨fun _ => rfl, fun _ => rfl⟩ callable marks
  refine ⟨record, _, .ofRecord own rfl rfl rfl (.inl ?_) ?_, rfl⟩
  · exact ⟨marked.addr_eq, marked.flags_eq, marked.mw_eq, marked.links⟩
  · exact bound_eq_update bound own.2 opened rfl

/-- `MonCbStreamWakeup` sets a flag of a record, and does not mark it. -/
theorem Tracked.wakeup
    {ms : ℕ}
    (tracked : s.Tracked)
    (taken : s.step (.wakeup ms) = some after) :
    ∃ record record', s.Written after ms record record' 0 ∧
      record'.sid = record.sid := by
  simp only [step, Option.ite_none_right_eq_some,
    Option.map_eq_some_iff] at taken
  obtain ⟨callable, heap, called, rfl⟩ := taken
  obtain ⟨sid, bound⟩ := Option.isSome_iff_exists.mp callable.2
  obtain ⟨record, own, opened, rfl⟩ := tracked.own_of_bound bound
  rw [monCbStreamWakeup, own.1, Option.map_some, Option.some.injEq] at called
  subst called
  refine ⟨record, { record with strevtFlags := record.strevtFlags ||| stWakeup },
    .ofRecord own rfl rfl rfl (.inr ⟨rfl, rfl, rfl⟩) ?_, rfl⟩
  exact bound_eq_update bound own.2 opened rfl

/-- `MonCbStreamOpen` allocates a record and marks it, or does nothing. -/
theorem open_cases
    {address sid : ℕ}
    {mode : MonMode}
    (taken : s.step (.open address sid mode) = some after) :
    s.Quiet after ∨ ∃ record, s.Opened after address record := by
  simp only [step, Option.ite_none_right_eq_some,
    Option.map_eq_some_iff] at taken
  obtain ⟨⟨-, free⟩, ⟨ms, mt, heap⟩, called, rfl⟩ := taken
  rw [monCbStreamOpen] at called
  split at called
  case isTrue =>
    obtain ⟨rfl, same⟩ := Prod.mk.inj (Option.some.inj called)
    obtain ⟨rfl, rfl⟩ := Prod.mk.inj same
    exact .inl (.ofTask rfl rfl rfl)
  case isFalse =>
    let record : MonStream κ :=
      { montask := s.mt.addr
        dirty := .null
        mode := mode
        state := .opened
        sid := sid
        counter := 0
        strevtFlags := 0
        serial := s.opens }
    obtain ⟨mt', result, marked⟩ := markDirty_eq
      (Function.update_self address (some record) s.heap)
      (rfl : record.montask = s.mt.addr)
    obtain ⟨result', found, same⟩ := Option.map_eq_some_iff.mp called
    obtain rfl := Option.some.inj (result.symm.trans found)
    cases same
    obtain ⟨listed, -⟩ | ⟨-, dirty_eq, list_eq⟩ := marked.links
    · exact absurd rfl listed
    refine .inr ⟨record.markedIn s.mt.dirtyList, ?_⟩
    exact
      { free := free
        montask_eq := rfl
        dirty_eq := dirty_eq
        state_eq := rfl
        counter_eq := rfl
        serial_eq := rfl
        addr_eq := marked.addr_eq
        flags_eq := marked.flags_eq
        list_eq := list_eq
        heap_eq := Function.update_idem ..
        printed_eq := rfl
        bound_eq := rfl
        records_eq := rfl
        opens_eq := rfl
        freed_eq := rfl
        finishes_eq := rfl
        moved_eq := rfl }

/-- The records of the task are not freed. -/
theorem Tracked.filter_records
    (tracked : s.Tracked) :
    s.records.filter (fun ms => (s.heap ms).isSome) = s.records := by
  rw [Finset.filter_eq_self]
  intro ms member
  obtain ⟨record, here, -⟩ := (tracked.records_iff ms).mp member
  rw [here]
  rfl

/-- `MonCbTaskStop` prints the dirty list if the task has a worker and its streams
are monitored. -/
theorem Tracked.stop
    {state : Char}
    {rounds : ℕ}
    {mt : MonTask κ ω}
    {heap : Records κ}
    {entries : List (StopEntry ω)}
    (tracked : s.Tracked)
    (stopped : monCbTaskStop s.mt s.heap state rounds =
      some (mt, heap, entries)) :
    (s.mt.mw = none ∨ flagStreams s.mt.flags = false) ∧
        mt = s.mt ∧ heap = s.heap ∧ printedEntries entries = [] ∨
      flagStreams s.mt.flags = true ∧ ∃ dirty, Dirtied s.mt s.heap dirty ∧
        mt = { s.mt with dirtyList := .dirtyEnd } ∧
        heap = printedRecords s.heap dirty ∧
        printedEntries entries = dirtyEntries s.heap dirty := by
  rw [monCbTaskStop] at stopped
  cases worker : s.mt.mw with
  | none =>
      simp only [worker, Option.some.injEq] at stopped
      cases stopped
      exact .inl ⟨.inl rfl, rfl, rfl, rfl⟩
  | some mw =>
      simp only [worker] at stopped
      split at stopped
      case isTrue streams =>
        obtain ⟨dirty, dirtied⟩ := tracked.dirtied
        obtain ⟨result, printed, same⟩ := Option.map_eq_some_iff.mp stopped
        have enough :=
          length_le_of_printDirtyList dirtied.chain dirtied.nodup printed
        rw [printDirtyList_eq dirtied.chain dirtied.nodup enough,
          Option.some.injEq] at printed
        subst printed
        cases same
        refine .inr ⟨streams, dirty, dirtied, ?_, rfl, ?_⟩
        · rw [← worker]
        · simp [printedEntries]
      case isFalse streams =>
        cases stopped
        exact .inl ⟨.inr (Bool.eq_false_of_not_eq_true streams), rfl, rfl, rfl⟩

/-- A stop leaves the records where they are, or it prints the list. -/
theorem Tracked.stopped
    {state : Char}
    {rounds : ℕ}
    (tracked : s.Tracked)
    (taken : s.step (.stop state rounds) = some after) :
    (s.mt.mw = none ∨ flagStreams s.mt.flags = false) ∧ s.Quiet after ∨
      ∃ dirty, s.Printed after dirty := by
  simp only [step, Option.ite_none_right_eq_some,
    Option.map_eq_some_iff] at taken
  obtain ⟨-, ⟨mt, heap, entries⟩, stopped, rfl⟩ := taken
  obtain ⟨without, rfl, rfl, quiet⟩ |
    ⟨streams, dirty, dirtied, rfl, rfl, printed⟩ := tracked.stop stopped
  · refine .inl ⟨without, ?_⟩
    exact
      { addr_eq := rfl
        flags_eq := rfl
        list_eq := rfl
        heap_eq := rfl
        printed_eq := by
          rw [printedEntries_append, quiet, List.append_nil]
        bound_eq := rfl
        records_eq := tracked.filter_records
        opens_eq := rfl
        freed_eq := by simp [freedSerials, quiet]
        finishes_eq := rfl
        moved_eq := rfl }
  · refine .inr ⟨dirty, ?_⟩
    exact
      { streams := streams
        dirtied := dirtied
        mt_eq := rfl
        heap_eq := rfl
        printed_eq := by rw [printedEntries_append, printed]
        bound_eq := rfl
        records_eq := rfl
        opens_eq := rfl
        freed_eq := by simp only [printed]
        finishes_eq := rfl
        moved_eq := rfl }

/-- What a step does is one of the descriptions. -/
theorem Tracked.stepped
    {label : MonLabel κ ω}
    (tracked : s.Tracked)
    (taken : s.step label = some after) :
    Stepped s after label := by
  cases label with
  | assign mw =>
      simp only [step, Option.ite_none_right_eq_some, Option.some.injEq] at taken
      obtain ⟨-, rfl⟩ := taken
      exact .quiet (.ofTask rfl rfl rfl)
  | start =>
      simp only [step, Option.ite_none_right_eq_some, Option.some.injEq] at taken
      obtain ⟨-, rfl⟩ := taken
      exact .quiet (.ofTask rfl rfl rfl)
  | «open» address sid mode =>
      obtain quiet | ⟨record, opened⟩ := open_cases taken
      · exact .quiet quiet
      · exact .opened address record opened
  | close ms =>
      obtain ⟨record, record', written, same⟩ := tracked.close taken
      exact .written ms record record' 0 written (.inl same)
  | replace ms newSid =>
      obtain ⟨record, record', written, rfl⟩ := tracked.replace taken
      exact .written ms record record' 0 written (.inr ⟨rfl, rfl⟩)
  | readFinish ms =>
      simp only [step, Option.ite_none_right_eq_some,
        Option.map_eq_some_iff] at taken
      obtain ⟨callable, result, called, rfl⟩ := taken
      exact tracked.finish callable called
  | writeFinish ms =>
      simp only [step, Option.ite_none_right_eq_some,
        Option.map_eq_some_iff] at taken
      obtain ⟨callable, result, called, rfl⟩ := taken
      exact tracked.finish callable called
  | blockon ms =>
      obtain ⟨record, record', written, same⟩ := tracked.blockon taken
      exact .written ms record record' 0 written (.inl same)
  | wakeup ms =>
      obtain ⟨record, record', written, same⟩ := tracked.wakeup taken
      exact .written ms record record' 0 written (.inl same)
  | stop state rounds =>
      obtain ⟨-, quiet⟩ | ⟨dirty, printed⟩ := tracked.stopped taken
      · exact .quiet quiet
      · exact .printed dirty printed
  | destroy =>
      simp only [step, Option.ite_none_right_eq_some, Option.some.injEq] at taken
      obtain ⟨-, rfl⟩ := taken
      exact .quiet (.ofTask rfl rfl rfl)
  | others ms record =>
      simp only [step, Option.ite_none_right_eq_some, Option.some.injEq] at taken
      obtain ⟨⟨before, later⟩, after_eq⟩ := taken
      exact .foreign ms record before later after_eq.symm

end Monitoring

end Lpel
