import Lpel.Lib.Machine
import Lpel.Monitoring.Worker
import Mathlib.Data.Finset.Filter
import Mathlib.Data.Finset.Insert
import Mathlib.Logic.Function.Basic

/-!
# Monitoring a task and its streams

The callbacks of `monitoring.c` for a task and for the descriptors that it has
open.  Each descriptor has a record, and the records with something to print are
on the dirty list of the task.  The field `dirty` of a record is both the link of
this list and the mark of being on it.

A callback has no result where it follows a pointer to a freed record or fails an
assertion.
-/

namespace Lpel

/-- A `mon_stream_t *` in the field `dirty` or in `dirty_list`. -/
inductive Dirty
  | null
  /-- `ST_DIRTY_END`. -/
  | dirtyEnd
  | stream (ms : ℕ)
  deriving DecidableEq

/-- The mode of a descriptor. -/
inductive MonMode
  | r
  | w
  deriving DecidableEq

/-- The state of a record, with the names of the source. -/
inductive MonState
  | inuse
  | opened
  | closed
  | replaced
  deriving DecidableEq

/-- `mon_stream_t`. -/
structure MonStream (κ : Type) where
  montask : κ
  dirty : Dirty
  mode : MonMode
  state : MonState
  sid : ℕ
  counter : ℕ
  strevtFlags : ℕ
  /-- How many records the task had before. -/
  serial : ℕ
  deriving DecidableEq

/-- `ST_MOVED`. -/
def stMoved : ℕ := 1

/-- `ST_WAKEUP`. -/
def stWakeup : ℕ := 2

/-- `ST_BLOCKON`. -/
def stBlockon : ℕ := 4

/-- `mon_task_t`, without its name and its times. -/
structure MonTask (κ ω : Type) where
  /-- The address of the structure. -/
  addr : κ
  mw : Option ω
  tid : ℕ
  flags : ℕ
  dirtyList : Dirty
  lastInCnt : ℕ
  lastOutCnt : ℕ
  blockon : Char

/-- What is printed of a record. -/
structure StreamEntry where
  sid : ℕ
  mode : MonMode
  state : MonState
  counter : ℕ
  blockon : Bool
  wakeup : Bool
  moved : Bool
  /-- The record that it is printed of. -/
  serial : ℕ
  deriving DecidableEq

/-- What is printed when a task stops, without the times. -/
structure StopEntry (ω : Type) where
  /-- The worker with the file. -/
  mw : ω
  status : Char
  tid : ℕ
  streams : List StreamEntry

/-- The records, by their addresses. -/
abbrev Records (κ : Type) : Type := ℕ → Option (MonStream κ)

section Callbacks

variable {κ ω : Type} [DecidableEq κ]

/-- The entry of a record. -/
def printEntry (ms : MonStream κ) : StreamEntry where
  sid := ms.sid
  mode := ms.mode
  state := ms.state
  counter := ms.counter
  blockon := ms.strevtFlags.testBit 2
  wakeup := ms.strevtFlags.testBit 1
  moved := ms.strevtFlags.testBit 0
  serial := ms.serial

/-- The record after it was printed, or `none` if it is freed then. -/
def printedRecord (ms : MonStream κ) : Option (MonStream κ) :=
  match ms.state with
  | .opened | .replaced | .inuse =>
      some
        { ms with
          counter := 0
          state := .inuse
          dirty := .null
          strevtFlags := 0 }
  | .closed => none

/-- The loop of `PrintDirtyList`, with what is printed.  The first argument bounds
the number of rounds. -/
def printDirtyList (mt : κ) :
    ℕ → Records κ → Dirty → Option (Records κ × List StreamEntry)
  | _, heap, .dirtyEnd => some (heap, [])
  | 0, _, _ => none
  | _ + 1, _, .null => none
  | rounds + 1, heap, .stream ms =>
      (heap ms).bind fun record =>
        -- `assert( ms->montask == mt )`
        if record.montask = mt then
          (printDirtyList mt rounds
            (Function.update heap ms (printedRecord record)) record.dirty).map
              fun (heap, entries) => (heap, printEntry record :: entries)
        else
          none

/-- The `switch` of `MarkDirty`. -/
def copyCounter (mt : MonTask κ ω) (record : MonStream κ) : MonTask κ ω :=
  match record.mode with
  | .r => { mt with lastInCnt := record.counter }
  | .w => { mt with lastOutCnt := record.counter }

/-- `MarkDirty`, for a record of the task. -/
def markDirty (mt : MonTask κ ω) (heap : Records κ) (ms : ℕ) :
    Option (MonTask κ ω × Records κ) :=
  (heap ms).bind fun record =>
    if record.montask = mt.addr then
      let (mt, heap) :=
        if record.dirty = .null then
          ({ mt with dirtyList := .stream ms },
            Function.update heap ms
              (some { record with dirty := mt.dirtyList }))
        else
          (mt, heap)
      some (copyCounter mt record, heap)
    else
      none

/-- Some fields of a record are set, and then it is marked. -/
def setAndMark
    (fields : MonStream κ → MonStream κ)
    (mt : MonTask κ ω)
    (heap : Records κ)
    (ms : ℕ) : Option (MonTask κ ω × Records κ) :=
  (heap ms).bind fun record =>
    markDirty mt (Function.update heap ms (some (fields record))) ms

/-- `MonCbStreamOpen`, with the address that `malloc` returns; `none` for `NULL`
as its result. -/
def monCbStreamOpen
    (mt : MonTask κ ω)
    (heap : Records κ)
    (address serial sid : ℕ)
    (mode : MonMode) : Option (Option ℕ × MonTask κ ω × Records κ) :=
  if ¬(flagStreams mt.flags || flagTask mt.flags) then
    some (none, mt, heap)
  else
    let ms : MonStream κ :=
      { montask := mt.addr
        dirty := .null
        mode := mode
        state := .opened
        sid := sid
        counter := 0
        strevtFlags := 0
        serial := serial }
    (markDirty mt (Function.update heap address (some ms)) address).map
      fun (mt, heap) => (some address, mt, heap)

/-- `MonCbStreamClose`. -/
def monCbStreamClose :
    MonTask κ ω → Records κ → ℕ → Option (MonTask κ ω × Records κ) :=
  setAndMark fun ms => { ms with state := .closed }

/-- `MonCbStreamReplace`. -/
def monCbStreamReplace (newSid : ℕ) :
    MonTask κ ω → Records κ → ℕ → Option (MonTask κ ω × Records κ) :=
  setAndMark fun ms =>
    { ms with
      state := .replaced
      sid := newSid }

/-- `MonCbStreamReadFinish`. -/
def monCbStreamReadFinish :
    MonTask κ ω → Records κ → ℕ → Option (MonTask κ ω × Records κ) :=
  setAndMark fun ms =>
    { ms with
      counter := ms.counter + 1
      strevtFlags := ms.strevtFlags ||| stMoved }

/-- `MonCbStreamWriteFinish`. -/
def monCbStreamWriteFinish :
    MonTask κ ω → Records κ → ℕ → Option (MonTask κ ω × Records κ) :=
  setAndMark fun ms =>
    { ms with
      counter := ms.counter + 1
      strevtFlags := ms.strevtFlags ||| stMoved }

/-- `MonCbStreamBlockon`. -/
def monCbStreamBlockon (mt : MonTask κ ω) (heap : Records κ) (ms : ℕ) :
    Option (MonTask κ ω × Records κ) :=
  (heap ms).bind fun record =>
    (setAndMark
      (fun ms => { ms with strevtFlags := ms.strevtFlags ||| stBlockon })
      mt heap ms).map fun (mt, heap) =>
        ({ mt with
          blockon :=
            match record.mode with
            | .r => 'I'
            | .w => 'O' },
          heap)

/-- `MonCbStreamWakeup`, which does not mark the record. -/
def monCbStreamWakeup (heap : Records κ) (ms : ℕ) : Option (Records κ) :=
  (heap ms).map fun record =>
    Function.update heap ms
      (some { record with strevtFlags := record.strevtFlags ||| stWakeup })

/-- `MonCbTaskStart`, without the times. -/
def monCbTaskStart (mt : MonTask κ ω) : MonTask κ ω :=
  { mt with blockon := 'A' }

/-- `TASK_BLOCKED`. -/
def taskBlocked : Char := 'B'

/-- `TASK_ZOMBIE`. -/
def taskZombie : Char := 'Z'

/-- `MonCbTaskStop`, with what it prints. -/
def monCbTaskStop
    (mt : MonTask κ ω)
    (heap : Records κ)
    (state : Char)
    (rounds : ℕ) : Option (MonTask κ ω × Records κ × List (StopEntry ω)) :=
  match mt.mw with
  | none => some (mt, heap, [])
  | some mw =>
      let entry (streams : List StreamEntry) : StopEntry ω :=
        { mw := mw
          status := if state = taskBlocked then mt.blockon else state
          tid := mt.tid
          streams := streams }
      if flagStreams mt.flags then
        (printDirtyList mt.addr rounds heap mt.dirtyList).map
          fun (heap, streams) =>
            ({ mt with dirtyList := .dirtyEnd }, heap, [entry streams])
      else
        some (mt, heap, [entry []])

end Callbacks

/-- `LpelMonTaskCreate`, at the address that `malloc` returns. -/
def lpelMonTaskCreate {κ ω : Type} (addr : κ) (tid flags : ℕ) :
    MonTask κ ω where
  addr := addr
  mw := none
  tid := tid
  flags := flags
  dirtyList := .dirtyEnd
  lastInCnt := 0
  lastOutCnt := 0
  blockon := Char.ofNat 0

/-! ## Sequences of callbacks -/

/-- A monitored task, the records of all tasks, and what happened to its own. -/
structure Monitoring (κ ω : Type) where
  mt : MonTask κ ω
  heap : Records κ
  log : List (StopEntry ω)
  /-- The descriptors that are open, each with the stream that it is bound to. -/
  bound : ℕ → Option ℕ
  /-- The records of the task that were not freed. -/
  records : Finset ℕ
  /-- How many records were allocated. -/
  opens : ℕ
  /-- The records that were freed. -/
  freed : List ℕ
  /-- The calls of `MonCbStreamReadFinish` and `MonCbStreamWriteFinish` for each
  record. -/
  finishes : ℕ → ℕ
  /-- The items that were moved for each stream. -/
  moved : ℕ → ℕ
  destroyed : Bool

/-- The callbacks of a task, and what others do to the records of theirs. -/
inductive MonLabel (κ ω : Type)
  | assign (mw : Option ω)
  | start
  | open (address sid : ℕ) (mode : MonMode)
  | close (ms : ℕ)
  | replace (ms newSid : ℕ)
  | readFinish (ms : ℕ)
  | writeFinish (ms : ℕ)
  | blockon (ms : ℕ)
  | wakeup (ms : ℕ)
  | stop (state : Char) (rounds : ℕ)
  | destroy
  | others (ms : ℕ) (record : Option (MonStream κ))

/-- The entries of streams in the log. -/
def printedEntries {ω : Type} (log : List (StopEntry ω)) : List StreamEntry :=
  log.flatMap StopEntry.streams

/-- The records that were freed after they were printed. -/
def freedSerials (entries : List StreamEntry) : List ℕ :=
  (entries.filter fun entry => entry.state = .closed).map StreamEntry.serial

namespace Monitoring

variable {κ ω : Type}

/-- A callback has changed the task and its records. -/
def put (s : Monitoring κ ω) (result : MonTask κ ω × Records κ) :
    Monitoring κ ω :=
  { s with
    mt := result.1
    heap := result.2 }

/-- An item was moved through a descriptor. -/
def countItem (s : Monitoring κ ω) (ms : ℕ) : Monitoring κ ω :=
  { s with
    finishes :=
      match s.heap ms with
      | none => s.finishes
      | some record =>
          Function.update s.finishes record.serial
            (s.finishes record.serial + 1)
    moved :=
      match s.bound ms with
      | none => s.moved
      | some sid => Function.update s.moved sid (s.moved sid + 1) }

/-- Callbacks are called for open descriptors. -/
def Callable (s : Monitoring κ ω) (ms : ℕ) : Prop :=
  s.destroyed = false ∧ (s.bound ms).isSome = true

instance (s : Monitoring κ ω) (ms : ℕ) : Decidable (s.Callable ms) :=
  inferInstanceAs (Decidable (_ ∧ _))

/-- Another task has this record, or nobody. -/
def Foreign (s : Monitoring κ ω) (record : Option (MonStream κ)) : Prop :=
  record.map MonStream.montask ≠ some s.mt.addr

variable [DecidableEq κ]

instance (s : Monitoring κ ω) (record : Option (MonStream κ)) :
    Decidable (s.Foreign record) :=
  inferInstanceAs (Decidable (_ ≠ _))

/-- A callback, or `none` where it is not allowed or has no result. -/
def step (s : Monitoring κ ω) : MonLabel κ ω → Option (Monitoring κ ω)
  | .assign mw =>
      if s.destroyed = false then
        some { s with mt := { s.mt with mw := mw } }
      else
        none
  | .start =>
      if s.destroyed = false then
        some { s with mt := monCbTaskStart s.mt }
      else
        none
  | .open address sid mode =>
      if s.destroyed = false ∧ s.heap address = none then
        (monCbStreamOpen s.mt s.heap address s.opens sid mode).map
          fun (ms, mt, heap) =>
            match ms with
            | none => s.put (mt, heap)
            | some ms =>
                { s.put (mt, heap) with
                  bound := Function.update s.bound ms (some sid)
                  records := insert ms s.records
                  opens := s.opens + 1 }
      else
        none
  | .close ms =>
      if s.Callable ms then
        (monCbStreamClose s.mt s.heap ms).map fun result =>
          { s.put result with bound := Function.update s.bound ms none }
      else
        none
  | .replace ms newSid =>
      if s.Callable ms then
        (monCbStreamReplace newSid s.mt s.heap ms).map fun result =>
          { s.put result with
            bound := Function.update s.bound ms (some newSid) }
      else
        none
  | .readFinish ms =>
      if s.Callable ms then
        (monCbStreamReadFinish s.mt s.heap ms).map (s.countItem ms).put
      else
        none
  | .writeFinish ms =>
      if s.Callable ms then
        (monCbStreamWriteFinish s.mt s.heap ms).map (s.countItem ms).put
      else
        none
  | .blockon ms =>
      if s.Callable ms then
        (monCbStreamBlockon s.mt s.heap ms).map s.put
      else
        none
  | .wakeup ms =>
      if s.Callable ms then
        (monCbStreamWakeup s.heap ms).map fun heap => { s with heap := heap }
      else
        none
  | .stop state rounds =>
      if s.destroyed = false then
        (monCbTaskStop s.mt s.heap state rounds).map fun (mt, heap, entries) =>
          { s.put (mt, heap) with
            log := s.log ++ entries
            records := s.records.filter fun ms => (heap ms).isSome
            freed := s.freed ++ freedSerials (printedEntries entries) }
      else
        none
  | .destroy =>
      if s.destroyed = false then some { s with destroyed := true } else none
  | .others ms record =>
      if s.Foreign (s.heap ms) ∧ s.Foreign record then
        some { s with heap := Function.update s.heap ms record }
      else
        none

/-- The task was just created, and others may have records. -/
def initial (addr : κ) (tid flags : ℕ) (heap : Records κ) :
    Monitoring κ ω where
  mt := lpelMonTaskCreate addr tid flags
  heap := heap
  log := []
  bound := fun _ => none
  records := ∅
  opens := 0
  freed := []
  finishes := fun _ => 0
  moved := fun _ => 0
  destroyed := false

end Monitoring

/-- All sequences of callbacks of a task with the given flags. -/
def monMachine (κ ω : Type) [DecidableEq κ] (flags : ℕ) :
    Machine (Monitoring κ ω) (MonLabel κ ω) where
  init s := ∃ addr tid heap, s = Monitoring.initial addr tid flags heap ∧
    ∀ ms, s.Foreign (heap ms)
  next := Monitoring.step

end Lpel
