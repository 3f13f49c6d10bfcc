import Mathlib.Data.Int.Basic
import Lpel.Hrc.Buffer
import Lpel.Lib.Machine

/-!
# Streams of the hierarchical back end

One stream of `hrc_stream.c` with the task that writes to it and the task that
reads from it.  The buffer is unbounded, so `e_sem` guards only a stream whose
type is `LPEL_STREAM_ENTRY`.  The type is an ordinary field: an open by a wrapper
overwrites it, and `LpelStreamReplace` copies it from another stream.

A step is one access to shared memory.  In particular the three accesses of
`LpelBufferPut`, the two of `LpelBufferPop`, the tests of the type and the final
`write_cnt++` are steps of their own.
-/

namespace Lpel
namespace Hrc

variable {α : Type}

/-- `lpel_stream_type_t`. -/
inductive StreamType
  | entry
  | middle
  | exit
  deriving DecidableEq

/-- Where the producer is in `LpelStreamWrite`. -/
inductive WritePc (α : Type)
  | idle
  /-- The type was `LPEL_STREAM_ENTRY`, before the P operation on `e_sem`. -/
  | pE (item : α)
  /-- `e_sem` was 0, before `LpelTaskBlockStream`. -/
  | toBlock (item : α)
  | blocked (item : α)
  /-- Before `createEntry`. -/
  | alloc (item : α)
  /-- Before `buf->tail->next = ...`. -/
  | link (address : ℕ) (item : α)
  /-- Before `buf->tail = buf->tail->next`. -/
  | advance (address : ℕ) (item : α)
  /-- Before the V operation on `n_sem`. -/
  | vN
  /-- `n_sem` was negative, before the lookup of the consumer. -/
  | lookup
  | unblock
  /-- Before `sd->stream->write_cnt++`. -/
  | count
  deriving DecidableEq

/-- Where the consumer is in `LpelStreamRead` or in the teardown. -/
inductive ReadPc (α : Type)
  | idle
  /-- `n_sem` was 0, before `LpelTaskBlockStream`. -/
  | toBlock
  | blocked
  /-- Before `LpelBufferTop`. -/
  | top
  /-- Before `buf->head = t->next`. -/
  | pop (item : α)
  /-- Before the old head is freed. -/
  | release (old : ℕ)
  /-- Before the type is tested. -/
  | typeTest
  /-- Before the V operation on `e_sem`. -/
  | vE
  /-- `e_sem` was negative, before the lookup of the producer. -/
  | lookup
  | unblock
  /-- Before `sd->stream->read_cnt++`. -/
  | count
  /-- The pointers are unset, before `LpelWorkerPutStream`. -/
  | pool
  deriving DecidableEq

/-- `lpel_stream_t` with what its two sides are doing. -/
structure Stream (α : Type) where
  buffer : Buffer α
  nSem : ℤ
  eSem : ℤ
  type : StreamType
  writeCnt : ℕ
  readCnt : ℕ
  /-- Whether `s->prod_sd` is set. -/
  prodSd : Bool
  /-- Whether `s->cons_sd` is set. -/
  consSd : Bool
  /-- Whether the descriptor of the producer points to the stream. -/
  prodStream : Bool
  /-- Whether the producer has the stream open. -/
  prodOpen : Bool
  /-- Whether the consumer has begun to free the stream. -/
  freed : Bool
  /-- Whether the stream is in a free pool. -/
  pooled : Bool
  prod : WritePc α
  cons : ReadPc α
  /-- Wakeups sent to the producer and not yet delivered. -/
  prodWake : ℕ
  /-- Wakeups sent to the consumer and not yet delivered. -/
  consWake : ℕ
  /-- History: the items put. -/
  written : List α
  /-- History: the items popped. -/
  popped : List α
  /-- History: the items for which the producer found another type than
  `LPEL_STREAM_ENTRY`, so that it did no P on `e_sem`. -/
  writtenPlain : ℕ
  /-- History: the items for which the consumer found another type. -/
  readPlain : ℕ
  /-- History: the items for which P on `e_sem` was done. -/
  pOps : ℕ
  /-- History: the items for which V on `e_sem` was done. -/
  vOps : ℕ
  /-- History: the times the consumer committed to block. -/
  readBlocks : ℕ
  /-- History: the calls of `LpelTaskUnblock` for the consumer. -/
  readUnblocks : ℕ

/-- What happens to the stream next. -/
inductive StreamLabel (α : Type)
  /-- A task opens it for writing; the flag says whether it is a wrapper. -/
  | openWrite (wrapper : Bool)
  | openRead (wrapper : Bool)
  /-- The producer calls `LpelStreamWrite`. -/
  | write (item : α)
  /-- The producer continues; `malloc` would return the address. -/
  | prod (address : ℕ)
  | resumeProd
  /-- The producer calls `LpelStreamClose(out, 0)`. -/
  | closeOut
  /-- The consumer calls `LpelStreamRead`. -/
  | read
  | cons
  | resumeCons
  /-- The consumer calls `LpelStreamClose(in, 1)`. -/
  | closeIn
  /-- The consumer calls `LpelStreamReplace` with another stream. -/
  | replaceAway
  /-- A consumer of a stream of the given type replaces that stream by this
  one. -/
  | replaceOnto (type : StreamType)

/-- The producer is outside of `LpelStreamWrite`. -/
def WritePc.isIdle : WritePc α → Bool
  | .idle => true
  | _ => false

/-- The consumer is outside of `LpelStreamRead`. -/
def ReadPc.isIdle : ReadPc α → Bool
  | .idle => true
  | _ => false

theorem WritePc.eq_idle {pc : WritePc α} (idle : pc.isIdle = true) :
    pc = .idle := by
  cases pc with
  | idle => rfl
  | _ => cases idle

theorem ReadPc.eq_idle {pc : ReadPc α} (idle : pc.isIdle = true) :
    pc = .idle := by
  cases pc with
  | idle => rfl
  | _ => cases idle

/-- `LpelStreamOpen` for writing. -/
def lpelStreamOpenWrite (stream : Stream α) (wrapper : Bool) :
    Option (Stream α) :=
  if stream.prod.isIdle ∧ stream.freed = false then
    some { stream with
      prodSd := true
      prodStream := true
      prodOpen := true
      type := if wrapper then .entry else stream.type }
  else
    none

/-- `LpelStreamOpen` for reading. -/
def lpelStreamOpenRead (stream : Stream α) (wrapper : Bool) :
    Option (Stream α) :=
  if stream.cons.isIdle ∧ stream.freed = false then
    some { stream with
      consSd := true
      type := if wrapper then .exit else stream.type }
  else
    none

/-- The first step of `LpelStreamWrite`: the test of the type. -/
def lpelStreamWrite (stream : Stream α) (item : α) : Option (Stream α) :=
  if stream.prod.isIdle ∧ stream.prodOpen ∧ stream.prodStream then
    some (
      if stream.type = .entry then
        { stream with prod := .pE item }
      else
        { stream with
          writtenPlain := stream.writtenPlain + 1
          prod := .alloc item })
  else
    none

/-- The P operation on `e_sem`. -/
def reserveSpace (stream : Stream α) (item : α) : Stream α :=
  { stream with
    eSem := stream.eSem - 1
    pOps := stream.pOps + 1
    prod := if stream.eSem = 0 then .toBlock item else .alloc item }

/-- The V operation on `n_sem`, which decides whether to wake the consumer. -/
def releaseItem (stream : Stream α) : Stream α :=
  { stream with
    nSem := stream.nSem + 1
    prod := if stream.nSem < 0 then .lookup else .count }

/-- Whether the next step of the producer dereferences `sd->stream`. -/
def WritePc.dereferences : WritePc α → Bool
  | .idle | .toBlock _ | .blocked _ | .unblock => false
  | _ => true

/-- A later step of `LpelStreamWrite`.  It is not enabled where it would
dereference a pointer that has been unset. -/
def writeStep (stream : Stream α) (address : ℕ) : Option (Stream α) :=
  if stream.prod.dereferences ∧ stream.prodStream = false then
    none
  else
    match stream.prod with
    | .pE item => some (reserveSpace stream item)
    | .toBlock item => some { stream with prod := .blocked item }
    | .alloc item =>
        if (stream.buffer.heap address).isNone then
          some { stream with
            buffer := createEntry stream.buffer address (some item)
            prod := .link address item }
        else
          none
    | .link new item =>
        some { stream with
          buffer := linkTail stream.buffer new
          prod := .advance new item }
    | .advance _ item =>
        some { stream with
          buffer := advanceTail stream.buffer
          written := stream.written ++ [item]
          prod := .vN }
    | .vN => some (releaseItem stream)
    | .lookup => some { stream with prod := .unblock }
    | .unblock =>
        some { stream with
          consWake := stream.consWake + 1
          readUnblocks := stream.readUnblocks + 1
          prod := .count }
    | .count =>
        some { stream with
          writeCnt := stream.writeCnt + 1
          prod := .idle }
    | .idle | .blocked _ => none

/-- Delivery of a wakeup to the blocked producer. -/
def resumeWrite (stream : Stream α) : Option (Stream α) :=
  match stream.prod with
  | .blocked item =>
      if 0 < stream.prodWake then
        some { stream with
          prod := .alloc item
          prodWake := stream.prodWake - 1 }
      else
        none
  | _ => none

/-- The first step of `LpelStreamRead`: the P operation on `n_sem`. -/
def lpelStreamRead (stream : Stream α) : Option (Stream α) :=
  if stream.cons.isIdle ∧ stream.consSd then
    if stream.nSem = 0 then
      some { stream with
        nSem := stream.nSem - 1
        readBlocks := stream.readBlocks + 1
        cons := .toBlock }
    else
      some { stream with nSem := stream.nSem - 1, cons := .top }
  else
    none

/-- The V operation on `e_sem`, which decides whether to wake the producer. -/
def releaseSpace (stream : Stream α) : Stream α :=
  { stream with
    eSem := stream.eSem + 1
    vOps := stream.vOps + 1
    cons := if stream.eSem < 0 then .lookup else .count }

/-- A later step of `LpelStreamRead`, or the end of the teardown. -/
def readStep (stream : Stream α) : Option (Stream α) :=
  match stream.cons with
  | .toBlock => some { stream with cons := .blocked }
  | .top =>
      (lpelBufferTop stream.buffer).map fun item =>
        { stream with cons := .pop item }
  | .pop item =>
      some { stream with
        buffer := advanceHead stream.buffer
        popped := stream.popped ++ [item]
        cons := .release stream.buffer.head }
  | .release old =>
      some { stream with
        buffer := freeEntry stream.buffer old
        cons := .typeTest }
  | .typeTest =>
      some (
        if stream.type = .entry then
          { stream with cons := .vE }
        else
          { stream with
            readPlain := stream.readPlain + 1
            cons := .count })
  | .vE => some (releaseSpace stream)
  | .lookup => some { stream with cons := .unblock }
  | .unblock =>
      some { stream with
        prodWake := stream.prodWake + 1
        cons := .count }
  | .count =>
      some { stream with
        readCnt := stream.readCnt + 1
        cons := .idle }
  | .pool => some { stream with pooled := true, cons := .idle }
  | .idle | .blocked => none

/-- Delivery of a wakeup to the blocked consumer. -/
def resumeRead (stream : Stream α) : Option (Stream α) :=
  match stream.cons with
  | .blocked =>
      if 0 < stream.consWake then
        some { stream with cons := .top, consWake := stream.consWake - 1 }
      else
        none
  | _ => none

/-- The part of `LpelStreamClose(in, 1)` and of `LpelStreamReplace` that frees
the old stream; its two assertions are conditions of the step. -/
def freeStream (stream : Stream α) : Option (Stream α) :=
  if stream.cons.isIdle ∧ stream.consSd ∧ stream.prodSd ∧
      lpelBufferIsEmpty stream.buffer then
    some { stream with
      prodStream := false
      prodSd := false
      consSd := false
      freed := true
      cons := .pool }
  else
    none

/-- The part of `LpelStreamReplace` that takes over the new stream, with the
type of the old one. -/
def takeOver (stream : Stream α) (type : StreamType) : Option (Stream α) :=
  if stream.cons.isIdle ∧ stream.consSd ∧ stream.freed = false then
    some { stream with type := type }
  else
    none

/-- One step of the stream. -/
def streamNext (stream : Stream α) : StreamLabel α → Option (Stream α)
  | .openWrite wrapper => lpelStreamOpenWrite stream wrapper
  | .openRead wrapper => lpelStreamOpenRead stream wrapper
  | .write item => lpelStreamWrite stream item
  | .prod address => writeStep stream address
  | .resumeProd => resumeWrite stream
  | .closeOut =>
      if stream.prod.isIdle ∧ stream.prodOpen then
        some { stream with prodOpen := false }
      else
        none
  | .read => lpelStreamRead stream
  | .cons => readStep stream
  | .resumeCons => resumeRead stream
  | .closeIn | .replaceAway => freeStream stream
  | .replaceOnto type => takeOver stream type

/-- `LpelStreamCreate`. -/
def lpelStreamCreate (size : StreamSize) : Stream α where
  buffer := lpelBufferInit 0
  nSem := 0
  eSem := size.val
  type := .middle
  writeCnt := 0
  readCnt := 0
  prodSd := false
  consSd := false
  prodStream := false
  prodOpen := false
  freed := false
  pooled := false
  prod := .idle
  cons := .idle
  prodWake := 0
  consWake := 0
  written := []
  popped := []
  writtenPlain := 0
  readPlain := 0
  pOps := 0
  vOps := 0
  readBlocks := 0
  readUnblocks := 0

/-- One stream of the given size with its two sides. -/
def streamMachine (α : Type) (size : StreamSize) :
    Machine (Stream α) (StreamLabel α) where
  init := fun stream => stream = lpelStreamCreate size
  next := streamNext

/-- Everything a step can do, one constructor for each transition. -/
inductive StreamStep (before : Stream α) : StreamLabel α → Stream α → Prop
  | openWrite {wrapper : Bool}
      (idle : before.prod = .idle)
      (live : before.freed = false) :
      StreamStep before (.openWrite wrapper)
        { before with
          prodSd := true
          prodStream := true
          prodOpen := true
          type := if wrapper then .entry else before.type }
  | openRead {wrapper : Bool}
      (idle : before.cons = .idle)
      (live : before.freed = false) :
      StreamStep before (.openRead wrapper)
        { before with
          consSd := true
          type := if wrapper then .exit else before.type }
  | writeEntry {item : α}
      (idle : before.prod = .idle)
      (pointer : before.prodStream = true)
      (entry : before.type = .entry) :
      StreamStep before (.write item) { before with prod := .pE item }
  | writeOther {item : α}
      (idle : before.prod = .idle)
      (pointer : before.prodStream = true)
      (other : before.type ≠ .entry) :
      StreamStep before (.write item)
        { before with
          writtenPlain := before.writtenPlain + 1
          prod := .alloc item }
  | reserveNone {address : ℕ} {item : α}
      (position : before.prod = .pE item)
      (none : before.eSem = 0) :
      StreamStep before (.prod address)
        { before with
          eSem := before.eSem - 1
          pOps := before.pOps + 1
          prod := .toBlock item }
  | reserveSome {address : ℕ} {item : α}
      (position : before.prod = .pE item)
      (some : before.eSem ≠ 0) :
      StreamStep before (.prod address)
        { before with
          eSem := before.eSem - 1
          pOps := before.pOps + 1
          prod := .alloc item }
  | block {address : ℕ} {item : α}
      (position : before.prod = .toBlock item) :
      StreamStep before (.prod address) { before with prod := .blocked item }
  | alloc {address : ℕ} {item : α}
      (position : before.prod = .alloc item)
      (fresh : before.buffer.heap address = none) :
      StreamStep before (.prod address)
        { before with
          buffer := createEntry before.buffer address (some item)
          prod := .link address item }
  | link {address new : ℕ} {item : α}
      (position : before.prod = .link new item) :
      StreamStep before (.prod address)
        { before with
          buffer := linkTail before.buffer new
          prod := .advance new item }
  | advance {address new : ℕ} {item : α}
      (position : before.prod = .advance new item) :
      StreamStep before (.prod address)
        { before with
          buffer := advanceTail before.buffer
          written := before.written ++ [item]
          prod := .vN }
  | releaseWaiting {address : ℕ}
      (position : before.prod = .vN)
      (waiting : before.nSem < 0) :
      StreamStep before (.prod address)
        { before with nSem := before.nSem + 1, prod := .lookup }
  | release {address : ℕ}
      (position : before.prod = .vN)
      (free : ¬ before.nSem < 0) :
      StreamStep before (.prod address)
        { before with nSem := before.nSem + 1, prod := .count }
  | lookup {address : ℕ}
      (position : before.prod = .lookup) :
      StreamStep before (.prod address) { before with prod := .unblock }
  | unblock {address : ℕ}
      (position : before.prod = .unblock) :
      StreamStep before (.prod address)
        { before with
          consWake := before.consWake + 1
          readUnblocks := before.readUnblocks + 1
          prod := .count }
  | countWrite {address : ℕ}
      (position : before.prod = .count) :
      StreamStep before (.prod address)
        { before with writeCnt := before.writeCnt + 1, prod := .idle }
  | resumeProd {item : α}
      (position : before.prod = .blocked item)
      (woken : 0 < before.prodWake) :
      StreamStep before .resumeProd
        { before with
          prod := .alloc item
          prodWake := before.prodWake - 1 }
  | closeOut
      (idle : before.prod = .idle) :
      StreamStep before .closeOut { before with prodOpen := false }
  | readNone
      (idle : before.cons = .idle)
      (none : before.nSem = 0) :
      StreamStep before .read
        { before with
          nSem := before.nSem - 1
          readBlocks := before.readBlocks + 1
          cons := .toBlock }
  | readSome
      (idle : before.cons = .idle)
      (some : before.nSem ≠ 0) :
      StreamStep before .read
        { before with nSem := before.nSem - 1, cons := .top }
  | blockRead
      (position : before.cons = .toBlock) :
      StreamStep before .cons { before with cons := .blocked }
  | top {item : α}
      (position : before.cons = .top)
      (first : lpelBufferTop before.buffer = some item) :
      StreamStep before .cons { before with cons := .pop item }
  | pop {item : α}
      (position : before.cons = .pop item) :
      StreamStep before .cons
        { before with
          buffer := advanceHead before.buffer
          popped := before.popped ++ [item]
          cons := .release before.buffer.head }
  | free {old : ℕ}
      (position : before.cons = .release old) :
      StreamStep before .cons
        { before with
          buffer := freeEntry before.buffer old
          cons := .typeTest }
  | testEntry
      (position : before.cons = .typeTest)
      (entry : before.type = .entry) :
      StreamStep before .cons { before with cons := .vE }
  | testOther
      (position : before.cons = .typeTest)
      (other : before.type ≠ .entry) :
      StreamStep before .cons
        { before with
          readPlain := before.readPlain + 1
          cons := .count }
  | spaceWaiting
      (position : before.cons = .vE)
      (waiting : before.eSem < 0) :
      StreamStep before .cons
        { before with
          eSem := before.eSem + 1
          vOps := before.vOps + 1
          cons := .lookup }
  | space
      (position : before.cons = .vE)
      (free : ¬ before.eSem < 0) :
      StreamStep before .cons
        { before with
          eSem := before.eSem + 1
          vOps := before.vOps + 1
          cons := .count }
  | lookupProd
      (position : before.cons = .lookup) :
      StreamStep before .cons { before with cons := .unblock }
  | unblockProd
      (position : before.cons = .unblock) :
      StreamStep before .cons
        { before with prodWake := before.prodWake + 1, cons := .count }
  | countRead
      (position : before.cons = .count) :
      StreamStep before .cons
        { before with readCnt := before.readCnt + 1, cons := .idle }
  | pool
      (position : before.cons = .pool) :
      StreamStep before .cons { before with pooled := true, cons := .idle }
  | resumeCons
      (position : before.cons = .blocked)
      (woken : 0 < before.consWake) :
      StreamStep before .resumeCons
        { before with cons := .top, consWake := before.consWake - 1 }
  | freeStream {label : StreamLabel α}
      (frees : label = .closeIn ∨ label = .replaceAway)
      (idle : before.cons = .idle)
      (empty : lpelBufferIsEmpty before.buffer = true) :
      StreamStep before label
        { before with
          prodStream := false
          prodSd := false
          consSd := false
          freed := true
          cons := .pool }
  | takeOver {type : StreamType}
      (idle : before.cons = .idle)
      (live : before.freed = false) :
      StreamStep before (.replaceOnto type) { before with type := type }

/-- The step function does nothing else. -/
theorem StreamStep.of_next
    {before after : Stream α}
    {label : StreamLabel α}
    (taken : streamNext before label = some after) :
    StreamStep before label after := by
  cases label with
  | openWrite wrapper =>
      simp only [streamNext, lpelStreamOpenWrite, Option.ite_none_right_eq_some,
        Option.some.injEq] at taken
      obtain ⟨⟨idle, live⟩, rfl⟩ := taken
      exact .openWrite (WritePc.eq_idle idle) live
  | openRead wrapper =>
      simp only [streamNext, lpelStreamOpenRead, Option.ite_none_right_eq_some,
        Option.some.injEq] at taken
      obtain ⟨⟨idle, live⟩, rfl⟩ := taken
      exact .openRead (ReadPc.eq_idle idle) live
  | write item =>
      simp only [streamNext, lpelStreamWrite, Option.ite_none_right_eq_some,
        Option.some.injEq] at taken
      obtain ⟨⟨idle, -, pointer⟩, rfl⟩ := taken
      split
      case isTrue entry => exact .writeEntry (WritePc.eq_idle idle) pointer entry
      case isFalse other => exact .writeOther (WritePc.eq_idle idle) pointer other
  | prod address =>
      simp only [streamNext, writeStep] at taken
      split at taken
      case isTrue => exact absurd taken (by simp)
      case isFalse =>
        cases position : before.prod with
        | idle | blocked => simp [position] at taken
        | pE item =>
            simp only [position, reserveSpace, Option.some.injEq] at taken
            subst taken
            split
            case isTrue none => exact .reserveNone position none
            case isFalse some => exact .reserveSome position some
        | toBlock item =>
            simp only [position, Option.some.injEq] at taken
            exact taken ▸ .block position
        | alloc item =>
            simp only [position, Option.ite_none_right_eq_some,
              Option.some.injEq, Option.isNone_iff_eq_none] at taken
            obtain ⟨fresh, rfl⟩ := taken
            exact .alloc position fresh
        | link new item =>
            simp only [position, Option.some.injEq] at taken
            exact taken ▸ .link position
        | advance new item =>
            simp only [position, Option.some.injEq] at taken
            exact taken ▸ .advance position
        | vN =>
            simp only [position, releaseItem, Option.some.injEq] at taken
            subst taken
            split
            case isTrue waiting => exact .releaseWaiting position waiting
            case isFalse free => exact .release position free
        | lookup =>
            simp only [position, Option.some.injEq] at taken
            exact taken ▸ .lookup position
        | unblock =>
            simp only [position, Option.some.injEq] at taken
            exact taken ▸ .unblock position
        | count =>
            simp only [position, Option.some.injEq] at taken
            exact taken ▸ .countWrite position
  | resumeProd =>
      simp only [streamNext, resumeWrite] at taken
      split at taken
      case h_1 item position =>
        simp only [Option.ite_none_right_eq_some, Option.some.injEq] at taken
        obtain ⟨woken, rfl⟩ := taken
        exact .resumeProd position woken
      case h_2 => exact absurd taken (by simp)
  | closeOut =>
      simp only [streamNext, Option.ite_none_right_eq_some,
        Option.some.injEq] at taken
      obtain ⟨⟨idle, -⟩, rfl⟩ := taken
      exact .closeOut (WritePc.eq_idle idle)
  | read =>
      simp only [streamNext, lpelStreamRead, Option.ite_none_right_eq_some]
        at taken
      obtain ⟨⟨idle, -⟩, taken⟩ := taken
      split at taken
      case isTrue none =>
        exact Option.some.inj taken ▸ .readNone (ReadPc.eq_idle idle) none
      case isFalse some =>
        exact Option.some.inj taken ▸ .readSome (ReadPc.eq_idle idle) some
  | cons =>
      simp only [streamNext, readStep] at taken
      cases position : before.cons with
      | idle | blocked => simp [position] at taken
      | toBlock =>
          simp only [position, Option.some.injEq] at taken
          exact taken ▸ .blockRead position
      | top =>
          simp only [position, Option.map_eq_some_iff] at taken
          obtain ⟨item, first, rfl⟩ := taken
          exact .top position first
      | pop item =>
          simp only [position, Option.some.injEq] at taken
          exact taken ▸ .pop position
      | release old =>
          simp only [position, Option.some.injEq] at taken
          exact taken ▸ .free position
      | typeTest =>
          simp only [position, Option.some.injEq] at taken
          subst taken
          split
          case isTrue entry => exact .testEntry position entry
          case isFalse other => exact .testOther position other
      | vE =>
          simp only [position, releaseSpace, Option.some.injEq] at taken
          subst taken
          split
          case isTrue waiting => exact .spaceWaiting position waiting
          case isFalse free => exact .space position free
      | lookup =>
          simp only [position, Option.some.injEq] at taken
          exact taken ▸ .lookupProd position
      | unblock =>
          simp only [position, Option.some.injEq] at taken
          exact taken ▸ .unblockProd position
      | count =>
          simp only [position, Option.some.injEq] at taken
          exact taken ▸ .countRead position
      | pool =>
          simp only [position, Option.some.injEq] at taken
          exact taken ▸ .pool position
  | resumeCons =>
      simp only [streamNext, resumeRead] at taken
      split at taken
      case h_1 position =>
        simp only [Option.ite_none_right_eq_some, Option.some.injEq] at taken
        obtain ⟨woken, rfl⟩ := taken
        exact .resumeCons position woken
      case h_2 => exact absurd taken (by simp)
  | closeIn =>
      simp only [streamNext, Hrc.freeStream, Option.ite_none_right_eq_some,
        Option.some.injEq] at taken
      obtain ⟨⟨idle, -, -, empty⟩, rfl⟩ := taken
      exact .freeStream (Or.inl rfl) (ReadPc.eq_idle idle) empty
  | replaceAway =>
      simp only [streamNext, Hrc.freeStream, Option.ite_none_right_eq_some,
        Option.some.injEq] at taken
      obtain ⟨⟨idle, -, -, empty⟩, rfl⟩ := taken
      exact .freeStream (Or.inr rfl) (ReadPc.eq_idle idle) empty
  | replaceOnto type =>
      simp only [streamNext, Hrc.takeOver, Option.ite_none_right_eq_some,
        Option.some.injEq] at taken
      obtain ⟨⟨idle, -, live⟩, rfl⟩ := taken
      exact .takeOver (ReadPc.eq_idle idle) live

end Hrc
end Lpel
