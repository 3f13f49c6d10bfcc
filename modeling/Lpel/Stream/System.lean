import Lpel.Buffer
import Lpel.Lib.Machine
import Lpel.Streamset

/-!
# Reading, writing and polling streams

`decen_stream.c` and `hrc_stream.c` share one protocol for `LpelStreamWrite`,
`LpelStreamRead` and `LpelStreamPoll`.  This module embeds it for one consumer
task and the producers of all the streams it has open, at the granularity of
atomic operations: every `atomic_fetch_add`, `atomic_fetch_sub`,
`atomic_store`, every critical section under `prod_lock`, every top with its
pop, every block, every lookup of the peer, every `LpelTaskUnblock` and the
delivery of every wakeup is one step.

A stream and its two descriptors carry the same index.  The back ends differ in
the buffer implementation and in the streams that use `e_sem`: all of them in
the decentralised back end, the entry streams in the hierarchical one.
-/

namespace Lpel
namespace StreamSystem

variable {ι α : Type} [DecidableEq ι]

/-- One back end with the streams of one consumer task. -/
structure Config (ι α : Type) where
  /-- The buffer implementation. -/
  impl : BufferImpl α
  /-- The size given to `LpelStreamCreate`. -/
  size : ι → StreamSize
  /-- Whether reads and writes of the stream use `e_sem`. -/
  bounded : ι → Bool
  /-- A buffer that can be full is guarded by `e_sem`. -/
  finite_bounded : impl.finite = true → ∀ i, bounded i = true
  /-- The items the producer writes, in order. -/
  script : ι → List α

/-- The shared fields of `lpel_stream_t`. -/
structure Stream (Buf : Type) where
  buffer : Buf
  nSem : ℤ
  eSem : ℤ
  isPoll : Bool

/-- Where a producer is in `LpelStreamWrite`. -/
inductive ProdPc
  /-- Outside of it. -/
  | idle
  /-- `e_sem` was 0, before `LpelTaskBlockStream`. -/
  | toBlock
  /-- In state `TASK_BLOCKED`. -/
  | blocked
  /-- Before the critical section. -/
  | put
  /-- Before the V operation on `n_sem`. -/
  | vN (pollWakeup : Bool)
  /-- `n_sem` was negative, before the lookup of the consumer. -/
  | lookup
  /-- The poll token was taken, before the lookup of the consumer. -/
  | lookupPoll
  /-- Before `LpelTaskUnblock`. -/
  | unblock (pollWakeup : Bool)
  /-- After `LpelStreamClose(out, 0)`. -/
  | closed
  deriving DecidableEq

/-- Where the consumer is in `LpelStreamRead` or `LpelStreamPoll`. -/
inductive ConsPc (ι : Type)
  | idle
  /-- `n_sem` was 0, before `LpelTaskBlockStream`. -/
  | readToBlock (i : ι)
  | readBlocked (i : ι)
  /-- Before `LpelBufferTop` and `LpelBufferPop`. -/
  | readTop (i : ι)
  /-- Before the V operation on `e_sem`. -/
  | readV (i : ι)
  /-- `e_sem` was negative, before the lookup of the producer. -/
  | readLookup (i : ι)
  | readUnblock (i : ι)
  /-- In the fast path. -/
  | pollFast (iter : StreamIter ι)
  /-- Before the poll token is placed. -/
  | pollStore
  /-- In the registration loop. -/
  | pollRegister (iter : StreamIter ι) (cnt : ℤ)
  /-- Before the test of `do_ctx_switch`. -/
  | pollSwitch (doCtxSwitch : Bool) (cnt : ℤ)
  | pollBlocked (cnt : ℤ)
  /-- Before the assertion that the token is gone. -/
  | pollAssert (cnt : ℤ)
  /-- In the loop that unregisters the activators. -/
  | pollUnregister (iter : StreamIter ι) (cnt : ℤ)
  /-- Before the set is rotated. -/
  | pollReturn
  /-- `LpelStreamPoll` has returned the descriptor. -/
  | polled (sd : ι)
  deriving DecidableEq

/-- Shared memory, program counters and wakeups on their way. -/
structure State (config : Config ι α) where
  stream : ι → Stream config.impl.Buf
  prod : ι → ProdPc
  /-- Wakeups sent to each producer and not yet delivered. -/
  prodWake : ι → ℕ
  cons : ConsPc ι
  /-- Wakeups sent to the consumer and not yet delivered. -/
  consWake : ℕ
  /-- `poll_token` of the consumer task. -/
  pollToken : Bool
  /-- `wakeup_sd` of the consumer task. -/
  wakeupSd : Option ι
  /-- The stream set of the consumer. -/
  ring : Streamset ι
  /-- Whether the stream has not been destroyed. -/
  streamLive : ι → Bool
  /-- Whether the descriptor of the producer has not been freed. -/
  prodSdLive : ι → Bool
  /-- Whether the descriptor of the consumer has not been freed. -/
  consSdLive : ι → Bool
  /-- History: the elements of the set, in ring order. -/
  members : List ι
  /-- History: the items put into each stream. -/
  written : ι → List α
  /-- History: the items popped from each stream. -/
  popped : ι → List α
  /-- History: the times each producer committed to block. -/
  prodBlocks : ι → ℕ
  /-- History: the calls of `LpelTaskUnblock` for each producer. -/
  prodUnblocks : ι → ℕ
  /-- History: the times the consumer committed to block in a read. -/
  readBlocks : ι → ℕ
  /-- History: the calls of `LpelTaskUnblock` for these blocks. -/
  readUnblocks : ι → ℕ
  /-- History: the times the consumer blocked in its latest poll. -/
  pollBlocks : ℕ
  /-- History: the calls of `LpelTaskUnblock` on account of that poll. -/
  pollWakes : ℕ
  /-- History: the set when that poll was called. -/
  pollRing : Streamset ι
  /-- History: its elements then. -/
  pollMembers : List ι

/-- What moves next. -/
inductive Label (ι : Type)
  /-- A producer calls `LpelStreamWrite` with its next item. -/
  | write (i : ι)
  /-- A producer continues in `LpelStreamWrite`. -/
  | prod (i : ι)
  /-- A blocked producer receives a wakeup. -/
  | resumeProd (i : ι)
  /-- A producer calls `LpelStreamClose(out, 0)`. -/
  | closeOut (i : ι)
  /-- The consumer calls `LpelStreamRead`. -/
  | read (i : ι)
  /-- The consumer makes a new set by `LpelStreamsetPut`. -/
  | buildSet (elems : List ι)
  /-- The consumer calls `LpelStreamPoll` on its set. -/
  | poll
  /-- The consumer continues in the function it called. -/
  | cons
  /-- The blocked consumer receives a wakeup. -/
  | resumeCons
  /-- The consumer goes on after a poll. -/
  | proceed
  /-- The consumer calls `LpelStreamClose(in, 1)`. -/
  | closeIn (i : ι)

variable {config : Config ι α}

/-! ## `LpelStreamWrite` -/

/-- The first step of `LpelStreamWrite`: the P operation on `e_sem`. -/
def lpelStreamWrite (state : State config) (i : ι) : Option (State config) :=
  if state.prod i = .idle ∧
      (state.written i).length < (config.script i).length then
    if config.bounded i then
      let stream := state.stream i
      let taken := { stream with eSem := stream.eSem - 1 }
      if stream.eSem = 0 then
        some { state with
          stream := Function.update state.stream i taken
          prod := Function.update state.prod i .toBlock
          prodBlocks := Function.update state.prodBlocks i
            (state.prodBlocks i + 1) }
      else
        some { state with
          stream := Function.update state.stream i taken
          prod := Function.update state.prod i .put }
    else
      some { state with prod := Function.update state.prod i .put }
  else
    none

/-- The critical section: put the item and look whether the consumer polls. -/
def putUnderLock (state : State config) (i : ι) (item : α) : State config :=
  let stream := state.stream i
  { state with
    stream := Function.update state.stream i
      { stream with
        buffer := config.impl.lpelBufferPut stream.buffer item
        isPoll := false }
    pollToken := if stream.isPoll then false else state.pollToken
    written := Function.update state.written i (state.written i ++ [item])
    prod := Function.update state.prod i
      (.vN (stream.isPoll && state.pollToken)) }

/-- The V operation on `n_sem`, which decides whom to wake. -/
def releaseItem (state : State config) (i : ι) (pollWakeup : Bool) :
    State config :=
  let stream := state.stream i
  { state with
    stream := Function.update state.stream i
      { stream with nSem := stream.nSem + 1 }
    prod := Function.update state.prod i
      (if stream.nSem < 0 then .lookup
        else if pollWakeup then .lookupPoll else .idle) }

/-- A later step of `LpelStreamWrite`. -/
def prodStep (state : State config) (i : ι) : Option (State config) :=
  match state.prod i with
  | .toBlock =>
      some { state with prod := Function.update state.prod i .blocked }
  | .put =>
      (config.script i)[(state.written i).length]?.map (putUnderLock state i)
  | .vN pollWakeup => some (releaseItem state i pollWakeup)
  | .lookup =>
      some { state with prod := Function.update state.prod i (.unblock false) }
  | .lookupPoll =>
      some { state with
        wakeupSd := some i
        prod := Function.update state.prod i (.unblock true) }
  | .unblock true =>
      some { state with
        consWake := state.consWake + 1
        pollWakes := state.pollWakes + 1
        prod := Function.update state.prod i .idle }
  | .unblock false =>
      some { state with
        consWake := state.consWake + 1
        readUnblocks := Function.update state.readUnblocks i
          (state.readUnblocks i + 1)
        prod := Function.update state.prod i .idle }
  | .idle | .blocked | .closed => none

/-- Delivery of a wakeup to a blocked producer. -/
def resumeProd (state : State config) (i : ι) : Option (State config) :=
  if state.prod i = .blocked ∧ 0 < state.prodWake i then
    some { state with
      prod := Function.update state.prod i .put
      prodWake := Function.update state.prodWake i (state.prodWake i - 1) }
  else
    none

/-- `LpelStreamClose(out, 0)`, after the last item. -/
def closeOut (state : State config) (i : ι) : Option (State config) :=
  if state.prod i = .idle ∧
      (state.written i).length = (config.script i).length then
    some { state with
      prod := Function.update state.prod i .closed
      prodSdLive := Function.update state.prodSdLive i false }
  else
    none

/-! ## `LpelStreamRead` -/

/-- The first step of `LpelStreamRead`: the P operation on `n_sem`. -/
def lpelStreamRead (state : State config) (i : ι) : Option (State config) :=
  if state.cons = .idle ∧ state.consSdLive i = true then
    let stream := state.stream i
    let taken := { stream with nSem := stream.nSem - 1 }
    if stream.nSem = 0 then
      some { state with
        stream := Function.update state.stream i taken
        cons := .readToBlock i
        readBlocks := Function.update state.readBlocks i
          (state.readBlocks i + 1) }
    else
      some { state with
        stream := Function.update state.stream i taken
        cons := .readTop i }
  else
    none

/-- Take the top item; the step is not enabled where `item != NULL` fails. -/
def topAndPop (state : State config) (i : ι) : Option (State config) :=
  let stream := state.stream i
  (config.impl.lpelBufferTop stream.buffer).map fun item =>
    { state with
      stream := Function.update state.stream i
        { stream with buffer := config.impl.lpelBufferPop stream.buffer }
      popped := Function.update state.popped i (state.popped i ++ [item])
      cons := .readV i }

/-- The V operation on `e_sem`, which decides whether to wake the producer. -/
def releaseSpace (state : State config) (i : ι) : State config :=
  if config.bounded i then
    let stream := state.stream i
    { state with
      stream := Function.update state.stream i
        { stream with eSem := stream.eSem + 1 }
      cons := if stream.eSem < 0 then .readLookup i else .idle }
  else
    { state with cons := .idle }

/-! ## `LpelStreamPoll` -/

/-- Return from `LpelStreamPoll` with the handle moved to the descriptor. -/
def returnPoll (state : State config) (sd : ι) : State config :=
  { state with
    ring := { state.ring with set := some sd }
    members := state.members.rotate (state.members.idxOf sd + 1)
    cons := .polled sd }

/-- One round of the fast path. -/
def pollFastStep (state : State config) (iter : StreamIter ι) :
    Option (State config) :=
  if lpelStreamIterHasNext state.ring iter then
    let iter' := lpelStreamIterNext state.ring iter
    iter'.cur.map fun sd =>
      if (config.impl.lpelBufferTop (state.stream sd).buffer).isSome then
        returnPoll state sd
      else
        { state with cons := .pollFast iter' }
  else
    some { state with cons := .pollStore }

/-- One round of the registration loop, under the lock of the stream. -/
def pollRegisterStep (state : State config) (iter : StreamIter ι) (cnt : ℤ) :
    Option (State config) :=
  if lpelStreamIterHasNext state.ring iter then
    let iter' := lpelStreamIterNext state.ring iter
    iter'.cur.map fun sd =>
      let stream := state.stream sd
      if (config.impl.lpelBufferTop stream.buffer).isSome then
        -- exchange the token: was the task woken by another producer?
        if state.pollToken then
          { state with
            pollToken := false
            wakeupSd := some sd
            cons := .pollSwitch false cnt }
        else
          { state with pollToken := false, cons := .pollSwitch true cnt }
      else
        { state with
          stream := Function.update state.stream sd
            { stream with isPoll := true }
          cons := .pollRegister iter' (cnt + 1) }
  else
    some { state with cons := .pollSwitch true cnt }

/-- One round of the loop that unregisters the activators. -/
def pollUnregisterStep (state : State config) (iter : StreamIter ι) (cnt : ℤ) :
    Option (State config) :=
  if lpelStreamIterHasNext state.ring iter then
    let iter' := lpelStreamIterNext state.ring iter
    iter'.cur.map fun sd =>
      let stream := state.stream sd
      { state with
        stream := Function.update state.stream sd
          { stream with isPoll := false }
        cons := if cnt - 1 = 0 then .pollReturn
          else .pollUnregister iter' (cnt - 1) }
  else
    some { state with cons := .pollReturn }

/-- The entry of `LpelStreamPoll` on a nonempty set of open descriptors. -/
def lpelStreamPoll (state : State config) : Option (State config) :=
  if state.cons = .idle ∧ state.members ≠ [] ∧
      ∀ i ∈ state.members, state.consSdLive i = true then
    some { state with
      cons := .pollFast (lpelStreamIterReset state.ring)
      pollBlocks := 0
      pollWakes := 0
      pollRing := state.ring
      pollMembers := state.members }
  else
    none

/-- A later step of the function the consumer has called. -/
def consStep (state : State config) : Option (State config) :=
  match state.cons with
  | .readToBlock i => some { state with cons := .readBlocked i }
  | .readTop i => topAndPop state i
  | .readV i => some (releaseSpace state i)
  | .readLookup i => some { state with cons := .readUnblock i }
  | .readUnblock i =>
      some { state with
        prodWake := Function.update state.prodWake i (state.prodWake i + 1)
        prodUnblocks := Function.update state.prodUnblocks i
          (state.prodUnblocks i + 1)
        cons := .idle }
  | .pollFast iter => pollFastStep state iter
  | .pollStore =>
      some { state with
        pollToken := true
        cons := .pollRegister (lpelStreamIterReset state.ring) 0 }
  | .pollRegister iter cnt => pollRegisterStep state iter cnt
  | .pollSwitch true cnt =>
      some { state with
        cons := .pollBlocked cnt
        pollBlocks := state.pollBlocks + 1 }
  | .pollSwitch false cnt => some { state with cons := .pollAssert cnt }
  | .pollAssert cnt =>
      some { state with
        cons := .pollUnregister (lpelStreamIterReset state.ring) cnt }
  | .pollUnregister iter cnt => pollUnregisterStep state iter cnt
  | .pollReturn => state.wakeupSd.map (returnPoll state)
  | .idle | .readBlocked _ | .pollBlocked _ | .polled _ => none

/-- Delivery of a wakeup to the blocked consumer. -/
def resumeCons (state : State config) : Option (State config) :=
  if 0 < state.consWake then
    match state.cons with
    | .readBlocked i =>
        some { state with
          cons := .readTop i
          consWake := state.consWake - 1 }
    | .pollBlocked cnt =>
        some { state with
          cons := .pollAssert cnt
          consWake := state.consWake - 1 }
    | _ => none
  else
    none

/-- `LpelStreamClose(in, 1)`, once the last item has been received. -/
def closeIn (state : State config) (i : ι) : Option (State config) :=
  if state.cons = .idle ∧ state.consSdLive i = true ∧
      config.script i ≠ [] ∧
      (state.popped i).length = (config.script i).length then
    some { state with
      streamLive := Function.update state.streamLive i false
      consSdLive := Function.update state.consSdLive i false }
  else
    none

/-- One step of the system. -/
def next (state : State config) : Label ι → Option (State config)
  | .write i => lpelStreamWrite state i
  | .prod i => prodStep state i
  | .resumeProd i => resumeProd state i
  | .closeOut i => closeOut state i
  | .read i => lpelStreamRead state i
  | .buildSet elems =>
      if state.cons = .idle ∧ elems.Nodup ∧
          ∀ i ∈ elems, state.consSdLive i = true then
        some { state with
          ring := lpelStreamsetPutAll state.ring.next elems
          members := elems }
      else
        none
  | .poll => lpelStreamPoll state
  | .cons => consStep state
  | .resumeCons => resumeCons state
  | .proceed =>
      match state.cons with
      | .polled _ => some { state with cons := .idle }
      | _ => none
  | .closeIn i => closeIn state i

/-- `LpelStreamCreate`: an empty buffer, `n_sem` 0 and `e_sem` the size. -/
def lpelStreamCreate (config : Config ι α) (i : ι) : Stream config.impl.Buf where
  buffer := config.impl.lpelBufferInit (config.size i)
  nSem := 0
  eSem := (config.size i).val
  isPoll := false

/-- All streams created and opened at both ends, and no set yet. -/
def initial (config : Config ι α) : State config where
  stream := lpelStreamCreate config
  prod := fun _ => .idle
  prodWake := fun _ => 0
  cons := .idle
  consWake := 0
  pollToken := false
  wakeupSd := none
  ring := { set := none, next := fun _ => none }
  streamLive := fun _ => true
  prodSdLive := fun _ => true
  consSdLive := fun _ => true
  members := []
  written := fun _ => []
  popped := fun _ => []
  prodBlocks := fun _ => 0
  prodUnblocks := fun _ => 0
  readBlocks := fun _ => 0
  readUnblocks := fun _ => 0
  pollBlocks := 0
  pollWakes := 0
  pollRing := { set := none, next := fun _ => none }
  pollMembers := []

/-- The streams of one consumer task with all their producers. -/
def machine (config : Config ι α) : Machine (State config) (Label ι) where
  init := fun state => state = initial config
  next := next

end StreamSystem
end Lpel
