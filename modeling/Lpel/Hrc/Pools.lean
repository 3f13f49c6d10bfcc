import Lpel.Hrc.Stream

/-!
# Descriptors and streams of the workers

`hrc_stream.c` creates, opens, closes and replaces streams.  A closed descriptor
and a destroyed stream are kept in the free lists of the worker that runs the
task (`hrc_worker_op.c`), and a task keeps its open descriptors in two lists
(`hrc_task.c`).  A closed descriptor may still be referenced by its stream: it is
used again only after its own reference to the stream has been unset, by the
reader that destroys or replaces the stream.

Streams and descriptors are known by their addresses, and the step that may
allocate one is given the address that `malloc` returns.  The operations are
those of the pointers: of a read or a write only the change of the buffer is
kept.
-/

namespace Lpel
namespace Hrc

/-- The mode in which a stream is opened. -/
inductive Mode
  | r
  | w
  deriving DecidableEq

/-- `lpel_stream_desc_t`. -/
structure StreamDesc (σ δ τ : Type) where
  task : Option τ
  stream : Option σ
  mode : Mode
  next : Option δ

/-- `lpel_stream_t`. -/
structure PoolStream (σ δ α : Type) where
  buffer : Buffer α
  prodSd : Option δ
  consSd : Option δ
  next : Option σ
  type : StreamType

/-- What stops the program. -/
inductive PoolFailure
  /-- `NULL` is dereferenced. -/
  | nullPointer
  /-- `assert( sd->mode == 'r')`, or `'w'`. -/
  | wrongMode
  /-- `assert(LpelBufferIsEmpty(&s->buffer))`. -/
  | notEmpty
  /-- `assert(tmp->cons_sd == NULL && tmp->prod_sd == NULL)`. -/
  | inUse
  /-- `assert(head != NULL)`. -/
  | notListed
  /-- A list of descriptors has no end. -/
  | endless
  deriving DecidableEq

/-- The memory, the workers and the tasks. -/
structure Pools (σ δ τ ω α : Type) where
  stream : σ → PoolStream σ δ α
  desc : δ → StreamDesc σ δ τ
  freeStream : ω → Option σ
  freeSd : ω → Option δ
  workerContext : τ → ω
  inStreams : τ → List δ
  outStreams : τ → List δ
  /-- The streams and descriptors that were allocated. -/
  streams : List σ
  sds : List δ

/-- The descriptor that a stream has for a mode. -/
def PoolStream.sdOf {σ δ α : Type} (s : PoolStream σ δ α) : Mode → Option δ
  | .r => s.consSd
  | .w => s.prodSd

namespace Pools

variable {σ δ τ ω α : Type} [DecidableEq σ] [DecidableEq δ] [DecidableEq τ]
variable [DecidableEq ω]

def setStream (pools : Pools σ δ τ ω α) (s : σ) (value : PoolStream σ δ α) :
    Pools σ δ τ ω α :=
  { pools with stream := Function.update pools.stream s value }

def setDesc (pools : Pools σ δ τ ω α) (sd : δ) (value : StreamDesc σ δ τ) :
    Pools σ δ τ ω α :=
  { pools with desc := Function.update pools.desc sd value }

/-- `sd->stream = ...`. -/
def setSdStream (pools : Pools σ δ τ ω α) (sd : δ) (stream : Option σ) :
    Pools σ δ τ ω α :=
  pools.setDesc sd { pools.desc sd with stream := stream }

/-- `sd->next = ...`. -/
def setSdNext (pools : Pools σ δ τ ω α) (sd : δ) (next : Option δ) :
    Pools σ δ τ ω α :=
  pools.setDesc sd { pools.desc sd with next := next }

/-- Follow a pointer. -/
def follow {β : Type} : Option β → Except PoolFailure β
  | some value => .ok value
  | none => .error .nullPointer

/-- `assert`. -/
def assert (condition : Bool) (failure : PoolFailure) :
    Except PoolFailure Unit :=
  if condition then .ok () else .error failure

/-- `LpelWorkerPutStream`. -/
def lpelWorkerPutStream (pools : Pools σ δ τ ω α) (wc : ω) (s : σ) :
    Pools σ δ τ ω α :=
  match pools.freeStream wc with
  | none =>
      { pools.setStream s { pools.stream s with next := none } with
        freeStream := Function.update pools.freeStream wc (some s) }
  | some first =>
      { pools.setStream s { pools.stream s with next := some first } with
        freeStream := Function.update pools.freeStream wc (some s) }

/-- The stream is the first one of a list, and it is taken from there. -/
def popStream (pools : Pools σ δ τ ω α) (wc : ω) (s : σ) : Pools σ δ τ ω α :=
  { pools.setStream s { pools.stream s with next := none } with
    freeStream := Function.update pools.freeStream wc (pools.stream s).next }

/-- `LpelWorkerGetStream`, on the thread of a worker or on another one. -/
def lpelWorkerGetStream (pools : Pools σ δ τ ω α) :
    Option ω → Except PoolFailure (Option σ × Pools σ δ τ ω α)
  | none => .ok (none, pools)
  | some wc =>
      match pools.freeStream wc with
      | none => .ok (none, pools)
      | some tmp => do
          assert ((pools.stream tmp).consSd.isNone ∧
            (pools.stream tmp).prodSd.isNone) .inUse
          return (some tmp, pools.popStream wc tmp)

/-- `LpelWorkerPutSd`. -/
def lpelWorkerPutSd (pools : Pools σ δ τ ω α) (wc : ω) (sd : δ) :
    Pools σ δ τ ω α :=
  match pools.freeSd wc with
  | none =>
      { pools.setSdNext sd none with
        freeSd := Function.update pools.freeSd wc (some sd) }
  | some first =>
      { pools.setSdNext sd (some first) with
        freeSd := Function.update pools.freeSd wc (some sd) }

/-- `tmp->task == NULL && tmp->stream == NULL`. -/
def reusable (pools : Pools σ δ τ ω α) (sd : δ) : Bool :=
  (pools.desc sd).task.isNone ∧ (pools.desc sd).stream.isNone

/-- The loop of `LpelWorkerGetSd`, for a number of rounds. -/
def unlinkSd (pools : Pools σ δ τ ω α) :
    ℕ → δ → Option δ → Except PoolFailure (Option δ × Pools σ δ τ ω α)
  | _, _, none => .ok (none, pools)
  | 0, _, some _ => .error .endless
  | rounds + 1, prev, some tmp =>
      if pools.reusable tmp then
        .ok (some tmp,
          (pools.setSdNext prev (pools.desc tmp).next).setSdNext tmp none)
      else
        pools.unlinkSd rounds tmp (pools.desc tmp).next

/-- `LpelWorkerGetSd`.  The loop has at most as many rounds as there are
descriptors. -/
def lpelWorkerGetSd (pools : Pools σ δ τ ω α) (wc : ω) :
    Except PoolFailure (Option δ × Pools σ δ τ ω α) :=
  match pools.freeSd wc with
  | none => .ok (none, pools)
  | some tmp =>
      if pools.reusable tmp then
        .ok (some tmp,
          { pools.setSdNext tmp none with
            freeSd :=
              Function.update pools.freeSd wc (pools.desc tmp).next })
      else
        pools.unlinkSd pools.sds.length tmp (pools.desc tmp).next

/-- The list of a task for a mode. -/
def streamsOf (pools : Pools σ δ τ ω α) : Mode → τ → List δ
  | .r => pools.inStreams
  | .w => pools.outStreams

def setStreamsOf (pools : Pools σ δ τ ω α) (mode : Mode) (t : τ)
    (list : List δ) : Pools σ δ τ ω α :=
  match mode with
  | .r => { pools with inStreams := Function.update pools.inStreams t list }
  | .w => { pools with outStreams := Function.update pools.outStreams t list }

/-- `LpelTaskAddStream`. -/
def lpelTaskAddStream
    (pools : Pools σ δ τ ω α)
    (t : τ)
    (sd : δ)
    (mode : Mode) : Pools σ δ τ ω α :=
  pools.setStreamsOf mode t (sd :: pools.streamsOf mode t)

/-- `LpelTaskRemoveStream`. -/
def lpelTaskRemoveStream
    (pools : Pools σ δ τ ω α)
    (t : τ)
    (sd : δ)
    (mode : Mode) : Except PoolFailure (Pools σ δ τ ω α) := do
  assert (sd ∈ pools.streamsOf mode t) .notListed
  return pools.setStreamsOf mode t ((pools.streamsOf mode t).erase sd)

/-- `malloc` of a stream, and `LpelBufferInit` with a dummy entry at the given
address. -/
def mallocStream (pools : Pools σ δ τ ω α) (s : σ) (address : ℕ) :
    Pools σ δ τ ω α :=
  { pools.setStream s
      { pools.stream s with buffer := lpelBufferInit address } with
    streams := s :: pools.streams }

/-- `malloc` of a descriptor. -/
def mallocSd (pools : Pools σ δ τ ω α) (sd : δ) : Pools σ δ τ ω α :=
  { pools with sds := sd :: pools.sds }

/-- The fields that `LpelStreamCreate` sets. -/
def resetStream (pools : Pools σ δ τ ω α) (s : σ) : Pools σ δ τ ω α :=
  pools.setStream s
    { pools.stream s with
      prodSd := none
      consSd := none
      type := .middle
      next := none }

/-- `LpelStreamCreate`. -/
def lpelStreamCreate
    (pools : Pools σ δ τ ω α)
    (self : Option ω)
    (fresh : σ)
    (address : ℕ) : Except PoolFailure (σ × Pools σ δ τ ω α) := do
  let (found, pools) ← pools.lpelWorkerGetStream self
  let (s, pools) :=
    match found with
    | some s => (s, pools)
    | none => (fresh, pools.mallocStream fresh address)
  assert (lpelBufferIsEmpty (pools.stream s).buffer) .notEmpty
  return (s, pools.resetStream s)

/-- `s->cons_sd = sd` or `s->prod_sd = sd`. -/
def setSdOf (pools : Pools σ δ τ ω α) (mode : Mode) (s : σ) (sd : δ) :
    Pools σ δ τ ω α :=
  match mode with
  | .r => pools.setStream s { pools.stream s with consSd := some sd }
  | .w => pools.setStream s { pools.stream s with prodSd := some sd }

/-- A wrapper makes a stream an entry or an exit. -/
def setType (pools : Pools σ δ τ ω α) (s : σ) (type : StreamType) :
    Pools σ δ τ ω α :=
  pools.setStream s { pools.stream s with type := type }

/-- What `LpelStreamOpen` does with its descriptor; `isWrapper` are the workers
with `wid == -1`. -/
def openWith
    (isWrapper : ω → Bool)
    (pools : Pools σ δ τ ω α)
    (ct : τ)
    (s : σ)
    (mode : Mode)
    (sd : δ) : Pools σ δ τ ω α :=
  let pools := pools.setDesc sd
    { task := some ct
      stream := some s
      mode := mode
      next := none }
  let pools := pools.setSdOf mode s sd
  let pools :=
    if isWrapper (pools.workerContext ct) then
      pools.setType s (match mode with | .r => .exit | .w => .entry)
    else
      pools
  pools.lpelTaskAddStream ct sd mode

/-- `LpelStreamOpen` by a task. -/
def lpelStreamOpen
    (isWrapper : ω → Bool)
    (pools : Pools σ δ τ ω α)
    (ct : τ)
    (s : σ)
    (mode : Mode)
    (fresh : δ) : Except PoolFailure (δ × Pools σ δ τ ω α) := do
  let (found, pools) ← pools.lpelWorkerGetSd (pools.workerContext ct)
  let (sd, pools) :=
    match found with
    | some sd => (sd, pools)
    | none => (fresh, pools.mallocSd fresh)
  return (sd, pools.openWith isWrapper ct s mode sd)

/-- Unset the pointers between a stream, its producer and its consumer. -/
def unsetWith (pools : Pools σ δ τ ω α) (s : σ) (prod : δ) :
    Pools σ δ τ ω α :=
  (pools.setSdStream prod none).setStream s
    { pools.stream s with
      prodSd := none
      consSd := none }

/-- `s->prod_sd->stream = NULL` and what follows. -/
def unsetStream (pools : Pools σ δ τ ω α) (s : σ) :
    Except PoolFailure (Pools σ δ τ ω α) := do
  let prod ← follow (pools.stream s).prodSd
  return pools.unsetWith s prod

/-- The part of `LpelStreamClose` that destroys the stream. -/
def destroyStream (pools : Pools σ δ τ ω α) (wc : ω) (sd : δ) :
    Except PoolFailure (Pools σ δ τ ω α) := do
  assert ((pools.desc sd).mode = .r) .wrongMode
  let s ← follow (pools.desc sd).stream
  assert (lpelBufferIsEmpty (pools.stream s).buffer) .notEmpty
  let pools ← pools.unsetStream s
  return (pools.lpelWorkerPutStream wc s).setSdStream sd none

/-- `LpelStreamClose`. -/
def lpelStreamClose
    (pools : Pools σ δ τ ω α)
    (sd : δ)
    (destroy : Bool) : Except PoolFailure (Pools σ δ τ ω α) := do
  let t ← follow (pools.desc sd).task
  let wc := pools.workerContext t
  let pools ← if destroy then pools.destroyStream wc sd else .ok pools
  let pools ← pools.lpelTaskRemoveStream t sd (pools.desc sd).mode
  return (pools.setDesc sd
    { pools.desc sd with task := none }).lpelWorkerPutSd wc sd

/-- `LpelStreamReplace`. -/
def lpelStreamReplace
    (pools : Pools σ δ τ ω α)
    (sd : δ)
    (snew : σ) : Except PoolFailure (Pools σ δ τ ω α) := do
  assert ((pools.desc sd).mode = .r) .wrongMode
  let t ← follow (pools.desc sd).task
  let wc := pools.workerContext t
  let s ← follow (pools.desc sd).stream
  let pools := pools.setType snew (pools.stream s).type
  let pools ← pools.unsetStream s
  assert (lpelBufferIsEmpty (pools.stream s).buffer) .notEmpty
  let pools := pools.lpelWorkerPutStream wc s
  let oldCons ← follow (pools.stream snew).consSd
  let pools := pools.setSdStream oldCons none
  let pools := pools.setSdOf .r snew sd
  return pools.setSdStream sd (some snew)

/-- The change of the buffer in `LpelStreamWrite`. -/
def lpelStreamWrite
    (pools : Pools σ δ τ ω α)
    (sd : δ)
    (address : ℕ)
    (item : α) : Except PoolFailure (Pools σ δ τ ω α) := do
  assert ((pools.desc sd).mode = .w) .wrongMode
  let s ← follow (pools.desc sd).stream
  return pools.setStream s
    { pools.stream s with
      buffer := lpelBufferPut (pools.stream s).buffer address item }

/-- The change of the buffer in `LpelStreamRead`. -/
def lpelStreamRead (pools : Pools σ δ τ ω α) (sd : δ) :
    Except PoolFailure (Pools σ δ τ ω α) := do
  assert ((pools.desc sd).mode = .r) .wrongMode
  let s ← follow (pools.desc sd).stream
  return pools.setStream s
    { pools.stream s with
      buffer := lpelBufferPop (pools.stream s).buffer }

end Pools

/-- A descriptor that a task has opened and not yet closed. -/
structure Handle (σ δ τ : Type) where
  sd : δ
  task : τ
  mode : Mode
  /-- `none` after the stream has been destroyed by its reader. -/
  stream : Option σ
  deriving DecidableEq

/-- What the tasks know of the streams, from their own calls. -/
structure Client (σ δ τ : Type) where
  /-- The streams that were created and not destroyed. -/
  live : List σ
  /-- The stream was opened in the mode since it was created. -/
  used : Mode → σ → Bool
  handles : List (Handle σ δ τ)

namespace Client

variable {σ δ τ : Type} [DecidableEq σ] [DecidableEq δ]

def create (client : Client σ δ τ) (s : σ) : Client σ δ τ :=
  { client with
    live := s :: client.live
    used := fun mode => Function.update (client.used mode) s false }

def opened (client : Client σ δ τ) (sd : δ) (t : τ) (mode : Mode) (s : σ) :
    Client σ δ τ :=
  { client with
    used := Function.update client.used mode
      (Function.update (client.used mode) s true)
    handles :=
      { sd := sd, task := t, mode := mode, stream := some s } ::
        client.handles }

def closed (client : Client σ δ τ) (sd : δ) : Client σ δ τ :=
  { client with handles := client.handles.filter fun h => h.sd ≠ sd }

def destroy (client : Client σ δ τ) (s : σ) : Client σ δ τ :=
  { client with
    live := client.live.filter fun other => other ≠ s
    handles := client.handles.map fun h =>
      { h with stream := if h.stream = some s then none else h.stream } }

/-- The descriptor is used for another stream. -/
def attach (client : Client σ δ τ) (sd : δ) (s : σ) : Client σ δ τ :=
  { client with
    handles := client.handles.map fun h =>
      { h with stream := if h.sd = sd then some s else h.stream } }

/-- The stream that a descriptor is open on. -/
def streamOf (client : Client σ δ τ) (sd : δ) : Option σ :=
  (client.handles.find? fun h => h.sd = sd).bind Handle.stream

end Client

/-- The state of a program that uses streams. -/
structure PoolSystem (σ δ τ ω α : Type) where
  pools : Pools σ δ τ ω α
  client : Client σ δ τ
  failed : Option PoolFailure

/-- What happens in a step. -/
inductive PoolLabel (σ δ τ ω α : Type)
  /-- `LpelStreamCreate` on a thread with or without a worker. -/
  | create (self : Option ω) (fresh : σ) (address : ℕ)
  /-- `LpelStreamOpen`. -/
  | opens (ct : τ) (s : σ) (mode : Mode) (fresh : δ)
  /-- `LpelStreamClose`. -/
  | close (sd : δ) (destroy : Bool)
  /-- `LpelStreamReplace`. -/
  | replace (sd : δ) (snew : σ)
  | write (sd : δ) (address : ℕ) (item : α)
  | read (sd : δ)
  /-- The task goes on on another worker. -/
  | assign (t : τ) (wc : ω)

namespace PoolSystem

variable {σ δ τ ω α : Type} [DecidableEq σ] [DecidableEq δ] [DecidableEq τ]
variable [DecidableEq ω]

/-- An operation returns, and its caller takes note, or it fails. -/
def finish
    {β : Type}
    (system : PoolSystem σ δ τ ω α)
    (result : Except PoolFailure β)
    (after : β → PoolSystem σ δ τ ω α) : PoolSystem σ δ τ ω α :=
  match result with
  | .ok value => after value
  | .error failure => { system with failed := some failure }

/-- An operation that was given its address by `malloc`, where it is unused. -/
def step (isWrapper : ω → Bool) (system : PoolSystem σ δ τ ω α) :
    PoolLabel σ δ τ ω α → Option (PoolSystem σ δ τ ω α)
  | .create self fresh address =>
      if fresh ∈ system.pools.streams then
        none
      else
        some (system.finish
          (system.pools.lpelStreamCreate self fresh address)
          fun (s, pools) =>
            { system with
              pools := pools
              client := system.client.create s })
  | .opens ct s mode fresh =>
      if fresh ∈ system.pools.sds then
        none
      else
        some (system.finish
          (system.pools.lpelStreamOpen isWrapper ct s mode fresh)
          fun (sd, pools) =>
            { system with
              pools := pools
              client := system.client.opened sd ct mode s })
  | .close sd destroy =>
      some (system.finish (system.pools.lpelStreamClose sd destroy)
        fun pools =>
          { system with
            pools := pools
            client :=
              match destroy, system.client.streamOf sd with
              | true, some s => (system.client.destroy s).closed sd
              | _, _ => system.client.closed sd })
  | .replace sd snew =>
      some (system.finish (system.pools.lpelStreamReplace sd snew)
        fun pools =>
          { system with
            pools := pools
            client :=
              match system.client.streamOf sd with
              | some s => (system.client.destroy s).attach sd snew
              | none => system.client })
  | .write sd address item =>
      some (system.finish (system.pools.lpelStreamWrite sd address item)
        fun pools => { system with pools := pools })
  | .read sd =>
      some (system.finish (system.pools.lpelStreamRead sd)
        fun pools => { system with pools := pools })
  | .assign t wc =>
      some { system with
        pools :=
          { system.pools with
            workerContext :=
              Function.update system.pools.workerContext t wc } }

/-- The reader of a stream may destroy it: the stream is empty and has had a
writer. -/
def MayDestroy (system : PoolSystem σ δ τ ω α) (h : Handle σ δ τ) : Prop :=
  h.mode = .r ∧ ∃ s ∈ h.stream, system.client.used .w s = true ∧
    lpelBufferIsEmpty (system.pools.stream s).buffer = true

/-- No descriptor is open on the stream in the mode. -/
def Unopened (system : PoolSystem σ δ τ ω α) (mode : Mode) (s : σ) : Prop :=
  ∀ h ∈ system.client.handles, h.stream = some s → h.mode ≠ mode

/-- The documented usage. -/
def Documented (system : PoolSystem σ δ τ ω α) :
    PoolLabel σ δ τ ω α → Prop
  | .create _ _ _ | .assign _ _ => True
  | .opens _ s mode _ =>
      s ∈ system.client.live ∧ system.Unopened mode s
  | .close sd destroy =>
      ∃ h ∈ system.client.handles, h.sd = sd ∧
        (destroy = true → system.MayDestroy h)
  | .replace sd snew =>
      (∃ h ∈ system.client.handles, h.sd = sd ∧ system.MayDestroy h) ∧
        snew ∈ system.client.live ∧ system.client.used .r snew = true ∧
        system.Unopened .r snew
  | .write sd _ _ =>
      ∃ h ∈ system.client.handles, h.sd = sd ∧ h.mode = .w ∧ h.stream ≠ none
  | .read sd =>
      ∃ h ∈ system.client.handles, h.sd = sd ∧ h.mode = .r ∧ h.stream ≠ none

instance (system : PoolSystem σ δ τ ω α) (h : Handle σ δ τ) :
    Decidable (system.MayDestroy h) :=
  inferInstanceAs (Decidable (_ ∧ _))

instance (system : PoolSystem σ δ τ ω α) (mode : Mode) (s : σ) :
    Decidable (system.Unopened mode s) :=
  inferInstanceAs (Decidable (∀ h ∈ _, _))

instance (system : PoolSystem σ δ τ ω α) (label : PoolLabel σ δ τ ω α) :
    Decidable (system.Documented label) :=
  match label with
  | .create _ _ _ | .assign _ _ => isTrue trivial
  | .opens _ _ _ _ => inferInstanceAs (Decidable (_ ∧ _))
  | .close _ _ | .write _ _ _ | .read _ =>
      inferInstanceAs (Decidable (∃ h ∈ _, _))
  | .replace _ _ => inferInstanceAs (Decidable (_ ∧ _))

end PoolSystem

section Machine

variable {σ δ τ ω α : Type} [DecidableEq σ] [DecidableEq δ] [DecidableEq τ]
variable [DecidableEq ω]

/-- The program before the first stream is created, with what is in the
memory. -/
def poolStart
    (stream : σ → PoolStream σ δ α)
    (desc : δ → StreamDesc σ δ τ)
    (workerContext : τ → ω) : PoolSystem σ δ τ ω α where
  pools :=
    { stream := stream
      desc := desc
      freeStream := fun _ => none
      freeSd := fun _ => none
      workerContext := workerContext
      inStreams := fun _ => []
      outStreams := fun _ => []
      streams := []
      sds := [] }
  client :=
    { live := []
      used := fun _ _ => false
      handles := [] }
  failed := none

/-- All programs that create, open, close and replace streams. -/
def poolMachine (isWrapper : ω → Bool) :
    Machine (PoolSystem σ δ τ ω α) (PoolLabel σ δ τ ω α) where
  init := fun system => ∃ stream desc workerContext,
    system = poolStart stream desc workerContext
  next := fun system label =>
    match system.failed with
    | some _ => none
    | none => system.step isWrapper label

end Machine

end Hrc
end Lpel
