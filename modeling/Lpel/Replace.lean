import Lpel.Decen.Buffer
import Lpel.Hrc.PoolSafety

/-!
# `LpelStreamReplace` in the two back ends

Both back ends release the old stream of a descriptor and attach the descriptor
to a new stream.  The decentralised one frees the old stream and leaves its
producer alone.  The hierarchical one keeps streams and descriptors in free lists
and therefore unsets the pointers to the old stream and to the new stream first:
it follows the pointer of the old stream to its producer and the pointer of the
new stream to its last consumer.
-/

namespace Lpel

/-- How a back end keeps its streams and descriptors. -/
structure StreamStore (M σ δ S D B : Type) where
  stream : M → σ → S
  desc : M → δ → D
  buffer : S → B
  nSem : S → ℤ
  eSem : S → ℤ
  consSd : S → Option δ
  sdStream : D → Option σ
  Released : M → σ → Prop

/-- The stream of a descriptor has been replaced, and nothing else has changed
that is in use. -/
structure StreamStore.Replaced
    {M σ δ S D B : Type}
    (store : StreamStore M σ δ S D B)
    (live : σ → Prop)
    (opened : δ → Prop)
    (before after : M)
    (sd : δ)
    (s snew : σ) : Prop where
  stream : store.sdStream (store.desc after sd) = some snew
  consumer : store.consSd (store.stream after snew) = some sd
  contents : store.buffer (store.stream after snew) =
    store.buffer (store.stream before snew)
  semaphores :
    store.nSem (store.stream after snew) =
        store.nSem (store.stream before snew) ∧
      store.eSem (store.stream after snew) =
        store.eSem (store.stream before snew)
  released : store.Released after s
  streams : ∀ other, live other → other ≠ s → other ≠ snew →
    store.stream after other = store.stream before other
  sds : ∀ other, opened other → other ≠ sd →
    store.desc after other = store.desc before other

namespace Decen

open Hrc (Mode StreamDesc)

variable {σ δ τ α : Type}

/-- `lpel_stream_t` of `decen_stream.h`. -/
structure StoredStream (δ α : Type) where
  buffer : Buffer α
  isPoll : Bool
  prodSd : Option δ
  consSd : Option δ
  nSem : ℤ
  eSem : ℤ

/-- What stops the program. -/
inductive MemoryFailure
  /-- `NULL` is dereferenced. -/
  | nullPointer
  /-- `assert( sd->mode == 'r')`. -/
  | wrongMode
  /-- A released stream is used. -/
  | released

/-- The allocated streams and descriptors. -/
structure Memory (σ δ τ α : Type) where
  stream : σ → StoredStream δ α
  desc : δ → StreamDesc σ δ τ
  streams : List σ
  sds : List δ

section Operations

variable [DecidableEq σ]

/-- `LpelStreamDestroy`. -/
def Memory.lpelStreamDestroy (memory : Memory σ δ τ α) (s : σ) :
    Except MemoryFailure (Memory σ δ τ α) :=
  if s ∈ memory.streams then
    .ok { memory with
      streams := memory.streams.filter fun other => other ≠ s }
  else
    .error .released

/-- `sd->stream->cons_sd = sd`. -/
def Memory.setConsSd (memory : Memory σ δ τ α) (s : σ) (sd : δ) :
    Except MemoryFailure (Memory σ δ τ α) :=
  if s ∈ memory.streams then
    .ok { memory with
      stream := Function.update memory.stream s
        { memory.stream s with consSd := some sd } }
  else
    .error .released

/-- `LpelStreamReplace`. -/
def Memory.lpelStreamReplace
    [DecidableEq δ]
    (memory : Memory σ δ τ α)
    (sd : δ)
    (snew : σ) : Except MemoryFailure (Memory σ δ τ α) :=
  if (memory.desc sd).mode = .r then
    match (memory.desc sd).stream with
    | none => .error .nullPointer
    | some s => do
        let memory ← memory.lpelStreamDestroy s
        Memory.setConsSd
          { memory with
            desc := Function.update memory.desc sd
              { memory.desc sd with stream := some snew } } snew sd
  else
    .error .wrongMode

end Operations

/-- The streams and descriptors of the back end. -/
def store (σ δ τ α : Type) :
    StreamStore (Memory σ δ τ α) σ δ (StoredStream δ α) (StreamDesc σ δ τ)
      (Buffer α) where
  stream := Memory.stream
  desc := Memory.desc
  buffer := StoredStream.buffer
  nSem := StoredStream.nSem
  eSem := StoredStream.eSem
  consSd := StoredStream.consSd
  sdStream := StreamDesc.stream
  Released := fun memory s => s ∉ memory.streams

/-- The descriptor is open for reading on a stream that is exhausted and has had
a writer. -/
structure Memory.Exhausted (memory : Memory σ δ τ α) (sd : δ) (s : σ) :
    Prop where
  opened : sd ∈ memory.sds
  mode : (memory.desc sd).mode = .r
  stream : (memory.desc sd).stream = some s
  live : s ∈ memory.streams
  written : (memory.stream s).prodSd ≠ none
  empty : lpelBufferIsEmpty (memory.stream s).buffer = true

/-- No task has the stream open for reading. -/
def Memory.Unread (memory : Memory σ δ τ α) (s : σ) : Prop :=
  ∀ sd ∈ memory.sds, (memory.desc sd).mode = .r →
    (memory.desc sd).stream ≠ some s

section Replaced

variable [DecidableEq σ] [DecidableEq δ]

/-- The memory after `LpelStreamReplace`. -/
def Memory.replacedBy
    (memory : Memory σ δ τ α)
    (sd : δ)
    (s snew : σ) : Memory σ δ τ α where
  stream := Function.update memory.stream snew
    { memory.stream snew with consSd := some sd }
  desc := Function.update memory.desc sd
    { memory.desc sd with stream := some snew }
  streams := memory.streams.filter fun other => other ≠ s
  sds := memory.sds

variable {memory : Memory σ δ τ α} {sd : δ} {s snew : σ}

theorem Memory.Exhausted.replace_eq
    (exhausted : memory.Exhausted sd s)
    (live : snew ∈ memory.streams)
    (unread : memory.Unread snew) :
    memory.lpelStreamReplace sd snew = .ok (memory.replacedBy sd s snew) := by
  have distinct : snew ≠ s := by
    rintro rfl
    exact unread sd exhausted.opened exhausted.mode exhausted.stream
  have kept : snew ∈ memory.streams.filter fun other => other ≠ s :=
    List.mem_filter.mpr ⟨live, decide_eq_true distinct⟩
  rw [Memory.lpelStreamReplace, if_pos exhausted.mode, exhausted.stream]
  simp only [Memory.lpelStreamDestroy, if_pos exhausted.live, bind,
    Except.bind, Memory.setConsSd]
  rw [if_pos kept]
  rfl

theorem Memory.replaced :
    (store σ δ τ α).Replaced (· ∈ memory.streams) (· ∈ memory.sds) memory
      (memory.replacedBy sd s snew) sd s snew where
  stream := by simp [store, Memory.replacedBy]
  consumer := by simp [store, Memory.replacedBy]
  contents := by simp [store, Memory.replacedBy]
  semaphores := by simp [store, Memory.replacedBy]
  released := by simp [store, Memory.replacedBy]
  streams := by
    intro other _ _ different
    simp [store, Memory.replacedBy, different]
  sds := by
    intro other _ different
    simp [store, Memory.replacedBy, different]

end Replaced

end Decen

namespace Hrc

variable {σ δ τ ω α : Type}

/-- The fields of `lpel_stream_t` that are not pointers, apart from the buffer
and the type. -/
structure StreamFields where
  isPoll : Bool
  nSem : ℤ
  eSem : ℤ
  readCnt : ℤ
  writeCnt : ℤ

/-- The pools with all fields of the streams. -/
structure Memory (σ δ τ ω α : Type) where
  pools : Pools σ δ τ ω α
  fields : σ → StreamFields

/-- `LpelStreamReplace`, which uses none of these fields. -/
def Memory.lpelStreamReplace
    [DecidableEq σ]
    [DecidableEq δ]
    [DecidableEq ω]
    (memory : Memory σ δ τ ω α)
    (sd : δ)
    (snew : σ) : Except PoolFailure (Memory σ δ τ ω α) := do
  let pools ← memory.pools.lpelStreamReplace sd snew
  return { memory with pools := pools }

/-- The streams and descriptors of the back end.  A released stream is in a free
list, with its pointers unset. -/
def store (σ δ τ ω α : Type) :
    StreamStore (Memory σ δ τ ω α) σ δ (PoolStream σ δ α × StreamFields)
      (StreamDesc σ δ τ) (Buffer α) where
  stream := fun memory s => (memory.pools.stream s, memory.fields s)
  desc := fun memory => memory.pools.desc
  buffer := fun s => s.1.buffer
  nSem := fun s => s.2.nSem
  eSem := fun s => s.2.eSem
  consSd := fun s => s.1.consSd
  sdStream := StreamDesc.stream
  Released := fun memory s => (∃ wc, memory.pools.freeStream wc = some s) ∧
    (memory.pools.stream s).prodSd = none ∧
    (memory.pools.stream s).consSd = none

section Replaced

variable [DecidableEq σ] [DecidableEq δ] [DecidableEq ω]

variable {pools : Pools σ δ τ ω α} {sd prod : δ} {s snew : σ}

section Effect

variable (wc : ω) (oldCons : δ)

theorem Pools.stream_replacedBy
    (distinct : snew ≠ s) :
    (pools.replacedBy wc sd s snew prod oldCons).stream =
      Function.update
        (Function.update pools.stream s
          { pools.stream s with
            prodSd := none
            consSd := none
            next := pools.freeStream wc }) snew
        { pools.stream snew with
          type := (pools.stream s).type
          consSd := some sd } := by
  funext other
  rw [Pools.replacedBy, Pools.putStream_eq]
  by_cases new : other = snew
  · subst new
    simp [Pools.setType, Pools.unsetWith, Pools.setStream, Pools.setSdStream,
      Pools.setDesc, Pools.setSdOf, distinct]
  · by_cases old : other = s
    · subst old
      simp [Pools.setType, Pools.unsetWith, Pools.setStream, Pools.setSdStream,
        Pools.setDesc, Pools.setSdOf, new]
    · simp [Pools.setType, Pools.unsetWith, Pools.setStream, Pools.setSdStream,
        Pools.setDesc, Pools.setSdOf, new, old]

/-- The old stream is the first of the free list. -/
theorem Pools.freeStream_replacedBy :
    (pools.replacedBy wc sd s snew prod oldCons).freeStream wc = some s := by
  rw [Pools.replacedBy, Pools.putStream_eq]
  exact Function.update_self ..

theorem Pools.desc_replacedBy
    {other : δ}
    (notSelf : other ≠ sd)
    (notProd : other ≠ prod)
    (notCons : other ≠ oldCons) :
    (pools.replacedBy wc sd s snew prod oldCons).desc other =
      pools.desc other := by
  rw [Pools.replacedBy, Pools.putStream_eq, Pools.setSdStream_of_ne _ notSelf]
  simp [Pools.setType, Pools.unsetWith, Pools.setStream, Pools.setSdStream,
    Pools.setDesc, Pools.setSdOf, notProd, notCons]

/-- The producer of the old stream loses its pointer. -/
theorem Pools.prod_replacedBy
    (notSelf : prod ≠ sd) :
    ((pools.replacedBy wc sd s snew prod oldCons).desc prod).stream = none := by
  rw [Pools.replacedBy, Pools.putStream_eq, Pools.setSdStream_of_ne _ notSelf]
  by_cases same : prod = oldCons
  · simp [Pools.setSdStream, Pools.setDesc, Pools.setSdOf, Pools.setStream,
      same]
  · simp [Pools.setType, Pools.unsetWith, Pools.setStream, Pools.setSdStream,
      Pools.setDesc, Pools.setSdOf, same]

/-- Nothing in use is changed if the producer of the old stream and the last
consumer of the new stream have closed their descriptors. -/
theorem Memory.replaced
    {oldCons : δ}
    (fields : σ → StreamFields)
    {live : σ → Prop}
    {opened : δ → Prop}
    (distinct : snew ≠ s)
    (prodClosed : ¬opened prod)
    (consClosed : ¬opened oldCons) :
    (store σ δ τ ω α).Replaced live opened ⟨pools, fields⟩
      ⟨pools.replacedBy wc sd s snew prod oldCons, fields⟩ sd s snew where
  stream := Pools.setSdStream_self ..
  consumer := by simp [store, Pools.stream_replacedBy, distinct]
  contents := by simp [store, Pools.stream_replacedBy, distinct]
  semaphores := ⟨rfl, rfl⟩
  released := ⟨⟨wc, Pools.freeStream_replacedBy wc oldCons⟩, by
    simp [Pools.stream_replacedBy, distinct, Ne.symm distinct]⟩
  streams := by
    intro other _ notOld notNew
    simp [store, Pools.stream_replacedBy, distinct, notOld, notNew]
  sds := by
    intro other inUse notSelf
    apply Pools.desc_replacedBy wc oldCons notSelf
    · rintro rfl
      exact prodClosed inUse
    · rintro rfl
      exact consClosed inUse

end Effect

end Replaced

section Programs

variable [DecidableEq τ]
variable {system : PoolSystem σ δ τ ω α}

/-- A stream that no task has open keeps the pointer to a descriptor that is
closed. -/
theorem PoolSystem.Unopened.closed
    {mode : Mode}
    {s : σ}
    {sd : δ}
    (unopened : system.Unopened mode s)
    (sound : system.Sound)
    (live : s ∈ system.client.live)
    (points : (system.pools.stream s).sdOf mode = some sd) :
    sd ∉ system.client.sds := by
  obtain ⟨-, freeStreams, freeSds, consistent⟩ := sound
  obtain ⟨-, stream, mode_eq⟩ := consistent.pointers.pointed s live mode sd
    points
  intro opened
  obtain ⟨h, held, rfl⟩ := List.mem_map.mp opened
  obtain ⟨-, mode', stream'⟩ := consistent.pointers.held h held
  exact unopened h held (stream'.symm.trans stream) (mode'.symm.trans mode_eq)

variable [DecidableEq σ] [DecidableEq δ] [DecidableEq ω]

/-- Where the two pointers are set and the producer has closed the old stream,
the stream is replaced; otherwise it is not. -/
theorem PoolSystem.Sound.replaced_iff
    (sound : system.Sound)
    (fields : σ → StreamFields)
    {h : Handle σ δ τ}
    {s snew : σ}
    (member : h ∈ system.client.handles)
    (mayDestroy : system.MayDestroy h)
    (reads : h.stream = some s)
    (live : snew ∈ system.client.live)
    (unopened : system.Unopened .r snew) :
    (∃ after, Memory.lpelStreamReplace ⟨system.pools, fields⟩ h.sd snew =
        .ok after ∧
      (store σ δ τ ω α).Replaced (· ∈ system.client.live)
        (· ∈ system.client.sds) ⟨system.pools, fields⟩ after h.sd s snew) ↔
      (system.pools.stream snew).consSd ≠ none ∧ system.Unopened .w s := by
  have ⟨_, _, _, consistent⟩ := sound
  have pointers := consistent.pointers
  obtain ⟨reader, s', reads', written, empty⟩ := mayDestroy
  obtain rfl : s = s' := Option.some.inj (reads.symm.trans reads')
  obtain ⟨task, mode, stream⟩ := pointers.held h member
  obtain ⟨liveOld, -⟩ := pointers.opened h member s reads
  obtain ⟨prod, writer⟩ := Option.ne_none_iff_exists'.mp
    (pointers.used s liveOld .w written)
  obtain ⟨-, prodStream, prodMode⟩ := pointers.pointed s liveOld .w prod writer
  have distinct : snew ≠ s := by
    rintro rfl
    exact unopened h member reads reader
  have notSelf : prod ≠ h.sd := by
    rintro rfl
    rw [mode, reader] at prodMode
    cases prodMode
  have result := Pools.replace_eq (mode.trans reader) task (stream.trans reads)
    writer empty distinct
  cases last : (system.pools.stream snew).consSd with
  | none =>
      rw [last] at result
      refine iff_of_false ?_ (by simp)
      rintro ⟨after, ok, -⟩
      simp [Memory.lpelStreamReplace, result, bind, Except.bind] at ok
  | some oldCons =>
      rw [last] at result
      have ok : Memory.lpelStreamReplace ⟨system.pools, fields⟩ h.sd snew =
          .ok ⟨system.pools.replacedBy (system.pools.workerContext h.task) h.sd
            s snew prod oldCons, fields⟩ := by
        simp [Memory.lpelStreamReplace, result, bind, Except.bind, pure,
          Except.pure]
      have consClosed := unopened.closed sound live last
      constructor
      · rintro ⟨after, ok', replaced⟩
        obtain rfl := Except.ok.inj (ok.symm.trans ok')
        refine ⟨by simp, ?_⟩
        -- an open producer is a descriptor in use that has lost its stream
        intro h' held writes writing
        obtain ⟨-, held_eq⟩ := pointers.opened h' held s writes
        rw [writing] at held_eq
        obtain rfl := Option.some.inj (writer.symm.trans held_eq)
        have same := replaced.sds h'.sd (List.mem_map_of_mem held) notSelf
        have lost : ((system.pools.replacedBy
            (system.pools.workerContext h.task) h.sd s snew h'.sd
              oldCons).desc h'.sd).stream = none :=
          Pools.prod_replacedBy _ oldCons notSelf
        have kept : ((system.pools.replacedBy
            (system.pools.workerContext h.task) h.sd s snew h'.sd
              oldCons).desc h'.sd).stream = some s :=
          (congrArg StreamDesc.stream same).trans prodStream
        rw [lost] at kept
        cases kept
      · rintro ⟨-, closed⟩
        have prodClosed := closed.closed sound liveOld writer
        exact ⟨_, ok, Memory.replaced _ fields distinct prodClosed consClosed⟩

end Programs

end Hrc

/-- In the decentralised back end `LpelStreamReplace` always replaces an
exhausted stream and changes nothing else.  In the hierarchical one, in every
program that respects the documented usage, it does so exactly if the new stream
has been read before, so that its pointer to the consumer is set, and the writer
of the old stream has closed it. -/
theorem replaceAgrees
    {σ δ τ ω α : Type}
    [DecidableEq σ]
    [DecidableEq δ]
    [DecidableEq τ]
    [DecidableEq ω] :
    (∀ (memory : Decen.Memory σ δ τ α) (sd : δ) (s snew : σ),
      memory.Exhausted sd s → snew ∈ memory.streams → memory.Unread snew →
      ∃ after, memory.lpelStreamReplace sd snew = .ok after ∧
        (Decen.store σ δ τ α).Replaced (· ∈ memory.streams) (· ∈ memory.sds)
          memory after sd s snew) ∧
    ∀ (isWrapper : ω → Bool) (system : Hrc.PoolSystem σ δ τ ω α)
      (fields : σ → Hrc.StreamFields) (h : Hrc.Handle σ δ τ) (s snew : σ),
      (Hrc.poolMachine isWrapper).ReachableBy
        (fun system label => system.Documented label) system →
      h ∈ system.client.handles → system.MayDestroy h → h.stream = some s →
      snew ∈ system.client.live → system.Unopened .r snew →
      ((∃ after, Hrc.Memory.lpelStreamReplace ⟨system.pools, fields⟩ h.sd
          snew = .ok after ∧
        (Hrc.store σ δ τ ω α).Replaced (· ∈ system.client.live)
          (· ∈ system.client.sds) ⟨system.pools, fields⟩ after h.sd s snew) ↔
        (system.pools.stream snew).consSd ≠ none ∧ system.Unopened .w s) := by
  refine ⟨?_, ?_⟩
  · intro memory sd s snew exhausted live unread
    exact ⟨_, exhausted.replace_eq live unread, Decen.Memory.replaced⟩
  · intro isWrapper system fields h s snew reached member mayDestroy reads live
      unopened
    exact (Hrc.PoolSystem.Sound.ofReachable reached).replaced_iff fields member
      mayDestroy reads live unopened

section Runs

open Hrc

/-- The descriptor of the reader. -/
def readerHandle : Handle ℕ ℕ ℕ where
  sd := 1
  task := 0
  mode := .r
  stream := some 0

/-- In the decentralised back end, the reader has an empty stream and there is
another one. -/
def twoStored : Decen.Memory ℕ ℕ ℕ ℕ where
  stream := fun _ =>
    { buffer := { pread := 0, pwrite := 0, size := 1, data := fun _ => none }
      isPoll := false
      prodSd := some 0
      consSd := none
      nSem := 0
      eSem := 1 }
  desc := fun _ =>
    { task := some 0
      stream := some 0
      mode := .r
      next := none }
  streams := [0, 1]
  sds := [1]

/-- A task reads a stream whose writer has closed it, and has read a second
stream before. -/
def readBefore : List (PoolLabel ℕ ℕ ℕ Bool ℕ) :=
  [.create none 0 0, .create none 1 0, .opens 1 0 .w 0, .opens 0 0 .r 1,
    .close 0 false, .opens 0 1 .r 2, .close 2 false]

/-- Both back ends replace the stream. -/
theorem replaceAgrees_readBefore :
    (twoStored.Exhausted 1 0 ∧ 1 ∈ twoStored.streams ∧ twoStored.Unread 1 ∧
      ∃ after, twoStored.lpelStreamReplace 1 1 = .ok after ∧
        (Decen.store ℕ ℕ ℕ ℕ).Replaced (· ∈ twoStored.streams)
          (· ∈ twoStored.sds) twoStored after 1 0 1) ∧
    ∃ system : PoolSystem ℕ ℕ ℕ Bool ℕ,
      (poolMachine fun _ => false).ReachableBy
        (fun system label => system.Documented label) system ∧
      ∀ fields, ∃ after,
        Hrc.Memory.lpelStreamReplace ⟨system.pools, fields⟩ 1 1 = .ok after ∧
        (Hrc.store ℕ ℕ ℕ Bool ℕ).Replaced (· ∈ system.client.live)
          (· ∈ system.client.sds) ⟨system.pools, fields⟩ after 1 0 1 := by
  constructor
  · have exhausted : twoStored.Exhausted 1 0 :=
      ⟨by decide, rfl, rfl, by decide, by decide, rfl⟩
    have live : 1 ∈ twoStored.streams := by decide
    have unread : twoStored.Unread 1 := by
      intro sd _ _
      simp [twoStored]
    exact ⟨exhausted, live, unread,
      (replaceAgrees (ω := Bool)).1 twoStored 1 0 1 exhausted live unread⟩
  · obtain ⟨system, documented, tested⟩ := exists_documented
      (⟨_, _, _, rfl⟩ : (poolMachine fun _ => false).init emptyPools)
      (by decide : ((poolMachine fun _ => false).runBy
        (fun system label => decide (system.Documented label)) emptyPools
          readBefore).map (fun system => decide (
            readerHandle ∈ system.client.handles ∧
            system.MayDestroy readerHandle ∧ 1 ∈ system.client.live ∧
            system.Unopened .r 1 ∧ system.Unopened .w 0 ∧
            (system.pools.stream 1).consSd ≠ none)) = some true)
    obtain ⟨member, mayDestroy, live, unread, unwritten, set⟩ :=
      of_decide_eq_true tested
    refine ⟨system, documented, fun fields => ?_⟩
    exact (replaceAgrees.2 _ system fields readerHandle 0 1 documented member
      mayDestroy rfl live unread).mpr ⟨set, unwritten⟩

/-- A task reads a stream whose writer has closed it, and there is a second
stream that no task has opened. -/
def unreadStream : List (PoolLabel ℕ ℕ ℕ Bool ℕ) :=
  [.create none 0 0, .create none 1 0, .opens 1 0 .w 0, .opens 0 0 .r 1,
    .close 0 false]

/-- `LpelStreamReplace` dereferences `NULL` for the second stream. -/
theorem replace_neverRead :
    ∃ system : PoolSystem ℕ ℕ ℕ Bool ℕ,
      (poolMachine fun _ => false).ReachableBy
        (fun system label => system.Documented label) system ∧
      readerHandle ∈ system.client.handles ∧ system.MayDestroy readerHandle ∧
      1 ∈ system.client.live ∧ system.Unopened .r 1 ∧
      system.Unopened .w 0 ∧
      system.pools.lpelStreamReplace 1 1 = .error .nullPointer := by
  obtain ⟨system, documented, tested⟩ := exists_documented
    (⟨_, _, _, rfl⟩ : (poolMachine fun _ => false).init emptyPools)
    (by decide : ((poolMachine fun _ => false).runBy
      (fun system label => decide (system.Documented label)) emptyPools
        unreadStream).map (fun system => decide (
          readerHandle ∈ system.client.handles ∧
          system.MayDestroy readerHandle ∧ 1 ∈ system.client.live ∧
          system.Unopened .r 1 ∧ system.Unopened .w 0 ∧
          (system.pools.stream 1).consSd = none ∧
          (system.pools.stream 0).prodSd = some 0 ∧
          lpelBufferIsEmpty (system.pools.stream 0).buffer = true)) =
            some true)
  obtain ⟨member, mayDestroy, live, unread, unwritten, never, writer, empty⟩ :=
    of_decide_eq_true tested
  refine ⟨system, documented, member, mayDestroy, live, unread, unwritten, ?_⟩
  obtain ⟨-, freeStreams, freeSds, consistent⟩ :=
    PoolSystem.Sound.ofReachable documented
  obtain ⟨task, mode, stream⟩ := consistent.pointers.held readerHandle member
  have result := Pools.replace_eq mode task stream writer empty
    (by decide : (1 : ℕ) ≠ 0)
  rw [never] at result
  exact result

end Runs

end Lpel
