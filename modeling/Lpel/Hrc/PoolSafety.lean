import Lpel.Hrc.PoolOperations

/-!
# No descriptor and no stream is used twice

In every program that respects the documented usage a descriptor that is taken
from a free list is referenced by no stream and open for no task, on whatever
workers the tasks are.
-/

namespace Lpel
namespace Hrc

variable {σ δ τ ω α : Type} [DecidableEq τ]

section Runs

variable {isWrapper : ω → Bool} {system after : PoolSystem σ δ τ ω α}
variable {freeStreams : ω → List σ} {freeSds : ω → List δ}

/-- The invariant of a program. -/
def PoolSystem.Sound (system : PoolSystem σ δ τ ω α) : Prop :=
  system.failed = none ∧ ∃ freeStreams freeSds,
    Consistent system.pools system.client freeStreams freeSds

/-- At the start nothing is allocated. -/
theorem sound_poolStart
    (stream : σ → PoolStream σ δ α)
    (desc : δ → StreamDesc σ δ τ)
    (workerContext : τ → ω) :
    (poolStart stream desc workerContext).Sound := by
  refine ⟨rfl, fun _ => [], fun _ => [], ?_, ?_, ?_⟩
  · constructor
    case nodup => exact List.nodup_nil
    case listed =>
      intro mode t
      cases mode <;> rfl
    all_goals simp [poolStart]
  · exact ⟨fun _ => rfl, fun _ => List.nodup_nil, by simp, by simp,
      by simp [poolStart]⟩
  · exact ⟨fun _ => rfl, fun _ => List.nodup_nil, by simp, by simp,
      by simp [poolStart, Client.sds]⟩

variable [DecidableEq σ] [DecidableEq δ] [DecidableEq ω]

/-- Every step that respects the documented usage succeeds. -/
theorem Consistent.step
    (consistent : Consistent system.pools system.client freeStreams freeSds)
    (running : system.failed = none)
    {label : PoolLabel σ δ τ ω α}
    (documented : system.Documented label)
    (taken : system.step isWrapper label = some after) :
    after.failed = none ∧ ∃ freeStreams' freeSds',
      Consistent after.pools after.client freeStreams' freeSds' := by
  cases label with
  | create self fresh address =>
      simp only [PoolSystem.step] at taken
      split at taken
      case isTrue => exact absurd taken (by simp)
      case isFalse unknown =>
        obtain ⟨s, pools, freeStreams', result, created⟩ :=
          consistent.create self unknown address
        rw [result] at taken
        obtain rfl := Option.some.inj taken
        exact ⟨running, freeStreams', freeSds, created⟩
  | opens ct s mode fresh =>
      simp only [PoolSystem.step] at taken
      split at taken
      case isTrue => exact absurd taken (by simp)
      case isFalse unknown =>
        obtain ⟨live, unopened⟩ := documented
        obtain ⟨sd, pools, freeSds', result, opened⟩ :=
          consistent.openStream isWrapper ct unknown live unopened
        rw [result] at taken
        obtain rfl := Option.some.inj taken
        exact ⟨running, freeStreams, freeSds', opened⟩
  | close sd destroy =>
      obtain ⟨h, member, rfl, mayDestroy⟩ := documented
      simp only [PoolSystem.step, consistent.pointers.streamOf member] at taken
      cases destroy with
      | false =>
          obtain ⟨pools, freeSds', result, closed⟩ := consistent.close member
          rw [result] at taken
          obtain rfl := Option.some.inj taken
          exact ⟨running, freeStreams, freeSds', closed⟩
      | true =>
          obtain ⟨reader, s, reads, written, empty⟩ := mayDestroy rfl
          have reads : h.stream = some s := reads
          obtain ⟨pools, freeStreams', freeSds', result, closed⟩ :=
            consistent.closeAndDestroy member reader reads written empty
          rw [result, reads] at taken
          obtain rfl := Option.some.inj taken
          exact ⟨running, freeStreams', freeSds', closed⟩
  | replace sd snew =>
      obtain ⟨⟨h, member, rfl, reader, s, reads, written, empty⟩, live,
        readBefore, unopened⟩ := documented
      have reads : h.stream = some s := reads
      simp only [PoolSystem.step, consistent.pointers.streamOf member] at taken
      obtain ⟨pools, freeStreams', result, replaced⟩ := consistent.replace member
        reader reads written empty live readBefore unopened
      rw [result, reads] at taken
      obtain rfl := Option.some.inj taken
      exact ⟨running, freeStreams', freeSds, replaced⟩
  | write sd address item =>
      obtain ⟨h, member, rfl, writer, attached⟩ := documented
      obtain ⟨s, writes⟩ := Option.ne_none_iff_exists'.mp attached
      obtain ⟨-, mode, stream⟩ := consistent.pointers.held h member
      obtain ⟨live, -⟩ := consistent.pointers.opened h member s writes
      simp only [PoolSystem.step, Pools.lpelStreamWrite, mode, writer, stream,
        writes] at taken
      obtain rfl := Option.some.inj taken
      exact ⟨running, freeStreams, freeSds, consistent.setBuffer live _⟩
  | read sd =>
      obtain ⟨h, member, rfl, reader, attached⟩ := documented
      obtain ⟨s, reads⟩ := Option.ne_none_iff_exists'.mp attached
      obtain ⟨-, mode, stream⟩ := consistent.pointers.held h member
      obtain ⟨live, -⟩ := consistent.pointers.opened h member s reads
      simp only [PoolSystem.step, Pools.lpelStreamRead, mode, reader, stream,
        reads] at taken
      obtain rfl := Option.some.inj taken
      exact ⟨running, freeStreams, freeSds, consistent.setBuffer live _⟩
  | assign t wc =>
      obtain rfl := Option.some.inj taken
      refine ⟨running, freeStreams, freeSds, ?_, consistent.streamLists,
        consistent.sdLists⟩
      refine consistent.pointers.congr (fun _ => ⟨rfl, rfl, rfl⟩)
        (fun _ _ => rfl) (fun _ _ => rfl) ?_ rfl rfl
      intro mode
      cases mode <;> rfl

/-- The invariant holds in every state reached. -/
theorem PoolSystem.Sound.ofReachable
    (reached : (poolMachine isWrapper).ReachableBy
      (fun system label => system.Documented label) system) :
    system.Sound := by
  refine Machine.ReachableBy.invariant ?_ ?_ reached
  · rintro _ ⟨stream, desc, workerContext, rfl⟩
    exact sound_poolStart stream desc workerContext
  · rintro system label after ⟨running, freeStreams, freeSds, consistent⟩
      documented taken
    simp only [poolMachine, running] at taken
    exact consistent.step running documented taken

/-- A state at the end of a run whose steps are all documented. -/
theorem exists_documented
    {start : PoolSystem σ δ τ ω α}
    {labels : List (PoolLabel σ δ τ ω α)}
    {test : PoolSystem σ δ τ ω α → Bool}
    (initial : (poolMachine isWrapper).init start)
    (passes : ((poolMachine isWrapper).runBy
      (fun system label => decide (system.Documented label)) start
        labels).map test = some true) :
    ∃ system, (poolMachine isWrapper).ReachableBy
        (fun system label => system.Documented label) system ∧
      test system = true := by
  obtain ⟨system, reached, tested⟩ :=
    Machine.exists_reachableBy_of_runBy initial passes
  refine ⟨system, reached.mono ?_, tested⟩
  intro system label documented
  exact of_decide_eq_true documented

/-- The pools, with the nodes of the free lists of the workers. -/
structure PoolSystem.InOrder
    (system : PoolSystem σ δ τ ω α)
    (freeStreams : ω → List σ)
    (freeSds : ω → List δ) : Prop where
  streamLists : ∀ wc, Chained (fun s => (system.pools.stream s).next)
    (system.pools.freeStream wc) (freeStreams wc)
  sdLists : ∀ wc, Chained (fun sd => (system.pools.desc sd).next)
    (system.pools.freeSd wc) (freeSds wc)
  /-- A stream that is in no free list and its descriptors refer to each
  other. -/
  referring : ∀ s ∈ system.pools.streams, (∀ wc, s ∉ freeStreams wc) →
    (∀ sd, (system.pools.stream s).prodSd = some sd →
      (system.pools.desc sd).stream = some s ∧
        (system.pools.desc sd).mode = .w) ∧
    ∀ sd, (system.pools.stream s).consSd = some sd →
      (system.pools.desc sd).stream = some s ∧
        (system.pools.desc sd).mode = .r
  /-- A descriptor that `LpelWorkerGetSd` returns is nowhere else. -/
  handedOut : ∀ wc sd after,
    system.pools.lpelWorkerGetSd wc = .ok (some sd, after) →
    (∀ s ∈ system.pools.streams, (∀ other, s ∉ freeStreams other) →
      (system.pools.stream s).prodSd ≠ some sd ∧
        (system.pools.stream s).consSd ≠ some sd) ∧
    (∀ mode t, sd ∉ system.pools.streamsOf mode t) ∧
    (∀ other, other ≠ wc → sd ∉ freeSds other) ∧
    ∃ rest, Chained (fun sd => (after.desc sd).next) (after.freeSd wc) rest ∧
      sd ∉ rest
  /-- No stream and no descriptor is in two free lists or twice in one. -/
  streamsOnce : (∀ wc, (freeStreams wc).Nodup) ∧ ∀ s wc other,
    s ∈ freeStreams wc → s ∈ freeStreams other → wc = other
  sdsOnce : (∀ wc, (freeSds wc).Nodup) ∧ ∀ sd wc other,
    sd ∈ freeSds wc → sd ∈ freeSds other → wc = other
  pooled : ∀ wc, ∀ s ∈ freeStreams wc,
    (system.pools.stream s).prodSd = none ∧
      (system.pools.stream s).consSd = none ∧
      lpelBufferIsEmpty (system.pools.stream s).buffer = true
  /-- The lists of a task hold what it has open, each descriptor once. -/
  listed : ∀ mode t, (system.pools.streamsOf mode t).Nodup ∧
    ∀ sd, sd ∈ system.pools.streamsOf mode t ↔
      ∃ h ∈ system.client.handles, h.sd = sd ∧ h.task = t ∧ h.mode = mode
  /-- No assertion fails, and no `NULL` is dereferenced. -/
  ok : system.failed = none

/-- In every program that respects the documented usage the pointers between
streams and descriptors, the lists of the tasks and the free lists of the workers
are in order, no matter on which workers its tasks open and close streams. -/
theorem poolsInOrder
    (reached : (poolMachine isWrapper).ReachableBy
      (fun system label => system.Documented label) system) :
    ∃ freeStreams freeSds, system.InOrder freeStreams freeSds := by
  obtain ⟨running, freeStreams, freeSds, consistent⟩ :=
    PoolSystem.Sound.ofReachable reached
  have live {s : σ} (known : s ∈ system.pools.streams)
      (outside : ∀ wc, s ∉ freeStreams wc) : s ∈ system.client.live := by
    obtain live | ⟨wc, member⟩ := (consistent.streamLists.known_iff s).mp known
    · exact live
    · exact absurd member (outside wc)
  refine ⟨freeStreams, freeSds, consistent.streamLists.chained,
    consistent.sdLists.chained, ?_, ?_, ⟨consistent.streamLists.nodup, ?_⟩,
    ⟨consistent.sdLists.nodup, ?_⟩, ?_, ?_, running⟩
  · intro s known outside
    have pointed := consistent.pointers.pointed s (live known outside)
    exact ⟨fun sd refers => (pointed .w sd refers).2,
      fun sd refers => (pointed .r sd refers).2⟩
  · intro wc sd after result
    obtain ⟨unreferenced, others⟩ := consistent.handedOut result
    refine ⟨?_, others⟩
    intro s known outside
    have free := unreferenced s (live known outside)
    exact ⟨free .w, free .r⟩
  · exact fun _ _ _ => consistent.streamLists.apart
  · exact fun _ _ _ => consistent.sdLists.apart
  · intro wc s member
    obtain ⟨unset, empty⟩ := consistent.pooled member
    exact ⟨unset .w, unset .r, empty⟩
  · intro mode t
    refine ⟨?_, consistent.pointers.mem_streamsOf mode t⟩
    rw [consistent.pointers.listed]
    exact consistent.pointers.nodup.sublist (List.filter_sublist.map _)

end Runs

section Example

/-- Two tasks on two workers, before a stream is created. -/
def emptyPools : PoolSystem ℕ ℕ ℕ Bool ℕ :=
  poolStart
    (fun _ =>
      { buffer := lpelBufferInit 0
        prodSd := none
        consSd := none
        next := none
        type := .middle })
    (fun _ => { task := none, stream := none, mode := .r, next := none })
    (fun t => t == 0)

/-- One task replaces the stream that it reads by the one that the other task has
closed.  The other task creates a stream and opens it. -/
def replacedRun : List (PoolLabel ℕ ℕ ℕ Bool ℕ) :=
  [.create none 0 0, .create none 1 0, .opens 1 0 .w 0, .opens 0 0 .r 1,
    .opens 0 1 .w 2, .opens 1 1 .r 3, .write 0 1 7, .read 1, .close 3 false,
    .replace 1 1, .create (some true) 2 0, .opens 1 0 .w 4]

/-- The replaced stream and the closed descriptor are used again. -/
theorem poolsInOrder_reused :
    ∃ system : PoolSystem ℕ ℕ ℕ Bool ℕ, system.pools.streams = [1, 0] ∧
      system.pools.sds = [3, 2, 1, 0] ∧
      (system.pools.desc 3).stream = some 0 ∧
      ∃ freeStreams freeSds, system.InOrder freeStreams freeSds := by
  obtain ⟨system, reached, tested⟩ := exists_documented
    (⟨_, _, _, rfl⟩ : (poolMachine fun _ => false).init emptyPools)
    (by decide : ((poolMachine fun _ => false).runBy
      (fun system label => decide (system.Documented label)) emptyPools
        replacedRun).map (fun system => decide (
          system.pools.streams = [1, 0] ∧ system.pools.sds = [3, 2, 1, 0] ∧
          (system.pools.desc 3).stream = some 0)) = some true)
  obtain ⟨streams, sds, stream⟩ := of_decide_eq_true tested
  exact ⟨system, streams, sds, stream, poolsInOrder reached⟩

end Example

end Hrc
end Lpel
