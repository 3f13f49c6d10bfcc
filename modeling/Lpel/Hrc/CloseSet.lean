import Lpel.Hrc.PoolSafety
import Lpel.Streamset

/-!
# Closing the streams of a set

A task that has read all streams of a set to their ends closes them in a loop
over the set, as the consumers of the tests do:

    LpelStreamIterReset(iter, &lst);
    while( LpelStreamIterHasNext(iter)) {
      lpel_stream_desc_t *snext = LpelStreamIterNext(iter);
      LpelStreamClose( snext, 1);
    }

The field `next` of a descriptor is its link in the set and, after the
descriptor is closed, its link in the free list of the worker.
-/

namespace Lpel
namespace Hrc

variable {σ δ τ ω α : Type}

/-- A stream set in the memory, with the handle `*set`. -/
def Pools.ring (pools : Pools σ δ τ ω α) (set : Option δ) : Streamset δ where
  set := set
  next := fun sd => (pools.desc sd).next

/-- The memory after the links of a stream set were changed. -/
def Pools.relink (pools : Pools σ δ τ ω α) (ring : Streamset δ) :
    Pools σ δ τ ω α :=
  { pools with
    desc := fun sd => { pools.desc sd with next := ring.next sd } }

/-- The state of the loop. -/
structure Closing (σ δ τ ω α : Type) where
  pools : Pools σ δ τ ω α
  iter : StreamIter δ
  /-- The arguments of `LpelStreamClose` so far. -/
  closed : List δ

section Loop

variable [DecidableEq σ] [DecidableEq δ] [DecidableEq τ] [DecidableEq ω]

/-- The body of the loop: a `NULL` is dereferenced by `LpelStreamClose`. -/
def closeRound (set : Option δ) (loop : Closing σ δ τ ω α) :
    Except PoolFailure (Closing σ δ τ ω α) := do
  let iter := lpelStreamIterNext (loop.pools.ring set) loop.iter
  let snext ← Pools.follow iter.cur
  let pools ← loop.pools.lpelStreamClose snext true
  return { pools := pools, iter := iter, closed := loop.closed ++ [snext] }

/-- The loop, for a number of rounds. -/
def closeRounds (set : Option δ) :
    ℕ → Closing σ δ τ ω α → Except PoolFailure (Closing σ δ τ ω α)
  | 0, loop =>
      if lpelStreamIterHasNext (loop.pools.ring set) loop.iter then
        .error .endless
      else
        .ok loop
  | rounds + 1, loop =>
      if lpelStreamIterHasNext (loop.pools.ring set) loop.iter then do
        closeRounds set rounds (← closeRound set loop)
      else
        .ok loop

/-- The loop after `LpelStreamIterReset`. -/
def closeStart (pools : Pools σ δ τ ω α) (set : Option δ) :
    Closing σ δ τ ω α where
  pools := pools
  iter := lpelStreamIterReset (pools.ring set)
  closed := []

/-- The loop stops, and it has closed each descriptor once and no other. -/
def ClosesAll
    (pools : Pools σ δ τ ω α)
    (set : Option δ)
    (elems : List δ) : Prop :=
  ∃ rounds loop, closeRounds set rounds (closeStart pools set) = .ok loop ∧
    loop.closed.Perm elems

end Loop

/-- A set of descriptors that a task has opened for reading.  The streams are
empty and have had a writer. -/
structure ReadSet
    (pools : Pools σ δ τ ω α)
    (t : τ)
    (set : Option δ)
    (elems : List δ) : Prop where
  nonempty : 0 < elems.length
  spells : (pools.ring set).Spells elems
  task : ∀ sd ∈ elems, (pools.desc sd).task = some t
  mode : ∀ sd ∈ elems, (pools.desc sd).mode = .r
  listed : ∀ sd ∈ elems, sd ∈ pools.inStreams t
  stream : ∀ sd ∈ elems, ∃ s, (pools.desc sd).stream = some s ∧
    lpelBufferIsEmpty (pools.stream s).buffer = true ∧
    (pools.stream s).prodSd ≠ none
  /-- The free list of the worker holds closed descriptors. -/
  free : ∀ first, pools.freeSd (pools.workerContext t) = some first →
    first ∉ elems

section Round

variable [DecidableEq σ] [DecidableEq δ] [DecidableEq ω]
variable {pools after : Pools σ δ τ ω α} {set : Option δ} {elems : List δ}

variable [DecidableEq τ]

/-- A closed descriptor is linked to the former free list. -/
theorem Pools.next_lpelStreamClose
    {t : τ}
    {sd : δ}
    {destroy : Bool}
    (task : (pools.desc sd).task = some t)
    (ok : pools.lpelStreamClose sd destroy = .ok after) :
    (after.desc sd).next = pools.freeSd (pools.workerContext t) := by
  obtain ⟨destroyed, inStreams, outStreams, begun, rfl⟩ :=
    Pools.lpelStreamClose_cases task ok
  have same : destroyed.freeSd = pools.freeSd := by
    cases destroy with
    | false =>
        obtain rfl : destroyed = pools := begun
        rfl
    | true =>
        obtain ⟨s, prod, -, rfl⟩ := Pools.destroyStream_cases begun
        rw [Pools.putStream_eq]
        rfl
  rw [Pools.putSd_eq]
  simp [Pools.setSdNext, Pools.setDesc, same]

/-- The loop does not forget a descriptor that it has closed. -/
theorem closed_prefix_closeRounds
    {rounds : ℕ}
    {loop last : Closing σ δ τ ω α}
    (ok : closeRounds set rounds loop = .ok last) :
    loop.closed <+: last.closed := by
  induction rounds generalizing loop with
  | zero =>
      simp only [closeRounds] at ok
      split at ok
      · cases ok
      · cases ok
        exact List.prefix_refl _
  | succ rounds inductionHypothesis =>
      simp only [closeRounds] at ok
      split at ok
      · obtain ⟨between, round, ok⟩ := ok_of_bind ok
        obtain ⟨snext, -, round⟩ := ok_of_bind round
        obtain ⟨pools, -, round⟩ := ok_of_bind round
        cases round
        exact (List.prefix_append loop.closed [snext]).trans
          (inductionHypothesis ok)
      · cases ok
        exact List.prefix_refl _

/-- A loop that has a next descriptor closes it, or it fails. -/
theorem closeRounds_hasNext
    {rounds : ℕ}
    {loop last : Closing σ δ τ ω α}
    (hasNext : lpelStreamIterHasNext (loop.pools.ring set) loop.iter = true)
    (ok : closeRounds set rounds loop = .ok last) :
    ∃ snext pools rounds',
      (lpelStreamIterNext (loop.pools.ring set) loop.iter).cur = some snext ∧
      loop.pools.lpelStreamClose snext true = .ok pools ∧
      closeRounds set rounds'
        { pools := pools
          iter := lpelStreamIterNext (loop.pools.ring set) loop.iter
          closed := loop.closed ++ [snext] } = .ok last := by
  cases rounds with
  | zero => simp [closeRounds, hasNext] at ok
  | succ rounds =>
      simp only [closeRounds, hasNext, if_true] at ok
      obtain ⟨between, round, ok⟩ := ok_of_bind ok
      obtain ⟨snext, found, round⟩ := ok_of_bind round
      obtain ⟨pools, closed, round⟩ := ok_of_bind round
      cases round
      refine ⟨snext, pools, rounds, ?_, closed, ok⟩
      cases current : (lpelStreamIterNext (loop.pools.ring set)
          loop.iter).cur with
      | none =>
          rw [current] at found
          cases found
      | some sd =>
          rw [current] at found
          cases found
          rfl

end Round

namespace ReadSet

variable {pools : Pools σ δ τ ω α} {t : τ} {set : Option δ} {elems : List δ}

/-- The first descriptor of the set is the first one that is returned. -/
theorem first
    (readSet : ReadSet pools t set elems) :
    (lpelStreamIterNext (pools.ring set)
      (lpelStreamIterReset (pools.ring set))).cur = elems.head? := by
  rw [((StreamIter.At.reset _ elems).next readSet.spells readSet.nonempty).2,
    List.head?_eq_getElem?, List.getElem?_eq_getElem readSet.nonempty]

variable [DecidableEq σ] [DecidableEq δ] [DecidableEq τ] [DecidableEq ω]

/-- Each descriptor of the set can be closed. -/
theorem close
    (readSet : ReadSet pools t set elems)
    {sd : δ}
    (member : sd ∈ elems) :
    ∃ after, pools.lpelStreamClose sd true = .ok after := by
  obtain ⟨s, reads, empty, written⟩ := readSet.stream sd member
  obtain ⟨prod, writer⟩ := Option.ne_none_iff_exists'.mp written
  have task := readSet.task sd member
  have reader := readSet.mode sd member
  have destroyed : pools.destroyStream (pools.workerContext t) sd =
      .ok (((pools.unsetWith s prod).lpelWorkerPutStream
        (pools.workerContext t) s).setSdStream sd none) := by
    simp [Pools.destroyStream, reader, reads, empty, writer, Pools.unsetStream,
      Pools.follow, Pools.assert, bind, Except.bind, pure, Except.pure]
  have mode : ((((pools.unsetWith s prod).lpelWorkerPutStream
      (pools.workerContext t) s).setSdStream sd none).desc sd).mode = .r := by
    rw [(Pools.desc_setSdStream _ sd sd none).2.1, Pools.putStream_eq]
    exact (pools.desc_setSdStream prod sd none).2.1.trans reader
  have listed : sd ∈ (((pools.unsetWith s prod).lpelWorkerPutStream
      (pools.workerContext t) s).setSdStream sd none).streamsOf .r t := by
    rw [Pools.putStream_eq]
    exact readSet.listed sd member
  simp [Pools.lpelStreamClose, task, Pools.follow, destroyed, mode,
    Pools.lpelTaskRemoveStream, Pools.assert, listed, bind, Except.bind, pure,
    Except.pure]

/-- The loop stops after the only descriptor of a set. -/
theorem single
    {sd : δ}
    (readSet : ReadSet pools t set [sd]) :
    ClosesAll pools set [sd] := by
  obtain ⟨after, closed⟩ := readSet.close (List.mem_singleton_self sd)
  have first := readSet.first
  have handle : set = some sd := readSet.spells.set_eq
  refine ⟨1,
    { pools := after
      iter := lpelStreamIterNext (pools.ring set)
        (lpelStreamIterReset (pools.ring set))
      closed := [sd] }, ?_, List.Perm.refl _⟩
  have hasNext : lpelStreamIterHasNext (pools.ring set)
      (lpelStreamIterReset (pools.ring set)) = true := by
    simp [lpelStreamIterHasNext, lpelStreamIterReset, Pools.ring, handle]
  have stops : lpelStreamIterHasNext (after.ring set)
      (lpelStreamIterNext (pools.ring set)
        (lpelStreamIterReset (pools.ring set))) = false := by
    rw [lpelStreamIterHasNext, first]
    simp [Pools.ring, handle]
  have round : closeRound set (closeStart pools set) = .ok
      { pools := after
        iter := lpelStreamIterNext (pools.ring set)
          (lpelStreamIterReset (pools.ring set))
        closed := [sd] } := by
    simp only [closeRound, closeStart, first, List.head?_cons, Pools.follow,
      closed, bind, Except.bind, pure, Except.pure, List.nil_append]
  simp only [closeRounds, closeStart, hasNext, if_true]
  simp only [closeStart] at round
  simp only [round, bind, Except.bind, stops, Bool.false_eq_true, if_false]

/-- Behind the first of several descriptors the loop goes on in the free
list. -/
theorem not_closesAll
    (readSet : ReadSet pools t set elems)
    (several : 1 < elems.length) :
    ¬ClosesAll pools set elems := by
  rintro ⟨rounds, last, ok, each⟩
  have start := StreamIter.At.reset (pools.ring set) elems
  have position := (start.next readSet.spells readSet.nonempty).1
  obtain ⟨sd, after, rounds, current, closed, ok⟩ := closeRounds_hasNext
    ((start.hasNext_iff readSet.spells readSet.nonempty).mpr
      readSet.nonempty) ok
  have current : (lpelStreamIterNext (pools.ring set)
      (lpelStreamIterReset (pools.ring set))).cur = some sd := current
  have member : sd ∈ elems := by
    rw [readSet.first] at current
    exact List.mem_of_head? current
  -- the handle is the last descriptor and not the one that was closed
  have goesOn : lpelStreamIterHasNext (after.ring set)
      (lpelStreamIterNext (pools.ring set)
        (lpelStreamIterReset (pools.ring set))) = true :=
    (position.hasNext_iff readSet.spells readSet.nonempty).mpr several
  obtain ⟨second, after', rounds, next, -, ok⟩ :=
    closeRounds_hasNext goesOn ok
  have next : (lpelStreamIterNext (after.ring set)
      (lpelStreamIterNext (pools.ring set)
        (lpelStreamIterReset (pools.ring set)))).cur = some second := next
  have link := Pools.next_lpelStreamClose (readSet.task sd member) closed
  rw [lpelStreamIterNext, current] at next
  refine readSet.free second (link.symm.trans next) (each.mem_iff.mp ?_)
  exact (closed_prefix_closeRounds ok).subset (by simp)

end ReadSet

section Programs

variable [DecidableEq δ] [DecidableEq τ]

/-- Descriptors that a task has opened for reading, on empty streams that have
had a writer. -/
def PoolSystem.Reads
    (system : PoolSystem σ δ τ ω α)
    (t : τ)
    (elems : List δ) : Prop :=
  ∀ sd ∈ elems, ∃ h ∈ system.client.handles,
    h.sd = sd ∧ h.task = t ∧ system.MayDestroy h

/-- `LpelStreamsetPut` of the descriptors into an empty set. -/
def PoolSystem.ringOf (system : PoolSystem σ δ τ ω α) (elems : List δ) :
    Streamset δ :=
  lpelStreamsetPutAll (fun sd => (system.pools.desc sd).next) elems

/-- In a program that respects the documented usage a task may put its
descriptors into a set. -/
theorem PoolSystem.Sound.readSet
    {system : PoolSystem σ δ τ ω α}
    (sound : system.Sound)
    {t : τ}
    {elems : List δ}
    (nonempty : 0 < elems.length)
    (nodup : elems.Nodup)
    (reads : system.Reads t elems) :
    ReadSet (system.pools.relink (system.ringOf elems)) t
      (system.ringOf elems).set elems := by
  obtain ⟨-, freeStreams, freeSds, consistent⟩ := sound
  have pointers := consistent.pointers
  refine ⟨nonempty, lpelStreamsetPutAll_spells _ nodup, ?_, ?_, ?_, ?_, ?_⟩
  · intro sd member
    obtain ⟨h, held, rfl, rfl, -⟩ := reads sd member
    exact (pointers.held h held).1
  · intro sd member
    obtain ⟨h, held, rfl, -, reader, -⟩ := reads sd member
    exact (pointers.held h held).2.1.trans reader
  · intro sd member
    obtain ⟨h, held, same, task, reader, -⟩ := reads sd member
    exact (pointers.mem_streamsOf .r t sd).mpr ⟨h, held, same, task, reader⟩
  · intro sd member
    obtain ⟨h, held, rfl, -, -, s, stream, written, empty⟩ := reads sd member
    have stream : h.stream = some s := stream
    refine ⟨s, (pointers.held h held).2.2.trans stream, empty, ?_⟩
    exact pointers.used s (pointers.opened h held s stream).1 .w written
  · intro first begins member
    have begins : system.pools.freeSd (system.pools.workerContext t) =
      some first := begins
    obtain ⟨rest, free⟩ := consistent.sdLists.first begins
    have inside : first ∈ freeSds (system.pools.workerContext t) := by
      rw [free]
      exact List.mem_cons_self
    obtain ⟨h, held, rfl, -⟩ := reads first member
    exact (consistent.free inside).1 (List.mem_map_of_mem held)

variable [DecidableEq σ]

instance (system : PoolSystem σ δ τ ω α) (t : τ) (elems : List δ) :
    Decidable (system.Reads t elems) :=
  inferInstanceAs (Decidable (∀ sd ∈ elems, _))

end Programs

section Set

variable [DecidableEq σ] [DecidableEq δ] [DecidableEq τ] [DecidableEq ω]
variable {pools : Pools σ δ τ ω α} {t : τ} {set : Option δ} {elems : List δ}

/-- The loop closes each descriptor of the set once, and no other, exactly when
there is only one. -/
theorem closesAll_iff_single
    (readSet : ReadSet pools t set elems) :
    ClosesAll pools set elems ↔ elems.length = 1 := by
  constructor
  · intro closes
    by_contra several
    have nonempty := readSet.nonempty
    exact readSet.not_closesAll (by omega) closes
  · intro one
    obtain ⟨sd, rfl⟩ := List.length_eq_one_iff.mp one
    exact readSet.single

/-- Two tasks with two streams between them, of which the second task reads
both. -/
def twoStreams : List (PoolLabel ℕ ℕ ℕ Bool ℕ) :=
  [.create none 0 0, .create none 1 0, .opens 1 0 .w 0, .opens 1 1 .w 1,
    .opens 0 0 .r 2, .opens 0 1 .r 3]

/-- A state of the two tasks in which the second task reads the streams of some
descriptors. -/
theorem exists_reads
    (elems : List ℕ)
    (reads : ((poolMachine fun _ => false).runBy
      (fun system label => decide (system.Documented label)) emptyPools
        twoStreams).map (fun system => decide (system.Reads 0 elems)) =
          some true) :
    ∃ system : PoolSystem ℕ ℕ ℕ Bool ℕ, system.Sound ∧
      system.Reads 0 elems := by
  obtain ⟨system, reached, tested⟩ := exists_documented
    (⟨_, _, _, rfl⟩ : (poolMachine fun _ => false).init emptyPools) reads
  exact ⟨system, PoolSystem.Sound.ofReachable reached,
    of_decide_eq_true tested⟩

/-- A set of one descriptor. -/
theorem closesAll_iff_single_oneStream :
    ∃ (pools : Pools ℕ ℕ ℕ Bool ℕ) (set : Option ℕ),
      ReadSet pools 0 set [2] ∧ ClosesAll pools set [2] := by
  obtain ⟨system, sound, reads⟩ := exists_reads [2] (by decide)
  have readSet := sound.readSet (by decide) (by decide) reads
  exact ⟨_, _, readSet, (closesAll_iff_single readSet).mpr rfl⟩

/-- A set of two descriptors. -/
theorem closesAll_twoStreams :
    ∃ (pools : Pools ℕ ℕ ℕ Bool ℕ) (set : Option ℕ),
      ReadSet pools 0 set [2, 3] ∧ ¬ClosesAll pools set [2, 3] := by
  obtain ⟨system, sound, reads⟩ := exists_reads [2, 3] (by decide)
  have readSet := sound.readSet (by decide) (by decide) reads
  exact ⟨_, _, readSet, readSet.not_closesAll (by decide)⟩

end Set

end Hrc
end Lpel
