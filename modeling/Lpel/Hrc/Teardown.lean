import Lpel.Hrc.StreamInvariant

/-!
# Tearing a stream down

The last item can be read as soon as the producer has done its V operation on
`n_sem`.  The consumer may then free the stream, which unsets the pointer in the
descriptor of the producer; but the producer still has `write_cnt++` to do
through that pointer.  The decentralised back end has no such access.
-/

namespace Lpel
namespace Hrc

variable {α : Type}

/-- The producer writes nothing after its last item, and the consumer frees the
stream only once it has received that item. -/
def readsToLast (isLast : α → Bool) (stream : Stream α) : StreamLabel α → Bool
  | .write _ => stream.written.all fun item => !isLast item
  | .closeIn | .replaceAway => stream.popped.any isLast
  | _ => true

/-- The producer is past the V operation of its write and has not finished it. -/
def WritePc.finishing : WritePc α → Bool
  | .lookup | .unblock | .count => true
  | _ => false

/-- The stream is not freed while the producer is finishing a write. -/
def freesFinished (stream : Stream α) : StreamLabel α → Bool
  | .closeIn | .replaceAway => !stream.prod.finishing
  | _ => true

/-- The next step of the producer dereferences `sd->stream` although the
consumer has unset it or returned the stream to a free pool. -/
def Dangling (stream : Stream α) : Prop :=
  stream.prod.dereferences = true ∧
    (stream.prodStream = false ∨ stream.pooled = true)

/-- The producer has put its current item, if it is in a write at all. -/
def WritePc.hasPut : WritePc α → Bool
  | .idle | .vN | .lookup | .unblock | .count => true
  | _ => false

/-- Where the last item is. -/
structure LastItem (isLast : α → Bool) (stream : Stream α) : Prop where
  only : ∀ item ∈ stream.written.dropLast, isLast item = false
  put : stream.written.any isLast = true → stream.prod.hasPut = true

/-- What is still valid. -/
structure Valid (isLast : α → Bool) (stream : Stream α) : Prop where
  pooled : stream.pooled = true → stream.freed = true
  pooling : stream.cons = .pool → stream.freed = true
  freed : stream.freed = true →
    stream.prod = .idle ∧ stream.written.any isLast = true
  pointer : stream.freed = false → stream.prod ≠ .idle →
    stream.prodStream = true

/-- The last item stays the last one. -/
theorem LastItem.step
    {isLast : α → Bool}
    {before after : Stream α}
    {label : StreamLabel α}
    (last : LastItem isLast before)
    (met : readsToLast isLast before label = true)
    (taken : streamNext before label = some after) :
    LastItem isLast after := by
  have put := last.put
  cases StreamStep.of_next taken with
  | writeEntry | writeOther =>
      refine ⟨last.only, ?_⟩
      intro written
      have none : before.written.all (fun item => !isLast item) = true := met
      simp only [List.any_eq_true, List.all_eq_true,
        Bool.not_eq_true'] at written none
      obtain ⟨item, member, isLast'⟩ := written
      rw [none item member] at isLast'
      exact absurd isLast' (by decide)
  | advance position =>
      refine ⟨?_, fun _ => rfl⟩
      intro item member
      simp only [List.dropLast_concat] at member
      by_contra isLast'
      have written : before.written.any isLast = true :=
        List.any_eq_true.mpr ⟨item, member, by simpa using isLast'⟩
      have hasPut := put written
      rw [position] at hasPut
      exact absurd hasPut (by simp [WritePc.hasPut])
  | reserveNone position | reserveSome position | block position
  | alloc position | link position | resumeProd position =>
      refine ⟨last.only, ?_⟩
      intro written
      have hasPut := put written
      rw [position] at hasPut
      exact absurd hasPut (by simp [WritePc.hasPut])
  | releaseWaiting | release | lookup | unblock | countWrite =>
      exact ⟨last.only, fun _ => rfl⟩
  | _ => exact ⟨last.only, put⟩

/-- The last item is the last one in every run that follows the protocol. -/
theorem LastItem.ofReachable
    {isLast : α → Bool}
    {size : StreamSize}
    {stream : Stream α}
    (reached : (streamMachine α size).ReachableBy
      (fun stream label => readsToLast isLast stream label = true) stream) :
    LastItem isLast stream := by
  refine Machine.ReachableBy.invariant ?_ ?_ reached
  · rintro _ rfl
    exact ⟨by simp [lpelStreamCreate], by simp [lpelStreamCreate]⟩
  · intro _ _ _ last met taken
    exact last.step met taken

/-- A producer whose last item has been received by an idle consumer has at most
`write_cnt++` left to do. -/
theorem finished_of_received
    {isLast : α → Bool}
    {stream : Stream α}
    (invariant : Invariant stream)
    (last : LastItem isLast stream)
    (idle : stream.cons = .idle)
    (received : stream.popped.any isLast = true) :
    (stream.prod = .idle ∨ stream.prod = .count) ∧
      stream.written.any isLast = true := by
  obtain ⟨nodes, -, fifo⟩ := invariant.shape
  obtain ⟨item, member, isLast'⟩ := List.any_eq_true.mp received
  have written : stream.written.any isLast = true := by
    refine List.any_eq_true.mpr ⟨item, ?_, isLast'⟩
    rw [fifo]
    exact List.mem_append_left _ member
  refine ⟨?_, written⟩
  have empty : nodes = [] := by
    by_contra nonempty
    have inside : item ∈ stream.written.dropLast := by
      rw [fifo, List.dropLast_append_of_ne_nil (by simpa using nonempty)]
      exact List.mem_append_left _ member
    rw [last.only item inside] at isLast'
    exact absurd isLast' (by decide)
  have account := invariant.account
  have count := account.count
  have signal := account.signal
  rw [idle] at signal count
  simp only [ReadPc.waits, Bool.false_eq_true, if_false] at signal
  have hasPut := last.put written
  cases position : stream.prod with
  | idle => exact Or.inl rfl
  | count => exact Or.inr rfl
  | lookup | unblock => simp [position, WritePc.owes] at signal
  | vN =>
      simp only [position, fifo, empty, WritePc.unreleased, ReadPc.reserved,
        List.map_nil, List.append_nil] at count
      omega
  | _ => simp [position, WritePc.hasPut] at hasPut

/-- Nothing in use is freed, provided the stream is freed only after the last
write has finished. -/
theorem Valid.step
    {isLast : α → Bool}
    {before after : Stream α}
    {label : StreamLabel α}
    (valid : Valid isLast before)
    (invariant : Invariant before)
    (last : LastItem isLast before)
    (met : readsToLast isLast before label = true)
    (finished : freesFinished before label = true)
    (taken : streamNext before label = some after) :
    Valid isLast after := by
  have notFreed : before.prod ≠ .idle → before.freed = false := by
    intro busy
    by_contra freed
    exact busy (valid.freed (by simpa using freed)).1
  cases StreamStep.of_next taken with
  | freeStream frees idle =>
      have received : before.popped.any isLast = true := by
        rcases frees with rfl | rfl
        · exact met
        · exact met
      have notFinishing : before.prod.finishing = false := by
        rcases frees with rfl | rfl
        · simpa [freesFinished] using finished
        · simpa [freesFinished] using finished
      obtain ⟨stopped, written⟩ :=
        finished_of_received invariant last idle received
      have prodIdle : before.prod = .idle := by
        rcases stopped with stopped | counting
        · exact stopped
        · simp [counting, WritePc.finishing] at notFinishing
      refine ⟨fun _ => rfl, fun _ => rfl, fun _ => ⟨prodIdle, written⟩, ?_⟩
      intro live
      cases live
  | writeEntry idle pointer | writeOther idle pointer =>
      have live : before.freed = false := by
        by_contra freed
        have written := (valid.freed (by simpa using freed)).2
        have none : before.written.all (fun item => !isLast item) = true := met
        simp only [List.any_eq_true, List.all_eq_true,
          Bool.not_eq_true'] at written none
        obtain ⟨item, member, isLast'⟩ := written
        rw [none item member] at isLast'
        exact absurd isLast' (by decide)
      refine ⟨valid.pooled, valid.pooling, ?_, fun _ _ => pointer⟩
      intro freed
      dsimp only at freed
      rw [live] at freed
      cases freed
  | reserveNone position | reserveSome position | block position
  | alloc position | link position | advance position
  | releaseWaiting position | release position | lookup position
  | unblock position | countWrite position | resumeProd position =>
      have busy : before.prod ≠ .idle := by simp [position]
      have live := notFreed busy
      refine ⟨valid.pooled, valid.pooling, ?_,
        fun _ _ => valid.pointer live busy⟩
      intro freed
      dsimp only at freed
      rw [live] at freed
      cases freed
  | openWrite idle live =>
      exact ⟨valid.pooled, valid.pooling, valid.freed, fun _ _ => rfl⟩
  | openRead | closeOut | takeOver =>
      exact ⟨valid.pooled, valid.pooling, valid.freed, valid.pointer⟩
  | pool position =>
      refine ⟨fun _ => valid.pooling position, ?_, valid.freed, valid.pointer⟩
      intro impossible
      cases impossible
  | _ =>
      refine ⟨valid.pooled, ?_, valid.freed, valid.pointer⟩
      intro impossible
      cases impossible

/-- The steps of a run that follows the protocol and frees the stream only after
the last write has finished. -/
def safeFree (isLast : α → Bool) (stream : Stream α) (label : StreamLabel α) :
    Prop :=
  readsToLast isLast stream label = true ∧ freesFinished stream label = true

/-- Nothing in use is freed in any such run. -/
theorem Valid.ofReachable
    {isLast : α → Bool}
    {size : StreamSize}
    {stream : Stream α}
    (reached : (streamMachine α size).ReachableBy (safeFree isLast) stream) :
    Valid isLast stream := by
  induction reached with
  | init initial =>
      obtain rfl := initial
      exact ⟨by simp [lpelStreamCreate], by simp [lpelStreamCreate],
        by simp [lpelStreamCreate], by simp [lpelStreamCreate]⟩
  | step before met taken inductionHypothesis =>
      exact inductionHypothesis.step
        (Invariant.ofReachable before.reachable)
        (LastItem.ofReachable (before.mono fun _ _ safe => safe.1))
        met.1 met.2 taken

/-- In every run in which the stream is freed only when the producer is not
between its V operation and its `write_cnt++`, the producer never dereferences a
stream that is gone; and freeing it in between always makes it do so. -/
theorem teardownDangling
    {isLast : α → Bool}
    {size : StreamSize} :
    (∀ stream, (streamMachine α size).ReachableBy (safeFree isLast) stream →
      ¬ Dangling stream) ∧
    (∀ stream label after,
      (streamMachine α size).ReachableBy
        (fun stream label => readsToLast isLast stream label = true) stream →
      readsToLast isLast stream label = true →
      freesFinished stream label = false →
      (streamMachine α size).next stream label = some after →
      Dangling after) := by
  refine ⟨?_, ?_⟩
  · intro stream reached
    have valid := Valid.ofReachable reached
    rintro ⟨dereferences, gone⟩
    have busy : stream.prod ≠ .idle := by
      intro idle
      simp [idle, WritePc.dereferences] at dereferences
    have live : stream.freed = false := by
      by_contra freed
      exact busy (valid.freed (by simpa using freed)).1
    rcases gone with unset | pooled
    · rw [valid.pointer live busy] at unset
      cases unset
    · rw [valid.pooled pooled] at live
      cases live
  · intro stream label after reached met unfinished taken
    have invariant := Invariant.ofReachable reached.reachable
    have last := LastItem.ofReachable reached
    cases StreamStep.of_next taken with
    | freeStream frees idle =>
        have received : stream.popped.any isLast = true := by
          rcases frees with rfl | rfl
          · exact met
          · exact met
        have finishing : stream.prod.finishing = true := by
          rcases frees with rfl | rfl
          · simpa [freesFinished] using unfinished
          · simpa [freesFinished] using unfinished
        obtain ⟨stopped | counting, -⟩ :=
          finished_of_received invariant last idle received
        · simp [stopped, WritePc.finishing] at finishing
        · refine ⟨?_, Or.inl rfl⟩
          simp [counting, WritePc.dereferences]
    | _ => simp [freesFinished] at unfinished

/-- One write of a last item; the consumer reads it and closes the stream before
the producer gets to `write_cnt++`. -/
def earlyClose : List (StreamLabel ℕ) :=
  [.openWrite false, .openRead false, .write 7, .prod 1, .prod 0, .prod 0,
    .prod 0, .read, .cons, .cons, .cons, .cons, .cons, .closeIn]

/-- The producer is left inside `LpelStreamWrite` with its pointer unset. -/
theorem teardownDangling_earlyClose :
    ∃ stream : Stream ℕ,
      (streamMachine ℕ streamBufferSize).ReachableBy
        (fun stream label => readsToLast (fun _ => true) stream label = true)
        stream ∧ Dangling stream := by
  obtain ⟨stream, reached, tested⟩ := Machine.exists_reachableBy_of_runBy
    (rfl : (streamMachine ℕ streamBufferSize).init
      (lpelStreamCreate streamBufferSize))
    (by decide : ((streamMachine ℕ streamBufferSize).runBy
      (readsToLast fun _ => true) (lpelStreamCreate streamBufferSize)
      earlyClose).map (fun stream => stream.prod.dereferences &&
        !stream.prodStream) = some true)
  simp only [Bool.and_eq_true, Bool.not_eq_true'] at tested
  exact ⟨stream, reached, tested.1, Or.inl tested.2⟩

/-- The same run with the producer finishing before the consumer closes. -/
def lateClose : List (StreamLabel ℕ) :=
  [.openWrite false, .openRead false, .write 7, .prod 1, .prod 0, .prod 0,
    .prod 0, .read, .cons, .cons, .cons, .cons, .cons, .prod 0, .closeIn,
    .cons]

/-- The stream is in the pool and the producer is not left behind. -/
theorem teardownDangling_lateClose :
    ∃ stream : Stream ℕ,
      (streamMachine ℕ streamBufferSize).ReachableBy
        (safeFree fun _ => true) stream ∧
      stream.pooled = true ∧ ¬ Dangling stream := by
  obtain ⟨stream, reached, tested⟩ := Machine.exists_reachableBy_of_runBy
    (rfl : (streamMachine ℕ streamBufferSize).init
      (lpelStreamCreate streamBufferSize))
    (by decide : ((streamMachine ℕ streamBufferSize).runBy
      (fun stream label => readsToLast (fun _ => true) stream label &&
        freesFinished stream label)
      (lpelStreamCreate streamBufferSize) lateClose).map
      (fun stream => stream.pooled) = some true)
  have safe : (streamMachine ℕ streamBufferSize).ReachableBy
      (safeFree fun _ => true) stream := by
    refine reached.mono ?_
    intro _ _ passed
    rw [Bool.and_eq_true] at passed
    exact passed
  exact ⟨stream, safe, tested, teardownDangling.1 stream safe⟩

end Hrc
end Lpel
