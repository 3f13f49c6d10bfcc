import Lpel.Hrc.StreamInvariant

/-!
# Bounded entry streams

On an entry stream `e_sem` counts the free places.  The P and the V operation
are each conditional on the type of the stream, which an open by a wrapper
overwrites and `LpelStreamReplace` copies from another stream.  The account of
`e_sem` survives such a change only in certain states, which `switchesSafely`
names.

The streams of a whole program are one stream each, except that
`LpelStreamReplace` frees one stream and takes over another at the same time.
-/

namespace Lpel
namespace Hrc

variable {α : Type}

namespace WritePc

/-- The producer has committed to block on `e_sem` and has not been resumed. -/
def waits : WritePc α → Bool
  | .toBlock _ | .blocked _ => true
  | _ => false

/-- The producer has found the type `LPEL_STREAM_ENTRY` and is about to do its P
operation. -/
def reserving : WritePc α → Bool
  | .pE _ => true
  | _ => false

/-- The item past the P operation, or past the test without one, and not yet
put. -/
def holding : WritePc α → ℤ
  | .toBlock _ | .blocked _ | .alloc _ | .link _ _ | .advance _ _ => 1
  | _ => 0

end WritePc

namespace ReadPc

/-- The wakeup the consumer is committed to send to the producer. -/
def owed : ReadPc α → ℕ
  | .lookup | .unblock => 1
  | _ => 0

/-- The item popped for which the V operation is still to come. -/
def holding : ReadPc α → ℤ
  | .release _ | .typeTest | .vE => 1
  | _ => 0

end ReadPc

/-- The items for which a V operation is still to come if the stream is an entry
stream from now on. -/
def outstanding (stream : Stream α) : ℤ :=
  stream.written.length - stream.popped.length + stream.prod.holding +
    stream.cons.holding

/-- The type of the stream after a step. -/
def typeAfter (stream : Stream α) : StreamLabel α → StreamType
  | .openWrite true => .entry
  | .openRead true => .exit
  | .replaceOnto type => type
  | _ => stream.type

/-- A step makes the stream an entry stream only if every item still to be read
has had its P operation, and makes it another stream only if the producer is
neither waiting on `e_sem` without a wakeup nor about to. -/
def switchesSafely (size : StreamSize) (stream : Stream α)
    (label : StreamLabel α) : Bool :=
  if stream.type = .entry then
    if typeAfter stream label = .entry then true
    else !(stream.eSem == -1 || (stream.eSem == 0 && stream.prod.reserving))
  else
    if typeAfter stream label = .entry then
      decide (outstanding stream ≤ size.val - stream.eSem)
    else true

/-- The account of `e_sem`. -/
structure EntryAccount (size : StreamSize) (stream : Stream α) : Prop where
  identity : stream.eSem = size.val - (stream.pOps - stream.vOps)
  space :
    (stream.prod.waits = true ∧ stream.eSem = -1 ∧
      stream.prodWake + stream.cons.owed = 0) ∨
    (0 ≤ stream.eSem ∧
      stream.prodWake + stream.cons.owed = stream.prod.waits.toNat)

/-- What holds as long as the type changes only in safe states. -/
structure EntryTyped (size : StreamSize) (stream : Stream α) : Prop where
  bounded : stream.type = .entry →
    outstanding stream ≤ size.val - stream.eSem
  typed : stream.eSem = -1 ∨
      (stream.eSem = 0 ∧ stream.prod.reserving = true) →
    stream.type = .entry

/-- The account of `e_sem` does not depend on the type. -/
theorem EntryAccount.step
    {size : StreamSize}
    {before after : Stream α}
    {label : StreamLabel α}
    (account : EntryAccount size before)
    (taken : streamNext before label = some after) :
    EntryAccount size after := by
  have identity := account.identity
  have space := account.space
  cases StreamStep.of_next taken with
  | openWrite | openRead | closeOut | takeOver => exact ⟨identity, space⟩
  | writeEntry position | writeOther position | alloc position | link position
  | advance position | releaseWaiting position | release position
  | lookup position | unblock position | countWrite position
  | block position =>
      refine ⟨identity, ?_⟩
      simpa [position, WritePc.waits] using space
  | reserveNone position none =>
      refine ⟨?_, ?_⟩
      · dsimp only
        omega
      · simp only [position, WritePc.waits, Bool.toNat_false] at space ⊢
        left
        simp at space
        exact ⟨trivial, by omega, by omega⟩
  | reserveSome position some =>
      refine ⟨?_, ?_⟩
      · dsimp only
        omega
      · simp only [position, WritePc.waits, Bool.toNat_false] at space ⊢
        right
        simp at space
        omega
  | resumeProd position woken =>
      refine ⟨identity, ?_⟩
      simp only [position, WritePc.waits, Bool.toNat_true, Bool.toNat_false]
        at space ⊢
      right
      omega
  | spaceWaiting position waiting =>
      refine ⟨?_, ?_⟩
      · dsimp only
        omega
      · simp only [position, ReadPc.owed] at space ⊢
        rcases space with ⟨waits, none, owed⟩ | ⟨free, -⟩
        · right
          rw [waits]
          simp only [Bool.toNat_true]
          omega
        · omega
  | space position free =>
      refine ⟨?_, ?_⟩
      · dsimp only
        omega
      · simp only [position, ReadPc.owed] at space ⊢
        right
        omega
  | unblockProd position =>
      refine ⟨identity, ?_⟩
      simp only [position, ReadPc.owed] at space ⊢
      omega
  | readNone position | readSome position | blockRead position | top position
  | pop position | free position | testEntry position | testOther position
  | lookupProd position | countRead position | pool position
  | resumeCons position =>
      refine ⟨identity, ?_⟩
      simpa [position, ReadPc.owed] using space
  | freeStream _ position =>
      refine ⟨identity, ?_⟩
      simpa [position, ReadPc.owed] using space

/-- The type of the stream after a step is the one announced. -/
theorem type_eq_typeAfter
    {before after : Stream α}
    {label : StreamLabel α}
    (taken : streamNext before label = some after) :
    after.type = typeAfter before label := by
  cases StreamStep.of_next taken with
  | @openWrite wrapper => cases wrapper <;> rfl
  | @openRead wrapper => cases wrapper <;> rfl
  | freeStream frees => rcases frees with rfl | rfl <;> rfl
  | _ => rfl

/-- A safe change of the type. -/
theorem EntryTyped.switch
    {size : StreamSize}
    {before after : Stream α}
    {label : StreamLabel α}
    (typed : EntryTyped size before)
    (safe : switchesSafely size before label = true)
    (type_eq : after.type = typeAfter before label)
    (eSem : after.eSem = before.eSem)
    (prod : after.prod = before.prod)
    (items : outstanding after = outstanding before) :
    EntryTyped size after := by
  refine ⟨?_, ?_⟩
  · rw [items, eSem]
    intro entry
    by_cases was : before.type = .entry
    · exact typed.bounded was
    · rw [switchesSafely, if_neg was, ← type_eq, if_pos entry] at safe
      exact of_decide_eq_true safe
  · rw [eSem, prod]
    intro stuck
    have was := typed.typed stuck
    by_contra left
    rw [switchesSafely, if_pos was, ← type_eq, if_neg left] at safe
    rcases stuck with none | ⟨none, reserving⟩
    · simp [none] at safe
    · simp [none, reserving] at safe

/-- A step other than a change of the type keeps the account of the items still
to be read, and a producer gets to wait only on an entry stream. -/
theorem EntryTyped.step
    {size : StreamSize}
    {before after : Stream α}
    {label : StreamLabel α}
    (typed : EntryTyped size before)
    (account : EntryAccount size before)
    (safe : switchesSafely size before label = true)
    (taken : streamNext before label = some after) :
    EntryTyped size after := by
  have bounded := typed.bounded
  have waiting := typed.typed
  have space := account.space
  have type_eq := type_eq_typeAfter taken
  unfold outstanding at bounded
  cases StreamStep.of_next taken with
  | openWrite position | openRead position | takeOver position =>
      exact typed.switch safe type_eq rfl rfl rfl
  | closeOut => exact ⟨bounded, waiting⟩
  | writeEntry position _ entry =>
      refine ⟨?_, fun _ => entry⟩
      simpa [outstanding, position, WritePc.holding] using bounded
  | writeOther position _ other =>
      refine ⟨fun entry => absurd entry other, ?_⟩
      simpa [position, WritePc.reserving] using waiting
  | reserveNone position none =>
      refine ⟨?_, ?_⟩
      · intro entry
        have room := bounded entry
        simp only [outstanding, position, WritePc.holding] at room ⊢
        omega
      · intro _
        exact waiting (Or.inr ⟨none, by rw [position]; rfl⟩)
  | reserveSome position some =>
      refine ⟨?_, ?_⟩
      · intro entry
        have room := bounded entry
        simp only [outstanding, position, WritePc.holding] at room ⊢
        omega
      · intro stuck
        exfalso
        rcases stuck with none | ⟨-, reserving⟩
        · dsimp only at none
          omega
        · cases reserving
  | block position | alloc position | link position | releaseWaiting position
  | release position | lookup position | unblock position
  | countWrite position | resumeProd position =>
      refine ⟨?_, ?_⟩
      · simpa [outstanding, position, WritePc.holding] using bounded
      · simpa [position, WritePc.reserving] using waiting
  | advance position =>
      refine ⟨?_, ?_⟩
      · intro entry
        have room := bounded entry
        simp only [outstanding, position, WritePc.holding, List.length_append,
          List.length_singleton] at room ⊢
        omega
      · simpa [position, WritePc.reserving] using waiting
  | pop position =>
      refine ⟨?_, waiting⟩
      intro entry
      have room := bounded entry
      simp only [outstanding, position, ReadPc.holding, List.length_append,
        List.length_singleton] at room ⊢
      omega
  | testOther position other =>
      exact ⟨fun entry => absurd entry other, waiting⟩
  | spaceWaiting position negative =>
      refine ⟨?_, ?_⟩
      · intro entry
        have room := bounded entry
        simp only [outstanding, position, ReadPc.holding] at room ⊢
        omega
      · intro _
        apply waiting
        left
        omega
  | space position free =>
      refine ⟨?_, ?_⟩
      · intro entry
        have room := bounded entry
        simp only [outstanding, position, ReadPc.holding] at room ⊢
        omega
      · intro stuck
        dsimp only at stuck
        omega
  | readNone position | readSome position | blockRead position | top position
  | free position | testEntry position | lookupProd position
  | unblockProd position | countRead position | pool position
  | resumeCons position | freeStream _ position =>
      refine ⟨?_, waiting⟩
      simpa [outstanding, position, ReadPc.holding] using bounded

/-- The account of `e_sem` holds in every reachable state. -/
theorem EntryAccount.ofReachable
    {size : StreamSize}
    {stream : Stream α}
    (reached : (streamMachine α size).Reachable stream) :
    EntryAccount size stream := by
  refine Machine.Reachable.invariant ?_ ?_ reached
  · rintro _ rfl
    refine ⟨?_, ?_⟩
    · simp [lpelStreamCreate]
    · simp [lpelStreamCreate, WritePc.waits, ReadPc.owed]
  · intro _ _ _ account taken
    exact account.step taken

/-- The types are safe in every run whose steps switch safely. -/
theorem EntryTyped.ofReachable
    {size : StreamSize}
    {stream : Stream α}
    (reached : (streamMachine α size).ReachableBy
      (fun stream label => switchesSafely size stream label = true) stream) :
    EntryTyped size stream := by
  induction reached with
  | init initial =>
      obtain rfl := initial
      refine ⟨?_, ?_⟩
      · simp [lpelStreamCreate]
      · simp [lpelStreamCreate, WritePc.reserving]
  | step before met taken inductionHypothesis =>
      exact inductionHypothesis.step
        (EntryAccount.ofReachable before.reachable) met taken

/-- The entry stream keeps its bound: `e_sem` is the number of free places, at
most the size, and a producer waiting on it without a wakeup has a reader that
will wake it. -/
structure EntryStream (size : StreamSize) (stream : Stream α) : Prop where
  eSem_eq : stream.type = .entry →
    stream.eSem = size.val - (stream.pOps - stream.vOps)
  eSem_le : stream.type = .entry → stream.eSem ≤ size.val
  waiting : stream.prod.waits = true → stream.prodWake = 0 →
    stream.cons ≠ .lookup → stream.cons ≠ .unblock → stream.type = .entry

/-- The guarantees follow from the account and the safe types. -/
theorem EntryStream.ofAccount
    {size : StreamSize}
    {stream : Stream α}
    (invariant : Invariant stream)
    (account : EntryAccount size stream)
    (typed : EntryTyped size stream) :
    EntryStream size stream := by
  refine ⟨fun _ => account.identity, ?_, ?_⟩
  · intro entry
    have bounded := typed.bounded entry
    have writing : 0 ≤ stream.prod.holding := by
      cases stream.prod <;> simp [WritePc.holding]
    have reading : 0 ≤ stream.cons.holding := by
      cases stream.cons <;> simp [ReadPc.holding]
    obtain ⟨nodes, -, fifo⟩ := invariant.shape
    have read : stream.popped.length ≤ stream.written.length := by
      rw [fifo, List.length_append]
      omega
    unfold outstanding at bounded
    omega
  · intro waits noWake notLookup notUnblock
    apply typed.typed
    left
    have owed : stream.cons.owed = 0 := by
      cases position : stream.cons <;> simp_all [ReadPc.owed]
    rcases account.space with ⟨-, none, -⟩ | ⟨-, pending⟩
    · exact none
    · rw [waits] at pending
      simp only [Bool.toNat_true] at pending
      omega

/-! ## All streams of a program -/

variable {ι : Type} [DecidableEq ι]

/-- What happens next in a program. -/
inductive SystemLabel (ι α : Type)
  /-- A step of one stream. -/
  | one (i : ι) (label : StreamLabel α)
  /-- `LpelStreamReplace` of the first stream by the second. -/
  | replace (i j : ι)

/-- The two halves of `LpelStreamReplace` only occur together. -/
def StreamLabel.isReplace : StreamLabel α → Bool
  | .replaceAway | .replaceOnto _ => true
  | _ => false

/-- One step of a program. -/
def systemNext (streams : ι → Stream α) :
    SystemLabel ι α → Option (ι → Stream α)
  | .one i label =>
      if label.isReplace then none
      else (streamNext (streams i) label).map (Function.update streams i)
  | .replace i j =>
      if i = j then none
      else
        (streamNext (streams i) .replaceAway).bind fun old =>
          (streamNext (streams j) (.replaceOnto (streams i).type)).map fun new =>
            Function.update (Function.update streams i old) j new

/-- All streams of a program, created with the given sizes. -/
def streamSystem (α : Type) (size : ι → StreamSize) :
    Machine (ι → Stream α) (SystemLabel ι α) where
  init := fun streams => streams = fun i => lpelStreamCreate (size i)
  next := systemNext

/-- A condition on the steps of single streams, for the steps of a program. -/
def eachStream
    (ok : ι → Stream α → StreamLabel α → Bool)
    (streams : ι → Stream α) : SystemLabel ι α → Bool
  | .one i label => ok i (streams i) label
  | .replace i j =>
      ok i (streams i) .replaceAway &&
        ok j (streams j) (.replaceOnto (streams i).type)

/-- Each stream of a program runs like a stream on its own. -/
theorem streamMachine_of_streamSystem
    {size : ι → StreamSize}
    {ok : ι → Stream α → StreamLabel α → Bool}
    {streams : ι → Stream α}
    (reached : (streamSystem α size).ReachableBy
      (fun streams label => eachStream ok streams label = true) streams)
    (i : ι) :
    (streamMachine α (size i)).ReachableBy
      (fun stream label => ok i stream label = true) (streams i) := by
  induction reached with
  | init initial =>
      obtain rfl := initial
      exact .init rfl
  | @step before after label _ met taken inductionHypothesis =>
      cases label with
      | one j label =>
          simp only [streamSystem, systemNext] at taken
          split at taken
          case isTrue => exact absurd taken (by simp)
          case isFalse =>
            obtain ⟨stepped, local', rfl⟩ := Option.map_eq_some_iff.mp taken
            by_cases same : i = j
            · subst same
              rw [Function.update_self]
              exact .step inductionHypothesis met local'
            · rw [Function.update_of_ne same]
              exact inductionHypothesis
      | replace j k =>
          simp only [streamSystem, systemNext] at taken
          split at taken
          case isTrue => exact absurd taken (by simp)
          case isFalse distinct =>
            obtain ⟨old, freed, taken⟩ := Option.bind_eq_some_iff.mp taken
            obtain ⟨new, tookOver, rfl⟩ := Option.map_eq_some_iff.mp taken
            simp only [eachStream, Bool.and_eq_true] at met
            by_cases taking : i = k
            · subst taking
              rw [Function.update_self]
              exact .step inductionHypothesis met.2 tookOver
            · rw [Function.update_of_ne taking]
              by_cases freeing : i = j
              · subst freeing
                rw [Function.update_self]
                exact .step inductionHypothesis met.1 freed
              · rw [Function.update_of_ne freeing]
                exact inductionHypothesis

/-- In every run of a program in which the type of a stream changes only in safe
states, every entry stream keeps its bound. -/
theorem entryStreamBounded
    {size : ι → StreamSize}
    {streams : ι → Stream α}
    (reached : (streamSystem α size).ReachableBy
      (fun streams label => eachStream (fun i => switchesSafely (size i))
        streams label = true) streams)
    (i : ι) :
    EntryStream (size i) (streams i) := by
  have reached' := streamMachine_of_streamSystem reached i
  exact EntryStream.ofAccount (Invariant.ofReachable reached'.reachable)
    (EntryAccount.ofReachable reached'.reachable)
    (EntryTyped.ofReachable reached')

/-- A wrapper is blocked on its entry stream while the reader of another stream
replaces that stream by it. -/
def stuckWriter : List (SystemLabel Bool ℕ) :=
  [.one false (.openWrite true), .one false (.openRead false),
    .one true (.openWrite false), .one true (.openRead false),
    .one false (.write 1), .one false (.prod 0), .one false (.prod 1),
    .one false (.prod 0), .one false (.prod 0), .one false (.prod 0),
    .one false (.prod 0), .one false (.write 2), .one false (.prod 0),
    .one false (.prod 0), .replace true false]

/-- The reader of an entry stream replaces it by a stream that holds an item, and
reads that item. -/
def surplusSpace : List (SystemLabel Bool ℕ) :=
  [.one false (.openWrite true), .one false (.openRead false),
    .one true (.openWrite false), .one true (.openRead false),
    .one true (.write 1), .one true (.prod 1), .one true (.prod 0),
    .one true (.prod 0), .one true (.prod 0), .one true (.prod 0),
    .replace false true, .one true .read, .one true .cons, .one true .cons,
    .one true .cons, .one true .cons, .one true .cons]

/-- Without the condition both guarantees fail: a producer is left waiting on a
stream that no reader will do a V operation on, and `e_sem` exceeds the size. -/
theorem entryStreamBounded_replaced :
    (∃ streams : Bool → Stream ℕ,
      (streamSystem ℕ fun _ => .one).Reachable streams ∧
      (streams false).prod = .blocked 2 ∧ (streams false).prodWake = 0 ∧
      (streams false).cons = .idle ∧ (streams false).type = .middle ∧
      ¬ EntryStream .one (streams false)) ∧
    (∃ streams : Bool → Stream ℕ,
      (streamSystem ℕ fun _ => .one).Reachable streams ∧
      (streams true).type = .entry ∧ (streams true).eSem = 2 ∧
      ¬ EntryStream .one (streams true)) := by
  refine ⟨?_, ?_⟩
  · obtain ⟨streams, reached, tested⟩ := Machine.exists_reachable_of_run
      (rfl : (streamSystem ℕ fun _ : Bool => .one).init
        fun _ => lpelStreamCreate .one)
      (by decide : ((streamSystem ℕ fun _ : Bool => .one).run
        (fun _ => lpelStreamCreate .one) stuckWriter).map
        (fun streams => decide ((streams false).prod = .blocked 2 ∧
          (streams false).prodWake = 0 ∧ (streams false).cons = .idle ∧
          (streams false).type = .middle)) = some true)
    obtain ⟨blocked, noWake, idle, middle⟩ := of_decide_eq_true tested
    refine ⟨streams, reached, blocked, noWake, idle, middle, ?_⟩
    intro kept
    have entry := kept.waiting (by simp [blocked, WritePc.waits]) noWake
      (by simp [idle]) (by simp [idle])
    rw [middle] at entry
    cases entry
  · obtain ⟨streams, reached, tested⟩ := Machine.exists_reachable_of_run
      (rfl : (streamSystem ℕ fun _ : Bool => .one).init
        fun _ => lpelStreamCreate .one)
      (by decide : ((streamSystem ℕ fun _ : Bool => .one).run
        (fun _ => lpelStreamCreate .one) surplusSpace).map
        (fun streams => decide ((streams true).type = .entry ∧
          (streams true).eSem = 2)) = some true)
    obtain ⟨entry, surplus⟩ := of_decide_eq_true tested
    refine ⟨streams, reached, entry, surplus, ?_⟩
    intro kept
    have bounded := kept.eSem_le entry
    rw [surplus] at bounded
    exact absurd bounded (by decide)

/-- A wrapper opens its stream, writes to it and is blocked; nothing is
replaced. -/
def boundedWriter : List (SystemLabel Bool ℕ) :=
  stuckWriter.dropLast

/-- The blocked producer has an entry stream. -/
theorem entryStreamBounded_boundedWriter :
    ∃ streams : Bool → Stream ℕ,
      (streams false).prod = .blocked 2 ∧
      EntryStream .one (streams false) := by
  obtain ⟨streams, reached, tested⟩ := Machine.exists_reachableBy_of_runBy
    (rfl : (streamSystem ℕ fun _ : Bool => .one).init
      fun _ => lpelStreamCreate .one)
    (by decide : ((streamSystem ℕ fun _ : Bool => .one).runBy
      (eachStream fun _ => switchesSafely .one)
      (fun _ => lpelStreamCreate .one) boundedWriter).map
      (fun streams => decide ((streams false).prod = .blocked 2)) = some true)
  exact ⟨streams, of_decide_eq_true tested, entryStreamBounded reached false⟩

end Hrc
end Lpel
