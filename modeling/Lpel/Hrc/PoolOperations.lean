import Mathlib.Data.List.Perm.Subperm
import Lpel.Hrc.PoolInvariant

/-!
# The operations on descriptors and streams

What the stores of each operation do to the pointers, to the free lists and to
the lists of the tasks.  Every operation that respects the documented usage
succeeds and keeps them consistent.
-/

namespace Lpel
namespace Hrc

variable {σ δ τ ω α : Type}

/-- A computation that succeeds succeeds in its first part. -/
theorem ok_of_bind
    {β γ : Type}
    {first : Except PoolFailure β}
    {rest : β → Except PoolFailure γ}
    {result : γ}
    (ok : (first >>= rest) = .ok result) :
    ∃ value, first = .ok value ∧ rest value = .ok result := by
  cases first with
  | error failure => cases ok
  | ok value => exact ⟨value, rfl, ok⟩

section Descriptors

variable {pools after : Pools σ δ τ ω α}

/-- Nothing but the free lists of descriptors differs. -/
structure Relinked (pools after : Pools σ δ τ ω α) : Prop where
  desc : ∀ sd, (after.desc sd).task = (pools.desc sd).task ∧
    (after.desc sd).mode = (pools.desc sd).mode ∧
    (after.desc sd).stream = (pools.desc sd).stream
  stream : after.stream = pools.stream
  freeStream : after.freeStream = pools.freeStream
  workerContext : after.workerContext = pools.workerContext
  streamsOf : ∀ mode, after.streamsOf mode = pools.streamsOf mode
  streams : after.streams = pools.streams

theorem Relinked.refl (pools : Pools σ δ τ ω α) : Relinked pools pools :=
  ⟨fun _ => ⟨rfl, rfl, rfl⟩, rfl, rfl, rfl, fun _ => rfl, rfl⟩

variable [DecidableEq δ]

theorem Pools.next_setSdNext
    (pools : Pools σ δ τ ω α)
    (sd : δ)
    (next : Option δ) :
    (fun other => ((pools.setSdNext sd next).desc other).next) =
      Function.update (fun other => (pools.desc other).next) sd next := by
  funext other
  by_cases same : other = sd
  · subst same
    simp [Pools.setSdNext, Pools.setDesc]
  · simp [Pools.setSdNext, Pools.setDesc, same]

theorem Relinked.setSdNext
    (relinked : Relinked pools after)
    (sd : δ)
    (next : Option δ)
    (freeSd : ω → Option δ) :
    Relinked pools { after.setSdNext sd next with freeSd := freeSd } where
  desc := fun other => by
    have before := relinked.desc other
    by_cases same : other = sd
    · subst same
      simpa [Pools.setSdNext, Pools.setDesc] using before
    · simpa [Pools.setSdNext, Pools.setDesc, same] using before
  stream := relinked.stream
  freeStream := relinked.freeStream
  workerContext := relinked.workerContext
  streamsOf := fun mode => by
    rw [← relinked.streamsOf mode]
    cases mode <;> rfl
  streams := relinked.streams

theorem Pools.desc_setSdStream
    (pools : Pools σ δ τ ω α)
    (sd other : δ)
    (s : Option σ) :
    ((pools.setSdStream sd s).desc other).task = (pools.desc other).task ∧
      ((pools.setSdStream sd s).desc other).mode = (pools.desc other).mode ∧
      ((pools.setSdStream sd s).desc other).next =
        (pools.desc other).next := by
  by_cases same : other = sd
  · subst same
    simp [Pools.setSdStream, Pools.setDesc]
  · simp [Pools.setSdStream, Pools.setDesc, same]

theorem Pools.setSdStream_self
    (pools : Pools σ δ τ ω α)
    (sd : δ)
    (s : Option σ) :
    ((pools.setSdStream sd s).desc sd).stream = s := by
  simp [Pools.setSdStream, Pools.setDesc]

theorem Pools.setSdStream_of_ne
    (pools : Pools σ δ τ ω α)
    {sd other : δ}
    (distinct : other ≠ sd)
    (s : Option σ) :
    (pools.setSdStream sd s).desc other = pools.desc other := by
  simp [Pools.setSdStream, Pools.setDesc, distinct]

/-- The loop finds no descriptor, or it takes one out of the list. -/
theorem Pools.unlinkSd_cases
    {start : Option δ}
    (left : List δ)
    {rest : List δ}
    {prev : δ}
    {rounds : ℕ}
    (chained : Chained (fun sd => (pools.desc sd).next) start
      (left ++ prev :: rest))
    (nodup : (left ++ prev :: rest).Nodup)
    (enough : rest.length ≤ rounds) :
    pools.unlinkSd rounds prev (pools.desc prev).next = .ok (none, pools) ∨
      ∃ sd after left' right,
        pools.unlinkSd rounds prev (pools.desc prev).next =
          .ok (some sd, after) ∧
        pools.reusable sd = true ∧ Relinked pools after ∧
        after.freeSd = pools.freeSd ∧ after.sds = pools.sds ∧
        left ++ prev :: rest = left' ++ sd :: right ∧
        Chained (fun sd => (after.desc sd).next) start (left' ++ right) ∧
        ∀ other, other ∉ left ++ prev :: rest →
          (after.desc other).next = (pools.desc other).next := by
  induction rest generalizing left prev rounds with
  | nil =>
      have ends : (pools.desc prev).next = none := chained.behind
      left
      rw [ends]
      cases rounds <;> rfl
  | cons tmp rest inductionHypothesis =>
      obtain ⟨links, -⟩ := chained.behind
      have step : left ++ prev :: tmp :: rest = (left ++ [prev]) ++ tmp :: rest := by
        simp
      obtain ⟨rounds, rfl⟩ : ∃ r, rounds = r + 1 := by
        refine ⟨rounds - 1, ?_⟩
        rw [List.length_cons] at enough
        omega
      rw [links]
      simp only [Pools.unlinkSd]
      split
      case isTrue reusable =>
        right
        refine ⟨tmp, _, left ++ [prev], rest, rfl, reusable, ?_, rfl, rfl,
          step, ?_, ?_⟩
        · exact ((Relinked.refl pools).setSdNext prev _ pools.freeSd).setSdNext
            tmp none pools.freeSd
        · rw [Pools.next_setSdNext, Pools.next_setSdNext, List.append_assoc]
          exact chained.removeBehind nodup
        · intro other outside
          have links' := congrFun (Pools.next_setSdNext
            (pools.setSdNext prev (pools.desc tmp).next) tmp none) other
          rw [Pools.next_setSdNext] at links'
          refine links'.trans ?_
          rw [Function.update_of_ne (by rintro rfl; simp at outside),
            Function.update_of_ne (by rintro rfl; simp at outside)]
      case isFalse =>
        rw [step] at chained nodup ⊢
        rw [List.length_cons] at enough
        exact inductionHypothesis _ chained nodup (by omega)

variable [DecidableEq ω]

/-- `LpelWorkerGetSd` finds nothing, or it takes a descriptor out of the list of
the worker. -/
theorem Pools.lpelWorkerGetSd_cases
    {inUse : δ → Prop}
    {freeSds : ω → List δ}
    (lists : FreeLists (fun sd => (pools.desc sd).next) pools.freeSd
      (· ∈ pools.sds) inUse freeSds)
    (wc : ω) :
    pools.lpelWorkerGetSd wc = .ok (none, pools) ∨
      ∃ sd after left right,
        pools.lpelWorkerGetSd wc = .ok (some sd, after) ∧
        pools.reusable sd = true ∧ Relinked pools after ∧
        after.sds = pools.sds ∧ freeSds wc = left ++ sd :: right ∧
        FreeLists (fun sd => (after.desc sd).next) after.freeSd
          (· ∈ pools.sds) (fun other => other = sd ∨ inUse other)
          (Function.update freeSds wc (left ++ right)) := by
  cases first : pools.freeSd wc with
  | none =>
      left
      simp [Pools.lpelWorkerGetSd, first]
  | some tmp =>
      obtain ⟨rest, nodes⟩ := lists.first first
      have nodup := lists.nodup wc
      have chained := lists.chained wc
      rw [nodes] at nodup chained
      simp only [Pools.lpelWorkerGetSd, first]
      split
      case isTrue reusable =>
        right
        refine ⟨tmp, _, [], rest, rfl, reusable,
          (Relinked.refl pools).setSdNext tmp none _, rfl, nodes, ?_⟩
        refine lists.take [] rest nodes ?_ ?_
        · exact (congrArg (fun next => Chained next _ rest)
            (Pools.next_setSdNext pools tmp none)).mpr
              (chained.removeFirst nodup)
        · intro other outside
          refine (congrFun (Pools.next_setSdNext pools tmp none) other).trans ?_
          apply Function.update_of_ne
          rintro rfl
          exact outside (by rw [nodes]; simp)
      case isFalse =>
        have enough : rest.length ≤ pools.sds.length := by
          have known : rest ⊆ pools.sds := by
            intro sd member
            refine (lists.known_iff sd).mpr (.inr ⟨wc, ?_⟩)
            rw [nodes]
            exact List.mem_cons_of_mem tmp member
          exact (List.subperm_of_subset (List.nodup_cons.mp nodup).2
            known).length_le
        obtain found | ⟨sd, after, left, right, found, reusable, relinked, starts,
            known', split, chained', others⟩ :=
          Pools.unlinkSd_cases [] chained nodup enough
        · exact .inl found
        · right
          refine ⟨sd, after, left, right, found, reusable, relinked, known',
            nodes.trans split, ?_⟩
          have taken := lists.take left right (nodes.trans split) chained'
            (by rw [nodes]; exact others)
          rw [Function.update_eq_self_iff.mpr rfl] at taken
          rw [starts]
          exact taken

/-- The two branches of `LpelWorkerPutSd` do the same. -/
theorem Pools.putSd_eq (pools : Pools σ δ τ ω α) (wc : ω) (sd : δ) :
    pools.lpelWorkerPutSd wc sd =
      { pools.setSdNext sd (pools.freeSd wc) with
        freeSd := Function.update pools.freeSd wc (some sd) } := by
  cases first : pools.freeSd wc <;>
    simp [Pools.lpelWorkerPutSd, first]

/-- What destroying a stream does. -/
theorem Pools.destroyStream_cases
    [DecidableEq σ]
    {wc : ω}
    {sd : δ}
    (ok : pools.destroyStream wc sd = .ok after) :
    ∃ s prod, (pools.desc sd).stream = some s ∧
      after = ((pools.unsetWith s prod).lpelWorkerPutStream wc s).setSdStream sd
        none := by
  obtain ⟨-, -, ok⟩ := ok_of_bind ok
  obtain ⟨s, found, ok⟩ := ok_of_bind ok
  obtain ⟨-, -, ok⟩ := ok_of_bind ok
  obtain ⟨unset, unsetting, ok⟩ := ok_of_bind ok
  obtain ⟨prod, -, unsetting⟩ := ok_of_bind unsetting
  cases unsetting
  cases ok
  refine ⟨s, prod, ?_, rfl⟩
  cases stream : (pools.desc sd).stream with
  | none =>
      rw [stream] at found
      cases found
  | some s' =>
      rw [stream] at found
      cases found
      rfl

end Descriptors

section Stores

variable (pools : Pools σ δ τ ω α)

section Streams

variable [DecidableEq σ]

theorem Pools.sdOf_setSdOf
    (mode : Mode)
    (s : σ)
    (sd : δ)
    (other : σ)
    (mode' : Mode) :
    ((pools.setSdOf mode s sd).stream other).sdOf mode' =
      if other = s ∧ mode' = mode then some sd
      else (pools.stream other).sdOf mode' := by
  by_cases same : other = s
  · subst same
    cases mode <;> cases mode' <;>
      simp [Pools.setSdOf, Pools.setStream, PoolStream.sdOf]
  · cases mode <;> simp [Pools.setSdOf, Pools.setStream, same]

theorem Pools.stream_setSdOf (mode : Mode) (s : σ) (sd : δ) (other : σ) :
    ((pools.setSdOf mode s sd).stream other).buffer =
        (pools.stream other).buffer ∧
      ((pools.setSdOf mode s sd).stream other).next =
        (pools.stream other).next := by
  by_cases same : other = s
  · subst same
    cases mode <;> simp [Pools.setSdOf, Pools.setStream]
  · cases mode <;> simp [Pools.setSdOf, Pools.setStream, same]

theorem Pools.sdOf_setType
    (s : σ)
    (type : StreamType)
    (other : σ)
    (mode : Mode) :
    ((pools.setType s type).stream other).sdOf mode =
      (pools.stream other).sdOf mode := by
  by_cases same : other = s
  · subst same
    cases mode <;> simp [Pools.setType, Pools.setStream, PoolStream.sdOf]
  · simp [Pools.setType, Pools.setStream, same]

theorem Pools.stream_setType (s : σ) (type : StreamType) (other : σ) :
    ((pools.setType s type).stream other).buffer =
        (pools.stream other).buffer ∧
      ((pools.setType s type).stream other).next =
        (pools.stream other).next := by
  by_cases same : other = s
  · subst same
    simp [Pools.setType, Pools.setStream]
  · simp [Pools.setType, Pools.setStream, same]

variable [DecidableEq ω]

/-- The two branches of `LpelWorkerPutStream` do the same. -/
theorem Pools.putStream_eq (wc : ω) (s : σ) :
    pools.lpelWorkerPutStream wc s =
      { pools.setStream s
          { pools.stream s with next := pools.freeStream wc } with
        freeStream := Function.update pools.freeStream wc (some s) } := by
  cases first : pools.freeStream wc <;>
    simp [Pools.lpelWorkerPutStream, first]

end Streams

variable [DecidableEq τ]

theorem Pools.streamsOf_setStreamsOf
    (mode : Mode)
    (t : τ)
    (list : List δ)
    (mode' : Mode)
    (t' : τ) :
    (pools.setStreamsOf mode t list).streamsOf mode' t' =
      if t = t' ∧ mode = mode' then list else pools.streamsOf mode' t' := by
  by_cases same : t = t'
  · subst same
    cases mode <;> cases mode' <;> simp [Pools.setStreamsOf, Pools.streamsOf]
  · cases mode <;> cases mode' <;>
      simp [Pools.setStreamsOf, Pools.streamsOf, same, Ne.symm same]

theorem Pools.setStreamsOf_eq (mode : Mode) (t : τ) (list : List δ) :
    ∃ inStreams outStreams, pools.setStreamsOf mode t list =
      { pools with
        inStreams := inStreams
        outStreams := outStreams } := by
  cases mode
  · exact ⟨_, pools.outStreams, rfl⟩
  · exact ⟨pools.inStreams, _, rfl⟩

variable [DecidableEq σ] [DecidableEq δ]

section Close

variable [DecidableEq ω]
variable {pools : Pools σ δ τ ω α}

/-- What closing a descriptor does. -/
theorem Pools.lpelStreamClose_cases
    {after : Pools σ δ τ ω α}
    {t : τ}
    {sd : δ}
    {destroy : Bool}
    (task : (pools.desc sd).task = some t)
    (ok : pools.lpelStreamClose sd destroy = .ok after) :
    ∃ destroyed inStreams outStreams,
      (if destroy then
        pools.destroyStream (pools.workerContext t) sd = .ok destroyed
      else destroyed = pools) ∧
      after =
        (({ destroyed with
            inStreams := inStreams
            outStreams := outStreams } : Pools σ δ τ ω α).setDesc sd
          { destroyed.desc sd with task := none }).lpelWorkerPutSd
            (pools.workerContext t) sd := by
  obtain ⟨t', found, ok⟩ := ok_of_bind ok
  rw [task] at found
  cases found
  obtain ⟨destroyed, begun, removed, found, ok⟩ :
      ∃ destroyed : Pools σ δ τ ω α,
        (if destroy then
          pools.destroyStream (pools.workerContext t) sd = .ok destroyed
        else destroyed = pools) ∧
        ∃ removed, destroyed.lpelTaskRemoveStream t sd
          (destroyed.desc sd).mode = .ok removed ∧
        .ok ((removed.setDesc sd
          { removed.desc sd with task := none }).lpelWorkerPutSd
            (pools.workerContext t) sd) = Except.ok (ε := PoolFailure) after := by
    cases destroy with
    | false => exact ⟨pools, rfl, ok_of_bind ok⟩
    | true =>
        obtain ⟨destroyed, first, ok⟩ := ok_of_bind ok
        exact ⟨destroyed, first, ok_of_bind ok⟩
  obtain ⟨-, -, found⟩ := ok_of_bind found
  cases found
  cases ok
  obtain ⟨inStreams, outStreams, changed⟩ := destroyed.setStreamsOf_eq
    (destroyed.desc sd).mode t
      ((destroyed.streamsOf (destroyed.desc sd).mode t).erase sd)
  refine ⟨destroyed, inStreams, outStreams, begun, ?_⟩
  rw [changed]

end Close

variable (isWrapper : ω → Bool) (ct : τ) (s : σ) (mode : Mode) (sd : δ)

theorem Pools.desc_openWith :
    (pools.openWith isWrapper ct s mode sd).desc =
      Function.update pools.desc sd
        { task := some ct, stream := some s, mode := mode, next := none } := by
  unfold Pools.openWith
  dsimp only
  split <;> cases mode <;> rfl

theorem Pools.stream_openWith :
    (pools.openWith isWrapper ct s mode sd).stream =
        (pools.setSdOf mode s sd).stream ∨
      ∃ type, (pools.openWith isWrapper ct s mode sd).stream =
        ((pools.setSdOf mode s sd).setType s type).stream := by
  unfold Pools.openWith
  dsimp only
  split
  · right
    cases mode <;> exact ⟨_, rfl⟩
  · left
    cases mode <;> rfl

theorem Pools.sdOf_openWith (other : σ) (mode' : Mode) :
    ((pools.openWith isWrapper ct s mode sd).stream other).sdOf mode' =
      if other = s ∧ mode' = mode then some sd
      else (pools.stream other).sdOf mode' := by
  rw [← Pools.sdOf_setSdOf]
  obtain same | ⟨type, same⟩ := pools.stream_openWith isWrapper ct s mode sd
  · rw [same]
  · rw [same, Pools.sdOf_setType]

theorem Pools.buffer_openWith (other : σ) :
    ((pools.openWith isWrapper ct s mode sd).stream other).buffer =
        (pools.stream other).buffer ∧
      ((pools.openWith isWrapper ct s mode sd).stream other).next =
        (pools.stream other).next := by
  obtain ⟨buffer, next⟩ := pools.stream_setSdOf mode s sd other
  obtain same | ⟨type, same⟩ := pools.stream_openWith isWrapper ct s mode sd
  · rw [same]
    exact ⟨buffer, next⟩
  · obtain ⟨buffer', next'⟩ :=
      (pools.setSdOf mode s sd).stream_setType s type other
    rw [same]
    exact ⟨buffer'.trans buffer, next'.trans next⟩

theorem Pools.streamsOf_openWith (mode' : Mode) (t : τ) :
    (pools.openWith isWrapper ct s mode sd).streamsOf mode' t =
      if ct = t ∧ mode = mode' then sd :: pools.streamsOf mode' t
      else pools.streamsOf mode' t := by
  unfold Pools.openWith Pools.lpelTaskAddStream
  dsimp only
  rw [Pools.streamsOf_setStreamsOf]
  split
  case isTrue same =>
    obtain ⟨rfl, rfl⟩ := same
    split <;> cases mode <;> rfl
  case isFalse =>
    split <;> cases mode <;> cases mode' <;> rfl

theorem Pools.lists_openWith :
    (pools.openWith isWrapper ct s mode sd).freeStream = pools.freeStream ∧
      (pools.openWith isWrapper ct s mode sd).freeSd = pools.freeSd ∧
      (pools.openWith isWrapper ct s mode sd).streams = pools.streams ∧
      (pools.openWith isWrapper ct s mode sd).sds = pools.sds := by
  unfold Pools.openWith
  dsimp only
  split <;> cases mode <;> exact ⟨rfl, rfl, rfl, rfl⟩

end Stores

section Replace

variable [DecidableEq σ] [DecidableEq δ] [DecidableEq ω]

/-- The pools after `LpelStreamReplace`, given what the two pointers are. -/
def Pools.replacedBy
    (pools : Pools σ δ τ ω α)
    (wc : ω)
    (sd : δ)
    (s snew : σ)
    (prod oldCons : δ) : Pools σ δ τ ω α :=
  (((((pools.setType snew (pools.stream s).type).unsetWith s
    prod).lpelWorkerPutStream wc s).setSdStream oldCons none).setSdOf .r snew
      sd).setSdStream sd (some snew)

variable {pools : Pools σ δ τ ω α} {t : τ} {sd prod : δ} {s snew : σ}

/-- Putting the old stream back leaves the consumer of the new one. -/
theorem Pools.consSd_putStream
    (pools : Pools σ δ τ ω α)
    (wc : ω)
    (type : StreamType)
    (prod : δ)
    (distinct : snew ≠ s) :
    ((((pools.setType snew type).unsetWith s prod).lpelWorkerPutStream wc
      s).stream snew).consSd = (pools.stream snew).consSd := by
  rw [Pools.putStream_eq]
  simp [Pools.setType, Pools.unsetWith, Pools.setStream, Pools.setSdStream,
    Pools.setDesc, distinct]

/-- `LpelStreamReplace` fails exactly if the new stream was never read. -/
theorem Pools.replace_eq
    (mode : (pools.desc sd).mode = .r)
    (task : (pools.desc sd).task = some t)
    (stream : (pools.desc sd).stream = some s)
    (writer : (pools.stream s).prodSd = some prod)
    (empty : lpelBufferIsEmpty (pools.stream s).buffer = true)
    (distinct : snew ≠ s) :
    pools.lpelStreamReplace sd snew =
      match (pools.stream snew).consSd with
      | none => .error .nullPointer
      | some oldCons =>
          .ok (pools.replacedBy (pools.workerContext t) sd s snew prod
            oldCons) := by
  have writer' : ((pools.setType snew (pools.stream s).type).stream s).prodSd =
      some prod :=
    (pools.sdOf_setType snew _ s .w).trans writer
  have empty' : lpelBufferIsEmpty (((pools.setType snew
      (pools.stream s).type).unsetWith s prod).stream s).buffer = true := by
    rw [← (pools.stream_setType snew (pools.stream s).type s).1] at empty
    simpa [Pools.unsetWith, Pools.setStream, Pools.setSdStream, Pools.setDesc]
      using empty
  have last := pools.consSd_putStream (pools.workerContext t) (pools.stream s).type prod
    distinct
  cases oldCons : (pools.stream snew).consSd with
  | none =>
      simp [Pools.lpelStreamReplace, mode, task, stream, Pools.unsetStream,
        Pools.follow, writer', Pools.assert, bind, Except.bind, pure,
        Except.pure, last, empty', oldCons]
  | some oldCons' =>
      simp [Pools.lpelStreamReplace, mode, task, stream, Pools.unsetStream,
        Pools.follow, writer', Pools.assert, bind, Except.bind, pure,
        Except.pure, last, empty', oldCons, Pools.replacedBy]

end Replace

variable [DecidableEq τ]

/-- The invariant, with the nodes of the free lists. -/
structure Consistent
    [DecidableEq τ]
    (pools : Pools σ δ τ ω α)
    (client : Client σ δ τ)
    (freeStreams : ω → List σ)
    (freeSds : ω → List δ) : Prop where
  pointers : Pointers pools client
  streamLists : FreeLists (fun s => (pools.stream s).next) pools.freeStream
    (· ∈ pools.streams) (· ∈ client.live) freeStreams
  sdLists : FreeLists (fun sd => (pools.desc sd).next) pools.freeSd
    (· ∈ pools.sds) (· ∈ client.sds) freeSds

variable {pools after : Pools σ δ τ ω α} {client : Client σ δ τ}
variable {freeStreams : ω → List σ} {freeSds : ω → List δ}

/-- A destroyed stream is used again only with its pointers unset, and empty. -/
theorem Consistent.pooled
    (consistent : Consistent pools client freeStreams freeSds)
    {wc : ω}
    {s : σ}
    (member : s ∈ freeStreams wc) :
    (∀ mode, (pools.stream s).sdOf mode = none) ∧
      lpelBufferIsEmpty (pools.stream s).buffer = true := by
  refine consistent.pointers.pooled s ?_ (consistent.streamLists.unused member)
  exact (consistent.streamLists.known_iff s).mpr (.inr ⟨wc, member⟩)

/-- A descriptor in a free list is not open, and it is known. -/
theorem Consistent.free
    (consistent : Consistent pools client freeStreams freeSds)
    {wc : ω}
    {sd : δ}
    (member : sd ∈ freeSds wc) :
    sd ∉ client.sds ∧ sd ∈ pools.sds := by
  refine ⟨consistent.sdLists.unused member, ?_⟩
  exact (consistent.sdLists.known_iff sd).mpr (.inr ⟨wc, member⟩)

/-- What a task has in its lists. -/
theorem Pointers.mem_streamsOf
    {pools : Pools σ δ τ ω α}
    {client : Client σ δ τ}
    (pointers : Pointers pools client)
    (mode : Mode)
    (t : τ)
    (sd : δ) :
    sd ∈ pools.streamsOf mode t ↔
      ∃ h ∈ client.handles, h.sd = sd ∧ h.task = t ∧ h.mode = mode := by
  rw [pointers.listed, List.mem_map]
  constructor
  · rintro ⟨h, member, same⟩
    obtain ⟨member, fits⟩ := List.mem_filter.mp member
    exact ⟨h, member, same, of_decide_eq_true fits⟩
  · rintro ⟨h, member, same, fits⟩
    exact ⟨h, List.mem_filter.mpr ⟨member, decide_eq_true fits⟩, same⟩

section Closing

variable [DecidableEq δ]

/-- The stream that a task has noted for its descriptor. -/
theorem Pointers.streamOf
    (pointers : Pointers pools client)
    {h : Handle σ δ τ}
    (member : h ∈ client.handles) :
    client.streamOf h.sd = h.stream := by
  unfold Client.streamOf
  cases found : client.handles.find? fun h' => h'.sd = h.sd with
  | none =>
      have absent := List.find?_eq_none.mp found h member
      simp at absent
  | some h' =>
      have same := List.find?_some found
      obtain rfl := pointers.handle_eq (List.mem_of_find?_eq_some found) member
        (of_decide_eq_true same)
      rfl

variable [DecidableEq ω]

/-- The last steps of `LpelStreamClose`. -/
theorem Consistent.remove
    (consistent : Consistent pools client freeStreams freeSds)
    (wc : ω)
    {h : Handle σ δ τ}
    (member : h ∈ client.handles) :
    ∃ after, pools.lpelTaskRemoveStream h.task h.sd (pools.desc h.sd).mode =
        .ok after ∧
      Consistent
        ((after.setDesc h.sd { after.desc h.sd with task := none }
          ).lpelWorkerPutSd wc h.sd)
        (client.closed h.sd) freeStreams
        (Function.update freeSds wc (h.sd :: freeSds wc)) := by
  obtain ⟨task, mode, reads⟩ := consistent.pointers.held h member
  have listed : h.sd ∈ pools.streamsOf h.mode h.task := by
    rw [consistent.pointers.listed]
    refine List.mem_map_of_mem (List.mem_filter.mpr ⟨member, ?_⟩)
    simp
  refine ⟨pools.setStreamsOf h.mode h.task
    ((pools.streamsOf h.mode h.task).erase h.sd), ?_, ?_⟩
  · rw [mode]
    simp [Pools.lpelTaskRemoveStream, Pools.assert, listed, bind, Except.bind,
      pure, Except.pure]
  · have streamsOf := pools.streamsOf_setStreamsOf h.mode h.task
      ((pools.streamsOf h.mode h.task).erase h.sd)
    obtain ⟨inStreams, outStreams, same⟩ := pools.setStreamsOf_eq h.mode h.task
      ((pools.streamsOf h.mode h.task).erase h.sd)
    rw [same] at streamsOf ⊢
    rw [Pools.putSd_eq]
    refine ⟨?_, ?_, ?_⟩
    · refine consistent.pointers.close member ?_ ?_ ?_ rfl ?_ rfl rfl
      · simp [Pools.setSdNext, Pools.setDesc]
      · intro sd distinct
        simp [Pools.setSdNext, Pools.setDesc, distinct]
      · intro sd
        by_cases itself : sd = h.sd
        · subst itself
          simp [Pools.setSdNext, Pools.setDesc]
        · simp [Pools.setSdNext, Pools.setDesc, itself]
      · intro mode' t
        refine Eq.trans ?_ ((streamsOf mode' t).trans ?_)
        · cases mode' <;> rfl
        · split
          case isTrue same =>
            obtain ⟨rfl, rfl⟩ := same
            rfl
          case isFalse => rfl
    · exact consistent.streamLists
    · refine (consistent.sdLists.put wc (List.mem_map_of_mem member)).congr ?_
        (fun _ => Iff.rfl) ?_
      · intro owner node _
        by_cases itself : node = h.sd
        · subst itself
          simp [Pools.setSdNext, Pools.setDesc]
        · simp [Pools.setSdNext, Pools.setDesc, itself]
      · intro node
        exact client.mem_sds_closed h.sd node

/-- A descriptor that `LpelWorkerGetSd` returns is nowhere else. -/
theorem Consistent.handedOut
    {pools : Pools σ δ τ ω α}
    {client : Client σ δ τ}
    (consistent : Consistent pools client freeStreams freeSds)
    {wc : ω}
    {sd : δ}
    {after : Pools σ δ τ ω α}
    (result : pools.lpelWorkerGetSd wc = .ok (some sd, after)) :
    (∀ s ∈ client.live, ∀ mode, (pools.stream s).sdOf mode ≠ some sd) ∧
      (∀ mode t, sd ∉ pools.streamsOf mode t) ∧
      (∀ other, other ≠ wc → sd ∉ freeSds other) ∧
      ∃ rest, Chained (fun sd => (after.desc sd).next) (after.freeSd wc) rest ∧
        sd ∉ rest := by
  obtain found | ⟨sd', after', left, right, found, reusable, -, -, nodes,
      lists⟩ := Pools.lpelWorkerGetSd_cases consistent.sdLists wc
  · rw [found] at result
    exact absurd result (by simp)
  · rw [found] at result
    obtain ⟨same, rfl⟩ := Prod.mk.inj (Except.ok.inj result)
    obtain rfl := Option.some.inj same
    have member : sd' ∈ freeSds wc := by
      rw [nodes]
      simp
    obtain ⟨outside, -⟩ := consistent.free member
    refine ⟨?_, ?_, ?_, left ++ right, ?_, ?_⟩
    · intro s live mode
      refine consistent.pointers.unreferenced ?_ live mode
      intro _
      exact Option.isNone_iff_eq_none.mp (of_decide_eq_true reusable).2
    · intro mode t inside
      rw [consistent.pointers.mem_streamsOf] at inside
      obtain ⟨h, member', rfl, -⟩ := inside
      exact outside (List.mem_map_of_mem member')
    · intro other distinct inside
      exact distinct (consistent.sdLists.apart inside member)
    · have chained := lists.chained wc
      rwa [Function.update_self] at chained
    · intro inside
      have still : sd' ∈ Function.update freeSds wc (left ++ right) wc := by
        rw [Function.update_self]
        exact inside
      exact lists.unused still (.inl rfl)

end Closing

variable [DecidableEq σ]

/-- The type of a stream does not matter. -/
theorem Consistent.setType
    (consistent : Consistent pools client freeStreams freeSds)
    (s : σ)
    (type : StreamType) :
    Consistent (pools.setType s type) client freeStreams freeSds := by
  refine ⟨?_, ?_, consistent.sdLists⟩
  · refine consistent.pointers.congr (fun _ => ⟨rfl, rfl, rfl⟩) ?_ ?_ ?_ rfl rfl
    · exact pools.sdOf_setType s type
    · intro other _
      exact (pools.stream_setType s type other).1
    · intro mode
      cases mode <;> rfl
  · refine consistent.streamLists.congr ?_ (fun _ => Iff.rfl) fun _ => Iff.rfl
    intro owner node _
    exact (pools.stream_setType s type node).2

/-- The buffer of a stream in use does not matter. -/
theorem Consistent.setBuffer
    (consistent : Consistent pools client freeStreams freeSds)
    {s : σ}
    (live : s ∈ client.live)
    (buffer : Buffer α) :
    Consistent (pools.setStream s { pools.stream s with buffer := buffer })
      client freeStreams freeSds := by
  refine ⟨?_, ?_, consistent.sdLists⟩
  · refine consistent.pointers.congr (fun _ => ⟨rfl, rfl, rfl⟩) ?_ ?_ ?_ rfl rfl
    · intro other mode
      by_cases same : other = s
      · subst same
        cases mode <;> simp [Pools.setStream, PoolStream.sdOf]
      · simp [Pools.setStream, same]
    · intro other outside
      have distinct : other ≠ s := by
        rintro rfl
        exact outside live
      simp [Pools.setStream, distinct]
    · intro mode
      cases mode <;> rfl
  · refine consistent.streamLists.congr ?_ (fun _ => Iff.rfl) fun _ => Iff.rfl
    intro owner node _
    by_cases same : node = s
    · subst same
      simp [Pools.setStream]
    · simp [Pools.setStream, same]

section Creating

variable [DecidableEq ω]

/-- `LpelWorkerGetStream` finds nothing, or it takes the first stream of the
list. -/
theorem Consistent.getStream_cases
    (consistent : Consistent pools client freeStreams freeSds)
    (self : Option ω) :
    pools.lpelWorkerGetStream self = .ok (none, pools) ∨
      ∃ wc s rest, freeStreams wc = s :: rest ∧
        pools.lpelWorkerGetStream self =
          .ok (some s, pools.popStream wc s) := by
  cases self with
  | none => exact .inl rfl
  | some wc =>
      cases first : pools.freeStream wc with
      | none =>
          left
          simp [Pools.lpelWorkerGetStream, first]
      | some s =>
          right
          obtain ⟨rest, nodes⟩ := consistent.streamLists.first first
          have member : s ∈ freeStreams wc := by
            rw [nodes]
            simp
          obtain ⟨unset, -⟩ := consistent.pooled member
          have consumer : (pools.stream s).consSd = none := unset .r
          have producer : (pools.stream s).prodSd = none := unset .w
          refine ⟨wc, s, rest, nodes, ?_⟩
          simp [Pools.lpelWorkerGetStream, first, consumer, producer,
            Pools.assert, bind, Except.bind, pure, Except.pure]

/-- `LpelStreamCreate` succeeds. -/
theorem Consistent.create
    (consistent : Consistent pools client freeStreams freeSds)
    (self : Option ω)
    {fresh : σ}
    (unknown : fresh ∉ pools.streams)
    (address : ℕ) :
    ∃ s after freeStreams',
      pools.lpelStreamCreate self fresh address = .ok (s, after) ∧
        Consistent after (client.create s) freeStreams' freeSds := by
  have lists := consistent.streamLists
  obtain found | ⟨wc, s, rest, nodes, found⟩ := consistent.getStream_cases self
  · have outside : fresh ∉ client.live := fun live =>
      unknown ((lists.known_iff fresh).mpr (.inl live))
    refine ⟨fresh, (pools.mallocStream fresh address).resetStream fresh,
      freeStreams, ?_, ?_, ?_, consistent.sdLists⟩
    · simp [Pools.lpelStreamCreate, found, bind, Except.bind, pure, Except.pure,
        Pools.assert, Pools.mallocStream, Pools.setStream, lpelBufferIsEmpty,
        lpelBufferInit, nextEntry, createEntry]
    · refine consistent.pointers.create outside ?_ rfl ?_ ?_ ?_ rfl
      · intro mode
        cases mode <;>
          simp [Pools.resetStream, Pools.setStream, PoolStream.sdOf]
      · intro other distinct
        simp [Pools.resetStream, Pools.setStream, Pools.mallocStream, distinct]
      · intro mode
        cases mode <;> rfl
      · intro other member
        exact List.mem_cons.mp member
    · refine (lists.allocate unknown).congr ?_ ?_ ?_
      · intro owner node member
        have distinct : node ≠ fresh := by
          rintro rfl
          exact unknown ((lists.known_iff node).mpr (.inr ⟨owner, member⟩))
        simp [Pools.resetStream, Pools.setStream, Pools.mallocStream, distinct]
      · intro node
        exact List.mem_cons
      · intro node
        exact List.mem_cons
  · have member : s ∈ freeStreams wc := by
      rw [nodes]
      simp
    obtain ⟨-, empty⟩ := consistent.pooled member
    refine ⟨s, (pools.popStream wc s).resetStream s,
      Function.update freeStreams wc ([] ++ rest), ?_, ?_, ?_,
      consistent.sdLists⟩
    · simp [Pools.lpelStreamCreate, found, bind, Except.bind, pure, Except.pure,
        Pools.assert, Pools.popStream, Pools.setStream, empty]
    · refine consistent.pointers.create (lists.unused member) ?_ rfl ?_ ?_ ?_
        rfl
      · intro mode
        cases mode <;>
          simp [Pools.resetStream, Pools.setStream, PoolStream.sdOf]
      · intro other distinct
        simp [Pools.resetStream, Pools.popStream, Pools.setStream, distinct]
      · intro mode
        cases mode <;> rfl
      · intro other known
        exact .inr known
    · have nodup := lists.nodup wc
      have chained := lists.chained wc
      rw [nodes] at nodup chained
      refine (lists.take [] rest nodes (chained.removeFirst nodup) ?_).congr
        ?_ (fun _ => Iff.rfl) ?_
      · intro other outside
        apply Function.update_of_ne
        rintro rfl
        exact outside member
      · intro owner node _
        by_cases same : node = s
        · subst same
          simp [Pools.resetStream, Pools.setStream]
        · simp [Pools.resetStream, Pools.popStream, Pools.setStream, same]
      · intro node
        exact List.mem_cons

end Creating

variable [DecidableEq δ]

/-- A stream is opened with a descriptor that was taken from a list, or
allocated. -/
theorem Consistent.openWith
    (consistent : Consistent pools client freeStreams freeSds)
    (relinked : Relinked pools after)
    (isWrapper : ω → Bool)
    (ct : τ)
    {s : σ}
    {mode : Mode}
    {sd : δ}
    {freeSds' : ω → List δ}
    (live : s ∈ client.live)
    (unopened : ∀ h ∈ client.handles, h.stream = some s → h.mode ≠ mode)
    (outside : sd ∉ client.sds)
    (unset : sd ∈ pools.sds → (pools.desc sd).stream = none)
    (known : ∀ other, other ∈ after.sds ↔ other = sd ∨ other ∈ pools.sds)
    (lists : FreeLists (fun sd => (after.desc sd).next) after.freeSd
      (· ∈ after.sds) (fun other => other = sd ∨ other ∈ client.sds) freeSds') :
    Consistent (after.openWith isWrapper ct s mode sd)
      (client.opened sd ct mode s) freeStreams freeSds' := by
  have desc := after.desc_openWith isWrapper ct s mode sd
  have stream := after.buffer_openWith isWrapper ct s mode sd
  obtain ⟨freeStream, freeSd, streams, sds⟩ :=
    after.lists_openWith isWrapper ct s mode sd
  refine ⟨?_, ?_, ?_⟩
  · refine consistent.pointers.openStream unopened outside unset ?_ ?_ ?_ ?_ ?_
      ?_ ?_ live
    · rw [desc, Function.update_self]
      exact ⟨rfl, rfl, rfl⟩
    · intro other distinct
      rw [desc, Function.update_of_ne distinct]
      exact relinked.desc other
    · intro other mode'
      rw [Pools.sdOf_openWith, relinked.stream]
    · intro other
      rw [(stream other).1, relinked.stream]
    · intro mode' t
      rw [Pools.streamsOf_openWith, relinked.streamsOf]
    · rw [streams, relinked.streams]
    · intro other
      rw [sds]
      exact known other
  · rw [freeStream, relinked.freeStream, streams, relinked.streams]
    refine consistent.streamLists.congr ?_ (fun _ => Iff.rfl) fun _ => Iff.rfl
    intro owner node _
    rw [(stream node).2, relinked.stream]
  · rw [freeSd, sds]
    refine lists.congr ?_ (fun _ => Iff.rfl) fun _ => List.mem_cons
    intro owner node member
    have distinct : node ≠ sd := fun same => lists.unused member (.inl same)
    rw [desc, Function.update_of_ne distinct]

/-- A reader whose stream was destroyed is used for another one. -/
theorem Consistent.attach
    {h : Handle σ δ τ}
    (consistent : Consistent (pools.setSdStream h.sd none) client freeStreams
      freeSds)
    {snew : σ}
    {oldCons : δ}
    (member : h ∈ client.handles)
    (reader : h.mode = .r)
    (detached : h.stream = none)
    (live : snew ∈ client.live)
    (unopened : ∀ h' ∈ client.handles, h'.stream = some snew → h'.mode ≠ .r)
    (last : (pools.stream snew).consSd = some oldCons) :
    Consistent
      (((pools.setSdStream oldCons none).setSdOf .r snew h.sd).setSdStream h.sd
        (some snew))
      (client.attach h.sd snew) freeStreams freeSds := by
  have known : h.sd ∈ pools.sds :=
    (consistent.sdLists.known_iff h.sd).mpr (.inl (List.mem_map_of_mem member))
  have desc (sd : δ) :=
    (((pools.setSdStream oldCons none).setSdOf .r snew h.sd).desc_setSdStream
      h.sd sd (some snew))
  have desc' (sd : δ) := pools.desc_setSdStream oldCons sd none
  have before (sd : δ) := pools.desc_setSdStream h.sd sd none
  refine ⟨?_, ?_, ?_⟩
  · refine consistent.pointers.attach member known reader detached live unopened
      last ?_ ?_ ?_ ?_ ?_ ?_ rfl rfl
    · intro sd
      exact ⟨(desc sd).1.trans ((desc' sd).1.trans (before sd).1.symm),
        (desc sd).2.1.trans ((desc' sd).2.1.trans (before sd).2.1.symm)⟩
    · intro sd notOld notReader
      rw [Pools.setSdStream_of_ne _ notReader, pools.setSdStream_of_ne notReader]
      exact congrArg StreamDesc.stream (pools.setSdStream_of_ne notOld none)
    · exact Pools.setSdStream_self ..
    · exact (pools.setSdStream oldCons none).sdOf_setSdOf .r snew h.sd
    · intro other
      exact ((pools.setSdStream oldCons none).stream_setSdOf .r snew h.sd
        other).1
    · intro mode
      cases mode <;> rfl
  · refine consistent.streamLists.congr ?_ (fun _ => Iff.rfl) fun _ => Iff.rfl
    intro owner node _
    exact ((pools.setSdStream oldCons none).stream_setSdOf .r snew h.sd node).2
  · rw [Client.sds_attach]
    refine consistent.sdLists.congr ?_ (fun _ => Iff.rfl) fun _ => Iff.rfl
    intro owner node _
    exact (desc node).2.2.trans ((desc' node).2.2.trans (before node).2.2.symm)

variable [DecidableEq ω]

/-- `LpelStreamOpen` succeeds. -/
theorem Consistent.openStream
    (consistent : Consistent pools client freeStreams freeSds)
    (isWrapper : ω → Bool)
    (ct : τ)
    {s : σ}
    {mode : Mode}
    {fresh : δ}
    (unknown : fresh ∉ pools.sds)
    (live : s ∈ client.live)
    (unopened : ∀ h ∈ client.handles, h.stream = some s → h.mode ≠ mode) :
    ∃ sd after freeSds',
      pools.lpelStreamOpen isWrapper ct s mode fresh = .ok (sd, after) ∧
        Consistent after (client.opened sd ct mode s) freeStreams freeSds' := by
  obtain found | ⟨sd, relinked, left, right, found, reusable, same, sds, nodes,
      lists⟩ :=
    Pools.lpelWorkerGetSd_cases consistent.sdLists (pools.workerContext ct)
  · refine ⟨fresh, (pools.mallocSd fresh).openWith isWrapper ct s mode fresh,
      freeSds, ?_, ?_⟩
    · simp only [Pools.lpelStreamOpen, found, bind, Except.bind]
      rfl
    · have allocated := consistent.sdLists.allocate unknown
      have outside : fresh ∉ client.sds := fun inside =>
        unknown ((consistent.sdLists.known_iff fresh).mpr (.inl inside))
      refine consistent.openWith ?_ isWrapper ct live unopened outside
        (fun known => absurd known unknown) ?_ ?_
      · exact ⟨fun _ => ⟨rfl, rfl, rfl⟩, rfl, rfl, rfl,
          fun mode => by cases mode <;> rfl, rfl⟩
      · intro other
        exact List.mem_cons
      · exact allocated.congr (fun _ _ _ => rfl) (fun _ => List.mem_cons)
          fun _ => Iff.rfl
  · have member : sd ∈ freeSds (pools.workerContext ct) := by
      rw [nodes]
      simp
    obtain ⟨outside, known⟩ := consistent.free member
    refine ⟨sd, relinked.openWith isWrapper ct s mode sd, _, ?_,
      consistent.openWith same isWrapper ct live unopened outside ?_ ?_
        (by rw [sds]; exact lists)⟩
    · simp only [Pools.lpelStreamOpen, found, bind, Except.bind]
      rfl
    · intro _
      have unset := (of_decide_eq_true reusable).2
      exact Option.isNone_iff_eq_none.mp unset
    · intro other
      rw [sds]
      refine ⟨.inr, ?_⟩
      rintro (rfl | inside)
      · exact known
      · exact inside

/-- The reader destroys its stream, and the stream is put into a free list. -/
theorem Consistent.unset
    (consistent : Consistent pools client freeStreams freeSds)
    (wc : ω)
    {h : Handle σ δ τ}
    {s : σ}
    {prod : δ}
    (member : h ∈ client.handles)
    (reader : h.mode = .r)
    (reads : h.stream = some s)
    (writer : (pools.stream s).prodSd = some prod)
    (empty : lpelBufferIsEmpty (pools.stream s).buffer = true) :
    Consistent
      (((pools.unsetWith s prod).lpelWorkerPutStream wc s).setSdStream h.sd
        none)
      (client.destroy s)
      (Function.update freeStreams wc (s :: freeStreams wc)) freeSds := by
  obtain ⟨live, -⟩ := consistent.pointers.opened h member s reads
  rw [Pools.putStream_eq]
  refine ⟨?_, ?_, ?_⟩
  · refine consistent.pointers.destroy member reader reads writer ?_ ?_ ?_ ?_ ?_
      ?_ ?_ rfl rfl
    · intro sd
      obtain ⟨task, mode, -⟩ := pools.desc_setSdStream prod sd none
      exact ⟨(Pools.desc_setSdStream _ h.sd sd none).1.trans task,
        (Pools.desc_setSdStream _ h.sd sd none).2.1.trans mode⟩
    · intro sd notProd notReader
      rw [Pools.setSdStream_of_ne _ notReader]
      exact congrArg StreamDesc.stream (pools.setSdStream_of_ne notProd none)
    · refine ⟨?_, Pools.setSdStream_self ..⟩
      by_cases same : prod = h.sd
      · rw [same]
        exact Pools.setSdStream_self ..
      · rw [Pools.setSdStream_of_ne _ same]
        exact pools.setSdStream_self prod none
    · intro mode
      cases mode <;>
        simp [Pools.setSdStream, Pools.setDesc, Pools.unsetWith,
          Pools.setStream, PoolStream.sdOf]
    · simpa [Pools.setSdStream, Pools.setDesc, Pools.unsetWith,
        Pools.setStream] using empty
    · intro other distinct
      simp [Pools.setSdStream, Pools.setDesc, Pools.unsetWith, Pools.setStream,
        distinct]
    · intro mode
      cases mode <;> rfl
  · refine (consistent.streamLists.put wc live).congr ?_ (fun _ => Iff.rfl) ?_
    · intro owner node _
      by_cases same : node = s
      · subst same
        simp [Pools.setSdStream, Pools.setDesc, Pools.unsetWith,
          Pools.setStream]
      · simp [Pools.setSdStream, Pools.setDesc, Pools.unsetWith,
          Pools.setStream, same]
    · intro node
      simp [Client.destroy, and_comm]
  · rw [Client.sds_destroy]
    refine consistent.sdLists.congr ?_ (fun _ => Iff.rfl) fun _ => Iff.rfl
    intro owner node _
    exact (Pools.desc_setSdStream _ h.sd node none).2.2.trans
      (pools.desc_setSdStream prod node none).2.2

/-- `LpelStreamClose` without destroying the stream succeeds. -/
theorem Consistent.close
    (consistent : Consistent pools client freeStreams freeSds)
    {h : Handle σ δ τ}
    (member : h ∈ client.handles) :
    ∃ after freeSds', pools.lpelStreamClose h.sd false = .ok after ∧
      Consistent after (client.closed h.sd) freeStreams freeSds' := by
  obtain ⟨task, -, -⟩ := consistent.pointers.held h member
  obtain ⟨removed, found, closed⟩ := consistent.remove
    (pools.workerContext h.task) member
  refine ⟨_, _, ?_, closed⟩
  simp [Pools.lpelStreamClose, task, Pools.follow, found, bind, Except.bind,
    pure, Except.pure]

/-- The reader may destroy its stream. -/
theorem Consistent.destroyStream
    (consistent : Consistent pools client freeStreams freeSds)
    (wc : ω)
    {h : Handle σ δ τ}
    {s : σ}
    (member : h ∈ client.handles)
    (reader : h.mode = .r)
    (reads : h.stream = some s)
    (written : client.used .w s = true)
    (empty : lpelBufferIsEmpty (pools.stream s).buffer = true) :
    ∃ after freeStreams', pools.destroyStream wc h.sd = .ok after ∧
      Consistent after (client.destroy s) freeStreams' freeSds := by
  obtain ⟨-, mode, stream⟩ := consistent.pointers.held h member
  obtain ⟨live, -⟩ := consistent.pointers.opened h member s reads
  obtain ⟨prod, writer⟩ := Option.ne_none_iff_exists'.mp
    (consistent.pointers.used s live .w written)
  have writer : (pools.stream s).prodSd = some prod := writer
  refine ⟨_, _, ?_, consistent.unset wc member reader reads writer empty⟩
  simp [Pools.destroyStream, mode, reader, stream, reads, empty, writer,
    Pools.unsetStream, Pools.follow, Pools.assert, bind, Except.bind, pure,
    Except.pure]

/-- `LpelStreamClose` by the reader that destroys its stream succeeds. -/
theorem Consistent.closeAndDestroy
    (consistent : Consistent pools client freeStreams freeSds)
    {h : Handle σ δ τ}
    {s : σ}
    (member : h ∈ client.handles)
    (reader : h.mode = .r)
    (reads : h.stream = some s)
    (written : client.used .w s = true)
    (empty : lpelBufferIsEmpty (pools.stream s).buffer = true) :
    ∃ after freeStreams' freeSds', pools.lpelStreamClose h.sd true = .ok after ∧
      Consistent after ((client.destroy s).closed h.sd) freeStreams'
        freeSds' := by
  obtain ⟨task, -, -⟩ := consistent.pointers.held h member
  obtain ⟨between, freeStreams', destroyed, consistent'⟩ :=
    consistent.destroyStream (pools.workerContext h.task) member reader reads
      written empty
  have member' := List.mem_map_of_mem
    (f := fun h : Handle σ δ τ =>
      { h with stream := if h.stream = some s then none else h.stream }) member
  obtain ⟨removed, found, closed⟩ := consistent'.remove
    (pools.workerContext h.task) member'
  refine ⟨_, freeStreams', _, ?_, closed⟩
  simp only [Pools.lpelStreamClose, task, Pools.follow, destroyed, bind,
    Except.bind, pure, Except.pure, if_true]
  dsimp only at found
  rw [found]

/-- `LpelStreamReplace` succeeds. -/
theorem Consistent.replace
    (consistent : Consistent pools client freeStreams freeSds)
    {h : Handle σ δ τ}
    {s snew : σ}
    (member : h ∈ client.handles)
    (reader : h.mode = .r)
    (reads : h.stream = some s)
    (written : client.used .w s = true)
    (empty : lpelBufferIsEmpty (pools.stream s).buffer = true)
    (live : snew ∈ client.live)
    (readBefore : client.used .r snew = true)
    (unopened : ∀ h' ∈ client.handles, h'.stream = some snew → h'.mode ≠ .r) :
    ∃ after freeStreams', pools.lpelStreamReplace h.sd snew = .ok after ∧
      Consistent after ((client.destroy s).attach h.sd snew) freeStreams'
        freeSds := by
  obtain ⟨task, mode, stream⟩ := consistent.pointers.held h member
  obtain ⟨live', -⟩ := consistent.pointers.opened h member s reads
  obtain ⟨prod, writer⟩ := Option.ne_none_iff_exists'.mp
    (consistent.pointers.used s live' .w written)
  obtain ⟨oldCons, last⟩ := Option.ne_none_iff_exists'.mp
    (consistent.pointers.used snew live .r readBefore)
  have distinct : snew ≠ s := by
    rintro rfl
    exact unopened h member reads reader
  have typed : ((pools.setType snew (pools.stream s).type).stream s).prodSd =
      some prod :=
    (pools.sdOf_setType snew _ s .w).trans writer
  have drained : lpelBufferIsEmpty
      ((pools.setType snew (pools.stream s).type).stream s).buffer = true := by
    rw [(pools.stream_setType snew _ s).1]
    exact empty
  have destroyed := (consistent.setType snew (pools.stream s).type).unset
    (pools.workerContext h.task) member reader reads typed drained
  have result := Pools.replace_eq (mode.trans reader) task (stream.trans reads)
    writer empty distinct
  rw [show (pools.stream snew).consSd = some oldCons from last] at result
  refine ⟨_, _, result, destroyed.attach
    (h := { h with stream := if h.stream = some s then none else h.stream })
    (List.mem_map_of_mem member) reader ?_ ?_ ?_
    ((pools.consSd_putStream _ _ prod distinct).trans last)⟩
  · simp [reads]
  · exact List.mem_filter.mpr ⟨live, decide_eq_true distinct⟩
  · intro h' changed opened
    obtain ⟨h', member', rfl⟩ := List.mem_map.mp changed
    refine unopened h' member' ?_
    change (if h'.stream = some s then none else h'.stream) = some snew
      at opened
    split at opened
    · exact absurd opened (by simp)
    · exact opened

end Hrc
end Lpel
