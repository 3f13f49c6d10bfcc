import Lpel.Hrc.Pools
import Lpel.Lib.Chain

/-!
# The pointers between streams, descriptors and tasks

The invariant of the pools, in terms of what the tasks know.  A stream and the
descriptor it was opened with last refer to each other, also when the descriptor
is closed; the lists of a task hold its open descriptors; and the free lists hold
the closed descriptors and the destroyed streams, each once.

An operation is described by what it does to the pointers, apart from the links
of the free lists.
-/

namespace Lpel
namespace Hrc

variable {σ δ τ ω α : Type}

/-- The descriptors that are open. -/
def Client.sds (client : Client σ δ τ) : List δ :=
  client.handles.map Handle.sd

theorem Client.sds_destroy [DecidableEq σ] (client : Client σ δ τ) (s : σ) :
    (client.destroy s).sds = client.sds :=
  List.map_map

theorem Client.sds_attach
    [DecidableEq δ]
    (client : Client σ δ τ)
    (sd : δ)
    (s : σ) :
    (client.attach sd s).sds = client.sds :=
  List.map_map

theorem Client.mem_sds_closed
    [DecidableEq δ]
    (client : Client σ δ τ)
    (sd other : δ) :
    other ∈ (client.closed sd).sds ↔ other ≠ sd ∧ other ∈ client.sds := by
  constructor
  · intro member
    obtain ⟨h, still, rfl⟩ := List.mem_map.mp member
    obtain ⟨before, distinct⟩ := List.mem_filter.mp still
    exact ⟨of_decide_eq_true distinct, List.mem_map_of_mem before⟩
  · rintro ⟨distinct, member⟩
    obtain ⟨h, before, rfl⟩ := List.mem_map.mp member
    exact List.mem_map_of_mem
      (List.mem_filter.mpr ⟨before, decide_eq_true distinct⟩)

variable [DecidableEq τ]

/-- The pointers fit to what the tasks know. -/
structure Pointers (pools : Pools σ δ τ ω α) (client : Client σ δ τ) :
    Prop where
  nodup : client.sds.Nodup
  held : ∀ h ∈ client.handles, (pools.desc h.sd).task = some h.task ∧
    (pools.desc h.sd).mode = h.mode ∧ (pools.desc h.sd).stream = h.stream
  pointed : ∀ s ∈ client.live, ∀ mode sd,
    (pools.stream s).sdOf mode = some sd → sd ∈ pools.sds ∧
      (pools.desc sd).stream = some s ∧ (pools.desc sd).mode = mode
  used : ∀ s ∈ client.live, ∀ mode, client.used mode s = true →
    (pools.stream s).sdOf mode ≠ none
  opened : ∀ h ∈ client.handles, ∀ s, h.stream = some s →
    s ∈ client.live ∧ (pools.stream s).sdOf h.mode = some h.sd
  listed : ∀ mode t, pools.streamsOf mode t =
    (client.handles.filter fun h => h.task = t ∧ h.mode = mode).map Handle.sd
  closed : ∀ sd ∈ pools.sds, sd ∉ client.sds → (pools.desc sd).task = none
  pooled : ∀ s ∈ pools.streams, s ∉ client.live →
    (∀ mode, (pools.stream s).sdOf mode = none) ∧
      lpelBufferIsEmpty (pools.stream s).buffer = true

namespace Pointers

variable {pools after : Pools σ δ τ ω α} {client : Client σ δ τ}

/-- The links of the free lists and the types of the streams do not matter, nor
does the buffer of a stream in use. -/
theorem congr
    (pointers : Pointers pools client)
    (desc : ∀ sd, (after.desc sd).task = (pools.desc sd).task ∧
      (after.desc sd).mode = (pools.desc sd).mode ∧
      (after.desc sd).stream = (pools.desc sd).stream)
    (sdOf : ∀ s mode, (after.stream s).sdOf mode = (pools.stream s).sdOf mode)
    (buffer : ∀ s, s ∉ client.live →
      (after.stream s).buffer = (pools.stream s).buffer)
    (streamsOf : ∀ mode, after.streamsOf mode = pools.streamsOf mode)
    (streams : after.streams = pools.streams)
    (sds : after.sds = pools.sds) :
    Pointers after client where
  nodup := pointers.nodup
  held := fun h member => by
    obtain ⟨task, mode, stream⟩ := desc h.sd
    rw [task, mode, stream]
    exact pointers.held h member
  pointed := fun s member mode sd => by
    rw [sdOf, sds, (desc sd).2.1, (desc sd).2.2]
    exact pointers.pointed s member mode sd
  used := fun s member mode => by
    rw [sdOf]
    exact pointers.used s member mode
  opened := fun h member s => by
    rw [sdOf]
    exact pointers.opened h member s
  listed := fun mode t => by
    rw [streamsOf]
    exact pointers.listed mode t
  closed := fun sd => by
    rw [sds, (desc sd).1]
    exact pointers.closed sd
  pooled := fun s => by
    rw [streams]
    intro known outside
    simp only [sdOf, buffer s outside]
    exact pointers.pooled s known outside

/-- No stream in use refers to a descriptor that does not refer to it. -/
theorem unreferenced
    (pointers : Pointers pools client)
    {sd : δ}
    (unset : sd ∈ pools.sds → (pools.desc sd).stream = none)
    {s : σ}
    (member : s ∈ client.live)
    (mode : Mode) :
    (pools.stream s).sdOf mode ≠ some sd := by
  intro refers
  obtain ⟨known, stream, -⟩ := pointers.pointed s member mode sd refers
  rw [unset known] at stream
  exact absurd stream (by simp)

/-- A descriptor is open only once. -/
theorem handle_eq
    (pointers : Pointers pools client)
    {h h' : Handle σ δ τ}
    (member : h ∈ client.handles)
    (member' : h' ∈ client.handles)
    (same : h.sd = h'.sd) :
    h = h' :=
  List.inj_on_of_nodup_map pointers.nodup member member' same

/-- The lists of the tasks do not depend on the streams of the descriptors. -/
theorem listed_map
    (handles : List (Handle σ δ τ))
    (f : Handle σ δ τ → Handle σ δ τ)
    (same : ∀ h, (f h).sd = h.sd ∧ (f h).task = h.task ∧ (f h).mode = h.mode)
    (mode : Mode)
    (t : τ) :
    ((handles.map f).filter fun h => h.task = t ∧ h.mode = mode).map
        Handle.sd =
      (handles.filter fun h => h.task = t ∧ h.mode = mode).map Handle.sd := by
  rw [List.filter_map, List.map_map]
  have tests : ((fun h : Handle σ δ τ =>
      decide (h.task = t ∧ h.mode = mode)) ∘ f) =
        fun h => decide (h.task = t ∧ h.mode = mode) := by
    funext h
    simp only [Function.comp_apply, same]
  have names : Handle.sd ∘ f = Handle.sd := by
    funext h
    exact (same h).1
  rw [tests, names]

section Closing

variable [DecidableEq δ]

/-- The lists of the tasks without a descriptor that is closed. -/
theorem listed_closed
    (pointers : Pointers pools client)
    {h : Handle σ δ τ}
    (member : h ∈ client.handles)
    (mode : Mode)
    (t : τ) :
    ((client.closed h.sd).handles.filter fun h' =>
        h'.task = t ∧ h'.mode = mode).map Handle.sd =
      if h.task = t ∧ h.mode = mode then
        (pools.streamsOf mode t).erase h.sd
      else pools.streamsOf mode t := by
  have nodup : (pools.streamsOf mode t).Nodup := by
    rw [pointers.listed]
    exact pointers.nodup.sublist (List.filter_sublist.map _)
  have without : ((client.closed h.sd).handles.filter fun h' =>
      h'.task = t ∧ h'.mode = mode).map Handle.sd =
        (pools.streamsOf mode t).filter (· != h.sd) := by
    rw [pointers.listed, List.filter_map, Client.closed, List.filter_filter,
      List.filter_filter]
    refine congrArg (List.map Handle.sd) (List.filter_congr ?_)
    intro h' _
    simp [Bool.and_comm, bne, Bool.beq_eq_decide_eq]
  rw [without]
  split
  case isTrue => exact (nodup.erase_eq_filter h.sd).symm
  case isFalse another =>
    rw [List.filter_eq_self]
    intro sd inside
    rw [pointers.listed] at inside
    obtain ⟨h', found, rfl⟩ := List.mem_map.mp inside
    obtain ⟨member', fits⟩ := List.mem_filter.mp found
    rw [bne_iff_ne]
    intro same
    obtain rfl := pointers.handle_eq member' member same
    exact another (of_decide_eq_true fits)

/-- A descriptor is closed. -/
theorem close
    (pointers : Pointers pools client)
    {h : Handle σ δ τ}
    (member : h ∈ client.handles)
    (itself : (after.desc h.sd).task = none)
    (task : ∀ sd, sd ≠ h.sd → (after.desc sd).task = (pools.desc sd).task)
    (desc : ∀ sd, (after.desc sd).mode = (pools.desc sd).mode ∧
      (after.desc sd).stream = (pools.desc sd).stream)
    (stream : after.stream = pools.stream)
    (streamsOf : ∀ mode t, after.streamsOf mode t =
      if h.task = t ∧ h.mode = mode then
        (pools.streamsOf mode t).erase h.sd
      else pools.streamsOf mode t)
    (streams : after.streams = pools.streams)
    (sds : after.sds = pools.sds) :
    Pointers after (client.closed h.sd) := by
  have open_of {h' : Handle σ δ τ}
      (member' : h' ∈ (client.closed h.sd).handles) :
      h' ∈ client.handles ∧ h'.sd ≠ h.sd := by
    obtain ⟨before, distinct⟩ := List.mem_filter.mp member'
    exact ⟨before, of_decide_eq_true distinct⟩
  constructor
  case nodup =>
    exact pointers.nodup.sublist (List.filter_sublist.map _)
  case held =>
    intro h' member'
    obtain ⟨before, distinct⟩ := open_of member'
    rw [task h'.sd distinct, (desc h'.sd).1, (desc h'.sd).2]
    exact pointers.held h' before
  case pointed =>
    intro s live mode sd
    rw [stream, sds, (desc sd).1, (desc sd).2]
    exact pointers.pointed s live mode sd
  case used =>
    intro s live mode
    rw [stream]
    exact pointers.used s live mode
  case opened =>
    intro h' member' s
    rw [stream]
    exact pointers.opened h' (open_of member').1 s
  case listed =>
    intro mode t
    rw [pointers.listed_closed member]
    exact streamsOf mode t
  case closed =>
    intro sd known free
    rw [sds] at known
    by_cases same : sd = h.sd
    · rw [same]
      exact itself
    · rw [task sd same]
      refine pointers.closed sd known ?_
      intro inside
      exact free ((client.mem_sds_closed h.sd sd).mpr ⟨same, inside⟩)
  case pooled =>
    intro s
    rw [streams, stream]
    exact pointers.pooled s

end Closing

variable [DecidableEq σ]

/-- A stream is created. -/
theorem create
    (pointers : Pointers pools client)
    {s : σ}
    (outside : s ∉ client.live)
    (unset : ∀ mode, (after.stream s).sdOf mode = none)
    (desc : after.desc = pools.desc)
    (stream : ∀ other, other ≠ s → after.stream other = pools.stream other)
    (streamsOf : ∀ mode, after.streamsOf mode = pools.streamsOf mode)
    (streams : ∀ other ∈ after.streams, other = s ∨ other ∈ pools.streams)
    (sds : after.sds = pools.sds) :
    Pointers after (client.create s) := by
  have distinct {other : σ} (member : other ∈ client.live) : other ≠ s := by
    rintro rfl
    exact outside member
  constructor
  case nodup => exact pointers.nodup
  case held =>
    intro h member
    rw [desc]
    exact pointers.held h member
  case pointed =>
    intro other member mode sd refers
    obtain rfl | member := List.mem_cons.mp member
    · rw [unset] at refers
      exact absurd refers (by simp)
    · rw [stream other (distinct member)] at refers
      rw [desc, sds]
      exact pointers.pointed other member mode sd refers
  case used =>
    intro other member mode used
    change Function.update (client.used mode) s false other = true at used
    obtain rfl | member := List.mem_cons.mp member
    · rw [Function.update_self] at used
      exact absurd used (by simp)
    · rw [Function.update_of_ne (distinct member)] at used
      rw [stream other (distinct member)]
      exact pointers.used other member mode used
  case opened =>
    intro h member other opened
    obtain ⟨live, refers⟩ := pointers.opened h member other opened
    rw [stream other (distinct live)]
    exact ⟨List.mem_cons_of_mem s live, refers⟩
  case listed =>
    intro mode t
    rw [streamsOf]
    exact pointers.listed mode t
  case closed =>
    intro sd
    rw [sds, desc]
    exact pointers.closed sd
  case pooled =>
    intro other known free
    rw [Client.create, List.mem_cons, not_or] at free
    obtain same | known := streams other known
    · exact absurd same free.1
    · rw [stream other free.1]
      exact pointers.pooled other known free.2

/-- A stream is opened with a descriptor that no stream in use refers to. -/
theorem openStream
    (pointers : Pointers pools client)
    {sd : δ}
    {ct : τ}
    {s : σ}
    {mode : Mode}
    (unopened : ∀ h ∈ client.handles, h.stream = some s → h.mode ≠ mode)
    (outside : sd ∉ client.sds)
    (unset : sd ∈ pools.sds → (pools.desc sd).stream = none)
    (itself : (after.desc sd).task = some ct ∧ (after.desc sd).mode = mode ∧
      (after.desc sd).stream = some s)
    (desc : ∀ other, other ≠ sd →
      (after.desc other).task = (pools.desc other).task ∧
      (after.desc other).mode = (pools.desc other).mode ∧
      (after.desc other).stream = (pools.desc other).stream)
    (refers : ∀ other mode', (after.stream other).sdOf mode' =
      if other = s ∧ mode' = mode then some sd
      else (pools.stream other).sdOf mode')
    (buffer : ∀ other,
      (after.stream other).buffer = (pools.stream other).buffer)
    (streamsOf : ∀ mode' t, after.streamsOf mode' t =
      if ct = t ∧ mode = mode' then sd :: pools.streamsOf mode' t
      else pools.streamsOf mode' t)
    (streams : after.streams = pools.streams)
    (sds : ∀ other, other ∈ after.sds ↔ other = sd ∨ other ∈ pools.sds)
    (live : s ∈ client.live) :
    Pointers after (client.opened sd ct mode s) := by
  have distinct {h : Handle σ δ τ} (member : h ∈ client.handles) :
      h.sd ≠ sd := by
    rintro rfl
    exact outside (List.mem_map_of_mem member)
  constructor
  case nodup => exact List.nodup_cons.mpr ⟨outside, pointers.nodup⟩
  case held =>
    intro h member
    obtain rfl | member := List.mem_cons.mp member
    · exact itself
    · obtain ⟨task, sameMode, stream⟩ := desc h.sd (distinct member)
      rw [task, sameMode, stream]
      exact pointers.held h member
  case pointed =>
    intro other member mode' sd' refers'
    rw [refers] at refers'
    split at refers'
    case isTrue same =>
      obtain rfl := Option.some.inj refers'
      obtain ⟨rfl, rfl⟩ := same
      exact ⟨(sds sd).mpr (.inl rfl), itself.2.2, itself.2.1⟩
    case isFalse =>
      have other' : sd' ≠ sd := by
        rintro rfl
        exact pointers.unreferenced unset member mode' refers'
      obtain ⟨known, stream, mode_eq⟩ :=
        pointers.pointed other member mode' sd' refers'
      rw [(desc sd' other').2.1, (desc sd' other').2.2]
      exact ⟨(sds sd').mpr (.inr known), stream, mode_eq⟩
  case used =>
    intro other member mode' used
    rw [refers]
    split
    · simp
    · rename_i another
      refine pointers.used other member mode' ?_
      change Function.update client.used mode
        (Function.update (client.used mode) s true) mode' other = true at used
      by_cases sameMode : mode' = mode
      · subst sameMode
        have otherStream : other ≠ s := fun same => another ⟨same, rfl⟩
        rwa [Function.update_self, Function.update_of_ne otherStream] at used
      · rwa [Function.update_of_ne sameMode] at used
  case opened =>
    intro h member other opened
    rw [refers]
    obtain rfl | before := List.mem_cons.mp member
    · obtain rfl := Option.some.inj opened
      exact ⟨live, if_pos ⟨rfl, rfl⟩⟩
    · have another : ¬ (other = s ∧ h.mode = mode) := by
        rintro ⟨rfl, same⟩
        exact unopened h before opened same
      rw [if_neg another]
      exact pointers.opened h before other opened
  case listed =>
    intro mode' t
    rw [streamsOf, pointers.listed, Client.opened, List.filter_cons]
    simp only [decide_eq_true_eq]
    split
    · rfl
    · rfl
  case closed =>
    intro other known free
    change other ∉ sd :: client.sds at free
    rw [List.mem_cons, not_or] at free
    obtain same | known := (sds other).mp known
    · exact absurd same free.1
    · rw [(desc other free.1).1]
      exact pointers.closed other known free.2
  case pooled =>
    intro other known free
    rw [streams] at known
    obtain ⟨unset', empty⟩ := pointers.pooled other known free
    refine ⟨?_, by rw [buffer]; exact empty⟩
    intro mode'
    rw [refers, if_neg]
    · exact unset' mode'
    · rintro ⟨rfl, -⟩
      exact free live

/-- The reader destroys its stream. -/
theorem destroy
    (pointers : Pointers pools client)
    {h : Handle σ δ τ}
    {s : σ}
    {prod : δ}
    (member : h ∈ client.handles)
    (reader : h.mode = .r)
    (reads : h.stream = some s)
    (writer : (pools.stream s).prodSd = some prod)
    (desc : ∀ sd, (after.desc sd).task = (pools.desc sd).task ∧
      (after.desc sd).mode = (pools.desc sd).mode)
    (kept : ∀ sd, sd ≠ prod → sd ≠ h.sd →
      (after.desc sd).stream = (pools.desc sd).stream)
    (unset : (after.desc prod).stream = none ∧ (after.desc h.sd).stream = none)
    (unset' : ∀ mode, (after.stream s).sdOf mode = none)
    (empty : lpelBufferIsEmpty (after.stream s).buffer = true)
    (stream : ∀ other, other ≠ s →
      (∀ mode, (after.stream other).sdOf mode =
        (pools.stream other).sdOf mode) ∧
      (after.stream other).buffer = (pools.stream other).buffer)
    (streamsOf : ∀ mode, after.streamsOf mode = pools.streamsOf mode)
    (streams : after.streams = pools.streams)
    (sds : after.sds = pools.sds) :
    Pointers after (client.destroy s) := by
  obtain ⟨live, reader'⟩ := pointers.opened h member s reads
  have ofProd := (pointers.pointed s live .w prod writer).2.1
  have ofReader : (pools.desc h.sd).stream = some s :=
    (pointers.held h member).2.2.trans reads
  -- the two descriptors that the stream refers to are those that refer to it
  have both {sd : δ} {s' : σ} (another : s' ≠ s)
      (refers : (pools.desc sd).stream = some s') :
      sd ≠ prod ∧ sd ≠ h.sd := by
    constructor
    · rintro rfl
      exact another (Option.some.inj (refers.symm.trans ofProd))
    · rintro rfl
      exact another (Option.some.inj (refers.symm.trans ofReader))
  have either {h' : Handle σ δ τ} (member' : h' ∈ client.handles)
      (reads' : h'.stream = some s) : h'.sd = prod ∨ h'.sd = h.sd := by
    have refers := (pointers.opened h' member' s reads').2
    cases mode : h'.mode with
    | r =>
        rw [mode, ← reader, reader'] at refers
        exact .inr (Option.some.inj refers).symm
    | w =>
        rw [mode] at refers
        exact .inl (Option.some.inj (refers.symm.trans writer))
  constructor
  case nodup => exact client.sds_destroy s ▸ pointers.nodup
  case held =>
    intro h' changed
    obtain ⟨h', member', rfl⟩ := List.mem_map.mp changed
    obtain ⟨task, mode, reads'⟩ := pointers.held h' member'
    refine ⟨(desc _).1.trans task, (desc _).2.trans mode, ?_⟩
    change (after.desc h'.sd).stream =
      if h'.stream = some s then none else h'.stream
    split
    case isTrue here =>
      obtain same | same := either member' here
      · rw [same]
        exact unset.1
      · rw [same]
        exact unset.2
    case isFalse elsewhere =>
      rw [kept, reads']
      · intro same
        rw [same, ofProd] at reads'
        exact elsewhere reads'.symm
      · intro same
        rw [same, ofReader] at reads'
        exact elsewhere reads'.symm
  case pointed =>
    intro other live' mode sd refers
    obtain ⟨live', another⟩ := List.mem_filter.mp live'
    have another : other ≠ s := of_decide_eq_true another
    rw [(stream other another).1] at refers
    obtain ⟨known, reads', mode'⟩ :=
      pointers.pointed other live' mode sd refers
    obtain ⟨notProd, notReader⟩ := both another reads'
    rw [kept sd notProd notReader, (desc sd).2, sds]
    exact ⟨known, reads', mode'⟩
  case used =>
    intro other live' mode used
    obtain ⟨live', another⟩ := List.mem_filter.mp live'
    rw [(stream other (of_decide_eq_true another)).1]
    exact pointers.used other live' mode used
  case opened =>
    intro h' changed other opened
    obtain ⟨h', member', rfl⟩ := List.mem_map.mp changed
    change (if h'.stream = some s then none else h'.stream) = some other
      at opened
    split at opened
    case isTrue => exact absurd opened (by simp)
    case isFalse elsewhere =>
      have another : other ≠ s := by
        rintro rfl
        exact elsewhere opened
      obtain ⟨live', refers⟩ := pointers.opened h' member' other opened
      refine ⟨List.mem_filter.mpr ⟨live', decide_eq_true another⟩, ?_⟩
      rw [(stream other another).1]
      exact refers
  case listed =>
    intro mode t
    rw [streamsOf, pointers.listed]
    refine (listed_map client.handles _ ?_ mode t).symm
    intro h'
    exact ⟨rfl, rfl, rfl⟩
  case closed =>
    intro sd
    rw [Client.sds_destroy, sds, (desc sd).1]
    exact pointers.closed sd
  case pooled =>
    intro other known free
    rw [streams] at known
    by_cases same : other = s
    · subst same
      exact ⟨unset', empty⟩
    · obtain ⟨sdOf, buffer⟩ := stream other same
      simp only [sdOf, buffer]
      refine pointers.pooled other known ?_
      intro live'
      exact free (List.mem_filter.mpr ⟨live', decide_eq_true same⟩)

variable [DecidableEq δ]

/-- A descriptor without a stream is used for one whose last reader is closed. -/
theorem attach
    (pointers : Pointers pools client)
    {h : Handle σ δ τ}
    {snew : σ}
    {oldCons : δ}
    (member : h ∈ client.handles)
    (known : h.sd ∈ pools.sds)
    (reader : h.mode = .r)
    (detached : h.stream = none)
    (live : snew ∈ client.live)
    (unopened : ∀ h' ∈ client.handles, h'.stream = some snew → h'.mode ≠ .r)
    (last : (pools.stream snew).consSd = some oldCons)
    (desc : ∀ sd, (after.desc sd).task = (pools.desc sd).task ∧
      (after.desc sd).mode = (pools.desc sd).mode)
    (kept : ∀ sd, sd ≠ oldCons → sd ≠ h.sd →
      (after.desc sd).stream = (pools.desc sd).stream)
    (itself : (after.desc h.sd).stream = some snew)
    (refers : ∀ other mode, (after.stream other).sdOf mode =
      if other = snew ∧ mode = .r then some h.sd
      else (pools.stream other).sdOf mode)
    (buffer : ∀ other,
      (after.stream other).buffer = (pools.stream other).buffer)
    (streamsOf : ∀ mode, after.streamsOf mode = pools.streamsOf mode)
    (streams : after.streams = pools.streams)
    (sds : after.sds = pools.sds) :
    Pointers after (client.attach h.sd snew) := by
  obtain ⟨-, ofOld, oldMode⟩ := pointers.pointed snew live .r oldCons last
  have ofReader : (pools.desc h.sd).stream = none :=
    (pointers.held h member).2.2.trans detached
  have notOld {h' : Handle σ δ τ} (member' : h' ∈ client.handles) :
      h'.sd ≠ oldCons := by
    rintro rfl
    obtain ⟨-, mode, reads⟩ := pointers.held h' member'
    exact unopened h' member' (reads.symm.trans ofOld)
      (mode.symm.trans oldMode)
  constructor
  case nodup => exact client.sds_attach h.sd snew ▸ pointers.nodup
  case held =>
    intro h' changed
    obtain ⟨h', member', rfl⟩ := List.mem_map.mp changed
    obtain ⟨task, mode, reads⟩ := pointers.held h' member'
    refine ⟨(desc _).1.trans task, (desc _).2.trans mode, ?_⟩
    change (after.desc h'.sd).stream =
      if h'.sd = h.sd then some snew else h'.stream
    split
    case isTrue same =>
      rw [same]
      exact itself
    case isFalse distinct =>
      rw [kept h'.sd (notOld member') distinct, reads]
  case pointed =>
    intro other live' mode sd refers'
    rw [refers] at refers'
    rw [sds, (desc sd).2]
    split at refers'
    case isTrue same =>
      obtain ⟨rfl, rfl⟩ := same
      obtain rfl := Option.some.inj refers'
      exact ⟨known, itself, (pointers.held h member).2.1.trans reader⟩
    case isFalse another =>
      obtain ⟨known', reads, mode'⟩ :=
        pointers.pointed other live' mode sd refers'
      refine ⟨known', ?_, mode'⟩
      rw [kept sd, reads]
      · rintro rfl
        exact another ⟨Option.some.inj (reads.symm.trans ofOld),
          mode'.symm.trans oldMode⟩
      · rintro rfl
        exact absurd (reads.symm.trans ofReader) (by simp)
  case used =>
    intro other live' mode used
    rw [refers]
    split
    · simp
    · exact pointers.used other live' mode used
  case opened =>
    intro h' changed other opened
    obtain ⟨h', member', rfl⟩ := List.mem_map.mp changed
    change (if h'.sd = h.sd then some snew else h'.stream) = some other
      at opened
    change other ∈ client.live ∧
      (after.stream other).sdOf h'.mode = some h'.sd
    rw [refers]
    split at opened
    case isTrue same =>
      obtain rfl := pointers.handle_eq member' member same
      obtain rfl := Option.some.inj opened
      exact ⟨live, if_pos ⟨rfl, reader⟩⟩
    case isFalse =>
      rw [if_neg]
      · exact pointers.opened h' member' other opened
      · rintro ⟨rfl, mode⟩
        exact unopened h' member' opened mode
  case listed =>
    intro mode t
    rw [streamsOf, pointers.listed]
    refine (listed_map client.handles _ ?_ mode t).symm
    intro h'
    exact ⟨rfl, rfl, rfl⟩
  case closed =>
    intro sd
    rw [Client.sds_attach, sds, (desc sd).1]
    exact pointers.closed sd
  case pooled =>
    intro other known' free
    rw [streams] at known'
    obtain ⟨unset, empty⟩ := pointers.pooled other known' free
    refine ⟨?_, by rw [buffer]; exact empty⟩
    intro mode
    rw [refers, if_neg]
    · exact unset mode
    · rintro ⟨rfl, -⟩
      exact free live

end Pointers

end Hrc
end Lpel
