import Lpel.Decen.Buffer
import Lpel.Lib.Machine

/-!
# The ring buffer between a producer and a consumer

`decen_buffer.c` is used by one producer and one consumer at the same time.  The
two share the cells, and each of them has an index of its own.  `LpelBufferPut`
fills a cell before it advances `pwrite`, and `LpelBufferPop` clears a cell
before it advances `pread`, so the other side may look between the two accesses.

An item is unread from the store of its cell until the cell is cleared.  Seen
this way the ring is a first-in first-out queue of at most `size` items.
-/

namespace Lpel
namespace Decen

variable {α : Type}

/-- Where the producer is. -/
inductive PutPc
  | idle
  /-- `LpelBufferIsSpace` was true, before the store. -/
  | tested
  /-- Before `pwrite` is advanced. -/
  | stored
  deriving DecidableEq

/-- Where the consumer is. -/
inductive PopPc (α : Type)
  | idle
  /-- `LpelBufferTop` has returned an item, before the cell is cleared. -/
  | topped (item : α)
  /-- Before `pread` is advanced. -/
  | cleared
  deriving DecidableEq

/-- A ring with its two sides. -/
structure SharedRing (α : Type) where
  buf : Buffer α
  prod : PutPc
  cons : PopPc α
  /-- History: the items stored. -/
  put : List α
  /-- History: the items whose cells were cleared. -/
  popped : List α

/-- One access to the ring. -/
inductive RingLabel (α : Type)
  /-- The producer evaluates `LpelBufferIsSpace`. -/
  | test
  | store (item : α)
  | advanceWrite
  /-- The consumer evaluates `LpelBufferTop`. -/
  | top
  | clear
  | advanceRead

/-- `buf->data[buf->pwrite] = item`. -/
def storeCell (buf : Buffer α) (item : α) : Buffer α :=
  { buf with data := Function.update buf.data buf.pwrite.toNat (some item) }

/-- The update of `pwrite`. -/
def advanceWrite (buf : Buffer α) : Buffer α :=
  { buf with pwrite := advance buf.size buf.pwrite }

/-- `buf->data[buf->pread] = NULL`. -/
def clearCell (buf : Buffer α) : Buffer α :=
  { buf with data := Function.update buf.data buf.pread.toNat none }

/-- The update of `pread`. -/
def advanceRead (buf : Buffer α) : Buffer α :=
  { buf with pread := advance buf.size buf.pread }

/-- `LpelBufferPut` is the store and then the update of `pwrite`. -/
theorem lpelBufferPut_eq (buf : Buffer α) (item : α) :
    lpelBufferPut buf item = advanceWrite (storeCell buf item) :=
  rfl

/-- `LpelBufferPop` clears the cell and then updates `pread`. -/
theorem lpelBufferPop_eq (buf : Buffer α) :
    lpelBufferPop buf = advanceRead (clearCell buf) :=
  rfl

/-- One step of the producer or of the consumer. -/
def ringNext (ring : SharedRing α) : RingLabel α → Option (SharedRing α)
  | .test =>
      if ring.prod = .idle then
        some { ring with
          prod := if lpelBufferIsSpace ring.buf then .tested else .idle }
      else
        none
  | .store item =>
      if ring.prod = .tested then
        some { ring with
          buf := storeCell ring.buf item
          prod := .stored
          put := ring.put ++ [item] }
      else
        none
  | .advanceWrite =>
      if ring.prod = .stored then
        some { ring with
          buf := advanceWrite ring.buf
          prod := .idle }
      else
        none
  | .top =>
      match ring.cons with
      | .idle =>
          some { ring with
            cons :=
              match lpelBufferTop ring.buf with
              | some item => .topped item
              | none => .idle }
      | _ => none
  | .clear =>
      match ring.cons with
      | .topped item =>
          some { ring with
            buf := clearCell ring.buf
            cons := .cleared
            popped := ring.popped ++ [item] }
      | _ => none
  | .advanceRead =>
      match ring.cons with
      | .cleared =>
          some { ring with
            buf := advanceRead ring.buf
            cons := .idle }
      | _ => none

/-- `LpelBufferInit`, before the first access. -/
def ringStart (size : UInt64) : SharedRing α where
  buf :=
    { pread := 0
      pwrite := 0
      size := size
      data := fun _ => none }
  prod := .idle
  cons := .idle
  put := []
  popped := []

/-- One ring with its producer and its consumer. -/
def ringMachine (α : Type) (size : UInt64) :
    Machine (SharedRing α) (RingLabel α) where
  init := fun ring => ring = ringStart size
  next := ringNext

namespace SharedRing

/-- The items stored whose cells are not yet cleared. -/
def unread (ring : SharedRing α) : List α :=
  ring.put.drop ring.popped.length

/-- The cell of the oldest unread item; `pread` lags behind it while the consumer
has cleared a cell and not yet advanced. -/
def oldest (ring : SharedRing α) : ℕ :=
  match ring.cons with
  | .cleared => (ring.buf.pread.toNat + 1) % ring.buf.size.toNat
  | _ => ring.buf.pread.toNat

/-- What the two sides rely on. -/
structure Invariant (size : UInt64) (ring : SharedRing α) : Prop where
  size_eq : ring.buf.size = size
  pread_lt : ring.buf.pread.toNat < size.toNat
  pwrite_lt : ring.buf.pwrite.toNat < size.toNat
  fifo : ring.put = ring.popped ++ ring.unread
  segment : CyclicSegment size.toNat ring.oldest ring.buf.data ring.unread
  /-- The next item goes to the cell at `pwrite`. -/
  behind : ring.prod ≠ .stored →
    ring.buf.pwrite.toNat =
      (ring.oldest + ring.unread.length) % size.toNat
  /-- It goes to the cell after `pwrite` if that lags behind. -/
  behindStored : ring.prod = .stored →
    (ring.buf.pwrite.toNat + 1) % size.toNat =
      (ring.oldest + ring.unread.length) % size.toNat
  room : ring.prod = .tested → ring.unread.length < size.toNat
  topped : ∀ item, ring.cons = .topped item → ring.unread.head? = some item

namespace Invariant

variable {size : UInt64} {ring after : SharedRing α}

/-- A ring of one cell or more is in order after `LpelBufferInit`. -/
theorem start (positive : 0 < size) :
    (ringStart size : SharedRing α).Invariant size := by
  have positive' : 0 < size.toNat := by
    simpa [UInt64.lt_iff_toNat_lt] using positive
  exact
    { size_eq := rfl
      pread_lt := positive'
      pwrite_lt := positive'
      fifo := rfl
      segment := CyclicSegment.empty positive'
      behind := fun _ => by simp [ringStart, oldest, unread]
      behindStored := fun stored => by cases stored
      room := fun tested => by cases tested
      topped := fun _ topped => by cases topped }

/-- The producer finds space exactly while fewer items than cells are unread. -/
theorem isSpace_iff
    (invariant : ring.Invariant size)
    (settled : ring.prod ≠ .stored) :
    lpelBufferIsSpace ring.buf = true ↔
      ring.unread.length < size.toNat := by
  rw [lpelBufferIsSpace, Option.isNone_iff_eq_none, invariant.behind settled]
  exact invariant.segment.behind_eq_none_iff

/-- The consumer sees the oldest unread item. -/
theorem top_eq
    (invariant : ring.Invariant size)
    (settled : ring.cons ≠ .cleared) :
    lpelBufferTop ring.buf = ring.unread.head? := by
  have oldest : ring.oldest = ring.buf.pread.toNat := by
    unfold SharedRing.oldest
    split
    · contradiction
    · rfl
  rw [lpelBufferTop, ← oldest]
  exact invariant.segment.first

/-- `LpelBufferIsSpace` changes nothing but what the producer does next. -/
theorem test
    (invariant : ring.Invariant size)
    (idle : ring.prod = .idle) :
    { ring with
      prod := if lpelBufferIsSpace ring.buf then
        PutPc.tested else PutPc.idle }.Invariant size := by
  have settled : ring.prod ≠ .stored := by simp [idle]
  refine { invariant with
    behind := fun _ => invariant.behind settled
    behindStored := ?_
    room := ?_ }
  · intro stored
    dsimp only at stored
    split at stored <;> cases stored
  · intro tested
    dsimp only at tested
    split at tested
    · rename_i space
      exact (invariant.isSpace_iff settled).mp space
    · cases tested

/-- A store puts the item behind the unread ones. -/
theorem store
    (invariant : ring.Invariant size)
    (tested : ring.prod = .tested)
    (item : α) :
    { ring with
      buf := storeCell ring.buf item
      prod := PutPc.stored
      put := ring.put ++ [item] }.Invariant size ∧
    SharedRing.unread { ring with
      buf := storeCell ring.buf item
      prod := PutPc.stored
      put := ring.put ++ [item] } = ring.unread ++ [item] := by
  have settled : ring.prod ≠ .stored := by simp [tested]
  have behind := invariant.behind settled
  have popped_le : ring.popped.length ≤ ring.put.length := by
    rw [invariant.fifo]
    simp
  have unread : (ring.put ++ [item]).drop ring.popped.length =
      ring.unread ++ [item] := List.drop_append_of_le_length popped_le
  refine ⟨?_, unread⟩
  constructor
  case size_eq => exact invariant.size_eq
  case pread_lt => exact invariant.pread_lt
  case pwrite_lt => exact invariant.pwrite_lt
  case fifo =>
    change ring.put ++ [item] = ring.popped ++ (ring.put ++ [item]).drop _
    rw [unread, ← List.append_assoc, ← invariant.fifo]
  case segment =>
    change CyclicSegment _ ring.oldest
      (Function.update ring.buf.data ring.buf.pwrite.toNat (some item))
      ((ring.put ++ [item]).drop _)
    rw [unread, behind]
    exact invariant.segment.push (invariant.room tested) item
  case behind => exact fun unstored => absurd rfl unstored
  case behindStored =>
    intro _
    change (ring.buf.pwrite.toNat + 1) % _ =
      (ring.oldest + ((ring.put ++ [item]).drop _).length) % _
    rw [unread, behind, Nat.mod_add_mod, List.length_append,
      List.length_singleton, Nat.add_assoc]
  case room => exact fun impossible => by cases impossible
  case topped =>
    intro first topped
    change ((ring.put ++ [item]).drop _).head? = some first
    rw [unread, List.head?_append, invariant.topped first topped]
    rfl

/-- The update of `pwrite` catches up with the store. -/
theorem advanceWrite
    (invariant : ring.Invariant size)
    (stored : ring.prod = .stored) :
    { ring with
      buf := Decen.advanceWrite ring.buf
      prod := PutPc.idle }.Invariant size := by
  have moved : (advance ring.buf.size ring.buf.pwrite).toNat =
      (ring.buf.pwrite.toNat + 1) % size.toNat := by
    rw [invariant.size_eq]
    exact advance_toNat invariant.pwrite_lt
  refine { invariant with
    pwrite_lt := ?_
    behind := ?_
    behindStored := ?_
    room := ?_ }
  · change (advance ring.buf.size ring.buf.pwrite).toNat < size.toNat
    rw [moved]
    exact Nat.mod_lt _ (Nat.zero_lt_of_lt invariant.pwrite_lt)
  · intro _
    change (advance ring.buf.size ring.buf.pwrite).toNat = _
    rw [moved]
    exact invariant.behindStored stored
  · exact fun impossible => by cases impossible
  · exact fun impossible => by cases impossible

/-- `LpelBufferTop` changes nothing but what the consumer does next. -/
theorem top
    (invariant : ring.Invariant size)
    (idle : ring.cons = .idle) :
    { ring with
      cons :=
        match lpelBufferTop ring.buf with
        | some item => PopPc.topped item
        | none => PopPc.idle }.Invariant size := by
  have seen := invariant.top_eq (by simp [idle])
  have oldest : ring.oldest = ring.buf.pread.toNat := by
    simp [SharedRing.oldest, idle]
  have segment := invariant.segment
  have behind := invariant.behind
  have behindStored := invariant.behindStored
  rw [oldest] at segment behind behindStored
  cases first : lpelBufferTop ring.buf with
  | none =>
      exact { invariant with
        segment := segment
        behind := behind
        behindStored := behindStored
        topped := fun _ impossible => by cases impossible }
  | some item =>
      refine { invariant with
        segment := segment
        behind := behind
        behindStored := behindStored
        topped := ?_ }
      intro other same
      cases same
      rw [← first]
      exact seen.symm

/-- Clearing the cell takes the oldest unread item. -/
theorem clear
    {item : α}
    (invariant : ring.Invariant size)
    (topped : ring.cons = .topped item) :
    { ring with
      buf := clearCell ring.buf
      cons := PopPc.cleared
      popped := ring.popped ++ [item] }.Invariant size ∧
    ring.unread = item :: SharedRing.unread { ring with
      buf := clearCell ring.buf
      cons := PopPc.cleared
      popped := ring.popped ++ [item] } := by
  have oldest : ring.oldest = ring.buf.pread.toNat := by
    simp [SharedRing.oldest, topped]
  obtain ⟨rest, items⟩ : ∃ rest, ring.unread = item :: rest :=
    List.head?_eq_some_iff.mp (invariant.topped item topped)
  have put : ring.put = (ring.popped ++ [item]) ++ rest := by
    rw [List.append_assoc, List.singleton_append, ← items]
    exact invariant.fifo
  have unread : ring.put.drop (ring.popped ++ [item]).length = rest := by
    rw [put, List.drop_left]
  have segment := invariant.segment
  rw [oldest, items] at segment
  have shifted :
      (ring.buf.pread.toNat + (item :: rest).length) % size.toNat =
        ((ring.buf.pread.toNat + 1) % size.toNat + rest.length) %
          size.toNat := by
    rw [Nat.mod_add_mod, List.length_cons, Nat.add_assoc, Nat.add_comm 1]
  refine ⟨?_, ?_⟩
  · constructor
    case size_eq => exact invariant.size_eq
    case pread_lt => exact invariant.pread_lt
    case pwrite_lt => exact invariant.pwrite_lt
    case fifo =>
      change ring.put = (ring.popped ++ [item]) ++ ring.put.drop _
      rw [unread]
      exact put
    case segment =>
      change CyclicSegment _
        ((ring.buf.pread.toNat + 1) % ring.buf.size.toNat)
        (Function.update ring.buf.data ring.buf.pread.toNat none)
        (ring.put.drop _)
      rw [unread, invariant.size_eq]
      exact segment.pop
    case behind =>
      intro settled
      have behind := invariant.behind settled
      rw [oldest, items, shifted] at behind
      change _ = ((ring.buf.pread.toNat + 1) % ring.buf.size.toNat +
        (ring.put.drop _).length) % _
      rw [unread, invariant.size_eq]
      exact behind
    case behindStored =>
      intro stored
      have behind := invariant.behindStored stored
      rw [oldest, items, shifted] at behind
      change _ = ((ring.buf.pread.toNat + 1) % ring.buf.size.toNat +
        (ring.put.drop _).length) % _
      rw [unread, invariant.size_eq]
      exact behind
    case room =>
      intro tested
      have room := invariant.room tested
      rw [items, List.length_cons] at room
      change (ring.put.drop _).length < _
      rw [unread]
      omega
    case topped => exact fun _ impossible => by cases impossible
  · rw [items]
    exact congrArg (item :: ·) unread.symm

/-- The update of `pread` catches up with the cleared cell. -/
theorem advanceRead
    (invariant : ring.Invariant size)
    (cleared : ring.cons = .cleared) :
    { ring with
      buf := Decen.advanceRead ring.buf
      cons := PopPc.idle }.Invariant size := by
  have moved : (advance ring.buf.size ring.buf.pread).toNat =
      ring.oldest := by
    simp only [SharedRing.oldest, cleared]
    apply advance_toNat
    rw [invariant.size_eq]
    exact invariant.pread_lt
  have oldest : SharedRing.oldest { ring with
      buf := Decen.advanceRead ring.buf
      cons := PopPc.idle } = ring.oldest := moved
  refine { invariant with
    pread_lt := ?_
    segment := ?_
    behind := ?_
    behindStored := ?_
    topped := ?_ }
  · change (advance ring.buf.size ring.buf.pread).toNat < size.toNat
    rw [moved]
    exact invariant.segment.start_lt
  · rw [oldest]
    exact invariant.segment
  · rw [oldest]
    exact invariant.behind
  · rw [oldest]
    exact invariant.behindStored
  · exact fun _ impossible => by cases impossible

end Invariant
end SharedRing

/-- A first-in first-out queue of at most `capacity` items: a store appends its
item, clearing a cell removes the oldest item, and nothing else changes it. -/
def fifoNext (capacity : ℕ) (items : List α) : RingLabel α → Option (List α)
  | .store item =>
      if items.length < capacity then some (items ++ [item]) else none
  | .clear =>
      match items with
      | [] => none
      | _ :: rest => some rest
  | _ => some items

/-- A step keeps the invariant, and it is a step of the queue. -/
theorem SharedRing.Invariant.step
    {size : UInt64}
    {ring after : SharedRing α}
    {label : RingLabel α}
    (invariant : ring.Invariant size)
    (taken : ringNext ring label = some after) :
    after.Invariant size ∧
      fifoNext size.toNat ring.unread label = some after.unread := by
  cases label with
  | test =>
      simp only [ringNext, Option.ite_none_right_eq_some,
        Option.some.injEq] at taken
      obtain ⟨idle, rfl⟩ := taken
      exact ⟨invariant.test idle, rfl⟩
  | store item =>
      simp only [ringNext, Option.ite_none_right_eq_some,
        Option.some.injEq] at taken
      obtain ⟨tested, rfl⟩ := taken
      obtain ⟨kept, unread⟩ := invariant.store tested item
      refine ⟨kept, ?_⟩
      rw [fifoNext, if_pos (invariant.room tested), unread]
  | advanceWrite =>
      simp only [ringNext, Option.ite_none_right_eq_some,
        Option.some.injEq] at taken
      obtain ⟨stored, rfl⟩ := taken
      exact ⟨invariant.advanceWrite stored, rfl⟩
  | top =>
      simp only [ringNext] at taken
      split at taken
      · rename_i idle
        obtain rfl := Option.some.inj taken
        exact ⟨invariant.top idle, rfl⟩
      · cases taken
  | clear =>
      simp only [ringNext] at taken
      split at taken
      · rename_i item topped
        obtain rfl := Option.some.inj taken
        obtain ⟨kept, unread⟩ := invariant.clear topped
        refine ⟨kept, ?_⟩
        rw [unread, fifoNext]
      · cases taken
  | advanceRead =>
      simp only [ringNext] at taken
      split at taken
      · rename_i cleared
        obtain rfl := Option.some.inj taken
        exact ⟨invariant.advanceRead cleared, rfl⟩
      · cases taken

/-- The invariant holds in every state of a ring with a cell. -/
theorem SharedRing.Invariant.ofReachable
    {size : UInt64}
    {ring : SharedRing α}
    (positive : 0 < size)
    (reached : (ringMachine α size).Reachable ring) :
    ring.Invariant size := by
  refine Machine.Reachable.invariant ?_ ?_ reached
  · rintro _ rfl
    exact SharedRing.Invariant.start positive
  · intro _ _ _ invariant taken
    exact (invariant.step taken).1

/-- What the two sides can rely on, and the queue that the ring is. -/
structure SharedRing.IsFifo (size : UInt64) (ring : SharedRing α) : Prop where
  pread_lt : ring.buf.pread.toNat < size.toNat
  pwrite_lt : ring.buf.pwrite.toNat < size.toNat
  /-- The cells that are not `NULL` hold the unread items in order. -/
  segment : CyclicSegment size.toNat ring.oldest ring.buf.data ring.unread
  full : ring.prod = .idle →
    (lpelBufferIsSpace ring.buf = false ↔ ring.unread.length = size.toNat)
  top : ring.cons = .idle → lpelBufferTop ring.buf = ring.unread.head?
  empty : ring.cons = .idle →
    (lpelBufferTop ring.buf = none ↔ ring.unread = [])
  /-- No store overwrites an item. -/
  overwritesNone : ∀ item after, ringNext ring (.store item) = some after →
    ring.buf.data ring.buf.pwrite.toNat = none
  popped_put : ring.popped <+: ring.put
  /-- Every step is a step of the queue. -/
  step : ∀ label after, ringNext ring label = some after →
    fifoNext size.toNat ring.unread label = some after.unread

/-- The ring is a bounded first-in first-out queue for every size and in every
interleaving of its producer with its consumer. -/
theorem ringIsFifo
    {size : UInt64}
    (positive : 0 < size)
    {ring : SharedRing α}
    (reached : (ringMachine α size).Reachable ring) :
    ring.IsFifo size := by
  have invariant := SharedRing.Invariant.ofReachable positive reached
  have fits := invariant.segment.length_le
  refine
    { pread_lt := invariant.pread_lt
      pwrite_lt := invariant.pwrite_lt
      segment := invariant.segment
      full := ?_
      top := ?_
      empty := ?_
      overwritesNone := ?_
      popped_put := ⟨ring.unread, invariant.fifo.symm⟩
      step := fun _ _ taken => (invariant.step taken).2 }
  · intro idle
    rw [← Bool.not_eq_true, invariant.isSpace_iff (by simp [idle])]
    omega
  · intro idle
    exact invariant.top_eq (by simp [idle])
  · intro idle
    rw [invariant.top_eq (by simp [idle]), List.head?_eq_none_iff]
  · intro item after taken
    simp only [ringNext, Option.ite_none_right_eq_some] at taken
    have space := (invariant.isSpace_iff (by simp [taken.1])).mpr
      (invariant.room taken.1)
    exact Option.isNone_iff_eq_none.mp space

/-- The producer stores an item, and the consumer takes it before `pwrite` is
advanced, in a ring of a single cell. -/
def overtaking : List (RingLabel ℕ) :=
  [.test, .store 7, .top, .clear, .advanceRead]

/-- The ring of a single cell is a queue while `pwrite` lags behind. -/
theorem ringIsFifo_overtaking :
    ∃ ring : SharedRing ℕ, (ringMachine ℕ 1).Reachable ring ∧
      (ring.prod = .stored ∧ ring.popped = [7]) ∧ ring.IsFifo 1 := by
  obtain ⟨ring, reached, tested⟩ := Machine.exists_reachable_of_run
    (rfl : (ringMachine ℕ 1).init (ringStart 1))
    (by decide : ((ringMachine ℕ 1).run (ringStart 1) overtaking).map
      (fun ring => decide (ring.prod = .stored ∧ ring.popped = [7])) =
        some true)
  exact ⟨ring, reached, of_decide_eq_true tested,
    ringIsFifo (by decide) reached⟩

end Decen
end Lpel
