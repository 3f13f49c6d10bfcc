import Mathlib.Data.List.Nodup
import Mathlib.Data.Fintype.Card
import Lpel.Decen.SpmdRounds
import Lpel.Lib.CyclicSegment

/-!
# The queue of SPMD requests

The requests that were issued and not yet taken occupy a cyclic segment of the
queue, one slot for each.  A worker has at most one of them, because it issues a
request only while its pending flag is clear; so there is always room for the
next one.  The slot of a request is reserved first, by the addition to the tail,
and published when its `wctx` is written.
-/

namespace Lpel
namespace Decen

variable {n : ℕ} {F A τ : Type}

namespace SpmdPc

/-- The slot that the worker has reserved and not yet published. -/
def reserves : SpmdPc n F A τ → Option ℕ
  | .setWctx tail _ => some tail
  | _ => none

/-- The worker is about to move the head. -/
def movesHead : SpmdPc n F A τ → Bool
  | .moveHead _ _ => true
  | _ => false

/-- The worker is in the part of the critical section that moves the head and
corrects the tail. -/
def correcting : SpmdPc n F A τ → Bool
  | .moveHead _ _ | .loadTail _ | .storeTail _ _ => true
  | _ => false

/-- The pending flag of the worker is set for a request that is not in the
queue: it is not yet there, or the worker is the master of its round. -/
def holds (w : Fin n) : SpmdPc n F A τ → ℕ
  | .append _ | .moveHead _ _ | .loadTail _ | .storeTail _ _ | .signal _ _
  | .stopWait _ _ | .finish _ => 1
  | .exec curreq => if curreq.wctx = w then 1 else 0
  | _ => 0

theorem movesHead_of_correcting
    {pc : SpmdPc n F A τ}
    (outside : pc.correcting = false) :
    pc.movesHead = false := by
  cases pc <;> simp_all [correcting, movesHead]

end SpmdPc

/-- The requests in the queue. -/
def Spmd.waiting (spmd : Spmd n F A τ) : List (Request n F A τ) :=
  spmd.issued.drop spmd.begun

/-- The invariant of the queue, with the request that each slot is for. -/
structure Queue
    (spmd : Spmd n F A τ)
    (cells : ℕ → Option (Request n F A τ)) : Prop where
  segment : CyclicSegment n (spmd.begun % n) cells spmd.waiting
  slots : ∀ slot < n, (spmd.reqQueue slot).wctx =
    (cells slot).bind fun req =>
      if (spmd.thread req.wctx).reserves = some slot then none
      else some req.wctx
  reserved : ∀ w tail req, spmd.thread w = .setWctx tail req →
    tail < n ∧ cells tail = some req
  head : (∀ w, (spmd.thread w).movesHead = false) →
    spmd.qhead = spmd.begun % n
  tail : ∃ corrected, corrected ≤ spmd.issued.length ∧
    spmd.issued.length ≤ corrected + n ∧
    spmd.qtail = corrected % n + (spmd.issued.length - corrected) ∧
    ((∀ w, (spmd.thread w).correcting = false) → spmd.begun ≤ corrected)
  stored : ∀ w tail curreq, spmd.thread w = .storeTail tail curreq →
    tail = spmd.qtail

/-- The invariant of the pending flags. -/
structure Flags (spmd : Spmd n F A τ) : Prop where
  count : ∀ w, spmd.pending w =
    (spmd.waiting.map Request.wctx).count w + (spmd.thread w).holds w
  single : ∀ w, spmd.pending w ≤ 1

section Queue

variable {spmd after : Spmd n F A τ} {w : Fin n}
variable {cells : ℕ → Option (Request n F A τ)}

/-- A worker goes on without touching a slot. -/
theorem Queue.step
    (queue : Queue spmd cells)
    (pc : SpmdPc n F A τ)
    (thread : after.thread = Function.update spmd.thread w pc)
    (wctx : ∀ slot, (after.reqQueue slot).wctx = (spmd.reqQueue slot).wctx)
    (issued : after.issued = spmd.issued)
    (taken : after.taken = spmd.taken)
    (free : (spmd.thread w).reserves = none)
    (free' : pc.reserves = none)
    (head : (∀ u, (after.thread u).movesHead = false) →
      after.qhead = spmd.begun % n)
    (tail : ∃ corrected, corrected ≤ spmd.issued.length ∧
      spmd.issued.length ≤ corrected + n ∧
      after.qtail = corrected % n + (spmd.issued.length - corrected) ∧
      ((∀ u, (after.thread u).correcting = false) → spmd.begun ≤ corrected))
    (stored : ∀ u tail curreq, after.thread u = .storeTail tail curreq →
      tail = after.qtail) :
    Queue after cells := by
  have begun : after.begun = spmd.begun := congrArg List.length taken
  have waiting : after.waiting = spmd.waiting := by
    rw [Spmd.waiting, issued, begun]
    rfl
  have reserves (u : Fin n) :
      (after.thread u).reserves = (spmd.thread u).reserves := by
    rw [thread]
    by_cases same : u = w
    · subst same
      rw [Function.update_self, free, free']
    · rw [Function.update_of_ne same]
  constructor
  case segment =>
    rw [begun, waiting]
    exact queue.segment
  case slots =>
    intro slot inside
    rw [wctx]
    simp only [reserves]
    exact queue.slots slot inside
  case reserved =>
    intro u tail req position
    have distinct : u ≠ w := by
      rintro rfl
      rw [thread, Function.update_self] at position
      rw [position] at free'
      exact absurd free' (by simp [SpmdPc.reserves])
    rw [thread, Function.update_of_ne distinct] at position
    exact queue.reserved u tail req position
  case head =>
    rw [begun]
    exact head
  case tail =>
    rw [issued, begun]
    exact tail
  case stored => exact stored

/-- A worker goes on without touching the queue. -/
theorem Queue.goOn
    (queue : Queue spmd cells)
    (pc : SpmdPc n F A τ)
    (thread : after.thread = Function.update spmd.thread w pc)
    (wctx : ∀ slot, (after.reqQueue slot).wctx = (spmd.reqQueue slot).wctx)
    (qhead : after.qhead = spmd.qhead)
    (qtail : after.qtail = spmd.qtail)
    (issued : after.issued = spmd.issued)
    (taken : after.taken = spmd.taken)
    (free : (spmd.thread w).reserves = none)
    (free' : pc.reserves = none)
    (outside : (spmd.thread w).correcting = false)
    (outside' : pc.correcting = false) :
    Queue after cells := by
  have correcting (u : Fin n) :
      (after.thread u).correcting = (spmd.thread u).correcting := by
    rw [thread]
    by_cases same : u = w
    · subst same
      rw [Function.update_self, outside, outside']
    · rw [Function.update_of_ne same]
  have movesHead (u : Fin n) :
      (after.thread u).movesHead = (spmd.thread u).movesHead := by
    rw [thread]
    by_cases same : u = w
    · subst same
      rw [Function.update_self, SpmdPc.movesHead_of_correcting outside,
        SpmdPc.movesHead_of_correcting outside']
    · rw [Function.update_of_ne same]
  refine queue.step pc thread wctx issued taken free free' ?_ ?_ ?_
  · rw [qhead]
    simp only [movesHead]
    exact queue.head
  · rw [qtail]
    simp only [correcting]
    exact queue.tail
  · intro u tail curreq position
    have distinct : u ≠ w := by
      rintro rfl
      rw [thread, Function.update_self] at position
      rw [position] at outside'
      exact absurd outside' (by simp [SpmdPc.correcting])
    rw [thread, Function.update_of_ne distinct] at position
    rw [qtail]
    exact queue.stored u tail curreq position

/-- A worker goes on, and its flag follows. -/
theorem Flags.goOn
    (flags : Flags spmd)
    (pc : SpmdPc n F A τ)
    (pending : ℕ)
    (thread : after.thread = Function.update spmd.thread w pc)
    (flag : after.pending = Function.update spmd.pending w pending)
    (issued : after.issued = spmd.issued)
    (taken : after.taken = spmd.taken)
    (account : pending + (spmd.thread w).holds w =
      spmd.pending w + pc.holds w)
    (single : pending ≤ 1) :
    Flags after := by
  have begun : after.begun = spmd.begun := congrArg List.length taken
  have waiting : after.waiting = spmd.waiting := by
    rw [Spmd.waiting, issued, begun]
    rfl
  constructor
  · intro u
    rw [waiting, flag, thread]
    have count := flags.count u
    by_cases same : u = w
    · subst same
      simp only [Function.update_self]
      omega
    · simpa only [Function.update_of_ne same] using count
  · intro u
    rw [flag]
    by_cases same : u = w
    · subst same
      simpa using single
    · simpa [same] using flags.single u

/-- No worker has two requests. -/
theorem Flags.nodup
    (flags : Flags spmd) :
    (spmd.waiting.map Request.wctx).Nodup := by
  rw [List.nodup_iff_count_le_one]
  intro u
  have count := flags.count u
  have single := flags.single u
  omega

/-- There is room for the request of a worker that holds its flag. -/
theorem Flags.room
    (flags : Flags spmd)
    (held : (spmd.thread w).holds w = 1) :
    spmd.waiting.length < n := by
  have count := flags.count w
  have single := flags.single w
  have notWaiting : w ∉ spmd.waiting.map Request.wctx := by
    rw [← List.count_eq_zero]
    omega
  have distinct : (w :: spmd.waiting.map Request.wctx).Nodup :=
    List.nodup_cons.mpr ⟨notWaiting, flags.nodup⟩
  have bound := distinct.length_le_card
  simp only [List.length_cons, List.length_map, Fintype.card_fin] at bound
  omega

/-- In the critical section behind the start barrier no other worker is in one,
and no slot is reserved. -/
theorem Rounds.alone
    (rounds : Rounds spmd)
    (critical : (spmd.thread w).correcting = true)
    (u : Fin n)
    (distinct : u ≠ w) :
    ∃ curreq, spmd.thread u = .wait curreq ∧
      spmd.round u + 1 = spmd.begun := by
  have ok := rounds.ok w
  cases position : spmd.thread w <;>
    rw [position] at critical ok
  case moveHead =>
    exact rounds.all_wait ok.1 ok.2.2.2 (by simp [position, SpmdPc.posted]) u
      distinct
  case loadTail =>
    exact rounds.all_wait ok.1 ok.2.2 (by simp [position, SpmdPc.posted]) u
      distinct
  case storeTail =>
    exact rounds.all_wait ok.1 ok.2.2 (by simp [position, SpmdPc.posted]) u
      distinct
  all_goals exact absurd critical (by simp [SpmdPc.correcting])

/-- A worker that does not wait is in no critical section of another one. -/
theorem Rounds.not_correcting
    (rounds : Rounds spmd)
    (w : Fin n)
    (moves : ∀ curreq, spmd.thread w ≠ .wait curreq)
    (outside : (spmd.thread w).correcting = false)
    (u : Fin n) :
    (spmd.thread u).correcting = false := by
  by_contra critical
  have distinct : w ≠ u := by
    rintro rfl
    exact critical outside
  obtain ⟨curreq, position, -⟩ := rounds.alone (by simpa using critical) w
    distinct
  exact moves curreq position

theorem Rounds.begun_le
    (rounds : Rounds spmd) :
    spmd.begun ≤ spmd.issued.length := by
  have bound := rounds.ordered.length_le
  rwa [Spmd.masters, List.length_map] at bound

/-- A request is appended. -/
theorem waiting_fetchAdd
    (rounds : Rounds spmd)
    (w : Fin n)
    (req : Request n F A τ) :
    (spmd.fetchAdd w req).waiting = spmd.waiting ++ [req] := by
  change (spmd.issued ++ [req]).drop spmd.begun = _
  rw [List.drop_append_of_le_length rounds.begun_le]
  rfl

/-- The slot that the addition returns is the one behind the last request. -/
theorem Queue.qtail_mod
    (queue : Queue spmd cells)
    (rounds : Rounds spmd) :
    spmd.qtail % n = (spmd.begun % n + spmd.waiting.length) % n := by
  obtain ⟨corrected, below, -, qtail, -⟩ := queue.tail
  have begun := rounds.begun_le
  have length : spmd.waiting.length = spmd.issued.length - spmd.begun :=
    List.length_drop
  rw [qtail, length, Nat.mod_add_mod, Nat.mod_add_mod]
  congr 1
  omega

/-- A worker reserves a slot. -/
theorem Queue.fetchAdd
    (queue : Queue spmd cells)
    (rounds : Rounds spmd)
    (flags : Flags spmd)
    {req : Request n F A τ}
    (position : spmd.thread w = .append req) :
    Queue (spmd.fetchAdd w req)
      (Function.update cells (spmd.qtail % n) (some req)) := by
  have quiet := rounds.not_correcting w (by simp [position])
    (by simp [position, SpmdPc.correcting])
  have room := flags.room (w := w) (by simp [position, SpmdPc.holds])
  have own : req.wctx = w := by
    have ok := rounds.ok w
    rw [position] at ok
    exact ok.2
  have positive : 0 < n := w.pos
  have slot := queue.qtail_mod rounds
  have free : cells (spmd.qtail % n) = none := by
    rw [slot]
    exact queue.segment.behind_eq_none_iff.mpr room
  constructor
  case segment =>
    rw [waiting_fetchAdd rounds, slot]
    exact queue.segment.push room req
  case slots =>
    intro other inside
    change (spmd.reqQueue other).wctx = _
    rw [queue.slots other inside]
    simp only [Spmd.fetchAdd]
    by_cases here : other = spmd.qtail % n
    · subst here
      simp [free, own, SpmdPc.reserves]
    · rw [Function.update_of_ne here]
      refine congrArg (Option.bind (cells other)) ?_
      funext req'
      by_cases same : req'.wctx = w
      · simp [same, position, SpmdPc.reserves, Ne.symm here]
      · simp [same]
  case reserved =>
    intro u tail req' reserves
    simp only [Spmd.fetchAdd] at reserves
    by_cases same : u = w
    · subst same
      rw [Function.update_self] at reserves
      obtain ⟨rfl, rfl⟩ := SpmdPc.setWctx.inj reserves
      exact ⟨Nat.mod_lt _ positive, Function.update_self ..⟩
    · rw [Function.update_of_ne same] at reserves
      obtain ⟨inside, cell⟩ := queue.reserved u tail req' reserves
      have distinct : tail ≠ spmd.qtail % n := by
        rintro rfl
        rw [free] at cell
        exact absurd cell (by simp)
      exact ⟨inside, by rw [Function.update_of_ne distinct, cell]⟩
  case head =>
    intro _
    exact queue.head fun u => SpmdPc.movesHead_of_correcting (quiet u)
  case tail =>
    obtain ⟨corrected, below, -, qtail, begun⟩ := queue.tail
    have caughtUp := begun quiet
    have length : spmd.waiting.length = spmd.issued.length - spmd.begun :=
      List.length_drop
    have inside := rounds.begun_le
    refine ⟨corrected, ?_, ?_, ?_, fun _ => caughtUp⟩
    all_goals
      simp only [Spmd.fetchAdd, List.length_append, List.length_singleton]
      omega
  case stored =>
    intro u tail curreq stores
    simp only [Spmd.fetchAdd] at stores
    by_cases same : u = w
    · subst same
      rw [Function.update_self] at stores
      exact absurd stores (by simp)
    · rw [Function.update_of_ne same] at stores
      have outside := quiet u
      rw [stores] at outside
      exact absurd outside (by simp [SpmdPc.correcting])

/-- A request is published. -/
theorem Queue.publish
    (queue : Queue spmd cells)
    (rounds : Rounds spmd)
    {tail : ℕ}
    {req : Request n F A τ}
    (position : spmd.thread w = .setWctx tail req) :
    Queue ((spmd.setSlot tail
      { spmd.reqQueue tail with wctx := some req.wctx }).setThread w
        (.setFunc tail req)) cells := by
  have own : req.wctx = w := by
    have ok := rounds.ok w
    rw [position] at ok
    exact ok.2
  obtain ⟨inside, cell⟩ := queue.reserved w tail req position
  have correcting (u : Fin n) :
      (Function.update spmd.thread w (.setFunc tail req) u).correcting =
        (spmd.thread u).correcting := by
    by_cases same : u = w
    · subst same
      simp [position, SpmdPc.correcting]
    · rw [Function.update_of_ne same]
  have movesHead (u : Fin n) :
      (Function.update spmd.thread w (.setFunc tail req) u).movesHead =
        (spmd.thread u).movesHead := by
    by_cases same : u = w
    · subst same
      simp [position, SpmdPc.movesHead]
    · rw [Function.update_of_ne same]
  constructor
  case segment => exact queue.segment
  case slots =>
    intro other within
    simp only [Spmd.setSlot, Spmd.setThread]
    by_cases here : other = tail
    · subst here
      simp [cell, own, SpmdPc.reserves]
    · rw [Function.update_of_ne here, queue.slots other within]
      refine congrArg (Option.bind (cells other)) ?_
      funext req'
      by_cases same : req'.wctx = w
      · simp [same, position, SpmdPc.reserves, Ne.symm here]
      · simp [same]
  case reserved =>
    intro u tail' req' reserves
    simp only [Spmd.setSlot, Spmd.setThread] at reserves
    by_cases same : u = w
    · subst same
      rw [Function.update_self] at reserves
      exact absurd reserves (by simp)
    · rw [Function.update_of_ne same] at reserves
      exact queue.reserved u tail' req' reserves
  case head =>
    intro still
    exact queue.head fun u => (movesHead u).symm.trans (still u)
  case tail =>
    obtain ⟨corrected, below, above, qtail, begun⟩ := queue.tail
    refine ⟨corrected, below, above, qtail, ?_⟩
    intro still
    exact begun fun u => (correcting u).symm.trans (still u)
  case stored =>
    intro u tail' curreq stores
    simp only [Spmd.setSlot, Spmd.setThread] at stores
    by_cases same : u = w
    · subst same
      rw [Function.update_self] at stores
      exact absurd stores (by simp)
    · rw [Function.update_of_ne same] at stores
      exact queue.stored u tail' curreq stores

/-- The request that a master takes is the first one in the queue. -/
theorem first_waiting
    {m : Fin n}
    (master : spmd.masters[spmd.begun]? = some m) :
    ∃ req, req.wctx = m ∧ spmd.issued[spmd.begun]? = some req ∧
      spmd.waiting = req :: spmd.issued.drop (spmd.begun + 1) := by
  rw [Spmd.masters, List.getElem?_map, Option.map_eq_some_iff] at master
  obtain ⟨req, first, own⟩ := master
  refine ⟨req, own, first, ?_⟩
  obtain ⟨inside, equal⟩ := List.getElem?_eq_some_iff.mp first
  rw [Spmd.waiting, List.drop_eq_getElem_cons inside, equal]

/-- A request is taken. -/
theorem Queue.takeRequest
    (queue : Queue spmd cells)
    (rounds : Rounds spmd)
    {head : ℕ}
    {curreq : Request n F A τ}
    (position : spmd.thread w = .invalidate head curreq) :
    Queue (spmd.takeRequest w head curreq)
      (Function.update cells head none) := by
  have ok := rounds.ok w
  rw [position] at ok
  obtain ⟨early, atHead, -, master⟩ := ok
  rw [early] at master
  have begun : (spmd.takeRequest w head curreq).begun = spmd.begun + 1 :=
    List.length_append
  obtain ⟨-, all⟩ := rounds.all_knock position
  have waits (u : Fin n) (distinct : u ≠ w) :
      ∃ req, spmd.thread u = .wait req := by
    obtain ⟨⟨req, waiting, -⟩, -⟩ :=
      rounds.of_knocks (by rw [all u distinct]; exact one_ne_zero)
    exact ⟨req, waiting⟩
  have nobody {u : Fin n} {pc : SpmdPc n F A τ}
      (there : (spmd.takeRequest w head curreq).thread u = pc) :
      pc = .moveHead head curreq ∨ ∃ req, pc = .wait req := by
    change Function.update spmd.thread w (.moveHead head curreq) u = pc at there
    by_cases same : u = w
    · subst same
      rw [Function.update_self] at there
      exact .inl there.symm
    · obtain ⟨req, waiting⟩ := waits u same
      rw [Function.update_of_ne same, waiting] at there
      exact .inr ⟨req, there.symm⟩
  have itself : (spmd.takeRequest w head curreq).thread w =
      .moveHead head curreq :=
    Function.update_self ..
  constructor
  case segment =>
    obtain ⟨req, -, -, first⟩ := first_waiting master
    have segment := queue.segment
    rw [first] at segment
    have popped := segment.pop
    rw [Nat.mod_add_mod, ← atHead] at popped
    rw [Spmd.waiting, begun]
    exact popped
  case slots =>
    intro slot inside
    change (Function.update spmd.reqQueue head _ slot).wctx = _
    by_cases here : slot = head
    · subst here
      simp
    · rw [Function.update_of_ne here, Function.update_of_ne here,
        queue.slots slot inside]
      refine congrArg (Option.bind (cells slot)) ?_
      funext req
      by_cases same : req.wctx = w
      · rw [same, itself, position]
        rfl
      · obtain ⟨req', waiting⟩ := waits req.wctx same
        have still : (spmd.takeRequest w head curreq).thread req.wctx =
            .wait req' :=
          (Function.update_of_ne same ..).trans waiting
        rw [still, waiting]
  case reserved =>
    intro u tail req there
    obtain other | ⟨req', other⟩ := nobody there
    · exact absurd other (by simp)
    · exact absurd other (by simp)
  case head =>
    intro still
    have moves := still w
    rw [itself] at moves
    exact absurd moves (by simp [SpmdPc.movesHead])
  case tail =>
    obtain ⟨corrected, below, above, qtail, -⟩ := queue.tail
    refine ⟨corrected, below, above, qtail, ?_⟩
    intro still
    have critical := still w
    rw [itself] at critical
    exact absurd critical (by simp [SpmdPc.correcting])
  case stored =>
    intro u tail req there
    obtain other | ⟨req', other⟩ := nobody there
    · exact absurd other (by simp)
    · exact absurd other (by simp)

/-- The head is moved. -/
theorem Queue.moveHead
    (queue : Queue spmd cells)
    (rounds : Rounds spmd)
    {head : ℕ}
    {curreq : Request n F A τ}
    (position : spmd.thread w = .moveHead head curreq) :
    Queue { spmd.setThread w (.loadTail curreq) with qhead := (head + 1) % n }
      cells := by
  have ok := rounds.ok w
  rw [position] at ok
  obtain ⟨late, atHead, -, -⟩ := ok
  refine queue.step (.loadTail curreq) rfl (fun _ => rfl) rfl rfl
    (by rw [position]; rfl) rfl ?_ ?_ ?_
  · intro _
    change (head + 1) % n = _
    rw [atHead, Nat.mod_add_mod, late]
  · obtain ⟨corrected, below, above, qtail, -⟩ := queue.tail
    refine ⟨corrected, below, above, qtail, ?_⟩
    intro still
    have critical := still w
    simp [Spmd.setThread, SpmdPc.correcting] at critical
  · intro u tail req there
    change Function.update spmd.thread w (.loadTail curreq) u = _ at there
    by_cases same : u = w
    · subst same
      rw [Function.update_self] at there
      exact absurd there (by simp)
    · rw [Function.update_of_ne same] at there
      exact queue.stored u tail req there

/-- The tail is loaded. -/
theorem Queue.loadTail
    (queue : Queue spmd cells)
    (rounds : Rounds spmd)
    {curreq : Request n F A τ}
    (position : spmd.thread w = .loadTail curreq) :
    Queue (spmd.setThread w (.storeTail spmd.qtail curreq)) cells := by
  have alone := rounds.alone (w := w) (by rw [position]; rfl)
  refine queue.step (.storeTail spmd.qtail curreq) rfl (fun _ => rfl) rfl rfl
    (by rw [position]; rfl) rfl ?_ ?_ ?_
  · intro _
    refine queue.head ?_
    intro u
    by_cases same : u = w
    · subst same
      rw [position]
      rfl
    · obtain ⟨req, waiting, -⟩ := alone u same
      rw [waiting]
      rfl
  · obtain ⟨corrected, below, above, qtail, -⟩ := queue.tail
    refine ⟨corrected, below, above, qtail, ?_⟩
    intro still
    have critical := still w
    simp [Spmd.setThread, SpmdPc.correcting] at critical
  · intro u tail req there
    change Function.update spmd.thread w (.storeTail spmd.qtail curreq) u =
      _ at there
    by_cases same : u = w
    · subst same
      rw [Function.update_self] at there
      exact (SpmdPc.storeTail.inj there).1.symm
    · rw [Function.update_of_ne same] at there
      exact queue.stored u tail req there

/-- The tail is corrected. -/
theorem Queue.storeTail
    (queue : Queue spmd cells)
    (rounds : Rounds spmd)
    {tail : ℕ}
    {curreq : Request n F A τ}
    (position : spmd.thread w = .storeTail tail curreq) :
    Queue { spmd.setThread w (.signal curreq 0) with
      qtail := if n ≤ tail then tail % n else tail } cells := by
  have alone := rounds.alone (w := w) (by rw [position]; rfl)
  have loaded := queue.stored w tail curreq position
  refine queue.step (.signal curreq 0) rfl (fun _ => rfl) rfl rfl
    (by rw [position]; rfl) rfl ?_ ?_ ?_
  · intro _
    refine queue.head ?_
    intro u
    by_cases same : u = w
    · subst same
      rw [position]
      rfl
    · obtain ⟨req, waiting, -⟩ := alone u same
      rw [waiting]
      rfl
  · obtain ⟨corrected, below, above, qtail, -⟩ := queue.tail
    refine ⟨spmd.issued.length, le_refl _, by omega, ?_, ?_⟩
    · have reduced : tail % n = spmd.issued.length % n := by
        rw [loaded, qtail, Nat.mod_add_mod]
        congr 1
        omega
      change (if n ≤ tail then tail % n else tail) = _
      split
      case isTrue => omega
      case isFalse inside =>
        rw [Nat.mod_eq_of_lt (by omega)] at reduced
        omega
    · intro _
      exact rounds.begun_le
  · intro u tail' req there
    change Function.update spmd.thread w (.signal curreq 0) u = _ at there
    by_cases same : u = w
    · subst same
      rw [Function.update_self] at there
      exact absurd there (by simp)
    · obtain ⟨req', waiting, -⟩ := alone u same
      rw [Function.update_of_ne same, waiting] at there
      exact absurd there (by simp)

theorem Flags.fetchAdd
    (flags : Flags spmd)
    (rounds : Rounds spmd)
    {req : Request n F A τ}
    (position : spmd.thread w = .append req) :
    Flags (spmd.fetchAdd w req) := by
  have own : req.wctx = w := by
    have ok := rounds.ok w
    rw [position] at ok
    exact ok.2
  refine ⟨?_, flags.single⟩
  intro u
  have count := flags.count u
  rw [waiting_fetchAdd rounds, List.map_append, List.count_append]
  change spmd.pending u = _ + SpmdPc.holds u
    (Function.update spmd.thread w (.setWctx (spmd.qtail % n) req) u)
  by_cases same : u = w
  · subst same
    rw [position] at count
    simpa [own, SpmdPc.holds] using count
  · have other : w ≠ u := Ne.symm same
    simpa [same, own, other] using count

theorem Flags.takeRequest
    (flags : Flags spmd)
    (rounds : Rounds spmd)
    {head : ℕ}
    {curreq : Request n F A τ}
    (position : spmd.thread w = .invalidate head curreq) :
    Flags (spmd.takeRequest w head curreq) := by
  have ok := rounds.ok w
  rw [position] at ok
  obtain ⟨early, -, -, master⟩ := ok
  rw [early] at master
  obtain ⟨req, own, -, first⟩ := first_waiting master
  have begun : (spmd.takeRequest w head curreq).begun = spmd.begun + 1 :=
    List.length_append
  refine ⟨?_, flags.single⟩
  intro u
  have count := flags.count u
  rw [first, List.map_cons, own] at count
  rw [Spmd.waiting, begun]
  change spmd.pending u = ((spmd.issued.drop (spmd.begun + 1)).map
    Request.wctx).count u + SpmdPc.holds u
      (Function.update spmd.thread w (.moveHead head curreq) u)
  by_cases same : u = w
  · subst same
    rw [position, List.count_cons_self] at count
    simpa [SpmdPc.holds] using count
  · have other : w ≠ u := Ne.symm same
    rw [List.count_cons_of_ne other] at count
    simpa [same] using count

end Queue

end Decen
end Lpel
