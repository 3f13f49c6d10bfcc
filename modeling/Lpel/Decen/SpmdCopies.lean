import Lpel.Decen.SpmdPublication

/-!
# The copies of an SPMD request

`wctx` is both the flag that publishes a request and the first of its fields to
be written.  A worker that copies the request before the other fields are written
gets those of an older request, or what was in the memory.  If no worker does so,
every copy is the request as it was issued.
-/

namespace Lpel
namespace Decen

variable {n : ℕ} {F A τ : Type}

namespace SpmdPc

/-- The slot and the request that the worker is writing. -/
def writes : SpmdPc n F A τ → Option (ℕ × Request n F A τ)
  | .setWctx tail req | .setFunc tail req | .setArg tail req
  | .setTask tail req => some (tail, req)
  | _ => none

/-- What the worker of a request has written to its slot. -/
def Stored (slot : Spmdreq n F A τ) (req : Request n F A τ) :
    SpmdPc n F A τ → Prop
  | .setWctx _ _ | .setFunc _ _ => True
  | .setArg _ _ => slot.func = req.func
  | .setTask _ _ => slot.func = req.func ∧ slot.arg = req.arg
  | _ => slot.func = req.func ∧ slot.arg = req.arg ∧ slot.task = req.task

end SpmdPc

/-- The requests in the queue and the copies of the current one. -/
structure Written (spmd : Spmd n F A τ) : Prop where
  own : ∀ w tail req, (spmd.thread w).writes = some (tail, req) →
    ∃ i, spmd.begun ≤ i ∧ spmd.issued[i]? = some req ∧ tail = i % n
  stored : ∀ i req, spmd.begun ≤ i → spmd.issued[i]? = some req →
    (spmd.thread req.wctx).Stored (spmd.reqQueue (i % n)) req
  agreed : ∀ w curreq, (spmd.thread w).curreq = some curreq →
    spmd.issued[spmd.round w]? = some curreq

section Slots

variable {spmd after : Spmd n F A τ} {w : Fin n}

/-- A worker that has finished writing has written all fields. -/
theorem SpmdPc.Stored.complete
    {slot : Spmdreq n F A τ}
    {req : Request n F A τ}
    {pc : SpmdPc n F A τ}
    (stored : pc.Stored slot req)
    (done : pc.writes = none) :
    slot.func = req.func ∧ slot.arg = req.arg ∧ slot.task = req.task := by
  cases pc <;> simp_all [SpmdPc.Stored, SpmdPc.writes]

theorem SpmdPc.stored_of_complete
    {slot : Spmdreq n F A τ}
    {req : Request n F A τ}
    (complete : slot.func = req.func ∧ slot.arg = req.arg ∧
      slot.task = req.task)
    (pc : SpmdPc n F A τ) :
    pc.Stored slot req := by
  cases pc <;> simp_all [SpmdPc.Stored]

/-- Only the other fields of a slot matter. -/
theorem SpmdPc.Stored.congr
    {slot slot' : Spmdreq n F A τ}
    {req : Request n F A τ}
    {pc : SpmdPc n F A τ}
    (stored : pc.Stored slot req)
    (func : slot'.func = slot.func)
    (arg : slot'.arg = slot.arg)
    (task : slot'.task = slot.task) :
    pc.Stored slot' req := by
  cases pc <;> simp_all [SpmdPc.Stored]

/-- A request in the queue is known by its worker. -/
theorem Sound.index_of_wctx
    (sound : Sound spmd)
    {i j : ℕ}
    {req req' : Request n F A τ}
    (queued : spmd.begun ≤ i)
    (queued' : spmd.begun ≤ j)
    (issued : spmd.issued[i]? = some req)
    (issued' : spmd.issued[j]? = some req')
    (same : req.wctx = req'.wctx) :
    i = j := by
  have at_ {k : ℕ} {r : Request n F A τ} (inside : spmd.begun ≤ k)
      (here : spmd.issued[k]? = some r) :
      (spmd.waiting.map Request.wctx)[k - spmd.begun]? = some r.wctx := by
    rw [List.getElem?_map, Spmd.waiting, List.getElem?_drop,
      Nat.add_sub_cancel' inside, here]
    rfl
  have first := at_ queued issued
  have second := at_ queued' issued'
  rw [← same, ← first] at second
  have inside := (List.getElem?_eq_some_iff.mp first).1
  have equal := (List.getElem?_inj inside sound.flags.nodup).mp second.symm
  omega

/-- and by its slot. -/
theorem Sound.index_of_slot
    (sound : Sound spmd)
    {i j : ℕ}
    {req req' : Request n F A τ}
    (queued : spmd.begun ≤ i)
    (queued' : spmd.begun ≤ j)
    (issued : spmd.issued[i]? = some req)
    (issued' : spmd.issued[j]? = some req')
    (same : i % n = j % n) :
    i = j := by
  obtain ⟨cells, queue⟩ := sound.queue
  have bound := queue.segment.length_le
  rw [Spmd.waiting, List.length_drop] at bound
  have inside := (List.getElem?_eq_some_iff.mp issued).1
  have inside' := (List.getElem?_eq_some_iff.mp issued').1
  have equal : (spmd.begun + (i - spmd.begun)) % n =
      (spmd.begun + (j - spmd.begun)) % n := by
    rw [Nat.add_sub_cancel' queued, Nat.add_sub_cancel' queued']
    exact same
  have offsets := CyclicSegment.offset_injective (by omega) (by omega) equal
  omega

/-- A worker goes on without writing to the queue. -/
theorem Written.goOn
    (written : Written spmd)
    (pc : SpmdPc n F A τ)
    (thread : after.thread = Function.update spmd.thread w pc)
    (reqQueue : after.reqQueue = spmd.reqQueue)
    (issued : after.issued = spmd.issued)
    (taken : after.taken = spmd.taken)
    (round : ∀ u, u ≠ w → after.round u = spmd.round u)
    (done : (spmd.thread w).writes = none)
    (done' : pc.writes = none)
    (agreed : ∀ curreq, pc.curreq = some curreq →
      spmd.issued[after.round w]? = some curreq) :
    Written after := by
  have begun : after.begun = spmd.begun := congrArg List.length taken
  refine ⟨?_, ?_, ?_⟩
  · intro u tail req writes
    rw [begun, issued]
    by_cases same : u = w
    · subst same
      rw [thread, Function.update_self, done'] at writes
      exact absurd writes (by simp)
    · rw [thread, Function.update_of_ne same] at writes
      exact written.own u tail req writes
  · intro i req queued here
    rw [begun] at queued
    rw [issued] at here
    have stored := written.stored i req queued here
    rw [reqQueue, thread]
    by_cases same : req.wctx = w
    · rw [same] at stored ⊢
      exact SpmdPc.stored_of_complete (stored.complete done) _
    · rw [Function.update_of_ne same]
      exact stored
  · intro u curreq copied
    rw [issued]
    by_cases same : u = w
    · subst same
      rw [thread, Function.update_self] at copied
      exact agreed curreq copied
    · rw [thread, Function.update_of_ne same] at copied
      rw [round u same]
      exact written.agreed u curreq copied

/-- A worker goes on in its round. -/
theorem Written.inRound
    (written : Written spmd)
    (pc : SpmdPc n F A τ)
    (thread : after.thread = Function.update spmd.thread w pc)
    (reqQueue : after.reqQueue = spmd.reqQueue)
    (issued : after.issued = spmd.issued)
    (taken : after.taken = spmd.taken)
    (round : after.round = spmd.round)
    (done : (spmd.thread w).writes = none)
    (done' : pc.writes = none)
    (carried : ∀ curreq, pc.curreq = some curreq →
      (spmd.thread w).curreq = some curreq) :
    Written after := by
  refine written.goOn pc thread reqQueue issued taken ?_ done done' ?_
  · intro u _
    rw [round]
  · intro curreq copied
    rw [round]
    exact written.agreed w curreq (carried curreq copied)

theorem Written.takeToken
    (written : Written spmd)
    (pc : SpmdPc n F A τ)
    (taken : (spmd.semWait w).map (fun spmd => spmd.setThread w pc) =
      some after)
    (done : (spmd.thread w).writes = none)
    (done' : pc.writes = none)
    (carried : ∀ curreq, pc.curreq = some curreq →
      (spmd.thread w).curreq = some curreq) :
    Written after := by
  unfold Spmd.semWait at taken
  split at taken
  case isFalse => exact absurd taken (by simp)
  case isTrue =>
    obtain rfl := Option.some.inj taken
    exact written.inRound pc rfl rfl rfl rfl rfl done done' carried

/-- A worker writes to the slot that it has reserved. -/
theorem Written.write
    (written : Written spmd)
    (sound : Sound spmd)
    {tail : ℕ}
    {req : Request n F A τ}
    (writes : (spmd.thread w).writes = some (tail, req))
    (own : req.wctx = w)
    (slot : Spmdreq n F A τ)
    (pc : SpmdPc n F A τ)
    (goesOn : ∀ tail' req', pc.writes = some (tail', req') →
      (tail', req') = (tail, req))
    (stored : (spmd.thread w).Stored (spmd.reqQueue tail) req →
      pc.Stored slot req)
    (between : pc.curreq = none) :
    Written ((spmd.setSlot tail slot).setThread w pc) := by
  obtain ⟨i, queued, here, rfl⟩ := written.own w tail req writes
  have thread : ((spmd.setSlot (i % n) slot).setThread w pc).thread =
      Function.update spmd.thread w pc := rfl
  refine ⟨?_, ?_, ?_⟩
  · intro u tail' req' writes'
    rw [thread] at writes'
    by_cases same : u = w
    · subst same
      rw [Function.update_self] at writes'
      obtain ⟨rfl, rfl⟩ := Prod.mk.inj (goesOn tail' req' writes')
      exact ⟨i, queued, here, rfl⟩
    · rw [Function.update_of_ne same] at writes'
      exact written.own u tail' req' writes'
  · intro j req' queued' here'
    change (Function.update spmd.thread w pc req'.wctx).Stored
      (Function.update spmd.reqQueue (i % n) slot (j % n)) req'
    by_cases index : j = i
    · subst index
      obtain rfl := Option.some.inj (here.symm.trans here')
      rw [own, Function.update_self, Function.update_self]
      refine stored ?_
      have before := written.stored j req queued here
      rwa [own] at before
    · have otherSlot : j % n ≠ i % n := fun same =>
        index (sound.index_of_slot queued' queued here' here same)
      have otherWorker : req'.wctx ≠ w := fun same =>
        index (sound.index_of_wctx queued' queued here' here
          (same.trans own.symm))
      rw [Function.update_of_ne otherSlot, Function.update_of_ne otherWorker]
      exact written.stored j req' queued' here'
  · intro u curreq copied
    rw [thread] at copied
    by_cases same : u = w
    · subst same
      rw [Function.update_self, between] at copied
      exact absurd copied (by simp)
    · rw [Function.update_of_ne same] at copied
      exact written.agreed u curreq copied

/-- A worker reserves the slot behind the last request. -/
theorem Written.fetchAdd
    (written : Written spmd)
    (sound : Sound spmd)
    {req : Request n F A τ}
    (position : spmd.thread w = .append req) :
    Written (spmd.fetchAdd w req) := by
  obtain ⟨cells, queue⟩ := sound.queue
  have own : req.wctx = w := by
    have ok := sound.rounds.ok w
    rw [position] at ok
    exact ok.2
  have begun := sound.rounds.begun_le
  have slot : spmd.qtail % n = spmd.issued.length % n := by
    rw [queue.qtail_mod sound.rounds, Nat.mod_add_mod, Spmd.waiting,
      List.length_drop, Nat.add_sub_cancel' begun]
  have keeps {i : ℕ} {req' : Request n F A τ}
      (here : spmd.issued[i]? = some req') :
      (spmd.issued ++ [req])[i]? = some req' := by
    rw [List.getElem?_append_left (List.getElem?_eq_some_iff.mp here).1]
    exact here
  refine ⟨?_, ?_, ?_⟩
  · intro u tail req' writes
    change (Function.update spmd.thread w (.setWctx (spmd.qtail % n) req)
      u).writes = _ at writes
    by_cases same : u = w
    · subst same
      rw [Function.update_self] at writes
      obtain ⟨rfl, rfl⟩ := Prod.mk.inj (Option.some.inj writes)
      exact ⟨spmd.issued.length, begun, List.getElem?_concat_length, slot⟩
    · rw [Function.update_of_ne same] at writes
      obtain ⟨i, queued, here, there⟩ := written.own u tail req' writes
      exact ⟨i, queued, keeps here, there⟩
  · intro i req' queued here
    change (Function.update spmd.thread w (.setWctx (spmd.qtail % n) req)
      req'.wctx).Stored (spmd.reqQueue (i % n)) req'
    by_cases same : req'.wctx = w
    · rw [same, Function.update_self]
      trivial
    · rw [Function.update_of_ne same]
      refine written.stored i req' queued ?_
      change (spmd.issued ++ [req])[i]? = some req' at here
      rw [List.getElem?_append] at here
      split at here
      case isTrue => exact here
      case isFalse =>
        obtain rfl := List.mem_singleton.mp (List.mem_of_getElem? here)
        exact absurd own same
  · intro u curreq copied
    change (Function.update spmd.thread w (.setWctx (spmd.qtail % n) req)
      u).curreq = _ at copied
    by_cases same : u = w
    · subst same
      rw [Function.update_self] at copied
      exact absurd copied (by simp [SpmdPc.curreq])
    · rw [Function.update_of_ne same] at copied
      exact keeps (written.agreed u curreq copied)

/-- A master takes the first request from the queue. -/
theorem Written.takeRequest
    (written : Written spmd)
    (sound : Sound spmd)
    {head : ℕ}
    {curreq : Request n F A τ}
    (position : spmd.thread w = .invalidate head curreq) :
    Written (spmd.takeRequest w head curreq) := by
  have begun : (spmd.takeRequest w head curreq).begun = spmd.begun + 1 :=
    List.length_append
  have itself : (spmd.takeRequest w head curreq).thread w =
      .moveHead head curreq :=
    Function.update_self ..
  have others {u : Fin n} (distinct : u ≠ w) :
      (spmd.takeRequest w head curreq).thread u = spmd.thread u :=
    Function.update_of_ne distinct ..
  refine ⟨?_, ?_, ?_⟩
  · intro u tail req writes
    -- every other worker waits at the start barrier
    by_cases same : u = w
    · subst same
      rw [itself] at writes
      exact absurd writes (by simp [SpmdPc.writes])
    · obtain ⟨-, all⟩ := sound.rounds.all_knock position
      obtain ⟨⟨req', waiting, -⟩, -⟩ :=
        sound.rounds.of_knocks (by rw [all u same]; exact one_ne_zero)
      rw [others same, waiting] at writes
      exact absurd writes (by simp [SpmdPc.writes])
  · intro i req queued here
    rw [begun] at queued
    have stored := written.stored i req (by omega) here
    have slot : ((spmd.takeRequest w head curreq).thread req.wctx).Stored
        (spmd.reqQueue (i % n)) req := by
      by_cases same : req.wctx = w
      · rw [same, itself]
        rw [same, position] at stored
        exact stored
      · rw [others same]
        exact stored
    change ((spmd.takeRequest w head curreq).thread req.wctx).Stored
      (Function.update spmd.reqQueue head _ (i % n)) req
    by_cases atHead : i % n = head
    · rw [atHead] at slot ⊢
      rw [Function.update_self]
      exact slot.congr rfl rfl rfl
    · rw [Function.update_of_ne atHead]
      exact slot
  · intro u req copied
    refine written.agreed u req ?_
    by_cases same : u = w
    · subst same
      rw [itself] at copied
      rw [position]
      exact copied
    · rwa [others same] at copied

/-- What a worker copies from a published slot is the request as it was issued,
unless its worker is still filling the slot. -/
theorem Written.copied
    (written : Written spmd)
    (sound : Sound spmd)
    {m : Fin n}
    (published : (spmd.reqQueue (spmd.begun % n)).wctx = some m)
    (complete : (spmd.thread m).filling = false) :
    spmd.issued[spmd.begun]? = some
      { wctx := m
        func := (spmd.reqQueue (spmd.begun % n)).func
        arg := (spmd.reqQueue (spmd.begun % n)).arg
        task := (spmd.reqQueue (spmd.begun % n)).task } := by
  obtain ⟨cells, queue⟩ := sound.queue
  obtain ⟨reserved, req, first, rfl⟩ := queue.first_request published
  have done : (spmd.thread req.wctx).writes = none := by
    cases position : spmd.thread req.wctx <;>
      simp only [position, SpmdPc.filling, SpmdPc.writes, reduceCtorEq]
        at complete ⊢
    case setWctx tail req' =>
      -- the slot that it has reserved is the one at the head
      obtain ⟨i, queued, here, rfl⟩ := written.own req.wctx tail req'
        (by rw [position]; rfl)
      have ok := sound.rounds.ok req.wctx
      rw [position] at ok
      obtain rfl := sound.index_of_wctx queued le_rfl here first ok.2
      rw [position] at reserved
      exact reserved rfl
  obtain ⟨func, arg, task⟩ :=
    (written.stored spmd.begun req le_rfl first).complete done
  rw [func, arg, task]
  exact first

theorem Written.copyRequest
    (written : Written spmd)
    (sound : Sound spmd)
    {head : ℕ}
    (position : spmd.thread w = .copy head)
    (safe : copiesTooEarly spmd (.step w) = false) :
    Written (spmd.copyRequest w head) := by
  have ok := sound.rounds.ok w
  rw [position] at ok
  obtain ⟨early, rfl⟩ := ok
  have done : (spmd.thread w).writes = none := by
    rw [position]
    rfl
  simp only [copiesTooEarly, position] at safe
  unfold Spmd.copyRequest
  dsimp only
  split
  case h_1 =>
    exact written.inRound .out rfl rfl rfl rfl rfl done rfl
      (by simp [SpmdPc.curreq])
  case h_2 m published =>
    rw [published] at safe
    have issued := written.copied sound published safe
    have here : spmd.issued[spmd.round w]? = spmd.issued[spmd.begun]? := by
      rw [early]
    split
    · refine written.goOn (.startWait _ _ 0) rfl rfl rfl rfl (fun _ _ => rfl)
        done rfl ?_
      intro curreq copied
      obtain rfl := Option.some.inj copied
      exact here.trans issued
    · refine written.goOn (.enter _) rfl rfl rfl rfl (fun _ _ => rfl) done rfl ?_
      intro curreq copied
      obtain rfl := Option.some.inj copied
      exact here.trans issued

theorem Written.signalNext
    (written : Written spmd)
    {curreq : Request n F A τ}
    {i : ℕ}
    (position : spmd.thread w = .signal curreq i) :
    Written (spmd.signalNext w curreq i) := by
  have done : (spmd.thread w).writes = none := by
    rw [position]
    rfl
  have carried : ∀ req, some curreq = some req →
      (spmd.thread w).curreq = some req := by
    rw [position]
    exact fun _ same => same
  unfold Spmd.signalNext
  split
  · split
    · exact written.inRound _ rfl rfl rfl rfl rfl done rfl carried
    · exact written.inRound _ rfl rfl rfl rfl rfl done rfl carried
  · exact written.inRound _ rfl rfl rfl rfl rfl done rfl carried

/-- A worker completes its round. -/
theorem Written.nextRound
    (written : Written spmd)
    (thread : after.thread = Function.update spmd.thread w .load)
    (reqQueue : after.reqQueue = spmd.reqQueue)
    (issued : after.issued = spmd.issued)
    (taken : after.taken = spmd.taken)
    (round : after.round = Function.update spmd.round w (spmd.round w + 1))
    (done : (spmd.thread w).writes = none) :
    Written after := by
  refine written.goOn .load thread reqQueue issued taken ?_ done rfl
    (by simp [SpmdPc.curreq])
  intro u distinct
  rw [round, Function.update_of_ne distinct]

/-- A step of a worker keeps the copies right, unless the worker copies too
early. -/
theorem Written.workerNext
    (written : Written spmd)
    (sound : Sound spmd)
    (safe : copiesTooEarly spmd (.step w) = false)
    (taken : spmd.workerNext w = some after) :
    Written after := by
  have ok := sound.rounds.ok w
  cases position : spmd.thread w <;> rw [position] at ok <;>
    simp only [Spmd.workerNext, position, Option.some.injEq, reduceCtorEq]
      at taken
  case append req =>
    subst taken
    exact written.fetchAdd sound position
  case setWctx tail req =>
    subst taken
    refine written.write sound (by rw [position]; rfl) ok.2 _ (.setFunc tail req)
      ?_ (fun _ => trivial) rfl
    intro tail' req' same
    exact (Option.some.inj same).symm
  case setFunc tail req =>
    subst taken
    refine written.write sound (by rw [position]; rfl) ok.2 _ (.setArg tail req)
      ?_ (fun _ => rfl) rfl
    intro tail' req' same
    exact (Option.some.inj same).symm
  case setArg tail req =>
    subst taken
    refine written.write sound (by rw [position]; rfl) ok.2 _ (.setTask tail req)
      ?_ ?_ rfl
    · intro tail' req' same
      exact (Option.some.inj same).symm
    · intro stored
      rw [position] at stored
      exact ⟨stored, rfl⟩
  case setTask tail req =>
    subst taken
    refine written.write sound (by rw [position]; rfl) ok.2 _ .load ?_ ?_ rfl
    · intro tail' req' same
      exact absurd same (by simp [SpmdPc.writes])
    · intro stored
      rw [position] at stored
      exact ⟨stored.1, stored.2, rfl⟩
  case copy head =>
    subst taken
    exact written.copyRequest sound position safe
  case invalidate head curreq =>
    subst taken
    exact written.takeRequest sound position
  case signal curreq i =>
    subst taken
    exact written.signalNext position
  case wait curreq =>
    exact written.takeToken _ taken (by rw [position]; rfl) rfl
      (by rw [position]; exact fun _ same => same)
  case startWait head curreq i | stopWait curreq i =>
    split at taken
    · exact written.takeToken _ taken (by rw [position]; rfl) rfl
        (by rw [position]; exact fun _ same => same)
    · obtain rfl := Option.some.inj taken
      exact written.inRound _ rfl rfl rfl rfl rfl (by rw [position]; rfl) rfl
        (by rw [position]; exact fun _ same => same)
  case exec curreq =>
    split at taken
    all_goals
      obtain rfl := Option.some.inj taken
      exact written.inRound _ rfl rfl rfl rfl rfl (by rw [position]; rfl) rfl
        (by rw [position]; exact fun _ same => same)
  case finish curreq =>
    split at taken
    · obtain rfl := Option.some.inj taken
      exact written.nextRound rfl rfl rfl rfl rfl (by rw [position]; rfl)
    · obtain rfl := Option.some.inj taken
      exact ⟨written.own, written.stored, written.agreed⟩
  case leave curreq =>
    subst taken
    exact written.nextRound rfl rfl rfl rfl rfl (by rw [position]; rfl)
  case load =>
    subst taken
    exact written.inRound _ rfl rfl rfl rfl rfl (by rw [position]; rfl) rfl
      (by simp [SpmdPc.curreq])
  all_goals
    subst taken
    exact written.inRound _ rfl rfl rfl rfl rfl (by rw [position]; rfl) rfl
      (by rw [position]; exact fun _ same => same)

theorem Written.next
    (written : Written spmd)
    (sound : Sound spmd)
    {label : SpmdLabel n F A τ}
    (safe : copiesTooEarly spmd label = false)
    (taken : spmdNext spmd label = some after) :
    Written after := by
  obtain ⟨-, ⟨req, -, position, rfl⟩ | ⟨w, -, position, rfl⟩ |
    ⟨w, rfl, stepped⟩⟩ := spmdNext_cases taken
  · unfold Spmd.lpelSpmdRequest
    split
    · exact written.inRound _ rfl rfl rfl rfl rfl (by rw [position]; rfl) rfl
        (by simp [SpmdPc.curreq])
    · exact ⟨written.own, written.stored, written.agreed⟩
  · exact written.inRound _ rfl rfl rfl rfl rfl (by rw [position]; rfl) rfl
      (by simp [SpmdPc.curreq])
  · exact written.workerNext sound safe stepped

end Slots

/-- In every round the copies of all workers are the request of that round as it
was issued, as long as no worker copies a request whose `wctx` is written while
its other fields are still to be written. -/
theorem copiesAgree
    {spmd : Spmd n F A τ}
    (reached : (spmdMachine n F A τ).ReachableBy
      (fun spmd label => copiesTooEarly spmd label = false) spmd) :
    ∀ w curreq, (spmd.thread w).curreq = some curreq →
      spmd.issued[spmd.round w]? = some curreq := by
  have written : Written spmd := by
    induction reached with
    | init initial =>
        obtain ⟨memory, rfl⟩ := initial
        exact ⟨by simp [lpelSpmdInit, SpmdPc.writes], by simp [lpelSpmdInit],
          by simp [lpelSpmdInit, SpmdPc.curreq]⟩
    | @step spmd after label before safe taken inductionHypothesis =>
        exact inductionHypothesis.next
          (Sound.ofReachable label.pos before.reachable) safe taken
  exact written.agreed

section CopiesExample

/-- The first worker has written `wctx` and not yet the other fields when the
second one copies the request. -/
def earlyRun (first second : Fin 2) : List (SpmdLabel 2 ℕ ℕ ℕ) :=
  [requestOf first 1, .step first, .step first, .handle second, .step second,
    .step second]

/-- The second worker takes part in the round of a request for another
function. -/
theorem copiesAgree_early :
    ∃ spmd : Spmd 2 ℕ ℕ ℕ, (spmdMachine 2 ℕ ℕ ℕ).Reachable spmd ∧
      ∃ curreq, (spmd.thread 1).curreq = some curreq ∧
        spmd.issued[spmd.round 1]? ≠ some curreq := by
  obtain ⟨spmd, reached, tested⟩ := Machine.exists_reachable_of_run
    (⟨_, rfl⟩ : (spmdMachine 2 ℕ ℕ ℕ).init (lpelSpmdInit fun _ => (0, 0, 0)))
    (by decide : ((spmdMachine 2 ℕ ℕ ℕ).run (lpelSpmdInit fun _ => (0, 0, 0))
      (earlyRun 0 1)).map (fun spmd => decide (
        (spmd.thread 1).curreq =
          some { wctx := 0, func := 0, arg := 0, task := 0 } ∧
        spmd.issued[spmd.round 1]? =
          some { wctx := 0, func := 1, arg := 0, task := 0 })) = some true)
  obtain ⟨copied, issued⟩ := of_decide_eq_true tested
  refine ⟨spmd, reached, _, copied, ?_⟩
  rw [issued]
  decide

/-- Both workers take part in the round of the first one, and they copied its
request after all fields were written. -/
theorem copiesAgree_complete :
    ∃ spmd : Spmd 2 ℕ ℕ ℕ, ∃ curreq, (spmd.thread 0).curreq = some curreq ∧
      (spmd.thread 1).curreq = some curreq ∧ curreq.func = 1 ∧
      spmd.issued[spmd.round 0]? = some curreq ∧
      spmd.issued[spmd.round 1]? = some curreq := by
  obtain ⟨spmd, reached, tested⟩ := Machine.exists_reachableBy_of_runBy
    (⟨_, rfl⟩ : (spmdMachine 2 ℕ ℕ ℕ).init (lpelSpmdInit fun _ => (0, 0, 0)))
    (by decide : ((spmdMachine 2 ℕ ℕ ℕ).runBy
      (fun spmd label => !copiesTooEarly spmd label)
      (lpelSpmdInit fun _ => (0, 0, 0)) (meetingRun 0 1)).map (fun spmd =>
        decide ((spmd.thread 0).curreq =
            some { wctx := 0, func := 1, arg := 2, task := 3 } ∧
          (spmd.thread 1).curreq =
            some { wctx := 0, func := 1, arg := 2, task := 3 })) = some true)
  obtain ⟨first, second⟩ := of_decide_eq_true tested
  have agree := copiesAgree (reached.mono (by
    intro spmd label safe
    simpa using safe))
  exact ⟨spmd, _, first, second, rfl, agree 0 _ first, agree 1 _ second⟩

end CopiesExample

end Decen
end Lpel
