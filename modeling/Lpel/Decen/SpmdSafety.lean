import Lpel.Decen.SpmdQueue

/-!
# Exclusive access to the queue of SPMD requests

Every step keeps the invariants of the barriers, of the queue and of the pending
flags.  A master in the critical section is alone with the queue, the requests
are served in the order in which they were issued, and every worker takes part in
every round.
-/

namespace Lpel
namespace Decen

variable {n : ℕ} {F A τ : Type}

/-- The invariant of the module. -/
structure Sound (spmd : Spmd n F A τ) : Prop where
  rounds : Rounds spmd
  queue : ∃ cells, Queue spmd cells
  flags : Flags spmd
  inside : spmd.qhead < n
  ok : spmd.failed ≠ some .notPending

section Steps

variable {spmd after : Spmd n F A τ} {w : Fin n}

/-- A worker goes on without touching the queue. -/
theorem Sound.act
    (sound : Sound spmd)
    (pc : SpmdPc n F A τ)
    (round pending : ℕ)
    (thread : after.thread = Function.update spmd.thread w pc)
    (completed : after.round = Function.update spmd.round w round)
    (flag : after.pending = Function.update spmd.pending w pending)
    (wctx : ∀ slot, (after.reqQueue slot).wctx = (spmd.reqQueue slot).wctx)
    (qhead : after.qhead = spmd.qhead)
    (qtail : after.qtail = spmd.qtail)
    (issued : after.issued = spmd.issued)
    (taken : after.taken = spmd.taken)
    (failed : after.failed = spmd.failed)
    (plain : (spmd.thread w).reserves = none ∧
      (spmd.thread w).correcting = false)
    (plain' : pc.reserves = none ∧ pc.correcting = false)
    (ok : pc.Ok spmd.masters spmd.begun w round)
    (account : pending + (spmd.thread w).holds w =
      spmd.pending w + pc.holds w)
    (single : pending ≤ 1)
    (others : ∀ v, v ≠ w →
      after.sema v + (spmd.thread w).posted spmd.taken.getLast? spmd.begun w
          (spmd.round w) v =
        spmd.sema v + pc.posted spmd.taken.getLast? spmd.begun w round v)
    (own : after.sema w +
          pc.waited spmd.taken.getLast? spmd.begun w round +
          (spmd.thread w).posted spmd.taken.getLast? spmd.begun w
            (spmd.round w) w =
        spmd.sema w +
          (spmd.thread w).waited spmd.taken.getLast? spmd.begun w
            (spmd.round w) +
          pc.posted spmd.taken.getLast? spmd.begun w round w) :
    Sound after := by
  have masters : after.masters = spmd.masters := by
    rw [Spmd.masters, issued]
    rfl
  obtain ⟨cells, queue⟩ := sound.queue
  refine ⟨?_, ⟨cells, ?_⟩, ?_, ?_, ?_⟩
  · refine sound.rounds.act w pc round thread completed taken ?_ ?_ others own
    · rw [masters]
    · rw [masters]
      exact ok
  · exact queue.goOn pc thread wctx qhead qtail issued taken plain.1 plain'.1
      plain.2 plain'.2
  · exact sound.flags.goOn pc pending thread flag issued taken account single
  · rw [qhead]
    exact sound.inside
  · rw [failed]
    exact sound.ok

/-- A worker goes on by itself. -/
theorem Sound.goOn
    (sound : Sound spmd)
    (pc : SpmdPc n F A τ)
    (plain : (spmd.thread w).reserves = none ∧
      (spmd.thread w).correcting = false)
    (plain' : pc.reserves = none ∧ pc.correcting = false)
    (ok : pc.Ok spmd.masters spmd.begun w (spmd.round w))
    (holds : pc.holds w = (spmd.thread w).holds w)
    (posted : ∀ v, pc.posted spmd.taken.getLast? spmd.begun w (spmd.round w) v =
      (spmd.thread w).posted spmd.taken.getLast? spmd.begun w (spmd.round w) v)
    (waited : pc.waited spmd.taken.getLast? spmd.begun w (spmd.round w) =
      (spmd.thread w).waited spmd.taken.getLast? spmd.begun w (spmd.round w)) :
    Sound (spmd.setThread w pc) := by
  refine sound.act pc (spmd.round w) (spmd.pending w) rfl
    (Function.update_eq_self w spmd.round).symm
    (Function.update_eq_self w spmd.pending).symm (fun _ => rfl) rfl rfl rfl
    rfl rfl plain plain' ok (by rw [holds]) (sound.flags.single w) ?_ ?_
  · intro v _
    rw [posted]
    rfl
  · rw [posted, waited]
    rfl

/-- A worker posts a token. -/
theorem Sound.post
    (sound : Sound spmd)
    (target : Fin n)
    (pc : SpmdPc n F A τ)
    (plain : (spmd.thread w).reserves = none ∧
      (spmd.thread w).correcting = false)
    (plain' : pc.reserves = none ∧ pc.correcting = false)
    (ok : pc.Ok spmd.masters spmd.begun w (spmd.round w))
    (holds : pc.holds w = (spmd.thread w).holds w)
    (posted : ∀ v, pc.posted spmd.taken.getLast? spmd.begun w (spmd.round w) v =
      (spmd.thread w).posted spmd.taken.getLast? spmd.begun w (spmd.round w) v +
        if v = target then 1 else 0)
    (waited : pc.waited spmd.taken.getLast? spmd.begun w (spmd.round w) =
      (spmd.thread w).waited spmd.taken.getLast? spmd.begun w (spmd.round w)) :
    Sound ((spmd.semPost target).setThread w pc) := by
  have sema (v : Fin n) : ((spmd.semPost target).setThread w pc).sema v =
      spmd.sema v + if v = target then 1 else 0 := by
    by_cases same : v = target
    · subst same
      simp [Spmd.semPost, Spmd.setThread]
    · simp [Spmd.semPost, Spmd.setThread, same]
  refine sound.act pc (spmd.round w) (spmd.pending w) rfl
    (Function.update_eq_self w spmd.round).symm
    (Function.update_eq_self w spmd.pending).symm (fun _ => rfl) rfl rfl rfl
    rfl rfl plain plain' ok (by rw [holds]) (sound.flags.single w) ?_ ?_
  · intro v _
    rw [posted, sema]
    omega
  · rw [posted, waited, sema]
    omega

/-- A worker takes a token. -/
theorem Sound.takeToken
    (sound : Sound spmd)
    (pc : SpmdPc n F A τ)
    (taken : (spmd.semWait w).map (fun spmd => spmd.setThread w pc) =
      some after)
    (plain : (spmd.thread w).reserves = none ∧
      (spmd.thread w).correcting = false)
    (plain' : pc.reserves = none ∧ pc.correcting = false)
    (ok : pc.Ok spmd.masters spmd.begun w (spmd.round w))
    (holds : pc.holds w = (spmd.thread w).holds w)
    (posted : ∀ v, pc.posted spmd.taken.getLast? spmd.begun w (spmd.round w) v =
      (spmd.thread w).posted spmd.taken.getLast? spmd.begun w (spmd.round w) v)
    (waited : pc.waited spmd.taken.getLast? spmd.begun w (spmd.round w) =
      (spmd.thread w).waited spmd.taken.getLast? spmd.begun w (spmd.round w) +
        1) :
    Sound after := by
  unfold Spmd.semWait at taken
  split at taken
  case isFalse => exact absurd taken (by simp)
  case isTrue positive =>
    obtain rfl := Option.some.inj taken
    refine sound.act pc (spmd.round w) (spmd.pending w) rfl
      (Function.update_eq_self w spmd.round).symm
      (Function.update_eq_self w spmd.pending).symm (fun _ => rfl) rfl rfl rfl
      rfl rfl plain plain' ok (by rw [holds]) (sound.flags.single w) ?_ ?_
    · intro v distinct
      rw [posted]
      simp [Spmd.setThread, distinct]
    · rw [posted, waited]
      simp only [Spmd.setThread, Function.update_self]
      omega

theorem Sound.fail
    (sound : Sound spmd)
    {failure : SpmdFailure}
    (other : failure ≠ .notPending) :
    Sound (spmd.fail failure) := by
  obtain ⟨cells, queue⟩ := sound.queue
  refine ⟨⟨sound.rounds.ordered, sound.rounds.ok, sound.rounds.tokens⟩,
    ⟨cells, ?_⟩, ⟨sound.flags.count, sound.flags.single⟩, sound.inside, ?_⟩
  · exact ⟨queue.segment, queue.slots, queue.reserved, queue.head, queue.tail,
      queue.stored⟩
  · exact fun same => other (Option.some.inj same)

/-- A task issues a request. -/
theorem Sound.request
    (sound : Sound spmd)
    {req : Request n F A τ}
    (position : spmd.thread req.wctx = .out) :
    Sound (spmd.lpelSpmdRequest req) := by
  have ok := sound.rounds.ok req.wctx
  rw [position] at ok
  unfold Spmd.lpelSpmdRequest
  split
  case isFalse => exact sound.fail (by simp)
  case isTrue clear =>
    refine sound.act (.append req) (spmd.round req.wctx) 1 rfl
      (Function.update_eq_self ..).symm rfl (fun _ => rfl) rfl rfl rfl rfl rfl
      (by rw [position]; exact ⟨rfl, rfl⟩) ⟨rfl, rfl⟩ ⟨ok, rfl⟩ ?_ (le_refl 1)
      ?_ ?_
    · rw [position, clear]
      rfl
    · intro v _
      rw [position]
      rfl
    · rw [position]
      rfl

/-- A published slot at the head is that of the next request. -/
theorem Queue.first_request
    {cells : ℕ → Option (Request n F A τ)}
    (queue : Queue spmd cells)
    {m : Fin n}
    (published : (spmd.reqQueue (spmd.begun % n)).wctx = some m) :
    (spmd.thread m).reserves ≠ some (spmd.begun % n) ∧
      ∃ req, spmd.issued[spmd.begun]? = some req ∧ req.wctx = m := by
  rw [queue.slots _ queue.segment.start_lt, queue.segment.first,
    Spmd.waiting, List.head?_drop, Option.bind_eq_some_iff] at published
  obtain ⟨req, first, chosen⟩ := published
  by_cases reserved :
      (spmd.thread req.wctx).reserves = some (spmd.begun % n)
  · rw [if_pos reserved] at chosen
    exact absurd chosen (by simp)
  · rw [if_neg reserved] at chosen
    obtain rfl := Option.some.inj chosen
    exact ⟨reserved, req, first, rfl⟩

/-- The slot at the head is published by the master of the next round. -/
theorem Queue.first_published
    {cells : ℕ → Option (Request n F A τ)}
    (queue : Queue spmd cells)
    {m : Fin n}
    (published : (spmd.reqQueue (spmd.begun % n)).wctx = some m) :
    spmd.masters[spmd.begun]? = some m := by
  obtain ⟨-, req, first, rfl⟩ := queue.first_request published
  rw [Spmd.masters, List.getElem?_map, first]
  rfl

theorem Sound.copyRequest
    (sound : Sound spmd)
    {head : ℕ}
    (position : spmd.thread w = .copy head) :
    Sound (spmd.copyRequest w head) := by
  obtain ⟨cells, queue⟩ := sound.queue
  have ok := sound.rounds.ok w
  rw [position] at ok
  obtain ⟨early, rfl⟩ := ok
  have plain : (spmd.thread w).reserves = none ∧
      (spmd.thread w).correcting = false := by
    rw [position]
    exact ⟨rfl, rfl⟩
  unfold Spmd.copyRequest
  dsimp only
  split
  case h_1 =>
    exact sound.goOn .out plain ⟨rfl, rfl⟩ early (by rw [position]; rfl)
      (fun v => by rw [position]; rfl) (by rw [position]; rfl)
  case h_2 m published =>
    have master := queue.first_published published
    rw [← early] at master
    split
    case isTrue own =>
      subst own
      exact sound.goOn (.startWait _ _ 0) plain ⟨rfl, rfl⟩
        ⟨early, rfl, Nat.zero_le _, rfl, master⟩ (by rw [position]; rfl)
        (fun v => by rw [position]; rfl) (by rw [position]; rfl)
    case isFalse foreign =>
      exact sound.goOn (.enter _) plain ⟨rfl, rfl⟩ ⟨early, foreign, master⟩
        (by rw [position]; rfl) (fun v => by rw [position]; rfl)
        (by rw [position]; rfl)

theorem Sound.startWait
    (sound : Sound spmd)
    {head i : ℕ}
    {curreq : Request n F A τ}
    (position : spmd.thread w = .startWait head curreq i)
    (taken : spmd.workerNext w = some after) :
    Sound after := by
  have ok := sound.rounds.ok w
  rw [position] at ok
  obtain ⟨early, atHead, bound, own, master⟩ := ok
  have plain : (spmd.thread w).reserves = none ∧
      (spmd.thread w).correcting = false := by
    rw [position]
    exact ⟨rfl, rfl⟩
  simp only [Spmd.workerNext, position] at taken
  split at taken
  case isTrue more =>
    exact sound.takeToken _ taken plain ⟨rfl, rfl⟩
      ⟨early, atHead, by omega, own, master⟩ (by rw [position]; rfl)
      (fun v => by rw [position]; rfl)
      (by rw [position]; simp only [SpmdPc.waited]; omega)
  case isFalse done =>
    obtain rfl := Option.some.inj taken
    have all : i = n - 1 := by omega
    exact sound.goOn _ plain ⟨rfl, rfl⟩ ⟨early, atHead, own, master⟩
      (by rw [position]; rfl) (fun v => by rw [position]; rfl)
      (by rw [position, all]; rfl)

theorem Sound.stopWait
    (sound : Sound spmd)
    {i : ℕ}
    {curreq : Request n F A τ}
    (position : spmd.thread w = .stopWait curreq i)
    (taken : spmd.workerNext w = some after) :
    Sound after := by
  have ok := sound.rounds.ok w
  rw [position] at ok
  obtain ⟨late, bound, own, master⟩ := ok
  have plain : (spmd.thread w).reserves = none ∧
      (spmd.thread w).correcting = false := by
    rw [position]
    exact ⟨rfl, rfl⟩
  simp only [Spmd.workerNext, position] at taken
  split at taken
  case isTrue more =>
    exact sound.takeToken _ taken plain ⟨rfl, rfl⟩
      ⟨late, by omega, own, master⟩ (by rw [position]; rfl)
      (fun v => by rw [position]; rfl) (by rw [position]; rfl)
  case isFalse done =>
    obtain rfl := Option.some.inj taken
    have all : i = n - 1 := by omega
    exact sound.goOn _ plain ⟨rfl, rfl⟩ ⟨late, own, master⟩
      (by rw [position]; rfl) (fun v => by rw [position]; rfl)
      (by rw [position, all]; rfl)

/-- A worker is released only when the round has begun. -/
theorem Sound.released
    (sound : Sound spmd)
    {curreq : Request n F A τ}
    (position : spmd.thread w = .wait curreq)
    (taken : (spmd.semWait w).map (fun spmd => spmd.setThread w
      (.exec curreq)) = some after) :
    Sound after := by
  have ok := sound.rounds.ok w
  rw [position] at ok
  obtain ⟨early | late, foreign, master⟩ := ok
  · have empty := sound.rounds.not_released position early
    simp [Spmd.semWait, empty] at taken
  · have notEarly : spmd.round w ≠ spmd.begun := by omega
    refine sound.takeToken _ taken (by rw [position]; exact ⟨rfl, rfl⟩)
      ⟨rfl, rfl⟩ ⟨late, master⟩ ?_ ?_ ?_
    · rw [position]
      simp [SpmdPc.holds, foreign]
    · intro v
      rw [position]
      simp [SpmdPc.posted, foreign, notEarly]
    · rw [position]
      simp [SpmdPc.waited, foreign, notEarly]

theorem Sound.signal
    (sound : Sound spmd)
    {i : ℕ}
    {curreq : Request n F A τ}
    (position : spmd.thread w = .signal curreq i) :
    Sound (spmd.signalNext w curreq i) := by
  have ok := sound.rounds.ok w
  rw [position] at ok
  obtain ⟨late, bound, own, master⟩ := ok
  have plain : (spmd.thread w).reserves = none ∧
      (spmd.thread w).correcting = false := by
    rw [position]
    exact ⟨rfl, rfl⟩
  unfold Spmd.signalNext
  split
  case isTrue inside =>
    split
    case isTrue other =>
      refine sound.post ⟨i, inside⟩ (.signal curreq (i + 1)) plain ⟨rfl, rfl⟩
        ⟨late, inside, own, master⟩ (by rw [position]; rfl) ?_
        (by rw [position]; rfl)
      intro v
      rw [position]
      simp only [SpmdPc.posted]
      by_cases here : v = ⟨i, inside⟩
      · subst here
        simp [other]
      · have apart : v.val ≠ i := fun same => here (Fin.ext same)
        have step : v.val < i + 1 ↔ v.val < i := by omega
        simp [here, step]
    case isFalse itself =>
      refine sound.goOn (.signal curreq (i + 1)) plain ⟨rfl, rfl⟩
        ⟨late, inside, own, master⟩ (by rw [position]; rfl) ?_
        (by rw [position]; rfl)
      intro v
      rw [position]
      simp only [SpmdPc.posted]
      by_cases here : v = w
      · simp [here]
      · have apart : v.val ≠ i := by
          intro same
          exact here ((Fin.ext same).trans (not_ne_iff.mp itself))
        have step : v.val < i + 1 ↔ v.val < i := by omega
        simp [step]
  case isFalse done =>
    refine sound.goOn (.exec curreq) plain ⟨rfl, rfl⟩ ⟨late, ?_⟩ ?_ ?_ ?_
    · rw [own]
      exact master
    · rw [position]
      simp [SpmdPc.holds, own]
    · intro v
      rw [position]
      have passed : v.val < i := by omega
      simp [SpmdPc.posted, own, passed]
    · rw [position]
      simp [SpmdPc.waited, own]

theorem Sound.enter
    (sound : Sound spmd)
    {curreq : Request n F A τ}
    (position : spmd.thread w = .enter curreq) :
    Sound ((spmd.semPost curreq.wctx).setThread w (.wait curreq)) := by
  have ok := sound.rounds.ok w
  rw [position] at ok
  obtain ⟨early, foreign, master⟩ := ok
  refine sound.post curreq.wctx (.wait curreq)
    (by rw [position]; exact ⟨rfl, rfl⟩) ⟨rfl, rfl⟩
    ⟨.inl early, foreign, master⟩ (by rw [position]; rfl) ?_ ?_
  · intro v
    rw [position]
    simp [SpmdPc.posted, early]
  · rw [position]
    simp [SpmdPc.waited, early]

theorem Sound.exec
    (sound : Sound spmd)
    {curreq : Request n F A τ}
    (position : spmd.thread w = .exec curreq)
    (taken : spmd.workerNext w = some after) :
    Sound after := by
  have ok := sound.rounds.ok w
  rw [position] at ok
  obtain ⟨late, master⟩ := ok
  have plain : (spmd.thread w).reserves = none ∧
      (spmd.thread w).correcting = false := by
    rw [position]
    exact ⟨rfl, rfl⟩
  simp only [Spmd.workerNext, position] at taken
  split at taken
  case isTrue own =>
    obtain rfl := Option.some.inj taken
    refine sound.goOn (.stopWait curreq 0) plain ⟨rfl, rfl⟩
      ⟨late, Nat.zero_le _, own, by rw [master, own]⟩ ?_ ?_ ?_
    · rw [position]
      simp [SpmdPc.holds, own]
    · intro v
      rw [position]
      simp [SpmdPc.posted, own]
    · rw [position]
      simp [SpmdPc.waited, own]
  case isFalse foreign =>
    obtain rfl := Option.some.inj taken
    refine sound.goOn (.leave curreq) plain ⟨rfl, rfl⟩
      ⟨late, foreign, master⟩ ?_ ?_ ?_
    · rw [position]
      simp [SpmdPc.holds, foreign]
    · intro v
      rw [position]
      simp [SpmdPc.posted, foreign]
    · rw [position]
      simp [SpmdPc.waited, foreign]

/-- The master completes a round: its flag is set. -/
theorem Sound.finish
    (sound : Sound spmd)
    {curreq : Request n F A τ}
    (position : spmd.thread w = .finish curreq)
    (taken : spmd.workerNext w = some after) :
    Sound after := by
  have ok := sound.rounds.ok w
  rw [position] at ok
  obtain ⟨late, -, master⟩ := ok
  have last := sound.rounds.last_of late master
  have pending : spmd.pending w = 1 := by
    have count := sound.flags.count w
    have single := sound.flags.single w
    rw [position] at count
    simp only [SpmdPc.holds] at count
    omega
  simp only [Spmd.workerNext, position, if_pos pending] at taken
  obtain rfl := Option.some.inj taken
  refine sound.act .load (spmd.round w + 1) 0 rfl rfl rfl (fun _ => rfl) rfl rfl
    rfl rfl rfl (by rw [position]; exact ⟨rfl, rfl⟩) ⟨rfl, rfl⟩ late ?_
    (Nat.zero_le 1) ?_ ?_
  · rw [position, pending]
    rfl
  · intro v distinct
    rw [position, last]
    simp [SpmdPc.posted, owed, distinct, Spmd.nextRound, Spmd.setPending]
  · rw [position, last]
    simp [SpmdPc.posted, SpmdPc.waited, owed, due, Spmd.nextRound,
      Spmd.setPending]

/-- Another worker completes a round and signals the master. -/
theorem Sound.leave
    (sound : Sound spmd)
    {curreq : Request n F A τ}
    (position : spmd.thread w = .leave curreq) :
    Sound ((spmd.semPost curreq.wctx).nextRound w) := by
  have ok := sound.rounds.ok w
  rw [position] at ok
  obtain ⟨late, foreign, master⟩ := ok
  have last := sound.rounds.last_of late master
  have other : w ≠ curreq.wctx := Ne.symm foreign
  refine sound.act .load (spmd.round w + 1) (spmd.pending w) rfl rfl
    (Function.update_eq_self w spmd.pending).symm (fun _ => rfl) rfl rfl
    rfl rfl rfl (by rw [position]; exact ⟨rfl, rfl⟩) ⟨rfl, rfl⟩ late ?_
    (sound.flags.single w) ?_ ?_
  · rw [position]
    rfl
  · intro v distinct
    rw [position, last]
    by_cases here : v = curreq.wctx
    · subst here
      simp [SpmdPc.posted, owed, other, Spmd.nextRound, Spmd.semPost]
    · simp [SpmdPc.posted, owed, other, here, Spmd.nextRound, Spmd.semPost]
  · rw [position, last]
    simp [SpmdPc.posted, SpmdPc.waited, owed, due, other, Spmd.nextRound,
      Spmd.semPost]

/-- A worker writes one of the other fields of its request. -/
theorem Sound.write
    (sound : Sound spmd)
    {tail : ℕ}
    {slot : Spmdreq n F A τ}
    (pc : SpmdPc n F A τ)
    (same : slot.wctx = (spmd.reqQueue tail).wctx)
    (plain : (spmd.thread w).reserves = none ∧
      (spmd.thread w).correcting = false)
    (plain' : pc.reserves = none ∧ pc.correcting = false)
    (ok : pc.Ok spmd.masters spmd.begun w (spmd.round w))
    (holds : pc.holds w = (spmd.thread w).holds w)
    (posted : ∀ v, pc.posted spmd.taken.getLast? spmd.begun w (spmd.round w) v =
      (spmd.thread w).posted spmd.taken.getLast? spmd.begun w (spmd.round w) v)
    (waited : pc.waited spmd.taken.getLast? spmd.begun w (spmd.round w) =
      (spmd.thread w).waited spmd.taken.getLast? spmd.begun w (spmd.round w)) :
    Sound ((spmd.setSlot tail slot).setThread w pc) := by
  refine sound.act pc (spmd.round w) (spmd.pending w) rfl
    (Function.update_eq_self w spmd.round).symm
    (Function.update_eq_self w spmd.pending).symm ?_ rfl rfl rfl rfl rfl plain
    plain' ok (by rw [holds]) (sound.flags.single w) ?_ ?_
  · intro other
    change (Function.update spmd.reqQueue tail slot other).wctx = _
    by_cases here : other = tail
    · subst here
      rw [Function.update_self, same]
    · rw [Function.update_of_ne here]
  · intro v _
    rw [posted]
    rfl
  · rw [posted, waited]
    rfl

/-- A worker adds to the tail. -/
theorem Sound.fetchAdd
    (sound : Sound spmd)
    {req : Request n F A τ}
    (position : spmd.thread w = .append req) :
    Sound (spmd.fetchAdd w req) := by
  obtain ⟨cells, queue⟩ := sound.queue
  have ok := sound.rounds.ok w
  rw [position] at ok
  refine ⟨?_, ⟨_, queue.fetchAdd sound.rounds sound.flags position⟩,
    sound.flags.fetchAdd sound.rounds position, sound.inside, sound.ok⟩
  refine sound.rounds.act w (.setWctx (spmd.qtail % n) req) (spmd.round w) rfl
    (Function.update_eq_self w spmd.round).symm rfl ?_ ok ?_ ?_
  · refine ⟨[req.wctx], ?_⟩
    simp [Spmd.masters, Spmd.fetchAdd]
  · intro v _
    rw [position]
    rfl
  · rw [position]
    rfl

/-- A worker publishes its request. -/
theorem Sound.publish
    (sound : Sound spmd)
    {tail : ℕ}
    {req : Request n F A τ}
    (position : spmd.thread w = .setWctx tail req) :
    Sound ((spmd.setSlot tail
      { spmd.reqQueue tail with wctx := some req.wctx }).setThread w
        (.setFunc tail req)) := by
  obtain ⟨cells, queue⟩ := sound.queue
  have ok := sound.rounds.ok w
  rw [position] at ok
  refine ⟨?_, ⟨cells, queue.publish sound.rounds position⟩, ?_, sound.inside,
    sound.ok⟩
  · refine sound.rounds.act w (.setFunc tail req) (spmd.round w) rfl
      (Function.update_eq_self w spmd.round).symm rfl ?_ ok ?_ ?_
    · exact List.prefix_refl _
    · intro v _
      rw [position]
      rfl
    · rw [position]
      rfl
  · exact sound.flags.goOn (.setFunc tail req) (spmd.pending w) rfl
      (Function.update_eq_self w spmd.pending).symm rfl rfl
      (by rw [position]; rfl) (sound.flags.single w)

/-- A master goes on in the critical section behind its first access. -/
theorem Sound.critical
    (sound : Sound spmd)
    (pc : SpmdPc n F A τ)
    (thread : after.thread = Function.update spmd.thread w pc)
    (round : after.round = spmd.round)
    (pending : after.pending = spmd.pending)
    (sema : after.sema = spmd.sema)
    (issued : after.issued = spmd.issued)
    (taken : after.taken = spmd.taken)
    (failed : after.failed = spmd.failed)
    (inside : after.qhead < n)
    (queue : ∃ cells, Queue after cells)
    (ok : pc.Ok spmd.masters spmd.begun w (spmd.round w))
    (holds : pc.holds w = (spmd.thread w).holds w)
    (posted : ∀ v, pc.posted spmd.taken.getLast? spmd.begun w (spmd.round w) v =
      (spmd.thread w).posted spmd.taken.getLast? spmd.begun w (spmd.round w) v)
    (waited : pc.waited spmd.taken.getLast? spmd.begun w (spmd.round w) =
      (spmd.thread w).waited spmd.taken.getLast? spmd.begun w (spmd.round w)) :
    Sound after := by
  have masters : after.masters = spmd.masters := by
    rw [Spmd.masters, issued]
    rfl
  refine ⟨?_, queue, ?_, inside, ?_⟩
  · refine sound.rounds.act w pc (spmd.round w) thread ?_ taken ?_ ?_ ?_ ?_
    · rw [round, Function.update_eq_self]
    · rw [masters]
    · rw [masters]
      exact ok
    · intro v _
      rw [sema, posted]
    · rw [sema, posted, waited]
  · refine sound.flags.goOn pc (spmd.pending w) thread ?_ issued taken
      (by rw [holds]) (sound.flags.single w)
    rw [pending, Function.update_eq_self]
  · rw [failed]
    exact sound.ok

theorem Sound.takeRequest
    (sound : Sound spmd)
    {head : ℕ}
    {curreq : Request n F A τ}
    (position : spmd.thread w = .invalidate head curreq) :
    Sound (spmd.takeRequest w head curreq) := by
  obtain ⟨cells, queue⟩ := sound.queue
  exact ⟨sound.rounds.takeRequest position,
    ⟨_, queue.takeRequest sound.rounds position⟩,
    sound.flags.takeRequest sound.rounds position, sound.inside, sound.ok⟩

/-- Every step of a worker keeps the invariant. -/
theorem Sound.workerNext
    (sound : Sound spmd)
    (taken : spmd.workerNext w = some after) :
    Sound after := by
  obtain ⟨cells, queue⟩ := sound.queue
  have ok := sound.rounds.ok w
  cases position : spmd.thread w with
  | out => simp [Spmd.workerNext, position] at taken
  | startWait head curreq i => exact sound.startWait position taken
  | stopWait curreq i => exact sound.stopWait position taken
  | exec curreq => exact sound.exec position taken
  | finish curreq => exact sound.finish position taken
  | wait curreq =>
      simp only [Spmd.workerNext, position] at taken
      exact sound.released position taken
  | append req =>
      simp only [Spmd.workerNext, position, Option.some.injEq] at taken
      subst taken
      exact sound.fetchAdd position
  | setWctx tail req =>
      simp only [Spmd.workerNext, position, Option.some.injEq] at taken
      subst taken
      exact sound.publish position
  | setFunc tail req =>
      simp only [Spmd.workerNext, position, Option.some.injEq] at taken
      subst taken
      rw [position] at ok
      exact sound.write (.setArg tail req) rfl
        (by rw [position]; exact ⟨rfl, rfl⟩) ⟨rfl, rfl⟩ ok
        (by rw [position]; rfl) (fun v => by rw [position]; rfl)
        (by rw [position]; rfl)
  | setArg tail req =>
      simp only [Spmd.workerNext, position, Option.some.injEq] at taken
      subst taken
      rw [position] at ok
      exact sound.write (.setTask tail req) rfl
        (by rw [position]; exact ⟨rfl, rfl⟩) ⟨rfl, rfl⟩ ok
        (by rw [position]; rfl) (fun v => by rw [position]; rfl)
        (by rw [position]; rfl)
  | setTask tail req =>
      simp only [Spmd.workerNext, position, Option.some.injEq] at taken
      subst taken
      rw [position] at ok
      exact sound.write .load rfl (by rw [position]; exact ⟨rfl, rfl⟩)
        ⟨rfl, rfl⟩ ok.1 (by rw [position]; rfl)
        (fun v => by rw [position]; rfl) (by rw [position]; rfl)
  | load =>
      simp only [Spmd.workerNext, position, Option.some.injEq] at taken
      subst taken
      rw [position] at ok
      have quiet := sound.rounds.not_correcting w (by simp [position])
        (by rw [position]; rfl)
      have head := queue.head fun u =>
        SpmdPc.movesHead_of_correcting (quiet u)
      exact sound.goOn (.copy spmd.qhead) (by rw [position]; exact ⟨rfl, rfl⟩)
        ⟨rfl, rfl⟩ ⟨ok, head⟩ (by rw [position]; rfl)
        (fun v => by rw [position]; rfl) (by rw [position]; rfl)
  | copy head =>
      simp only [Spmd.workerNext, position, Option.some.injEq] at taken
      subst taken
      exact sound.copyRequest position
  | invalidate head curreq =>
      simp only [Spmd.workerNext, position, Option.some.injEq] at taken
      subst taken
      exact sound.takeRequest position
  | moveHead head curreq =>
      simp only [Spmd.workerNext, position, Option.some.injEq] at taken
      subst taken
      rw [position] at ok
      exact sound.critical (.loadTail curreq) rfl rfl rfl rfl rfl rfl rfl
        (Nat.mod_lt _ w.pos) ⟨cells, queue.moveHead sound.rounds position⟩
        ⟨ok.1, ok.2.2.1, ok.2.2.2⟩ (by rw [position]; rfl)
        (fun v => by rw [position]; rfl) (by rw [position]; rfl)
  | loadTail curreq =>
      simp only [Spmd.workerNext, position, Option.some.injEq] at taken
      subst taken
      rw [position] at ok
      exact sound.critical (.storeTail spmd.qtail curreq) rfl rfl rfl rfl rfl
        rfl rfl sound.inside ⟨cells, queue.loadTail sound.rounds position⟩ ok
        (by rw [position]; rfl) (fun v => by rw [position]; rfl)
        (by rw [position]; rfl)
  | storeTail tail curreq =>
      simp only [Spmd.workerNext, position, Option.some.injEq] at taken
      subst taken
      rw [position] at ok
      refine sound.critical (.signal curreq 0) rfl rfl rfl rfl rfl rfl rfl
        sound.inside ⟨cells, queue.storeTail sound.rounds position⟩
        ⟨ok.1, Nat.zero_le n, ok.2⟩ (by rw [position]; rfl) ?_
        (by rw [position]; rfl)
      intro v
      rw [position]
      simp [SpmdPc.posted]
  | signal curreq i =>
      simp only [Spmd.workerNext, position, Option.some.injEq] at taken
      subst taken
      exact sound.signal position
  | enter curreq =>
      simp only [Spmd.workerNext, position, Option.some.injEq] at taken
      subst taken
      exact sound.enter position
  | leave curreq =>
      simp only [Spmd.workerNext, position, Option.some.injEq] at taken
      subst taken
      exact sound.leave position

/-- Every step keeps the invariant. -/
theorem Sound.next
    (sound : Sound spmd)
    {label : SpmdLabel n F A τ}
    (taken : spmdNext spmd label = some after) :
    Sound after := by
  obtain ⟨-, ⟨req, -, position, rfl⟩ | ⟨w, -, position, rfl⟩ | ⟨w, -, stepped⟩⟩ :=
    spmdNext_cases taken
  · exact sound.request position
  · have ok := sound.rounds.ok w
    rw [position] at ok
    exact sound.goOn .load (by rw [position]; exact ⟨rfl, rfl⟩)
      ⟨rfl, rfl⟩ ok (by rw [position]; rfl)
      (fun v => by rw [position]; rfl) (by rw [position]; rfl)
  · exact sound.workerNext stepped

/-- The invariant holds initially. -/
theorem sound_lpelSpmdInit
    (positive : 0 < n)
    (memory : ℕ → F × A × τ) :
    Sound (lpelSpmdInit memory : Spmd n F A τ) := by
  refine ⟨⟨List.nil_prefix, fun _ => rfl, ?_⟩, ⟨fun _ => none, ?_⟩, ?_, positive,
    ?_⟩
  · intro v
    simp [lpelSpmdInit, SpmdPc.waited, SpmdPc.posted, owed, due]
  · refine ⟨?_, ?_, ?_, ?_, ⟨0, ?_⟩, ?_⟩
    · exact CyclicSegment.empty (Nat.mod_lt _ positive)
    · intro slot _
      rfl
    · intro w tail req position
      exact absurd position (by simp [lpelSpmdInit])
    · intro _
      exact (Nat.zero_mod n).symm
    · simp [lpelSpmdInit, Spmd.begun]
    · intro w tail curreq position
      exact absurd position (by simp [lpelSpmdInit])
  · refine ⟨?_, ?_⟩
    · intro w
      simp [lpelSpmdInit, Spmd.waiting, SpmdPc.holds]
    · intro w
      simp [lpelSpmdInit]
  · simp [lpelSpmdInit]

/-- The invariant holds in every reachable state. -/
theorem Sound.ofReachable
    (positive : 0 < n)
    (reached : (spmdMachine n F A τ).Reachable spmd) :
    Sound spmd := by
  refine Machine.Reachable.invariant ?_ ?_ reached
  · rintro _ ⟨memory, rfl⟩
    exact sound_lpelSpmdInit positive memory
  · intro spmd label after sound taken
    exact sound.next taken

end Steps

/-- The worker is between the start barrier and the signals to the others. -/
def SpmdPc.critical : SpmdPc n F A τ → Bool
  | .invalidate _ _ | .moveHead _ _ | .loadTail _ | .storeTail _ _ => true
  | _ => false

/-- The request of the round that the worker takes part in, as it was copied. -/
def SpmdPc.curreq : SpmdPc n F A τ → Option (Request n F A τ)
  | .startWait _ curreq _ | .invalidate _ curreq | .moveHead _ curreq
  | .loadTail curreq | .storeTail _ curreq | .signal curreq _ | .enter curreq
  | .wait curreq | .exec curreq | .stopWait curreq _ | .finish curreq
  | .leave curreq => some curreq
  | _ => none

/-- What the comments of the module promise. -/
structure Spmd.Exclusive (spmd : Spmd n F A τ) : Prop where
  /-- While a master is in the critical section every other worker is inside the
  start barrier of the same round. -/
  alone : ∀ w, (spmd.thread w).critical = true → ∀ u, u ≠ w →
    ∃ curreq, spmd.thread u = .wait curreq ∧ spmd.round u = spmd.round w
  /-- The requests are taken in the order in which they were issued, and none
  twice. -/
  order : spmd.taken <+: spmd.masters
  /-- Round `k` of every worker is the round of request `k`. -/
  same : ∀ w curreq, (spmd.thread w).curreq = some curreq →
    spmd.masters[spmd.round w]? = some curreq.wctx
  /-- Every worker has completed all rounds that have begun, but for the last. -/
  together : ∀ w, spmd.round w = spmd.taken.length ∨
    spmd.round w + 1 = spmd.taken.length
  /-- A request is written into a free slot. -/
  free : ∀ w tail req, spmd.thread w = .setWctx tail req →
    (spmd.reqQueue tail).wctx = none
  qhead_lt : spmd.qhead < n
  qtail_lt : spmd.qtail < 2 * n
  /-- `assert( 1 == master_data->pending )`. -/
  pending : spmd.failed ≠ some .notPending

/-- What a worker knows of its round, in any part of it. -/
theorem SpmdPc.Ok.curreq
    {masters : List (Fin n)}
    {begun round : ℕ}
    {w : Fin n}
    {pc : SpmdPc n F A τ}
    (ok : pc.Ok masters begun w round)
    {curreq : Request n F A τ}
    (copied : pc.curreq = some curreq) :
    masters[round]? = some curreq.wctx := by
  cases pc <;> simp only [SpmdPc.curreq, Option.some.injEq, reduceCtorEq] at copied
  case startWait =>
    rw [← copied, ok.2.2.2.1]
    exact ok.2.2.2.2
  case invalidate | moveHead | signal | stopWait =>
    rw [← copied, ok.2.2.1]
    exact ok.2.2.2
  case loadTail | storeTail | finish =>
    rw [← copied, ok.2.1]
    exact ok.2.2
  case enter | wait | leave =>
    rw [← copied]
    exact ok.2.2
  case exec =>
    rw [← copied]
    exact ok.2

theorem SpmdPc.Ok.together
    {masters : List (Fin n)}
    {begun round : ℕ}
    {w : Fin n}
    {pc : SpmdPc n F A τ}
    (ok : pc.Ok masters begun w round) :
    round = begun ∨ round + 1 = begun := by
  cases pc with
  | out | load => exact .inl ok
  | append | setWctx | setFunc | setArg | setTask | copy | startWait |
    invalidate | enter => exact .inl ok.1
  | wait => exact ok.1
  | moveHead | loadTail | storeTail | signal | exec | stopWait | finish |
    leave => exact .inr ok.1

/-- The critical section is exclusive. -/
theorem Rounds.exclusive
    {spmd : Spmd n F A τ}
    {w : Fin n}
    (rounds : Rounds spmd)
    (critical : (spmd.thread w).critical = true)
    (u : Fin n)
    (distinct : u ≠ w) :
    ∃ curreq, spmd.thread u = .wait curreq ∧ spmd.round u = spmd.round w := by
  have ok := rounds.ok w
  by_cases behind : (spmd.thread w).correcting = true
  · obtain ⟨curreq, waiting, late⟩ := rounds.alone behind u distinct
    refine ⟨curreq, waiting, ?_⟩
    have late' : spmd.round w + 1 = spmd.begun := by
      cases position : spmd.thread w <;>
        simp_all [SpmdPc.correcting, SpmdPc.Ok]
    omega
  · cases position : spmd.thread w <;>
      simp [position, SpmdPc.critical, SpmdPc.correcting] at critical behind
    case invalidate head curreq =>
      rw [position] at ok
      obtain ⟨-, all⟩ := rounds.all_knock position
      obtain ⟨⟨req, waiting, -⟩, -, early, -⟩ :=
        rounds.of_knocks (by rw [all u distinct]; exact one_ne_zero)
      exact ⟨req, waiting, by rw [early, ok.1]⟩

/-- In every state of every run a master in the critical section is alone with
the queue, the requests are served in the order in which they were issued, all
workers take part in the same rounds, a request is written into a free slot, and
the master finds its pending flag set. -/
theorem spmdExclusive
    (positive : 0 < n)
    {spmd : Spmd n F A τ}
    (reached : (spmdMachine n F A τ).Reachable spmd) :
    spmd.Exclusive := by
  have sound := Sound.ofReachable positive reached
  obtain ⟨cells, queue⟩ := sound.queue
  refine ⟨?_, sound.rounds.ordered, ?_, ?_, ?_, sound.inside, ?_, sound.ok⟩
  · intro w critical
    exact sound.rounds.exclusive critical
  · intro w curreq copied
    exact (sound.rounds.ok w).curreq copied
  · intro w
    exact (sound.rounds.ok w).together
  · intro w tail req position
    obtain ⟨inside, cell⟩ := queue.reserved w tail req position
    have ok := sound.rounds.ok w
    rw [position] at ok
    rw [queue.slots tail inside, cell]
    simp [ok.2, position, SpmdPc.reserves]
  · obtain ⟨corrected, -, above, qtail, -⟩ := queue.tail
    have reduced := Nat.mod_lt corrected positive
    omega

section Example

/-- A task on the first worker issues a request, and both workers come to the
start barrier. -/
def meetingRun (first second : Fin 2) : List (SpmdLabel 2 ℕ ℕ ℕ) :=
  let here := SpmdLabel.step first
  let there := SpmdLabel.step second
  [.request { wctx := first, func := 1, arg := 2, task := 3 }, here, here, here,
    here, here, here, here, .handle second, there, there, there, here, here]

/-- The first worker is in the critical section, and the second one waits. -/
theorem spmdExclusive_met :
    ∃ spmd : Spmd 2 ℕ ℕ ℕ, (spmd.thread 0).critical = true ∧
      spmd.Exclusive := by
  obtain ⟨spmd, reached, tested⟩ := Machine.exists_reachable_of_run
    (⟨_, rfl⟩ : (spmdMachine 2 ℕ ℕ ℕ).init (lpelSpmdInit fun _ => (0, 0, 0)))
    (by decide : ((spmdMachine 2 ℕ ℕ ℕ).run (lpelSpmdInit fun _ => (0, 0, 0))
      (meetingRun 0 1)).map (fun spmd => (spmd.thread 0).critical) = some true)
  exact ⟨spmd, tested, spmdExclusive (by decide) reached⟩

end Example

end Decen
end Lpel
