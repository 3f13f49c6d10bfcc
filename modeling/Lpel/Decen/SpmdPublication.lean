import Lpel.Decen.SpmdSafety

/-!
# Between the reservation of a slot and the last write to it

A request is in the queue from the addition to the tail on, but its slot is
written later, field by field.  A worker that looks at the queue in the meantime
takes an unpublished slot for the end of the queue, although its own request may
be behind it; and it takes a slot whose `wctx` is written for a complete request.
-/

namespace Lpel
namespace Decen

variable {n : ℕ} {F A τ : Type}

/-- A worker with an outstanding request looks at the head of the queue while the
slot there is reserved and not yet published. -/
def looksTooEarly (spmd : Spmd n F A τ) : SpmdLabel n F A τ → Bool
  | .step w =>
      match spmd.thread w with
      | .copy head =>
          spmd.pending w ≠ 0 ∧ ∃ u, (spmd.thread u).reserves = some head
      | _ => false
  | _ => false

namespace SpmdPc

/-- The worker has published its request and not yet completed it. -/
def filling : SpmdPc n F A τ → Bool
  | .setFunc _ _ | .setArg _ _ | .setTask _ _ => true
  | _ => false

end SpmdPc

/-- A worker copies a request that is published and not yet complete. -/
def copiesTooEarly (spmd : Spmd n F A τ) : SpmdLabel n F A τ → Bool
  | .step w =>
      match spmd.thread w with
      | .copy head =>
          match (spmd.reqQueue head).wctx with
          | some m => (spmd.thread m).filling
          | none => false
      | _ => false
  | _ => false

section Outstanding

variable {spmd after : Spmd n F A τ} {w : Fin n}

/-- What a step of a worker leaves alone: the other workers, and the flag of the
worker itself unless it completes a round.  A worker is outside the module only
after it has found no request. -/
structure Steps (spmd after : Spmd n F A τ) (w : Fin n) : Prop where
  threads : ∀ u, u ≠ w → after.thread u = spmd.thread u
  flags : ∀ u, u ≠ w → after.pending u = spmd.pending u
  failed : spmd.failed = none → after.failed ≠ some .outstanding
  out : after.thread w = .out → after.pending w = spmd.pending w ∧
    ∃ head, spmd.thread w = .copy head ∧ (spmd.reqQueue head).wctx = none

/-- A worker goes on inside the module. -/
theorem Steps.goOn
    (pc : SpmdPc n F A τ)
    (inside : pc ≠ .out)
    (thread : after.thread = Function.update spmd.thread w pc)
    (pending : ∀ u, u ≠ w → after.pending u = spmd.pending u)
    (failed : after.failed = spmd.failed) :
    Steps spmd after w := by
  refine ⟨?_, pending, ?_, ?_⟩
  · intro u distinct
    rw [thread, Function.update_of_ne distinct]
  · intro running
    rw [failed, running]
    simp
  · intro out
    rw [thread, Function.update_self] at out
    exact absurd out inside

theorem Steps.takeToken
    (pc : SpmdPc n F A τ)
    (inside : pc ≠ .out)
    (taken : (spmd.semWait w).map (fun spmd => spmd.setThread w pc) =
      some after) :
    Steps spmd after w := by
  unfold Spmd.semWait at taken
  split at taken
  case isFalse => exact absurd taken (by simp)
  case isTrue =>
    obtain rfl := Option.some.inj taken
    exact .goOn pc inside rfl (fun _ _ => rfl) rfl

theorem steps_copyRequest
    {head : ℕ}
    (position : spmd.thread w = .copy head) :
    Steps spmd (spmd.copyRequest w head) w := by
  unfold Spmd.copyRequest
  dsimp only
  split
  case h_1 none =>
    refine ⟨?_, fun _ _ => rfl, ?_, ?_⟩
    · intro u distinct
      exact Function.update_of_ne distinct ..
    · intro running
      exact fun same => absurd (running.symm.trans same) (by simp)
    · intro _
      exact ⟨rfl, head, position, none⟩
  case h_2 =>
    split
    · exact .goOn _ (by simp) rfl (fun _ _ => rfl) rfl
    · exact .goOn _ (by simp) rfl (fun _ _ => rfl) rfl

theorem steps_signalNext
    (w : Fin n)
    (curreq : Request n F A τ)
    (i : ℕ) :
    Steps spmd (spmd.signalNext w curreq i) w := by
  unfold Spmd.signalNext
  split
  · split
    · exact .goOn _ (by simp) rfl (fun _ _ => rfl) rfl
    · exact .goOn _ (by simp) rfl (fun _ _ => rfl) rfl
  · exact .goOn _ (by simp) rfl (fun _ _ => rfl) rfl

theorem steps_workerNext
    (taken : spmd.workerNext w = some after) :
    Steps spmd after w := by
  cases position : spmd.thread w <;>
    simp only [Spmd.workerNext, position, Option.some.injEq, reduceCtorEq]
      at taken
  case copy head =>
    subst taken
    exact steps_copyRequest position
  case signal curreq i =>
    subst taken
    exact steps_signalNext w curreq i
  case wait curreq => exact .takeToken _ (by simp) taken
  case startWait head curreq i =>
    split at taken
    · exact .takeToken _ (by simp) taken
    · obtain rfl := Option.some.inj taken
      exact .goOn _ (by simp) rfl (fun _ _ => rfl) rfl
  case stopWait curreq i =>
    split at taken
    · exact .takeToken _ (by simp) taken
    · obtain rfl := Option.some.inj taken
      exact .goOn _ (by simp) rfl (fun _ _ => rfl) rfl
  case exec curreq =>
    split at taken
    · obtain rfl := Option.some.inj taken
      exact .goOn _ (by simp) rfl (fun _ _ => rfl) rfl
    · obtain rfl := Option.some.inj taken
      exact .goOn _ (by simp) rfl (fun _ _ => rfl) rfl
  case finish curreq =>
    split at taken
    · obtain rfl := Option.some.inj taken
      refine .goOn .load (by simp) rfl ?_ rfl
      intro u distinct
      exact Function.update_of_ne distinct ..
    · obtain rfl := Option.some.inj taken
      refine ⟨fun _ _ => rfl, fun _ _ => rfl, fun _ => by simp [Spmd.fail], ?_⟩
      intro out
      exact absurd (position.symm.trans out) (by simp)
  all_goals
    subst taken
    exact .goOn _ (by simp) rfl (fun _ _ => rfl) rfl

/-- Where a worker finds no request and no slot is reserved, its own request is
done. -/
theorem Sound.not_pending
    (sound : Sound spmd)
    {head : ℕ}
    (position : spmd.thread w = .copy head)
    (none : (spmd.reqQueue head).wctx = none)
    (safe : looksTooEarly spmd (.step w) = false) :
    spmd.pending w = 0 := by
  by_contra outstanding
  obtain ⟨cells, queue⟩ := sound.queue
  have ok := sound.rounds.ok w
  rw [position] at ok
  obtain ⟨-, rfl⟩ := ok
  rw [queue.slots _ queue.segment.start_lt, queue.segment.first] at none
  cases waiting : spmd.waiting with
  | nil =>
      have count := sound.flags.count w
      rw [waiting, position] at count
      exact outstanding count
  | cons req rest =>
      rw [waiting] at none
      have reserved : (spmd.thread req.wctx).reserves =
          some (spmd.begun % n) := by
        by_contra published
        simp [published] at none
      have early : looksTooEarly spmd (.step w) = true := by
        rw [looksTooEarly, position]
        exact decide_eq_true ⟨outstanding, req.wctx, reserved⟩
      rw [early] at safe
      exact absurd safe (by simp)

/-- No worker outside the module has an outstanding request. -/
structure Idle (spmd : Spmd n F A τ) : Prop where
  out : ∀ w, spmd.thread w = .out → spmd.pending w = 0
  ok : spmd.failed ≠ some .outstanding

theorem Idle.next
    (idle : Idle spmd)
    (sound : Sound spmd)
    {label : SpmdLabel n F A τ}
    (safe : looksTooEarly spmd label = false)
    (taken : spmdNext spmd label = some after) :
    Idle after := by
  obtain ⟨running, ⟨req, -, position, rfl⟩ | ⟨w, -, -, rfl⟩ |
    ⟨w, rfl, stepped⟩⟩ := spmdNext_cases taken
  · rw [Spmd.lpelSpmdRequest, if_pos (idle.out req.wctx position)]
    refine ⟨?_, idle.ok⟩
    intro u out
    have distinct : u ≠ req.wctx := by
      rintro rfl
      simp [Spmd.setThread] at out
    simp only [Spmd.setThread, Spmd.setPending,
      Function.update_of_ne distinct] at out ⊢
    exact idle.out u out
  · refine ⟨?_, idle.ok⟩
    intro u out
    have distinct : u ≠ w := by
      rintro rfl
      simp [Spmd.setThread] at out
    simp only [Spmd.setThread, Function.update_of_ne distinct] at out
    exact idle.out u out
  · have steps := steps_workerNext stepped
    refine ⟨?_, steps.failed running⟩
    intro u out
    by_cases same : u = w
    · subst same
      obtain ⟨pending, head, position, none⟩ := steps.out out
      rw [pending]
      exact sound.not_pending position none safe
    · rw [steps.threads u same] at out
      rw [steps.flags u same]
      exact idle.out u out

/-- When `LpelSpmdHandleRequests` returns, the request of the worker is done, and
the next one may be issued, as long as no worker with an outstanding request looks
at the head of the queue while that slot is reserved and not yet published. -/
theorem oneOutstanding
    (reached : (spmdMachine n F A τ).ReachableBy
      (fun spmd label => looksTooEarly spmd label = false) spmd) :
    (∀ w, spmd.thread w = .out → spmd.pending w = 0) ∧
      spmd.failed ≠ some .outstanding := by
  have idle : Idle spmd := by
    induction reached with
    | init initial =>
        obtain ⟨memory, rfl⟩ := initial
        exact ⟨fun _ _ => rfl, by simp [lpelSpmdInit]⟩
    | @step spmd after label before safe taken inductionHypothesis =>
        exact inductionHypothesis.next
          (Sound.ofReachable label.pos before.reachable) safe taken
  exact ⟨idle.out, idle.ok⟩

end Outstanding

section OutstandingExample

/-- A request of a worker with the given function. -/
def requestOf (w : Fin 2) (func : ℕ) : SpmdLabel 2 ℕ ℕ ℕ :=
  .request { wctx := w, func := func, arg := 0, task := 0 }

/-- The first worker reserves the first slot.  The second one reserves the next
slot, writes its request and handles the requests. -/
def overtakingRun (first second : Fin 2) : List (SpmdLabel 2 ℕ ℕ ℕ) :=
  let there := SpmdLabel.step second
  [requestOf first 1, .step first, requestOf second 2, there, there, there, there,
    there, there, there]

/-- The second worker leaves the handler with its request still outstanding, and
the next task that issues one fails. -/
theorem oneOutstanding_overtaken :
    ∃ spmd : Spmd 2 ℕ ℕ ℕ, (spmdMachine 2 ℕ ℕ ℕ).Reachable spmd ∧
      spmd.thread 1 = .out ∧ spmd.pending 1 = 1 ∧
      spmd.failed = some .outstanding := by
  obtain ⟨spmd, reached, tested⟩ := Machine.exists_reachable_of_run
    (⟨_, rfl⟩ : (spmdMachine 2 ℕ ℕ ℕ).init (lpelSpmdInit fun _ => (0, 0, 0)))
    (by decide : ((spmdMachine 2 ℕ ℕ ℕ).run (lpelSpmdInit fun _ => (0, 0, 0))
      (overtakingRun 0 1 ++ [requestOf 1 3])).map (fun spmd => decide (
        spmd.thread 1 = .out ∧ spmd.pending 1 = 1 ∧
        spmd.failed = some .outstanding)) = some true)
  exact ⟨spmd, reached, of_decide_eq_true tested⟩

/-- The first worker publishes its request before the second one looks at the
queue, both workers complete the two rounds, and the second one is outside. -/
def servedRun (first second : Fin 2) : List (SpmdLabel 2 ℕ ℕ ℕ) :=
  let here := SpmdLabel.step first
  let there := SpmdLabel.step second
  [requestOf first 1, here, requestOf second 2, there, there, there, there, there,
    here, here, here, here] ++
  -- the round of the first worker
  [here, here, there, there, there, here, here, here, here, here, here, here,
    here, here, here, there, there, there, here, here, here] ++
  -- the round of the second worker
  [here, here, here, there, there, there, there, there, there, there, there,
    there, there, there, there, here, here, here, there, there, there, there,
    there]

/-- Nothing is outstanding on the second worker after its round. -/
theorem oneOutstanding_served :
    ∃ spmd : Spmd 2 ℕ ℕ ℕ, spmd.thread 1 = .out ∧ spmd.taken = [0, 1] ∧
      spmd.pending 1 = 0 ∧ spmd.failed ≠ some .outstanding := by
  obtain ⟨spmd, reached, tested⟩ := Machine.exists_reachableBy_of_runBy
    (⟨_, rfl⟩ : (spmdMachine 2 ℕ ℕ ℕ).init (lpelSpmdInit fun _ => (0, 0, 0)))
    (by decide : ((spmdMachine 2 ℕ ℕ ℕ).runBy
      (fun spmd label => !looksTooEarly spmd label)
      (lpelSpmdInit fun _ => (0, 0, 0)) (servedRun 0 1)).map (fun spmd =>
        decide (spmd.thread 1 = .out ∧ spmd.taken = [0, 1])) = some true)
  obtain ⟨out, taken⟩ := of_decide_eq_true tested
  have done := oneOutstanding (reached.mono (by
    intro spmd label safe
    simpa using safe))
  exact ⟨spmd, out, taken, done.1 1 out, done.2⟩

end OutstandingExample

end Decen
end Lpel
