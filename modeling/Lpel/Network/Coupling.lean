import Lpel.Network.Composition

/-!
# What connects the scheduler and the streams

The phase of a task says where it is in its stream operation: a task that runs does
not wait for its stream, a blocked one does and no wakeup was sent to it, and a
ready one is in its own function or returns from a block with a wakeup.  Each step
of the tasks under a scheduler keeps this, so what the scheduler assumes of the
wakeups and what the streams assume of them both hold.
-/

namespace Lpel
namespace TaskNetwork

open Lifecycle (Phase Event Scheduler)

variable {τ ι α σ S L θ C : Type} {config : Config τ ι α σ}

/-- What the phase of a task says about its stream operation. -/
def Agrees (network : State config) (t : τ) : Phase → Prop
  | .created =>
      network.pc t = .outside ∧ network.process t = config.tasks.start t
  | .ready =>
      network.pc t = .outside ∨
        (network.pc t).isBlocked = true ∧ 0 < network.wake t
  | .running => (network.pc t).waits = false
  | .committed woken =>
      (network.pc t).waits = true ∧ (network.pc t).isBlocked = false ∧
        (woken = true ↔ 0 < network.wake t)
  | .blocked => (network.pc t).isBlocked = true ∧ network.wake t = 0
  | .exited => network.Done t

/-- The agreement is about one task. -/
theorem Agrees.congr
    {network next : State config}
    {t : τ}
    {phase : Phase}
    (agrees : Agrees network t phase)
    (pc : next.pc t = network.pc t)
    (wake : next.wake t = network.wake t)
    (process : next.process t = network.process t) :
    Agrees next t phase := by
  cases phase <;>
    simp only [Agrees, State.Done, pc, wake, process] at agrees ⊢ <;>
    exact agrees

variable [DecidableEq ι]

/-- The phases of the tasks agree with their stream operations. -/
structure Coupled (phase : τ → Phase) (network : State config) : Prop where
  streams : Invariant network
  agrees : ∀ t, Agrees network t (phase t)

namespace Coupled

variable {phase after : τ → Phase} {network next : State config} {t u : τ}

theorem initial (config : Config τ ι α σ) :
    Coupled (fun _ => .created) (State.initial config) where
  streams := invariant_initial config
  agrees _ := ⟨rfl, rfl⟩

/-- A task that waits for a full or an empty stream, and to which no wakeup was
sent, is blocked or will be. -/
theorem awaits
    (coupled : Coupled phase network)
    (waits : (network.pc t).waits = true)
    (unwoken : network.wake t = 0) :
    (phase t).awaits = true := by
  have agrees := coupled.agrees t
  have inside : network.pc t ≠ .outside := by
    intro outside
    rw [outside] at waits
    cases waits
  cases is : phase t with
  | committed woken =>
      rw [is] at agrees
      cases woken with
      | false => rfl
      | true => exact absurd unwoken (agrees.2.2.mp rfl).ne'
  | blocked => rfl
  | created =>
      rw [is] at agrees
      exact absurd agrees.1 inside
  | ready =>
      rw [is] at agrees
      rcases agrees with outside | ⟨-, woken⟩
      · exact absurd outside inside
      · exact absurd unwoken woken.ne'
  | running =>
      rw [is] at agrees
      exact absurd (waits.symm.trans agrees) (by decide)
  | exited =>
      rw [is] at agrees
      exact absurd agrees.1 inside

/-- A task on a thread that waits is about to block. -/
theorem committed_of
    (coupled : Coupled phase network)
    (executes : (phase t).executes = true)
    (waits : (network.pc t).waits = true) :
    ∃ woken, phase t = .committed woken := by
  have agrees := coupled.agrees t
  cases is : phase t with
  | committed woken => exact ⟨woken, rfl⟩
  | running =>
      rw [is] at agrees
      exact absurd (waits.symm.trans agrees) (by decide)
  | _ =>
      rw [is] at executes
      cases executes

/-- A task on a thread that does not wait runs. -/
theorem running_of
    (coupled : Coupled phase network)
    (executes : (phase t).executes = true)
    (active : (network.pc t).waits = false) :
    phase t = .running := by
  have agrees := coupled.agrees t
  cases is : phase t with
  | running => rfl
  | committed woken =>
      rw [is] at agrees
      exact absurd (agrees.1.symm.trans active) (by decide)
  | _ =>
      rw [is] at executes
      cases executes

/-- A task on a thread is not in `LpelTaskBlockStream`. -/
theorem not_isBlocked
    (coupled : Coupled phase network)
    (executes : (phase t).executes = true) :
    (network.pc t).isBlocked = false := by
  rw [Bool.eq_false_iff]
  intro blocked
  obtain ⟨woken, is⟩ := coupled.committed_of executes
    (TaskPc.waits_of_isBlocked blocked)
  have agrees := coupled.agrees t
  rw [is] at agrees
  exact absurd (blocked.symm.trans agrees.2.1) (by decide)

variable [DecidableEq τ]

/-- Only one task is concerned. -/
theorem update
    (coupled : Coupled phase network)
    (t : τ)
    (streams : Invariant next)
    (others : ∀ u, u ≠ t → after u = phase u ∧ next.pc u = network.pc u ∧
      next.wake u = network.wake u ∧ next.process u = network.process u)
    (own : Agrees next t (after t)) :
    Coupled after next where
  streams := streams
  agrees := by
    intro u
    by_cases same : u = t
    · subst same
      exact own
    · obtain ⟨phases, pc, wake, process⟩ := others u same
      rw [phases]
      exact (coupled.agrees u).congr pc wake process

/-- An event of the scheduler keeps the agreement. -/
theorem react
    (coupled : Coupled phase network)
    {event : τ × Event}
    (goes : (Lifecycle.machine τ).next phase event = some after)
    (reacts : network.react event = some next) :
    Coupled after next := by
  obtain ⟨t, event⟩ := event
  obtain ⟨goes, others⟩ := Lifecycle.next_iff.mp goes
  have agrees := coupled.agrees t
  have still (same : next = network) (own : Agrees network t (after t)) :
      Coupled after next := by
    subst same
    exact coupled.update t coupled.streams
      (fun u other => ⟨others u other, rfl, rfl, rfl⟩) own
  have cases_ := Phase.next_cases goes
  generalize phase t = before at agrees cases_
  generalize becomes : after t = now at cases_
  cases cases_ with
  | start =>
      obtain rfl := Option.some.inj reacts
      exact still rfl (by rw [becomes]; exact .inl agrees.1)
  | dispatch =>
      obtain rfl := Option.some.inj reacts
      rcases agrees with outside | ⟨blocked, woken⟩
      · have same := returnFromBlock_of_not_isBlocked network t
          (by rw [outside]; rfl)
        refine still same ?_
        rw [becomes, Agrees, outside]
        rfl
      · refine coupled.update t (coupled.streams.resume blocked woken) ?_ ?_
        · intro u other
          obtain ⟨pc, wake⟩ := returnFromBlock_frame network t other
          exact ⟨others u other, pc, wake,
            by rw [returnFromBlock_process network t]⟩
        · rw [becomes]
          exact (returnFromBlock_of_isBlocked _ t blocked).1
  | yield =>
      obtain ⟨outside, same⟩ := Option.ite_none_right_eq_some.mp reacts
      obtain rfl := Option.some.inj same
      exact still rfl (by rw [becomes]; exact .inl (State.pc_of_isOutside outside))
  | exit =>
      obtain ⟨done, same⟩ := Option.ite_none_right_eq_some.mp reacts
      obtain rfl := Option.some.inj same
      exact still rfl (by rw [becomes]; exact State.isDone_iff.mp done)
  | commit | block | overtaken | awaited | wakeup => cases reacts

/-- A step of the scheduler that is an event or none. -/
theorem reactTo
    (coupled : Coupled phase network)
    {event : Option (τ × Event)}
    (goes : (Lifecycle.machine τ).run phase event.toList = some after)
    (reacts : network.reactTo event = some next) :
    Coupled after next := by
  cases event with
  | none =>
      obtain rfl := Option.some.inj goes
      obtain rfl := Option.some.inj reacts
      exact coupled
  | some event =>
      exact coupled.react (Lifecycle.run_toList_iff.mp goes) reacts

end Coupled

/-- The event that an effect asks for. -/
def Effect.event (t : τ) : Effect τ → Option (τ × Event)
  | .none => Option.none
  | .commit => some (t, .commit)
  | .block => some (t, .block)
  | .unblock whom => some (whom, .wakeup)

namespace Coupled

variable {phase after : τ → Phase} {network next : State config} {t u : τ}
variable [DecidableEq τ]

/-- A step of a task on a thread keeps the agreement. -/
theorem stepped
    (coupled : Coupled phase network)
    (executes : (phase t).executes = true)
    {effect : Effect τ}
    (stepped : Stepped network t effect next)
    (goes : (Lifecycle.machine τ).run phase (effect.event t).toList =
      some after) :
    Coupled after next := by
  have seen := coupled.streams.seen stepped
  have streams := coupled.streams.step stepped
  cases effect with
  | none =>
      obtain rfl := Option.some.inj goes
      obtain ⟨before, now, wake⟩ := seen
      refine coupled.update t streams ?_ ?_
      · intro u other
        obtain ⟨pc, process⟩ := stepped.frame other
        exact ⟨rfl, pc, by rw [wake], process⟩
      · rw [coupled.running_of executes before]
        exact now
  | commit =>
      obtain ⟨goes, others⟩ := Lifecycle.next_iff.mp
        (Lifecycle.run_toList_iff.mp goes)
      obtain ⟨before, waits, active, wake⟩ := seen
      refine coupled.update t streams ?_ ?_
      · intro u other
        obtain ⟨pc, process⟩ := stepped.frame other
        exact ⟨others u other, pc, by rw [wake], process⟩
      · rw [coupled.running_of executes before] at goes
        obtain is := Option.some.inj goes
        rw [← is, Agrees, wake, coupled.streams.woken t before]
        exact ⟨waits, active, by simp⟩
  | block =>
      obtain ⟨goes, others⟩ := Lifecycle.next_iff.mp
        (Lifecycle.run_toList_iff.mp goes)
      obtain ⟨waits, -, blocked, wake⟩ := seen
      refine coupled.update t streams ?_ ?_
      · intro u other
        obtain ⟨pc, process⟩ := stepped.frame other
        exact ⟨others u other, pc, by rw [wake], process⟩
      · obtain ⟨woken, is⟩ := coupled.committed_of executes waits
        have agrees := coupled.agrees t
        rw [is] at goes agrees
        cases woken with
        | false =>
            obtain is := Option.some.inj goes
            rw [← is, Agrees, wake]
            refine ⟨blocked, ?_⟩
            by_contra sent
            exact absurd (agrees.2.2.mpr (Nat.pos_of_ne_zero sent)) (by decide)
        | true =>
            obtain is := Option.some.inj goes
            rw [← is, Agrees, wake]
            exact .inr ⟨blocked, agrees.2.2.mp rfl⟩
  | unblock whom =>
      obtain ⟨goes, others⟩ := Lifecycle.next_iff.mp
        (Lifecycle.run_toList_iff.mp goes)
      obtain ⟨before, outside, waits, unwoken, wake⟩ := seen
      have distinct : t ≠ whom := by
        rintro rfl
        rw [before] at waits
        cases waits
      have frame := (stepped.frame distinct.symm).1
      refine ⟨streams, ?_⟩
      intro u
      by_cases woken : u = whom
      · subst woken
        have agrees := coupled.agrees u
        have sent : 0 < next.wake u := by
          rw [wake, Function.update_self]
          exact Nat.one_pos
        have cases_ := Phase.next_cases goes
        generalize phase u = was at agrees cases_
        generalize after u = now at cases_
        cases cases_ with
        | awaited =>
            rw [Agrees, frame]
            exact ⟨agrees.1, agrees.2.1, iff_of_true rfl sent⟩
        | wakeup =>
            rw [Agrees, frame]
            exact .inr ⟨agrees.1, sent⟩
      · rw [others u woken]
        by_cases same : u = t
        · subst same
          rw [coupled.running_of executes before, Agrees, outside]
          rfl
        · obtain ⟨pc, process⟩ := stepped.frame same
          exact (coupled.agrees u).congr pc
            (by rw [wake, Function.update_of_ne woken]) process

end Coupled

end TaskNetwork
end Lpel
