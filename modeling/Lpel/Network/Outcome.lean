import Lpel.Network.Runtime

/-!
# The outcome of a run

Under a scheduler that forgets no task, all tasks have returned or wait for a stream
that stays empty or full where no thread can go on.  So what the streams have
carried is then what the tasks determine: it depends neither on the scheduler nor on
the order of the steps.
-/

namespace Lpel
namespace TaskNetwork

open Lifecycle (Phase Event Scheduler Diligence)

variable {τ ι α σ S L θ C : Type} [DecidableEq τ] [DecidableEq ι]
variable {config : Config τ ι α σ} {scheduler : Scheduler τ S L θ C}
variable {runtime after : Runtime config S}

/-- The condition on the steps of the scheduler. -/
def Runtime.keepsGoing
    (diligence : Diligence scheduler)
    (runtime : Runtime config S) : RuntimeLabel L θ C → Prop
  | .schedule label => diligence.keeps runtime.scheduler label
  | .stream _ _ => True

/-- No thread can go on by itself: neither for the scheduler, nor in a stream
operation of its task, nor by returning from the function of its task. -/
structure Runtime.Quiescent
    (diligence : Diligence scheduler)
    (runtime : Runtime config S) : Prop where
  internal : ∀ label, diligence.internal runtime.scheduler label →
    runtime.next scheduler (.schedule label) = none
  stream : ∀ thread choice,
    runtime.next scheduler (.stream thread choice) = none
  exit : ∀ thread, runtime.next scheduler (.schedule (scheduler.exit thread)) =
    none

/-- The functions of the tasks that were not started return at once. -/
def Runtime.AllStarted
    (scheduler : Scheduler τ S L θ C)
    (runtime : Runtime config S) : Prop :=
  ∀ t, scheduler.phase runtime.scheduler t ≠ .created ∨
    config.tasks.act t (config.tasks.start t) = .exit

/-- What is known where all steps meet the condition. -/
structure RuntimeGoesOn
    (diligence : Diligence scheduler)
    (runtime : Runtime config S) : Prop where
  ok : RuntimeOk scheduler runtime
  diligent : diligence.known runtime.scheduler

/-- The rule for runs whose steps all meet the condition. -/
theorem RuntimeGoesOn.ofReachable
    {diligence : Diligence scheduler}
    (reached : (runtimeMachine scheduler config).ReachableBy
      (Runtime.keepsGoing diligence) runtime) :
    RuntimeGoesOn diligence runtime := by
  refine Machine.ReachableBy.invariant ?_ ?_ reached
  · intro start initial
    exact ⟨RuntimeOk.initial initial, diligence.init _ initial.1⟩
  · intro before label after known keeps taken
    refine ⟨known.ok.step taken, ?_⟩
    cases runtimeNext_cases taken with
    | schedule stepped => exact diligence.step _ _ _ known.diligent keeps stepped
    | alone => exact known.diligent
    | @together thread choice t effect network label after function stepped asked
        scheduled =>
        refine diligence.step _ _ _ known.diligent ?_ scheduled
        cases effect <;> cases asked
        · exact diligence.keeps_commit ..
        · exact diligence.keeps_block ..
        · exact diligence.keeps_wakeup ..

namespace RuntimeGoesOn

variable {diligence : Diligence scheduler} [Nonempty C]

/-- Where no thread can go on, no task executes its function. -/
theorem not_executes
    (known : RuntimeGoesOn diligence runtime)
    (quiescent : runtime.Quiescent diligence)
    (t : τ) :
    (scheduler.phase runtime.scheduler t).executes = false := by
  rw [Bool.eq_false_iff]
  intro executes
  have ok := known.ok
  obtain ⟨thread, function⟩ := (scheduler.executes _ t ok.known).mpr executes
  by_cases done : runtime.network.Done t
  · have running := ok.coupled.running_of executes (by rw [done.1]; rfl)
    obtain ⟨event, enabled⟩ := scheduler.exits _ thread t ok.known function running
    obtain ⟨after, stepped⟩ := Option.isSome_iff_exists.mp enabled
    have stays := quiescent.exit thread
    simp [Runtime.next, stepped, event, State.reactTo, State.react,
      State.isDone_iff.mpr done] at stays
  · obtain ⟨effect, network, stepped⟩ := ok.coupled.streams.exists_step
      (ok.coupled.not_isBlocked executes) done
    obtain ⟨choice⟩ : Nonempty C := inferInstance
    have accepted := ok.accepts function stepped choice
    rw [quiescent.stream thread choice] at accepted
    cases accepted

/-- Where no thread can go on, every task has returned or is blocked without a
wakeup. -/
theorem resting
    (known : RuntimeGoesOn diligence runtime)
    (quiescent : runtime.Quiescent diligence)
    (all : runtime.AllStarted scheduler)
    (t : τ) :
    runtime.network.Resting t := by
  have stuck : ∀ label, diligence.internal runtime.scheduler label →
      scheduler.machine.next runtime.scheduler label = none := by
    intro label internal
    by_contra enabled
    obtain ⟨after, stepped⟩ := Option.ne_none_iff_exists'.mp enabled
    have stays := quiescent.internal label internal
    cases event : scheduler.event runtime.scheduler label with
    | none => simp [Runtime.next, stepped, event, State.reactTo] at stays
    | some event' =>
        obtain ⟨u, event'⟩ := event'
        obtain rfl := diligence.dispatches _ _ _ _ internal event
        simp [Runtime.next, stepped, event, State.reactTo, State.react] at stays
  have rests := diligence.rests _ known.diligent stuck
    (known.not_executes quiescent) t
  have agrees := known.ok.coupled.agrees t
  have started := all t
  generalize scheduler.phase runtime.scheduler t = phase at rests agrees started
  cases phase with
  | created =>
      rcases started with started | exits
      · exact absurd rfl started
      · exact .inl ⟨agrees.1, by rw [agrees.2]; exact exits⟩
  | blocked => exact .inr agrees
  | exited => exact .inl agrees
  | ready | running | committed => cases rests

/-- Where no thread can go on, no process could go on over channels of the same
capacities.  The capacities of streams for which no task waits do not matter. -/
theorem stuck
    (known : RuntimeGoesOn diligence runtime)
    (quiescent : runtime.Quiescent diligence)
    (all : runtime.AllStarted scheduler)
    {capacity : ι → Option ℕ}
    (sameSizes : ∀ t i, runtime.network.pc t = .write i .blocked →
      capacity i = config.capacity i) :
    (config.tasks.machine capacity).Stuck runtime.network.abs :=
  known.ok.coupled.streams.stuck_of_resting (known.resting quiescent all) sameSizes

end RuntimeGoesOn

/-- Where all tasks were started, they are later. -/
theorem RuntimeOk.allStarted_run
    {labels : List (RuntimeLabel L θ C)}
    (ok : RuntimeOk scheduler runtime)
    (all : runtime.AllStarted scheduler)
    (executed : (runtimeMachine scheduler config).run runtime labels =
      some after) :
    after.AllStarted scheduler := by
  induction labels generalizing runtime with
  | nil =>
      obtain rfl := Option.some.inj executed
      exact all
  | cons label labels inductionHypothesis =>
      obtain ⟨middle, taken, rest⟩ := Machine.run_cons_iff.mp executed
      refine inductionHypothesis (ok.step taken) ?_ rest
      intro t
      refine (all t).imp_left fun started => ?_
      cases runtimeNext_cases taken with
      | schedule stepped | together _ _ _ stepped =>
          exact Lifecycle.ne_created_of_run
            (scheduler.step _ _ _ ok.known stepped).2 started
      | alone => exact started

section Two

variable {S' L' θ' C' : Type} [Nonempty C] [Nonempty C']
variable {scheduler' : Scheduler τ S' L' θ' C'} {config' : Config τ ι α σ}
variable {diligence : Diligence scheduler} {diligence' : Diligence scheduler'}
variable {runtime' : Runtime config' S'}

/-- Two runs of the same tasks, under the same or different schedulers, where the
streams of the first one hold at least as much.  Where the first one cannot go on, the
second one has written no more to any stream.  Where the second one cannot go on, and
no task waits for space in a stream that holds more in the first one, the first one
has written no more.  So where neither can go on they have written the same, and their
tasks are in the same states. -/
theorem outcomes_agree
    (sameTasks : config'.tasks = config.tasks)
    (wider : ∀ i held, Processes.room (config'.capacity i) held = true →
      Processes.room (config.capacity i) held = true)
    (reached : (runtimeMachine scheduler config).ReachableBy
      (Runtime.keepsGoing diligence) runtime)
    (reached' : (runtimeMachine scheduler' config').ReachableBy
      (Runtime.keepsGoing diligence') runtime') :
    (runtime.Quiescent diligence → runtime.AllStarted scheduler →
      ∀ i, runtime'.network.written i <+: runtime.network.written i) ∧
    (runtime'.Quiescent diligence' → runtime'.AllStarted scheduler' →
      (∀ t i, runtime'.network.pc t = .write i .blocked →
        config.capacity i = config'.capacity i) →
      (∀ i, runtime.network.written i <+: runtime'.network.written i) ∧
      (runtime.Quiescent diligence → runtime.AllStarted scheduler →
        runtime'.network.abs = runtime.network.abs)) := by
  have known := RuntimeGoesOn.ofReachable reached
  have known' := RuntimeGoesOn.ofReachable reached'
  obtain ⟨steps, runs⟩ := abs_of_reachable reached.reachable
  obtain ⟨steps', runs'⟩ := abs_of_reachable reached'.reachable
  rw [sameTasks] at runs'
  have runs' := Processes.run_of_room wider runs'
  have stops (quiescent : runtime.Quiescent diligence)
      (all : runtime.AllStarted scheduler) :
      (config.tasks.machine config.capacity).Stuck runtime.network.abs :=
    known.stuck quiescent all fun _ _ _ => rfl
  refine ⟨?_, ?_⟩
  · intro quiescent all
    exact Processes.sent_prefix_of_stuck runs (stops quiescent all) runs'
  · intro quiescent' all' sameSizes
    have stuck' := known'.stuck quiescent' all' sameSizes
    rw [sameTasks] at stuck'
    refine ⟨Processes.sent_prefix_of_stuck runs' stuck' runs, ?_⟩
    intro quiescent all
    exact (Processes.commutes config.tasks config.capacity).stuck_unique runs
      (stops quiescent all) runs' stuck'

end Two

end TaskNetwork
end Lpel
