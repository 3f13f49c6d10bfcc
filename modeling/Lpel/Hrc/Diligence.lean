import Lpel.Hrc.Idle

/-!
# The threads forget no task

The wrappers, like the master and the workers, go on as long as there is something to
do.  Where priorities are never the lowest one, all threads together leave only tasks
that were not started, have exited or wait for a wakeup.
-/

namespace Lpel
namespace Hrc

open Lifecycle (Phase Event)

variable {τ P : Type} {n : ℕ}

/-- The steps that the threads take by themselves. -/
def ThreadsLabel.isInternal : ThreadsLabel τ n → Bool
  | .sched label => label.isInternal
  | .wrapper (.thread _) => true
  | .wrapper _ => false

/-- The termination message is not sent. -/
def ThreadsLabel.goesOn : ThreadsLabel τ n → Bool
  | .sched label => label.goesOn
  | .wrapper _ => true

section Wrappers

variable [DecidableEq τ] {wrappers : Wrappers τ n} {t : τ}

/-- Where no wrapper goes on by itself, a task that does not execute its function was
not started, has exited or waits for a wakeup. -/
theorem WrappersOk.rests
    (ok : WrappersOk wrappers)
    (stops : ∀ c, wrappers.threadNext c = none)
    (nobody : (wrappers.phase t).executes = false) :
    (wrappers.phase t).rests = true := by
  by_cases created : wrappers.phase t = .created
  · rw [created]
    rfl
  by_cases exited : wrappers.phase t = .exited
  · rw [exited]
    rfl
  obtain ⟨c, lives⟩ := ok.lives_of created exited
  have still := stops c
  have situation := ok.situation t c lives
  unfold Wrappers.phase at nobody ⊢
  unfold Wrappers.threadNext at still
  generalize wrappers.state t = state at situation nobody
  generalize wrappers.history t = history at situation nobody
  cases situation with
  | created _ state' history' | exited _ state' history' =>
      subst state' history'
      rfl
  | started position _ _ ctx' =>
      rcases position with rfl | rfl <;> simp [ctx'] at still
  | ready position _ _ ctx' =>
      rcases position with rfl | rfl | rfl <;> simp [ctx'] at still
  | running state' history' =>
      subst state' history'
      cases nobody
  | @committed block inBlock state' history' =>
      subst state' history'
      cases block with
      | idle => exact absurd rfl inBlock
      | committed | sent => cases nobody
  | @blocked pc block position inBlock state' history' ctx' =>
      cases block with
      | idle => exact absurd rfl inBlock
      | committed =>
          subst state' history'
          rfl
      | sent =>
          rcases position with rfl | rfl | rfl <;>
            simp [ctx', WrapperBlock.mail] at still

end Wrappers

/-- What is known where the termination message is not sent and no priority is the
lowest one. -/
structure ThreadsGoOn
    [DecidableEq τ]
    [LinearOrder P]
    [BoundedOrder P]
    (isWrapper : τ → Bool)
    (threads : Threads τ P n) : Prop where
  ok : ThreadsOk isWrapper threads
  goesOn : threads.sched.GoesOn
  wanted : threads.sched.Wanted
  noIdle : threads.sched.NoIdle

section Threads

variable [DecidableEq τ] [LinearOrder P] [BoundedOrder P]
variable {policy : Policy P} {isWrapper : τ → Bool}
variable {threads after : Threads τ P n}

theorem ThreadsGoOn.start
    (initial : (threadsMachine n policy isWrapper).init threads) :
    ThreadsGoOn isWrapper threads := by
  have ok := (ThreadsOk.start initial).1
  obtain ⟨⟨memory, zero, scheds⟩, -⟩ := initial
  refine ⟨ok, ?_, ?_, ?_⟩
  · rw [scheds]
    exact goesOn_start memory zero
  · rw [scheds]
    intro t inqueue
    cases inqueue
  · rw [scheds]
    exact noIdle_of_none fun wid => by simp [schedStart]

theorem ThreadsGoOn.step
    (known : ThreadsGoOn isWrapper threads)
    (never : policy.NeverLowest)
    {label : ThreadsLabel τ n}
    (goesOn : label.goesOn = true)
    (taken : threadsNext policy isWrapper threads label = some after) :
    ThreadsGoOn isWrapper after := by
  have ok := (known.ok.step taken).1
  cases threadsNext_cases taken with
  | wrapper => exact ⟨ok, known.goesOn, known.wanted, known.noIdle⟩
  | @sched label sched routed stepped =>
      obtain ⟨place, core⟩ := known.ok.conserved
      have noIdle := (core.noIdle_step known.noIdle stepped).mpr
        (known.wanted.quiet core known.noIdle label)
      exact ⟨ok, known.goesOn.step goesOn stepped, known.wanted.step never stepped,
        noIdle⟩

/-- Where no thread goes on by itself, a task that does not execute its function was
not started, has exited or waits for a wakeup. -/
theorem ThreadsGoOn.rests
    (known : ThreadsGoOn isWrapper threads)
    (workers : 0 < n)
    (stops : ∀ label : ThreadsLabel τ n, label.isInternal = true →
      threadsNext policy isWrapper threads label = none)
    (nobody : ∀ t, (threads.phase isWrapper t).executes = false)
    (t : τ) :
    (threads.phase isWrapper t).rests = true := by
  obtain ⟨place, core⟩ := known.ok.conserved
  have own := nobody t
  unfold Threads.phase at own ⊢
  split
  case isTrue wrapped =>
    rw [if_pos wrapped] at own
    refine known.ok.wrappers.rests ?_ own
    intro c
    simpa [threadsNext, ThreadsLabel.routed, wrappersNext] using
      stops (.wrapper (.thread c)) rfl
  case isFalse plain =>
    have idle : threads.sched.Idle policy := by
      constructor
      · intro label internal
        have still := stops (.sched label) internal
        cases label with
        | start | wakeup | stop | commit | block | yield | exit => cases internal
        | first | recv | taskStart | request | ret | master | broadcast =>
            simpa [threadsNext, ThreadsLabel.routed] using still
      · intro wid
        by_contra inside
        obtain ⟨u, inside⟩ := Option.ne_none_iff_exists'.mp inside
        have executes := known.ok.executes_iff.mp ⟨.inl wid, inside⟩
        rw [nobody u] at executes
        cases executes
    refine idle.rests known.goesOn core fun queued => ?_
    have waits := idle.waitworkers known.goesOn core ⟨0, workers⟩
    have inqueue := (core.inqueue_iff (by simp)).mpr queued
    exact known.wanted t inqueue (known.noIdle _ waits t queued)

/-- With at least one worker and where no priority is the lowest one, the threads
forget no task. -/
def threadsDiligence
    (policy : Policy P)
    (isWrapper : τ → Bool)
    (workers : 0 < n)
    (never : policy.NeverLowest) :
    Lifecycle.Diligence (threadsScheduler n policy isWrapper) where
  keeps _ label := label.goesOn = true
  internal _ label := label.isInternal = true
  known := ThreadsGoOn isWrapper
  init _ initial := ThreadsGoOn.start initial
  step _ _ _ known goesOn taken := known.step never goesOn taken
  keeps_internal := by
    rintro - (label | label) internal
    · cases label <;> first | rfl | cases internal
    · rfl
  keeps_commit _ thread := by cases thread <;> rfl
  keeps_block _ thread := by cases thread <;> rfl
  keeps_exit _ thread := by cases thread <;> rfl
  keeps_wakeup _ _ whom _ := by
    change (ThreadsLabel.wakeup isWrapper whom).goesOn = true
    unfold ThreadsLabel.wakeup
    split <;> rfl
  dispatches := by
    rintro threads (label | label) t event internal is
    · cases label with
      | taskStart wid =>
          obtain ⟨u, -, same⟩ := Option.map_eq_some_iff.mp is
          cases same
          rfl
      | first | recv | request | ret | master | broadcast => cases is
      | start | wakeup | stop | commit | block | yield | exit => cases internal
    · cases label with
      | thread c =>
          obtain ⟨u, -, same⟩ := Option.map_eq_some_iff.mp is
          cases same
          rfl
      | check | create | start | wakeup | commit | block | yield | exit =>
          cases internal
  rests _ known stops nobody := known.rests workers stops nobody

end Threads

end Hrc
end Lpel
