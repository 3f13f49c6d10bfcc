import Lpel.Hrc.Master

/-!
# Task conservation

Every step of a worker or of the environment keeps the invariant of the
scheduler, and so does every round of the master; hence the invariant holds in
every reachable state.  A worker step is followed like a round of the master:
the task is picked up from its place, changed, and put down.
-/

namespace Lpel
namespace Hrc

variable {τ P : Type} {n : ℕ}

section Steps

variable [DecidableEq τ] [LinearOrder P]
variable {sched : Sched τ P n} {hand : Option τ}
variable {place : τ → Option (Place n)} {t : τ} {wid : Fin n}

omit [DecidableEq τ] [LinearOrder P] in
/-- What holds of a task elsewhere does not depend on a worker. -/
theorem Fits.setWorker
    {worker : Fin n → WorkerPc τ}
    {status : Status}
    {at_ : Option (Place n)}
    (fits : Fits worker status at_)
    (elsewhere : at_ ≠ some (.executing wid))
    (pc : WorkerPc τ) :
    Fits (Function.update worker wid pc) status at_ := by
  cases at_ with
  | none => exact fits
  | some p =>
      cases p with
      | executing other =>
          have distinct : other ≠ wid := by
            rintro rfl
            exact elsewhere rfl
          simpa [Fits, Place.Fits, Function.update_of_ne distinct] using fits
      | _ => exact fits

/-- Only the task on a worker is executed by it. -/
theorem Core.not_executing_of
    (core : Core sched hand place)
    {u : τ}
    (other : (sched.worker wid).task ≠ some u) :
    place u ≠ some (.executing wid) := by
  intro at_
  have copies := core.located u (.executing wid)
  rw [at_, Sched.copies, if_neg other, if_pos rfl] at copies
  exact absurd copies (by decide)

/-- A task that is executed is at its worker. -/
theorem Core.place_executing
    (core : Core sched hand place)
    (executes : (sched.worker wid).task = some t) :
    place t = some (.executing wid) := by
  apply core.located.place_eq
  rw [Sched.copies, if_pos executes]
  exact one_ne_zero

/-- What is known of a task that is executed. -/
theorem Core.executing
    (core : Core sched none place)
    (executes : (sched.worker wid).task = some t) :
    (sched.history t).Alive ∧ (sched.worker wid).Fits (sched.status t) := by
  have fits := core.fits t (by simp)
  rw [core.place_executing executes] at fits
  exact fits

/-- Pick the task up from the worker that executes it. -/
theorem Core.pickUp
    (core : Core sched none place)
    (executes : (sched.worker wid).task = some t)
    (pc : WorkerPc τ)
    (idle : pc.task = none)
    (asked : pc.asked = (sched.worker wid).asked) :
    Core (sched.setWorker wid pc) (some t) (Function.update place t none) := by
  have present := core.place_executing executes
  refine { core with
    located := ?_, held := Core.held_take (core.executing executes).1,
    fits := ?_, tokens := ?_ }
  · refine core.located.take present ?_ ?_
    · intro u p away
      cases p with
      | executing other =>
          by_cases same : other = wid
          · subst same
            have distinct : u ≠ t := by simpa using away
            simp [Sched.copies, Sched.setWorker, idle, executes, distinct.symm]
          · simp [Sched.copies, Sched.setWorker, same]
      | _ => rfl
    · simp [Sched.copies, Sched.setWorker, idle, executes]
  · intro u other
    have distinct : u ≠ t := fun same => other (by rw [same])
    rw [Function.update_of_ne distinct]
    refine (core.fits u (by simp)).setWorker (core.not_executing_of ?_) pc
    rw [executes]
    exact fun same => other same
  · intro other
    have tokens := core.tokens other
    by_cases same : other = wid
    · subst same
      simpa [Sched.tokens, Sched.setWorker, asked] using tokens
    · simpa [Sched.tokens, Sched.setWorker, same] using tokens

/-- Put the held task down on a worker. -/
theorem Core.putDown
    (core : Core sched (some t) place)
    (wid : Fin n)
    (pc : WorkerPc τ)
    (idle : (sched.worker wid).task = none)
    (executes : pc.task = some t)
    (asked : pc.asked = (sched.worker wid).asked)
    (fits : pc.Fits (sched.status t)) :
    Core (sched.setWorker wid pc) none
      (Function.update place t (some (.executing wid))) := by
  refine { core with
    located := ?_, held := by simp, fits := ?_, tokens := ?_ }
  · refine core.located.put (core.held t rfl).1 _ ?_ ?_
    · intro u p away
      cases p with
      | executing other =>
          by_cases same : other = wid
          · subst same
            have distinct : u ≠ t := by simpa using away
            simp [Sched.copies, Sched.setWorker, idle, executes, distinct.symm]
          · simp [Sched.copies, Sched.setWorker, same]
      | _ => rfl
    · simp [Sched.copies, Sched.setWorker, idle, executes]
  · intro u _
    by_cases same : u = t
    · subst same
      rw [Function.update_self]
      refine ⟨(core.held u rfl).2, ?_⟩
      change (Function.update sched.worker wid pc wid).Fits (sched.status u)
      rw [Function.update_self]
      exact fits
    · rw [Function.update_of_ne same]
      refine (core.fits u fun equal => same (Option.some.inj equal).symm).setWorker
        (core.not_executing_of ?_) pc
      rw [idle]
      simp
  · intro other
    have tokens := core.tokens other
    by_cases same : other = wid
    · subst same
      simpa [Sched.tokens, Sched.setWorker, asked] using tokens
    · simpa [Sched.tokens, Sched.setWorker, same] using tokens

/-- A worker requests a task. -/
theorem Core.request
    (core : Core sched hand place)
    (wid : Fin n)
    (notAsked : (sched.worker wid).asked = 0)
    (idle : (sched.worker wid).task = none) :
    Core ((sched.sendMaster (.request wid)).setWorker wid .recv) hand place := by
  refine { core with located := ?_, fits := ?_, wakes := ?_, tokens := ?_ }
  · intro u p
    have located := core.located u p
    cases p with
    | toMaster | returning =>
        simpa [Sched.copies, Sched.sendMaster, Sched.setWorker,
          List.count_append] using located
    | executing other =>
        by_cases same : other = wid
        · subst same
          rw [Sched.copies, idle, if_neg (by simp)] at located
          simpa [Sched.copies, Sched.sendMaster, Sched.setWorker,
            WorkerPc.task] using located
        · simpa [Sched.copies, Sched.sendMaster, Sched.setWorker, same]
            using located
    | _ => exact located
  · intro u other
    refine (core.fits u other).setWorker (core.not_executing_of ?_) .recv
    rw [idle]
    simp
  · intro u
    have wakes := core.wakes u
    simpa [Sched.sendMaster, Sched.setWorker, List.count_append] using wakes
  · intro other
    have tokens := core.tokens other
    by_cases same : other = wid
    · subst same
      rw [notAsked] at tokens
      simp only [Sched.tokens, Sched.sendMaster, Sched.setWorker,
        List.count_append, Function.update_self, WorkerPc.asked,
        List.count_singleton_self] at tokens ⊢
      omega
    · simpa [Sched.tokens, Sched.sendMaster, Sched.setWorker,
        List.count_append, same, Ne.symm same] using tokens

/-- Take a task from the mailbox of a worker. -/
theorem Core.receive
    (core : Core sched none place)
    {rest : List (WorkerMsg τ n)}
    (receiving : sched.worker wid = .recv)
    (mail : sched.workermbs wid = .assign t :: rest) :
    Core
        ({ sched with
          workermbs := Function.update sched.workermbs wid rest }.setWorker wid
            .start)
        (some t) (Function.update place t none) ∧
      (sched.status t).state = .ready ∧ AtRest (sched.status t) := by
  have present : place t = some (.toWorker wid) := by
    apply core.located.place_eq
    simp [Sched.copies, mail]
  have fits := core.fits t (by simp)
  rw [present] at fits
  have idle : (sched.worker wid).task = none := by rw [receiving]; rfl
  refine ⟨{ core with
    located := ?_, held := Core.held_take fits.1, fits := ?_, tokens := ?_,
    messages := ?_ }, fits.2⟩
  · refine core.located.take present ?_ ?_
    · intro u p away
      cases p with
      | toWorker other =>
          by_cases same : other = wid
          · subst same
            have distinct : u ≠ t := by simpa using away
            simp [Sched.copies, Sched.setWorker, mail, distinct.symm]
          · simp [Sched.copies, Sched.setWorker, same]
      | executing other =>
          by_cases same : other = wid
          · subst same
            simp [Sched.copies, Sched.setWorker, receiving, WorkerPc.task]
          · simp [Sched.copies, Sched.setWorker, same]
      | _ => rfl
    · simp [Sched.copies, Sched.setWorker, mail]
  · intro u other
    have distinct : u ≠ t := fun same => other (by rw [same])
    rw [Function.update_of_ne distinct]
    refine (core.fits u (by simp)).setWorker (core.not_executing_of ?_) .start
    rw [idle]
    simp
  · intro other
    have tokens := core.tokens other
    by_cases same : other = wid
    · subst same
      rw [Sched.tokens, mail, receiving,
        List.countP_cons_of_pos (by rfl)] at tokens
      simp only [Sched.tokens, Sched.setWorker, Function.update_self,
        WorkerPc.asked] at tokens ⊢
      omega
    · simpa [Sched.tokens, Sched.setWorker, same] using tokens
  · intro other msg member
    by_cases same : other = wid
    · subst same
      refine core.messages other msg ?_
      rw [mail]
      simp only [Sched.setWorker, Function.update_self] at member
      exact List.mem_cons_of_mem _ member
    · simp only [Sched.setWorker, Function.update_of_ne same] at member
      exact core.messages other msg member

/-- Return the held task. -/
theorem Core.sendReturn
    (core : Core sched (some t) place)
    (stopped : Stopped (sched.status t)) :
    Core (sched.sendMaster (.ret t)) none
      (Function.update place t (some .returning)) := by
  refine { core with
    located := ?_, held := by simp, fits := ?_, wakes := ?_, tokens := ?_ }
  · refine core.located.put (core.held t rfl).1 _ ?_ ?_
    · intro u p away
      cases p with
      | toMaster =>
          simp [Sched.copies, Sched.sendMaster, List.count_append]
      | returning =>
          have distinct : u ≠ t := by simpa using away
          simp [Sched.copies, Sched.sendMaster, List.count_append, distinct.symm]
      | _ => rfl
    · simp [Sched.copies, Sched.sendMaster, List.count_append]
  · refine core.fits_putDown _ rfl ?_ ⟨(core.held t rfl).2, stopped⟩
    intro u _
    rfl
  · intro u
    have wakes := core.wakes u
    simpa [Sched.sendMaster, List.count_append] using wakes
  · intro other
    have tokens := core.tokens other
    simpa [Sched.tokens, Sched.sendMaster, List.count_append] using tokens

/-- A worker takes the termination message. -/
theorem Core.finish
    (core : Core sched none place)
    {rest : List (WorkerMsg τ n)}
    (receiving : sched.worker wid = .recv)
    (mail : sched.workermbs wid = .terminate :: rest) :
    Core
      ({ sched with
        workermbs := Function.update sched.workermbs wid rest }.setWorker wid
          .finished)
      none place := by
  have idle : (sched.worker wid).task = none := by rw [receiving]; rfl
  refine { core with
    located := ?_, held := by simp, fits := ?_, tokens := ?_, messages := ?_ }
  · intro u p
    rw [← core.located u p]
    cases p with
    | toWorker other =>
        by_cases same : other = wid
        · subst same
          simp [Sched.copies, Sched.setWorker, mail]
        · simp [Sched.copies, Sched.setWorker, same]
    | executing other =>
        by_cases same : other = wid
        · subst same
          simp [Sched.copies, Sched.setWorker, receiving, WorkerPc.task]
        · simp [Sched.copies, Sched.setWorker, same]
    | _ => rfl
  · intro u _
    refine (core.fits u (by simp)).setWorker (core.not_executing_of ?_) .finished
    rw [idle]
    simp
  · intro other
    have tokens := core.tokens other
    by_cases same : other = wid
    · subst same
      rw [Sched.tokens, mail, receiving,
        List.countP_cons_of_neg (by simp [WorkerMsg.isAssign])] at tokens
      simpa [Sched.tokens, Sched.setWorker, WorkerPc.asked] using tokens
    · simpa [Sched.tokens, Sched.setWorker, same] using tokens
  · intro other msg member
    by_cases same : other = wid
    · subst same
      refine core.messages other msg ?_
      rw [mail]
      simp only [Sched.setWorker, Function.update_self] at member
      exact List.mem_cons_of_mem _ member
    · simp only [Sched.setWorker, Function.update_of_ne same] at member
      exact core.messages other msg member

/-- The master sends the termination message to a worker. -/
theorem Core.broadcast
    (core : Core sched none place)
    (wid : Fin n)
    (master : MasterPc) :
    Core { sched.sendWorker wid .terminate with master := master } none
      place := by
  refine { core with
    located := ?_, held := by simp, tokens := ?_, messages := ?_ }
  · intro u p
    rw [← core.located u p]
    cases p with
    | toWorker other =>
        by_cases same : other = wid
        · subst same
          simp [Sched.copies, Sched.sendWorker, List.count_append]
        · simp [Sched.copies, Sched.sendWorker, same]
    | _ => rfl
  · intro other
    have tokens := core.tokens other
    by_cases same : other = wid
    · subst same
      simpa [Sched.tokens, Sched.sendWorker, List.countP_append,
        WorkerMsg.isAssign] using tokens
    · simpa [Sched.tokens, Sched.sendWorker, same] using tokens
  · intro other msg member
    by_cases same : other = wid
    · subst same
      simp only [Sched.sendWorker, Function.update_self, List.mem_append,
        List.mem_singleton] at member
      obtain earlier | rfl := member
      · exact core.messages other msg earlier
      · rfl
    · simp only [Sched.sendWorker, Function.update_of_ne same] at member
      exact core.messages other msg member

/-- Some thread sends the termination message to the master. -/
theorem Core.terminate
    (core : Core sched none place) :
    Core (sched.sendMaster .terminate) none place := by
  refine { core with located := ?_, held := by simp, wakes := ?_, tokens := ?_ }
  · intro u p
    rw [← core.located u p]
    cases p with
    | toMaster | returning =>
        simp [Sched.copies, Sched.sendMaster, List.count_append]
    | _ => rfl
  · intro u
    have wakes := core.wakes u
    simpa [Sched.sendMaster, List.count_append] using wakes
  · intro other
    have tokens := core.tokens other
    simpa [Sched.tokens, Sched.sendMaster, List.count_append] using tokens

/-- A task that has not been started is nowhere. -/
theorem Core.place_of_not_started
    (core : Core sched none place)
    (notStarted : (sched.history t).started = false) :
    place t = none := by
  have fits := core.fits t (by simp)
  cases at_ : place t with
  | none => rfl
  | some p =>
      rw [at_] at fits
      have started : (sched.history t).started = true := fits.1.1
      rw [notStarted] at started
      exact absurd started (by decide)

/-- Some thread starts a task. -/
theorem Core.start
    (core : Core sched none place)
    (notStarted : (sched.history t).started = false) :
    Core
      (((sched.assert ((sched.task t).state = .created)).note t
        fun history => { history with started := true }).sendMaster (.assign t))
      none (Function.update place t (some .toMaster)) := by
  have nowhere := core.place_of_not_started notStarted
  have outside := core.fits t (by simp)
  rw [nowhere] at outside
  have life : (sched.history t).destroyed = false ∧
      (sched.task t).state = .created := by
    obtain ⟨-, alive⟩ | ⟨started, -⟩ := outside.life
    · exact alive
    · have started : (sched.history t).started = true := started
      rw [notStarted] at started
      exact absurd started (by decide)
  have rest := outside.rest
  refine { core with
    located := ?_, held := by simp, fits := ?_, wakes := ?_, tokens := ?_,
    ok := ?_ }
  · refine core.located.put nowhere _ ?_ ?_
    · intro u p away
      cases p with
      | toMaster =>
          have distinct : u ≠ t := by simpa using away
          simp [Sched.copies, Sched.sendMaster, Sched.note, Sched.assert,
            List.count_append, distinct.symm]
      | returning =>
          simp [Sched.copies, Sched.sendMaster, Sched.note, Sched.assert,
            List.count_append]
      | _ => rfl
    · simp [Sched.copies, Sched.sendMaster, Sched.note, Sched.assert,
        List.count_append]
  · intro u _
    by_cases same : u = t
    · subst same
      rw [Function.update_self]
      refine ⟨?_, life.2, ?_⟩
      · simp [Sched.status, Sched.sendMaster, Sched.note, Sched.assert,
          History.Alive, life.1]
      · have counters := And.intro rest.wakenup (And.intro rest.blocks
          (And.intro rest.wakesSent (And.intro rest.wakesTaken
            rest.returnsTaken)))
        constructor <;>
          simp only [Sched.status, Sched.sendMaster, Sched.note, Sched.assert,
            Function.update_self] at counters ⊢ <;>
          omega
    · rw [Function.update_of_ne same]
      have fits := core.fits u (by simp)
      simpa [Sched.status, Sched.sendMaster, Sched.note, Sched.assert, same]
        using fits
  · intro u
    have wakes := core.wakes u
    by_cases same : u = t
    · subst same
      simpa [Sched.sendMaster, Sched.note, Sched.assert, List.count_append]
        using wakes
    · simpa [Sched.sendMaster, Sched.note, Sched.assert, List.count_append,
        same] using wakes
  · intro other
    have tokens := core.tokens other
    simpa [Sched.tokens, Sched.sendMaster, Sched.note, Sched.assert,
      List.count_append] using tokens
  · simp [Sched.sendMaster, Sched.note, Sched.assert, core.ok, life.2]

/-- Some thread sends the wakeup of the current block. -/
theorem Core.wakeup
    (core : Core sched none place)
    (pending : (sched.history t).wakesSent < (sched.history t).blocks) :
    Core
      ((sched.note t fun history =>
        { history with wakesSent := history.wakesSent + 1 }).sendMaster
          (.wakeup t))
      none place := by
  refine { core with
    located := ?_, held := by simp, fits := ?_, wakes := ?_, tokens := ?_ }
  · intro u p
    rw [← core.located u p]
    cases p with
    | toMaster | returning =>
        simp [Sched.copies, Sched.sendMaster, Sched.note, List.count_append]
    | _ => rfl
  · intro u _
    have fits := core.fits u (by simp)
    by_cases same : u = t
    · subst same
      refine fits.inBlock ?_ rfl ?_ ?_ ?_
      · intro rest
        have sent : (sched.history u).wakesSent = (sched.history u).readied :=
          rest.wakesSent
        have blocks : (sched.history u).blocks = (sched.history u).readied :=
          rest.blocks
        omega
      · simp [Sched.status, Sched.sendMaster, Sched.note, History.Alive]
      · rintro ⟨blocks, returnsTaken, wakesTaken, takenLeSent, sentLeBlocks⟩
        constructor <;>
          simp only [Sched.status, Sched.sendMaster, Sched.note,
            Function.update_self] at * <;>
          omega
      · rintro - ⟨wakenup, blocks, returnsTaken, wakesTaken, takenLeSent,
          sentLeBlocks⟩
        constructor <;>
          simp only [Sched.status, Sched.sendMaster, Sched.note,
            Function.update_self] at * <;>
          omega
    · simpa [Sched.status, Sched.sendMaster, Sched.note, same] using fits
  · intro u
    have wakes := core.wakes u
    by_cases same : u = t
    · subst same
      simp only [Sched.sendMaster, Sched.note, Function.update_self,
        List.count_append, List.count_singleton_self]
      omega
    · simpa [Sched.sendMaster, Sched.note, List.count_append, same,
        Ne.symm same] using wakes
  · intro other
    have tokens := core.tokens other
    simpa [Sched.tokens, Sched.sendMaster, Sched.note, List.count_append]
      using tokens

/-- A step of the running task that changes its record or its history. -/
theorem Core.execute
    (core : Core sched none place)
    (executes : (sched.worker wid).task = some t)
    (notAsked : (sched.worker wid).asked = 0)
    (change : Sched τ P n → Sched τ P n)
    (commutes : ∀ pc, change (sched.setWorker wid pc) =
      (change sched).setWorker wid pc)
    (changes : ∀ before place',
      Core before (some t) place' → before.status t = sched.status t →
      before.mastermb = sched.mastermb →
      Core (change before) (some t) place')
    (pc : WorkerPc τ)
    (again : pc.task = some t)
    (asked : pc.asked = 0)
    (fits : (sched.worker wid).Fits (sched.status t) →
      pc.Fits ((change sched).status t)) :
    ∃ place', Core ((change sched).setWorker wid pc) none place' := by
  have held := core.pickUp executes .start rfl notAsked.symm
  have fitted := (core.executing executes).2
  have changed := changes _ _ held rfl rfl
  rw [commutes] at changed
  have down := changed.putDown wid pc ?_ again ?_ (fits fitted)
  · simp only [Sched.setWorker, Function.update_idem] at down ⊢
    exact ⟨_, down⟩
  · simp only [Sched.setWorker, Function.update_self]
    rfl
  · simp only [Sched.setWorker, Function.update_self]
    exact asked

omit [DecidableEq τ] [LinearOrder P] in
/-- An assertion that holds changes nothing. -/
theorem assert_eq_self
    {condition : Bool}
    (holds : condition = true) :
    sched.assert condition = sched := by
  simp [Sched.assert, holds]

/-- A task that runs stops in a new state. -/
theorem Core.stop
    (core : Core sched none place)
    {state : TaskState}
    (executes : (sched.worker wid).task = some t)
    (notAsked : (sched.worker wid).asked = 0)
    (notReturned : state ≠ .returned)
    (running : (sched.worker wid).Fits (sched.status t) →
      (sched.task t).state = .running ∧
        Stopped { sched.status t with state := state }) :
    ∃ place', Core (sched.stop wid t state) none place' := by
  have fits := (core.executing executes).2
  rw [Sched.stop, assert_eq_self (decide_eq_true (running fits).1)]
  refine core.execute executes notAsked (fun sched => sched.setState t state)
    (fun _ => rfl) ?_ (.stopped t) rfl rfl ?_
  · intro before _ held _ _
    exact held.retask notReturned
  · intro fits
    rw [status_setState]
    exact (running fits).2

/-- A worker receives a task. -/
theorem Core.assigned
    (core : Core sched none place)
    {rest : List (WorkerMsg τ n)}
    (position : sched.worker wid = .recv)
    (mail : sched.workermbs wid = .assign t :: rest) :
    ∃ place', Core
      ((Sched.assert
        { sched with workermbs := Function.update sched.workermbs wid rest }
        ((sched.task t).state = .ready)).setWorker wid (.dispatch t))
      none place' := by
  obtain ⟨held, ready, rest'⟩ := core.receive position mail
  have holds : decide ((sched.task t).state = .ready) = true :=
    decide_eq_true ready
  have down := held.putDown wid (.dispatch t) ?_ rfl ?_ (And.intro ready rest')
  · simp only [Sched.setWorker, Function.update_idem] at down
    rw [assert_eq_self holds]
    exact ⟨_, down⟩
  · simp only [Sched.setWorker, Function.update_self]
    rfl
  · simp only [Sched.setWorker, Function.update_self]
    rfl

/-- `TaskStart`. -/
theorem Core.taskStart
    (core : Core sched none place)
    (position : sched.worker wid = .dispatch t) :
    ∃ place', Core
      (((sched.assert ((sched.task t).state = .ready)).setState t
        .running).setWorker wid (.running t))
      none place' := by
  have executes : (sched.worker wid).task = some t := by rw [position]; rfl
  have notAsked : (sched.worker wid).asked = 0 := by rw [position]; rfl
  have fits := (core.executing executes).2
  rw [position] at fits
  have ready : (sched.task t).state = .ready := fits.1
  rw [assert_eq_self (decide_eq_true ready)]
  refine core.execute executes notAsked
    (fun sched => sched.setState t .running) (fun _ => rfl) ?_ (.running t)
    rfl rfl ?_
  · intro before _ held _ _
    exact held.retask (by simp)
  · intro _
    rw [status_setState]
    have rest := fits.2
    exact ⟨rfl, rest.wakenup, rest.blocks, rest.wakesSent, rest.wakesTaken,
      rest.returnsTaken⟩

/-- A task commits to block. -/
theorem Core.commit
    (core : Core sched none place)
    (position : sched.worker wid = .running t) :
    ∃ place', Core
      ((sched.note t fun history =>
        { history with blocks := history.blocks + 1 }).setWorker wid
          (.committed t))
      none place' := by
  have executes : (sched.worker wid).task = some t := by rw [position]; rfl
  have notAsked : (sched.worker wid).asked = 0 := by rw [position]; rfl
  refine core.execute executes notAsked
    (fun sched => sched.note t fun history =>
      { history with blocks := history.blocks + 1 })
    (fun _ => rfl) ?_ (.committed t) rfl rfl ?_
  · intro before _ held _ _
    exact held.note _ (held.held t rfl).2 (held.wakes t)
  · rw [position]
    rintro ⟨running, wakenup, blocks, wakesSent, wakesTaken, returnsTaken⟩
    rw [status_note]
    refine ⟨running, ?_⟩
    constructor <;> simp only [Sched.status] at * <;> omega

/-- A worker asks for the next task while it still holds the last one. -/
theorem Core.requestNext
    (core : Core sched none place)
    (position : sched.worker wid = .stopped t) :
    ∃ place', Core
      ((sched.sendMaster (.request wid)).setWorker wid (.back t))
      none place' := by
  have executes : (sched.worker wid).task = some t := by rw [position]; rfl
  have fits := (core.executing executes).2
  rw [position] at fits
  have held := core.pickUp executes .start rfl (by rw [position]; rfl)
  have asks := held.request wid
    (by simp [Sched.setWorker, WorkerPc.asked])
    (by simp [Sched.setWorker, WorkerPc.task])
  have down := asks.putDown wid (.back t) ?_ rfl ?_ fits
  · simp only [Sched.setWorker, Sched.sendMaster, Function.update_idem]
      at down ⊢
    exact ⟨_, down⟩
  · simp only [Sched.setWorker, Function.update_self]
    rfl
  · simp only [Sched.setWorker, Function.update_self]
    rfl

/-- A worker returns its task. -/
theorem Core.giveBack
    (core : Core sched none place)
    (position : sched.worker wid = .back t) :
    ∃ place', Core
      (((sched.assert ((sched.task t).state ≠ .running)).sendMaster
        (.ret t)).setWorker wid .recv)
      none place' := by
  have executes : (sched.worker wid).task = some t := by rw [position]; rfl
  have fits := (core.executing executes).2
  rw [position] at fits
  have notRunning : (sched.task t).state ≠ .running := by
    intro running
    simp [WorkerPc.Fits, Stopped, Sched.status, running] at fits
  rw [assert_eq_self (decide_eq_true notRunning)]
  have held := core.pickUp executes .recv rfl (by rw [position]; rfl)
  exact ⟨_, held.sendReturn fits⟩

/-- Every step of a worker keeps the invariant. -/
theorem Core.workerStep
    (core : Core sched none place)
    {label : SchedLabel τ n}
    {after : Sched τ P n}
    (step : WorkerStep sched wid label after) :
    ∃ place', Core after none place' := by
  cases step with
  | first position =>
      exact ⟨place, core.request wid (by rw [position]; rfl)
        (by rw [position]; rfl)⟩
  | assigned position mail => exact core.assigned position mail
  | terminated position mail => exact ⟨place, core.finish position mail⟩
  | @unexpected _ msg _ position mail notAssign notTerminate =>
      have sendable := core.messages wid msg (by rw [mail]; simp)
      cases msg with
      | assign t => exact absurd rfl (notAssign t)
      | terminate => exact absurd rfl notTerminate
      | wakeup | request | ret =>
          exact absurd sendable (by simp [WorkerMsg.forWorker])
  | taskStart position => exact core.taskStart position
  | commit position => exact core.commit position
  | block position =>
      refine core.stop (by rw [position]; rfl) (by rw [position]; rfl)
        (by simp) ?_
      rw [position]
      rintro ⟨running, blocking⟩
      exact ⟨running, blocking.blocks, blocking.returnsTaken,
        blocking.wakesTaken, blocking.taken_le_sent, blocking.sent_le_blocks⟩
  | yield position | exit position =>
      refine core.stop (by rw [position]; rfl) (by rw [position]; rfl)
        (by simp) ?_
      rw [position]
      rintro ⟨running, rest⟩
      exact ⟨running, rest.wakenup, rest.blocks, rest.wakesSent,
        rest.wakesTaken, rest.returnsTaken⟩
  | request position => exact core.requestNext position
  | ret position => exact core.giveBack position

/-- The invariant of the scheduler. -/
def Sched.Conserved (sched : Sched τ P n) : Prop :=
  ∃ place, Core sched none place

/-- The invariant holds initially. -/
theorem conserved_start (memory : ℕ → τ) (zero : P) :
    (schedStart memory zero : Sched τ P n).Conserved := by
  refine ⟨fun _ => none, ?_⟩
  constructor
  · intro u p
    cases p <;> simp [Sched.copies, schedStart, WorkerPc.task]
  · simp
  · intro u _
    refine ⟨?_, Or.inl ?_⟩
    · constructor <;> rfl
    · exact ⟨rfl, rfl, rfl⟩
  · intro u
    rfl
  · intro wid
    rfl
  · exact Taskqueue.valid_init _ memory
  · intro wid msg member
    exact absurd member (by simp [schedStart])
  · rfl

variable [BoundedOrder P]

/-- Every step keeps the invariant. -/
theorem Core.step
    (core : Core sched none place)
    {policy : Policy P}
    {label : SchedLabel τ n}
    {after : Sched τ P n}
    (taken : schedNext policy sched label = some after) :
    ∃ place', Core after none place' := by
  cases schedNext_cases taken with
  | start unstarted => exact ⟨_, core.start unstarted⟩
  | wakeup pending => exact ⟨place, core.wakeup pending⟩
  | stop => exact ⟨place, core.terminate⟩
  | master _ mail => exact core.round policy _ mail
  | broadcast inside => exact ⟨place, core.broadcast ⟨_, inside⟩ _⟩
  | worker step => exact core.workerStep step

/-- The invariant holds in every reachable state. -/
theorem Sched.Conserved.ofReachable
    {policy : Policy P}
    (reached : (schedMachine n policy).Reachable sched) :
    sched.Conserved := by
  refine Machine.Reachable.invariant ?_ ?_ reached
  · rintro _ ⟨memory, zero, rfl⟩
    exact conserved_start memory zero
  · rintro _ _ _ ⟨place, core⟩ taken
    exact core.step taken

end Steps

/-- The number of copies of a task is one at one place and zero elsewhere. -/
def Sched.InOnePlace [DecidableEq τ] (sched : Sched τ P n) (t : τ) : Prop :=
  ∃ place, sched.copies t place = 1 ∧
    ∀ other, other ≠ place → sched.copies t other = 0

/-- In every reachable state every task that is started and not destroyed is in
exactly one place; a task has the state `TASK_INQUEUE` exactly if it is in the
ready queue, where it is only once; every worker is represented at most once by
a request, an entry in `waitworkers` or a task in its mailbox; and no assertion
has failed. -/
theorem taskConservation
    [DecidableEq τ]
    [LinearOrder P]
    [BoundedOrder P]
    {policy : Policy P}
    {sched : Sched τ P n}
    (reached : (schedMachine n policy).Reachable sched) :
    (∀ t, (sched.history t).Alive → sched.InOnePlace t) ∧
    (∀ t, ((sched.task t).state = .inqueue ↔ t ∈ sched.readyTasks.tasks) ∧
      sched.readyTasks.tasks.count t ≤ 1) ∧
    (∀ wid, sched.tokens wid ≤ 1) ∧
    sched.failed = false := by
  obtain ⟨place, core⟩ := Sched.Conserved.ofReachable reached
  refine ⟨?_, ?_, ?_, core.ok⟩
  · intro t alive
    have fits := core.fits t (by simp)
    cases at_ : place t with
    | none =>
        rw [at_] at fits
        have life := fits.life
        simp only [Sched.status, alive.1, alive.2] at life
        simp at life
    | some p => exact ⟨p, core.located.only at_⟩
  · intro t
    refine ⟨core.inqueue_iff (by simp), ?_⟩
    exact Multiset.nodup_iff_count_le_one.mp core.queue_nodup t
  · intro wid
    rw [core.tokens wid]
    cases sched.worker wid <;> simp [WorkerPc.asked]

section Example

/-- Every calculated priority is the same one, between the two limits. -/
def evenPolicy : Policy (Fin 3) :=
  { negDemandLim := 0
    priorCal := fun _ _ _ => 1 }

/-- A task without streams. -/
def noStreams : SchedView :=
  { inStreams := []
    outStreams := []
    rand := 0 }

/-- A round in which the task of the message has no neighbours. -/
def alone : Observed ℕ :=
  { own := noStreams
    serve := noStreams
    requeue := noStreams
    producers := []
    consumers := [] }

/-- One worker starts a task, which blocks and is returned before its wakeup. -/
def parkedRun (wid : Fin 1) : List (SchedLabel ℕ 1) :=
  [.first wid, .master alone, .start 7, .master alone, .recv wid,
    .taskStart wid, .commit wid, .block wid, .request wid, .ret wid,
    .master alone, .master alone]

/-- A task that is parked, and in no other place. -/
theorem taskConservation_parked :
    ∃ sched : Sched ℕ (Fin 3) 1,
      (schedMachine 1 evenPolicy).Reachable sched ∧
      (sched.task 7).state = .returned ∧
      sched.InOnePlace 7 ∧
      sched.tokens 0 ≤ 1 ∧
      sched.failed = false := by
  obtain ⟨sched, reached, tested⟩ := Machine.exists_reachable_of_run
    (⟨_, _, rfl⟩ : (schedMachine 1 evenPolicy).init
      (schedStart (fun _ => 0) 0))
    (by decide : ((schedMachine 1 evenPolicy).run (schedStart (fun _ => 0) 0)
      (parkedRun 0)).map (fun sched => decide (
        (sched.task 7).state = .returned ∧ (sched.history 7).started = true ∧
        (sched.history 7).destroyed = false)) = some true)
  obtain ⟨returned, alive⟩ := of_decide_eq_true tested
  have conserved := taskConservation reached
  exact ⟨sched, reached, returned, conserved.1 7 alive, conserved.2.2.1 0,
    conserved.2.2.2⟩

end Example

end Hrc
end Lpel
