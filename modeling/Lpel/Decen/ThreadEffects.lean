import Lpel.Decen.WorkerSafety
import Lpel.Decen.WrapperTasks

/-!
# What a step of a thread leaves as it is

A thread changes its own position, its own ready queues and its own slot, and
what it does to a mailbox, to a task or to the wakeup of a block is limited.  One
lemma for each operation of the scheduler says what else can change: where the
thread is afterwards, and which wakeups are taken or issued.
-/

namespace Lpel
namespace Decen

variable {τ : Type} {n : ℕ}

/-- The task in whose function a thread is. -/
def Pc.function : Pc τ n → Option τ
  | .running t | .committed t => some t
  | _ => none

/-- A thread in the function of a task executes it. -/
theorem Pc.task_of_function
    {pc : Pc τ n}
    {t : τ}
    (inside : pc.function = some t) :
    pc.task = some t := by
  cases pc <;> simp_all [Pc.function, Pc.task]

/-- A thread has left the function of its task. -/
structure Leaves (after : Workers τ n) (actor : Context τ n) : Prop where
  function : (after.thread actor).function = none
  wait : after.thread actor ≠ .wait
  left : after.thread actor ≠ .left

/-- A thread has left the function of its task for somewhere else. -/
theorem Leaves.of
    {after : Workers τ n}
    {self : Context τ n}
    {pc : Pc τ n}
    (is : after.thread self = pc)
    (function : pc.function = none)
    (wait : pc ≠ .wait)
    (left : pc ≠ .left) :
    Leaves after self where
  function := by rw [is]; exact function
  wait := by rw [is]; exact wait
  left := by rw [is]; exact left

/-- The wakeup of a block is at most taken from its mailbox. -/
structure Relays (workers after : Workers τ n) : Prop where
  block : ∀ t, (after.history t).block = (workers.history t).block ∨
    (workers.history t).block = .sent ∧ (after.history t).block = .idle
  unstarted : ∀ t, (after.history t).started = false →
    (workers.history t).started = false

namespace Relays

variable {workers after last : Workers τ n}

theorem ofHistory (history : after.history = workers.history) :
    Relays workers after where
  block t := .inl (by rw [history])
  unstarted t := by
    rw [history]
    exact id

theorem trans
    (first : Relays workers after)
    (second : Relays after last) :
    Relays workers last where
  block := by
    intro t
    rcases second.block t with same | ⟨sent, idle⟩
    · rw [same]
      exact first.block t
    · rcases first.block t with before | ⟨-, woken⟩
      · exact .inr ⟨before ▸ sent, idle⟩
      · rw [woken] at sent
        cases sent
  unstarted t := first.unstarted t ∘ second.unstarted t

end Relays

/-- The wakeup of a block is issued for one task. -/
structure Wakes (workers after : Workers τ n) (whom : τ) : Prop where
  block : (after.history whom).block ≠ .committed
  others : ∀ t, t ≠ whom →
    (after.history t).block = (workers.history t).block
  started : ∀ t, (after.history t).started = (workers.history t).started

variable [DecidableEq τ]

/-- What a step of one thread leaves as it is. -/
structure Acts (workers after : Workers τ n) (actor : Context τ n) : Prop where
  thread : ∀ wc, wc ≠ actor → after.thread wc = workers.thread wc
  sched : ∀ wc, wc ≠ actor → after.sched wc = workers.sched wc
  wraptask : ∀ wc, wc ≠ actor → after.wraptask wc = workers.wraptask wc
  /-- A worker has no slot. -/
  slot : ∀ wc, wc.isWorker = true → after.wraptask wc ≠ none →
    workers.wraptask wc ≠ none
  /-- A wrapper has no ready queues. -/
  queue : ∀ wc, wc.isWorker = false → ∀ t,
    (after.sched wc).count t ≤ (workers.sched wc).count t
  terminate : ∀ wc, after.terminate wc = true →
    workers.terminate wc = true ∨ .terminate ∈ workers.mailbox wc ∨
      ∃ t, wc = .wrapper t ∧ (after.task t).state = .zombie
  mail : ∀ wc, .terminate ∈ after.mailbox wc → .terminate ∈ workers.mailbox wc
  zombie : ∀ t, (after.task t).state = .zombie ↔
    (workers.task t).state = .zombie

section Acts

variable {workers after last : Workers τ n} {self wc : Context τ n} {t u : τ}

namespace Acts

theorem refl (workers : Workers τ n) (self : Context τ n) :
    Acts workers workers self :=
  ⟨fun _ _ => rfl, fun _ _ => rfl, fun _ _ => rfl, fun _ _ => id,
    fun _ _ _ => le_refl _, fun _ => .inl, fun _ => id, fun _ => .rfl⟩

theorem trans
    (first : Acts workers after self)
    (second : Acts after last self) :
    Acts workers last self where
  thread wc other := (second.thread wc other).trans (first.thread wc other)
  sched wc other := (second.sched wc other).trans (first.sched wc other)
  wraptask wc other :=
    (second.wraptask wc other).trans (first.wraptask wc other)
  slot wc isWorker := first.slot wc isWorker ∘ second.slot wc isWorker
  queue wc isWrapper t :=
    (second.queue wc isWrapper t).trans (first.queue wc isWrapper t)
  terminate := by
    intro wc terminates
    rcases second.terminate wc terminates with before | mailed | exited
    · rcases first.terminate wc before with old | mailed | ⟨t, own, zombie⟩
      · exact .inl old
      · exact .inr (.inl mailed)
      · exact .inr (.inr ⟨t, own, (second.zombie t).mpr zombie⟩)
    · exact .inr (.inl (first.mail wc mailed))
    · exact .inr (.inr exited)
  mail wc := first.mail wc ∘ second.mail wc
  zombie t := (second.zombie t).trans (first.zombie t)

/-- Only some of the fields matter. -/
theorem ofFields
    (thread : ∀ wc, wc ≠ self → after.thread wc = workers.thread wc)
    (sched : after.sched = workers.sched)
    (wraptask : after.wraptask = workers.wraptask)
    (terminate : after.terminate = workers.terminate)
    (mailbox : after.mailbox = workers.mailbox)
    (task : after.task = workers.task) :
    Acts workers after self where
  thread := thread
  sched _ _ := by rw [sched]
  wraptask _ _ := by rw [wraptask]
  slot _ _ := by rw [wraptask]; exact id
  queue _ _ _ := by rw [sched]
  terminate _ := by rw [terminate]; exact .inl
  mail _ := by rw [mailbox]; exact id
  zombie _ := by rw [task]

theorem setThread (workers : Workers τ n) (self : Context τ n) (pc : Pc τ n) :
    Acts workers (workers.setThread self pc) self :=
  ofFields (fun _ other => Function.update_of_ne other _ _) rfl rfl rfl rfl rfl

/-- The state of a task that has not exited. -/
theorem setState
    {state : TaskState}
    (alive : (workers.task t).state ≠ .zombie)
    (lives : state ≠ .zombie) :
    Acts workers (workers.setState t state) self := by
  refine ⟨fun _ _ => rfl, fun _ _ => rfl, fun _ _ => rfl, fun _ _ => id,
    fun _ _ _ => le_refl _, fun _ => .inl, fun _ => id, ?_⟩
  intro u
  by_cases same : u = t
  · subst same
    simp [Workers.setState, alive, lives]
  · simp [Workers.setState, same]

theorem setContext (workers : Workers τ n) (t : τ) (wc self : Context τ n) :
    Acts workers (workers.setContext t wc) self := by
  refine ⟨fun _ _ => rfl, fun _ _ => rfl, fun _ _ => rfl, fun _ _ => id,
    fun _ _ _ => le_refl _, fun _ => .inl, fun _ => id, ?_⟩
  intro u
  by_cases same : u = t
  · subst same
    simp [Workers.setContext]
  · simp [Workers.setContext, same]

theorem send
    {msg : WorkerMsg τ}
    (goesOn : msg ≠ .terminate) :
    Acts workers (workers.send wc msg) self := by
  refine ⟨fun _ _ => rfl, fun _ _ => rfl, fun _ _ => rfl, fun _ _ => id,
    fun _ _ _ => le_refl _, fun _ => .inl, ?_, fun _ => .rfl⟩
  intro other member
  by_cases same : other = wc
  · subst same
    simpa [Workers.send, Ne.symm goesOn] using member
  · simpa [Workers.send, same] using member

theorem sendAssign
    (workers : Workers τ n)
    (wc : Context τ n)
    (t : τ)
    (self : Context τ n) :
    Acts workers (workers.sendAssign wc t) self :=
  send (by simp)

theorem setPriority
    (t : τ)
    (prio : ℤ)
    (self : Context τ n) :
    Acts workers
      { workers with
        task := Function.update workers.task t
          { workers.task t with prio := prio } } self := by
  refine ⟨fun _ _ => rfl, fun _ _ => rfl, fun _ _ => rfl, fun _ _ => id,
    fun _ _ _ => le_refl _, fun _ => .inl, fun _ => id, ?_⟩
  intro u
  by_cases same : u = t
  · subst same
    simp
  · simp [same]

/-- A message is taken from a mailbox. -/
theorem tail
    {msg : WorkerMsg τ}
    {rest : List (WorkerMsg τ)}
    (mail : workers.mailbox wc = msg :: rest) :
    Acts workers
      { workers with mailbox := Function.update workers.mailbox wc rest }
      self := by
  refine ⟨fun _ _ => rfl, fun _ _ => rfl, fun _ _ => rfl, fun _ _ => id,
    fun _ _ _ => le_refl _, fun _ => .inl, ?_, fun _ => .rfl⟩
  intro other member
  by_cases same : other = wc
  · subst same
    simp only [Function.update_self] at member
    rw [mail]
    exact List.mem_cons_of_mem _ member
  · simpa [same] using member

/-- A task of a worker is appended to a ready queue. -/
theorem makeReady
    (isWorker : self.isWorker = true) :
    Acts workers (workers.makeReady self t) self := by
  refine ⟨fun _ _ => rfl, fun wc other => Function.update_of_ne other _ _,
    fun _ _ => rfl, fun _ _ => id, ?_, fun _ => .inl, fun _ => id,
    fun _ => .rfl⟩
  intro wc isWrapper u
  have other : wc ≠ self := by
    rintro rfl
    rw [isWorker] at isWrapper
    cases isWrapper
  simp [Workers.makeReady, other]

/-- The slot of a wrapper changes. -/
theorem setWraptask
    {slot : Option τ}
    (isWrapper : self.isWorker = true → slot = none) :
    Acts workers (workers.setWraptask self slot) self := by
  refine ⟨fun _ _ => rfl, fun _ _ => rfl,
    fun wc other => Function.update_of_ne other _ _, ?_, fun _ _ _ => le_refl _,
    fun _ => .inl, fun _ => id, fun _ => .rfl⟩
  intro wc isWorker filled
  by_cases same : wc = self
  · subst same
    simp [Workers.setWraptask, isWrapper isWorker] at filled
  · simpa [Workers.setWraptask, same] using filled

theorem putReady : Acts workers (workers.putReady self t) self := by
  unfold Workers.putReady
  split
  case isTrue isWorker => exact makeReady isWorker
  case isFalse isWrapper =>
    exact setWraptask fun isWorker => absurd isWorker isWrapper

theorem taskStop (workers : Workers τ n) (t : τ) (self : Context τ n) :
    Acts workers (workers.taskStop t) self :=
  ofFields (fun _ _ => rfl) rfl rfl rfl rfl rfl

/-- A task is taken from the ready queues. -/
theorem fetchReady
    {next : Option τ}
    (fetched : workers.fetchReady self = (next, after)) :
    Acts workers after self := by
  obtain ⟨-, rfl⟩ := Prod.mk.inj fetched
  refine ⟨fun _ _ => rfl, fun wc other => Function.update_of_ne other _ _,
    fun _ _ => rfl, fun _ _ => id, ?_, fun _ => .inl, fun _ => id,
    fun _ => .rfl⟩
  intro wc isWrapper u
  by_cases same : wc = self
  · subst same
    rw [Schedctx.count_fetchReady (workers.sched wc)]
    simp
  · simp [same]

/-- `LpelWorkerMakeTaskReady` of a task of the worker. -/
theorem makeTaskReady
    {mechanism : Mechanism}
    {target : Option (Fin n)}
    (isWorker : self.isWorker = true)
    (context : (workers.task t).workerContext = self) :
    Acts workers (workers.lpelWorkerMakeTaskReady mechanism target t) self := by
  subst context
  have stays (condition : Bool) :
      Acts workers ((workers.assert condition).makeReady
        (workers.task t).workerContext t) (workers.task t).workerContext :=
    (ofFields (fun _ _ => rfl) rfl rfl rfl rfl rfl :
      Acts workers (workers.assert condition) _).trans (makeReady isWorker)
  unfold Workers.lpelWorkerMakeTaskReady
  dsimp only
  split
  case h_1 wid =>
    split
    case isTrue =>
      have moved (condition : Bool) : Acts workers
          (((workers.assert condition).setContext t (.worker wid)).uncount
            (workers.task t).workerContext t)
          (workers.task t).workerContext :=
        ((ofFields (fun _ _ => rfl) rfl rfl rfl rfl rfl :
          Acts workers (workers.assert condition) _).trans
            (setContext _ t _ _)).trans
              (ofFields (fun _ _ => rfl) rfl rfl rfl rfl rfl)
      exact (moved _).trans (send (by simp))
    case isFalse => exact stays _
  case h_2 => exact stays _

/-- `CleanupTaskContext`. -/
theorem cleanup
    (workers : Workers τ n)
    (wc : Context τ n)
    (marked : Option τ)
    (self : Context τ n) :
    Acts workers (workers.cleanupTaskContext wc marked) self := by
  unfold Workers.cleanupTaskContext
  cases workers.markedDel wc <;> cases marked <;>
    exact ofFields (fun _ _ => rfl) rfl rfl rfl rfl rfl

/-- The wrapper of a task that has exited is told to terminate. -/
theorem terminateWrapper
    (wrapper : self = .wrapper t)
    (zombie : (workers.task t).state = .zombie) :
    Acts workers
      { workers with terminate := Function.update workers.terminate self true }
      self := by
  refine ⟨fun _ _ => rfl, fun _ _ => rfl, fun _ _ => rfl, fun _ _ => id,
    fun _ _ _ => le_refl _, ?_, fun _ => id, fun _ => .rfl⟩
  intro wc terminates
  by_cases same : wc = self
  · exact .inr (.inr ⟨t, same.trans wrapper, zombie⟩)
  · exact .inl (by simpa [same] using terminates)

/-- The task to be handed off is sent to its worker. -/
theorem handOff (workers : Workers τ n) (wc self : Context τ n) :
    Acts workers (workers.handOff wc) self := by
  unfold Workers.handOff
  cases workers.migrated wc with
  | none => exact refl workers self
  | some t =>
      have sent := sendAssign workers (workers.task t).workerContext t self
      exact sent.trans (ofFields (fun _ _ => rfl) rfl rfl rfl rfl rfl)

end Acts

namespace Relays

/-- What is noted of the life of a task does not concern its wakeup. -/
theorem note
    {event : History → History}
    (block : (event (workers.history t)).block = (workers.history t).block)
    (started : (event (workers.history t)).started = false →
      (workers.history t).started = false) :
    Relays workers (workers.note t event) := by
  refine ⟨fun u => .inl ?_, fun u => ?_⟩ <;> by_cases same : u = t
  · subst same
    simpa [Workers.note] using block
  · simp [Workers.note, same]
  · subst same
    simpa [Workers.note] using started
  · simp [Workers.note, same]

/-- The wakeup is taken from the mailbox. -/
theorem woken (sent : (workers.history t).block = .sent) :
    Relays workers
      (workers.note t fun history => { history with block := .idle }) := by
  refine ⟨fun u => ?_, fun u => ?_⟩ <;> by_cases same : u = t
  · subst same
    exact .inr ⟨sent, by simp [Workers.note]⟩
  · exact .inl (by simp [Workers.note, same])
  · subst same
    simp [Workers.note]
  · simp [Workers.note, same]

/-- `LpelWorkerMakeTaskReady`. -/
theorem makeTaskReady
    (mechanism : Mechanism)
    (target : Option (Fin n))
    (workers : Workers τ n)
    (t : τ) :
    Relays workers (workers.lpelWorkerMakeTaskReady mechanism target t) := by
  unfold Workers.lpelWorkerMakeTaskReady
  dsimp only
  split
  case h_1 => split <;> exact ofHistory rfl
  case h_2 => exact ofHistory rfl

/-- `CleanupTaskContext`. -/
theorem cleanup
    (workers : Workers τ n)
    (wc : Context τ n)
    (marked : Option τ) :
    Relays workers (workers.cleanupTaskContext wc marked) := by
  unfold Workers.cleanupTaskContext
  cases before : workers.markedDel wc with
  | none => cases marked <;> exact ofHistory rfl
  | some t =>
      have noted : Relays (workers.assert ((workers.task t).state = .zombie))
          (workers.lpelTaskDestroy t) :=
        note rfl id
      cases marked <;> exact ⟨noted.block, noted.unstarted⟩

/-- The task to be handed off is sent to its worker. -/
theorem handOff (workers : Workers τ n) (wc : Context τ n) :
    Relays workers (workers.handOff wc) := by
  unfold Workers.handOff
  cases workers.migrated wc <;> exact ofHistory rfl

end Relays

end Acts

section Steps

variable {workers after : Workers τ n} {self wc : Context τ n} {t : τ}
variable {mechanism : Mechanism} {target : Option (Fin n)}
variable {place : τ → Option (Place τ n)}

/-- A task whose wakeup is in a mailbox. -/
theorem Core.sent_of_mail
    (core : Core workers none none place)
    (mail : .wakeup t ∈ workers.mailbox wc) :
    (workers.history t).block = .sent := by
  have wakes := core.wakes t wc
  by_contra unsent
  rw [if_neg fun both => unsent both.1] at wakes
  exact absurd wakes (List.count_pos_iff.mpr mail).ne'

/-- A message is handled on a worker that does not execute a task. -/
theorem Core.acts_receive
    (core : Core workers none none place)
    (idle : (workers.thread self).task = none)
    (received : workers.receive mechanism target self = some after) :
    Acts workers after self ∧ Relays workers after := by
  unfold Workers.receive at received
  cases mail : workers.mailbox self with
  | nil => simp [mail] at received
  | cons msg rest =>
      simp only [mail, Option.some.injEq] at received
      subst received
      have member : msg ∈ workers.mailbox self := by
        rw [mail]
        exact List.mem_cons_self
      set taken : Workers τ n :=
        { workers with mailbox := Function.update workers.mailbox self rest }
        with isTaken
      have tail : Acts workers taken self := .tail mail
      cases msg with
      | terminate =>
          refine ⟨?_, .ofHistory rfl⟩
          refine { tail with terminate := ?_ }
          intro wc terminates
          by_cases same : wc = self
          · subst same
            exact .inr (.inl member)
          · left
            simpa [Workers.processMessage, isTaken, same] using terminates
      | spmdreq =>
          exact ⟨tail.trans (.ofFields (fun _ _ => rfl) rfl rfl rfl rfl rfl),
            .ofHistory rfl⟩
      | wakeup t =>
          obtain ⟨-, blocked, context⟩ := core.takeWakeup idle mail
          have sent := core.sent_of_mail member
          have noted (condition : Bool) : Acts taken
              (((taken.assert condition).note t fun history =>
                { history with block := .idle }).setState t .ready) self :=
            (.ofFields (fun _ _ => rfl) rfl rfl rfl rfl rfl : Acts taken
              ((taken.assert condition).note t fun history =>
                { history with block := .idle }) self).trans
              (.setState (by
                change (workers.task t).state ≠ _
                simp [blocked]) (by simp))
          have relays (condition : Bool) : Relays workers
              (((taken.assert condition).note t fun history =>
                { history with block := .idle }).setState t .ready) :=
            have woken : Relays workers _ := .woken sent
            ⟨woken.block, woken.unstarted⟩
          dsimp only [Workers.processMessage]
          split
          case isTrue isWorker =>
            refine ⟨(tail.trans (noted _)).trans (.makeTaskReady isWorker ?_),
              (relays _).trans (.makeTaskReady _ _ _ _)⟩
            rw [workerContext_setState]
            exact context
          case isFalse isWrapper =>
            exact ⟨(tail.trans (noted _)).trans
              (.setWraptask fun isWorker => absurd isWorker isWrapper),
              (relays _).trans (.ofHistory rfl)⟩
      | assign t =>
          obtain ⟨-, state, -⟩ := core.takeAssign mail
          have asserted (condition : Bool) :
              Acts workers (taken.assert condition) self :=
            tail.trans (.ofFields (fun _ _ => rfl) rfl rfl rfl rfl rfl)
          have counted {before : Workers τ n} (acts : Acts workers before self) :
              Acts workers ((before.countAssign self t).putReady self t) self :=
            (acts.trans (.ofFields (fun _ _ => rfl) rfl rfl rfl rfl rfl :
              Acts before (before.countAssign self t) self)).trans .putReady
          have unchanged {before : Workers τ n}
              (history : before.history = workers.history) :
              Relays workers ((before.countAssign self t).putReady self t) := by
            unfold Workers.putReady
            split <;> exact .ofHistory history
          dsimp only [Workers.processMessage]
          split
          case isTrue created =>
            refine ⟨counted ((asserted _).trans (.setState ?_ (by simp))),
              unchanged rfl⟩
            change (workers.task t).state ≠ _
            change (workers.task t).state = _ at created
            simp [created]
          case isFalse => exact ⟨counted (asserted _), unchanged rfl⟩

/-- Where the thread is after a step outside the functions of tasks. -/
structure Goes (workers after : Workers τ n) (actor : Context τ n) : Prop where
  function : (workers.thread actor).task = none ∧
      (after.thread actor).function = none ∨
    ∃ t, workers.thread actor = .resume t ∧ after.thread actor = .running t
  /-- It waits only if it found no ready task. -/
  wait : after.thread actor = .wait →
    (actor.isWorker = true → ∀ t, (after.sched actor).count t = 0) ∧
      (actor.isWorker = false → after.wraptask actor = none)
  /-- It leaves its loop only if it was told to terminate. -/
  left : after.thread actor = .left → after.terminate actor = true

/-- A thread that goes on to neither of these places. -/
theorem Goes.on
    {pc : Pc τ n}
    (was : (workers.thread self).task = none)
    (is : after.thread self = pc)
    (function : pc.function = none)
    (wait : pc ≠ .wait)
    (left : pc ≠ .left) :
    Goes workers after self where
  function := .inl ⟨was, by rw [is]; exact function⟩
  wait waits := absurd (is.symm.trans waits) wait
  left leaves := absurd (is.symm.trans leaves) left

/-- Nothing is fetched only from empty queues. -/
theorem fetchReady_none
    (fetched : workers.fetchReady wc = (none, after))
    (t : τ) :
    (after.sched wc).count t = 0 := by
  obtain ⟨first, rfl⟩ := Prod.mk.inj fetched
  unfold lpelSchedFetchReady at first
  split at first
  case h_1 notFound =>
    have empty : ∀ i, (workers.sched wc).queue i = [] := by
      intro i
      have tested := List.find?_eq_none.mp notFound i
        (List.mem_reverse.mpr (List.mem_finRange i))
      simpa using tested
    have none : (workers.sched wc).count t = 0 := by
      simp [Schedctx.count, empty]
    rw [Schedctx.count_fetchReady (workers.sched wc)] at none
    simp only [Function.update_self]
    omega
  case h_2 i found =>
    have tested := List.find?_some found
    rw [List.head?_eq_none_iff] at first
    simp [first] at tested

/-- Every step of a thread outside the functions of tasks. -/
theorem Core.acts_threadStep
    (core : Core workers none none place)
    (taken : workers.threadNext mechanism target self = some after) :
    Acts workers after self ∧ Relays workers after ∧
      Goes workers after self := by
  cases threadNext_cases taken with
  | fetch position fetched =>
      obtain ⟨-, rest⟩ := Prod.mk.inj fetched
      refine ⟨(Acts.fetchReady fetched).trans (.ofFields
        (fun _ other => Function.update_of_ne other _ _) rfl rfl rfl rfl rfl),
        .ofHistory (by rw [← rest]; rfl), ?_⟩
      exact .on (by rw [position]; rfl) (Function.update_self ..) rfl (by simp)
        (by simp)
  | fetchNone position fetched isWorker =>
      obtain ⟨-, rest⟩ := Prod.mk.inj fetched
      refine ⟨(Acts.fetchReady fetched).trans (.setThread ..),
        .ofHistory (by rw [← rest]; rfl), ?_⟩
      refine ⟨.inl ⟨by rw [position]; rfl, ?_⟩, fun _ => ⟨?_, ?_⟩, ?_⟩
      · simp [Workers.setThread, Pc.function]
      · exact fun _ t => fetchReady_none fetched t
      · rw [isWorker]
        exact fun isWrapper => by cases isWrapper
      · simp [Workers.setThread]
  | takeWraptask position slot =>
      refine ⟨(Acts.setWraptask fun _ => rfl).trans (.ofFields
        (fun _ other => Function.update_of_ne other _ _) rfl rfl rfl rfl rfl),
        .ofHistory rfl, ?_⟩
      exact .on (by rw [position]; rfl) (Function.update_self ..) rfl (by simp)
        (by simp)
  | noWraptask position slot isWrapper =>
      refine ⟨.setThread .., .ofHistory rfl,
        .inl ⟨by rw [position]; rfl, by simp [Workers.setThread, Pc.function]⟩,
        fun _ => ⟨?_, fun _ => slot⟩, by simp [Workers.setThread]⟩
      rw [isWrapper]
      exact fun isWorker => by cases isWorker
  | wait position received =>
      obtain ⟨acts, relays⟩ := core.acts_receive (by rw [position]; rfl) received
      exact ⟨acts.trans (.setThread ..), relays.trans (.ofHistory rfl),
        .on (by rw [position]; rfl) (Function.update_self ..) rfl (by simp)
          (by simp)⟩
  | drain position received =>
      obtain ⟨acts, relays⟩ := core.acts_receive (by rw [position]; rfl) received
      obtain ⟨-, thread⟩ := core.receive (by rw [position]; rfl) received
      exact ⟨acts, relays, .on (by rw [position]; rfl) (by rw [thread, position])
        rfl (by simp) (by simp)⟩
  | leaveWorker position _ _ _ terminate =>
      refine ⟨.setThread .., .ofHistory rfl,
        .inl ⟨by rw [position]; rfl, by simp [Workers.setThread, Pc.function]⟩,
        by simp [Workers.setThread], fun _ => terminate⟩
  | leaveWrapper position _ _ terminate =>
      refine ⟨(Acts.cleanup ..).trans (.setThread ..),
        (Relays.cleanup _ _ _).trans (.ofHistory rfl),
        .inl ⟨by rw [position]; rfl, by simp [Workers.setThread, Pc.function]⟩,
        by simp [Workers.setThread], fun _ => ?_⟩
      change (workers.cleanupTaskContext self none).terminate self = true
      unfold Workers.cleanupTaskContext
      cases workers.markedDel self <;> exact terminate
  | again position =>
      exact ⟨.setThread .., .ofHistory rfl, .on (by rw [position]; rfl)
        (Function.update_self ..) rfl (by simp) (by simp)⟩
  | @taskStart t position =>
      obtain ⟨-, ready⟩ := core.taskStart position
      refine ⟨((Acts.ofFields (fun _ _ => rfl) rfl rfl rfl rfl rfl :
        Acts workers (workers.assert _) self).trans
          (.setState ?_ (by simp))).trans (.setThread ..), .ofHistory rfl,
        .inr ⟨t, position, Function.update_self ..⟩, ?_, ?_⟩
      · change (workers.task t).state ≠ _
        simp [ready]
      · simp [Workers.setThread]
      · simp [Workers.setThread]
  | dispatcher position received =>
      obtain ⟨rfl, -⟩ := core.dispatches (.inl position)
      obtain ⟨acts, relays⟩ := core.acts_receive (by rw [position]; rfl) received
      obtain ⟨-, thread⟩ := core.receive (by rw [position]; rfl) received
      exact ⟨acts, relays, .on (by rw [position]; rfl) (by rw [thread, position])
        rfl (by simp) (by simp)⟩
  | dispatched position =>
      exact ⟨.setThread .., .ofHistory rfl, .on (by rw [position]; rfl)
        (Function.update_self ..) rfl (by simp) (by simp)⟩
  | pickSame position fetched | pick position fetched =>
      obtain ⟨rfl, -⟩ := core.dispatches (.inr position)
      obtain ⟨-, rest⟩ := Prod.mk.inj fetched
      refine ⟨(Acts.fetchReady fetched).trans (.ofFields
        (fun _ other => Function.update_of_ne other _ _) rfl rfl rfl rfl rfl),
        .ofHistory (by rw [← rest]; rfl), ?_⟩
      exact .on (by rw [position]; rfl) (Function.update_self ..) rfl (by simp)
        (by simp)
  | pickNone position fetched =>
      obtain ⟨rfl, -⟩ := core.dispatches (.inr position)
      obtain ⟨-, rest⟩ := Prod.mk.inj fetched
      refine ⟨(Acts.fetchReady fetched).trans (.ofFields
        (fun _ other => Function.update_of_ne other _ _) rfl rfl rfl rfl rfl),
        .ofHistory (by rw [← rest]; rfl), ?_⟩
      exact .on (by rw [position]; rfl) (Function.update_self ..) rfl (by simp)
        (by simp)
  | backWorker position =>
      refine ⟨((Acts.handOff ..).trans (.cleanup ..)).trans (.setThread ..),
        ((Relays.handOff _ _).trans (.cleanup _ _ _)).trans (.ofHistory rfl), ?_⟩
      exact .on (by rw [position]; rfl) (Function.update_self ..) rfl (by simp)
        (by simp)
  | backWrapper position =>
      exact ⟨.setThread .., .ofHistory rfl, .on (by rw [position]; rfl)
        (Function.update_self ..) rfl (by simp) (by simp)⟩

/-- The dispatcher starts. -/
theorem acts_dispatcher (workers : Workers τ n) (self : Context τ n) (t : τ) :
    Acts workers (workers.lpelWorkerDispatcher self t) self ∧
      (workers.lpelWorkerDispatcher self t).history = workers.history ∧
      Leaves (workers.lpelWorkerDispatcher self t) self := by
  unfold Workers.lpelWorkerDispatcher
  dsimp only
  split
  case isTrue =>
    exact ⟨.setThread .., rfl, .of (Function.update_self ..) rfl (by simp)
      (by simp)⟩
  case isFalse =>
    exact ⟨.ofFields (fun _ other => Function.update_of_ne other _ _) rfl rfl rfl
      rfl rfl, rfl, .of (Function.update_self ..) rfl (by simp) (by simp)⟩

/-- `LpelWorkerSelfTaskMigrate`. -/
theorem acts_selfTaskMigrate
    (workers : Workers τ n)
    (self : Context τ n)
    (t : τ)
    (wid : Fin n) :
    Acts workers (workers.lpelWorkerSelfTaskMigrate self t wid) self ∧
      (workers.lpelWorkerSelfTaskMigrate self t wid).history =
        workers.history ∧
      Leaves (workers.lpelWorkerSelfTaskMigrate self t wid) self := by
  unfold Workers.lpelWorkerSelfTaskMigrate
  dsimp only
  split
  case isTrue =>
    exact ⟨.setThread .., rfl, .of (Function.update_self ..) rfl (by simp)
      (by simp)⟩
  case isFalse =>
    exact ⟨(Acts.setContext workers t (.worker wid) self).trans
      (.ofFields (fun _ other => Function.update_of_ne other _ _) rfl rfl rfl rfl
        rfl), rfl, .of (Function.update_self ..) rfl (by simp) (by simp)⟩

/-- The running task stops. -/
theorem Core.acts_setState
    (core : Core workers none none place)
    (position : (workers.thread self).function = some t)
    {state : TaskState}
    (lives : state ≠ .zombie) :
    Acts workers (workers.setState t state) self := by
  refine .setState ?_ lives
  intro zombie
  obtain ⟨-, fits, -⟩ := core.onThread (Pc.task_of_function position)
  cases here : workers.thread self <;>
    simp_all [Pc.function, Pc.Fits, Workers.status]

/-- `LpelTaskYield`. -/
theorem Core.acts_yield
    (core : Core workers none none place)
    (position : workers.thread self = .running t)
    (mechanism : Mechanism)
    (target : Option (Fin n)) :
    Acts workers (workers.lpelTaskYield mechanism target self t) self ∧
      Relays workers (workers.lpelTaskYield mechanism target self t) ∧
      Leaves (workers.lpelTaskYield mechanism target self t) self := by
  have executes := core.executes position
  have ready : Acts workers (workers.setState t .ready) self :=
    core.acts_setState (by rw [position]; rfl) (by simp)
  have context : ((workers.setState t .ready).task t).workerContext = self := by
    simpa [Workers.setState] using executes.context
  have stays : ∀ after, after = (((workers.setState t .ready).putReady
      ((workers.setState t .ready).task t).workerContext t).taskStop
        t).lpelWorkerDispatcher self t →
      Acts workers after self ∧ Relays workers after ∧ Leaves after self := by
    rintro after rfl
    rw [context]
    obtain ⟨acts, history, leaves⟩ := acts_dispatcher
      (((workers.setState t .ready).putReady self t).taskStop t) self t
    refine ⟨((ready.trans .putReady).trans (.taskStop ..)).trans acts, ?_, leaves⟩
    refine .ofHistory (history.trans ?_)
    unfold Workers.putReady
    split <;> rfl
  unfold Workers.lpelTaskYield
  rw [assert_of (decide_eq_true executes.state)]
  dsimp only
  split
  case h_1 wid =>
    split
    case isTrue =>
      obtain ⟨acts, history, leaves⟩ := acts_selfTaskMigrate
        ((workers.setState t .ready).taskStop t) self t wid
      exact ⟨(ready.trans (.taskStop ..)).trans acts, .ofHistory history, leaves⟩
    case isFalse => exact stays _ rfl
  case h_2 => exact stays _ rfl

/-- `LpelTaskExit` after the task has become a zombie. -/
theorem Core.acts_exit
    (core : Core workers none none place)
    (position : workers.thread self = .running t) :
    Acts (workers.setState t .zombie) (workers.lpelTaskExit self t) self ∧
      Relays workers (workers.lpelTaskExit self t) ∧
      Leaves (workers.lpelTaskExit self t) self := by
  have executes := core.executes position
  have context : ((workers.setState t .zombie).task t).workerContext = self := by
    simpa [Workers.setState] using executes.context
  set dead := workers.setState t .zombie with isDead
  set counted := (dead.cleanupTaskContext self (some t)).uncount self t
    with isCounted
  have cleaned : Acts dead counted self :=
    (Acts.cleanup dead self (some t) self).trans
      (.ofFields (fun _ _ => rfl) rfl rfl rfl rfl rfl)
  have task : counted.task = dead.task := by
    rw [isCounted]
    unfold Workers.cleanupTaskContext
    cases dead.markedDel self <;> rfl
  have relays : Relays workers counted :=
    ((.ofHistory rfl : Relays workers dead).trans (.cleanup _ _ _)).trans
      (.ofHistory rfl)
  have left : Acts dead (dead.lpelWorkerSelfTaskExit t) self ∧
      (dead.lpelWorkerSelfTaskExit t).history = counted.history := by
    unfold Workers.lpelWorkerSelfTaskExit
    dsimp only
    rw [context, ← isCounted]
    split
    case isTrue => exact ⟨cleaned, rfl⟩
    case isFalse isWrapper =>
      refine ⟨cleaned.trans (.terminateWrapper (t := t) ?_ ?_), rfl⟩
      · cases wrapper : self with
        | worker wid => simp [wrapper, Context.isWorker] at isWrapper
        | wrapper u =>
            rw [core.home t u (executes.context.trans wrapper)]
      · rw [task]
        simp [isDead, Workers.setState]
  obtain ⟨acts, history, leaves⟩ := acts_dispatcher
    ((dead.lpelWorkerSelfTaskExit t).taskStop t) self t
  unfold Workers.lpelTaskExit
  rw [assert_of (decide_eq_true executes.state)]
  dsimp only
  refine ⟨(left.1.trans (.taskStop ..)).trans acts, relays.trans (.ofHistory (history.trans left.2)), leaves⟩

/-- `LpelTaskCheckMigrate` goes on, or leaves the function of the task. -/
theorem Core.acts_checkMigrate
    (core : Core workers none none place)
    (position : workers.thread self = .running t)
    (mechanism : Mechanism)
    (target : Option (Fin n)) :
    workers.lpelTaskCheckMigrate mechanism target self t = workers ∨
      Acts workers (workers.lpelTaskCheckMigrate mechanism target self t) self ∧
      Relays workers (workers.lpelTaskCheckMigrate mechanism target self t) ∧
      Leaves (workers.lpelTaskCheckMigrate mechanism target self t) self := by
  have executes := core.executes position
  have ready : Acts workers (workers.setState t .ready) self :=
    core.acts_setState (by rw [position]; rfl) (by simp)
  unfold Workers.lpelTaskCheckMigrate
  rw [assert_of (decide_eq_true executes.state)]
  dsimp only
  split
  case isTrue => exact .inl rfl
  case isFalse =>
    split
    case h_1 => exact .inl rfl
    case h_2 wid =>
      split
      case isTrue => exact .inl rfl
      case isFalse =>
        obtain ⟨acts, history, leaves⟩ := acts_selfTaskMigrate
          ((workers.setState t .ready).taskStop t) self t wid
        exact .inr ⟨(ready.trans (.taskStop ..)).trans acts,
          .ofHistory history, leaves⟩

/-- `LpelTaskBlockStream`. -/
theorem Core.acts_block
    (core : Core workers none none place)
    (position : workers.thread self = .committed t) :
    Acts workers (workers.lpelTaskBlockStream self t) self ∧
      (workers.lpelTaskBlockStream self t).history = workers.history ∧
      Leaves (workers.lpelTaskBlockStream self t) self := by
  have blocked : Acts workers (workers.setState t .blocked) self :=
    core.acts_setState (by rw [position]; rfl) (by simp)
  obtain ⟨acts, history, leaves⟩ := acts_dispatcher
    ((workers.setState t .blocked).taskStop t) self t
  exact ⟨(blocked.trans (.taskStop ..)).trans acts, history, leaves⟩

/-- A task that waits for its wakeup has not exited. -/
theorem Core.not_zombie
    (core : Core workers none none place)
    (waits : (workers.history t).block ≠ .idle) :
    (workers.task t).state ≠ .zombie := by
  intro zombie
  have fits := core.fits t (by simp)
  cases at_ : place t with
  | none =>
      rw [at_] at fits
      exact waits fits.block
  | some p =>
      rw [at_] at fits
      cases p with
      | assigned wc => exact waits fits.2.2.1
      | ready wc => exact waits fits.2.2.1
      | running wc =>
          have running := fits.2.2
          cases position : workers.thread wc <;>
            simp_all [Pc.Fits, Workers.status]
      | blocked wc =>
          rw [show (workers.task t).state = .blocked from fits.2.1] at zombie
          cases zombie
      | migrated wc => exact waits fits.2.2.1
      | zombie wc => exact waits fits.2.2

/-- The wakeup is issued. -/
theorem Wakes.note
    (workers before : Workers τ n)
    (t : τ)
    {block : Block}
    (awake : block ≠ .committed)
    (history : before.history = workers.history) :
    Wakes workers
      (before.note t fun history => { history with block := block }) t := by
  refine ⟨by simpa [Workers.note] using awake, ?_, ?_⟩
  · intro u other
    simp [Workers.note, other, history]
  · intro u
    by_cases same : u = t
    · subst same
      simp [Workers.note, history]
    · simp [Workers.note, same, history]

/-- A worker wakes up one of its own tasks. -/
theorem Core.acts_wakeLocal
    (core : Core workers none none place)
    (committed : (workers.history t).block = .committed)
    (context : (workers.task t).workerContext = self)
    (isWorker : self.isWorker = true)
    (mechanism : Mechanism)
    (target : Option (Fin n))
    (failed : Bool) :
    let after := ((({ workers with failed := failed }.note t fun history =>
      { history with block := .idle }).setState t
        .ready).lpelWorkerMakeTaskReady mechanism target t)
    Acts workers after self ∧ Wakes workers after t ∧
      after.thread = workers.thread := by
  intro after
  set woken := ({ workers with failed := failed }.note t fun history =>
    { history with block := .idle }).setState t .ready with isWoken
  have alive : (workers.task t).state ≠ .zombie :=
    core.not_zombie (by simp [committed])
  have acts : Acts workers woken self :=
    (.ofFields (fun _ _ => rfl) rfl rfl rfl rfl rfl : Acts workers
      ({ workers with failed := failed }.note t fun history =>
        { history with block := .idle }) self).trans
      (.setState (by exact alive) (by simp))
  have owned : (woken.task t).workerContext = self := by
    rw [isWoken, workerContext_setState]
    exact context
  have kept : after.history = woken.history ∧ after.thread = workers.thread := by
    change (woken.lpelWorkerMakeTaskReady mechanism target t).history = _ ∧
      (woken.lpelWorkerMakeTaskReady mechanism target t).thread = _
    unfold Workers.lpelWorkerMakeTaskReady
    dsimp only
    split
    case h_1 => split <;> exact ⟨rfl, rfl⟩
    case h_2 => exact ⟨rfl, rfl⟩
  have wakes : Wakes workers
      ({ workers with failed := failed }.note t fun history =>
        { history with block := .idle }) t :=
    .note _ _ t (by simp) rfl
  refine ⟨acts.trans (.makeTaskReady isWorker owned), ⟨?_, ?_, ?_⟩, kept.2⟩ <;>
    rw [kept.1]
  · exact wakes.block
  · exact wakes.others
  · exact wakes.started

/-- `LpelWorkerTaskWakeup` by the running task. -/
theorem Core.acts_wakeup
    (core : Core workers none none place)
    {whom : τ}
    (position : workers.thread self = .running t)
    (committed : (workers.history whom).block = .committed)
    (mechanism : Mechanism)
    (target : Option (Fin n)) :
    Acts workers (workers.lpelWorkerTaskWakeup mechanism target t whom) self ∧
      Wakes workers (workers.lpelWorkerTaskWakeup mechanism target t whom)
        whom ∧
      (workers.lpelWorkerTaskWakeup mechanism target t whom).thread self =
        .running t := by
  have executes := core.executes position
  have sent : ∀ wc, Acts workers (workers.sendWakeup wc whom) self ∧
      Wakes workers (workers.sendWakeup wc whom) whom ∧
      (workers.sendWakeup wc whom).thread self = .running t :=
    fun wc => ⟨(Acts.send (by simp)).trans
      (.ofFields (fun _ _ => rfl) rfl rfl rfl rfl rfl),
      .note workers (workers.send wc (.wakeup whom)) whom (by simp) rfl,
      position⟩
  unfold Workers.lpelWorkerTaskWakeup
  dsimp only
  split
  case isTrue isWorker =>
    split
    case isTrue => exact sent _
    case isFalse same =>
      rw [not_not, executes.context] at same
      obtain ⟨acts, wakes, thread⟩ := core.acts_wakeLocal committed same.symm
        (same ▸ isWorker) mechanism target _
      exact ⟨acts, wakes, (congrFun thread self).trans position⟩
  case isFalse => exact sent _

end Steps

end Decen
end Lpel
