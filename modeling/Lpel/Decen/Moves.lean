import Lpel.Decen.WorkerInvariant

/-!
# Moving tasks between places

One lemma for each way in which a thread takes a task from a place or puts it
down somewhere, and for each change that is made to a task in between.
-/

namespace Lpel
namespace Decen

variable {τ : Type} {n : ℕ} [DecidableEq τ]
variable {workers : Workers τ n} {hand : Option τ}
variable {owner : Option (Context τ n)}
variable {place : τ → Option (Place τ n)} {t : τ} {wc : Context τ n}

/-! ## Changes to a task that is being moved -/

theorem holder_self : holder (some t) owner place t = owner :=
  if_pos rfl

theorem holder_of_ne
    {u : τ}
    (distinct : u ≠ t) :
    holder (some t) owner place u = (place u).bind Place.owner :=
  if_neg fun same => distinct (Option.some.inj same).symm

/-- The owner of a task is known when it is picked up, and the others keep
theirs. -/
theorem holder_take
    {p : Place τ n}
    (at_ : place t = some p)
    (u : τ) :
    holder (some t) p.owner (Function.update place t none) u =
      holder none none place u := by
  by_cases same : u = t
  · subst same
    rw [holder_self]
    simp [holder, at_]
  · rw [holder_of_ne same, Function.update_of_ne same]
    simp [holder]

/-- The owner of a task is that of the place where it is put down. -/
theorem holder_put
    (target : Option (Place τ n))
    (same : target.bind Place.owner = owner)
    (u : τ) :
    holder none none (Function.update place t target) u =
      holder (some t) owner place u := by
  by_cases equal : u = t
  · subst equal
    rw [holder_self]
    simp [holder, same]
  · rw [holder_of_ne equal]
    simp [holder, equal]

/-- A task keeps its owner when the places have the same one. -/
theorem holder_move
    {p q : Place τ n}
    (at_ : place t = some p)
    (same : q.owner = p.owner)
    (u : τ) :
    holder none none (Function.update place t (some q)) u =
      holder none none place u := by
  by_cases equal : u = t
  · subst equal
    simp [holder, at_, same]
  · simp [holder, equal]

/-- Change the record of the task that is being moved. -/
theorem Core.retask
    (core : Core workers (some t) owner place)
    {task : Task τ n}
    (notBlocked : task.state ≠ .blocked)
    (home : ∀ u, task.workerContext = .wrapper u → u = t) :
    Core { workers with task := Function.update workers.task t task } (some t)
      owner place := by
  refine { core with located := ?_, fits := ?_, wakes := ?_, home := ?_ }
  · refine core.located.congr ?_
    intro u p
    cases p with
    | blocked wc =>
        by_cases same : u = t
        · subst same
          simp [Workers.copies, notBlocked, core.not_blocked]
        · simp [Workers.copies, same]
    | _ => rfl
  · intro u other
    have distinct : u ≠ t := fun same => other (by rw [same])
    have fits := core.fits u other
    simpa [Workers.status, distinct] using fits
  · intro u wc
    have wakes := core.wakes u wc
    by_cases same : u = t
    · subst same
      have idle := (core.held u rfl).2.2
      simpa [idle] using wakes
    · simpa [same] using wakes
  · intro u v context
    by_cases same : u = t
    · subst same
      exact home v (by simpa using context)
    · exact core.home u v (by simpa [same] using context)

theorem Core.setState
    (core : Core workers (some t) owner place)
    (state : TaskState)
    (notBlocked : state ≠ .blocked) :
    Core (workers.setState t state) (some t) owner place :=
  core.retask notBlocked fun u context => core.home t u context

theorem Core.setContext
    (core : Core workers (some t) owner place)
    (wid : Fin n) :
    Core (workers.setContext t (.worker wid)) (some t) owner place := by
  refine core.retask core.not_blocked ?_
  intro u context
  exact absurd context (by simp)

/-- Count the task that is being moved. -/
theorem Core.countAssign
    (core : Core workers (some t) none place)
    (wc : Context τ n) :
    Core (workers.countAssign wc t) (some t) (some wc) place := by
  have absent (other : Context τ n) : t ∉ workers.owned other := by
    intro member
    have holds := (core.owned other t).mp member
    rw [holder_self] at holds
    exact absurd holds (by simp)
  refine { core with owned := ?_, counted := ?_ }
  · intro other u
    have owned := core.owned other u
    by_cases equal : u = t
    · subst equal
      rw [holder_self]
      by_cases same : other = wc
      · subst same
        simp [Workers.countAssign]
      · simp [Workers.countAssign, same, Ne.symm same, absent other]
    · rw [holder_of_ne equal] at owned ⊢
      by_cases same : other = wc
      · subst same
        simpa [Workers.countAssign, equal] using owned
      · simpa [Workers.countAssign, same] using owned
  · intro wid
    have counted := core.counted wid
    by_cases same : Context.worker wid = wc
    · subst same
      simp only [Workers.countAssign, Function.update_self]
      rw [Finset.card_insert_of_notMem (absent _), counted]
      simp
    · simpa [Workers.countAssign, same] using counted

/-- Stop counting the task that is being moved. -/
theorem Core.uncount
    (core : Core workers (some t) (some wc) place) :
    Core (workers.uncount wc t) (some t) none place := by
  have member : t ∈ workers.owned wc := by
    rw [core.owned, holder_self]
  refine { core with owned := ?_, counted := ?_ }
  · intro other u
    have owned := core.owned other u
    by_cases equal : u = t
    · subst equal
      rw [holder_self] at owned ⊢
      by_cases same : other = wc
      · subst same
        simp [Workers.uncount]
      · simpa [Workers.uncount, same, Ne.symm same] using owned
    · rw [holder_of_ne equal] at owned ⊢
      by_cases same : other = wc
      · subst same
        simpa [Workers.uncount, equal] using owned
      · simpa [Workers.uncount, same] using owned
  · intro wid
    have counted := core.counted wid
    by_cases same : Context.worker wid = wc
    · subst same
      simp only [Workers.uncount, Function.update_self]
      rw [counted, Finset.card_erase_of_mem member]
      have positive := Finset.card_pos.mpr ⟨t, member⟩
      omega
    · simpa [Workers.uncount, same] using counted

/-- Taking a message leaves the notifications with the workers. -/
theorem Core.notified_tail
    (core : Core workers hand owner place)
    {msg : WorkerMsg τ}
    {rest : List (WorkerMsg τ)}
    (mail : workers.mailbox wc = msg :: rest)
    (u : τ) :
    .spmdreq ∉ Function.update workers.mailbox wc rest (.wrapper u) := by
  intro member
  apply core.notified u
  by_cases same : Context.wrapper u = wc
  · rw [same, Function.update_self] at member
    rw [same, mail]
    exact List.mem_cons_of_mem _ member
  · rwa [Function.update_of_ne same] at member

/-- Sending a task leaves the notifications with the workers. -/
theorem Core.notified_send
    (core : Core workers hand owner place)
    (target : Context τ n)
    {msg : WorkerMsg τ}
    (other : msg ≠ .spmdreq)
    (u : τ) :
    .spmdreq ∉ (workers.send target msg).mailbox (.wrapper u) := by
  intro member
  apply core.notified u
  by_cases same : Context.wrapper u = target
  · subst same
    simpa [Workers.send, Ne.symm other] using member
  · simpa [Workers.send, same] using member

/-! ## Putting a task down -/

/-- The places of the others, and that of the task that is put down. -/
theorem Core.fits_putDown
    {after : Workers τ n}
    (core : Core workers (some t) owner place)
    (target : Option (Place τ n))
    (thread : after.thread = workers.thread)
    (others : ∀ u, u ≠ t → after.status u = workers.status u)
    (putDown : Fits after.thread (after.status t) target) :
    ∀ u, none ≠ some u →
      Fits after.thread (after.status u) (Function.update place t target u) := by
  intro u _
  by_cases same : u = t
  · subst same
    rw [Function.update_self]
    exact putDown
  · rw [Function.update_of_ne same, others u same, thread]
    exact core.fits u fun equal => same (Option.some.inj equal).symm

/-- Put the task into the ready queues of a worker. -/
theorem Core.makeReady
    (core : Core workers (some t) (some wc) place)
    (ready : (workers.task t).state = .ready)
    (context : (workers.task t).workerContext = wc) :
    Core (workers.makeReady wc t) none none
      (Function.update place t (some (.ready wc))) := by
  have count (u : τ) : (lpelSchedMakeReady (workers.sched wc)
      (workers.task t).prio t).count u =
        (workers.sched wc).count u + if t = u then 1 else 0 :=
    Schedctx.count_makeReady _ _ _ _
  refine { core with
    located := ?_, held := by simp, fits := ?_, owned := ?_ }
  · refine core.located.put (core.held t rfl).1 _ ?_ ?_
    · intro u p away
      cases p with
      | ready other =>
          refine congrArg (· + _) ?_
          by_cases same : other = wc
          · subst same
            have distinct : u ≠ t := by simpa using away
            simp [Workers.makeReady, count, distinct.symm]
          · simp [Workers.makeReady, same]
      | _ => rfl
    · have added : ((workers.makeReady wc t).sched wc).count t =
          (workers.sched wc).count t + 1 := by
        simp [Workers.makeReady, count]
      exact (congrArg (· + _) added).trans (Nat.add_right_comm ..)
  · obtain ⟨-, alive, idle⟩ := core.held t rfl
    refine core.fits_putDown _ rfl ?_ ⟨alive, ready, idle, context⟩
    intro u _
    rfl
  · intro other u
    rw [holder_put _ rfl]
    exact core.owned other u

/-- Put the task into the slot of its wrapper. -/
theorem Core.fillWraptask
    (core : Core workers (some t) (some wc) place)
    (isWrapper : wc.isWorker = false)
    (ready : (workers.task t).state = .ready)
    (context : (workers.task t).workerContext = wc) :
    Core (workers.setWraptask wc (some t)) none none
      (Function.update place t (some (.ready wc))) := by
  subst context
  have free := core.wraptask_free isWrapper
  refine { core with
    located := ?_, held := by simp, fits := ?_, owned := ?_ }
  · refine core.located.put (core.held t rfl).1 _ ?_ ?_
    · intro u p away
      cases p with
      | ready other =>
          by_cases same : other = (workers.task t).workerContext
          · subst same
            have distinct : u ≠ t := by simpa using away
            simp [Workers.copies, Workers.setWraptask, free, distinct.symm]
          · simp [Workers.copies, Workers.setWraptask, same]
      | _ => rfl
    · simp [Workers.copies, Workers.setWraptask, free]
  · obtain ⟨-, alive, idle⟩ := core.held t rfl
    refine core.fits_putDown _ rfl ?_ ⟨alive, ready, idle, rfl⟩
    intro u _
    rfl
  · intro other u
    rw [holder_put _ rfl]
    exact core.owned other u

/-- Put a ready task where its context looks for it. -/
theorem Core.putReady
    (core : Core workers (some t) (some wc) place)
    (ready : (workers.task t).state = .ready)
    (context : (workers.task t).workerContext = wc) :
    Core (workers.putReady wc t) none none
      (Function.update place t (some (.ready wc))) := by
  unfold Workers.putReady
  split
  case isTrue => exact core.makeReady ready context
  case isFalse isWrapper =>
    exact core.fillWraptask (by simpa using isWrapper) ready context

/-- Send the task to the worker of its context. -/
theorem Core.sendAssign
    (core : Core workers (some t) none place)
    (state : (workers.task t).state = .created ∨
      (workers.task t).state = .ready) :
    Core (workers.sendAssign (workers.task t).workerContext t) none none
      (Function.update place t
        (some (.assigned (workers.task t).workerContext))) := by
  refine { core with
    located := ?_, held := by simp, fits := ?_, wakes := ?_,
    notified := core.notified_send _ (by simp), owned := ?_ }
  · refine core.located.put (core.held t rfl).1 _ ?_ ?_
    · intro u p away
      cases p with
      | assigned other =>
          by_cases same : other = (workers.task t).workerContext
          · subst same
            have distinct : u ≠ t := by simpa using away
            simp [Workers.copies, Workers.sendAssign, Workers.send,
              List.count_append, distinct.symm]
          · simp [Workers.copies, Workers.sendAssign, Workers.send, same]
      | _ => rfl
    · simp [Workers.copies, Workers.sendAssign, Workers.send,
        List.count_append]
  · obtain ⟨-, alive, idle⟩ := core.held t rfl
    refine core.fits_putDown _ rfl ?_ ⟨alive, state, idle, rfl⟩
    intro u _
    rfl
  · intro u other
    refine Eq.trans ?_ (core.wakes u other)
    by_cases same : other = (workers.task t).workerContext
    · subst same
      simp [Workers.sendAssign, Workers.send, List.count_append]
    · simp [Workers.sendAssign, Workers.send, same]
  · intro other u
    rw [holder_put _ rfl]
    exact core.owned other u

/-- Put the task down on a thread. -/
theorem Core.execute
    (core : Core workers (some t) (some wc) place)
    (pc : Pc τ n)
    (idle : (workers.thread wc).task = none)
    (free : wc.isWorker = true → workers.migrated wc = none)
    (executes : pc.task = some t)
    (context : (workers.task t).workerContext = wc)
    (fits : pc.Fits (workers.status t)) :
    Core ((workers.setCurrent wc (some t)).setThread wc pc) none none
      (Function.update place t (some (.running wc))) := by
  refine { core with
    located := ?_, held := by simp, fits := ?_,
    threads := core.threads_setThread (Pc.ok_of_task executes wc),
    migrates := core.migrates_setThread free pc, owned := ?_ }
  · refine core.located.put (core.held t rfl).1 _ ?_ ?_
    · intro u p away
      cases p with
      | running other =>
          by_cases same : other = wc
          · subst same
            have distinct : u ≠ t := by simpa using away
            simp [Workers.copies, Workers.setThread, idle, executes,
              distinct.symm]
          · simp [Workers.copies, Workers.setThread, Workers.setCurrent, same]
      | _ => rfl
    · simp [Workers.copies, Workers.setThread, idle, executes]
  · intro u _
    by_cases same : u = t
    · subst same
      rw [Function.update_self]
      refine ⟨(core.held u rfl).2.1, context, ?_⟩
      change (Function.update workers.thread wc pc wc).Fits (workers.status u)
      rw [Function.update_self]
      exact fits
    · rw [Function.update_of_ne same]
      refine (core.fits u fun equal => same (Option.some.inj equal).symm).setThread
        (core.not_running_of ?_) pc
      rw [idle]
      simp
  · intro other u
    rw [holder_put _ rfl]
    exact core.owned other u

/-- Leave the task to the loop of its worker. -/
theorem Core.leaveMigrated
    (core : Core workers (some t) (some wc) place)
    (wrapped : ∀ u, wc = .wrapper u → t = u)
    (back : workers.thread wc = .back)
    (free : workers.migrated wc = none)
    (ready : (workers.task t).state = .ready)
    (target : (workers.task t).workerContext.isWorker = true) :
    Core
      { workers with
        migrated := Function.update workers.migrated wc (some t) }
      none none (Function.update place t (some (.migrated wc))) := by
  refine { core with
    located := ?_, held := by simp, fits := ?_, migrates := ?_, wrapped := ?_,
    owned := ?_ }
  · refine core.located.put (core.held t rfl).1 _ ?_ ?_
    · intro u p away
      cases p with
      | migrated other =>
          by_cases same : other = wc
          · subst same
            have distinct : u ≠ t := by simpa using away
            simp [Workers.copies, free, distinct.symm]
          · simp [Workers.copies, same]
      | _ => rfl
    · simp [Workers.copies, free]
  · obtain ⟨-, alive, idle⟩ := core.held t rfl
    refine core.fits_putDown _ rfl ?_ ⟨alive, ready, idle, target⟩
    intro u _
    rfl
  · intro other migrating
    by_cases same : other = wc
    · subst same
      exact fun _ => back
    · simp only [Function.update_of_ne same] at migrating
      exact core.migrates other migrating
  · intro v u migrating
    dsimp only at migrating
    by_cases same : Context.wrapper u = wc
    · rw [same, Function.update_self] at migrating
      rw [← Option.some.inj migrating]
      exact wrapped u same.symm
    · rw [Function.update_of_ne same] at migrating
      exact core.wrapped v u migrating
  · intro other u
    rw [holder_put _ rfl]
    exact core.owned other u

/-- Mark the task for deletion. -/
theorem Core.mark
    (core : Core workers (some t) none place)
    (free : workers.markedDel wc = none)
    (zombie : (workers.task t).state = .zombie) :
    Core
      { workers with
        markedDel := Function.update workers.markedDel wc (some t) }
      none none (Function.update place t (some (.zombie wc))) := by
  refine { core with
    located := ?_, held := by simp, fits := ?_, owned := ?_ }
  · refine core.located.put (core.held t rfl).1 _ ?_ ?_
    · intro u p away
      cases p with
      | zombie other =>
          by_cases same : other = wc
          · subst same
            have distinct : u ≠ t := by simpa using away
            simp [Workers.copies, free, distinct.symm]
          · simp [Workers.copies, same]
      | _ => rfl
    · simp [Workers.copies, free]
  · obtain ⟨-, alive, idle⟩ := core.held t rfl
    refine core.fits_putDown _ rfl ?_ ⟨alive, zombie, idle⟩
    intro u _
    rfl
  · intro other u
    rw [holder_put _ rfl]
    exact core.owned other u

/-! ## Taking a task -/

/-- The places of the others while a task is taken. -/
theorem Core.fits_take
    {after : Workers τ n}
    (core : Core workers none none place)
    (thread : after.thread = workers.thread)
    (others : ∀ u, u ≠ t → after.status u = workers.status u) :
    ∀ u, some t ≠ some u →
      Fits after.thread (after.status u) (Function.update place t none u) := by
  intro u other
  have distinct : u ≠ t := fun same => other (by rw [same])
  rw [Function.update_of_ne distinct, others u distinct, thread]
  exact core.fits u (by simp)

/-- The task that is taken. -/
theorem Core.held_take
    {after : Workers τ n}
    (alive : (after.history t).Alive)
    (idle : (after.history t).block = .idle) :
    ∀ u, some t = some u →
      Function.update place t none u = none ∧ (after.history u).Alive ∧
        (after.history u).block = .idle := by
  rintro u same
  obtain rfl := Option.some.inj same
  exact ⟨Function.update_self .., alive, idle⟩

/-- Take a task from a message. -/
theorem Core.takeAssign
    (core : Core workers none none place)
    {rest : List (WorkerMsg τ)}
    (mail : workers.mailbox wc = .assign t :: rest) :
    Core
        { workers with mailbox := Function.update workers.mailbox wc rest }
        (some t) none (Function.update place t none) ∧
      ((workers.task t).state = .created ∨ (workers.task t).state = .ready) ∧
      (workers.task t).workerContext = wc := by
  obtain ⟨present, alive, state, idle, context⟩ := core.fits_at
    (t := t) (p := .assigned wc) (by simp [Workers.copies, mail])
  refine ⟨{ core with
    located := ?_, held := Core.held_take alive idle,
    fits := core.fits_take rfl fun _ _ => rfl,
    wakes := ?_, notified := core.notified_tail mail, owned := ?_ }, state,
    context⟩
  · refine core.located.take present ?_ ?_
    · intro u p away
      cases p with
      | assigned other =>
          by_cases same : other = wc
          · subst same
            have distinct : u ≠ t := by simpa using away
            simp [Workers.copies, mail, distinct.symm]
          · simp [Workers.copies, same]
      | _ => rfl
    · simp [Workers.copies, mail]
  · intro u other
    refine Eq.trans ?_ (core.wakes u other)
    by_cases same : other = wc
    · subst same
      simp [mail]
    · simp [same]
  · intro other u
    rw [show none = (Place.assigned wc).owner from rfl, holder_take present]
    exact core.owned other u

/-- Take a task from the ready queues. -/
theorem Core.fetchReady
    (core : Core workers none none place)
    {after : Workers τ n}
    (fetched : workers.fetchReady wc = (some t, after)) :
    Core after (some t) (some wc) (Function.update place t none) ∧
      (after.task t).state = .ready ∧
      (after.task t).workerContext = wc := by
  obtain ⟨first, rfl⟩ := Prod.mk.inj fetched
  have count (u : τ) : (workers.sched wc).count u =
      (lpelSchedFetchReady (workers.sched wc)).2.count u +
        if t = u then 1 else 0 := by
    rw [Schedctx.count_fetchReady, first]
    simp only [Option.some.injEq]
  obtain ⟨present, alive, state, idle, context⟩ := core.fits_at
    (t := t) (p := .ready wc) (by simp [Workers.copies, count t])
  refine ⟨{ core with
    located := ?_, held := Core.held_take alive idle,
    fits := core.fits_take rfl fun _ _ => rfl,
    owned := ?_ }, state, context⟩
  · refine core.located.take present ?_ ?_
    · intro u p away
      cases p with
      | ready other =>
          refine congrArg (· + _) ?_
          by_cases same : other = wc
          · subst same
            have distinct : u ≠ t := by simpa using away
            simp [count u, distinct.symm]
          · simp [same]
      | _ => rfl
    · simp only [Workers.copies, Function.update_self, count t, if_true]
      omega
  · intro other u
    rw [show some wc = (Place.ready wc).owner from rfl, holder_take present]
    exact core.owned other u

/-- Nothing is taken from empty ready queues. -/
theorem Core.fetchNone
    (core : Core workers none none place)
    {after : Workers τ n}
    (fetched : workers.fetchReady wc = (none, after)) :
    Core after none none place := by
  obtain ⟨first, rfl⟩ := Prod.mk.inj fetched
  have count (u : τ) : (workers.sched wc).count u =
      (lpelSchedFetchReady (workers.sched wc)).2.count u := by
    rw [Schedctx.count_fetchReady, first]
    simp
  refine { core with located := core.located.congr ?_ }
  intro u p
  cases p with
  | ready other =>
      refine congrArg (· + _) ?_
      by_cases same : other = wc
      · subst same
        simp [count u]
      · simp [same]
  | _ => rfl

/-- Take the task from the slot of a wrapper. -/
theorem Core.takeWraptask
    (core : Core workers none none place)
    (slot : workers.wraptask wc = some t) :
    Core (workers.setWraptask wc none) (some t) (some wc)
        (Function.update place t none) ∧
      (workers.task t).state = .ready ∧
      (workers.task t).workerContext = wc := by
  obtain ⟨present, alive, state, idle, context⟩ := core.fits_at
    (t := t) (p := .ready wc) (by simp [Workers.copies, slot])
  refine ⟨{ core with
    located := ?_, held := Core.held_take alive idle,
    fits := core.fits_take rfl fun _ _ => rfl,
    owned := ?_ }, state, context⟩
  · refine core.located.take present ?_ ?_
    · intro u p away
      cases p with
      | ready other =>
          refine congrArg (_ + ·) ?_
          by_cases same : other = wc
          · subst same
            have distinct : u ≠ t := by simpa using away
            simp [Workers.setWraptask, slot, distinct.symm]
          · simp [Workers.setWraptask, same]
      | _ => rfl
    · simp [Workers.copies, Workers.setWraptask, slot]
  · intro other u
    rw [show some wc = (Place.ready wc).owner from rfl, holder_take present]
    exact core.owned other u

/-- Take the task that is to be handed off. -/
theorem Core.takeMigrated
    (core : Core workers none none place)
    (migrating : workers.migrated wc = some t) :
    Core
        { workers with migrated := Function.update workers.migrated wc none }
        (some t) (some wc) (Function.update place t none) ∧
      (workers.task t).state = .ready := by
  obtain ⟨present, alive, state, idle, -⟩ := core.fits_at
    (t := t) (p := .migrated wc) (by simp [Workers.copies, migrating])
  refine ⟨{ core with
    located := ?_, held := Core.held_take alive idle,
    fits := core.fits_take rfl fun _ _ => rfl,
    migrates := ?_, wrapped := ?_, owned := ?_ }, state⟩
  · refine core.located.take present ?_ ?_
    · intro u p away
      cases p with
      | migrated other =>
          by_cases same : other = wc
          · subst same
            have distinct : u ≠ t := by simpa using away
            simp [Workers.copies, migrating, distinct.symm]
          · simp [Workers.copies, same]
      | _ => rfl
    · simp [Workers.copies, migrating]
  · intro other migrates
    by_cases same : other = wc
    · subst same
      simp at migrates
    · simp only [Function.update_of_ne same] at migrates
      exact core.migrates other migrates
  · intro v u migrates
    dsimp only at migrates
    by_cases same : Context.wrapper u = wc
    · subst same
      simp at migrates
    · rw [Function.update_of_ne same] at migrates
      exact core.wrapped v u migrates
  · intro other u
    rw [show some wc = (Place.migrated wc).owner from rfl, holder_take present]
    exact core.owned other u

/-- Take a task from the thread that executes it. -/
theorem Core.pickUp
    (core : Core workers none none place)
    (executes : (workers.thread wc).task = some t)
    (pc : Pc τ n)
    (current : Option τ)
    (idle : (workers.history t).block = .idle)
    (stays : pc.task = none)
    (ok : pc.Ok wc current) :
    Core ((workers.setCurrent wc current).setThread wc pc) (some t) (some wc)
        (Function.update place t none) := by
  obtain ⟨present, alive, -⟩ := core.fits_at
    (t := t) (p := .running wc) (by simp [Workers.copies, executes])
  refine { core with
    located := ?_, held := Core.held_take alive idle, fits := ?_,
    threads := core.threads_setThread ok,
    migrates := core.migrates_setThread (fun _ => core.not_migrating_task executes)
      pc,
    owned := ?_ }
  · refine core.located.take present ?_ ?_
    · intro u p away
      cases p with
      | running other =>
          by_cases same : other = wc
          · subst same
            have distinct : u ≠ t := by simpa using away
            simp [Workers.copies, Workers.setThread, executes, stays,
              distinct.symm]
          · simp [Workers.copies, Workers.setThread, Workers.setCurrent, same]
      | _ => rfl
    · simp [Workers.copies, Workers.setThread, executes, stays]
  · intro u other
    have distinct : u ≠ t := fun same => other (by rw [same])
    rw [Function.update_of_ne distinct]
    refine (core.fits u (by simp)).setThread (core.not_running_of ?_) pc
    rw [executes]
    exact other
  · intro other u
    rw [show some wc = (Place.running wc).owner from rfl, holder_take present]
    exact core.owned other u

/-- A task that waits for its wakeup, on a worker that does not execute it, is
blocked. -/
theorem Core.blocked_of
    (core : Core workers none none place)
    (waits : (workers.history t).block ≠ .idle)
    (context : (workers.task t).workerContext = wc)
    (idle : (workers.thread wc).task ≠ some t) :
    place t = some (.blocked wc) ∧ (workers.history t).Alive ∧
      (workers.task t).state = .blocked := by
  have fits := core.fits t (by simp)
  cases at_ : place t with
  | none =>
      rw [at_] at fits
      exact absurd fits.block waits
  | some p =>
      rw [at_] at fits
      obtain ⟨alive, fits⟩ := fits
      cases p with
      | blocked other =>
          obtain rfl : other = wc := fits.2.2.symm.trans context
          exact ⟨rfl, alive, fits.1⟩
      | running other =>
          obtain rfl : other = wc := fits.1.symm.trans context
          exact absurd at_ (core.not_running_of idle)
      | assigned other => exact absurd fits.2.1 waits
      | ready other => exact absurd fits.2.1 waits
      | migrated other => exact absurd fits.2.1 waits
      | zombie other => exact absurd fits.2 waits

/-- Wake up a blocked task, and leave the messages of the others. -/
theorem Core.wake
    (core : Core workers none none place)
    (waits : (workers.history t).block ≠ .idle)
    (context : (workers.task t).workerContext = wc)
    (idle : (workers.thread wc).task ≠ some t)
    (mailbox : Context τ n → List (WorkerMsg τ))
    (assigns : ∀ u other, (mailbox other).count (.assign u) =
      (workers.mailbox other).count (.assign u))
    (wakeups : ∀ u other, u ≠ t → (mailbox other).count (.wakeup u) =
      (workers.mailbox other).count (.wakeup u))
    (notified : ∀ u, .spmdreq ∉ mailbox (.wrapper u))
    (handled : ∀ other, (mailbox other).count (.wakeup t) = 0) :
    Core
      (({ workers with mailbox := mailbox }.note t fun history =>
        { history with block := .idle }).setState t .ready)
      (some t) (some wc) (Function.update place t none) := by
  obtain ⟨present, alive, -⟩ := core.blocked_of waits context idle
  refine { core with
    located := ?_, held := Core.held_take ?_ ?_,
    fits := core.fits_take rfl ?_, wakes := ?_, notified := notified,
    home := ?_, owned := ?_ }
  · refine core.located.move _ ?_ ?_
    · intro u distinct p
      cases p with
      | assigned other => exact assigns u other
      | blocked other =>
          simp [Workers.copies, Workers.setState, Workers.note, distinct]
      | _ => rfl
    · intro p
      have located := core.located t p
      rw [present] at located
      cases p with
      | assigned other => exact (assigns t other).trans located
      | blocked other =>
          simp [Workers.copies, Workers.setState, Workers.note]
      | _ => exact located
  · simpa [Workers.setState, Workers.note, History.Alive] using alive
  · simp [Workers.setState, Workers.note]
  · intro u distinct
    simp [Workers.status, Workers.setState, Workers.note, distinct]
  · intro u other
    by_cases same : u = t
    · subst same
      simp [Workers.setState, Workers.note, handled]
    · refine (wakeups u other same).trans ((core.wakes u other).trans ?_)
      simp [Workers.setState, Workers.note, same]
  · intro u v context
    exact core.home u v ((workerContext_setState ..).symm.trans context)
  · intro other u
    rw [show some wc = (Place.blocked wc).owner from rfl, holder_take present]
    exact core.owned other u

/-- Take the task that a wakeup message is for. -/
theorem Core.takeWakeup
    (core : Core workers none none place)
    (idle : (workers.thread wc).task = none)
    {rest : List (WorkerMsg τ)}
    (mail : workers.mailbox wc = .wakeup t :: rest) :
    Core
        (({ workers with
          mailbox := Function.update workers.mailbox wc rest }.note t
            fun history => { history with block := .idle }).setState t .ready)
        (some t) (some wc) (Function.update place t none) ∧
      (workers.task t).state = .blocked ∧
      (workers.task t).workerContext = wc := by
  have sent : (workers.history t).block = .sent ∧
      (workers.task t).workerContext = wc := by
    have wakes := core.wakes t wc
    rw [mail, List.count_cons_self] at wakes
    by_contra unsent
    rw [if_neg unsent] at wakes
    omega
  have waits : (workers.history t).block ≠ .idle := by
    rw [sent.1]
    simp
  have notThere : (workers.thread wc).task ≠ some t := by
    rw [idle]
    simp
  obtain ⟨-, -, state⟩ := core.blocked_of waits sent.2 notThere
  refine ⟨core.wake waits sent.2 notThere _ ?_ ?_ ?_ ?_, state, sent.2⟩
  · intro u other
    by_cases same : other = wc
    · subst same
      simp [mail]
    · simp [same]
  · intro u other distinct
    by_cases same : other = wc
    · subst same
      simp [mail, distinct.symm]
    · simp [same]
  · exact core.notified_tail mail
  · intro other
    have wakes := core.wakes t other
    by_cases same : other = wc
    · subst same
      rw [mail, List.count_cons_self, if_pos sent] at wakes
      rw [Function.update_self]
      omega
    · rw [if_neg fun both => same (both.2.symm.trans sent.2)] at wakes
      rw [Function.update_of_ne same]
      exact wakes

/-- Take a blocked task of the same worker. -/
theorem Core.wakeLocal
    (core : Core workers none none place)
    (committed : (workers.history t).block = .committed)
    (context : (workers.task t).workerContext = wc)
    (idle : (workers.thread wc).task ≠ some t) :
    Core
        ((workers.note t fun history =>
          { history with block := .idle }).setState t .ready)
        (some t) (some wc) (Function.update place t none) ∧
      (workers.task t).state = .blocked := by
  have waits : (workers.history t).block ≠ .idle := by
    rw [committed]
    simp
  obtain ⟨-, -, state⟩ := core.blocked_of waits context idle
  refine ⟨core.wake waits context idle workers.mailbox ?_ ?_ core.notified ?_,
    state⟩
  · intro u other
    rfl
  · intro u other _
    rfl
  · intro other
    have wakes := core.wakes t other
    rw [if_neg fun both => by simp [committed] at both] at wakes
    exact wakes

end Decen
end Lpel
