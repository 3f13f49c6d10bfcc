import Lpel.Hrc.Wrapper

/-!
# Every wrapper has one task

The context of a wrapper belongs to one task from its creation until the task is
destroyed.  Then its mailbox is empty, so the task that takes the context from
`freewrappers` finds nothing of its predecessor.
-/

namespace Lpel
namespace Hrc

variable {τ : Type} {n : ℕ}

/-- What a block has put into the mailbox. -/
def WrapperBlock.mail (t : τ) : WrapperBlock → List (WorkerMsg τ n)
  | .sent => [.wakeup t]
  | .idle | .committed => []

/-- How a task, its history and the context of its wrapper fit together. -/
inductive Situation
    (t : τ)
    (state : TaskState)
    (history : WrapperHistory)
    (ctx : WrapperCtx τ n) : Prop
  | created {pc : WrapperPc τ} :
      pc = .loop ∨ pc = .recv →
      state = .created →
      history = { started := false, destroyed := false, block := .idle } →
      ctx =
        { pc := pc, mailbox := [], terminate := false, currentTask := none } →
      Situation t state history ctx
  | started {pc : WrapperPc τ} :
      pc = .loop ∨ pc = .recv →
      state = .created →
      history = { started := true, destroyed := false, block := .idle } →
      ctx =
        { pc := pc, mailbox := [.assign t], terminate := false,
          currentTask := none } →
      Situation t state history ctx
  | ready {pc : WrapperPc τ} :
      pc = .back ∨ pc = .loop ∨ pc = .dispatch t →
      state = .ready →
      history = { started := true, destroyed := false, block := .idle } →
      ctx =
        { pc := pc, mailbox := [], terminate := false, currentTask := some t } →
      Situation t state history ctx
  | running :
      state = .running →
      history = { started := true, destroyed := false, block := .idle } →
      ctx =
        { pc := .running t, mailbox := [], terminate := false,
          currentTask := some t } →
      Situation t state history ctx
  | committed {block : WrapperBlock} :
      block ≠ .idle →
      state = .running →
      history = { started := true, destroyed := false, block := block } →
      ctx =
        { pc := .committed t, mailbox := block.mail t, terminate := false,
          currentTask := some t } →
      Situation t state history ctx
  | blocked {pc : WrapperPc τ} {block : WrapperBlock} :
      pc = .back ∨ pc = .loop ∨ pc = .recv →
      block ≠ .idle →
      state = .blocked →
      history = { started := true, destroyed := false, block := block } →
      ctx =
        { pc := pc, mailbox := block.mail t, terminate := false,
          currentTask := none } →
      Situation t state history ctx
  | exited {pc : WrapperPc τ} :
      pc = .back ∨ pc = .destroy →
      state = .zombie →
      history = { started := true, destroyed := false, block := .idle } →
      ctx =
        { pc := pc, mailbox := [], terminate := true, currentTask := some t } →
      Situation t state history ctx

/-- The task has a wrapper and is not destroyed. -/
def Wrappers.Lives (wrappers : Wrappers τ n) (t : τ) (c : ℕ) : Prop :=
  wrappers.workerContext t = some c ∧ (wrappers.history t).destroyed = false

/-- The invariant of the wrappers. -/
structure WrappersOk (wrappers : Wrappers τ n) : Prop where
  ok : wrappers.failed = false
  situation : ∀ t c, wrappers.Lives t c →
    Situation t (wrappers.state t) (wrappers.history t) (wrappers.ctx c)
  /-- No two tasks have the same wrapper. -/
  unique : ∀ t u c, wrappers.Lives t c → wrappers.Lives u c → t = u
  allocated : ∀ t c, wrappers.Lives t c → c < wrappers.allocated
  uncreated : ∀ t, wrappers.workerContext t = none →
    wrappers.state t = .created ∧
      wrappers.history t =
        { started := false, destroyed := false, block := .idle }
  destroyed : ∀ t, (wrappers.history t).destroyed = true →
    wrappers.state t = .zombie ∧ (wrappers.history t).started = true ∧
      (wrappers.history t).block = .idle
  /-- A thread in its loop has a task. -/
  serves : ∀ c, (wrappers.ctx c).pc ≠ .ended → (wrappers.ctx c).pc ≠ .release →
    ∃ t, wrappers.Lives t c
  released : ∀ c, (wrappers.ctx c).pc = .release →
    (wrappers.ctx c).mailbox = [] ∧ (wrappers.ctx c).terminate = true ∧
      c < wrappers.allocated
  free : ∀ c ∈ wrappers.freewrappers,
    (wrappers.ctx c).pc = .ended ∧ (wrappers.ctx c).mailbox = [] ∧
      c < wrappers.allocated
  nodup : wrappers.freewrappers.Nodup
  fresh : ∀ c, wrappers.allocated ≤ c → (wrappers.ctx c).pc = .ended

namespace Situation

variable {t : τ} {state : TaskState} {history : WrapperHistory}
variable {ctx : WrapperCtx τ n}

/-- The task is not destroyed. -/
theorem alive (situation : Situation t state history ctx) :
    history.destroyed = false := by
  cases situation <;> subst history <;> rfl

/-- The wrapper has its thread. -/
theorem pc_ne (situation : Situation t state history ctx) :
    ctx.pc ≠ .ended ∧ ctx.pc ≠ .release := by
  cases situation with
  | created position | started position =>
      subst ctx
      obtain rfl | rfl := position <;> simp
  | ready position =>
      subst ctx
      obtain rfl | rfl | rfl := position <;> simp
  | blocked position =>
      subst ctx
      obtain rfl | rfl | rfl := position <;> simp
  | exited position =>
      subst ctx
      obtain rfl | rfl := position <;> simp
  | running | committed =>
      subst ctx
      simp

/-- A wrapper in the function of a task. -/
theorem of_running
    {u : τ}
    (situation : Situation t state history ctx)
    (position : ctx.pc = .running u) :
    u = t ∧ state = .running ∧
      history = { started := true, destroyed := false, block := .idle } ∧
      ctx =
        { pc := .running t, mailbox := [], terminate := false,
          currentTask := some t } := by
  cases situation <;> grind

/-- A wrapper whose task is about to block. -/
theorem of_committed
    {u : τ}
    (situation : Situation t state history ctx)
    (position : ctx.pc = .committed u) :
    u = t ∧ state = .running ∧ ∃ block, block ≠ .idle ∧
      history = { started := true, destroyed := false, block := block } ∧
      ctx =
        { pc := .committed t, mailbox := block.mail t, terminate := false,
          currentTask := some t } := by
  cases situation <;> grind

/-- A wrapper that is about to switch to a task. -/
theorem of_dispatch
    {u : τ}
    (situation : Situation t state history ctx)
    (position : ctx.pc = .dispatch u) :
    u = t ∧ state = .ready ∧
      history = { started := true, destroyed := false, block := .idle } ∧
      ctx =
        { pc := .dispatch t, mailbox := [], terminate := false,
          currentTask := some t } := by
  cases situation <;> grind

/-- A wrapper whose task has exited. -/
theorem of_destroy
    (situation : Situation t state history ctx)
    (position : ctx.pc = .destroy) :
    state = .zombie ∧
      history = { started := true, destroyed := false, block := .idle } ∧
      ctx =
        { pc := .destroy, mailbox := [], terminate := true,
          currentTask := some t } := by
  cases situation <;> grind

/-- The round of a wrapper whose task is ready. -/
theorem loop_some
    {u : τ}
    (situation : Situation t state history ctx)
    (position : ctx.pc = .loop)
    (current : ctx.currentTask = some u) :
    Situation t state history { ctx with pc := .dispatch u } := by
  cases situation with
  | ready _ isReady is ctx' =>
      subst ctx'
      cases current
      exact .ready (.inr (.inr rfl)) isReady is rfl
  | _ => grind

/-- The round of a wrapper whose task is not ready. -/
theorem loop_none
    (situation : Situation t state history ctx)
    (position : ctx.pc = .loop)
    (current : ctx.currentTask = none) :
    Situation t state history { ctx with pc := .recv } := by
  cases situation with
  | created _ created is ctx' =>
      subst ctx'
      exact .created (.inr rfl) created is rfl
  | started _ created is ctx' =>
      subst ctx'
      exact .started (.inr rfl) created is rfl
  | blocked _ inBlock blocked is ctx' =>
      subst ctx'
      exact .blocked (.inr (.inr rfl)) inBlock blocked is rfl
  | _ => grind

/-- The end of a round after which the wrapper goes on. -/
theorem back_loop
    (situation : Situation t state history ctx)
    (position : ctx.pc = .back)
    (goesOn : ctx.terminate = false) :
    Situation t state history { ctx with pc := .loop } := by
  cases situation with
  | ready _ isReady is ctx' =>
      subst ctx'
      exact .ready (.inr (.inl rfl)) isReady is rfl
  | blocked _ inBlock blocked is ctx' =>
      subst ctx'
      exact .blocked (.inr (.inl rfl)) inBlock blocked is rfl
  | _ => grind

/-- The end of the last round. -/
theorem back_destroy
    (situation : Situation t state history ctx)
    (position : ctx.pc = .back)
    (terminate : ctx.terminate = true) :
    Situation t state history { ctx with pc := .destroy } := by
  cases situation with
  | exited _ zombie is ctx' =>
      subst ctx'
      exact .exited (.inr rfl) zombie is rfl
  | _ => grind

/-- The messages for a wrapper: its task, and the wakeup of its task. -/
theorem of_recv
    {msg : WorkerMsg τ n}
    {rest : List (WorkerMsg τ n)}
    (situation : Situation t state history ctx)
    (position : ctx.pc = .recv)
    (mail : ctx.mailbox = msg :: rest) :
    rest = [] ∧ ctx.terminate = false ∧
      (msg = .assign t ∧ state = .created ∧
        history = { started := true, destroyed := false, block := .idle } ∨
      msg = .wakeup t ∧ state = .blocked ∧
        history = { started := true, destroyed := false, block := .sent }) := by
  cases situation with
  | @blocked _ block _ inBlock _ _ ctx' =>
      subst ctx'
      cases block <;> grind [WrapperBlock.mail]
  | _ => grind

/-- A message in the mailbox of a wrapper is for its task. -/
theorem addressee
    (situation : Situation t state history ctx)
    {msg : WorkerMsg τ n}
    (member : msg ∈ ctx.mailbox) :
    msg = .assign t ∨ msg = .wakeup t := by
  cases situation with
  | @committed block _ _ _ ctx' | @blocked _ block _ _ _ _ ctx' =>
      subst ctx'
      cases block <;> simp_all [WrapperBlock.mail]
  | _ => grind

end Situation

variable {wrappers after : Wrappers τ n} {t u : τ} {c : ℕ}

/-- One task and its context change. -/
theorem WrappersOk.act
    (ok : WrappersOk wrappers)
    (lives : wrappers.Lives t c)
    (state : ∀ u, u ≠ t → after.state u = wrappers.state u)
    (history : ∀ u, u ≠ t → after.history u = wrappers.history u)
    (ctx : ∀ d, d ≠ c → after.ctx d = wrappers.ctx d)
    (workerContext : after.workerContext = wrappers.workerContext)
    (freewrappers : after.freewrappers = wrappers.freewrappers)
    (allocated : after.allocated = wrappers.allocated)
    (failed : after.failed = false)
    (situation : Situation t (after.state t) (after.history t) (after.ctx c)) :
    WrappersOk after := by
  have livesIff (u : τ) (d : ℕ) : after.Lives u d ↔ wrappers.Lives u d := by
    unfold Wrappers.Lives
    rw [workerContext]
    by_cases same : u = t
    · subst same
      rw [situation.alive, lives.2]
    · rw [history u same]
  have atTask (d : ℕ) (live : wrappers.Lives t d) : d = c :=
    Option.some.inj (live.1.symm.trans lives.1)
  refine
    { ok := failed
      situation := ?_
      unique := ?_
      allocated := ?_
      uncreated := ?_
      destroyed := ?_
      serves := ?_
      released := ?_
      free := ?_
      nodup := by rw [freewrappers]; exact ok.nodup
      fresh := ?_ }
  · intro u d live
    rw [livesIff] at live
    by_cases same : u = t
    · subst same
      obtain rfl := atTask d live
      exact situation
    · have other : d ≠ c := by
        rintro rfl
        exact same (ok.unique u t d live lives)
      rw [state u same, history u same, ctx d other]
      exact ok.situation u d live
  · intro u v d live live'
    rw [livesIff] at live live'
    exact ok.unique u v d live live'
  · intro u d live
    rw [livesIff] at live
    rw [allocated]
    exact ok.allocated u d live
  · intro u none
    rw [workerContext] at none
    have other : u ≠ t := by
      rintro rfl
      rw [lives.1] at none
      cases none
    rw [state u other, history u other]
    exact ok.uncreated u none
  · intro u dead
    have other : u ≠ t := by
      rintro rfl
      rw [situation.alive] at dead
      cases dead
    rw [history u other] at dead
    rw [state u other, history u other]
    exact ok.destroyed u dead
  · intro d ended released
    by_cases same : d = c
    · subst same
      exact ⟨t, (livesIff t d).mpr lives⟩
    · rw [ctx d same] at ended released
      obtain ⟨u, live⟩ := ok.serves d ended released
      exact ⟨u, (livesIff u d).mpr live⟩
  · intro d released
    have other : d ≠ c := by
      rintro rfl
      exact situation.pc_ne.2 released
    rw [ctx d other] at released ⊢
    rw [allocated]
    exact ok.released d released
  · intro d member
    rw [freewrappers] at member
    obtain ⟨ended, mail, inside⟩ := ok.free d member
    have other : d ≠ c := by
      rintro rfl
      exact (ok.situation t d lives).pc_ne.1 ended
    rw [ctx d other, allocated]
    exact ⟨ended, mail, inside⟩
  · intro d outside
    rw [allocated] at outside
    have other : d ≠ c := by
      rintro rfl
      exact absurd (ok.allocated t d lives) (Nat.not_lt.mpr outside)
    rw [ctx d other]
    exact ok.fresh d outside

/-- A task that was not started is not destroyed. -/
theorem WrappersOk.lives_of_unstarted
    (ok : WrappersOk wrappers)
    (context : wrappers.workerContext t = some c)
    (unstarted : (wrappers.history t).started = false) :
    wrappers.Lives t c := by
  refine ⟨context, Bool.eq_false_iff.mpr fun dead => ?_⟩
  rw [(ok.destroyed t dead).2.1] at unstarted
  cases unstarted

/-- A task that waits for the wakeup of a block is not destroyed. -/
theorem WrappersOk.lives_of_committed
    (ok : WrappersOk wrappers)
    (context : wrappers.workerContext t = some c)
    (unsent : (wrappers.history t).block = .committed) :
    wrappers.Lives t c := by
  refine ⟨context, Bool.eq_false_iff.mpr fun dead => ?_⟩
  rw [(ok.destroyed t dead).2.2] at unsent
  cases unsent

/-- A wrapper with a thread that is in its loop has a task. -/
theorem WrappersOk.onThread
    (ok : WrappersOk wrappers)
    {pc : WrapperPc τ}
    (position : (wrappers.ctx c).pc = pc)
    (alive : pc ≠ .ended ∧ pc ≠ .release) :
    ∃ t, wrappers.Lives t c ∧
      Situation t (wrappers.state t) (wrappers.history t) (wrappers.ctx c) := by
  obtain ⟨t, lives⟩ := ok.serves c (by rw [position]; exact alive.1)
    (by rw [position]; exact alive.2)
  exact ⟨t, lives, ok.situation t c lives⟩

/-- Only the position of a thread changes. -/
theorem WrappersOk.setPc
    (ok : WrappersOk wrappers)
    (lives : wrappers.Lives t c)
    {pc : WrapperPc τ}
    (situation : Situation t (wrappers.state t) (wrappers.history t)
      { wrappers.ctx c with pc := pc }) :
    WrappersOk (wrappers.setPc c pc) := by
  refine ok.act lives (fun _ _ => rfl) (fun _ _ => rfl)
    (fun _ other => Function.update_of_ne other _ _) rfl rfl rfl ok.ok ?_
  rw [show (wrappers.setPc c pc).ctx c = _ from Function.update_self ..]
  exact situation

/-- `addFreeWrapper`. -/
theorem WrappersOk.release
    (ok : WrappersOk wrappers)
    (position : (wrappers.ctx c).pc = .release) :
    WrappersOk (wrappers.addFreeWrapper c) := by
  obtain ⟨mail, terminate, inside⟩ := ok.released c position
  have others (d : ℕ) (other : d ≠ c) :
      (wrappers.addFreeWrapper c).ctx d = wrappers.ctx d :=
    Function.update_of_ne other _ _
  have here : (wrappers.addFreeWrapper c).ctx c =
      { wrappers.ctx c with pc := .ended } :=
    Function.update_self ..
  have elsewhere (u : τ) (d : ℕ) (live : wrappers.Lives u d) : d ≠ c := by
    rintro rfl
    exact (ok.situation u d live).pc_ne.2 position
  refine
    { ok := ?_
      situation := ?_
      unique := ok.unique
      allocated := ok.allocated
      uncreated := ok.uncreated
      destroyed := ok.destroyed
      serves := ?_
      released := ?_
      free := ?_
      nodup := ?_
      fresh := ?_ }
  · simp [Wrappers.addFreeWrapper, Wrappers.assert, Wrappers.setPc,
      Wrappers.setCtx, ok.ok, mail, terminate]
  · intro u d live
    rw [others d (elsewhere u d live)]
    exact ok.situation u d live
  · intro d ended released
    have other : d ≠ c := by
      rintro rfl
      rw [here] at ended
      exact ended rfl
    rw [others d other] at ended released
    exact ok.serves d ended released
  · intro d released
    have other : d ≠ c := by
      rintro rfl
      rw [here] at released
      cases released
    rw [others d other] at released ⊢
    exact ok.released d released
  · intro d member
    by_cases same : d = c
    · subst same
      rw [here]
      exact ⟨rfl, mail, inside⟩
    · rw [others d same]
      exact ok.free d (List.mem_of_ne_of_mem same member)
  · refine List.nodup_cons.mpr ⟨?_, ok.nodup⟩
    intro member
    rw [(ok.free c member).1] at position
    cases position
  · intro d outside
    by_cases same : d = c
    · subst same
      rw [here]
    · rw [others d same]
      exact ok.fresh d outside

/-- The invariant holds initially. -/
theorem wrappersOk_start : WrappersOk (wrappersStart : Wrappers τ n) := by
  constructor <;> simp [wrappersStart, Wrappers.Lives]

section Steps

variable [DecidableEq τ]

/-- `TaskStart`. -/
theorem WrappersOk.taskStart
    (ok : WrappersOk wrappers)
    (position : (wrappers.ctx c).pc = .dispatch t) :
    WrappersOk
      (((wrappers.assert (wrappers.state t = .ready)).setState t
        .running).setPc c (.running t)) := by
  obtain ⟨u, lives, situation⟩ := ok.onThread position (by simp)
  obtain ⟨rfl, ready, history, ctx⟩ := situation.of_dispatch position
  refine ok.act lives (fun _ other => Function.update_of_ne other _ _)
    (fun _ _ => rfl) (fun _ other => Function.update_of_ne other _ _) rfl rfl rfl
    (by simp [Wrappers.assert, Wrappers.setState, Wrappers.setPc,
      Wrappers.setCtx, ok.ok, ready]) ?_
  refine .running ?_ history ?_
  · simp [Wrappers.setState, Wrappers.setPc, Wrappers.setCtx]
  · simp [Wrappers.assert, Wrappers.setState, Wrappers.setPc, Wrappers.setCtx,
      ctx]

/-- The running task decides to block. -/
theorem WrappersOk.commit
    (ok : WrappersOk wrappers)
    (position : (wrappers.ctx c).pc = .running t) :
    WrappersOk
      ((wrappers.note t fun history =>
        { history with block := .committed }).setPc c (.committed t)) := by
  obtain ⟨u, lives, situation⟩ := ok.onThread position (by simp)
  obtain ⟨rfl, state, history, ctx⟩ := situation.of_running position
  refine ok.act lives (fun _ _ => rfl)
    (fun _ other => Function.update_of_ne other _ _)
    (fun _ other => Function.update_of_ne other _ _) rfl rfl rfl ok.ok ?_
  refine .committed (by simp : WrapperBlock.committed ≠ .idle) state ?_ ?_
  · simp [Wrappers.note, Wrappers.setPc, Wrappers.setCtx, history]
  · simp [Wrappers.note, Wrappers.setPc, Wrappers.setCtx, ctx,
      WrapperBlock.mail]

/-- The task calls `LpelTaskBlockStream`. -/
theorem WrappersOk.block
    (ok : WrappersOk wrappers)
    (position : (wrappers.ctx c).pc = .committed t) :
    WrappersOk (wrappers.lpelTaskBlockStream c t) := by
  obtain ⟨u, lives, situation⟩ := ok.onThread position (by simp)
  obtain ⟨rfl, running, block, inBlock, history, ctx⟩ :=
    situation.of_committed position
  refine ok.act lives (fun _ other => Function.update_of_ne other _ _)
    (fun _ _ => rfl) (fun _ other => Function.update_of_ne other _ _) rfl rfl rfl
    (by simp [Wrappers.lpelTaskBlockStream, Wrappers.assert, Wrappers.setState,
      Wrappers.setCtx, ok.ok, running]) ?_
  refine .blocked (.inl rfl) inBlock ?_ history ?_
  · simp [Wrappers.lpelTaskBlockStream, Wrappers.setState, Wrappers.setCtx]
  · simp [Wrappers.lpelTaskBlockStream, Wrappers.assert, Wrappers.setState,
      Wrappers.setCtx, ctx]

/-- The task calls `LpelTaskYield`. -/
theorem WrappersOk.yield
    (ok : WrappersOk wrappers)
    (position : (wrappers.ctx c).pc = .running t) :
    WrappersOk (wrappers.lpelTaskYield c t) := by
  obtain ⟨u, lives, situation⟩ := ok.onThread position (by simp)
  obtain ⟨rfl, running, history, ctx⟩ := situation.of_running position
  refine ok.act lives (fun _ other => Function.update_of_ne other _ _)
    (fun _ _ => rfl) (fun _ other => Function.update_of_ne other _ _) rfl rfl rfl
    (by simp [Wrappers.lpelTaskYield, Wrappers.assert, Wrappers.setState,
      Wrappers.setPc, Wrappers.setCtx, ok.ok, running]) ?_
  refine .ready (.inl rfl) ?_ history ?_
  · simp [Wrappers.lpelTaskYield, Wrappers.setState, Wrappers.setPc,
      Wrappers.setCtx]
  · simp [Wrappers.lpelTaskYield, Wrappers.assert, Wrappers.setState,
      Wrappers.setPc, Wrappers.setCtx, ctx]

/-- The function of the task returns. -/
theorem WrappersOk.exit
    (ok : WrappersOk wrappers)
    (position : (wrappers.ctx c).pc = .running t) :
    WrappersOk (wrappers.lpelTaskExit c t) := by
  obtain ⟨u, lives, situation⟩ := ok.onThread position (by simp)
  obtain ⟨rfl, running, history, ctx⟩ := situation.of_running position
  refine ok.act lives (fun _ other => Function.update_of_ne other _ _)
    (fun _ _ => rfl) (fun _ other => Function.update_of_ne other _ _) rfl rfl rfl
    (by simp [Wrappers.lpelTaskExit, Wrappers.assert, Wrappers.setState,
      Wrappers.setCtx, ok.ok, running]) ?_
  refine .exited (.inl rfl) ?_ history ?_
  · simp [Wrappers.lpelTaskExit, Wrappers.setState, Wrappers.setCtx]
  · simp [Wrappers.lpelTaskExit, Wrappers.assert, Wrappers.setState,
      Wrappers.setCtx, ctx]

/-- A wrapper takes a message. -/
theorem WrappersOk.receive
    (ok : WrappersOk wrappers)
    (position : (wrappers.ctx c).pc = .recv)
    {msg : WorkerMsg τ n}
    {rest : List (WorkerMsg τ n)}
    (mail : (wrappers.ctx c).mailbox = msg :: rest) :
    WrappersOk ((wrappers.setCtx c
      { wrappers.ctx c with mailbox := rest }).handle c msg) := by
  obtain ⟨t, lives, situation⟩ := ok.onThread position (by simp)
  obtain ⟨rfl, goesOn, ⟨rfl, created, history⟩ | ⟨rfl, blocked, history⟩⟩ :=
    situation.of_recv position mail
  · refine ok.act lives (fun _ other => Function.update_of_ne other _ _)
      (fun _ _ => rfl) ?_ rfl rfl rfl ?_ ?_
    · intro d other
      simp [Wrappers.handle, Wrappers.assert, Wrappers.setState, Wrappers.setCtx,
        other]
    · simp [Wrappers.handle, Wrappers.assert, Wrappers.setState, Wrappers.setCtx,
        ok.ok, created]
    · refine .ready (.inl rfl) ?_ history ?_
      · simp [Wrappers.handle, Wrappers.setState, Wrappers.setCtx]
      · simp [Wrappers.handle, Wrappers.assert, Wrappers.setState,
          Wrappers.setCtx, goesOn]
  · refine ok.act lives (fun _ other => Function.update_of_ne other _ _)
      (fun _ other => Function.update_of_ne other _ _) ?_ rfl rfl rfl ?_ ?_
    · intro d other
      simp [Wrappers.handle, Wrappers.assert, Wrappers.setState, Wrappers.note,
        Wrappers.setCtx, other]
    · simp [Wrappers.handle, Wrappers.assert, Wrappers.setState, Wrappers.note,
        Wrappers.setCtx, ok.ok, blocked]
    · refine .ready (.inl rfl) ?_ ?_ ?_
      · simp [Wrappers.handle, Wrappers.setState, Wrappers.note, Wrappers.setCtx]
      · simp [Wrappers.handle, Wrappers.assert, Wrappers.setState, Wrappers.note,
          Wrappers.setCtx, history]
      · simp [Wrappers.handle, Wrappers.assert, Wrappers.setState, Wrappers.note,
          Wrappers.setCtx, goesOn]

/-- `LpelTaskDestroy`. -/
theorem WrappersOk.destroy
    (ok : WrappersOk wrappers)
    (position : (wrappers.ctx c).pc = .destroy) :
    WrappersOk (wrappers.lpelTaskDestroy c) := by
  obtain ⟨t, lives, situation⟩ := ok.onThread position (by simp)
  obtain ⟨zombie, history, ctx⟩ := situation.of_destroy position
  have after : wrappers.lpelTaskDestroy c =
      ((wrappers.assert (wrappers.state t = .zombie)).note t fun history =>
        { history with destroyed := true }).setPc c .release := by
    unfold Wrappers.lpelTaskDestroy
    simp only [ctx]
  rw [after, show wrappers.assert (wrappers.state t = .zombie) = wrappers by
    simp [Wrappers.assert, zombie]]
  clear after
  generalize is : (wrappers.note t fun history =>
    { history with destroyed := true }).setPc c .release = after
  have livesIff (u : τ) (d : ℕ) :
      after.Lives u d ↔ wrappers.Lives u d ∧ u ≠ t := by
    subst is
    by_cases same : u = t
    · subst same
      simp [Wrappers.Lives, Wrappers.note, Wrappers.setPc, Wrappers.setCtx]
    · simp [Wrappers.Lives, Wrappers.note, Wrappers.setPc, Wrappers.setCtx, same]
  have others (d : ℕ) (other : d ≠ c) : after.ctx d = wrappers.ctx d := by
    subst is
    exact Function.update_of_ne other _ _
  have here : after.ctx c = { wrappers.ctx c with pc := .release } := by
    subst is
    exact Function.update_self ..
  have histories (u : τ) (other : u ≠ t) :
      after.history u = wrappers.history u := by
    subst is
    exact Function.update_of_ne other _ _
  have same : after.state = wrappers.state ∧
      after.workerContext = wrappers.workerContext ∧
      after.freewrappers = wrappers.freewrappers ∧
      after.allocated = wrappers.allocated ∧ after.failed = wrappers.failed := by
    subst is
    exact ⟨rfl, rfl, rfl, rfl, rfl⟩
  obtain ⟨states, workerContexts, freewrappers, allocated, failed⟩ := same
  have gone : after.history t =
      { started := true, destroyed := true, block := .idle } := by
    subst is
    simp [Wrappers.note, Wrappers.setPc, Wrappers.setCtx, history]
  clear is
  refine
    { ok := failed.trans ok.ok
      situation := ?_
      unique := ?_
      allocated := ?_
      uncreated := ?_
      destroyed := ?_
      serves := ?_
      released := ?_
      free := ?_
      nodup := by rw [freewrappers]; exact ok.nodup
      fresh := ?_ }
  · intro u d live
    obtain ⟨live, other⟩ := (livesIff u d).mp live
    have elsewhere : d ≠ c := by
      rintro rfl
      exact other (ok.unique u t d live lives)
    rw [states, histories u other, others d elsewhere]
    exact ok.situation u d live
  · intro u v d live live'
    exact ok.unique u v d ((livesIff u d).mp live).1 ((livesIff v d).mp live').1
  · intro u d live
    rw [allocated]
    exact ok.allocated u d ((livesIff u d).mp live).1
  · intro u none
    rw [workerContexts] at none
    have other : u ≠ t := by
      rintro rfl
      rw [lives.1] at none
      cases none
    rw [states, histories u other]
    exact ok.uncreated u none
  · intro u dead
    rw [states]
    by_cases same : u = t
    · subst same
      rw [gone]
      exact ⟨zombie, rfl, rfl⟩
    · rw [histories u same] at dead ⊢
      exact ok.destroyed u dead
  · intro d ended released
    have other : d ≠ c := by
      rintro rfl
      rw [here] at released
      exact released rfl
    rw [others d other] at ended released
    obtain ⟨u, live⟩ := ok.serves d ended released
    refine ⟨u, (livesIff u d).mpr ⟨live, ?_⟩⟩
    rintro rfl
    exact other (Option.some.inj (live.1.symm.trans lives.1))
  · intro d released
    rw [allocated]
    by_cases same : d = c
    · subst same
      rw [here, ctx]
      exact ⟨rfl, rfl, ok.allocated t d lives⟩
    · rw [others d same] at released ⊢
      exact ok.released d released
  · intro d member
    rw [freewrappers] at member
    obtain ⟨ended, mail, inside⟩ := ok.free d member
    have other : d ≠ c := by
      rintro rfl
      rw [position] at ended
      cases ended
    rw [others d other, allocated]
    exact ⟨ended, mail, inside⟩
  · intro d outside
    rw [allocated] at outside
    have other : d ≠ c := by
      rintro rfl
      exact absurd (ok.allocated t d lives) (Nat.not_lt.mpr outside)
    rw [others d other]
    exact ok.fresh d outside

/-- The thread of a wrapper goes on. -/
theorem WrappersOk.threadStep
    (ok : WrappersOk wrappers)
    (taken : wrappers.threadNext c = some after) :
    WrappersOk after := by
  unfold Wrappers.threadNext at taken
  split at taken
  case h_1 position =>
    obtain ⟨t, lives, situation⟩ := ok.onThread position (by simp)
    split at taken <;> obtain rfl := Option.some.inj taken
    case h_1 u current => exact ok.setPc lives (situation.loop_some position current)
    case h_2 current => exact ok.setPc lives (situation.loop_none position current)
  case h_2 position =>
    split at taken
    case h_1 => cases taken
    case h_2 msg rest mail =>
      obtain rfl := Option.some.inj taken
      exact ok.receive position mail
  case h_3 position =>
    obtain rfl := Option.some.inj taken
    exact ok.taskStart position
  case h_4 position =>
    obtain ⟨t, lives, situation⟩ := ok.onThread position (by simp)
    split at taken <;> obtain rfl := Option.some.inj taken
    case isTrue terminate =>
      exact ok.setPc lives (situation.back_destroy position terminate)
    case isFalse goesOn =>
      exact ok.setPc lives (situation.back_loop position (by simpa using goesOn))
  case h_5 position =>
    obtain rfl := Option.some.inj taken
    exact ok.destroy position
  case h_6 position =>
    obtain rfl := Option.some.inj taken
    exact ok.release position
  case h_7 | h_8 | h_9 => cases taken

/-- Some thread starts a task. -/
theorem WrappersOk.start
    (ok : WrappersOk wrappers)
    (context : wrappers.workerContext t = some c)
    (unstarted : (wrappers.history t).started = false) :
    WrappersOk
      (((wrappers.assert (wrappers.state t = .created)).note t
        fun history => { history with started := true }).send c (.assign t)) := by
  have lives := ok.lives_of_unstarted context unstarted
  have situation := ok.situation t c lives
  obtain ⟨pc, position, created, history, ctx⟩ :
      ∃ pc, (pc = .loop ∨ pc = .recv) ∧ wrappers.state t = .created ∧
        wrappers.history t =
          { started := false, destroyed := false, block := .idle } ∧
        wrappers.ctx c =
          { pc := pc, mailbox := [], terminate := false,
            currentTask := none } := by
    cases situation <;> grind
  refine ok.act lives (fun _ _ => rfl)
    (fun _ other => Function.update_of_ne other _ _)
    (fun _ other => Function.update_of_ne other _ _) rfl rfl rfl
    (by simp [Wrappers.assert, Wrappers.note, Wrappers.send, Wrappers.setCtx,
      ok.ok, created]) ?_
  refine .started position created ?_ ?_
  · simp [Wrappers.assert, Wrappers.note, Wrappers.send, Wrappers.setCtx, history]
  · simp [Wrappers.assert, Wrappers.note, Wrappers.send, Wrappers.setCtx, ctx]

/-- Some thread sends the wakeup of a block. -/
theorem WrappersOk.wakeup
    (ok : WrappersOk wrappers)
    (context : wrappers.workerContext t = some c)
    (unsent : (wrappers.history t).block = .committed) :
    WrappersOk
      ((wrappers.note t fun history =>
        { history with block := .sent }).send c (.wakeup t)) := by
  have lives := ok.lives_of_committed context unsent
  have goesOn : wrappers.history t =
        { started := true, destroyed := false, block := .committed } ∧
      (wrappers.ctx c).mailbox = [] ∧
      Situation t (wrappers.state t)
        { started := true, destroyed := false, block := .sent }
        ({ wrappers.ctx c with mailbox := [.wakeup t] } :
          WrapperCtx τ n) := by
    cases ok.situation t c lives with
    | committed _ running history ctx =>
        rw [history] at unsent
        cases unsent
        rw [ctx]
        exact ⟨history, rfl, .committed (by simp) running rfl rfl⟩
    | blocked position _ blocked history ctx =>
        rw [history] at unsent
        cases unsent
        rw [ctx]
        exact ⟨history, rfl, .blocked position (by simp) blocked rfl rfl⟩
    | _ => grind
  obtain ⟨history, mail, situation⟩ := goesOn
  refine ok.act lives (fun _ _ => rfl)
    (fun _ other => Function.update_of_ne other _ _)
    (fun _ other => Function.update_of_ne other _ _) rfl rfl rfl ok.ok ?_
  simpa [Wrappers.note, Wrappers.send, Wrappers.setCtx, history, mail]
    using situation

/-- A task gets a context that belongs to nobody. -/
theorem WrappersOk.adopt
    (ok : WrappersOk wrappers)
    (uncreated : wrappers.workerContext t = none)
    (ended : (wrappers.ctx c).pc = .ended)
    {freewrappers : List ℕ}
    {allocated : ℕ}
    (free : ∀ d ∈ freewrappers, d ∈ wrappers.freewrappers ∧ d ≠ c)
    (nodup : freewrappers.Nodup)
    (more : wrappers.allocated ≤ allocated)
    (inside : c < allocated) :
    WrappersOk
      { wrappers.restart c [] with
        freewrappers := freewrappers
        allocated := allocated
        workerContext :=
          Function.update wrappers.workerContext t (some c) } := by
  obtain ⟨created, history⟩ := ok.uncreated t uncreated
  have elsewhere (u : τ) (d : ℕ) (live : wrappers.Lives u d) :
      d ≠ c ∧ u ≠ t := by
    constructor
    · rintro rfl
      exact (ok.situation u d live).pc_ne.1 ended
    · rintro rfl
      rw [live.1] at uncreated
      cases uncreated
  generalize is :
    ({ wrappers.restart c [] with
        freewrappers := freewrappers
        allocated := allocated
        workerContext := Function.update wrappers.workerContext t (some c) } :
      Wrappers τ n) = after
  have others (d : ℕ) (other : d ≠ c) : after.ctx d = wrappers.ctx d := by
    subst is
    exact Function.update_of_ne other _ _
  have here : after.ctx c =
      { pc := .loop, mailbox := [], terminate := false, currentTask := none } := by
    subst is
    exact Function.update_self ..
  have same : after.state = wrappers.state ∧ after.history = wrappers.history ∧
      after.freewrappers = freewrappers ∧ after.allocated = allocated ∧
      after.failed = wrappers.failed := by
    subst is
    exact ⟨rfl, rfl, rfl, rfl, rfl⟩
  obtain ⟨states, histories, frees, allocateds, failed⟩ := same
  have livesIff (u : τ) (d : ℕ) :
      after.Lives u d ↔ wrappers.Lives u d ∨ u = t ∧ d = c := by
    subst is
    by_cases same : u = t
    · subst same
      simp [Wrappers.Lives, Wrappers.restart, Wrappers.setCtx, uncreated, history,
        eq_comm]
    · simp [Wrappers.Lives, Wrappers.restart, Wrappers.setCtx, same]
  have contexts (u : τ) (other : u ≠ t) :
      after.workerContext u = wrappers.workerContext u := by
    subst is
    exact Function.update_of_ne other _ _
  clear is
  refine
    { ok := failed.trans ok.ok
      situation := ?_
      unique := ?_
      allocated := ?_
      uncreated := ?_
      destroyed := ?_
      serves := ?_
      released := ?_
      free := ?_
      nodup := by rw [frees]; exact nodup
      fresh := ?_ }
  · intro u d live
    rw [states, histories]
    rcases (livesIff u d).mp live with live | ⟨rfl, rfl⟩
    · rw [others d (elsewhere u d live).1]
      exact ok.situation u d live
    · exact .created (.inl rfl) created history here
  · intro u v d live live'
    rcases (livesIff u d).mp live with live | ⟨rfl, rfl⟩
    · rcases (livesIff v d).mp live' with live' | ⟨-, same⟩
      · exact ok.unique u v d live live'
      · exact absurd same (elsewhere u d live).1
    · rcases (livesIff v d).mp live' with live' | ⟨rfl, -⟩
      · exact absurd rfl (elsewhere v d live').1
      · rfl
  · intro u d live
    rw [allocateds]
    rcases (livesIff u d).mp live with live | ⟨-, rfl⟩
    · exact (ok.allocated u d live).trans_le more
    · exact inside
  · intro u none
    have other : u ≠ t := by
      rintro rfl
      have live := (livesIff u c).mpr (.inr ⟨rfl, rfl⟩)
      rw [live.1] at none
      cases none
    rw [contexts u other] at none
    rw [states, histories]
    exact ok.uncreated u none
  · intro u dead
    rw [histories] at dead
    rw [states, histories]
    exact ok.destroyed u dead
  · intro d ended' released
    by_cases same : d = c
    · exact ⟨t, (livesIff t d).mpr (.inr ⟨rfl, same⟩)⟩
    · rw [others d same] at ended' released
      obtain ⟨u, live⟩ := ok.serves d ended' released
      exact ⟨u, (livesIff u d).mpr (.inl live)⟩
  · intro d released
    have other : d ≠ c := by
      rintro rfl
      rw [here] at released
      cases released
    rw [others d other] at released ⊢
    obtain ⟨mail, terminate, lt⟩ := ok.released d released
    rw [allocateds]
    exact ⟨mail, terminate, lt.trans_le more⟩
  · intro d member
    rw [frees] at member
    obtain ⟨member, other⟩ := free d member
    obtain ⟨ended', mail, lt⟩ := ok.free d member
    rw [others d other, allocateds]
    exact ⟨ended', mail, lt.trans_le more⟩
  · intro d outside
    rw [allocateds] at outside
    have other : d ≠ c := by
      rintro rfl
      exact absurd inside (Nat.not_lt.mpr outside)
    rw [others d other]
    exact ok.fresh d (more.trans outside)

/-- A task gets a context from the list, or a new one. -/
theorem WrappersOk.create
    (ok : WrappersOk wrappers)
    (uncreated : wrappers.workerContext t = none)
    (empty : Bool) :
    WrappersOk (wrappers.lpelCreateWrapperContext t empty) := by
  unfold Wrappers.lpelCreateWrapperContext
  split
  case h_1 c next list =>
    have member : c ∈ wrappers.freewrappers := by
      rw [list]
      exact List.mem_cons_self
    obtain ⟨ended, mail, inside⟩ := ok.free c member
    have nodup := ok.nodup
    rw [list, List.nodup_cons] at nodup
    rw [mail]
    refine ok.adopt uncreated ended ?_ nodup.2 (le_refl _) inside
    intro d later
    rw [list]
    refine ⟨List.mem_cons_of_mem c later, ?_⟩
    rintro rfl
    exact nodup.1 later
  case h_2 =>
    refine ok.adopt uncreated (ok.fresh _ (le_refl _)) ?_ ok.nodup
      (Nat.le_succ _) (Nat.lt_succ_self _)
    intro d member
    exact ⟨member, (ok.free d member).2.2.ne⟩

/-- Every step keeps the invariant. -/
theorem WrappersOk.step
    (ok : WrappersOk wrappers)
    {label : WrapperLabel τ}
    (taken : wrappersNext wrappers label = some after) :
    WrappersOk after := by
  cases wrappersNext_cases taken with
  | check => exact { ok with }
  | create uncreated => exact ok.create uncreated _
  | start context unstarted => exact ok.start context unstarted
  | wakeup context unsent => exact ok.wakeup context unsent
  | thread moved => exact ok.threadStep moved
  | commit position => exact ok.commit position
  | block position => exact ok.block position
  | yield position => exact ok.yield position
  | exit position => exact ok.exit position

/-- The invariant holds in every reachable state. -/
theorem WrappersOk.ofReachable
    (reached : (wrappersMachine τ n).Reachable wrappers) :
    WrappersOk wrappers := by
  refine Machine.Reachable.invariant ?_ ?_ reached
  · rintro _ rfl
    exact wrappersOk_start
  · intro before label after ok taken
    exact ok.step taken

/-- Whatever tasks are created, started, woken up and exit, in any order: no
assertion fails, so a context goes into `freewrappers` with an empty mailbox; it is
there once and without a thread; no two tasks have the same context, unless the first
one is destroyed; and what a wrapper executes, and every message for it, is its own
task. -/
theorem wrappersApart
    (wrappers : Wrappers τ n)
    (reached : (wrappersMachine τ n).Reachable wrappers) :
    wrappers.failed = false ∧
    (∀ t u c, wrappers.Lives t c → wrappers.Lives u c → t = u) ∧
    (∀ c ∈ wrappers.freewrappers,
      (wrappers.ctx c).pc = .ended ∧ (wrappers.ctx c).mailbox = [] ∧
        ∀ t, ¬ wrappers.Lives t c) ∧
    wrappers.freewrappers.Nodup ∧
    (∀ t c msg, wrappers.Lives t c → msg ∈ (wrappers.ctx c).mailbox →
      msg = .assign t ∨ msg = .wakeup t) ∧
    ∀ t c, (wrappers.ctx c).pc = .running t → wrappers.Lives t c := by
  have ok := WrappersOk.ofReachable reached
  refine ⟨ok.ok, ok.unique, ?_, ok.nodup, ?_, ?_⟩
  · intro c member
    obtain ⟨ended, mail, -⟩ := ok.free c member
    exact ⟨ended, mail, fun t lives => (ok.situation t c lives).pc_ne.1 ended⟩
  · intro t c msg lives member
    exact (ok.situation t c lives).addressee member
  · intro t c position
    obtain ⟨u, lives, situation⟩ := ok.onThread position (by simp)
    obtain ⟨rfl, -⟩ := situation.of_running position
    exact lives

end Steps

section Example

/-- A task exits, and a second one gets its context. -/
def reuseRun (c : ℕ) : List (WrapperLabel Bool) :=
  [.check true, .create true, .start true] ++ List.replicate 5 (.thread c) ++
    [.exit c] ++ List.replicate 3 (.thread c) ++
    [.check false, .create false, .start false] ++ List.replicate 5 (.thread c)

theorem wrappersApart_reuse :
    ∃ wrappers : Wrappers Bool 1,
      wrappers.allocated = 1 ∧
      (wrappers.ctx 0).pc = .running false ∧
      wrappers.workerContext true = some 0 ∧
      (∀ t u c, wrappers.Lives t c → wrappers.Lives u c → t = u) := by
  obtain ⟨wrappers, reached, tested⟩ := Machine.exists_reachable_of_run
    (rfl : (wrappersMachine Bool 1).init wrappersStart)
    (by decide : ((wrappersMachine Bool 1).run wrappersStart (reuseRun 0)).map
      (fun wrappers => decide (wrappers.allocated = 1 ∧
        (wrappers.ctx 0).pc = .running false ∧
        wrappers.workerContext true = some 0)) = some true)
  obtain ⟨one, runs, context⟩ := of_decide_eq_true tested
  exact ⟨wrappers, one, runs, context, (wrappersApart wrappers reached).2.1⟩

end Example

end Hrc
end Lpel
