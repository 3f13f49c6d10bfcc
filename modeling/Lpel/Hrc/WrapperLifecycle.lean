import Lpel.Hrc.WrapperSafety
import Lpel.Lib.Lifecycle

/-!
# The life cycle of the tasks of the wrappers

A task with a wrapper becomes ready when it is started and is executed when its
wrapper has taken the message.  In a block it is ready again as soon as its wakeup is
in the mailbox.
-/

namespace Lpel
namespace Hrc

open Lifecycle (Phase Event)

variable {τ : Type} {n : ℕ}

/-- The wakeup was sent. -/
def WrapperBlock.isSent : WrapperBlock → Bool
  | .sent => true
  | .idle | .committed => false

/-- The phase of a task with its state and its history. -/
def WrapperHistory.phase (history : WrapperHistory) (state : TaskState) : Phase :=
  if history.started then
    match state with
    | .created | .ready | .inqueue => .ready
    | .running =>
        match history.block with
        | .idle => .running
        | .committed => .committed false
        | .sent => .committed true
    | .blocked | .returned => if history.block.isSent then .ready else .blocked
    | .zombie => .exited
  else
    .created

def Wrappers.phase (wrappers : Wrappers τ n) (t : τ) : Phase :=
  (wrappers.history t).phase (wrappers.state t)

/-- The task in whose function a wrapper is. -/
def WrapperPc.function : WrapperPc τ → Option τ
  | .running t | .committed t => some t
  | _ => none

/-- The task that a wrapper has switched to. -/
def WrapperPc.dispatched : WrapperPc τ → Option τ
  | .dispatch t => some t
  | _ => none

/-- The event that a step is for a task. -/
def Wrappers.event (wrappers : Wrappers τ n) : WrapperLabel τ → Option (τ × Event)
  | .check _ | .create _ => none
  | .start t => some (t, .start)
  | .wakeup t => some (t, .wakeup)
  | .thread c => (wrappers.ctx c).pc.dispatched.map fun t => (t, .dispatch)
  | .commit c => (wrappers.ctx c).pc.function.map fun t => (t, .commit)
  | .block c => (wrappers.ctx c).pc.function.map fun t => (t, .block)
  | .yield c => (wrappers.ctx c).pc.function.map fun t => (t, .yield)
  | .exit c => (wrappers.ctx c).pc.function.map fun t => (t, .exit)

variable {wrappers after : Wrappers τ n} {t : τ} {c : ℕ}

/-- The phase is what the state and the history make of it. -/
theorem Wrappers.phase_eq
    {state : TaskState}
    {history : WrapperHistory}
    (is : wrappers.state t = state)
    (has : wrappers.history t = history) :
    wrappers.phase t = history.phase state := by
  rw [Wrappers.phase, is, has]

/-- A wrapper in the function of a task that runs. -/
theorem WrappersOk.at_running
    (ok : WrappersOk wrappers)
    (position : (wrappers.ctx c).pc = .running t) :
    wrappers.state t = .running ∧
      wrappers.history t =
        { started := true, destroyed := false, block := .idle } := by
  obtain ⟨u, lives, situation⟩ := ok.onThread position (by simp)
  obtain ⟨rfl, state, history, -⟩ := situation.of_running position
  exact ⟨state, history⟩

/-- A wrapper in the function of a task that is about to block. -/
theorem WrappersOk.at_committed
    (ok : WrappersOk wrappers)
    (position : (wrappers.ctx c).pc = .committed t) :
    wrappers.state t = .running ∧ ∃ block, block ≠ .idle ∧
      wrappers.history t =
        { started := true, destroyed := false, block := block } := by
  obtain ⟨u, lives, situation⟩ := ok.onThread position (by simp)
  obtain ⟨rfl, state, block, inBlock, history, -⟩ := situation.of_committed position
  exact ⟨state, block, inBlock, history⟩

/-- A task that is on its wrapper runs, or is about to block. -/
theorem WrappersOk.phase_function
    (ok : WrappersOk wrappers)
    (inside : (wrappers.ctx c).pc.function = some t) :
    wrappers.phase t = .running ∧ (wrappers.ctx c).pc = .running t ∨
      (∃ woken, wrappers.phase t = .committed woken) ∧
        (wrappers.ctx c).pc = .committed t := by
  cases position : (wrappers.ctx c).pc with
  | running u =>
      rw [position] at inside
      cases inside
      obtain ⟨state, history⟩ := ok.at_running position
      exact .inl ⟨Wrappers.phase_eq state history, rfl⟩
  | committed u =>
      rw [position] at inside
      cases inside
      obtain ⟨state, block, inBlock, history⟩ := ok.at_committed position
      refine .inr ⟨?_, rfl⟩
      rw [Wrappers.phase_eq state history]
      cases block with
      | idle => exact absurd rfl inBlock
      | committed => exact ⟨false, rfl⟩
      | sent => exact ⟨true, rfl⟩
  | _ =>
      rw [position] at inside
      cases inside

/-- A wrapper in the function of a running task. -/
theorem WrappersOk.position_running
    (ok : WrappersOk wrappers)
    (inside : (wrappers.ctx c).pc.function = some t)
    (running : wrappers.phase t = .running) :
    (wrappers.ctx c).pc = .running t := by
  rcases ok.phase_function inside with ⟨-, position⟩ | ⟨⟨woken, is⟩, -⟩
  · exact position
  · exact absurd (running.symm.trans is) (by simp)

/-- A wrapper in the function of a task that is about to block. -/
theorem WrappersOk.position_committed
    (ok : WrappersOk wrappers)
    {woken : Bool}
    (inside : (wrappers.ctx c).pc.function = some t)
    (committed : wrappers.phase t = .committed woken) :
    (wrappers.ctx c).pc = .committed t := by
  rcases ok.phase_function inside with ⟨is, -⟩ | ⟨-, position⟩
  · exact absurd (committed.symm.trans is) (by simp)
  · exact position

/-- A task that is not on a wrapper is not created or has exited. -/
theorem WrappersOk.lives_of
    (ok : WrappersOk wrappers)
    (created : wrappers.phase t ≠ .created)
    (exited : wrappers.phase t ≠ .exited) :
    ∃ c, wrappers.Lives t c := by
  cases context : wrappers.workerContext t with
  | none =>
      obtain ⟨state, history⟩ := ok.uncreated t context
      exact absurd (Wrappers.phase_eq state history) created
  | some c =>
      refine ⟨c, context, Bool.eq_false_iff.mpr fun dead => exited ?_⟩
      obtain ⟨zombie, started, -⟩ := ok.destroyed t dead
      rw [Wrappers.phase, zombie, WrapperHistory.phase, if_pos started]

/-- A task that was not started is as it was created. -/
theorem WrappersOk.created_of_unstarted
    (ok : WrappersOk wrappers)
    (context : wrappers.workerContext t = some c)
    (unstarted : (wrappers.history t).started = false) :
    wrappers.state t = .created := by
  have lives := ok.lives_of_unstarted context unstarted
  cases ok.situation t c lives <;> grind

/-- A task with a block whose wakeup was not sent. -/
theorem WrappersOk.inBlock_of_committed
    (ok : WrappersOk wrappers)
    (context : wrappers.workerContext t = some c)
    (unsent : (wrappers.history t).block = .committed) :
    wrappers.history t =
        { started := true, destroyed := false, block := .committed } ∧
      (wrappers.state t = .running ∨ wrappers.state t = .blocked) := by
  have lives := ok.lives_of_committed context unsent
  cases ok.situation t c lives <;> grind

/-- A task that executes its function is on a wrapper. -/
theorem WrappersOk.exists_function
    (ok : WrappersOk wrappers)
    (executes : (wrappers.phase t).executes = true) :
    ∃ c, (wrappers.ctx c).pc.function = some t := by
  obtain ⟨c, lives⟩ := ok.lives_of (by intro is; rw [is] at executes; cases executes)
    (by intro is; rw [is] at executes; cases executes)
  have situation := ok.situation t c lives
  refine ⟨c, ?_⟩
  unfold Wrappers.phase at executes
  generalize wrappers.state t = state at executes situation
  generalize wrappers.history t = history at executes situation
  generalize wrappers.ctx c = ctx at situation
  cases situation with
  | running state' history' ctx' | committed _ state' history' ctx' =>
      subst ctx'
      rfl
  | created _ state' history' | started _ state' history'
  | ready _ state' history' | exited _ state' history' =>
      subst state' history'
      cases executes
  | @blocked _ block _ _ state' history' =>
      subst state' history'
      cases block <;> cases executes

/-- A task that waits for its wakeup has committed to block. -/
theorem WrappersOk.committed_of_awaits
    (ok : WrappersOk wrappers)
    (awaits : (wrappers.phase t).awaits = true) :
    ∃ c, wrappers.workerContext t = some c ∧
      (wrappers.history t).block = .committed := by
  obtain ⟨c, lives⟩ := ok.lives_of (by intro is; rw [is] at awaits; cases awaits)
    (by intro is; rw [is] at awaits; cases awaits)
  have situation := ok.situation t c lives
  refine ⟨c, lives.1, ?_⟩
  unfold Wrappers.phase at awaits
  generalize wrappers.state t = state at awaits situation
  generalize wrappers.history t = history at awaits situation
  cases situation with
  | @committed block inBlock state' history'
  | @blocked _ block _ inBlock state' history' =>
      subst state' history'
      cases block with
      | idle => exact absurd rfl inBlock
      | committed => rfl
      | sent => cases awaits
  | created _ state' history' | started _ state' history'
  | ready _ state' history' | running state' history'
  | exited _ state' history' =>
      subst state' history'
      cases awaits

section Steps

variable [DecidableEq τ]

/-- What happens to one task. -/
theorem Wrappers.goes_of
    {event : Event}
    (state : ∀ u, u ≠ t → after.state u = wrappers.state u)
    (history : ∀ u, u ≠ t → after.history u = wrappers.history u)
    (goes : (wrappers.phase t).next event = some (after.phase t)) :
    (Lifecycle.machine τ).run wrappers.phase (some (t, event)).toList =
      some after.phase := by
  refine Lifecycle.run_toList_iff.mpr (Lifecycle.next_iff.mpr ⟨goes, ?_⟩)
  intro u other
  rw [Wrappers.phase, Wrappers.phase, state u other, history u other]

/-- A wrapper that takes a message changes the phase of no task. -/
theorem WrappersOk.phase_receive
    (ok : WrappersOk wrappers)
    (position : (wrappers.ctx c).pc = .recv)
    {msg : WorkerMsg τ n}
    {rest : List (WorkerMsg τ n)}
    (mail : (wrappers.ctx c).mailbox = msg :: rest) :
    ((wrappers.setCtx c { wrappers.ctx c with mailbox := rest }).handle c msg).phase =
      wrappers.phase := by
  obtain ⟨t, lives, situation⟩ := ok.onThread position (by simp)
  obtain ⟨-, -, ⟨rfl, created, history⟩ | ⟨rfl, blocked, history⟩⟩ :=
    situation.of_recv position mail
  · funext u
    by_cases same : u = t
    · subst same
      rw [Wrappers.phase_eq created history]
      simp [Wrappers.phase, Wrappers.handle, Wrappers.assert, Wrappers.setState,
        Wrappers.setCtx, history, WrapperHistory.phase]
    · simp [Wrappers.phase, Wrappers.handle, Wrappers.assert, Wrappers.setState,
        Wrappers.setCtx, same]
  · funext u
    by_cases same : u = t
    · subst same
      rw [Wrappers.phase_eq blocked history]
      simp [Wrappers.phase, Wrappers.handle, Wrappers.assert, Wrappers.setState,
        Wrappers.note, Wrappers.setCtx, history, WrapperHistory.phase,
        WrapperBlock.isSent]
    · simp [Wrappers.phase, Wrappers.handle, Wrappers.assert, Wrappers.setState,
        Wrappers.note, Wrappers.setCtx, same]

/-- A destroyed task has exited. -/
theorem Wrappers.phase_destroy
    (wrappers : Wrappers τ n)
    (c : ℕ) :
    (wrappers.lpelTaskDestroy c).phase = wrappers.phase := by
  unfold Wrappers.lpelTaskDestroy
  split
  case h_1 t current =>
    funext u
    by_cases same : u = t
    · subst same
      simp [Wrappers.phase, Wrappers.note, Wrappers.setPc, Wrappers.setCtx,
        Wrappers.assert, WrapperHistory.phase]
    · simp [Wrappers.phase, Wrappers.note, Wrappers.setPc, Wrappers.setCtx,
        Wrappers.assert, same]
  case h_2 => rfl

/-- The thread of a wrapper goes on. -/
theorem WrappersOk.goes_thread
    (ok : WrappersOk wrappers)
    (taken : wrappers.threadNext c = some after) :
    (Lifecycle.machine τ).run wrappers.phase
        (wrappers.event (.thread c)).toList = some after.phase := by
  have quiet (none : (wrappers.ctx c).pc.dispatched = none)
      (same : after.phase = wrappers.phase) :
      (Lifecycle.machine τ).run wrappers.phase
        (wrappers.event (.thread c)).toList = some after.phase := by
    rw [same, Wrappers.event, none]
    rfl
  unfold Wrappers.threadNext at taken
  split at taken
  case h_1 position =>
    refine quiet (by rw [position]; rfl) ?_
    split at taken <;> obtain rfl := Option.some.inj taken <;> rfl
  case h_2 position =>
    refine quiet (by rw [position]; rfl) ?_
    split at taken
    case h_1 => cases taken
    case h_2 msg rest mail =>
      obtain rfl := Option.some.inj taken
      exact ok.phase_receive position mail
  case h_3 t position =>
    obtain rfl := Option.some.inj taken
    obtain ⟨u, lives, situation⟩ := ok.onThread position (by simp)
    obtain ⟨rfl, ready, history, -⟩ := situation.of_dispatch position
    rw [Wrappers.event, position]
    refine Wrappers.goes_of (fun _ other => Function.update_of_ne other _ _)
      (fun _ _ => rfl) ?_
    rw [Wrappers.phase_eq ready history]
    simp [Wrappers.phase, Wrappers.setState, Wrappers.setPc, Wrappers.setCtx,
      Wrappers.assert, history, WrapperHistory.phase, Phase.next]
  case h_4 position =>
    refine quiet (by rw [position]; rfl) ?_
    split at taken <;> obtain rfl := Option.some.inj taken <;> rfl
  case h_5 position =>
    obtain rfl := Option.some.inj taken
    exact quiet (by rw [position]; rfl) (Wrappers.phase_destroy wrappers c)
  case h_6 position =>
    obtain rfl := Option.some.inj taken
    exact quiet (by rw [position]; rfl) rfl
  case h_7 | h_8 | h_9 => cases taken

/-- Every step is what its event is for the task. -/
theorem WrappersOk.lifecycle
    (ok : WrappersOk wrappers)
    {label : WrapperLabel τ}
    (taken : wrappersNext wrappers label = some after) :
    (Lifecycle.machine τ).run wrappers.phase (wrappers.event label).toList =
      some after.phase := by
  cases wrappersNext_cases taken with
  | check => rfl
  | @create t empty =>
      have same : (wrappers.lpelCreateWrapperContext t empty).phase =
          wrappers.phase := by
        unfold Wrappers.lpelCreateWrapperContext
        split <;> rfl
      rw [same]
      rfl
  | @start t c context unstarted =>
      refine Wrappers.goes_of (fun _ _ => rfl)
        (fun _ other => Function.update_of_ne other _ _) ?_
      have created := ok.created_of_unstarted context unstarted
      have before : wrappers.phase t = .created := by
        simp [Wrappers.phase, WrapperHistory.phase, unstarted]
      rw [before]
      simp [Wrappers.phase, Wrappers.note, Wrappers.send, Wrappers.setCtx,
        Wrappers.assert, created, WrapperHistory.phase, Phase.next]
  | @wakeup t c context unsent =>
      refine Wrappers.goes_of (fun _ _ => rfl)
        (fun _ other => Function.update_of_ne other _ _) ?_
      obtain ⟨history, running | blocked⟩ := ok.inBlock_of_committed context unsent
      · rw [Wrappers.phase_eq running history]
        simp [Wrappers.phase, Wrappers.note, Wrappers.send, Wrappers.setCtx,
          running, history, WrapperHistory.phase, Phase.next]
      · rw [Wrappers.phase_eq blocked history]
        simp [Wrappers.phase, Wrappers.note, Wrappers.send, Wrappers.setCtx,
          blocked, history, WrapperHistory.phase, WrapperBlock.isSent, Phase.next]
  | thread moved => exact ok.goes_thread moved
  | @commit c t position =>
      obtain ⟨state, history⟩ := ok.at_running position
      rw [Wrappers.event, position]
      refine Wrappers.goes_of (fun _ _ => rfl)
        (fun _ other => Function.update_of_ne other _ _) ?_
      rw [Wrappers.phase_eq state history]
      simp [Wrappers.phase, Wrappers.note, Wrappers.setPc, Wrappers.setCtx, history,
        state, WrapperHistory.phase, Phase.next]
  | @block c t position =>
      obtain ⟨state, block, inBlock, history⟩ := ok.at_committed position
      rw [Wrappers.event, position]
      refine Wrappers.goes_of (fun _ other => Function.update_of_ne other _ _)
        (fun _ _ => rfl) ?_
      have blocked : (wrappers.lpelTaskBlockStream c t).state t = .blocked :=
        Function.update_self ..
      rw [Wrappers.phase_eq state history, Wrappers.phase_eq blocked history]
      cases block with
      | idle => exact absurd rfl inBlock
      | committed | sent => rfl
  | @yield c t position =>
      obtain ⟨state, history⟩ := ok.at_running position
      rw [Wrappers.event, position]
      refine Wrappers.goes_of (fun _ other => Function.update_of_ne other _ _)
        (fun _ _ => rfl) ?_
      have ready : (wrappers.lpelTaskYield c t).state t = .ready :=
        Function.update_self ..
      rw [Wrappers.phase_eq state history, Wrappers.phase_eq ready history]
      rfl
  | @exit c t position =>
      obtain ⟨state, history⟩ := ok.at_running position
      rw [Wrappers.event, position]
      refine Wrappers.goes_of (fun _ other => Function.update_of_ne other _ _)
        (fun _ _ => rfl) ?_
      have zombie : (wrappers.lpelTaskExit c t).state t = .zombie :=
        Function.update_self ..
      rw [Wrappers.phase_eq state history, Wrappers.phase_eq zombie history]
      rfl

/-! ## What a task asks of its wrapper -/

/-- What a running task can ask for. -/
theorem WrappersOk.asks_running
    (ok : WrappersOk wrappers)
    (inside : (wrappers.ctx c).pc.function = some t)
    (running : wrappers.phase t = .running) :
    (wrappers.event (.commit c) = some (t, .commit) ∧
      (wrappersNext wrappers (.commit c)).isSome = true) ∧
    (wrappers.event (.exit c) = some (t, .exit) ∧
      (wrappersNext wrappers (.exit c)).isSome = true) := by
  have position := ok.position_running inside running
  simp [Wrappers.event, wrappersNext, position, WrapperPc.function]

/-- What a task that has committed to block asks for. -/
theorem WrappersOk.asks_committed
    (ok : WrappersOk wrappers)
    {woken : Bool}
    (inside : (wrappers.ctx c).pc.function = some t)
    (committed : wrappers.phase t = .committed woken) :
    wrappers.event (.block c) = some (t, .block) ∧
      (wrappersNext wrappers (.block c)).isSome = true := by
  have position := ok.position_committed inside committed
  simp [Wrappers.event, wrappersNext, position, WrapperPc.function]

/-- A task that waits for a wakeup can be woken up. -/
theorem WrappersOk.asks_wakeup
    (ok : WrappersOk wrappers)
    (awaits : (wrappers.phase t).awaits = true) :
    (wrappersNext wrappers (.wakeup t)).isSome = true := by
  obtain ⟨c, context, committed⟩ := ok.committed_of_awaits awaits
  simp [wrappersNext, context, committed]

end Steps

/-- Only a start is a start. -/
theorem Wrappers.label_of_start
    {label : WrapperLabel τ}
    (is : wrappers.event label = some (t, .start)) :
    label = .start t := by
  cases label with
  | start u =>
      cases is
      rfl
  | thread c | commit c | block c | yield c | exit c =>
      obtain ⟨u, -, same⟩ := Option.map_eq_some_iff.mp is
      cases same
  | check | create | wakeup => cases is

end Hrc
end Lpel
