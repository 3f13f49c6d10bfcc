import Lpel.Hrc.WrapperSafety
import Lpel.Lib.Potential

/-!
# The work of the wrappers

What a wrapper does before it waits for a message again, and what the messages in its
mailbox give it to do.  Every step does some of it, and only a start, a wakeup, a
yield and a new task add to it.
-/

namespace Lpel
namespace Hrc

variable {τ : Type} {n : ℕ}

/-- What a wrapper has left to do. -/
def WrapperCtx.work (ctx : WrapperCtx τ n) : ℕ :=
  (match ctx.pc with
    | .ended | .recv => 0
    | .release => 1
    | .destroy => 2
    | .running _ | .committed _ => 4
    | .dispatch _ => 5
    | .loop => if ctx.currentTask.isSome then 6 else 1
    | .back =>
        if ctx.terminate then 3 else if ctx.currentTask.isSome then 7 else 2) +
    8 * ctx.mailbox.length

/-- What the wrappers have left to do. -/
def Wrappers.work (wrappers : Wrappers τ n) : ℕ :=
  ∑ c ∈ Finset.range wrappers.allocated, (wrappers.ctx c).work

/-- What a step on behalf of a task outside adds. -/
def WrapperLabel.allowance : WrapperLabel τ → ℕ
  | .check _ | .create _ | .start _ | .yield _ => 9
  | .wakeup _ => 8
  | .thread _ | .commit _ | .block _ | .exit _ => 0

/-- What a step does of the work: nothing, if it is only asked for. -/
def WrapperLabel.cost : WrapperLabel τ → ℕ
  | .wakeup _ | .commit _ | .block _ => 0
  | _ => 1

variable {wrappers after : Wrappers τ n} {t : τ} {c : ℕ}

/-- A wrapper with a thread is allocated. -/
theorem WrappersOk.inside
    (ok : WrappersOk wrappers)
    {pc : WrapperPc τ}
    (position : (wrappers.ctx c).pc = pc)
    (alive : pc ≠ .ended) :
    c < wrappers.allocated := by
  by_contra outside
  exact alive (position.symm.trans (ok.fresh c (Nat.not_lt.mp outside)))

/-- Only one context changes. -/
theorem Wrappers.work_le
    (wrappers : Wrappers τ n)
    (cost more : ℕ)
    (inside : c < wrappers.allocated)
    (allocated : after.allocated = wrappers.allocated)
    (others : ∀ d, d ≠ c → after.ctx d = wrappers.ctx d)
    (own : (after.ctx c).work + cost ≤ (wrappers.ctx c).work + more) :
    after.work + cost ≤ wrappers.work + more := by
  have updated : after.ctx = Function.update wrappers.ctx c (after.ctx c) := by
    funext d
    by_cases same : d = c
    · subst same
      rw [Function.update_self]
    · rw [Function.update_of_ne same, others d same]
  have changed := sum_update_of_mem WrapperCtx.work wrappers.ctx
    (Finset.mem_range.mpr inside) (after.ctx c)
  rw [← updated] at changed
  unfold Wrappers.work
  rw [allocated]
  omega

/-- A wrapper comes closer to waiting. -/
theorem Wrappers.work_lt
    (wrappers : Wrappers τ n)
    (inside : c < wrappers.allocated)
    (allocated : after.allocated = wrappers.allocated)
    (others : ∀ d, d ≠ c → after.ctx d = wrappers.ctx d)
    (closer : (after.ctx c).work + 1 ≤ (wrappers.ctx c).work) :
    after.work + 1 ≤ wrappers.work :=
  Wrappers.work_le wrappers 1 0 inside allocated others closer

/-- The thread of a wrapper goes on in its loop. -/
theorem WrappersOk.work_setPc
    (ok : WrappersOk wrappers)
    {before pc : WrapperPc τ}
    (position : (wrappers.ctx c).pc = before)
    (alive : before ≠ .ended)
    (closer : WrapperCtx.work { wrappers.ctx c with pc := pc } + 1 ≤
      (wrappers.ctx c).work) :
    (wrappers.setPc c pc).work + 1 ≤ wrappers.work := by
  refine Wrappers.work_lt wrappers (ok.inside position alive) rfl
    (fun d other => Function.update_of_ne other _ _) ?_
  simpa [Wrappers.setPc, Wrappers.setCtx] using closer

section Steps

variable [DecidableEq τ]

/-- A wrapper takes a message. -/
theorem WrappersOk.work_receive
    (ok : WrappersOk wrappers)
    (position : (wrappers.ctx c).pc = .recv)
    {msg : WorkerMsg τ n}
    {rest : List (WorkerMsg τ n)}
    (mail : (wrappers.ctx c).mailbox = msg :: rest) :
    ((wrappers.setCtx c { wrappers.ctx c with mailbox := rest }).handle c msg).work +
      1 ≤ wrappers.work := by
  have inside := ok.inside position (by simp)
  cases msg with
  | assign t | wakeup t =>
      refine Wrappers.work_lt wrappers inside rfl (fun d other => ?_) ?_
      · simp [Wrappers.handle, Wrappers.assert, Wrappers.setState, Wrappers.note,
          Wrappers.setCtx, other]
      · simp only [Wrappers.handle, Wrappers.assert, Wrappers.setState,
          Wrappers.note, Wrappers.setCtx, Function.update_self, WrapperCtx.work,
          position, mail, List.length_cons, Option.isSome_some, if_true]
        split <;> omega
  | terminate | request | ret =>
      refine Wrappers.work_lt wrappers inside rfl (fun d other => ?_) ?_
      · simp [Wrappers.handle, Wrappers.assert, Wrappers.setPc, Wrappers.setCtx,
          other]
      · simp only [Wrappers.handle, Wrappers.assert, Wrappers.setPc,
          Wrappers.setCtx, Function.update_self, WrapperCtx.work, position, mail,
          List.length_cons]
        split
        · omega
        · split <;> omega

/-- The thread of a wrapper goes on. -/
theorem WrappersOk.work_thread
    (ok : WrappersOk wrappers)
    (taken : wrappers.threadNext c = some after) :
    after.work + 1 ≤ wrappers.work := by
  unfold Wrappers.threadNext at taken
  split at taken
  case h_1 position =>
    split at taken <;> obtain rfl := Option.some.inj taken
    case h_1 t current =>
      refine ok.work_setPc position (by simp) ?_
      simp only [WrapperCtx.work, position, current, Option.isSome_some, if_true]
      omega
    case h_2 current =>
      refine ok.work_setPc position (by simp) ?_
      simp only [WrapperCtx.work, position, current, Option.isSome_none,
        Bool.false_eq_true, if_false]
      omega
  case h_2 position =>
    split at taken
    case h_1 => cases taken
    case h_2 msg rest mail =>
      obtain rfl := Option.some.inj taken
      exact ok.work_receive position mail
  case h_3 t position =>
    obtain rfl := Option.some.inj taken
    refine Wrappers.work_lt wrappers (ok.inside position (by simp)) rfl
      (fun d other => Function.update_of_ne other _ _) ?_
    simp only [Wrappers.setState, Wrappers.setPc, Wrappers.setCtx, Wrappers.assert,
      Function.update_self, WrapperCtx.work, position]
    omega
  case h_4 position =>
    split at taken <;> obtain rfl := Option.some.inj taken
    case isTrue terminate =>
      refine ok.work_setPc position (by simp) ?_
      simp only [WrapperCtx.work, position, terminate, if_true]
      omega
    case isFalse goesOn =>
      refine ok.work_setPc position (by simp) ?_
      simp only [WrapperCtx.work, position, goesOn]
      split <;> simp only [Bool.false_eq_true, if_false] <;> omega
  case h_5 position =>
    obtain rfl := Option.some.inj taken
    unfold Wrappers.lpelTaskDestroy
    split
    case h_1 t current =>
      refine Wrappers.work_lt wrappers (ok.inside position (by simp)) rfl
        (fun d other => Function.update_of_ne other _ _) ?_
      simp only [Wrappers.note, Wrappers.setPc, Wrappers.setCtx, Wrappers.assert,
        Function.update_self, WrapperCtx.work, position]
      omega
    case h_2 current =>
      refine Wrappers.work_lt wrappers (ok.inside position (by simp)) rfl
        (fun d other => Function.update_of_ne other _ _) ?_
      simp only [Wrappers.setPc, Wrappers.setCtx, Wrappers.assert,
        Function.update_self, WrapperCtx.work, position]
      omega
  case h_6 position =>
    obtain rfl := Option.some.inj taken
    refine Wrappers.work_lt wrappers (ok.inside position (by simp)) rfl
      (fun d other => Function.update_of_ne other _ _) ?_
    simp only [Wrappers.addFreeWrapper, Wrappers.setPc, Wrappers.setCtx,
      Wrappers.assert, Function.update_self, WrapperCtx.work, position]
    omega
  case h_7 | h_8 | h_9 => cases taken

/-- A task gets a context. -/
theorem WrappersOk.work_create
    (ok : WrappersOk wrappers)
    (t : τ)
    (empty : Bool) :
    (wrappers.lpelCreateWrapperContext t empty).work ≤ wrappers.work + 1 := by
  unfold Wrappers.lpelCreateWrapperContext
  split
  case h_1 c next list =>
    obtain ⟨ended, mail, inside⟩ := ok.free c (by rw [list]; exact List.mem_cons_self)
    refine Wrappers.work_le wrappers 0 1 inside rfl
      (fun d other => Function.update_of_ne other _ _) ?_
    simp [Wrappers.restart, Wrappers.setCtx, WrapperCtx.work, ended, mail]
  case h_2 =>
    have others : ∑ d ∈ Finset.range wrappers.allocated,
        (Function.update wrappers.ctx wrappers.allocated
          { pc := .loop, mailbox := [], terminate := false, currentTask := none }
          d).work = wrappers.work := by
      refine Finset.sum_congr rfl fun d member => ?_
      rw [Function.update_of_ne (Finset.mem_range.mp member).ne]
    simp only [Wrappers.work, Wrappers.restart, Wrappers.setCtx,
      Finset.sum_range_succ] at others ⊢
    rw [others, Function.update_self]
    simp [WrapperCtx.work]

/-- Every step does some of the work, unless it is only asked for. -/
theorem WrappersOk.work_step
    (ok : WrappersOk wrappers)
    {label : WrapperLabel τ}
    (taken : wrappersNext wrappers label = some after) :
    after.work + label.cost ≤ wrappers.work + label.allowance := by
  cases wrappersNext_cases taken with
  | check =>
      simp only [WrapperLabel.cost, WrapperLabel.allowance]
      exact Nat.add_le_add_left (by decide) _
  | @create t empty uncreated =>
      have created := ok.work_create t empty
      simp only [WrapperLabel.cost, WrapperLabel.allowance]
      omega
  | @start t c context unstarted =>
      have lives := ok.lives_of_unstarted context unstarted
      refine Wrappers.work_le wrappers _ _ (ok.allocated t c lives) rfl
        (fun d other => Function.update_of_ne other _ _) ?_
      simp only [Wrappers.note, Wrappers.send, Wrappers.setCtx, Wrappers.assert,
        Function.update_self, WrapperCtx.work, List.length_append,
        List.length_singleton, WrapperLabel.cost, WrapperLabel.allowance]
      omega
  | @wakeup t c context unsent =>
      have lives := ok.lives_of_committed context unsent
      refine Wrappers.work_le wrappers _ _ (ok.allocated t c lives) rfl
        (fun d other => Function.update_of_ne other _ _) ?_
      simp only [Wrappers.note, Wrappers.send, Wrappers.setCtx,
        Function.update_self, WrapperCtx.work, List.length_append,
        List.length_singleton, WrapperLabel.cost, WrapperLabel.allowance]
      omega
  | thread moved => exact ok.work_thread moved
  | @commit c t position =>
      refine Wrappers.work_le wrappers _ _ (ok.inside position (by simp)) rfl
        (fun d other => Function.update_of_ne other _ _) ?_
      simp [Wrappers.note, Wrappers.setPc, Wrappers.setCtx, WrapperCtx.work, position,
        WrapperLabel.cost]
  | @block c t position =>
      refine Wrappers.work_le wrappers _ _ (ok.inside position (by simp)) rfl
        (fun d other => Function.update_of_ne other _ _) ?_
      simp only [Wrappers.lpelTaskBlockStream, Wrappers.setState, Wrappers.setCtx,
        Wrappers.assert, Function.update_self, WrapperCtx.work, position,
        WrapperLabel.cost, WrapperLabel.allowance]
      split
      · omega
      · simp only [Option.isSome_none, Bool.false_eq_true, if_false]
        omega
  | @yield c t position =>
      refine Wrappers.work_le wrappers _ _ (ok.inside position (by simp)) rfl
        (fun d other => Function.update_of_ne other _ _) ?_
      simp only [Wrappers.lpelTaskYield, Wrappers.setState, Wrappers.setPc,
        Wrappers.setCtx, Wrappers.assert, Function.update_self, WrapperCtx.work,
        position, WrapperLabel.cost, WrapperLabel.allowance]
      split
      · omega
      · split <;> omega
  | @exit c t position =>
      refine Wrappers.work_le wrappers _ _ (ok.inside position (by simp)) rfl
        (fun d other => Function.update_of_ne other _ _) ?_
      simp only [Wrappers.lpelTaskExit, Wrappers.setState, Wrappers.setCtx,
        Wrappers.assert, Function.update_self, WrapperCtx.work, position,
        WrapperLabel.cost, WrapperLabel.allowance, if_true]
      omega

end Steps

end Hrc
end Lpel
