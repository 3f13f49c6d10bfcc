import Lpel.Hrc.Rounds

/-!
# Wakeups are neither lost nor duplicated

The wakeup of a block and the return of the blocked task reach the master in
either order, and the first of the two leaves a mark for the second: the flag
`wakenup`, or the state `TASK_RETURNED`.

What happens to a task is counted here from outside of the scheduler: from the
labels of a run, from the messages that the master takes out of its mailbox, and
from the places where the task is.  The numbers of `History` agree with these
counts.
-/

namespace Lpel
namespace Hrc

variable {τ P : Type} {n : ℕ}

/-- What can happen to a task in a block. -/
inductive BlockEvent
  /-- It commits to block. -/
  | block
  /-- A thread sends its wakeup. -/
  | wakeSent
  /-- The master takes a wakeup of the task out of its mailbox. -/
  | wakeTaken
  /-- The master takes the blocked task out of its mailbox. -/
  | returnTaken
  /-- The master takes a message, and the task, which was blocked, is afterwards
  in the ready queue or in the mailbox of a worker. -/
  | readied

namespace Sched

section Events

variable [DecidableEq τ]

/-- The message that the master takes in a step. -/
def takes (sched : Sched τ P n) : SchedLabel τ n → Option (WorkerMsg τ n)
  | .master _ => sched.mastermb.head?
  | _ => none

/-- The task that commits to block in a step. -/
def commits (sched : Sched τ P n) : SchedLabel τ n → Option τ
  | .commit wid =>
      match sched.worker wid with
      | .running t => some t
      | _ => none
  | _ => none

/-- The task is in the ready queue or in the mailbox of a worker. -/
def offers (sched : Sched τ P n) (t : τ) : Bool :=
  t ∈ sched.readyTasks.tasks ∨ ∃ wid, .assign t ∈ sched.workermbs wid

/-- The task is in a block, before or after the master has taken it back. -/
def blocked (sched : Sched τ P n) (t : τ) : Bool :=
  (sched.task t).state = .blocked ∨ (sched.task t).state = .returned

end Events

end Sched

/-- The task whose wakeup is sent in a step. -/
def SchedLabel.wakes : SchedLabel τ n → Option τ
  | .wakeup t => some t
  | _ => none

/-- What a step shows of a task. -/
def BlockEvent.shown
    [DecidableEq τ]
    (t : τ)
    (sched : Sched τ P n)
    (label : SchedLabel τ n)
    (after : Sched τ P n) : BlockEvent → Bool
  | .block => sched.commits label = some t
  | .wakeSent => label.wakes = some t
  | .wakeTaken => sched.takes label = some (.wakeup t)
  | .returnTaken =>
      sched.takes label = some (.ret t) ∧ (sched.task t).state = .blocked
  | .readied => (sched.takes label).isSome ∧ sched.blocked t ∧ after.offers t

/-- The number of a history that stands for an event. -/
def History.number (history : History) : BlockEvent → ℕ
  | .block => history.blocks
  | .wakeSent => history.wakesSent
  | .wakeTaken => history.wakesTaken
  | .returnTaken => history.returnsTaken
  | .readied => history.readied

/-- The task is made ready once for each block, when the later one of its wakeup
and its return is taken. -/
structure ReadiedOnce (count : BlockEvent → ℕ) (task : Task P) : Prop where
  /-- Made ready as often as both messages of a block have been taken. -/
  readied : count .readied = min (count .wakeTaken) (count .returnTaken)
  /-- Every block but the current one has been made ready. -/
  current : count .block = count .readied ∨
    count .block = count .readied + 1
  /-- No more wakeups are taken than sent, or sent than there are blocks. -/
  taken_le_sent : count .wakeTaken ≤ count .wakeSent
  sent_le_blocks : count .wakeSent ≤ count .block
  /-- The flag is set exactly between the wakeup and the return of the current
  block. -/
  wakenup : task.wakenup = 1 ↔
    count .wakeTaken = count .block ∧ count .returnTaken + 1 = count .block
  flag : task.wakenup = 0 ∨ task.wakenup = 1
  /-- A parked task waits for the wakeup of its current block. -/
  returned : task.state = .returned →
    count .returnTaken = count .block ∧ count .wakeTaken + 1 = count .block
  /-- No flag is left over. -/
  cleared : task.state = .ready ∨ task.state = .inqueue ∨
    task.state = .zombie → task.wakenup = 0

/-- The three situations of a task. -/
theorem Fits.situation
    {worker : Fin n → WorkerPc τ}
    {status : Status}
    {at_ : Option (Place n)}
    (fits : Fits worker status at_) :
    AtRest status ∧ status.state ≠ .returned ∨
    Blocking status ∧ (status.state = .running ∨ status.state = .blocked) ∨
    Parked status ∧ status.state = .returned := by
  have atRest {state : TaskState} (equal : status.state = state)
      (notReturned : state ≠ .returned) (rest : AtRest status) :
      AtRest status ∧ status.state ≠ .returned :=
    ⟨rest, equal ▸ notReturned⟩
  have stopped (stopped : Stopped status) :
      AtRest status ∧ status.state ≠ .returned ∨
      Blocking status ∧
        (status.state = .running ∨ status.state = .blocked) := by
    unfold Stopped at stopped
    split at stopped
    case h_1 ready => exact Or.inl (atRest ready (by decide) stopped)
    case h_2 zombie => exact Or.inl (atRest zombie (by decide) stopped)
    case h_3 blocked => exact Or.inr ⟨stopped, Or.inr blocked⟩
    case h_4 => exact absurd stopped id
  cases at_ with
  | none =>
      left
      obtain ⟨-, -, created⟩ | ⟨-, -, zombie⟩ := fits.life
      · exact atRest created (by decide) fits.rest
      · exact atRest zombie (by decide) fits.rest
  | some p =>
      have fits := fits.2
      cases p with
      | toMaster | queued | toWorker =>
          exact Or.inl (atRest fits.1 (by decide) fits.2)
      | parked => exact Or.inr (Or.inr ⟨fits.2, fits.1⟩)
      | returning => exact or_assoc.mp (Or.inl (stopped fits))
      | executing wid =>
          simp only [Place.Fits] at fits
          cases pc : worker wid <;> rw [pc] at fits
          case start | recv | finished => exact absurd fits id
          case dispatch | running =>
            exact Or.inl (atRest fits.1 (by decide) fits.2)
          case committed => exact Or.inr (Or.inl ⟨fits.2, Or.inl fits.1⟩)
          case stopped | back => exact or_assoc.mp (Or.inl (stopped fits))

section Situations

variable {sched : Sched τ P n} {t : τ}

theorem AtRest.readiedOnce
    (rest : AtRest (sched.status t))
    (notReturned : (sched.task t).state ≠ .returned) :
    ReadiedOnce (sched.history t).number (sched.task t) := by
  obtain ⟨wakenup, blocks, wakesSent, wakesTaken, returnsTaken⟩ := rest
  dsimp only [Sched.status] at *
  constructor
  case returned => exact fun returned => absurd returned notReturned
  case cleared => exact fun _ => wakenup
  case flag => omega
  all_goals
    dsimp only [History.number]
    omega

theorem Blocking.readiedOnce
    (blocking : Blocking (sched.status t))
    (inside : (sched.task t).state = .running ∨
      (sched.task t).state = .blocked) :
    ReadiedOnce (sched.history t).number (sched.task t) := by
  obtain ⟨blocks, returnsTaken, wakesTaken, takenLeSent, sentLeBlocks⟩ :=
    blocking
  dsimp only [Sched.status] at *
  constructor
  case returned =>
    intro returned
    rw [returned] at inside
    exact absurd inside (by decide)
  case cleared =>
    intro cleared
    obtain state | state := inside <;>
      rw [state] at cleared <;>
      exact absurd cleared (by decide)
  case flag => omega
  all_goals
    dsimp only [History.number]
    omega

theorem Parked.readiedOnce
    (parked : Parked (sched.status t)) :
    ReadiedOnce (sched.history t).number (sched.task t) := by
  obtain ⟨wakenup, blocks, returnsTaken, wakesTaken, takenLeSent,
    sentLeBlocks⟩ := parked
  dsimp only [Sched.status] at *
  constructor
  case cleared => exact fun _ => wakenup
  case flag => omega
  all_goals
    dsimp only [History.number]
    omega

/-- The numbers of the history are right for every task. -/
theorem Core.readiedOnce
    [DecidableEq τ]
    [LinearOrder P]
    {place : τ → Option (Place n)}
    (core : Core sched none place)
    (t : τ) :
    ReadiedOnce (sched.history t).number (sched.task t) := by
  obtain ⟨rest, notReturned⟩ | ⟨blocking, inside⟩ | ⟨parked, -⟩ :=
    (core.fits t (by simp)).situation
  · exact rest.readiedOnce notReturned
  · exact blocking.readiedOnce inside
  · exact parked.readiedOnce

end Situations

/-! ## The history agrees with what is seen -/

section Agreement

variable {sched after : Sched τ P n} {t u : τ}

theorem Rearranged.history
    (rearranged : Rearranged sched after) :
    after.history = sched.history := by
  funext u
  exact congrArg (fun status : τ → Status => (status u).toHistory)
    rearranged.status

theorem Rearranged.state
    (rearranged : Rearranged sched after)
    (u : τ) :
    (after.task u).state = (sched.task u).state :=
  congrArg (fun status : τ → Status => (status u).state) rearranged.status

variable [DecidableEq τ]

theorem Offered.history
    (offered : Offered sched after t) :
    after.history = sched.history := by
  funext u
  rcases offered.outcome with ⟨_, _, _, _, status⟩ | ⟨_, _, status⟩
  · exact congrArg (fun status : τ → Status => (status u).toHistory) status
  · have same := congrArg (fun status : τ → Status => (status u).toHistory)
      status
    by_cases mine : u = t
    · subst mine
      simpa [Sched.status] using same
    · simpa [Sched.status, mine] using same

/-- Offering a task changes the state of no other one. -/
theorem Offered.state
    (offered : Offered sched after t)
    (other : u ≠ t) :
    (after.task u).state = (sched.task u).state := by
  rcases offered.outcome with ⟨_, _, _, _, status⟩ | ⟨_, _, status⟩
  · exact congrArg (fun status : τ → Status => (status u).state) status
  · have same := congrArg (fun status : τ → Status => (status u).state) status
    simpa [Sched.status, other] using same

section Places

variable [LinearOrder P]
variable {place : τ → Option (Place n)}

/-- A task that is offered is ready. -/
theorem Core.state_of_offers
    (core : Core sched none place)
    (offers : sched.offers t = true) :
    (sched.task t).state = .inqueue ∨ (sched.task t).state = .ready := by
  rcases of_decide_eq_true offers with queued | ⟨wid, sent⟩
  · exact .inl ((core.inqueue_iff (by simp)).mpr queued)
  · right
    have present : sched.copies t (.toWorker wid) ≠ 0 :=
      (List.count_pos_iff.mpr sent).ne'
    have fits := core.fits t (by simp)
    rw [core.located.place_eq present] at fits
    exact fits.2.1

/-- The task of a round is offered afterwards. -/
theorem Offered.offers
    (offered : Offered sched after t)
    (core : Core after none place) :
    after.offers t = true := by
  apply decide_eq_true
  rcases offered.outcome with ⟨wid, -, -, sent, -⟩ | ⟨-, -, status⟩
  · right
    refine ⟨wid, ?_⟩
    rw [sent, Function.update_self]
    simp
  · left
    have state := congrArg (fun status : τ → Status => (status t).state) status
    exact (core.inqueue_iff (by simp)).mp (by simpa [Sched.status] using state)

end Places

/-- What a round does to the history of a task, except for the places. -/
theorem Round.numbers
    [LinearOrder P]
    [BoundedOrder P]
    {msg : WorkerMsg τ n}
    (round : Round sched after msg)
    (t : τ) :
    (after.history t).blocks = (sched.history t).blocks ∧
      (after.history t).wakesSent = (sched.history t).wakesSent ∧
      (after.history t).wakesTaken = (sched.history t).wakesTaken +
        (decide (msg = .wakeup t)).toNat ∧
      (after.history t).returnsTaken = (sched.history t).returnsTaken +
        (decide (msg = .ret t ∧ (sched.task t).state = .blocked)).toNat := by
  cases round with
  | assigned offered =>
      rw [offered.history]
      simp [Sched.setState]
  | @yielded u ready offered =>
      rw [offered.history]
      by_cases mine : u = t
      · subst mine
        simp [ready]
      · simp [mine]
  | @resumed u blocked _ offered =>
      rw [offered.history]
      by_cases mine : u = t
      · subst mine
        simp [Sched.note, Sched.setState, Sched.setWakenup, blocked]
      · simp [Sched.note, Sched.setState, Sched.setWakenup, mine, Ne.symm mine]
  | @parked u blocked _ rearranged =>
      rw [rearranged.history]
      by_cases mine : u = t
      · subst mine
        simp [Sched.note, Sched.setState, blocked]
      · simp [Sched.note, Sched.setState, mine, Ne.symm mine]
  | @destroyed u zombie rearranged =>
      rw [rearranged.history]
      by_cases mine : u = t
      · subst mine
        simp [Sched.note, zombie]
      · simp [Sched.note, mine, Ne.symm mine]
  | @unexpected u _ notBlocked _ rearranged =>
      rw [rearranged.history]
      by_cases mine : u = t
      · subst mine
        simp [notBlocked]
      · simp [mine]
  | @early u _ rearranged =>
      rw [rearranged.history]
      by_cases mine : u = t
      · subst mine
        simp [Sched.note, Sched.setWakenup]
      · simp [Sched.note, Sched.setWakenup, mine, Ne.symm mine]
  | @woken u _ offered =>
      rw [offered.history]
      by_cases mine : u = t
      · subst mine
        simp [Sched.note, Sched.setState]
      · simp [Sched.note, Sched.setState, mine, Ne.symm mine]
  | served _ _ rearranged =>
      rw [rearranged.history]
      simp [Sched.setState, Sched.sendWorker]
  | waits _ same | told same =>
      rw [same]
      simp

/-- A task whose state is kept has not left its block. -/
theorem Core.not_readied
    [LinearOrder P]
    {place : τ → Option (Place n)}
    (core : Core after none place)
    (same : (after.task t).state = (sched.task t).state) :
    ¬ (sched.blocked t = true ∧ after.offers t = true) := by
  rintro ⟨blocked, offers⟩
  have inside : (sched.task t).state = .blocked ∨
      (sched.task t).state = .returned := of_decide_eq_true blocked
  rcases core.state_of_offers offers with left | left <;>
    rw [← same, left] at inside <;>
    exact absurd inside (by decide)

/-- A round makes a task ready exactly if it takes the task out of its block and
offers it. -/
theorem Round.readied
    [LinearOrder P]
    [BoundedOrder P]
    {place : τ → Option (Place n)}
    {msg : WorkerMsg τ n}
    (round : Round sched after msg)
    (core : Core after none place)
    (fresh : ∀ u, msg = .assign u → sched.blocked u = false)
    (queued : ∀ u, lpelTaskqueuePeek sched.readyTasks = some u →
      sched.blocked u = false)
    (t : τ) :
    (after.history t).readied = (sched.history t).readied +
      (decide (sched.blocked t = true ∧ after.offers t = true)).toNat := by
  have outside {state : TaskState} (is : (sched.task t).state = state)
      (left : state ≠ .blocked ∧ state ≠ .returned) :
      ¬ (sched.blocked t = true ∧ after.offers t = true) := by
    rintro ⟨blocked, -⟩
    rcases of_decide_eq_true blocked with inside | inside
    · exact left.1 (is.symm.trans inside)
    · exact left.2 (is.symm.trans inside)
  have leaves {state : TaskState} (is : (sched.task t).state = state)
      (inside : state = .blocked ∨ state = .returned)
      (offered : after.offers t = true) :
      sched.blocked t = true ∧ after.offers t = true :=
    ⟨decide_eq_true (is ▸ inside), offered⟩
  cases round with
  | @assigned u offered =>
      rw [offered.history, decide_eq_false]
      · rfl
      by_cases mine : t = u
      · subst mine
        simp [fresh t rfl]
      · refine core.not_readied ((offered.state mine).trans ?_)
        simp [Sched.setState, mine]
  | @yielded u ready offered =>
      rw [offered.history, decide_eq_false]
      · rfl
      by_cases mine : t = u
      · subst mine
        exact outside ready (by decide)
      · exact core.not_readied (offered.state mine)
  | @resumed u blocked _ offered =>
      rw [offered.history]
      by_cases mine : t = u
      · subst mine
        rw [decide_eq_true (leaves blocked (by decide) (offered.offers core))]
        simp [Sched.note, Sched.setState, Sched.setWakenup]
      · rw [decide_eq_false]
        · simp [Sched.note, Sched.setState, Sched.setWakenup, mine]
        refine core.not_readied ((offered.state mine).trans ?_)
        simp [Sched.note, Sched.setState, Sched.setWakenup, mine]
  | @parked u _ _ rearranged =>
      rw [rearranged.history, decide_eq_false]
      · by_cases mine : t = u <;>
          simp [Sched.note, Sched.setState, mine]
      by_cases mine : t = u
      · subst mine
        have returned := rearranged.state t
        simp only [Sched.setState, Function.update_self] at returned
        rintro ⟨-, offers⟩
        rcases core.state_of_offers offers with left | left <;>
          exact absurd (returned.symm.trans left) (by decide)
      · refine core.not_readied ((rearranged.state t).trans ?_)
        simp [Sched.note, Sched.setState, mine]
  | @destroyed u _ rearranged =>
      rw [rearranged.history, decide_eq_false]
      · by_cases mine : t = u <;> simp [Sched.note, mine]
      exact core.not_readied (rearranged.state t)
  | unexpected _ _ _ rearranged =>
      rw [rearranged.history, decide_eq_false]
      · rfl
      exact core.not_readied (rearranged.state t)
  | @early u _ rearranged =>
      rw [rearranged.history, decide_eq_false]
      · by_cases mine : t = u <;> simp [Sched.note, Sched.setWakenup, mine]
      refine core.not_readied ((rearranged.state t).trans ?_)
      by_cases mine : t = u <;> simp [Sched.note, Sched.setWakenup, mine]
  | @woken u returned offered =>
      rw [offered.history]
      by_cases mine : t = u
      · subst mine
        rw [decide_eq_true (leaves returned (by decide) (offered.offers core))]
        simp [Sched.note, Sched.setState]
      · rw [decide_eq_false]
        · simp [Sched.note, Sched.setState, mine]
        refine core.not_readied ((offered.state mine).trans ?_)
        simp [Sched.note, Sched.setState, mine]
  | @served wid u head _ rearranged =>
      rw [rearranged.history, decide_eq_false]
      · rfl
      by_cases mine : t = u
      · subst mine
        simp [queued t head]
      · refine core.not_readied ((rearranged.state t).trans ?_)
        simp [Sched.setState, Sched.sendWorker, mine]
  | waits _ same | told same =>
      rw [decide_eq_false]
      · rw [same]
        rfl
      exact core.not_readied (by rw [same])

section Leave

variable (sched : Sched τ P n) (t : τ)

omit [DecidableEq τ] in
theorem history_leave : sched.leave.history = sched.history := by
  unfold Sched.leave
  split <;> rfl

theorem offers_leave : sched.leave.offers t = sched.offers t := by
  unfold Sched.leave
  split <;> rfl

end Leave

omit [DecidableEq τ] in
/-- A task in another state is in no block. -/
theorem blocked_eq_false
    {state : TaskState}
    (is : (sched.task t).state = state)
    (outside : state ≠ .blocked ∧ state ≠ .returned) :
    sched.blocked t = false := by
  apply decide_eq_false
  rintro (inside | inside)
  · exact outside.1 (is.symm.trans inside)
  · exact outside.2 (is.symm.trans inside)

variable [LinearOrder P] [BoundedOrder P]
variable {place : τ → Option (Place n)}

/-- The numbers of the history rise with what a round of the master shows. -/
theorem Core.number_master
    (core : Core sched none place)
    (policy : Policy P)
    (observed : Observed τ)
    {msg : WorkerMsg τ n}
    {rest : List (WorkerMsg τ n)}
    (mail : sched.mastermb = msg :: rest)
    (t : τ)
    (event : BlockEvent) :
    let after := ({ sched with mastermb := rest }.handle policy observed
      msg).leave
    (after.history t).number event = (sched.history t).number event +
      (event.shown t sched (.master observed) after).toNat := by
  obtain ⟨place', core'⟩ := core.handle policy observed mail
  have round := handle_cases policy observed { sched with mastermb := rest } msg
  have fresh : ∀ u, msg = .assign u → sched.blocked u = false := by
    rintro u rfl
    have fits := core.fits u (by simp)
    rw [(core.take (Or.inl ⟨rfl, rfl⟩) mail).2] at fits
    exact blocked_eq_false fits.2.1 (by decide)
  have queued : ∀ u, lpelTaskqueuePeek sched.readyTasks = some u →
      sched.blocked u = false := by
    intro u head
    have member : u ∈ sched.readyTasks.tasks := by
      rw [Taskqueue.tasks_pop core.queue head]
      exact Multiset.mem_cons_self u _
    exact blocked_eq_false ((core.inqueue_iff (by simp)).mpr member) (by decide)
  have takes : sched.takes (.master observed) = some msg := by
    simp [Sched.takes, mail]
  obtain ⟨blocks, wakesSent, wakesTaken, returnsTaken⟩ := round.numbers t
  have readied := round.readied core' fresh queued t
  dsimp only
  rw [history_leave]
  cases event with
  | block =>
      simp only [History.number, BlockEvent.shown, Sched.commits, blocks]
      simp
  | wakeSent =>
      simp only [History.number, BlockEvent.shown, SchedLabel.wakes, wakesSent]
      simp
  | wakeTaken =>
      simp only [History.number, BlockEvent.shown, takes, wakesTaken,
        Option.some.injEq]
  | returnTaken =>
      simp only [History.number, BlockEvent.shown, takes, returnsTaken,
        Option.some.injEq]
  | readied =>
      simp [History.number, BlockEvent.shown, takes, readied, offers_leave,
        Sched.blocked]

/-- The numbers of the history rise with what a step shows. -/
theorem Core.number_step
    (core : Core sched none place)
    {policy : Policy P}
    {label : SchedLabel τ n}
    (taken : schedNext policy sched label = some after)
    (t : τ)
    (event : BlockEvent) :
    (after.history t).number event = (sched.history t).number event +
      (event.shown t sched label after).toNat := by
  cases label with
  | start u =>
      cases schedNext_cases taken with
      | start unstarted =>
          cases event <;>
            by_cases mine : t = u <;>
            simp [History.number, BlockEvent.shown, Sched.takes, Sched.commits,
              SchedLabel.wakes, Sched.sendMaster, Sched.note, Sched.assert,
              mine]
      | worker step => cases step
  | wakeup u =>
      cases schedNext_cases taken with
      | wakeup pending =>
          by_cases mine : u = t
          · subst mine
            cases event <;>
              simp [History.number, BlockEvent.shown, Sched.takes,
                Sched.commits, SchedLabel.wakes, Sched.sendMaster, Sched.note]
          · cases event <;>
              simp [History.number, BlockEvent.shown, Sched.takes,
                Sched.commits, SchedLabel.wakes, Sched.sendMaster, Sched.note,
                mine, Ne.symm mine]
      | worker step => cases step
  | stop =>
      cases schedNext_cases taken with
      | stop =>
          cases event <;>
            simp [History.number, BlockEvent.shown, Sched.takes, Sched.commits,
              SchedLabel.wakes, Sched.sendMaster]
      | worker step => cases step
  | broadcast =>
      cases schedNext_cases taken with
      | broadcast inside position =>
          cases event <;>
            simp [History.number, BlockEvent.shown, Sched.takes, Sched.commits,
              SchedLabel.wakes, Sched.sendWorker]
      | worker step => cases step
  | master observed =>
      cases schedNext_cases taken with
      | master loop mail => exact core.number_master policy observed mail t event
      | worker step => cases step
  | commit wid =>
      rw [schedNext] at taken
      cases workerNext_cases taken with
      | @commit _ u position =>
          by_cases mine : u = t
          · subst mine
            cases event <;>
              simp [History.number, BlockEvent.shown, Sched.takes,
                Sched.commits, SchedLabel.wakes, Sched.setWorker, Sched.note,
                position]
          · cases event <;>
              simp [History.number, BlockEvent.shown, Sched.takes,
                Sched.commits, SchedLabel.wakes, Sched.setWorker, Sched.note,
                position, mine, Ne.symm mine]
  | first wid | recv wid | taskStart wid | block wid | yield wid | exit wid
  | request wid | ret wid =>
      rw [schedNext] at taken
      cases workerNext_cases taken <;>
        cases event <;>
        simp [History.number, BlockEvent.shown, Sched.takes, Sched.commits,
          SchedLabel.wakes, Sched.stop, Sched.setWorker, Sched.setState,
          Sched.sendMaster, Sched.assert]

end Agreement

/-- Along every run every task is made ready exactly once for each block whose
wakeup and return have both been taken by the master. -/
theorem wakeupsOnce
    [DecidableEq τ]
    [LinearOrder P]
    [BoundedOrder P]
    {policy : Policy P}
    {start sched : Sched τ P n}
    {labels : List (SchedLabel τ n)}
    (initial : (schedMachine n policy).init start)
    (executed : (schedMachine n policy).run start labels = some sched)
    (t : τ) :
    ReadiedOnce
      (fun event => (schedMachine n policy).countSteps
        (fun before label after => event.shown t before label after)
        start labels)
      (sched.task t) := by
  have reached : (schedMachine n policy).Reachable start := .init initial
  obtain ⟨place, core⟩ := Sched.Conserved.ofReachable (reached.run executed)
  have numbers : (sched.history t).number = fun event =>
      (schedMachine n policy).countSteps
        (fun before label after => event.shown t before label after)
        start labels := by
    funext event
    have along := Machine.countSteps_eq
      (fun before label after => event.shown t before label after)
      Sched.Conserved (fun sched => (sched.history t).number event)
      (fun _ _ _ held taken => held.elim fun _ core => core.step taken)
      (fun _ _ _ held taken =>
        held.elim fun _ core => core.number_step taken t event)
      (Sched.Conserved.ofReachable reached) executed
    obtain ⟨memory, zero, rfl⟩ := initial
    cases event <;> simpa [schedStart, History.number] using along
  rw [← numbers]
  exact core.readiedOnce t

/-- The wakeup reaches the master before the task has stopped, and the task is
made ready when it is returned. -/
def earlyWakeupRun (wid : Fin 1) : List (SchedLabel ℕ 1) :=
  [.first wid, .master alone, .start 7, .master alone, .recv wid,
    .taskStart wid, .commit wid, .wakeup 7, .master alone, .block wid,
    .request wid, .ret wid, .master alone, .master alone]

/-- After one block the task has been made ready once. -/
theorem wakeupsOnce_early :
    ∃ sched : Sched ℕ (Fin 3) 1,
      (schedMachine 1 evenPolicy).run (schedStart (fun _ => 0) 0)
        (earlyWakeupRun 0) = some sched ∧
      (sched.task 7).state = .ready ∧
      (schedMachine 1 evenPolicy).countSteps
        (fun before label after => BlockEvent.readied.shown 7 before label after)
        (schedStart (fun _ => 0) 0) (earlyWakeupRun 0) = 1 ∧
      ReadiedOnce
        (fun event => (schedMachine 1 evenPolicy).countSteps
          (fun before label after => event.shown 7 before label after)
          (schedStart (fun _ => 0) 0) (earlyWakeupRun 0))
        (sched.task 7) := by
  obtain ⟨sched, executed, ready⟩ := Option.map_eq_some_iff.mp
    (by decide : ((schedMachine 1 evenPolicy).run (schedStart (fun _ => 0) 0)
      (earlyWakeupRun 0)).map (fun sched => (sched.task 7).state) = some .ready)
  exact ⟨sched, executed, ready, by decide,
    wakeupsOnce ⟨_, _, rfl⟩ executed 7⟩

end Hrc
end Lpel
