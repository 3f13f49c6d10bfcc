import Mathlib.Logic.Function.Basic
import Lpel.Lib.Confluence

/-!
# Networks of deterministic processes

Sequential processes that communicate only through first-in first-out channels.
A process reads from and writes to channels in an order that depends on nothing
but the items it has read; each channel has one process that writes to it and one
that reads from it.  A channel may have a capacity, and then a write waits until
there is room.

The steps of different processes commute, so the items sent over each channel do
not depend on the order in which the processes take their steps: two runs differ
in how far they have come, and all runs that end in a state where no process can
go on end in the same one.
-/

namespace Lpel

/-- What a process does next, and how it goes on. -/
inductive Action (ι α σ : Type)
  | write (i : ι) (item : α) (after : σ)
  | read (i : ι) (after : α → σ)
  | exit

/-- The processes of a network and the ends of its channels. -/
structure Processes (τ ι α σ : Type) where
  start : τ → σ
  act : τ → σ → Action ι α σ
  writer : ι → τ
  reader : ι → τ
  writes : ∀ {t state i item after},
    act t state = .write i item after → writer i = t
  reads : ∀ {t state i after},
    act t state = .read i after → reader i = t

namespace Processes

variable {τ ι α σ : Type}

/-- The states of the processes and the histories of the channels. -/
@[ext] structure State (τ ι α σ : Type) where
  process : τ → σ
  /-- The items that were written to each channel. -/
  sent : ι → List α
  /-- How many of them were read. -/
  received : ι → ℕ

/-- A channel that holds some items has room for another one. -/
def room : Option ℕ → ℕ → Bool
  | none, _ => true
  | some capacity, held => held < capacity

/-- There is no less room while fewer items are held. -/
theorem room_of_le
    {capacity : Option ℕ}
    {held fewer : ℕ}
    (le : fewer ≤ held)
    (fits : room capacity held = true) :
    room capacity fewer = true := by
  cases capacity with
  | none => rfl
  | some capacity =>
      simp only [room, decide_eq_true_eq] at fits ⊢
      omega

variable [DecidableEq τ] [DecidableEq ι]

/-- The next action of a process, where the channel allows it. -/
def next
    (processes : Processes τ ι α σ)
    (capacity : ι → Option ℕ)
    (state : State τ ι α σ)
    (t : τ) : Option (State τ ι α σ) :=
  match processes.act t (state.process t) with
  | .write i item after =>
      if room (capacity i) ((state.sent i).length - state.received i) then
        some { state with
          process := Function.update state.process t after
          sent := Function.update state.sent i (state.sent i ++ [item]) }
      else
        none
  | .read i after =>
      (state.sent i)[state.received i]?.map fun item =>
        { state with
          process := Function.update state.process t (after item)
          received := Function.update state.received i (state.received i + 1) }
  | .exit => none

/-- Nothing has been sent. -/
def initial (processes : Processes τ ι α σ) : State τ ι α σ where
  process := processes.start
  sent := fun _ => []
  received := fun _ => 0

/-- The network with given capacities.  A label is the process that moves. -/
def machine
    (processes : Processes τ ι α σ)
    (capacity : ι → Option ℕ) : Machine (State τ ι α σ) τ where
  init := fun state => state = processes.initial
  next := processes.next capacity

/-- What a step of a process does. -/
inductive Step
    (processes : Processes τ ι α σ)
    (capacity : ι → Option ℕ)
    (state : State τ ι α σ)
    (t : τ) : State τ ι α σ → Prop
  | write {i : ι} {item : α} {after : σ} :
      processes.act t (state.process t) = .write i item after →
      room (capacity i) ((state.sent i).length - state.received i) = true →
      Step processes capacity state t
        { state with
          process := Function.update state.process t after
          sent := Function.update state.sent i (state.sent i ++ [item]) }
  | read {i : ι} {after : α → σ} {item : α} :
      processes.act t (state.process t) = .read i after →
      (state.sent i)[state.received i]? = some item →
      Step processes capacity state t
        { state with
          process := Function.update state.process t (after item)
          received := Function.update state.received i (state.received i + 1) }

variable {processes : Processes τ ι α σ} {capacity : ι → Option ℕ}
variable {state after : State τ ι α σ} {t : τ}

/-- Every step is one of these. -/
theorem next_cases
    (taken : processes.next capacity state t = some after) :
    Step processes capacity state t after := by
  unfold next at taken
  split at taken
  case h_1 i item goesOn action =>
    rw [Option.ite_none_right_eq_some] at taken
    obtain ⟨fits, taken⟩ := taken
    obtain rfl := Option.some.inj taken
    exact .write action fits
  case h_2 i goesOn action =>
    obtain ⟨item, first, rfl⟩ := Option.map_eq_some_iff.mp taken
    exact .read action first
  case h_3 => cases taken

/-- An enabled write, with its result. -/
theorem next_write
    (i : ι)
    (item : α)
    (goesOn : σ)
    (action : processes.act t (state.process t) = .write i item goesOn)
    (fits : room (capacity i)
      ((state.sent i).length - state.received i) = true)
    (process : after.process = Function.update state.process t goesOn)
    (sent : after.sent =
      Function.update state.sent i (state.sent i ++ [item]))
    (received : after.received = state.received) :
    processes.next capacity state t = some after := by
  simp only [next, action, fits, if_true, Option.some.injEq]
  exact State.ext process.symm sent.symm received.symm

/-- An enabled read, with its result. -/
theorem next_read
    (i : ι)
    (goesOn : α → σ)
    (item : α)
    (action : processes.act t (state.process t) = .read i goesOn)
    (first : (state.sent i)[state.received i]? = some item)
    (process : after.process = Function.update state.process t (goesOn item))
    (sent : after.sent = state.sent)
    (received : after.received =
      Function.update state.received i (state.received i + 1)) :
    processes.next capacity state t = some after := by
  simp only [next, action, first, Option.map_some, Option.some.injEq]
  exact State.ext process.symm sent.symm received.symm

/-- A process that has ended takes no step. -/
theorem next_exit
    (action : processes.act t (state.process t) = .exit) :
    processes.next capacity state t = none := by
  simp only [next, action]

/-- A process waits for room in the channel it writes to. -/
theorem next_full
    {i : ι}
    {item : α}
    {goesOn : σ}
    (action : processes.act t (state.process t) = .write i item goesOn)
    (full : room (capacity i)
      ((state.sent i).length - state.received i) = false) :
    processes.next capacity state t = none := by
  simp [next, action, full]

/-- A process waits for an item in the channel it reads from. -/
theorem next_empty
    {i : ι}
    {goesOn : α → σ}
    (action : processes.act t (state.process t) = .read i goesOn)
    (empty : (state.sent i)[state.received i]? = none) :
    processes.next capacity state t = none := by
  simp only [next, action, empty, Option.map_none]

/-- A write and a read of different processes can be taken in either order. -/
theorem write_read_commute
    {u : τ}
    {i j : ι}
    {item item' : α}
    {goesOn : σ}
    {goesOn' : α → σ}
    (distinct : t ≠ u)
    (writes : processes.act t (state.process t) = .write i item goesOn)
    (fits : room (capacity i)
      ((state.sent i).length - state.received i) = true)
    (reads : processes.act u (state.process u) = .read j goesOn')
    (first : (state.sent j)[state.received j]? = some item') :
    ∃ joined,
      processes.next capacity
        { state with
          process := Function.update state.process t goesOn
          sent := Function.update state.sent i (state.sent i ++ [item]) }
        u = some joined ∧
      processes.next capacity
        { state with
          process := Function.update state.process u (goesOn' item')
          received :=
            Function.update state.received j (state.received j + 1) }
        t = some joined := by
  refine ⟨{
    process :=
      Function.update (Function.update state.process t goesOn) u (goesOn' item')
    sent := Function.update state.sent i (state.sent i ++ [item])
    received := Function.update state.received j (state.received j + 1) },
    next_read j goesOn' item' ?_ ?_ rfl rfl rfl,
    next_write i item goesOn ?_ ?_ ?_ rfl rfl⟩
  · simpa only [Function.update_of_ne (Ne.symm distinct)] using reads
  · -- the item that is read was there before the write
    by_cases same : j = i
    · subst same
      have inside := (List.getElem?_eq_some_iff.mp first).1
      simpa only [Function.update_self, List.getElem?_append_left inside]
        using first
    · simpa only [Function.update_of_ne same] using first
  · simpa only [Function.update_of_ne distinct] using writes
  · -- the read can only make room
    refine room_of_le (Nat.sub_le_sub_left ?_ _) fits
    by_cases same : i = j
    · subst same
      simp
    · simp [same]
  · exact Function.update_comm distinct _ _ _

/-- The steps of different processes commute. -/
theorem commutes
    (processes : Processes τ ι α σ)
    (capacity : ι → Option ℕ) :
    (processes.machine capacity).Commutes := by
  intro state t u afterT afterU distinct takenT takenU
  cases next_cases takenT with
  | @write i item goesOn writesT fitsT =>
      cases next_cases takenU with
      | @write j item' goesOn' writesU fitsU =>
          have other : i ≠ j := by
            rintro rfl
            exact distinct ((processes.writes writesT).symm.trans
              (processes.writes writesU))
          refine ⟨{
            process :=
              Function.update (Function.update state.process t goesOn) u goesOn'
            sent := Function.update
              (Function.update state.sent i (state.sent i ++ [item])) j
                (state.sent j ++ [item'])
            received := state.received },
            next_write j item' goesOn'
              ?_ ?_ rfl ?_ rfl,
            next_write i item goesOn
              ?_ ?_ ?_ ?_ rfl⟩
          · simpa only [Function.update_of_ne (Ne.symm distinct)] using writesU
          · simpa only [Function.update_of_ne (Ne.symm other)] using fitsU
          · simp only [Function.update_of_ne (Ne.symm other)]
          · simpa only [Function.update_of_ne distinct] using writesT
          · simpa only [Function.update_of_ne other] using fitsT
          · exact Function.update_comm distinct _ _ _
          · simp only [Function.update_of_ne other]
            exact Function.update_comm other _ _ _
      | read readsU firstU =>
          exact write_read_commute distinct writesT fitsT readsU firstU
  | @read i goesOn item readsT firstT =>
      cases next_cases takenU with
      | write writesU fitsU =>
          obtain ⟨joined, here, there⟩ := write_read_commute (Ne.symm distinct)
            writesU fitsU readsT firstT
          exact ⟨joined, there, here⟩
      | @read j goesOn' item' readsU firstU =>
          have other : i ≠ j := by
            rintro rfl
            exact distinct ((processes.reads readsT).symm.trans
              (processes.reads readsU))
          refine ⟨{
            process := Function.update
              (Function.update state.process t (goesOn item)) u (goesOn' item')
            sent := state.sent
            received := Function.update
              (Function.update state.received i (state.received i + 1)) j
                (state.received j + 1) },
            next_read j goesOn' item'
              ?_ ?_ rfl rfl ?_,
            next_read i goesOn item
              ?_ ?_ ?_ rfl ?_⟩
          · simpa only [Function.update_of_ne (Ne.symm distinct)] using readsU
          · simpa only [Function.update_of_ne (Ne.symm other)] using firstU
          · simp only [Function.update_of_ne (Ne.symm other)]
          · simpa only [Function.update_of_ne distinct] using readsT
          · simpa only [Function.update_of_ne other] using firstT
          · exact Function.update_comm distinct _ _ _
          · simp only [Function.update_of_ne other]
            exact Function.update_comm other _ _ _

/-- What was sent over a channel stays sent. -/
theorem sent_grows
    (taken : processes.next capacity state t = some after)
    (i : ι) :
    state.sent i <+: after.sent i := by
  cases next_cases taken with
  | @write j item =>
      by_cases same : i = j
      · subst same
        simp
      · simp [same]
  | read => exact List.prefix_refl _

/-- Where no process can go on, another run has sent no more. -/
theorem sent_prefix_of_stuck
    {last last' : State τ ι α σ}
    {labels labels' : List τ}
    (executed : (processes.machine capacity).run processes.initial labels =
      some last)
    (stuck : (processes.machine capacity).Stuck last)
    (executed' : (processes.machine capacity).run processes.initial labels' =
      some last')
    (i : ι) :
    last'.sent i <+: last.sent i := by
  obtain ⟨-, completes⟩ :=
    (commutes processes capacity).complete executed stuck executed'
  exact Machine.prefix_of_run (fun _ _ _ taken => sent_grows taken i) completes

/-- Larger capacities allow every step. -/
theorem next_of_room
    {capacity' : ι → Option ℕ}
    (wider : ∀ i held, room (capacity i) held = true →
      room (capacity' i) held = true)
    (taken : processes.next capacity state t = some after) :
    processes.next capacity' state t = some after := by
  cases next_cases taken with
  | write action fits =>
      exact next_write _ _ _ action (wider _ _ fits) rfl rfl rfl
  | read action first => exact next_read _ _ _ action first rfl rfl rfl

/-- Larger capacities allow every run. -/
theorem run_of_room
    {capacity' : ι → Option ℕ}
    (wider : ∀ i held, room (capacity i) held = true →
      room (capacity' i) held = true)
    {last : State τ ι α σ}
    {labels : List τ}
    (executed : (processes.machine capacity).run state labels = some last) :
    (processes.machine capacity').run state labels = some last := by
  induction labels generalizing state with
  | nil => exact executed
  | cons label labels inductionHypothesis =>
      obtain ⟨middle, taken, rest⟩ := Machine.run_cons_iff.mp executed
      exact Machine.run_cons_iff.mpr
        ⟨middle, next_of_room wider taken, inductionHypothesis rest⟩

/-- Without capacities every run of a network with capacities is possible. -/
theorem run_unbounded
    {last : State τ ι α σ}
    {labels : List τ}
    (executed : (processes.machine capacity).run state labels = some last) :
    (processes.machine fun _ => none).run state labels = some last :=
  run_of_room (fun _ _ _ => rfl) executed

/-- The items sent over a channel in two runs agree as far as both have come,
whatever the capacities are in either of them. -/
theorem histories_comparable
    {capacity' : ι → Option ℕ}
    {last last' : State τ ι α σ}
    {labels labels' : List τ}
    (executed : (processes.machine capacity).run processes.initial labels =
      some last)
    (executed' : (processes.machine capacity').run processes.initial labels' =
      some last')
    (i : ι) :
    last.sent i <+: last'.sent i ∨ last'.sent i <+: last.sent i :=
  (commutes processes fun _ => none).comparable
    (fun _ _ _ taken => sent_grows taken i)
    (run_unbounded executed) (run_unbounded executed')

end Processes
end Lpel
