import Lpel.Decen.Taskqueue
import Lpel.Lib.Machine

/-!
# A task queue as a deque with filtered removal

All sequences of operations on one queue, from `LpelTaskqueueInit` on.  Next to
the queue stands the list of tasks that it is to hold.

A call of `LpelTaskqueueIterateRemove` is one round after the other.  What the
callbacks do is up to the label of a round: `cond` gives any answer, and `action`
leaves any links behind, except that those of the tasks in this queue are as
before.
-/

namespace Lpel
namespace Decen

variable {τ : Type}

instance [DecidableEq τ] (after links : TaskLinks τ) (tasks : List τ) :
    Decidable (after.SameOn links tasks) :=
  inferInstanceAs (Decidable (∀ u ∈ tasks, _ ∧ _))

/-- A call of `LpelTaskqueueIterateRemove` in progress. -/
structure IterateCall (τ : Type) where
  cur : Option τ
  cntRemoved : ℕ
  /-- The tasks of the queue when the call began. -/
  before : List τ
  /-- The calls of `cond`, with their answers. -/
  tested : List (τ × Bool)
  /-- The calls of `action`, with `prev` and `next` of the task. -/
  acted : List (τ × Option τ × Option τ)

/-- A queue, the links of all tasks, and the tasks that it is to hold. -/
structure TaskDeque (τ : Type) where
  tq : Taskqueue τ
  links : TaskLinks τ
  tasks : List τ
  call : Option (IterateCall τ)

/-- The operations on the queue, and what the rest of the program does. -/
inductive DequeLabel (τ : Type)
  | push (t : τ)
  | pushFront (t : τ)
  | pop
  | popBack
  | iterateRemove
  /-- The loop body, with the answer of `cond` and the links behind `action`. -/
  | round (answer : Bool) (after : TaskLinks τ)
  | finish
  /-- Tasks that are not in the queue are linked otherwise. -/
  | others (after : TaskLinks τ)

/-- The tasks that `cond` did not hold for. -/
def keptTasks (tested : List (τ × Bool)) : List τ :=
  (tested.filter fun test => !test.2).map Prod.fst

/-- The tasks that `cond` held for. -/
def removedTasks (tested : List (τ × Bool)) : List τ :=
  (tested.filter fun test => test.2).map Prod.fst

/-- A call has tested the first tasks, and goes on to the others. -/
structure IterateCall.Running
    (call : IterateCall τ)
    (tasks todo : List τ) : Prop where
  before_eq : call.before = call.tested.map Prod.fst ++ todo
  cur_eq : call.cur = todo.head?
  tasks_eq : tasks = keptTasks call.tested ++ todo
  acted_eq : call.acted =
    (removedTasks call.tested).map fun t => (t, none, none)
  cntRemoved_eq : call.cntRemoved = (removedTasks call.tested).length

namespace TaskDeque

/-- The invariant of all sequences. -/
structure Held (s : TaskDeque τ) : Prop where
  holds : s.tq.Holds s.links s.tasks
  running : ∀ call, s.call = some call → ∃ todo, call.Running s.tasks todo

/-- Between two calls, the tasks alone are to be held. -/
theorem Held.idle
    {s : TaskDeque τ}
    (holds : s.tq.Holds s.links s.tasks)
    (idle : s.call = none) :
    s.Held where
  holds := holds
  running := by
    intro call calling
    rw [idle] at calling
    cases calling

variable [DecidableEq τ]

/-- The body of the loop in `LpelTaskqueueIterateRemove`, for the task `cur`. -/
def iterateRound
    (s : TaskDeque τ)
    (call : IterateCall τ)
    (cur : τ)
    (answer : Bool)
    (after : TaskLinks τ) : Option (TaskDeque τ) :=
  if answer then
    let (tq, links, next) := iterateRemoveUnlink s.tq s.links cur
    if after.SameOn links (s.tasks.erase cur) then
      some
        { tq := tq
          links := after
          tasks := s.tasks.erase cur
          call := some
            { call with
              cur := next
              cntRemoved := call.cntRemoved + 1
              tested := call.tested ++ [(cur, true)]
              acted := call.acted ++ [(cur, links.prev cur, links.next cur)] } }
    else
      none
  else
    some
      { s with
        call := some
          { call with
            cur := s.links.next cur
            tested := call.tested ++ [(cur, false)] } }

/-- A step, or `none` where it is not allowed or has no result. -/
def step (s : TaskDeque τ) : DequeLabel τ → Option (TaskDeque τ)
  | .push t =>
      if s.call.isNone ∧ t ∉ s.tasks then
        (lpelTaskqueuePush s.tq s.links t).map fun (tq, links) =>
          { s with
            tq := tq
            links := links
            tasks := s.tasks ++ [t] }
      else
        none
  | .pushFront t =>
      if s.call.isNone ∧ t ∉ s.tasks then
        (lpelTaskqueuePushFront s.tq s.links t).map fun (tq, links) =>
          { s with
            tq := tq
            links := links
            tasks := t :: s.tasks }
      else
        none
  | .pop =>
      if s.call.isNone then
        (lpelTaskqueuePop s.tq s.links).map fun (_, tq, links) =>
          { s with
            tq := tq
            links := links
            tasks := s.tasks.tail }
      else
        none
  | .popBack =>
      if s.call.isNone then
        (lpelTaskqueuePopBack s.tq s.links).map fun (_, tq, links) =>
          { s with
            tq := tq
            links := links
            tasks := s.tasks.dropLast }
      else
        none
  | .iterateRemove =>
      if s.call.isNone then
        some
          { s with
            call := some
              { cur := s.tq.head
                cntRemoved := 0
                before := s.tasks
                tested := []
                acted := [] } }
      else
        none
  | .round answer after =>
      s.call.bind fun call =>
        call.cur.bind fun cur => s.iterateRound call cur answer after
  | .finish =>
      s.call.bind fun call =>
        if call.cur.isNone then some { s with call := none } else none
  | .others after =>
      if after.SameOn s.links s.tasks then
        some { s with links := after }
      else
        none

end TaskDeque

variable [DecidableEq τ]

/-- All sequences of operations on one queue. -/
def dequeMachine (τ : Type) [DecidableEq τ] :
    Machine (TaskDeque τ) (DequeLabel τ) where
  init s := s.tq = lpelTaskqueueInit ∧ s.tasks = [] ∧ s.call = none
  next := TaskDeque.step

namespace TaskDeque

variable {s after : TaskDeque τ}

/-- A round tests one task, and removes it exactly if the answer is yes. -/
theorem Held.round
    {call : IterateCall τ}
    {cur : τ}
    {answer : Bool}
    {links : TaskLinks τ}
    (held : s.Held)
    (calling : s.call = some call)
    (current : call.cur = some cur)
    (taken : s.iterateRound call cur answer links = some after) :
    after.Held ∧ ∃ call', after.call = some call' ∧
      call'.before = call.before ∧
      call'.tested = call.tested ++ [(cur, answer)] := by
  obtain ⟨todo, running⟩ := held.running call calling
  have first := running.cur_eq
  rw [current] at first
  obtain ⟨todo, rfl⟩ := List.head?_eq_some_iff.mp first.symm
  have holds := held.holds
  have tasks_eq := running.tasks_eq
  rw [tasks_eq] at holds
  cases answer with
  | true =>
      obtain ⟨tq, links', unlinked, holds', free, -⟩ := holds.unlink
      have erased : s.tasks.erase cur = keptTasks call.tested ++ todo := by
        have nodup := holds.linked.nodup
        rw [List.nodup_middle, List.nodup_cons, List.mem_append, not_or] at nodup
        rw [tasks_eq, List.erase_append_right _ nodup.1.1, List.erase_cons_head]
      simp only [iterateRound, if_true, unlinked, erased,
        Option.ite_none_right_eq_some, Option.some.injEq] at taken
      obtain ⟨same, rfl⟩ := taken
      refine ⟨⟨holds'.ofSameOn same, ?_⟩, _, rfl, rfl, rfl⟩
      rintro _ ⟨⟩
      refine ⟨todo, ?_⟩
      constructor
      case before_eq =>
        rw [running.before_eq]
        simp
      case cur_eq => rfl
      case tasks_eq => simp [keptTasks]
      case acted_eq =>
        dsimp only
        rw [running.acted_eq, free.1, free.2]
        simp [removedTasks]
      case cntRemoved_eq =>
        dsimp only
        rw [running.cntRemoved_eq]
        simp [removedTasks]
  | false =>
      simp only [iterateRound, Bool.false_eq_true, if_false,
        Option.some.injEq] at taken
      subst taken
      refine ⟨⟨held.holds, ?_⟩, _, rfl, rfl, rfl⟩
      rintro _ ⟨⟩
      refine ⟨todo, ?_⟩
      constructor
      case before_eq =>
        rw [running.before_eq]
        simp
      case cur_eq => exact holds.linked.next_eq
      case tasks_eq =>
        rw [tasks_eq]
        simp [keptTasks]
      case acted_eq =>
        rw [running.acted_eq]
        simp [removedTasks]
      case cntRemoved_eq =>
        rw [running.cntRemoved_eq]
        simp [removedTasks]

/-- The effect of `LpelTaskqueuePop` on the tasks of the queue. -/
theorem pop_eq
    {tq : Taskqueue τ}
    {links : TaskLinks τ}
    {tasks : List τ}
    (holds : tq.Holds links tasks) :
    ∃ tq' links', lpelTaskqueuePop tq links = some (tasks.head?, tq', links') ∧
      tq'.Holds links' tasks.tail ∧ ∀ t ∈ tasks.head?, links'.Unlinked t := by
  cases tasks with
  | nil =>
      have head : tq.head = none := holds.linked.head_eq
      refine ⟨tq, links, ?_, holds, by simp⟩
      rw [lpelTaskqueuePop, head]
      rfl
  | cons t tasks =>
      obtain ⟨tq', links', result, holds', unlinked, -⟩ := holds.pop
      refine ⟨tq', links', result, holds', ?_⟩
      rintro _ ⟨⟩
      exact unlinked

/-- The effect of `LpelTaskqueuePopBack` on the tasks of the queue. -/
theorem popBack_eq
    {tq : Taskqueue τ}
    {links : TaskLinks τ}
    {tasks : List τ}
    (holds : tq.Holds links tasks) :
    ∃ tq' links',
      lpelTaskqueuePopBack tq links = some (tasks.getLast?, tq', links') ∧
      tq'.Holds links' tasks.dropLast ∧
      ∀ t ∈ tasks.getLast?, links'.Unlinked t := by
  cases tasks using List.reverseRecOn with
  | nil =>
      have tail : tq.tail = none := holds.linked.tail_eq
      refine ⟨tq, links, ?_, holds, by simp⟩
      rw [lpelTaskqueuePopBack, tail]
      rfl
  | append_singleton tasks t =>
      obtain ⟨tq', links', result, holds', unlinked, -⟩ := holds.popBack
      rw [List.getLast?_concat, List.dropLast_concat]
      refine ⟨tq', links', result, holds', ?_⟩
      rintro _ ⟨⟩
      exact unlinked

/-- Every step keeps the invariant. -/
theorem Held.step
    {label : DequeLabel τ}
    (held : s.Held)
    (taken : s.step label = some after) :
    after.Held := by
  have holds := held.holds
  cases label with
  | push t =>
      simp only [TaskDeque.step, Option.ite_none_right_eq_some,
        Option.map_eq_some_iff, Option.isNone_iff_eq_none] at taken
      obtain ⟨⟨idle, fresh⟩, ⟨tq, links⟩, pushed, rfl⟩ := taken
      have unlinked : s.links.Unlinked t := by
        by_contra linked
        rw [lpelTaskqueuePush, if_neg linked] at pushed
        cases pushed
      obtain ⟨tq', links', result, holds', -⟩ := holds.push fresh unlinked
      rw [result] at pushed
      obtain ⟨rfl, rfl⟩ := Prod.mk.inj (Option.some.inj pushed)
      exact .idle holds' idle
  | pushFront t =>
      simp only [TaskDeque.step, Option.ite_none_right_eq_some,
        Option.map_eq_some_iff, Option.isNone_iff_eq_none] at taken
      obtain ⟨⟨idle, fresh⟩, ⟨tq, links⟩, pushed, rfl⟩ := taken
      have unlinked : s.links.Unlinked t := by
        by_contra linked
        rw [lpelTaskqueuePushFront, if_neg linked] at pushed
        cases pushed
      obtain ⟨tq', links', result, holds', -⟩ := holds.pushFront fresh unlinked
      rw [result] at pushed
      obtain ⟨rfl, rfl⟩ := Prod.mk.inj (Option.some.inj pushed)
      exact .idle holds' idle
  | pop =>
      obtain ⟨tq', links', result, holds', -⟩ := pop_eq holds
      simp only [TaskDeque.step, result, Option.map_some,
        Option.ite_none_right_eq_some, Option.some.injEq,
        Option.isNone_iff_eq_none] at taken
      obtain ⟨idle, rfl⟩ := taken
      exact .idle holds' idle
  | popBack =>
      obtain ⟨tq', links', result, holds', -⟩ := popBack_eq holds
      simp only [TaskDeque.step, result, Option.map_some,
        Option.ite_none_right_eq_some, Option.some.injEq,
        Option.isNone_iff_eq_none] at taken
      obtain ⟨idle, rfl⟩ := taken
      exact .idle holds' idle
  | iterateRemove =>
      simp only [TaskDeque.step, Option.ite_none_right_eq_some,
        Option.some.injEq] at taken
      obtain ⟨-, rfl⟩ := taken
      refine ⟨holds, ?_⟩
      rintro _ ⟨⟩
      exact ⟨s.tasks, rfl, holds.linked.head_eq, rfl, rfl, rfl⟩
  | round answer links =>
      obtain ⟨call, calling, taken⟩ := Option.bind_eq_some_iff.mp taken
      obtain ⟨cur, current, taken⟩ := Option.bind_eq_some_iff.mp taken
      exact (held.round calling current taken).1
  | finish =>
      obtain ⟨call, -, taken⟩ := Option.bind_eq_some_iff.mp taken
      simp only [Option.ite_none_right_eq_some, Option.some.injEq] at taken
      obtain ⟨-, rfl⟩ := taken
      exact .idle holds rfl
  | others links =>
      simp only [TaskDeque.step, Option.ite_none_right_eq_some,
        Option.some.injEq] at taken
      obtain ⟨same, rfl⟩ := taken
      exact ⟨holds.ofSameOn same, held.running⟩

theorem Held.ofReachable
    (reached : (dequeMachine τ).Reachable s) :
    s.Held := by
  refine Machine.Reachable.invariant ?_ ?_ reached
  · rintro s ⟨empty, nothing, idle⟩
    refine .idle ⟨?_, ?_⟩ idle
    · rw [empty, nothing]
      exact DoublyLinked.empty _ _
    · rw [empty, nothing]
      rfl
  · intro s label after held taken
    exact held.step taken

/-- A round completes whatever the callbacks do to other tasks. -/
theorem round_isSome
    {call : IterateCall τ}
    {cur : τ}
    (calling : s.call = some call)
    (current : call.cur = some cur)
    (answer : Bool)
    (links : TaskLinks τ)
    (same : links.SameOn (iterateRemoveUnlink s.tq s.links cur).2.1
      (s.tasks.erase cur)) :
    (s.step (.round answer links)).isSome = true := by
  simp only [TaskDeque.step, calling, current, Option.bind_some, iterateRound]
  cases answer with
  | true => rw [if_pos rfl, if_pos same, Option.isSome_some]
  | false => rfl

/-- A call has at most one round for each task. -/
theorem Held.rounds_le
    {rounds : List (Bool × TaskLinks τ)}
    {call : IterateCall τ}
    (held : s.Held)
    (calling : s.call = some call)
    (taken : (dequeMachine τ).run s
      (rounds.map fun round => .round round.1 round.2) = some after) :
    rounds.length + call.tested.length ≤ call.before.length := by
  induction rounds generalizing s call with
  | nil =>
      obtain ⟨todo, running⟩ := held.running call calling
      rw [running.before_eq, List.length_append, List.length_map,
        List.length_nil]
      omega
  | cons round rounds inductionHypothesis =>
      obtain ⟨middle, first, rest⟩ := Option.bind_eq_some_iff.mp taken
      have stepped := first
      simp only [dequeMachine, TaskDeque.step, calling, Option.bind_some]
        at first
      obtain ⟨cur, current, first⟩ := Option.bind_eq_some_iff.mp first
      obtain ⟨held', call', calling', before, tested⟩ :=
        held.round calling current first
      have bound := inductionHypothesis held' calling' rest
      rw [before, tested, List.length_append, List.length_singleton] at bound
      rw [List.length_cons]
      omega

/-- What the queue and its operations are to be, for the tasks that the queue is
to hold. -/
structure Refines (s : TaskDeque τ) : Prop where
  holds : s.tq.Holds s.links s.tasks
  head_prev : ∀ t, s.tq.head = some t → s.links.prev t = none
  tail_next : ∀ t, s.tq.tail = some t → s.links.next t = none
  head_iff_tail : s.tq.head = none ↔ s.tq.tail = none
  push : ∀ t ∉ s.tasks, s.links.Unlinked t → ∃ tq' links',
    lpelTaskqueuePush s.tq s.links t = some (tq', links') ∧
    tq'.Holds links' (s.tasks ++ [t])
  pushFront : ∀ t ∉ s.tasks, s.links.Unlinked t → ∃ tq' links',
    lpelTaskqueuePushFront s.tq s.links t = some (tq', links') ∧
    tq'.Holds links' (t :: s.tasks)
  pop : ∃ tq' links',
    lpelTaskqueuePop s.tq s.links = some (s.tasks.head?, tq', links') ∧
    tq'.Holds links' s.tasks.tail ∧ ∀ t ∈ s.tasks.head?, links'.Unlinked t
  popBack : ∃ tq' links',
    lpelTaskqueuePopBack s.tq s.links = some (s.tasks.getLast?, tq', links') ∧
    tq'.Holds links' s.tasks.dropLast ∧
    ∀ t ∈ s.tasks.getLast?, links'.Unlinked t
  /-- A round completes. -/
  round : ∀ call cur, s.call = some call → call.cur = some cur →
    ∀ answer links, links.SameOn (iterateRemoveUnlink s.tq s.links cur).2.1
      (s.tasks.erase cur) → (s.step (.round answer links)).isSome = true
  /-- There are no more rounds than tasks. -/
  rounds_le : ∀ call, s.call = some call →
    ∀ (rounds : List (Bool × TaskLinks τ)) (after : TaskDeque τ),
    (dequeMachine τ).run s
      (rounds.map fun round => .round round.1 round.2) = some after →
    rounds.length + call.tested.length ≤ call.before.length
  running : ∀ call, s.call = some call → ∃ todo, call.Running s.tasks todo
  /-- Behind the loop, all tasks have been tested. -/
  returned : ∀ call, s.call = some call → call.cur = none →
    call.Running s.tasks []

end TaskDeque

/-- A task queue refines a deque with filtered removal. -/
theorem taskqueue_refines_deque
    {s : TaskDeque τ}
    (reached : (dequeMachine τ).Reachable s) :
    s.Refines := by
  have held := TaskDeque.Held.ofReachable reached
  have linked := held.holds.linked
  constructor
  case holds => exact held.holds
  case head_prev =>
    intro t head
    rw [linked.head_eq] at head
    obtain ⟨tasks, split⟩ := List.head?_eq_some_iff.mp head
    rw [split] at linked
    exact linked.prev_first
  case tail_next =>
    intro t tail
    rw [linked.tail_eq] at tail
    obtain ⟨tasks, split⟩ := List.getLast?_eq_some_iff.mp tail
    rw [split] at linked
    exact linked.next_eq
  case head_iff_tail =>
    rw [linked.head_eq, linked.tail_eq, List.head?_eq_none_iff,
      List.getLast?_eq_none_iff]
  case push =>
    intro t fresh unlinked
    obtain ⟨tq', links', result, holds', -⟩ := held.holds.push fresh unlinked
    exact ⟨tq', links', result, holds'⟩
  case pushFront =>
    intro t fresh unlinked
    obtain ⟨tq', links', result, holds', -⟩ :=
      held.holds.pushFront fresh unlinked
    exact ⟨tq', links', result, holds'⟩
  case pop => exact TaskDeque.pop_eq held.holds
  case popBack => exact TaskDeque.popBack_eq held.holds
  case round =>
    intro call cur calling current
    exact TaskDeque.round_isSome calling current
  case rounds_le =>
    intro call calling rounds after taken
    exact held.rounds_le calling taken
  case running => exact held.running
  case returned =>
    intro call calling finished
    obtain ⟨todo, running⟩ := held.running call calling
    have none := running.cur_eq
    rw [finished, eq_comm, List.head?_eq_none_iff] at none
    rwa [none] at running

/-- Links that are given by two lists of pairs. -/
def linksOfPairs (prev next : List (ℕ × ℕ)) : TaskLinks ℕ where
  prev t := prev.lookup t
  next t := next.lookup t

/-- Four tasks, of which the first and the last two are removed.  The action puts
the first two of these behind task 9, which is in another queue. -/
def threeRemoved : List (DequeLabel ℕ) :=
  [.push 0, .push 1, .push 2, .pushFront 3, .iterateRemove,
    .round true (linksOfPairs [(1, 0), (2, 1), (3, 9)]
      [(0, 1), (1, 2), (9, 3)]),
    .round false (linksOfPairs [] []),
    .round true (linksOfPairs [(2, 0), (3, 9), (1, 3)]
      [(0, 2), (9, 3), (3, 1)]),
    .round true (linksOfPairs [(3, 9), (1, 3)] [(9, 3), (3, 1)])]

/-- The only task that is left is taken from the back. -/
theorem taskqueue_refines_deque_threeRemoved :
    ∃ s : TaskDeque ℕ, (dequeMachine ℕ).Reachable s ∧ s.tasks = [0] ∧
      (∃ call, s.call = some call ∧ call.before = [3, 0, 1, 2] ∧
        call.cntRemoved = 3 ∧
        call.acted = [(3, none, none), (1, none, none), (2, none, none)]) ∧
      ∃ tq links, lpelTaskqueuePopBack s.tq s.links = some (some 0, tq, links) ∧
        tq.Holds links [] := by
  obtain ⟨s, reached, tested⟩ := Machine.exists_reachable_of_run
    (⟨rfl, rfl, rfl⟩ : (dequeMachine ℕ).init
      ⟨lpelTaskqueueInit, linksOfPairs [] [], [], none⟩)
    (by decide : ((dequeMachine ℕ).run
      ⟨lpelTaskqueueInit, linksOfPairs [] [], [], none⟩ threeRemoved).map
      (fun s => decide (s.tasks = [0] ∧ s.call.map IterateCall.cur = some none ∧
        s.call.map IterateCall.before = some [3, 0, 1, 2] ∧
        s.call.map IterateCall.tested =
          some [(3, true), (0, false), (1, true), (2, true)])) = some true)
  obtain ⟨tasks, cur, before, rounds⟩ := of_decide_eq_true tested
  have refines := taskqueue_refines_deque reached
  obtain ⟨call, calling, finished⟩ := Option.map_eq_some_iff.mp cur
  rw [calling, Option.map_some, Option.some.injEq] at before rounds
  have running := refines.returned call calling finished
  obtain ⟨tq, links, popped, holds, -⟩ := refines.popBack
  rw [tasks] at popped holds
  refine ⟨s, reached, tasks, ⟨call, calling, before, ?_, ?_⟩, tq, links, popped,
    holds⟩
  · rw [running.cntRemoved_eq, rounds]
    rfl
  · rw [running.acted_eq, rounds]
    rfl

end Decen
end Lpel
