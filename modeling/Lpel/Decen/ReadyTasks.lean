import Mathlib.Data.List.FinRange
import Lpel.Decen.Scheduler
import Lpel.Decen.Taskqueue
import Lpel.Lib.Machine

/-!
# The ready tasks of a worker

`decen_scheduler.c` on the task queues that it uses: one queue for each
priority, all of them linked through the same fields of the tasks.  The counts of
the queues steer the search for the next task.

The ready tasks are a stable priority queue: the next task is the one that was
made ready first among those of the highest priority.  The queues of lists that
the workers use are in between.
-/

namespace Lpel
namespace Decen

variable {τ : Type}

/-- `schedctx_t` with the fields of the tasks that it reads. -/
structure LinkedSched (τ : Type) where
  queue : Fin schedNumPrio → Taskqueue τ
  links : TaskLinks τ
  /-- `sched_info.prio`. -/
  prio : τ → ℤ

namespace LinkedSched

/-- `LpelSchedCreate`, and tasks that were created with any priorities. -/
def lpelSchedCreate (prio : τ → ℤ) : LinkedSched τ where
  queue := fun _ => lpelTaskqueueInit
  links :=
    { prev := fun _ => none
      next := fun _ => none }
  prio := prio

/-- `LpelSchedMakeReady`. -/
def lpelSchedMakeReady [DecidableEq τ] (sc : LinkedSched τ) (t : τ) :
    Option (LinkedSched τ) :=
  (lpelTaskqueuePush (sc.queue (clampPrio (sc.prio t))) sc.links t).map
    fun (tq, links) =>
      { sc with
        queue := Function.update sc.queue (clampPrio (sc.prio t)) tq
        links := links }

/-- `LpelSchedFetchReady`, with the task that it returns. -/
def lpelSchedFetchReady [DecidableEq τ] (sc : LinkedSched τ) :
    Option (Option τ × LinkedSched τ) :=
  match (List.finRange schedNumPrio).reverse.find? fun i =>
      0 < (sc.queue i).count with
  | none => some (none, sc)
  | some i =>
      (lpelTaskqueuePop (sc.queue i) sc.links).map fun (t, tq, links) =>
        (t,
          { sc with
            queue := Function.update sc.queue i tq
            links := links })

end LinkedSched

/-- A scheduler with the tasks that were made ready and not returned since. -/
structure ReadyTasks (τ : Type) where
  sc : LinkedSched τ
  /-- History: the ready tasks with their queues, in the order in which they were
  made ready. -/
  ready : List (τ × Fin schedNumPrio)
  /-- What the last call of `LpelSchedFetchReady` returned. -/
  fetched : Option τ

/-- The calls of the scheduler. -/
inductive ReadyLabel (τ : Type)
  | makeReady (t : τ)
  | fetchReady
  | setPriority (t : τ) (prio : ℤ)

namespace ReadyTasks

/-- The tasks that are queued. -/
def tasks (ready : ReadyTasks τ) : List τ :=
  ready.ready.map Prod.fst

/-- The queues as lists. -/
def queues (ready : ReadyTasks τ) : Schedctx τ where
  queue := fun i =>
    (ready.ready.filter fun entry => entry.2 = i).map Prod.fst

end ReadyTasks

/-- One call.  A task is made ready, and gets another priority, only while it is
not queued. -/
def readyNext [DecidableEq τ] (ready : ReadyTasks τ) :
    ReadyLabel τ → Option (ReadyTasks τ)
  | .makeReady t =>
      if t ∈ ready.tasks then
        none
      else
        (ready.sc.lpelSchedMakeReady t).map fun sc =>
          { ready with
            sc := sc
            ready := ready.ready ++ [(t, clampPrio (ready.sc.prio t))] }
  | .fetchReady =>
      ready.sc.lpelSchedFetchReady.map fun (t, sc) =>
        { sc := sc
          ready := ready.ready.filter fun entry => some entry.1 ≠ t
          fetched := t }
  | .setPriority t prio =>
      if t ∈ ready.tasks then
        none
      else
        some { ready with
          sc := { ready.sc with
            prio := Function.update ready.sc.prio t prio } }

/-- All sequences of calls from `LpelSchedCreate` on. -/
def readyMachine (τ : Type) [DecidableEq τ] :
    Machine (ReadyTasks τ) (ReadyLabel τ) where
  init := fun ready => ∃ prio,
    ready =
      { sc := LinkedSched.lpelSchedCreate prio
        ready := []
        fetched := none }
  next := readyNext

/-- The task is the first one of the highest priority, and it is taken out. -/
def StableFetch
    (ready : List (τ × Fin schedNumPrio))
    (fetched : Option τ)
    (after : List (τ × Fin schedNumPrio)) : Prop :=
  match fetched with
  | none => ready = [] ∧ after = []
  | some t => ∃ left right i,
      ready = left ++ (t, i) :: right ∧ after = left ++ right ∧
      (∀ entry ∈ left, entry.2 < i) ∧ ∀ entry ∈ right, entry.2 ≤ i

/-- The search from the highest priority down finds the highest one. -/
theorem find_highest
    {n : ℕ}
    {test : Fin n → Bool}
    {i : Fin n}
    (found : (List.finRange n).reverse.find? test = some i) :
    test i = true ∧ ∀ j, i < j → test j = false := by
  obtain ⟨passes, higher, lower, split_, others⟩ :=
    List.find?_eq_some_iff_append.mp found
  refine ⟨passes, ?_⟩
  intro j above
  have decreasing : (List.finRange n).reverse.Pairwise (· > ·) := by
    rw [List.pairwise_reverse]
    exact List.pairwise_lt_finRange n
  have member : j ∈ (List.finRange n).reverse := by simp
  rw [split_] at decreasing member
  rw [List.pairwise_append, List.pairwise_cons] at decreasing
  simp only [List.mem_append, List.mem_cons] at member
  rcases member with before | rfl | behind
  · simpa using others j before
  · exact absurd above (lt_irrefl _)
  · exact absurd (decreasing.2.1.1 j behind) (not_lt_of_gt above)

namespace ReadyTasks

/-- The queues are doubly linked lists of the ready tasks, in their order. -/
structure Linked (ready : ReadyTasks τ) : Prop where
  holds : ∀ i, (ready.sc.queue i).Holds ready.sc.links (ready.queues.queue i)
  nodup : ready.tasks.Nodup
  /-- A task that is not queued can be queued. -/
  unlinked : ∀ t ∉ ready.tasks, ready.sc.links.Unlinked t

variable {ready after : ReadyTasks τ} {t : τ} {i : Fin schedNumPrio}

/-- A queued task is in the queue that it was put into. -/
theorem mem_queue : t ∈ ready.queues.queue i ↔ (t, i) ∈ ready.ready := by
  simp [queues]

/-- A queued task is in no other queue. -/
theorem Linked.queue_eq
    (linked : ready.Linked)
    {j : Fin schedNumPrio}
    (here : t ∈ ready.queues.queue i)
    (there : t ∈ ready.queues.queue j) :
    i = j := by
  rw [mem_queue] at here there
  have same := List.inj_on_of_nodup_map linked.nodup here there rfl
  exact (Prod.mk.inj same).2

/-- A queue has tasks exactly if its count says so. -/
theorem Linked.count_pos_iff
    (linked : ready.Linked) :
    (0 < (ready.sc.queue i).count) ↔ ready.queues.queue i ≠ [] := by
  rw [(linked.holds i).count_eq, List.length_pos_iff]

/-- The search by the counts is the search for a queue that is not empty. -/
theorem Linked.search_eq
    (linked : ready.Linked) :
    (fun i => decide (0 < (ready.sc.queue i).count)) =
      fun i => !(ready.queues.queue i).isEmpty := by
  funext i
  rw [Bool.eq_iff_iff, decide_eq_true_eq, linked.count_pos_iff]
  simp

variable [DecidableEq τ]

/-- The first task of the highest queue that is not empty. -/
theorem stableFetch_of_highest
    {rest : List τ}
    (nodup : ready.tasks.Nodup)
    (queue : ready.queues.queue i = t :: rest)
    (higher : ∀ j, i < j → ready.queues.queue j = []) :
    ∃ left right,
      ready.ready = left ++ (t, i) :: right ∧
      (ready.ready.filter fun entry => some entry.1 ≠ some t) = left ++ right ∧
      (∀ entry ∈ left, entry.2 < i) ∧ ∀ entry ∈ right, entry.2 ≤ i := by
  obtain ⟨entry, others, filtered, first, -⟩ := List.map_eq_cons_iff.mp queue
  obtain ⟨left, right, split_, before, passes, -⟩ :=
    List.filter_eq_cons_iff.mp filtered
  have entry_eq : entry = (t, i) :=
    Prod.ext first (by simpa using passes)
  subst entry_eq
  have atMost {other : τ × Fin schedNumPrio} (member : other ∈ ready.ready) :
      other.2 ≤ i := by
    by_contra above
    have empty := higher other.2 (not_le.mp above)
    have inside : other.1 ∈ ready.queues.queue other.2 :=
      mem_queue.mpr member
    rw [empty] at inside
    cases inside
  refine ⟨left, right, split_, ?_, ?_, ?_⟩
  · have distinct : ∀ other ∈ left ++ right, other.1 ≠ t := by
      have nodup' := nodup
      rw [tasks, split_, List.map_append, List.map_cons,
        List.nodup_middle, List.nodup_cons] at nodup'
      intro other member same
      apply nodup'.1
      rw [← List.map_append]
      exact List.mem_map.mpr ⟨other, member, same⟩
    rw [split_, List.filter_append, List.filter_cons_of_neg (by simp),
      ← List.filter_append, List.filter_eq_self]
    intro other member
    simpa using distinct other member
  · intro other member
    have below := atMost (split_ ▸ List.mem_append_left _ member)
    have different : other.2 ≠ i := by simpa using before other member
    exact lt_of_le_of_ne below different
  · intro other member
    exact atMost (split_ ▸
      List.mem_append_right _ (List.mem_cons_of_mem _ member))

/-- `LpelSchedMakeReady` of a task that is not queued. -/
theorem Linked.makeReady
    (linked : ready.Linked)
    (unqueued : t ∉ ready.tasks) :
    ∃ after, readyNext ready (.makeReady t) = some after ∧ after.Linked ∧
      after.ready = ready.ready ++ [(t, clampPrio (ready.sc.prio t))] ∧
      after.queues =
        lpelSchedMakeReady ready.queues (ready.sc.prio t) t := by
  generalize clamped : clampPrio (ready.sc.prio t) = i
  have outside (j : Fin schedNumPrio) : t ∉ ready.queues.queue j := by
    intro member
    exact unqueued (List.mem_map_of_mem (mem_queue.mp member))
  obtain ⟨tq, links, pushed, holds, same⟩ := (linked.holds i).push (outside i)
    (linked.unlinked t unqueued)
  let after : ReadyTasks τ :=
    { ready with
      sc := { ready.sc with
        queue := Function.update ready.sc.queue i tq
        links := links }
      ready := ready.ready ++ [(t, i)] }
  have queue_self : after.queues.queue i = ready.queues.queue i ++ [t] := by
    simp [after, queues]
  have queue_other {j : Fin schedNumPrio} (different : j ≠ i) :
      after.queues.queue j = ready.queues.queue j := by
    simp [after, queues, different.symm]
  refine ⟨after, ?_, ⟨?_, ?_, ?_⟩, rfl, ?_⟩
  · simp only [readyNext, if_neg unqueued, LinkedSched.lpelSchedMakeReady,
      clamped, pushed, Option.map_some]
    rfl
  · intro j
    by_cases at_ : j = i
    · subst at_
      rw [queue_self]
      simpa [after] using holds
    · rw [queue_other at_]
      simp only [after, Function.update_of_ne at_]
      apply (linked.holds j).congr same
      intro u member there
      rw [List.mem_append, List.mem_singleton] at there
      rcases there with there | rfl
      · exact at_ (linked.queue_eq member there)
      · exact outside j member
  · simp only [after, tasks, List.map_append, List.map_cons, List.map_nil]
    refine List.nodup_append.mpr
      ⟨linked.nodup, List.nodup_singleton t, ?_⟩
    rintro u member v single rfl
    rw [List.mem_singleton] at single
    exact unqueued (single ▸ member)
  · intro u unqueued'
    simp only [after, tasks, List.map_append, List.map_cons, List.map_nil,
      List.mem_append, List.mem_singleton, not_or] at unqueued'
    have outside' : u ∉ ready.queues.queue i ++ [t] := by
      rw [List.mem_append, List.mem_singleton, not_or]
      refine ⟨?_, unqueued'.2⟩
      intro member
      exact unqueued'.1 (List.mem_map_of_mem (mem_queue.mp member))
    obtain ⟨prev, next⟩ := same u outside'
    exact ⟨prev.trans (linked.unlinked u unqueued'.1).1,
      next.trans (linked.unlinked u unqueued'.1).2⟩
  · have queue_eq : after.queues.queue = Function.update ready.queues.queue i
        (ready.queues.queue i ++ [t]) := by
      funext j
      by_cases at_ : j = i
      · subst at_
        rw [queue_self, Function.update_self]
      · rw [queue_other at_, Function.update_of_ne at_]
    rw [lpelSchedMakeReady, clamped, ← queue_eq]

/-- `LpelSchedFetchReady` finds no task. -/
theorem Linked.fetchNone
    (linked : ready.Linked)
    (empty : ready.ready = []) :
    readyNext ready .fetchReady =
      some { ready with ready := [], fetched := none } := by
  have none_ : (List.finRange schedNumPrio).reverse.find?
      (fun i => 0 < (ready.sc.queue i).count) = none := by
    rw [List.find?_eq_none]
    intro i _
    rw [decide_eq_true_eq, linked.count_pos_iff, not_not]
    simp [queues, empty]
  simp only [readyNext, LinkedSched.lpelSchedFetchReady, none_, Option.map_some]
  simp [empty]

/-- `LpelSchedFetchReady` takes the first task of the highest queue that is not
empty. -/
theorem Linked.fetchSome
    (linked : ready.Linked)
    (found : (List.finRange schedNumPrio).reverse.find?
      (fun i => 0 < (ready.sc.queue i).count) = some i) :
    ∃ t after, readyNext ready .fetchReady = some after ∧ after.Linked ∧
      after.fetched = some t ∧ after.sc.links.Unlinked t ∧
      StableFetch ready.ready (some t) after.ready ∧
      lpelSchedFetchReady ready.queues = (some t, after.queues) := by
  obtain ⟨counted, others⟩ := find_highest found
  rw [decide_eq_true_eq, linked.count_pos_iff] at counted
  have higher (j : Fin schedNumPrio) (above : i < j) :
      ready.queues.queue j = [] := by
    have uncounted := others j above
    rw [decide_eq_false_iff_not, linked.count_pos_iff, not_not] at uncounted
    exact uncounted
  obtain ⟨t, rest, queue⟩ := List.exists_cons_of_ne_nil counted
  have holds := linked.holds i
  rw [queue] at holds
  obtain ⟨tq, links, popped, holds', unlinked, same⟩ := holds.pop
  obtain ⟨left, right, split_, filtered, lower, atMost⟩ :=
    stableFetch_of_highest linked.nodup queue higher
  let after : ReadyTasks τ :=
    { sc := { ready.sc with
        queue := Function.update ready.sc.queue i tq
        links := links }
      ready := left ++ right
      fetched := some t }
  have queue_self : after.queues.queue i = rest := by
    have whole : ready.queues.queue i = t :: after.queues.queue i := by
      have none_ : (left.filter fun entry => decide (entry.2 = i)) = [] := by
        rw [List.filter_eq_nil_iff]
        intro entry member
        simpa using (lower entry member).ne
      simp [after, queues, split_, none_]
    rw [queue] at whole
    exact (List.cons.inj whole).2.symm
  have queue_other {j : Fin schedNumPrio} (different : j ≠ i) :
      after.queues.queue j = ready.queues.queue j := by
    simp [after, queues, split_, different.symm]
  refine ⟨t, after, ?_, ⟨?_, ?_, ?_⟩, rfl, unlinked,
    ⟨left, right, i, split_, rfl, lower, atMost⟩, ?_⟩
  · simp only [readyNext, LinkedSched.lpelSchedFetchReady, found, popped,
      Option.map_some, filtered]
    rfl
  · intro j
    by_cases at_ : j = i
    · subst at_
      rw [queue_self]
      simpa [after] using holds'
    · rw [queue_other at_]
      simp only [after, Function.update_of_ne at_]
      apply (linked.holds j).congr same
      intro u member there
      rw [← queue] at there
      exact at_ (linked.queue_eq member there)
  · have nodup := linked.nodup
    rw [tasks, split_, List.map_append, List.map_cons, List.nodup_middle,
      List.nodup_cons, ← List.map_append] at nodup
    exact nodup.2
  · intro u unqueued
    by_cases fetched : u = t
    · subst fetched
      exact unlinked
    · have unqueued' : u ∉ ready.tasks := by
        simp only [after, tasks, split_, List.map_append, List.map_cons,
          List.mem_append, List.mem_cons, not_or] at unqueued ⊢
        exact ⟨unqueued.1, fetched, unqueued.2⟩
      have outside : u ∉ t :: rest := by
        rw [← queue]
        intro member
        exact unqueued' (List.mem_map_of_mem (mem_queue.mp member))
      obtain ⟨prev, next⟩ := same u outside
      exact ⟨prev.trans (linked.unlinked u unqueued').1,
        next.trans (linked.unlinked u unqueued').2⟩
  · have queue_eq : after.queues.queue =
        Function.update ready.queues.queue i rest := by
      funext j
      by_cases at_ : j = i
      · subst at_
        rw [queue_self, Function.update_self]
      · rw [queue_other at_, Function.update_of_ne at_]
    rw [linked.search_eq] at found
    simp only [lpelSchedFetchReady, found, queue, List.head?_cons,
      List.tail_cons, ← queue_eq]

/-- `LpelTaskSetPriority` of a task that is not queued. -/
theorem Linked.setPriority
    (linked : ready.Linked)
    (prio : ℤ) :
    { ready with
      sc := { ready.sc with
        prio := Function.update ready.sc.prio t prio } }.Linked :=
  ⟨linked.holds, linked.nodup, linked.unlinked⟩

/-- A call keeps the queues linked. -/
theorem Linked.step
    {label : ReadyLabel τ}
    (linked : ready.Linked)
    (taken : readyNext ready label = some after) :
    after.Linked := by
  cases label with
  | makeReady t =>
      by_cases queued : t ∈ ready.tasks
      · simp [readyNext, queued] at taken
      · obtain ⟨_, taken', kept, -⟩ := linked.makeReady queued
        obtain rfl := Option.some.inj (taken.symm.trans taken')
        exact kept
  | fetchReady =>
      cases found : (List.finRange schedNumPrio).reverse.find?
          (fun i => 0 < (ready.sc.queue i).count) with
      | none =>
          simp only [readyNext, LinkedSched.lpelSchedFetchReady, found,
            Option.map_some, Option.some.injEq] at taken
          obtain rfl := taken
          have all : (ready.ready.filter fun entry => some entry.1 ≠ none) =
              ready.ready := by simp
          rw [all]
          exact ⟨linked.holds, linked.nodup, linked.unlinked⟩
      | some i =>
          obtain ⟨_, _, taken', kept, -⟩ := linked.fetchSome found
          obtain rfl := Option.some.inj (taken.symm.trans taken')
          exact kept
  | setPriority t prio =>
      simp only [readyNext, Option.ite_none_left_eq_some,
        Option.some.injEq] at taken
      obtain ⟨-, rfl⟩ := taken
      exact linked.setPriority prio

/-- The queues are linked after every sequence of calls. -/
theorem Linked.ofReachable
    (reached : (readyMachine τ).Reachable ready) :
    ready.Linked := by
  refine Machine.Reachable.invariant ?_ ?_ reached
  · rintro _ ⟨prio, rfl⟩
    refine ⟨?_, List.nodup_nil, ?_⟩
    · exact fun _ => ⟨DoublyLinked.empty _ _, rfl⟩
    · exact fun _ _ => ⟨rfl, rfl⟩
  · exact fun _ _ _ linked taken => linked.step taken

/-- What a call does to the queues of lists that the workers use. -/
def listsNext (ready : ReadyTasks τ) : ReadyLabel τ → Option τ × Schedctx τ
  | .makeReady t =>
      (ready.fetched, lpelSchedMakeReady ready.queues (ready.sc.prio t) t)
  | .fetchReady => lpelSchedFetchReady ready.queues
  | .setPriority _ _ => (ready.fetched, ready.queues)

/-- The linked queues refine the queues of lists. -/
theorem Linked.refines
    {label : ReadyLabel τ}
    (linked : ready.Linked)
    (taken : readyNext ready label = some after) :
    listsNext ready label = (after.fetched, after.queues) := by
  cases label with
  | makeReady t =>
      by_cases queued : t ∈ ready.tasks
      · simp [readyNext, queued] at taken
      · obtain ⟨_, taken', -, -, queues⟩ := linked.makeReady queued
        have same : after.fetched = ready.fetched := by
          simp only [readyNext, if_neg queued, Option.map_eq_some_iff] at taken
          obtain ⟨_, -, rfl⟩ := taken
          rfl
        obtain rfl := Option.some.inj (taken.symm.trans taken')
        rw [listsNext, queues, same]
  | fetchReady =>
      cases found : (List.finRange schedNumPrio).reverse.find?
          (fun i => 0 < (ready.sc.queue i).count) with
      | none =>
          simp only [readyNext, LinkedSched.lpelSchedFetchReady, found,
            Option.map_some, Option.some.injEq] at taken
          obtain rfl := taken
          rw [linked.search_eq] at found
          simp only [listsNext, lpelSchedFetchReady, found]
          simp [queues]
      | some i =>
          obtain ⟨t, _, taken', -, fetched, -, -, lists⟩ :=
            linked.fetchSome found
          obtain rfl := Option.some.inj (taken.symm.trans taken')
          rw [listsNext, lists, fetched]
  | setPriority t prio =>
      simp only [readyNext, Option.ite_none_left_eq_some,
        Option.some.injEq] at taken
      obtain ⟨-, rfl⟩ := taken
      rfl

end ReadyTasks

end Decen
end Lpel
