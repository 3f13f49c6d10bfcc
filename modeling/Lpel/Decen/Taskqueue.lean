import Lpel.Lib.DoublyLinked

/-!
# Task queues of the decentralised back end

`decen_taskqueue.c`: a doubly linked list through the `prev` and `next` fields of
the tasks, with its head, its tail and the number of its tasks.  Tasks are put in
at the tail and taken from the head.

The fields of the tasks are shared by all queues.  An operation fails, and
returns `none`, where an assertion does not hold or `NULL` is dereferenced.
-/

namespace Lpel
namespace Decen

variable {τ : Type}

/-- The fields `prev` and `next` of all tasks. -/
structure TaskLinks (τ : Type) where
  prev : τ → Option τ
  next : τ → Option τ

/-- `taskqueue_t`. -/
structure Taskqueue (τ : Type) where
  head : Option τ
  tail : Option τ
  count : ℕ

/-- `t->prev==NULL && t->next==NULL`. -/
def TaskLinks.Unlinked (links : TaskLinks τ) (t : τ) : Prop :=
  links.prev t = none ∧ links.next t = none

instance [DecidableEq τ] (links : TaskLinks τ) (t : τ) :
    Decidable (links.Unlinked t) :=
  inferInstanceAs (Decidable (_ ∧ _))

/-- `LpelTaskqueueInit`. -/
def lpelTaskqueueInit : Taskqueue τ where
  head := none
  tail := none
  count := 0

/-- The queue holds the tasks, oldest first. -/
structure Taskqueue.Holds
    (tq : Taskqueue τ)
    (links : TaskLinks τ)
    (tasks : List τ) : Prop where
  linked : DoublyLinked links.prev links.next tq.head tq.tail tasks
  count_eq : tq.count = tasks.length

/-- The tasks of a list have the links that they had before. -/
def TaskLinks.SameOn (after links : TaskLinks τ) (tasks : List τ) : Prop :=
  ∀ u ∈ tasks, after.prev u = links.prev u ∧ after.next u = links.next u

/-- The tasks outside of a list have the links that they had before. -/
def TaskLinks.SameOutside (after links : TaskLinks τ) (tasks : List τ) : Prop :=
  ∀ u ∉ tasks, after.prev u = links.prev u ∧ after.next u = links.next u

/-- Only the links of its tasks matter for a queue. -/
theorem Taskqueue.Holds.congr
    {tq : Taskqueue τ}
    {links after : TaskLinks τ}
    {tasks others : List τ}
    (holds : tq.Holds links tasks)
    (same : after.SameOutside links others)
    (apart : ∀ u ∈ tasks, u ∉ others) :
    tq.Holds after tasks where
  linked := holds.linked.congr
    (fun u member => (same u (apart u member)).1)
    (fun u member => (same u (apart u member)).2)
  count_eq := holds.count_eq

theorem Taskqueue.Holds.ofSameOn
    {tq : Taskqueue τ}
    {links after : TaskLinks τ}
    {tasks : List τ}
    (holds : tq.Holds links tasks)
    (same : after.SameOn links tasks) :
    tq.Holds after tasks where
  linked := holds.linked.congr (fun u member => (same u member).1)
    (fun u member => (same u member).2)
  count_eq := holds.count_eq

/-- The links with their directions exchanged. -/
def TaskLinks.mirror (links : TaskLinks τ) : TaskLinks τ where
  prev := links.next
  next := links.prev

/-- The queue with its ends exchanged. -/
def Taskqueue.mirror (tq : Taskqueue τ) : Taskqueue τ where
  head := tq.tail
  tail := tq.head
  count := tq.count

/-- The queue holds the same tasks from its other end. -/
theorem Taskqueue.Holds.mirror
    {tq : Taskqueue τ}
    {links : TaskLinks τ}
    {tasks : List τ}
    (holds : tq.Holds links tasks) :
    tq.mirror.Holds links.mirror tasks.reverse where
  linked := holds.linked.reverse
  count_eq := by
    rw [List.length_reverse]
    exact holds.count_eq

theorem TaskLinks.unlinked_mirror (links : TaskLinks τ) (t : τ) :
    links.mirror.Unlinked t ↔ links.Unlinked t :=
  and_comm

variable [DecidableEq τ]

/-- `LpelTaskqueuePush`. -/
def lpelTaskqueuePush (tq : Taskqueue τ) (links : TaskLinks τ) (t : τ) :
    Option (Taskqueue τ × TaskLinks τ) :=
  if links.Unlinked t then
    match tq.head with
    | none =>
        some
          ({ head := some t
             tail := some t
             count := tq.count + 1 },
            links)
    | some _ =>
        tq.tail.map fun last =>
          ({ tq with
             tail := some t
             count := tq.count + 1 },
            { prev := Function.update links.prev t (some last)
              next := Function.update links.next last (some t) })
  else
    none

/-- `LpelTaskqueuePop`, with the task that it returns. -/
def lpelTaskqueuePop (tq : Taskqueue τ) (links : TaskLinks τ) :
    Option (Option τ × Taskqueue τ × TaskLinks τ) :=
  match tq.head with
  | none => some (none, tq, links)
  | some t =>
      let popped : Taskqueue τ × TaskLinks τ :=
        match links.next t with
        | none =>
            ({ head := none
               tail := none
               count := tq.count - 1 },
              links)
        | some second =>
            ({ tq with
               head := some second
               count := tq.count - 1 },
              { prev := Function.update links.prev second none
                next := Function.update links.next t none })
      if popped.2.Unlinked t then some (some t, popped) else none

/-- `LpelTaskqueuePushFront`. -/
def lpelTaskqueuePushFront (tq : Taskqueue τ) (links : TaskLinks τ) (t : τ) :
    Option (Taskqueue τ × TaskLinks τ) :=
  if links.Unlinked t then
    match tq.tail with
    | none =>
        some
          ({ head := some t
             tail := some t
             count := tq.count + 1 },
            links)
    | some _ =>
        tq.head.map fun first =>
          ({ tq with
             head := some t
             count := tq.count + 1 },
            { prev := Function.update links.prev first (some t)
              next := Function.update links.next t (some first) })
  else
    none

/-- `LpelTaskqueuePopBack`, with the task that it returns. -/
def lpelTaskqueuePopBack (tq : Taskqueue τ) (links : TaskLinks τ) :
    Option (Option τ × Taskqueue τ × TaskLinks τ) :=
  match tq.tail with
  | none => some (none, tq, links)
  | some t =>
      let popped : Taskqueue τ × TaskLinks τ :=
        match links.prev t with
        | none =>
            ({ head := none
               tail := none
               count := tq.count - 1 },
              links)
        | some second =>
            ({ tq with
               tail := some second
               count := tq.count - 1 },
              { prev := Function.update links.prev t none
                next := Function.update links.next second none })
      if popped.2.Unlinked t then some (some t, popped) else none

/-- The statements of `LpelTaskqueueIterateRemove` that unlink a task, with the
next value of `cur`. -/
def iterateRemoveUnlink (tq : Taskqueue τ) (links : TaskLinks τ) (cur : τ) :
    Taskqueue τ × TaskLinks τ × Option τ :=
  let (tq, links) :=
    match links.prev cur with
    | some before =>
        (tq,
          { links with
            next := Function.update links.next before (links.next cur) })
    | none => ({ tq with head := links.next cur }, links)
  let (tq, links) :=
    match links.next cur with
    | some behind =>
        (tq,
          { links with
            prev := Function.update links.prev behind (links.prev cur) })
    | none => ({ tq with tail := links.prev cur }, links)
  ({ tq with count := tq.count - 1 },
    { prev := Function.update links.prev cur none
      next := Function.update links.next cur none },
    links.next cur)

/-! ## The other end of the queue -/

/-- `LpelTaskqueuePushFront` is `LpelTaskqueuePush` at the other end. -/
theorem pushFront_eq_mirror (tq : Taskqueue τ) (links : TaskLinks τ) (t : τ) :
    lpelTaskqueuePushFront tq links t =
      (lpelTaskqueuePush tq.mirror links.mirror t).map fun (tq, links) =>
        (tq.mirror, links.mirror) := by
  rw [lpelTaskqueuePushFront, lpelTaskqueuePush]
  simp only [TaskLinks.unlinked_mirror]
  split
  · cases tail : tq.tail with
    | none => simp [Taskqueue.mirror, TaskLinks.mirror, tail]
    | some last =>
        cases head : tq.head <;>
          simp [Taskqueue.mirror, TaskLinks.mirror, tail, head]
  · rfl

/-- `LpelTaskqueuePopBack` is `LpelTaskqueuePop` at the other end. -/
theorem popBack_eq_mirror (tq : Taskqueue τ) (links : TaskLinks τ) :
    lpelTaskqueuePopBack tq links =
      (lpelTaskqueuePop tq.mirror links.mirror).map fun (t, tq, links) =>
        (t, tq.mirror, links.mirror) := by
  rw [lpelTaskqueuePopBack, lpelTaskqueuePop]
  cases tail : tq.tail with
  | none =>
      simp only [Taskqueue.mirror, TaskLinks.mirror, tail, Option.map_some]
      rw [← tail]
  | some t =>
      cases before : links.prev t with
      | none =>
          simp only [Taskqueue.mirror, TaskLinks.mirror, tail, before,
            TaskLinks.Unlinked, and_comm]
          split <;> rfl
      | some second =>
          simp only [Taskqueue.mirror, TaskLinks.mirror, tail, before,
            TaskLinks.Unlinked, and_comm]
          split <;> rfl

namespace Taskqueue.Holds

variable {tq : Taskqueue τ} {links : TaskLinks τ} {tasks : List τ} {t : τ}

/-- `LpelTaskqueuePush` appends a task that is in no queue. -/
theorem push
    (holds : tq.Holds links tasks)
    (fresh : t ∉ tasks)
    (unlinked : links.Unlinked t) :
    ∃ tq' links', lpelTaskqueuePush tq links t = some (tq', links') ∧
      tq'.Holds links' (tasks ++ [t]) ∧
      links'.SameOutside links (tasks ++ [t]) := by
  have linked := holds.linked
  cases first : tq.head with
  | none =>
      rw [first] at linked
      obtain rfl := linked.forward.nodes_eq_nil
      refine ⟨{ head := some t, tail := some t, count := tq.count + 1 }, links,
        ?_, ⟨?_, ?_⟩, fun _ _ => ⟨rfl, rfl⟩⟩
      · rw [lpelTaskqueuePush, if_pos unlinked, first]
      · exact DoublyLinked.single unlinked.1 unlinked.2
      · simp [holds.count_eq]
  | some head =>
      have nonempty : tasks ≠ [] := by
        rintro rfl
        exact absurd (first.symm.trans linked.head_eq) (by simp)
      obtain ⟨left, last, rfl⟩ := List.eq_nil_or_concat tasks |>.resolve_left
        nonempty
      have tail : tq.tail = some last := by
        rw [linked.tail_eq]
        simp
      rw [tail] at linked
      refine ⟨{ tq with tail := some t, count := tq.count + 1 },
        { prev := Function.update links.prev t (some last)
          next := Function.update links.next last (some t) },
        ?_, ⟨linked.append fresh unlinked.2, ?_⟩, ?_⟩
      · rw [lpelTaskqueuePush, if_pos unlinked, first, tail]
        rfl
      · simp [holds.count_eq]
      · intro u outside
        simp only [List.concat_eq_append, List.mem_append, List.mem_singleton,
          not_or] at outside
        exact ⟨Function.update_of_ne outside.2 ..,
          Function.update_of_ne outside.1.2 ..⟩

/-- `LpelTaskqueuePop` takes the oldest task, which is in no queue then. -/
theorem pop
    (holds : tq.Holds links (t :: tasks)) :
    ∃ tq' links', lpelTaskqueuePop tq links = some (some t, tq', links') ∧
      tq'.Holds links' tasks ∧ links'.Unlinked t ∧
      links'.SameOutside links (t :: tasks) := by
  have linked := holds.linked
  have first : tq.head = some t := linked.head_eq
  have before : links.prev t = none := linked.prev_first
  rw [first] at linked
  have count : tq.count - 1 = tasks.length := by
    rw [holds.count_eq, List.length_cons, Nat.add_sub_cancel]
  cases behind : links.next t with
  | none =>
      obtain rfl : tasks = [] := by simpa using linked.popSingle behind
      refine ⟨{ head := none, tail := none, count := tq.count - 1 }, links, ?_,
        ⟨DoublyLinked.empty _ _, count⟩, ⟨before, behind⟩,
        fun _ _ => ⟨rfl, rfl⟩⟩
      · simp only [lpelTaskqueuePop, first, behind]
        rw [if_pos ⟨before, behind⟩]
  | some second =>
      obtain ⟨rest, same, popped⟩ := linked.popFirst behind
      obtain rfl : tasks = rest := by simpa using same
      have member : second ∈ tasks := by
        have head := popped.head_eq
        exact List.mem_of_mem_head? head.symm
      have distinct : t ≠ second := by
        rintro rfl
        exact (List.nodup_cons.mp linked.nodup).1 member
      have unlinked : TaskLinks.Unlinked
          { prev := Function.update links.prev second none
            next := Function.update links.next t none } t :=
        ⟨(Function.update_of_ne distinct ..).trans before,
          Function.update_self ..⟩
      refine ⟨{ tq with head := some second, count := tq.count - 1 },
        { prev := Function.update links.prev second none
          next := Function.update links.next t none },
        ?_, ⟨popped, count⟩, unlinked, ?_⟩
      · simp only [lpelTaskqueuePop, first, behind]
        rw [if_pos unlinked]
      · intro u outside
        simp only [List.mem_cons, not_or] at outside
        refine ⟨Function.update_of_ne ?_ .., Function.update_of_ne outside.1 ..⟩
        rintro rfl
        exact outside.2 member

/-- `LpelTaskqueuePushFront` puts a task that is in no queue before the others. -/
theorem pushFront
    (holds : tq.Holds links tasks)
    (fresh : t ∉ tasks)
    (unlinked : links.Unlinked t) :
    ∃ tq' links', lpelTaskqueuePushFront tq links t = some (tq', links') ∧
      tq'.Holds links' (t :: tasks) ∧
      links'.SameOutside links (t :: tasks) := by
  obtain ⟨tq', links', result, holds', same⟩ := holds.mirror.push (t := t)
    (by simpa using fresh) ((links.unlinked_mirror t).mpr unlinked)
  refine ⟨tq'.mirror, links'.mirror, ?_, ?_, ?_⟩
  · rw [pushFront_eq_mirror, result]
    rfl
  · have mirrored := holds'.mirror
    rwa [List.reverse_append, List.reverse_reverse] at mirrored
  · intro u outside
    have kept := same u (by simpa [or_comm] using outside)
    exact kept.symm

/-- `LpelTaskqueuePopBack` takes the newest task, which is in no queue then. -/
theorem popBack
    (holds : tq.Holds links (tasks ++ [t])) :
    ∃ tq' links', lpelTaskqueuePopBack tq links = some (some t, tq', links') ∧
      tq'.Holds links' tasks ∧ links'.Unlinked t ∧
      links'.SameOutside links (tasks ++ [t]) := by
  have mirrored := holds.mirror
  rw [List.reverse_append, List.reverse_singleton,
    List.singleton_append] at mirrored
  obtain ⟨tq', links', result, holds', unlinked, same⟩ := mirrored.pop
  refine ⟨tq'.mirror, links'.mirror, ?_, ?_, ?_, ?_⟩
  · rw [popBack_eq_mirror, result]
    rfl
  · have back := holds'.mirror
    rwa [List.reverse_reverse] at back
  · exact (links'.unlinked_mirror t).mpr unlinked
  · intro u outside
    have kept := same u (by simpa [or_comm] using outside)
    exact kept.symm

/-- The statements that unlink a task do so for the first one, the last one, both
and any other. -/
theorem unlink_eq
    {left right : List τ}
    (holds : tq.Holds links (left ++ t :: right)) :
    iterateRemoveUnlink tq links t =
      ({ head := if left = [] then right.head? else tq.head
         tail := if right = [] then left.getLast? else tq.tail
         count := tq.count - 1 },
        { prev := linksWithout links.prev right.head? t
          next := linksWithout links.next left.getLast? t },
        right.head?) := by
  have nodup := holds.linked.nodup
  have before := holds.linked.prev_eq
  have behind := holds.linked.next_eq
  cases left using List.reverseRecOn with
  | nil =>
      cases right with
      | nil => simp_all [iterateRemoveUnlink, linksWithout]
      | cons second right => simp_all [iterateRemoveUnlink, linksWithout]
  | append_singleton left previous =>
      have distinct : t ≠ previous := by
        rintro rfl
        simp [List.nodup_append] at nodup
      rw [List.getLast?_concat] at before
      cases right with
      | nil => simp_all [iterateRemoveUnlink, linksWithout]
      | cons second right => simp_all [iterateRemoveUnlink, linksWithout]

/-- `LpelTaskqueueIterateRemove` takes out a task anywhere in the queue, and goes
on to the next one. -/
theorem unlink
    {left right : List τ}
    (holds : tq.Holds links (left ++ t :: right)) :
    ∃ tq' links', iterateRemoveUnlink tq links t =
        (tq', links', right.head?) ∧
      tq'.Holds links' (left ++ right) ∧ links'.Unlinked t ∧
      links'.SameOutside links (left ++ t :: right) := by
  refine ⟨_, _, holds.unlink_eq, ⟨holds.linked.remove, ?_⟩, ?_, ?_⟩
  · rw [holds.count_eq]
    simp only [List.length_append, List.length_cons]
    omega
  · exact ⟨linksWithout_self .., linksWithout_self ..⟩
  · intro u outside
    rw [List.mem_append, List.mem_cons, not_or, not_or] at outside
    obtain ⟨notBefore, distinct, notBehind⟩ := outside
    refine ⟨linksWithout_of_ne _ distinct ?_, linksWithout_of_ne _ distinct ?_⟩
    · intro first
      exact notBehind (List.mem_of_mem_head? first.symm)
    · intro last
      exact notBefore (List.mem_of_getLast? last.symm)

end Taskqueue.Holds

end Decen
end Lpel
