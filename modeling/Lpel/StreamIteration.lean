import Lpel.Lib.Machine
import Lpel.Streamset

/-!
# Changing a stream set, and iterating over it

The operations of `streamset.c` that take descriptors out of a set and that
change the set under a running iterator.  A call that fails an assertion or
follows a `NULL` pointer has no result.

While the current descriptor may be removed, `prev` is its predecessor in the
ring, which is the handle for the first descriptor.  After a removal `prev` is
only looked at when `cur` has been cleared, and then it is the handle.
-/

namespace Lpel

variable {ι : Type} [DecidableEq ι]

/-- The loop of `LpelStreamsetRemove`: the values of `prev` and `cur` behind
it.  The first argument bounds the number of rounds. -/
def lpelStreamsetSearch (ring : Streamset ι) (node : ι) :
    ℕ → ι → Option (ι × ι)
  | 0, _ => none
  | rounds + 1, prev =>
      (ring.next prev).bind fun cur =>
        if cur ≠ node ∧ some cur ≠ ring.set then
          lpelStreamsetSearch ring node rounds cur
        else
          some (prev, cur)

/-- `LpelStreamsetRemove`, with its return value. -/
def lpelStreamsetRemove (rounds : ℕ) (ring : Streamset ι) (node : ι) :
    Option (ℤ × Streamset ι) :=
  -- `assert( *set != NULL)`
  ring.set.bind fun last =>
    (lpelStreamsetSearch ring node rounds last).map fun (prev, cur) =>
      if cur ≠ node then
        (-1, ring)
      else if prev = cur then
        (0, { ring with set := none })
      else
        (0,
          { set := if ring.set = some cur then some prev else ring.set
            next := Function.update
              (Function.update ring.next prev (ring.next cur)) cur none })

/-- `LpelStreamIterAppend`. -/
def lpelStreamIterAppend
    (ring : Streamset ι)
    (iter : StreamIter ι)
    (node : ι) : Option (Streamset ι × StreamIter ι) :=
  ring.set.map fun last =>
    let prev := if iter.prev = ring.set then some node else iter.prev
    ({ set := some node
       next := Function.update
        (Function.update ring.next node (ring.next last)) last (some node) },
     { iter with prev := if prev = iter.cur then some node else prev })

/-- `LpelStreamIterRemove`. -/
def lpelStreamIterRemove (ring : Streamset ι) (iter : StreamIter ι) :
    Option (Streamset ι × StreamIter ι) :=
  if iter.prev = iter.cur then
    -- `assert( iter->prev == *iter->set )`
    if iter.prev = ring.set then
      iter.cur.map fun cur =>
        ({ set := none, next := Function.update ring.next cur none }, iter)
    else
      none
  else
    iter.prev.bind fun prev =>
      iter.cur.map fun cur =>
        let next := Function.update
          (Function.update ring.next prev (ring.next cur)) cur none
        if ring.set = some prev then
          ({ ring with next := next }, { iter with cur := none })
        else
          ({ set := if ring.set = some cur then some prev else ring.set
             next := next },
           { iter with cur := some prev })

namespace Streamset.Spells

variable {ring : Streamset ι} {elems : List ι}

omit [DecidableEq ι] in
theorem set_isSome
    (spells : ring.Spells elems)
    (nonempty : elems ≠ []) :
    ∃ last, ring.set = some last := by
  rw [spells.set_eq]
  exact ⟨_, List.getLast?_eq_some_getLast nonempty⟩

omit [DecidableEq ι] in
/-- The handle is the last descriptor. -/
theorem set_eq_last
    {front back : List ι}
    {cur : ι}
    (spells : ring.Spells (front ++ cur :: back)) :
    ring.set = (cur :: back).getLast? := by
  rw [spells.set_eq, List.getLast?_append_cons]

omit [DecidableEq ι] in
/-- The link from the predecessor of a descriptor, which is the handle for the
first one. -/
theorem next_pred
    {front back : List ι}
    {cur prev : ι}
    (spells : ring.Spells (front ++ cur :: back))
    (pred : front.getLast?.or ring.set = some prev) :
    ring.next prev = some cur := by
  cases front using List.reverseRecOn with
  | nil =>
      have handle := spells.set_eq_getElem (by simp)
      have first := spells.next_last (by simp)
      have last : ring.set = some prev := by simpa using pred
      rw [last] at handle
      rw [Option.some.inj handle, first]
      simp
  | append_singleton front before =>
      have link := spells.next_eq front.length (by simp)
      obtain rfl : before = prev := by simpa using pred
      rw [Nat.mod_eq_of_lt (by simp)] at link
      simpa using link

omit [DecidableEq ι] in
/-- Behind the first place, the predecessor is neither the descriptor itself
nor the handle. -/
theorem inner
    {front back : List ι}
    {cur prev : ι}
    (spells : ring.Spells (front ++ cur :: back))
    (member : prev ∈ front) :
    some prev ≠ some cur ∧ some prev ≠ ring.set := by
  have apart := (List.nodup_append.mp spells.nodup).2.2 prev member
  refine ⟨?_, ?_⟩
  · intro same
    exact apart cur (by simp) (Option.some.inj same)
  · rw [spells.set_eq_last]
    intro last
    exact apart prev (List.mem_of_getLast? last.symm) rfl

omit [DecidableEq ι] in
/-- A descriptor whose predecessor it is itself is the only one. -/
theorem pred_self
    {front back : List ι}
    {node : ι}
    (spells : ring.Spells (front ++ node :: back))
    (pred : front.getLast?.or ring.set = some node) :
    front = [] ∧ back = [] := by
  have nodup := spells.nodup
  rw [List.nodup_append, List.nodup_cons] at nodup
  cases front using List.reverseRecOn with
  | nil =>
      refine ⟨rfl, ?_⟩
      cases back with
      | nil => rfl
      | cons following back =>
          have last : (following :: back).getLast? = some node := by
            rw [← pred, spells.set_eq]
            simp [List.getLast?_cons]
          exact absurd (List.mem_of_getLast? last) nodup.2.1.1
  | append_singleton front before =>
      obtain rfl : before = node := by simpa using pred
      exact absurd rfl (nodup.2.2 before (by simp) before (by simp))

/-- Any other descriptor is unlinked through its predecessor. -/
theorem unlink
    {front back : List ι}
    {prev node : ι}
    (spells : ring.Spells (front ++ node :: back))
    (pred : front.getLast?.or ring.set = some prev)
    (other : prev ≠ node) :
    ({ set := if ring.set = some node then some prev else ring.set
       next := Function.update
        (Function.update ring.next prev (ring.next node)) node none } :
      Streamset ι).Spells (front ++ back) := by
  have circular := spells.circular
  have nodup := spells.nodup
  rw [List.nodup_append, List.nodup_cons] at nodup
  have absent : node ∉ front ++ back := by
    rw [List.mem_append]
    rintro (member | member)
    · exact nodup.2.2 node member node (by simp) rfl
    · exact nodup.2.1.1 member
  have linked : Circular (Function.update ring.next prev (ring.next node))
      (if ring.set = some node then some prev else ring.set)
      (front ++ back) := by
    cases front using List.reverseRecOn with
    | nil =>
        have handle : ring.set = some prev := by simpa using pred
        rw [handle] at circular ⊢
        rw [if_neg (by simpa using other)]
        apply circular.unlinkFirst
        rintro rfl
        have last : ring.set = some node := spells.set_eq_last
        rw [handle] at last
        exact other (Option.some.inj last)
    | append_singleton front before =>
        obtain rfl : before = prev := by simpa using pred
        have split : front ++ [before] ++ node :: back =
            front ++ before :: node :: back := by simp
        rw [split] at circular
        have cut := circular.unlink
        rwa [List.append_cons] at cut
  apply ofCircular
  refine linked.congr ?_
  intro elem member
  apply Function.update_of_ne
  rintro rfl
  exact absent member

/-- The search stops at the descriptor, with its predecessor, or at the end. -/
theorem search
    (node : ι)
    (front : List ι)
    {back : List ι}
    {cur prev : ι}
    {rounds : ℕ}
    (spells : ring.Spells (front ++ cur :: back))
    (absent : node ∉ front)
    (pred : front.getLast?.or ring.set = some prev)
    (enough : back.length < rounds) :
    (∃ before after prev', front ++ cur :: back = before ++ node :: after ∧
        before.getLast?.or ring.set = some prev' ∧
        lpelStreamsetSearch ring node rounds prev = some (prev', node)) ∨
      (node ∉ front ++ cur :: back ∧ ∃ prev' cur', cur' ≠ node ∧
        lpelStreamsetSearch ring node rounds prev = some (prev', cur')) := by
  induction back generalizing front cur prev rounds with
  | nil =>
      obtain ⟨rounds, rfl⟩ := Nat.exists_eq_add_one_of_ne_zero
        (Nat.ne_of_gt enough)
      have last : ring.set = some cur := spells.set_eq_last
      rw [lpelStreamsetSearch, spells.next_pred pred, Option.bind_some, last,
        if_neg (by simp)]
      by_cases here : cur = node
      · subst here
        exact .inl ⟨front, [], prev, rfl, by rw [← last]; exact pred, rfl⟩
      · refine .inr ⟨?_, prev, cur, here, rfl⟩
        rw [List.mem_append, List.mem_singleton]
        rintro (member | rfl)
        · exact absent member
        · exact here rfl
  | cons following back inductionHypothesis =>
      obtain ⟨rounds, rfl⟩ := Nat.exists_eq_add_one_of_ne_zero
        (Nat.ne_of_gt (Nat.zero_lt_of_lt enough))
      rw [lpelStreamsetSearch, spells.next_pred pred, Option.bind_some]
      by_cases here : cur = node
      · subst here
        rw [if_neg (by simp)]
        exact .inl ⟨front, following :: back, prev, rfl, pred, rfl⟩
      · have inner : some cur ≠ ring.set := by
          rw [spells.set_eq_last, List.getLast?_cons_cons]
          intro last
          have member := List.mem_of_getLast? last.symm
          have nodup := (List.nodup_append.mp spells.nodup).2.1
          exact (List.nodup_cons.mp nodup).1 member
        rw [if_pos ⟨here, inner⟩]
        have shifted : front ++ cur :: following :: back =
            (front ++ [cur]) ++ following :: back := by simp
        rw [shifted] at spells ⊢
        refine inductionHypothesis _ spells ?_ (by simp) (by simpa using enough)
        rw [List.mem_append, List.mem_singleton]
        rintro (member | rfl)
        · exact absent member
        · exact here rfl

/-- `LpelStreamsetRemove` takes out a member and reports anything else. -/
theorem remove
    (spells : ring.Spells elems)
    (nonempty : elems ≠ [])
    (node : ι)
    {rounds : ℕ}
    (enough : elems.length ≤ rounds) :
    (node ∈ elems → ∃ after,
        lpelStreamsetRemove rounds ring node = some (0, after) ∧
        after.Spells (elems.erase node)) ∧
      (node ∉ elems → lpelStreamsetRemove rounds ring node = some (-1, ring)) := by
  obtain ⟨last, handle⟩ := spells.set_isSome nonempty
  obtain ⟨first, rest, rfl⟩ := List.exists_cons_of_ne_nil nonempty
  have searched := search node [] spells List.not_mem_nil
    (by simpa using handle) (Nat.lt_of_succ_le enough)
  rw [lpelStreamsetRemove, handle, Option.bind_some, ← handle]
  obtain ⟨before, after, prev, split, pred, found⟩ |
    ⟨absent, prev, cur, other, found⟩ := searched
  · rw [List.nil_append] at split
    rw [split] at spells ⊢
    refine ⟨?_, ?_⟩
    · intro _
      have nodup := spells.nodup
      have erased : (before ++ node :: after).erase node = before ++ after := by
        have absent : node ∉ before := by
          intro member
          exact (List.nodup_append.mp nodup).2.2 node member node (by simp) rfl
        rw [List.erase_append_right _ absent, List.erase_cons_head]
      rw [erased, found, Option.map_some]
      dsimp only
      rw [if_neg (by simp)]
      by_cases alone : prev = node
      · subst alone
        obtain ⟨rfl, rfl⟩ := spells.pred_self pred
        rw [if_pos rfl]
        exact ⟨_, rfl, ofCircular (Circular.empty ring.next)⟩
      · rw [if_neg alone]
        exact ⟨_, rfl, spells.unlink pred alone⟩
    · intro absent
      exact absurd (by simp) absent
  · refine ⟨fun member => absurd member absent, ?_⟩
    intro _
    rw [found, Option.map_some]
    dsimp only
    rw [if_pos other]

end Streamset.Spells

/-- An iteration: the set, the iterator, and what has happened since
`LpelStreamIterReset`. -/
structure Iteration (ι : Type) where
  ring : Streamset ι
  iter : StreamIter ι
  /-- The set when the iteration began. -/
  given : List ι
  appended : List ι
  returned : List ι
  removed : List ι
  /-- Nothing was removed since the last `LpelStreamIterNext`. -/
  removable : Bool

/-- The calls of an iteration. -/
inductive IterLabel (ι : Type) where
  | next
  | append (node : ι)
  | remove

namespace Iteration

/-- A call, or `none` where it is not allowed or has no result. -/
def step (it : Iteration ι) : IterLabel ι → Option (Iteration ι)
  | .next =>
      if lpelStreamIterHasNext it.ring it.iter then
        let iter := lpelStreamIterNext it.ring it.iter
        some { it with
          iter := iter
          returned := it.returned ++ iter.cur.toList
          removable := true }
      else
        none
  | .append node =>
      if node ∈ it.given ++ it.appended then
        none
      else
        (lpelStreamIterAppend it.ring it.iter node).map fun (ring, iter) =>
          { it with
            ring := ring
            iter := iter
            appended := it.appended ++ [node] }
  | .remove =>
      if it.removable then
        (lpelStreamIterRemove it.ring it.iter).map fun (ring, iter) =>
          { it with
            ring := ring
            iter := iter
            removed := it.removed ++ it.iter.cur.toList
            removable := false }
      else
        none

end Iteration

/-- All iterations over nonempty sets. -/
def iterMachine (ι : Type) [DecidableEq ι] :
    Machine (Iteration ι) (IterLabel ι) where
  init it :=
    it.ring.Spells it.given ∧ it.given ≠ [] ∧
      it.iter = lpelStreamIterReset it.ring ∧ it.appended = [] ∧
      it.returned = [] ∧ it.removed = [] ∧ it.removable = false
  next := Iteration.step

namespace Iteration

/-- The ring holds the returned descriptors that were not removed, and behind
them those still to be returned. -/
structure Held (it : Iteration ι) (done todo : List ι) : Prop where
  spells : it.ring.Spells (done ++ todo)
  position : done ++ todo ≠ [] →
    it.iter.At it.ring (done ++ todo) done.length
  current : it.removable = true → done ≠ [] ∧
    it.iter.prev = done.dropLast.getLast?.or it.ring.set
  nodup : (it.given ++ it.appended).Nodup
  returned_eq : it.returned ++ todo = it.given ++ it.appended
  done_eq : done = it.returned.filter (· ∉ it.removed)
  removed_sub : it.removed ⊆ it.returned

variable {it after : Iteration ι} {done todo : List ι}

omit [DecidableEq ι] in
/-- The descriptor returned last, if it is still in the ring. -/
theorem cur_eq_getLast
    {iter : StreamIter ι}
    {ring : Streamset ι}
    (position : iter.At ring (done ++ todo) done.length) :
    iter.cur = done.getLast? := by
  rw [position.cur_eq]
  cases done using List.reverseRecOn with
  | nil => rfl
  | append_singleton done node => simp

omit [DecidableEq ι] in
theorem at_of_cur
    {iter : StreamIter ι}
    {ring : Streamset ι}
    (cur_eq : iter.cur = done.getLast?)
    (prev_eq : done = [] → iter.prev = ring.set) :
    iter.At ring (done ++ todo) done.length := by
  refine ⟨by simp, ?_, ?_⟩
  · rw [cur_eq]
    cases done using List.reverseRecOn with
    | nil => rfl
    | append_singleton done node => simp
  · intro start
    exact prev_eq (List.length_eq_zero_iff.mp start)

/-- There is a next descriptor exactly if one is left to be returned. -/
theorem Held.hasNext_iff
    (held : it.Held done todo) :
    lpelStreamIterHasNext it.ring it.iter = true ↔ todo ≠ [] := by
  by_cases empty : done ++ todo = []
  · have handle := held.spells.set_eq
    rw [empty] at handle
    simp only [List.append_eq_nil_iff] at empty
    simp [lpelStreamIterHasNext, handle, empty.2]
  · rw [(held.position empty).hasNext_iff held.spells
      (List.length_pos_of_ne_nil empty), List.length_append,
      ← List.length_pos_iff]
    omega

/-- `LpelStreamIterNext` returns the first one that is left. -/
theorem Held.next_cur
    {node : ι}
    (held : it.Held done (node :: todo)) :
    (lpelStreamIterNext it.ring it.iter).cur = some node := by
  have advanced := (held.position (by simp)).next held.spells (by simp)
  simpa using advanced.2

theorem Held.next
    {node : ι}
    (held : it.Held done (node :: todo)) :
    Held
      { it with
        iter := lpelStreamIterNext it.ring it.iter
        returned := it.returned ++ (lpelStreamIterNext it.ring it.iter).cur.toList
        removable := true }
      (done ++ [node]) todo := by
  have position := held.position (by simp)
  have advanced := position.next held.spells (by simp)
  have current := held.next_cur
  have shifted : done ++ node :: todo = done ++ [node] ++ todo := by simp
  have kept : node ∉ it.removed := by
    intro removed
    have nodup := held.nodup
    rw [← held.returned_eq, List.nodup_append] at nodup
    exact nodup.2.2 node (held.removed_sub removed) node (by simp) rfl
  constructor
  case spells =>
    rw [← shifted]
    exact held.spells
  case position =>
    intro _
    rw [← shifted]
    simpa using advanced.1
  case current =>
    intro _
    refine ⟨by simp, ?_⟩
    rw [List.dropLast_concat]
    have cur_eq := cur_eq_getLast position
    cases done using List.reverseRecOn with
    | nil =>
        rw [List.getLast?_nil] at cur_eq
        simp only [lpelStreamIterNext, cur_eq]
        exact position.prev_eq rfl
    | append_singleton done last =>
        rw [List.getLast?_concat] at cur_eq
        simp [lpelStreamIterNext, cur_eq]
  case nodup => exact held.nodup
  case returned_eq =>
    rw [← held.returned_eq]
    simp [current]
  case done_eq =>
    simp only [current, Option.toList_some]
    rw [List.filter_append, ← held.done_eq]
    simp [kept]
  case removed_sub =>
    intro elem member
    exact List.mem_append_left _ (held.removed_sub member)

/-- `LpelStreamIterAppend` keeps the position of the iterator. -/
theorem Held.append
    {node last : ι}
    (held : it.Held done todo)
    (fresh : node ∉ it.given ++ it.appended)
    (handle : it.ring.set = some last) :
    ∃ ring iter, lpelStreamIterAppend it.ring it.iter node = some (ring, iter) ∧
      Held { it with ring := ring, iter := iter, appended := it.appended ++ [node] }
        done (todo ++ [node]) := by
  have unused : node ∉ done ++ todo := by
    intro member
    rw [← held.returned_eq] at fresh
    rw [held.done_eq] at member
    apply fresh
    rw [List.mem_append] at member ⊢
    exact member.imp_left fun kept => List.mem_of_mem_filter kept
  have nonempty : done ++ todo ≠ [] := by
    intro empty
    have none := held.spells.set_eq
    rw [empty, handle] at none
    exact absurd none (by simp)
  have position := held.position nonempty
  have cur_eq := cur_eq_getLast position
  have notCurrent : some node ≠ it.iter.cur := by
    rw [cur_eq]
    intro same
    exact unused (List.mem_append_left _ (List.mem_of_getLast? same.symm))
  refine ⟨_, _, by rw [lpelStreamIterAppend, handle, Option.map_some], ?_⟩
  have circular := held.spells.circular
  rw [handle] at circular
  constructor
  case spells =>
    rw [← List.append_assoc]
    exact .ofCircular (circular.append unused)
  case position =>
    intro _
    refine at_of_cur cur_eq ?_
    rintro rfl
    simp only
    rw [if_pos ((position.prev_eq rfl).trans handle), if_neg notCurrent]
  case current =>
    intro removable
    obtain ⟨started, prev_eq⟩ := held.current removable
    refine ⟨started, ?_⟩
    simp only
    obtain ⟨before, cur, rfl⟩ := (List.eq_nil_or_concat' done).resolve_left started
    rw [List.dropLast_concat] at prev_eq ⊢
    rw [List.getLast?_concat] at cur_eq
    have spells := held.spells
    rw [List.append_assoc, List.singleton_append] at spells
    cases before using List.reverseRecOn with
    | nil =>
        have first : it.iter.prev = some last := prev_eq.trans handle
        rw [if_pos first, if_neg notCurrent]
        rfl
    | append_singleton before prev =>
        rw [List.getLast?_concat, Option.some_or] at prev_eq
        have inner : some prev ≠ some cur ∧ some prev ≠ it.ring.set :=
          spells.inner (by simp)
        rw [handle] at inner
        rw [cur_eq, prev_eq, if_neg inner.2, if_neg inner.1,
          List.getLast?_concat]
        rfl
  case nodup =>
    rw [← List.append_assoc, List.nodup_append]
    refine ⟨held.nodup, List.nodup_singleton node, ?_⟩
    intro elem member other single equal
    rw [List.mem_singleton.mp single] at equal
    exact fresh (equal ▸ member)
  case returned_eq =>
    rw [← List.append_assoc, held.returned_eq, List.append_assoc]
  case done_eq => exact held.done_eq
  case removed_sub => exact held.removed_sub

/-- The returned descriptors that are left when the current one is removed. -/
theorem Held.filter_removed
    {cur : ι}
    (held : it.Held (done ++ [cur]) todo) :
    done = it.returned.filter (· ∉ it.removed ++ [cur]) := by
  have absent : cur ∉ done := by
    intro member
    have nodup := (List.nodup_append.mp held.spells.nodup).1
    exact (List.nodup_append.mp nodup).2.2 cur member cur (by simp) rfl
  have twice : it.returned.filter (· ∉ it.removed ++ [cur]) =
      (it.returned.filter (· ∉ it.removed)).filter (· ≠ cur) := by
    rw [List.filter_filter]
    apply List.filter_congr
    intro elem _
    simp [and_comm]
  rw [twice, ← held.done_eq, List.filter_append]
  have rest : done.filter (· ≠ cur) = done := by
    rw [List.filter_eq_self]
    intro elem member
    simp only [decide_eq_true_eq]
    rintro rfl
    exact absent member
  rw [rest]
  simp

theorem Held.removed_cur
    {cur : ι}
    (held : it.Held (done ++ [cur]) todo) :
    it.removed ++ [cur] ⊆ it.returned := by
  intro elem member
  rw [List.mem_append, List.mem_singleton] at member
  obtain earlier | rfl := member
  · exact held.removed_sub earlier
  · have kept : elem ∈ it.returned.filter (· ∉ it.removed) := by
      rw [← held.done_eq]
      simp
    exact List.mem_of_mem_filter kept

/-- `LpelStreamIterRemove` takes the current descriptor out of the ring and
moves the iterator back to the one before it. -/
theorem iterRemove
    {ring : Streamset ι}
    {iter : StreamIter ι}
    {cur : ι}
    (spells : ring.Spells (done ++ cur :: todo))
    (cur_eq : iter.cur = some cur)
    (prev_eq : iter.prev = done.getLast?.or ring.set) :
    ∃ ring' iter', lpelStreamIterRemove ring iter = some (ring', iter') ∧
      ring'.Spells (done ++ todo) ∧
      (done ++ todo ≠ [] → iter'.At ring' (done ++ todo) done.length) := by
  obtain ⟨last, handle⟩ := spells.set_isSome (by simp)
  obtain ⟨prev, pred⟩ : ∃ prev, done.getLast?.or ring.set = some prev := by
    rw [handle]
    cases done.getLast? with
    | none => exact ⟨last, rfl⟩
    | some prev => exact ⟨prev, rfl⟩
  rw [pred] at prev_eq
  unfold lpelStreamIterRemove
  rw [prev_eq, cur_eq]
  by_cases alone : prev = cur
  · subst alone
    obtain ⟨rfl, rfl⟩ := spells.pred_self pred
    have single : ring.set = some prev := by simpa using pred
    rw [if_pos rfl, if_pos single.symm, Option.map_some]
    exact ⟨_, _, rfl, .ofCircular (Circular.empty _),
      fun nonempty => absurd rfl nonempty⟩
  have linked := spells.unlink pred alone
  rw [if_neg (by simpa using alone), Option.bind_some, Option.map_some]
  dsimp only
  by_cases first : ring.set = some prev
  · have noneBefore : done = [] := by
      by_contra nonempty
      have member : prev ∈ done := by
        apply List.mem_of_getLast?
        rw [← pred, List.getLast?_eq_some_getLast nonempty, Option.some_or]
      exact (spells.inner member).2 first.symm
    subst noneBefore
    rw [if_neg (by rw [first]; simpa using alone)] at linked
    rw [if_pos first]
    refine ⟨_, _, rfl, linked, fun _ => at_of_cur rfl ?_⟩
    intro _
    exact first.symm
  · have last_eq : done.getLast? = some prev := by
      cases before : done.getLast? with
      | none =>
          rw [before, Option.none_or] at pred
          exact absurd pred first
      | some other =>
          rw [before, Option.some_or] at pred
          exact pred
    rw [if_neg first]
    refine ⟨_, _, rfl, linked, fun _ => at_of_cur last_eq.symm ?_⟩
    rintro rfl
    exact absurd last_eq (by simp)

/-- `LpelStreamIterRemove` succeeds once after each descriptor returned. -/
theorem Held.remove
    (held : it.Held done todo)
    (removable : it.removable = true) :
    ∃ ring iter, lpelStreamIterRemove it.ring it.iter = some (ring, iter) ∧
      Held
        { it with
          ring := ring
          iter := iter
          removed := it.removed ++ it.iter.cur.toList
          removable := false }
        done.dropLast todo := by
  obtain ⟨started, prev_eq⟩ := held.current removable
  obtain ⟨before, cur, rfl⟩ := (List.eq_nil_or_concat' done).resolve_left started
  have cur_eq := cur_eq_getLast (held.position (by simp))
  rw [List.getLast?_concat] at cur_eq
  rw [List.dropLast_concat] at prev_eq ⊢
  have spells := held.spells
  rw [List.append_assoc, List.singleton_append] at spells
  obtain ⟨ring, iter, result, linked, position⟩ :=
    iterRemove spells cur_eq prev_eq
  refine ⟨ring, iter, result, ?_⟩
  simp only [cur_eq, Option.toList_some]
  exact
    { spells := linked
      position := position
      current := fun set => absurd set (by simp)
      nodup := held.nodup
      returned_eq := held.returned_eq
      done_eq := held.filter_removed
      removed_sub := held.removed_cur }

/-- Every call keeps the ring and the iterator in step. -/
theorem Held.step
    {label : IterLabel ι}
    (held : it.Held done todo)
    (taken : it.step label = some after) :
    ∃ done' todo', after.Held done' todo' := by
  cases label with
  | next =>
      simp only [Iteration.step] at taken
      split at taken
      case isTrue more =>
        obtain rfl := Option.some.inj taken
        obtain ⟨node, rest, rfl⟩ :=
          List.exists_cons_of_ne_nil (held.hasNext_iff.mp more)
        exact ⟨_, _, held.next⟩
      case isFalse => exact absurd taken (by simp)
  | append node =>
      simp only [Iteration.step] at taken
      split at taken
      case isTrue => exact absurd taken (by simp)
      case isFalse fresh =>
        cases handle : it.ring.set with
        | none =>
            rw [lpelStreamIterAppend, handle] at taken
            exact absurd taken (by simp)
        | some last =>
            obtain ⟨ring, iter, result, kept⟩ := held.append fresh handle
            rw [result, Option.map_some] at taken
            obtain rfl := Option.some.inj taken
            exact ⟨_, _, kept⟩
  | remove =>
      simp only [Iteration.step] at taken
      split at taken
      case isTrue removable =>
        obtain ⟨ring, iter, result, kept⟩ := held.remove removable
        rw [result, Option.map_some] at taken
        obtain rfl := Option.some.inj taken
        exact ⟨_, _, kept⟩
      case isFalse => exact absurd taken (by simp)

theorem Held.ofReachable
    (reached : (iterMachine ι).Reachable it) :
    ∃ done todo, it.Held done todo := by
  refine Machine.Reachable.invariant
    (?_ : ∀ it, (iterMachine ι).init it → ∃ done todo, Held it done todo)
    ?_ reached
  · rintro it ⟨spells, nonempty, reset, noneAppended, noneReturned, noneRemoved,
      notRemovable⟩
    refine ⟨[], it.given, ?_⟩
    constructor
    case spells => exact spells
    case position =>
      intro _
      rw [reset]
      exact StreamIter.At.reset it.ring it.given
    case current =>
      intro removable
      rw [notRemovable] at removable
      exact absurd removable (by simp)
    case nodup =>
      rw [noneAppended, List.append_nil]
      exact spells.nodup
    case returned_eq => rw [noneReturned, noneAppended, List.append_nil,
      List.nil_append]
    case done_eq => rw [noneReturned, List.filter_nil]
    case removed_sub =>
      rw [noneRemoved]
      exact List.nil_subset _
  · rintro it label after ⟨done, todo, held⟩ taken
    exact held.step taken

/-- The descriptors of a ring in which the iterator is. -/
theorem Held.ring_eq
    (held : it.Held done todo) :
    done ++ todo = (it.given ++ it.appended).filter (· ∉ it.removed) := by
  rw [← held.returned_eq, List.filter_append, ← held.done_eq]
  have nodup := held.nodup
  rw [← held.returned_eq, List.nodup_append] at nodup
  have rest : todo.filter (· ∉ it.removed) = todo := by
    rw [List.filter_eq_self]
    intro elem member
    simp only [decide_eq_true_eq]
    intro removed
    exact nodup.2.2 elem (held.removed_sub removed) elem member rfl
  rw [rest]

end Iteration

/-- The start of an iteration over three descriptors. -/
def threeGiven : Iteration ℕ :=
  let ring := lpelStreamsetPutAll (fun _ => none) [0, 1, 2]
  { ring := ring
    iter := lpelStreamIterReset ring
    given := [0, 1, 2]
    appended := []
    returned := []
    removed := []
    removable := false }

namespace Iteration

variable {it after : Iteration ι} {done : List ι}

/-- `LpelStreamIterNext` goes on to the last descriptor that is left. -/
theorem Held.run_next
    {front : List ι}
    {node : ι}
    (held : it.Held done (front ++ [node])) :
    ∃ last, (iterMachine ι).run it (List.replicate (front.length + 1) .next) =
        some last ∧
      last.returned = it.returned ++ front ++ [node] := by
  induction front generalizing it done with
  | nil =>
      have more := held.hasNext_iff.mpr (by simp)
      let iter := lpelStreamIterNext it.ring it.iter
      refine ⟨{ it with
        iter := iter
        returned := it.returned ++ iter.cur.toList
        removable := true }, ?_, ?_⟩
      · rw [List.length_nil, List.replicate_one, Machine.run]
        simp only [iterMachine, Iteration.step, if_pos more]
        rfl
      · simp only [iter]
        rw [held.next_cur]
        simp
  | cons first front inductionHypothesis =>
      have more := held.hasNext_iff.mpr (by simp)
      obtain ⟨last, run, returned⟩ := inductionHypothesis held.next
      refine ⟨last, ?_, ?_⟩
      · rw [List.length_cons, List.replicate_succ, Machine.run]
        simp only [iterMachine, Iteration.step, if_pos more]
        exact run
      · rw [returned, held.next_cur]
        simp

/-- The descriptors of an iteration only become more. -/
theorem step_subset
    {label : IterLabel ι}
    (taken : it.step label = some after) :
    it.given ++ it.appended ⊆ after.given ++ after.appended := by
  cases label with
  | next =>
      simp only [Iteration.step, Option.ite_none_right_eq_some,
        Option.some.injEq] at taken
      obtain ⟨-, rfl⟩ := taken
      exact List.Subset.refl _
  | append node =>
      simp only [Iteration.step, Option.ite_none_left_eq_some,
        Option.map_eq_some_iff] at taken
      obtain ⟨-, result, -, rfl⟩ := taken
      rw [← List.append_assoc]
      exact List.subset_append_left _ _
  | remove =>
      simp only [Iteration.step, Option.ite_none_right_eq_some,
        Option.map_eq_some_iff] at taken
      obtain ⟨-, result, -, rfl⟩ := taken
      exact List.Subset.refl _

theorem run_subset
    {labels : List (IterLabel ι)}
    (run : (iterMachine ι).run it labels = some after) :
    it.given ++ it.appended ⊆ after.given ++ after.appended := by
  induction labels generalizing it with
  | nil =>
      obtain rfl := Option.some.inj run
      exact List.Subset.refl _
  | cons label labels inductionHypothesis =>
      obtain ⟨middle, taken, rest⟩ := Option.bind_eq_some_iff.mp run
      exact List.Subset.trans (step_subset taken) (inductionHypothesis rest)

/-- A descriptor has been appended as `LpelStreamsetPut` would have done, and the
iteration comes to it. -/
structure Appended (it after : Iteration ι) (node : ι) : Prop where
  taken : it.step (.append node) = some after
  ring_eq : after.ring = lpelStreamsetPut it.ring node
  reached : ∃ count last, (iterMachine ι).run after
      (List.replicate count .next) = some last ∧
    last.returned.getLast? = some node
  returned : ∀ labels last, (iterMachine ι).run after labels = some last →
    lpelStreamIterHasNext last.ring last.iter = false → node ∈ last.returned

theorem Held.appended
    {todo : List ι}
    {node handle : ι}
    (held : it.Held done todo)
    (reached : (iterMachine ι).Reachable it)
    (fresh : node ∉ it.given ++ it.appended)
    (nonempty : it.ring.set = some handle) :
    ∃ after, it.Appended after node := by
  obtain ⟨ring, iter, result, kept⟩ := held.append fresh nonempty
  have taken : it.step (.append node) = some
      { it with
        ring := ring
        iter := iter
        appended := it.appended ++ [node] } := by
    rw [Iteration.step, if_neg fresh, result]
    rfl
  refine ⟨_, taken, ?_, ?_, ?_⟩
  · rw [lpelStreamIterAppend, nonempty, Option.map_some] at result
    obtain ⟨rfl, -⟩ := Prod.mk.inj (Option.some.inj result)
    rw [lpelStreamsetPut, nonempty]
  · obtain ⟨last, run, returned⟩ := kept.run_next
    refine ⟨_, last, run, ?_⟩
    rw [returned, List.getLast?_concat]
  · intro labels last run finished
    have next : (iterMachine ι).next it (.append node) = some _ := taken
    have reached' := Machine.Reachable.run (Machine.Reachable.next reached next) run
    obtain ⟨done', todo', held'⟩ := Held.ofReachable reached'
    have none : todo' = [] := by
      by_contra more
      rw [held'.hasNext_iff.mpr more] at finished
      cases finished
    have all := held'.returned_eq
    rw [none, List.append_nil] at all
    rw [all]
    exact run_subset run (by simp)

end Iteration

/-- `LpelStreamIterAppend` does what `LpelStreamsetPut` does, and the iteration
returns the descriptor, exactly if the set is not empty. -/
theorem iterAppend_iff_nonempty
    {it : Iteration ι}
    (reached : (iterMachine ι).Reachable it)
    (node : ι)
    (fresh : node ∉ it.given ++ it.appended) :
    (∃ after, it.Appended after node) ↔ it.ring.set ≠ none := by
  constructor
  · rintro ⟨after, appended⟩ empty
    have taken := appended.taken
    rw [Iteration.step, if_neg fresh, lpelStreamIterAppend, empty] at taken
    cases taken
  · intro nonempty
    obtain ⟨handle, nonempty⟩ := Option.ne_none_iff_exists'.mp nonempty
    obtain ⟨done, todo, held⟩ := Iteration.Held.ofReachable reached
    exact held.appended reached fresh nonempty

/-- A descriptor is appended when all of the given ones have been returned. -/
theorem iterAppend_iff_nonempty_three :
    ∃ it after : Iteration ℕ, (iterMachine ℕ).Reachable it ∧
      lpelStreamIterHasNext it.ring it.iter = false ∧
      it.Appended after 3 := by
  have spells : threeGiven.ring.Spells threeGiven.given :=
    lpelStreamsetPutAll_spells _ (by decide)
  obtain ⟨it, reached, tested⟩ := Machine.exists_reachable_of_run
    (⟨spells, by decide, rfl, rfl, rfl, rfl, rfl⟩ :
      (iterMachine ℕ).init threeGiven)
    (by decide : ((iterMachine ℕ).run threeGiven
      [.next, .remove, .next, .next, .remove]).map
      (fun it => decide (it.given = [0, 1, 2] ∧ it.appended = [] ∧
        it.ring.set = some 1 ∧
        lpelStreamIterHasNext it.ring it.iter = false)) = some true)
  obtain ⟨given, appended, handle, finished⟩ := of_decide_eq_true tested
  obtain ⟨after, result⟩ := (iterAppend_iff_nonempty reached 3
    (by rw [given, appended]; decide)).mpr (by rw [handle]; simp)
  exact ⟨it, after, reached, finished, result⟩

/-- The start of an iteration over one descriptor. -/
def oneGiven : Iteration ℕ :=
  let ring := lpelStreamsetPutAll (fun _ => none) [0]
  { ring := ring
    iter := lpelStreamIterReset ring
    given := [0]
    appended := []
    returned := []
    removed := []
    removable := false }

/-- The only descriptor is removed.  `LpelStreamIterAppend` then follows the
handle `NULL`, and `LpelStreamsetPut` does not. -/
theorem iterAppend_empty :
    ∃ it : Iteration ℕ, (iterMachine ℕ).Reachable it ∧
      1 ∉ it.given ++ it.appended ∧
      lpelStreamIterAppend it.ring it.iter 1 = none ∧
      (lpelStreamsetPut it.ring 1).Spells [1] := by
  have spells : oneGiven.ring.Spells oneGiven.given :=
    lpelStreamsetPutAll_spells _ (by decide)
  obtain ⟨it, reached, tested⟩ := Machine.exists_reachable_of_run
    (⟨spells, by decide, rfl, rfl, rfl, rfl, rfl⟩ :
      (iterMachine ℕ).init oneGiven)
    (by decide : ((iterMachine ℕ).run oneGiven [.next, .remove]).map
      (fun it => decide (it.given = [0] ∧ it.appended = [] ∧
        it.ring.set = none)) = some true)
  obtain ⟨given, appended, handle⟩ := of_decide_eq_true tested
  refine ⟨it, reached, ?_, ?_, ?_⟩
  · rw [given, appended]
    decide
  · rw [lpelStreamIterAppend, handle]
    rfl
  · have empty : it.ring.Spells [] := ⟨List.nodup_nil, handle, by simp⟩
    exact empty.put (by simp)

end Lpel
