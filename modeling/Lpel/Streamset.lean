import Lpel.Lib.Ring

/-!
# Stream sets and their iterator

`streamset.c` keeps a set of stream descriptors as a ring through their `next`
fields.  The handle points at the last element, whose successor is the first.
An iterator holds the current and the previous descriptor.
-/

namespace Lpel

variable {ι : Type} [DecidableEq ι]

/-- A `lpel_streamset_t` with the `next` fields of all descriptors. -/
structure Streamset (ι : Type) where
  /-- The handle `*set`; `none` is `NULL`. -/
  set : Option ι
  /-- `NODE_NEXT`. -/
  next : ι → Option ι

/-- `LpelStreamsetPut`. -/
def lpelStreamsetPut (ring : Streamset ι) (node : ι) : Streamset ι :=
  match ring.set with
  | none =>
      { set := some node
        next := Function.update ring.next node (some node) }
  | some last =>
      -- between the last element `*set` and the first element `(*set)->next`
      { set := some node
        next := Function.update
          (Function.update ring.next node (ring.next last)) last (some node) }

/-- `lpel_stream_iter_t`, without its pointer to the handle. -/
structure StreamIter (ι : Type) where
  cur : Option ι
  prev : Option ι
  deriving DecidableEq

/-- `LpelStreamIterReset`, and `LpelStreamIterCreate` of a nonempty set. -/
def lpelStreamIterReset (ring : Streamset ι) : StreamIter ι :=
  { cur := none, prev := ring.set }

/-- `LpelStreamIterHasNext`. -/
def lpelStreamIterHasNext (ring : Streamset ι) (iter : StreamIter ι) : Bool :=
  ring.set.isSome && (iter.cur != ring.set || iter.cur.isNone)

/-- `LpelStreamIterNext`; the descriptor it returns is the new `cur`. -/
def lpelStreamIterNext (ring : Streamset ι) (iter : StreamIter ι) :
    StreamIter ι :=
  match iter.cur with
  | some cur => { cur := ring.next cur, prev := some cur }
  | none => { iter with cur := iter.prev.bind ring.next }

/-- The ring spells a list: the elements in order from the first one on. -/
structure Streamset.Spells (ring : Streamset ι) (elems : List ι) : Prop where
  nodup : elems.Nodup
  set_eq : ring.set = elems.getLast?
  next_eq : ∀ (position : ℕ) (inside : position < elems.length),
    ring.next elems[position] = elems[(position + 1) % elems.length]?

namespace Streamset.Spells

variable {ring : Streamset ι} {elems : List ι}

omit [DecidableEq ι] in
/-- The elements are the nodes of a circular list with the handle `*set`. -/
theorem circular
    (spells : ring.Spells elems) :
    Circular ring.next ring.set elems :=
  ⟨spells.nodup, spells.set_eq, spells.next_eq⟩

omit [DecidableEq ι] in
theorem ofCircular
    (circular : Circular ring.next ring.set elems) :
    ring.Spells elems :=
  ⟨circular.nodup, circular.handle_eq, circular.next_eq⟩

omit [DecidableEq ι] in
/-- The handle of a nonempty ring is its last element. -/
theorem set_eq_getElem
    (spells : ring.Spells elems)
    (nonempty : 0 < elems.length) :
    ring.set = some elems[elems.length - 1] :=
  spells.circular.handle_eq_getElem nonempty

omit [DecidableEq ι] in
/-- The successor of the handle is the first element. -/
theorem next_last
    (spells : ring.Spells elems)
    (nonempty : 0 < elems.length) :
    ring.next elems[elems.length - 1] = elems[0]? :=
  spells.circular.next_last nonempty

/-- `LpelStreamsetPut` of a new descriptor appends it. -/
theorem put
    (spells : ring.Spells elems)
    {node : ι}
    (fresh : node ∉ elems) :
    (lpelStreamsetPut ring node).Spells (elems ++ [node]) := by
  apply ofCircular
  have circular := spells.circular
  cases handle : ring.set with
  | none =>
      rw [handle] at circular
      obtain rfl := circular.elems_eq_nil
      simp only [lpelStreamsetPut, handle]
      exact Circular.single ring.next node
  | some last =>
      rw [handle] at circular
      simp only [lpelStreamsetPut, handle]
      exact circular.append fresh

omit [DecidableEq ι] in
/-- Moving the handle to a member rotates the spelled list behind it. -/
theorem rotate
    (spells : ring.Spells elems)
    {position : ℕ}
    (inside : position < elems.length) :
    ({ ring with set := elems[position]? } : Streamset ι).Spells
      (elems.rotate (position + 1)) :=
  ofCircular (spells.circular.rotate inside)

end Streamset.Spells

/-- The ring built from the empty one by putting descriptors in order. -/
def lpelStreamsetPutAll (next : ι → Option ι) (elems : List ι) : Streamset ι :=
  elems.foldl lpelStreamsetPut { set := none, next := next }

/-- Putting distinct descriptors one after the other spells their list. -/
theorem lpelStreamsetPutAll_spells
    (next : ι → Option ι)
    {elems : List ι}
    (nodup : elems.Nodup) :
    (lpelStreamsetPutAll next elems).Spells elems := by
  induction elems using List.reverseRecOn with
  | nil => exact ⟨List.nodup_nil, rfl, by simp⟩
  | append_singleton elems node inductionHypothesis =>
      rw [List.nodup_append] at nodup
      have fresh : node ∉ elems := by
        intro member
        exact nodup.2.2 node member node (by simp) rfl
      rw [lpelStreamsetPutAll, List.foldl_append]
      exact (inductionHypothesis nodup.1).put fresh

/-- The iterator has returned the first `count` elements of the ring. -/
structure StreamIter.At
    (iter : StreamIter ι)
    (ring : Streamset ι)
    (elems : List ι)
    (count : ℕ) : Prop where
  count_le : count ≤ elems.length
  cur_eq : iter.cur = if count = 0 then none else elems[count - 1]?
  prev_eq : count = 0 → iter.prev = ring.set

namespace StreamIter.At

variable {iter : StreamIter ι} {ring : Streamset ι} {elems : List ι} {count : ℕ}

omit [DecidableEq ι] in
/-- A reset iterator has returned nothing. -/
theorem reset (ring : Streamset ι) (elems : List ι) :
    (lpelStreamIterReset ring).At ring elems 0 where
  count_le := Nat.zero_le _
  cur_eq := rfl
  prev_eq := fun _ => rfl

/-- There is a next descriptor exactly until all have been returned. -/
theorem hasNext_iff
    (position : iter.At ring elems count)
    (spells : ring.Spells elems)
    (nonempty : 0 < elems.length) :
    lpelStreamIterHasNext ring iter = true ↔ count < elems.length := by
  have handle := spells.set_eq_getElem nonempty
  have count_le := position.count_le
  rw [lpelStreamIterHasNext, handle, position.cur_eq]
  by_cases start : count = 0
  · simp [start, nonempty]
  · rw [if_neg start, List.getElem?_eq_getElem (by omega)]
    simp only [Option.isSome_some, Bool.true_and, Option.isNone_some,
      Bool.or_false, bne_iff_ne, ne_eq, Option.some.injEq,
      spells.nodup.getElem_inj_iff]
    omega

omit [DecidableEq ι] in
/-- `LpelStreamIterNext` returns the next element of the ring. -/
theorem next
    (position : iter.At ring elems count)
    (spells : ring.Spells elems)
    (inside : count < elems.length) :
    (lpelStreamIterNext ring iter).At ring elems (count + 1) ∧
      (lpelStreamIterNext ring iter).cur = some elems[count] := by
  have current : (lpelStreamIterNext ring iter).cur = some elems[count] := by
    have cur_eq := position.cur_eq
    by_cases start : count = 0
    · subst start
      rw [if_pos rfl] at cur_eq
      rw [lpelStreamIterNext, cur_eq]
      simp only
      rw [position.prev_eq rfl, spells.set_eq_getElem inside,
        Option.bind_some, spells.next_last inside,
        List.getElem?_eq_getElem inside]
    · rw [if_neg start, List.getElem?_eq_getElem (by omega)] at cur_eq
      rw [lpelStreamIterNext, cur_eq]
      simp only
      rw [spells.next_eq _ (by omega), Nat.sub_add_cancel (by omega),
        Nat.mod_eq_of_lt inside, List.getElem?_eq_getElem inside]
  refine ⟨⟨inside, ?_, by simp⟩, current⟩
  rw [current, if_neg (Nat.succ_ne_zero count), Nat.add_sub_cancel,
    List.getElem?_eq_getElem inside]

end StreamIter.At

end Lpel
