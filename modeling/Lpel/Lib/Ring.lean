import Mathlib.Data.List.Nodup
import Mathlib.Data.List.Rotate
import Mathlib.Logic.Function.Basic

/-!
# Circular lists with a handle on the last node

The nodes of a circular list are linked through a `next` field; the handle
points at the last node, whose successor is the first one.  `Circular` says
which list the ring stands for.  A node is linked in behind the handle and
unlinked through its predecessor; moving the handle rotates the list.
-/

namespace Lpel

universe u

variable {ι : Type u}

/-- The nodes of a ring in order, from the successor of the handle on. -/
structure Circular
    (next : ι → Option ι)
    (handle : Option ι)
    (elems : List ι) : Prop where
  nodup : elems.Nodup
  handle_eq : handle = elems.getLast?
  next_eq : ∀ (position : ℕ) (inside : position < elems.length),
    next elems[position] = elems[(position + 1) % elems.length]?

namespace Circular

variable {next : ι → Option ι} {handle : Option ι} {elems : List ι}

/-- A ring without a handle has no nodes. -/
theorem empty (next : ι → Option ι) : Circular next none [] :=
  ⟨List.nodup_nil, rfl, by simp⟩

theorem elems_eq_nil
    (circular : Circular next none elems) :
    elems = [] :=
  List.getLast?_eq_none_iff.mp circular.handle_eq.symm

/-- The handle of a nonempty ring is its last node. -/
theorem handle_eq_getElem
    (circular : Circular next handle elems)
    (nonempty : 0 < elems.length) :
    handle = some elems[elems.length - 1] := by
  rw [circular.handle_eq, List.getLast?_eq_getElem?,
    List.getElem?_eq_getElem (by omega)]

/-- The successor of the handle is the first node. -/
theorem next_last
    (circular : Circular next handle elems)
    (nonempty : 0 < elems.length) :
    next elems[elems.length - 1] = elems[0]? := by
  rw [circular.next_eq _ (by omega), Nat.sub_add_cancel nonempty, Nat.mod_self]

/-- The handle leads to the first node. -/
theorem next_handle
    {node last : ι}
    {rest : List ι}
    (circular : Circular next (some last) (node :: rest)) :
    next last = some node := by
  have handle := circular.handle_eq_getElem (by simp)
  rw [Option.some.inj handle, circular.next_last (by simp)]
  rfl

/-- The handle is on the first node only if there is no other. -/
theorem rest_eq_nil
    {node : ι}
    {rest : List ι}
    (circular : Circular next (some node) (node :: rest)) :
    rest = [] := by
  by_contra more
  have handle := circular.handle_eq
  rw [List.getLast?_cons_of_ne_nil more] at handle
  exact (List.nodup_cons.mp circular.nodup).1
    (List.mem_of_getLast? handle.symm)

/-- Only the links of the nodes of the ring matter. -/
theorem congr
    {next' : ι → Option ι}
    (circular : Circular next handle elems)
    (agree : ∀ elem ∈ elems, next' elem = next elem) :
    Circular next' handle elems where
  nodup := circular.nodup
  handle_eq := circular.handle_eq
  next_eq := by
    intro position inside
    rw [agree _ (List.getElem_mem inside)]
    exact circular.next_eq position inside

/-- Moving the handle to a node rotates the list behind it. -/
theorem rotate
    (circular : Circular next handle elems)
    {position : ℕ}
    (inside : position < elems.length) :
    Circular next elems[position]? (elems.rotate (position + 1)) where
  nodup := List.nodup_rotate.mpr circular.nodup
  handle_eq := by
    rw [List.getLast?_eq_getElem?, List.length_rotate,
      List.getElem?_rotate (by omega)]
    rw [show elems.length - 1 + (position + 1) = position + elems.length by omega,
      Nat.add_mod_right, Nat.mod_eq_of_lt inside]
  next_eq := by
    intro index bound
    have bound' : index < elems.length := by
      rw [List.length_rotate] at bound
      exact bound
    have positive : 0 < elems.length := by omega
    rw [List.getElem_rotate]
    simp only [List.length_rotate]
    rw [List.getElem?_rotate (Nat.mod_lt _ positive),
      circular.next_eq _ (Nat.mod_lt _ positive)]
    congr 1
    rw [Nat.mod_add_mod, Nat.mod_add_mod]
    congr 1
    omega

/-- The same at a split of the list. -/
theorem rotateAt
    {front back : List ι}
    {node : ι}
    (circular : Circular next handle (front ++ node :: back)) :
    Circular next (some node) (back ++ (front ++ [node])) := by
  have inside : front.length < (front ++ node :: back).length := by simp
  have rotated := circular.rotate inside
  have split : front ++ node :: back = (front ++ [node]) ++ back := by simp
  have length : front.length + 1 = (front ++ [node]).length := by simp
  rw [length, split, List.rotate_append_length_eq] at rotated
  simpa using rotated

variable [DecidableEq ι]

/-- A first node linked to itself. -/
theorem single
    (next : ι → Option ι)
    (node : ι) :
    Circular (Function.update next node (some node)) (some node) [node] := by
  refine ⟨List.nodup_singleton node, rfl, ?_⟩
  intro position inside
  have first : position = 0 := by simpa using inside
  subst first
  simp

/-- Linking a new node between the last and the first one appends it. -/
theorem append
    {last node : ι}
    (circular : Circular next (some last) elems)
    (fresh : node ∉ elems) :
    Circular
      (Function.update (Function.update next node (next last)) last (some node))
      (some node) (elems ++ [node]) := by
  have nonempty : 0 < elems.length := by
    apply List.length_pos_of_ne_nil
    rintro rfl
    exact absurd circular.handle_eq (by simp)
  have handle : last = elems[elems.length - 1] :=
    Option.some.inj (circular.handle_eq_getElem nonempty)
  refine ⟨?_, by simp, ?_⟩
  · rw [List.nodup_append]
    refine ⟨circular.nodup, List.nodup_singleton node, ?_⟩
    intro elem member other single equal
    rw [List.mem_singleton.mp single] at equal
    exact fresh (equal ▸ member)
  intro position inside
  have lastNe : elems[elems.length - 1] ≠ node := by
    intro equal
    exact fresh (equal ▸ List.getElem_mem _)
  subst handle
  simp only [List.length_append, List.length_singleton] at inside ⊢
  by_cases appended : position = elems.length
  · subst appended
    rw [List.getElem_append_right (le_refl _)]
    simp only [Nat.sub_self, List.getElem_cons_zero]
    rw [Function.update_of_ne (Ne.symm lastNe), Function.update_self,
      circular.next_last nonempty, Nat.mod_self,
      List.getElem?_append_left nonempty]
  · have inside' : position < elems.length := by omega
    rw [List.getElem_append_left inside', Nat.mod_eq_of_lt (by omega)]
    by_cases last : position = elems.length - 1
    · subst last
      rw [Function.update_self, Nat.sub_add_cancel nonempty,
        List.getElem?_append_right (le_refl _)]
      simp
    · have ne_last : elems[position] ≠ elems[elems.length - 1] := by
        intro equal
        exact last ((circular.nodup.getElem_inj_iff).mp equal)
      have ne_node : elems[position] ≠ node := by
        intro equal
        exact fresh (equal ▸ List.getElem_mem _)
      rw [Function.update_of_ne ne_last, Function.update_of_ne ne_node,
        circular.next_eq _ inside', Nat.mod_eq_of_lt (by omega),
        List.getElem?_append_left (by omega)]

/-- The first node of a longer ring is unlinked through the last one. -/
theorem unlinkFirst
    {node last : ι}
    {rest : List ι}
    (circular : Circular next (some last) (node :: rest))
    (more : rest ≠ []) :
    Circular (Function.update next last (next node)) (some last) rest := by
  have nonempty : 0 < rest.length := List.length_pos_of_ne_nil more
  have handle := circular.handle_eq
  rw [List.getLast?_cons_of_ne_nil more] at handle
  have lastEq : last = rest[rest.length - 1] := by
    rw [List.getLast?_eq_getElem?, List.getElem?_eq_getElem (by omega)] at handle
    exact Option.some.inj handle
  have distinct := (List.nodup_cons.mp circular.nodup)
  refine ⟨distinct.2, handle, ?_⟩
  intro position inside
  by_cases atLast : position = rest.length - 1
  · have first := circular.next_eq 0 (by simp)
    rw [List.getElem_cons_zero, Nat.mod_eq_of_lt (by simpa using nonempty)]
      at first
    subst atLast
    rw [← lastEq, Function.update_self, first, Nat.sub_add_cancel nonempty,
      Nat.mod_self]
    rfl
  · have ne_last : rest[position] ≠ last := by
      rw [lastEq]
      intro equal
      exact atLast (distinct.2.getElem_inj_iff.mp equal)
    have following := circular.next_eq (position + 1) (by simpa using inside)
    rw [List.getElem_cons_succ, Nat.mod_eq_of_lt (by simp; omega),
      List.getElem?_cons_succ] at following
    rw [Function.update_of_ne ne_last, following, Nat.mod_eq_of_lt (by omega)]

/-- Any other node is unlinked through its predecessor, which becomes the last
one if the node was. -/
theorem unlink
    {front back : List ι}
    {prev node : ι}
    (circular : Circular next handle (front ++ prev :: node :: back)) :
    Circular (Function.update next prev (next node))
      (if handle = some node then some prev else handle)
      (front ++ prev :: back) := by
  have cut : Circular (Function.update next prev (next node)) (some prev)
      (back ++ (front ++ [prev])) :=
    circular.rotateAt.unlinkFirst (by simp)
  have distinct := circular.nodup
  have handle_eq := circular.handle_eq
  cases back using List.reverseRecOn with
  | nil =>
      have atNode : handle = some node := by
        rw [handle_eq]
        simp
      rw [if_pos atNode]
      simpa using cut
  | append_singleton back last =>
      have atLast : handle = some last := by
        rw [handle_eq]
        simp [List.getLast?_cons]
      have other : last ≠ node := by
        rintro rfl
        simp [List.nodup_append] at distinct
      have apart : ¬ some last = some node := by simpa using other
      rw [atLast, if_neg apart]
      have turned : back ++ [last] ++ (front ++ [prev]) =
          back ++ last :: (front ++ [prev]) := by simp
      rw [turned] at cut
      simpa using cut.rotateAt

end Circular

end Lpel
