import Lpel.Lib.Chain

/-!
# Doubly linked lists

A list whose nodes carry a link to the next and to the previous one.  It can be
read from either end: the `next` fields from the head and the `prev` fields from
the tail spell the same nodes in opposite order.
-/

namespace Lpel

universe u

variable {ι : Type u}

/-- The nodes between a head and a tail. -/
structure DoublyLinked
    (prev next : ι → Option ι)
    (head tail : Option ι)
    (nodes : List ι) : Prop where
  nodup : nodes.Nodup
  forward : Chained next head nodes
  backward : Chained prev tail nodes.reverse

namespace DoublyLinked

variable {prev next : ι → Option ι} {head tail : Option ι} {nodes : List ι}

/-- A list without nodes. -/
theorem empty (prev next : ι → Option ι) :
    DoublyLinked prev next none none [] :=
  ⟨List.nodup_nil, rfl, rfl⟩

/-- The head is the first node. -/
theorem head_eq
    (linked : DoublyLinked prev next head tail nodes) :
    head = nodes.head? :=
  linked.forward.start_eq

/-- The tail is the last node. -/
theorem tail_eq
    (linked : DoublyLinked prev next head tail nodes) :
    tail = nodes.getLast? := by
  rw [linked.backward.start_eq, List.head?_reverse]

/-- Only the links of the nodes matter. -/
theorem congr
    {prev' next' : ι → Option ι}
    (linked : DoublyLinked prev next head tail nodes)
    (prev_eq : ∀ node ∈ nodes, prev' node = prev node)
    (next_eq : ∀ node ∈ nodes, next' node = next node) :
    DoublyLinked prev' next' head tail nodes where
  nodup := linked.nodup
  forward := linked.forward.congr next_eq
  backward := by
    apply linked.backward.congr
    intro node member
    exact prev_eq node (List.mem_reverse.mp member)

/-- The same list from the other end. -/
theorem reverse
    (linked : DoublyLinked prev next head tail nodes) :
    DoublyLinked next prev tail head nodes.reverse where
  nodup := List.nodup_reverse.mpr linked.nodup
  forward := linked.backward
  backward := by
    rw [List.reverse_reverse]
    exact linked.forward

/-- The link of a node to the one before it. -/
theorem prev_eq
    {left right : List ι}
    {node : ι}
    (linked : DoublyLinked prev next head tail (left ++ node :: right)) :
    prev node = left.getLast? := by
  have backward := linked.backward
  rw [List.reverse_append, List.reverse_cons, List.append_assoc,
    List.singleton_append] at backward
  rw [backward.behind.start_eq, List.head?_reverse]

/-- The link of a node to the one behind it. -/
theorem next_eq
    {left right : List ι}
    {node : ι}
    (linked : DoublyLinked prev next head tail (left ++ node :: right)) :
    next node = right.head? :=
  linked.forward.behind.start_eq

/-- A list of one node that has no links. -/
theorem single
    {node : ι}
    (prev_eq : prev node = none)
    (next_eq : next node = none) :
    DoublyLinked prev next (some node) (some node) [node] where
  nodup := List.nodup_singleton node
  forward := ⟨rfl, next_eq⟩
  backward := ⟨rfl, prev_eq⟩

/-- The first node has no node before it. -/
theorem prev_first
    {node : ι}
    (linked : DoublyLinked prev next head tail (node :: nodes)) :
    prev node = none := by
  have backward := linked.backward
  rw [List.reverse_cons] at backward
  exact backward.next_last

/-- The only node is taken out. -/
theorem popSingle
    {node : ι}
    (linked : DoublyLinked prev next (some node) tail nodes)
    (next_eq : next node = none) :
    nodes = [node] := by
  obtain ⟨rest, rfl, behind⟩ := linked.forward.pop
  rw [next_eq] at behind
  rw [behind.nodes_eq_nil]

variable [DecidableEq ι]

/-- A node outside is linked in behind the tail. -/
theorem append
    {node last : ι}
    (linked : DoublyLinked prev next head (some last) nodes)
    (fresh : node ∉ nodes)
    (next_eq : next node = none) :
    DoublyLinked (Function.update prev node (some last))
      (Function.update next last (some node)) head (some node)
      (nodes ++ [node]) := by
  obtain ⟨left, rfl⟩ : ∃ left, nodes = left ++ [last] :=
    List.getLast?_eq_some_iff.mp linked.tail_eq.symm
  refine ⟨?_, ?_, ?_⟩
  · refine List.nodup_append.mpr
      ⟨linked.nodup, List.nodup_singleton node, ?_⟩
    rintro other member added single rfl
    rw [List.mem_singleton] at single
    exact fresh (single ▸ member)
  · rw [List.append_assoc]
    exact linked.forward.extend linked.nodup fresh next_eq
  · rw [List.reverse_append, List.reverse_singleton, List.singleton_append]
    apply linked.backward.push
    intro member
    exact fresh (List.mem_reverse.mp member)

/-- The first of several nodes is taken out. -/
theorem popFirst
    {node second : ι}
    (linked : DoublyLinked prev next (some node) tail nodes)
    (next_eq : next node = some second) :
    ∃ rest, nodes = node :: rest ∧
      DoublyLinked (Function.update prev second none)
        (Function.update next node none) (some second) tail rest := by
  obtain ⟨rest, rfl, behind⟩ := linked.forward.pop
  refine ⟨rest, rfl, (List.nodup_cons.mp linked.nodup).2, ?_, ?_⟩
  · rw [← next_eq]
    exact linked.forward.removeFirst linked.nodup
  · rw [next_eq] at behind
    obtain ⟨others, rfl, -⟩ := behind.pop
    have backward := linked.backward
    rw [List.reverse_cons, List.reverse_cons, List.append_assoc] at backward
    rw [List.reverse_cons]
    apply backward.cut
    rw [← List.reverse_cons, List.nodup_reverse]
    exact (List.nodup_cons.mp linked.nodup).2

/-- A node anywhere in the list is taken out. -/
theorem remove
    {left right : List ι}
    {node : ι}
    (linked : DoublyLinked prev next head tail (left ++ node :: right)) :
    DoublyLinked (linksWithout prev right.head? node)
      (linksWithout next left.getLast? node)
      (if left = [] then right.head? else head)
      (if right = [] then left.getLast? else tail) (left ++ right) where
  nodup := by
    have nodup := linked.nodup
    rw [List.nodup_middle, List.nodup_cons] at nodup
    exact nodup.2
  forward := by
    have unlinked := linked.forward.remove linked.nodup
    rwa [linked.next_eq] at unlinked
  backward := by
    have backward := linked.backward
    rw [List.reverse_append, List.reverse_cons, List.append_assoc,
      List.singleton_append] at backward
    have unlinked := backward.remove (by simpa using linked.reverse.nodup)
    rw [linked.prev_eq, List.getLast?_reverse] at unlinked
    rw [List.reverse_append]
    simpa using unlinked

end DoublyLinked

end Lpel
