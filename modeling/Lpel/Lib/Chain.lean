import Mathlib.Data.List.Induction
import Mathlib.Data.List.Nodup
import Mathlib.Logic.Function.Basic

/-!
# Lists linked through a field

A list that is reached from a pointer through a `next` field and ends where the
field is `none`.  It is used as a stack: nodes are pushed and popped at the
start, and a node further behind may be taken out.

Several owners may share the links, each with a list of its own from which it
takes nodes for use and to which it gives them back.
-/

namespace Lpel

universe u

variable {ι : Type u}

/-- The nodes from a pointer on. -/
def Chained (next : ι → Option ι) : Option ι → List ι → Prop
  | start, [] => start = none
  | start, node :: nodes => start = some node ∧ Chained next (next node) nodes

/-- The links after the node behind a given one, if any, is taken out. -/
def linksWithout
    [DecidableEq ι]
    (next : ι → Option ι)
    (previous : Option ι)
    (node : ι) : ι → Option ι :=
  match previous with
  | none => Function.update next node none
  | some previous =>
      Function.update (Function.update next previous (next node)) node none

theorem linksWithout_self
    [DecidableEq ι]
    (next : ι → Option ι)
    (previous : Option ι)
    (node : ι) :
    linksWithout next previous node node = none := by
  cases previous <;> exact Function.update_self ..

/-- Only the node and the one before it get another link. -/
theorem linksWithout_of_ne
    [DecidableEq ι]
    (next : ι → Option ι)
    {previous : Option ι}
    {node other : ι}
    (distinct : other ≠ node)
    (notPrevious : some other ≠ previous) :
    linksWithout next previous node other = next other := by
  cases previous with
  | none => exact Function.update_of_ne distinct ..
  | some previous =>
      rw [linksWithout, Function.update_of_ne distinct]
      apply Function.update_of_ne
      rintro rfl
      exact notPrevious rfl

namespace Chained

variable {next : ι → Option ι} {start : Option ι} {nodes : List ι}

/-- Nothing is behind the pointer `none`. -/
theorem nodes_eq_nil
    (chained : Chained next none nodes) :
    nodes = [] := by
  cases nodes with
  | nil => rfl
  | cons node nodes => exact absurd chained.1 (by simp)

/-- The pointer leads to the first node, and its link to the others. -/
theorem pop
    {node : ι}
    (chained : Chained next (some node) nodes) :
    ∃ rest, nodes = node :: rest ∧ Chained next (next node) rest := by
  cases nodes with
  | nil => exact absurd chained (by simp [Chained])
  | cons first rest =>
      obtain ⟨same, behind⟩ := chained
      obtain rfl := Option.some.inj same
      exact ⟨rest, rfl, behind⟩

/-- Only the links of the nodes matter. -/
theorem congr
    {next' : ι → Option ι}
    (chained : Chained next start nodes)
    (agree : ∀ node ∈ nodes, next' node = next node) :
    Chained next' start nodes := by
  induction nodes generalizing start with
  | nil => exact chained
  | cons node nodes inductionHypothesis =>
      refine ⟨chained.1, ?_⟩
      rw [agree node (by simp)]
      apply inductionHypothesis chained.2
      intro other member
      exact agree other (List.mem_cons_of_mem _ member)

/-- A node outside is linked in at the start. -/
theorem push
    [DecidableEq ι]
    {node : ι}
    (chained : Chained next start nodes)
    (fresh : node ∉ nodes) :
    Chained (Function.update next node start) (some node) (node :: nodes) := by
  refine ⟨rfl, ?_⟩
  rw [Function.update_self]
  apply chained.congr
  intro other member
  apply Function.update_of_ne
  rintro rfl
  exact fresh member

/-- What is behind one of the nodes. -/
theorem behind
    {left right : List ι}
    {node : ι}
    (chained : Chained next start (left ++ node :: right)) :
    Chained next (next node) right := by
  induction left generalizing start with
  | nil => exact chained.2
  | cons first left inductionHypothesis => exact inductionHypothesis chained.2

/-- The first node is taken out. -/
theorem removeFirst
    [DecidableEq ι]
    {node : ι}
    (chained : Chained next start (node :: nodes))
    (nodup : (node :: nodes).Nodup) :
    Chained (Function.update next node none) (next node) nodes := by
  apply chained.2.congr
  intro other member
  apply Function.update_of_ne
  rintro rfl
  exact (List.nodup_cons.mp nodup).1 member

/-- A node behind another one is taken out. -/
theorem removeBehind
    [DecidableEq ι]
    {left right : List ι}
    {previous node : ι}
    (chained : Chained next start (left ++ previous :: node :: right))
    (nodup : (left ++ previous :: node :: right).Nodup) :
    Chained
      (Function.update (Function.update next previous (next node)) node none)
      start (left ++ previous :: right) := by
  induction left generalizing start with
  | nil =>
      obtain ⟨first, second, rest⟩ := chained
      simp only [List.nil_append, List.nodup_cons, List.mem_cons, not_or]
        at nodup
      obtain ⟨⟨distinct, outside⟩, outside', -⟩ := nodup
      refine ⟨first, ?_⟩
      rw [Function.update_of_ne distinct, Function.update_self]
      apply rest.congr
      intro other member
      rw [Function.update_of_ne (by rintro rfl; exact outside' member),
        Function.update_of_ne (by rintro rfl; exact outside member)]
  | cons first left inductionHypothesis =>
      rw [List.cons_append, List.nodup_cons] at nodup
      obtain ⟨fresh, nodup⟩ := nodup
      obtain ⟨begins, rest⟩ := chained
      refine ⟨begins, ?_⟩
      rw [Function.update_of_ne (by rintro rfl; simp at fresh),
        Function.update_of_ne (by rintro rfl; simp at fresh)]
      exact inductionHypothesis rest nodup

/-- A node anywhere in the list is taken out. -/
theorem remove
    [DecidableEq ι]
    {left right : List ι}
    {node : ι}
    (chained : Chained next start (left ++ node :: right))
    (nodup : (left ++ node :: right).Nodup) :
    Chained (linksWithout next left.getLast? node)
      (if left = [] then next node else start) (left ++ right) := by
  cases left using List.reverseRecOn with
  | nil => exact chained.removeFirst nodup
  | append_singleton left previous =>
      rw [List.append_assoc, List.singleton_append] at chained nodup
      rw [List.getLast?_concat, if_neg (by simp), List.append_assoc,
        List.singleton_append]
      exact chained.removeBehind nodup

/-- A node outside is linked in at the end. -/
theorem extend
    [DecidableEq ι]
    {left : List ι}
    {last node : ι}
    (chained : Chained next start (left ++ [last]))
    (nodup : (left ++ [last]).Nodup)
    (fresh : node ∉ left ++ [last])
    (ends : next node = none) :
    Chained (Function.update next last (some node)) start
      (left ++ [last, node]) := by
  induction left generalizing start with
  | nil =>
      have distinct : node ≠ last := by simpa using fresh
      refine ⟨chained.1, ?_, ?_⟩
      · exact Function.update_self ..
      · rw [Function.update_of_ne distinct]
        exact ends
  | cons first left inductionHypothesis =>
      rw [List.cons_append, List.nodup_cons] at nodup
      have distinct : first ≠ last := by
        rintro rfl
        simp at nodup
      refine ⟨chained.1, ?_⟩
      rw [Function.update_of_ne distinct]
      apply inductionHypothesis chained.2 nodup.2
      intro member
      exact fresh (List.mem_cons_of_mem _ member)

/-- What is behind a node is cut off. -/
theorem cut
    [DecidableEq ι]
    {left right : List ι}
    {last : ι}
    (chained : Chained next start (left ++ last :: right))
    (nodup : (left ++ [last]).Nodup) :
    Chained (Function.update next last none) start (left ++ [last]) := by
  induction left generalizing start with
  | nil => exact ⟨chained.1, Function.update_self ..⟩
  | cons first left inductionHypothesis =>
      rw [List.cons_append, List.nodup_cons] at nodup
      have distinct : first ≠ last := by
        rintro rfl
        simp at nodup
      refine ⟨chained.1, ?_⟩
      rw [Function.update_of_ne distinct]
      exact inductionHypothesis chained.2 nodup.2

/-- The link of the last node. -/
theorem next_last
    {left : List ι}
    {last : ι}
    (chained : Chained next start (left ++ [last])) :
    next last = none := by
  induction left generalizing start with
  | nil => exact chained.2
  | cons first left inductionHypothesis => exact inductionHypothesis chained.2

/-- The pointer is that of the first node. -/
theorem start_eq
    (chained : Chained next start nodes) :
    start = nodes.head? := by
  cases nodes with
  | nil => exact chained
  | cons node nodes => exact chained.1

end Chained

/-- Every known node is either in use or in the list of exactly one owner, and
there only once. -/
structure FreeLists
    {ω : Type u}
    (next : ι → Option ι)
    (start : ω → Option ι)
    (known inUse : ι → Prop)
    (free : ω → List ι) : Prop where
  chained : ∀ owner, Chained next (start owner) (free owner)
  nodup : ∀ owner, (free owner).Nodup
  apart : ∀ {owner other node}, node ∈ free owner → node ∈ free other →
    owner = other
  unused : ∀ {owner node}, node ∈ free owner → ¬ inUse node
  known_iff : ∀ node, known node ↔ inUse node ∨ ∃ owner, node ∈ free owner

namespace FreeLists

variable {ω : Type u} {next : ι → Option ι} {start : ω → Option ι}
variable {known inUse : ι → Prop} {free : ω → List ι}

/-- Only the links of the free nodes matter. -/
theorem congr
    {next' : ι → Option ι}
    {known' inUse' : ι → Prop}
    (lists : FreeLists next start known inUse free)
    (links : ∀ owner, ∀ node ∈ free owner, next' node = next node)
    (known_iff' : ∀ node, known' node ↔ known node)
    (inUse_iff : ∀ node, inUse' node ↔ inUse node) :
    FreeLists next' start known' inUse' free where
  chained := fun owner => (lists.chained owner).congr (links owner)
  nodup := lists.nodup
  apart := lists.apart
  unused := fun member used => lists.unused member ((inUse_iff _).mp used)
  known_iff := fun node => by
    rw [known_iff', inUse_iff]
    exact lists.known_iff node

/-- The first node of a list. -/
theorem first
    (lists : FreeLists next start known inUse free)
    {owner : ω}
    {node : ι}
    (begins : start owner = some node) :
    ∃ rest, free owner = node :: rest := by
  have chained := lists.chained owner
  rw [begins] at chained
  obtain ⟨rest, nodes, -⟩ := chained.pop
  exact ⟨rest, nodes⟩

/-- A new node is used at once. -/
theorem allocate
    (lists : FreeLists next start known inUse free)
    {node : ι}
    (fresh : ¬ known node) :
    FreeLists next start (fun other => other = node ∨ known other)
      (fun other => other = node ∨ inUse other) free where
  chained := lists.chained
  nodup := lists.nodup
  apart := lists.apart
  unused := by
    rintro owner other member (rfl | used)
    · exact fresh ((lists.known_iff other).mpr (.inr ⟨owner, member⟩))
    · exact lists.unused member used
  known_iff := fun other => by
    rw [lists.known_iff, or_assoc]

variable [DecidableEq ι] [DecidableEq ω]

/-- A node in use is given back to an owner. -/
theorem put
    (lists : FreeLists next start known inUse free)
    (owner : ω)
    {node : ι}
    (used : inUse node) :
    FreeLists (Function.update next node (start owner))
      (Function.update start owner (some node)) known
      (fun other => other ≠ node ∧ inUse other)
      (Function.update free owner (node :: free owner)) := by
  have outside (other : ω) : node ∉ free other := fun member =>
    lists.unused member used
  have mem_iff (other : ω) (item : ι) :
      item ∈ Function.update free owner (node :: free owner) other ↔
        (other = owner ∧ item = node) ∨ item ∈ free other := by
    by_cases same : other = owner
    · subst same
      simp
    · simp [same]
  constructor
  case chained =>
    intro other
    by_cases same : other = owner
    · subst same
      rw [Function.update_self, Function.update_self]
      exact (lists.chained other).push (outside other)
    · rw [Function.update_of_ne same, Function.update_of_ne same]
      apply (lists.chained other).congr
      intro item member
      apply Function.update_of_ne
      rintro rfl
      exact outside other member
  case nodup =>
    intro other
    by_cases same : other = owner
    · subst same
      rw [Function.update_self]
      exact List.nodup_cons.mpr ⟨outside other, lists.nodup other⟩
    · rw [Function.update_of_ne same]
      exact lists.nodup other
  case apart =>
    intro here there item member member'
    rw [mem_iff] at member member'
    obtain ⟨rfl, rfl⟩ | member := member
    · obtain ⟨rfl, -⟩ | member' := member'
      · rfl
      · exact absurd member' (outside there)
    · obtain ⟨rfl, rfl⟩ | member' := member'
      · exact absurd member (outside here)
      · exact lists.apart member member'
  case unused =>
    rintro other item member ⟨distinct, stillUsed⟩
    rw [mem_iff] at member
    obtain ⟨-, rfl⟩ | member := member
    · exact distinct rfl
    · exact lists.unused member stillUsed
  case known_iff =>
    intro item
    rw [lists.known_iff]
    simp only [mem_iff]
    by_cases same : item = node
    · subst same
      simp [used]
    · simp [same]

/-- A node is taken from the list of an owner. -/
theorem take
    (lists : FreeLists next start known inUse free)
    {owner : ω}
    {node : ι}
    (left right : List ι)
    (nodes : free owner = left ++ node :: right)
    {next' : ι → Option ι}
    {first : Option ι}
    (chained : Chained next' first (left ++ right))
    (others : ∀ item, item ∉ free owner → next' item = next item) :
    FreeLists next' (Function.update start owner first) known
      (fun other => other = node ∨ inUse other)
      (Function.update free owner (left ++ right)) := by
  have nodup := lists.nodup owner
  rw [nodes, List.nodup_middle, List.nodup_cons] at nodup
  obtain ⟨outside, nodup⟩ := nodup
  have member : node ∈ free owner := by
    rw [nodes]
    simp
  have mem_iff (other : ω) (item : ι) :
      item ∈ Function.update free owner (left ++ right) other ↔
        item ∈ free other ∧ item ≠ node := by
    by_cases same : other = owner
    · subst same
      rw [Function.update_self, nodes]
      constructor
      · intro inside
        refine ⟨?_, ?_⟩
        · rw [List.mem_append] at inside ⊢
          exact inside.imp id (List.mem_cons_of_mem node)
        · rintro rfl
          exact outside inside
      · rintro ⟨inside, distinct⟩
        simpa [distinct] using inside
    · rw [Function.update_of_ne same]
      constructor
      · intro inside
        refine ⟨inside, ?_⟩
        rintro rfl
        exact same (lists.apart inside member)
      · exact fun inside => inside.1
  constructor
  case chained =>
    intro other
    by_cases same : other = owner
    · subst same
      rw [Function.update_self, Function.update_self]
      exact chained
    · rw [Function.update_of_ne same, Function.update_of_ne same]
      apply (lists.chained other).congr
      intro item inside
      exact others item fun inside' => same (lists.apart inside inside')
  case nodup =>
    intro other
    by_cases same : other = owner
    · subst same
      rw [Function.update_self]
      exact nodup
    · rw [Function.update_of_ne same]
      exact lists.nodup other
  case apart =>
    intro here there item inside inside'
    rw [mem_iff] at inside inside'
    exact lists.apart inside.1 inside'.1
  case unused =>
    rintro other item inside (rfl | used)
    · exact ((mem_iff other item).mp inside).2 rfl
    · exact lists.unused ((mem_iff other item).mp inside).1 used
  case known_iff =>
    intro item
    rw [lists.known_iff]
    simp only [mem_iff]
    by_cases same : item = node
    · subst same
      simp only [true_or, iff_true]
      exact .inr ⟨owner, member⟩
    · simp [same]

end FreeLists

end Lpel
