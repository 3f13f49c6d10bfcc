import Mathlib.Algebra.Order.BigOperators.Group.Finset

/-!
# Accounts of anonymous tokens

Parties signal each other by tokens, as with counting semaphores.  Each party
has one store of tokens, to which every party may add and from which only its
owner takes.  Nothing in a store tells who has posted a token or what for.  What
can be said is the balance of each store, and a party that has taken as many
tokens as all the others can have posted has met them all.
-/

namespace Lpel

universe u

variable {ι : Type u} [Fintype ι]

/-- What is in the store of a party and what it has taken were posted to it. -/
def Balanced (stored taken : ι → ℕ) (posted : ι → ι → ℕ) : Prop :=
  ∀ v, stored v + taken v = ∑ u, posted u v

namespace Balanced

variable {stored taken stored' taken' : ι → ℕ} {posted posted' : ι → ι → ℕ}

/-- One party acts: it posts tokens to others and takes tokens of its own. -/
theorem act
    [DecidableEq ι]
    (balanced : Balanced stored taken posted)
    (w : ι)
    (keepsTaken : ∀ v, v ≠ w → taken' v = taken v)
    (keepsPosted : ∀ u, u ≠ w → ∀ v, posted' u v = posted u v)
    (others : ∀ v, v ≠ w → stored' v + posted w v = stored v + posted' w v)
    (own : stored' w + taken' w + posted w w =
      stored w + taken w + posted' w w) :
    Balanced stored' taken' posted' := by
  intro v
  have before := balanced v
  rw [← Finset.add_sum_erase _ _ (Finset.mem_univ w)] at before ⊢
  have same : ∑ u ∈ Finset.univ.erase w, posted' u v =
      ∑ u ∈ Finset.univ.erase w, posted u v := by
    refine Finset.sum_congr rfl ?_
    intro u member
    exact keepsPosted u (Finset.ne_of_mem_erase member) v
  rw [same]
  by_cases here : v = w
  · subst here
    omega
  · have moved := others v here
    rw [keepsTaken v here]
    omega

/-- A party that has taken as many tokens as could have been posted to it has
emptied its store, and every party has posted what it could. -/
theorem exhausted
    (balanced : Balanced stored taken posted)
    (v : ι)
    (limit : ι → ℕ)
    (bounded : ∀ u, posted u v ≤ limit u)
    (enough : ∑ u, limit u ≤ taken v) :
    stored v = 0 ∧ ∀ u, posted u v = limit u := by
  have account := balanced v
  have below : ∑ u, posted u v ≤ ∑ u, limit u :=
    Finset.sum_le_sum fun u _ => bounded u
  have equal : ∑ u, posted u v = ∑ u, limit u := by omega
  refine ⟨by omega, ?_⟩
  intro u
  exact (Finset.sum_eq_sum_iff_of_le fun u _ => bounded u).mp equal u
    (Finset.mem_univ u)

/-- A party takes nothing when nothing is posted to it. -/
theorem untouched
    (balanced : Balanced stored taken posted)
    (v : ι)
    (nothing : ∀ u, posted u v = 0) :
    taken v = 0 := by
  have account := balanced v
  rw [Finset.sum_eq_zero fun u _ => nothing u] at account
  omega

end Balanced

end Lpel
