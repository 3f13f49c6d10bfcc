import Mathlib.Algebra.BigOperators.Ring.Finset
import Lpel.Lib.Refinement

/-!
# Bounding runs by a potential

A step of a machine is paid for by a potential, by the steps that it amounts to in
another machine, or by an allowance for its label.  Then the length of a run is
bounded by the potential at its start, by what it amounts to and by the sum of the
allowances.  A state from which the runs of some kind have bounded length can be
continued to one in which no step of that kind is enabled.
-/

namespace Lpel

universe u v

section Sums

variable {ι β : Type*} [DecidableEq ι]

/-- One summand changes with one value of a function. -/
theorem sum_update_of_mem
    (weight : β → ℕ)
    (f : ι → β)
    {s : Finset ι}
    {i : ι}
    (member : i ∈ s)
    (b : β) :
    (∑ x ∈ s, weight (Function.update f i b x)) + weight (f i) =
      (∑ x ∈ s, weight (f x)) + weight b := by
  have others : ∑ x ∈ s.erase i, weight (Function.update f i b x) =
      ∑ x ∈ s.erase i, weight (f x) := by
    refine Finset.sum_congr rfl ?_
    intro x member
    rw [Function.update_of_ne (Finset.ne_of_mem_erase member)]
  rw [← Finset.add_sum_erase _ _ member,
    ← Finset.add_sum_erase _ (fun x => weight (f x)) member, others,
    Function.update_self]
  omega

/-- The same over a finite type. -/
theorem sum_update
    [Fintype ι]
    (weight : β → ℕ)
    (f : ι → β)
    (i : ι)
    (b : β) :
    (∑ x, weight (Function.update f i b x)) + weight (f i) =
      (∑ x, weight (f x)) + weight b :=
  sum_update_of_mem weight f (Finset.mem_univ i) b

end Sums

namespace Refinement

variable {σ σ' : Type u} {ℓ ℓ' : Type v}
variable {concrete : Machine σ ℓ} {abstract : Machine σ' ℓ'}

/-- A run is no longer than what pays for it. -/
theorem length_le
    (refinement : Refinement concrete abstract)
    (potential : σ → ℕ)
    (price : ℕ)
    (allowance : ℓ → ℕ)
    (pays : ∀ state label after, refinement.invariant state →
      concrete.next state label = some after →
        potential after + 1 ≤ potential state +
          price * (refinement.observe state label).length + allowance label)
    {state after : σ}
    {labels : List ℓ}
    (known : refinement.invariant state)
    (executed : concrete.run state labels = some after) :
    potential after + labels.length ≤ potential state +
      price * (refinement.trace state labels).length +
        (labels.map allowance).sum := by
  induction labels generalizing state with
  | nil =>
      obtain rfl := Option.some.inj executed
      simp
  | cons label labels inductionHypothesis =>
      obtain ⟨middle, taken, rest⟩ := Machine.run_cons_iff.mp executed
      have first := pays state label middle known taken
      have later := inductionHypothesis
        (refinement.step state label middle known taken).1 rest
      simp only [trace, taken, List.length_append, List.length_cons,
        List.map_cons, List.sum_cons, Nat.mul_add]
      omega

end Refinement

namespace Machine

variable {σ : Type u} {ℓ : Type v}

/-- Where the runs over some labels are bounded, one of them ends where none of
these labels is enabled. -/
theorem exists_complete_run
    (machine : Machine σ ℓ)
    (kind : ℓ → Prop)
    (bound : ℕ)
    (state : σ)
    (bounded : ∀ labels after, (∀ label ∈ labels, kind label) →
      machine.run state labels = some after → labels.length ≤ bound) :
    ∃ labels after, (∀ label ∈ labels, kind label) ∧
      machine.run state labels = some after ∧
      ∀ label, kind label → machine.next after label = none := by
  induction bound generalizing state with
  | zero =>
      refine ⟨[], state, by simp, rfl, ?_⟩
      intro label isKind
      by_contra enabled
      obtain ⟨after, taken⟩ := Option.ne_none_iff_exists'.mp enabled
      have short := bounded [label] after (by simpa using isKind)
        (run_cons_iff.mpr ⟨after, taken, rfl⟩)
      simp at short
  | succ bound inductionHypothesis =>
      by_cases complete : ∀ label, kind label → machine.next state label = none
      · exact ⟨[], state, by simp, rfl, complete⟩
      · push Not at complete
        obtain ⟨label, isKind, enabled⟩ := complete
        obtain ⟨middle, taken⟩ := Option.ne_none_iff_exists'.mp enabled
        obtain ⟨labels, after, kinds, executed, stops⟩ :=
          inductionHypothesis middle (by
            intro labels after kinds executed
            have short := bounded (label :: labels) after
              (by simpa using ⟨isKind, kinds⟩)
              (run_cons_iff.mpr ⟨middle, taken, executed⟩)
            simpa using short)
        exact ⟨label :: labels, after, by simpa using ⟨isKind, kinds⟩,
          run_cons_iff.mpr ⟨middle, taken, executed⟩, stops⟩

end Machine

end Lpel
