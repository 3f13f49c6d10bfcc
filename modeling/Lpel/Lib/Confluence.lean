import Mathlib.Data.Multiset.AddSub
import Lpel.Lib.Refinement

/-!
# Machines whose steps commute

Two different labels that are enabled in the same state can be taken in either
order, with the same result.  Then all runs from a state can be joined: what one
of them has done and the other has not can be added to the other.  A run that
gets stuck has done everything that any run can do, so the order of the steps
decides nothing.
-/

namespace Lpel
namespace Machine

universe u v w

variable {σ : Type u} {ℓ : Type v}

/-- Different labels that are both enabled can be taken in either order. -/
def Commutes (machine : Machine σ ℓ) : Prop :=
  ∀ state first second afterFirst afterSecond, first ≠ second →
    machine.next state first = some afterFirst →
    machine.next state second = some afterSecond →
    ∃ joined, machine.next afterFirst second = some joined ∧
      machine.next afterSecond first = some joined

/-- No step is enabled. -/
def Stuck (machine : Machine σ ℓ) (state : σ) : Prop :=
  ∀ label, machine.next state label = none

/-- The only run from a stuck state is the empty one. -/
theorem Stuck.run_eq
    {machine : Machine σ ℓ}
    {state after : σ}
    {labels : List ℓ}
    (stuck : machine.Stuck state)
    (executed : machine.run state labels = some after) :
    labels = [] ∧ after = state := by
  cases labels with
  | nil => exact ⟨rfl, (Option.some.inj executed).symm⟩
  | cons label labels =>
      obtain ⟨middle, taken, -⟩ := run_cons_iff.mp executed
      rw [stuck label] at taken
      cases taken

/-- A step that a run does not take can be taken before it or after it. -/
theorem Commutes.postpone
    {machine : Machine σ ℓ}
    (commutes : machine.Commutes)
    {state after last : σ}
    {label : ℓ}
    {labels : List ℓ}
    (absent : label ∉ labels)
    (taken : machine.next state label = some after)
    (executed : machine.run state labels = some last) :
    ∃ joined, machine.run after labels = some joined ∧
      machine.next last label = some joined := by
  induction labels generalizing state after with
  | nil =>
      obtain rfl := Option.some.inj executed
      exact ⟨after, rfl, taken⟩
  | cons first labels inductionHypothesis =>
      obtain ⟨distinct, absent⟩ := not_or.mp (List.mem_cons.not.mp absent)
      obtain ⟨middle, began, rest⟩ := run_cons_iff.mp executed
      obtain ⟨corner, below, beside⟩ :=
        commutes state label first after middle distinct taken began
      obtain ⟨joined, runs, ends⟩ := inductionHypothesis absent beside rest
      exact ⟨joined, run_cons_iff.mpr ⟨corner, below, runs⟩, ends⟩

/-- What is observed of a state grows along a run. -/
theorem prefix_of_run
    {machine : Machine σ ℓ}
    {β : Type w}
    {observed : σ → List β}
    (grows : ∀ state label after, machine.next state label = some after →
      observed state <+: observed after)
    {state last : σ}
    {labels : List ℓ}
    (executed : machine.run state labels = some last) :
    observed state <+: observed last := by
  induction labels generalizing state with
  | nil =>
      obtain rfl := Option.some.inj executed
      exact List.prefix_refl _
  | cons label labels inductionHypothesis =>
      obtain ⟨middle, began, rest⟩ := run_cons_iff.mp executed
      exact (grows _ _ _ began).trans (inductionHypothesis rest)

variable [DecidableEq ℓ]

/-- A step that is enabled at the start of a run that takes it can be taken
first. -/
theorem Commutes.advance
    {machine : Machine σ ℓ}
    (commutes : machine.Commutes)
    {state after last : σ}
    {label : ℓ}
    {labels : List ℓ}
    (present : label ∈ labels)
    (taken : machine.next state label = some after)
    (executed : machine.run state labels = some last) :
    machine.run after (labels.erase label) = some last := by
  induction labels generalizing state after with
  | nil => cases present
  | cons first labels inductionHypothesis =>
      obtain ⟨middle, began, rest⟩ := run_cons_iff.mp executed
      by_cases same : first = label
      · subst same
        rw [taken] at began
        obtain rfl := Option.some.inj began
        rwa [List.erase_cons_head]
      · obtain ⟨corner, below, beside⟩ := commutes state label first after middle
          (Ne.symm same) taken began
        rw [List.erase_cons_tail (by simpa using same)]
        have later : label ∈ labels :=
          (List.mem_cons.mp present).resolve_left (Ne.symm same)
        exact run_cons_iff.mpr
          ⟨corner, below, inductionHypothesis later beside rest⟩

/-- Two runs from one state are joined by what each of them has left out. -/
theorem Commutes.join
    {machine : Machine σ ℓ}
    (commutes : machine.Commutes)
    {state last last' : σ}
    {labels labels' : List ℓ}
    (executed : machine.run state labels = some last)
    (executed' : machine.run state labels' = some last') :
    ∃ joined, machine.run last (labels'.diff labels) = some joined ∧
      machine.run last' (labels.diff labels') = some joined := by
  induction labels generalizing state labels' last' with
  | nil =>
      obtain rfl := Option.some.inj executed
      refine ⟨last', ?_, ?_⟩
      · rwa [List.diff_nil]
      · rw [List.nil_diff]
        rfl
  | cons label labels inductionHypothesis =>
      obtain ⟨middle, began, rest⟩ := run_cons_iff.mp executed
      by_cases present : label ∈ labels'
      · have shortened := commutes.advance present began executed'
        obtain ⟨joined, here, there⟩ := inductionHypothesis rest shortened
        refine ⟨joined, ?_, ?_⟩
        · rwa [List.diff_cons]
        · rwa [List.cons_diff_of_mem present]
      · obtain ⟨corner, along, taken⟩ :=
          commutes.postpone present began executed'
        obtain ⟨joined, here, there⟩ := inductionHypothesis rest along
        refine ⟨joined, ?_, ?_⟩
        · rwa [List.diff_cons, List.erase_of_not_mem present]
        · rw [List.cons_diff_of_not_mem present]
          exact run_cons_iff.mpr ⟨corner, taken, there⟩

/-- Every run is part of one that gets stuck, and can be completed to it. -/
theorem Commutes.complete
    {machine : Machine σ ℓ}
    (commutes : machine.Commutes)
    {state last last' : σ}
    {labels labels' : List ℓ}
    (executed : machine.run state labels = some last)
    (stuck : machine.Stuck last)
    (executed' : machine.run state labels' = some last') :
    List.Subperm labels' labels ∧
      machine.run last' (labels.diff labels') = some last := by
  obtain ⟨joined, here, there⟩ := commutes.join executed executed'
  obtain ⟨nothing, rfl⟩ := stuck.run_eq here
  refine ⟨?_, there⟩
  have covered : (labels' : Multiset ℓ) ≤ (labels' - labels : Multiset ℓ) + labels :=
    Multiset.le_sub_add
  rw [Multiset.coe_sub, nothing, Multiset.coe_nil, Multiset.zero_add] at covered
  exact Multiset.coe_le.mp covered

/-- All runs that get stuck end in the same state. -/
theorem Commutes.stuck_unique
    {machine : Machine σ ℓ}
    (commutes : machine.Commutes)
    {state last last' : σ}
    {labels labels' : List ℓ}
    (executed : machine.run state labels = some last)
    (stuck : machine.Stuck last)
    (executed' : machine.run state labels' = some last')
    (stuck' : machine.Stuck last') :
    last' = last := by
  obtain ⟨-, rest⟩ := commutes.complete executed stuck executed'
  exact (stuck'.run_eq rest).2.symm

/-- What two runs have shown by then differs only in how far they have come. -/
theorem Commutes.comparable
    {machine : Machine σ ℓ}
    (commutes : machine.Commutes)
    {β : Type w}
    {observed : σ → List β}
    (grows : ∀ state label after, machine.next state label = some after →
      observed state <+: observed after)
    {state last last' : σ}
    {labels labels' : List ℓ}
    (executed : machine.run state labels = some last)
    (executed' : machine.run state labels' = some last') :
    observed last <+: observed last' ∨ observed last' <+: observed last := by
  obtain ⟨joined, here, there⟩ := commutes.join executed executed'
  exact List.prefix_or_prefix_of_prefix (prefix_of_run grows here)
    (prefix_of_run grows there)

end Machine
end Lpel
