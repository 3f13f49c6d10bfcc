import Lpel.Monitoring.Log

/-!
# The items of each stream in the log

`MonCbStreamReplace` changes the stream that a record names and keeps its counter.
What was counted for the old stream and was not printed yet is then printed for the
new one.
-/

namespace Lpel

variable {κ ω : Type}

namespace Monitoring

variable {s after : Monitoring κ ω}

/-- For every stream, the counters that were printed for it and those of the
records that name it make up the items that were moved for it. -/
def Attributed (s : Monitoring κ ω) : Prop :=
  s.Balanced StreamEntry.sid s.moved

/-- A descriptor is bound to another stream while its counter is zero. -/
def ReplaceOk (s : Monitoring κ ω) : MonLabel κ ω → Prop
  | .replace ms newSid => ∀ record, s.heap ms = some record →
      record.counter = 0 ∨ record.sid = newSid
  | _ => True

variable [DecidableEq κ]

/-- A change of the key takes a counter with it. -/
theorem Written.balanced_iff
    {key : StreamEntry → ℕ}
    {total : ℕ → ℕ}
    {ms : ℕ}
    {record record' : MonStream κ}
    (balanced : s.Balanced key total)
    (tracked : s.Tracked)
    (written : s.Written after ms record record' 0) :
    after.Balanced key total ↔
      record.counter = 0 ∨ key (printEntry record) = key (printEntry record') := by
  have exchanged (n : ℕ) : unprintedCount key n after + _ = _ :=
    written.unprinted_eq tracked n
  have counter : (printEntry record').counter = record.counter :=
    written.counter_eq
  constructor
  · intro balanced'
    rw [or_iff_not_imp_right]
    intro other
    have before := balanced (key (printEntry record))
    have later := balanced' (key (printEntry record))
    have change := exchanged (key (printEntry record))
    rw [amount, amount, if_pos rfl, if_neg (Ne.symm other)] at change
    rw [printedCount] at before
    rw [printedCount, written.printed_eq] at later
    have own : (printEntry record).counter = record.counter := rfl
    omega
  · intro kept n
    have same : amount key n (printEntry record') =
        amount key n (printEntry record) := by
      rw [amount, amount, counter]
      obtain zero | same := kept
      · rw [zero, ite_self, show (printEntry record).counter = 0 from zero,
          ite_self]
      · rw [same]
        rfl
    have change := exchanged n
    have before := balanced n
    rw [same] at change
    rw [printedCount] at before
    rw [printedCount, written.printed_eq]
    omega

/-- A step that meets the condition keeps the attribution. -/
theorem Attributed.step
    {label : MonLabel κ ω}
    (attributed : s.Attributed)
    (tracked : s.Tracked)
    (taken : s.step label = some after)
    (ok : s.ReplaceOk label) :
    after.Attributed := by
  rw [Attributed] at attributed ⊢
  cases tracked.stepped taken with
  | quiet quiet =>
      rw [quiet.moved_eq]
      exact attributed.ofQuiet quiet
  | opened address record opened =>
      rw [opened.moved_eq]
      exact attributed.ofOpened tracked opened
  | written ms record record' items written sid_eq =>
      obtain same | ⟨rfl, rfl⟩ := sid_eq
      · rw [written.moved_eq]
        exact attributed.ofWritten tracked written same
      · rw [written.moved_eq, Nat.add_zero, Function.update_eq_self]
        exact (written.balanced_iff attributed tracked).mpr
          (ok record written.own.1)
  | printed dirty printed =>
      rw [printed.moved_eq]
      exact attributed.ofPrinted tracked printed
  | foreign ms found before later after_eq =>
      rw [after_eq]
      exact attributed.ofForeign tracked before

/-- A step that does not meet the condition loses the attribution. -/
theorem Attributed.replaceOk
    {label : MonLabel κ ω}
    (attributed : s.Attributed)
    (tracked : s.Tracked)
    (taken : s.step label = some after)
    (attributed' : after.Attributed) :
    s.ReplaceOk label := by
  cases label with
  | replace ms newSid =>
      obtain ⟨record, record', written, rfl⟩ := tracked.replace taken
      intro found here
      obtain rfl := Option.some.inj (written.own.1.symm.trans here)
      rw [Attributed, written.moved_eq, Nat.add_zero,
        Function.update_eq_self] at attributed'
      exact (written.balanced_iff attributed tracked).mp attributed'
  | _ => trivial

end Monitoring

/-- The log attributes items to the right streams along exactly the sequences of
callbacks in which a descriptor is only bound to another stream while its counter
is zero. -/
theorem attributed_iff
    [DecidableEq κ]
    {flags : ℕ}
    {start : Monitoring κ ω}
    (initial : (monMachine κ ω flags).init start)
    (labels : List (MonLabel κ ω)) :
    (monMachine κ ω flags).HoldsAlong Monitoring.Attributed start labels ↔
      (monMachine κ ω flags).StepsMeet Monitoring.ReplaceOk start labels := by
  refine Machine.holdsAlong_iff_stepsMeet
    (fun s => s.Tracked ∧ s.Attributed) ?_ ?_ ?_ ?_ labels
  · rintro s ⟨-, attributed⟩
    exact attributed
  · rintro s label after ⟨tracked, attributed⟩ taken ok
    exact ⟨tracked.step taken, attributed.step tracked taken ok⟩
  · rintro s label after ⟨tracked, attributed⟩ taken attributed'
    exact attributed.replaceOk tracked taken attributed'
  · obtain ⟨addr, tid, heap, rfl, others⟩ := initial
    exact ⟨.initial others, .initial _ addr tid flags heap⟩

/-- The condition on the records of a concrete run. -/
def replaceTest (s : Monitoring ℕ ℕ) : MonLabel ℕ ℕ → Bool
  | .replace ms newSid =>
      (s.heap ms).all fun record =>
        decide (record.counter = 0 ∨ record.sid = newSid)
  | _ => true

/-- Two items of stream 1 are printed before the descriptor is bound to stream
2. -/
theorem attributed_iff_printed :
    ((monMachine ℕ ℕ 16).run (monitored 16)
      [.assign (some 3), .open 5 1 .r, .readFinish 5, .readFinish 5,
        .stop taskBlocked 1, .replace 5 2, .readFinish 5, .close 5,
        .stop taskZombie 1]).isSome = true ∧
    (monMachine ℕ ℕ 16).HoldsAlong Monitoring.Attributed (monitored 16)
      [.assign (some 3), .open 5 1 .r, .readFinish 5, .readFinish 5,
        .stop taskBlocked 1, .replace 5 2, .readFinish 5, .close 5,
        .stop taskZombie 1] := by
  refine ⟨by decide, (attributed_iff (monMachine_init 16) _).mpr ?_⟩
  refine Machine.stepsMeet_of_runBy ?_
    (by decide : ((monMachine ℕ ℕ 16).runBy replaceTest (monitored 16)
      _).isSome = true)
  intro s label tested
  cases label with
  | replace ms newSid =>
      intro record here
      rw [replaceTest, here] at tested
      exact of_decide_eq_true tested
  | _ => trivial

/-- An item of stream 1 is printed for stream 2, whose descriptor moved
nothing. -/
theorem attributed_replaced :
    ∃ s, (monMachine ℕ ℕ 16).Reachable s ∧
      printedEntries s.log = [⟨2, .r, .replaced, 1, false, false, true, 0⟩] ∧
      s.moved 1 = 1 ∧ s.moved 2 = 0 ∧ ¬s.Attributed := by
  obtain ⟨s, reached, tested⟩ := Machine.exists_reachable_of_run
    (monMachine_init 16)
    (by decide : ((monMachine ℕ ℕ 16).run (monitored 16)
      [.assign (some 3), .open 5 1 .r, .readFinish 5, .replace 5 2,
        .stop taskBlocked 1]).map
      (fun s => decide (
        printedEntries s.log = [⟨2, .r, .replaced, 1, false, false, true, 0⟩] ∧
          s.moved 1 = 1 ∧ s.moved 2 = 0)) = some true)
  obtain ⟨printed, one, two⟩ := of_decide_eq_true tested
  refine ⟨s, reached, printed, one, two, ?_⟩
  intro attributed
  have counted := attributed 2
  rw [Monitoring.printedCount, printed, two] at counted
  exact absurd counted (by simp [Monitoring.amount])

end Lpel
