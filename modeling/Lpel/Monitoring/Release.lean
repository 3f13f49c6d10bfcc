import Lpel.Monitoring.Log

/-!
# The release of the records of a monitored task

`MonCbStreamOpen` allocates a record if the streams or the tasks are monitored.
Only `PrintDirtyList` frees records, and `MonCbTaskStop` calls it only if the
streams are monitored.
-/

namespace Lpel

variable {κ ω : Type}

namespace Monitoring

variable {s after : Monitoring κ ω}

/-- Every record that was allocated for the task was freed once. -/
structure Released (s : Monitoring κ ω) : Prop where
  freed : s.freed.Perm (List.range s.opens)
  gone : ∀ ms record, ¬s.Own ms record

/-- What the flags decide about the records. -/
structure Flagged (flags : ℕ) (s : Monitoring κ ω) : Prop where
  flags_eq : s.mt.flags = flags
  freed_eq : flagStreams flags = false → s.freed = []

variable [DecidableEq κ]

/-- Every step keeps the flags. -/
theorem Flagged.step
    {flags : ℕ}
    {label : MonLabel κ ω}
    (flagged : s.Flagged flags)
    (tracked : s.Tracked)
    (taken : s.step label = some after) :
    after.Flagged flags := by
  cases tracked.stepped taken with
  | quiet quiet =>
      refine ⟨quiet.flags_eq.trans flagged.flags_eq, ?_⟩
      rw [quiet.freed_eq]
      exact flagged.freed_eq
  | opened address record opened =>
      refine ⟨opened.flags_eq.trans flagged.flags_eq, ?_⟩
      rw [opened.freed_eq]
      exact flagged.freed_eq
  | written ms record record' items written _ =>
      refine ⟨?_, ?_⟩
      · obtain marked | ⟨same, -⟩ := written.marked
        · exact marked.flags_eq.trans flagged.flags_eq
        · rw [same]
          exact flagged.flags_eq
      · rw [written.freed_eq]
        exact flagged.freed_eq
  | printed dirty printed =>
      refine ⟨?_, ?_⟩
      · rw [printed.mt_eq]
        exact flagged.flags_eq
      · intro without
        have streams := printed.streams
        rw [flagged.flags_eq, without] at streams
        cases streams
  | foreign ms found before later after_eq =>
      rw [after_eq]
      exact ⟨flagged.flags_eq, flagged.freed_eq⟩

theorem Flagged.ofReachable
    {flags : ℕ}
    (reached : (monMachine κ ω flags).Reachable s) :
    s.Flagged flags := by
  refine Machine.Reachable.invariant_of (fun _ => Tracked.ofReachable) ?_ ?_
    reached
  · rintro _ ⟨addr, tid, heap, rfl, -⟩
    exact ⟨rfl, fun _ => rfl⟩
  · intro s label after tracked flagged taken
    exact flagged.step tracked taken

/-- Only a descriptor with a record is open. -/
theorem Tracked.closed_of_records
    (tracked : s.Tracked)
    (closed : ∀ ms ∈ s.records, s.bound ms = none) :
    ∀ ms, s.bound ms = none := by
  intro ms
  rw [Option.eq_none_iff_forall_ne_some]
  intro sid bound
  obtain ⟨record, own, -⟩ := tracked.own_of_bound bound
  rw [closed ms ((tracked.records_iff ms).mpr ⟨record, own⟩)] at bound
  cases bound

/-- The records are released exactly if none is left. -/
theorem Tracked.released_iff
    (tracked : s.Tracked) :
    s.Released ↔ s.records = ∅ := by
  have none : s.records = ∅ ↔ ∀ ms record, ¬s.Own ms record := by
    rw [Finset.eq_empty_iff_forall_notMem]
    simp only [tracked.records_iff, not_exists]
  rw [none]
  constructor
  · intro released
    exact released.gone
  · intro gone
    refine ⟨tracked.serials.perm_range_iff.mpr ?_, gone⟩
    rintro ms serial ⟨record, own, -⟩
    exact gone ms record own

/-- If no descriptor is open, then printing the list frees every record. -/
theorem Printed.records_eq_empty
    {dirty : List ℕ}
    (tracked : s.Tracked)
    (closed : ∀ ms, s.bound ms = none)
    (printed : s.Printed after dirty) :
    after.records = ∅ := by
  rw [printed.records_eq, Finset.filter_eq_empty_iff]
  intro ms member present
  obtain ⟨record, own⟩ := (tracked.records_iff ms).mp member
  have state : record.state = .closed := by
    by_contra opened
    have bound : s.bound ms = some record.sid := by
      rw [tracked.bound_eq]
      exact openSid_eq_some_iff.mpr ⟨record, own, opened, rfl⟩
    rw [closed ms] at bound
    cases bound
  rw [(printed.once.freed_iff ms record own).mpr state] at present
  cases present

/-! ## The end of a task -/

/-- The last callbacks of a task, and what others do in between. -/
def lastCallbacks
    (rounds : ℕ)
    (others : List (ℕ × Option (MonStream κ))) : List (MonLabel κ ω) :=
  .stop taskZombie rounds ::
    (others.map (fun (ms, record) => .others ms record) ++ [.destroy])

/-- After the last stop nothing happens to the records of the task. -/
theorem step_after_stop
    {others : List (ℕ × Option (MonStream κ))}
    {flags : ℕ}
    (executed : (monMachine κ ω flags).run s
      (others.map (fun (ms, record) => .others ms record) ++ [.destroy]) =
        some after) :
    after.records = s.records ∧ after.opens = s.opens := by
  induction others generalizing s with
  | nil =>
      obtain ⟨middle, taken, done⟩ := Option.bind_eq_some_iff.mp executed
      simp only [monMachine, step, Option.ite_none_right_eq_some,
        Option.some.injEq] at taken
      obtain ⟨-, rfl⟩ := taken
      obtain rfl := Option.some.inj done
      exact ⟨rfl, rfl⟩
  | cons other others inductionHypothesis =>
      obtain ⟨middle, taken, rest⟩ := Option.bind_eq_some_iff.mp executed
      simp only [monMachine, step, Option.ite_none_right_eq_some,
        Option.some.injEq] at taken
      obtain ⟨-, rfl⟩ := taken
      have unchanged := inductionHypothesis rest
      exact unchanged

/-- The last callbacks complete. -/
theorem Tracked.lastCallbacks_isSome
    {flags : ℕ}
    (tracked : s.Tracked)
    (running : s.destroyed = false) :
    ∃ rounds, ((monMachine κ ω flags).run s
      (lastCallbacks rounds [])).isSome = true := by
  obtain ⟨dirty, dirtied⟩ := tracked.dirtied
  refine ⟨dirty.length, ?_⟩
  have stops : (monCbTaskStop s.mt s.heap taskZombie dirty.length).isSome =
      true := by
    rw [monCbTaskStop]
    cases s.mt.mw with
    | none => rfl
    | some mw =>
        dsimp only
        split
        · rw [printDirtyList_eq dirtied.chain dirtied.nodup le_rfl]
          rfl
        · rfl
  obtain ⟨⟨mt, heap, entries⟩, stops⟩ := Option.isSome_iff_exists.mp stops
  let stopped : Monitoring κ ω :=
    { s.put (mt, heap) with
      log := s.log ++ entries
      records := s.records.filter fun ms => (heap ms).isSome
      freed := s.freed ++ freedSerials (printedEntries entries) }
  have stop : (monMachine κ ω flags).next s (.stop taskZombie dirty.length) =
      some stopped := by
    change s.step (.stop taskZombie dirty.length) = some stopped
    rw [Monitoring.step, if_pos running, stops, Option.map_some]
  have destroy : (monMachine κ ω flags).next stopped .destroy =
      some { stopped with destroyed := true } := if_pos running
  rw [lastCallbacks, Machine.run, stop, Option.bind_some, List.map_nil,
    List.nil_append, Machine.run, destroy]
  rfl

end Monitoring

/-- A task whose descriptors are all closed ends with its records released exactly
if its streams are monitored or it has opened none. -/
theorem released_iff_streams
    [DecidableEq κ]
    {flags : ℕ}
    {s : Monitoring κ ω}
    (reached : (monMachine κ ω flags).Reachable s)
    (closed : ∀ ms, s.bound ms = none)
    (assigned : s.mt.mw ≠ none)
    (running : s.destroyed = false) :
    (∃ rounds, ((monMachine κ ω flags).run s
      (Monitoring.lastCallbacks rounds [])).isSome = true) ∧
    ∀ rounds others after, (monMachine κ ω flags).run s
        (Monitoring.lastCallbacks rounds others) = some after →
      (after.Released ↔ flagStreams flags = true ∨ s.opens = 0) := by
  have tracked := Monitoring.Tracked.ofReachable reached
  have flagged := Monitoring.Flagged.ofReachable reached
  refine ⟨tracked.lastCallbacks_isSome running, ?_⟩
  intro rounds others after executed
  have last := Machine.Reachable.run reached executed
  have tracked' := Monitoring.Tracked.ofReachable last
  obtain ⟨stopped, taken, rest⟩ := Option.bind_eq_some_iff.mp executed
  obtain ⟨records, opens⟩ := Monitoring.step_after_stop rest
  have stop := tracked.stopped taken
  have opens_eq : after.opens = s.opens := by
    rw [opens]
    obtain ⟨-, quiet⟩ | ⟨dirty, printed⟩ := stop
    · exact quiet.opens_eq
    · exact printed.opens_eq
  constructor
  · intro released
    rw [or_iff_not_imp_left, Bool.not_eq_true]
    intro without
    have freed := released.freed
    rw [(Monitoring.Flagged.ofReachable last).freed_eq without, opens_eq,
      List.nil_perm, List.range_eq_nil] at freed
    exact freed
  · rintro (streams | none)
    · rw [tracked'.released_iff, records]
      obtain ⟨without, -⟩ | ⟨dirty, printed⟩ := stop
      · obtain without | without := without
        · exact absurd without assigned
        · rw [flagged.flags_eq, streams] at without
          cases without
      · exact printed.records_eq_empty tracked closed
    · rw [tracked'.released_iff, Finset.eq_empty_iff_forall_notMem]
      intro ms member
      obtain ⟨record, own⟩ := (tracked'.records_iff ms).mp member
      have less := tracked'.serials.lt ms record.serial ⟨record, own, rfl⟩
      rw [opens_eq, none] at less
      exact absurd less (Nat.not_lt_zero _)

/-- Two descriptors, one of which is closed before a stop. -/
def twoDescriptors : List (MonLabel ℕ ℕ) :=
  [.assign (some 3), .open 5 1 .r, .open 6 2 .w, .readFinish 5, .close 5,
    .stop taskBlocked 2, .writeFinish 6, .close 6]

/-- The records of both descriptors are freed if the streams are monitored. -/
theorem released_iff_streams_two :
    ∃ s, (monMachine ℕ ℕ 16).Reachable s ∧ s.opens = 2 ∧ s.freed = [0] ∧
      ∃ rounds after, (monMachine ℕ ℕ 16).run s
        (Monitoring.lastCallbacks rounds []) = some after ∧ after.Released := by
  obtain ⟨s, reached, tested⟩ := Machine.exists_reachable_of_run
    (monMachine_init 16)
    (by decide : ((monMachine ℕ ℕ 16).run (monitored 16) twoDescriptors).map
      (fun s => decide (s.opens = 2 ∧ s.freed = [0] ∧ s.mt.mw = some 3 ∧
        s.destroyed = false ∧ ∀ ms ∈ s.records, s.bound ms = none)) = some true)
  obtain ⟨opens, freed, worker, running, closed⟩ := of_decide_eq_true tested
  have tracked := Monitoring.Tracked.ofReachable reached
  obtain ⟨⟨rounds, completes⟩, released⟩ := released_iff_streams reached
    (tracked.closed_of_records closed) (by simp [worker]) running
  obtain ⟨after, executed⟩ := Option.isSome_iff_exists.mp completes
  refine ⟨s, reached, opens, freed, rounds, after, executed, ?_⟩
  exact (released rounds [] after executed).mpr (.inl (by decide))

/-- If only the tasks are monitored, then the record of a descriptor is allocated
and never freed. -/
theorem released_tasks :
    ∃ s, (monMachine ℕ ℕ 2).Reachable s ∧ s.mt.mw = some 3 ∧
      (∀ ms, s.bound ms = none) ∧
      ∃ after, (monMachine ℕ ℕ 2).run s
        (Monitoring.lastCallbacks 1 []) = some after ∧
        after.opens = 1 ∧ after.freed = [] ∧ after.heap 5 ≠ none ∧
        ¬after.Released := by
  obtain ⟨s, reached, tested⟩ := Machine.exists_reachable_of_run
    (monMachine_init 2)
    (by decide : ((monMachine ℕ ℕ 2).run (monitored 2)
      [.assign (some 3), .open 5 1 .r, .readFinish 5, .close 5]).map
      (fun s => decide (s.mt.mw = some 3 ∧
        (∀ ms ∈ s.records, s.bound ms = none) ∧
        ((monMachine ℕ ℕ 2).run s (Monitoring.lastCallbacks 1 [])).any
          fun after => decide (after.opens = 1 ∧ after.freed = [] ∧
            after.heap 5 ≠ none))) = some true)
  obtain ⟨worker, closed, ends⟩ := of_decide_eq_true tested
  obtain ⟨after, executed, ended⟩ := (Option.any_eq_true _ _).mp ends
  obtain ⟨opens, freed, kept⟩ := of_decide_eq_true ended
  have tracked := Monitoring.Tracked.ofReachable reached
  refine ⟨s, reached, worker, tracked.closed_of_records closed, after, executed,
    opens, freed, kept, ?_⟩
  intro released
  have all := released.freed
  rw [opens, freed] at all
  exact absurd all (by simp)

end Lpel
