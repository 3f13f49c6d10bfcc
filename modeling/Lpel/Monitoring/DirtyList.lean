import Lpel.Monitoring.Task

/-!
# The dirty list of a monitored task

The dirty list is a chain without repetitions that ends in `ST_DIRTY_END`.  It
has every record of the task with something to print, and `PrintDirtyList` prints
each of them once.
-/

namespace Lpel

variable {κ ω : Type}

/-- The records of a task from a link on. -/
def DirtyChain (mt : κ) (heap : Records κ) : Dirty → List ℕ → Prop
  | link, [] => link = .dirtyEnd
  | link, ms :: rest => link = .stream ms ∧ ∃ record, heap ms = some record ∧
      record.montask = mt ∧ DirtyChain mt heap record.dirty rest

namespace DirtyChain

variable {mt : κ} {heap heap' : Records κ} {link : Dirty} {dirty : List ℕ}

/-- A link of the list is never `NULL`. -/
theorem ne_null
    (chain : DirtyChain mt heap link dirty) :
    link ≠ .null := by
  cases dirty with
  | nil =>
      rw [show link = .dirtyEnd from chain]
      simp
  | cons ms rest =>
      rw [chain.1]
      simp

/-- Only the links of the listed records matter. -/
theorem congr
    (chain : DirtyChain mt heap link dirty)
    (same : ∀ ms ∈ dirty, ∀ record, heap ms = some record →
      ∃ record', heap' ms = some record' ∧ record'.montask = record.montask ∧
        record'.dirty = record.dirty) :
    DirtyChain mt heap' link dirty := by
  induction dirty generalizing link with
  | nil => exact chain
  | cons ms rest inductionHypothesis =>
      obtain ⟨first, record, here, own, behind⟩ := chain
      obtain ⟨record', here', montask, dirty_eq⟩ := same ms (by simp) record here
      refine ⟨first, record', here', montask.trans own, ?_⟩
      rw [dirty_eq]
      apply inductionHypothesis behind
      intro other member
      exact same other (List.mem_cons_of_mem _ member)

/-- Every listed record is one of the task. -/
theorem own
    (chain : DirtyChain mt heap link dirty)
    {ms : ℕ}
    (member : ms ∈ dirty) :
    ∃ record, heap ms = some record ∧ record.montask = mt ∧
      record.dirty ≠ .null := by
  induction dirty generalizing link with
  | nil => cases member
  | cons first rest inductionHypothesis =>
      obtain ⟨-, record, here, own, behind⟩ := chain
      rw [List.mem_cons] at member
      obtain rfl | member := member
      · exact ⟨record, here, own, behind.ne_null⟩
      · exact inductionHypothesis behind member

end DirtyChain

/-- A record is freed when it is printed exactly if it is closed. -/
theorem printedRecord_eq_some_iff (record after : MonStream κ) :
    printedRecord record = some after ↔ record.state ≠ .closed ∧ after =
      { record with
        counter := 0
        state := .inuse
        dirty := .null
        strevtFlags := 0 } := by
  cases state : record.state <;> simp [printedRecord, state, eq_comm]

/-- The records after the listed ones were printed. -/
def printedRecords (heap : Records κ) (dirty : List ℕ) : Records κ := fun ms =>
  if ms ∈ dirty then (heap ms).bind printedRecord else heap ms

/-- What is printed of the listed records. -/
def dirtyEntries (heap : Records κ) (dirty : List ℕ) : List StreamEntry :=
  dirty.filterMap fun ms => (heap ms).map printEntry

/-- The listed records, and what is printed of them. -/
theorem DirtyChain.exists_listed
    {mt : κ}
    {heap : Records κ}
    {link : Dirty}
    {dirty : List ℕ}
    (chain : DirtyChain mt heap link dirty) :
    ∃ records : List (MonStream κ), dirty.map heap = records.map some ∧
      dirtyEntries heap dirty = records.map printEntry := by
  induction dirty generalizing link with
  | nil => exact ⟨[], rfl, rfl⟩
  | cons ms rest inductionHypothesis =>
      obtain ⟨-, record, here, -, behind⟩ := chain
      obtain ⟨records, listed, entries⟩ := inductionHypothesis behind
      refine ⟨record :: records, ?_, ?_⟩
      · rw [List.map_cons, listed, here, List.map_cons]
      · rw [dirtyEntries] at entries ⊢
        rw [List.filterMap_cons, here, List.map_cons, ← entries]
        rfl

/-- The records that are freed with the list. -/
theorem mem_freedSerials
    {heap : Records κ}
    {dirty : List ℕ}
    (serial : ℕ) :
    serial ∈ freedSerials (dirtyEntries heap dirty) ↔
      ∃ ms ∈ dirty, ∃ record, heap ms = some record ∧
        record.state = .closed ∧ record.serial = serial := by
  simp only [freedSerials, dirtyEntries, List.mem_map, List.mem_filter,
    List.mem_filterMap, Option.map_eq_some_iff, decide_eq_true_eq]
  constructor
  · rintro ⟨_, ⟨⟨ms, member, record, here, rfl⟩, closed⟩, rfl⟩
    exact ⟨ms, member, record, here, closed, rfl⟩
  · rintro ⟨ms, member, record, here, closed, rfl⟩
    exact ⟨printEntry record, ⟨⟨ms, member, record, here, rfl⟩, closed⟩, rfl⟩

/-- `PrintDirtyList` prints every record of the list once, in its order. -/
theorem printDirtyList_eq
    [DecidableEq κ]
    {mt : κ}
    {heap : Records κ}
    {link : Dirty}
    {dirty : List ℕ}
    {rounds : ℕ}
    (chain : DirtyChain mt heap link dirty)
    (nodup : dirty.Nodup)
    (enough : dirty.length ≤ rounds) :
    printDirtyList mt rounds heap link =
      some (printedRecords heap dirty, dirtyEntries heap dirty) := by
  induction dirty generalizing heap link rounds with
  | nil =>
      rw [show link = .dirtyEnd from chain, printDirtyList]
      have unchanged : printedRecords heap [] = heap := by
        funext ms
        rw [printedRecords, if_neg List.not_mem_nil]
      rw [unchanged]
      rfl
  | cons ms rest inductionHypothesis =>
      obtain ⟨rounds, rfl⟩ := Nat.exists_eq_add_one_of_ne_zero
        (Nat.ne_of_gt (Nat.zero_lt_of_lt enough))
      obtain ⟨rfl, record, here, own, behind⟩ := chain
      obtain ⟨fresh, nodup⟩ := List.nodup_cons.mp nodup
      -- the rest of the list is reached through records that were not touched
      have kept (other : ℕ) (member : other ∈ rest) :
          Function.update heap ms (printedRecord record) other = heap other := by
        apply Function.update_of_ne
        rintro rfl
        exact fresh member
      have behind' : DirtyChain mt
          (Function.update heap ms (printedRecord record)) record.dirty rest := by
        apply behind.congr
        intro other member found here'
        exact ⟨found, (kept other member).trans here', rfl, rfl⟩
      rw [printDirtyList, here, Option.bind_some, if_pos own,
        inductionHypothesis behind' nodup (Nat.le_of_succ_le_succ enough),
        Option.map_some, Option.some.injEq, Prod.mk.injEq]
      constructor
      · funext other
        rw [printedRecords, printedRecords]
        by_cases same : other = ms
        · subst same
          rw [if_neg fresh, if_pos (by simp), Function.update_self, here,
            Option.bind_some]
        · by_cases member : other ∈ rest
          · rw [if_pos member, if_pos (by simp [member]), kept other member]
          · rw [if_neg member, if_neg (by simp [same, member]),
              Function.update_of_ne same]
      · rw [dirtyEntries, dirtyEntries, List.filterMap_cons, here]
        refine congrArg (printEntry record :: ·) (List.filterMap_congr ?_)
        intro other member
        rw [kept other member]

/-- `PrintDirtyList` has a round for every record of the list. -/
theorem length_le_of_printDirtyList
    [DecidableEq κ]
    {mt : κ}
    {heap : Records κ}
    {link : Dirty}
    {dirty : List ℕ}
    {rounds : ℕ}
    {result : Records κ × List StreamEntry}
    (chain : DirtyChain mt heap link dirty)
    (nodup : dirty.Nodup)
    (printed : printDirtyList mt rounds heap link = some result) :
    dirty.length ≤ rounds := by
  induction dirty generalizing heap link rounds result with
  | nil => exact Nat.zero_le _
  | cons ms rest inductionHypothesis =>
      obtain ⟨rfl, record, here, own, behind⟩ := chain
      obtain ⟨fresh, nodup⟩ := List.nodup_cons.mp nodup
      cases rounds with
      | zero => cases printed
      | succ rounds =>
          rw [printDirtyList, here, Option.bind_some, if_pos own] at printed
          obtain ⟨behindResult, printed, -⟩ := Option.map_eq_some_iff.mp printed
          apply Nat.succ_le_succ
          refine inductionHypothesis (behind.congr ?_) nodup printed
          intro other member found here'
          refine ⟨found, ?_, rfl, rfl⟩
          rw [← here']
          apply Function.update_of_ne
          rintro rfl
          exact fresh member

/-- The list of a task, with the conditions under which a record is on it. -/
structure Dirtied (mt : MonTask κ ω) (heap : Records κ) (dirty : List ℕ) :
    Prop where
  nodup : dirty.Nodup
  chain : DirtyChain mt.addr heap mt.dirtyList dirty
  mem_iff : ∀ ms, ms ∈ dirty ↔ ∃ record, heap ms = some record ∧
    record.montask = mt.addr ∧ record.dirty ≠ .null
  marked : ∀ ms record, heap ms = some record → record.montask = mt.addr →
    0 < record.counter ∨ record.state ≠ .inuse → record.dirty ≠ .null

namespace Dirtied

variable {mt mt' : MonTask κ ω} {heap : Records κ} {dirty : List ℕ}
variable {ms : ℕ} {record record' : MonStream κ}

/-- A record is changed and stays where it is. -/
theorem keep
    (dirtied : Dirtied mt heap dirty)
    (here : heap ms = some record)
    (own : record.montask = mt.addr)
    (own' : record'.montask = mt.addr)
    (dirty_eq : record'.dirty = record.dirty)
    (marks : 0 < record'.counter ∨ record'.state ≠ .inuse →
      record'.dirty ≠ .null)
    (addr_eq : mt'.addr = mt.addr)
    (list_eq : mt'.dirtyList = mt.dirtyList) :
    Dirtied mt' (Function.update heap ms (some record')) dirty where
  nodup := dirtied.nodup
  chain := by
    rw [addr_eq, list_eq]
    apply dirtied.chain.congr
    intro other _ found here'
    by_cases same : other = ms
    · subst same
      obtain rfl := Option.some.inj (here.symm.trans here')
      exact ⟨record', Function.update_self .., own'.trans own.symm, dirty_eq⟩
    · exact ⟨found, (Function.update_of_ne same ..).trans here', rfl, rfl⟩
  mem_iff := by
    intro other
    rw [dirtied.mem_iff, addr_eq]
    by_cases same : other = ms
    · subst same
      simp [here, own, own', dirty_eq]
    · rw [Function.update_of_ne same]
  marked := by
    intro other found here' own'' marks'
    by_cases same : other = ms
    · subst same
      rw [Function.update_self] at here'
      obtain rfl := Option.some.inj here'
      exact marks marks'
    · rw [Function.update_of_ne same] at here'
      exact dirtied.marked other found here' (own''.trans addr_eq) marks'

/-- A record is put in front of the list. -/
theorem push
    (dirtied : Dirtied mt heap dirty)
    (absent : ms ∉ dirty)
    (own' : record'.montask = mt.addr)
    (dirty_eq : record'.dirty = mt.dirtyList)
    (addr_eq : mt'.addr = mt.addr)
    (list_eq : mt'.dirtyList = .stream ms) :
    Dirtied mt' (Function.update heap ms (some record')) (ms :: dirty) where
  nodup := List.nodup_cons.mpr ⟨absent, dirtied.nodup⟩
  chain := by
    rw [addr_eq]
    refine ⟨list_eq, record', Function.update_self .., own', ?_⟩
    rw [dirty_eq]
    apply dirtied.chain.congr
    intro other member found here'
    refine ⟨found, ?_, rfl, rfl⟩
    rw [← here']
    apply Function.update_of_ne
    rintro rfl
    exact absent member
  mem_iff := by
    intro other
    rw [List.mem_cons, dirtied.mem_iff, addr_eq]
    by_cases same : other = ms
    · subst same
      have listed := dirtied.chain.ne_null
      simp [own', dirty_eq, listed]
    · rw [Function.update_of_ne same]
      simp [same]
  marked := by
    intro other found here' own'' marks'
    by_cases same : other = ms
    · subst same
      rw [Function.update_self] at here'
      obtain rfl := Option.some.inj here'
      rw [dirty_eq]
      exact dirtied.chain.ne_null
    · rw [Function.update_of_ne same] at here'
      exact dirtied.marked other found here' (own''.trans addr_eq) marks'

/-- Changes of foreign records are not changes of the own ones. -/
theorem own_update_iff
    {mt : κ}
    {found : Option (MonStream κ)}
    (before : (heap ms).map MonStream.montask ≠ some mt)
    (after : found.map MonStream.montask ≠ some mt)
    {other : ℕ}
    (own : record.montask = mt) :
    Function.update heap ms found other = some record ↔
      heap other = some record := by
  by_cases same : other = ms
  · subst same
    rw [Function.update_self]
    constructor
    · rintro rfl
      exact absurd (congrArg some own) after
    · intro here
      rw [here] at before
      exact absurd (congrArg some own) before
  · rw [Function.update_of_ne same]

/-- A record of another task is changed. -/
theorem foreign
    (dirtied : Dirtied mt heap dirty)
    {found : Option (MonStream κ)}
    (before : (heap ms).map MonStream.montask ≠ some mt.addr)
    (after : found.map MonStream.montask ≠ some mt.addr) :
    Dirtied mt (Function.update heap ms found) dirty where
  nodup := dirtied.nodup
  chain := by
    apply dirtied.chain.congr
    intro other member record here
    obtain ⟨_, here', own, -⟩ := dirtied.chain.own member
    obtain rfl := Option.some.inj (here.symm.trans here')
    exact ⟨record, (own_update_iff before after own).mpr here, rfl, rfl⟩
  mem_iff := by
    intro other
    rw [dirtied.mem_iff]
    apply exists_congr
    intro record
    constructor
    · rintro ⟨here, own, listed⟩
      exact ⟨(own_update_iff before after own).mpr here, own, listed⟩
    · rintro ⟨here, own, listed⟩
      exact ⟨(own_update_iff before after own).mp here, own, listed⟩
  marked := by
    intro other record here own
    exact dirtied.marked other record
      ((own_update_iff before after own).mp here) own

/-- The list is printed. -/
theorem printed
    (dirtied : Dirtied mt heap dirty) :
    Dirtied { mt with dirtyList := .dirtyEnd } (printedRecords heap dirty) [] := by
  have unlisted (ms : ℕ) (record : MonStream κ)
      (here : printedRecords heap dirty ms = some record)
      (own : record.montask = mt.addr) :
      record.dirty = .null ∧ record.counter = 0 ∧ record.state = .inuse := by
    rw [printedRecords] at here
    split at here
    case isTrue member =>
      obtain ⟨before, -, printed⟩ := Option.bind_eq_some_iff.mp here
      obtain ⟨-, rfl⟩ := (printedRecord_eq_some_iff _ _).mp printed
      exact ⟨rfl, rfl, rfl⟩
    case isFalse absent =>
      have clean : record.dirty = .null := by
        by_contra listed
        exact absent ((dirtied.mem_iff ms).mpr ⟨record, here, own, listed⟩)
      have quiet : ¬(0 < record.counter ∨ record.state ≠ .inuse) :=
        fun marks => dirtied.marked ms record here own marks clean
      rw [not_or, not_not] at quiet
      exact ⟨clean, by omega, quiet.2⟩
  constructor
  case nodup => exact List.nodup_nil
  case chain => rfl
  case mem_iff =>
    intro ms
    constructor
    · intro member
      cases member
    · rintro ⟨record, here, own, listed⟩
      exact absurd (unlisted ms record here own).1 listed
  case marked =>
    intro ms record here own marks
    obtain ⟨-, counter, state⟩ := unlisted ms record here own
    rw [counter, state] at marks
    simp at marks

end Dirtied

end Lpel
