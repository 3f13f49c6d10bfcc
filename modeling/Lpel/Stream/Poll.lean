import Lpel.Stream.Read

/-!
# Steps of a poll

A poll goes to `PollWait` when it places the token.  It leaves that situation
either by taking the token back, having seen an item in the registration loop,
or by being woken by the producer that has taken the token.
-/

namespace Lpel
namespace StreamSystem

variable {ι α : Type} [DecidableEq ι] {config : Config ι α}

namespace Invariant

variable {before after : State config}

/-- What a step of a poll leaves alone. -/
structure PollFrame (before after : State config) : Prop where
  stream : ∀ i,
    (after.stream i).buffer = (before.stream i).buffer ∧
    (after.stream i).nSem = (before.stream i).nSem ∧
    (after.stream i).eSem = (before.stream i).eSem
  prod_eq : after.prod = before.prod
  prodWake_eq : after.prodWake = before.prodWake
  written_eq : after.written = before.written
  popped_eq : after.popped = before.popped
  prodBlocks_eq : after.prodBlocks = before.prodBlocks
  prodUnblocks_eq : after.prodUnblocks = before.prodUnblocks
  streamLive_eq : after.streamLive = before.streamLive
  prodSdLive_eq : after.prodSdLive = before.prodSdLive
  consSdLive_eq : after.consSdLive = before.consSdLive
  readBlocks_eq : after.readBlocks = before.readBlocks
  readUnblocks_eq : after.readUnblocks = before.readUnblocks

/-- A step between positions outside of a read, put together from its parts. -/
theorem pollMove
    (invariant : Invariant before)
    (frame : PollFrame before after)
    (before_role : ∀ i, before.cons.role i = .none)
    (after_role : ∀ i, after.cons.role i = .none)
    (ring : after.ring.Spells after.members)
    (cons : ConsOk after after.cons) :
    Invariant after := by
  refine invariant.consumer ?_ cons ring ?_ frame.prod_eq frame.written_eq
    frame.streamLive_eq frame.prodSdLive_eq frame.consSdLive_eq ?_
  · refine invariant.streams_of_poll frame.stream ?_
      ⟨frame.prod_eq, frame.prodWake_eq, frame.written_eq, frame.popped_eq,
        frame.prodBlocks_eq, frame.prodUnblocks_eq⟩
    intro i
    rw [before_role, after_role]
  · intro i
    have readCount := invariant.readCount i
    simpa [before_role, after_role, frame.readBlocks_eq,
      frame.readUnblocks_eq] using readCount
  · intro i uses
    exact absurd (after_role i) uses

omit [DecidableEq ι] in
/-- A step of a poll that writes no stream. -/
theorem PollFrame.ofState
    {wakeupSd : Option ι}
    {pollToken : Bool}
    {ring pollRing : Streamset ι}
    {members pollMembers : List ι}
    {cons : ConsPc ι}
    {consWake pollBlocks pollWakes : ℕ} :
    PollFrame before
      { before with
        wakeupSd := wakeupSd, pollToken := pollToken, ring := ring
        members := members, cons := cons, consWake := consWake
        pollBlocks := pollBlocks, pollWakes := pollWakes
        pollRing := pollRing, pollMembers := pollMembers } where
  stream := fun _ => ⟨rfl, rfl, rfl⟩
  prod_eq := rfl
  prodWake_eq := rfl
  written_eq := rfl
  popped_eq := rfl
  prodBlocks_eq := rfl
  prodUnblocks_eq := rfl
  streamLive_eq := rfl
  prodSdLive_eq := rfl
  consSdLive_eq := rfl
  readBlocks_eq := rfl
  readUnblocks_eq := rfl

/-- A step of a poll that marks or unmarks one stream. -/
theorem PollFrame.ofIsPoll
    (sd : ι)
    (isPoll : Bool)
    {cons : ConsPc ι} :
    PollFrame before
      { before with
        stream := Function.update before.stream sd
          { before.stream sd with isPoll := isPoll }
        cons := cons } where
  stream := by
    intro i
    by_cases same : i = sd
    · subst same
      simp
    · simp [same]
  prod_eq := rfl
  prodWake_eq := rfl
  written_eq := rfl
  popped_eq := rfl
  prodBlocks_eq := rfl
  prodUnblocks_eq := rfl
  streamLive_eq := rfl
  prodSdLive_eq := rfl
  consSdLive_eq := rfl
  readBlocks_eq := rfl
  readUnblocks_eq := rfl

/-- Moving the handle to a member keeps the ring. -/
theorem spells_returnPoll
    (invariant : Invariant before)
    {sd : ι}
    (member : sd ∈ before.members) :
    (returnPoll before sd).ring.Spells (returnPoll before sd).members := by
  have inside : before.members.idxOf sd < before.members.length :=
    List.idxOf_lt_length_of_mem member
  have rotated := invariant.ring.rotate inside
  rw [List.getElem?_eq_getElem inside, List.getElem_idxOf inside] at rotated
  exact rotated

/-- Returning a nonempty stream of the set keeps the invariant. -/
theorem returnPoll
    (invariant : Invariant before)
    {sd : ι}
    {blocks : ℕ}
    (before_role : ∀ i, before.cons.role i = .none)
    (settled : Settled before [])
    (call : PollCall before blocks)
    (blocks_le : blocks ≤ 1)
    (wakes : before.pollWakes = blocks)
    (member : sd ∈ before.members)
    (nonempty : before.unread sd ≠ []) :
    Invariant (returnPoll before sd) := by
  refine invariant.pollMove PollFrame.ofState before_role (fun _ => rfl)
    (invariant.spells_returnPoll member) ?_
  refine ⟨settled.move (by simp [StreamSystem.returnPoll, ConsPc.role])
    rfl rfl rfl (fun _ => rfl), ?_, nonempty, rfl, ?_, ?_, ?_, ?_⟩
  · simp only [StreamSystem.returnPoll]
    rw [← call.members_eq]
    exact member
  · simp only [StreamSystem.returnPoll]
    rw [call.ring_eq]
  · refine ⟨before.members.idxOf sd + 1, ?_⟩
    simp only [StreamSystem.returnPoll]
    rw [← call.members_eq]
  · simp only [StreamSystem.returnPoll]
    rw [wakes, call.blocks_eq]
  · simp only [StreamSystem.returnPoll]
    rw [call.blocks_eq]
    exact blocks_le

/-- The entry of `LpelStreamPoll` keeps the invariant. -/
theorem lpelStreamPoll
    (invariant : Invariant before)
    (taken : lpelStreamPoll before = some after) :
    Invariant after := by
  unfold StreamSystem.lpelStreamPoll at taken
  split at taken
  case isFalse => exact absurd taken (by simp)
  case isTrue enabled =>
    obtain ⟨idle, nonempty, live⟩ := enabled
    obtain rfl := Option.some.inj taken
    have settled : Settled before [] :=
      invariant.consAt idle
    refine invariant.pollMove PollFrame.ofState (by simp [idle, ConsPc.role])
      (fun _ => rfl) invariant.ring ?_
    refine ⟨⟨⟨rfl, rfl, nonempty, live, rfl⟩, ?_, rfl⟩, 0, ?_⟩
    · exact settled.move (by simp [ConsPc.role]) rfl rfl rfl (fun _ => rfl)
    · exact StreamIter.At.reset _ _

/-- A round of the fast path keeps the invariant. -/
theorem pollFastStep
    (invariant : Invariant before)
    {iter : StreamIter ι}
    (position : before.cons = .pollFast iter)
    (taken : pollFastStep before iter = some after) :
    Invariant after := by
  obtain ⟨fast, count, at_count⟩ : PollFast before ∧
      ∃ count, iter.At before.ring before.members count :=
    invariant.consAt position
  have before_role : ∀ i, before.cons.role i = .none := by
    simp [position, ConsPc.role]
  have settled' : ∀ {pc : ConsPc ι}, (∀ i, pc.role i ≠ .waiting) →
      Settled { before with cons := pc } [] := by
    intro pc notReading
    exact fast.settled.move notReading rfl rfl rfl (fun _ => rfl)
  have positive : 0 < before.members.length :=
    List.length_pos_iff.mpr fast.nonempty
  unfold StreamSystem.pollFastStep at taken
  split at taken
  case isTrue hasNext =>
    rw [at_count.hasNext_iff invariant.ring positive] at hasNext
    obtain ⟨at_next, current⟩ := at_count.next invariant.ring hasNext
    simp only [current, Option.map_some, Option.some.injEq] at taken
    split at taken
    case isTrue top =>
      subst taken
      exact invariant.returnPoll before_role fast.settled fast.toPollCall
        (Nat.zero_le 1) fast.wakes (List.getElem_mem hasNext)
        ((invariant.top_isSome_iff _).mp top)
    case isFalse =>
      subst taken
      refine invariant.pollMove PollFrame.ofState before_role
        (fun _ => rfl) invariant.ring ?_
      exact ⟨⟨⟨fast.ring_eq, fast.members_eq, fast.nonempty, fast.live,
        fast.blocks_eq⟩, settled' (by simp [ConsPc.role]), fast.wakes⟩,
        count + 1, at_next⟩
  case isFalse =>
    obtain rfl := Option.some.inj taken
    refine invariant.pollMove PollFrame.ofState before_role
      (fun _ => rfl) invariant.ring ?_
    exact ⟨⟨fast.ring_eq, fast.members_eq, fast.nonempty, fast.live,
      fast.blocks_eq⟩, settled' (by simp [ConsPc.role]), fast.wakes⟩

/-- Placing the poll token keeps the invariant. -/
theorem pollStore
    (invariant : Invariant before)
    (position : before.cons = .pollStore) :
    Invariant
      { before with
        pollToken := true
        cons := .pollRegister (lpelStreamIterReset before.ring) 0 } := by
  have fast : PollFast before :=
    invariant.consAt position
  refine invariant.pollMove PollFrame.ofState (by simp [position, ConsPc.role])
    (fun _ => rfl) invariant.ring ?_
  refine ⟨0, rfl, StreamIter.At.reset _ _, ⟨fast.ring_eq, fast.members_eq,
    fast.nonempty, fast.live, fast.blocks_eq⟩, ?_⟩
  refine ⟨by simp [ConsPc.role], by simp, fast.settled.isPoll, ?_,
    Or.inl ⟨rfl, fast.settled.noDebt, fast.settled.noWake, by simp⟩⟩
  dsimp only
  rw [fast.wakes, fast.settled.noWake]

/-- Marking an empty stream registers it. -/
theorem PollWait.register
    {count : ℕ}
    (inside : count < before.members.length)
    (waiting : PollWait before (before.members.take count))
    (empty : before.unread before.members[count] = [])
    {iter : StreamIter ι}
    {cnt : ℤ} :
    PollWait
      { before with
        stream := Function.update before.stream before.members[count]
          { before.stream before.members[count] with isPoll := true }
        cons := .pollRegister iter cnt }
      (before.members.take (count + 1)) := by
  have taking : before.members.take (count + 1) =
      before.members.take count ++ [before.members[count]] := by
    rw [List.take_succ_eq_append_getElem inside]
  rw [taking]
  refine ⟨by simp [ConsPc.role], ?_, ?_, waiting.wakes, ?_⟩
  · intro i member
    rw [← taking] at member
    exact List.mem_of_mem_take member
  · intro i marked
    by_cases same : i = before.members[count]
    · exact List.mem_append_right _ (List.mem_singleton.mpr same)
    · simp only [Function.update_of_ne same] at marked
      exact List.mem_append_left _ (waiting.isPoll i marked)
  · rcases waiting.signal with ⟨token, noDebt, noWake, registered⟩ | taken
    · refine Or.inl ⟨token, noDebt, noWake, ?_⟩
      intro i member
      by_cases same : i = before.members[count]
      · subst same
        exact ⟨by simp, empty⟩
      · rcases List.mem_append.mp member with member' | last
        · obtain ⟨marked, empty'⟩ := registered i member'
          refine ⟨?_, empty'⟩
          simpa [same] using marked
        · exact absurd (List.mem_singleton.mp last) same
    · exact Or.inr taken

/-- A round of the registration loop keeps the invariant. -/
theorem pollRegisterStep
    (invariant : Invariant before)
    {iter : StreamIter ι}
    {cnt : ℤ}
    (position : before.cons = .pollRegister iter cnt)
    (taken : pollRegisterStep before iter cnt = some after) :
    Invariant after := by
  obtain ⟨count, cnt_eq, at_count, call, waiting⟩ :
      ∃ count : ℕ, cnt = count ∧
        iter.At before.ring before.members count ∧
        PollCall before 0 ∧ PollWait before (before.members.take count) :=
    invariant.consAt position
  have before_role : ∀ i, before.cons.role i = .none := by
    simp [position, ConsPc.role]
  have positive : 0 < before.members.length :=
    List.length_pos_iff.mpr call.nonempty
  unfold StreamSystem.pollRegisterStep at taken
  split at taken
  case isTrue hasNext =>
    rw [at_count.hasNext_iff invariant.ring positive] at hasNext
    obtain ⟨at_next, current⟩ := at_count.next invariant.ring hasNext
    simp only [current, Option.map_some, Option.some.injEq] at taken
    split at taken
    case isTrue top =>
      have nonempty := (invariant.top_isSome_iff _).mp top
      split at taken
      case isTrue token =>
        subst taken
        obtain ⟨noDebt, noWake⟩ : NoDebt before ∧ before.consWake = 0 := by
          rcases waiting.signal with ⟨-, noDebt, noWake, -⟩ | ⟨noToken, -⟩
          · exact ⟨noDebt, noWake⟩
          · rw [token] at noToken
            exact absurd noToken (by decide)
        refine invariant.pollMove PollFrame.ofState before_role (fun _ => rfl)
          invariant.ring ?_
        refine ⟨count, cnt_eq, ⟨by simp [ConsPc.role], noDebt, noWake, rfl,
          waiting.isPoll⟩, ⟨0, Nat.zero_le 1, ⟨call.ring_eq, call.members_eq,
          call.nonempty, call.live, call.blocks_eq⟩, ?_⟩,
          ⟨_, List.getElem_mem hasNext, rfl, nonempty⟩⟩
        dsimp only
        rw [waiting.wakes, noWake]
      case isFalse noToken =>
        subst taken
        have taken' := waiting.signal.resolve_left fun still =>
          noToken still.1
        refine invariant.pollMove PollFrame.ofState before_role (fun _ => rfl)
          invariant.ring ?_
        refine ⟨count, cnt_eq, at_count.count_le, ⟨call.ring_eq,
          call.members_eq, call.nonempty, call.live, call.blocks_eq⟩,
          ⟨by simp [ConsPc.role], waiting.subset, waiting.isPoll,
            waiting.wakes, Or.inr ⟨rfl, taken'.2⟩⟩, ?_⟩
        intro impossible
        cases impossible
    case isFalse top =>
      subst taken
      have empty : before.unread before.members[count] = [] := by
        by_contra nonempty
        exact top ((invariant.top_isSome_iff _).mpr nonempty)
      refine invariant.pollMove (PollFrame.ofIsPoll _ true) before_role
        (fun _ => rfl) invariant.ring ?_
      exact ⟨count + 1, by simp [cnt_eq], at_next,
        ⟨call.ring_eq, call.members_eq, call.nonempty, call.live,
          call.blocks_eq⟩, PollWait.register hasNext waiting empty⟩
  case isFalse finished =>
    obtain rfl := Option.some.inj taken
    rw [at_count.hasNext_iff invariant.ring positive] at finished
    have all : count = before.members.length := by
      have := at_count.count_le
      omega
    refine invariant.pollMove PollFrame.ofState before_role (fun _ => rfl)
      invariant.ring ?_
    exact ⟨count, cnt_eq, at_count.count_le, ⟨call.ring_eq, call.members_eq,
      call.nonempty, call.live, call.blocks_eq⟩, ⟨by simp [ConsPc.role],
      waiting.subset, waiting.isPoll, waiting.wakes, waiting.signal⟩,
      fun _ => all⟩

/-- Going to sleep in a poll keeps the invariant. -/
theorem pollSwitch
    (invariant : Invariant before)
    {cnt : ℤ}
    (position : before.cons = .pollSwitch true cnt) :
    Invariant
      { before with
        cons := .pollBlocked cnt
        pollBlocks := before.pollBlocks + 1 } := by
  obtain ⟨count, cnt_eq, bounded, call, waiting, token⟩ :
      PollSleep before cnt 0 :=
    invariant.consAt position
  refine invariant.pollMove PollFrame.ofState (by simp [position, ConsPc.role])
    (fun _ => rfl) invariant.ring ?_
  exact ⟨count, cnt_eq, bounded, ⟨call.ring_eq, call.members_eq, call.nonempty,
    call.live, by simp [call.blocks_eq]⟩, ⟨by simp [ConsPc.role],
    waiting.subset, waiting.isPoll, waiting.wakes, waiting.signal⟩, token⟩

/-- Moving on within the last part of a poll. -/
theorem PollDone.move
    {registered : List ι}
    (done : PollDone before registered)
    {pc : ConsPc ι}
    (role : ∀ i, pc.role i = .none) :
    PollDone { before with cons := pc } registered := by
  refine ⟨done.settled.move ?_ rfl rfl rfl (fun _ => rfl), ?_, done.found⟩
  · intro i
    dsimp only
    rw [role i]
    simp
  · obtain ⟨blocks, bounded, call, wakes⟩ := done.call
    exact ⟨blocks, bounded, ⟨call.ring_eq, call.members_eq, call.nonempty,
      call.live, call.blocks_eq⟩, wakes⟩

/-- Skipping the context switch keeps the invariant. -/
theorem pollNoSwitch
    (invariant : Invariant before)
    {cnt : ℤ}
    (position : before.cons = .pollSwitch false cnt) :
    Invariant { before with cons := .pollAssert cnt } := by
  obtain ⟨count, cnt_eq, done⟩ : ∃ count : ℕ, cnt = count ∧
      PollDone before (before.members.take count) :=
    invariant.consAt position
  refine invariant.pollMove PollFrame.ofState (by simp [position, ConsPc.role])
    (fun _ => rfl) invariant.ring ?_
  exact ⟨count, cnt_eq, PollDone.move done (fun _ => rfl)⟩

/-- Delivering a wakeup to a consumer blocked in a poll keeps the invariant. -/
theorem resumePoll
    (invariant : Invariant before)
    {cnt : ℤ}
    (position : before.cons = .pollBlocked cnt)
    (woken : 0 < before.consWake) :
    Invariant
      { before with
        cons := .pollAssert cnt
        consWake := before.consWake - 1 } := by
  obtain ⟨count, cnt_eq, bounded, call, waiting, token⟩ :
      PollSleep before cnt 1 :=
    invariant.consAt position
  refine invariant.pollMove PollFrame.ofState (by simp [position, ConsPc.role])
    (fun _ => rfl) invariant.ring ?_
  rcases waiting.signal with ⟨-, -, noWake, -⟩ |
    ⟨noToken, i, member, nonempty, only, signal⟩
  · omega
  · rcases signal with ⟨-, noWake⟩ | ⟨free, sent, wakeup⟩
    · omega
    · refine ⟨count, cnt_eq, ⟨by simp [ConsPc.role], ?_, by simp [sent], noToken,
        waiting.isPoll⟩, ⟨1, le_refl 1, ⟨call.ring_eq, call.members_eq,
        call.nonempty, call.live, call.blocks_eq⟩, ?_⟩,
        ⟨i, member, wakeup, nonempty⟩⟩
      · intro j
        by_cases same : j = i
        · subst same
          exact free
        · exact only j same
      · dsimp only
        rw [waiting.wakes, sent]

/-- The assertion that the token is gone holds, and the poll goes on. -/
theorem pollAssert
    (invariant : Invariant before)
    {cnt : ℤ}
    (position : before.cons = .pollAssert cnt) :
    Invariant
      { before with
        cons := .pollUnregister (lpelStreamIterReset before.ring) cnt } := by
  obtain ⟨count, cnt_eq, done⟩ : ∃ count : ℕ, cnt = count ∧
      PollDone before (before.members.take count) :=
    invariant.consAt position
  refine invariant.pollMove PollFrame.ofState (by simp [position, ConsPc.role])
    (fun _ => rfl) invariant.ring ?_
  exact ⟨0, count, by simp [cnt_eq], StreamIter.At.reset _ _,
    PollDone.move done (fun _ => rfl)⟩

/-- Unmarking the next stream of the ring unregisters it. -/
theorem PollDone.unregister
    {count total : ℕ}
    (inside : count < before.members.length)
    (done : PollDone before ((before.members.take total).drop count))
    {pc : ConsPc ι}
    (role : ∀ i, pc.role i = .none) :
    PollDone
      { before with
        stream := Function.update before.stream before.members[count]
          { before.stream before.members[count] with isPoll := false }
        cons := pc }
      ((before.members.take total).drop (count + 1)) := by
  refine ⟨⟨?_, done.settled.noDebt, done.settled.noWake, done.settled.noToken,
    ?_⟩, ?_, done.found⟩
  · intro i
    dsimp only
    rw [role i]
    simp
  · intro i marked
    have other : i ≠ before.members[count] := by
      rintro rfl
      simp at marked
    simp only [Function.update_of_ne other] at marked
    have registered := done.settled.isPoll i marked
    by_cases still : count < (before.members.take total).length
    · rw [List.drop_eq_getElem_cons still, List.mem_cons] at registered
      rcases registered with first | rest
      · rw [List.getElem_take] at first
        exact absurd first other
      · exact rest
    · rw [List.drop_eq_nil_of_le (by omega)] at registered
      simp at registered
  · obtain ⟨blocks, bounded, call, wakes⟩ := done.call
    exact ⟨blocks, bounded, ⟨call.ring_eq, call.members_eq, call.nonempty,
      call.live, call.blocks_eq⟩, wakes⟩

/-- A round of the loop that unregisters keeps the invariant. -/
theorem pollUnregisterStep
    (invariant : Invariant before)
    {iter : StreamIter ι}
    {cnt : ℤ}
    (position : before.cons = .pollUnregister iter cnt)
    (taken : pollUnregisterStep before iter cnt = some after) :
    Invariant after := by
  obtain ⟨count, total, cnt_eq, at_count, done⟩ :
      ∃ count total : ℕ, cnt = total - count ∧
        iter.At before.ring before.members count ∧
        PollDone before ((before.members.take total).drop count) :=
    invariant.consAt position
  have before_role : ∀ i, before.cons.role i = .none := by
    simp [position, ConsPc.role]
  have positive : 0 < before.members.length := by
    obtain ⟨_, _, call, _⟩ := done.call
    exact List.length_pos_iff.mpr call.nonempty
  unfold StreamSystem.pollUnregisterStep at taken
  split at taken
  case isTrue hasNext =>
    rw [at_count.hasNext_iff invariant.ring positive] at hasNext
    obtain ⟨at_next, current⟩ := at_count.next invariant.ring hasNext
    simp only [current, Option.map_some, Option.some.injEq] at taken
    by_cases last : cnt - 1 = 0
    · rw [if_pos last] at taken
      subst taken
      refine invariant.pollMove (PollFrame.ofIsPoll _ false) before_role
        (fun _ => rfl) invariant.ring ?_
      have unregistered := PollDone.unregister hasNext done
        (fun _ => rfl : ∀ i, ConsPc.pollReturn.role i = .none)
      rw [List.drop_eq_nil_of_le] at unregistered
      · exact unregistered
      · rw [List.length_take]
        omega
    · rw [if_neg last] at taken
      subst taken
      refine invariant.pollMove (PollFrame.ofIsPoll _ false) before_role
        (fun _ => rfl) invariant.ring ?_
      exact ⟨count + 1, total, by simp [cnt_eq]; omega, at_next,
        PollDone.unregister hasNext done (fun _ => rfl)⟩
  case isFalse finished =>
    obtain rfl := Option.some.inj taken
    rw [at_count.hasNext_iff invariant.ring positive] at finished
    refine invariant.pollMove PollFrame.ofState before_role (fun _ => rfl)
      invariant.ring ?_
    rw [List.drop_eq_nil_of_le] at done
    · exact PollDone.move done (fun _ => rfl)
    · rw [List.length_take]
      omega

/-- Returning the descriptor the consumer was told keeps the invariant. -/
theorem pollReturn
    (invariant : Invariant before)
    (position : before.cons = .pollReturn)
    (taken : before.wakeupSd.map (StreamSystem.returnPoll before) = some after) :
    Invariant after := by
  have done : PollDone before [] :=
    invariant.consAt position
  obtain ⟨sd, member, wakeup, nonempty⟩ := done.found
  obtain ⟨blocks, bounded, call, wakes⟩ := done.call
  rw [wakeup, Option.map_some, Option.some.injEq] at taken
  subst taken
  exact invariant.returnPoll (by simp [position, ConsPc.role]) done.settled call
    bounded wakes member nonempty

end Invariant

end StreamSystem
end Lpel
