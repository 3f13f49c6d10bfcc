import Mathlib.Algebra.BigOperators.Fin
import Lpel.Decen.Spmd
import Lpel.Lib.Tokens

/-!
# The barriers of an SPMD round

A round begins when its master, at the start barrier, takes the request from the
queue.  At that time every other worker waits for its release.  Until the next
round begins the tokens of two rounds are mixed: those of the round that has
begun, with which the workers are released and leave, and those with which the
workers that have left knock at the start barrier of the next round.  A worker
that is released early, or one that is released by a token of the next round,
does no harm: the account of the tokens shows that a master gets as many of them
as it needs only when all other workers wait.
-/

namespace Lpel
namespace Decen

variable {n : ℕ} {F A τ : Type}

/-- The workers of the requests, in the order in which they were issued. -/
def Spmd.masters (spmd : Spmd n F A τ) : List (Fin n) :=
  spmd.issued.map Request.wctx

/-- How many rounds have begun. -/
def Spmd.begun (spmd : Spmd n F A τ) : ℕ :=
  spmd.taken.length

/-- What one worker owes another after the beginning of a round, by the master of
the round: the master releases the others, and these signal it when they leave. -/
def owed : Option (Fin n) → Fin n → Fin n → ℕ
  | none, _, _ => 0
  | some m, u, v => if u = m ↔ v = m then 0 else 1

/-- How many of these tokens a worker takes. -/
def due : Option (Fin n) → Fin n → ℕ
  | none, _ => 0
  | some m, v => if v = m then n - 1 else 1

theorem sum_owed (last : Option (Fin n)) (v : Fin n) :
    ∑ u, owed last u v = due last v := by
  cases last with
  | none => simp [owed, due]
  | some m =>
      by_cases same : v = m
      · subst same
        have others : ∑ u : Fin n, owed (some v) u v =
            ∑ u : Fin n, if u ≠ v then 1 else 0 := by
          refine Finset.sum_congr rfl ?_
          intro u _
          by_cases here : u = v <;> simp [owed, here]
        rw [others, Finset.sum_boole]
        simp [due, Finset.filter_ne', Finset.card_erase_of_mem]
      · have one : ∑ u : Fin n, owed (some m) u v =
            ∑ u : Fin n, if u = m then 1 else 0 := by
          refine Finset.sum_congr rfl ?_
          intro u _
          by_cases here : u = m <;> simp [owed, here, same]
        rw [one]
        simp [due, same]

namespace SpmdPc

/-- The tokens that a worker has posted to another since the last round has
begun. -/
def posted
    (last : Option (Fin n))
    (begun : ℕ)
    (w : Fin n)
    (round : ℕ)
    (v : Fin n) :
    SpmdPc n F A τ → ℕ
  | .moveHead _ _ | .loadTail _ | .storeTail _ _ | .leave _ => 0
  | .signal _ i => if v ≠ w ∧ v.val < i then 1 else 0
  | .exec curreq => if curreq.wctx = w ∧ v ≠ w then 1 else 0
  | .stopWait _ _ | .finish _ => if v ≠ w then 1 else 0
  | .wait curreq =>
      if round = begun then owed last w v + if v = curreq.wctx then 1 else 0
      else 0
  | _ => owed last w v

/-- The tokens that a worker has taken since the last round has begun. -/
def waited
    (last : Option (Fin n))
    (begun : ℕ)
    (w : Fin n)
    (round : ℕ) :
    SpmdPc n F A τ → ℕ
  | .moveHead _ _ | .loadTail _ | .storeTail _ _ | .signal _ _ => 0
  | .exec curreq => if curreq.wctx = w then 0 else 1
  | .stopWait _ i => i
  | .finish _ => n - 1
  | .leave _ => 1
  | .wait _ => if round = begun then due last w else 0
  | .startWait _ _ i => due last w + i
  | .invalidate _ _ => due last w + (n - 1)
  | _ => due last w

/-- What a worker knows of the round that it takes part in. -/
def Ok
    (masters : List (Fin n))
    (begun : ℕ)
    (w : Fin n)
    (round : ℕ) :
    SpmdPc n F A τ → Prop
  | .out | .load => round = begun
  | .append req | .setWctx _ req | .setFunc _ req | .setArg _ req
  | .setTask _ req => round = begun ∧ req.wctx = w
  | .copy head => round = begun ∧ head = begun % n
  | .startWait head curreq i =>
      round = begun ∧ head = begun % n ∧ i ≤ n - 1 ∧ curreq.wctx = w ∧
        masters[round]? = some w
  | .invalidate head curreq =>
      round = begun ∧ head = begun % n ∧ curreq.wctx = w ∧
        masters[round]? = some w
  | .moveHead head curreq =>
      round + 1 = begun ∧ head = round % n ∧ curreq.wctx = w ∧
        masters[round]? = some w
  | .loadTail curreq | .storeTail _ curreq | .finish curreq =>
      round + 1 = begun ∧ curreq.wctx = w ∧ masters[round]? = some w
  | .signal curreq i =>
      round + 1 = begun ∧ i ≤ n ∧ curreq.wctx = w ∧ masters[round]? = some w
  | .stopWait curreq i =>
      round + 1 = begun ∧ i ≤ n - 1 ∧ curreq.wctx = w ∧
        masters[round]? = some w
  | .enter curreq =>
      round = begun ∧ curreq.wctx ≠ w ∧ masters[round]? = some curreq.wctx
  | .wait curreq =>
      (round = begun ∨ round + 1 = begun) ∧ curreq.wctx ≠ w ∧
        masters[round]? = some curreq.wctx
  | .exec curreq => round + 1 = begun ∧ masters[round]? = some curreq.wctx
  | .leave curreq =>
      round + 1 = begun ∧ curreq.wctx ≠ w ∧ masters[round]? = some curreq.wctx

/-- More requests change nothing. -/
theorem Ok.mono
    {masters masters' : List (Fin n)}
    {begun round : ℕ}
    {w : Fin n}
    {pc : SpmdPc n F A τ}
    (ok : pc.Ok masters begun w round)
    (more : masters <+: masters') :
    pc.Ok masters' begun w round := by
  have keeps {k : ℕ} {m : Fin n} (master : masters[k]? = some m) :
      masters'[k]? = some m := by
    obtain ⟨rest, rfl⟩ := more
    have inside := (List.getElem?_eq_some_iff.mp master).1
    rw [List.getElem?_append_left inside]
    exact master
  cases pc with
  | out | load | append | setWctx | setFunc | setArg | setTask | copy => exact ok
  | startWait => exact ⟨ok.1, ok.2.1, ok.2.2.1, ok.2.2.2.1, keeps ok.2.2.2.2⟩
  | invalidate | moveHead | signal | stopWait =>
      exact ⟨ok.1, ok.2.1, ok.2.2.1, keeps ok.2.2.2⟩
  | loadTail | storeTail | finish | enter | wait | leave =>
      exact ⟨ok.1, ok.2.1, keeps ok.2.2⟩
  | exec => exact ⟨ok.1, keeps ok.2⟩

end SpmdPc

/-- The invariant of the barriers. -/
structure Rounds (spmd : Spmd n F A τ) : Prop where
  ordered : spmd.taken <+: spmd.masters
  ok : ∀ w, (spmd.thread w).Ok spmd.masters spmd.begun w (spmd.round w)
  tokens : Balanced spmd.sema
    (fun v => (spmd.thread v).waited spmd.taken.getLast? spmd.begun v
      (spmd.round v))
    fun u v => (spmd.thread u).posted spmd.taken.getLast? spmd.begun u
      (spmd.round u) v

/-- The worker waits at the start barrier of the next round for its master. -/
def Spmd.knocks (spmd : Spmd n F A τ) (u v : Fin n) : ℕ :=
  match spmd.thread u with
  | .wait curreq =>
      if spmd.round u = spmd.begun ∧ v = curreq.wctx then 1 else 0
  | _ => 0

theorem Spmd.knocks_le (spmd : Spmd n F A τ) (u v : Fin n) :
    spmd.knocks u v ≤ 1 := by
  unfold Spmd.knocks
  split
  · split <;> omega
  · omega

namespace Rounds

variable {spmd after : Spmd n F A τ} {u v w : Fin n}

/-- The master of the round that has begun last. -/
theorem last_eq
    (rounds : Rounds spmd)
    {round : ℕ}
    (late : round + 1 = spmd.begun) :
    spmd.masters[round]? = spmd.taken.getLast? := by
  obtain ⟨rest, masters⟩ := rounds.ordered
  have length : spmd.taken.length = round + 1 := late.symm
  rw [← masters, List.getElem?_append_left (by omega),
    List.getLast?_eq_getElem?, length, Nat.add_sub_cancel]

/-- The master of a round that has begun is known to all that take part. -/
theorem last_of
    (rounds : Rounds spmd)
    {round : ℕ}
    {m : Fin n}
    (late : round + 1 = spmd.begun)
    (master : spmd.masters[round]? = some m) :
    spmd.taken.getLast? = some m := by
  rw [← rounds.last_eq late, master]

/-- A worker that knocks waits for the master of the next round. -/
theorem of_knocks
    (rounds : Rounds spmd)
    (here : spmd.knocks u v ≠ 0) :
    (∃ curreq, spmd.thread u = .wait curreq ∧ curreq.wctx = v) ∧ v ≠ u ∧
      spmd.round u = spmd.begun ∧ spmd.masters[spmd.begun]? = some v := by
  unfold Spmd.knocks at here
  split at here
  case h_2 => exact absurd rfl here
  case h_1 curreq position =>
    have ok := rounds.ok u
    rw [position] at ok
    obtain ⟨-, distinct, master⟩ := ok
    have early : spmd.round u = spmd.begun ∧ v = curreq.wctx := by
      by_contra late
      rw [if_neg late] at here
      exact absurd rfl here
    obtain ⟨early, rfl⟩ := early
    rw [early] at master
    exact ⟨⟨curreq, position, rfl⟩, distinct, early, master⟩

/-- A worker has posted no more than it owes, and a knock. -/
theorem posted_le
    (rounds : Rounds spmd)
    (u v : Fin n) :
    (spmd.thread u).posted spmd.taken.getLast? spmd.begun u (spmd.round u) v ≤
      owed spmd.taken.getLast? u v + spmd.knocks u v := by
  have ok := rounds.ok u
  unfold Spmd.knocks
  cases position : spmd.thread u with
  | signal curreq i =>
      rw [position] at ok
      obtain ⟨late, -, -, master⟩ := ok
      rw [rounds.last_of late master]
      simp only [SpmdPc.posted, owed]
      split <;> simp_all
  | exec curreq =>
      rw [position] at ok
      obtain ⟨late, master⟩ := ok
      rw [rounds.last_of late master]
      simp only [SpmdPc.posted, owed]
      split <;> simp_all
  | stopWait curreq i =>
      rw [position] at ok
      obtain ⟨late, -, -, master⟩ := ok
      rw [rounds.last_of late master]
      simp only [SpmdPc.posted, owed]
      split <;> simp_all
  | finish curreq =>
      rw [position] at ok
      obtain ⟨late, -, master⟩ := ok
      rw [rounds.last_of late master]
      simp only [SpmdPc.posted, owed]
      split <;> simp_all
  | wait curreq =>
      simp only [SpmdPc.posted]
      by_cases early : spmd.round u = spmd.begun
      · simp [early]
      · simp [early]
  | moveHead | loadTail | storeTail | leave => simp [SpmdPc.posted]
  | out | append | setWctx | setFunc | setArg | setTask | load | copy |
    startWait | invalidate | enter => simp [SpmdPc.posted]

/-- Nobody knocks at a worker that itself waits at the start barrier of the next
round. -/
theorem knocks_of_wait
    (rounds : Rounds spmd)
    {curreq : Request n F A τ}
    (position : spmd.thread v = .wait curreq)
    (early : spmd.round v = spmd.begun)
    (u : Fin n) :
    spmd.knocks u v = 0 := by
  by_contra here
  obtain ⟨-, -, -, master⟩ := rounds.of_knocks here
  have ok := rounds.ok v
  rw [position] at ok
  obtain ⟨-, distinct, other⟩ := ok
  rw [early, master] at other
  exact distinct (Option.some.inj other).symm

/-- A worker at the start barrier of the next round is not released. -/
theorem not_released
    (rounds : Rounds spmd)
    {curreq : Request n F A τ}
    (position : spmd.thread v = .wait curreq)
    (early : spmd.round v = spmd.begun) :
    spmd.sema v = 0 := by
  refine (rounds.tokens.exhausted v (fun u => owed spmd.taken.getLast? u v)
    ?_ ?_).1
  · intro u
    have bound := rounds.posted_le u v
    rw [rounds.knocks_of_wait position early u] at bound
    exact bound
  · rw [sum_owed, position]
    simp [SpmdPc.waited, early]

/-- When the start barrier is passed, every other worker waits at it. -/
theorem all_knock
    (rounds : Rounds spmd)
    {head : ℕ}
    {curreq : Request n F A τ}
    (position : spmd.thread w = .invalidate head curreq) :
    spmd.sema w = 0 ∧ ∀ u, u ≠ w → spmd.knocks u w = 1 := by
  have own : spmd.knocks w w = 0 := by
    rw [Spmd.knocks, position]
  let limit (u : Fin n) : ℕ :=
    owed spmd.taken.getLast? u w + if u ≠ w then 1 else 0
  have total : ∑ u, limit u = due spmd.taken.getLast? w + (n - 1) := by
    rw [Finset.sum_add_distrib, sum_owed, Finset.sum_boole]
    simp [Finset.filter_ne', Finset.card_erase_of_mem]
  have bounded (u : Fin n) :
      (spmd.thread u).posted spmd.taken.getLast? spmd.begun u (spmd.round u) w ≤
        limit u := by
    have bound := rounds.posted_le u w
    by_cases same : u = w
    · subst same
      simpa [limit, own] using bound
    · have one := spmd.knocks_le u w
      simp only [limit, if_pos same]
      omega
  obtain ⟨empty, reached⟩ := rounds.tokens.exhausted w limit bounded
    (by rw [total, position]; rfl)
  refine ⟨empty, ?_⟩
  intro u distinct
  have bound := rounds.posted_le u w
  have equal := reached u
  have one := spmd.knocks_le u w
  simp only [limit, if_pos distinct] at equal
  omega

/-- In the rest of the critical section every other worker is still waiting for
its release. -/
theorem all_wait
    (rounds : Rounds spmd)
    (late : spmd.round w + 1 = spmd.begun)
    (master : spmd.masters[spmd.round w]? = some w)
    (silent : ∀ v, (spmd.thread w).posted spmd.taken.getLast? spmd.begun w
      (spmd.round w) v = 0)
    (u : Fin n)
    (distinct : u ≠ w) :
    ∃ curreq, spmd.thread u = .wait curreq ∧
      spmd.round u + 1 = spmd.begun := by
  have last := rounds.last_of late master
  have waits (v : Fin n) (other : v ≠ w)
      (nobody : ∀ u, spmd.knocks u v = 0) :
      ∃ curreq, spmd.thread v = .wait curreq ∧
        spmd.round v + 1 = spmd.begun := by
    have nothing : (spmd.thread v).waited spmd.taken.getLast? spmd.begun v
        (spmd.round v) = 0 := by
      refine rounds.tokens.untouched v ?_
      intro u
      by_cases same : u = w
      · subst same
        exact silent v
      · have bound := rounds.posted_le u v
        have none : owed spmd.taken.getLast? u v = 0 := by
          rw [last]
          simp [owed, same, other]
        have free := nobody u
        omega
    have notMaster {round : ℕ} (late' : round + 1 = spmd.begun)
        (master' : spmd.masters[round]? = some v) : False := by
      have same := rounds.last_of late' master'
      rw [last] at same
      exact other (Option.some.inj same).symm
    have ok := rounds.ok v
    rw [last] at nothing
    cases position : spmd.thread v <;> rw [position] at ok nothing
    case wait curreq =>
      refine ⟨curreq, rfl, ?_⟩
      obtain early | late' := ok.1
      · simp [SpmdPc.waited, early, due, other] at nothing
      · exact late'
    case moveHead => exact absurd ok.2.2.2 (notMaster ok.1)
    case loadTail => exact absurd ok.2.2 (notMaster ok.1)
    case storeTail => exact absurd ok.2.2 (notMaster ok.1)
    case signal => exact absurd ok.2.2.2 (notMaster ok.1)
    case stopWait => exact absurd ok.2.2.2 (notMaster ok.1)
    case finish => exact absurd ok.2.2 (notMaster ok.1)
    case exec curreq =>
      have own : curreq.wctx = v := by
        by_contra foreign
        simp [SpmdPc.waited, foreign] at nothing
      rw [← own] at notMaster
      exact absurd ok.2 (notMaster ok.1)
    all_goals simp [SpmdPc.waited, due, other] at nothing
  -- Who knocks is itself not knocked at, and so it cannot have been released.
  have nobody (u v : Fin n) : spmd.knocks u v = 0 := by
    by_contra here
    obtain ⟨⟨curreq, position, -⟩, -, early, -⟩ := rounds.of_knocks here
    have other : u ≠ w := by
      rintro rfl
      omega
    obtain ⟨-, -, late'⟩ := waits u other
      (rounds.knocks_of_wait position early)
    omega
  exact waits u distinct fun u' => nobody u' u

/-- One worker goes on while no round begins. -/
theorem act
    (rounds : Rounds spmd)
    (w : Fin n)
    (pc : SpmdPc n F A τ)
    (round : ℕ)
    (thread : after.thread = Function.update spmd.thread w pc)
    (completed : after.round = Function.update spmd.round w round)
    (taken : after.taken = spmd.taken)
    (masters : spmd.masters <+: after.masters)
    (ok : pc.Ok after.masters spmd.begun w round)
    (others : ∀ v, v ≠ w →
      after.sema v + (spmd.thread w).posted spmd.taken.getLast? spmd.begun w
          (spmd.round w) v =
        spmd.sema v + pc.posted spmd.taken.getLast? spmd.begun w round v)
    (own : after.sema w +
          pc.waited spmd.taken.getLast? spmd.begun w round +
          (spmd.thread w).posted spmd.taken.getLast? spmd.begun w
            (spmd.round w) w =
        spmd.sema w +
          (spmd.thread w).waited spmd.taken.getLast? spmd.begun w
            (spmd.round w) +
          pc.posted spmd.taken.getLast? spmd.begun w round w) :
    Rounds after := by
  have begun : after.begun = spmd.begun := congrArg List.length taken
  refine ⟨?_, ?_, ?_⟩
  · rw [taken]
    exact rounds.ordered.trans masters
  · intro u
    rw [begun, thread, completed]
    by_cases same : u = w
    · subst same
      simpa using ok
    · simpa [same] using (rounds.ok u).mono masters
  · rw [begun, thread, completed, taken]
    refine rounds.tokens.act w ?_ ?_ ?_ ?_
    · intro v distinct
      simp [distinct]
    · intro u distinct v
      simp [distinct]
    · intro v distinct
      simpa using others v distinct
    · simpa using own

/-- A round begins. -/
theorem takeRequest
    (rounds : Rounds spmd)
    {head : ℕ}
    {curreq : Request n F A τ}
    (position : spmd.thread w = .invalidate head curreq) :
    Rounds (spmd.takeRequest w head curreq) := by
  have ok := rounds.ok w
  rw [position] at ok
  obtain ⟨early, atHead, own, master⟩ := ok
  have begun : (spmd.takeRequest w head curreq).begun = spmd.begun + 1 :=
    List.length_append
  obtain ⟨empty, all⟩ := rounds.all_knock position
  have waits (u : Fin n) (distinct : u ≠ w) :
      ∃ req, spmd.thread u = .wait req ∧ spmd.round u = spmd.begun := by
    obtain ⟨⟨req, waiting, -⟩, -, early', -⟩ :=
      rounds.of_knocks (by rw [all u distinct]; exact one_ne_zero)
    exact ⟨req, waiting, early'⟩
  refine ⟨?_, ?_, ?_⟩
  · change spmd.taken ++ [curreq.wctx] <+: spmd.masters
    rw [own]
    obtain ⟨rest, masters⟩ := rounds.ordered
    rw [← masters, early, Spmd.begun,
      List.getElem?_append_right (Nat.le_refl _), Nat.sub_self] at master
    cases rest with
    | nil => simp at master
    | cons first rest =>
        obtain rfl := Option.some.inj master
        refine ⟨rest, ?_⟩
        rw [← masters, List.append_assoc, List.singleton_append]
  · intro u
    rw [begun]
    change (Function.update spmd.thread w (.moveHead head curreq) u).Ok
      spmd.masters (spmd.begun + 1) u (spmd.round u)
    by_cases same : u = w
    · subst same
      rw [Function.update_self]
      exact ⟨by rw [early], by rw [atHead, early], own, master⟩
    · obtain ⟨req, waiting, early'⟩ := waits u same
      have ok := rounds.ok u
      rw [waiting] at ok
      rw [Function.update_of_ne same, waiting]
      exact ⟨.inr (by rw [early']), ok.2⟩
  · -- all tokens have been taken, and the account starts anew
    have idle (u : Fin n) : spmd.sema u = 0 ∧
        (Function.update spmd.thread w (.moveHead head curreq) u).waited
          (spmd.taken ++ [curreq.wctx]).getLast? (spmd.begun + 1) u
            (spmd.round u) = 0 ∧
        ∀ v, (Function.update spmd.thread w (.moveHead head curreq) u).posted
          (spmd.taken ++ [curreq.wctx]).getLast? (spmd.begun + 1) u
            (spmd.round u) v = 0 := by
      by_cases same : u = w
      · subst same
        rw [Function.update_self]
        exact ⟨empty, rfl, fun _ => rfl⟩
      · obtain ⟨req, waiting, early'⟩ := waits u same
        rw [Function.update_of_ne same, waiting]
        refine ⟨rounds.not_released waiting early', ?_, ?_⟩
        · simp [SpmdPc.waited, early']
        · simp [SpmdPc.posted, early']
    intro v
    rw [begun]
    refine (congrArg₂ (· + ·) (idle v).1 (idle v).2.1).trans ?_
    exact (Finset.sum_eq_zero fun u _ => (idle u).2.2 v).symm

end Rounds

end Decen
end Lpel
