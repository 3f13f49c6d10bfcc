import Lpel.Lib.Chain
import Lpel.Lib.Machine
import Lpel.Lib.Placement
import Lpel.Lib.Ring

/-!
# The mailbox

`mailbox.c`: messages travel in nodes that are recycled through a pool.  The
pool is a stack under `lock_free`; the inbox is a ring under `lock_inbox` whose
handle points at the last node.  Any number of senders and one receiver take
turns between the sections that these mutexes protect, and between the copies
of a message into and out of a node, which no lock protects.

A wait on `notempty` may end at any time: with a signal, or spuriously.
-/

namespace Lpel

variable {σ μ ι : Type} [DecidableEq σ] [DecidableEq ι]

/-- `mailbox_t` with the fields of all nodes.  The message of a node that was
never written is what `malloc` left. -/
structure Mailbox (μ ι : Type) where
  next : ι → Option ι
  msg : ι → μ
  listFree : Option ι
  listInbox : Option ι

/-- `GetFree`, with the memory that `malloc` returns if the pool is empty. -/
def getFree (mbox : Mailbox μ ι) (memory : ι) : ι × Mailbox μ ι :=
  match mbox.listFree with
  | some node => (node, { mbox with listFree := mbox.next node })
  | none => (memory, mbox)

/-- `PutFree`. -/
def putFree (mbox : Mailbox μ ι) (node : ι) : Mailbox μ ι :=
  { mbox with
    next := Function.update mbox.next node
      (match mbox.listFree with
        | none => none
        | some first => some first)
    listFree := some node }

/-- The section of `LpelMailboxSend` under `lock_inbox`. -/
def putInbox (mbox : Mailbox μ ι) (node : ι) : Mailbox μ ι :=
  match mbox.listInbox with
  | none =>
      { mbox with
        listInbox := some node
        next := Function.update mbox.next node (some node) }
  | some last =>
      -- between the last node `list_inbox` and the first `list_inbox->next`
      { mbox with
        next := Function.update
          (Function.update mbox.next node (mbox.next last)) last (some node)
        listInbox := some node }

/-- The section of `LpelMailboxRecv` behind the wait: the first node is taken
out of the ring.  There is none while `list_inbox` is `NULL`. -/
def takeInbox (mbox : Mailbox μ ι) : Option (ι × Mailbox μ ι) :=
  mbox.listInbox.bind fun last =>
    (mbox.next last).map fun node =>
      if node = last then
        (node, { mbox with listInbox := none })
      else
        (node, { mbox with
          next := Function.update mbox.next last (mbox.next node) })

/-- `LpelMailboxHasIncoming`. -/
def lpelMailboxHasIncoming (mbox : Mailbox μ ι) : Bool :=
  mbox.listInbox.isSome

/-- Where a sender is in `LpelMailboxSend`. -/
inductive Sender (μ ι : Type) where
  | idle
  /-- A node has been taken from the pool. -/
  | fetched (node : ι) (m : μ)
  /-- The message has been copied into it. -/
  | filled (node : ι) (m : μ)

/-- Where the receiver is in `LpelMailboxRecv`. -/
inductive Receiver (ι : Type) where
  | idle
  /-- In `pthread_cond_wait`, and whether a signal has been issued since. -/
  | waiting (signalled : Bool)
  /-- A node has been taken from the inbox. -/
  | taken (node : ι)
  /-- Its message has been copied. -/
  | copied (node : ι)
  deriving DecidableEq

/-- The node in the hands of a sender. -/
def Sender.node : Sender μ ι → Option ι
  | .idle => none
  | .fetched node _ => some node
  | .filled node _ => some node

/-- The message of the call that a sender is in. -/
def Sender.message : Sender μ ι → List μ
  | .idle => []
  | .fetched _ m => [m]
  | .filled _ m => [m]

/-- The node in the hands of the receiver. -/
def Receiver.node : Receiver ι → Option ι
  | .idle => none
  | .waiting _ => none
  | .taken node => some node
  | .copied node => some node

/-- The message that has left the inbox and is not received yet. -/
def Receiver.message (mbox : Mailbox μ ι) : Receiver ι → List μ
  | .taken node => [mbox.msg node]
  | _ => []

/-- A signal reaches a receiver that waits. -/
def Receiver.signal : Receiver ι → Receiver ι
  | .waiting _ => .waiting true
  | receiver => receiver

omit [DecidableEq ι] in
@[simp] theorem Receiver.node_signal (receiver : Receiver ι) :
    receiver.signal.node = receiver.node := by
  cases receiver with
  | waiting signalled => rfl
  | idle => rfl
  | taken node => rfl
  | copied node => rfl

/-- A mailbox with its senders and its receiver. -/
structure Mail (σ μ ι : Type) where
  mbox : Mailbox μ ι
  sender : σ → Sender μ ι
  receiver : Receiver ι
  /-- The nodes that `malloc` has returned. -/
  allocated : List ι
  /-- The messages of each sender's calls of `LpelMailboxSend`, in order. -/
  sent : σ → List μ
  /-- The messages in the order of their insertion under `lock_inbox`. -/
  inserted : List (σ × μ)
  /-- The messages that `LpelMailboxRecv` has copied out. -/
  received : List μ

inductive MailLabel (σ μ ι : Type) where
  | getFree (s : σ) (m : μ) (memory : ι)
  | copy (s : σ)
  | insert (s : σ)
  | recv
  | wake
  | copyOut
  | putFree

namespace Mail

/-- The receiver holds `lock_inbox` and tests the inbox. -/
def testInbox (mail : Mail σ μ ι) : Mail σ μ ι :=
  match takeInbox mail.mbox with
  | none => { mail with receiver := .waiting false }
  | some (node, mbox) => { mail with mbox := mbox, receiver := .taken node }

def step (mail : Mail σ μ ι) : MailLabel σ μ ι → Option (Mail σ μ ι)
  | .getFree s m memory =>
      match mail.sender s with
      | .idle =>
          -- `malloc` returns memory that is not in use
          if mail.mbox.listFree = none ∧ memory ∈ mail.allocated then
            none
          else
            let (node, mbox) := Lpel.getFree mail.mbox memory
            some { mail with
              mbox := mbox
              sender := Function.update mail.sender s (.fetched node m)
              allocated :=
                if mail.mbox.listFree = none then memory :: mail.allocated
                else mail.allocated
              sent := Function.update mail.sent s (mail.sent s ++ [m]) }
      | _ => none
  | .copy s =>
      match mail.sender s with
      | .fetched node m =>
          some { mail with
            mbox :=
              { mail.mbox with msg := Function.update mail.mbox.msg node m }
            sender := Function.update mail.sender s (.filled node m) }
      | _ => none
  | .insert s =>
      match mail.sender s with
      | .filled node m =>
          some { mail with
            mbox := putInbox mail.mbox node
            sender := Function.update mail.sender s .idle
            receiver :=
              if mail.mbox.listInbox = none then mail.receiver.signal
              else mail.receiver
            inserted := mail.inserted ++ [(s, m)] }
      | _ => none
  | .recv =>
      match mail.receiver with
      | .idle => some mail.testInbox
      | _ => none
  | .wake =>
      match mail.receiver with
      | .waiting _ => some mail.testInbox
      | _ => none
  | .copyOut =>
      match mail.receiver with
      | .taken node =>
          some { mail with
            receiver := .copied node
            received := mail.received ++ [mail.mbox.msg node] }
      | _ => none
  | .putFree =>
      match mail.receiver with
      | .copied node =>
          some { mail with
            mbox := Lpel.putFree mail.mbox node
            receiver := .idle }
      | _ => none

end Mail

/-- All runs from `LpelMailboxCreate`. -/
def mailMachine (σ μ ι : Type) [DecidableEq σ] [DecidableEq ι] :
    Machine (Mail σ μ ι) (MailLabel σ μ ι) where
  init mail :=
    mail.mbox.listFree = none ∧ mail.mbox.listInbox = none ∧
      (∀ s, mail.sender s = .idle) ∧ mail.receiver = .idle ∧
      mail.allocated = [] ∧ (∀ s, mail.sent s = []) ∧ mail.inserted = [] ∧
      mail.received = []
  next := Mail.step

/-- Where a node can be. -/
inductive NodePlace (σ : Type) where
  | free
  | inbox
  | sender (s : σ)
  | receiver
  deriving DecidableEq

namespace Mail

/-- How often a node is found at each place, where the pool and the inbox hold
the given nodes. -/
def copies (mail : Mail σ μ ι) (free inbox : List ι) (node : ι) :
    NodePlace σ → ℕ
  | .free => free.count node
  | .inbox => inbox.count node
  | .sender s => if (mail.sender s).node = some node then 1 else 0
  | .receiver => if mail.receiver.node = some node then 1 else 0

section Places

variable {mail after : Mail σ μ ι} {free inbox : List ι}
  {place : ι → Option (NodePlace σ)} {node : ι}

theorem popFree
    (placed : Placed (mail.copies (node :: free) inbox) place) :
    Placed (mail.copies free inbox) (Function.update place node none) := by
  have at_ : place node = some .free :=
    placed.place_eq (by simp [copies])
  refine placed.take at_ ?_ (by simp [copies])
  intro other q apart
  cases q with
  | free =>
      have distinct : node ≠ other := by
        rintro rfl
        simp at apart
      simp [copies, distinct]
  | inbox => rfl
  | sender s => rfl
  | receiver => rfl

theorem pushFree
    (placed : Placed (mail.copies free inbox) place)
    (nowhere : place node = none) :
    Placed (mail.copies (node :: free) inbox)
      (Function.update place node (some .free)) := by
  refine placed.put nowhere .free ?_ (by simp [copies])
  intro other q apart
  cases q with
  | free =>
      have distinct : node ≠ other := by
        rintro rfl
        simp at apart
      simp [copies, distinct]
  | inbox => rfl
  | sender s => rfl
  | receiver => rfl

theorem popInbox
    (placed : Placed (mail.copies free (node :: inbox)) place) :
    Placed (mail.copies free inbox) (Function.update place node none) := by
  have at_ : place node = some .inbox :=
    placed.place_eq (by simp [copies])
  refine placed.take at_ ?_ (by simp [copies])
  intro other q apart
  cases q with
  | inbox =>
      have distinct : node ≠ other := by
        rintro rfl
        simp at apart
      simp [copies, distinct]
  | free => rfl
  | sender s => rfl
  | receiver => rfl

theorem pushInbox
    (placed : Placed (mail.copies free inbox) place)
    (nowhere : place node = none) :
    Placed (mail.copies free (inbox ++ [node]))
      (Function.update place node (some .inbox)) := by
  refine placed.put nowhere .inbox ?_ (by simp [copies])
  intro other q apart
  cases q with
  | inbox =>
      have distinct : node ≠ other := by
        rintro rfl
        simp at apart
      simp [copies, distinct]
  | free => rfl
  | sender s => rfl
  | receiver => rfl

/-- What is found where depends on the hands only. -/
theorem samePlaces
    (placed : Placed (mail.copies free inbox) place)
    (sender : ∀ s, (after.sender s).node = (mail.sender s).node)
    (receiver : after.receiver.node = mail.receiver.node) :
    Placed (after.copies free inbox) place := by
  refine placed.congr ?_
  intro node p
  cases p with
  | free => rfl
  | inbox => rfl
  | sender s => rw [copies, copies, sender s]
  | receiver => rw [copies, copies, receiver]

/-- A sender with empty hands is given a node. -/
theorem giveSender
    {s : σ}
    {state : Sender μ ι}
    (placed : Placed (mail.copies free inbox) place)
    (nowhere : place node = none)
    (sender : after.sender = Function.update mail.sender s state)
    (receiver : after.receiver = mail.receiver)
    (before : (mail.sender s).node = none)
    (holds : state.node = some node) :
    Placed (after.copies free inbox)
      (Function.update place node (some (.sender s))) := by
  refine placed.put nowhere (.sender s) ?_ ?_
  · intro other q apart
    cases q with
    | free => rfl
    | inbox => rfl
    | receiver => rw [copies, copies, receiver]
    | sender s' =>
        rw [copies, copies, sender]
        by_cases same : s' = s
        · subst same
          have distinct : node ≠ other := by
            rintro rfl
            simp at apart
          simp [before, holds, distinct]
        · rw [Function.update_of_ne same]
  · simp [copies, sender, before, holds]

/-- A sender puts the node in its hands down. -/
theorem takeSender
    {s : σ}
    {state : Sender μ ι}
    (placed : Placed (mail.copies free inbox) place)
    (sender : after.sender = Function.update mail.sender s state)
    (receiver : after.receiver.node = mail.receiver.node)
    (before : (mail.sender s).node = some node)
    (empty : state.node = none) :
    Placed (after.copies free inbox) (Function.update place node none) := by
  have at_ : place node = some (.sender s) :=
    placed.place_eq (by simp [copies, before])
  refine placed.take at_ ?_ ?_
  · intro other q apart
    cases q with
    | free => rfl
    | inbox => rfl
    | receiver => rw [copies, copies, receiver]
    | sender s' =>
        rw [copies, copies, sender]
        by_cases same : s' = s
        · subst same
          have distinct : node ≠ other := by
            rintro rfl
            simp at apart
          simp [before, empty, distinct]
        · rw [Function.update_of_ne same]
  · simp [copies, sender, before, empty]

/-- The receiver is given a node. -/
theorem giveReceiver
    (placed : Placed (mail.copies free inbox) place)
    (nowhere : place node = none)
    (sender : after.sender = mail.sender)
    (before : mail.receiver.node = none)
    (holds : after.receiver.node = some node) :
    Placed (after.copies free inbox)
      (Function.update place node (some .receiver)) := by
  refine placed.put nowhere .receiver ?_ (by simp [copies, before, holds])
  intro other q apart
  cases q with
  | free => rfl
  | inbox => rfl
  | sender s => rw [copies, copies, sender]
  | receiver =>
      have distinct : node ≠ other := by
        rintro rfl
        simp at apart
      simp [copies, before, holds, distinct]

/-- The receiver puts the node in its hands down. -/
theorem takeReceiver
    (placed : Placed (mail.copies free inbox) place)
    (sender : after.sender = mail.sender)
    (before : mail.receiver.node = some node)
    (empty : after.receiver.node = none) :
    Placed (after.copies free inbox) (Function.update place node none) := by
  have at_ : place node = some .receiver :=
    placed.place_eq (by simp [copies, before])
  refine placed.take at_ ?_ (by simp [copies, before, empty])
  intro other q apart
  cases q with
  | free => rfl
  | inbox => rfl
  | sender s => rw [copies, copies, sender]
  | receiver =>
      have distinct : node ≠ other := by
        rintro rfl
        simp at apart
      simp [copies, before, empty, distinct]

end Places

/-- Every node is in one place, and the messages that were inserted are the
received ones, the one being received and those in the inbox. -/
structure Held
    (mail : Mail σ μ ι)
    (free inbox : List ι)
    (place : ι → Option (NodePlace σ)) : Prop where
  pool : Chained mail.mbox.next mail.mbox.listFree free
  ring : Circular mail.mbox.next mail.mbox.listInbox inbox
  placed : Placed (mail.copies free inbox) place
  allocated : ∀ node, node ∈ mail.allocated ↔ place node ≠ none
  messages : mail.inserted.map Prod.snd =
    mail.received ++ mail.receiver.message mail.mbox ++
      inbox.map mail.mbox.msg
  filled : ∀ s node m, mail.sender s = .filled node m → mail.mbox.msg node = m
  ordered : ∀ s, (mail.inserted.filter (·.1 = s)).map Prod.snd ++
    (mail.sender s).message = mail.sent s
  waits : mail.receiver = .waiting false → mail.mbox.listInbox = none

namespace Held

variable {mail : Mail σ μ ι} {free inbox : List ι}
  {place : ι → Option (NodePlace σ)}

theorem place_free
    (held : mail.Held free inbox place)
    {node : ι}
    (member : node ∈ free) :
    place node = some .free := by
  apply held.placed.place_eq
  exact Nat.ne_of_gt (List.count_pos_iff.mpr member)

theorem place_inbox
    (held : mail.Held free inbox place)
    {node : ι}
    (member : node ∈ inbox) :
    place node = some .inbox := by
  apply held.placed.place_eq
  exact Nat.ne_of_gt (List.count_pos_iff.mpr member)

theorem place_sender
    (held : mail.Held free inbox place)
    {s : σ}
    {node : ι}
    (holds : (mail.sender s).node = some node) :
    place node = some (.sender s) := by
  apply held.placed.place_eq
  simp [copies, holds]

theorem place_receiver
    (held : mail.Held free inbox place)
    {node : ι}
    (holds : mail.receiver.node = some node) :
    place node = some .receiver := by
  apply held.placed.place_eq
  simp [copies, holds]

/-- A node that is elsewhere is not in the pool. -/
theorem notMem_free
    (held : mail.Held free inbox place)
    {node : ι}
    {p : NodePlace σ}
    (at_ : place node = some p)
    (other : p ≠ .free) :
    node ∉ free := by
  intro member
  rw [held.place_free member] at at_
  exact other (Option.some.inj at_).symm

/-- A node that is elsewhere is not in the inbox. -/
theorem notMem_inbox
    (held : mail.Held free inbox place)
    {node : ι}
    {p : NodePlace σ}
    (at_ : place node = some p)
    (other : p ≠ .inbox) :
    node ∉ inbox := by
  intro member
  rw [held.place_inbox member] at at_
  exact other (Option.some.inj at_).symm

/-- The other senders hold other nodes. -/
theorem sender_unique
    (held : mail.Held free inbox place)
    {s s' : σ}
    {node : ι}
    (holds : (mail.sender s).node = some node)
    (holds' : (mail.sender s').node = some node) :
    s' = s := by
  have same := (held.place_sender holds').symm.trans (held.place_sender holds)
  simpa using same

/-- The allocated nodes are those with a place, also after one was moved. -/
theorem allocated_move
    (held : mail.Held free inbox place)
    {node : ι}
    (present : node ∈ mail.allocated)
    (p : NodePlace σ)
    (other : ι) :
    other ∈ mail.allocated ↔
      Function.update (Function.update place node none) node (some p) other ≠
        none := by
  rw [Function.update_idem, held.allocated other]
  by_cases same : other = node
  · subst same
    simpa using (held.allocated other).mp present
  · rw [Function.update_of_ne same]

/-- Starting a call adds its message to those that the sender has sent. -/
theorem ordered_start
    (held : mail.Held free inbox place)
    {s : σ}
    (idle : mail.sender s = .idle)
    (node : ι)
    (m : μ)
    (s' : σ) :
    (mail.inserted.filter (·.1 = s')).map Prod.snd ++
        (Function.update mail.sender s (.fetched node m) s').message =
      Function.update mail.sent s (mail.sent s ++ [m]) s' := by
  have ordered := held.ordered s'
  by_cases same : s' = s
  · subst same
    rw [idle, Sender.message, List.append_nil] at ordered
    rw [Function.update_self, Function.update_self, ordered, Sender.message]
  · rw [Function.update_of_ne same, Function.update_of_ne same]
    exact ordered

/-- No message is copied before the call has its node. -/
theorem filled_start
    (held : mail.Held free inbox place)
    {s : σ}
    {node : ι}
    {m : μ}
    (s' : σ)
    (other : ι)
    (m' : μ)
    (state : Function.update mail.sender s (.fetched node m) s' =
      .filled other m') :
    mail.mbox.msg other = m' := by
  by_cases same : s' = s
  · subst same
    simp at state
  · rw [Function.update_of_ne same] at state
    exact held.filled s' other m' state

/-- `GetFree` with a node of the pool. -/
theorem fetch
    {node : ι}
    (held : mail.Held (node :: free) inbox place)
    {s : σ}
    (idle : mail.sender s = .idle)
    (m : μ) :
    Held
      { mail with
        mbox := { mail.mbox with listFree := mail.mbox.next node }
        sender := Function.update mail.sender s (.fetched node m)
        sent := Function.update mail.sent s (mail.sent s ++ [m]) }
      free inbox
      (Function.update (Function.update place node none) node
        (some (.sender s))) where
  pool := held.pool.2
  ring := held.ring
  placed := giveSender (popFree held.placed) (by simp) rfl rfl
    (by rw [idle]; rfl) rfl
  allocated := by
    apply held.allocated_move
    rw [held.allocated, held.place_free (by simp)]
    simp
  messages := held.messages
  filled := held.filled_start
  ordered := held.ordered_start idle node m
  waits := held.waits

/-- `GetFree` with new memory. -/
theorem allocate
    (held : mail.Held free inbox place)
    {s : σ}
    {node : ι}
    (idle : mail.sender s = .idle)
    (fresh : node ∉ mail.allocated)
    (m : μ) :
    Held
      { mail with
        sender := Function.update mail.sender s (.fetched node m)
        allocated := node :: mail.allocated
        sent := Function.update mail.sent s (mail.sent s ++ [m]) }
      free inbox (Function.update place node (some (.sender s))) where
  pool := held.pool
  ring := held.ring
  placed := by
    have nowhere : place node = none := by
      by_contra placed
      exact fresh ((held.allocated node).mpr placed)
    exact giveSender held.placed nowhere rfl rfl (by rw [idle]; rfl) rfl
  allocated := by
    intro other
    rw [List.mem_cons, held.allocated other]
    by_cases same : other = node
    · subst same
      simp
    · rw [Function.update_of_ne same]
      simp [same]
  messages := held.messages
  filled := held.filled_start
  ordered := held.ordered_start idle node m
  waits := held.waits

/-- The message is copied into a node that only the sender has. -/
theorem copy
    (held : mail.Held free inbox place)
    {s : σ}
    {node : ι}
    {m : μ}
    (state : mail.sender s = .fetched node m) :
    Held
      { mail with
        mbox := { mail.mbox with msg := Function.update mail.mbox.msg node m }
        sender := Function.update mail.sender s (.filled node m) }
      free inbox place := by
  have holds : (mail.sender s).node = some node := by
    rw [state]
    rfl
  have at_ := held.place_sender holds
  have unchanged (other : ι) (distinct : other ≠ node) :
      Function.update mail.mbox.msg node m other = mail.mbox.msg other :=
    Function.update_of_ne distinct _ _
  constructor
  case pool => exact held.pool
  case ring => exact held.ring
  case placed =>
    refine samePlaces held.placed ?_ rfl
    intro s'
    by_cases same : s' = s
    · subst same
      simp [state, Sender.node]
    · simp [same]
  case allocated => exact held.allocated
  case messages =>
    have inInbox : inbox.map (Function.update mail.mbox.msg node m) =
        inbox.map mail.mbox.msg := by
      apply List.map_congr_left
      intro other member
      apply unchanged
      rintro rfl
      exact held.notMem_inbox at_ (by simp) member
    have inHand : mail.receiver.message
        { mail.mbox with msg := Function.update mail.mbox.msg node m } =
        mail.receiver.message mail.mbox := by
      cases receiver : mail.receiver with
      | taken other =>
          have other_at : place other = some .receiver :=
            held.place_receiver (by rw [receiver]; rfl)
          simp only [Receiver.message]
          rw [unchanged]
          rintro rfl
          exact absurd (other_at.symm.trans at_) (by simp)
      | idle => rfl
      | waiting signalled => rfl
      | copied other => rfl
    rw [inInbox, inHand]
    exact held.messages
  case filled =>
    intro s' other m' filled
    dsimp only at filled ⊢
    by_cases same : s' = s
    · subst same
      rw [Function.update_self] at filled
      obtain ⟨rfl, rfl⟩ := Sender.filled.inj filled
      exact Function.update_self ..
    · rw [Function.update_of_ne same] at filled
      rw [unchanged]
      · exact held.filled s' other m' filled
      · rintro rfl
        exact same (held.sender_unique holds (by rw [filled]; rfl))
  case ordered =>
    intro s'
    dsimp only
    rw [← held.ordered s']
    by_cases same : s' = s
    · subst same
      rw [Function.update_self, state]
      rfl
    · rw [Function.update_of_ne same]
  case waits => exact held.waits

omit [DecidableEq σ] in
theorem putInbox_msg (mbox : Mailbox μ ι) (node : ι) :
    (putInbox mbox node).msg = mbox.msg := by
  unfold putInbox
  split
  · rfl
  · rfl

omit [DecidableEq σ] in
theorem message_putInbox (mail : Mail σ μ ι) (node : ι) :
    (if mail.mbox.listInbox = none then mail.receiver.signal
      else mail.receiver).message (putInbox mail.mbox node) =
      mail.receiver.message mail.mbox := by
  have msg := putInbox_msg mail.mbox node
  cases receiver : mail.receiver with
  | taken other => split <;> simp [Receiver.signal, Receiver.message, msg]
  | idle => split <;> rfl
  | waiting signalled => split <;> rfl
  | copied other => split <;> rfl

/-- The message is inserted under `lock_inbox`. -/
theorem insert
    (held : mail.Held free inbox place)
    {s : σ}
    {node : ι}
    {m : μ}
    (state : mail.sender s = .filled node m) :
    Held
      { mail with
        mbox := putInbox mail.mbox node
        sender := Function.update mail.sender s .idle
        receiver :=
          if mail.mbox.listInbox = none then mail.receiver.signal
          else mail.receiver
        inserted := mail.inserted ++ [(s, m)] }
      free (inbox ++ [node])
      (Function.update (Function.update place node none) node (some .inbox)) := by
  have holds : (mail.sender s).node = some node := by
    rw [state]
    rfl
  have at_ := held.place_sender holds
  have notFree := held.notMem_free at_ (by simp)
  have notInbox := held.notMem_inbox at_ (by simp)
  constructor
  case pool =>
    unfold putInbox
    split
    · refine held.pool.congr ?_
      intro other member
      apply Function.update_of_ne
      rintro rfl
      exact notFree member
    case h_2 last handle =>
      have lastInbox : last ∈ inbox := by
        apply List.mem_of_getLast?
        rw [← held.ring.handle_eq, handle]
      refine held.pool.congr ?_
      intro other member
      dsimp only
      rw [Function.update_of_ne, Function.update_of_ne]
      · rintro rfl
        exact notFree member
      · rintro rfl
        exact held.notMem_free (held.place_inbox lastInbox) (by simp) member
  case ring =>
    have ring := held.ring
    unfold putInbox
    split
    case h_1 handle =>
      rw [handle] at ring
      rw [ring.elems_eq_nil]
      exact Circular.single _ node
    case h_2 last handle =>
      rw [handle] at ring
      exact ring.append notInbox
  case placed =>
    refine pushInbox (takeSender held.placed rfl ?_ holds rfl) (by simp)
    dsimp only
    split
    · exact Receiver.node_signal _
    · rfl
  case allocated =>
    apply held.allocated_move
    rw [held.allocated, at_]
    simp
  case messages =>
    dsimp only
    rw [putInbox_msg, List.map_append, held.messages, List.map_append,
      List.map_singleton, List.map_singleton, held.filled s node m state,
      message_putInbox, List.append_assoc]
  case filled =>
    intro s' other m' filled
    dsimp only at filled ⊢
    rw [putInbox_msg]
    by_cases same : s' = s
    · subst same
      simp at filled
    · rw [Function.update_of_ne same] at filled
      exact held.filled s' other m' filled
  case ordered =>
    intro s'
    have ordered := held.ordered s'
    dsimp only
    by_cases same : s' = s
    · subst same
      rw [state] at ordered
      rw [Function.update_self, ← ordered]
      simp [Sender.message]
    · rw [Function.update_of_ne same, ← ordered]
      simp [Ne.symm same]
  case waits =>
    intro waits
    dsimp only at waits
    split at waits
    · cases receiver : mail.receiver with
      | waiting signalled =>
          rw [receiver] at waits
          exact absurd waits (by simp [Receiver.signal])
      | idle => simp [receiver, Receiver.signal] at waits
      | taken other => simp [receiver, Receiver.signal] at waits
      | copied other => simp [receiver, Receiver.signal] at waits
    case isFalse nonempty => exact absurd (held.waits waits) nonempty

/-- The receiver has taken the first node out of the inbox. -/
theorem takeFirst
    {node : ι}
    {mbox : Mailbox μ ι}
    (held : mail.Held free (node :: inbox) place)
    (empty : mail.receiver.node = none)
    (nothing : mail.receiver.message mail.mbox = [])
    (msg : mbox.msg = mail.mbox.msg)
    (pool : Chained mbox.next mbox.listFree free)
    (ring : Circular mbox.next mbox.listInbox inbox) :
    Held { mail with mbox := mbox, receiver := .taken node } free inbox
      (Function.update (Function.update place node none) node
        (some .receiver)) where
  pool := pool
  ring := ring
  placed := giveReceiver (popInbox held.placed) (by simp) rfl empty rfl
  allocated := by
    apply held.allocated_move
    rw [held.allocated, held.place_inbox (by simp)]
    simp
  messages := by
    rw [held.messages, nothing]
    simp [Receiver.message, msg]
  filled := by
    intro s other m filled
    rw [msg]
    exact held.filled s other m filled
  ordered := held.ordered
  waits := fun waits => absurd waits (by simp)

/-- The receiver finds the inbox empty and waits, or takes its first node. -/
theorem testInbox
    (held : mail.Held free inbox place)
    (empty : mail.receiver.node = none)
    (nothing : mail.receiver.message mail.mbox = []) :
    ∃ inbox' place', mail.testInbox.Held free inbox' place' := by
  have ring := held.ring
  have messages := held.messages
  rw [nothing, List.append_nil] at messages
  cases inbox with
  | nil =>
      have handle : mail.mbox.listInbox = none := ring.handle_eq
      have waits : mail.testInbox = { mail with receiver := .waiting false } := by
        simp [Mail.testInbox, takeInbox, handle]
      rw [waits]
      refine ⟨[], place, ?_⟩
      exact
        { pool := held.pool
          ring := held.ring
          placed := samePlaces held.placed (fun _ => rfl) empty.symm
          allocated := held.allocated
          messages := by rw [messages]; simp [Receiver.message]
          filled := held.filled
          ordered := held.ordered
          waits := fun _ => handle }
  | cons node rest =>
      obtain ⟨last, handle⟩ : ∃ last, mail.mbox.listInbox = some last := by
        rw [ring.handle_eq]
        exact ⟨_, List.getLast?_eq_some_getLast (by simp)⟩
      rw [handle] at ring
      have lastInbox : last ∈ node :: rest :=
        List.mem_of_getLast? ring.handle_eq.symm
      refine ⟨rest, Function.update (Function.update place node none) node
        (some .receiver), ?_⟩
      by_cases single : node = last
      · subst single
        obtain rfl := ring.rest_eq_nil
        have taken : takeInbox mail.mbox =
            some (node, { mail.mbox with listInbox := none }) := by
          simp [takeInbox, handle, ring.next_handle]
        rw [Mail.testInbox, taken]
        exact held.takeFirst empty nothing rfl held.pool (Circular.empty _)
      · have taken : takeInbox mail.mbox =
            some (node, { mail.mbox with
              next := Function.update mail.mbox.next last
                (mail.mbox.next node) }) := by
          simp [takeInbox, handle, ring.next_handle, single]
        rw [Mail.testInbox, taken]
        refine held.takeFirst empty nothing rfl ?_ ?_
        · refine held.pool.congr ?_
          intro other member
          apply Function.update_of_ne
          rintro rfl
          exact held.notMem_free (held.place_inbox lastInbox) (by simp) member
        · dsimp only
          rw [handle]
          apply ring.unlinkFirst
          rintro rfl
          exact single (List.mem_singleton.mp lastInbox).symm

/-- The message is copied out of a node that only the receiver has. -/
theorem copyOut
    (held : mail.Held free inbox place)
    {node : ι}
    (state : mail.receiver = .taken node) :
    Held
      { mail with
        receiver := .copied node
        received := mail.received ++ [mail.mbox.msg node] }
      free inbox place where
  pool := held.pool
  ring := held.ring
  placed := by
    refine samePlaces held.placed (fun _ => rfl) ?_
    rw [state]
    rfl
  allocated := held.allocated
  messages := by
    rw [held.messages, state]
    simp [Receiver.message]
  filled := held.filled
  ordered := held.ordered
  waits := fun waits => absurd waits (by simp)

/-- The node goes back to the pool. -/
theorem put
    (held : mail.Held free inbox place)
    {node : ι}
    (state : mail.receiver = .copied node) :
    Held
      { mail with
        mbox := Lpel.putFree mail.mbox node
        receiver := .idle }
      (node :: free) inbox
      (Function.update (Function.update place node none) node (some .free)) := by
  have holds : mail.receiver.node = some node := by
    rw [state]
    rfl
  have at_ := held.place_receiver holds
  have notFree := held.notMem_free at_ (by simp)
  have notInbox := held.notMem_inbox at_ (by simp)
  constructor
  case pool =>
    have link : (match mail.mbox.listFree with
        | none => none
        | some first => some first) = mail.mbox.listFree := by
      cases mail.mbox.listFree with
      | none => rfl
      | some first => rfl
    dsimp only [Lpel.putFree]
    rw [link]
    exact held.pool.push notFree
  case ring =>
    refine held.ring.congr ?_
    intro other member
    apply Function.update_of_ne
    rintro rfl
    exact notInbox member
  case placed =>
    refine pushFree ?_ (by simp)
    exact takeReceiver held.placed rfl holds rfl
  case allocated =>
    apply held.allocated_move
    rw [held.allocated, at_]
    simp
  case messages =>
    rw [held.messages, state]
    rfl
  case filled => exact held.filled
  case ordered => exact held.ordered
  case waits =>
    intro waits
    exact absurd waits (by simp)

/-- Every step keeps the nodes and the messages. -/
theorem step
    {after : Mail σ μ ι}
    {label : MailLabel σ μ ι}
    (held : mail.Held free inbox place)
    (taken : mail.step label = some after) :
    ∃ free' inbox' place', after.Held free' inbox' place' := by
  cases label with
  | getFree s m memory =>
      simp only [Mail.step] at taken
      split at taken
      case h_2 => exact absurd taken (by simp)
      case h_1 idle =>
        split at taken
        case isTrue => exact absurd taken (by simp)
        case isFalse fresh =>
          obtain rfl := Option.some.inj taken
          cases first : mail.mbox.listFree with
          | none =>
              have unused : memory ∉ mail.allocated := by
                intro member
                exact fresh ⟨first, member⟩
              simp only [Lpel.getFree, first, if_true]
              exact ⟨_, _, _, held.allocate idle unused m⟩
          | some node =>
              have pool := held.pool
              rw [first] at pool
              obtain ⟨rest, rfl, -⟩ := pool.pop
              simp only [Lpel.getFree, first, reduceCtorEq, if_false]
              exact ⟨_, _, _, held.fetch idle m⟩
  | copy s =>
      simp only [Mail.step] at taken
      split at taken
      case h_1 node m state =>
        obtain rfl := Option.some.inj taken
        exact ⟨_, _, _, held.copy state⟩
      case h_2 => exact absurd taken (by simp)
  | insert s =>
      simp only [Mail.step] at taken
      split at taken
      case h_1 node m state =>
        obtain rfl := Option.some.inj taken
        exact ⟨_, _, _, held.insert state⟩
      case h_2 => exact absurd taken (by simp)
  | recv =>
      simp only [Mail.step] at taken
      split at taken
      case h_1 state =>
        obtain rfl := Option.some.inj taken
        exact ⟨_, held.testInbox (by rw [state]; rfl) (by rw [state]; rfl)⟩
      case h_2 => exact absurd taken (by simp)
  | wake =>
      simp only [Mail.step] at taken
      split at taken
      case h_1 signalled state =>
        obtain rfl := Option.some.inj taken
        exact ⟨_, held.testInbox (by rw [state]; rfl) (by rw [state]; rfl)⟩
      case h_2 => exact absurd taken (by simp)
  | copyOut =>
      simp only [Mail.step] at taken
      split at taken
      case h_1 node state =>
        obtain rfl := Option.some.inj taken
        exact ⟨_, _, _, held.copyOut state⟩
      case h_2 => exact absurd taken (by simp)
  | putFree =>
      simp only [Mail.step] at taken
      split at taken
      case h_1 node state =>
        obtain rfl := Option.some.inj taken
        exact ⟨_, _, _, held.put state⟩
      case h_2 => exact absurd taken (by simp)

theorem ofReachable
    (reached : (mailMachine σ μ ι).Reachable mail) :
    ∃ free inbox place, mail.Held free inbox place := by
  refine Machine.Reachable.invariant
    (?_ : ∀ mail, (mailMachine σ μ ι).init mail →
      ∃ free inbox place, Held mail free inbox place) ?_ reached
  · rintro mail ⟨noPool, noInbox, idle, waitsNot, unallocated, unsent, uninserted,
      unreceived⟩
    refine ⟨[], [], fun _ => none, ?_⟩
    constructor
    case pool => exact noPool
    case ring =>
      rw [noInbox]
      exact Circular.empty _
    case placed =>
      intro node p
      cases p with
      | free => rfl
      | inbox => rfl
      | sender s => simp [copies, idle s, Sender.node]
      | receiver => simp [copies, waitsNot, Receiver.node]
    case allocated => simp [unallocated]
    case messages => simp [uninserted, unreceived, waitsNot, Receiver.message]
    case filled =>
      intro s node m state
      rw [idle s] at state
      exact absurd state (by simp)
    case ordered =>
      intro s
      simp [uninserted, unsent, idle, Sender.message]
    case waits =>
      intro state
      rw [waitsNot] at state
      exact absurd state (by simp)
  · rintro mail label after ⟨free, inbox, place, held⟩ taken
    exact held.step taken

end Held

end Mail

/-- Every allocated node is once in the pool, in the inbox or in the hands of a
sender or the receiver; the messages come out in the order in which they were
inserted, which is the order of the calls for each sender; and a receiver that
waits without a signal has an empty inbox. -/
theorem mailbox_fifo
    {mail : Mail σ μ ι}
    (reached : (mailMachine σ μ ι).Reachable mail) :
    (∃ free inbox,
      Chained mail.mbox.next mail.mbox.listFree free ∧
      Circular mail.mbox.next mail.mbox.listInbox inbox ∧
      (∀ node ∈ mail.allocated, ∃ p, mail.copies free inbox node p = 1 ∧
        ∀ q, q ≠ p → mail.copies free inbox node q = 0) ∧
      (∀ node, node ∉ mail.allocated →
        ∀ p, mail.copies free inbox node p = 0) ∧
      mail.inserted.map Prod.snd =
        mail.received ++ mail.receiver.message mail.mbox ++
          inbox.map mail.mbox.msg) ∧
    mail.received <+: mail.inserted.map Prod.snd ∧
    (∀ s, (mail.inserted.filter (·.1 = s)).map Prod.snd <+: mail.sent s) ∧
    (mail.receiver = .waiting false →
      lpelMailboxHasIncoming mail.mbox = false) := by
  obtain ⟨free, inbox, place, held⟩ := Mail.Held.ofReachable reached
  refine ⟨⟨free, inbox, held.pool, held.ring, ?_, ?_, held.messages⟩, ?_, ?_, ?_⟩
  · intro node allocated
    obtain ⟨p, at_⟩ := Option.ne_none_iff_exists'.mp
      ((held.allocated node).mp allocated)
    exact ⟨p, held.placed.only at_⟩
  · intro node unallocated p
    apply held.placed.copies_of_none
    by_contra placed
    exact unallocated ((held.allocated node).mpr placed)
  · rw [held.messages, List.append_assoc]
    exact List.prefix_append _ _
  · intro s
    rw [← held.ordered s]
    exact List.prefix_append _ _
  · intro waits
    rw [lpelMailboxHasIncoming, held.waits waits]
    rfl

/-- An empty mailbox of two senders. -/
def emptyMail : Mail Bool ℕ ℕ :=
  { mbox :=
      { next := fun _ => none
        msg := fun _ => 0
        listFree := none
        listInbox := none }
    sender := fun _ => .idle
    receiver := .idle
    allocated := []
    sent := fun _ => []
    inserted := []
    received := [] }

/-- The receiver waits, two senders send, and one of them uses the node of the
first message for a third one. -/
def twoSenders : List (MailLabel Bool ℕ ℕ) :=
  [.recv, .getFree true 7 0, .getFree false 8 1, .copy true, .copy false,
    .insert true, .insert false, .wake, .copyOut, .putFree, .getFree true 9 2,
    .copy true, .insert true, .recv, .copyOut, .putFree, .recv, .copyOut,
    .putFree, .recv]

theorem mailbox_fifo_twoSenders :
    ∃ mail : Mail Bool ℕ ℕ, (mailMachine Bool ℕ ℕ).Reachable mail ∧
      mail.received = [7, 8, 9] ∧ mail.allocated = [1, 0] ∧
      mail.received <+: mail.inserted.map Prod.snd ∧
      lpelMailboxHasIncoming mail.mbox = false := by
  obtain ⟨mail, reached, tested⟩ := Machine.exists_reachable_of_run
    (⟨rfl, rfl, fun _ => rfl, rfl, rfl, fun _ => rfl, rfl, rfl⟩ :
      (mailMachine Bool ℕ ℕ).init emptyMail)
    (by decide : ((mailMachine Bool ℕ ℕ).run emptyMail twoSenders).map
      (fun mail => decide (mail.received = [7, 8, 9] ∧
        mail.allocated = [1, 0] ∧ mail.receiver = .waiting false)) =
        some true)
  obtain ⟨received, allocated, waits⟩ := of_decide_eq_true tested
  obtain ⟨-, inOrder, -, waitsEmpty⟩ := mailbox_fifo reached
  exact ⟨mail, reached, received, allocated, inOrder, waitsEmpty waits⟩

end Lpel
