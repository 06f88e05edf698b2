import FieldWire.Proofs.Stream.Splitting
import Mathlib.Data.List.Nodup
import Mathlib.Data.List.Perm.Basic

/-!
# Exchanges

An exchange is a channel with a record of what has happened on it: which items were accepted, how
much credit was granted, what the consumer was told, and how either side left.  The producer sends,
resumes or abandons sends that wait, and fails or completes the stream; the consumer grants credit,
asks for the next item, cancels and goes away.  The steps of both sides come in any order.  A call is
one step, and so is each time that a send which waits is resumed.

The sends that wait belong to the producer, which can only go when there are none.
-/

set_option autoImplicit false

namespace FieldWire.Stream

/-- A channel with a record of what has happened on it. -/
structure Exchange where
  /-- The channel. -/
  channel : Channel
  /-- The items whose sends were accepted, in the order in which they were. -/
  accepted : List Bytes
  /-- What the successful requests asked for, all together. -/
  granted : Nat
  /-- Whether the pool has ever been given less than it should have been, because it was full. -/
  clamped : Bool
  /-- What the consumer was told. -/
  told : List Next
  /-- The error that the producer ended with. -/
  failure : Option StreamError
  /-- Whether the consumer has cancelled or gone away. -/
  withdrawn : Bool

namespace Exchange

/-- An exchange before anything has happened. -/
def start (initial : Nat) : Exchange where
  channel := Channel.start initial
  accepted := []
  granted := 0
  clamped := decide (CreditPool.capacity < initial)
  told := []
  failure := none
  withdrawn := false

/-! ## Steps -/

/-- Sends an item. -/
def send (exchange : Exchange) (item : Bytes) : Exchange :=
  match exchange.channel.send item with
  | (.taken, channel) =>
    { exchange with channel := channel, accepted := exchange.accepted ++ [item] }
  | (_, channel) => { exchange with channel := channel }

/-- Resumes the send of an item that waits. -/
def resume (exchange : Exchange) (ticket : Ticket) (item : Bytes) : Exchange :=
  match exchange.channel.resume ticket with
  | (some (.ok ()), channel) =>
    { exchange with channel := channel, accepted := exchange.accepted ++ [item] }
  | (_, channel) => { exchange with channel := channel }

/-- Gives up a send that waits. -/
def abandon (exchange : Exchange) (ticket : Ticket) : Exchange :=
  { exchange with channel := exchange.channel.abandon ticket }

/-- Ends the stream with an error. -/
def fail (exchange : Exchange) (error : StreamError) : Exchange :=
  { exchange with channel := exchange.channel.fail error, failure := some error }

/-- Ends the stream. -/
def complete (exchange : Exchange) : Exchange :=
  { exchange with channel := exchange.channel.complete }

/-- Grants credit. -/
def request (exchange : Exchange) (count : Nat) : Exchange :=
  match exchange.channel.request count with
  | (.ok (), channel) => { exchange with
      channel := channel
      granted := exchange.granted + count
      clamped := exchange.clamped ||
        decide (CreditPool.capacity - exchange.channel.credit.available < count) }
  | (.error _, channel) => { exchange with channel := channel }

/-- Asks for the next item. -/
def next (exchange : Exchange) : Exchange :=
  { exchange with
    channel := exchange.channel.next.2
    told := exchange.told ++ exchange.channel.next.1.noted }

/-- Cancels the stream. -/
def cancel (exchange : Exchange) : Exchange :=
  { exchange with channel := exchange.channel.cancel, withdrawn := true }

/-- Takes the consumer away. -/
def drop (exchange : Exchange) : Exchange :=
  { exchange with channel := exchange.channel.drop, withdrawn := true }

/-- What may happen next. -/
inductive Act (exchange : Exchange) : Exchange → Prop where
  | send (item : Bytes) (sender : exchange.channel.hasSender = true) :
      Act exchange (exchange.send item)
  | resume {ticket : Ticket} {item : Bytes} (waits : (ticket, item) ∈ exchange.channel.pending) :
      Act exchange (exchange.resume ticket item)
  | abandon {ticket : Ticket} {item : Bytes} (waits : (ticket, item) ∈ exchange.channel.pending) :
      Act exchange (exchange.abandon ticket)
  | fail (error : StreamError) (sender : exchange.channel.hasSender = true)
      (idle : exchange.channel.pending = []) : Act exchange (exchange.fail error)
  | complete (sender : exchange.channel.hasSender = true)
      (idle : exchange.channel.pending = []) : Act exchange exchange.complete
  | request (count : Nat) (receiver : exchange.channel.hasReceiver = true) :
      Act exchange (exchange.request count)
  | next (receiver : exchange.channel.hasReceiver = true) : Act exchange exchange.next
  | cancel (receiver : exchange.channel.hasReceiver = true) : Act exchange exchange.cancel
  | drop (receiver : exchange.channel.hasReceiver = true) : Act exchange exchange.drop

/-- What may happen from here on. -/
abbrev Leads : Exchange → Exchange → Prop := Relation.ReflTransGen Act

/-- The exchanges over a channel with some credit. -/
def Reaches (initial : Nat) : Exchange → Prop := Leads (start initial)

end Exchange

/-! ## Pools -/

namespace CreditPool

variable {pool : CreditPool}

/-- The credits that were put in and not taken out: those that nobody has, and those that were
handed to one who has not resumed. -/
def outstanding (pool : CreditPool) : Nat := pool.available + pool.handed.length

theorem outstanding_supply (pool : CreditPool) (count : Nat) :
    (pool.supply count).outstanding = pool.outstanding + count := by
  simp only [outstanding, supply, List.length_append, List.length_take]
  omega

/-- What a grant adds. -/
theorem grant_cases (pool : CreditPool) (count : Nat) :
    (pool.grant count = (.ok (), pool.supply (min count (capacity - pool.available))) ∧
      pool.cancelled = false) ∨
    ∃ error, pool.grant count = (.error error, pool) := by
  unfold grant
  split
  · exact .inr ⟨_, rfl⟩
  · split
    · exact .inr ⟨_, rfl⟩
    · rename_i granting
      exact .inl ⟨rfl, by simpa using granting⟩

/-- A grant never fills the pool above its capacity. -/
theorem available_grant_le (pool : CreditPool) (count : Nat) :
    (pool.grant count).2.available ≤ max capacity pool.available := by
  rcases pool.grant_cases count with ⟨granted, _⟩ | ⟨error, refused⟩
  · rw [granted]
    simp only [supply]
    omega
  · rw [refused]
    exact Nat.le_max_right _ _

/-- Giving up waiting returns what was handed out. -/
theorem abandon_cases (pool : CreditPool) (ticket : Ticket) :
    (ticket ∉ pool.handed ∧
      pool.abandon ticket = { pool with waiting := pool.waiting.erase ticket }) ∨
    (ticket ∈ pool.handed ∧ pool.cancelled = true ∧ pool.abandon ticket =
      { pool with handed := pool.handed.erase ticket, available := pool.available + 1 }) ∨
    (ticket ∈ pool.handed ∧ pool.cancelled = false ∧
      pool.abandon ticket = { pool with handed := pool.handed.erase ticket }.supply 1) := by
  by_cases handed : ticket ∈ pool.handed
  · cases cancelled : pool.cancelled with
    | true => exact .inr (.inl ⟨handed, rfl, by simp [abandon, giveBack, handed, cancelled]⟩)
    | false => exact .inr (.inr ⟨handed, rfl, by simp [abandon, giveBack, handed, cancelled]⟩)
  · exact .inl ⟨handed, by simp [abandon, handed]⟩

theorem outstanding_abandon (pool : CreditPool) (ticket : Ticket) :
    (pool.abandon ticket).outstanding = pool.outstanding := by
  have erased : ticket ∈ pool.handed → (pool.handed.erase ticket).length + 1 = pool.handed.length := by
    intro handed
    have positive := List.length_pos_of_mem handed
    rw [List.length_erase_of_mem handed]
    omega
  rcases pool.abandon_cases ticket with ⟨_, same⟩ | ⟨handed, _, same⟩ | ⟨handed, _, same⟩
  · rw [same]
    rfl
  · rw [same]
    have length := erased handed
    simp only [outstanding]
    omega
  · rw [same, outstanding_supply]
    have length := erased handed
    simp only [outstanding]
    omega

/-- The tickets of those who wait, whether or not they were handed a credit. -/
def tickets (pool : CreditPool) : List Ticket := pool.waiting ++ pool.handed

theorem tickets_supply (pool : CreditPool) (count : Nat) :
    (pool.supply count).tickets.Perm pool.tickets := by
  simp only [tickets, supply]
  have moved : (pool.waiting.drop count ++ pool.waiting.take count).Perm pool.waiting := by
    have whole : (pool.waiting.drop count ++ pool.waiting.take count).Perm
        (pool.waiting.take count ++ pool.waiting.drop count) := List.perm_append_comm
    rwa [List.take_append_drop] at whole
  have front : (pool.waiting.drop count ++ (pool.handed ++ pool.waiting.take count)).Perm
      (pool.waiting.drop count ++ (pool.waiting.take count ++ pool.handed)) :=
    List.perm_append_comm.append_left _
  rw [← List.append_assoc (pool.waiting.drop count) (pool.waiting.take count)] at front
  exact front.trans (moved.append_right _)

theorem tickets_abandon {ticket : Ticket} (distinct : pool.tickets.Nodup) :
    (pool.abandon ticket).tickets.Perm (pool.tickets.erase ticket) := by
  have apart := (List.nodup_append.mp distinct).2.2
  have erase : ticket ∈ pool.handed →
      pool.tickets.erase ticket = pool.waiting ++ pool.handed.erase ticket := fun handed =>
    List.erase_append_right _ fun waits => apart ticket waits ticket handed rfl
  rcases pool.abandon_cases ticket with ⟨missing, same⟩ | ⟨handed, _, same⟩ | ⟨handed, _, same⟩
  · rw [same]
    by_cases waits : ticket ∈ pool.waiting
    · exact List.Perm.of_eq (List.erase_append_left _ waits).symm
    · have absent : ticket ∉ pool.tickets := fun member =>
        (List.mem_append.mp member).elim waits missing
      rw [List.erase_of_not_mem absent]
      exact List.Perm.of_eq (by simp only [tickets, List.erase_of_not_mem waits])
  · rw [same, erase handed]
    exact List.Perm.refl _
  · rw [same, erase handed]
    exact tickets_supply _ 1

/-- As long as nobody has cancelled, nobody waits while there is credit. -/
def Serving (pool : CreditPool) : Prop :=
  pool.cancelled = false → pool.waiting = [] ∨ pool.available = 0

theorem Serving.supply (serving : pool.Serving) (count : Nat) : (pool.supply count).Serving := by
  intro granting
  rcases serving granting with none | empty
  · left
    simp [CreditPool.supply, none]
  · rcases Nat.lt_or_ge count pool.waiting.length with few | many
    · right
      simp only [CreditPool.supply, List.length_take, empty]
      omega
    · exact .inl (List.drop_eq_nil_of_le many)

theorem Serving.abandon (serving : pool.Serving) (ticket : Ticket) :
    (pool.abandon ticket).Serving := by
  rcases pool.abandon_cases ticket with ⟨_, same⟩ | ⟨_, cancelled, same⟩ | ⟨_, _, same⟩
  · rw [same]
    intro granting
    rcases serving granting with none | empty
    · left
      simp [none]
    · exact .inr empty
  · rw [same]
    intro granting
    exact absurd (granting.symm.trans cancelled) Bool.false_ne_true
  · rw [same]
    have free : { pool with handed := pool.handed.erase ticket }.Serving := serving
    exact free.supply 1

@[simp]
theorem cancelled_supply (pool : CreditPool) (count : Nat) :
    (pool.supply count).cancelled = pool.cancelled := rfl

@[simp]
theorem next_supply (pool : CreditPool) (count : Nat) : (pool.supply count).next = pool.next := rfl

theorem cancelled_abandon (pool : CreditPool) (ticket : Ticket) :
    (pool.abandon ticket).cancelled = pool.cancelled := by
  rcases pool.abandon_cases ticket with ⟨_, same⟩ | ⟨_, _, same⟩ | ⟨_, _, same⟩
  · rw [same]
  · rw [same]
  · rw [same, cancelled_supply]

theorem next_abandon (pool : CreditPool) (ticket : Ticket) :
    (pool.abandon ticket).next = pool.next := by
  rcases pool.abandon_cases ticket with ⟨_, same⟩ | ⟨_, _, same⟩ | ⟨_, _, same⟩
  · rw [same]
  · rw [same]
  · rw [same, next_supply]

end CreditPool

/-! ## Channels -/

namespace Channel

variable {channel : Channel} {ticket : Ticket} {item : Bytes}

/-- The tickets of the sends that wait are those of the pool, each of them once. -/
structure Orderly (channel : Channel) : Prop where
  taking : channel.closed = true → channel.credit.cancelled = true
  fresh : ∀ send ∈ channel.pending, send.1 < channel.credit.next
  distinct : (channel.pending.map (·.1)).Nodup
  enrolled : channel.credit.tickets.Perm (channel.pending.map (·.1))
  serving : channel.credit.Serving
  resting : channel.hasSender = false → channel.pending = []

theorem orderly_start (initial : Nat) : (start initial).Orderly where
  taking closed := by cases closed
  fresh send member := by cases member
  distinct := List.nodup_nil
  enrolled := List.Perm.nil
  serving _ := .inl rfl
  resting _ := rfl

theorem Orderly.not_closed (orderly : channel.Orderly) (granting : channel.credit.cancelled = false) :
    channel.closed = false := by
  by_contra closed
  have cancelled := orderly.taking (by simpa using closed)
  exact absurd (granting.symm.trans cancelled) Bool.false_ne_true

theorem Orderly.sending (orderly : channel.Orderly) (waits : (ticket, item) ∈ channel.pending) :
    channel.hasSender = true := by
  by_contra gone
  rw [orderly.resting (by simpa using gone)] at waits
  cases waits

theorem lookup_of_mem {sends : List (Ticket × Bytes)} (distinct : (sends.map (·.1)).Nodup)
    (waits : (ticket, item) ∈ sends) : sends.lookup ticket = some item := by
  induction sends with
  | nil => cases waits
  | cons send sends ih =>
    obtain ⟨other, sent⟩ := send
    obtain ⟨apart, rest⟩ := List.nodup_cons.mp distinct
    rw [List.lookup_cons]
    rcases List.mem_cons.mp waits with here | there
    · cases here
      simp
    · have different : ticket ≠ other := by
        rintro rfl
        exact apart (List.mem_map_of_mem (f := (·.1)) there)
      have unequal : (ticket == other) = false := by simpa using different
      rw [unequal]
      exact ih rest there

/-- A send is refused once the consumer has cancelled; until then it takes a credit or waits. -/
theorem Orderly.send_cases (orderly : channel.Orderly) (item : Bytes) :
    (channel.credit.cancelled = true ∧ channel.send item = (.refused .cancelled, channel)) ∨
    (channel.credit.cancelled = false ∧ 0 < channel.credit.available ∧
      channel.send item = (.taken, { channel with
        credit := { channel.credit with available := channel.credit.available - 1 }
        queue := channel.queue ++ [.ok item] })) ∨
    (channel.credit.cancelled = false ∧ channel.credit.available = 0 ∧
      channel.send item = (.waiting channel.credit.next, { channel with
        credit := { channel.credit with
          waiting := channel.credit.waiting ++ [channel.credit.next]
          next := channel.credit.next + 1 }
        pending := channel.pending ++ [(channel.credit.next, item)] })) := by
  cases cancelled : channel.credit.cancelled with
  | true => exact .inl ⟨rfl, by simp [Channel.send, CreditPool.acquire, cancelled]⟩
  | false =>
    have taking := orderly.not_closed cancelled
    by_cases credit : 0 < channel.credit.available
    · exact .inr (.inl ⟨rfl, credit, by
        simp [Channel.send, CreditPool.acquire, Channel.push, cancelled, credit, taking]⟩)
    · exact .inr (.inr ⟨rfl, by omega, by
        simp [Channel.send, CreditPool.acquire, cancelled, credit]⟩)

/-- A send that waits is given up once the consumer has cancelled; until then it is done if it was
handed a credit, and goes on waiting if it was not. -/
theorem Orderly.resume_cases (orderly : channel.Orderly)
    (waits : (ticket, item) ∈ channel.pending) :
    (channel.credit.cancelled = true ∧
      channel.resume ticket = (some (.error .cancelled), channel.abandon ticket)) ∨
    (channel.credit.cancelled = false ∧ ticket ∈ channel.credit.handed ∧
      channel.resume ticket = (some (.ok ()), { channel with
        credit := { channel.credit with handed := channel.credit.handed.erase ticket }
        pending := channel.pending.filter fun send => send.1 != ticket
        queue := channel.queue ++ [.ok item] })) ∨
    (channel.credit.cancelled = false ∧ channel.resume ticket = (none, channel)) := by
  have found := lookup_of_mem orderly.distinct waits
  cases cancelled : channel.credit.cancelled with
  | true =>
    exact .inl ⟨rfl, by simp [Channel.resume, CreditPool.resume, Channel.abandon, found, cancelled]⟩
  | false =>
    have taking := orderly.not_closed cancelled
    by_cases handed : ticket ∈ channel.credit.handed
    · exact .inr (.inl ⟨rfl, handed, by
        simp [Channel.resume, CreditPool.resume, Channel.push, found, cancelled, handed, taking]⟩)
    · exact .inr (.inr ⟨rfl, by
        simp [Channel.resume, CreditPool.resume, found, cancelled, handed]⟩)

theorem map_filter_ne {sends : List (Ticket × Bytes)} (distinct : (sends.map (·.1)).Nodup)
    (ticket : Ticket) :
    (sends.filter fun send => send.1 != ticket).map (·.1) = (sends.map (·.1)).erase ticket := by
  rw [distinct.erase_eq_filter, List.filter_map]
  rfl

/-- A ticket that is taken off both lists. -/
theorem Orderly.takeOff (orderly : channel.Orderly) (credit : CreditPool)
    (cancelled : credit.cancelled = channel.credit.cancelled)
    (next : credit.next = channel.credit.next)
    (tickets : credit.tickets.Perm (channel.credit.tickets.erase ticket))
    (serving : credit.Serving) (queue : List (Except StreamError Bytes)) :
    { channel with
      credit := credit
      pending := channel.pending.filter fun send => send.1 != ticket
      queue := queue }.Orderly where
  taking closed := cancelled.trans (orderly.taking closed)
  fresh send member := by
    have old := orderly.fresh send (List.mem_of_mem_filter member)
    exact old.trans_eq next.symm
  distinct := by
    rw [map_filter_ne orderly.distinct]
    exact orderly.distinct.erase ticket
  enrolled := by
    rw [map_filter_ne orderly.distinct]
    exact tickets.trans (orderly.enrolled.erase ticket)
  serving := serving
  resting gone := by
    have none := orderly.resting gone
    simp [none]

theorem Orderly.distinctTickets (orderly : channel.Orderly) : channel.credit.tickets.Nodup :=
  orderly.enrolled.nodup_iff.mpr orderly.distinct

theorem Orderly.abandon (orderly : channel.Orderly) (ticket : Ticket) :
    (channel.abandon ticket).Orderly :=
  orderly.takeOff _ (CreditPool.cancelled_abandon _ _) (CreditPool.next_abandon _ _)
    (CreditPool.tickets_abandon orderly.distinctTickets) (orderly.serving.abandon ticket)
    channel.queue

theorem Orderly.resume (orderly : channel.Orderly) (waits : (ticket, item) ∈ channel.pending) :
    (channel.resume ticket).2.Orderly := by
  rcases orderly.resume_cases waits with ⟨_, same⟩ | ⟨granting, handed, same⟩ | ⟨_, same⟩
  · rw [same]
    exact orderly.abandon ticket
  · rw [same]
    have apart := (List.nodup_append.mp orderly.distinctTickets).2.2
    have erased : channel.credit.tickets.erase ticket =
        channel.credit.waiting ++ channel.credit.handed.erase ticket :=
      List.erase_append_right _ fun waits => apart ticket waits ticket handed rfl
    exact orderly.takeOff { channel.credit with handed := channel.credit.handed.erase ticket }
      rfl rfl (List.Perm.of_eq erased.symm) orderly.serving _
  · rw [same]
    exact orderly

theorem Orderly.send (orderly : channel.Orderly) (item : Bytes)
    (sender : channel.hasSender = true) : (channel.send item).2.Orderly := by
  rcases orderly.send_cases item with ⟨_, same⟩ | ⟨granting, credit, same⟩ | ⟨granting, empty, same⟩
  · rw [same]
    exact orderly
  · rw [same]
    refine ⟨orderly.taking, orderly.fresh, orderly.distinct, orderly.enrolled, ?_, orderly.resting⟩
    intro still
    rcases orderly.serving still with none | zero
    · exact .inl none
    · omega
  · rw [same]
    refine ⟨orderly.taking, ?_, ?_, ?_, fun _ => .inr empty, ?_⟩
    · intro send member
      rcases List.mem_append.mp member with old | new
      · exact Nat.lt_succ_of_lt (orderly.fresh send old)
      · obtain rfl := List.mem_singleton.mp new
        exact Nat.lt_succ_self _
    · rw [List.map_append, List.map_singleton, ← List.concat_eq_append]
      refine orderly.distinct.concat ?_
      intro member
      obtain ⟨send, old, same⟩ := List.mem_map.mp member
      exact absurd (orderly.fresh send old) (by rw [same]; exact Nat.lt_irrefl _)
    · rw [List.map_append, List.map_singleton]
      have moved : (channel.credit.waiting ++ [channel.credit.next] ++ channel.credit.handed).Perm
          (channel.credit.tickets ++ [channel.credit.next]) := by
        rw [CreditPool.tickets, List.append_assoc, List.append_assoc]
        exact List.perm_append_comm.append_left _
      exact moved.trans (orderly.enrolled.append_right _)
    · intro gone
      exact absurd (sender.symm.trans gone) Bool.true_eq_false.mp

theorem Orderly.request (orderly : channel.Orderly) (count : Nat) :
    (channel.request count).2.Orderly := by
  have kept : ∀ number, { channel with credit := channel.credit.supply number }.Orderly := fun number =>
    ⟨orderly.taking, orderly.fresh, orderly.distinct,
      (CreditPool.tickets_supply _ _).trans orderly.enrolled, orderly.serving.supply _,
      orderly.resting⟩
  rcases channel.credit.grant_cases count with ⟨granted, _⟩ | ⟨error, refused⟩
  · simp only [Channel.request, granted]
    exact kept _
  · simp only [Channel.request, refused]
    exact orderly

/-- The consumer ends all sending. -/
theorem Orderly.close (orderly : channel.Orderly) (terminated hasReceiver : Bool)
    (queue : List (Except StreamError Bytes)) :
    { channel with
      terminated := terminated
      hasReceiver := hasReceiver
      closed := true
      credit := channel.credit.cancel
      queue := queue }.Orderly :=
  ⟨fun _ => rfl, orderly.fresh, orderly.distinct, orderly.enrolled,
    fun granting => absurd granting Bool.true_eq_false.mp, orderly.resting⟩

/-- What there is when the consumer asks. -/
theorem next_cases (channel : Channel) :
    (channel.terminated = true ∧ channel.next = (.done, channel)) ∨
    (channel.terminated = false ∧
      ((∃ item queue, channel.queue = .ok item :: queue ∧
          channel.next = (.item item, { channel with queue := queue })) ∨
        (∃ error queue, channel.queue = .error error :: queue ∧
          channel.next = (.error error, { channel with queue := queue }.cancel)) ∨
        (channel.queue = [] ∧ channel.hasSender = true ∧ channel.next = (.pending, channel)) ∨
        (channel.queue = [] ∧ channel.hasSender = false ∧
          channel.next = (.done, { channel with terminated := true })))) := by
  cases terminated : channel.terminated with
  | true => exact .inl ⟨rfl, by simp [Channel.next, terminated]⟩
  | false =>
    refine .inr ⟨rfl, ?_⟩
    cases queue : channel.queue with
    | nil =>
      cases sender : channel.hasSender with
      | true => exact .inr (.inr (.inl ⟨rfl, rfl, by simp [Channel.next, terminated, queue, sender]⟩))
      | false => exact .inr (.inr (.inr ⟨rfl, rfl, by simp [Channel.next, terminated, queue, sender]⟩))
    | cons entry rest =>
      cases entry with
      | ok item => exact .inl ⟨item, rest, rfl, by simp [Channel.next, terminated, queue]⟩
      | error error =>
        exact .inr (.inl ⟨error, rest, rfl, by simp [Channel.next, terminated, queue]⟩)

theorem Orderly.next (orderly : channel.Orderly) : channel.next.2.Orderly := by
  rcases channel.next_cases with ⟨_, same⟩ |
    ⟨_, ⟨item, queue, _, same⟩ | ⟨error, queue, _, same⟩ | ⟨_, _, same⟩ | ⟨_, _, same⟩⟩ <;> rw [same]
  · exact orderly
  · exact ⟨orderly.taking, orderly.fresh, orderly.distinct, orderly.enrolled, orderly.serving,
      orderly.resting⟩
  · exact orderly.close true channel.hasReceiver queue
  · exact orderly
  · exact ⟨orderly.taking, orderly.fresh, orderly.distinct, orderly.enrolled, orderly.serving,
      orderly.resting⟩

theorem Orderly.leave (orderly : channel.Orderly) (idle : channel.pending = [])
    (queue : List (Except StreamError Bytes)) :
    { channel with queue := queue, hasSender := false }.Orderly :=
  ⟨orderly.taking, orderly.fresh, orderly.distinct, orderly.enrolled, orderly.serving,
    fun _ => idle⟩

theorem Orderly.fail (orderly : channel.Orderly) (idle : channel.pending = [])
    (error : StreamError) : (channel.fail error).Orderly := by
  unfold Channel.fail
  split
  · exact orderly.leave idle channel.queue
  · exact orderly.leave idle _

end Channel

namespace Exchange

variable {initial : Nat} {exchange later : Exchange}

theorem channel_send (exchange : Exchange) (item : Bytes) :
    (exchange.send item).channel = (exchange.channel.send item).2 := by
  unfold send
  split <;> simp [*]

theorem channel_resume (exchange : Exchange) (ticket : Ticket) (item : Bytes) :
    (exchange.resume ticket item).channel = (exchange.channel.resume ticket).2 := by
  unfold resume
  split <;> simp [*]

theorem channel_request (exchange : Exchange) (count : Nat) :
    (exchange.request count).channel = (exchange.channel.request count).2 := by
  unfold request
  split <;> simp [*]

/-- A send takes a credit or waits, and leaves everything as it is if it is refused. -/
theorem send_cases (orderly : exchange.channel.Orderly) (item : Bytes) :
    exchange.send item = exchange ∨
    (0 < exchange.channel.credit.available ∧ exchange.send item = { exchange with
      channel.credit.available := exchange.channel.credit.available - 1
      channel.queue := exchange.channel.queue ++ [.ok item]
      accepted := exchange.accepted ++ [item] }) ∨
    exchange.send item = { exchange with
      channel.credit.waiting := exchange.channel.credit.waiting ++ [exchange.channel.credit.next]
      channel.credit.next := exchange.channel.credit.next + 1
      channel.pending := exchange.channel.pending ++ [(exchange.channel.credit.next, item)] } := by
  rcases orderly.send_cases item with ⟨_, same⟩ | ⟨_, credit, same⟩ | ⟨_, _, same⟩
  · exact .inl (by simp only [send, same])
  · exact .inr (.inl ⟨credit, by simp only [send, same]⟩)
  · exact .inr (.inr (by simp only [send, same]))

/-- A send that waits is given up, or spends the credit that it was handed, or goes on waiting. -/
theorem resume_cases (orderly : exchange.channel.Orderly) {ticket : Ticket} {item : Bytes}
    (waits : (ticket, item) ∈ exchange.channel.pending) :
    exchange.resume ticket item = exchange.abandon ticket ∨
    (ticket ∈ exchange.channel.credit.handed ∧ exchange.resume ticket item = { exchange with
      channel.credit.handed := exchange.channel.credit.handed.erase ticket
      channel.pending := exchange.channel.pending.filter fun send => send.1 != ticket
      channel.queue := exchange.channel.queue ++ [.ok item]
      accepted := exchange.accepted ++ [item] }) ∨
    exchange.resume ticket item = exchange := by
  rcases orderly.resume_cases waits with ⟨_, same⟩ | ⟨_, handed, same⟩ | ⟨_, same⟩
  · exact .inl (by simp only [resume, same, abandon])
  · exact .inr (.inl ⟨handed, by simp only [resume, same]⟩)
  · exact .inr (.inr (by simp only [resume, same]))

/-- A request supplies what the pool can hold, or is refused. -/
theorem request_cases (exchange : Exchange) (count : Nat) :
    exchange.request count = { exchange with
      channel.credit := exchange.channel.credit.supply
        (min count (CreditPool.capacity - exchange.channel.credit.available))
      granted := exchange.granted + count
      clamped := exchange.clamped ||
        decide (CreditPool.capacity - exchange.channel.credit.available < count) } ∨
    exchange.request count = exchange := by
  rcases exchange.channel.credit.grant_cases count with ⟨granted, _⟩ | ⟨error, refused⟩
  · exact .inl (by simp only [request, Channel.request, granted])
  · exact .inr (by simp only [request, Channel.request, refused])

theorem orderly_of_act (orderly : exchange.channel.Orderly) (act : exchange.Act later) :
    later.channel.Orderly := by
  cases act with
  | send item sender =>
    rw [channel_send]
    exact orderly.send item sender
  | resume waits =>
    rw [channel_resume]
    exact orderly.resume waits
  | abandon => exact orderly.abandon _
  | fail error _ idle => exact orderly.fail idle error
  | complete _ idle => exact orderly.leave idle exchange.channel.queue
  | request count =>
    rw [channel_request]
    exact orderly.request count
  | next => exact orderly.next
  | cancel => exact orderly.close true exchange.channel.hasReceiver exchange.channel.queue
  | drop => exact orderly.close exchange.channel.terminated false exchange.channel.queue

theorem orderly_of_reaches (reached : Reaches initial exchange) : exchange.channel.Orderly := by
  induction reached with
  | refl => exact Channel.orderly_start initial
  | tail _ act ih => exact orderly_of_act ih act

end Exchange

end FieldWire.Stream
