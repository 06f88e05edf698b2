import FieldWire.Proofs.Stream.Exchange.Order

/-!
# No credit is lost

Every credit that the pool was given is spent on an accepted item, or is in the pool, or was handed
to a send that waits and has not been resumed.  Sends that are abandoned or fail give back what they
were handed, and errors and ends cost nothing.  Only a pool that is full loses what it is given
beyond its capacity.
-/

set_option autoImplicit false

namespace FieldWire.Stream

namespace Exchange

variable {initial : Nat} {exchange later : Exchange}

/-- What was spent and what is left is no more than what was put in, and all of it unless the pool
was ever full. -/
structure Balanced (initial : Nat) (exchange : Exchange) : Prop where
  bounded : exchange.accepted.length + exchange.channel.credit.outstanding ≤
    min initial CreditPool.capacity + exchange.granted
  whole : exchange.clamped = false →
    exchange.accepted.length + exchange.channel.credit.outstanding = initial + exchange.granted

theorem balanced_start (initial : Nat) : (start initial).Balanced initial where
  bounded := by
    change 0 + (min initial CreditPool.capacity + 0) ≤ min initial CreditPool.capacity + 0
    omega
  whole unclamped := by
    have below : ¬CreditPool.capacity < initial := of_decide_eq_false unclamped
    change 0 + (min initial CreditPool.capacity + 0) = initial + 0
    omega

/-- A step that moves credits about without putting any in. -/
theorem Balanced.move (balanced : exchange.Balanced initial)
    (moved : later.accepted.length + later.channel.credit.outstanding =
      exchange.accepted.length + exchange.channel.credit.outstanding)
    (granted : later.granted = exchange.granted) (clamped : later.clamped = exchange.clamped) :
    later.Balanced initial where
  bounded := by
    rw [moved, granted]
    exact balanced.bounded
  whole unclamped := by
    rw [moved, granted]
    exact balanced.whole (clamped.symm.trans unclamped)

theorem Balanced.send (balanced : exchange.Balanced initial) (orderly : exchange.channel.Orderly)
    (item : Bytes) : (exchange.send item).Balanced initial := by
  rcases send_cases orderly item with same | ⟨credit, same⟩ | same <;> rw [same]
  · exact balanced
  · refine balanced.move ?_ rfl rfl
    simp only [List.length_append, List.length_singleton, CreditPool.outstanding]
    omega
  · exact balanced.move rfl rfl rfl

theorem Balanced.abandon (balanced : exchange.Balanced initial) (ticket : Ticket) :
    (exchange.abandon ticket).Balanced initial :=
  balanced.move (congrArg (_ + ·) (CreditPool.outstanding_abandon _ ticket)) rfl rfl

theorem Balanced.resume (balanced : exchange.Balanced initial) (orderly : exchange.channel.Orderly)
    {ticket : Ticket} {item : Bytes} (waits : (ticket, item) ∈ exchange.channel.pending) :
    (exchange.resume ticket item).Balanced initial := by
  rcases resume_cases orderly waits with same | ⟨handed, same⟩ | same <;> rw [same]
  · exact balanced.abandon ticket
  · refine balanced.move ?_ rfl rfl
    have positive := List.length_pos_of_mem handed
    simp only [List.length_append, List.length_singleton, CreditPool.outstanding,
      List.length_erase_of_mem handed]
    omega
  · exact balanced

theorem Balanced.request (balanced : exchange.Balanced initial) (count : Nat) :
    (exchange.request count).Balanced initial := by
  rcases exchange.request_cases count with same | same <;> rw [same]
  · have supplied := CreditPool.outstanding_supply exchange.channel.credit
      (min count (CreditPool.capacity - exchange.channel.credit.available))
    constructor
    · have bounded := balanced.bounded
      dsimp only
      omega
    · intro unclamped
      simp only [Bool.or_eq_false_iff, decide_eq_false_iff_not] at unclamped
      have whole := balanced.whole unclamped.1
      dsimp only
      omega
  · exact balanced

/-- Asking for an item leaves the credits alone, though it may end all granting. -/
theorem outstanding_next (channel : Channel) :
    channel.next.2.credit.outstanding = channel.credit.outstanding := by
  rcases channel.next_cases with ⟨_, same⟩ |
    ⟨_, ⟨_, _, _, same⟩ | ⟨_, _, _, same⟩ | ⟨_, _, same⟩ | ⟨_, _, same⟩⟩ <;>
    exact congrArg (·.2.credit.outstanding) same

theorem outstanding_fail (channel : Channel) (error : StreamError) :
    (channel.fail error).credit.outstanding = channel.credit.outstanding := by
  unfold Channel.fail
  split <;> rfl

theorem balanced_of_act (balanced : exchange.Balanced initial) (orderly : exchange.channel.Orderly)
    (act : exchange.Act later) : later.Balanced initial := by
  cases act with
  | send item => exact balanced.send orderly item
  | resume waits => exact balanced.resume orderly waits
  | abandon => exact balanced.abandon _
  | fail error =>
    exact balanced.move (congrArg (_ + ·) (outstanding_fail exchange.channel error)) rfl rfl
  | complete => exact balanced.move rfl rfl rfl
  | request count => exact balanced.request count
  | next => exact balanced.move (congrArg (_ + ·) (outstanding_next exchange.channel)) rfl rfl
  | cancel => exact balanced.move rfl rfl rfl
  | drop => exact balanced.move rfl rfl rfl

theorem balanced_of_reaches (reached : Reaches initial exchange) : exchange.Balanced initial := by
  induction reached with
  | refl => exact balanced_start initial
  | tail before act ih => exact balanced_of_act ih (orderly_of_reaches before) act

/-- Whatever the producer and the consumer do, no more items are accepted than credits were given.
Unless the pool was ever full, each credit that was given is spent on an accepted item, in the pool,
or handed to one of the sends that wait.  Until the consumer withdraws, sends that were not handed
one only wait while the pool is empty.  No grant fills the pool above its capacity. -/
theorem conserves_credit (reached : Reaches initial exchange) :
    let pool := exchange.channel.credit
    exchange.accepted.length ≤ min initial CreditPool.capacity + exchange.granted ∧
      (exchange.clamped = false → exchange.accepted.length + pool.available + pool.handed.length =
        initial + exchange.granted) ∧
      (pool.handed.Nodup ∧
        ∀ ticket ∈ pool.handed, ∃ item, (ticket, item) ∈ exchange.channel.pending) ∧
      (exchange.withdrawn = false → pool.handed = [] → exchange.channel.pending ≠ [] →
        pool.available = 0) ∧
      ∀ count, (exchange.channel.request count).2.credit.available ≤
        max CreditPool.capacity pool.available := by
  intro pool
  have balanced := balanced_of_reaches reached
  have orderly := orderly_of_reaches reached
  refine ⟨?_, ?_, ⟨?_, ?_⟩, ?_, ?_⟩
  · exact Nat.le_trans (Nat.le_add_right _ _) balanced.bounded
  · intro unclamped
    rw [Nat.add_assoc]
    exact balanced.whole unclamped
  · exact (List.nodup_append.mp orderly.distinctTickets).2.1
  · intro ticket handed
    have enrolled := orderly.enrolled.subset (List.mem_append_right pool.waiting handed)
    obtain ⟨⟨_, item⟩, waits, rfl⟩ := List.mem_map.mp enrolled
    exact ⟨item, waits⟩
  · intro stays resumed waits
    have sender : exchange.channel.hasSender = true :=
      eq_true_of_ne_false fun gone => waits (orderly.resting gone)
    rcases orderly.serving (granting_of_sender reached stays sender) with none | empty
    · have enrolled := orderly.enrolled
      rw [CreditPool.tickets, none, show exchange.channel.credit.handed = [] from resumed] at enrolled
      exact absurd (List.map_eq_nil_iff.mp enrolled.nil_eq.symm) waits
    · exact empty
  · intro count
    exact pool.available_grant_le count

/-- One credit and three sends: the first takes it and the others wait.  A request for none is
refused, a request for one serves the second, and as that is given up, its credit goes on to the
third. -/
theorem conserves_credit_example :
    let exchange :=
      ((((((start 1).send [0x61]).send [0x62]).send [0x63]).request 0).request 1).abandon 0
    Reaches 1 exchange ∧ exchange.accepted = [[0x61]] ∧ exchange.granted = 1 ∧
      exchange.channel.credit.handed = [1] ∧
      exchange.accepted.length + exchange.channel.credit.available +
        exchange.channel.credit.handed.length = 1 + exchange.granted := by
  intro exchange
  have sent : Reaches 1 (((start 1).send [0x61]).send [0x62]) :=
    (Relation.ReflTransGen.single (.send [0x61] rfl)).tail (.send [0x62] rfl)
  have asked : Reaches 1 (((((start 1).send [0x61]).send [0x62]).send [0x63]).request 0) :=
    (sent.tail (.send [0x63] rfl)).tail (.request 0 rfl)
  have reached : Reaches 1 exchange :=
    (asked.tail (.request 1 rfl)).tail (@Act.abandon _ 0 [0x62] (by decide))
  obtain ⟨_, whole, _⟩ := conserves_credit reached
  exact ⟨reached, rfl, rfl, rfl, whole (by decide)⟩

end Exchange

end FieldWire.Stream
