import FieldWire.Proofs.Stream.Exchange

/-!
# Cancellation is for good

A send does two things: it takes a credit, at once or when it is resumed, and then puts its item into
the queue.  A withdrawal does two things as well: it closes the pool and then the queue.  Between the
two the other side may do anything.

Once the pool is closed, only the items whose sends have a credit can still be accepted; once the
queue is closed too, nothing can.  Both stay closed, whatever is left in the pool, was handed to
sends that wait, or lies in the queue.
-/

set_option autoImplicit false

namespace FieldWire.Stream

namespace Channel

/-- A channel whose consumer has cancelled, was told of a failure, or is gone. -/
structure Halted (channel : Channel) : Prop where
  cancelled : channel.credit.cancelled = true
  closed : channel.closed = true
  deaf : channel.hasReceiver = true → channel.terminated = true

variable {channel : Channel} {ticket : Ticket} {item : Bytes}

/-! ## A closed pool -/

section Cancelled

variable (cancelled : channel.credit.cancelled = true)

include cancelled

theorem send_of_cancelled (item : Bytes) : channel.send item = (.refused .cancelled, channel) := by
  simp [send, CreditPool.acquire, cancelled]

theorem resume_of_cancelled (waits : (ticket, item) ∈ channel.pending) :
    channel.resume ticket = (some (.error .cancelled), channel.abandon ticket) := by
  cases found : channel.pending.lookup ticket with
  | none =>
    have absent := List.lookup_eq_none_iff.mp found (ticket, item) waits
    simp at absent
  | some first => simp [resume, CreditPool.resume, abandon, found, cancelled]

theorem request_of_cancelled {count : Nat} (positive : 0 < count) :
    channel.request count = (.error .cancelled, channel) := by
  have some : count ≠ 0 := by omega
  simp [request, CreditPool.grant, cancelled, some]

theorem isCancelled_of_cancelled : channel.isCancelled = true := by
  simp [isCancelled, cancelled]

end Cancelled

/-! ## A closed queue -/

theorem push_of_closed (closed : channel.closed = true) (item : Bytes) :
    channel.push item = (.error .cancelled, channel) := by
  simp [push, closed]

theorem fail_of_closed (closed : channel.closed = true) (error : StreamError) :
    channel.fail error = channel.complete := by
  simp [fail, closed]

theorem Halted.next (halted : channel.Halted) (receiver : channel.hasReceiver = true) :
    channel.next = (.done, channel) := by
  simp [Channel.next, halted.deaf receiver]

theorem halted_cancel (channel : Channel) : channel.cancel.Halted := ⟨rfl, rfl, fun _ => rfl⟩

theorem halted_drop (channel : Channel) : channel.drop.Halted := by
  refine ⟨rfl, rfl, fun receiver => ?_⟩
  cases receiver

theorem halted_of_told {error : StreamError} (told : channel.next.1 = .error error) :
    channel.next.2.Halted := by
  rcases channel.next_cases with ⟨_, same⟩ |
    ⟨_, ⟨item, queue, _, same⟩ | ⟨other, queue, _, same⟩ | ⟨_, _, same⟩ | ⟨_, _, same⟩⟩ <;>
    rw [same] at told ⊢
  · cases told
  · cases told
  · exact halted_cancel _
  · cases told
  · cases told

end Channel

/-! ## Whole calls -/

namespace Exchange

variable {exchange later : Exchange}

theorem send_of_cancelled (cancelled : exchange.channel.credit.cancelled = true) (item : Bytes) :
    exchange.send item = exchange := by
  simp only [send, Channel.send_of_cancelled cancelled]

theorem resume_of_cancelled (cancelled : exchange.channel.credit.cancelled = true)
    {ticket : Ticket} {item : Bytes} (waits : (ticket, item) ∈ exchange.channel.pending) :
    exchange.resume ticket item = exchange.abandon ticket := by
  simp only [resume, Channel.resume_of_cancelled cancelled waits, abandon]

theorem request_of_cancelled (cancelled : exchange.channel.credit.cancelled = true) (count : Nat) :
    exchange.request count = exchange := by
  rcases Nat.eq_zero_or_pos count with rfl | positive
  · simp [request, Channel.request, CreditPool.grant]
  · simp only [request, Channel.request_of_cancelled cancelled positive]

/-- After the pool was closed no call accepts an item, and no send begins to wait. -/
theorem act_of_cancelled (cancelled : exchange.channel.credit.cancelled = true)
    (act : exchange.Act later) :
    later.channel.credit.cancelled = true ∧ later.accepted = exchange.accepted ∧
      later.channel.pending.Sublist exchange.channel.pending := by
  have gaveUp (ticket : Ticket) :
      (exchange.abandon ticket).channel.credit.cancelled = true ∧
        (exchange.abandon ticket).accepted = exchange.accepted ∧
        (exchange.abandon ticket).channel.pending.Sublist exchange.channel.pending :=
    ⟨(CreditPool.cancelled_abandon _ _).trans cancelled, rfl, List.filter_sublist⟩
  cases act with
  | send item =>
    rw [send_of_cancelled cancelled]
    exact ⟨cancelled, rfl, List.Sublist.refl _⟩
  | resume waits =>
    rw [resume_of_cancelled cancelled waits]
    exact gaveUp _
  | abandon => exact gaveUp _
  | fail error =>
    unfold fail Channel.fail
    split
    · exact ⟨cancelled, rfl, List.Sublist.refl _⟩
    · exact ⟨cancelled, rfl, List.Sublist.refl _⟩
  | complete => exact ⟨cancelled, rfl, List.Sublist.refl _⟩
  | request count =>
    rw [request_of_cancelled cancelled]
    exact ⟨cancelled, rfl, List.Sublist.refl _⟩
  | next =>
    rcases exchange.channel.next_cases with ⟨_, same⟩ |
      ⟨_, ⟨item, queue, _, same⟩ | ⟨error, queue, _, same⟩ | ⟨_, _, same⟩ | ⟨_, _, same⟩⟩ <;>
      simp [next, same, cancelled, Channel.cancel, CreditPool.cancel]
  | cancel => exact ⟨rfl, rfl, List.Sublist.refl _⟩
  | drop => exact ⟨rfl, rfl, List.Sublist.refl _⟩

/-- After the queue was closed as well, the consumer is only told that there is nothing more. -/
theorem act_of_halted (halted : exchange.channel.Halted) (act : exchange.Act later) :
    later.channel.Halted ∧
      ∃ count, later.told = exchange.told ++ List.replicate count .done := by
  have gaveUp (ticket : Ticket) : (exchange.abandon ticket).channel.Halted :=
    ⟨(CreditPool.cancelled_abandon _ _).trans halted.cancelled, halted.closed, halted.deaf⟩
  cases act with
  | send item =>
    rw [send_of_cancelled halted.cancelled]
    exact ⟨halted, 0, by simp⟩
  | resume waits =>
    rw [resume_of_cancelled halted.cancelled waits]
    exact ⟨gaveUp _, 0, by simp [abandon]⟩
  | abandon => exact ⟨gaveUp _, 0, by simp [abandon]⟩
  | fail error =>
    rw [fail, Channel.fail_of_closed halted.closed]
    exact ⟨⟨halted.cancelled, halted.closed, halted.deaf⟩, 0, by simp⟩
  | complete => exact ⟨⟨halted.cancelled, halted.closed, halted.deaf⟩, 0, by simp [complete]⟩
  | request count =>
    rw [request_of_cancelled halted.cancelled]
    exact ⟨halted, 0, by simp⟩
  | next receiver =>
    rw [next, halted.next receiver]
    exact ⟨halted, 1, by simp [Next.noted]⟩
  | cancel => exact ⟨Channel.halted_cancel _, 0, by simp [cancel]⟩
  | drop => exact ⟨Channel.halted_drop _, 0, by simp [drop]⟩

end Exchange

/-! ## Calls that overlap -/

/-- An exchange with sends that are half done. -/
structure Concurrent where
  exchange : Exchange
  /-- The items whose sends have a credit and have not put them into the queue. -/
  holding : List Bytes

namespace Concurrent

def start (initial : Nat) : Concurrent := ⟨Exchange.start initial, []⟩

/-- Puts the item of a send that has a credit into the queue. -/
def push (state : Concurrent) (item : Bytes) : Concurrent :=
  match state.exchange.channel.push item with
  | (.ok (), channel) =>
    ⟨{ state.exchange with channel := channel, accepted := state.exchange.accepted ++ [item] },
      state.holding.erase item⟩
  | (.error _, channel) =>
    ⟨{ state.exchange with channel := channel }, state.holding.erase item⟩

/-- What may happen next: a whole call, or half of a send or of a withdrawal. -/
inductive Act (state : Concurrent) : Concurrent → Prop where
  /-- A call without a break.  The producer stays until its sends are done. -/
  | whole {later : Exchange} (act : state.exchange.Act later)
      (stays : later.channel.hasSender = true ∨ state.holding = []) :
      Act state { state with exchange := later }
  /-- A send takes a credit. -/
  | take (item : Bytes) {credit : CreditPool} (sender : state.exchange.channel.hasSender = true)
      (taken : state.exchange.channel.credit.acquire = (.taken, credit)) :
      Act state ⟨{ state.exchange with channel.credit := credit }, state.holding ++ [item]⟩
  /-- A send that waited takes the credit that it was handed. -/
  | wake {ticket : Ticket} {item : Bytes} {credit : CreditPool}
      (waits : (ticket, item) ∈ state.exchange.channel.pending)
      (handed : state.exchange.channel.credit.resume ticket = (some (.ok ()), credit)) :
      Act state ⟨{ state.exchange with
        channel.credit := credit
        channel.pending := state.exchange.channel.pending.filter fun send => send.1 != ticket },
        state.holding ++ [item]⟩
  /-- A send that has a credit comes to its end. -/
  | push {item : Bytes} (holds : item ∈ state.holding) : Act state (state.push item)
  /-- A consumer that withdraws has closed the pool, but not the queue. -/
  | close (receiver : state.exchange.channel.hasReceiver = true) :
      Act state { state with
        exchange.channel.credit := state.exchange.channel.credit.cancel }

/-- What may happen from here on. -/
abbrev Leads : Concurrent → Concurrent → Prop := Relation.ReflTransGen Act

/-- The calls with which the consumer withdraws, and the one that tells it of a failure. -/
inductive Withdraws (state : Concurrent) : Concurrent → Prop where
  | cancel (receiver : state.exchange.channel.hasReceiver = true) :
      Withdraws state { state with exchange := state.exchange.cancel }
  | drop (receiver : state.exchange.channel.hasReceiver = true) :
      Withdraws state { state with exchange := state.exchange.drop }
  | told {error : StreamError} (receiver : state.exchange.channel.hasReceiver = true)
      (next : state.exchange.channel.next.1 = .error error) :
      Withdraws state { state with exchange := state.exchange.next }

variable {state later : Concurrent}

theorem Withdraws.halted (withdraws : state.Withdraws later) :
    later.exchange.channel.Halted := by
  cases withdraws with
  | cancel => exact Channel.halted_cancel _
  | drop => exact Channel.halted_drop _
  | told _ next => exact Channel.halted_of_told next

theorem Withdraws.keeps (withdraws : state.Withdraws later) :
    later.holding = state.holding ∧ later.exchange.accepted = state.exchange.accepted ∧
      later.exchange.channel.pending = state.exchange.channel.pending := by
  cases withdraws with
  | cancel => exact ⟨rfl, rfl, rfl⟩
  | drop => exact ⟨rfl, rfl, rfl⟩
  | told =>
    rcases state.exchange.channel.next_cases with ⟨_, same⟩ |
      ⟨_, ⟨item, queue, _, same⟩ | ⟨error, queue, _, same⟩ | ⟨_, _, same⟩ | ⟨_, _, same⟩⟩ <;>
      simp [Exchange.next, same, Channel.cancel]

/-! ## After the pool was closed -/

/-- What becomes of a state whose pool is closed: of the items that had a credit some may still be
accepted, and of the sends that waited some may still wait. -/
structure Wanes (state later : Concurrent) : Prop where
  cancelled : later.exchange.channel.credit.cancelled = true
  accepted : ∃ passed, later.exchange.accepted = state.exchange.accepted ++ passed ∧
    (passed ++ later.holding).Subperm state.holding
  pending : later.exchange.channel.pending.Sublist state.exchange.channel.pending

theorem wanes_of_act (cancelled : state.exchange.channel.credit.cancelled = true)
    (act : state.Act later) : state.Wanes later := by
  cases act with
  | whole act =>
    obtain ⟨still, accepted, pending⟩ := Exchange.act_of_cancelled cancelled act
    exact ⟨still, ⟨[], by simp [accepted], List.Subperm.refl _⟩, pending⟩
  | take item sender taken => simp [CreditPool.acquire, cancelled] at taken
  | wake waits handed => simp [CreditPool.resume, cancelled] at handed
  | @push item holds =>
    by_cases closed : state.exchange.channel.closed = true
    · simp only [push, Channel.push_of_closed closed]
      exact ⟨cancelled, ⟨[], by simp, List.erase_sublist.subperm⟩, List.Sublist.refl _⟩
    · simp only [push, Channel.push, if_neg closed]
      exact ⟨cancelled, ⟨[item], rfl, (List.perm_cons_erase holds).symm.subperm⟩,
        List.Sublist.refl _⟩
  | close => exact ⟨rfl, ⟨[], by simp, List.Subperm.refl _⟩, List.Sublist.refl _⟩

theorem wanes_of_leads (cancelled : state.exchange.channel.credit.cancelled = true)
    (leads : state.Leads later) : state.Wanes later := by
  induction leads with
  | refl => exact ⟨cancelled, ⟨[], by simp, List.Subperm.refl _⟩, List.Sublist.refl _⟩
  | tail _ act ih =>
    obtain ⟨front, before, some⟩ := ih.accepted
    have step := wanes_of_act ih.cancelled act
    obtain ⟨back, after, fewer⟩ := step.accepted
    refine ⟨step.cancelled, ⟨front ++ back, ?_, ?_⟩, step.pending.trans ih.pending⟩
    · rw [after, before, List.append_assoc]
    · rw [List.append_assoc]
      exact ((List.subperm_append_left front).mpr fewer).trans some

/-! ## After the queue was closed -/

/-- What becomes of a state in which nothing moves any more. -/
structure Rests (state later : Concurrent) : Prop where
  halted : later.exchange.channel.Halted
  accepted : later.exchange.accepted = state.exchange.accepted
  told : ∃ count, later.exchange.told = state.exchange.told ++ List.replicate count .done

theorem rests_of_act (halted : state.exchange.channel.Halted) (act : state.Act later) :
    state.Rests later := by
  cases act with
  | whole act =>
    obtain ⟨still, told⟩ := Exchange.act_of_halted halted act
    exact ⟨still, (Exchange.act_of_cancelled halted.cancelled act).2.1, told⟩
  | take item sender taken => simp [CreditPool.acquire, halted.cancelled] at taken
  | wake waits handed => simp [CreditPool.resume, halted.cancelled] at handed
  | @push item holds =>
    simp only [push, Channel.push_of_closed halted.closed]
    exact ⟨halted, rfl, 0, by simp⟩
  | close => exact ⟨⟨rfl, halted.closed, halted.deaf⟩, rfl, 0, by simp⟩

theorem rests_of_leads (halted : state.exchange.channel.Halted) (leads : state.Leads later) :
    state.Rests later := by
  induction leads with
  | refl => exact ⟨halted, rfl, 0, by simp⟩
  | tail _ act ih =>
    obtain ⟨front, before⟩ := ih.told
    have step := rests_of_act ih.halted act
    obtain ⟨back, after⟩ := step.told
    refine ⟨step.halted, step.accepted.trans ih.accepted, front + back, ?_⟩
    rw [after, before, List.append_assoc, ← List.replicate_add]

/-- Whatever was under way when the consumer withdrew, and whatever is done afterwards: nothing is
accepted any more.  The sends that wait or have a credit, and all new ones, are told that the stream
was cancelled, and so is who asks for more credit; the consumer is told that there is nothing more,
also if the queue holds items; and the producer can see that sending is useless. -/
theorem halts_for_good {before after : Concurrent} (withdraws : before.Withdraws after)
    (leads : after.Leads later) :
    let channel := later.exchange.channel
    later.exchange.accepted = before.exchange.accepted ∧
      (∀ item, channel.send item = (.refused .cancelled, channel)) ∧
      (channel.pending.Sublist before.exchange.channel.pending ∧
        ∀ send ∈ channel.pending, (channel.resume send.1).1 = some (.error .cancelled)) ∧
      (later.holding.Subperm before.holding ∧
        ∀ item ∈ later.holding, channel.push item = (.error .cancelled, channel)) ∧
      (∀ count, 0 < count → channel.request count = (.error .cancelled, channel)) ∧
      (channel.hasReceiver = true → channel.next = (.done, channel)) ∧
      (∃ count, later.exchange.told = after.exchange.told ++ List.replicate count .done) ∧
      channel.isCancelled = true := by
  intro channel
  have rests := rests_of_leads withdraws.halted leads
  have wanes := wanes_of_leads withdraws.halted.cancelled leads
  have halted := rests.halted
  obtain ⟨held, accepted, waiting⟩ := withdraws.keeps
  obtain ⟨passed, _, fewer⟩ := wanes.accepted
  refine ⟨rests.accepted.trans accepted, Channel.send_of_cancelled halted.cancelled,
    ⟨waiting ▸ wanes.pending, ?_⟩, ⟨?_, fun item _ => Channel.push_of_closed halted.closed item⟩,
    fun count => Channel.request_of_cancelled halted.cancelled, halted.next, rests.told,
    Channel.isCancelled_of_cancelled halted.cancelled⟩
  · intro send waits
    rw [Channel.resume_of_cancelled halted.cancelled waits]
  · rw [← held]
    exact (List.sublist_append_right passed later.holding).subperm.trans fewer

/-- Three sends over one credit: the first is done, and the grant that follows serves the other two
and leaves credit in the pool; the third has taken its credit when the consumer cancels.  It then
comes to its end. -/
theorem halts_for_good_example :
    let granted := ((((Exchange.start 1).send [0x61]).send [0x62]).send [0x63]).request 5
    let before : Concurrent := ⟨{ granted with
      channel.credit := (granted.channel.credit.resume 1).2
      channel.pending := granted.channel.pending.filter fun send => send.1 != 1 }, [[0x63]]⟩
    let after : Concurrent := { before with exchange := before.exchange.cancel }
    let later := after.push [0x63]
    let channel := later.exchange.channel
    (start 1).Leads before ∧ before.Withdraws after ∧ after.Leads later ∧
      channel.credit.available = 3 ∧ channel.credit.handed = [0] ∧
      channel.queue.length = 1 ∧ later.exchange.accepted = [[0x61]] ∧
      (channel.resume 0).1 = some (.error .cancelled) ∧ channel.next = (.done, channel) ∧
      channel.request 7 = (.error .cancelled, channel) ∧ channel.isCancelled = true := by
  intro granted before after later channel
  have calls : (start 1).Leads ⟨granted, []⟩ :=
    (((Relation.ReflTransGen.single (.whole (.send [0x61] rfl) (.inl rfl))).tail
      (.whole (.send [0x62] rfl) (.inl rfl))).tail
      (.whole (.send [0x63] rfl) (.inl rfl))).tail (.whole (.request 5 rfl) (.inl rfl))
  have woken : Act ⟨granted, []⟩ before := .wake (by decide) rfl
  have withdraws : before.Withdraws after := .cancel rfl
  have leads : after.Leads later := .single (.push (by decide))
  obtain ⟨accepted, _, ⟨_, pending⟩, _, request, next, _, cancelled⟩ :=
    halts_for_good withdraws leads
  exact ⟨calls.tail woken, withdraws, leads, rfl, rfl, rfl, accepted,
    pending (0, [0x62]) (by decide), next rfl, request 7 (by decide), cancelled⟩

end Concurrent

end FieldWire.Stream
