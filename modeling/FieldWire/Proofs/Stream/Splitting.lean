import FieldWire.Proofs.Stream.Opening
import FieldWire.Stream.Splitter
import Mathlib.Logic.Relation

/-!
# Runs of a splitter

A session is a splitter with what the sender has offered and what the consumers have got.  Chunks
arrive, credit is granted, both consumers ask, and the splitter takes steps, in any order; the
consumer of the events neither cancels nor goes away.

Until the splitter stops, every buffer that its collector has given out has been delivered, or is in
the queue, or is still held by the splitter, in this order.  When it stops, both consumers are left
with the same verdict on the stream.
-/

set_option autoImplicit false

namespace FieldWire.Stream

/-! ## Credit -/

namespace CreditPool

variable {pool : CreditPool}

theorem acquire_of_granting (granting : pool.cancelled = false) :
    ∃ later, later.cancelled = false ∧
      (pool.acquire = (.taken, later) ∨ ∃ ticket, pool.acquire = (.waiting ticket, later)) := by
  by_cases some : 0 < pool.available
  · refine ⟨{ pool with available := pool.available - 1 }, granting, .inl ?_⟩
    simp [acquire, granting, some]
  · refine ⟨{ pool with waiting := pool.waiting ++ [pool.next], next := pool.next + 1 }, granting,
      .inr ⟨pool.next, ?_⟩⟩
    simp [acquire, granting, some]

theorem resume_of_granting (granting : pool.cancelled = false) (ticket : Ticket) :
    ∃ later, later.cancelled = false ∧
      (pool.resume ticket = (none, later) ∨ pool.resume ticket = (some (.ok ()), later)) := by
  by_cases handed : pool.handed.contains ticket = true
  · refine ⟨{ pool with handed := pool.handed.erase ticket }, granting, .inr ?_⟩
    rw [resume, if_neg (by simp [granting]), if_pos handed]
  · refine ⟨pool, granting, .inl ?_⟩
    rw [resume, if_neg (by simp [granting]), if_neg handed]

theorem cancelled_grant (count : Nat) : (pool.grant count).2.cancelled = pool.cancelled := by
  unfold grant
  split
  · rfl
  · split <;> rfl

end CreditPool

/-! ## Channels -/

/-- What a consumer notes of an answer. -/
def Next.noted : Next → List Next
  | .pending => []
  | answer => [answer]

namespace Channel

/-- A channel with both ends that holds items. -/
structure Flowing (channel : Channel) (queued : List Bytes) : Prop where
  queue : channel.queue = queued.map .ok
  sending : channel.hasSender = true
  listening : channel.terminated = false
  taking : channel.closed = false
  granting : channel.credit.cancelled = false

variable {channel : Channel} {queued : List Bytes}

theorem flowing_start (credit : Nat) : (start credit).Flowing [] := ⟨rfl, rfl, rfl, rfl, rfl⟩

theorem Flowing.settle (flowing : channel.Flowing queued) {credit : CreditPool}
    (granting : credit.cancelled = false) (pending : List (Ticket × Bytes)) :
    { channel with credit := credit, pending := pending }.Flowing queued :=
  ⟨flowing.queue, flowing.sending, flowing.listening, flowing.taking, granting⟩

theorem Flowing.push (flowing : channel.Flowing queued) (item : Bytes) :
    ∃ later, channel.push item = (.ok (), later) ∧ later.Flowing (queued ++ [item]) ∧
      later.pending = channel.pending := by
  refine ⟨{ channel with queue := channel.queue ++ [.ok item] }, ?_, ?_, rfl⟩
  · rw [Channel.push, if_neg (by simp [flowing.taking])]
  · exact ⟨by simp [flowing.queue], flowing.sending, flowing.listening, flowing.taking,
      flowing.granting⟩

/-- A send takes a credit or waits; it is not refused. -/
theorem Flowing.send (flowing : channel.Flowing queued) (item : Bytes) :
    (∃ later, channel.send item = (.taken, later) ∧ later.Flowing (queued ++ [item]) ∧
      later.pending = channel.pending) ∨
    ∃ ticket later, channel.send item = (.waiting ticket, later) ∧ later.Flowing queued ∧
      later.pending = channel.pending ++ [(ticket, item)] := by
  obtain ⟨credit, granting, taken | ⟨ticket, waits⟩⟩ :=
    CreditPool.acquire_of_granting flowing.granting
  · obtain ⟨later, pushed, flows, pending⟩ := (flowing.settle granting channel.pending).push item
    refine .inl ⟨later, ?_, flows, pending⟩
    simp only [Channel.send, taken, pushed]
  · refine .inr ⟨ticket, _, ?_, flowing.settle granting _, rfl⟩
    simp only [Channel.send, waits]

/-- A send that waits goes on waiting or is done; it does not fail. -/
theorem Flowing.resume (flowing : channel.Flowing queued) {ticket : Ticket} {item : Bytes}
    (waits : channel.pending = [(ticket, item)]) :
    (∃ later, channel.resume ticket = (none, later)) ∨
      ∃ later, channel.resume ticket = (some (.ok ()), later) ∧
        later.Flowing (queued ++ [item]) ∧ later.pending = [] := by
  have found : channel.pending.lookup ticket = some item := by simp [waits]
  obtain ⟨credit, granting, none | handed⟩ :=
    CreditPool.resume_of_granting flowing.granting ticket
  · left
    simp only [Channel.resume, found, none]
    exact ⟨_, rfl⟩
  · obtain ⟨later, pushed, flows, pending⟩ := (flowing.settle granting []).push item
    have left : channel.pending.filter (fun send => send.1 != ticket) = [] := by simp [waits]
    refine .inr ⟨later, ?_, flows, pending⟩
    simp only [Channel.resume, found, handed, left, pushed]

theorem Flowing.request (flowing : channel.Flowing queued) (count : Nat) :
    (channel.request count).2.Flowing queued :=
  flowing.settle ((CreditPool.cancelled_grant count).trans flowing.granting) channel.pending

/-- What the consumer is told of a channel without a producer: the answers in their order, then that
there are no more. -/
inductive Yields (channel : Channel) (answers : List Next) (told : List Next) : Prop where
  | items {items : List Bytes} (gone : channel.hasSender = false)
      (listening : channel.terminated = false) (queue : channel.queue = items.map .ok)
      (split : told ++ items.map .item = answers) : Yields channel answers told
  | error {error : StreamError} (gone : channel.hasSender = false)
      (listening : channel.terminated = false) (queue : channel.queue = [.error error])
      (split : told ++ [.error error] = answers) : Yields channel answers told
  | finished (count : Nat) (terminated : channel.terminated = true)
      (split : answers ++ List.replicate count .done = told) : Yields channel answers told

/-- The answers to some calls. -/
def nexts : Nat → Channel → List Next
  | 0, _ => []
  | count + 1, channel => channel.next.1 :: nexts count channel.next.2

theorem Yields.next {answers told : List Next} (yields : channel.Yields answers told) :
    channel.next.1.noted = [channel.next.1] ∧
      channel.next.2.Yields answers (told ++ [channel.next.1]) := by
  cases yields with
  | @items items gone listening queue split =>
    cases items with
    | nil =>
      have last : channel.next = (.done, { channel with terminated := true }) := by
        simp [Channel.next, gone, listening, queue]
      rw [last]
      refine ⟨rfl, .finished 1 rfl ?_⟩
      rw [← split]
      simp
    | cons item items =>
      have first : channel.next = (.item item, { channel with queue := items.map .ok }) := by
        simp [Channel.next, listening, queue]
      rw [first]
      refine ⟨rfl, .items gone listening rfl ?_⟩
      rw [← split]
      simp
  | @error error gone listening queue split =>
    have last : channel.next = (.error error, { channel with queue := [] }.cancel) := by
      simp [Channel.next, listening, queue]
    rw [last]
    refine ⟨rfl, .finished 0 rfl ?_⟩
    rw [← split]
    simp
  | finished count terminated split =>
    have again : channel.next = (.done, channel) := by simp [Channel.next, terminated]
    rw [again]
    refine ⟨rfl, .finished (count + 1) terminated ?_⟩
    rw [← split, List.replicate_succ']
    simp

theorem Yields.congr {later : Channel} {answers told : List Next}
    (yields : channel.Yields answers told) (queue : later.queue = channel.queue)
    (sender : later.hasSender = channel.hasSender)
    (terminated : later.terminated = channel.terminated) : later.Yields answers told := by
  cases yields with
  | items gone listening held split =>
    exact .items (sender.trans gone) (terminated.trans listening) (queue.trans held) split
  | error gone listening held split =>
    exact .error (sender.trans gone) (terminated.trans listening) (queue.trans held) split
  | finished count stopped split => exact .finished count (terminated.trans stopped) split

/-- A consumer that asks often enough is told all answers, and then nothing more. -/
theorem Yields.nexts {answers told : List Next} (yields : channel.Yields answers told)
    {count : Nat} (enough : answers.length ≤ told.length + count) :
    told ++ channel.nexts count =
      answers ++ List.replicate (told.length + count - answers.length) .done := by
  induction count generalizing channel told with
  | zero =>
    rw [Nat.add_zero] at enough ⊢
    rw [Channel.nexts, List.append_nil]
    cases yields with
    | @items items gone listening queue split =>
      rw [← split] at enough ⊢
      have none : items = [] := by simpa using enough
      simp [none]
    | error gone listening queue split =>
      rw [← split] at enough
      simp at enough
    | finished _ terminated split =>
      rw [← split]
      simp
  | succ count ih =>
    have later := ih yields.next.2 (by simp; omega)
    rw [Channel.nexts, List.append_cons, later]
    simp [Nat.add_assoc, Nat.add_comm 1]

end Channel

/-! ## Slots -/

/-- What a receiver has got. -/
def Receipt.values {α : Type} : Receipt α → List α
  | .value result => [result]
  | _ => []

namespace Slot

variable {α : Type} (slot : Slot α)

theorem outcome_receive : slot.receive.2.outcome = slot.outcome := by
  unfold receive
  split <;> rfl

/-- A slot with a result does not seem to be empty. -/
theorem receive_cases :
    (slot.receive.1 = .empty ∧ slot.outcome = none) ∨
      (slot.receive.1 ≠ .empty ∧
        ∀ result ∈ slot.receive.1.values, slot.outcome = some result) := by
  unfold receive
  split <;> simp [Receipt.values, *]

end Slot

/-! ## Sessions -/

/-- A splitter with what its sender and its consumers have seen. -/
structure Session where
  /-- The splitter. -/
  splitter : Splitter
  /-- The chunks that were offered. -/
  offered : List Bytes
  /-- What came out of the slot of the initial message. -/
  initials : List (Except StreamError Bytes)
  /-- What the consumer of the events was told. -/
  events : List Next

namespace Session

/-- A session before anything has happened. -/
def start (settings : StreamSettings) : Session := ⟨Splitter.start settings, [], [], []⟩

/-- What may happen next. -/
inductive Act (session : Session) : Session → Prop where
  /-- A chunk is offered. -/
  | offer (chunk : Bytes) (going : session.splitter.ended = false) :
      Act session { session with
        splitter := (session.splitter.offer chunk).2
        offered := session.offered ++ [chunk] }
  /-- The stream ends. -/
  | endInput : Act session { session with splitter := session.splitter.endInput }
  /-- The splitter takes a step. -/
  | step {later : Splitter} (preference : Preference)
      (stepped : session.splitter.step? preference = some later) :
      Act session { session with splitter := later }
  /-- Credit is granted. -/
  | request (count : Nat) :
      Act session { session with
        splitter.channel := (session.splitter.channel.request count).2 }
  /-- The consumer of the events asks for the next one. -/
  | next :
      Act session { session with
        splitter.channel := session.splitter.channel.next.2
        events := session.events ++ session.splitter.channel.next.1.noted }
  /-- The initial message is asked for. -/
  | receive :
      Act session { session with
        splitter := session.splitter.receiveInitial.2
        initials := session.initials ++ session.splitter.receiveInitial.1.values }

/-- The sessions that settings lead to. -/
def Reaches (settings : StreamSettings) : Session → Prop :=
  Relation.ReflTransGen Act (start settings)

end Session

/-! ## What a run keeps -/

/-- The buffers that a splitter still has to send.  At most one send waits for credit. -/
inductive Splitter.Holds (splitter : Splitter) : List Bytes → Prop where
  | listening (activity : splitter.activity = .listening)
      (pending : splitter.channel.pending = []) : Holds splitter []
  | sending {buffers : List Bytes} (activity : splitter.activity = .sending buffers)
      (pending : splitter.channel.pending = []) : Holds splitter buffers
  | waiting {ticket : Ticket} {buffer : Bytes} {buffers : List Bytes}
      (activity : splitter.activity = .waiting ticket buffers)
      (pending : splitter.channel.pending = [(ticket, buffer)]) : Holds splitter (buffer :: buffers)

/-- What the consumer of the events is told before it is told that there is nothing more. -/
def answers (result : Except StreamError Bytes) (chunks : List Bytes) : List Next :=
  match result with
  | .ok message => (surplus message.length chunks).map .item
  | .error error => [.error error]

/-- A splitter that has not stopped, what was offered to it and what was delivered.  Everything that
the collector has given out is somewhere. -/
inductive Splitter.Going (settings : StreamSettings) (splitter : Splitter)
    (offered delivered : List Bytes) : Prop where
  | intro {taken given queued left : List Bytes} (offers : offered = taken ++ splitter.inbox)
      (collects : splitter.collector.Collects settings taken given)
      (flows : splitter.channel.Flowing queued) (holds : splitter.Holds left)
      (split : given = delivered ++ queued ++ left) : Going settings splitter offered delivered

/-- A splitter that has stopped with a verdict on all that was offered to it.  Unless the stream had
ended, the verdict is an error that stays whatever is offered later. -/
structure Splitter.Resolved (settings : StreamSettings) (splitter : Splitter) (offered : List Bytes)
    (told : List Next) (result : Except StreamError Bytes) : Prop where
  stopped : splitter.activity = .stopped
  sent : splitter.collector.slot.outcome = some result
  opens : Opening settings offered result
  yields : splitter.channel.Yields (answers result offered) told
  final : splitter.ended = false → ∃ error, result = .error error ∧
    ∀ more, Opening settings (offered ++ more) (.error error)

namespace Splitter

variable {settings : StreamSettings} {splitter later : Splitter} {offered delivered : List Bytes}

theorem going_start (settings : StreamSettings) : (start settings).Going settings [] [] := by
  have offers : [] = [] ++ (start settings).inbox := rfl
  refine .intro offers (.waiting (unsettled_nil settings) ?_ rfl) (Channel.flowing_start _)
    (.listening rfl rfl) rfl
  unfold start Framing.after
  cases settings.bufferInitialMessage <;> rfl

/-- Stopping with the error that was sent for the initial message. -/
theorem resolved_of_fails {collector : Collector} {given queued : List Bytes} {error : StreamError}
    (flows : splitter.channel.Flowing queued)
    (fails : Collector.Fails splitter.collector collector given error)
    (split : given = delivered ++ queued) (opens : Opening settings offered (.error error))
    (final : splitter.ended = false → ∀ more, Opening settings (offered ++ more) (.error error)) :
    ({ splitter with collector := collector }.stopFailed error).Resolved settings offered
      (delivered.map .item) (.error error) := by
  obtain ⟨rfl, rfl⟩ : delivered = [] ∧ queued = [] := by
    simpa [fails.nothing] using split
  refine ⟨rfl, fails.sent, opens, .error ?_ ?_ ?_ rfl, fun going => ⟨error, rfl, final going⟩⟩
  all_goals simp [stopFailed, stop, Channel.fail, Channel.complete, flows.taking, flows.queue,
    flows.listening]

/-- What one step of a splitter keeps: it goes on, or it stops with a verdict, and the initial
message that was sent is not touched. -/
structure Keeps (settings : StreamSettings) (splitter later : Splitter)
    (offered delivered : List Bytes) : Prop where
  sent : ∀ result, splitter.collector.slot.outcome = some result →
    later.collector.slot.outcome = some result
  sound : later.Going settings offered delivered ∨
    ∃ result, later.Resolved settings offered (delivered.map .item) result

theorem keeps_takeChunk {taken given queued rest : List Bytes} {chunk : Bytes}
    (inbox : splitter.inbox = chunk :: rest) (offers : offered = taken ++ splitter.inbox)
    (collects : splitter.collector.Collects settings taken given)
    (flows : splitter.channel.Flowing queued) (pending : splitter.channel.pending = [])
    (split : given = delivered ++ queued) :
    splitter.Keeps settings ({ splitter with inbox := rest }.takeChunk chunk) offered delivered := by
  rw [inbox, List.append_cons] at offers
  rcases collects.feed chunk with
    ⟨buffers, collector, fed, collects, sent⟩ | ⟨error, collector, fed, fails, opens⟩
  · simp only [takeChunk, fed]
    refine ⟨sent, .inl (.intro offers collects flows (.sending rfl pending) ?_)⟩
    rw [split]
  · simp only [takeChunk, fed]
    refine ⟨fails.keeps, .inr ⟨_, resolved_of_fails flows fails split ?_ ?_⟩⟩
    · rw [offers]
      exact opens rest
    · intro _ more
      rw [offers, List.append_assoc]
      exact opens _

theorem keeps_takeEnd {given queued : List Bytes} (ended : splitter.ended = true)
    (collects : splitter.collector.Collects settings offered given)
    (flows : splitter.channel.Flowing queued) (split : given = delivered ++ queued) :
    splitter.Keeps settings splitter.takeEnd offered delivered := by
  rcases collects.finish with
    ⟨message, finished, opens, sent, whole⟩ | ⟨error, collector, finished, fails, opens⟩
  · simp only [takeEnd, finished]
    have told : delivered.map .item ++ queued.map .item = answers (.ok message) offered := by
      rw [answers, ← whole, split, List.map_append]
    refine ⟨fun _ => id, .inr ⟨.ok message, rfl, sent, opens,
      .items rfl flows.listening flows.queue told, ?_⟩⟩
    intro going
    rw [stop, ended] at going
    cases going
  · simp only [takeEnd, finished]
    refine ⟨fails.keeps, .inr ⟨_, resolved_of_fails flows fails split opens ?_⟩⟩
    intro going
    rw [ended] at going
    cases going

theorem keeps_hear {taken given queued : List Bytes} (offers : offered = taken ++ splitter.inbox)
    (collects : splitter.collector.Collects settings taken given)
    (flows : splitter.channel.Flowing queued) (pending : splitter.channel.pending = [])
    (split : given = delivered ++ queued) (heard : splitter.hear? = some later) :
    splitter.Keeps settings later offered delivered := by
  unfold hear? at heard
  split at heard
  · rename_i chunk rest inbox
    cases heard
    exact keeps_takeChunk inbox offers collects flows pending split
  · rename_i inbox
    split at heard
    · rename_i ended
      cases heard
      rw [inbox, List.append_nil] at offers
      subst offers
      exact keeps_takeEnd ended collects flows split
    · cases heard

theorem keeps_of_step (going : splitter.Going settings offered delivered) (preference : Preference)
    (stepped : splitter.step? preference = some later) :
    splitter.Keeps settings later offered delivered := by
  obtain @⟨taken, given, queued, left, offers, collects, flows, holds, split⟩ := going
  cases holds with
  | listening activity pending =>
    have uncancelled : splitter.heedCancel? = none := by simp [heedCancel?, flows.taking]
    have heard : splitter.hear? = some later := by
      cases preference <;> simpa [step?, activity, uncancelled] using stepped
    rw [List.append_nil] at split
    exact keeps_hear offers collects flows pending split heard
  | sending activity pending =>
    cases left with
    | nil =>
      obtain rfl : { splitter with activity := .listening } = later := by
        simpa [step?, activity] using stepped
      exact ⟨fun _ => id, .inl (.intro offers collects flows (.listening rfl pending) split)⟩
    | cons buffer buffers =>
      rcases flows.send buffer with
        ⟨channel, sent, flows, same⟩ | ⟨ticket, channel, waits, flows, more⟩
      · obtain rfl : { splitter with channel := channel, activity := .sending buffers } = later := by
          simpa [step?, activity, sent] using stepped
        have none : channel.pending = [] := same.trans pending
        refine ⟨fun _ => id, .inl (.intro offers collects flows (.sending rfl none) ?_)⟩
        simpa using split
      · obtain rfl :
            { splitter with channel := channel, activity := .waiting ticket buffers } = later := by
          simpa [step?, activity, waits] using stepped
        rw [pending] at more
        exact ⟨fun _ => id, .inl (.intro offers collects flows (.waiting rfl more) split)⟩
  | @waiting ticket buffer buffers activity pending =>
    rcases flows.resume pending with ⟨channel, waits⟩ | ⟨channel, sent, flows, none⟩
    · simp [step?, activity, waits] at stepped
    · obtain rfl : { splitter with channel := channel, activity := .sending buffers } = later := by
        simpa [step?, activity, sent] using stepped
      refine ⟨fun _ => id, .inl (.intro offers collects flows (.sending rfl none) ?_)⟩
      simpa using split

/-! ## What the surroundings do -/

theorem Holds.congr {left : List Bytes} (holds : splitter.Holds left)
    (activity : later.activity = splitter.activity)
    (pending : later.channel.pending = splitter.channel.pending) : later.Holds left := by
  cases holds with
  | listening before none => exact .listening (activity.trans before) (pending.trans none)
  | sending before none => exact .sending (activity.trans before) (pending.trans none)
  | waiting before one => exact .waiting (activity.trans before) (pending.trans one)

theorem Holds.not_stopped {left : List Bytes} (holds : splitter.Holds left) :
    splitter.hasStopped = false := by
  cases holds with
  | listening activity => simp [hasStopped, activity]
  | sending activity => simp [hasStopped, activity]
  | waiting activity => simp [hasStopped, activity]

theorem Going.not_stopped (going : splitter.Going settings offered delivered) :
    splitter.hasStopped = false := by
  obtain ⟨_, _, _, holds, _⟩ := going
  exact holds.not_stopped

theorem Going.offer (going : splitter.Going settings offered delivered) (chunk : Bytes) :
    (splitter.offer chunk).2.Going settings (offered ++ [chunk]) delivered := by
  obtain ⟨offers, collects, flows, holds, split⟩ := going
  have taken : (splitter.offer chunk).2 = { splitter with inbox := splitter.inbox ++ [chunk] } := by
    simp [Splitter.offer, holds.not_stopped]
  rw [taken]
  refine .intro ?_ collects flows (holds.congr rfl rfl) split
  rw [offers, List.append_assoc]

theorem collector_offer (chunk : Bytes) :
    (splitter.offer chunk).2.collector = splitter.collector := by
  unfold Splitter.offer
  split <;> rfl

theorem Going.endInput (going : splitter.Going settings offered delivered) :
    splitter.endInput.Going settings offered delivered := by
  obtain ⟨offers, collects, flows, holds, split⟩ := going
  exact .intro offers collects flows (holds.congr rfl rfl) split

theorem Going.request (going : splitter.Going settings offered delivered) (count : Nat) :
    { splitter with channel := (splitter.channel.request count).2 }.Going settings offered
      delivered := by
  obtain ⟨offers, collects, flows, holds, split⟩ := going
  exact .intro offers collects (flows.request count) (holds.congr rfl rfl) split

theorem Going.next (going : splitter.Going settings offered delivered) :
    ∃ items, splitter.channel.next.1.noted = items.map .item ∧
      { splitter with channel := splitter.channel.next.2 }.Going settings offered
        (delivered ++ items) := by
  obtain @⟨taken, given, queued, left, offers, collects, flows, holds, split⟩ := going
  cases queued with
  | nil =>
    have nothing : splitter.channel.next = (.pending, splitter.channel) := by
      simp [Channel.next, flows.listening, flows.queue, flows.sending]
    rw [nothing]
    refine ⟨[], rfl, .intro offers collects flows (holds.congr rfl rfl) ?_⟩
    simpa using split
  | cons item queued =>
    have first : splitter.channel.next =
        (.item item, { splitter.channel with queue := queued.map .ok }) := by
      simp [Channel.next, flows.listening, flows.queue]
    have shorter : Channel.Flowing { splitter.channel with queue := queued.map .ok } queued :=
      ⟨rfl, flows.sending, flows.listening, flows.taking, flows.granting⟩
    rw [first]
    refine ⟨[item], rfl, .intro offers collects shorter (holds.congr rfl rfl) ?_⟩
    simpa using split

theorem Going.receive (going : splitter.Going settings offered delivered) :
    splitter.receiveInitial.2.Going settings offered delivered := by
  obtain ⟨offers, collects, flows, holds, split⟩ := going
  have same : splitter.receiveInitial.2 =
      { splitter with collector := splitter.collector.receive.2 } := rfl
  rw [same]
  exact .intro offers (collects.congr rfl (splitter.collector.slot.outcome_receive)) flows
    (holds.congr rfl rfl) split

theorem Resolved.offer {told : List Next} {result : Except StreamError Bytes}
    (resolved : splitter.Resolved settings offered told result) (going : splitter.ended = false)
    (chunk : Bytes) : (splitter.offer chunk).2.Resolved settings (offered ++ [chunk]) told result := by
  have lost : (splitter.offer chunk).2 = splitter := by
    simp [Splitter.offer, hasStopped, resolved.stopped]
  obtain ⟨error, rfl, final⟩ := resolved.final going
  rw [lost]
  have later : ∀ more, Opening settings (offered ++ [chunk] ++ more) (.error error) := by
    intro more
    rw [List.append_assoc]
    exact final _
  exact ⟨resolved.stopped, resolved.sent, final [chunk], resolved.yields,
    fun _ => ⟨error, rfl, later⟩⟩

theorem Resolved.endInput {told : List Next} {result : Except StreamError Bytes}
    (resolved : splitter.Resolved settings offered told result) :
    splitter.endInput.Resolved settings offered told result :=
  ⟨resolved.stopped, resolved.sent, resolved.opens, resolved.yields, fun going => by cases going⟩

theorem Resolved.next {told : List Next} {result : Except StreamError Bytes}
    (resolved : splitter.Resolved settings offered told result) :
    { splitter with channel := splitter.channel.next.2 }.Resolved settings offered
      (told ++ splitter.channel.next.1.noted) result := by
  obtain ⟨noted, yields⟩ := resolved.yields.next
  rw [noted]
  exact ⟨resolved.stopped, resolved.sent, resolved.opens, yields, resolved.final⟩

/-- Whatever comes out of the slot was sent. -/
theorem outcome_of_receiveInitial {result : Except StreamError Bytes}
    (sent : splitter.hasStopped = true → splitter.collector.slot.outcome ≠ none)
    (received : result ∈ splitter.receiveInitial.1.values) :
    splitter.collector.slot.outcome = some result := by
  rcases splitter.collector.slot.receive_cases with ⟨empty, unsent⟩ | ⟨found, values⟩
  · have going : splitter.hasStopped = false := by simpa [unsent] using sent
    have nothing : splitter.receiveInitial.1 = .empty := by
      simp [receiveInitial, Collector.receive, empty, going]
    simp [nothing, Receipt.values] at received
  · have same : splitter.receiveInitial.1 = splitter.collector.slot.receive.1 := by
      simp only [receiveInitial, Collector.receive]
    rw [same] at received
    exact values result received

end Splitter

/-! ## Runs -/

/-- What holds at any time: the receiver of the initial message has got nothing but what was sent,
and the consumer of the events nothing but what was delivered. -/
structure Session.Sound (settings : StreamSettings) (session : Session) : Prop where
  initials : ∀ received ∈ session.initials,
    session.splitter.collector.slot.outcome = some received
  splitter :
    (∃ delivered, session.splitter.Going settings session.offered delivered ∧
      session.events = delivered.map .item) ∨
    ∃ result, session.splitter.Resolved settings session.offered session.events result

namespace Session

variable {settings : StreamSettings} {session later : Session}

theorem sound_start (settings : StreamSettings) : (start settings).Sound settings :=
  ⟨by simp [start], .inl ⟨[], Splitter.going_start settings, rfl⟩⟩

theorem sound_of_act (sound : session.Sound settings) (act : session.Act later) :
    later.Sound settings := by
  obtain ⟨initials, sound⟩ := sound
  cases act with
  | offer chunk going =>
    refine ⟨?_, ?_⟩
    · simpa [Splitter.collector_offer] using initials
    · rcases sound with ⟨delivered, goes, events⟩ | ⟨result, resolved⟩
      · exact .inl ⟨delivered, goes.offer chunk, events⟩
      · exact .inr ⟨result, resolved.offer going chunk⟩
  | endInput =>
    refine ⟨initials, ?_⟩
    rcases sound with ⟨delivered, goes, events⟩ | ⟨result, resolved⟩
    · exact .inl ⟨delivered, goes.endInput, events⟩
    · exact .inr ⟨result, resolved.endInput⟩
  | step preference stepped =>
    rcases sound with ⟨delivered, goes, events⟩ | ⟨result, resolved⟩
    · have kept := Splitter.keeps_of_step goes preference stepped
      refine ⟨fun received member => kept.sent _ (initials received member), ?_⟩
      rw [events]
      rcases kept.sound with goes | ⟨result, resolved⟩
      · exact .inl ⟨delivered, goes, rfl⟩
      · exact .inr ⟨result, resolved⟩
    · simp [Splitter.step?, resolved.stopped] at stepped
  | request count =>
    refine ⟨initials, ?_⟩
    rcases sound with ⟨delivered, goes, events⟩ | ⟨result, resolved⟩
    · exact .inl ⟨delivered, goes.request count, events⟩
    · exact .inr ⟨result, resolved.stopped, resolved.sent, resolved.opens,
        resolved.yields.congr rfl rfl rfl, resolved.final⟩
  | next =>
    refine ⟨initials, ?_⟩
    rcases sound with ⟨delivered, goes, events⟩ | ⟨result, resolved⟩
    · obtain ⟨items, noted, goes⟩ := goes.next
      refine .inl ⟨_, goes, ?_⟩
      rw [noted, events, List.map_append]
    · exact .inr ⟨result, resolved.next⟩
  | receive =>
    have same : session.splitter.receiveInitial.2.collector.slot.outcome =
        session.splitter.collector.slot.outcome :=
      session.splitter.collector.slot.outcome_receive
    refine ⟨?_, ?_⟩
    · intro received member
      rw [same]
      rcases List.mem_append.mp member with before | now
      · exact initials received before
      · refine Splitter.outcome_of_receiveInitial ?_ now
        intro stopped
        rcases sound with ⟨_, goes, _⟩ | ⟨result, resolved⟩
        · rw [goes.not_stopped] at stopped
          cases stopped
        · simp [resolved.sent]
    · rcases sound with ⟨delivered, goes, events⟩ | ⟨result, resolved⟩
      · exact .inl ⟨delivered, goes.receive, events⟩
      · exact .inr ⟨result, resolved.stopped, same.trans resolved.sent, resolved.opens,
          resolved.yields, resolved.final⟩

theorem sound_of_reaches (reaches : Reaches settings session) : session.Sound settings := by
  induction reaches with
  | refl => exact sound_start settings
  | tail _ act ih => exact sound_of_act ih act

/-- Both consumers of a splitter that has stopped are left with the same verdict. -/
theorem resolved_of_stopped (reaches : Reaches settings session)
    (stopped : session.splitter.hasStopped = true) :
    ∃ result, session.splitter.Resolved settings session.offered session.events result ∧
      ∀ received ∈ session.initials, received = result := by
  obtain ⟨initials, ⟨_, going, _⟩ | ⟨result, resolved⟩⟩ := sound_of_reaches reaches
  · rw [going.not_stopped] at stopped
    cases stopped
  · refine ⟨result, resolved, fun received member => ?_⟩
    have sent := initials received member
    rw [resolved.sent] at sent
    exact (Option.some.inj sent).symm

end Session

end FieldWire.Stream
