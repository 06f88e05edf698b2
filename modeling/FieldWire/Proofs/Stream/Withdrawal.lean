import FieldWire.Proofs.Stream.Exchange

/-!
# Withdrawal

In a course the consumer of the events may cancel or go away at any time, also while the splitter
waits for credit or sends the buffers of a chunk.  The receiver of the initial message is never left
without a result: once the splitter has stopped, the slot holds the initial message, or the error
that the chunks determine, or that the consumer cancelled before either was known.  No buffer is
accepted before the initial message is in the slot, and those that are accepted are the ones that
follow it, from the first on.
-/

set_option autoImplicit false

namespace FieldWire.Stream

/-! ## Results are final -/

namespace Slot

variable {α : Type} {slot : Slot α} {result : α}

theorem send_of_sent (sent : slot.outcome = some result) (other : α) : slot.send other = slot := by
  simp [Slot.send, sent]

end Slot

namespace Collector

variable {collector : Collector} {result : Except StreamError Bytes}
  (sent : collector.slot.outcome = some result)

include sent

theorem outcome_fail (error : StreamError) : (collector.fail error).slot.outcome = some result := by
  rw [fail, Slot.send_of_sent sent]
  exact sent

theorem outcome_feed (chunk : Bytes) : (collector.feed chunk).2.slot.outcome = some result := by
  unfold feed
  split
  · rename_i framing _
    have moved : { collector with framing := framing }.slot.outcome = some result := sent
    exact outcome_fail moved _
  · simp [isComplete, sent]

theorem outcome_finish : collector.finish.2.slot.outcome = some result := by
  simp [finish, isComplete, sent]

end Collector

namespace Splitter

variable {splitter later : Splitter}

section Sent

variable {result : Except StreamError Bytes}
  (sent : splitter.collector.slot.outcome = some result)

include sent

theorem outcome_takeChunk (chunk : Bytes) :
    (splitter.takeChunk chunk).collector.slot.outcome = some result := by
  have fed := Collector.outcome_feed sent chunk
  unfold takeChunk
  split <;> rename_i answer <;> rw [answer] at fed <;> exact fed

theorem outcome_takeEnd : splitter.takeEnd.collector.slot.outcome = some result := by
  have finished := Collector.outcome_finish sent
  unfold takeEnd
  split <;> rename_i answer <;> rw [answer] at finished <;> exact finished

theorem outcome_hear (heard : splitter.hear? = some later) :
    later.collector.slot.outcome = some result := by
  unfold hear? at heard
  split at heard
  · rename_i chunk rest _
    cases heard
    have moved : { splitter with inbox := rest }.collector.slot.outcome = some result := sent
    exact outcome_takeChunk moved chunk
  · split at heard
    · cases heard
      exact outcome_takeEnd sent
    · cases heard

theorem outcome_heedCancel (heeded : splitter.heedCancel? = some later) :
    later.collector.slot.outcome = some result := by
  unfold heedCancel? at heeded
  split at heeded
  · cases heeded
    exact Collector.outcome_fail sent _
  · cases heeded

end Sent

/-- A step of a listening splitter. -/
theorem heard_or_heeded {preference : Preference} (activity : splitter.activity = .listening)
    (stepped : splitter.step? preference = some later) :
    splitter.hear? = some later ∨ splitter.heedCancel? = some later := by
  cases heard : splitter.hear? with
  | none => cases preference <;> exact .inr (by simpa [step?, activity, heard] using stepped)
  | some first =>
    cases preference with
    | arrival => exact .inl (by simpa [step?, activity, heard] using stepped)
    | cancellation =>
      cases heeded : splitter.heedCancel? with
      | none => exact .inl (by simpa [step?, activity, heard, heeded] using stepped)
      | some second => exact .inr (by simpa [step?, activity, heeded] using stepped)

theorem outcome_step {result : Except StreamError Bytes} {preference : Preference}
    (sent : splitter.collector.slot.outcome = some result)
    (stepped : splitter.step? preference = some later) :
    later.collector.slot.outcome = some result := by
  cases activity : splitter.activity with
  | listening =>
    rcases heard_or_heeded activity stepped with heard | heeded
    · exact outcome_hear sent heard
    · exact outcome_heedCancel sent heeded
  | sending buffers =>
    cases buffers with
    | nil =>
      obtain rfl : { splitter with activity := .listening } = later := by
        simpa [step?, activity] using stepped
      exact sent
    | cons buffer buffers =>
      simp only [step?, activity] at stepped
      split at stepped <;> cases stepped
      · exact sent
      · exact sent
      · exact Collector.outcome_fail sent _
  | waiting ticket buffers =>
    simp only [step?, activity] at stepped
    split at stepped <;> cases stepped
    · exact sent
    · exact Collector.outcome_fail sent _
  | stopped => simp [step?, activity] at stepped

end Splitter

/-! ## Channels whose consumer may withdraw -/

namespace Channel

/-- A channel whose producer is there and has left no error, and which refuses credit only because
its consumer has withdrawn. -/
structure Passing (channel : Channel) : Prop where
  orderly : channel.Orderly
  sender : channel.hasSender = true
  items : ∀ entry ∈ channel.queue, ∃ item, entry = .ok item
  closing : channel.credit.cancelled = true → channel.closed = true

variable {channel : Channel} {ticket : Ticket} {item : Bytes}

theorem passing_start (credit : Nat) : (start credit).Passing where
  orderly := orderly_start credit
  sender := rfl
  items _ member := by cases member
  closing cancelled := by cases cancelled

theorem Passing.items_push (passing : channel.Passing) (item : Bytes) :
    ∀ entry ∈ channel.queue ++ [.ok item], ∃ item, entry = Except.ok (ε := StreamError) item := by
  intro entry member
  rcases List.mem_append.mp member with old | new
  · exact passing.items entry old
  · exact ⟨item, List.mem_singleton.mp new⟩

theorem Passing.send (passing : channel.Passing) (item : Bytes) : (channel.send item).2.Passing := by
  have orderly := passing.orderly.send item passing.sender
  rcases passing.orderly.send_cases item with ⟨_, same⟩ | ⟨_, _, same⟩ | ⟨_, _, same⟩ <;>
    rw [same] at orderly ⊢
  · exact passing
  · exact ⟨orderly, passing.sender, passing.items_push item, passing.closing⟩
  · exact ⟨orderly, passing.sender, passing.items, passing.closing⟩

theorem Passing.resume (passing : channel.Passing) (waits : (ticket, item) ∈ channel.pending) :
    (channel.resume ticket).2.Passing := by
  have orderly := passing.orderly.resume waits
  rcases passing.orderly.resume_cases waits with ⟨closing, same⟩ | ⟨_, _, same⟩ | ⟨_, same⟩ <;>
    rw [same] at orderly ⊢
  · exact ⟨orderly, passing.sender, passing.items, fun _ => passing.closing closing⟩
  · exact ⟨orderly, passing.sender, passing.items_push item, passing.closing⟩
  · exact passing

theorem Passing.request (passing : channel.Passing) (count : Nat) :
    (channel.request count).2.Passing :=
  ⟨passing.orderly.request count, passing.sender, passing.items, fun cancelled =>
    passing.closing ((CreditPool.cancelled_grant count).symm.trans cancelled)⟩

/-- Asking for an item takes it away, and does nothing else. -/
theorem Passing.next (passing : channel.Passing) :
    channel.next.2.Passing ∧ channel.next.2.pending = channel.pending ∧
      channel.next.2.closed = channel.closed := by
  have orderly := passing.orderly.next
  rcases channel.next_cases with ⟨_, same⟩ |
    ⟨_, ⟨item, queue, held, same⟩ | ⟨error, queue, held, _⟩ | ⟨_, _, same⟩ | ⟨_, gone, _⟩⟩
  · rw [same]
    exact ⟨passing, rfl, rfl⟩
  · rw [same] at orderly ⊢
    refine ⟨⟨orderly, passing.sender, fun entry member => ?_, passing.closing⟩, rfl, rfl⟩
    exact passing.items entry (held ▸ List.mem_cons_of_mem _ member)
  · have member : .error error ∈ channel.queue := held ▸ List.mem_cons_self
    obtain ⟨item, wrong⟩ := passing.items _ member
    cases wrong
  · rw [same]
    exact ⟨passing, rfl, rfl⟩
  · exact absurd (passing.sender.symm.trans gone) Bool.true_eq_false.mp

/-- The consumer withdraws. -/
theorem Passing.close (passing : channel.Passing) (terminated hasReceiver : Bool) :
    { channel with
      terminated := terminated
      hasReceiver := hasReceiver
      closed := true
      credit := channel.credit.cancel }.Passing :=
  ⟨passing.orderly.close terminated hasReceiver channel.queue, passing.sender, passing.items,
    fun _ => rfl⟩

end Channel

/-! ## Courses -/

/-- The buffer whose send the next step finds accepted, if there is one. -/
def Splitter.accepting (splitter : Splitter) : List Bytes :=
  match splitter.activity with
  | .sending (buffer :: _) =>
    match splitter.channel.send buffer with
    | (.taken, _) => [buffer]
    | _ => []
  | .waiting ticket _ =>
    match splitter.channel.resume ticket with
    | (some (.ok ()), _) => (splitter.channel.pending.lookup ticket).toList
    | _ => []
  | _ => []

/-- A splitter with what its surroundings have seen of it. -/
structure Course where
  /-- The splitter. -/
  splitter : Splitter
  /-- The chunks that were offered. -/
  offered : List Bytes
  /-- What came out of the slot of the initial message. -/
  initials : List (Except StreamError Bytes)
  /-- The buffers whose sends were accepted. -/
  accepted : List Bytes
  /-- Whether the consumer of the events withdrew while the slot was empty. -/
  early : Bool

namespace Course

/-- A course before anything has happened. -/
def start (settings : StreamSettings) : Course := ⟨Splitter.start settings, [], [], [], false⟩

/-- What is in the slot. -/
def outcome (course : Course) : Option (Except StreamError Bytes) :=
  course.splitter.collector.slot.outcome

/-- The consumer of the events withdraws, which leaves the channel as given. -/
def withdraw (course : Course) (channel : Channel) : Course :=
  { course with
    splitter.channel := channel
    early := course.early || course.outcome.isNone }

/-- What may happen next. -/
inductive Act (course : Course) : Course → Prop where
  /-- A chunk is offered. -/
  | offer (chunk : Bytes) (going : course.splitter.ended = false) :
      Act course { course with
        splitter := (course.splitter.offer chunk).2
        offered := course.offered ++ [chunk] }
  /-- The stream ends. -/
  | endInput : Act course { course with splitter := course.splitter.endInput }
  /-- The splitter takes a step. -/
  | step {later : Splitter} (preference : Preference)
      (stepped : course.splitter.step? preference = some later) :
      Act course { course with
        splitter := later
        accepted := course.accepted ++ course.splitter.accepting }
  /-- Credit is granted. -/
  | request (count : Nat) (receiver : course.splitter.channel.hasReceiver = true) :
      Act course { course with splitter.channel := (course.splitter.channel.request count).2 }
  /-- The consumer of the events asks for the next one. -/
  | next (receiver : course.splitter.channel.hasReceiver = true) :
      Act course { course with splitter.channel := course.splitter.channel.next.2 }
  /-- The consumer of the events cancels. -/
  | cancel (receiver : course.splitter.channel.hasReceiver = true) :
      Act course (course.withdraw course.splitter.channel.cancel)
  /-- The consumer of the events goes away. -/
  | drop (receiver : course.splitter.channel.hasReceiver = true) :
      Act course (course.withdraw course.splitter.channel.drop)
  /-- The initial message is asked for. -/
  | receive :
      Act course { course with
        splitter := course.splitter.receiveInitial.2
        initials := course.initials ++ course.splitter.receiveInitial.1.values }
  /-- The receiver of the initial message goes away. -/
  | dropInitial : Act course { course with splitter := course.splitter.dropInitial }

/-- What may happen from here on. -/
abbrev Leads : Course → Course → Prop := Relation.ReflTransGen Act

/-- The courses that settings lead to. -/
def Reaches (settings : StreamSettings) : Course → Prop := Leads (start settings)

variable {course later : Course} {result : Except StreamError Bytes}

theorem outcome_of_act (sent : course.outcome = some result) (act : course.Act later) :
    later.outcome = some result := by
  cases act with
  | offer chunk => exact (congrArg (·.slot.outcome) (Splitter.collector_offer chunk)).trans sent
  | step preference stepped => exact Splitter.outcome_step sent stepped
  | receive => exact course.splitter.collector.slot.outcome_receive.trans sent
  | _ => exact sent

theorem outcome_of_leads (sent : course.outcome = some result) (leads : course.Leads later) :
    later.outcome = some result := by
  induction leads with
  | refl => exact sent
  | tail _ act ih => exact outcome_of_act ih act

end Course

/-! ## What a course keeps -/

/-- What a result says of the chunks that were offered and the buffers that were accepted.  Chunks
may still be offered unless the stream has ended. -/
inductive Verdict (settings : StreamSettings) (ended : Bool) (offered accepted : List Bytes)
    (early : Bool) : Except StreamError Bytes → Prop where
  | message {message : Bytes} (opens : Opening settings offered (.ok message))
      (front : accepted <+: surplus message.length offered) :
      Verdict settings ended offered accepted early (.ok message)
  | error {error : StreamError}
      (opens : ∀ more, (ended = true → more = []) → Opening settings (offered ++ more) (.error error))
      (nothing : accepted = []) : Verdict settings ended offered accepted early (.error error)
  | cancelled (withdrew : early = true) (nothing : accepted = []) :
      Verdict settings ended offered accepted early (.error .cancelled)

/-- A splitter that has not stopped.  Every buffer that its collector has given out was accepted or
is still held by the splitter. -/
inductive Splitter.Working (settings : StreamSettings) (splitter : Splitter)
    (offered accepted : List Bytes) (early : Bool) : Prop where
  | intro {taken given left : List Bytes} (offers : offered = taken ++ splitter.inbox)
      (collects : splitter.collector.Collects settings taken given)
      (passing : splitter.channel.Passing) (holds : splitter.Holds left)
      (split : given = accepted ++ left)
      (noticed : splitter.channel.closed = true → splitter.collector.slot.outcome = none →
        early = true) : Working settings splitter offered accepted early

/-- A splitter that has stopped and left a result. -/
structure Splitter.Finished (settings : StreamSettings) (splitter : Splitter)
    (offered accepted : List Bytes) (early : Bool) : Prop where
  stopped : splitter.activity = .stopped
  verdict : ∃ result, splitter.collector.slot.outcome = some result ∧
    Verdict settings splitter.ended offered accepted early result

namespace Splitter

variable {settings : StreamSettings} {splitter later : Splitter} {offered accepted : List Bytes}
  {early : Bool} {result : Except StreamError Bytes}

theorem working_start (settings : StreamSettings) :
    (start settings).Working settings [] [] false := by
  obtain ⟨offers, collects, flows, holds, split⟩ := going_start settings
  have none := List.map_eq_nil_iff.mp flows.queue.symm
  rw [none, List.append_nil] at split
  exact .intro offers collects (Channel.passing_start _) holds split fun closed => by cases closed

/-- A result that is there while the splitter works is the initial message. -/
theorem Working.verdict (working : splitter.Working settings offered accepted early)
    (sent : splitter.collector.slot.outcome = some result) (ended : Bool) :
    Verdict settings ended offered accepted early result := by
  obtain ⟨rfl, collects, _, _, split, _⟩ := working
  cases collects with
  | waiting _ _ unsent =>
    rw [unsent] at sent
    cases sent
  | @complete message opens _ held =>
    obtain rfl : .ok message = result := Option.some.inj (held.symm.trans sent)
    refine .message (opens.append splitter.inbox) ?_
    rw [surplus_append, split, List.append_assoc]
    exact List.prefix_append _ _

theorem Working.nothing (working : splitter.Working settings offered accepted early)
    (unsent : splitter.collector.slot.outcome = none) : accepted = [] := by
  obtain ⟨_, collects, _, _, split, _⟩ := working
  cases collects with
  | waiting => exact (List.append_eq_nil_iff.mp split.symm).1
  | complete _ _ sent =>
    rw [unsent] at sent
    cases sent

/-- The splitter notices that the consumer has withdrawn. -/
theorem Working.stopCancelled (working : splitter.Working settings offered accepted early)
    (closed : splitter.channel.closed = true) (channel : Channel) :
    { splitter with channel := channel }.stopCancelled.Finished settings offered accepted early := by
  refine ⟨rfl, ?_⟩
  cases outcome : splitter.collector.slot.outcome with
  | none =>
    have nothing := working.nothing outcome
    obtain ⟨_, _, _, _, _, noticed⟩ := working
    refine ⟨.error .cancelled, ?_, .cancelled (noticed closed outcome) nothing⟩
    simp [Splitter.stopCancelled, stop, Collector.fail, Slot.send, outcome]
  | some result =>
    exact ⟨result, Collector.outcome_fail outcome _, working.verdict outcome _⟩

/-- The result that the collector leaves when it fails. -/
theorem finished_of_fails {collector : Collector} {given : List Bytes} {error : StreamError}
    (fails : Collector.Fails splitter.collector collector given error) (split : given = accepted)
    (opens : ∀ more, (splitter.ended = true → more = []) →
      Opening settings (offered ++ more) (.error error)) :
    ({ splitter with collector := collector }.stopFailed error).Finished settings offered accepted
      early :=
  ⟨rfl, .error error, fails.sent, .error opens (split.symm.trans fails.nothing)⟩

/-- A listening splitter takes a chunk. -/
theorem working_or_finished_takeChunk {taken rest given : List Bytes} {chunk : Bytes}
    (inbox : splitter.inbox = chunk :: rest) (offers : offered = taken ++ splitter.inbox)
    (collects : splitter.collector.Collects settings taken given)
    (passing : splitter.channel.Passing) (pending : splitter.channel.pending = [])
    (split : given = accepted)
    (noticed : splitter.channel.closed = true → splitter.collector.slot.outcome = none →
      early = true) :
    ({ splitter with inbox := rest }.takeChunk chunk).Working settings offered accepted early ∨
      ({ splitter with inbox := rest }.takeChunk chunk).Finished settings offered accepted early := by
  rw [inbox, List.append_cons] at offers
  rcases collects.feed chunk with
    ⟨buffers, collector, fed, collects, sent⟩ | ⟨error, collector, fed, fails, opens⟩
  · simp only [takeChunk, fed]
    refine .inl (.intro offers collects passing (.sending rfl pending) (by rw [split]) ?_)
    intro closed unsent
    refine noticed closed ?_
    cases outcome : splitter.collector.slot.outcome with
    | none => rfl
    | some result =>
      rw [sent result outcome] at unsent
      cases unsent
  · simp only [takeChunk, fed]
    refine .inr (finished_of_fails fails split fun more _ => ?_)
    rw [offers, List.append_assoc]
    exact opens _

theorem finished_takeEnd {given : List Bytes} (ended : splitter.ended = true)
    (collects : splitter.collector.Collects settings offered given) (split : given = accepted) :
    splitter.takeEnd.Finished settings offered accepted early := by
  rcases collects.finish with
    ⟨message, finished, opens, sent, whole⟩ | ⟨error, collector, finished, fails, opens⟩
  · simp only [takeEnd, finished]
    have all : accepted ++ [] = surplus message.length offered := by
      rw [List.append_nil, ← split, whole]
    exact ⟨rfl, .ok message, sent, .message opens ⟨[], all⟩⟩
  · simp only [takeEnd, finished]
    refine finished_of_fails fails split fun more silent => ?_
    rw [silent ended, List.append_nil]
    exact opens

theorem working_or_finished_of_heard {taken given : List Bytes}
    (offers : offered = taken ++ splitter.inbox)
    (collects : splitter.collector.Collects settings taken given)
    (passing : splitter.channel.Passing) (pending : splitter.channel.pending = [])
    (split : given = accepted)
    (noticed : splitter.channel.closed = true → splitter.collector.slot.outcome = none →
      early = true) (heard : splitter.hear? = some later) :
    later.Working settings offered accepted early ∨
      later.Finished settings offered accepted early := by
  unfold hear? at heard
  split at heard
  · rename_i chunk rest inbox
    cases heard
    exact working_or_finished_takeChunk inbox offers collects passing pending split noticed
  · rename_i inbox
    split at heard
    · rename_i ended
      cases heard
      rw [inbox, List.append_nil] at offers
      subst offers
      exact .inr (finished_takeEnd ended collects split)
    · cases heard

theorem Working.step (working : splitter.Working settings offered accepted early)
    {preference : Preference} (stepped : splitter.step? preference = some later) :
    later.Working settings offered (accepted ++ splitter.accepting) early ∨
      later.Finished settings offered (accepted ++ splitter.accepting) early := by
  have cancelled := working.stopCancelled
  obtain @⟨taken, given, left, offers, collects, passing, holds, split, noticed⟩ := working
  cases holds with
  | listening activity pending =>
    have quiet : splitter.accepting = [] := by simp [accepting, activity]
    rw [List.append_nil] at split
    rw [quiet, List.append_nil]
    rcases heard_or_heeded activity stepped with heard | heeded
    · exact working_or_finished_of_heard offers collects passing pending split noticed heard
    · unfold heedCancel? at heeded
      split at heeded
      · rename_i closed
        cases heeded
        exact .inr (cancelled closed splitter.channel)
      · cases heeded
  | sending activity pending =>
    cases left with
    | nil =>
      have quiet : splitter.accepting = [] := by simp [accepting, activity]
      obtain rfl : { splitter with activity := .listening } = later := by
        simpa [step?, activity] using stepped
      rw [quiet, List.append_nil]
      exact .inl (.intro offers collects passing (.listening rfl pending) split noticed)
    | cons buffer buffers =>
      -- A send is refused only once the consumer has withdrawn.
      have passes := passing.send buffer
      rcases passing.orderly.send_cases buffer with ⟨closing, same⟩ | ⟨_, _, same⟩ | ⟨_, _, same⟩ <;>
        rw [same] at passes <;>
        simp only [step?, activity, same] at stepped <;> cases stepped <;>
        simp only [accepting, activity, same]
      · rw [List.append_nil]
        exact .inr (cancelled (passing.closing closing) splitter.channel)
      · refine .inl (.intro offers collects passes (.sending rfl pending) ?_ noticed)
        rw [split, List.append_assoc, List.singleton_append]
      · rw [List.append_nil]
        refine .inl (.intro offers collects passes (.waiting rfl ?_) split noticed)
        rw [pending]
        rfl
  | @waiting ticket buffer buffers activity pending =>
    have waits : (ticket, buffer) ∈ splitter.channel.pending := pending ▸ List.mem_cons_self
    have passes := passing.resume waits
    rcases passing.orderly.resume_cases waits with ⟨closing, same⟩ | ⟨_, _, same⟩ | ⟨_, same⟩ <;>
      rw [same] at passes <;>
      simp only [step?, activity, same] at stepped <;> cases stepped <;>
      simp only [accepting, activity, same]
    · rw [List.append_nil]
      exact .inr (cancelled (passing.closing closing) _)
    · have found : splitter.channel.pending.lookup ticket = some buffer := by simp [pending]
      refine .inl (.intro offers collects passes (.sending rfl ?_) ?_ noticed)
      · simp [pending]
      · rw [split, found, List.append_assoc]
        rfl

/-- A splitter whose consumer has withdrawn never has to wait. -/
theorem Working.steps_of_closed (working : splitter.Working settings offered accepted early)
    (closed : splitter.channel.closed = true) (preference : Preference) :
    ∃ later, splitter.step? preference = some later := by
  obtain @⟨taken, given, left, offers, collects, passing, holds, split, noticed⟩ := working
  have cancelled := passing.orderly.taking closed
  cases holds with
  | listening activity pending =>
    have heeded : splitter.heedCancel? = some splitter.stopCancelled := if_pos closed
    cases preference with
    | arrival => cases heard : splitter.hear? <;> simp [step?, activity, heard, heeded]
    | cancellation => simp [step?, activity, heeded]
  | sending activity pending =>
    cases left with
    | nil => simp [step?, activity]
    | cons buffer buffers => simp [step?, activity, Channel.send, CreditPool.acquire, cancelled]
  | @waiting ticket buffer buffers activity pending =>
    simp [step?, activity, Channel.resume, CreditPool.resume, pending, cancelled]

/-! ## What the surroundings do -/

/-- Something that leaves alone what the splitter is at, and what comes in. -/
theorem Working.congr (working : splitter.Working settings offered accepted early) {early' : Bool}
    (inbox : later.inbox = splitter.inbox) (activity : later.activity = splitter.activity)
    (framing : later.collector.framing = splitter.collector.framing)
    (outcome : later.collector.slot.outcome = splitter.collector.slot.outcome)
    (passing : later.channel.Passing) (pending : later.channel.pending = splitter.channel.pending)
    (noticed : later.channel.closed = true → splitter.collector.slot.outcome = none →
      (splitter.channel.closed = true → early = true) → early' = true) :
    later.Working settings offered accepted early' := by
  obtain ⟨offers, collects, _, holds, split, before⟩ := working
  refine .intro (offers.trans (congrArg _ inbox.symm)) (collects.congr framing outcome) passing
    (holds.congr activity pending) split fun closed unsent => ?_
  rw [outcome] at unsent
  exact noticed closed unsent fun shut => before shut unsent

theorem Finished.congr (finished : splitter.Finished settings offered accepted early)
    {early' : Bool} (activity : later.activity = splitter.activity)
    (ended : later.ended = splitter.ended)
    (outcome : later.collector.slot.outcome = splitter.collector.slot.outcome)
    (grows : early = true → early' = true) :
    later.Finished settings offered accepted early' := by
  obtain ⟨stopped, result, sent, verdict⟩ := finished
  refine ⟨activity.trans stopped, result, outcome.trans sent, ?_⟩
  rw [ended]
  cases verdict with
  | message opens front => exact .message opens front
  | error opens nothing => exact .error opens nothing
  | cancelled withdrew nothing => exact .cancelled (grows withdrew) nothing

theorem Working.not_stopped (working : splitter.Working settings offered accepted early) :
    splitter.hasStopped = false := by
  obtain ⟨_, _, _, holds, _, _⟩ := working
  exact holds.not_stopped

theorem Working.passing (working : splitter.Working settings offered accepted early) :
    splitter.channel.Passing := by
  obtain ⟨_, _, passing, _, _, _⟩ := working
  exact passing

theorem Working.offer (working : splitter.Working settings offered accepted early) (chunk : Bytes) :
    (splitter.offer chunk).2.Working settings (offered ++ [chunk]) accepted early := by
  obtain ⟨offers, collects, passing, holds, split, noticed⟩ := working
  have taken : (splitter.offer chunk).2 = { splitter with inbox := splitter.inbox ++ [chunk] } := by
    simp [Splitter.offer, holds.not_stopped]
  rw [taken]
  refine .intro ?_ collects passing (holds.congr rfl rfl) split noticed
  rw [offers, List.append_assoc]

theorem Finished.offer (finished : splitter.Finished settings offered accepted early)
    (going : splitter.ended = false) (chunk : Bytes) :
    (splitter.offer chunk).2.Finished settings (offered ++ [chunk]) accepted early := by
  obtain ⟨stopped, result, sent, verdict⟩ := finished
  have lost : (splitter.offer chunk).2 = splitter := by simp [Splitter.offer, hasStopped, stopped]
  rw [lost]
  refine ⟨stopped, result, sent, ?_⟩
  cases verdict with
  | message opens front =>
    refine .message (opens.append [chunk]) (front.trans ?_)
    rw [surplus_append]
    exact List.prefix_append _ _
  | error opens nothing =>
    refine .error (fun more _ => ?_) nothing
    rw [List.append_assoc]
    exact opens _ fun ended => absurd (going.symm.trans ended) Bool.false_ne_true
  | cancelled withdrew nothing => exact .cancelled withdrew nothing

theorem Finished.endInput (finished : splitter.Finished settings offered accepted early) :
    splitter.endInput.Finished settings offered accepted early := by
  obtain ⟨stopped, result, sent, verdict⟩ := finished
  refine ⟨stopped, result, sent, ?_⟩
  cases verdict with
  | message opens front => exact .message opens front
  | error opens nothing =>
    refine .error (fun more silent => opens more fun _ => silent rfl) nothing
  | cancelled withdrew nothing => exact .cancelled withdrew nothing

end Splitter

namespace Course

variable {settings : StreamSettings} {course later : Course}

/-- What holds at any time. -/
structure Sound (settings : StreamSettings) (course : Course) : Prop where
  initials : ∀ received ∈ course.initials, course.outcome = some received
  splitter :
    course.splitter.Working settings course.offered course.accepted course.early ∨
      course.splitter.Finished settings course.offered course.accepted course.early

theorem sound_start (settings : StreamSettings) : (start settings).Sound settings :=
  ⟨by simp [start], .inl (Splitter.working_start settings)⟩

theorem Sound.sent_of_stopped (sound : course.Sound settings)
    (stopped : course.splitter.hasStopped = true) : course.outcome ≠ none := by
  rcases sound.splitter with working | finished
  · rw [working.not_stopped] at stopped
    cases stopped
  · obtain ⟨_, result, sent, _⟩ := finished
    exact Option.ne_none_iff_exists'.mpr ⟨result, sent⟩

theorem Sound.verdict (sound : course.Sound settings) {result : Except StreamError Bytes}
    (sent : course.outcome = some result) :
    Verdict settings course.splitter.ended course.offered course.accepted course.early result := by
  rcases sound.splitter with working | finished
  · exact working.verdict sent _
  · obtain ⟨_, found, held, verdict⟩ := finished
    obtain rfl : found = result := Option.some.inj (held.symm.trans sent)
    exact verdict

/-- Nothing is accepted before the initial message is in the slot. -/
theorem Sound.message_of_accepted (sound : course.Sound settings) (accepted : course.accepted ≠ []) :
    ∃ message, course.outcome = some (.ok message) := by
  cases outcome : course.outcome with
  | none =>
    rcases sound.splitter with working | finished
    · exact absurd (working.nothing outcome) accepted
    · obtain ⟨_, result, sent, _⟩ := finished
      cases outcome.symm.trans sent
  | some result =>
    cases sound.verdict outcome with
    | message => exact ⟨_, rfl⟩
    | error _ nothing => exact absurd nothing accepted
    | cancelled _ nothing => exact absurd nothing accepted

theorem Sound.withdraw (sound : course.Sound settings) {channel : Channel}
    (passing : course.splitter.channel.Passing → channel.Passing)
    (pending : channel.pending = course.splitter.channel.pending) :
    (course.withdraw channel).Sound settings := by
  refine ⟨sound.initials, ?_⟩
  rcases sound.splitter with working | finished
  · refine .inl (working.congr rfl rfl rfl rfl (passing working.passing) pending ?_)
    intro _ unsent _
    simp [Course.withdraw, outcome, unsent]
  · exact .inr (finished.congr rfl rfl rfl fun withdrew => by simp [Course.withdraw, withdrew])

theorem sound_of_act (sound : course.Sound settings) (act : course.Act later) :
    later.Sound settings := by
  have kept : ∀ received ∈ course.initials, later.outcome = some received :=
    fun received member => outcome_of_act (sound.initials received member) act
  cases act with
  | offer chunk going =>
    exact ⟨kept, sound.splitter.imp (·.offer chunk) (·.offer going chunk)⟩
  | endInput =>
    refine ⟨kept, sound.splitter.imp (fun working => ?_) (·.endInput)⟩
    exact working.congr rfl rfl rfl rfl working.passing rfl fun closed _ before => before closed
  | step preference stepped =>
    refine ⟨kept, ?_⟩
    rcases sound.splitter with working | finished
    · exact working.step stepped
    · simp [Splitter.step?, finished.stopped] at stepped
  | request count =>
    refine ⟨kept, sound.splitter.imp (fun working => ?_) (·.congr rfl rfl rfl id)⟩
    exact working.congr rfl rfl rfl rfl (working.passing.request count) rfl
      fun closed _ before => before closed
  | next =>
    refine ⟨kept, sound.splitter.imp (fun working => ?_) (·.congr rfl rfl rfl id)⟩
    obtain ⟨passing, pending, closed⟩ := working.passing.next
    exact working.congr rfl rfl rfl rfl passing pending
      fun shut _ before => before (closed.symm.trans shut)
  | cancel =>
    exact sound.withdraw (·.close true course.splitter.channel.hasReceiver) rfl
  | drop => exact sound.withdraw (·.close course.splitter.channel.terminated false) rfl
  | receive =>
    have same := course.splitter.collector.slot.outcome_receive
    refine ⟨?_, sound.splitter.imp (fun working => ?_) (·.congr rfl rfl same id)⟩
    · intro received member
      rcases List.mem_append.mp member with before | now
      · exact kept received before
      · exact same.trans (Splitter.outcome_of_receiveInitial sound.sent_of_stopped now)
    · exact working.congr rfl rfl rfl same working.passing rfl fun closed _ before => before closed
  | dropInitial =>
    refine ⟨kept, sound.splitter.imp (fun working => ?_) (·.congr rfl rfl rfl id)⟩
    exact working.congr rfl rfl rfl rfl working.passing rfl fun closed _ before => before closed

theorem sound_of_reaches (reached : Reaches settings course) : course.Sound settings := by
  induction reached with
  | refl => exact sound_start settings
  | tail _ act ih => exact sound_of_act ih act

end Course

/-- The chunks never say that the consumer has withdrawn, nor that the splitter is gone. -/
theorem Opening.of_chunks {settings : StreamSettings} {chunks : List Bytes} {error : StreamError}
    (opens : Opening settings chunks (.error error)) : error ≠ .cancelled ∧ error ≠ .closed := by
  cases opens with
  | refused _ refused => cases refused <;> simp
  | _ => simp

namespace Course

variable {settings : StreamSettings} {course later : Course}

/-- Whatever the chunks are, whenever they come and whenever the consumer of the events asks, cancels
or goes away: a result that is in the slot stays there, there is one when the splitter has stopped,
and the receiver finds nothing else.  A splitter whose consumer has withdrawn goes on until it has
stopped.  The result is the initial message or the error that the chunks determine, whatever may
still be offered; or it says that the stream was cancelled, which only happens if the consumer
withdrew while the slot was empty.  Buffers are accepted only once the initial message is in the
slot, and they are the first of those that follow it. -/
theorem settles_initial (reached : Reaches settings course) :
    (∀ result, course.outcome = some result →
      (∀ later, course.Leads later → later.outcome = some result) ∧
      (result ≠ .error .cancelled → ∀ more, (course.splitter.ended = true → more = []) →
        Opening settings (course.offered ++ more) result) ∧
      (result = .error .cancelled → course.early = true)) ∧
    (course.splitter.hasStopped = true → course.outcome ≠ none) ∧
    (course.splitter.channel.closed = true → course.splitter.hasStopped = false →
      ∀ preference, ∃ later, course.splitter.step? preference = some later) ∧
    (∀ received ∈ course.initials, course.outcome = some received) ∧
    course.splitter.receiveInitial.1 ≠ .value (.error .closed) ∧
    (course.accepted ≠ [] → ∃ message, course.outcome = some (.ok message)) ∧
    ∀ message, course.outcome = some (.ok message) →
      course.accepted <+: surplus message.length course.offered := by
  have sound := sound_of_reaches reached
  refine ⟨?_, sound.sent_of_stopped, ?_, sound.initials, ?_, ?_, ?_⟩
  · intro result sent
    refine ⟨fun later leads => outcome_of_leads sent leads, ?_, ?_⟩
    · intro other more silent
      cases sound.verdict sent with
      | message opens => exact opens.append more
      | error opens => exact opens more silent
      | cancelled => exact absurd rfl other
    · rintro rfl
      cases sound.verdict sent with
      | error opens =>
        have opened := opens [] fun _ => rfl
        exact absurd rfl opened.of_chunks.1
      | cancelled withdrew => exact withdrew
  · intro closed going preference
    rcases sound.splitter with working | finished
    · exact working.steps_of_closed closed preference
    · simp [Splitter.hasStopped, finished.stopped] at going
  · intro closed
    have member : .error .closed ∈ course.splitter.receiveInitial.1.values := by
      simp [closed, Receipt.values]
    have sent := Splitter.outcome_of_receiveInitial sound.sent_of_stopped member
    cases sound.verdict sent with
    | error opens =>
      have opened := opens [] fun _ => rfl
      exact opened.of_chunks.2 rfl
  · exact sound.message_of_accepted
  · intro message sent
    cases sound.verdict sent with
    | message _ front => exact front

/-- A consumer that cancels while a second buffer waits for credit, and one that cancels as a chunk
comes in which the splitter has not taken. -/
theorem settles_initial_examples :
    (∃ course, Reaches { initialCredit := 1 } course ∧ course.splitter.hasStopped = true ∧
      course.offered = [[0x00, 0x61], [0x62]] ∧ course.accepted = [[0x61]] ∧
      course.outcome = some (.ok [0x00]) ∧ course.early = false ∧
      course.accepted <+: surplus 1 course.offered) ∧
    ∃ course, Reaches {} course ∧ course.splitter.hasStopped = true ∧
      course.offered = [[0x00, 0x61]] ∧ course.outcome = some (.error .cancelled) ∧
      course.early = true := by
  refine ⟨?_, ?_⟩
  · let last : Course :=
      ⟨⟨[], false, ⟨.reassembly ⟨[], .passThrough, 16777216⟩, ⟨some (.ok [0x00]), .listening⟩⟩,
        ⟨[.ok [0x61]], ⟨0, true, [], [], 1⟩, [], false, true, true, true⟩, .stopped⟩,
        [[0x00, 0x61], [0x62]], [], [[0x61]], false⟩
    have reached : Reaches { initialCredit := 1 } last := by
      refine .head (.offer [0x00, 0x61] rfl) (.head (.step .arrival rfl) ?_)
      refine .head (.step .arrival rfl) (.head (.step .arrival rfl) ?_)
      refine .head (.offer [0x62] rfl) (.head (.step .arrival rfl) ?_)
      refine .head (.step .arrival rfl) (.head (.cancel rfl) ?_)
      exact .head (.step .arrival rfl) .refl
    obtain ⟨_, _, _, _, _, _, front⟩ := settles_initial reached
    exact ⟨last, reached, rfl, rfl, rfl, rfl, rfl, front [0x00] rfl⟩
  · let last : Course :=
      ⟨⟨[], false, ⟨.reassembly ⟨[], .header, 16777216⟩, ⟨some (.error .cancelled), .listening⟩⟩,
        ⟨[], ⟨16, true, [], [], 0⟩, [], false, true, true, true⟩, .stopped⟩,
        [[0x00, 0x61]], [], [], true⟩
    have reached : Reaches {} last := by
      refine .head (.offer [0x00, 0x61] rfl) (.head (.cancel rfl) ?_)
      exact .head (.step .cancellation rfl) .refl
    obtain ⟨settled, _⟩ := settles_initial reached
    obtain ⟨_, _, withdrew⟩ := settled (.error .cancelled) rfl
    exact ⟨last, reached, rfl, rfl, rfl, withdrew rfl⟩

end Course

end FieldWire.Stream
