import FieldWire.ObjectFormat
import FieldWire.Stream.Credit

/-!
# Event channels

A producer sends items to a consumer through a queue without bounds; what bounds the items under way
is credit, one for each.  The end of a stream, and the error that may stand there, cost none.

The consumer stops when it has been told the end or an error, and when it cancels.  Unless it
stopped because of the plain end, sending fails from then on.
-/

set_option autoImplicit false

namespace FieldWire.Stream

/-- A channel with its producer and consumer. -/
structure Channel where
  /-- What was sent and has not been taken: items, and at most one error after them. -/
  queue : List (Except StreamError Bytes)
  /-- The credits. -/
  credit : CreditPool
  /-- The sends that wait for a credit, in the order in which they came. -/
  pending : List (Ticket × Bytes)
  /-- Whether the producer is still there. -/
  hasSender : Bool
  /-- Whether the consumer is still there. -/
  hasReceiver : Bool
  /-- Whether the consumer takes no more items. -/
  closed : Bool
  /-- Whether the consumer has stopped. -/
  terminated : Bool

/-- What the consumer finds. -/
inductive Next where
  /-- Nothing so far. -/
  | pending
  /-- The end. -/
  | done
  /-- An item. -/
  | item (bytes : Bytes)
  /-- An error, after which there is nothing. -/
  | error (error : StreamError)

namespace Channel

/-- A channel with some credit. -/
def start (credit : Nat) : Channel :=
  ⟨[], CreditPool.start credit, [], true, true, false, false⟩

/-! ## The producer -/

/-- Puts an item into the queue, unless the consumer takes no more. -/
def push (channel : Channel) (item : Bytes) : Except StreamError Unit × Channel :=
  if channel.closed then (.error .cancelled, channel)
  else (.ok (), { channel with queue := channel.queue ++ [Except.ok item] })

/-- Sends an item if there is a credit.  If there is none the send waits. -/
def send (channel : Channel) (item : Bytes) : Acquired × Channel :=
  match channel.credit.acquire with
  | (.taken, credit) =>
    match { channel with credit := credit }.push item with
    | (.ok (), channel) => (.taken, channel)
    | (.error error, channel) => (.refused error, channel)
  | (.refused error, credit) => (.refused error, { channel with credit := credit })
  | (.waiting ticket, credit) =>
    (.waiting ticket,
      { channel with credit := credit, pending := channel.pending ++ [(ticket, item)] })

/-- Resumes a send that waits.  The answer is `none` if it has to go on waiting. -/
def resume (channel : Channel) (ticket : Ticket) : Option (Except StreamError Unit) × Channel :=
  match channel.pending.lookup ticket with
  | none => (none, channel)
  | some item =>
    match channel.credit.resume ticket with
    | (none, credit) => (none, { channel with credit := credit })
    | (some answer, credit) =>
      let channel := { channel with
        credit := credit
        pending := channel.pending.filter fun send => send.1 != ticket }
      match answer with
      | .error error => (some (.error error), channel)
      | .ok () =>
        let (answer, channel) := channel.push item
        (some answer, channel)

/-- Resumes the sends with some tickets, one after the other.  The answer lists those that are done,
and how it ended for them. -/
def resumeAll (channel : Channel) :
    List Ticket → List (Ticket × Except StreamError Unit) × Channel
  | [] => ([], channel)
  | ticket :: tickets =>
    match channel.resume ticket with
    | (some answer, channel) =>
      let (done, channel) := channel.resumeAll tickets
      ((ticket, answer) :: done, channel)
    | (none, channel) => channel.resumeAll tickets

/-- Resumes every send that waits, in the order in which they came. -/
def settle (channel : Channel) : List (Ticket × Except StreamError Unit) × Channel :=
  channel.resumeAll (channel.pending.map (·.1))

/-- Gives up a send that waits. -/
def abandon (channel : Channel) (ticket : Ticket) : Channel :=
  { channel with
    credit := channel.credit.abandon ticket
    pending := channel.pending.filter fun send => send.1 != ticket }

/-- Gives up all sends that wait. -/
def abandonAll (channel : Channel) : Channel :=
  channel.pending.foldl (fun channel send => channel.abandon send.1) channel

/-- Ends the stream. -/
def complete (channel : Channel) : Channel := { channel with hasSender := false }

/-- Ends the stream with an error. -/
def fail (channel : Channel) (error : StreamError) : Channel :=
  if channel.closed then channel.complete
  else { channel with queue := channel.queue ++ [Except.error error] }.complete

/-- Whether the producer can see that sending is useless. -/
def isCancelled (channel : Channel) : Bool := channel.credit.cancelled || channel.closed

/-! ## The consumer -/

/-- Grants credit. -/
def request (channel : Channel) (count : Nat) : Except StreamError Unit × Channel :=
  let (answer, credit) := channel.credit.grant count
  (answer, { channel with credit := credit })

/-- Stops taking items and ends all sending. -/
def cancel (channel : Channel) : Channel :=
  { channel with terminated := true, closed := true, credit := channel.credit.cancel }

/-- Ends all sending because the consumer is gone. -/
def drop (channel : Channel) : Channel :=
  { channel with hasReceiver := false, closed := true, credit := channel.credit.cancel }

/-- Takes what is next. -/
def next (channel : Channel) : Next × Channel :=
  if channel.terminated then (.done, channel)
  else
    match channel.queue with
    | .ok item :: queue => (.item item, { channel with queue := queue })
    | .error error :: queue => (.error error, { channel with queue := queue }.cancel)
    | [] =>
      if channel.hasSender then (.pending, channel)
      else (.done, { channel with terminated := true })

/-- Takes items until there is something else, with at most `fuel` steps. -/
def takeItems : Nat → Channel → List Bytes × Next × Channel
  | 0, channel => ([], .pending, channel)
  | fuel + 1, channel =>
    match channel.next with
    | (.item item, channel) =>
      let (items, last, channel) := takeItems fuel channel
      (item :: items, last, channel)
    | (last, channel) => ([], last, channel)

/-- Takes all items at once and drops the stream.  The answer is `none` if the stream has not
ended. -/
def collect (channel : Channel) : Option (Except StreamError (List Bytes)) × Channel :=
  -- Each step takes from the queue, and one more finds its end.
  let (items, last, channel) := takeItems (channel.queue.length + 1) channel
  let answer := match last with
    | .done => some (.ok items)
    | .error error => some (.error error)
    | .pending => none
    | .item _ => none
  (answer, channel.drop)

end Channel

end FieldWire.Stream
