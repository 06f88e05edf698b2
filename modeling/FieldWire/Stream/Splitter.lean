import FieldWire.Settings
import FieldWire.Stream.Channel
import FieldWire.Stream.Collector

/-!
# Splitting a stream

A splitter takes in the chunks of a stream.  The initial message goes into a slot, and everything
after it into an event channel.  The splitter stops when the stream ends, when a chunk brings an
error, and when the consumer of the events cancels.  Whatever the reason, the slot has a result by
then: if it was still empty, the error with which the splitter stops.
-/

set_option autoImplicit false

namespace FieldWire.Stream

/-- What the splitter is at. -/
inductive Activity where
  /-- It waits for a chunk or for the consumer to cancel. -/
  | listening
  /-- It sends the buffers that a chunk gave. -/
  | sending (buffers : List Bytes)
  /-- A send waits for credit; the buffers come after it. -/
  | waiting (ticket : Ticket) (buffers : List Bytes)
  /-- It has stopped. -/
  | stopped
deriving DecidableEq, Repr

/-- A splitter with what has come in and the two halves of the stream. -/
structure Splitter where
  /-- The chunks that have come in and have not been taken. -/
  inbox : List Bytes
  /-- Whether no more chunks will come in. -/
  ended : Bool
  /-- Where the initial message goes. -/
  collector : Collector
  /-- Where the rest goes. -/
  channel : Channel
  /-- What the splitter is at. -/
  activity : Activity

/-- Which of two things a listening splitter takes notice of when both have happened. -/
inductive Preference where
  /-- The next chunk, or that there will be none. -/
  | arrival
  /-- That the consumer has cancelled. -/
  | cancellation
deriving DecidableEq, Repr

namespace Splitter

/-- A splitter before the first chunk. -/
def start (settings : StreamSettings) : Splitter :=
  let framing :=
    if settings.bufferInitialMessage then
      Framing.reassembly (Reassembly.start settings.maxInitialMessageSize)
    else Framing.firstChunk false
  ⟨[], false, Collector.start framing, Channel.start settings.initialCredit, .listening⟩

/-- Whether the splitter has stopped. -/
def hasStopped (splitter : Splitter) : Bool := splitter.activity == .stopped

/-- Stops.  Chunks that have not been taken are lost. -/
def stop (splitter : Splitter) : Splitter := { splitter with inbox := [], activity := .stopped }

/-- Stops because the consumer has cancelled. -/
def stopCancelled (splitter : Splitter) : Splitter :=
  { splitter with
    collector := splitter.collector.fail .cancelled
    channel := splitter.channel.complete }.stop

/-- Stops with an error that the consumer of the events is told. -/
def stopFailed (splitter : Splitter) (error : StreamError) : Splitter :=
  { splitter with channel := splitter.channel.fail error }.stop

/-- Takes a chunk. -/
def takeChunk (splitter : Splitter) (chunk : Bytes) : Splitter :=
  match splitter.collector.feed chunk with
  | (.ok buffers, collector) =>
    { splitter with collector := collector, activity := .sending buffers }
  | (.error error, collector) => { splitter with collector := collector }.stopFailed error

/-- Takes notice that the stream has ended. -/
def takeEnd (splitter : Splitter) : Splitter :=
  match splitter.collector.finish with
  | (.ok (), collector) =>
    { splitter with collector := collector, channel := splitter.channel.complete }.stop
  | (.error error, collector) => { splitter with collector := collector }.stopFailed error

/-- What the next chunk, or the end of the stream, makes of the splitter. -/
def hear? (splitter : Splitter) : Option Splitter :=
  match splitter.inbox with
  | chunk :: rest => some ({ splitter with inbox := rest }.takeChunk chunk)
  | [] => if splitter.ended then some splitter.takeEnd else none

/-- What the consumer's cancelling makes of the splitter, if it has cancelled. -/
def heedCancel? (splitter : Splitter) : Option Splitter :=
  if splitter.channel.closed then some splitter.stopCancelled else none

/-- One step.  The answer is `none` if the splitter has to wait or has stopped. -/
def step? (preference : Preference) (splitter : Splitter) : Option Splitter :=
  match splitter.activity with
  | .stopped => none
  | .listening =>
    match preference with
    | .arrival => splitter.hear? <|> splitter.heedCancel?
    | .cancellation => splitter.heedCancel? <|> splitter.hear?
  | .sending [] => some { splitter with activity := .listening }
  | .sending (buffer :: buffers) =>
    match splitter.channel.send buffer with
    | (.taken, channel) =>
      some { splitter with channel := channel, activity := .sending buffers }
    | (.waiting ticket, channel) =>
      some { splitter with channel := channel, activity := .waiting ticket buffers }
    | (.refused _, channel) => some { splitter with channel := channel }.stopCancelled
  | .waiting ticket buffers =>
    match splitter.channel.resume ticket with
    | (none, _) => none
    | (some (.ok ()), channel) =>
      some { splitter with channel := channel, activity := .sending buffers }
    | (some (.error _), channel) => some { splitter with channel := channel }.stopCancelled

/-- Steps until the splitter has to wait, with at most `fuel` of them. -/
def runWithin (preference : Preference) : Nat → Splitter → Splitter
  | 0, splitter => splitter
  | fuel + 1, splitter =>
    match splitter.step? preference with
    | some splitter => runWithin preference fuel splitter
    | none => splitter

/-- More steps than a splitter can take before it has to wait.  A chunk gives at most two buffers,
and each of them takes at most two steps. -/
def fuelFor (splitter : Splitter) : Nat :=
  let buffers := match splitter.activity with
    | .sending buffers => buffers.length
    | .waiting _ buffers => buffers.length + 1
    | .listening => 0
    | .stopped => 0
  8 * splitter.inbox.length + 4 * buffers + 4

/-- Steps until the splitter has to wait. -/
def run (preference : Preference) (splitter : Splitter) : Splitter :=
  runWithin preference splitter.fuelFor splitter

/-! ## The sender and the consumers -/

/-- Hands the splitter a chunk.  It fails if the splitter has stopped. -/
def offer (splitter : Splitter) (chunk : Bytes) : Except StreamError Unit × Splitter :=
  if splitter.hasStopped then (.error .closed, splitter)
  else (.ok (), { splitter with inbox := splitter.inbox ++ [chunk] })

/-- Ends the stream. -/
def endInput (splitter : Splitter) : Splitter := { splitter with ended := true }

/-- Takes the initial message, or why there is none, as soon as that is known. -/
def receiveInitial (splitter : Splitter) : Receipt (Except StreamError Bytes) × Splitter :=
  let (receipt, collector) := splitter.collector.receive
  let receipt := match receipt with
    | .empty => if splitter.hasStopped then .value (.error .closed) else .empty
    | other => other
  (receipt, { splitter with collector := collector })

/-- Takes away the receiver of the initial message. -/
def dropInitial (splitter : Splitter) : Splitter :=
  { splitter with collector := splitter.collector.dropReceiver }

end Splitter

/-- The initial message as an object, or why there is none. -/
def decodeMessage {σ : Type} (format : ObjectFormat σ) (message : Except StreamError Bytes) :
    Except StreamError σ := do
  (format.deserialize (← message)).mapError StreamError.codec

end FieldWire.Stream
