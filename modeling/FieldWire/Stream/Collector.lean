import FieldWire.Stream.Framing

/-!
# Collecting the initial message

A collector feeds chunks to a framing and sends the initial message, or the reason why there is
none, through a slot that takes one result only.  What it gives out itself are the buffers after the
initial message.
-/

set_option autoImplicit false

namespace FieldWire.Stream

/-- What the receiver of a slot is at. -/
inductive Receiver where
  /-- It waits for the result. -/
  | listening
  /-- It has taken the result. -/
  | served
  /-- It is gone. -/
  | gone
deriving DecidableEq, Repr

/-- A slot through which one result passes. -/
structure Slot (α : Type) where
  /-- The result, once it has been sent. -/
  outcome : Option α
  /-- What its receiver is at. -/
  receiver : Receiver

/-- What a receiver finds in a slot. -/
inductive Receipt (α : Type) where
  /-- Nothing has been sent so far. -/
  | empty
  /-- The result. -/
  | value (result : α)
  /-- The result was taken before. -/
  | spent
  /-- There is no receiver any more. -/
  | unheard

namespace Slot

variable {α : Type}

/-- A slot before anything has been sent. -/
def fresh : Slot α := ⟨none, .listening⟩

/-- Sends a result, unless one was sent before. -/
def send (slot : Slot α) (result : α) : Slot α :=
  match slot.outcome with
  | some _ => slot
  | none => { slot with outcome := some result }

/-- Takes the result if it is there. -/
def receive (slot : Slot α) : Receipt α × Slot α :=
  match slot.receiver, slot.outcome with
  | .gone, _ => (.unheard, slot)
  | .served, _ => (.spent, slot)
  | .listening, none => (.empty, slot)
  | .listening, some result => (.value result, { slot with receiver := .served })

/-- Takes the receiver away. -/
def drop (slot : Slot α) : Slot α := { slot with receiver := .gone }

end Slot

/-- A framing with the slot for its initial message. -/
structure Collector where
  /-- How the initial message is found. -/
  framing : Framing
  /-- Where it goes. -/
  slot : Slot (Except StreamError Bytes)

namespace Collector

/-- A collector before the first chunk. -/
def start (framing : Framing) : Collector := ⟨framing, Slot.fresh⟩

/-- Whether a result has been sent. -/
def isComplete (collector : Collector) : Bool := collector.slot.outcome.isSome

/-- Takes what is in the slot. -/
def receive (collector : Collector) : Receipt (Except StreamError Bytes) × Collector :=
  let (receipt, slot) := collector.slot.receive
  (receipt, { collector with slot := slot })

/-- Takes the receiver of the slot away. -/
def dropReceiver (collector : Collector) : Collector :=
  { collector with slot := collector.slot.drop }

/-- Sends an error instead of the initial message, unless a result was sent before. -/
def fail (collector : Collector) (error : StreamError) : Collector :=
  { collector with slot := collector.slot.send (.error error) }

/-- Takes a chunk in.  The first buffer that the framing gives out is the initial message. -/
def feed (collector : Collector) (chunk : Bytes) : Except StreamError (List Bytes) × Collector :=
  match collector.framing.feed chunk with
  | (.error error, framing) => (.error error, { collector with framing := framing }.fail error)
  | (.ok buffers, framing) =>
    let collector := { collector with framing := framing }
    if collector.isComplete then (.ok buffers, collector)
    else
      match buffers with
      | [] => (.ok [], collector)
      | message :: rest =>
        (.ok rest, { collector with slot := collector.slot.send (.ok message) })

/-- Takes notice that the stream has ended. -/
def finish (collector : Collector) : Except StreamError Unit × Collector :=
  if collector.isComplete then (.ok (), collector)
  else
    let error := match collector.framing.finish with
      | .error error => error
      | .ok () => .missingInitialMessage 0
    (.error error, collector.fail error)

end Collector

end FieldWire.Stream
