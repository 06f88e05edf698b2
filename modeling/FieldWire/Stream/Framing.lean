import FieldWire.LengthTag
import FieldWire.Stream.Error

/-!
# Framing

A stream of chunks, cut anywhere, begins with one encoded object, the initial message; what follows
is opaque.  Framing takes the chunks in and gives buffers out, of which the first is the initial
message and the others are what follows it.

There are two ways.  Reassembly collects bytes until the length of the object is known and then
until all of it is there; bytes beyond its end make a buffer of their own, and later chunks are
handed on as they come.  The other way takes the first chunk that is not empty for the initial
message.  Empty buffers are never given out.
-/

set_option autoImplicit false

namespace FieldWire.Stream

/-- How far reassembly has come. -/
inductive Stage where
  /-- The length is not known yet. -/
  | header
  /-- The object, length included, takes `target` bytes. -/
  | payload (target : Nat)
  /-- The object has been given out. -/
  | passThrough
deriving DecidableEq, Repr

namespace Stage

/-- The name of a stage. -/
def name : Stage → String
  | .header => "WaitingForHeader"
  | .payload _ => "WaitingForPayload"
  | .passThrough => "PassThrough"

end Stage

/-- The state of reassembly. -/
structure Reassembly where
  /-- The bytes collected so far. -/
  buffer : Bytes
  /-- How far it has come. -/
  stage : Stage
  /-- The largest object, length included. -/
  limit : Nat
deriving DecidableEq, Repr

/-- The limit of reassembly unless settings give another: 16 mebibytes. -/
def defaultMessageLimit : Nat := 16777216

namespace Reassembly

/-- Nothing collected yet. -/
def start (limit : Nat) : Reassembly := ⟨[], .header, limit⟩

/-- The number of bytes that the object at the front of `buffer` takes, its length included, if the
length is there. -/
def target? (limit : Nat) (buffer : Bytes) : Except StreamError (Option Nat) :=
  match Varint.decode buffer with
  | .error error => .error (.codec error)
  | .ok none => .ok none
  | .ok (some (tag, tagSize)) =>
    match LengthTag.decode tag .list with
    | .error error => .error (.codec error)
    | .ok length =>
      let target := tagSize + length
      if target ≤ limit then .ok (some target) else .error (.initialMessageTooLarge target limit)

/-- Gives out the object once all of it is there. -/
def release (state : Reassembly) (target : Nat) : List Bytes × Reassembly :=
  if Bytes.hasAtLeast target state.buffer then
    let rest := state.buffer.drop target
    (state.buffer.take target :: (if rest.isEmpty then [] else [rest]),
      { state with buffer := [], stage := .passThrough })
  else ([], { state with stage := .payload target })

/-- Takes a chunk in.  A chunk that brings an error has been collected all the same. -/
def feed (state : Reassembly) (chunk : Bytes) : Except StreamError (List Bytes) × Reassembly :=
  match state.stage with
  | .passThrough => (.ok (if chunk.isEmpty then [] else [chunk]), state)
  | .payload target =>
    let (buffers, state) := release { state with buffer := state.buffer ++ chunk } target
    (.ok buffers, state)
  | .header =>
    let state := { state with buffer := state.buffer ++ chunk }
    match target? state.limit state.buffer with
    | .error error => (.error error, state)
    | .ok none => (.ok [], state)
    | .ok (some target) =>
      let (buffers, state) := release state target
      (.ok buffers, state)

/-- What the end of the stream means. -/
def finish (state : Reassembly) : Except StreamError Unit :=
  match state.stage with
  | .passThrough => .ok ()
  | .header => .error (.missingInitialMessage state.buffer.length)
  | .payload target => .error (.incompleteInitialMessage target state.buffer.length)

end Reassembly

/-- How the initial message is found. -/
inductive Framing where
  /-- By putting an encoded object together. -/
  | reassembly (state : Reassembly)
  /-- By taking the first chunk that is not empty; `seen` says whether there was one. -/
  | firstChunk (seen : Bool)
deriving DecidableEq, Repr

namespace Framing

/-- Takes a chunk in and gives buffers out. -/
def feed (framing : Framing) (chunk : Bytes) : Except StreamError (List Bytes) × Framing :=
  match framing with
  | .reassembly state =>
    let (answer, state) := state.feed chunk
    (answer, .reassembly state)
  | .firstChunk seen =>
    if chunk.isEmpty then (.ok [], .firstChunk seen) else (.ok [chunk], .firstChunk true)

/-- What the end of the stream means. -/
def finish : Framing → Except StreamError Unit
  | .reassembly state => state.finish
  | .firstChunk seen => if seen then .ok () else .error (.missingInitialMessage 0)

/-- Whether the initial message has been given out. -/
def isComplete : Framing → Bool
  | .reassembly state => state.stage == .passThrough
  | .firstChunk seen => seen

end Framing

end FieldWire.Stream
