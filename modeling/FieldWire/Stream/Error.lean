import FieldWire.Error

/-!
# Why streams fail

One constructor per cause.  `StreamError.kind` and `StreamError.message` are the only places that
hold the wording.
-/

set_option autoImplicit false

namespace FieldWire

/-- Why a framed or credit-governed stream failed. -/
inductive StreamError where
  /-- The stream ended before the length of the first message was known. -/
  | missingInitialMessage (received : Nat)
  /-- The stream ended within the first message. -/
  | incompleteInitialMessage (expected received : Nat)
  /-- The first message is longer than the limit. -/
  | initialMessageTooLarge (size max : Nat)
  /-- The consumer cancelled the stream. -/
  | cancelled
  /-- The consumer asked for no items at all. -/
  | invalidDemand (requested : Nat)
  /-- The other side is gone. -/
  | closed
  /-- The producer ended the stream with an error. -/
  | remote (text : String)
  /-- A message failed to decode. -/
  | codec (error : CodecError)
deriving DecidableEq, Repr

/-- The name of the cause. -/
def StreamError.kind : StreamError → String
  | .missingInitialMessage _ => "MissingInitialMessage"
  | .incompleteInitialMessage _ _ => "IncompleteInitialMessage"
  | .initialMessageTooLarge _ _ => "InitialMessageTooLarge"
  | .cancelled => "Cancelled"
  | .invalidDemand _ => "InvalidDemand"
  | .closed => "Closed"
  | .remote _ => "Remote"
  | .codec _ => "Codec"

/-- The text reported for an error. -/
def StreamError.message : StreamError → String
  | .missingInitialMessage received =>
    s!"Stream ended before the initial message header ({received} bytes received)"
  | .incompleteInitialMessage expected received =>
    s!"Stream ended after {received} of {expected} initial message bytes"
  | .initialMessageTooLarge size max => s!"Initial message size {size} exceeds maximum {max}"
  | .cancelled => "Stream cancelled"
  | .invalidDemand requested => s!"Requested {requested} items; demand must be positive"
  | .closed => "Stream closed"
  | .remote text => s!"Stream failed: {text}"
  | .codec error => "Codec error: " ++ error.message

end FieldWire
