import FieldWire.Stream.Error

/-!
# Credit

The producer of a stream may send an item only against a credit; the consumer grants credits.  A
producer that finds none waits, and a grant serves those who wait, in the order in which they came,
before it fills the pool.  A credit that was handed to one who waits is his when he resumes; if he
gives up before, it goes to the next, or back into the pool.

Cancelling the pool ends all waiting with an error.  The credits in the pool stay there.
-/

set_option autoImplicit false

namespace FieldWire.Stream

/-- One who waits for a credit. -/
abbrev Ticket := Nat

/-- A pool of credits. -/
structure CreditPool where
  /-- The credits that nobody has. -/
  available : Nat
  /-- Whether the consumer has cancelled. -/
  cancelled : Bool
  /-- Those who wait, in the order in which they came. -/
  waiting : List Ticket
  /-- Those who waited and were handed a credit, but have not resumed. -/
  handed : List Ticket
  /-- The ticket of the next one who has to wait. -/
  next : Ticket
deriving DecidableEq, Repr

/-- What comes of asking for a credit. -/
inductive Acquired where
  /-- A credit was taken. -/
  | taken
  /-- There will be none. -/
  | refused (error : StreamError)
  /-- There is none yet. -/
  | waiting (ticket : Ticket)
deriving DecidableEq, Repr

/-- The credit of a stream unless settings give another. -/
def defaultCredit : Nat := 16

namespace CreditPool

/-- The most credits that a pool holds. -/
def capacity : Nat := 0x1fffffffffffffff

/-- A pool with some credits, as many as it can hold. -/
def start (initial : Nat) : CreditPool := ⟨min initial capacity, false, [], [], 0⟩

/-- Puts credits into the pool, serving those who wait first. -/
def supply (pool : CreditPool) (count : Nat) : CreditPool :=
  let served := pool.waiting.take count
  { pool with
    available := pool.available + (count - served.length)
    waiting := pool.waiting.drop count
    handed := pool.handed ++ served }

/-- Grants credits, as many as the pool can hold. -/
def grant (pool : CreditPool) (count : Nat) : Except StreamError Unit × CreditPool :=
  if count = 0 then (.error (.invalidDemand count), pool)
  else if pool.cancelled then (.error .cancelled, pool)
  else (.ok (), pool.supply (min count (capacity - pool.available)))

/-- Asks for a credit. -/
def acquire (pool : CreditPool) : Acquired × CreditPool :=
  if pool.cancelled then (.refused .cancelled, pool)
  else if 0 < pool.available then (.taken, { pool with available := pool.available - 1 })
  else (.waiting pool.next,
    { pool with waiting := pool.waiting ++ [pool.next], next := pool.next + 1 })

/-- Takes a credit if there is one, and says whether there was. -/
def tryAcquire (pool : CreditPool) : Except StreamError Bool × CreditPool :=
  if pool.cancelled then (.error .cancelled, pool)
  else if 0 < pool.available then (.ok true, { pool with available := pool.available - 1 })
  else (.ok false, pool)

/-- Returns a credit that was handed out and not used. -/
def giveBack (pool : CreditPool) : CreditPool :=
  if pool.cancelled then { pool with available := pool.available + 1 } else pool.supply 1

/-- Gives up waiting. -/
def abandon (pool : CreditPool) (ticket : Ticket) : CreditPool :=
  if pool.handed.contains ticket then
    { pool with handed := pool.handed.erase ticket }.giveBack
  else { pool with waiting := pool.waiting.erase ticket }

/-- Resumes one who waits.  The answer is `none` if he has to go on waiting. -/
def resume (pool : CreditPool) (ticket : Ticket) : Option (Except StreamError Unit) × CreditPool :=
  if pool.cancelled then (some (.error .cancelled), pool.abandon ticket)
  else if pool.handed.contains ticket then
    (some (.ok ()), { pool with handed := pool.handed.erase ticket })
  else (none, pool)

/-- Resumes the holders of some tickets, one after the other.  The answer lists those who are done
waiting, and how it ended for them. -/
def resumeAll (pool : CreditPool) :
    List Ticket → List (Ticket × Except StreamError Unit) × CreditPool
  | [] => ([], pool)
  | ticket :: tickets =>
    match pool.resume ticket with
    | (some answer, pool) =>
      let (done, pool) := pool.resumeAll tickets
      ((ticket, answer) :: done, pool)
    | (none, pool) => pool.resumeAll tickets

/-- Resumes everyone who waits, in the order in which they came. -/
def settle (pool : CreditPool) : List (Ticket × Except StreamError Unit) × CreditPool :=
  pool.resumeAll (pool.handed ++ pool.waiting)

/-- Ends all waiting. -/
def cancel (pool : CreditPool) : CreditPool := { pool with cancelled := true }

end CreditPool

end FieldWire.Stream
