import FieldWire.Proofs.Stream.Splitting
import Mathlib.Data.List.Induction

/-!
# One result for the initial message

Whatever is done with a collector, in whatever order, its slot takes one result and keeps it.  If
nothing but chunks came before, the result is the first buffer that the framing has to give, and what
the collector gives out is all the rest of the stream; or it is the error that the caller was told.
-/

set_option autoImplicit false

namespace FieldWire.Stream

/-- How the initial message is to be found. -/
inductive Policy where
  /-- An object of at most so many bytes is put together. -/
  | buffering (limit : Nat)
  /-- The first chunk that is not empty is taken. -/
  | passThrough
deriving DecidableEq, Repr

namespace Policy

def framing : Policy → Framing
  | .buffering limit => .reassembly (.start limit)
  | .passThrough => .firstChunk false

/-- The settings that ask for a policy. -/
def settings : Policy → StreamSettings
  | .buffering limit => { maxInitialMessageSize := limit }
  | .passThrough => { bufferInitialMessage := false }

theorem framing_eq_after (policy : Policy) :
    policy.framing = Framing.after policy.settings [] := by
  cases policy with
  | buffering limit => rfl
  | passThrough => rfl

end Policy

/-! ## A framing by itself -/

/-- The buffers that an answer brings. -/
def buffersOf : Except StreamError (List Bytes) → List Bytes
  | .ok buffers => buffers
  | .error _ => []

/-- The buffers in the answers to some chunks. -/
def given (answers : List (Except StreamError (List Bytes))) : List Bytes :=
  answers.flatMap buffersOf

theorem given_map_ok (buffers : List (List Bytes)) : given (buffers.map .ok) = buffers.flatten := by
  rw [given, List.flatMap_map]
  exact List.flatMap_id'

theorem given_append (front back : List (Except StreamError (List Bytes))) :
    given (front ++ back) = given front ++ given back := List.flatMap_append

theorem given_eq_nil {answers : List (Except StreamError (List Bytes))}
    (nothing : ∀ answer ∈ answers, buffersOf answer = []) : given answers = [] :=
  List.flatMap_eq_nil_iff.mpr nothing

namespace Framing

/-- Feeds chunks one after the other and goes on after errors. -/
def feedAll : Framing → List Bytes → List (Except StreamError (List Bytes)) × Framing
  | framing, [] => ([], framing)
  | framing, chunk :: chunks =>
    let (answer, framing) := framing.feed chunk
    let (answers, framing) := framing.feedAll chunks
    (answer :: answers, framing)

theorem feedAll_reassembly (state : Reassembly) (chunks : List Bytes) :
    ((Framing.reassembly state).feedAll chunks).1 = (state.feedAll chunks).1 := by
  induction chunks generalizing state with
  | nil => rfl
  | cons chunk chunks ih => exact congrArg ((state.feed chunk).1 :: ·) (ih (state.feed chunk).2)

theorem given_feedAll_firstChunk (seen : Bool) (chunks : List Bytes) :
    given ((Framing.firstChunk seen).feedAll chunks).1 =
      chunks.filter fun chunk => !chunk.isEmpty := by
  induction chunks generalizing seen with
  | nil => rfl
  | cons chunk chunks ih =>
    cases chunk with
    | nil => exact ih seen
    | cons byte rest => exact congrArg ((byte :: rest) :: ·) (ih true)

end Framing

/-- What reassembly gives out comes to nothing unless the whole object is there. -/
theorem given_feedAll_of_not_complete {limit : Nat} {chunks : List Bytes}
    (missing : ∀ target, Reassembly.target? limit chunks.flatten = .ok (some target) →
      chunks.flatten.length < target) :
    given ((Reassembly.after limit []).feedAll chunks).1 = [] := by
  -- nothing is given out before the header is there, nor after it was refused
  by_cases waiting : Reassembly.Waiting limit ([] ++ chunks.flatten)
  · rw [Reassembly.feedAll_of_waiting waiting]
    refine given_eq_nil fun answer member => ?_
    obtain ⟨_, _, rfl⟩ := List.mem_map.mp member
    rfl
  rcases Reassembly.settled_of_not_waiting waiting with ⟨target, header, complete⟩ | ⟨error, header⟩
  · exact absurd complete (Nat.not_le_of_lt (missing target header))
  · obtain ⟨early, last, late, _, _, _, ran⟩ := Reassembly.feedAll_of_refused rfl header
    rw [ran]
    refine given_eq_nil fun answer member => ?_
    rcases List.mem_append.mp member with before | since
    · obtain ⟨_, _, rfl⟩ := List.mem_map.mp before
      rfl
    · rcases List.mem_cons.mp since with rfl | later
      · rfl
      · obtain ⟨_, _, rfl⟩ := List.mem_map.mp later
        rfl

/-- The first buffer that a framing has to give is the initial message of the stream. -/
theorem Policy.head?_given_iff (policy : Policy) (chunks : List Bytes) (message : Bytes) :
    (given (policy.framing.feedAll chunks).1).head? = some message ↔
      Opening policy.settings chunks (.ok message) := by
  cases policy with
  | buffering limit =>
    change (given ((Framing.reassembly (Reassembly.after limit [])).feedAll chunks).1).head? = _ ↔ _
    rw [Framing.feedAll_reassembly]
    by_cases complete : ∃ target, Reassembly.target? limit chunks.flatten = .ok (some target) ∧
        target ≤ chunks.flatten.length
    · obtain ⟨target, header, enough⟩ := complete
      obtain ⟨buffers, rest, ran, first, _⟩ :=
        Reassembly.feedAll_of_complete (Reassembly.waiting_nil limit) header enough
      obtain ⟨tagSize, length, announced, rfl, within⟩ :=
        (Reassembly.target?_eq_some_iff _ _ _).mp header
      have opens : Opening (settings (.buffering limit)) chunks
          (.ok (chunks.flatten.take (tagSize + length))) := .object rfl announced within enough
      rw [ran, given_map_ok, first, List.head?_cons, List.nil_append, Option.some_inj]
      constructor
      · rintro rfl
        exact opens
      · intro other
        exact Except.ok.inj (opens.unique other)
    · have nothing := given_feedAll_of_not_complete fun target header =>
        Nat.lt_of_not_le fun enough => complete ⟨target, header, enough⟩
      rw [nothing]
      refine iff_of_false (fun none => by cases none) fun opens => ?_
      cases opens with
      | object _ announced within enough =>
        exact complete ⟨_, (Reassembly.target?_eq_some_iff _ _ _).mpr
          ⟨_, _, announced, rfl, within⟩, enough⟩
      | chunk direct _ => cases direct
  | passThrough =>
    change (given ((Framing.firstChunk false).feedAll chunks).1).head? = _ ↔ _
    rw [Framing.given_feedAll_firstChunk, List.head?_filter]
    constructor
    · exact .chunk rfl
    · intro opens
      cases opens with
      | object buffering _ _ _ => cases buffering
      | chunk _ first => exact first

/-! ## Calls -/

namespace Collector

/-- What is done with a collector, by its owner or by the receiver of the initial message. -/
inductive Call where
  | feed (chunk : Bytes)
  | finish
  /-- The owner gives up. -/
  | fail (error : StreamError)
  /-- The receiver asks for the result. -/
  | receive
  /-- The receiver goes away. -/
  | dropReceiver

/-- What a call answers. -/
inductive Answer where
  /-- The buffers after the initial message, or an error. -/
  | fed (answer : Except StreamError (List Bytes))
  | finished (answer : Except StreamError Unit)
  | received (receipt : Receipt (Except StreamError Bytes))
  | done

def Call.apply : Call → Collector → Answer × Collector
  | .feed chunk, collector => ((collector.feed chunk).map .fed id)
  | .finish, collector => collector.finish.map .finished id
  | .fail error, collector => (.done, collector.fail error)
  | .receive, collector => collector.receive.map .received id
  | .dropReceiver, collector => (.done, collector.dropReceiver)

def runAll : List Call → Collector → List Answer × Collector
  | [], collector => ([], collector)
  | call :: calls, collector =>
    let (answer, collector) := call.apply collector
    let (answers, collector) := runAll calls collector
    (answer :: answers, collector)

def Answer.fed? : Answer → Option (Except StreamError (List Bytes))
  | .fed answer => some answer
  | _ => none

/-- The results that the receiver was handed. -/
def Answer.results : Answer → List (Except StreamError Bytes)
  | .received receipt => receipt.values
  | _ => []

/-- The calls after which there is a result, whatever there was before. -/
inductive Call.Settles : Call → Answer → Prop where
  | finish (answer : Answer) : Settles .finish answer
  | fail (error : StreamError) (answer : Answer) : Settles (.fail error) answer
  | feed (chunk : Bytes) (error : StreamError) : Settles (.feed chunk) (.fed (.error error))

theorem runAll_append (front back : List Call) (collector : Collector) :
    runAll (front ++ back) collector =
      ((runAll front collector).1 ++ (runAll back (runAll front collector).2).1,
        (runAll back (runAll front collector).2).2) := by
  induction front generalizing collector with
  | nil => rfl
  | cons call front ih =>
    simp only [List.cons_append, runAll, ih]

/-! ## The slot -/

/-- What a call does to the slot. -/
inductive Moves (slot : Slot (Except StreamError Bytes)) :
    Slot (Except StreamError Bytes) → Prop where
  | still : Moves slot slot
  | sent (result : Except StreamError Bytes) : Moves slot (slot.send result)
  | received : Moves slot slot.receive.2
  | dropped : Moves slot slot.drop

variable {slot later : Slot (Except StreamError Bytes)} {collector : Collector}
  {result : Except StreamError Bytes}

theorem outcome_send (slot : Slot (Except StreamError Bytes)) (result : Except StreamError Bytes) :
    (slot.send result).outcome = some (slot.outcome.getD result) := by
  rw [Slot.send]
  split
  · rename_i first there
    rw [there, Option.getD_some]
  · rename_i empty
    rw [empty, Option.getD_none]

theorem receiver_send (slot : Slot (Except StreamError Bytes))
    (result : Except StreamError Bytes) : (slot.send result).receiver = slot.receiver := by
  rw [Slot.send]
  split
  · rfl
  · rfl

theorem Moves.outcome (moves : Moves slot later) (there : slot.outcome = some result) :
    later.outcome = some result := by
  cases moves with
  | still => exact there
  | sent other => rw [outcome_send, there, Option.getD_some]
  | received => exact (Slot.outcome_receive slot).trans there
  | dropped => exact there

/-- A receiver that has got the result, or is gone, does not come back. -/
theorem Moves.receiver (moves : Moves slot later) (deaf : slot.receiver ≠ .listening) :
    later.receiver ≠ .listening := by
  cases moves with
  | still => exact deaf
  | sent other => rwa [receiver_send]
  | received =>
    rw [Slot.receive]
    split
    · exact deaf
    · exact deaf
    · exact deaf
    · exact Receiver.noConfusion
  | dropped => exact Receiver.noConfusion

theorem moves_feed (collector : Collector) (chunk : Bytes) :
    Moves collector.slot (collector.feed chunk).2.slot := by
  rw [feed]
  split
  · exact .sent _
  · dsimp only
    split
    · exact .still
    · split
      · exact .still
      · exact .sent _

theorem moves_finish (collector : Collector) : Moves collector.slot collector.finish.2.slot := by
  rw [finish]
  split
  · exact .still
  · exact .sent _

theorem moves_apply (call : Call) (collector : Collector) :
    Moves collector.slot (call.apply collector).2.slot := by
  cases call with
  | feed chunk => exact moves_feed collector chunk
  | finish => exact moves_finish collector
  | fail error => exact .sent (.error error)
  | receive => exact .received
  | dropReceiver => exact .dropped

theorem outcome_runAll (calls : List Call) (there : collector.slot.outcome = some result) :
    (runAll calls collector).2.slot.outcome = some result := by
  induction calls generalizing collector with
  | nil => exact there
  | cons call calls ih => exact ih ((moves_apply call collector).outcome there)

theorem isComplete_iff (collector : Collector) :
    collector.isComplete = true ↔ ∃ result, collector.slot.outcome = some result :=
  Option.isSome_iff_exists

/-- Ends, failures and errors leave a result behind. -/
theorem Call.Settles.sent {call : Call} (settles : call.Settles (call.apply collector).1) :
    ∃ result, (call.apply collector).2.slot.outcome = some result := by
  generalize told : (call.apply collector).1 = answer at settles
  cases settles with
  | finish =>
    change ∃ result, collector.finish.2.slot.outcome = some result
    rw [Collector.finish]
    split
    · rename_i complete
      exact (isComplete_iff collector).mp complete
    · exact ⟨_, outcome_send _ _⟩
  | fail error => exact ⟨_, outcome_send collector.slot (.error error)⟩
  | feed chunk error =>
    have refused : (collector.feed chunk).1 = .error error := by
      injection told
    change ∃ result, (collector.feed chunk).2.slot.outcome = some result
    rw [Collector.feed] at refused ⊢
    split
    · exact ⟨_, outcome_send _ _⟩
    · rename_i buffers framing fed
      rw [fed] at refused
      dsimp only at refused
      split at refused
      · cases refused
      · split at refused
        · cases refused
        · cases refused

/-! ## The receiver -/

/-- The receiver is handed what is in the slot, and then stops listening. -/
theorem results_apply (call : Call) (collector : Collector) :
    (call.apply collector).1.results = [] ∨
      ∃ result, (call.apply collector).1.results = [result] ∧
        collector.slot.receiver = .listening ∧ collector.slot.outcome = some result ∧
        (call.apply collector).2.slot.receiver ≠ .listening := by
  cases call with
  | feed chunk => exact .inl rfl
  | finish => exact .inl rfl
  | fail error => exact .inl rfl
  | dropReceiver => exact .inl rfl
  | receive =>
    change collector.slot.receive.1.values = [] ∨ ∃ result,
      collector.slot.receive.1.values = [result] ∧ _ ∧ _ ∧ collector.slot.receive.2.receiver ≠ _
    rw [Slot.receive]
    split
    · exact .inl rfl
    · exact .inl rfl
    · exact .inl rfl
    · rename_i result listening there
      exact .inr ⟨result, rfl, listening, there, Receiver.noConfusion⟩

theorem results_of_deaf (calls : List Call) (deaf : collector.slot.receiver ≠ .listening) :
    (runAll calls collector).1.flatMap Answer.results = [] := by
  induction calls generalizing collector with
  | nil => rfl
  | cons call calls ih =>
    have rest := ih ((moves_apply call collector).receiver deaf)
    rcases results_apply call collector with nothing | ⟨_, _, listening, _⟩
    · change (call.apply collector).1.results ++ _ = []
      rw [nothing, List.nil_append]
      exact rest
    · exact absurd listening deaf

/-- The receiver is handed nothing, or once the result that stays. -/
theorem results_runAll (calls : List Call) (collector : Collector) :
    (runAll calls collector).1.flatMap Answer.results = [] ∨
      ∃ result, (runAll calls collector).1.flatMap Answer.results = [result] ∧
        (runAll calls collector).2.slot.outcome = some result := by
  induction calls generalizing collector with
  | nil => exact .inl rfl
  | cons call calls ih =>
    change (call.apply collector).1.results ++
      (runAll calls (call.apply collector).2).1.flatMap Answer.results = [] ∨ ∃ result,
        (call.apply collector).1.results ++
          (runAll calls (call.apply collector).2).1.flatMap Answer.results = [result] ∧ _
    rcases results_apply call collector with nothing | ⟨result, handed, _, there, deaf⟩
    · rw [nothing, List.nil_append]
      exact ih _
    -- the one that was handed out is the one in the slot, which no later call replaces
    · rw [handed, results_of_deaf calls deaf]
      have kept := (moves_apply call collector).outcome there
      exact .inr ⟨result, rfl, outcome_runAll calls kept⟩

/-- One result, at most, for whoever listens; and it is there once the collector says so. -/
structure SendsOnce (calls : List Call) (first : Collector) : Prop where
  /-- The receiver is handed at most one result, and that is the one in the slot. -/
  handed : (runAll calls first).1.flatMap Answer.results = [] ∨
    ∃ result, (runAll calls first).1.flatMap Answer.results = [result] ∧
      (runAll calls first).2.slot.outcome = some result
  /-- A result that has come in the meantime is still there at the end. -/
  lasting : ∀ front back, calls = front ++ back → ∀ result,
    (runAll front first).2.slot.outcome = some result →
      (runAll calls first).2.slot.outcome = some result
  /-- The collector counts as complete if and only if there is a result. -/
  complete : (runAll calls first).2.isComplete = true ↔
    ∃ result, (runAll calls first).2.slot.outcome = some result
  /-- There is one after each call that ends the stream or fails. -/
  settled : ∀ front call back, calls = front ++ call :: back →
    call.Settles (call.apply (runAll front first).2).1 →
      ∃ result, (runAll (front ++ [call]) first).2.slot.outcome = some result

theorem sendsOnce (calls : List Call) (first : Collector) : SendsOnce calls first where
  handed := results_runAll calls first
  lasting front back cut result there := by
    rw [cut, runAll_append]
    exact outcome_runAll back there
  complete := isComplete_iff _
  settled front call back _ settles := by
    rw [runAll_append]
    exact settles.sent

/-! ## Chunks and nothing else -/

/-- The error of the first chunk that was refused. -/
def firstError? (answers : List (Except StreamError (List Bytes))) : Option StreamError :=
  answers.findSome? fun answer => match answer with
    | .ok _ => none
    | .error error => some error

theorem firstError?_append (front back : List (Except StreamError (List Bytes))) :
    firstError? (front ++ back) = (firstError? front).or (firstError? back) :=
  List.findSome?_append

/-- A collector that was fed some chunks and nothing else, with its answers. -/
inductive Fares (settings : StreamSettings) (chunks : List Bytes)
    (answers : List (Except StreamError (List Bytes))) (collector : Collector) : Prop where
  /-- No chunk was refused. -/
  | going (fine : firstError? answers = none)
      (collects : collector.Collects settings chunks (given answers)) :
      Fares settings chunks answers collector
  /-- A chunk was refused, and no other chunk can mend it. -/
  | failed {error : StreamError} (first : firstError? answers = some error)
      (sent : collector.slot.outcome = some (.error error))
      (opens : ∀ more, Opening settings (chunks ++ more) (.error error)) :
      Fares settings chunks answers collector

variable {settings : StreamSettings} {chunks : List Bytes}
  {answers : List (Except StreamError (List Bytes))}

theorem fares_start (policy : Policy) : Fares policy.settings [] [] (start policy.framing) :=
  .going rfl (.waiting (unsettled_nil policy.settings) policy.framing_eq_after rfl)

theorem Fares.feed (fares : Fares settings chunks answers collector) (chunk : Bytes) :
    Fares settings (chunks ++ [chunk]) (answers ++ [(collector.feed chunk).1])
      (collector.feed chunk).2 := by
  cases fares with
  | going fine collects =>
    rcases collects.feed chunk with ⟨buffers, later, fed, goes, _⟩ | ⟨error, later, fed, fails, opens⟩
    · rw [fed]
      refine .going ?_ ?_
      · rw [firstError?_append, fine]
        rfl
      · rw [given_append]
        simpa [given, buffersOf] using goes
    · rw [fed]
      refine .failed ?_ fails.sent opens
      rw [firstError?_append, fine]
      rfl
  | @failed error first sent opens =>
    refine .failed ?_ ((moves_feed collector chunk).outcome sent) fun more => ?_
    · rw [firstError?_append, first, Option.some_or]
    · rw [List.append_assoc]
      exact opens ([chunk] ++ more)

theorem fares_feeds (policy : Policy) (chunks : List Bytes) :
    ∃ answers collector,
      runAll (chunks.map .feed) (start policy.framing) = (answers.map .fed, collector) ∧
        Fares policy.settings chunks answers collector := by
  induction chunks using List.reverseRecOn with
  | nil => exact ⟨[], _, rfl, fares_start policy⟩
  | append_singleton chunks chunk ih =>
    obtain ⟨answers, collector, ran, fares⟩ := ih
    refine ⟨answers ++ [(collector.feed chunk).1], (collector.feed chunk).2, ?_, fares.feed chunk⟩
    rw [List.map_append, runAll_append, ran, List.map_append]
    rfl

/-- What comes of chunks alone.  The framing by itself says whether there is an initial message. -/
structure DeliversFirst (policy : Policy) (chunks : List Bytes)
    (answers : List (Except StreamError (List Bytes))) (collector : Collector) : Prop where
  /-- The first buffer that the framing gives is the result, and the buffers that the collector gives
  out are all that follows it in the stream. -/
  message : ∀ message, (given (policy.framing.feedAll chunks).1).head? = some message →
    firstError? answers = none ∧ collector.slot.outcome = some (.ok message) ∧
      chunks.flatten = message ++ (given answers).flatten ∧ collector.finish = (.ok (), collector)
  /-- The error of the chunk that was refused is the result. -/
  refused : ∀ error, firstError? answers = some error →
    collector.slot.outcome = some (.error error)
  /-- Without either there is no result until the end of the stream, and then it is the error that
  the end is answered with. -/
  ended : given (policy.framing.feedAll chunks).1 = [] → firstError? answers = none →
    given answers = [] ∧ collector.slot.outcome = none ∧ ∃ error,
      collector.finish.1 = .error error ∧ collector.finish.2.slot.outcome = some (.error error)

theorem deliversFirst_of_fares {policy : Policy}
    (fares : Fares policy.settings chunks answers collector) :
    DeliversFirst policy chunks answers collector where
  message message first := by
    have opens := (policy.head?_given_iff chunks message).mp first
    cases fares with
    | failed _ _ never =>
      have other := never []
      rw [List.append_nil] at other
      cases opens.unique other
    | going fine collects =>
      rcases collects.finish with ⟨other, finished, otherOpens, sent, all⟩ | ⟨error, _, _, _, never⟩
      · cases opens.unique otherOpens
        refine ⟨fine, sent, ?_, finished⟩
        rw [all]
        exact opens.append_surplus.symm
      · cases opens.unique never
  refused error first := by
    cases fares with
    | going fine _ =>
      rw [fine] at first
      cases first
    | failed found sent _ =>
      rw [found] at first
      cases first
      exact sent
  ended nothing fine := by
    cases fares with
    | failed found _ _ =>
      rw [found] at fine
      cases fine
    | going _ collects =>
      rcases collects.finish with ⟨message, _, opens, _, _⟩ | ⟨error, later, finished, fails, _⟩
      · have first := (policy.head?_given_iff chunks message).mpr opens
        rw [nothing] at first
        cases first
      · rw [finished]
        exact ⟨fails.nothing, fails.unsent, error, rfl, fails.sent⟩

/-- A collector sends one result, whatever is done with it; and after chunks alone that is the first
buffer of the framing, with the rest of the stream behind it, or the error that was answered. -/
theorem delivers_once (policy : Policy) :
    (∀ calls, SendsOnce calls (start policy.framing)) ∧
    ∀ chunks : List Bytes,
      let run := runAll (chunks.map .feed) (start policy.framing)
      DeliversFirst policy chunks (run.1.filterMap Answer.fed?) run.2 := by
  refine ⟨fun calls => sendsOnce calls _, fun chunks => ?_⟩
  obtain ⟨answers, collector, ran, fares⟩ := fares_feeds policy chunks
  have all : (answers.map Answer.fed).filterMap Answer.fed? = answers := by
    rw [List.filterMap_map]
    exact List.filterMap_some
  rw [ran]
  change DeliversFirst policy chunks ((answers.map Answer.fed).filterMap Answer.fed?) collector
  rw [all]
  exact deliversFirst_of_fares fares

/-- A message of three bytes that is cut twice and followed by two chunks, a stream that ends within
it, one that is too long, and a collector that had given up before the message came. -/
theorem delivers_once_examples :
    let first := start (.reassembly (.start 3))
    let whole := runAll ([[0x08], [0xaa], [0xbb, 0xcc], [0xdd]].map .feed) first
    let cut := runAll ([[0x08], [0xaa]].map .feed) first
    let long := runAll ([[], [0x08]].map .feed) (start (.reassembly (.start 2)))
    let abandoned := runAll [.feed [0x08], .fail .cancelled, .feed [0xaa, 0xbb], .receive] first
    (whole.2.slot.outcome = some (.ok [0x08, 0xaa, 0xbb]) ∧
      [0x08, 0xaa, 0xbb, 0xcc, 0xdd] =
        [0x08, 0xaa, 0xbb] ++ (given (whole.1.filterMap Answer.fed?)).flatten) ∧
    (∃ error, cut.2.finish.1 = .error error ∧ cut.2.finish.2.slot.outcome = some (.error error)) ∧
    long.2.slot.outcome = some (.error (.initialMessageTooLarge 3 2)) ∧
    abandoned.2.slot.outcome = some (.error .cancelled) := by
  intro first whole cut long abandoned
  obtain ⟨once, feeds⟩ := delivers_once (.buffering 3)
  obtain ⟨_, feedsShort⟩ := delivers_once (.buffering 2)
  obtain ⟨_, sent, stream, _⟩ :=
    (feeds [[0x08], [0xaa], [0xbb, 0xcc], [0xdd]]).message [0x08, 0xaa, 0xbb] rfl
  obtain ⟨_, _, ended⟩ := (feeds [[0x08], [0xaa]]).ended rfl rfl
  have refused := (feedsShort [[], [0x08]]).refused _ rfl
  have kept := (once [.feed [0x08], .fail .cancelled, .feed [0xaa, 0xbb], .receive]).lasting
    [.feed [0x08], .fail .cancelled] _ rfl _ rfl
  exact ⟨⟨sent, stream⟩, ended, refused, kept⟩

end Collector

end FieldWire.Stream
