import FieldWire.Proofs.Stream.Collecting

/-!
# What feeding a collector returns

A collector keeps the first buffer that its framing gives back for the slot, provided that the slot
is still empty when the buffer comes.  When its owner has ended the stream or given up before that,
the slot holds an error already, and the buffer with the initial message is returned with the others.

What is returned is therefore made of what the framing gives, by the result in the slot alone, and
what the owner did before the initial message was there decides about that result.
-/

set_option autoImplicit false

namespace FieldWire.Stream

/-! ## Framing over a run -/

namespace Framing

theorem feedAll_append (framing : Framing) (front back : List Bytes) :
    framing.feedAll (front ++ back) =
      ((framing.feedAll front).1 ++ ((framing.feedAll front).2.feedAll back).1,
        ((framing.feedAll front).2.feedAll back).2) := by
  induction front generalizing framing with
  | nil => simp [feedAll]
  | cons chunk front ih => simp [feedAll, ih]

end Framing

namespace Collector

def Call.chunk? : Call → Option Bytes
  | .feed chunk => some chunk
  | _ => none

/-- The chunks among some calls. -/
def fedBy (calls : List Call) : List Bytes := calls.filterMap Call.chunk?

/-- What feeding has returned, in some answers. -/
def returnedBy (answers : List Answer) : List Bytes := given (answers.filterMap Answer.fed?)

theorem fedBy_concat (calls : List Call) (call : Call) :
    fedBy (calls ++ [call]) = fedBy calls ++ call.chunk?.toList := by
  cases call <;> simp [fedBy, Call.chunk?]

theorem returnedBy_append (front back : List Answer) :
    returnedBy (front ++ back) = returnedBy front ++ returnedBy back := by
  simp [returnedBy, given]

theorem framing_feed (collector : Collector) (chunk : Bytes) :
    (collector.feed chunk).2.framing = (collector.framing.feed chunk).2 := by
  rw [feed]
  split
  · simp [fail, *]
  · rename_i buffers framing fed
    dsimp only
    split
    · simp [fed]
    · cases buffers <;> simp [fed]

theorem framing_finish (collector : Collector) :
    collector.finish.2.framing = collector.framing := by
  rw [finish]
  split <;> simp [fail]

theorem framing_apply (call : Call) (collector : Collector) :
    (call.apply collector).2.framing = (collector.framing.feedAll call.chunk?.toList).2 := by
  cases call with
  | feed chunk => exact framing_feed collector chunk
  | finish => exact framing_finish collector
  | fail error => simp [Call.apply, Call.chunk?, Framing.feedAll, fail]
  | receive => simp [Call.apply, Call.chunk?, Framing.feedAll, receive]
  | dropReceiver => simp [Call.apply, Call.chunk?, Framing.feedAll, dropReceiver]

theorem framing_runAll (calls : List Call) (collector : Collector) :
    (runAll calls collector).2.framing = (collector.framing.feedAll (fedBy calls)).2 := by
  induction calls using List.reverseRecOn with
  | nil => simp [runAll, fedBy, Framing.feedAll]
  | append_singleton calls call ih =>
    rw [runAll_append, fedBy_concat, Framing.feedAll_append, ← ih]
    exact framing_apply call _

/-! ## What is returned and what is given -/

/-- What has been returned when the framing has given some buffers and the slot has this content. -/
def Leaves (outcome : Option (Except StreamError Bytes)) (buffers returned : List Bytes) : Prop :=
  match outcome with
  | none => buffers = [] ∧ returned = []
  | some (.ok message) => buffers = message :: returned
  | some (.error _) => returned = buffers

variable {collector : Collector} {buffers returned : List Bytes}

theorem Leaves.fail (leaves : Leaves collector.slot.outcome buffers returned)
    (error : StreamError) :
    Leaves (collector.slot.send (.error error)).outcome buffers returned := by
  rw [outcome_send]
  cases held : collector.slot.outcome with
  | none =>
    obtain ⟨rfl, rfl⟩ : buffers = [] ∧ returned = [] := by simpa [Leaves, held] using leaves
    simp [Leaves]
  | some result => simpa [held] using leaves

theorem Leaves.feed (leaves : Leaves collector.slot.outcome buffers returned) (chunk : Bytes) :
    Leaves (collector.feed chunk).2.slot.outcome
      (buffers ++ buffersOf (collector.framing.feed chunk).1)
      (returned ++ buffersOf (collector.feed chunk).1) := by
  rw [Collector.feed]
  split
  · rename_i error framing fed
    simpa [fed, buffersOf, Collector.fail] using leaves.fail error
  rename_i more framing fed
  cases held : collector.slot.outcome with
  | none =>
    obtain ⟨rfl, rfl⟩ : buffers = [] ∧ returned = [] := by simpa [Leaves, held] using leaves
    cases more with
    | nil => simp [fed, buffersOf, Leaves, isComplete, held]
    | cons message rest => simp [fed, buffersOf, Leaves, isComplete, held, outcome_send]
  | some result =>
    -- the slot is taken, and all that the framing gives is passed on
    rw [held] at leaves
    cases result with
    | ok message =>
      have all : buffers = message :: returned := leaves
      simp [fed, buffersOf, Leaves, isComplete, held, all]
    | error error =>
      have all : returned = buffers := leaves
      simp [fed, buffersOf, Leaves, isComplete, held, all]

theorem Leaves.apply (leaves : Leaves collector.slot.outcome buffers returned) (call : Call) :
    Leaves (call.apply collector).2.slot.outcome
      (buffers ++ given (collector.framing.feedAll call.chunk?.toList).1)
      (returned ++ returnedBy [(call.apply collector).1]) := by
  cases call with
  | feed chunk =>
    simpa [Call.apply, Call.chunk?, Framing.feedAll, returnedBy, Answer.fed?, given]
      using leaves.feed chunk
  -- the other calls neither feed the framing nor return anything
  | finish =>
    change Leaves collector.finish.2.slot.outcome (buffers ++ []) (returned ++ [])
    rw [List.append_nil, List.append_nil, finish]
    split
    · exact leaves
    · exact leaves.fail _
  | fail error =>
    change Leaves (collector.slot.send _).outcome (buffers ++ []) (returned ++ [])
    simpa using leaves.fail error
  | receive =>
    change Leaves collector.slot.receive.2.outcome (buffers ++ []) (returned ++ [])
    simpa [Slot.outcome_receive] using leaves
  | dropReceiver =>
    change Leaves collector.slot.outcome (buffers ++ []) (returned ++ [])
    simpa using leaves

theorem leaves_runAll (framing : Framing) (calls : List Call) :
    Leaves (runAll calls (start framing)).2.slot.outcome
      (given (framing.feedAll (fedBy calls)).1)
      (returnedBy (runAll calls (start framing)).1) := by
  induction calls using List.reverseRecOn with
  | nil => exact ⟨rfl, rfl⟩
  | append_singleton calls call ih =>
    have later := ih.apply call
    rw [framing_runAll, ← given_append, ← returnedBy_append] at later
    rw [runAll_append, fedBy_concat, Framing.feedAll_append]
    exact later

/-! ## What the framing of a policy gives -/

variable {policy : Policy} {chunks : List Bytes} {message : Bytes}

theorem fedBy_feeds (chunks : List Bytes) : fedBy (chunks.map .feed) = chunks := by
  simp [fedBy, List.filterMap_map, Function.comp_def, Call.chunk?]

theorem given_of_opening (opens : Opening policy.settings chunks (.ok message)) :
    given (policy.framing.feedAll chunks).1 = message :: surplus message.length chunks := by
  -- fed with chunks alone, the collector keeps the message and returns the surplus
  obtain ⟨answers, collector, ran, fares⟩ := fares_feeds policy chunks
  have leaves := leaves_runAll policy.framing (chunks.map .feed)
  have all : returnedBy (answers.map Answer.fed) = given answers := by
    simp [returnedBy, List.filterMap_map, Function.comp_def, Answer.fed?]
  rw [ran, fedBy_feeds, all] at leaves
  cases fares with
  | failed _ _ refused =>
    have other := refused []
    rw [List.append_nil] at other
    cases opens.unique other
  | going _ collects =>
    rcases collects.finish with ⟨first, _, firstOpens, sent, rest⟩ | ⟨_, _, _, _, never⟩
    · cases opens.unique firstOpens
      rw [sent, rest] at leaves
      exact leaves
    · cases opens.unique never

theorem given_of_no_opening (none : ∀ message, ¬Opening policy.settings chunks (.ok message)) :
    given (policy.framing.feedAll chunks).1 = [] := by
  cases buffers : given (policy.framing.feedAll chunks).1 with
  | nil => rfl
  | cons message rest =>
    exact absurd ((policy.head?_given_iff chunks message).mp (by rw [buffers]; rfl)) (none message)

theorem pos_of_opening (opens : Opening policy.settings chunks (.ok message)) :
    0 < message.length := by
  cases opens with
  | object _ announced _ complete =>
    obtain ⟨tag, decoded, _⟩ := announced
    have size := Nat.le_trans (Varint.size_pos tag) (Varint.size_le_of_decode decoded)
    rw [List.length_take_of_le complete]
    omega
  | chunk _ first =>
    have nonempty : message ≠ [] := by simpa using List.find?_some first
    exact List.length_pos_iff.mpr nonempty

/-- A framing that refuses a chunk has given nothing, and will give nothing. -/
theorem no_opening_of_refused {chunk : Bytes} {error : StreamError}
    (refused : ((policy.framing.feedAll chunks).2.feed chunk).1 = .error error)
    (more : List Bytes) (message : Bytes) :
    ¬Opening policy.settings (chunks ++ chunk :: more) (.ok message) := by
  intro opens
  obtain ⟨answers, collector, ran, fares⟩ := fares_feeds policy chunks
  have current : collector.framing = (policy.framing.feedAll chunks).2 := by
    have all := framing_runAll (chunks.map .feed) (start policy.framing)
    rwa [ran, fedBy_feeds] at all
  cases fares with
  | failed _ _ never => cases opens.unique (never (chunk :: more))
  | going _ collects =>
    rcases collects.feed chunk with ⟨_, _, fed, _⟩ | ⟨_, _, _, _, never⟩
    · rw [← current] at refused
      rw [Collector.feed] at fed
      split at fed
      · cases fed
      · rename_i accepted
        rw [accepted] at refused
        cases refused
    · rw [List.append_cons] at opens
      cases opens.unique (never more)

/-! ## Ending early -/

/-- The calls with which the owner fills an empty slot, whatever the chunks were. -/
inductive Call.Ends : Call → Prop where
  | finish : Ends .finish
  | fail (error : StreamError) : Ends (.fail error)

/-- The stream was ended, or given up, before the initial message was complete. -/
def EndsEarly (policy : Policy) (calls : List Call) : Prop :=
  ∃ front call back, calls = front ++ call :: back ∧ call.Ends ∧
    ∀ message, ¬Opening policy.settings (fedBy front) (.ok message)

theorem EndsEarly.concat {calls : List Call} (early : EndsEarly policy calls) (call : Call) :
    EndsEarly policy (calls ++ [call]) := by
  obtain ⟨front, ending, back, rfl, ends, none⟩ := early
  exact ⟨front, ending, back ++ [call], by simp, ends, none⟩

theorem Call.Ends.outcome {call : Call} (ends : call.Ends)
    (unheld : ∀ message, collector.slot.outcome ≠ some (.ok message)) :
    ∃ error, (call.apply collector).2.slot.outcome = some (.error error) := by
  cases held : collector.slot.outcome with
  | none =>
    cases ends with
    | fail error => exact ⟨error, by simp [Call.apply, Collector.fail, outcome_send, held]⟩
    | finish => simp [Call.apply, Collector.finish, isComplete, Collector.fail, outcome_send, held]
  | some result =>
    cases result with
    | ok message => exact absurd held (unheld message)
    | error error => exact ⟨error, (moves_apply call collector).outcome held⟩

theorem outcome_of_endsEarly {calls : List Call} (early : EndsEarly policy calls) :
    ∃ error, (runAll calls (start policy.framing)).2.slot.outcome = some (.error error) := by
  obtain ⟨front, call, back, rfl, ends, none⟩ := early
  have leaves := leaves_runAll policy.framing front
  rw [given_of_no_opening none] at leaves
  have unheld (message : Bytes) :
      (runAll front (start policy.framing)).2.slot.outcome ≠ some (.ok message) := by
    intro held
    rw [held] at leaves
    cases leaves
  obtain ⟨error, sent⟩ := ends.outcome unheld
  refine ⟨error, ?_⟩
  rw [runAll_append]
  exact outcome_runAll back sent

/-- An empty slot that a chunk fills with an error: the framing has refused the chunk. -/
theorem refused_of_outcome {chunk : Bytes} {error : StreamError}
    (unset : collector.slot.outcome = none)
    (sent : (collector.feed chunk).2.slot.outcome = some (.error error)) :
    (collector.framing.feed chunk).1 = .error error := by
  rw [Collector.feed] at sent
  split at sent
  · rename_i answer
    simpa [Collector.fail, outcome_send, unset, answer] using sent
  · rename_i buffers _ _
    cases buffers with
    | nil => simp [isComplete, unset] at sent
    | cons first rest => simp [isComplete, unset, outcome_send] at sent

/-- An error in the slot of a stream with an initial message was put there by the owner. -/
theorem endsEarly_of_outcome {calls : List Call} {error : StreamError}
    (sent : (runAll calls (start policy.framing)).2.slot.outcome = some (.error error))
    {more : List Bytes} (opens : Opening policy.settings (fedBy calls ++ more) (.ok message)) :
    EndsEarly policy calls := by
  induction calls using List.reverseRecOn generalizing more with
  | nil => cases sent
  | append_singleton calls call ih =>
    have leaves := leaves_runAll policy.framing calls
    rw [runAll_append] at sent
    generalize reached : (runAll calls (start policy.framing)).2 = collector at ih leaves sent
    rw [fedBy_concat, List.append_assoc] at opens
    have moved : (call.apply collector).2.slot.outcome = some (.error error) := sent
    cases held : collector.slot.outcome with
    | some result =>
      -- the error was there before this call
      have kept := (moves_apply call collector).outcome held
      rw [moved] at kept
      rw [← kept] at held
      exact (ih held opens).concat call
    | none =>
      rw [held] at leaves
      have silent : ∀ message, ¬Opening policy.settings (fedBy calls) (.ok message) := by
        intro message opened
        have buffers := given_of_opening opened
        rw [leaves.1] at buffers
        cases buffers
      cases call with
      | finish => exact ⟨calls, .finish, [], rfl, .finish, silent⟩
      | fail failure => exact ⟨calls, .fail failure, [], rfl, .fail failure, silent⟩
      | receive =>
        have same : collector.slot.receive.2.outcome = some (.error error) := moved
        rw [Slot.outcome_receive, held] at same
        cases same
      | dropReceiver =>
        have same : collector.slot.outcome = some (.error error) := moved
        rw [held] at same
        cases same
      | feed chunk =>
        have current : collector.framing = (policy.framing.feedAll (fedBy calls)).2 := by
          rw [← reached, framing_runAll]
          rfl
        have fed : (collector.feed chunk).2.slot.outcome = some (.error error) := moved
        have refused := refused_of_outcome held fed
        rw [current] at refused
        exact absurd opens (no_opening_of_refused refused more message)

/-! ## Every run of calls -/

/-- What feeding returned over a whole run.  With an initial message in the stream, it is what the
chunks bring after the message, unless the owner had ended the stream or given up before the message
was complete: then the message comes first, and so bytes of it are returned.  Without an initial
message nothing is returned. -/
theorem returned_of_calls (policy : Policy) (calls : List Call) :
    let run := runAll calls (start policy.framing)
    let chunks := fedBy calls
    let returned := returnedBy run.1
    (∀ message, Opening policy.settings chunks (.ok message) →
      (¬EndsEarly policy calls → returned = surplus message.length chunks ∧
        run.2.slot.outcome = some (.ok message)) ∧
      (EndsEarly policy calls → returned = message :: surplus message.length chunks ∧
        ∃ error, run.2.slot.outcome = some (.error error)) ∧
      (returned.flatten <+: chunks.flatten.drop message.length ↔ ¬EndsEarly policy calls)) ∧
    ((∀ message, ¬Opening policy.settings chunks (.ok message)) → returned = []) := by
  intro run chunks returned
  have leaves : Leaves run.2.slot.outcome (given (policy.framing.feedAll chunks).1) returned :=
    leaves_runAll policy.framing calls
  refine ⟨fun message opens => ?_, fun none => ?_⟩
  · rw [given_of_opening opens] at leaves
    have late : EndsEarly policy calls → returned = message :: surplus message.length chunks ∧
        ∃ error, run.2.slot.outcome = some (.error error) := by
      intro early
      obtain ⟨error, sent⟩ := outcome_of_endsEarly early
      change run.2.slot.outcome = _ at sent
      rw [sent] at leaves
      exact ⟨leaves, error, sent⟩
    have inTime : ¬EndsEarly policy calls → returned = surplus message.length chunks ∧
        run.2.slot.outcome = some (.ok message) := by
      intro patient
      cases held : run.2.slot.outcome with
      | none =>
        rw [held] at leaves
        cases leaves.1
      | some result =>
        cases result with
        | error error =>
          have all : Opening policy.settings (chunks ++ []) (.ok message) := by
            rwa [List.append_nil]
          exact absurd (endsEarly_of_outcome held all) patient
        | ok first =>
          rw [held] at leaves
          obtain ⟨rfl, rest⟩ := List.cons_eq_cons.mp leaves
          exact ⟨rest.symm, rfl⟩
    refine ⟨inTime, late, fun law early => ?_, fun patient => ?_⟩
    · -- the whole stream was returned, which is longer than what follows the message
      rw [(late early).1, List.flatten_cons, flatten_surplus] at law
      have size := law.length_le
      have inside := opens.length_le
      have positive := pos_of_opening opens
      simp only [List.length_append, List.length_drop] at size
      omega
    · simp [(inTime patient).1, flatten_surplus]
  · rw [given_of_no_opening none] at leaves
    cases held : run.2.slot.outcome with
    | none =>
      rw [held] at leaves
      exact leaves.2
    | some result =>
      rw [held] at leaves
      cases result with
      | ok message => cases leaves
      | error error => exact leaves

/-- A message of three bytes and a byte after it; the same message with the stream ended inside it;
and a stream that stays inside it. -/
theorem returned_of_calls_examples :
    let policy := Policy.buffering 3
    let first := start policy.framing
    let whole := [Call.feed [0x08, 0x09], .feed [0x02, 0xff], .finish]
    let ended := [Call.feed [0x08, 0x09], .finish, .feed [0x02]]
    (¬EndsEarly policy whole ∧ returnedBy (runAll whole first).1 = [[0xff]]) ∧
      (EndsEarly policy ended ∧ returnedBy (runAll ended first).1 = [[0x08, 0x09, 0x02]] ∧
        ∃ error, (runAll ended first).2.slot.outcome = some (.error error)) ∧
      returnedBy (runAll [.feed [0x08], .feed [0x09]] first).1 = [] := by
  intro policy first whole ended
  have opens : Opening policy.settings (fedBy whole) (.ok [0x08, 0x09, 0x02]) :=
    (policy.head?_given_iff _ _).mp rfl
  have opensLate : Opening policy.settings (fedBy ended) (.ok [0x08, 0x09, 0x02]) :=
    (policy.head?_given_iff _ _).mp rfl
  have silent (message : Bytes) : ¬Opening policy.settings [[0x08, 0x09]] (.ok message) := by
    intro early
    cases (policy.head?_given_iff _ _).mpr early
  have silentAlone (message : Bytes) :
      ¬Opening policy.settings (fedBy [.feed [0x08], .feed [0x09]]) (.ok message) := by
    intro early
    cases (policy.head?_given_iff _ _).mpr early
  obtain ⟨inTime, _, law⟩ := (returned_of_calls policy whole).1 _ opens
  obtain ⟨_, late, _⟩ := (returned_of_calls policy ended).1 _ opensLate
  have patient : ¬EndsEarly policy whole := law.mp (List.prefix_rfl)
  have early : EndsEarly policy ended := ⟨[.feed [0x08, 0x09]], .finish, _, rfl, .finish, silent⟩
  exact ⟨⟨patient, (inTime patient).1⟩, ⟨early, (late early).1, (late early).2⟩,
    (returned_of_calls policy _).2 silentAlone⟩

end Collector

end FieldWire.Stream
