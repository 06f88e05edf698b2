import FieldWire.Proofs.Stream.Chunking
import FieldWire.Settings
import FieldWire.Stream.Collector

/-!
# What a stream opens with

The settings and the chunks of a stream determine the initial message, or why there is none, and
the buffers after it.  A collector that has taken chunks in has sent the one, once it was settled,
and has given out the others, whatever the chunks were.
-/

set_option autoImplicit false

namespace FieldWire.Stream

/-- What is left of each chunk behind the first `count` bytes, where something is left. -/
def surplus : Nat → List Bytes → List Bytes
  | _, [] => []
  | count, chunk :: chunks =>
    (if (chunk.drop count).isEmpty then [] else [chunk.drop count]) ++
      surplus (count - chunk.length) chunks

/-- The initial message of a stream, or why it has none. -/
inductive Opening (settings : StreamSettings) (chunks : List Bytes) :
    Except StreamError Bytes → Prop where
  /-- The first encoded object. -/
  | object {tagSize length : Nat} (buffering : settings.bufferInitialMessage = true)
      (announced : Reassembly.Announces chunks.flatten tagSize length)
      (within : tagSize + length ≤ settings.maxInitialMessageSize)
      (complete : tagSize + length ≤ chunks.flatten.length) :
      Opening settings chunks (.ok (chunks.flatten.take (tagSize + length)))
  /-- The first chunk that is not empty. -/
  | chunk {message : Bytes} (direct : settings.bufferInitialMessage = false)
      (first : chunks.find? (fun chunk => !chunk.isEmpty) = some message) :
      Opening settings chunks (.ok message)
  /-- The header is wrong. -/
  | refused {error : StreamError} (buffering : settings.bufferInitialMessage = true)
      (refused : Reassembly.Refuses settings.maxInitialMessageSize chunks.flatten error) :
      Opening settings chunks (.error error)
  /-- The header is not complete. -/
  | headless (buffering : settings.bufferInitialMessage = true)
      (incomplete : Varint.decode chunks.flatten = .ok none) :
      Opening settings chunks (.error (.missingInitialMessage chunks.flatten.length))
  /-- Not all of the first object is there. -/
  | short {tagSize length : Nat} (buffering : settings.bufferInitialMessage = true)
      (announced : Reassembly.Announces chunks.flatten tagSize length)
      (within : tagSize + length ≤ settings.maxInitialMessageSize)
      (short : chunks.flatten.length < tagSize + length) :
      Opening settings chunks
        (.error (.incompleteInitialMessage (tagSize + length) chunks.flatten.length))
  /-- All chunks are empty. -/
  | silent (direct : settings.bufferInitialMessage = false) (empty : chunks.flatten = []) :
      Opening settings chunks (.error (.missingInitialMessage 0))

/-! ## The rest of the chunks -/

theorem surplus_append (count : Nat) (chunks more : List Bytes) :
    surplus count (chunks ++ more) =
      surplus count chunks ++ surplus (count - chunks.flatten.length) more := by
  induction chunks generalizing count with
  | nil => simp [surplus]
  | cons chunk chunks ih => simp [surplus, ih, Nat.sub_sub]

theorem flatten_surplus (count : Nat) (chunks : List Bytes) :
    (surplus count chunks).flatten = chunks.flatten.drop count := by
  induction chunks generalizing count with
  | nil => simp [surplus]
  | cons chunk chunks ih =>
    rw [surplus, List.flatten_append, Reassembly.flatten_nonempty, ih, List.flatten_cons,
      List.drop_append]

theorem nil_notMem_surplus (count : Nat) (chunks : List Bytes) : [] ∉ surplus count chunks := by
  induction chunks generalizing count with
  | nil => simp [surplus]
  | cons chunk chunks ih =>
    rw [surplus, List.mem_append]
    rintro (member | member)
    · exact Reassembly.nil_notMem_nonempty _ member
    · exact ih _ member

theorem surplus_of_length_le {count : Nat} {chunks : List Bytes}
    (inside : chunks.flatten.length ≤ count) : surplus count chunks = [] := by
  have nothing : (surplus count chunks).flatten = [] := by
    rw [flatten_surplus, List.drop_eq_nil_of_le inside]
  have nonempty := nil_notMem_surplus count chunks
  cases rest : surplus count chunks with
  | nil => rfl
  | cons buffer buffers =>
    rw [rest, List.flatten_cons, List.append_eq_nil_iff] at nothing
    exact absurd (by rw [rest, nothing.1]; exact List.mem_cons_self) nonempty

/-- Only the last chunk reaches beyond the count. -/
theorem surplus_concat_of_le {count : Nat} {chunks : List Bytes} (chunk : Bytes)
    (inside : chunks.flatten.length ≤ count) :
    surplus count (chunks ++ [chunk]) =
      if ((chunks.flatten ++ chunk).drop count).isEmpty then []
      else [(chunks.flatten ++ chunk).drop count] := by
  rw [surplus_append, surplus_of_length_le inside, List.drop_append,
    List.drop_eq_nil_of_le inside]
  simp [surplus]

/-- The count lies within the earlier chunks. -/
theorem surplus_concat_of_ge {count : Nat} {chunks : List Bytes} (chunk : Bytes)
    (beyond : count ≤ chunks.flatten.length) :
    surplus count (chunks ++ [chunk]) =
      surplus count chunks ++ if chunk.isEmpty then [] else [chunk] := by
  rw [surplus_append, Nat.sub_eq_zero_of_le beyond]
  simp [surplus]

/-! ## The initial message -/

namespace Reassembly

theorem isEnvelope_of_announces {bytes : Bytes} {tagSize length : Nat}
    (announced : Announces bytes tagSize length) (complete : tagSize + length ≤ bytes.length) :
    LengthTag.IsEnvelope (bytes.take (tagSize + length)) := by
  obtain ⟨tag, decoded, counted⟩ := announced
  obtain ⟨listed, rfl⟩ := (LengthTag.decode_eq_ok_iff _ _ _).mp counted
  refine ⟨tag, tagSize, ?_, listed, List.length_take_of_le complete⟩
  rw [List.take_add]
  exact Varint.decode_append _ (Varint.decode_take decoded)

theorem announces_of_isEnvelope {bytes : Bytes} (envelope : LengthTag.IsEnvelope bytes)
    (tail : Bytes) : ∃ tagSize length, Announces (bytes ++ tail) tagSize length ∧
      bytes.length = tagSize + length := by
  obtain ⟨tag, tagSize, decoded, listed, total⟩ := envelope
  have counted := (LengthTag.decode_eq_ok_iff tag .list _).mpr ⟨listed, rfl⟩
  exact ⟨tagSize, _, ⟨tag, Varint.decode_append tail decoded, counted⟩, total⟩

end Reassembly

/-- The initial message, or why there is none, as it is worked out. -/
def opening (settings : StreamSettings) (chunks : List Bytes) : Except StreamError Bytes :=
  let bytes := chunks.flatten
  if settings.bufferInitialMessage then
    match Reassembly.target? settings.maxInitialMessageSize bytes with
    | .error error => .error error
    | .ok none => .error (.missingInitialMessage bytes.length)
    | .ok (some target) =>
      if target ≤ bytes.length then .ok (bytes.take target)
      else .error (.incompleteInitialMessage target bytes.length)
  else
    match chunks.find? (fun chunk => !chunk.isEmpty) with
    | some message => .ok message
    | none => .error (.missingInitialMessage 0)

namespace Opening

variable {settings : StreamSettings} {chunks : List Bytes} {message : Bytes}

theorem eq_opening {result : Except StreamError Bytes} (opens : Opening settings chunks result) :
    result = opening settings chunks := by
  cases opens with
  | object buffering announced within complete =>
    have header := (Reassembly.target?_eq_some_iff _ _ _).mpr ⟨_, _, announced, rfl, within⟩
    simp [opening, buffering, header, complete, -List.length_flatten]
  | chunk direct first => simp [opening, direct, first]
  | refused buffering refused =>
    have header := (Reassembly.target?_eq_error_iff _ _ _).mpr refused
    simp [opening, buffering, header]
  | headless buffering incomplete =>
    have header := (Reassembly.target?_eq_none_iff settings.maxInitialMessageSize _).mpr incomplete
    simp [opening, buffering, header]
  | short buffering announced within short =>
    have header := (Reassembly.target?_eq_some_iff _ _ _).mpr ⟨_, _, announced, rfl, within⟩
    simp [opening, buffering, header, Nat.not_le.mpr short, -List.length_flatten]
  | silent direct empty =>
    have none : chunks.find? (fun chunk => !chunk.isEmpty) = none := by
      simpa [List.flatten_eq_nil_iff] using empty
    simp [opening, direct, none]

/-- There is one answer. -/
theorem unique {first second : Except StreamError Bytes} (opens : Opening settings chunks first)
    (again : Opening settings chunks second) : first = second :=
  opens.eq_opening.trans again.eq_opening.symm

theorem isPrefix (opens : Opening settings chunks (.ok message)) : message <+: chunks.flatten := by
  cases opens with
  | object => exact List.take_prefix _ _
  | chunk direct first =>
    obtain ⟨_, empties, rest, rfl, empty⟩ := List.find?_eq_some_iff_append.mp first
    have nothing : empties.flatten = [] := by simpa [List.flatten_eq_nil_iff] using empty
    simp [nothing]

theorem length_le (opens : Opening settings chunks (.ok message)) :
    message.length ≤ chunks.flatten.length := opens.isPrefix.length_le

/-- The message and the surplus make up the stream. -/
theorem append_surplus (opens : Opening settings chunks (.ok message)) :
    message ++ (surplus message.length chunks).flatten = chunks.flatten := by
  obtain ⟨rest, whole⟩ := opens.isPrefix
  rw [flatten_surplus, ← whole, List.drop_left]

/-- A message that is there stays when chunks follow. -/
theorem append (opens : Opening settings chunks (.ok message)) (more : List Bytes) :
    Opening settings (chunks ++ more) (.ok message) := by
  cases opens with
  | @object tagSize length buffering announced within complete =>
    obtain ⟨tag, decoded, counted⟩ := announced
    have same : (chunks ++ more).flatten.take (tagSize + length) =
        chunks.flatten.take (tagSize + length) := by
      rw [List.flatten_append, List.take_append_of_le_length complete]
    rw [← same]
    refine .object buffering ⟨tag, ?_, counted⟩ within ?_
    · rw [List.flatten_append]
      exact Varint.decode_append _ decoded
    · rw [List.flatten_append, List.length_append]
      omega
  | chunk direct first =>
    refine .chunk direct ?_
    rw [List.find?_append, first, Option.some_or]

theorem isEnvelope (opens : Opening settings chunks (.ok message))
    (buffering : settings.bufferInitialMessage = true) : LengthTag.IsEnvelope message := by
  cases opens with
  | object _ announced _ complete => exact Reassembly.isEnvelope_of_announces announced complete
  | chunk direct =>
    rw [buffering] at direct
    cases direct

/-- A whole object in front of a stream is its initial message. -/
theorem of_isEnvelope {rest : Bytes} (buffering : settings.bufferInitialMessage = true)
    (envelope : LengthTag.IsEnvelope message)
    (admitted : message.length ≤ settings.maxInitialMessageSize)
    (stream : chunks.flatten = message ++ rest) : Opening settings chunks (.ok message) := by
  obtain ⟨tagSize, length, announced, total⟩ := Reassembly.announces_of_isEnvelope envelope rest
  rw [← stream] at announced
  have front : chunks.flatten.take (tagSize + length) = message := by
    rw [stream, ← total, List.take_left]
  rw [← front]
  refine .object buffering announced (total ▸ admitted) ?_
  rw [stream, List.length_append]
  omega

end Opening

/-! ## Framing -/

/-- Framing after some bytes, however they were cut. -/
def Framing.after (settings : StreamSettings) (bytes : Bytes) : Framing :=
  if settings.bufferInitialMessage then
    .reassembly (Reassembly.after settings.maxInitialMessageSize bytes)
  else .firstChunk (!bytes.isEmpty)

/-- The initial message may still come. -/
def Unsettled (settings : StreamSettings) (chunks : List Bytes) : Prop :=
  if settings.bufferInitialMessage then
    Reassembly.Waiting settings.maxInitialMessageSize chunks.flatten
  else chunks.flatten = []

theorem unsettled_nil (settings : StreamSettings) : Unsettled settings [] := by
  unfold Unsettled
  split
  · exact Reassembly.waiting_nil _
  · rfl

/-- What a chunk gives while the initial message may still come.  The chunk is the last of the
`chunks`. -/
inductive Fed (settings : StreamSettings) (chunks : List Bytes) :
    Except StreamError (List Bytes) → Prop where
  /-- Nothing so far. -/
  | nothing (unsettled : Unsettled settings chunks) : Fed settings chunks (.ok [])
  /-- The initial message and what the chunk brings beyond. -/
  | message {message : Bytes} (opens : Opening settings chunks (.ok message)) :
      Fed settings chunks (.ok (message :: surplus message.length chunks))
  /-- An error that no chunk can mend. -/
  | error {error : StreamError}
      (opens : ∀ more, Opening settings (chunks ++ more) (.error error)) :
      Fed settings chunks (.error error)

theorem flatten_concat (chunks : List Bytes) (chunk : Bytes) :
    (chunks ++ [chunk]).flatten = chunks.flatten ++ chunk := by simp

section Buffering

variable {settings : StreamSettings} {chunks : List Bytes}
  (buffering : settings.bufferInitialMessage = true)

include buffering

theorem unsettled_iff_waiting : Unsettled settings chunks ↔
    Reassembly.Waiting settings.maxInitialMessageSize chunks.flatten := by
  rw [Unsettled, if_pos buffering]

theorem Framing.after_of_buffering (bytes : Bytes) : Framing.after settings bytes =
    .reassembly (Reassembly.after settings.maxInitialMessageSize bytes) := by
  rw [Framing.after, if_pos buffering]

theorem fed_of_waiting
    (waiting : Reassembly.Waiting settings.maxInitialMessageSize chunks.flatten) (chunk : Bytes) :
    ∃ answer,
      (Reassembly.after settings.maxInitialMessageSize chunks.flatten).feed chunk =
        (answer, Reassembly.after settings.maxInitialMessageSize (chunks ++ [chunk]).flatten) ∧
      Fed settings (chunks ++ [chunk]) answer := by
  rw [flatten_concat]
  by_cases more : Reassembly.Waiting settings.maxInitialMessageSize (chunks.flatten ++ chunk)
  · refine ⟨_, Reassembly.feed_of_waiting more, .nothing ?_⟩
    rwa [unsettled_iff_waiting buffering, flatten_concat]
  rcases Reassembly.settled_of_not_waiting more with ⟨target, header, complete⟩ | ⟨error, header⟩
  · refine ⟨_, Reassembly.feed_of_complete waiting header complete, ?_⟩
    obtain ⟨tagSize, length, announced, rfl, within⟩ :=
      (Reassembly.target?_eq_some_iff _ _ _).mp header
    rw [← flatten_concat] at announced complete ⊢
    have size : ((chunks ++ [chunk]).flatten.take (tagSize + length)).length = tagSize + length :=
      List.length_take_of_le complete
    have fed := Fed.message (.object buffering announced within complete)
    rwa [size, surplus_concat_of_le chunk (Reassembly.length_le_of_waiting waiting header),
      ← flatten_concat] at fed
  · have unsettled := Reassembly.unsettled_of_waiting waiting header
    refine ⟨_, Reassembly.feed_of_error (.inl unsettled) header, .error fun more => ?_⟩
    refine .refused buffering ((Reassembly.target?_eq_error_iff _ _ _).mp ?_)
    rw [List.flatten_append, flatten_concat]
    exact Reassembly.target?_append_error _ header

end Buffering

section Direct

variable {settings : StreamSettings} {chunks : List Bytes}
  (direct : settings.bufferInitialMessage = false)

include direct

theorem unsettled_iff_nil : Unsettled settings chunks ↔ chunks.flatten = [] := by
  rw [Unsettled, if_neg (Bool.not_eq_true _ ▸ direct)]

theorem Framing.after_of_direct (bytes : Bytes) :
    Framing.after settings bytes = .firstChunk (!bytes.isEmpty) := by
  rw [Framing.after, if_neg (Bool.not_eq_true _ ▸ direct)]

/-- The first chunk that is not empty is the message, with nothing beyond. -/
theorem fed_of_nil (empty : chunks.flatten = []) (chunk : Bytes) :
    Fed settings (chunks ++ [chunk]) (.ok (if chunk.isEmpty then [] else [chunk])) := by
  have whole : (chunks ++ [chunk]).flatten = chunk := by rw [flatten_concat, empty, List.nil_append]
  cases chunk with
  | nil => exact .nothing ((unsettled_iff_nil direct).mpr whole)
  | cons byte rest =>
    have before : chunks.find? (fun chunk => !chunk.isEmpty) = none := by
      simpa [List.flatten_eq_nil_iff] using empty
    have first : Opening settings (chunks ++ [byte :: rest]) (.ok (byte :: rest)) :=
      .chunk direct (by simp [List.find?_append, before])
    have fed := Fed.message first
    rwa [surplus_of_length_le (by rw [whole])] at fed

end Direct

namespace Framing

variable {settings : StreamSettings} {chunks : List Bytes}

theorem feed_of_unsettled (unsettled : Unsettled settings chunks) (chunk : Bytes) :
    ∃ answer,
      (after settings chunks.flatten).feed chunk =
        (answer, after settings (chunks ++ [chunk]).flatten) ∧
      Fed settings (chunks ++ [chunk]) answer := by
  cases buffering : settings.bufferInitialMessage with
  | true =>
    obtain ⟨answer, fed, gives⟩ :=
      fed_of_waiting buffering ((unsettled_iff_waiting buffering).mp unsettled) chunk
    refine ⟨answer, ?_, gives⟩
    simp only [after_of_buffering buffering, feed, fed]
  | false =>
    have empty := (unsettled_iff_nil buffering).mp unsettled
    refine ⟨_, ?_, fed_of_nil buffering empty chunk⟩
    simp only [after_of_direct buffering, flatten_concat, empty]
    cases chunk with
    | nil => rfl
    | cons => rfl

theorem after_of_opening {message : Bytes} (opens : Opening settings chunks (.ok message)) :
    after settings chunks.flatten =
      if settings.bufferInitialMessage then
        .reassembly ⟨[], .passThrough, settings.maxInitialMessageSize⟩
      else .firstChunk true := by
  have inside := opens.isPrefix
  cases opens with
  | object buffering announced within complete =>
    have header := (Reassembly.target?_eq_some_iff _ _ _).mpr ⟨_, _, announced, rfl, within⟩
    rw [after_of_buffering buffering, Reassembly.after_of_complete header complete, if_pos buffering]
  | chunk direct first =>
    have nonempty : message ≠ [] := by simpa using (List.find?_eq_some_iff_append.mp first).1
    have something : chunks.flatten ≠ [] := fun empty =>
      nonempty (List.prefix_nil.mp (empty ▸ inside))
    rw [after_of_direct direct, if_neg (Bool.not_eq_true _ ▸ direct)]
    simpa [List.isEmpty_iff] using something

/-- After the initial message every chunk is handed on, unless it is empty. -/
theorem feed_of_opening {message : Bytes} (opens : Opening settings chunks (.ok message))
    (chunk : Bytes) :
    (after settings chunks.flatten).feed chunk =
      (.ok (if chunk.isEmpty then [] else [chunk]), after settings (chunks ++ [chunk]).flatten) := by
  rw [after_of_opening opens, after_of_opening (opens.append [chunk])]
  split
  · rfl
  · cases chunk with
    | nil => rfl
    | cons => rfl

/-- A stream that ends before its initial message. -/
theorem finish_of_unsettled (unsettled : Unsettled settings chunks) :
    ∃ error, (after settings chunks.flatten).finish = .error error ∧
      Opening settings chunks (.error error) := by
  cases buffering : settings.bufferInitialMessage with
  | true =>
    rw [after_of_buffering buffering]
    rcases (unsettled_iff_waiting buffering).mp unsettled with none | ⟨target, header, short⟩
    · rw [Reassembly.after_of_none none]
      exact ⟨_, rfl, .headless buffering ((Reassembly.target?_eq_none_iff _ _).mp none)⟩
    · rw [Reassembly.after_of_short header short]
      obtain ⟨tagSize, length, announced, rfl, within⟩ :=
        (Reassembly.target?_eq_some_iff _ _ _).mp header
      exact ⟨_, rfl, .short buffering announced within short⟩
  | false =>
    have empty := (unsettled_iff_nil buffering).mp unsettled
    rw [after_of_direct buffering, empty]
    exact ⟨_, rfl, .silent buffering empty⟩

end Framing

/-! ## Collecting -/

namespace Collector

/-- A collector that has taken in chunks without an error, and what it has given out. -/
inductive Collects (settings : StreamSettings) (chunks : List Bytes) (collector : Collector) :
    List Bytes → Prop where
  /-- The initial message may still come. -/
  | waiting (unsettled : Unsettled settings chunks)
      (framing : collector.framing = Framing.after settings chunks.flatten)
      (unsent : collector.slot.outcome = none) : Collects settings chunks collector []
  /-- The initial message was sent. -/
  | complete {message : Bytes} (opens : Opening settings chunks (.ok message))
      (framing : collector.framing = Framing.after settings chunks.flatten)
      (sent : collector.slot.outcome = some (.ok message)) :
      Collects settings chunks collector (surplus message.length chunks)

/-- A collector that sends an error instead of the initial message. -/
structure Fails (collector later : Collector) (given : List Bytes) (error : StreamError) : Prop where
  nothing : given = []
  unsent : collector.slot.outcome = none
  sent : later.slot.outcome = some (.error error)

variable {settings : StreamSettings} {chunks given : List Bytes} {collector : Collector}

theorem Fails.keeps {later : Collector} {error : StreamError}
    (fails : Fails collector later given error) (result : Except StreamError Bytes)
    (sent : collector.slot.outcome = some result) : later.slot.outcome = some result := by
  rw [fails.unsent] at sent
  cases sent

theorem Collects.congr {later : Collector} (collects : Collects settings chunks collector given)
    (framing : later.framing = collector.framing)
    (outcome : later.slot.outcome = collector.slot.outcome) :
    Collects settings chunks later given := by
  cases collects with
  | waiting unsettled before unsent =>
    exact .waiting unsettled (framing.trans before) (outcome.trans unsent)
  | complete opens before sent =>
    exact .complete opens (framing.trans before) (outcome.trans sent)

theorem fails_fail (unsent : collector.slot.outcome = none) (framing : Framing)
    (error : StreamError) :
    Fails collector ({ collector with framing := framing }.fail error) [] error :=
  ⟨rfl, unsent, by rw [fail, Slot.send, unsent]⟩

/-- One chunk: either the collector goes on, or the initial message is spoiled for good. -/
theorem Collects.feed (collects : Collects settings chunks collector given) (chunk : Bytes) :
    (∃ buffers later, collector.feed chunk = (.ok buffers, later) ∧
      Collects settings (chunks ++ [chunk]) later (given ++ buffers) ∧
      ∀ result, collector.slot.outcome = some result → later.slot.outcome = some result) ∨
    ∃ error later, collector.feed chunk = (.error error, later) ∧
      Fails collector later given error ∧
      ∀ more, Opening settings (chunks ++ [chunk] ++ more) (.error error) := by
  let framing := Framing.after settings (chunks ++ [chunk]).flatten
  let moved : Collector := { collector with framing := framing }
  cases collects with
  | waiting unsettled before unsent =>
    obtain ⟨answer, fed, gives⟩ := Framing.feed_of_unsettled unsettled chunk
    rw [← before] at fed
    cases gives with
    | nothing open_ =>
      refine .inl ⟨[], moved, ?_, .waiting open_ rfl unsent, fun _ => id⟩
      simp [Collector.feed, fed, isComplete, unsent, moved, framing]
    | @message message opens =>
      refine .inl ⟨surplus message.length (chunks ++ [chunk]),
        { moved with slot := collector.slot.send (.ok message) }, ?_, ?_, ?_⟩
      · simp [Collector.feed, fed, isComplete, unsent, moved, framing]
      · exact .complete opens rfl (by rw [Slot.send, unsent])
      · intro result sent
        rw [unsent] at sent
        cases sent
    | @error error opens =>
      refine .inr ⟨error, moved.fail error, ?_, fails_fail unsent framing error, opens⟩
      simp [Collector.feed, fed, moved, framing]
  | @complete message opens before sent =>
    have fed := Framing.feed_of_opening opens chunk
    rw [← before] at fed
    refine .inl ⟨if chunk.isEmpty then [] else [chunk], moved, ?_, ?_, fun _ => id⟩
    · simp [Collector.feed, fed, isComplete, sent, moved, framing]
    · rw [← surplus_concat_of_ge chunk opens.length_le]
      exact .complete (opens.append [chunk]) rfl sent

/-- The end of the stream is an error exactly if the initial message has not come. -/
theorem Collects.finish (collects : Collects settings chunks collector given) :
    (∃ message, collector.finish = (.ok (), collector) ∧
      Opening settings chunks (.ok message) ∧ collector.slot.outcome = some (.ok message) ∧
      given = surplus message.length chunks) ∨
    ∃ error later, collector.finish = (.error error, later) ∧
      Fails collector later given error ∧ Opening settings chunks (.error error) := by
  cases collects with
  | waiting unsettled framing unsent =>
    obtain ⟨error, finished, opens⟩ := Framing.finish_of_unsettled unsettled
    rw [← framing] at finished
    refine .inr ⟨error, collector.fail error, ?_, fails_fail unsent collector.framing error, opens⟩
    simp [Collector.finish, isComplete, unsent, finished]
  | complete opens framing sent =>
    exact .inl ⟨_, by simp [Collector.finish, isComplete, sent], opens, sent, rfl⟩

end Collector

end FieldWire.Stream
