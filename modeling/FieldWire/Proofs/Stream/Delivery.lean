import FieldWire.Proofs.Aging.Schema
import FieldWire.Proofs.Built.Schema
import FieldWire.Proofs.Stream.Splitting

/-!
# What a split stream delivers

When a splitter has stopped, its consumers have got the initial message and all that follows it, or
the same error both.  If the stream is an object followed by other bytes, they have got that object
and those bytes exactly if the object is written behind its right size.
-/

set_option autoImplicit false

namespace FieldWire

/-- The objects that were built, and those that were read and that calls only looked at since. -/
inductive Schema.Obtained (schema : Schema) (standard : schema.isStandard = true) :
    schema.Carrier → Prop where
  | built {object : schema.Carrier} (built : schema.Built standard object) :
      Obtained schema standard object
  | read {bytes : Bytes} {first object : schema.Carrier}
      (accepted : schema.format.deserialize bytes = .ok first)
      (peek : schema.Peek standard first object) : Obtained schema standard object

theorem Schema.Obtained.weighed {schema : Schema} {standard : schema.isStandard = true}
    {object : schema.Carrier} (obtained : schema.Obtained standard object)
    (within : (schema.format.size object).1 ≤ defaultPayloadLimit) :
    schema.format.Weighed (schema.view standard) object := by
  cases obtained with
  | built built =>
    have sound := schema.sound_of_built standard object built
    refine (schema.faithful standard).weighed sound (Nat.lt_of_le_of_lt within ?_)
    decide
  | read accepted peek => exact schema.weighed_of_peek standard accepted peek

namespace Stream

/-- The initial message is an object, and the buffers after it make up the rest of the stream. -/
def Delivers (schema : Schema) (standard : schema.isStandard = true) (object : schema.Carrier)
    (rest : Bytes) (chunks : List Bytes) (result : Except StreamError Bytes) : Prop :=
  ∃ message back, result = .ok message ∧
    decodeMessage schema.format result = .ok back ∧
    (schema.view standard).contents back = (schema.view standard).contents object ∧
    (surplus message.length chunks).flatten = rest

section Objects

variable {settings : StreamSettings} {schema : Schema} {standard : schema.isStandard = true}
  {object : schema.Carrier} {rest : Bytes} {chunks : List Bytes}
  {result : Except StreamError Bytes}

/-- If the size is not right the initial message takes in what follows the object, or is never
complete. -/
theorem delivers_iff (buffering : settings.bufferInitialMessage = true)
    (opens : Opening settings chunks result)
    (stream : chunks.flatten = (schema.format.serialize object).1 ++ rest)
    (admitted : (schema.format.encodedSize object).1 ≤ settings.maxInitialMessageSize)
    (within : (schema.format.size object).1 ≤ defaultPayloadLimit)
    (weighed : schema.format.Weighed (schema.view standard) object) :
    Delivers schema standard object rest chunks result ↔
      (schema.format.size object).1 =
        (schema.format.size ((schema.view standard).forget object)).1 := by
  constructor
  · rintro ⟨message, back, rfl, _, _, others⟩
    have whole := opens.append_surplus
    rw [others, stream] at whole
    rw [List.append_cancel_right whole] at opens
    exact Schema.size_of_isEnvelope weighed (opens.isEnvelope buffering)
  · intro same
    obtain ⟨_, exactly, _⟩ := Schema.reencodes_iff_of_weighed weighed within
    obtain ⟨envelope, back, decoded, contents⟩ := exactly.mpr same
    have length : (schema.format.serialize object).1.length =
        (schema.format.encodedSize object).1 := by
      obtain ⟨written, encoded, _⟩ := weighed.bounds
      have serialized : (schema.format.serialize object).1 = _ := encoded
      rw [serialized, Write.word, LengthTag.isEnvelope_span _ _ weighed.small] at envelope
      rw [serialized, List.length_append, envelope, Write.word, Varint.length_encode]
      rfl
    have first := Opening.of_isEnvelope buffering envelope (length ▸ admitted) stream
    obtain rfl := opens.unique first
    refine ⟨_, back, rfl, ?_, contents, ?_⟩
    · change (schema.format.deserialize (schema.format.serialize object).1).mapError
        StreamError.codec = .ok back
      rw [decoded]
      rfl
    · rw [flatten_surplus, stream, List.drop_left]

end Objects

namespace Session

/-- Whatever the chunks are and whenever credit is granted, both consumers of a splitter that has
stopped get the same verdict: the initial message and all that follows it, or one error.  An object
in front of the stream is the initial message, and is read back, exactly if it remembers its right
size; a built object always does. -/
theorem delivers_of_stopped {settings : StreamSettings} {session : Session}
    (reaches : Reaches settings session) (stopped : session.splitter.hasStopped = true) :
    ∃ result,
      Opening settings session.offered result ∧
      session.splitter.collector.slot.outcome = some result ∧
      (∀ received ∈ session.initials, received = result) ∧
      (let all := answers result session.offered
      ∀ count, all.length ≤ session.events.length + count →
        session.events ++ session.splitter.channel.nexts count =
          all ++ List.replicate (session.events.length + count - all.length) .done) ∧
      (∀ message, result = .ok message →
        message ++ (surplus message.length session.offered).flatten = session.offered.flatten ∧
          [] ∉ surplus message.length session.offered) ∧
      ∀ (schema : Schema) (standard : schema.isStandard = true) (object : schema.Carrier)
        (rest : Bytes), schema.Obtained standard object → settings.bufferInitialMessage = true →
        session.offered.flatten = (schema.format.serialize object).1 ++ rest →
        (schema.format.encodedSize object).1 ≤ settings.maxInitialMessageSize →
        (schema.format.size object).1 ≤ defaultPayloadLimit →
          (Delivers schema standard object rest session.offered result ↔
            (schema.format.size object).1 =
              (schema.format.size ((schema.view standard).forget object)).1) ∧
          (schema.Built standard object →
            Delivers schema standard object rest session.offered result) := by
  obtain ⟨result, resolved, received⟩ := resolved_of_stopped reaches stopped
  refine ⟨result, resolved.opens, resolved.sent, received, fun _ => resolved.yields.nexts, ?_, ?_⟩
  · rintro message rfl
    exact ⟨resolved.opens.append_surplus, nil_notMem_surplus _ _⟩
  · intro schema standard object rest obtained buffering stream admitted within
    have iff := delivers_iff buffering resolved.opens stream admitted within
      (obtained.weighed within)
    refine ⟨iff, fun built => iff.mpr ?_⟩
    have sound := schema.sound_of_built standard object built
    rw [Schema.size_forget (obtained.weighed within)]
    exact (schema.faithful standard).size_eq object sound.valid sound.exact

/-- A list that is cut inside of its length and waits for credit, and a list that was read from more
bytes than it takes, which swallows the byte after it. -/
theorem delivers_of_stopped_example :
    let schema : Schema := .sequence .bool
    let built : schema.Carrier := Sequence.ofList [true]
    let read : schema.Carrier := (⟨[true], some 3⟩ : Sequence Bool)
    (∃ session, Reaches { initialCredit := 0 } session ∧
      session.splitter.hasStopped = true ∧ session.offered = [[0x08], [0x05, 0x02, 0xff]] ∧
      session.splitter.collector.slot.outcome = some (.ok [0x08, 0x05, 0x02]) ∧
      session.events ++ session.splitter.channel.nexts 1 = [.item [0xff], .done] ∧
      Delivers schema rfl built [0xff] session.offered (.ok [0x08, 0x05, 0x02])) ∧
    schema.Obtained rfl read ∧ (schema.format.serialize read).1 = [0x0c, 0x05, 0x02] ∧
    ∃ session, Reaches {} session ∧
      session.splitter.hasStopped = true ∧ session.offered = [[0x0c, 0x05, 0x02], [0xff]] ∧
      session.splitter.collector.slot.outcome = some (.ok [0x0c, 0x05, 0x02, 0xff]) ∧
      session.events ++ session.splitter.channel.nexts 1 = [.done] ∧
      ¬Delivers schema rfl read [0xff] session.offered (.ok [0x0c, 0x05, 0x02, 0xff]) := by
  intro schema built read
  have made : schema.Built rfl built := .step .empty (.ofList fun _ _ => trivial)
  have accepted : schema.format.deserialize [0x0c, 0x05, 0x82, 0x00] = .ok read := rfl
  have obtained : schema.Obtained rfl read := .read accepted .start
  refine ⟨?_, obtained, by decide, ?_⟩
  · let last : Session :=
      ⟨⟨[], true, ⟨.reassembly ⟨[], .passThrough, 16777216⟩,
          ⟨some (.ok [0x08, 0x05, 0x02]), .listening⟩⟩,
        ⟨[], ⟨0, false, [], [], 1⟩, [], false, true, false, false⟩, .stopped⟩,
        [[0x08], [0x05, 0x02, 0xff]], [], [.item [0xff]]⟩
    have reaches : Reaches { initialCredit := 0 } last := by
      refine .head (.offer [0x08] rfl) ?_
      refine .head (.step .arrival rfl) (.head (.step .arrival rfl) ?_)
      refine .head (.offer [0x05, 0x02, 0xff] rfl) (.head .endInput ?_)
      refine .head (.step .arrival rfl) (.head (.step .arrival rfl) ?_)
      refine .head (.request 1) (.head (.step .arrival rfl) ?_)
      refine .head .next (.head (.step .arrival rfl) (.head (.step .arrival rfl) ?_))
      exact .refl
    obtain ⟨result, _, sent, _, events, _, objects⟩ := delivers_of_stopped reaches rfl
    obtain rfl : .ok [0x08, 0x05, 0x02] = result := Option.some.inj sent
    obtain ⟨_, delivers⟩ := objects schema rfl built [0xff] (.built made) rfl (by decide)
      (by decide) (by decide)
    exact ⟨last, reaches, rfl, rfl, sent, events 1 (by decide), delivers made⟩
  · let last : Session :=
      ⟨⟨[], true, ⟨.reassembly ⟨[], .passThrough, 16777216⟩,
          ⟨some (.ok [0x0c, 0x05, 0x02, 0xff]), .listening⟩⟩,
        ⟨[], ⟨16, false, [], [], 0⟩, [], false, true, false, false⟩, .stopped⟩,
        [[0x0c, 0x05, 0x02], [0xff]], [], []⟩
    have reaches : Reaches {} last := by
      refine .head (.offer [0x0c, 0x05, 0x02] rfl) (.head (.offer [0xff] rfl) (.head .endInput ?_))
      refine .head (.step .arrival rfl) (.head (.step .arrival rfl) ?_)
      refine .head (.step .arrival rfl) (.head (.step .arrival rfl) ?_)
      exact .head (.step .arrival rfl) .refl
    obtain ⟨result, _, sent, _, events, _, objects⟩ := delivers_of_stopped reaches rfl
    obtain rfl : .ok [0x0c, 0x05, 0x02, 0xff] = result := Option.some.inj sent
    obtain ⟨exactly, _⟩ := objects schema rfl read [0xff] obtained rfl (by decide) (by decide)
      (by decide)
    refine ⟨last, reaches, rfl, rfl, sent, events 1 (by decide), fun delivers => ?_⟩
    have same := exactly.mp delivers
    revert same
    decide

end Session

end Stream

end FieldWire
