import FieldWire.Proofs.Reader
import FieldWire.Stream.Framing

/-!
# Reassembly does not see how a stream was cut

What reassembly has collected, and how far it has come, is a function of the bytes fed so far:
`after`.  One chunk takes `after bytes` to `after (bytes ++ chunk)`, because a header that is
complete, or beyond mending, stays so when bytes follow it.  A run over any chunks is therefore
settled by their concatenation.
-/

set_option autoImplicit false

namespace FieldWire.Stream.Reassembly

/-- Feeds chunks one after the other and goes on after errors. -/
def feedAll : Reassembly → List Bytes → List (Except StreamError (List Bytes)) × Reassembly
  | state, [] => ([], state)
  | state, chunk :: chunks =>
    let fed := state.feed chunk
    let rest := fed.2.feedAll chunks
    (fed.1 :: rest.1, rest.2)

/-- The bytes begin with a complete length tag of `tagSize` bytes for a span of `length` bytes. -/
def Announces (bytes : Bytes) (tagSize length : Nat) : Prop :=
  ∃ tag, Varint.decode bytes = .ok (some (tag, tagSize)) ∧ LengthTag.decode tag .list = .ok length

/-- The bytes begin with a header for which reassembly gives up. -/
inductive Refuses (limit : Nat) (bytes : Bytes) : StreamError → Prop where
  | malformed {error : CodecError} (decoded : Varint.decode bytes = .error error) :
      Refuses limit bytes (.codec error)
  | scheme {tag : UInt64} {tagSize : Nat}
      (decoded : Varint.decode bytes = .ok (some (tag, tagSize)))
      (other : LengthTag.scheme tag ≠ .list) :
      Refuses limit bytes (.codec (.countSchemeMismatch .list (LengthTag.scheme tag)))
  | tooLarge {tagSize length : Nat} (announced : Announces bytes tagSize length)
      (large : limit < tagSize + length) :
      Refuses limit bytes (.initialMessageTooLarge (tagSize + length) limit)

/-- The state after some bytes, however they were cut. -/
def after (limit : Nat) (bytes : Bytes) : Reassembly :=
  match target? limit bytes with
  | .ok (some target) =>
    if bytes.length < target then ⟨bytes, .payload target, limit⟩ else ⟨[], .passThrough, limit⟩
  | .ok none => ⟨bytes, .header, limit⟩
  | .error _ => ⟨bytes, .header, limit⟩

/-! ## The header -/

theorem target?_eq_none_iff (limit : Nat) (bytes : Bytes) :
    target? limit bytes = .ok none ↔ Varint.decode bytes = .ok none := by
  unfold target?
  split
  · simp [*]
  · simp [*]
  · rename_i tag tagSize decoded
    split
    · simp [decoded]
    · dsimp only
      split <;> simp [decoded]

theorem target?_eq_some_iff (limit : Nat) (bytes : Bytes) (target : Nat) :
    target? limit bytes = .ok (some target) ↔
      ∃ tagSize length, Announces bytes tagSize length ∧ target = tagSize + length ∧
        target ≤ limit := by
  constructor
  · intro found
    unfold target? at found
    split at found
    · cases found
    · cases found
    · rename_i tag tagSize decoded
      split at found
      · cases found
      · rename_i length counted
        dsimp only at found
        split at found
        · rename_i small
          cases found
          exact ⟨tagSize, length, ⟨tag, decoded, counted⟩, rfl, small⟩
        · cases found
  · intro announced
    obtain ⟨tagSize, length, ⟨tag, decoded, counted⟩, rfl, small⟩ := announced
    simp only [target?, decoded, counted, if_pos small]

theorem target?_eq_error_iff (limit : Nat) (bytes : Bytes) (error : StreamError) :
    target? limit bytes = .error error ↔ Refuses limit bytes error := by
  constructor
  · intro found
    unfold target? at found
    split at found
    · rename_i cause decoded
      cases found
      exact .malformed decoded
    · cases found
    · rename_i tag tagSize decoded
      split at found
      · rename_i cause mismatched
        cases found
        unfold LengthTag.decode at mismatched
        split at mismatched
        · cases mismatched
        · rename_i other
          cases mismatched
          exact .scheme decoded other
      · rename_i length counted
        dsimp only at found
        split at found
        · cases found
        · rename_i large
          cases found
          exact .tooLarge ⟨tag, decoded, counted⟩ (by omega)
  · intro refused
    cases refused with
    | malformed decoded => simp only [target?, decoded]
    | scheme decoded other =>
      simp only [target?, decoded, LengthTag.decode, if_neg other]
    | tooLarge announced large =>
      obtain ⟨tag, decoded, counted⟩ := announced
      simp only [target?, decoded, counted, if_neg (Nat.not_le.mpr large)]

theorem target?_append_some {limit : Nat} {bytes : Bytes} {target : Nat} (tail : Bytes)
    (found : target? limit bytes = .ok (some target)) :
    target? limit (bytes ++ tail) = .ok (some target) := by
  obtain ⟨tagSize, length, ⟨tag, decoded, counted⟩, total, small⟩ :=
    (target?_eq_some_iff _ _ _).mp found
  exact (target?_eq_some_iff _ _ _).mpr
    ⟨tagSize, length, ⟨tag, Varint.decode_append tail decoded, counted⟩, total, small⟩

theorem target?_append_error {limit : Nat} {bytes : Bytes} {error : StreamError} (tail : Bytes)
    (found : target? limit bytes = .error error) :
    target? limit (bytes ++ tail) = .error error := by
  have refused := (target?_eq_error_iff _ _ _).mp found
  apply (target?_eq_error_iff _ _ _).mpr
  cases refused with
  | malformed decoded => exact .malformed (Varint.decode_append_error tail decoded)
  | scheme decoded other => exact .scheme (Varint.decode_append tail decoded) other
  | tooLarge announced large =>
    obtain ⟨tag, decoded, counted⟩ := announced
    exact .tooLarge ⟨tag, Varint.decode_append tail decoded, counted⟩ large

/-! ## One chunk -/

/-- The first message is not complete, and nothing is wrong with it so far. -/
def Waiting (limit : Nat) (bytes : Bytes) : Prop :=
  target? limit bytes = .ok none ∨
    ∃ target, target? limit bytes = .ok (some target) ∧ bytes.length < target

theorem waiting_of_append {limit : Nat} {bytes tail : Bytes}
    (waiting : Waiting limit (bytes ++ tail)) : Waiting limit bytes := by
  cases found : target? limit bytes with
  | error error =>
    have same := target?_append_error tail found
    rcases waiting with none | ⟨target, some, _⟩
    · rw [same] at none
      cases none
    · rw [same] at some
      cases some
  | ok header =>
    cases header with
    | none => exact .inl found
    | some target =>
      have same := target?_append_some tail found
      rcases waiting with none | ⟨other, some, short⟩
      · rw [same] at none
        cases none
      · rw [same] at some
        cases some
        rw [List.length_append] at short
        exact .inr ⟨target, found, by omega⟩

theorem settled_of_not_waiting {limit : Nat} {bytes : Bytes} (settled : ¬Waiting limit bytes) :
    (∃ target, target? limit bytes = .ok (some target) ∧ target ≤ bytes.length) ∨
      ∃ error, target? limit bytes = .error error := by
  cases header : target? limit bytes with
  | error error => exact .inr ⟨error, rfl⟩
  | ok parsed =>
    cases parsed with
    | none => exact absurd (.inl header) settled
    | some target =>
      refine .inl ⟨target, rfl, Nat.le_of_not_lt ?_⟩
      intro short
      exact settled (.inr ⟨target, header, short⟩)

theorem unsettled_of_waiting {limit : Nat} {bytes chunk : Bytes} {error : StreamError}
    (waiting : Waiting limit bytes)
    (header : target? limit (bytes ++ chunk) = .error error) : target? limit bytes = .ok none := by
  rcases waiting with none | ⟨target, some, _⟩
  · exact none
  · rw [target?_append_some chunk some] at header
    cases header

/-- A message does not end in bytes that could not complete it. -/
theorem length_le_of_waiting {limit target : Nat} {bytes chunk : Bytes}
    (waiting : Waiting limit bytes)
    (header : target? limit (bytes ++ chunk) = .ok (some target)) : bytes.length ≤ target := by
  rcases waiting with none | ⟨other, some, short⟩
  · obtain ⟨tagSize, length, ⟨tag, decoded, _⟩, rfl, _⟩ := (target?_eq_some_iff _ _ _).mp header
    refine Nat.le_of_not_lt fun enough => ?_
    -- The tag would be complete without the chunk.
    have alone := Varint.decode_append (bytes.drop tagSize) (Varint.decode_take decoded)
    rw [List.take_append_of_le_length (by omega), List.take_append_drop] at alone
    rw [(target?_eq_none_iff _ _).mp none] at alone
    cases alone
  · rw [target?_append_some chunk some] at header
    cases header
    exact Nat.le_of_lt short

theorem after_of_none {limit : Nat} {bytes : Bytes} (header : target? limit bytes = .ok none) :
    after limit bytes = ⟨bytes, .header, limit⟩ := by
  simp only [after, header]

theorem after_of_short {limit target : Nat} {bytes : Bytes}
    (header : target? limit bytes = .ok (some target)) (short : bytes.length < target) :
    after limit bytes = ⟨bytes, .payload target, limit⟩ := by
  simp only [after, header, if_pos short]

theorem after_of_error {limit : Nat} {bytes : Bytes} {error : StreamError}
    (header : target? limit bytes = .error error) :
    after limit bytes = ⟨bytes, .header, limit⟩ := by
  simp only [after, header]

theorem after_of_complete {limit target : Nat} {bytes : Bytes}
    (header : target? limit bytes = .ok (some target)) (complete : target ≤ bytes.length) :
    after limit bytes = ⟨[], .passThrough, limit⟩ := by
  simp only [after, header, if_neg (Nat.not_lt.mpr complete)]

theorem release_of_lt {buffer : Bytes} {stage : Stage} {limit target : Nat}
    (short : buffer.length < target) :
    release ⟨buffer, stage, limit⟩ target = ([], ⟨buffer, .payload target, limit⟩) := by
  have missing : ¬ Bytes.hasAtLeast target buffer = true := by
    rw [Bytes.hasAtLeast_iff]
    omega
  rw [release, if_neg missing]

theorem release_of_le {buffer : Bytes} {stage : Stage} {limit target : Nat}
    (complete : target ≤ buffer.length) :
    release ⟨buffer, stage, limit⟩ target =
      (buffer.take target :: (if (buffer.drop target).isEmpty then [] else [buffer.drop target]),
        ⟨[], .passThrough, limit⟩) := by
  have there : Bytes.hasAtLeast target buffer = true := (Bytes.hasAtLeast_iff _ _).mpr complete
  rw [release, if_pos there]

/-- While bytes are missing, a chunk is only collected. -/
theorem feed_of_waiting {limit : Nat} {bytes chunk : Bytes}
    (waiting : Waiting limit (bytes ++ chunk)) :
    (after limit bytes).feed chunk = (.ok [], after limit (bytes ++ chunk)) := by
  rcases waiting_of_append waiting with header | ⟨target, header, short⟩
  · rw [after_of_none header]
    rcases waiting with none | ⟨target, some, short⟩
    · simp only [feed, none, after_of_none none]
    · simp only [feed, some, release_of_lt short, after_of_short some short]
  · have same := target?_append_some chunk header
    rcases waiting with none | ⟨other, some, stillShort⟩
    · rw [same] at none
      cases none
    · rw [same] at some
      cases some
      rw [after_of_short header short, after_of_short same stillShort]
      simp only [feed, release_of_lt stillShort]

/-- The chunk that completes the message gives it out, and what it brings beyond. -/
theorem feed_of_complete {limit target : Nat} {bytes chunk : Bytes}
    (waiting : Waiting limit bytes) (header : target? limit (bytes ++ chunk) = .ok (some target))
    (complete : target ≤ (bytes ++ chunk).length) :
    (after limit bytes).feed chunk =
      (.ok ((bytes ++ chunk).take target ::
        if ((bytes ++ chunk).drop target).isEmpty then [] else [(bytes ++ chunk).drop target]),
        after limit (bytes ++ chunk)) := by
  rw [after_of_complete header complete]
  rcases waiting with none | ⟨other, some, short⟩
  · rw [after_of_none none]
    simp only [feed, header, release_of_le complete]
  · have same := target?_append_some chunk some
    rw [header] at same
    cases same
    rw [after_of_short some short]
    simp only [feed, release_of_le complete]

/-- A header for which reassembly gives up answers every chunk. -/
theorem feed_of_error {limit : Nat} {bytes chunk : Bytes} {error : StreamError}
    (unsettled : target? limit bytes = .ok none ∨ target? limit bytes = .error error)
    (header : target? limit (bytes ++ chunk) = .error error) :
    (after limit bytes).feed chunk = (.error error, after limit (bytes ++ chunk)) := by
  rw [after_of_error header]
  rcases unsettled with none | same
  · rw [after_of_none none]
    simp only [feed, header]
  · rw [after_of_error same]
    simp only [feed, header]

/-! ## Runs -/

theorem feedAll_cons {state next : Reassembly} {chunk : Bytes} {chunks : List Bytes}
    {answer : Except StreamError (List Bytes)} (fed : state.feed chunk = (answer, next)) :
    state.feedAll (chunk :: chunks) =
      (answer :: (next.feedAll chunks).1, (next.feedAll chunks).2) := by
  rw [feedAll, fed]

theorem feedAll_of_waiting {limit : Nat} {bytes : Bytes} {chunks : List Bytes}
    (waiting : Waiting limit (bytes ++ chunks.flatten)) :
    (after limit bytes).feedAll chunks =
      (chunks.map fun _ => .ok [], after limit (bytes ++ chunks.flatten)) := by
  induction chunks generalizing bytes with
  | nil => simp [feedAll]
  | cons chunk chunks ih =>
    rw [List.flatten_cons, ← List.append_assoc] at waiting
    rw [feedAll_cons (feed_of_waiting (waiting_of_append waiting)), ih waiting]
    simp

theorem feedAll_of_passThrough (limit : Nat) (chunks : List Bytes) :
    (Reassembly.mk [] .passThrough limit).feedAll chunks =
      (chunks.map fun chunk => .ok (if chunk.isEmpty then [] else [chunk]),
        ⟨[], .passThrough, limit⟩) := by
  induction chunks with
  | nil => rfl
  | cons chunk chunks ih =>
    rw [feedAll_cons rfl, ih]
    rfl

theorem flatten_nonempty (buffer : Bytes) :
    (if buffer.isEmpty then [] else [buffer] : List Bytes).flatten = buffer := by
  cases buffer with
  | nil => rfl
  | cons byte rest => simp

theorem flatten_nonempties (chunks : List Bytes) :
    (chunks.map fun chunk => if chunk.isEmpty then [] else [chunk] :
      List (List Bytes)).flatten.flatten = chunks.flatten := by
  induction chunks with
  | nil => rfl
  | cons chunk chunks ih =>
    rw [List.map_cons, List.flatten_cons, List.flatten_append, ih, flatten_nonempty,
      List.flatten_cons]

theorem nil_notMem_nonempty (buffer : Bytes) :
    ([] : Bytes) ∉ (if buffer.isEmpty then [] else [buffer] : List Bytes) := by
  cases buffer with
  | nil => simp
  | cons byte rest => simp

theorem nil_notMem_nonempties (chunks : List Bytes) :
    ([] : Bytes) ∉ (chunks.map fun chunk => if chunk.isEmpty then [] else [chunk] :
      List (List Bytes)).flatten := by
  intro member
  rw [List.mem_flatten] at member
  obtain ⟨buffers, mapped, inside⟩ := member
  obtain ⟨chunk, _, rfl⟩ := List.mem_map.mp mapped
  exact nil_notMem_nonempty chunk inside

/-- Once the message is there it is given out whole, and every byte after it follows in order. -/
theorem feedAll_of_complete {limit target : Nat} {bytes : Bytes} {chunks : List Bytes}
    (waiting : Waiting limit bytes)
    (header : target? limit (bytes ++ chunks.flatten) = .ok (some target))
    (complete : target ≤ (bytes ++ chunks.flatten).length) :
    ∃ buffers : List (List Bytes), ∃ rest : List Bytes,
      (after limit bytes).feedAll chunks = (buffers.map .ok, ⟨[], .passThrough, limit⟩) ∧
      buffers.flatten = (bytes ++ chunks.flatten).take target :: rest ∧
      rest.flatten = (bytes ++ chunks.flatten).drop target ∧ [] ∉ rest := by
  induction chunks generalizing bytes with
  | nil =>
    rw [List.flatten_nil, List.append_nil] at header complete
    rcases waiting with none | ⟨other, some, short⟩
    · rw [header] at none
      cases none
    · rw [header] at some
      cases some
      omega
  | cons chunk chunks ih =>
    rw [List.flatten_cons, ← List.append_assoc] at header complete ⊢
    by_cases more : Waiting limit (bytes ++ chunk)
    · obtain ⟨buffers, rest, ran, first, others, nonempty⟩ := ih more header complete
      refine ⟨[] :: buffers, rest, ?_, ?_, others, nonempty⟩
      · rw [feedAll_cons (feed_of_waiting more), ran]
        rfl
      · rw [List.flatten_cons, List.nil_append, first]
    · have now : target? limit (bytes ++ chunk) = .ok (some target) ∧
          target ≤ (bytes ++ chunk).length := by
        rcases settled_of_not_waiting more with ⟨other, found, enough⟩ | ⟨error, found⟩
        · rw [target?_append_some chunks.flatten found] at header
          cases header
          exact ⟨found, enough⟩
        · rw [target?_append_error chunks.flatten found] at header
          cases header
      obtain ⟨found, enough⟩ := now
      let surplus := (bytes ++ chunk).drop target
      refine ⟨((bytes ++ chunk).take target :: if surplus.isEmpty then [] else [surplus]) ::
          chunks.map fun chunk => if chunk.isEmpty then [] else [chunk],
        (if surplus.isEmpty then [] else [surplus]) ++
          (chunks.map fun chunk => if chunk.isEmpty then [] else [chunk]).flatten, ?_, ?_, ?_, ?_⟩
      · rw [feedAll_cons (feed_of_complete waiting found enough), after_of_complete found enough,
          feedAll_of_passThrough]
        simp only [surplus, List.map_cons, List.map_map, Function.comp_def]
      · rw [List.flatten_cons, List.take_append_of_le_length enough, List.cons_append]
      · rw [List.flatten_append, flatten_nonempty, flatten_nonempties,
          List.drop_append_of_le_length enough]
      · rw [List.mem_append]
        rintro (member | member)
        · exact nil_notMem_nonempty surplus member
        · exact nil_notMem_nonempties chunks member

theorem feedAll_of_error {limit : Nat} {bytes : Bytes} {chunks : List Bytes} {error : StreamError}
    (header : target? limit bytes = .error error) :
    (after limit bytes).feedAll chunks =
      (chunks.map fun _ => .error error, after limit (bytes ++ chunks.flatten)) := by
  induction chunks generalizing bytes with
  | nil => simp [feedAll]
  | cons chunk chunks ih =>
    have same := target?_append_error chunk header
    rw [feedAll_cons (feed_of_error (.inr header) same), ih same]
    simp

/-- The chunk that completes a bad header is the first to be refused, and all later ones are. -/
theorem feedAll_of_refused {limit : Nat} {bytes : Bytes} {chunks : List Bytes}
    {error : StreamError} (open_ : target? limit bytes = .ok none)
    (header : target? limit (bytes ++ chunks.flatten) = .error error) :
    ∃ early last late, chunks = early ++ last :: late ∧
      target? limit (bytes ++ early.flatten) = .ok none ∧
      target? limit (bytes ++ early.flatten ++ last) = .error error ∧
      (after limit bytes).feedAll chunks =
        (early.map (fun _ => .ok []) ++ .error error :: late.map fun _ => .error error,
          after limit (bytes ++ chunks.flatten)) := by
  induction chunks generalizing bytes with
  | nil =>
    rw [List.flatten_nil, List.append_nil, open_] at header
    cases header
  | cons chunk chunks ih =>
    rw [List.flatten_cons, ← List.append_assoc] at header ⊢
    cases found : target? limit (bytes ++ chunk) with
    | error cause =>
      have same := target?_append_error chunks.flatten found
      rw [header] at same
      cases same
      refine ⟨[], chunk, chunks, rfl, ?_, ?_, ?_⟩
      · rw [List.flatten_nil, List.append_nil, open_]
      · rw [List.flatten_nil, List.append_nil, found]
      · rw [feedAll_cons (feed_of_error (.inl open_) found), feedAll_of_error found]
        rfl
    | ok parsed =>
      cases parsed with
      | some target =>
        rw [target?_append_some chunks.flatten found] at header
        cases header
      | none =>
        obtain ⟨early, last, late, cut, before, refused, ran⟩ := ih found header
        refine ⟨chunk :: early, last, late, ?_, ?_, ?_, ?_⟩
        · rw [cut, List.cons_append]
        · rw [List.flatten_cons, ← List.append_assoc, before]
        · rw [List.flatten_cons, ← List.append_assoc, refused]
        · rw [feedAll_cons (feed_of_waiting (.inl found)), ran]
          rfl

/-! ## Streams -/

theorem waiting_nil (limit : Nat) : Waiting limit [] := .inl rfl

theorem object_of_announces {bytes : Bytes} {tagSize length payloadLimit : Nat}
    (announced : Announces bytes tagSize length) (within : length ≤ payloadLimit)
    (complete : tagSize + length ≤ bytes.length) (pos : Nat) :
    Reader.object ⟨bytes, pos, payloadLimit⟩ = .ok (bytes.take (tagSize + length))
      ⟨bytes.drop (tagSize + length), pos + (tagSize + length), payloadLimit⟩ := by
  obtain ⟨tag, decoded, counted⟩ := announced
  obtain ⟨listed, rfl⟩ := (LengthTag.decode_eq_ok_iff _ _ _).mp counted
  have here : Varint.decode (Cursor.mk bytes pos payloadLimit).rest = .ok (some (tag, tagSize)) :=
    decoded
  exact Reader.object_of_decode here listed within complete

/-- What reassembly gives out, and what the end of the stream means, is settled by the bytes of the
stream: the whole first message and all that follows it, or nothing yet, or one error. -/
theorem feedAll_start_of_flatten (limit : Nat) (chunks : List Bytes) :
    let bytes := chunks.flatten
    let run := (start limit).feedAll chunks
    (Varint.decode bytes = .ok none ∨
      (∃ tagSize length, Announces bytes tagSize length ∧ tagSize + length ≤ limit) ∨
      ∃ error, Refuses limit bytes error) ∧
    (∀ tagSize length, Announces bytes tagSize length → tagSize + length ≤ limit →
      tagSize + length ≤ bytes.length →
        (∃ buffers : List (List Bytes), run.1 = buffers.map .ok ∧
          buffers.flatten.head? = some (bytes.take (tagSize + length)) ∧
          buffers.flatten.flatten = bytes ∧ [] ∉ buffers.flatten) ∧
        run.2.finish = .ok () ∧
        ∀ payloadLimit pos, length ≤ payloadLimit →
          Reader.object ⟨bytes, pos, payloadLimit⟩ = .ok (bytes.take (tagSize + length))
            ⟨bytes.drop (tagSize + length), pos + (tagSize + length), payloadLimit⟩) ∧
    (Varint.decode bytes = .ok none →
      run.1 = chunks.map (fun _ => .ok []) ∧
        run.2.finish = .error (.missingInitialMessage bytes.length)) ∧
    (∀ tagSize length, Announces bytes tagSize length → tagSize + length ≤ limit →
      bytes.length < tagSize + length →
        run.1 = chunks.map (fun _ => .ok []) ∧
        run.2.finish = .error (.incompleteInitialMessage (tagSize + length) bytes.length)) ∧
    ∀ error, Refuses limit bytes error →
      (∃ early last late, chunks = early ++ last :: late ∧
        Varint.decode early.flatten = .ok none ∧
        Varint.decode (early.flatten ++ last) ≠ .ok none ∧
        run.1 = early.map (fun _ => .ok []) ++ .error error :: late.map fun _ => .error error) ∧
      run.2.finish = .error (.missingInitialMessage bytes.length) := by
  intro bytes run
  have running : run = (after limit []).feedAll chunks := rfl
  refine ⟨?coverage, ?complete, ?noHeader, ?short, ?refused⟩
  case coverage =>
    cases found : target? limit bytes with
    | error error => exact .inr (.inr ⟨error, (target?_eq_error_iff _ _ _).mp found⟩)
    | ok header =>
      cases header with
      | none => exact .inl ((target?_eq_none_iff _ _).mp found)
      | some target =>
        obtain ⟨tagSize, length, announced, rfl, within⟩ := (target?_eq_some_iff _ _ _).mp found
        exact .inr (.inl ⟨tagSize, length, announced, within⟩)
  case complete =>
    intro tagSize length announced within complete
    have header : target? limit ([] ++ chunks.flatten) = .ok (some (tagSize + length)) :=
      (target?_eq_some_iff _ _ _).mpr ⟨tagSize, length, announced, rfl, within⟩
    obtain ⟨buffers, rest, ran, first, others, nonempty⟩ :=
      feedAll_of_complete (waiting_nil limit) header complete
    have tagPositive : 1 ≤ tagSize := by
      obtain ⟨tag, decoded, _⟩ := announced
      exact Nat.le_trans (Varint.size_pos tag) (Varint.size_le_of_decode decoded)
    have messageNonempty : [] ≠ bytes.take (tagSize + length) := by
      intro same
      have lengths := congrArg List.length same
      rw [List.length_nil, List.length_take] at lengths
      omega
    rw [List.nil_append] at first others
    rw [running, ran]
    refine ⟨⟨buffers, rfl, ?_, ?_, ?_⟩, rfl, ?_⟩
    · rw [first, List.head?_cons]
    · rw [first, List.flatten_cons, others, List.take_append_drop]
    · rw [first, List.mem_cons]
      rintro (same | member)
      · exact messageNonempty same
      · exact nonempty member
    · intro payloadLimit pos small
      exact object_of_announces announced small complete pos
  case noHeader =>
    intro decoded
    have header : target? limit bytes = .ok none := (target?_eq_none_iff _ _).mpr decoded
    rw [running, feedAll_of_waiting (.inl header), List.nil_append, after_of_none header]
    exact ⟨rfl, rfl⟩
  case short =>
    intro tagSize length announced within short
    have header : target? limit bytes = .ok (some (tagSize + length)) :=
      (target?_eq_some_iff _ _ _).mpr ⟨tagSize, length, announced, rfl, within⟩
    rw [running, feedAll_of_waiting (.inr ⟨_, header, short⟩), List.nil_append,
      after_of_short header short]
    exact ⟨rfl, rfl⟩
  case refused =>
    intro error refused
    have empty : target? limit [] = .ok none := rfl
    have header : target? limit ([] ++ chunks.flatten) = .error error :=
      (target?_eq_error_iff _ _ _).mpr refused
    obtain ⟨early, last, late, cut, before, bad, ran⟩ := feedAll_of_refused empty header
    rw [running, ran, after_of_error header]
    refine ⟨⟨early, last, late, cut, (target?_eq_none_iff _ _).mp before, ?_, rfl⟩, rfl⟩
    intro incomplete
    rw [List.nil_append, (target?_eq_none_iff limit _).mpr incomplete] at bad
    cases bad

/-- A message of three bytes that is cut twice and followed by one byte, the same message without
its last byte, its tag alone half way, and a header for varints whose second byte is late. -/
theorem feedAll_start_of_flatten_examples :
    (∃ buffers : List (List Bytes),
      ((start 3).feedAll [[0x08], [], [0xaa], [0xbb, 0xcc]]).1 = buffers.map .ok ∧
        buffers.flatten.head? = some [0x08, 0xaa, 0xbb] ∧
        buffers.flatten.flatten = [0x08, 0xaa, 0xbb, 0xcc]) ∧
    ((start 3).feedAll [[0x08], [], [0xaa]]).2.finish =
      .error (.incompleteInitialMessage 3 2) ∧
    ((start 3).feedAll [[], [0x88]]).2.finish = .error (.missingInitialMessage 1) ∧
    ((start 3).feedAll [[0x81], [0x00], [0x05]]).2.finish =
      .error (.missingInitialMessage 3) := by
  have announced : ∀ tail, Announces (0x08 :: tail) 1 2 := by
    intro tail
    exact ⟨0x08, rfl, rfl⟩
  have refused : Refuses 3 [0x81, 0x00, 0x05]
      (.codec (.countSchemeMismatch .list (LengthTag.scheme 1))) :=
    .scheme rfl (by decide)
  obtain ⟨_, complete, _, _, _⟩ := feedAll_start_of_flatten 3 [[0x08], [], [0xaa], [0xbb, 0xcc]]
  obtain ⟨_, _, _, short, _⟩ := feedAll_start_of_flatten 3 [[0x08], [], [0xaa]]
  obtain ⟨_, _, noHeader, _, _⟩ := feedAll_start_of_flatten 3 [[], [0x88]]
  obtain ⟨_, _, _, _, bad⟩ := feedAll_start_of_flatten 3 [[0x81], [0x00], [0x05]]
  obtain ⟨⟨buffers, ran, first, whole, _⟩, _, _⟩ :=
    complete 1 2 (announced [0xaa, 0xbb, 0xcc]) (by decide) (by decide)
  refine ⟨⟨buffers, ran, first, whole⟩, ?_, ?_, ?_⟩
  · exact (short 1 2 (announced [0xaa]) (by decide) (by decide)).2
  · exact (noHeader rfl).2
  · exact (bad _ refused).2

end FieldWire.Stream.Reassembly
