import FieldWire.Proofs.Stream.Chunking
import FieldWire.Proofs.Varint.Classification

/-!
# What reassembly holds between two chunks

As long as no chunk is refused, the bytes held are all that came in, until the first message can be
given out, and none afterwards.  Before the length is known they are the front of a varint, so at
most nine; then they are fewer than the message takes, which is at most the limit.  `Holds` says
this stage by stage, and one chunk preserves it, also if it takes reassembly through two stages.
-/

set_option autoImplicit false

namespace FieldWire.Stream

/-- Where reassembly may stand after it has stood somewhere: it does not go back, and it does not
change its mind about the length. -/
inductive Stage.Onward : Stage → Stage → Prop where
  | header (stage : Stage) : Onward .header stage
  | waiting (target : Nat) : Onward (.payload target) (.payload target)
  | complete (target : Nat) : Onward (.payload target) .passThrough
  | passThrough : Onward .passThrough .passThrough

theorem Stage.Onward.refl (stage : Stage) : stage.Onward stage := by
  cases stage with
  | header => exact .header _
  | payload target => exact .waiting target
  | passThrough => exact .passThrough

theorem Stage.Onward.trans {first second third : Stage} (early : first.Onward second)
    (late : second.Onward third) : first.Onward third := by
  cases early with
  | header => exact .header third
  | waiting => exact late
  | complete target =>
    cases late
    exact .complete target
  | passThrough => exact late

namespace Reassembly

/-- What is held of the bytes that came in. -/
def Holds (limit : Nat) (input buffer : Bytes) : Stage → Prop
  | .header => buffer = input ∧ buffer.length ≤ 9 ∧ ∀ byte ∈ buffer, Varint.Continues byte
  | .payload target => buffer = input ∧
      (∃ tagSize length, Announces buffer tagSize length ∧ tagSize + length = target) ∧
      buffer.length < target ∧ target ≤ limit
  | .passThrough => buffer = [] ∧ ∃ tagSize length, Announces input tagSize length ∧
      tagSize + length ≤ input.length ∧ tagSize + length ≤ limit

/-- A state that the bytes that came in account for. -/
structure Accounted (limit : Nat) (input : Bytes) (state : Reassembly) : Prop where
  limit_eq : state.limit = limit
  holds : Holds limit input state.buffer state.stage

variable {limit target : Nat} {input buffer chunk : Bytes} {stage : Stage} {state : Reassembly}

theorem accounted_start (limit : Nat) : Accounted limit [] (start limit) :=
  ⟨rfl, rfl, Nat.zero_le 9, List.forall_mem_nil _⟩

theorem announces_append {tagSize length : Nat} (announced : Announces input tagSize length)
    (tail : Bytes) : Announces (input ++ tail) tagSize length := by
  obtain ⟨tag, decoded, counted⟩ := announced
  exact ⟨tag, Varint.decode_append tail decoded, counted⟩

/-! ## One chunk -/

/-- Once the length is known the message is there or is not, whatever the stage was before. -/
theorem accounted_release (found : target? limit buffer = .ok (some target)) :
    Accounted limit buffer (release ⟨buffer, stage, limit⟩ target).2 := by
  obtain ⟨tagSize, length, announced, rfl, small⟩ := (target?_eq_some_iff _ _ _).mp found
  by_cases short : buffer.length < tagSize + length
  · rw [release_of_lt short]
    exact ⟨rfl, rfl, ⟨tagSize, length, announced, rfl⟩, short, small⟩
  · rw [Nat.not_lt] at short
    rw [release_of_le short]
    exact ⟨rfl, rfl, tagSize, length, announced, short, small⟩

theorem Accounted.feed {buffers : List Bytes} {next : Reassembly}
    (accounted : Accounted limit input state) (fed : state.feed chunk = (.ok buffers, next)) :
    Accounted limit (input ++ chunk) next := by
  obtain ⟨buffer, stage, limit⟩ := state
  obtain ⟨rfl, holds⟩ := accounted
  cases stage with
  | header =>
    -- The chunk may leave the length open, settle it, or bring the whole message.
    obtain ⟨rfl, _, _⟩ := holds
    simp only [Reassembly.feed] at fed
    cases header : target? limit (buffer ++ chunk) with
    | error error =>
      rw [header] at fed
      cases fed
    | ok parsed =>
      rw [header] at fed
      cases parsed with
      | none =>
        cases fed
        exact ⟨rfl, rfl, Varint.decode_eq_none_iff.mp ((target?_eq_none_iff _ _).mp header)⟩
      | some target =>
        cases fed
        exact accounted_release header
  | payload target =>
    obtain ⟨rfl, ⟨tagSize, length, announced, total⟩, _, small⟩ := holds
    have header : target? limit buffer = .ok (some target) :=
      (target?_eq_some_iff _ _ _).mpr ⟨tagSize, length, announced, total.symm, small⟩
    cases fed
    exact accounted_release (target?_append_some chunk header)
  | passThrough =>
    obtain ⟨rfl, tagSize, length, announced, there, small⟩ := holds
    cases fed
    refine ⟨rfl, rfl, tagSize, length, announces_append announced chunk, ?_, small⟩
    rw [List.length_append]
    exact Nat.le_add_right_of_le there

theorem onward_release (known : stage = .header ∨ stage = .payload target) :
    stage.Onward (release ⟨buffer, stage, limit⟩ target).2.stage := by
  by_cases short : buffer.length < target
  · rw [release_of_lt short]
    rcases known with rfl | rfl
    · exact .header _
    · exact .waiting target
  · rw [release_of_le (Nat.not_lt.mp short)]
    rcases known with rfl | rfl
    · exact .header _
    · exact .complete target

/-- Also a chunk that is refused does not take reassembly back. -/
theorem onward_feed (state : Reassembly) (chunk : Bytes) :
    state.stage.Onward (state.feed chunk).2.stage := by
  obtain ⟨buffer, stage, limit⟩ := state
  cases stage with
  | header => exact .header _
  | payload target => exact onward_release (.inr rfl)
  | passThrough => exact .passThrough

/-! ## Runs -/

theorem onward_feedAll (state : Reassembly) (chunks : List Bytes) :
    state.stage.Onward (state.feedAll chunks).2.stage := by
  induction chunks generalizing state with
  | nil => exact .refl state.stage
  | cons chunk chunks ih => exact (onward_feed state chunk).trans (ih _)

theorem feedAll_append (state : Reassembly) (early late : List Bytes) :
    (state.feedAll (early ++ late)).2 = ((state.feedAll early).2.feedAll late).2 := by
  induction early generalizing state with
  | nil => rfl
  | cons chunk early ih => exact ih _

theorem Accounted.feedAll {chunks : List Bytes} {answers : List (List Bytes)}
    (accounted : Accounted limit input state)
    (answered : (state.feedAll chunks).1 = answers.map .ok) :
    Accounted limit (input ++ chunks.flatten) (state.feedAll chunks).2 := by
  induction chunks generalizing state input answers with
  | nil =>
    rw [List.flatten_nil, List.append_nil]
    exact accounted
  | cons chunk chunks ih =>
    cases answers with
    | nil => cases answered
    | cons buffers answers =>
      obtain ⟨first, others⟩ := List.cons.inj answered
      rw [List.flatten_cons, ← List.append_assoc]
      exact ih (accounted.feed (Prod.ext first rfl)) others

/-! ## What is held -/

theorem Accounted.length_lt (accounted : Accounted limit input state) :
    state.buffer.length < max 10 limit := by
  obtain ⟨same, holds⟩ := accounted
  cases known : state.stage with
  | header =>
    rw [known] at holds
    obtain ⟨_, few, _⟩ := holds
    omega
  | payload target =>
    rw [known] at holds
    obtain ⟨_, _, short, small⟩ := holds
    omega
  | passThrough =>
    rw [known] at holds
    rw [holds.1, List.length_nil]
    omega

/-- After any chunks of which none was refused, what is held is accounted for by the bytes that came
in, in the way of the stage; the stage has never gone back, and it says whether the first message
has been given out; and fewer bytes are held than ten or the limit, whichever is more. -/
theorem feedAll_start_holds (limit : Nat) (chunks : List Bytes) (answers : List (List Bytes))
    (answered : ((start limit).feedAll chunks).1 = answers.map .ok) :
    let state := ((start limit).feedAll chunks).2
    state.limit = limit ∧ Holds limit chunks.flatten state.buffer state.stage ∧
      (∀ early late, chunks = early ++ late →
        ((start limit).feedAll early).2.stage.Onward state.stage) ∧
      ((Framing.reassembly state).isComplete = true ↔ state.stage = .passThrough) ∧
      state.buffer.length < max 10 limit := by
  have accounted := (accounted_start limit).feedAll answered
  refine ⟨accounted.limit_eq, accounted.holds, ?_, ?_, accounted.length_lt⟩
  · rintro early late rfl
    rw [feedAll_append]
    exact onward_feedAll _ late
  · rw [Framing.isComplete, beq_iff_eq]

/-- The front of a tag, all but the last byte of a message of three bytes, and this message with two
bytes after it in a run that takes it through two stages with one chunk. -/
theorem feedAll_start_holds_examples :
    Holds 3 [0x88] ((start 3).feedAll [[], [0x88]]).2.buffer .header ∧
    Holds 3 [0x08, 0xaa] ((start 3).feedAll [[0x08], [0xaa]]).2.buffer (.payload 3) ∧
    Holds 3 [0x08, 0xaa, 0xbb, 0xcc, 0xdd]
      ((start 3).feedAll [[0x08, 0xaa, 0xbb, 0xcc], [0xdd]]).2.buffer .passThrough := by
  obtain ⟨_, header, _⟩ := feedAll_start_holds 3 [[], [0x88]] [[], []] rfl
  obtain ⟨_, payload, _⟩ := feedAll_start_holds 3 [[0x08], [0xaa]] [[], []] rfl
  obtain ⟨_, passed, _⟩ := feedAll_start_holds 3 [[0x08, 0xaa, 0xbb, 0xcc], [0xdd]]
    [[[0x08, 0xaa, 0xbb], [0xcc]], [[0xdd]]] rfl
  exact ⟨header, payload, passed⟩

end Reassembly

end FieldWire.Stream
