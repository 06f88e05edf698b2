import FieldWire.Proofs.Aging.Message
import FieldWire.Proofs.Reencoding

/-!
# Writing again what was read and looked at

Looking at an object that was read never changes its contents, but it may leave a size behind that
is too large: a payload that was decoded is written anew, and may take fewer bytes than it came in,
while the object around it still remembers the length that was declared.  What is written then is
right exactly if the size is.
-/

set_option autoImplicit false

namespace FieldWire

mutual

/-- What is known of the objects of a schema that were read and then only looked at. -/
def Schema.Kept : (schema : Schema) → schema.isStandard = true → schema.Carrier → Prop
  | .sequence element, standard => Sequence.Kept element.format (element.Kept standard)
  | .dictionary element, standard => Dictionary.Kept element.format (element.Kept standard)
  | .frameworkError, _ => FrameworkError.format.Weighed
      (Structured.view FrameworkError.segments.layout FrameworkError.fieldView)
  | .errorEnvelope, _ => ErrorEnvelope.format.Weighed
      (Structured.view ErrorEnvelope.segments.layout ErrorEnvelope.fieldView)
  | .signedChunk, _ => SignedChunk.format.Weighed
      (Structured.view SignedChunk.segments.layout SignedChunk.fieldView)
  | .optional item, standard => Optional.Kept item.format (item.Kept standard)
  | .record _, standard => absurd standard Bool.false_ne_true
  | .tree, _ => Tree.Kept

def ElementKind.Kept : (kind : ElementKind) → kind.isStandard = true → kind.Carrier → Prop
  | .bool, _ => fun _ => True
  | .integer _, _ => fun _ => True
  | .float, _ => fun _ => True
  | .double, _ => fun _ => True
  | .text, _ => fun _ => True
  | .object schema, standard => schema.Kept standard

end

mutual

theorem Schema.ages : (schema : Schema) → (standard : schema.isStandard = true) →
    schema.format.Ages (schema.view standard) (schema.Kept standard)
  | .sequence element, standard =>
    Sequence.ages (element.faithful standard) (element.measured standard) (element.ages standard)
  | .dictionary element, standard =>
    Dictionary.ages (element.faithful standard) (element.measured standard) (element.ages standard)
  | .frameworkError, standard => Structured.plain_ages FrameworkError.fieldsSize_eq
      (Schema.measured .frameworkError standard)
  | .errorEnvelope, standard => Structured.plain_ages ErrorEnvelope.fieldsSize_eq
      (Schema.measured .errorEnvelope standard)
  | .signedChunk, standard => Structured.plain_ages SignedChunk.fieldsSize_eq
      (Schema.measured .signedChunk standard)
  | .optional item, standard =>
    Optional.ages (item.faithful standard) (item.measured standard) (item.ages standard)
  | .record _, standard => absurd standard Bool.false_ne_true
  | .tree, _ => Tree.ages

theorem ElementKind.ages : (kind : ElementKind) → (standard : kind.isStandard = true) →
    kind.format.Ages (kind.view standard) (kind.Kept standard)
  | .bool, _ => ElementFormat.ofPlain_ages id ElementFormat.size_bool
  | .integer _, _ => ElementFormat.ofPlain_ages id ElementFormat.size_integer
  | .float, _ => ElementFormat.ofPlain_ages id (ElementFormat.size_fixed .binary32)
  | .double, _ => ElementFormat.ofPlain_ages id (ElementFormat.size_fixed .binary64)
  | .text, _ => ElementFormat.ofPlain_ages Text.bytes ElementFormat.size_text
  | .object schema, standard => ElementFormat.object_ages (schema.ages standard)

end

mutual

theorem Schema.aging_of_peek : (schema : Schema) → (standard : schema.isStandard = true) →
    ∀ object later, schema.Peek standard object later →
      Aging schema.format.size (schema.view standard) (schema.Kept standard) object later
  | .sequence element, standard, _, _, peek =>
    (Schema.ages (.sequence element) standard).follows.of_peek (fun _ _ =>
      Sequence.rel_of_inside (element.ages standard).follows
        (fun _ _ memo items => Sequence.aging_items (element.faithful standard) memo items)
        (element.aging_of_peek standard)) peek
  | .dictionary element, standard, _, _, peek =>
    (Schema.ages (.dictionary element) standard).follows.of_peek (fun _ _ =>
      Dictionary.rel_of_inside (element.ages standard).follows
        (fun _ _ memo entries => Dictionary.aging_entries (element.faithful standard) memo entries)
        (element.aging_of_peek standard)) peek
  | .frameworkError, standard, _, _, peek =>
    (Schema.ages .frameworkError standard).follows.of_peek (fun _ _ => False.elim) peek
  | .errorEnvelope, standard, _, _, peek =>
    (Schema.ages .errorEnvelope standard).follows.of_peek (fun _ _ => False.elim) peek
  | .signedChunk, standard, _, _, peek =>
    (Schema.ages .signedChunk standard).follows.of_peek (fun _ _ => False.elim) peek
  | .optional item, standard, _, _, peek =>
    (Schema.ages (.optional item) standard).follows.of_peek (fun _ _ =>
      Optional.rel_of_inside (Deferred.allows_aging (item.measured standard) (item.ages standard))
        Aging.refl (fun presence memo _ _ => Optional.aging_item presence memo)
        (item.aging_of_peek standard)) peek
  | .record _, standard, _, _, _ => absurd standard Bool.false_ne_true
  | .tree, _, _, _, peek => Tree.aging_of_still (Tree.still_of_peek peek)

theorem ElementKind.aging_of_peek : (kind : ElementKind) → (standard : kind.isStandard = true) →
    ∀ value later, kind.Peek standard value later →
      Aging kind.format.size (kind.view standard) (kind.Kept standard) value later
  | .bool, _, _, _, rfl => Aging.refl _
  | .integer _, _, _, _, rfl => Aging.refl _
  | .float, _, _, _, rfl => Aging.refl _
  | .double, _, _, _, rfl => Aging.refl _
  | .text, _, _, _, rfl => Aging.refl _
  | .object schema, standard, _, _, peek =>
    ElementFormat.object_aging (schema.ages standard).weighed (schema.aging_of_peek standard _ _ peek)

end

namespace Schema

theorem weighed_of_peek {schema : Schema} (standard : schema.isStandard = true) {bytes : Bytes}
    {object later : schema.Carrier} (accepted : schema.format.deserialize bytes = .ok object)
    (peek : schema.Peek standard object later) :
    schema.format.Weighed (schema.view standard) later := by
  obtain ⟨after, read, _⟩ := ObjectFormat.read_of_deserialize accepted
  have ages := schema.ages standard
  have aging := schema.aging_of_peek standard object later peek (ages.read _ object after read)
  exact ages.weighed later aging.1

/-- However an object that was read is looked at, its contents stay, and it remembers at least the
size that is worked out anew.  It is written as one envelope and read back as the same exactly if it
remembers that size, which it does if the input was no longer than it has to be for what is written
now.  Otherwise what is written cannot be read at all. -/
theorem reencodes_iff_of_peek {schema : Schema} (standard : schema.isStandard = true)
    {bytes : Bytes} {object later : schema.Carrier}
    (accepted : schema.format.deserialize bytes = .ok object)
    (peek : schema.Peek standard object later) :
    let fresh := (schema.view standard).forget later
    (schema.view standard).contents later = (schema.view standard).contents object ∧
      (schema.format.size later).1 ≤ (schema.format.size object).1 ∧
      (schema.format.size fresh).1 ≤ (schema.format.size later).1 ∧
      (schema.Reencodes standard later ↔
        (schema.format.size later).1 = (schema.format.size fresh).1) ∧
      (bytes.length ≤ (schema.format.encodedSize fresh).1 → schema.Reencodes standard later) ∧
      ((schema.format.size fresh).1 < (schema.format.size later).1 →
        ∃ left, left < (schema.format.size later).1 ∧
          schema.format.deserialize (schema.format.serialize later).1 =
            .error (.bufferUnderrun (schema.format.size later).1 left)) := by
  intro fresh
  obtain ⟨after, read, _⟩ := ObjectFormat.read_of_deserialize accepted
  obtain ⟨before, within, length, inside, _, fits⟩ := schema.measured standard _ object after read
  have ages := schema.ages standard
  obtain ⟨kept, contents, shorter⟩ :=
    schema.aging_of_peek standard object later peek (ages.read _ object after read)
  have weighed := ages.weighed later kept
  obtain ⟨least, exactly, underrun⟩ :=
    reencodes_iff_of_weighed weighed (Nat.le_trans shorter within)
  refine ⟨contents, shorter, least, exactly, ?_, underrun⟩
  intro short
  have spans : LengthTag.spanSize (schema.format.size later).1 ≤
      LengthTag.spanSize (schema.format.size fresh).1 :=
    Nat.le_trans (LengthTag.spanSize_mono shorter before.small)
      (Nat.le_trans fits (Nat.le_trans inside short))
  exact exactly.mpr (Nat.le_antisymm (LengthTag.le_of_spanSize_le spans weighed.small) least)

/-- A payload with a field that is passed over.  As long as nobody asks for it, it is written as it
came; once it was asked for, it is written without that field, but behind the length that was
declared for it. -/
theorem reencodes_iff_of_peek_example :
    let schema : Schema := .optional .frameworkError
    let bytes : Bytes := [0x1c, 0x08, 0x14, 0x18, 0x04, 0x61, 0x04, 0x62]
    let item : Deferred FrameworkError := .raw [0x14, 0x18, 0x04, 0x61, 0x04, 0x62]
    let object : schema.Carrier :=
      Structured.mk [FieldSet.ofBits .list 0 Optional.itemField] (some 7) ⟨some item⟩
    let later : schema.Carrier :=
      (Optional.visitItem FrameworkError.format (fun error => ((), error)) object).2
    (schema.format.deserialize bytes = .ok object ∧ schema.Peek rfl object later) ∧
      schema.Reencodes rfl object ∧ ¬schema.Reencodes rfl later ∧
      (schema.format.serialize later).1 = [0x1c, 0x08, 0x0c, 0x08, 0x04, 0x61] ∧
      ∃ left, left < 7 ∧ schema.format.deserialize [0x1c, 0x08, 0x0c, 0x08, 0x04, 0x61] =
        .error (.bufferUnderrun 7 left) := by
  intro schema bytes item object later
  have accepted : schema.format.deserialize bytes = .ok object := rfl
  have peek : schema.Peek rfl object later := .inside .start (.item fun _ => .start)
  obtain ⟨_, _, _, before, _, _⟩ := reencodes_iff_of_peek rfl accepted .start
  obtain ⟨_, _, _, exactly, _, underrun⟩ := reencodes_iff_of_peek rfl accepted peek
  refine ⟨⟨accepted, peek⟩, before.mpr (by decide), ?_, by decide, underrun (by decide)⟩
  intro reencodes
  have same := exactly.mp reencodes
  revert same
  decide

end Schema

end FieldWire
