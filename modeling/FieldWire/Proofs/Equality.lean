import FieldWire.Proofs.Aging.Message
import FieldWire.Proofs.Dictionary.Keyed

/-!
# Equality with itself

A floating-point number that is no number differs from itself, and a payload that is held as bytes
is compared as bytes.  So an object that was read is equal to itself if no element, no value and no
date in it is a NaN, whatever its payloads hold.
-/

set_option autoImplicit false

namespace FieldWire

/-- What is read equals itself where `Free` holds of it. -/
def ElementFormat.Reflexive {α : Type} (format : ElementFormat α) (Free : α → Prop) : Prop :=
  ∀ cursor value after, format.read cursor = .ok value after → Free value →
    (format.same value value).1 = true

/-- The same for objects. -/
def ObjectFormat.Reflexive {σ : Type} (format : ObjectFormat σ) (Free : σ → Prop) : Prop :=
  ∀ cursor object after, format.read cursor = .ok object after → Free object →
    (format.same object object).1 = true

/-! ## Single values -/

theorem Binary32.same_self {number : Binary32} (finite : number.isNaN = false) :
    number.same number = true := by
  simp [same, finite]

theorem Binary64.same_self {number : Binary64} (finite : number.isNaN = false) :
    number.same number = true := by
  simp [same, finite]

theorem Text.same_self (text : Text) : text.same text = true := (Text.same_iff text text).mpr rfl

/-! ## Collections -/

section Collections

variable {α : Type} {format : ElementFormat α} {Free : α → Prop}

theorem ElementFormat.sameValues_self {values : List α}
    (each : ∀ value ∈ values, (format.same value value).1 = true) :
    (format.sameValues values values).1 = true := by
  induction values with
  | nil => rfl
  | cons value rest ih =>
    obtain ⟨first, others⟩ := List.forall_mem_cons.mp each
    rw [sameValues]
    split
    · exact ih others
    · rename_i compared
      rw [compared] at first
      cases first

theorem Sequence.same_self {sequence : Sequence α}
    (each : ∀ item ∈ sequence.items, (format.same item item).1 = true) :
    (sequence.same format sequence).1 = true := by
  rw [Sequence.same, if_pos rfl]
  exact ElementFormat.sameValues_self each

theorem Sequence.reflexive (elements : format.Reflexive Free) :
    (Sequence.format format).Reflexive fun sequence => ∀ item ∈ sequence.items, Free item := by
  intro cursor sequence after ran free
  obtain ⟨_, _, _, read, _⟩ := Sequence.load_eq_ok (ObjectFormat.load_of_read ran)
  have each := ElementFormat.readValues_forall elements read
  exact Sequence.same_self fun item member => each item member (free item member)

/-- Entries that are found among the others.  Comparing one leaves the others under their keys. -/
theorem Dictionary.sameEntries_self {entries others : List (Text × α)}
    (distinct : (keyBytes entries).Nodup)
    (found : ∀ entry ∈ entries, lookup? entry.1.bytes others = some entry.2)
    (each : ∀ entry ∈ entries, (format.same entry.2 entry.2).1 = true) :
    (sameEntries format entries others).1 = true := by
  induction entries generalizing others with
  | nil => rfl
  | cons entry rest ih =>
    obtain ⟨key, value⟩ := entry
    obtain ⟨there, foundRest⟩ := List.forall_mem_cons.mp found
    obtain ⟨first, eachRest⟩ := List.forall_mem_cons.mp each
    obtain ⟨fresh, distinctRest⟩ := List.nodup_cons.mp distinct
    simp only [sameEntries, there]
    split
    · refine ih distinctRest (fun other member => ?_) eachRest
      have inside : key.bytes ∈ keyBytes others :=
        (lookup?_isSome_iff _ _).mp (Option.isSome_of_eq_some there)
      rw [lookup?_overwrite inside, Function.update_of_ne (ne_of_mem fresh member)]
      exact foundRest other member
    · rename_i compared
      rw [compared] at first
      cases first

theorem Dictionary.same_self {dictionary : Dictionary α}
    (distinct : (keyBytes dictionary.entries).Nodup)
    (each : ∀ entry ∈ dictionary.entries, (format.same entry.2 entry.2).1 = true) :
    (dictionary.same format dictionary).1 = true := by
  rw [Dictionary.same, if_pos rfl]
  exact sameEntries_self distinct (fun _ member => lookup?_of_mem distinct member) each

theorem Dictionary.reflexive (elements : format.Reflexive Free) :
    (Dictionary.format format).Reflexive fun dictionary =>
      ∀ entry ∈ dictionary.entries, Free entry.2 := by
  intro cursor dictionary after ran free
  obtain ⟨_, _, keys, values, _, _, _, read, aligned, _, rfl⟩ :=
    Dictionary.load_eq_ok (ObjectFormat.load_of_read ran)
  have each := ElementFormat.readValues_forall elements read
  refine Dictionary.same_self (nodup_lastOccurrences _) fun entry member => ?_
  have inside : entry.2 ∈ values :=
    (List.of_mem_zip ((lastOccurrences_sublist _).subset member)).2
  exact each _ inside (free entry member)

theorem ElementFormat.object_reflexive {σ : Type} {format : ObjectFormat σ} {Free : σ → Prop}
    (objects : format.Reflexive Free) : (object format).Reflexive Free :=
  objects

theorem ElementFormat.ofPlain_reflexive {scheme : WireType} {size : α → Nat} {write : α → Bytes}
    {read : Reader α} {same : α → α → Bool} (self : ∀ value, Free value → same value value = true) :
    (ofPlain scheme size write read same).Reflexive Free :=
  fun _ value _ _ free => self value free

end Collections

/-! ## Structures -/

theorem Structured.same_self {φ : Type} {format : SegmentFormat φ} {object : Structured φ}
    (fields : (format.same object.fields object.fields).1 = true) :
    (object.same format object).1 = true := by
  rw [Structured.same, if_pos rfl]
  exact fields

theorem FrameworkError.reflexive : format.Reflexive fun _ => True := by
  intro cursor error after _ _
  refine Structured.same_self ?_
  change error.fields.same error.fields = true
  rw [Fields.same]
  cases error.fields.message with
  | none => rfl
  | some message => exact message.same_self

theorem ErrorEnvelope.reflexive : format.Reflexive fun _ => True := by
  intro cursor envelope after _ _
  refine Structured.same_self ?_
  change (envelope.fields.errorType.same envelope.fields.errorType &&
    envelope.fields.serializedError == envelope.fields.serializedError) = true
  rw [Text.same_self, beq_self_eq_true]
  rfl

theorem SignedChunk.reflexive :
    format.Reflexive fun chunk => chunk.fields.date.isNaN = false := by
  intro cursor chunk after _ finite
  refine Structured.same_self ?_
  change (chunk.fields.date.same chunk.fields.date &&
    chunk.fields.signature == chunk.fields.signature &&
    chunk.fields.chunk == chunk.fields.chunk) = true
  rw [Binary64.same_self finite, beq_self_eq_true, beq_self_eq_true]
  rfl

/-- A payload that was just read is compared as bytes. -/
theorem Optional.reflexive {σ : Type} (inner : ObjectFormat σ) (Free : Optional σ → Prop) :
    (Optional.format inner).Reflexive Free := by
  intro cursor wrapper after ran _
  have raw := raw_of_read ran
  obtain ⟨presence, memo, ⟨item⟩⟩ := wrapper
  refine Structured.same_self ?_
  cases item with
  | none => rfl
  | some item =>
    obtain ⟨bytes, rfl, _⟩ := raw item rfl
    exact beq_self_eq_true bytes

/-! ## Trees -/

namespace Tree

theorem formatUpTo_same_self {levels : Nat} {tree : Tree} (below : tree.depth ≤ levels) :
    ((formatUpTo levels).same tree tree).1 = true := by
  induction levels generalizing tree with
  | zero => exact absurd below (Nat.not_le_of_lt tree.one_le_depth)
  | succ levels ih =>
    obtain ⟨children⟩ := tree
    have each := (depth_node_le_iff _ _).mp below
    have elements : ∀ item ∈ children.items,
        ((ElementFormat.object (formatUpTo levels)).same item item).1 = true :=
      fun item member => ih (each item member)
    exact Sequence.same_self elements

theorem reflexive (Free : Tree → Prop) : format.Reflexive Free := fun _ tree _ _ _ =>
  formatUpTo_same_self (Nat.le_max_left tree.depth tree.depth)

end Tree

/-! ## Schemas -/

mutual

/-- No number in an object is a NaN, wherever it is at hand as a number. -/
def Schema.NaNFree : (schema : Schema) → schema.isStandard = true → schema.Carrier → Prop
  | .sequence element, standard => fun sequence =>
    ∀ item ∈ sequence.items, element.NaNFree standard item
  | .dictionary element, standard => fun dictionary =>
    ∀ entry ∈ dictionary.entries, element.NaNFree standard entry.2
  | .frameworkError, _ => fun _ => True
  | .errorEnvelope, _ => fun _ => True
  | .signedChunk, _ => fun chunk => chunk.fields.date.isNaN = false
  | .optional item, standard => fun wrapper => ∀ payload, wrapper.fields.item = some payload →
    ∀ object, payload.object? = some object → item.NaNFree standard object
  | .record _, standard => absurd standard Bool.false_ne_true
  | .tree, _ => fun _ => True

def ElementKind.NaNFree : (kind : ElementKind) → kind.isStandard = true → kind.Carrier → Prop
  | .bool, _ => fun _ => True
  | .integer _, _ => fun _ => True
  | .float, _ => fun number => number.isNaN = false
  | .double, _ => fun number => number.isNaN = false
  | .text, _ => fun _ => True
  | .object schema, standard => schema.NaNFree standard

end

mutual

theorem Schema.reflexive : (schema : Schema) → (standard : schema.isStandard = true) →
    schema.format.Reflexive (schema.NaNFree standard)
  | .sequence element, standard => Sequence.reflexive (element.reflexive standard)
  | .dictionary element, standard => Dictionary.reflexive (element.reflexive standard)
  | .frameworkError, _ => FrameworkError.reflexive
  | .errorEnvelope, _ => ErrorEnvelope.reflexive
  | .signedChunk, _ => SignedChunk.reflexive
  | .optional item, _ => Optional.reflexive item.format _
  | .record _, standard => absurd standard Bool.false_ne_true
  | .tree, _ => Tree.reflexive _

theorem ElementKind.reflexive : (kind : ElementKind) → (standard : kind.isStandard = true) →
    kind.format.Reflexive (kind.NaNFree standard)
  | .bool, _ => ElementFormat.ofPlain_reflexive fun (value : Bool) _ => beq_self_eq_true value
  | .integer _, _ => ElementFormat.ofPlain_reflexive fun value _ => beq_self_eq_true value.val
  | .float, _ => ElementFormat.ofPlain_reflexive fun _ => Binary32.same_self
  | .double, _ => ElementFormat.ofPlain_reflexive fun _ => Binary64.same_self
  | .text, _ => ElementFormat.ofPlain_reflexive fun text _ => text.same_self
  | .object schema, standard => ElementFormat.object_reflexive (schema.reflexive standard)

end

end FieldWire
