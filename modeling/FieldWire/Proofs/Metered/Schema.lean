import FieldWire.Proofs.Confined.Structured
import FieldWire.Proofs.Metered

/-!
# What reading an object costs

Lists and maps of any nesting, and trees, are read with a ledger.  An object of another type is one
element, whatever is in it.
-/

set_option autoImplicit false

namespace FieldWire

mutual

/-- The number of elements on all levels, where an entry is a key and a value. -/
def Schema.population : (schema : Schema) → schema.Carrier → Nat
  | .sequence element, sequence =>
    (Sequence.items sequence |>.map fun item => element.population item + 1).sum
  | .dictionary element, dictionary =>
    (Dictionary.entries dictionary |>.map fun entry => element.population entry.2 + 2).sum
  | .tree, tree => Tree.nodes tree - 1
  | .frameworkError, _ | .errorEnvelope, _ | .signedChunk, _ | .optional _, _ | .record _, _ => 0

def ElementKind.population : (kind : ElementKind) → kind.Carrier → Nat
  | .object schema, object => schema.population object
  | .bool, _ | .integer _, _ | .float, _ | .double, _ | .text, _ => 0

end

mutual

/-- Reading with a ledger, and with so many calls nested in each other for a tree. -/
def Schema.meter (calls : Nat) : (schema : Schema) → Metered schema.Carrier
  | .sequence element => Metered.sequence element.format.scheme (element.meter calls)
  | .dictionary element => Metered.dictionary element.format.scheme (element.meter calls)
  | .tree => Metered.tree calls
  | .frameworkError => Metered.lift Schema.frameworkError.format.read
  | .errorEnvelope => Metered.lift Schema.errorEnvelope.format.read
  | .signedChunk => Metered.lift Schema.signedChunk.format.read
  | .optional item => Metered.lift (Schema.optional item).format.read
  | .record table => Metered.lift (Schema.record table).format.read

def ElementKind.meter (calls : Nat) : (kind : ElementKind) → Metered kind.Carrier
  | .object schema => schema.meter calls
  | .bool => Metered.lift ElementKind.bool.format.read
  | .integer width => Metered.lift (ElementKind.integer width).format.read
  | .float => Metered.lift ElementKind.float.format.read
  | .double => Metered.lift ElementKind.double.format.read
  | .text => Metered.lift ElementKind.text.format.read

end

open Metered

mutual

/-- Each collection leaves its elements fewer bytes than it has itself. -/
theorem Schema.meters (calls : Nat) : (schema : Schema) →
    Meters (schema.meter calls) schema.format.read schema.population (2 * calls) 1
  | .sequence element => (meters_sequence (element.meters calls)).mono (by omega) (by omega)
  | .dictionary element => (meters_dictionary (element.meters calls)).mono (by omega) (by omega)
  | .tree => (meters_treeFormat calls).mono (Nat.le_refl _) (by omega)
  | .frameworkError => meters_element Schema.frameworkError.confined.element _
  | .errorEnvelope => meters_element Schema.errorEnvelope.confined.element _
  | .signedChunk => meters_element Schema.signedChunk.confined.element _
  | .optional item => meters_element (Schema.optional item).confined.element _
  | .record table => meters_element (Schema.record table).confined.element _

theorem ElementKind.meters (calls : Nat) : (kind : ElementKind) →
    Meters (kind.meter calls) kind.format.read kind.population (2 * calls) 1
  | .object schema => schema.meters calls
  | .bool => meters_element ElementKind.bool.confined _
  | .integer width => meters_element (ElementKind.integer width).confined _
  | .float => meters_element ElementKind.float.confined _
  | .double => meters_element ElementKind.double.confined _
  | .text => meters_element ElementKind.text.confined _

end

/-- Nothing is read, and no room is reserved, that the buffer does not pay for.  A buffer that can be
addressed is read with a ledger as it is without, whether it is taken or refused, and more than half
as many calls as it has bytes are never used up. -/
theorem Schema.reads_what_is_paid_for (schema : Schema) (calls : Nat) (cursor : Cursor)
    (addressable : cursor.rest.length < Reader.largestSize)
    (enough : cursor.rest.length < 2 * calls) :
    (∀ value after, schema.format.read cursor = .ok value after →
        ∃ ledger, schema.meter calls (cursor, .empty) = .ok value (after, ledger) ∧ ledger.Covered ∧
          schema.population value ≤ ledger.elements ∧
            ledger.elements + after.rest.length ≤ cursor.rest.length) ∧
      (∀ error after, schema.format.read cursor = .error error after →
        ∃ ledger, schema.meter calls (cursor, .empty) = .error (.refused error) (after, ledger) ∧
          ledger.Covered) ∧
      ∀ tree after, Tree.format.read cursor = .ok tree after →
        tree.depth ≤ tree.nodes ∧ 2 * tree.nodes + after.rest.length ≤ cursor.rest.length := by
  refine ⟨fun value after read => ?_, fun error after read => ?_, fun tree after read => ?_⟩
  · obtain ⟨ledger, ran, paid⟩ := (schema.meters calls).taken .empty addressable enough read
    have counted := paid.counted
    have all := paid.paid
    have nothing : Ledger.empty.elements = 0 := rfl
    exact ⟨ledger, ran, paid.covered Ledger.covered_empty, by omega, by omega⟩
  · obtain ⟨ledger, ran, covered⟩ := (schema.meters calls).refused .empty addressable enough read
    exact ⟨ledger, ran, covered Ledger.covered_empty⟩
  · exact ⟨tree.depth_le_nodes, Tree.nodes_le_of_read read⟩

/-- Two entries under one key, a count of three elements that are not there, and three trees nested in
each other. -/
theorem Schema.reads_what_is_paid_for_examples :
    let lists : Schema := .dictionary (.object (.sequence .bool))
    let twice : Cursor := .ofBytes [48, 8, 4, 97, 4, 97, 8, 8, 5, 2, 8, 5, 0] defaultPayloadLimit
    let missing : Cursor := .ofBytes [4, 13] defaultPayloadLimit
    let nested : Cursor := .ofBytes [20, 4, 12, 4, 4, 0] defaultPayloadLimit
    (∃ value after ledger, lists.meter 7 (twice, .empty) = .ok value (after, ledger) ∧
        ledger.Covered ∧ lists.population value = 3 ∧ 3 ≤ ledger.elements ∧ ledger.elements ≤ 13) ∧
      (∃ after ledger, (Schema.sequence .bool).meter 2 (missing, .empty) =
          .error (.refused (.bufferUnderrun 3 0)) (after, ledger) ∧ ledger.Covered) ∧
      ∃ tree after, Tree.format.read nested = .ok tree after ∧ tree.nodes = 3 ∧ 2 * tree.nodes ≤ 6 := by
  intro lists twice missing nested
  obtain ⟨taken, _, _⟩ := lists.reads_what_is_paid_for 7 twice (by decide) (by decide)
  obtain ⟨_, refused, _⟩ :=
    (Schema.sequence .bool).reads_what_is_paid_for 2 missing (by decide) (by decide)
  obtain ⟨_, _, trees⟩ := Schema.tree.reads_what_is_paid_for 4 nested (by decide) (by decide)
  obtain ⟨ledger, ran, covered, counted, paid⟩ := taken _ _ rfl
  obtain ⟨after, halted⟩ := refused _ _ rfl
  obtain ⟨_, paidTrees⟩ := trees _ _ rfl
  exact ⟨⟨_, _, ledger, ran, covered, rfl, counted, paid⟩, ⟨_, after, halted⟩,
    _, _, rfl, rfl, paidTrees⟩

end FieldWire
