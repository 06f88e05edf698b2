import FieldWire.Proofs.Dictionary.Equality
import FieldWire.Proofs.Held.Schema

/-!
# Which equalities are equivalences

An object has distinct keys if no dictionary in it, at whatever depth, has a key twice; every object
that is read has.  Among these objects equality is an equivalence unless there may be
floating-point numbers or payloads in them.  Wherever it is one, looking at an object leaves it equal
to what it was.
-/

set_option autoImplicit false

namespace FieldWire

/-! ## What is inside of an equivalence -/

section Inside

variable {α : Type} {format : ElementFormat α} {Domain : α → Prop}

theorem Sequence.element_equivalence
    (whole : EquivalenceOn (Sequence.same format) fun sequence => ∀ item ∈ sequence.items, Domain item) :
    EquivalenceOn format.same Domain := by
  refine whole.comap (fun value => ⟨[value], none⟩) (fun value holds item member => ?_)
    fun left right => ?_
  · rw [List.mem_singleton.mp member]
    exact holds
  · rw [Bool.eq_iff_iff, Sequence.same_iff]
    simp

theorem Dictionary.element_equivalence
    (whole : EquivalenceOn (Dictionary.same format) (Dictionary.Keyed Domain)) :
    EquivalenceOn format.same Domain := by
  refine EquivalenceOn.swap (whole.comap (fun value => ⟨[(Text.empty, value)], none⟩)
    (fun value holds => ⟨List.nodup_singleton _, fun entry member => ?_⟩) fun left right => ?_)
  · rw [List.mem_singleton.mp member]
    exact holds
  · have distinct : (Dictionary.keyBytes [(Text.empty, left)]).Nodup := List.nodup_singleton _
    have single : (Dictionary.keyBytes (Dictionary.mk [(Text.empty, left)] none).entries).Nodup :=
      distinct
    rw [Bool.eq_iff_iff, Dictionary.same_iff single]
    simp [Dictionary.length, Dictionary.get?, Dictionary.lookup?]

end Inside

/-! ## Looking keeps what is equal -/

section Staying

variable {α : Type} {format : ElementFormat α} {Domain : α → Prop}

theorem Sequence.stays_items {items later : List α} (memo memoLater : Option Nat)
    (stays : List.Forall₂ (StaysEqual format.same Domain) items later) :
    StaysEqual (Sequence.same format) (fun sequence => ∀ item ∈ sequence.items, Domain item)
      ⟨items, memo⟩ ⟨later, memoLater⟩ := by
  intro each
  obtain ⟨holds, equal⟩ := stays_lists stays each
  exact ⟨holds, (Sequence.same_iff format _ _).mpr equal⟩

theorem Sequence.stays (elements : EquivalenceOn format.same Domain)
    (follows : format.Follows (StaysEqual format.same Domain)) :
    (Sequence.format format).Follows
      (StaysEqual (Sequence.same format) fun sequence => ∀ item ∈ sequence.items, Domain item) := by
  refine Sequence.follows follows (Sequence.equivalence elements).stays_trans (fun sequence => ?_)
    fun _ _ memo => stays_items memo memo
  obtain ⟨items, memo⟩ := sequence
  cases memo with
  | some size => exact (Sequence.equivalence elements).stays_refl _
  | none => exact stays_items none _ (follows.valuesSize items)

theorem Dictionary.stays_entries (elements : EquivalenceOn format.same Domain)
    {entries later : List (Text × α)} (memo memoLater : Option Nat)
    (stays : List.Forall₂ (SameKey (StaysEqual format.same Domain)) entries later) :
    StaysEqual (Dictionary.same format) (Keyed Domain) ⟨entries, memo⟩ ⟨later, memoLater⟩ := by
  intro keyed
  obtain ⟨texts, values⟩ := sameKey_parts stays
  have keys : keyBytes later = keyBytes entries := by
    have bytes := congrArg (List.map Text.bytes) texts
    rwa [List.map_map, List.map_map] at bytes
  have domains := (stays_lists values (List.forall_mem_map.mpr keyed.values)).1
  have keyedLater : Keyed Domain ⟨later, memoLater⟩ := by
    refine ⟨?_, List.forall_mem_map.mp domains⟩
    rw [keys]
    exact keyed.distinct
  refine ⟨keyedLater, (same_iff_agrees elements keyed keyedLater).mpr ⟨fun key => ?_, ?_⟩⟩
  · rw [Bool.eq_iff_iff, contains_iff, contains_iff, keys]
  · intro key value other here there
    have rel := lookup?_of_sameKey stays key
    change lookup? key entries = some value at here
    change lookup? key later = some other at there
    rw [here, there] at rel
    cases rel with
    | some stays => exact (stays (keyed.get? here)).2

theorem Dictionary.stays (elements : EquivalenceOn format.same Domain)
    (follows : format.Follows (StaysEqual format.same Domain)) :
    (Dictionary.format format).Follows (StaysEqual (Dictionary.same format) (Keyed Domain)) :=
  Dictionary.follows follows (Dictionary.equivalence elements).stays_trans
    (fun _ => stays_entries elements _ _ (size_sameKey follows _))
    fun _ _ memo => stays_entries elements memo memo

end Staying

/-! ## Structures -/

section Structures

variable {φ : Type} {layout : Layout} {empty : φ} {size : FieldSet → φ → Nat}
  {encode : FieldSet → φ → Bytes} {load : FieldSet → Loader φ Unit} {same : φ → φ → Bool}

theorem Structured.ofPlain_blocksSize_snd (sets : List FieldSet) (fields : φ) :
    ((SegmentFormat.ofPlain layout empty size encode load same).blocksSize sets fields).2 = fields :=
  SegmentFormat.blocksSize_preserves (P := fun later => later = fields) (fun _ _ _ still => still) rfl

/-- The size that is remembered is not compared. -/
theorem Structured.stays_memo {format : SegmentFormat φ} (Domain : φ → Prop)
    (whole : EquivalenceOn (Structured.same format) fun object => Domain object.fields)
    (presence : Presence) (memo memoLater : Option Nat) (fields : φ) :
    StaysEqual (Structured.same format) (fun object => Domain object.fields)
      ⟨presence, memo, fields⟩ ⟨presence, memoLater, fields⟩ := by
  intro holds
  have equal := whole.refl ⟨presence, memo, fields⟩ holds
  rw [Structured.same, if_pos rfl] at equal ⊢
  exact ⟨holds, equal⟩

theorem Structured.ofPlain_stays
    (whole : EquivalenceOn
      (Structured.same (SegmentFormat.ofPlain layout empty size encode load same)) fun _ => True) :
    (Structured.format (SegmentFormat.ofPlain layout empty size encode load same)).Follows
      (StaysEqual (Structured.same (SegmentFormat.ofPlain layout empty size encode load same))
        fun _ => True) := by
  refine Structured.ofPlain_follows whole.stays_refl whole.stays_trans fun object => ?_
  obtain ⟨presence, memo, fields⟩ := object
  cases memo with
  | some declared => exact whole.stays_refl _
  | none =>
    rw [Structured.size]
    dsimp only
    rw [ofPlain_blocksSize_snd]
    exact stays_memo (fun _ => True) whole presence _ _ fields

end Structures

/-! ## Payloads -/

namespace Deferred

variable {σ : Type} {format : ObjectFormat σ} {Domain : σ → Prop}

/-- An object that is at hand belongs to a domain. -/
def AtHand (Domain : σ → Prop) (deferred : Deferred σ) : Prop :=
  ∀ object, deferred.object? = some object → Domain object

theorem object_equivalence (whole : EquivalenceOn (Deferred.same format) (AtHand Domain)) :
    EquivalenceOn format.same Domain :=
  whole.comap .owned (fun object holds found same => by cases same; exact holds) fun _ _ => rfl

theorem stays_allows (whole : EquivalenceOn (Deferred.same format) (AtHand Domain))
    (read : ∀ bytes object, format.deserialize bytes = .ok object → Domain object) :
    Allows format (StaysEqual format.same Domain)
      (StaysEqual (Deferred.same format) (AtHand Domain)) where
  refl := whole.stays_refl
  trans := whole.stays_trans
  get deferred := by
    cases deferred with
    | raw bytes =>
      intro held
      cases decoded : format.deserialize bytes with
      | ok object =>
        have holds := read bytes object decoded
        have equal := (object_equivalence whole).refl object holds
        simp only [Deferred.get, Deferred.same, decoded]
        exact ⟨fun found same => by cases same; exact holds, equal⟩
      | error error =>
        simp only [Deferred.get, decoded]
        exact ⟨held, whole.refl _ held⟩
    | decoded bytes object => exact whole.stays_refl _
    | owned object => exact whole.stays_refl _
  refresh deferred object later found stays held := by
    obtain ⟨holds, equal⟩ := stays (held object found)
    cases deferred with
    | raw bytes => cases found
    | decoded bytes old =>
      cases found
      exact ⟨fun found same => by cases same; exact holds, equal⟩
    | owned old =>
      cases found
      exact ⟨fun found same => by cases same; exact holds, equal⟩

end Deferred

namespace Optional

variable {σ : Type} {inner : ObjectFormat σ} {Domain : σ → Prop}

/-- A payload that is at hand belongs to a domain. -/
def Fields.AtHand (Domain : σ → Prop) (fields : Fields σ) : Prop :=
  ∀ payload, fields.item = some payload → payload.AtHand Domain

variable (whole : EquivalenceOn (Structured.same (segments inner)) fun wrapper =>
  wrapper.fields.AtHand Domain)

include whole

theorem payload_equivalence : EquivalenceOn (Deferred.same inner) (Deferred.AtHand Domain) :=
  whole.comap (fun payload => ⟨[], none, ⟨some payload⟩⟩)
    (fun payload holds found same => by cases same; exact holds) fun _ _ => rfl

omit whole in
theorem stays_item {presence : Presence} {memo : Option Nat} {item later : Deferred σ}
    (stays : StaysEqual (Deferred.same inner) (Deferred.AtHand Domain) item later) :
    StaysEqual (Structured.same (segments inner)) (fun wrapper => wrapper.fields.AtHand Domain)
      ⟨presence, memo, ⟨some item⟩⟩ ⟨presence, memo, ⟨some later⟩⟩ := by
  intro held
  obtain ⟨holds, equal⟩ := stays (held item rfl)
  refine ⟨fun payload same => by cases same; exact holds, ?_⟩
  rw [Structured.same, if_pos rfl]
  exact equal

theorem stays_size (items : (Deferred.element inner).Follows
      (StaysEqual (Deferred.same inner) (Deferred.AtHand Domain))) (wrapper : Optional σ) :
    StaysEqual (Structured.same (segments inner)) (fun wrapper => wrapper.fields.AtHand Domain) wrapper
      (wrapper.size (segments inner)).2 := by
  obtain ⟨presence, memo, fields⟩ := wrapper
  cases memo with
  | some declared => exact whole.stays_refl _
  | none =>
    refine SegmentFormat.blocksSize_preserves (P := fun later => StaysEqual
      (Structured.same (segments inner)) (fun wrapper => wrapper.fields.AtHand Domain)
      ⟨presence, none, fields⟩
      ⟨presence, some ((segments inner).blocksSize presence.written fields).1, later⟩) ?_
      (Structured.stays_memo _ whole presence _ _ fields)
    intro set _ later stays
    refine whole.stays_trans _ _ _ stays ?_
    obtain ⟨item⟩ := later
    change StaysEqual _ _ _ (Structured.mk presence _ (fieldsSize inner set ⟨item⟩).2)
    cases item with
    | none => exact whole.stays_refl _
    | some item =>
      by_cases has : set.has itemField = true
      · simp only [fieldsSize, has, if_true]
        exact stays_item (items.size item)
      · simp only [fieldsSize, has]
        exact whole.stays_refl _

theorem stays (read : ∀ bytes object, inner.deserialize bytes = .ok object → Domain object)
    (follows : inner.Follows (StaysEqual inner.same Domain)) :
    (Optional.format inner).Follows
      (StaysEqual (Structured.same (segments inner)) fun wrapper => wrapper.fields.AtHand Domain) := by
  have allows := Deferred.stays_allows (payload_equivalence whole) read
  have items := allows.follows follows
  exact Optional.follows items whole.stays_refl whole.stays_trans (stays_size whole items)
    fun _ _ _ _ => stays_item

end Optional

/-! ## Trees -/

namespace Tree

theorem forall₂_iff_map_forget {Rel : Tree → Tree → Prop} {Below : Tree → Prop}
    (iff : ∀ {left right}, Below left → Below right → (Rel left right ↔ forget left = forget right))
    {lefts rights : List Tree} (leftEach : ∀ left ∈ lefts, Below left)
    (rightEach : ∀ right ∈ rights, Below right) :
    List.Forall₂ Rel lefts rights ↔ lefts.map forget = rights.map forget := by
  induction lefts generalizing rights with
  | nil => cases rights <;> simp
  | cons left lefts ih =>
    cases rights with
    | nil => simp
    | cons right rights =>
      obtain ⟨leftHead, leftRest⟩ := List.forall_mem_cons.mp leftEach
      obtain ⟨rightHead, rightRest⟩ := List.forall_mem_cons.mp rightEach
      rw [List.forall₂_cons, List.map_cons, List.map_cons, List.cons_eq_cons,
        iff leftHead rightHead, ih leftRest rightRest]

/-- Trees are equal if they are the same up to the sizes that they remember. -/
theorem formatUpTo_same_iff {levels : Nat} {left right : Tree} (leftBelow : left.depth ≤ levels)
    (rightBelow : right.depth ≤ levels) :
    ((formatUpTo levels).same left right).1 = true ↔ forget left = forget right := by
  -- by the levels and not by the tree, since the format of a tree contains that of its children
  induction levels generalizing left right with
  | zero => exact absurd leftBelow (Nat.not_le_of_lt left.one_le_depth)
  | succ levels ih =>
    obtain ⟨lefts⟩ := left
    obtain ⟨rights⟩ := right
    have leftEach := (depth_node_le_iff lefts levels).mp leftBelow
    have rightEach := (depth_node_le_iff rights levels).mp rightBelow
    have children := forall₂_iff_map_forget ih leftEach rightEach
    change (Sequence.same (ElementFormat.object (formatUpTo levels)) lefts rights).1 = true ↔ _
    obtain ⟨leftItems, leftMemo⟩ := lefts
    obtain ⟨rightItems, rightMemo⟩ := rights
    simp only [forget, forgetList_eq_map, node.injEq, Sequence.mk.injEq, and_true]
    exact (Sequence.same_iff _ _ _).trans children

theorem equivalence (Domain : Tree → Prop) : EquivalenceOn format.same Domain :=
  equivalenceOn_of_iff forget fun _ _ _ _ =>
    formatUpTo_same_iff (Nat.le_max_left _ _) (Nat.le_max_right _ _)

theorem staysEqual_of_lasting {tree later : Tree} (lasting : view.Lasting tree later) :
    StaysEqual format.same (fun _ => True) tree later := fun _ =>
  ⟨trivial, (formatUpTo_same_iff (Nat.le_max_left _ _) (Nat.le_max_right _ _)).mpr
    (lasting trivial).contents.symm⟩

theorem stays : format.Follows (StaysEqual format.same fun _ => True) :=
  lasting.imp (equivalence _).stays_refl (equivalence _).stays_trans fun _ _ => staysEqual_of_lasting

end Tree

/-! ## Messages -/

theorem FrameworkError.equivalence : EquivalenceOn format.same fun _ => True := by
  refine equivalenceOn_of_iff
    (fun error : FrameworkError => (error.presence, error.fields.message.map Text.bytes))
    fun left right _ _ => ?_
  change (Structured.same segments left right).1 = true ↔ _
  rw [Structured.same, Prod.mk.injEq]
  split
  · rename_i same
    change Fields.same left.fields right.fields = true ↔ _
    rw [Fields.same, and_iff_right same]
    cases left.fields.message <;> cases right.fields.message <;> simp [Text.same_iff]
  · rename_i apart
    exact iff_of_false Bool.false_ne_true fun same => apart same.1

theorem ErrorEnvelope.equivalence : EquivalenceOn format.same fun _ => True := by
  refine equivalenceOn_of_iff (fun envelope : ErrorEnvelope => (envelope.presence,
    envelope.fields.errorType.bytes, envelope.fields.serializedError)) fun left right _ _ => ?_
  change (Structured.same segments left right).1 = true ↔ _
  rw [Structured.same, Prod.mk.injEq, Prod.mk.injEq]
  split
  · rename_i same
    change (left.fields.errorType.same right.fields.errorType &&
      left.fields.serializedError == right.fields.serializedError) = true ↔ _
    rw [and_iff_right same, Bool.and_eq_true, Text.same_iff, beq_iff_eq]
  · rename_i apart
    exact iff_of_false Bool.false_ne_true fun same => apart same.1

/-! ## Schemas -/

mutual

/-- No dictionary in an object has a key twice, as far as it is decoded. -/
def Schema.Distinct : (schema : Schema) → schema.isStandard = true → schema.Carrier → Prop
  | .sequence element, standard => fun sequence =>
    ∀ item ∈ sequence.items, element.Distinct standard item
  | .dictionary element, standard => Dictionary.Keyed (element.Distinct standard)
  | .frameworkError, _ => fun _ => True
  | .errorEnvelope, _ => fun _ => True
  | .signedChunk, _ => fun _ => True
  | .optional item, standard => fun wrapper => wrapper.fields.AtHand (item.Distinct standard)
  | .record _, standard => absurd standard Bool.false_ne_true
  | .tree, _ => fun _ => True

def ElementKind.Distinct : (kind : ElementKind) → kind.isStandard = true → kind.Carrier → Prop
  | .bool, _ => fun _ => True
  | .integer _, _ => fun _ => True
  | .float, _ => fun _ => True
  | .double, _ => fun _ => True
  | .text, _ => fun _ => True
  | .object schema, standard => schema.Distinct standard

end

mutual

theorem Schema.distinct_of_read : (schema : Schema) → (standard : schema.isStandard = true) →
    ∀ cursor object after, schema.format.read cursor = .ok object after →
      schema.Distinct standard object
  | .sequence element, standard, _, _, _, ran => by
    obtain ⟨_, _, _, read, _⟩ := Sequence.load_eq_ok (ObjectFormat.load_of_read ran)
    exact ElementFormat.readValues_forall (element.distinct_of_read standard) read
  | .dictionary element, standard, _, _, _, ran => by
    obtain ⟨_, _, keys, values, _, _, _, read, aligned, _, rfl⟩ :=
      Dictionary.load_eq_ok (ObjectFormat.load_of_read ran)
    have each := ElementFormat.readValues_forall (element.distinct_of_read standard) read
    refine ⟨Dictionary.nodup_lastOccurrences _, fun entry member => ?_⟩
    exact each _ (List.of_mem_zip ((Dictionary.lastOccurrences_sublist _).subset member)).2
  | .frameworkError, _, _, _, _, _ => trivial
  | .errorEnvelope, _, _, _, _, _ => trivial
  | .signedChunk, _, _, _, _, _ => trivial
  | .optional item, _, _, _, _, ran => by
    intro payload there object held
    obtain ⟨bytes, rfl, _⟩ := Optional.raw_of_read ran payload there
    cases held
  | .record _, standard, _, _, _, _ => absurd standard Bool.false_ne_true
  | .tree, _, _, _, _, _ => trivial

theorem ElementKind.distinct_of_read : (kind : ElementKind) → (standard : kind.isStandard = true) →
    ∀ cursor value after, kind.format.read cursor = .ok value after → kind.Distinct standard value
  | .bool, _, _, _, _, _ => trivial
  | .integer _, _, _, _, _, _ => trivial
  | .float, _, _, _, _, _ => trivial
  | .double, _, _, _, _, _ => trivial
  | .text, _, _, _, _, _ => trivial
  | .object schema, standard, cursor, object, after, ran =>
    schema.distinct_of_read standard cursor object after ran

end

theorem Schema.distinct_of_deserialize (schema : Schema) (standard : schema.isStandard = true)
    (bytes : Bytes) (object : schema.Carrier) (decoded : schema.format.deserialize bytes = .ok object) :
    schema.Distinct standard object := by
  obtain ⟨_, ran, _⟩ := ObjectFormat.read_of_deserialize decoded
  exact schema.distinct_of_read standard _ _ _ ran

mutual

/-- Where equality is an equivalence, whatever only looks at an object leaves it equal. -/
theorem Schema.stays : (schema : Schema) → (standard : schema.isStandard = true) →
    EquivalenceOn schema.format.same (schema.Distinct standard) →
      schema.format.Follows (StaysEqual schema.format.same (schema.Distinct standard))
  | .sequence element, standard, whole =>
    have elements := Sequence.element_equivalence whole
    Sequence.stays elements (element.stays standard elements)
  | .dictionary element, standard, whole =>
    have elements := Dictionary.element_equivalence whole
    Dictionary.stays elements (element.stays standard elements)
  | .frameworkError, _, whole => Structured.ofPlain_stays whole
  | .errorEnvelope, _, whole => Structured.ofPlain_stays whole
  | .signedChunk, _, whole => Structured.ofPlain_stays whole
  | .optional item, standard, whole =>
    have objects := Deferred.object_equivalence (Optional.payload_equivalence whole)
    Optional.stays whole (item.distinct_of_deserialize standard) (item.stays standard objects)
  | .record _, standard, _ => absurd standard Bool.false_ne_true
  | .tree, _, _ => Tree.stays

theorem ElementKind.stays : (kind : ElementKind) → (standard : kind.isStandard = true) →
    EquivalenceOn kind.format.same (kind.Distinct standard) →
      kind.format.Follows (StaysEqual kind.format.same (kind.Distinct standard))
  | .bool, _, whole => ElementFormat.ofPlain_follows whole.stays_refl whole.stays_trans
  | .integer _, _, whole => ElementFormat.ofPlain_follows whole.stays_refl whole.stays_trans
  | .float, _, whole => ElementFormat.ofPlain_follows whole.stays_refl whole.stays_trans
  | .double, _, whole => ElementFormat.ofPlain_follows whole.stays_refl whole.stays_trans
  | .text, _, whole => ElementFormat.ofPlain_follows whole.stays_refl whole.stays_trans
  | .object schema, standard, whole => (schema.stays standard whole).element

end

mutual

theorem Schema.stays_of_peek : (schema : Schema) → (standard : schema.isStandard = true) →
    EquivalenceOn schema.format.same (schema.Distinct standard) →
      ∀ object later, schema.Peek standard object later →
        StaysEqual schema.format.same (schema.Distinct standard) object later
  | .sequence element, standard, whole, _, _, peek =>
    have elements := Sequence.element_equivalence whole
    (Schema.stays (.sequence element) standard whole).of_peek (fun _ _ =>
      Sequence.rel_of_inside (element.stays standard elements)
        (fun _ _ memo => Sequence.stays_items memo memo)
        (element.stays_of_peek standard elements)) peek
  | .dictionary element, standard, whole, _, _, peek =>
    have elements := Dictionary.element_equivalence whole
    (Schema.stays (.dictionary element) standard whole).of_peek (fun _ _ =>
      Dictionary.rel_of_inside (element.stays standard elements)
        (fun _ _ memo => Dictionary.stays_entries elements memo memo)
        (element.stays_of_peek standard elements)) peek
  | .frameworkError, standard, whole, _, _, peek =>
    (Schema.stays .frameworkError standard whole).of_peek (fun _ _ => False.elim) peek
  | .errorEnvelope, standard, whole, _, _, peek =>
    (Schema.stays .errorEnvelope standard whole).of_peek (fun _ _ => False.elim) peek
  | .signedChunk, standard, whole, _, _, peek =>
    (Schema.stays .signedChunk standard whole).of_peek (fun _ _ => False.elim) peek
  | .optional item, standard, whole, _, _, peek =>
    have payloads := Optional.payload_equivalence whole
    have allows := Deferred.stays_allows payloads (item.distinct_of_deserialize standard)
    (Schema.stays (.optional item) standard whole).of_peek (fun _ _ =>
      Optional.rel_of_inside allows whole.stays_refl (fun _ _ _ _ => Optional.stays_item)
        (item.stays_of_peek standard (Deferred.object_equivalence payloads))) peek
  | .record _, standard, _, _, _, _ => absurd standard Bool.false_ne_true
  | .tree, _, _, _, _, peek => Tree.staysEqual_of_lasting (Tree.lasting_of_peek peek)

theorem ElementKind.stays_of_peek : (kind : ElementKind) → (standard : kind.isStandard = true) →
    EquivalenceOn kind.format.same (kind.Distinct standard) →
      ∀ value later, kind.Peek standard value later →
        StaysEqual kind.format.same (kind.Distinct standard) value later
  | .bool, _, whole, _, _, rfl => whole.stays_refl _
  | .integer _, _, whole, _, _, rfl => whole.stays_refl _
  | .float, _, whole, _, _, rfl => whole.stays_refl _
  | .double, _, whole, _, _, rfl => whole.stays_refl _
  | .text, _, whole, _, _, rfl => whole.stays_refl _
  | .object schema, standard, whole, object, later, peek =>
    schema.stays_of_peek standard whole object later peek

end

/-! ## Equality that is an equivalence -/

mutual

/-- Whether neither a floating-point number nor a payload can occur in an object. -/
def Schema.isComparable : Schema → Bool
  | .sequence element => element.isComparable
  | .dictionary element => element.isComparable
  | .frameworkError => true
  | .errorEnvelope => true
  | .signedChunk => false
  | .optional _ => false
  | .record _ => false
  | .tree => true

def ElementKind.isComparable : ElementKind → Bool
  | .bool => true
  | .integer _ => true
  | .float => false
  | .double => false
  | .text => true
  | .object schema => schema.isComparable

end

mutual

theorem Schema.equivalence : (schema : Schema) → (standard : schema.isStandard = true) →
    schema.isComparable = true → EquivalenceOn schema.format.same (schema.Distinct standard)
  | .sequence element, standard, comparable =>
    Sequence.equivalence (element.equivalence standard comparable)
  | .dictionary element, standard, comparable =>
    Dictionary.equivalence (element.equivalence standard comparable)
  | .frameworkError, _, _ => FrameworkError.equivalence
  | .errorEnvelope, _, _ => ErrorEnvelope.equivalence
  | .signedChunk, _, comparable => absurd comparable Bool.false_ne_true
  | .optional _, _, comparable => absurd comparable Bool.false_ne_true
  | .record _, standard, _ => absurd standard Bool.false_ne_true
  | .tree, _, _ => Tree.equivalence _

theorem ElementKind.equivalence : (kind : ElementKind) → (standard : kind.isStandard = true) →
    kind.isComparable = true → EquivalenceOn kind.format.same (kind.Distinct standard)
  | .bool, _, _ => ElementFormat.bool_equivalence _
  | .integer width, _, _ => ElementFormat.integer_equivalence width _
  | .float, _, comparable => absurd comparable Bool.false_ne_true
  | .double, _, comparable => absurd comparable Bool.false_ne_true
  | .text, _, _ => ElementFormat.text_equivalence _
  | .object schema, standard, comparable => schema.equivalence standard comparable

end

end FieldWire
