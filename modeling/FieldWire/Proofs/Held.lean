import FieldWire.Proofs.Peek

/-!
# Objects that are held in full

An object that was never read holds its payloads as objects, to any depth, and carries whatever
bytes it was given.  Its size and its bytes are those that are worked out anew, looking at it changes
nothing that is seen, and what is written for it is determined by its contents.
-/

set_option autoImplicit false

namespace FieldWire

/-- A later state of a valid value in which the same is seen. -/
def View.Lasting {α : Type} (view : View α) (value later : α) : Prop :=
  view.Valid value → view.Alike value later

/-- What is written for valid values is determined by their contents. -/
def View.Determined {α : Type} (view : View α) : Prop :=
  ∀ value other, view.Valid value → view.Valid other → view.contents other = view.contents value →
    view.bytes other = view.bytes value

namespace View

variable {α : Type} {view : View α}

theorem Lasting.refl (view : View α) (value : α) : view.Lasting value value :=
  fun _ => Alike.refl view value

theorem Lasting.trans (first second third : α) (before : view.Lasting first second)
    (after : view.Lasting second third) : view.Lasting first third := by
  intro valid
  have alike := before valid
  exact alike.trans (after (alike.valid valid))

theorem Lasting.spanned {value later : α} (lasting : view.Lasting value later) :
    view.spanned.Lasting value later :=
  fun valid => (lasting valid).spanned

theorem Determined.spanned (determined : view.Determined) : view.spanned.Determined := by
  intro value other valid otherValid same
  exact congrArg Write.blob (determined value other valid otherValid same)

theorem plain_determined {γ : Type} {contents : α → γ} {bytes : α → Bytes}
    (written : ∀ value other, contents other = contents value → bytes other = bytes value) :
    (View.plain contents bytes).Determined :=
  fun value other _ _ => written value other

theorem run_alike_of_forall₂ {scheme : WireType} {values later : List α}
    (lasting : List.Forall₂ view.Lasting values later)
    (valid : ∀ value ∈ values, view.Valid value) : (view.run scheme).Alike values later := by
  induction lasting with
  | nil => exact Alike.refl _ _
  | @cons value next values later head _ ih =>
    obtain ⟨validHead, validRest⟩ := List.forall_mem_cons.mp valid
    have first := head validHead
    have rest := ih validRest
    have lengths : later.length = values.length := by
      have contents : later.map view.contents = values.map view.contents := rest.contents
      have same := congrArg List.length contents
      rwa [List.length_map, List.length_map] at same
    have bodies : later.flatMap view.bytes = values.flatMap view.bytes := by
      have bytes : Write.lengthTag later.length scheme ++ later.flatMap view.bytes =
          Write.lengthTag values.length scheme ++ values.flatMap view.bytes := rest.bytes
      rw [lengths] at bytes
      exact List.append_cancel_left bytes
    refine ⟨?_, ?_, ?_, ?_⟩
    · have contents : later.map view.contents = values.map view.contents := rest.contents
      change (next :: later).map view.contents = (value :: values).map view.contents
      rw [List.map_cons, List.map_cons, first.contents, contents]
    · change Write.lengthTag (next :: later).length scheme ++ (next :: later).flatMap view.bytes =
        Write.lengthTag (value :: values).length scheme ++ (value :: values).flatMap view.bytes
      rw [List.length_cons, List.length_cons, lengths, List.flatMap_cons, List.flatMap_cons,
        first.bytes, bodies]
    · intro exact
      obtain ⟨exactHead, exactRest⟩ := List.forall_mem_cons.mp exact
      exact List.forall_mem_cons.mpr ⟨first.exact exactHead, rest.exact exactRest⟩
    · intro _
      exact List.forall_mem_cons.mpr ⟨first.valid validHead, rest.valid validRest⟩

theorem Determined.run (determined : view.Determined) (scheme : WireType) :
    (view.run scheme).Determined := by
  intro values others valid othersValid contents
  have same : others.map view.contents = values.map view.contents := contents
  have lengths := congrArg List.length same
  rw [List.length_map, List.length_map] at lengths
  have bodies : others.flatMap view.bytes = values.flatMap view.bytes := by
    clear lengths contents
    induction values generalizing others with
    | nil =>
      rw [List.map_nil, List.map_eq_nil_iff] at same
      rw [same]
    | cons value values ih =>
      cases others with
      | nil => cases same
      | cons other others =>
        obtain ⟨validHead, validRest⟩ := List.forall_mem_cons.mp valid
        obtain ⟨otherHead, otherRest⟩ := List.forall_mem_cons.mp othersValid
        obtain ⟨sameHead, sameRest⟩ := List.cons_eq_cons.mp same
        rw [List.flatMap_cons, List.flatMap_cons,
          determined value other validHead otherHead sameHead, ih others validRest otherRest sameRest]
  change Write.lengthTag others.length scheme ++ others.flatMap view.bytes = _
  rw [lengths, bodies]
  rfl

end View

namespace ElementFormat

theorem ofPlain_lasting {α γ : Type} {scheme : WireType} {size : α → Nat} {write : α → Bytes}
    {read : Reader α} {same : α → α → Bool} {contents : α → γ} :
    (ofPlain scheme size write read same).Follows (View.plain contents write).Lasting :=
  ofPlain_follows (View.Lasting.refl _) View.Lasting.trans

theorem spanned_follows {α : Type} {format : ElementFormat α} {view : View α}
    (follows : format.Follows view.Lasting) : format.Follows view.spanned.Lasting :=
  follows.imp (View.Lasting.refl _) View.Lasting.trans fun _ _ lasting => lasting.spanned

end ElementFormat

/-! ## Collections -/

namespace Sequence

variable {α : Type} {format : ElementFormat α} {element : View α}

theorem lasting_items {scheme : WireType} {items later : List α} (memo : Option Nat)
    (lasting : List.Forall₂ element.Lasting items later) :
    (Sequence.view scheme element).Lasting ⟨items, memo⟩ ⟨later, memo⟩ :=
  fun valid => alike_items memo (View.run_alike_of_forall₂ lasting valid)

theorem lasting (faithful : format.Faithful element) (elements : format.Follows element.Lasting) :
    (Sequence.format format).Follows (Sequence.view format.scheme element).Lasting :=
  Sequence.follows elements View.Lasting.trans (fun _ valid => size_alike faithful valid)
    (fun _ _ memo items => lasting_items memo items)

theorem determined (elements : element.Determined) (scheme : WireType) :
    (Sequence.view scheme element).Determined :=
  fun sequence other valid otherValid same =>
    elements.run scheme sequence.items other.items valid otherValid same

end Sequence

namespace Dictionary

variable {α : Type} {format : ElementFormat α} {element : View α}

theorem lasting_entries {scheme : WireType} {entries later : List (Text × α)} (memo : Option Nat)
    (lasting : List.Forall₂ (SameKey element.Lasting) entries later) :
    (Dictionary.view scheme element).Lasting ⟨entries, memo⟩ ⟨later, memo⟩ := by
  intro valid
  obtain ⟨keys, values⟩ := sameKey_parts lasting
  have zipped : later = (entries.map (·.1)).zip (later.map (·.2)) := List.zip_of_prod keys rfl
  have lengths : (later.map (·.2)).length = entries.length := by
    rw [List.length_map, ← lasting.length_eq]
  rw [zipped]
  exact alike_values memo lengths (View.run_alike_of_forall₂ values valid.2)

theorem lasting (faithful : format.Faithful element) (elements : format.Follows element.Lasting) :
    (Dictionary.format format).Follows (Dictionary.view format.scheme element).Lasting :=
  Dictionary.follows elements View.Lasting.trans (fun _ valid => size_alike faithful valid)
    (fun _ _ memo entries => lasting_entries memo entries)

theorem determined (elements : element.Determined) (scheme : WireType) :
    (Dictionary.view scheme element).Determined := by
  intro dictionary other valid otherValid same
  have lengths : ∀ entries : List (Text × α),
      ((entries.map (·.1)).map Text.bytes).length =
        ((entries.map (·.2)).map element.contents).length := by
    intro entries
    rw [List.length_map, List.length_map, List.length_map, List.length_map]
  have same : contentsOf element other.entries = contentsOf element dictionary.entries := same
  have keys := congrArg (List.map (·.1)) same
  have values := congrArg (List.map (·.2)) same
  simp only [contentsOf, List.map_fst_zip (Nat.le_of_eq (lengths _)),
    List.map_snd_zip (Nat.le_of_eq (lengths _).symm)] at keys values
  have texts : (View.plain Text.bytes Write.text).Determined :=
    View.plain_determined fun _ _ => congrArg Write.blob
  have keyBytes := texts.run .list _ _ (fun _ _ => trivial) (fun _ _ => trivial) keys
  have valueBytes := elements.run scheme _ _ valid.2 otherValid.2 values
  change bytesOf scheme element other.entries = bytesOf scheme element dictionary.entries
  rw [bytesOf, bytesOf, valueBytes]
  congr 1

end Dictionary

/-! ## Structures -/

/-- The values of the present fields determine what is written for a field set of the layout. -/
def SegmentView.Determined {φ : Type} (view : SegmentView φ) (layout : Layout) : Prop :=
  ∀ (slot : Nat) (segment : Segment) set fields other, layout[slot]? = some segment →
    segment.Admits set → set.bits ≠ 0 → view.Valid set fields → view.Valid set other →
    (∀ field ∈ set.presentFields, view.value slot field other = view.value slot field fields) →
      view.bytes set other = view.bytes set fields

namespace Structured

variable {φ : Type} {format : SegmentFormat φ} {fieldView : SegmentView φ}

theorem ofPlain_lasting {layout : Layout} {empty : φ} {size : FieldSet → φ → Nat}
    {encode : FieldSet → φ → Bytes} {load : FieldSet → Loader φ Unit} {same : φ → φ → Bool}
    (faithful : (SegmentFormat.ofPlain layout empty size encode load same).Faithful fieldView) :
    (Structured.format (SegmentFormat.ofPlain layout empty size encode load same)).Follows
      (Structured.view layout fieldView).Lasting :=
  ofPlain_follows (View.Lasting.refl _) View.Lasting.trans fun _ valid => size_alike faithful valid

theorem determined {layout : Layout} (fields : fieldView.Determined layout) :
    (Structured.view layout fieldView).Determined := by
  intro object other valid otherValid same
  obtain ⟨presence, values⟩ := SegmentView.contentsOf_inj same
  change fieldView.bodyOf other.presence other.fields =
    fieldView.bodyOf object.presence object.fields
  have otherWritten := otherValid.2
  rw [presence] at otherWritten ⊢
  apply SegmentView.bodyOf_congr
  intro set member
  obtain ⟨inside, nonempty⟩ := (Presence.mem_written_iff _ _).mp member
  obtain ⟨slot, segment, there, found, admits⟩ := valid.1.exists_slot inside
  exact fields slot segment set _ _ found admits nonempty (valid.2 set member)
    (otherWritten set member) (values slot set there)

end Structured

/-! ## Messages -/

namespace FrameworkError

theorem fieldView_determined : fieldView.Determined segments.layout := by
  intro place segment set fields other found admits nonempty valid otherValid same
  obtain ⟨rfl, rfl⟩ := singleton_getElem? found
  have has : set.has messageField = true := admits.has_known nonempty
  obtain ⟨message, there⟩ := Option.isSome_iff_exists.mp (valid has)
  obtain ⟨otherMessage, otherThere⟩ := Option.isSome_iff_exists.mp (otherValid has)
  obtain rfl : fields = ⟨some message⟩ := congrArg Fields.mk there
  obtain rfl : other = ⟨some otherMessage⟩ := congrArg Fields.mk otherThere
  have bytes : some otherMessage.bytes = some message.bytes :=
    same messageField (FieldSet.mem_presentFields (by decide) has)
  rw [bytes_of_has has, bytes_of_has has]
  exact congrArg Write.blob (Option.some.inj bytes)

end FrameworkError

namespace ErrorEnvelope

/-- What is seen of an envelope that may carry any bytes. -/
def carrierView : SegmentView Fields :=
  SegmentView.plain fieldView.value fieldView.bytes fun _ _ => True

theorem carrier_faithful : segments.Faithful carrierView :=
  SegmentFormat.ofPlain_faithful fieldsSize_eq

theorem carrierView_determined : carrierView.Determined segments.layout := by
  intro place segment set fields other found admits _ _ _ same
  obtain ⟨rfl, rfl⟩ := singleton_getElem? found
  have type : other.errorType.bytes = fields.errorType.bytes :=
    same typeField (FieldSet.mem_presentFields (by decide) (admits.has_required (by decide)))
  have error : other.serializedError = fields.serializedError :=
    same errorField (FieldSet.mem_presentFields (by decide) (admits.has_required (by decide)))
  change Write.text other.errorType ++ other.serializedError =
    Write.text fields.errorType ++ fields.serializedError
  rw [Write.text, Write.text, type, error]

end ErrorEnvelope

namespace SignedChunk

/-- What is seen of a chunk that may carry any bytes. -/
def carrierView : SegmentView Fields :=
  SegmentView.plain fieldView.value fieldView.bytes fun set fields =>
    set.wireType = .list → set.has chunkField → fields.chunk.isSome

theorem carrier_faithful : segments.Faithful carrierView :=
  SegmentFormat.ofPlain_faithful fieldsSize_eq

theorem carrierView_determined : carrierView.Determined segments.layout := by
  intro place segment set fields other found admits _ valid otherValid same
  change fieldView.bytes set other = fieldView.bytes set fields
  match place, found with
  | 0, found =>
    cases found
    have date : Sum.inl other.date = Sum.inl fields.date :=
      same dateField (FieldSet.mem_presentFields (by decide) (admits.has_required (by decide)))
    rw [bytes_of_eightByte _ admits.wireType, bytes_of_eightByte _ admits.wireType,
      Sum.inl.inj date]
  | 1, found =>
    cases found
    have list : set.wireType = .list := admits.wireType
    have signature : Sum.inr (some other.signature) = Sum.inr (some fields.signature) :=
      same signatureField (FieldSet.mem_presentFields (by decide) (admits.has_required (by decide)))
    rw [bytes_of_list _ list, bytes_of_list _ list, Option.some.inj (Sum.inr.inj signature)]
    by_cases has : set.has chunkField
    · have chunk : Sum.inr other.chunk = Sum.inr fields.chunk :=
        same chunkField (FieldSet.mem_presentFields (by decide) has)
      rw [Fields.shown, Fields.shown, if_pos has, if_pos has, Sum.inr.inj chunk]
    · rw [Fields.shown, Fields.shown, if_neg has, if_neg has]

end SignedChunk

/-! ## Optional payloads -/

namespace Deferred

variable {σ : Type} {format : ObjectFormat σ} {inner : View σ}

/-- What is seen of a payload that is held as an object. -/
def heldView (format : ObjectFormat σ) (inner : View σ) : View (Deferred σ) :=
  { view format inner with
    Valid := fun deferred => ∃ object, deferred = .owned object ∧ inner.Valid object }

theorem held_alike {object later : σ} (alike : inner.Alike object later) :
    (heldView format inner).Alike (.owned object) (.owned later) where
  contents := congrArg Except.ok alike.contents
  bytes := congrArg Write.blob alike.bytes
  exact := alike.exact
  valid := by
    rintro ⟨same, found, valid⟩
    cases found
    exact ⟨later, rfl, alike.valid valid⟩

theorem held_faithful (objects : format.Faithful inner) :
    (element format).Faithful (heldView format inner) where
  afterSize := by
    rintro deferred ⟨object, rfl, valid⟩
    exact held_alike (objects.afterSize object valid)
  afterWrite := by
    rintro deferred ⟨object, rfl, valid⟩
    exact held_alike (objects.afterEncode object valid)
  size_eq := by
    rintro deferred ⟨object, rfl, valid⟩ exact
    exact (ElementFormat.object_faithful objects).size_eq object valid exact
  write_eq := by
    rintro deferred ⟨object, rfl, valid⟩ exact
    exact objects.encode_eq object valid exact
  forgotten := by
    rintro deferred ⟨object, rfl, valid⟩
    obtain ⟨alike, exact⟩ := objects.forgotten object valid
    exact ⟨held_alike alike, exact⟩
  fixed _ _ found := by cases found

theorem held_allows : Allows format inner.Lasting (heldView format inner).Lasting where
  refl := View.Lasting.refl _
  trans := View.Lasting.trans
  get := by
    rintro deferred ⟨object, rfl, valid⟩
    exact View.Alike.refl _ _
  refresh := by
    rintro deferred object later held lasting ⟨same, rfl, valid⟩
    cases held
    exact held_alike (lasting valid)

theorem held_determined (objects : inner.Determined) : (heldView format inner).Determined := by
  rintro deferred otherDeferred ⟨object, rfl, valid⟩ ⟨other, rfl, otherValid⟩ same
  exact congrArg Write.blob (objects object other valid otherValid (Except.ok.inj same))

end Deferred

namespace Optional

variable {σ : Type} {format : ObjectFormat σ} {inner : View σ} {payload : View (Deferred σ)}

theorem lasting_item (presence : Presence) (memo : Option Nat) {item later : Deferred σ}
    (lasting : payload.Lasting item later) :
    (Structured.view (segments format).layout (payloadView payload)).Lasting
      ⟨presence, memo, ⟨some item⟩⟩ ⟨presence, memo, ⟨some later⟩⟩ := by
  intro valid
  refine Structured.alike_fields memo fun set member => ?_
  by_cases has : set.has itemField
  · obtain ⟨held, found, itemValid⟩ := valid.2 set member has
    cases found
    exact payload_alike set (lasting itemValid)
  · exact payload_alike_of_missing _ _ has

theorem lasting (items : (Deferred.element format).Faithful payload)
    (follows : (Deferred.element format).Follows payload.Lasting) :
    (Optional.format format).Follows
      (Structured.view (segments format).layout (payloadView payload)).Lasting :=
  Optional.follows follows (View.Lasting.refl _) View.Lasting.trans
    (fun _ valid => Structured.size_alike (payload_faithful items) valid)
    (fun presence memo _ _ => lasting_item presence memo)

theorem payload_determined (items : payload.Determined) :
    (payloadView payload).Determined (segments format).layout := by
  intro place segment set fields other found admits nonempty valid otherValid same
  obtain ⟨rfl, rfl⟩ := singleton_getElem? found
  have has : set.has itemField = true := admits.has_known nonempty
  obtain ⟨item, there, itemValid⟩ := valid has
  obtain ⟨otherItem, otherThere, otherItemValid⟩ := otherValid has
  obtain rfl : fields = ⟨some item⟩ := congrArg Fields.mk there
  obtain rfl : other = ⟨some otherItem⟩ := congrArg Fields.mk otherThere
  have contents : some (payload.contents otherItem) = some (payload.contents item) :=
    same itemField (FieldSet.mem_presentFields (by decide) has)
  rw [payloadBytes_of_has has, payloadBytes_of_has has]
  exact items item otherItem itemValid otherItemValid (Option.some.inj contents)

end Optional

/-! ## Trees -/

namespace Tree

theorem alike_children {children later : Sequence Tree}
    (alike : (Sequence.view .list view.spanned).Alike children later) :
    view.Alike (node children) (node later) where
  contents := forget_node_congr alike.contents
  bytes := by
    change body (node later) = body (node children)
    rw [body_node _ 0, body_node _ 0]
    exact alike.bytes
  exact exact := (exact_node_iff later 0).mpr (alike.exact ((exact_node_iff children 0).mp exact))
  valid _ := trivial

theorem formatUpTo_lasting (levels : Nat) :
    (formatUpTo levels).Follows (viewUpTo levels).Lasting := by
  induction levels with
  | zero =>
    have none : ∀ tree later, (viewUpTo 0).Lasting tree later := by
      intro tree later valid
      have positive := Nat.le_trans (one_le_depth tree) valid
      omega
    exact ⟨fun _ => none _ _, View.Lasting.trans, fun _ => none _ _, fun _ => none _ _,
      fun _ _ => none _ _, fun _ _ => none _ _⟩
  | succ levels ih =>
    have children : (Sequence.format (ElementFormat.object (formatUpTo levels))).Follows
        (childrenView levels).Lasting :=
      Sequence.lasting (ElementFormat.object_faithful (formatUpTo_faithful levels))
        (ElementFormat.spanned_follows ih.element)
    have lift : ∀ {sequence later}, (childrenView levels).Lasting sequence later →
        (viewUpTo (levels + 1)).Lasting (node sequence) (node later) :=
      fun lasting valid => alike_node (lasting ((depth_node_le_iff _ _).mp valid))
    exact {
      refl := View.Lasting.refl _
      trans := View.Lasting.trans
      size := fun ⟨sequence⟩ => lift (children.size sequence)
      encode := fun ⟨sequence⟩ => lift (children.encode sequence)
      left := fun ⟨sequence⟩ ⟨other⟩ => lift (children.left sequence other)
      right := fun ⟨sequence⟩ ⟨other⟩ => lift (children.right sequence other) }

theorem lasting : format.Follows view.Lasting where
  refl := View.Lasting.refl _
  trans := View.Lasting.trans
  size tree _ := faithful.afterSize tree trivial
  encode tree _ := faithful.afterEncode tree trivial
  left tree other _ :=
    alike_of_viewUpTo ((formatUpTo_lasting _).left tree other (Nat.le_max_left _ _))
  right tree other _ :=
    alike_of_viewUpTo ((formatUpTo_lasting _).right tree other (Nat.le_max_right _ _))

theorem lasting_of_peek {tree later : Tree} (peek : Peek tree later) : view.Lasting tree later := by
  induction peek with
  | start tree => exact lasting.refl tree
  | size _ ih => exact lasting.trans _ _ _ ih (lasting.size _)
  | encode _ ih => exact lasting.trans _ _ _ ih (lasting.encode _)
  | left other _ ih => exact lasting.trans _ _ _ ih (lasting.left _ other)
  | right other _ ih => exact lasting.trans _ _ _ ih (lasting.right _ other)
  | subtree _ there _ ih childIh =>
    have items := forall₂_set (View.Lasting.refl view.spanned) there childIh.spanned
    exact lasting.trans _ _ _ ih fun _ =>
      alike_children (Sequence.lasting_items _ items fun _ _ => trivial)

/-- A tree is its own contents, up to what it remembers. -/
theorem determined : view.Determined := by
  intro tree other _ _ same
  have forgets : ∀ tree, body (forget tree) = body tree :=
    fun tree => ((faithful.forgotten tree trivial).1).bytes
  change body other = body tree
  rw [← forgets other, ← forgets tree]
  exact congrArg body same

end Tree

end FieldWire
