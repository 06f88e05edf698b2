import FieldWire.Proofs.Built
import FieldWire.Proofs.Optional

/-!
# Built messages

The setters of the messages and of optional payloads.  A setter puts a value and the presence of its
field in step and forgets the remembered size.  The payload of a built wrapper is always at hand,
because only reading leaves bytes behind.
-/

set_option autoImplicit false

namespace FieldWire

namespace Structured

variable {φ : Type} {format : SegmentFormat φ} {fieldView : SegmentView φ}

theorem sound_of_none {layout : Layout} {presence : Presence} {fields : φ}
    (fits : presence.Fits layout) (valid : ∀ set ∈ presence, fieldView.Valid set fields)
    (exact : ∀ set ∈ presence, fieldView.Exact set fields) :
    (Structured.view layout fieldView).Sound ⟨presence, none, fields⟩ := by
  refine ⟨⟨fits, fun set member => ?_⟩, remembers_none _, fun set member => ?_⟩
  · exact valid set ((Presence.mem_written_iff _ _).mp member).1
  · exact exact set ((Presence.mem_written_iff _ _).mp member).1

/-- Other values in the same field sets. -/
theorem sound_of_change {layout : Layout} {object : Structured φ} {update : φ → φ}
    (sound : (Structured.view layout fieldView).Sound object)
    (valid : ∀ set, fieldView.Valid set object.fields → fieldView.Valid set (update object.fields))
    (exact : ∀ set, fieldView.Exact set object.fields → fieldView.Exact set (update object.fields)) :
    (Structured.view layout fieldView).Sound (object.change update) where
  valid := ⟨sound.valid.1, fun set member => valid set (sound.valid.2 set member)⟩
  exact := ⟨remembers_none _, fun set member => exact set (sound.exact.2 set member)⟩

theorem fits_fresh (measured : format.Measured fieldView) :
    format.layout.fresh.Fits format.layout :=
  Presence.Fits.fresh measured.wellFormed

end Structured

/-! ## Framework errors -/

namespace FrameworkError

/-- The setters of a framework error. -/
inductive Step (error : FrameworkError) : FrameworkError → Prop where
  | setMessage (message : Text) : Step error (setMessage error message)
  | clearMessage : Step error (clearMessage error)

/-- The message field may be set and cleared in any presence. -/
theorem fits_set {presence : Presence} (fits : presence.Fits segments.layout) (present : Bool) :
    (presence.set slot messageField present).Fits segments.layout :=
  fits.set present rfl (by decide) (by decide)

theorem sound_of_step {error later : FrameworkError} (step : Step error later)
    (sound : (Structured.view segments.layout fieldView).Sound error) :
    (Structured.view segments.layout fieldView).Sound later := by
  have fits := sound.valid.1
  cases step with
  | setMessage message =>
    exact Structured.sound_of_none (fits_set fits true) (fun _ _ _ => rfl) (fun _ _ => trivial)
  | clearMessage =>
    refine Structured.sound_of_none (fits_set fits false) ?_ (fun _ _ => trivial)
    intro set member has
    obtain ⟨place, segment, there, found, _⟩ := (fits_set fits false).exists_slot member
    obtain ⟨rfl, _⟩ := singleton_getElem? found
    exact absurd has (Presence.not_has_of_set_false there)

theorem sound_empty : (Structured.view segments.layout fieldView).Sound format.empty := by
  refine Structured.sound_of_none (Structured.fits_fresh segments_measured) ?_ (fun _ _ => trivial)
  intro set member has
  obtain rfl := List.mem_singleton.mp member
  exact absurd has (by decide)

end FrameworkError

/-! ## Error envelopes -/

namespace ErrorEnvelope

/-- The setters of an error envelope.  The encoded error is a whole object. -/
inductive Step (envelope : ErrorEnvelope) : ErrorEnvelope → Prop where
  | setErrorType (errorType : Text) : Step envelope (setErrorType envelope errorType)
  | setSerializedError {bytes : Bytes} (whole : LengthTag.IsEnvelope bytes) :
      Step envelope (setSerializedError envelope bytes)

theorem sound_of_step {envelope later : ErrorEnvelope} (step : Step envelope later)
    (sound : (Structured.view segments.layout fieldView).Sound envelope) :
    (Structured.view segments.layout fieldView).Sound later := by
  cases step with
  | setErrorType => exact Structured.sound_of_change sound (fun _ => id) (fun _ => id)
  | setSerializedError whole =>
    exact Structured.sound_of_change sound (fun _ _ => whole) (fun _ => id)

theorem isEnvelope_emptyObject : LengthTag.IsEnvelope emptyObject := ⟨0, 1, rfl, rfl, rfl⟩

theorem sound_empty : (Structured.view segments.layout fieldView).Sound format.empty :=
  Structured.sound_of_none (Structured.fits_fresh segments_measured)
    (fun _ _ => isEnvelope_emptyObject) (fun _ _ => trivial)

end ErrorEnvelope

/-! ## Signed chunks -/

namespace SignedChunk

/-- The setters of a signed chunk.  The chunk is a whole object. -/
inductive Step (chunk : SignedChunk) : SignedChunk → Prop where
  | setDateMillis (millis : Binary64) : Step chunk (setDateMillis chunk millis)
  | setSignature (signature : Bytes) : Step chunk (setSignature chunk signature)
  | setChunk {bytes : Bytes} (whole : LengthTag.IsEnvelope bytes) : Step chunk (setChunk chunk bytes)
  | clearChunk : Step chunk (clearChunk chunk)

/-- The chunk field may be set and cleared in any presence. -/
theorem fits_set {presence : Presence} (fits : presence.Fits segments.layout) (present : Bool) :
    (presence.set slot chunkField present).Fits segments.layout :=
  fits.set present rfl (by decide) (by decide)

/-- Only the second slot has a field set of lists. -/
theorem slot_of_list {presence : Presence} {set : FieldSet} (fits : presence.Fits segments.layout)
    (member : set ∈ presence) (list : set.wireType = .list) : presence[slot]? = some set := by
  obtain ⟨place, segment, there, found, admits⟩ := fits.exists_slot member
  rcases segment_of_getElem? found with ⟨_, eight⟩ | ⟨rfl, _⟩
  · rw [admits.wireType, eight] at list
    cases list
  · exact there

theorem sound_of_step {chunk later : SignedChunk} (step : Step chunk later)
    (sound : (Structured.view segments.layout fieldView).Sound chunk) :
    (Structured.view segments.layout fieldView).Sound later := by
  have fits := sound.valid.1
  cases step with
  | setDateMillis => exact Structured.sound_of_change sound (fun _ => id) (fun _ => id)
  | setSignature => exact Structured.sound_of_change sound (fun _ => id) (fun _ => id)
  | setChunk whole =>
    exact Structured.sound_of_none (fits_set fits true) (fun _ _ _ _ => ⟨_, rfl, whole⟩)
      (fun _ _ => trivial)
  | clearChunk =>
    refine Structured.sound_of_none (fits_set fits false) ?_ (fun _ _ => trivial)
    intro set member list has
    have there := slot_of_list (fits_set fits false) member list
    exact absurd has (Presence.not_has_of_set_false there)

theorem sound_empty : (Structured.view segments.layout fieldView).Sound format.empty := by
  have fits := Structured.fits_fresh segments_measured
  refine Structured.sound_of_none fits ?_ (fun _ _ => trivial)
  intro set member list has
  cases slot_of_list fits member list
  exact absurd has (by decide)

end SignedChunk

/-! ## Optional payloads -/

namespace Optional

variable {σ : Type} {inner : ObjectFormat σ} {view : View σ} {Item : σ → Prop}

/-- The setters of an optional payload, and looking at the payload where it is. -/
inductive Step (inner : ObjectFormat σ) (Item : σ → Prop) (wrapper : Optional σ) :
    Optional σ → Prop where
  | setItem {item : σ} (holds : Item item) : Step inner Item wrapper (setItem wrapper item)
  | clearItem : Step inner Item wrapper (clearItem wrapper)
  | modifyItem {α : Type} {change : σ → α × σ}
      (holds : ∀ item, Item item → Item (change item).2) :
      Step inner Item wrapper (modifyItem inner change wrapper).2
  | visitItem {α : Type} {look : σ → α × σ} (looks : ∀ item, inner.Look item (look item).2) :
      Step inner Item wrapper (visitItem inner look wrapper).2

/-- The payload is at hand and was built. -/
def Fields.Held (Item : σ → Prop) (fields : Fields σ) : Prop :=
  ∀ item, fields.item = some item → ∃ object, item = .owned object ∧ Item object

/-- The payload field may be set and cleared in any presence. -/
theorem fits_set {presence : Presence} (fits : presence.Fits (segments inner).layout)
    (present : Bool) : (presence.set slot itemField present).Fits (segments inner).layout :=
  fits.set present rfl (by decide) (by decide)

theorem held_none : Fields.Held Item (⟨none⟩ : Fields σ) := by
  intro item found
  cases found

theorem held_owned {object : σ} (holds : Item object) :
    Fields.Held Item (⟨some (.owned object)⟩ : Fields σ) := by
  intro item found
  cases found
  exact ⟨object, rfl, holds⟩

/-- What is held is valid and remembers nothing wrong. -/
theorem Fields.Held.exact (items : ∀ object, Item object → view.Sound object) {fields : Fields σ}
    (held : Fields.Held Item fields) (set : FieldSet) : (fieldView inner view).Exact set fields := by
  intro _ item found
  obtain ⟨object, rfl, holds⟩ := held item found
  exact (items object holds).exact

theorem sound_owned (items : ∀ object, Item object → view.Sound object) {presence : Presence}
    {object : σ} (fits : presence.Fits (segments inner).layout) (holds : Item object) :
    (Structured.view (segments inner).layout (fieldView inner view)).Sound
      ⟨presence, none, ⟨some (.owned object)⟩⟩ :=
  Structured.sound_of_none fits (fun _ _ _ => ⟨_, rfl, (items object holds).valid⟩)
    (fun set _ => (held_owned holds).exact items set)

theorem held_fieldsSize (closed : ∀ object later, Item object → inner.Look object later → Item later)
    (set : FieldSet) {fields : Fields σ} (held : Fields.Held Item fields) :
    Fields.Held Item (fieldsSize inner set fields).2 := by
  by_cases has : set.has itemField
  · obtain ⟨item⟩ := fields
    cases item with
    | none => exact held
    | some item =>
      obtain ⟨object, rfl, holds⟩ := held item rfl
      rw [fieldsSize_of_has has]
      exact held_owned (closed object _ holds .size)
  · rw [fieldsSize_of_missing fields has]
    exact held

theorem held_encodeFields
    (closed : ∀ object later, Item object → inner.Look object later → Item later)
    (set : FieldSet) {fields : Fields σ} (held : Fields.Held Item fields) :
    Fields.Held Item (encodeFields inner set fields).2 := by
  by_cases has : set.has itemField
  · obtain ⟨item⟩ := fields
    cases item with
    | none => exact held
    | some item =>
      obtain ⟨object, rfl, holds⟩ := held item rfl
      rw [encodeFields_of_has has]
      exact held_owned (closed object _ holds .encode)
  · rw [encodeFields_of_missing fields has]
    exact held

theorem held_of_look (closed : ∀ object later, Item object → inner.Look object later → Item later)
    {wrapper later : Optional σ} (look : (format inner).Look wrapper later)
    (held : Fields.Held Item wrapper.fields) : Fields.Held Item later.fields := by
  have sized : Fields.Held Item (wrapper.size (segments inner)).2.fields := by
    obtain ⟨presence, memo, fields⟩ := wrapper
    cases memo with
    | some size => exact held
    | none =>
      exact SegmentFormat.blocksSize_preserves
        (fun set _ _ held => held_fieldsSize closed set held) held
  cases look with
  | size => exact sized
  | encode =>
    exact SegmentFormat.blocks_preserves
      (fun set _ _ held => held_encodeFields closed set held) sized

/-- A wrapper whose payload is at hand, was built, and is what the wrapper remembers it to be. -/
structure Sound (inner : ObjectFormat σ) (view : View σ) (Item : σ → Prop) (wrapper : Optional σ) :
    Prop where
  sound : (Structured.view (segments inner).layout (fieldView inner view)).Sound wrapper
  held : Fields.Held Item wrapper.fields

theorem sound_of_clear {presence : Presence} (fits : presence.Fits (segments inner).layout)
    (missing : ∀ set ∈ presence, ¬set.has itemField) :
    Sound inner view Item ⟨presence, none, ⟨none⟩⟩ :=
  ⟨Structured.sound_of_none fits (fun set member has => absurd has (missing set member))
    (fun _ _ _ _ found => by cases found), held_none⟩

theorem Sound.modify (items : ∀ object, Item object → view.Sound object) {α : Type}
    {change : σ → α × σ} (holds : ∀ object, Item object → Item (change object).2)
    {wrapper : Optional σ} (start : Sound inner view Item wrapper) :
    Sound inner view Item (modifyItem inner change wrapper).2 := by
  obtain ⟨presence, memo, ⟨item⟩⟩ := wrapper
  obtain ⟨sound, held⟩ := start
  rw [modifyItem]
  split
  · cases item with
    | none =>
      exact ⟨⟨sound.valid, remembers_none _, sound.exact.2⟩, held_none⟩
    | some item =>
      obtain ⟨object, rfl, itemHolds⟩ := held item rfl
      exact ⟨sound_owned items sound.valid.1 (holds object itemHolds),
        held_owned (holds object itemHolds)⟩
  · exact ⟨sound, held⟩

theorem Sound.visit (faithful : inner.Faithful view)
    (items : ∀ object, Item object → view.Sound object)
    (closed : ∀ object later, Item object → inner.Look object later → Item later) {α : Type}
    {look : σ → α × σ} (looks : ∀ object, inner.Look object (look object).2)
    {wrapper : Optional σ} (start : Sound inner view Item wrapper) :
    Sound inner view Item (visitItem inner look wrapper).2 := by
  obtain ⟨presence, memo, ⟨item⟩⟩ := wrapper
  obtain ⟨sound, held⟩ := start
  cases item with
  | none => exact ⟨sound, held⟩
  | some item =>
    obtain ⟨object, rfl, holds⟩ := held item rfl
    rw [visitItem]
    dsimp only
    split
    · have alike := faithful.alike_of_look (items object holds).valid (looks object)
      have same : (Structured.view (segments inner).layout (fieldView inner view)).Alike
          ⟨presence, memo, ⟨some (.owned object)⟩⟩
          ⟨presence, memo, ⟨some (.owned (look object).2)⟩⟩ :=
        Structured.alike_fields memo fun set _ => alike_item set (Deferred.alike_owned alike)
      exact ⟨same.sound sound, held_owned (closed object _ holds (looks object))⟩
    · exact ⟨sound, held⟩

theorem sound_of_step (faithful : inner.Faithful view)
    (items : ∀ object, Item object → view.Sound object)
    (closed : ∀ object later, Item object → inner.Look object later → Item later)
    {wrapper later : Optional σ} (step : Step inner Item wrapper later)
    (start : Sound inner view Item wrapper) : Sound inner view Item later := by
  have fits := start.sound.valid.1
  cases step with
  | setItem holds => exact ⟨sound_owned items (fits_set fits true) holds, held_owned holds⟩
  | clearItem =>
    apply sound_of_clear (fits_set fits false)
    intro set member has
    obtain ⟨place, segment, there, found, _⟩ := (fits_set fits false).exists_slot member
    obtain ⟨rfl, _⟩ := singleton_getElem? found
    exact Presence.not_has_of_set_false there has
  | modifyItem holds => exact start.modify items holds
  | visitItem looks => exact start.visit faithful items closed looks

theorem sound_of_built (faithful : inner.Faithful view)
    (items : ∀ object, Item object → view.Sound object)
    (closed : ∀ object later, Item object → inner.Look object later → Item later)
    {wrapper : Optional σ} (built : (format inner).Built (Step inner Item) wrapper) :
    Sound inner view Item wrapper := by
  induction built with
  | empty =>
    have measured : (segments inner).Measured (fieldView inner view) := segments_measured
    refine sound_of_clear (Structured.fits_fresh measured) ?_
    intro set member
    obtain rfl := List.mem_singleton.mp member
    decide
  | step _ step start => exact sound_of_step faithful items closed step start
  | look _ look start =>
    have alike := (Structured.faithful (segments_faithful faithful)).alike_of_look start.sound.valid look
    exact ⟨alike.sound start.sound, held_of_look closed look start.held⟩

end Optional

end FieldWire
