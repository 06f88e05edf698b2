import FieldWire.Proofs.Built.Message
import FieldWire.Proofs.Held.Schema
import Mathlib.Logic.Relation

/-!
# Histories

An object that was made and never read may have been changed and looked at in any order.  Its
payload may have been changed in place, to any depth, and whatever was put inside of it has a history
of its own.  Every change forgets the remembered sizes that it spoils, and looking remembers right
ones, so that sizes and bytes depend on the contents alone.
-/

set_option autoImplicit false

namespace FieldWire

/-- One call of a mutator, or calls that only look. -/
inductive Call {σ : Type} (Change Look : σ → σ → Prop) (object : σ) : σ → Prop where
  | change {later : σ} (changed : Change object later) : Call Change Look object later
  | look {later : σ} (looked : Look object later) : Call Change Look object later

/-- The states that an object comes to by calls. -/
abbrev History {σ : Type} (Change Look : σ → σ → Prop) : σ → σ → Prop :=
  Relation.ReflTransGen (Call Change Look)

theorem View.sound_of_history {σ : Type} {view : View σ} {Change Look : σ → σ → Prop}
    (changes : ∀ object later, Change object later → view.Sound object → view.Sound later)
    (looks : ∀ object later, Look object later → view.Lasting object later) {first last : σ}
    (history : History Change Look first last) (sound : view.Sound first) : view.Sound last := by
  induction history with
  | refl => exact sound
  | tail _ call ih =>
    cases call with
    | change changed => exact changes _ _ changed ih
    | look looked => exact (looks _ _ looked ih.valid).sound ih

/-! ## Mutators -/

namespace ErrorEnvelope

/-- The setters of an error envelope, with any bytes for the encoded error. -/
inductive Change (envelope : ErrorEnvelope) : ErrorEnvelope → Prop where
  | setErrorType (errorType : Text) : Change envelope (setErrorType envelope errorType)
  | setSerializedError (bytes : Bytes) : Change envelope (setSerializedError envelope bytes)

theorem carrier_sound_of_change {envelope later : ErrorEnvelope} (change : Change envelope later)
    (sound : (Structured.view segments.layout carrierView).Sound envelope) :
    (Structured.view segments.layout carrierView).Sound later := by
  cases change with
  | setErrorType => exact Structured.sound_of_change sound (fun _ => id) (fun _ => id)
  | setSerializedError => exact Structured.sound_of_change sound (fun _ => id) (fun _ => id)

theorem carrier_sound_empty :
    (Structured.view segments.layout carrierView).Sound format.empty :=
  Structured.sound_of_none (Structured.fits_fresh segments_measured) (fun _ _ => trivial)
    (fun _ _ => trivial)

end ErrorEnvelope

namespace SignedChunk

/-- The setters of a signed chunk, with any bytes for the signed object. -/
inductive Change (chunk : SignedChunk) : SignedChunk → Prop where
  | setDateMillis (millis : Binary64) : Change chunk (setDateMillis chunk millis)
  | setSignature (signature : Bytes) : Change chunk (setSignature chunk signature)
  | setChunk (bytes : Bytes) : Change chunk (setChunk chunk bytes)
  | clearChunk : Change chunk (clearChunk chunk)

/-- Nothing is asked of the fields where the chunk is absent. -/
theorem carrier_sound_of_absent {presence : Presence} {fields : Fields}
    (fits : presence.Fits segments.layout)
    (absent : ∀ set, presence[slot]? = some set → ¬set.has chunkField) :
    (Structured.view segments.layout carrierView).Sound ⟨presence, none, fields⟩ := by
  refine Structured.sound_of_none fits ?_ (fun _ _ => trivial)
  intro set member list has
  exact absurd has (absent set (slot_of_list fits member list))

theorem carrier_sound_of_change {chunk later : SignedChunk} (change : Change chunk later)
    (sound : (Structured.view segments.layout carrierView).Sound chunk) :
    (Structured.view segments.layout carrierView).Sound later := by
  have fits := sound.valid.1
  cases change with
  | setDateMillis => exact Structured.sound_of_change sound (fun _ => id) (fun _ => id)
  | setSignature => exact Structured.sound_of_change sound (fun _ => id) (fun _ => id)
  | setChunk =>
    exact Structured.sound_of_none (fits_set fits true) (fun _ _ _ _ => rfl) (fun _ _ => trivial)
  | clearChunk =>
    exact carrier_sound_of_absent (fits_set fits false)
      fun _ there => Presence.not_has_of_set_false there

theorem carrier_sound_empty :
    (Structured.view segments.layout carrierView).Sound format.empty := by
  refine carrier_sound_of_absent (Structured.fits_fresh segments_measured) ?_
  intro set there
  cases there
  decide

end SignedChunk

namespace Optional

variable {σ : Type} {inner : ObjectFormat σ} {view : View σ} {Item : σ → Prop}
  {Becomes : σ → σ → Prop}

/-- The setters of an optional payload, and changing the payload where it is. -/
inductive Change (inner : ObjectFormat σ) (Item : σ → Prop) (Becomes : σ → σ → Prop)
    (wrapper : Optional σ) : Optional σ → Prop where
  | setItem {item : σ} (made : Item item) :
      Change inner Item Becomes wrapper (setItem wrapper item)
  | clearItem : Change inner Item Becomes wrapper (clearItem wrapper)
  | modifyItem {α : Type} {change : σ → α × σ} (becomes : ∀ item, Becomes item (change item).2) :
      Change inner Item Becomes wrapper (modifyItem inner change wrapper).2

/-- What is seen of a wrapper whose payload is held as an object. -/
abbrev heldView (inner : ObjectFormat σ) (view : View σ) : View (Optional σ) :=
  Structured.view (segments inner).layout (payloadView (Deferred.heldView inner view))

theorem held_sound_owned {presence : Presence} {object : σ}
    (fits : presence.Fits (segments inner).layout) (sound : view.Sound object) :
    (heldView inner view).Sound ⟨presence, none, ⟨some (.owned object)⟩⟩ := by
  refine Structured.sound_of_none fits (fun _ _ _ => ⟨_, rfl, object, rfl, sound.valid⟩) ?_
  intro _ _ _ item found
  cases found
  exact sound.exact

/-- Where there is no payload it does not matter what is held for it. -/
theorem held_sound_of_absent {presence : Presence} {fields : Fields σ}
    (fits : presence.Fits (segments inner).layout)
    (absent : ∀ set, presence[slot]? = some set → ¬set.has itemField) :
    (heldView inner view).Sound ⟨presence, none, fields⟩ := by
  have missing : ∀ set ∈ presence, ¬set.has itemField := by
    intro set member
    obtain ⟨place, segment, there, found, _⟩ := fits.exists_slot member
    obtain ⟨rfl, _⟩ := singleton_getElem? found
    exact absent set there
  exact Structured.sound_of_none fits (fun set member has => absurd has (missing set member))
    (fun set member has => absurd has (missing set member))

theorem mem_written_of_hasItem {wrapper : Optional σ} (has : hasItem wrapper = true) :
    ∃ set ∈ wrapper.presence.written, set.has itemField = true := by
  rw [hasItem, Presence.has] at has
  split at has
  · rename_i set there
    refine ⟨set, (Presence.mem_written_iff _ _).mpr ⟨List.mem_of_getElem? there, ?_⟩, has⟩
    intro empty
    rw [FieldSet.has, empty] at has
    exact absurd has (by decide)
  · cases has

theorem held_sound_of_modify (becomes : ∀ item later, Becomes item later → view.Sound item →
    view.Sound later) {α : Type} {change : σ → α × σ}
    (changed : ∀ item, Becomes item (change item).2) {wrapper : Optional σ}
    (sound : (heldView inner view).Sound wrapper) :
    (heldView inner view).Sound (modifyItem inner change wrapper).2 := by
  obtain ⟨presence, memo, fields⟩ := wrapper
  have fits := sound.valid.1
  rw [modifyItem]
  split
  · rename_i has
    obtain ⟨set, member, itemHas⟩ := mem_written_of_hasItem has
    obtain ⟨_, there, object, rfl, valid⟩ := sound.valid.2 set member itemHas
    obtain rfl : fields = ⟨some (.owned object)⟩ := congrArg Fields.mk there
    have exact : view.Exact object := sound.exact.2 set member itemHas _ rfl
    exact held_sound_owned fits (becomes _ _ (changed object) ⟨valid, exact⟩)
  · exact sound

theorem held_sound_of_change (items : ∀ item, Item item → view.Sound item)
    (becomes : ∀ item later, Becomes item later → view.Sound item → view.Sound later)
    {wrapper later : Optional σ} (change : Change inner Item Becomes wrapper later)
    (sound : (heldView inner view).Sound wrapper) : (heldView inner view).Sound later := by
  have fits := sound.valid.1
  cases change with
  | setItem made => exact held_sound_owned (fits_set fits true) (items _ made)
  | clearItem =>
    exact held_sound_of_absent (fits_set fits false)
      fun _ there => Presence.not_has_of_set_false there
  | modifyItem changed => exact held_sound_of_modify becomes changed sound

theorem held_sound_empty : (heldView inner view).Sound (format inner).empty := by
  have measured : (segments inner).Measured (fieldView inner view) := segments_measured
  refine held_sound_of_absent (Structured.fits_fresh measured) ?_
  intro set there
  cases there
  decide

end Optional

/-! ## Trees -/

namespace Tree

/-- The trees that a tree becomes by calls, with subtrees that a leaf became. -/
inductive Becomes : Tree → Tree → Prop where
  | start (tree : Tree) : Becomes tree tree
  | ofList {first : Tree} {trees : List Tree} : (∀ tree ∈ trees, Becomes leaf tree) →
      Becomes first (node (Sequence.ofList trees))
  | push {first tree child : Tree} : Becomes first tree → Becomes leaf child →
      Becomes first (node (tree.children.push child))
  | append {first tree : Tree} {trees : List Tree} : Becomes first tree →
      (∀ child ∈ trees, Becomes leaf child) → Becomes first (node (tree.children.append trees))
  | replace {first tree child : Tree} (index : Nat) : Becomes first tree → Becomes leaf child →
      Becomes first (node (tree.children.replace index child).2)
  | clear {first tree : Tree} : Becomes first tree → Becomes first (node tree.children.clear)
  | look {first tree later : Tree} : Becomes first tree → Peek tree later → Becomes first later

theorem sound_leaf : view.Sound leaf := (sound_node_iff _).mpr Sequence.sound_empty

theorem sound_of_becomes {first last : Tree} (becomes : Becomes first last)
    (sound : view.Sound first) : view.Sound last := by
  induction becomes with
  | start => exact sound
  | ofList _ each => exact sound_of_step sound_leaf (.ofList fun tree made => each tree made sound_leaf)
  | push _ _ tree child => exact sound_of_step (tree sound) (.push (child sound_leaf))
  | append _ _ tree each =>
    exact sound_of_step (tree sound) (.append fun child made => each child made sound_leaf)
  | replace index _ _ tree child =>
    exact sound_of_step (tree sound) (.replace index (child sound_leaf))
  | clear _ tree => exact sound_of_step (tree sound) .clear
  | look _ peek tree => exact (lasting_of_peek peek trivial).sound (tree sound)

end Tree

end FieldWire
