import FieldWire.Proofs.History

/-!
# Reading that fails

A loader works in place, so a load that fails leaves its object half changed.  What it leaves behind
depends on the kind of object.  A dictionary is put together from everything that was read in one
last step, and a load that fails has not touched it.  A sequence has either not been touched or holds
the new elements, all of them read well.  A structure has its presence cleared at the start and then
filled block by block, together with the fields.

The size that an object remembers is written last, after every check.  A load that fails therefore
leaves the size that was remembered for the old contents.
-/

set_option autoImplicit false

namespace FieldWire

namespace Loader

variable {σ τ α β : Type} {P : σ → Prop} {Q : τ → Prop}

/-- What holds of the object before holds of it when the loader stops, whether it failed or not. -/
structure Keeps (loader : Loader σ α) (P : σ → Prop) : Prop where
  ok : ∀ object cursor value final after, P object →
    loader (object, cursor) = .ok value (final, after) → P final
  error : ∀ object cursor error final after, P object →
    loader (object, cursor) = .error error (final, after) → P final

/-- What holds of the object before holds of it if the loader fails. -/
def KeepsFailing (loader : Loader σ α) (P : σ → Prop) : Prop :=
  ∀ object cursor error final after, P object →
    loader (object, cursor) = .error error (final, after) → P final

theorem keeps_read (reader : Reader α) : (read reader : Loader σ α).Keeps P where
  ok object cursor value final after holds ran := by
    rw [(read_eq_ok ran).1]
    exact holds
  error object cursor error final after holds failed := by
    rw [(read_eq_error failed).1]
    exact holds

theorem keeps_update {change : σ → σ} (kept : ∀ object, P object → P (change object)) :
    (update change).Keeps P where
  ok object cursor value final after holds ran := by
    cases ran
    exact kept object holds
  error object cursor error final after _ failed := absurd failed (update_ne_error _ _ _ _)

theorem keeps_pure (value : α) : (pure value : Loader σ α).Keeps P where
  ok object cursor result final after holds ran := by
    cases ran
    exact holds
  error object cursor error final after _ failed := by cases failed

theorem keeps_throw (error : CodecError) : (throw error : Loader σ α).Keeps P where
  ok object cursor result final after _ ran := absurd ran (throw_ne_ok _ _ _ _)
  error object cursor error final after holds failed := by
    cases failed
    exact holds

theorem Keeps.bind {first : Loader σ α} {next : α → Loader σ β} (kept : first.Keeps P)
    (more : ∀ value, (next value).Keeps P) : (first >>= next).Keeps P where
  ok object cursor result final after holds ran := by
    obtain ⟨value, ⟨middle, here⟩, firstRan, nextRan⟩ := (bind_eq_ok_iff _ _ _ _ _).mp ran
    exact (more value).ok _ _ _ _ _ (kept.ok _ _ _ _ _ holds firstRan) nextRan
  error object cursor error final after holds failed := by
    rcases (bind_eq_error_iff _ _ _ _ _).mp failed with early | ⟨value, ⟨middle, here⟩, ran, late⟩
    · exact kept.error _ _ _ _ _ holds early
    · exact (more value).error _ _ _ _ _ (kept.ok _ _ _ _ _ holds ran) late

theorem Keeps.bindFailing {first : Loader σ α} {next : α → Loader σ β} (kept : first.Keeps P)
    (more : ∀ value, (next value).KeepsFailing P) : (first >>= next).KeepsFailing P := by
  intro object cursor error final after holds failed
  rcases (bind_eq_error_iff _ _ _ _ _).mp failed with early | ⟨value, ⟨middle, here⟩, ran, late⟩
  · exact kept.error _ _ _ _ _ holds early
  · exact more value _ _ _ _ _ (kept.ok _ _ _ _ _ holds ran) late

theorem Keeps.failing {loader : Loader σ α} (kept : loader.Keeps P) : loader.KeepsFailing P :=
  kept.error

/-- A check that fails, in the middle of a loader. -/
theorem keeps_throw_bind (error : CodecError) (next : α → Loader σ β) :
    (throw error >>= next : Loader σ β).Keeps P :=
  keeps_throw error

theorem keepsFailing_update (change : σ → σ) : (update change).KeepsFailing P :=
  fun _ _ _ _ _ _ failed => absurd failed (update_ne_error _ _ _ _)

theorem keeps_part {get : σ → τ} {put : σ → τ → σ} {loader : Loader τ α} (kept : loader.Keeps Q)
    (outside : ∀ object, P object → Q (get object))
    (inside : ∀ object inner, P object → Q inner → P (put object inner)) :
    (part get put loader).Keeps P where
  ok object cursor value final after holds ran := by
    obtain ⟨inner, rfl, innerRan⟩ := part_eq_ok ran
    exact inside object inner holds (kept.ok _ _ _ _ _ (outside object holds) innerRan)
  error object cursor error final after holds failed := by
    obtain ⟨inner, rfl, innerFailed⟩ := part_eq_error failed
    exact inside object inner holds (kept.error _ _ _ _ _ (outside object holds) innerFailed)

end Loader

/-! ## The size in front and the body behind it -/

namespace ObjectFormat

variable {σ : Type}

/-- An object and a copy of it that has forgotten the size of its body are written with the same
body, and each with its own size in front.  The size of the copy is worked out anew: it is at least
the length of the body, and reaches it exactly if nothing wrong is remembered inside. -/
structure Framed (format : ObjectFormat σ) (object fresh : σ) (Exact : Prop) (body : Bytes) :
    Prop where
  written : (format.encode object).1 =
    Write.word (LengthTag.span (format.size object).1) ++ body
  anew : (format.encode fresh).1 = Write.word (LengthTag.span (format.size fresh).1) ++ body
  length_le : body.length ≤ (format.size fresh).1
  length_eq_iff : body.length = (format.size fresh).1 ↔ Exact

variable {format : ObjectFormat σ} {object fresh : σ} {Exact : Prop} {body : Bytes}

theorem Framed.imp {Exact' : Prop} (framed : format.Framed object fresh Exact body)
    (same : Exact ↔ Exact') : format.Framed object fresh Exact' body :=
  ⟨framed.written, framed.anew, framed.length_le, framed.length_eq_iff.trans same⟩

/-- What is written for an object is an envelope exactly if its size is the length of its body. -/
theorem Framed.isEnvelope_iff (framed : format.Framed object fresh Exact body)
    (small : (format.size object).1 < 2 ^ 62) :
    LengthTag.IsEnvelope (format.serialize object).1 ↔ (format.size object).1 = body.length := by
  have serialized : (format.serialize object).1 = _ := framed.written
  rw [serialized, Write.word, LengthTag.isEnvelope_span _ _ small]
  exact eq_comm

/-- An object of which nothing wrong is remembered, and neither of its copy. -/
theorem framed_of_sound {view : View σ} (faithful : format.Faithful view)
    (sound : view.Sound object) (freshSound : view.Sound fresh)
    (same : view.bytes fresh = view.bytes object) :
    format.Framed object fresh (view.Exact fresh) (view.bytes object) := by
  have size := faithful.size_eq object sound.valid sound.exact
  have freshSize := faithful.size_eq fresh freshSound.valid freshSound.exact
  rw [same] at freshSize
  refine ⟨?_, ?_, Nat.le_of_eq freshSize.symm, fun _ => freshSound.exact, fun _ => freshSize.symm⟩
  · rw [faithful.encode_eq object sound.valid sound.exact, size]
    rfl
  · rw [faithful.encode_eq fresh freshSound.valid freshSound.exact, same, freshSize]
    rfl

end ObjectFormat

/-! ## Sequences -/

namespace Sequence

variable {α : Type} {format : ElementFormat α} {element : View α}

/-- Either nothing has changed, or the elements were read to the last and only their length was
refused. -/
theorem load_eq_error {object later : Sequence α} {cursor after : Cursor} {error : CodecError}
    (failed : load format (object, cursor) = .error error (later, after)) :
    later = object ∨ ∃ items middle last, format.readValues middle = .ok items last ∧
      later = ⟨items, object.memo⟩ := by
  rcases (bind_eq_error_iff _ _ _ _ _).mp failed with opening | ⟨declared, ⟨_, here⟩, opened, rest⟩
  · exact .inl (Loader.read_eq_error opening).1
  obtain ⟨rfl, _⟩ := Loader.read_eq_ok opened
  rw [bind_of_ok (Loader.read_of_ok (Reader.position_apply _) _)] at rest
  rcases (bind_eq_error_iff _ _ _ _ _).mp rest with reading | ⟨items, ⟨_, last⟩, read, checked⟩
  · exact .inl (Loader.read_eq_error reading).1
  obtain ⟨rfl, itemsRead⟩ := Loader.read_eq_ok read
  rw [bind_of_ok (Loader.update_apply _ _ _),
    bind_of_ok (Loader.read_of_ok (Reader.position_apply _) _)] at checked
  refine .inr ⟨items, here, last, itemsRead, ?_⟩
  split at checked
  · cases checked
    rfl
  · exact absurd checked (Loader.update_ne_error _ _ _ _)

/-- Elements that were read, whatever size is remembered for them. -/
theorem framed_of_weighed (faithful : format.Faithful element) {items : List α}
    (weighed : ∀ item ∈ items, format.Weighed element item) (memo : Option Nat) :
    (Sequence.format format).Framed ⟨items, memo⟩ ⟨items, none⟩
      ((Sequence.view format.scheme element).Exact ⟨items, none⟩) (format.writeValues items).1 := by
  have settled := faithful.writeValues_afterSize weighed
  have bounds := faithful.run_bounds weighed
  have valid : ∀ item ∈ items, element.Valid item := fun item member => (weighed item member).valid
  have anew : (Sequence.encode format ⟨items, none⟩).1 =
      Write.word (LengthTag.span (format.valuesSize items).1) ++ (format.writeValues items).1 := by
    rw [← settled]
    rfl
  refine ⟨?_, anew, bounds.written_le, ?_, ?_⟩
  · cases memo with
    | none => exact anew
    | some size => rfl
  · intro reached
    exact ⟨remembers_none _, bounds.exact_of_written (Nat.le_of_eq reached.symm)⟩
  · intro exact
    rw [faithful.writeValues_eq valid exact.2]
    exact (faithful.valuesSize_eq valid exact.2).symm

/-- What a load that failed leaves of a sequence of which nothing wrong was remembered. -/
theorem framed_of_load_eq_error {held : View α} (heldFaithful : format.Faithful held)
    (faithful : format.Faithful element) (measured : format.Measured element)
    (same : (Sequence.view format.scheme held).Exact = (Sequence.view format.scheme element).Exact)
    {object later : Sequence α} {cursor after : Cursor} {error : CodecError}
    (sound : (Sequence.view format.scheme held).Sound object)
    (failed : load format (object, cursor) = .error error (later, after)) :
    later.memo = object.memo ∧ ∃ body, (Sequence.format format).Framed later ⟨later.items, none⟩
      ((Sequence.view format.scheme element).Exact ⟨later.items, none⟩) body := by
  rcases load_eq_error failed with rfl | ⟨items, middle, last, read, rfl⟩
  · have fresh : (Sequence.view format.scheme held).Sound ⟨later.items, none⟩ :=
      sound_of_none (sound_items sound)
    have framed := ObjectFormat.framed_of_sound (Sequence.faithful heldFaithful) sound fresh rfl
    rw [same] at framed
    exact ⟨rfl, _, framed⟩
  · have weighed := (measured.readValues_eq_ok faithful read).2.1
    exact ⟨rfl, _, framed_of_weighed faithful weighed object.memo⟩

end Sequence

/-! ## Dictionaries -/

namespace Dictionary

variable {α : Type} {format : ElementFormat α}

/-- A dictionary is replaced as a whole, once everything has been read and checked. -/
theorem eq_of_load_eq_error {object later : Dictionary α} {cursor after : Cursor}
    {error : CodecError} (failed : load format (object, cursor) = .error error (later, after)) :
    later = object := by
  have kept : (load format).KeepsFailing (· = object) := by
    refine (Loader.keeps_read _).bindFailing fun declared => (Loader.keeps_read _).bindFailing
      fun start => (Loader.keeps_read _).bindFailing fun keys => (Loader.keeps_read _).bindFailing
      fun values => ?_
    dsimp only
    split
    · exact (Loader.keeps_throw_bind _ _).failing
    · refine (Loader.keeps_read _).bindFailing fun stop => ?_
      split
      · exact (Loader.keeps_throw_bind _ _).failing
      · exact Loader.keepsFailing_update _
  exact kept _ _ _ _ _ rfl failed

end Dictionary

/-! ## Structures -/

namespace Structured

variable {φ : Type} {format : SegmentFormat φ} {Source : φ → Prop} {memo : Option Nat}

/-- A structure in the middle of a load: it remembers `memo`, every field set that is not empty
stands in a slot that allows it, and the fields are good for being written, whatever their presence
announces. -/
structure Midway (format : SegmentFormat φ) (Source : φ → Prop) (memo : Option Nat)
    (object : Structured φ) : Prop where
  memo : object.memo = memo
  slots : ∀ set ∈ object.presence, set.bits ≠ 0 → ∃ (slot : Nat) (segment : Segment),
    format.layout[slot]? = some segment ∧ segment.Admits set
  source : Source object.fields

theorem Midway.of_fits {object : Structured φ} (fits : object.presence.Fits format.layout)
    (source : Source object.fields) : Midway format Source object.memo object where
  memo := rfl
  slots set member _ := by
    obtain ⟨slot, segment, _, found, admits⟩ := fits.exists_slot member
    exact ⟨slot, segment, found, admits⟩
  source := source

theorem Midway.clear {object : Structured φ} (midway : Midway format Source memo object) :
    Midway format Source memo { object with presence := object.presence.clear } where
  memo := midway.memo
  slots set member nonempty := by
    obtain ⟨old, _, rfl⟩ := List.mem_map.mp member
    exact absurd rfl nonempty
  source := midway.source

theorem Midway.replace {object : Structured φ} {segment : Segment} {set : FieldSet} {slot : Nat}
    (midway : Midway format Source memo object) (found : format.layout[slot]? = some segment)
    (admits : segment.Admits set) :
    Midway format Source memo { object with presence := object.presence.replace slot set } where
  memo := midway.memo
  slots other member nonempty := by
    rcases List.mem_or_eq_of_mem_set member with old | rfl
    · exact midway.slots other old nonempty
    · exact ⟨slot, segment, found, admits⟩
  source := midway.source

section Keeps

variable {P : Structured φ → Prop}

/-- What holds of a structure still holds after a block, if putting a field set that was read into
its slot keeps it, and reading the values does. -/
theorem keeps_loadBlock
    (placed : ∀ (header : FieldSet) (segment : Segment) (slot : Nat),
      format.layout[slot]? = some segment → header.missing segment.required = 0 →
        ∀ object, P object → P { object with
          presence := object.presence.replace slot
            (FieldSet.ofBits segment.wireType segment.index (header.bits &&& segment.known)) })
    (loads : ∀ set, (onFields (format.load set)).Keeps P) : (loadBlock format).Keeps P := by
  refine (Loader.keeps_read _).bind fun header => ?_
  cases located : format.layout.locate? header.wireType header.index with
  | none =>
    dsimp only
    split
    · exact Loader.keeps_throw _
    · exact Loader.keeps_throw _
  | some entry =>
    obtain ⟨segment, slot⟩ := entry
    dsimp only
    split
    · exact Loader.keeps_throw_bind _ _
    · rename_i complete
      obtain ⟨found, _, _⟩ := Layout.locate?_eq_some located
      exact (Loader.keeps_update (placed header segment slot found (by simpa using complete))).bind
        fun _ => (loads _).bind fun _ => (Loader.keeps_read _).bind fun _ => Loader.keeps_pure _

theorem keeps_loadBlocks (block : (loadBlock format).Keeps P) (start declared fuel : Nat) :
    (loadBlocks format start declared fuel).Keeps P := by
  induction fuel with
  | zero => exact Loader.keeps_pure _
  | succ fuel ih =>
    refine (Loader.keeps_read _).bind fun here => ?_
    split
    · exact block.bind fun _ => ih.bind fun _ => Loader.keeps_pure _
    · exact Loader.keeps_pure _

/-- The size is remembered last, after every check. -/
theorem keepsFailing_load
    (clear : ∀ object : Structured φ, P object →
      P { object with presence := object.presence.clear })
    (block : (loadBlock format).Keeps P) : (load format).KeepsFailing P := by
  refine (Loader.keeps_read _).bindFailing fun declared => (Loader.keeps_read _).bindFailing
    fun start => (Loader.keeps_update clear).bindFailing fun _ =>
    (keeps_loadBlocks block _ _ _).bindFailing fun answer =>
    (Loader.keeps_read _).bindFailing fun stop => ?_
  by_cases wrong : (stop - start != declared) = true
  · simp only [wrong]
    exact (Loader.keeps_throw_bind _ _).failing
  · simp only [wrong]
    cases format.layout.firstUnseen? answer.1 with
    | some segment => exact (Loader.keeps_throw _).failing
    | none => exact Loader.keepsFailing_update _

/-- If remembering a size keeps it too, it holds after a load in any case. -/
theorem keeps_load
    (clear : ∀ object : Structured φ, P object →
      P { object with presence := object.presence.clear })
    (remember : ∀ (object : Structured φ) memo, P object → P { object with memo := memo })
    (block : (loadBlock format).Keeps P) : (load format).Keeps P where
  ok object cursor value final after holds ran := by
    obtain ⟨_, _, _, _, filled, _, looped, _, _, rfl⟩ := load_eq_ok ran
    exact remember _ _ ((keeps_loadBlocks block _ _ _).ok _ _ _ _ _ (clear object holds) looped)
  error := keepsFailing_load clear block

end Keeps

theorem Midway.keeps_loadBlock (wellFormed : ∀ segment ∈ format.layout, segment.WellFormed)
    (loads : ∀ set, (format.load set).Keeps Source) :
    (loadBlock format).Keeps (Midway format Source memo) := by
  refine Structured.keeps_loadBlock ?_ fun set => Loader.keeps_part (loads set)
    (fun object midway => midway.source)
    (fun object inner midway source => ⟨midway.memo, midway.slots, source⟩)
  intro header segment slot found complete object midway
  exact midway.replace found ((wellFormed segment (List.mem_of_getElem? found)).admits complete)

/-- Whatever is present, the body of a structure in the middle of a load has the size that is worked
out for it. -/
theorem Midway.framed (steady : format.Steady fun _ fields => Source fields) {Exact : Prop}
    {object : Structured φ} (midway : Midway format Source memo object) (exact : Exact) :
    (Structured.format format).Framed object object.forget Exact
      (bodyOf format object.presence object.fields) := by
  obtain ⟨presence, held, fields⟩ := object
  have carried : format.Carried (fun _ fields => Source fields) presence.written fields := by
    intro set member
    obtain ⟨inside, nonempty⟩ := (Presence.mem_written_iff _ _).mp member
    exact ⟨nonempty, midway.source, midway.slots set inside nonempty⟩
  have kept := steady.keeps_blocksSize carried
  have anew : (Structured.encode format ⟨presence, none, fields⟩).1 =
      Write.word (LengthTag.span (format.blocksSize presence.written fields).1) ++
        bodyOf format presence fields := by
    change Write.word _ ++
      (format.blocks presence.written (format.blocksSize presence.written fields).2).1 = _
    rw [steady.blocks_eq (carried.of_keeps kept),
      SegmentFormat.blocksOf_of_keeps kept (List.Subset.refl _)]
    rfl
  have size : (bodyOf format presence fields).length = (format.blocksSize presence.written fields).1 :=
    (steady.blocksSize_eq carried).symm
  refine ⟨?_, anew, Nat.le_of_eq size, fun _ => exact, fun _ => size⟩
  cases held with
  | none => exact anew
  | some size =>
    change Write.word _ ++ (format.blocks presence.written fields).1 = _
    rw [steady.blocks_eq carried]
    rfl

/-- What a load that failed leaves of a structure. -/
theorem framed_of_load_eq_error (wellFormed : ∀ segment ∈ format.layout, segment.WellFormed)
    (steady : format.Steady fun _ fields => Source fields)
    (loads : ∀ set, (format.load set).Keeps Source) {object later : Structured φ}
    {cursor after : Cursor} {error : CodecError} (fits : object.presence.Fits format.layout)
    (source : Source object.fields)
    (failed : load format (object, cursor) = .error error (later, after)) :
    later.memo = object.memo ∧ Source later.fields ∧ ∀ Exact : Prop, Exact →
      ∃ body, (Structured.format format).Framed later later.forget Exact body := by
  have midway := keepsFailing_load (fun _ => Midway.clear) (Midway.keeps_loadBlock wellFormed loads)
    _ _ _ _ _ (Midway.of_fits fits source) failed
  exact ⟨midway.memo, midway.source, fun Exact exact => ⟨_, midway.framed steady exact⟩⟩

end Structured

/-! ## Messages -/

namespace SegmentFormat

variable {φ : Type} {layout : Layout} {empty : φ} {size : FieldSet → φ → Nat}
  {encode : FieldSet → φ → Bytes} {load : FieldSet → Loader φ Unit} {same : φ → φ → Bool}

theorem ofPlain_steady (sized : ∀ set fields, size set fields = (encode set fields).length) :
    (ofPlain layout empty size encode load same).Steady fun _ _ => True where
  afterSize _ _ _ _ _ := ⟨trivial, rfl⟩
  afterEncode _ _ _ _ _ := ⟨trivial, rfl⟩
  size_eq _ _ set fields _ _ _ _ := sized set fields

end SegmentFormat

namespace Structured

variable {φ ν : Type} {layout : Layout} {empty : φ} {size : FieldSet → φ → Nat}
  {encode : FieldSet → φ → Bytes} {load : FieldSet → Loader φ Unit} {same : φ → φ → Bool}

/-- Fields without memory are good for being written, whatever they are. -/
theorem ofPlain_framed {value : Nat → UInt64 → φ → ν} {Valid : FieldSet → φ → Prop}
    (wellFormed : ∀ segment ∈ layout, segment.WellFormed)
    (sized : ∀ set fields, size set fields = (encode set fields).length)
    {object later : Structured φ} {cursor after : Cursor} {error : CodecError}
    (fits : object.presence.Fits layout)
    (failed : Structured.load (SegmentFormat.ofPlain layout empty size encode load same)
      (object, cursor) = .error error (later, after)) :
    let view := Structured.view layout (SegmentView.plain value encode Valid)
    later.memo = object.memo ∧ view.Exact later.forget ∧
      ∃ body, (Structured.format (SegmentFormat.ofPlain layout empty size encode load same)).Framed
        later later.forget (view.Exact later.forget) body := by
  intro view
  have exact : view.Exact later.forget := ⟨remembers_none _, fun _ _ => trivial⟩
  have loads : ∀ set, ((SegmentFormat.ofPlain layout empty size encode load same).load set).Keeps
      fun _ => True := fun _ => ⟨fun _ _ _ _ _ _ _ => trivial, fun _ _ _ _ _ _ _ => trivial⟩
  obtain ⟨remembered, _, framed⟩ := framed_of_load_eq_error wellFormed
    (SegmentFormat.ofPlain_steady sized) loads fits trivial failed
  exact ⟨remembered, exact, framed _ exact⟩

end Structured

/-! ## Optional payloads -/

namespace Optional

variable {σ : Type} {inner : ObjectFormat σ} {view : View σ} {payload : View (Deferred σ)}

/-- Nothing wrong is held for a payload, whether it is present or not. -/
def Stored (payload : View (Deferred σ)) (fields : Fields σ) : Prop :=
  ∀ item, fields.item = some item → payload.Sound item

theorem stored_some {item : Deferred σ} (sound : payload.Sound item) :
    Stored payload ⟨some item⟩ := by
  intro other found
  cases found
  exact sound

theorem stored_none : Stored payload (⟨none⟩ : Fields σ) := by
  intro item found
  cases found

/-- A payload that was looked at is still stored, and is written as before. -/
theorem stored_alike (items : (Deferred.element inner).Faithful payload) {item later : Deferred σ}
    (sound : payload.Sound item) (alike : payload.Alike item later) (set : FieldSet) :
    Stored payload ⟨some later⟩ ∧
      (encodeFields inner set ⟨some later⟩).1 = (encodeFields inner set ⟨some item⟩).1 := by
  have still := alike.sound sound
  refine ⟨stored_some still, ?_⟩
  by_cases has : set.has itemField
  · rw [encodeFields_of_has has, encodeFields_of_has has]
    have written := items.write_eq later still.valid still.exact
    rw [alike.bytes, ← items.write_eq item sound.valid sound.exact] at written
    exact written
  · rw [encodeFields_of_missing _ has, encodeFields_of_missing _ has]

theorem stored_steady (items : (Deferred.element inner).Faithful payload) :
    (segments inner).Steady fun _ fields => Stored payload fields where
  afterSize set other fields stored _ := by
    change Stored payload (fieldsSize inner other fields).2 ∧
      (encodeFields inner set (fieldsSize inner other fields).2).1 =
        (encodeFields inner set fields).1
    obtain ⟨found⟩ := fields
    by_cases has : other.has itemField
    · cases found with
      | none => exact ⟨stored, rfl⟩
      | some item =>
        rw [fieldsSize_of_has has]
        have sound := stored item rfl
        exact stored_alike items sound (items.afterSize item sound.valid) set
    · rw [fieldsSize_of_missing _ has]
      exact ⟨stored, rfl⟩
  afterEncode set other fields stored _ := by
    change Stored payload (encodeFields inner other fields).2 ∧
      (encodeFields inner set (encodeFields inner other fields).2).1 =
        (encodeFields inner set fields).1
    obtain ⟨found⟩ := fields
    by_cases has : other.has itemField
    · cases found with
      | none => exact ⟨stored, rfl⟩
      | some item =>
        rw [encodeFields_of_has has]
        have sound := stored item rfl
        exact stored_alike items sound (items.afterWrite item sound.valid) set
    · rw [encodeFields_of_missing _ has]
      exact ⟨stored, rfl⟩
  size_eq _ _ set fields _ _ _ stored := by
    change (fieldsSize inner set fields).1 = (encodeFields inner set fields).1.length
    obtain ⟨found⟩ := fields
    by_cases has : set.has itemField
    · cases found with
      | none => rfl
      | some item =>
        have sound := stored item rfl
        rw [fieldsSize_of_has has, encodeFields_of_has has]
        have size := items.size_eq item sound.valid sound.exact
        rw [← items.write_eq item sound.valid sound.exact] at size
        exact size
    · rw [fieldsSize_of_missing _ has, encodeFields_of_missing _ has]
      rfl

/-- A payload that is read is kept as its bytes. -/
theorem keeps_loadFields (set : FieldSet) :
    (loadFields set : Loader (Fields σ) Unit).Keeps (Stored (Deferred.view inner view)) := by
  rw [loadFields]
  split
  · constructor
    · intro fields cursor value final after _ ran
      obtain ⟨item, read, rfl⟩ := Loader.store_eq_ok ran
      obtain ⟨bytes, rfl, envelope, _, _⟩ := Deferred.read_eq_ok read
      exact stored_some ⟨envelope, trivial⟩
    · intro fields cursor error final after stored failed
      rcases (bind_eq_error_iff _ _ _ _ _).mp failed with reading | ⟨item, state, _, storing⟩
      · rw [(Loader.read_eq_error reading).1]
        exact stored
      · exact absurd storing (Loader.update_ne_error _ _ _ _)
  · exact Loader.keeps_pure _

theorem stored_of_lasting {item later : Deferred σ} (lasting : payload.Lasting item later)
    (stored : Stored payload ⟨some item⟩) : Stored payload ⟨some later⟩ := by
  have sound := stored item rfl
  exact stored_some ((lasting sound.valid).sound sound)

/-- Looking at a wrapper leaves what it holds in order, even where the payload is absent. -/
theorem stored_follows (items : (Deferred.element inner).Follows payload.Lasting) :
    (Optional.format inner).Follows fun wrapper later =>
      Stored payload wrapper.fields → Stored payload later.fields := by
  refine Optional.follows items (fun _ => id) (fun _ _ _ before after stored => after (before stored))
    ?_ (fun _ _ _ _ lasting stored => stored_of_lasting lasting stored)
  intro wrapper stored
  obtain ⟨presence, memo, fields⟩ := wrapper
  cases memo with
  | some size => exact stored
  | none =>
    refine SegmentFormat.blocksSize_preserves (P := Stored payload) ?_ stored
    intro set _ fields stored
    change Stored payload (fieldsSize inner set fields).2
    obtain ⟨found⟩ := fields
    by_cases has : set.has itemField
    · cases found with
      | none => exact stored
      | some item =>
        rw [fieldsSize_of_has has]
        exact stored_of_lasting (items.size item) stored
    · rw [fieldsSize_of_missing _ has]
      exact stored

theorem stored_of_change {Item : σ → Prop} {Becomes : σ → σ → Prop}
    (items : ∀ item, Item item → view.Sound item)
    (becomes : ∀ item later, Becomes item later → view.Sound item → view.Sound later)
    {wrapper later : Optional σ} (change : Change inner Item Becomes wrapper later)
    (stored : Stored (Deferred.heldView inner view) wrapper.fields) :
    Stored (Deferred.heldView inner view) later.fields := by
  cases change with
  | setItem made =>
    have sound := items _ made
    exact stored_some ⟨⟨_, rfl, sound.valid⟩, sound.exact⟩
  | clearItem => exact stored_none
  | modifyItem changed =>
    obtain ⟨presence, memo, ⟨found⟩⟩ := wrapper
    rw [modifyItem]
    split
    · cases found with
      | none => exact stored
      | some item =>
        obtain ⟨⟨object, rfl, valid⟩, exact⟩ := stored item rfl
        have sound := becomes _ _ (changed object) ⟨valid, exact⟩
        exact stored_some ⟨⟨_, rfl, sound.valid⟩, sound.exact⟩
    · exact stored

theorem stored_of_history {Item : σ → Prop} {Becomes Looked : σ → σ → Prop}
    (items : ∀ item, Item item → view.Sound item)
    (becomes : ∀ item later, Becomes item later → view.Sound item → view.Sound later)
    (follows : inner.Follows view.Lasting) (looks : ∀ item later, Looked item later →
      view.Lasting item later) {first last : Optional σ}
    (history : History (Change inner Item Becomes)
      ((Optional.format inner).Peek (Inside inner Looked)) first last)
    (stored : Stored (Deferred.heldView inner view) first.fields) :
    Stored (Deferred.heldView inner view) last.fields := by
  have payloads : (Deferred.element inner).Follows (Deferred.heldView inner view).Lasting :=
    Deferred.held_allows.follows follows
  induction history with
  | refl => exact stored
  | tail _ call ih =>
    cases call with
    | change changed => exact stored_of_change items becomes changed ih
    | look looked =>
      let Stays (wrapper later : Optional σ) : Prop :=
        Stored (Deferred.heldView inner view) wrapper.fields →
          Stored (Deferred.heldView inner view) later.fields
      refine (stored_follows payloads).of_peek (fun wrapper later inside => ?_) looked ih
      have stays : Stays wrapper later := Optional.rel_of_inside Deferred.held_allows (fun _ => id)
        (fun _ _ _ _ lasting stored => stored_of_lasting lasting stored) looks inside
      exact stays

/-- A payload that is held as an object is in order as one that may be bytes. -/
theorem stored_of_held {fields : Fields σ}
    (stored : Stored (Deferred.heldView inner view) fields) :
    Stored (Deferred.view inner view) fields := by
  intro item found
  obtain ⟨⟨object, rfl, valid⟩, exact⟩ := stored item found
  exact ⟨valid, exact⟩

end Optional

/-! ## Trees -/

namespace Tree

theorem framed_node {levels : Nat} {children fresh : Sequence Tree} {body : Bytes}
    (below : (node children).depth ≤ levels + 1) (freshBelow : (node fresh).depth ≤ levels + 1)
    (framed : (Sequence.format (ElementFormat.object (formatUpTo levels))).Framed children fresh
      ((childrenView levels).Exact fresh) body) :
    format.Framed (node children) (node fresh) (view.Exact (node fresh)) body := by
  refine ⟨?_, ?_, ?_, ?_⟩
  · rw [encode_eq_formatUpTo below, size_eq_formatUpTo below]
    exact framed.written
  · rw [encode_eq_formatUpTo freshBelow, size_eq_formatUpTo freshBelow]
    exact framed.anew
  · rw [size_eq_formatUpTo freshBelow]
    exact framed.length_le
  · rw [size_eq_formatUpTo freshBelow]
    exact framed.length_eq_iff.trans (exact_node_iff fresh levels).symm

/-- What a load that failed leaves of a tree of which nothing wrong was remembered. -/
theorem framed_of_load_eq_error {tree later : Tree} {cursor after : Cursor} {error : CodecError}
    (sound : view.Sound tree)
    (failed : format.load (tree, cursor) = .error error (later, after)) :
    later.children.memo = tree.children.memo ∧
      ∃ body, format.Framed later (node ⟨later.children.items, none⟩)
        (view.Exact (node ⟨later.children.items, none⟩)) body := by
  let levels := cursor.rest.length
  let elements := ElementFormat.object (formatUpTo levels)
  have whole : Loader.part children (fun _ later => node later) (Sequence.load elements)
      (tree, cursor) = .error error (later, after) := failed
  obtain ⟨sequence, rfl, innerFailed⟩ := Loader.part_eq_error whole
  rcases Sequence.load_eq_error innerFailed with rfl | ⟨items, middle, last, read, rfl⟩
  · obtain ⟨children⟩ := tree
    have fresh : view.Sound (node ⟨children.items, none⟩) :=
      (sound_node_iff _).mpr (Sequence.sound_of_none
        (Sequence.sound_items ((sound_node_iff children).mp sound)))
    have same : view.bytes (node ⟨children.items, none⟩) = view.bytes (node children) :=
      (body_node _ 0).trans (body_node children 0).symm
    exact ⟨rfl, _, ObjectFormat.framed_of_sound faithful sound fresh same⟩
  · have elementsFaithful := ElementFormat.object_faithful (formatUpTo_faithful levels)
    have weighed := ((ElementFormat.object_measured (formatUpTo_measured levels)).readValues_eq_ok
      elementsFaithful read).2.1
    have below : ∀ memo, (node ⟨items, memo⟩).depth ≤ levels + 1 := fun memo =>
      (depth_node_le_iff _ _).mpr fun item member => (weighed item member).valid
    exact ⟨rfl, _, framed_node (below _) (below _)
      (Sequence.framed_of_weighed elementsFaithful weighed tree.children.memo)⟩

end Tree

end FieldWire
