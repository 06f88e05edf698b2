import FieldWire.Proofs.Equality
import FieldWire.Proofs.History.Schema
import FieldWire.Proofs.Received
import FieldWire.Proofs.Reuse

/-!
# What a used object keeps

A load into a used object reads what a load into a new one reads, and both are written in the same
way afterwards.  Collections, error envelopes and signed chunks have then forgotten what they held
before.  A framework error and an optional payload have not, where the input carries no message or
no payload: the old one is still held, though no longer present, and since equality compares what is
held, the object differs from a new one.
-/

set_option autoImplicit false

namespace FieldWire

/-- How an object that was used before compares with a new one after both were loaded from the same
bytes.  `Stale` says that something old is still held. -/
structure ObjectFormat.Reused {σ : Type} (format : ObjectFormat σ) (Stale : Prop) (used fresh : σ) :
    Prop where
  bytes : (format.encode used).1 = (format.encode fresh).1
  eq : ¬Stale → used = fresh
  differs : Stale → (format.same used fresh).1 = false

theorem ObjectFormat.reused_of_eq {σ : Type} {format : ObjectFormat σ} {used fresh : σ}
    (same : used = fresh) : format.Reused False used fresh where
  bytes := congrArg (fun object => (format.encode object).1) same
  eq _ := same
  differs stale := stale.elim

/-- The fields of a structure with one segment and one field in it, which holds a value or none.  A
value that is read replaces the one that is held. -/
structure SegmentFormat.Holds {φ ν : Type} (format : SegmentFormat φ) (segment : Segment)
    (held : φ → Option ν) : Prop where
  layout : format.layout = [segment]
  ext : ∀ fields other, held fields = held other → fields = other
  empty : held format.empty = none
  carriesOver : ∀ old, Structured.CarriesOver format fun _ used fresh =>
    held used = (held fresh).or old
  differs : ∀ fields other, (held fields).isSome → held other = none →
    (format.same fields other).1 = false

theorem SegmentFormat.Holds.load_reused {φ ν : Type} {format : SegmentFormat φ} {segment : Segment}
    {held : φ → Option ν} (holds : format.Holds segment held) {target fresh : Structured φ}
    {cursor after : Cursor} (slotted : Structured.Slotted format.layout target)
    (ran : Structured.load format (Structured.empty format, cursor) = .ok () (fresh, after))
    (fits : fresh.presence.Fits format.layout)
    (shown : ∀ set ∈ fresh.presence.written, set.has segment.known → (held fresh.fields).isSome) :
    ∃ final, Structured.load format (target, cursor) = .ok () (final, after) ∧
      (Structured.format format).Reused
        ((held target.fields).isSome ∧ held fresh.fields = none) final fresh := by
  have start : held target.fields = (held format.empty).or (held target.fields) := by
    rw [holds.empty, Option.none_or]
  obtain ⟨final, loaded, reloaded⟩ := Structured.load_relates (holds.carriesOver (held target.fields))
    target (Structured.empty format) cursor () fresh after ⟨slotted, start⟩ ran
  obtain ⟨_, carried, _⟩ := reloaded.fields
  refine ⟨final, loaded, ?_⟩
  cases found : held fresh.fields with
  | some value =>
    have same : final = fresh := reloaded.eq (holds.ext _ _ (by rw [carried, found, Option.some_or]))
    exact ⟨by rw [same], fun _ => same, fun stale => by cases stale.2⟩
  | none =>
    rw [found, Option.none_or] at carried
    refine ⟨?_, ?_, ?_⟩
    · rw [holds.layout] at fits
      have nothing : fresh.presence.written = [] := Presence.written_eq_nil fits fun set member has => by
        have there := shown set member has
        rw [found] at there
        cases there
      obtain ⟨presence, memo, fields⟩ := final
      obtain rfl : presence = fresh.presence := reloaded.presence
      obtain rfl : memo = fresh.memo := reloaded.memo
      exact Structured.encode_of_nothing nothing _ _ _
    · intro current
      have missing : held target.fields = none :=
        Option.not_isSome_iff_eq_none.mp fun there => current ⟨there, rfl⟩
      exact reloaded.eq (holds.ext _ _ (by rw [carried, missing, found]))
    · rintro ⟨there, _⟩
      change (Structured.same format final fresh).1 = false
      rw [Structured.same, if_pos reloaded.presence]
      exact holds.differs _ _ (by rw [carried]; exact there) found

/-! ## Messages -/

namespace FrameworkError

theorem holds_message : segments.Holds (Segment.make .list 0 0 messageField) Fields.message where
  layout := rfl
  ext _ _ same := congrArg Fields.mk same
  empty := rfl
  carriesOver old slot segment set done found named := by
    change (loadFields set).Relates _ _
    rw [loadFields]
    split
    · exact Loader.relates_store fun _ _ _ _ => rfl
    · exact Loader.relates_pure fun _ _ same => same
  differs fields other there missing := by
    change Fields.same fields other = false
    obtain ⟨message, held⟩ := Option.isSome_iff_exists.mp there
    rw [Fields.same, held, missing]

theorem load_reused {target fresh : FrameworkError} {cursor after : Cursor}
    (slotted : Structured.Slotted segments.layout target)
    (ran : format.load (format.empty, cursor) = .ok () (fresh, after)) :
    ∃ final, format.load (target, cursor) = .ok () (final, after) ∧
      format.Reused (target.fields.message.isSome ∧ fresh.fields.message = none) final fresh := by
  have valid := (lawful.measured cursor fresh after (Loader.toReader_of_ok ran)).1.valid
  exact holds_message.load_reused slotted ran valid.1 valid.2

end FrameworkError

namespace ErrorEnvelope

/-- A block replaces both fields. -/
theorem carriesOver : Structured.CarriesOver segments fun done used fresh =>
    done ≠ [] → used = fresh := by
  intro slot segment set done found named
  refine (Loader.relates_read _).bind fun errorType => (Loader.relates_update
    (R := fun used fresh => used.errorType = fresh.errorType) fun _ _ _ => rfl).bind fun _ =>
    Loader.relates_store fun bytes used fresh same _ => ?_
  exact congrArg (Fields.mk · bytes) same

theorem load_reused {target fresh : ErrorEnvelope} {cursor after : Cursor}
    (slotted : Structured.Slotted segments.layout target)
    (ran : format.load (format.empty, cursor) = .ok () (fresh, after)) :
    ∃ final, format.load (target, cursor) = .ok () (final, after) ∧ final = fresh := by
  obtain ⟨final, loaded, reloaded⟩ := Structured.load_relates carriesOver target format.empty cursor
    () fresh after ⟨slotted, fun none => absurd rfl none⟩ ran
  obtain ⟨done, same, seen⟩ := reloaded.fields
  have first : 0 ∈ done := seen 0 _ rfl (by decide)
  exact ⟨final, loaded, reloaded.eq (same (List.ne_nil_of_mem first))⟩

end ErrorEnvelope

namespace SignedChunk

/-- The first segment replaces the date, the second one signature and chunk. -/
structure Renewed (done : List Nat) (used fresh : Fields) : Prop where
  date : 0 ∈ done → used.date = fresh.date
  signature : slot ∈ done → used.signature = fresh.signature
  chunk : slot ∈ done → used.chunk = fresh.chunk

attribute [ext] Fields

theorem carriesOver : Structured.CarriesOver segments Renewed := by
  intro place segment set done found named
  change (loadFields set).Relates _ _
  rcases segment_of_getElem? found with ⟨rfl, eight⟩ | ⟨rfl, list⟩
  · rw [loadFields_of_eightByte (named.trans eight)]
    refine Loader.relates_store fun date used fresh renewed => ⟨fun _ => rfl, fun there => ?_,
      fun there => ?_⟩
    · exact renewed.signature ((List.mem_cons.mp there).resolve_left (by decide))
    · exact renewed.chunk ((List.mem_cons.mp there).resolve_left (by decide))
  · rw [loadFields_of_list (named.trans list)]
    have date : ∀ used fresh, Renewed done used fresh → 0 ∈ slot :: done →
        used.date = fresh.date := fun _ _ renewed there =>
      renewed.date ((List.mem_cons.mp there).resolve_left (by decide))
    refine (Loader.relates_read _).bind fun signature => (Loader.relates_update
      (R := fun used fresh => (0 ∈ slot :: done → used.date = fresh.date) ∧
        used.signature = fresh.signature)
      fun used fresh renewed => ⟨date used fresh renewed, rfl⟩).bind fun _ => ?_
    split
    · exact Loader.relates_store fun chunk used fresh same =>
        ⟨same.1, fun _ => same.2, fun _ => rfl⟩
    · exact Loader.relates_update fun used fresh same => ⟨same.1, fun _ => same.2, fun _ => rfl⟩

theorem load_reused {target fresh : SignedChunk} {cursor after : Cursor}
    (slotted : Structured.Slotted segments.layout target)
    (ran : format.load (format.empty, cursor) = .ok () (fresh, after)) :
    ∃ final, format.load (target, cursor) = .ok () (final, after) ∧ final = fresh := by
  obtain ⟨final, loaded, reloaded⟩ := Structured.load_relates carriesOver target format.empty cursor
    () fresh after ⟨slotted, ⟨by simp, by simp, by simp⟩⟩ ran
  obtain ⟨done, renewed, seen⟩ := reloaded.fields
  have second : slot ∈ done := seen slot _ rfl (by decide)
  exact ⟨final, loaded, reloaded.eq (Fields.ext (renewed.date (seen 0 _ rfl (by decide)))
    (renewed.signature second) (renewed.chunk second))⟩

end SignedChunk

/-! ## Optional payloads -/

namespace Optional

variable {σ : Type} {inner : ObjectFormat σ}

theorem holds_item : (segments inner).Holds (Segment.make .list 0 0 itemField) Fields.item where
  layout := rfl
  ext _ _ same := congrArg Fields.mk same
  empty := rfl
  carriesOver old slot segment set done found named := by
    change (loadFields set).Relates _ _
    rw [loadFields]
    split
    · exact Loader.relates_store fun _ _ _ _ => rfl
    · exact Loader.relates_pure fun _ _ same => same
  differs fields other there missing := by
    change (sameFields inner fields other).1 = false
    obtain ⟨item, held⟩ := Option.isSome_iff_exists.mp there
    rw [sameFields, held, missing]

theorem load_reused {target fresh : Optional σ} {cursor after : Cursor}
    (slotted : Structured.Slotted (segments inner).layout target)
    (ran : (format inner).load ((format inner).empty, cursor) = .ok () (fresh, after)) :
    ∃ final, (format inner).load (target, cursor) = .ok () (final, after) ∧
      (format inner).Reused (target.fields.item.isSome ∧ fresh.fields.item = none) final fresh := by
  have valid := ((received_lawful inner).measured cursor fresh after
    (Loader.toReader_of_ok ran)).1.valid
  refine holds_item.load_reused slotted ran valid.1 fun set member has => ?_
  obtain ⟨item, there, _⟩ := valid.2 set member has
  exact Option.isSome_of_eq_some there

end Optional

/-! ## Schemas -/

namespace Schema

/-- The mutators of an object.  Whatever is put inside may have any history of its own. -/
def Change : (schema : Schema) → schema.isStandard = true → schema.Carrier → schema.Carrier → Prop
  | .sequence _, _ => Sequence.Step fun _ => True
  | .dictionary _, _ => Dictionary.Step fun _ => True
  | .frameworkError, _ => fun error later =>
    FrameworkError.Step error later ∨ Structured.Touch error later
  | .errorEnvelope, _ => fun envelope later =>
    ErrorEnvelope.Change envelope later ∨ Structured.Touch envelope later
  | .signedChunk, _ => fun chunk later =>
    SignedChunk.Change chunk later ∨ Structured.Touch chunk later
  | .optional item, _ => fun wrapper later =>
    Optional.Change item.format (fun _ => True) (fun _ _ => True) wrapper later ∨
      Structured.Touch wrapper later
  | .record _, standard => absurd standard Bool.false_ne_true
  | .tree, _ => fun tree later => Sequence.Step (fun _ => True) tree.children later.children

/-- The states that an object of a schema comes to. -/
def Reached (schema : Schema) (standard : schema.isStandard = true) : schema.Carrier → Prop :=
  schema.format.Reached (schema.Change standard) (schema.Peek standard)

/-- A used object still holds a message or a payload and nothing was read in its place. -/
def Stale : (schema : Schema) → schema.Carrier → schema.Carrier → Prop
  | .frameworkError => fun target fresh =>
    target.fields.message.isSome ∧ fresh.fields.message = none
  | .optional _ => fun target fresh => target.fields.item.isSome ∧ fresh.fields.item = none
  | _ => fun _ _ => False

end Schema

theorem FrameworkError.slotted_of_reached {error : FrameworkError}
    (reached : Schema.frameworkError.Reached rfl error) :
    Structured.Slotted segments.layout error := by
  refine Structured.slotted_of_reached (fun error later changed => ?_) (fun error later looked =>
    Structured.ofPlain_presence_follows.of_peek (fun _ _ inside => inside.elim) looked) reached
  rcases changed with set | touched
  · cases set with
    | setMessage => exact Presence.clear_set _ _ _ _
    | clearMessage => exact Presence.clear_set _ _ _ _
  · exact Structured.presence_of_touch touched

theorem ErrorEnvelope.slotted_of_reached {envelope : ErrorEnvelope}
    (reached : Schema.errorEnvelope.Reached rfl envelope) :
    Structured.Slotted segments.layout envelope := by
  refine Structured.slotted_of_reached (fun envelope later changed => ?_)
    (fun envelope later looked =>
      Structured.ofPlain_presence_follows.of_peek (fun _ _ inside => inside.elim) looked) reached
  rcases changed with set | touched
  · cases set <;> rfl
  · exact Structured.presence_of_touch touched

theorem SignedChunk.slotted_of_reached {chunk : SignedChunk}
    (reached : Schema.signedChunk.Reached rfl chunk) :
    Structured.Slotted segments.layout chunk := by
  refine Structured.slotted_of_reached (fun chunk later changed => ?_) (fun chunk later looked =>
    Structured.ofPlain_presence_follows.of_peek (fun _ _ inside => inside.elim) looked) reached
  rcases changed with set | touched
  · cases set with
    | setDateMillis => rfl
    | setSignature => rfl
    | setChunk => exact Presence.clear_set _ _ _ _
    | clearChunk => exact Presence.clear_set _ _ _ _
  · exact Structured.presence_of_touch touched

theorem Optional.slotted_of_reached {item : Schema} {standard : item.isStandard = true}
    {wrapper : Optional item.Carrier}
    (reached : (Schema.optional item).Reached standard wrapper) :
    Structured.Slotted (segments item.format).layout wrapper := by
  let Rel (wrapper later : Optional item.Carrier) : Prop := later.presence = wrapper.presence
  have allows : Deferred.Allows item.format (fun _ _ => True) fun _ _ => True :=
    ⟨fun _ => trivial, fun _ _ _ _ _ => trivial, fun _ => trivial, fun _ _ _ _ _ => trivial⟩
  have items : (Deferred.element item.format).Follows fun _ _ => True := allows.follows
    ⟨fun _ => trivial, fun _ _ _ _ _ => trivial, fun _ => trivial, fun _ => trivial,
      fun _ _ => trivial, fun _ _ => trivial⟩
  have refl : ∀ wrapper, Rel wrapper wrapper := fun _ => rfl
  have follows : (format item.format).Follows Rel :=
    Optional.follows items refl (fun _ _ _ before after => after.trans before)
      Structured.presence_size fun _ _ _ _ _ => rfl
  have inside : ∀ wrapper later, Inside item.format (item.Peek standard) wrapper later →
      Rel wrapper later := fun _ _ => Optional.rel_of_inside allows refl
    (fun _ _ _ _ _ => rfl) fun _ _ _ => trivial
  refine Structured.slotted_of_reached (fun wrapper later changed => ?_)
    (fun wrapper later looked => follows.of_peek inside looked) reached
  rcases changed with set | touched
  · cases set with
    | setItem => exact Presence.clear_set _ _ _ _
    | clearItem => exact Presence.clear_set _ _ _ _
    | modifyItem =>
      rw [modifyItem]
      split
      · dsimp only
        split
        · split <;> rfl
        · rfl
      · rfl
  · exact Structured.presence_of_touch touched

namespace Schema

/-- If an object was loaded from the front of some bytes into a new one, the same bytes are loaded
into any other object: up to the same place and to what is written in the same way.  It is the same
object but for a message or payload that was held before and that nothing was read in the place of;
then the two are not equal. -/
theorem load_reused {schema : Schema} (standard : schema.isStandard = true)
    {target fresh : schema.Carrier} (reached : schema.Reached standard target)
    {cursor after : Cursor}
    (ran : schema.format.load (schema.format.empty, cursor) = .ok () (fresh, after)) :
    ∃ final, schema.format.load (target, cursor) = .ok () (final, after) ∧
      schema.format.Reused (schema.Stale target fresh) final fresh := by
  cases schema with
  | sequence element =>
    obtain ⟨final, loaded, same⟩ := Sequence.load_relates element.format target _ _ _ _ _ trivial ran
    exact ⟨final, loaded, ObjectFormat.reused_of_eq same⟩
  | dictionary element =>
    obtain ⟨final, loaded, same⟩ :=
      Dictionary.load_relates element.format target _ _ _ _ _ trivial ran
    exact ⟨final, loaded, ObjectFormat.reused_of_eq same⟩
  | frameworkError =>
    exact FrameworkError.load_reused (FrameworkError.slotted_of_reached reached) ran
  | errorEnvelope =>
    obtain ⟨final, loaded, same⟩ :=
      ErrorEnvelope.load_reused (ErrorEnvelope.slotted_of_reached reached) ran
    exact ⟨final, loaded, ObjectFormat.reused_of_eq same⟩
  | signedChunk =>
    obtain ⟨final, loaded, same⟩ :=
      SignedChunk.load_reused (SignedChunk.slotted_of_reached reached) ran
    exact ⟨final, loaded, ObjectFormat.reused_of_eq same⟩
  | optional item => exact Optional.load_reused (Optional.slotted_of_reached reached) ran
  | record table => cases standard
  | tree =>
    obtain ⟨final, loaded, same⟩ := Tree.load_relates target _ _ _ _ _ trivial ran
    exact ⟨final, loaded, ObjectFormat.reused_of_eq same⟩

/-- Whatever an object was used for before, it is loaded from every bytes that a new object is loaded
from, up to the same place, and is then written as the new one is.  If no NaN was read it is also
equal to the new one, unless it still holds a message or a payload in whose place nothing was read. -/
theorem loadFrom_reused {schema : Schema} (standard : schema.isStandard = true)
    {target fresh : schema.Carrier} (reached : schema.Reached standard target) {limit stop : Nat}
    {bytes : Bytes}
    (ran : schema.format.loadFrom limit bytes schema.format.empty = (.ok (), fresh, stop)) :
    ∃ final, schema.format.loadFrom limit bytes target = (.ok (), final, stop) ∧
      (schema.format.serialize final).1 = (schema.format.serialize fresh).1 ∧
      (¬schema.Stale target fresh → final = fresh) ∧
      (schema.NaNFree standard fresh →
        ((schema.format.same final fresh).1 = true ↔ ¬schema.Stale target fresh)) := by
  obtain ⟨after, loaded, rfl⟩ : ∃ after, schema.format.load (schema.format.empty,
      Cursor.ofBytes bytes limit) = .ok () (fresh, after) ∧ after.pos = stop := by
    rw [ObjectFormat.loadFrom] at ran
    split at ran
    · rename_i object cursor loaded
      cases ran
      exact ⟨cursor, loaded, rfl⟩
    · cases ran
  obtain ⟨final, again, reused⟩ := load_reused standard reached loaded
  refine ⟨final, ?_, reused.bytes, reused.eq, fun free => ⟨fun equal stale => ?_, fun current => ?_⟩⟩
  · rw [ObjectFormat.loadFrom, again]
  · rw [reused.differs stale] at equal
    cases equal
  · rw [reused.eq current]
    exact schema.reflexive standard _ _ _ (Loader.toReader_of_ok loaded) free

/-- An error with a message, loaded from an empty body, still holds the message and differs from a new
error.  A signed chunk with an object, loaded from a body without one, has forgotten the object. -/
theorem loadFrom_reused_examples :
    (let schema : Schema := .frameworkError
      let target : schema.Carrier := FrameworkError.ofMessage (Text.ofWire [0x61])
      let fresh : schema.Carrier := (schema.format.loadFrom 100 [0x00] schema.format.empty).2.1
      let final : schema.Carrier := (schema.format.loadFrom 100 [0x00] target).2.1
      (schema.Reached rfl target ∧
        schema.format.loadFrom 100 [0x00] schema.format.empty = (.ok (), fresh, 1)) ∧
      schema.Stale target fresh ∧ schema.format.loadFrom 100 [0x00] target = (.ok (), final, 1) ∧
      (schema.format.serialize final).1 = [0x00] ∧ (schema.format.same final fresh).1 = false) ∧
    (let schema : Schema := .signedChunk
      let target : schema.Carrier := SignedChunk.setChunk SignedChunk.format.empty [0x00]
      let bytes : Bytes := [0x2c, 0x0b, 0, 0, 0, 0, 0, 0, 0, 0, 0x08, 0x00]
      let fresh : schema.Carrier := (schema.format.loadFrom 100 bytes schema.format.empty).2.1
      (schema.Reached rfl target ∧
        schema.format.loadFrom 100 bytes schema.format.empty = (.ok (), fresh, 12)) ∧
      schema.format.loadFrom 100 bytes target = (.ok (), fresh, 12) ∧
      (schema.format.same fresh fresh).1 = true) := by
  constructor
  · intro schema target fresh final
    have reached : schema.Reached rfl target := .change .new (.inl (.setMessage _))
    have ran : schema.format.loadFrom 100 [0x00] schema.format.empty = (.ok (), fresh, 1) := rfl
    have stale : schema.Stale target fresh := ⟨rfl, rfl⟩
    obtain ⟨last, loaded, written, _, equal⟩ := loadFrom_reused rfl reached ran
    obtain rfl : final = last := congrArg (fun result => result.2.1) loaded
    refine ⟨⟨reached, ran⟩, stale, loaded, written.trans rfl, ?_⟩
    exact Bool.eq_false_iff.mpr fun same => (equal trivial).mp same stale
  · intro schema target bytes fresh
    have reached : schema.Reached rfl target := .change .new (.inl (.setChunk _))
    have ran : schema.format.loadFrom 100 bytes schema.format.empty = (.ok (), fresh, 12) := rfl
    have current : ¬schema.Stale target fresh := id
    have free : schema.NaNFree rfl fresh := rfl
    obtain ⟨last, loaded, _, same, equal⟩ := loadFrom_reused rfl reached ran
    obtain rfl : last = fresh := same current
    exact ⟨⟨reached, ran⟩, loaded, (equal free).mpr current⟩

end Schema

end FieldWire
