import FieldWire.ElementFormat
import FieldWire.Proofs.Loader

/-!
# What is seen of an object

Objects remember sizes and decode nested objects late, so two objects with the same contents need
not be equal.  A view names what counts: the contents, the bytes that are written if every size that
is remembered is right, and what it means that they are.

A format is judged against a view in three ways.  It is faithful if size and bytes are those of the
view and looking at an object changes nothing that is seen; it is readable if reading the bytes of a
view gives the contents back; and it is measured if nothing that was read takes more bytes than were
read for it.
-/

set_option autoImplicit false

namespace FieldWire

/-- What is seen of the values of a type. -/
structure View (α : Type) where
  /-- What is compared. -/
  Contents : Type
  /-- The contents of a value. -/
  contents : α → Contents
  /-- The bytes of an element, or of the body of an object, worked out anew. -/
  bytes : α → Bytes
  /-- The value with nothing remembered. -/
  forget : α → α
  /-- Whether every size that is remembered is the number of bytes that are written. -/
  Exact : α → Prop
  /-- What holds of every value that was built or read. -/
  Valid : α → Prop

namespace View

variable {α : Type}

/-- Values that are their own contents and remember nothing. -/
def plain {γ : Type} (contents : α → γ) (bytes : α → Bytes) : View α where
  Contents := γ
  contents := contents
  bytes := bytes
  forget value := value
  Exact _ := True
  Valid _ := True

/-- Objects as elements: the length of the body comes first. -/
def spanned (view : View α) : View α := { view with bytes := fun value => Write.blob (view.bytes value) }

/-- A later state of a value in which the same is seen. -/
structure Alike (view : View α) (value later : α) : Prop where
  contents : view.contents later = view.contents value
  bytes : view.bytes later = view.bytes value
  exact : view.Exact value → view.Exact later
  valid : view.Valid value → view.Valid later

theorem Alike.refl (view : View α) (value : α) : view.Alike value value := ⟨rfl, rfl, id, id⟩

theorem Alike.trans {view : View α} {first second third : α} (before : view.Alike first second)
    (after : view.Alike second third) : view.Alike first third :=
  ⟨after.contents.trans before.contents, after.bytes.trans before.bytes,
    fun exact => after.exact (before.exact exact), fun valid => after.valid (before.valid valid)⟩

theorem Alike.spanned {view : View α} {value later : α} (alike : view.Alike value later) :
    view.spanned.Alike value later :=
  ⟨alike.contents, congrArg Write.blob alike.bytes, alike.exact, alike.valid⟩

end View

/-! ## Bounds -/

/-- A size that neither the bytes that are written nor the bytes of the view exceed, and that is
reached by either only if `Exact` holds. -/
structure Bounds (size written least : Nat) (Exact : Prop) : Prop where
  written_le : written ≤ size
  least_le : least ≤ size
  exact_of_written : size ≤ written → Exact
  exact_of_least : size ≤ least → Exact

namespace Bounds

theorem refl (size : Nat) : Bounds size size size True :=
  ⟨Nat.le_refl _, Nat.le_refl _, fun _ => trivial, fun _ => trivial⟩

theorem imp {size written least : Nat} {Exact Exact' : Prop}
    (bounds : Bounds size written least Exact) (weaker : Exact → Exact') :
    Bounds size written least Exact' :=
  ⟨bounds.written_le, bounds.least_le, fun reached => weaker (bounds.exact_of_written reached),
    fun reached => weaker (bounds.exact_of_least reached)⟩

theorem mono {size larger written least : Nat} {Exact : Prop}
    (bounds : Bounds size written least Exact) (fits : size ≤ larger) :
    Bounds larger written least Exact :=
  ⟨Nat.le_trans bounds.written_le fits, Nat.le_trans bounds.least_le fits,
    fun reached => bounds.exact_of_written (Nat.le_trans fits reached),
    fun reached => bounds.exact_of_least (Nat.le_trans fits reached)⟩

theorem add {size written least size' written' least' : Nat} {Exact Exact' : Prop}
    (first : Bounds size written least Exact) (second : Bounds size' written' least' Exact') :
    Bounds (size + size') (written + written') (least + least') (Exact ∧ Exact') := by
  have written := first.written_le
  have written' := second.written_le
  have least := first.least_le
  have least' := second.least_le
  refine ⟨by omega, by omega, ?_, ?_⟩
  · intro reached
    exact ⟨first.exact_of_written (by omega), second.exact_of_written (by omega)⟩
  · intro reached
    exact ⟨first.exact_of_least (by omega), second.exact_of_least (by omega)⟩

/-- A larger size that is remembered.  It is reached only if it is right. -/
theorem remember {size written least declared : Nat} {Exact : Prop}
    (bounds : Bounds size written least Exact) (fits : size ≤ declared)
    (same : Exact → written = least) : Bounds declared written least (declared = least ∧ Exact) := by
  have larger := bounds.mono fits
  refine ⟨larger.written_le, larger.least_le, ?_, ?_⟩
  · intro reached
    have exact := larger.exact_of_written reached
    rw [same exact] at reached
    exact ⟨Nat.le_antisymm reached larger.least_le, exact⟩
  · intro reached
    exact ⟨Nat.le_antisymm reached larger.least_le, larger.exact_of_least reached⟩

/-- The same with the length of the span in front.  What is written begins with the remembered
length, the bytes of the view with their own. -/
theorem span {size written least : Nat} {Exact : Prop} (bounds : Bounds size written least Exact)
    (small : size < 2 ^ 62) :
    Bounds (LengthTag.spanSize size) (LengthTag.size size .list + written)
      (LengthTag.spanSize least) Exact := by
  have writtenFits := bounds.written_le
  refine ⟨?_, LengthTag.spanSize_mono bounds.least_le small, ?_, ?_⟩
  · rw [LengthTag.spanSize]
    omega
  · intro reached
    rw [LengthTag.spanSize] at reached
    exact bounds.exact_of_written (by omega)
  · intro reached
    exact bounds.exact_of_least (LengthTag.le_of_spanSize_le reached small)

end Bounds

/-! ## Elements -/

namespace ElementFormat

variable {α : Type}

/-- Size and bytes are those of the view, and looking at an element changes nothing that is seen. -/
structure Faithful (format : ElementFormat α) (view : View α) : Prop where
  afterSize : ∀ value, view.Valid value → view.Alike value (format.size value).2
  afterWrite : ∀ value, view.Valid value → view.Alike value (format.write value).2
  size_eq : ∀ value, view.Valid value → view.Exact value →
    (format.size value).1 = (view.bytes value).length
  write_eq : ∀ value, view.Valid value → view.Exact value →
    (format.write value).1 = view.bytes value
  forgotten : ∀ value, view.Valid value →
    view.Alike value (view.forget value) ∧ view.Exact (view.forget value)
  fixed : ∀ value width, format.scheme.fixedWidth? = some width →
    format.size value = (width, value)

/-- Reading the bytes of an element gives its contents back. -/
structure Readable (format : ElementFormat α) (view : View α) : Prop where
  read : ∀ limit value, view.Valid value → (view.bytes value).length ≤ limit →
    limit ≤ defaultPayloadLimit →
      Reader.Recovers format.read limit (view.bytes value) view.contents (view.contents value)
  minimal : ∀ value, view.Valid value → format.scheme.minimalWidth ≤ (view.bytes value).length

/-- What is known of an element that was read: its size bounds what is written for it. -/
structure Weighed (format : ElementFormat α) (view : View α) (value : α) : Prop where
  valid : view.Valid value
  settled : (format.write (format.size value).2).1 = (format.write value).1
  bounds : Bounds (format.size value).1 (format.write value).1.length (view.bytes value).length
    (view.Exact value)

/-- What was read for an element is at least its size. -/
def Measured (format : ElementFormat α) (view : View α) : Prop :=
  ∀ cursor value after, format.read cursor = .ok value after → format.Weighed view value ∧
    ∃ length, length ≤ cursor.rest.length ∧ after = cursor.advance length ∧
      (format.size value).1 ≤ length

end ElementFormat

/-! ## Objects -/

namespace ObjectFormat

variable {σ : Type}

/-- Size and bytes are those of the view, and looking at an object changes nothing that is seen. -/
structure Faithful (format : ObjectFormat σ) (view : View σ) : Prop where
  afterSize : ∀ object, view.Valid object → view.Alike object (format.size object).2
  afterEncode : ∀ object, view.Valid object → view.Alike object (format.encode object).2
  size_eq : ∀ object, view.Valid object → view.Exact object →
    (format.size object).1 = (view.bytes object).length
  encode_eq : ∀ object, view.Valid object → view.Exact object →
    (format.encode object).1 = Write.blob (view.bytes object)
  forgotten : ∀ object, view.Valid object →
    view.Alike object (view.forget object) ∧ view.Exact (view.forget object)

/-- Reading the envelope of an object gives its contents back. -/
def Readable (format : ObjectFormat σ) (view : View σ) : Prop :=
  ∀ limit object, view.Valid object → (view.bytes object).length ≤ limit →
    limit ≤ defaultPayloadLimit →
      Reader.Recovers format.read limit (Write.blob (view.bytes object)) view.contents
        (view.contents object)

/-- What is known of an object that was read: its size bounds what is written for its body. -/
structure Weighed (format : ObjectFormat σ) (view : View σ) (object : σ) : Prop where
  valid : view.Valid object
  settled : (format.encode (format.size object).2).1 = (format.encode object).1
  small : (format.size object).1 < 2 ^ 62
  bounds : ∃ written, (format.encode object).1 =
      Write.word (LengthTag.span (format.size object).1) ++ written ∧
    Bounds (format.size object).1 written.length (view.bytes object).length (view.Exact object)

/-- What was read for an object is at least its envelope. -/
def Measured (format : ObjectFormat σ) (view : View σ) : Prop :=
  ∀ cursor object after, format.read cursor = .ok object after → format.Weighed view object ∧
    (format.size object).1 ≤ cursor.limit ∧
    ∃ length, length ≤ cursor.rest.length ∧ after = cursor.advance length ∧
      LengthTag.spanSize (format.size object).1 ≤ length

variable {format : ObjectFormat σ} {view : View σ} {object : σ}

theorem Faithful.size_forget (faithful : format.Faithful view) (valid : view.Valid object) :
    (format.size (view.forget object)).1 = (view.bytes object).length := by
  obtain ⟨alike, exact⟩ := faithful.forgotten object valid
  rw [faithful.size_eq _ (alike.valid valid) exact, alike.bytes]

theorem Faithful.encode_forget (faithful : format.Faithful view) (valid : view.Valid object) :
    (format.encode (view.forget object)).1 = Write.blob (view.bytes object) := by
  obtain ⟨alike, exact⟩ := faithful.forgotten object valid
  rw [faithful.encode_eq _ (alike.valid valid) exact, alike.bytes]

theorem Weighed.body_le (weighed : format.Weighed view object) :
    (view.bytes object).length ≤ (format.size object).1 := by
  obtain ⟨written, _, bounds⟩ := weighed.bounds
  exact bounds.least_le

end ObjectFormat

namespace ElementFormat

variable {σ : Type} {format : ObjectFormat σ} {view : View σ}

theorem object_faithful (faithful : format.Faithful view) :
    (object format).Faithful view.spanned where
  afterSize value valid := (faithful.afterSize value valid).spanned
  afterWrite value valid := (faithful.afterEncode value valid).spanned
  size_eq value valid exact := by
    change LengthTag.spanSize (format.size value).1 = (Write.blob (view.bytes value)).length
    rw [faithful.size_eq value valid exact, Write.length_blob]
  write_eq value valid exact := faithful.encode_eq value valid exact
  forgotten value valid :=
    ⟨(faithful.forgotten value valid).1.spanned, (faithful.forgotten value valid).2⟩
  fixed value width fixed := by cases fixed

theorem object_readable (readable : format.Readable view) :
    (object format).Readable view.spanned where
  read limit value valid within default := by
    have smaller := Write.length_le_blob (view.bytes value)
    exact readable limit value valid (Nat.le_trans smaller within) default
  minimal value valid := by
    change 1 ≤ (Write.blob (view.bytes value)).length
    rw [Write.length_blob, LengthTag.spanSize]
    exact Nat.le_trans (LengthTag.size_pos _ .list) (Nat.le_add_right _ _)

theorem object_weighed {value : σ} (weighed : format.Weighed view value) :
    (object format).Weighed view.spanned value := by
  obtain ⟨written, encoded, bounds⟩ := weighed.bounds
  refine ⟨weighed.valid, weighed.settled, ?_⟩
  change Bounds (LengthTag.spanSize (format.size value).1) (format.encode value).1.length
    (Write.blob (view.bytes value)).length (view.Exact value)
  rw [encoded, List.length_append, Write.length_blob, Write.word, Varint.length_encode]
  exact bounds.span weighed.small

theorem object_measured (measured : format.Measured view) :
    (object format).Measured view.spanned := by
  intro cursor value after ran
  obtain ⟨weighed, _, taken⟩ := measured cursor value after ran
  exact ⟨object_weighed weighed, taken⟩

end ElementFormat

end FieldWire
