import FieldWire.Proofs.Peek

/-!
# What was read and is looked at

An object that was read is not quite at rest.  Looking at it may decode payloads that were still
bytes, and what is written for a decoded payload may be shorter than the bytes it was decoded from.
All the same its contents stay, and it never becomes longer: whatever size an object remembers, what
is inside of it fits into that size from then on.
-/

set_option autoImplicit false

namespace FieldWire

/-- A later state of a value that was read: still such a value, with the same contents, and not
longer. -/
def Aging {α : Type} (size : α → Nat × α) (view : View α) (Kept : α → Prop) (value later : α) :
    Prop :=
  Kept value → Kept later ∧ view.contents later = view.contents value ∧
    (size later).1 ≤ (size value).1

namespace Aging

variable {α : Type} {size : α → Nat × α} {view : View α} {Kept : α → Prop}

theorem refl (value : α) : Aging size view Kept value value :=
  fun kept => ⟨kept, rfl, Nat.le_refl _⟩

theorem trans (first second third : α) (before : Aging size view Kept first second)
    (after : Aging size view Kept second third) : Aging size view Kept first third := by
  intro kept
  obtain ⟨keptSecond, contentsSecond, sizeSecond⟩ := before kept
  obtain ⟨keptThird, contentsThird, sizeThird⟩ := after keptSecond
  exact ⟨keptThird, contentsThird.trans contentsSecond, Nat.le_trans sizeThird sizeSecond⟩

end Aging

/-- `Kept` holds of the values that are read, it bounds what is written for them, and looking at them
lets them age. -/
structure ElementFormat.Ages {α : Type} (format : ElementFormat α) (view : View α)
    (Kept : α → Prop) : Prop where
  read : ∀ cursor value after, format.read cursor = .ok value after → Kept value
  weighed : ∀ value, Kept value → format.Weighed view value
  follows : format.Follows (Aging format.size view Kept)

/-- The same for objects. -/
structure ObjectFormat.Ages {σ : Type} (format : ObjectFormat σ) (view : View σ) (Kept : σ → Prop) :
    Prop where
  read : ∀ cursor object after, format.read cursor = .ok object after → Kept object
  weighed : ∀ object, Kept object → format.Weighed view object
  follows : format.Follows (Aging format.size view Kept)

/-! ## Elements -/

namespace ElementFormat

theorem ofPlain_ages {α γ : Type} {scheme : WireType} {size : α → Nat} {write : α → Bytes}
    {read : Reader α} {same : α → α → Bool} (contents : α → γ)
    (sized : ∀ value, size value = (write value).length) :
    (ofPlain scheme size write read same).Ages (View.plain contents write) fun _ => True where
  read _ _ _ _ := trivial
  weighed value _ := ofPlain_weighed contents sized value
  follows := ofPlain_follows Aging.refl Aging.trans

/-- With the length of the span in front nothing changes: a shorter span has no longer a length. -/
theorem object_aging {σ : Type} {format : ObjectFormat σ} {view : View σ} {Kept : σ → Prop}
    (weighed : ∀ object, Kept object → format.Weighed view object) {value later : σ}
    (aging : Aging format.size view Kept value later) :
    Aging (object format).size view.spanned Kept value later := by
  intro kept
  obtain ⟨still, contents, shorter⟩ := aging kept
  exact ⟨still, contents, LengthTag.spanSize_mono shorter (weighed value kept).small⟩

theorem object_ages {σ : Type} {format : ObjectFormat σ} {view : View σ} {Kept : σ → Prop}
    (ages : format.Ages view Kept) : (object format).Ages view.spanned Kept where
  read := ages.read
  weighed value kept := object_weighed (ages.weighed value kept)
  follows := ages.follows.element.imp Aging.refl Aging.trans fun _ _ => object_aging ages.weighed

variable {α : Type} {format : ElementFormat α} {view : View α} {Kept : α → Prop}

theorem valuesSize_of_aging (faithful : format.Faithful view) {values later : List α}
    (aging : List.Forall₂ (Aging format.size view Kept) values later)
    (kept : ∀ value ∈ values, Kept value) :
    (∀ value ∈ later, Kept value) ∧ later.map view.contents = values.map view.contents ∧
      (format.valuesSize later).1 ≤ (format.valuesSize values).1 := by
  have lengths := aging.length_eq
  rw [faithful.valuesSize_fst, faithful.valuesSize_fst, ← lengths]
  clear lengths
  induction aging with
  | nil => exact ⟨kept, rfl, Nat.le_refl _⟩
  | cons head _ ih =>
    obtain ⟨keptHead, keptRest⟩ := List.forall_mem_cons.mp kept
    obtain ⟨still, contents, shorter⟩ := head keptHead
    obtain ⟨stillRest, contentsRest, shorterRest⟩ := ih keptRest
    refine ⟨List.forall_mem_cons.mpr ⟨still, stillRest⟩, ?_, ?_⟩
    · rw [List.map_cons, List.map_cons, contents, contentsRest]
    · simp only [List.map_cons, List.sum_cons, List.length_cons] at shorterRest ⊢
      omega

end ElementFormat

/-! ## Sequences -/

namespace Sequence

variable {α : Type} {format : ElementFormat α} {element : View α} {Element : α → Prop}

/-- A sequence that was read remembers a size into which its elements fit. -/
structure Kept (format : ElementFormat α) (Element : α → Prop) (sequence : Sequence α) : Prop where
  items : ∀ item ∈ sequence.items, Element item
  remembered : ∃ declared, sequence.memo = some declared ∧
    (format.valuesSize sequence.items).1 ≤ declared ∧ declared < 2 ^ 62

theorem aging_items (faithful : format.Faithful element) {items later : List α} (memo : Option Nat)
    (aging : List.Forall₂ (Aging format.size element Element) items later) :
    Aging (size format) (Sequence.view format.scheme element) (Kept format Element)
      ⟨items, memo⟩ ⟨later, memo⟩ := by
  rintro ⟨kept, declared, rfl, fits, small⟩
  obtain ⟨still, contents, shorter⟩ := ElementFormat.valuesSize_of_aging faithful aging kept
  exact ⟨⟨still, declared, rfl, Nat.le_trans shorter fits, small⟩, contents, Nat.le_refl _⟩

theorem size_aging (sequence : Sequence α) :
    Aging (size format) (Sequence.view format.scheme element) (Kept format Element) sequence
      (sequence.size format).2 := by
  rintro ⟨kept, declared, remembered, fits⟩
  obtain ⟨items, memo⟩ := sequence
  cases remembered
  exact ⟨⟨kept, declared, rfl, fits⟩, rfl, Nat.le_refl _⟩

theorem ages (faithful : format.Faithful element) (measured : format.Measured element)
    (elements : format.Ages element Element) :
    (Sequence.format format).Ages (Sequence.view format.scheme element) (Kept format Element) where
  read cursor sequence after ran := by
    obtain ⟨tagSize, declared, opened, read, remembered, _, _, fits⟩ :=
      load_bounds faithful measured (ObjectFormat.load_of_read ran)
    have small := (Reader.openSpan_bounds opened).2.2.1
    exact ⟨ElementFormat.readValues_forall elements.read read, declared,
      congrArg Sequence.memo remembered, fits, small⟩
  weighed sequence kept := by
    obtain ⟨items, memo⟩ := sequence
    obtain ⟨kept, declared, rfl, fits, small⟩ := kept
    exact weighed_of_some faithful (fun item member => elements.weighed item (kept item member))
      fits small
  follows := Sequence.follows elements.follows Aging.trans size_aging
    fun _ _ memo items => aging_items faithful memo items

end Sequence

/-! ## Dictionaries -/

namespace Dictionary

variable {α : Type} {format : ElementFormat α} {element : View α} {Element : α → Prop}

/-- The entries of a dictionary that was read fit into its size, remembered or not. -/
structure Kept (format : ElementFormat α) (Element : α → Prop) (dictionary : Dictionary α) :
    Prop where
  distinct : ((dictionary.entries.map (·.1)).map Text.bytes).Nodup
  values : ∀ value ∈ dictionary.entries.map (·.2), Element value
  fits : sizeOf format dictionary.entries ≤ (dictionary.size format).1
  small : (dictionary.size format).1 < 2 ^ 62

/-- A remembered size stays, and without one the size is that of the entries. -/
theorem size_mono {entries later : List (Text × α)} (memo : Option Nat)
    (shorter : sizeOf format later ≤ sizeOf format entries) :
    (size format ⟨later, memo⟩).1 ≤ (size format ⟨entries, memo⟩).1 := by
  cases memo with
  | some declared => exact Nat.le_refl _
  | none =>
    rw [size_of_none, size_of_none]
    exact shorter

theorem fits_of_le {entries later : List (Text × α)} (memo : Option Nat)
    (shorter : sizeOf format later ≤ sizeOf format entries)
    (fits : sizeOf format entries ≤ (size format ⟨entries, memo⟩).1) :
    sizeOf format later ≤ (size format ⟨later, memo⟩).1 := by
  cases memo with
  | some declared => exact Nat.le_trans shorter fits
  | none =>
    rw [size_of_none]

theorem entries_of_aging (faithful : format.Faithful element) {entries later : List (Text × α)}
    (aging : List.Forall₂ (SameKey (Aging format.size element Element)) entries later)
    (kept : ∀ value ∈ entries.map (·.2), Element value) :
    later.map (·.1) = entries.map (·.1) ∧ (∀ value ∈ later.map (·.2), Element value) ∧
      contentsOf element later = contentsOf element entries ∧
      sizeOf format later ≤ sizeOf format entries := by
  obtain ⟨keys, values⟩ := sameKey_parts aging
  obtain ⟨still, contents, shorter⟩ := ElementFormat.valuesSize_of_aging faithful values kept
  refine ⟨keys, still, ?_, ?_⟩
  · rw [contentsOf, contentsOf, keys, contents]
  · rw [sizeOf, sizeOf, keys]
    exact Nat.add_le_add_left shorter _

theorem aging_entries (faithful : format.Faithful element) {entries later : List (Text × α)}
    (memo : Option Nat)
    (aging : List.Forall₂ (SameKey (Aging format.size element Element)) entries later) :
    Aging (size format) (Dictionary.view format.scheme element) (Kept format Element)
      ⟨entries, memo⟩ ⟨later, memo⟩ := by
  intro kept
  obtain ⟨keys, still, contents, shorter⟩ := entries_of_aging faithful aging kept.values
  have smaller := size_mono memo shorter
  refine ⟨⟨?_, still, fits_of_le memo shorter kept.fits, Nat.lt_of_le_of_lt smaller kept.small⟩,
    contents, smaller⟩
  rw [keys]
  exact kept.distinct

/-- A size that is remembered from now on is that of the entries as they were. -/
theorem size_aging (faithful : format.Faithful element) (elements : format.Ages element Element)
    (dictionary : Dictionary α) :
    Aging (size format) (Dictionary.view format.scheme element) (Kept format Element) dictionary
      (dictionary.size format).2 := by
  obtain ⟨entries, memo⟩ := dictionary
  cases memo with
  | some declared => exact Aging.refl _
  | none =>
    intro kept
    have sized := entries_zip (elements.follows.valuesSize (entries.map (·.2)))
    obtain ⟨keys, still, contents, shorter⟩ := entries_of_aging faithful sized kept.values
    have small := kept.small
    rw [size_of_none] at small ⊢
    refine ⟨⟨?_, still, shorter, small⟩, contents, Nat.le_refl _⟩
    rw [keys]
    exact kept.distinct

theorem ages (faithful : format.Faithful element) (measured : format.Measured element)
    (elements : format.Ages element Element) :
    (Dictionary.format format).Ages (Dictionary.view format.scheme element)
      (Kept format Element) where
  read cursor dictionary after ran := by
    obtain ⟨tagSize, declared, keys, values, middle, opened, valuesRead, paired, rfl, rfl, _, fits⟩ :=
      load_bounds faithful measured (ObjectFormat.load_of_read ran)
    have small := (Reader.openSpan_bounds opened).2.2.1
    have each := ElementFormat.readValues_forall elements.read valuesRead
    have kept : ∀ memo, sizeOf format (lastOccurrences (keys.zip values)) ≤
        (size format ⟨lastOccurrences (keys.zip values), memo⟩).1 →
        (size format ⟨lastOccurrences (keys.zip values), memo⟩).1 ≤ declared →
          Kept format Element ⟨lastOccurrences (keys.zip values), memo⟩ := by
      intro memo enough within
      refine ⟨?_, fun value member => each value (mem_of_mem_lastOccurrences paired member), enough,
        Nat.lt_of_le_of_lt within small⟩
      rw [List.map_map]
      exact nodup_lastOccurrences _
    rw [collapse]
    split
    · exact kept _ fits (Nat.le_refl _)
    · exact kept _ (by rw [size_of_none]) (by rw [size_of_none]; exact fits)
  weighed dictionary kept := by
    obtain ⟨entries, memo⟩ := dictionary
    have weighed := fun value member => elements.weighed value (kept.values value member)
    have fits := kept.fits
    have small := kept.small
    cases memo with
    | some declared => exact weighed_of_some faithful kept.distinct weighed fits small
    | none =>
      rw [size_of_none] at small
      exact weighed_of_none faithful kept.distinct weighed small
  follows := Dictionary.follows elements.follows Aging.trans (size_aging faithful elements)
    fun _ _ memo entries => aging_entries faithful memo entries

end Dictionary

end FieldWire
