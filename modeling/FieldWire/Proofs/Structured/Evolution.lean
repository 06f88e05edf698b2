import FieldWire.Proofs.Accepts
import FieldWire.Proofs.Structured.Coded
import Mathlib.Algebra.Order.BigOperators.Group.List
import Mathlib.Algebra.Order.Ring.Nat

/-!
# Structures of a newer layout

A newer layout has the same segments with the same required fields.  What it knows beyond the older
one stands above everything that the older one knows, so that in every block the values of the older
fields come first and the others can be passed over.  Then no size is remembered, and what is written
again is what the older side would have written itself.
-/

set_option autoImplicit false

namespace FieldWire

/-! ## Layouts -/

/-- The segment of a newer layout: what it knows beyond the older one stands above it. -/
structure Segment.GrowsTo (old new : Segment) : Prop where
  wireType : new.wireType = old.wireType
  index : new.index = old.index
  required : new.required = old.required
  above : ∀ low high, old.known.toNat.testBit low = true →
    (new.known &&& ~~~old.known).toNat.testBit high = true → low < high

namespace Segment.GrowsTo

variable {old new : Segment} {set : FieldSet}

theorem namedBy (grows : old.GrowsTo new) (admits : new.Admits set) : old.NamedBy set where
  wireType := admits.wireType.trans grows.wireType
  index := admits.index.trans grows.index
  proper := admits.proper
  complete := grows.required ▸ admits.complete

theorem testBit_appended (admits : new.Admits set) {position : Nat}
    (unknown : (set.bits &&& ~~~old.known).toNat.testBit position = true) :
    (new.known &&& ~~~old.known).toNat.testBit position = true := by
  have inNew := congrArg (fun bits : UInt64 => bits.toNat.testBit position) admits.known
  simp only [testBit_and_not, UInt64.toNat_zero, Nat.zero_testBit,
    Bool.and_eq_true_iff] at inNew unknown ⊢
  refine ⟨?_, unknown.2⟩
  simpa [unknown.1] using inNew

/-- In every field set of the newer segment the known fields come first. -/
theorem presentFields_eq (grows : old.GrowsTo new) (admits : new.Admits set) :
    set.presentFields =
      fieldsOf (set.bits &&& old.known) ++ fieldsOf (set.bits &&& ~~~old.known) := by
  apply fieldsOf_eq_append
  intro low high known unknown
  rw [testBit_and, Bool.and_eq_true_iff] at known
  exact grows.above low high known.2 (testBit_appended admits unknown)

theorem mem_appended (admits : new.Admits set) {field : UInt64}
    (unknown : field ∈ fieldsOf (set.bits &&& ~~~old.known)) :
    field ∈ fieldsOf (new.known &&& ~~~old.known) := by
  obtain ⟨position, inside, present, rfl⟩ := mem_fieldsOf_iff.mp unknown
  exact mem_fieldsOf_iff.mpr ⟨position, inside, testBit_appended admits present, rfl⟩

end Segment.GrowsTo

/-- Without an unknown field a segment knows all of a field set. -/
theorem Segment.NamedBy.restrict_eq {segment : Segment} {set : FieldSet}
    (named : segment.NamedBy set) (none : fieldsOf (set.bits &&& ~~~segment.known) = []) :
    segment.restrict set = set := by
  have proper : set.bits &&& ~~~segment.known &&& presenceMask = set.bits &&& ~~~segment.known := by
    rw [UInt64.and_assoc, UInt64.and_comm (~~~segment.known), ← UInt64.and_assoc, named.proper]
  exact Admits.restrict_eq ⟨named.wireType, named.index, named.proper, named.complete,
    eq_zero_of_fieldsOf proper none⟩

namespace Presence

/-- Every segment of a layout is named, with all its required fields. -/
def Names (presence : Presence) (layout : Layout) : Prop :=
  List.Forall₂ Segment.NamedBy layout presence

variable {presence : Presence} {layout : Layout}

theorem Fits.names_of_growsTo {old new : Layout} (fits : presence.Fits new)
    (grows : List.Forall₂ Segment.GrowsTo old new) : presence.Names old := by
  induction grows generalizing presence with
  | nil =>
    cases fits
    exact .nil
  | cons first _ ih =>
    cases fits with
    | cons admits rest => exact .cons (first.namedBy admits) (ih rest)

theorem Names.fits_restrict (names : presence.Names layout)
    (wellFormed : ∀ segment ∈ layout, segment.WellFormed) : (presence.restrict layout).Fits layout := by
  induction names with
  | nil => exact .nil
  | cons named _ ih =>
    have first := (wellFormed _ List.mem_cons_self).admits named.complete
    exact .cons first (ih fun segment member => wellFormed segment (List.mem_cons_of_mem _ member))

end Presence

/-! ## Formats -/

namespace SegmentFormat

variable {φ ν : Type}

/-- Every field set is read value by value, whatever legal values were written for its fields. -/
structure Reads (format : SegmentFormat φ) (value : Nat → UInt64 → φ → ν)
    (code : Nat → UInt64 → ν → Bytes) (limit : Nat) (Legal : Nat → UInt64 → ν → Prop)
    (State : φ → Prop) : Prop where
  empty : State format.empty
  load : ∀ (slot : Nat) (segment : Segment) set (given : Nat → UInt64 → ν) target,
    format.layout[slot]? = some segment → segment.Admits set →
    (∀ field ∈ set.presentFields, Legal slot field (given slot field)) → State target →
      ∀ tail pos, ∃ filled,
        format.load set
            (target, ⟨fieldCodes code given slot set.presentFields ++ tail, pos, limit⟩) =
          .ok () (filled,
            ⟨tail, pos + (fieldCodes code given slot set.presentFields).length, limit⟩) ∧
        State filled ∧
        (∀ field ∈ set.presentFields, value slot field filled = given slot field) ∧
        ∀ other field, other ≠ slot → value other field filled = value other field target

/-- A format whose layout has grown: it writes and reads field by field, and what is written for the
fields that only the newer layout knows can be passed over. -/
structure GrowsTo (old : SegmentFormat φ) (new : Layout) (value : Nat → UInt64 → φ → ν)
    (code : Nat → UInt64 → ν → Bytes) (limit : Nat) (Legal : Nat → UInt64 → ν → Prop)
    (State : φ → Prop) : Prop where
  layouts : List.Forall₂ Segment.GrowsTo old.layout new
  wellFormed : ∀ segment ∈ old.layout, segment.WellFormed
  distinct : old.layout.Distinct
  writes : old.Writes value code State
  reads : old.Reads value code limit Legal State
  passable : ∀ (slot : Nat) (segment newer : Segment) field content,
    old.layout[slot]? = some segment → new[slot]? = some newer →
    field ∈ fieldsOf (newer.known &&& ~~~segment.known) → Legal slot field content →
      segment.wireType.IsValue limit (code slot field content)

variable {old : SegmentFormat φ} {new : Layout} {value : Nat → UInt64 → φ → ν}
  {code : Nat → UInt64 → ν → Bytes} {limit : Nat} {Legal : Nat → UInt64 → ν → Prop}
  {State : φ → Prop} {presence : Presence} {given : Nat → UInt64 → ν}

/-- The segments of a slot on both sides, and how they split a field set. -/
theorem GrowsTo.segments (grows : old.GrowsTo new value code limit Legal State)
    (fits : presence.Fits new) {slot : Nat} {set : FieldSet} (there : presence[slot]? = some set) :
    ∃ (segment newer : Segment), old.layout[slot]? = some segment ∧ new[slot]? = some newer ∧
      segment.GrowsTo newer ∧ newer.Admits set ∧
      set.presentFields = old.layout.knownFields slot set ++ old.layout.unknownFields slot set := by
  obtain ⟨newer, foundNew, admits⟩ := Presence.forall₂_getElem? fits there
  obtain ⟨segment, found, grown⟩ := Presence.forall₂_getElem? grows.layouts foundNew
  refine ⟨segment, newer, found, foundNew, grown, admits, ?_⟩
  rw [Layout.knownFields_of_getElem? set found, Layout.unknownFields_of_getElem? set found]
  exact grown.presentFields_eq admits

theorem GrowsTo.blocks_eq (grows : old.GrowsTo new value code limit Legal State)
    (fits : presence.Fits new) :
    presence.entries.flatMap (Structured.blockOf
        (fun slot set => fieldCodes code given slot (old.layout.knownFields slot set))
        (fun slot set => fieldCodes code given slot (old.layout.unknownFields slot set))) =
      codedBody code given presence := by
  apply List.flatMap_congr
  rintro ⟨set, slot⟩ member
  obtain ⟨there, _⟩ := (Presence.mem_entries_iff _ _ _).mp member
  obtain ⟨_, _, _, _, _, _, split⟩ := grows.segments fits there
  rw [Structured.blockOf, split, fieldCodes_append]

theorem GrowsTo.readable (grows : old.GrowsTo new value code limit Legal State)
    (fits : presence.Fits new)
    (legal : ∀ slot set, presence[slot]? = some set → ∀ field ∈ set.presentFields,
      Legal slot field (given slot field)) :
    Structured.Readable old value given limit State presence
      (fun slot set => fieldCodes code given slot (old.layout.knownFields slot set))
      (fun slot set => fieldCodes code given slot (old.layout.unknownFields slot set)) where
  named := fits.names_of_growsTo grows.layouts
  empty := grows.reads.empty
  load slot segment set target found there nonempty state tail pos := by
    obtain ⟨same, newer, foundSame, _, grown, admits, split⟩ := grows.segments fits there
    obtain rfl : segment = same := Option.some.inj (found.symm.trans foundSame)
    have fields := Layout.presentFields_restrict found admits.proper
    have restricted := (grows.wellFormed segment (List.mem_of_getElem? found)).admits
      (grown.namedBy admits).complete
    rw [← fields]
    refine grows.reads.load slot segment (segment.restrict set) given target found restricted ?_
      state tail pos
    intro field member
    rw [fields] at member
    exact legal slot set there field (split ▸ List.mem_append_left _ member)
  pass slot segment set found there nonempty := by
    obtain ⟨same, newer, foundSame, foundNew, _, admits, split⟩ := grows.segments fits there
    obtain rfl : segment = same := Option.some.inj (found.symm.trans foundSame)
    rw [← Layout.unknownFields_of_getElem? set found]
    apply (Reader.forM_accepts (fun _ => Reader.skip_accepts segment.wireType) _).takes
    apply Language.run_flatMap
    intro field member
    have appended := member
    rw [Layout.unknownFields_of_getElem? set found] at appended
    exact grows.passable slot segment newer field _ found foundNew
      (Segment.GrowsTo.mem_appended admits appended)
      (legal slot set there field (split ▸ List.mem_append_right _ member))

/-- What the older side keeps of a block, and what it passes over, are no more than the block. -/
theorem GrowsTo.slotSize_restrict (grows : old.GrowsTo new value code limit Legal State)
    (fits : presence.Fits new) {slot : Nat} {set : FieldSet} (there : presence[slot]? = some set)
    (nonempty : set.bits ≠ 0) :
    slotSize code given slot (Presence.restrictAt old.layout (set, slot)) +
        (fieldCodes code given slot (old.layout.unknownFields slot set)).length ≤
      slotSize code given slot set := by
  obtain ⟨segment, newer, found, _, grown, admits, split⟩ := grows.segments fits there
  have fields := Layout.presentFields_restrict found admits.proper
  have header : (segment.restrict set).encodedSize ≤ set.encodedSize := by
    have smaller := FieldSet.encodedSize_and_le admits.proper segment.known
    rw [(grown.namedBy admits).wireType, (grown.namedBy admits).index] at smaller
    exact smaller
  have whole : slotSize code given slot set = set.encodedSize +
      ((fieldCodes code given slot (old.layout.knownFields slot set)).length +
        (fieldCodes code given slot (old.layout.unknownFields slot set)).length) := by
    rw [slotSize, if_neg nonempty, split, fieldCodes_append, List.length_append]
  have part : slotSize code given slot (segment.restrict set) ≤ set.encodedSize +
      (fieldCodes code given slot (old.layout.knownFields slot set)).length := by
    rw [slotSize, fields]
    split <;> omega
  rw [Presence.restrictAt_of_getElem? set found, whole]
  omega

theorem GrowsTo.slotSize_restrict_le (grows : old.GrowsTo new value code limit Legal State)
    (fits : presence.Fits new) {slot : Nat} {set : FieldSet} (there : presence[slot]? = some set) :
    slotSize code given slot (Presence.restrictAt old.layout (set, slot)) ≤
      slotSize code given slot set := by
  by_cases nonempty : set.bits = 0
  · obtain ⟨segment, _, found, _⟩ := grows.segments fits there
    have none : (Presence.restrictAt old.layout (set, slot)).bits = 0 := by
      rw [Presence.restrictAt_of_getElem? set found]
      change set.bits &&& segment.known &&& presenceMask = 0
      rw [nonempty, UInt64.zero_and, UInt64.zero_and]
    rw [slotSize, if_pos none]
    exact Nat.zero_le _
  · exact Nat.le_trans (Nat.le_add_right _ _) (grows.slotSize_restrict fits there nonempty)

theorem GrowsTo.length_restrict_le (grows : old.GrowsTo new value code limit Legal State)
    (fits : presence.Fits new) :
    (codedBody code given (presence.restrict old.layout)).length ≤
      (codedBody code given presence).length := by
  have lengths := (fits.names_of_growsTo grows.layouts).length_eq
  rw [length_codedBody, length_codedBody, Presence.zipIdx_restrict lengths, List.map_map]
  apply List.sum_le_sum
  rintro ⟨set, slot⟩ member
  exact grows.slotSize_restrict_le fits (List.mem_zipIdx_iff_getElem?.mp member)

/-- Whoever passes over a field keeps less than was written. -/
theorem GrowsTo.length_restrict_lt (grows : old.GrowsTo new value code limit Legal State)
    (fits : presence.Fits new)
    (legal : ∀ slot set, presence[slot]? = some set → ∀ field ∈ set.presentFields,
      Legal slot field (given slot field))
    (passes : presence.entries.any old.layout.passes = true) :
    (codedBody code given (presence.restrict old.layout)).length <
      (codedBody code given presence).length := by
  have lengths := (fits.names_of_growsTo grows.layouts).length_eq
  -- No block gets longer, and the one with the field that is passed over gets shorter.
  obtain ⟨⟨set, slot⟩, member, passed⟩ := List.any_eq_true.mp passes
  obtain ⟨there, nonempty⟩ := (Presence.mem_entries_iff _ _ _).mp member
  rw [length_codedBody, length_codedBody, Presence.zipIdx_restrict lengths, List.map_map]
  apply List.sum_lt_sum
  · rintro ⟨other, place⟩ inside
    exact grows.slotSize_restrict_le fits (List.mem_zipIdx_iff_getElem?.mp inside)
  · refine ⟨(set, slot), List.mem_zipIdx_iff_getElem?.mpr there, ?_⟩
    have kept : slotSize code given slot (Presence.restrictAt old.layout (set, slot)) + _ ≤ _ :=
      grows.slotSize_restrict fits there nonempty
    obtain ⟨segment, newer, found, foundNew, _, admits, split⟩ := grows.segments fits there
    cases unknown : old.layout.unknownFields slot set with
    | nil =>
      rw [Layout.passes, unknown] at passed
      cases passed
    | cons field rest =>
      have appended : field ∈ old.layout.unknownFields slot set := unknown ▸ List.mem_cons_self
      have content := legal slot set there field (split ▸ List.mem_append_right _ appended)
      rw [Layout.unknownFields_of_getElem? set found] at appended
      have positive := (grows.passable slot segment newer field _ found foundNew
        (Segment.GrowsTo.mem_appended admits appended) content).length_pos
      rw [unknown, fieldCodes, List.flatMap_cons, List.length_append] at kept
      change slotSize code given slot (Presence.restrictAt old.layout (set, slot)) <
        slotSize code given slot set
      omega

/-- Whoever passes over nothing knows everything. -/
theorem GrowsTo.restrict_eq (grows : old.GrowsTo new value code limit Legal State)
    (fits : presence.Fits new) (passes : presence.entries.any old.layout.passes = false) :
    presence.restrict old.layout = presence := by
  have names := fits.names_of_growsTo grows.layouts
  refine Presence.restrict_eq_of_forall names.length_eq fun slot segment set found there => ?_
  obtain ⟨same, foundSame, named⟩ := Presence.forall₂_getElem? names there
  obtain rfl : segment = same := Option.some.inj (found.symm.trans foundSame)
  apply named.restrict_eq
  by_cases empty : set.bits = 0
  · rw [empty, UInt64.zero_and, fieldsOf_zero]
  · have silent := List.any_eq_false.mp passes _ ((Presence.mem_entries_iff _ _ _).mpr ⟨there, empty⟩)
    rw [Layout.passes_of_getElem? found] at silent
    simpa using silent

end SegmentFormat

/-! ## Reading and writing again -/

namespace Structured

variable {φ ψ ν : Type} {old : SegmentFormat φ} {new : SegmentFormat ψ}
  {value : Nat → UInt64 → φ → ν} {newValue : Nat → UInt64 → ψ → ν} {code : Nat → UInt64 → ν → Bytes}
  {limit : Nat} {Legal : Nat → UInt64 → ν → Prop} {State : φ → Prop} {NewState : ψ → Prop}

/-- The object fits its layout, and all its values are legal. -/
structure Legible (new : SegmentFormat ψ) (newValue : Nat → UInt64 → ψ → ν)
    (Legal : Nat → UInt64 → ν → Prop) (NewState : ψ → Prop) (whole : Structured ψ) : Prop where
  fits : whole.presence.Fits new.layout
  state : NewState whole.fields
  legal : ∀ slot set, whole.presence[slot]? = some set → ∀ field ∈ set.presentFields,
    Legal slot field (newValue slot field whole.fields)

/-- The object has what a layout knows of another object: those fields, with their values. -/
structure Restricts (layout : Layout) (value : Nat → UInt64 → φ → ν) (State : φ → Prop)
    (newValue : Nat → UInt64 → ψ → ν) (whole : Structured ψ) (object : Structured φ) : Prop where
  presence_eq : object.presence = whole.presence.restrict layout
  state : State object.fields
  values : ∀ slot set, object.presence[slot]? = some set → ∀ field ∈ set.presentFields,
    value slot field object.fields = newValue slot field whole.fields

/-- The body of what a layout knows of an object. -/
def keptBody (layout : Layout) (newValue : Nat → UInt64 → ψ → ν) (code : Nat → UInt64 → ν → Bytes)
    (whole : Structured ψ) : Bytes :=
  codedBody code (fun slot field => newValue slot field whole.fields) (whole.presence.restrict layout)

variable {whole : Structured ψ} {object : Structured φ}

theorem Legible.valid (legible : Legible new newValue Legal NewState whole) :
    (writtenView new newValue NewState).Valid whole :=
  writtenView_valid legible.fits legible.state

theorem Legible.bytes_eq (legible : Legible new newValue Legal NewState whole)
    (writes : new.Writes newValue code NewState) :
    (writtenView new newValue NewState).bytes whole =
      codedBody code (fun slot field => newValue slot field whole.fields) whole.presence :=
  writtenView_bytes writes legible.fits legible.state

theorem Restricts.fits (restricts : Restricts old.layout value State newValue whole object)
    (grows : old.GrowsTo new.layout value code limit Legal State)
    (legible : Legible new newValue Legal NewState whole) : object.presence.Fits old.layout := by
  rw [restricts.presence_eq]
  exact (legible.fits.names_of_growsTo grows.layouts).fits_restrict grows.wellFormed

theorem Restricts.valid (restricts : Restricts old.layout value State newValue whole object)
    (grows : old.GrowsTo new.layout value code limit Legal State)
    (legible : Legible new newValue Legal NewState whole) :
    (writtenView old value State).Valid object :=
  writtenView_valid (restricts.fits grows legible) restricts.state

theorem Restricts.bytes_eq (restricts : Restricts old.layout value State newValue whole object)
    (grows : old.GrowsTo new.layout value code limit Legal State)
    (legible : Legible new newValue Legal NewState whole) :
    (writtenView old value State).bytes object = keptBody old.layout newValue code whole := by
  rw [writtenView_bytes grows.writes (restricts.fits grows legible) restricts.state, keptBody,
    ← restricts.presence_eq]
  exact codedBody_congr restricts.values

/-- Whoever knows all fields keeps all bytes. -/
theorem Legible.kept_of_known (legible : Legible new newValue Legal NewState whole)
    (writes : new.Writes newValue code NewState)
    (known : whole.presence.restrict old.layout = whole.presence) :
    keptBody old.layout newValue code whole = (writtenView new newValue NewState).bytes whole := by
  rw [keptBody, known, legible.bytes_eq writes]

/-- Whoever passes over a field keeps fewer bytes than were written. -/
theorem Legible.kept_lt (legible : Legible new newValue Legal NewState whole)
    (grows : old.GrowsTo new.layout value code limit Legal State)
    (writes : new.Writes newValue code NewState)
    (unknown : whole.presence.restrict old.layout ≠ whole.presence) :
    (keptBody old.layout newValue code whole).length <
      ((writtenView new newValue NewState).bytes whole).length := by
  rw [legible.bytes_eq writes]
  cases passes : whole.presence.entries.any old.layout.passes with
  | true => exact grows.length_restrict_lt legible.fits legible.legal passes
  | false => exact absurd (grows.restrict_eq legible.fits passes) unknown

/-- The older side reads what was written with the newer layout and keeps what it knows of it.  It
remembers a size only if that is everything. -/
theorem read_of_growsTo (grows : old.GrowsTo new.layout value code limit Legal State)
    (writes : new.Writes newValue code NewState)
    (legible : Legible new newValue Legal NewState whole)
    (within : ((writtenView new newValue NewState).bytes whole).length ≤ limit)
    (small : ((writtenView new newValue NewState).bytes whole).length < 2 ^ 62) :
    Reader.Gives (Structured.format old).read limit
      (Write.blob ((writtenView new newValue NewState).bytes whole)) fun loaded =>
        Restricts old.layout value State newValue whole loaded ∧
          (writtenView old value State).Exact loaded := by
  rw [legible.bytes_eq writes] at within small ⊢
  intro tail pos
  obtain ⟨filled, loaded, state, values⟩ := load_of_readable (grows.readable legible.fits legible.legal)
    grows.distinct (grows.blocks_eq legible.fits) within small tail pos
  have restricts : ∀ memo, Restricts old.layout value State newValue whole
      ⟨whole.presence.restrict old.layout, memo, filled⟩ := by
    intro memo
    refine ⟨rfl, state, ?_⟩
    intro slot set there field member
    obtain ⟨segment, full, found, thereFull, rfl⟩ := Presence.getElem?_restrict there
    exact values slot segment full found thereFull field member
  refine ⟨_, Loader.toReader_of_ok loaded, restricts _, writtenView_exact_iff.mpr ?_⟩
  rw [(restricts _).bytes_eq grows legible]
  intro size remembered
  -- A size is remembered only if nothing was passed over, and then nothing was lost.
  cases passes : whole.presence.entries.any old.layout.passes with
  | true =>
    rw [passes] at remembered
    cases remembered
  | false =>
    rw [passes] at remembered
    cases remembered
    rw [keptBody, grows.restrict_eq legible.fits passes]

end Structured

/-! ## Framework errors, and blobs as their newer kind -/

theorem SegmentFormat.ofBlobs_legible {known : UInt64} {limit : Nat}
    {whole : Structured (UInt64 → Bytes)} (fits : whole.presence.Fits (ofBlobs known).layout)
    (short : ∀ field, (Write.blob (whole.fields field)).length ≤ limit) :
    Structured.Legible (ofBlobs known) (fun _ field fields => some (fields field)) (IsContent limit)
      (fun _ => True) whole :=
  ⟨fits, trivial, fun _ _ _ field _ => ⟨whole.fields field, rfl, short field⟩⟩

namespace FrameworkError

theorem segments_reads {limit : Nat} (default : limit ≤ defaultPayloadLimit) :
    segments.Reads content blobCode limit (IsContent limit) fun _ => True where
  empty := trivial
  load place segment set given target found admits legal _ tail pos := by
    have fields := presentFields_of_admits found admits
    obtain ⟨rfl, rfl⟩ := singleton_getElem? found
    have framed : ∀ (filled : Fields) (other : Nat) (field : UInt64), other ≠ 0 →
        content other field filled = content other field target := fun _ _ _ different =>
      (if_neg different).trans (if_neg different).symm
    by_cases has : set.has messageField
    · rw [List.filter_cons_of_pos has, List.filter_nil] at fields
      rw [fields] at legal ⊢
      obtain ⟨bytes, found, within⟩ := legal messageField List.mem_cons_self
      have codes : fieldCodes blobCode given 0 [messageField] = Write.text (Text.ofWire bytes) := by
        simp [fieldCodes, blobCode, found, Write.text, Text.ofWire]
      have within : (Write.text (Text.ofWire bytes)).length ≤ limit := within
      refine ⟨⟨some (Text.ofWire bytes)⟩, ?_, trivial, ?_, framed _⟩
      · rw [codes]
        exact fills_message target has within default tail pos
      · intro field member
        obtain rfl := List.mem_singleton.mp member
        exact found.symm
    · rw [List.filter_cons_of_neg has, List.filter_nil] at fields
      have none : segments.load set = pure () := if_neg has
      rw [fields, none]
      exact ⟨target, rfl, trivial, by simp, framed _⟩

theorem segments_growsTo {limit : Nat} (default : limit ≤ defaultPayloadLimit) {newer : Layout}
    (layouts : List.Forall₂ Segment.GrowsTo segments.layout newer) :
    segments.GrowsTo newer content blobCode limit (IsContent limit) fun _ => True where
  layouts := layouts
  wellFormed := segments_measured.wellFormed
  distinct := List.pairwise_singleton _ _
  writes := segments_writes
  reads := segments_reads default
  passable place segment _ field given found _ _ legal := by
    obtain ⟨rfl, rfl⟩ := singleton_getElem? found
    obtain ⟨bytes, rfl, within⟩ := legal
    have inside : bytes.length ≤ limit := Nat.le_trans (Write.length_le_blob bytes) within
    exact WireType.isValue_blob inside (lt_of_le_default inside default)

theorem ofMessage_restricts {message : Text} {whole : Structured (UInt64 → Bytes)}
    (presence : (ofMessage message).presence = whole.presence.restrict segments.layout)
    (same : whole.fields messageField = message.bytes) :
    Structured.Restricts segments.layout content (fun _ => True)
      (fun _ field fields => some (fields field)) whole (ofMessage message) := by
  refine ⟨presence, trivial, ?_⟩
  intro place set there field member
  obtain ⟨rfl, rfl⟩ := singleton_getElem? there
  obtain rfl : field = messageField := List.mem_singleton.mp member
  exact congrArg some same.symm

/-- A second blob beside the message. -/
theorem segments_growsTo_second : List.Forall₂ Segment.GrowsTo segments.layout
    (SegmentFormat.ofBlobs (messageField ||| fieldBit 1)).layout := by
  refine .cons ⟨rfl, rfl, rfl, ?_⟩ .nil
  intro low high known appended
  have knownBit : (2 ^ 3).testBit low = true := known
  have appendedBit : (2 ^ 4).testBit high = true := appended
  rw [Nat.testBit_two_pow, decide_eq_true_iff] at knownBit appendedBit
  omega

end FrameworkError

/-! ## Whole structures -/

namespace Structured

variable {φ ψ ν : Type} {old : SegmentFormat φ} {new : SegmentFormat ψ}
  {value : Nat → UInt64 → φ → ν} {newValue : Nat → UInt64 → ψ → ν} {code : Nat → UInt64 → ν → Bytes}
  {limit : Nat} {Legal : Nat → UInt64 → ν → Prop} {State : φ → Prop} {NewState : ψ → Prop}
  {whole : Structured ψ}

/-- Whatever is written with a newer layout, the older one reads what it knows of it and nothing
else, and writes that again as it would have been written with the older layout. -/
theorem loadFrom_encode_of_growsTo (grows : old.GrowsTo new.layout value code limit Legal State)
    (writes : new.Writes newValue code NewState)
    (legible : Legible new newValue Legal NewState whole)
    (remembered : ∀ size, whole.memo = some size → size = (whole.forget.size new).1)
    (within : (whole.size new).1 ≤ limit) (small : (whole.size new).1 < 2 ^ 62) (tail : Bytes) :
    ∃ loaded,
      (Structured.format old).loadFrom limit ((whole.encode new).1 ++ tail) (empty old) =
        (.ok (), loaded, ((Structured.format new).encodedSize whole).1) ∧
      Restricts old.layout value State newValue whole loaded ∧
      LengthTag.IsEnvelope (loaded.encode old).1 ∧
      ∀ restricted, Restricts old.layout value State newValue whole restricted →
        (∀ size, restricted.memo = some size → size = (restricted.forget.size old).1) →
          (loaded.encode old).1 = (restricted.encode old).1 := by
  have exact := writtenView_exact_of_forget writes legible.fits legible.state remembered
  have sized : (whole.size new).1 = ((writtenView new newValue NewState).bytes whole).length :=
    (Structured.faithful writes.faithful).size_eq whole legible.valid exact
  have written : (whole.encode new).1 = Write.blob ((writtenView new newValue NewState).bytes whole) :=
    (Structured.faithful writes.faithful).encode_eq whole legible.valid exact
  have consumed : ((Structured.format new).encodedSize whole).1 = (whole.encode new).1.length := by
    rw [written, Write.length_blob, ← sized]
    rfl
  rw [sized] at within small
  have gives := read_of_growsTo grows writes legible within small
  rw [← written] at gives
  obtain ⟨loaded, ran, restricts, right⟩ := ObjectFormat.loadFrom_of_gives gives tail
  have again : ∀ object : Structured φ, Restricts old.layout value State newValue whole object →
      (writtenView old value State).Exact object →
        (object.encode old).1 = Write.blob (keptBody old.layout newValue code whole) := by
    intro object kept objectRight
    rw [← kept.bytes_eq grows legible]
    exact (Structured.faithful grows.writes.faithful).encode_eq object (kept.valid grows legible)
      objectRight
  rw [consumed]
  refine ⟨loaded, ran, restricts, ?_, ?_⟩
  · have shorter : (keptBody old.layout newValue code whole).length ≤ _ :=
      grows.length_restrict_le legible.fits
    rw [← legible.bytes_eq writes] at shorter
    rw [again loaded restricts right]
    exact (LengthTag.isEnvelope_span _ _ (Nat.lt_of_le_of_lt shorter small)).mpr rfl
  · intro restricted kept restrictedRemembered
    have restrictedRight := writtenView_exact_of_forget grows.writes (kept.fits grows legible)
      kept.state restrictedRemembered
    rw [again loaded restricts right, again restricted kept restrictedRight]

/-- A message of one byte and a second blob, read as a framework error with a limit of just the body
and with a byte behind it. -/
theorem loadFrom_encode_of_growsTo_example :
    let new := SegmentFormat.ofBlobs (FrameworkError.messageField ||| fieldBit 1)
    let whole : Structured (UInt64 → Bytes) :=
      ⟨[⟨.list, 0, FrameworkError.messageField ||| fieldBit 1⟩], none,
        fun field => if field = FrameworkError.messageField then [0x61] else [0x62]⟩
    (whole.encode new).1 = [0x14, 0x18, 0x04, 0x61, 0x04, 0x62] ∧
      ∃ loaded, FrameworkError.format.loadFrom 5 ((whole.encode new).1 ++ [1])
          FrameworkError.format.empty = (.ok (), loaded, 6) ∧
        loaded.presence = [⟨.list, 0, FrameworkError.messageField⟩] ∧
        FrameworkError.content 0 FrameworkError.messageField loaded.fields = some [0x61] ∧
        (loaded.encode FrameworkError.segments).1 = [0x0c, 0x08, 0x04, 0x61] ∧
        LengthTag.IsEnvelope (loaded.encode FrameworkError.segments).1 := by
  intro new whole
  have fits : whole.presence.Fits new.layout := .cons ⟨rfl, rfl, rfl, rfl, rfl⟩ .nil
  have short : ∀ field, (Write.blob (whole.fields field)).length ≤ 5 := by
    intro field
    change (Write.blob (if field = FrameworkError.messageField then _ else _)).length ≤ 5
    split <;> decide
  obtain ⟨loaded, ran, restricts, envelope, again⟩ :=
    loadFrom_encode_of_growsTo
      (FrameworkError.segments_growsTo (by decide) FrameworkError.segments_growsTo_second)
      (SegmentFormat.ofBlobs_writes _)
      (SegmentFormat.ofBlobs_legible fits short)
      (fun size found => by cases found) (by decide) (by decide) [1]
  have consumed : ((Structured.format new).encodedSize whole).1 = 6 := by decide
  rw [consumed] at ran
  refine ⟨by decide, loaded, ran, restricts.presence_eq, ?_, ?_, envelope⟩
  · have values := restricts.values
    rw [restricts.presence_eq] at values
    exact values 0 _ rfl FrameworkError.messageField (by decide)
  · have kept : Restricts FrameworkError.segments.layout FrameworkError.content (fun _ => True)
        (fun _ field fields => some (fields field)) whole
          (FrameworkError.ofMessage (Text.ofWire [0x61])) :=
      FrameworkError.ofMessage_restricts (by decide) rfl
    rw [again _ kept (fun size found => by cases found)]
    decide

end Structured

end FieldWire
