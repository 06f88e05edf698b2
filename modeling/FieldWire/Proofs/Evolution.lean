import FieldWire.Proofs.Dictionary
import FieldWire.Proofs.Structured.Evolution

/-!
# Collections of newer objects

A collection of objects that were written with a newer layout can be read with the older one, and
each element is then what the older side knows of it.  But the collection remembers the length that
was declared, while elements that passed over a field are written shorter than they were read.  What
is written for the collection is right, and can be read again, exactly if no element lost a field.
-/

set_option autoImplicit false

namespace FieldWire

namespace ObjectFormat

variable {σ τ : Type}

/-- Objects of a newer kind, as an older side sees them.  It reads all of them; what it `Keeps` of
one is written as the bytes in `kept`, and these are fewer unless it has `Known` all of it. -/
structure Outgrown (old : ObjectFormat σ) (oldView : View σ) (new : ObjectFormat τ)
    (newView : View τ) (limit : Nat) (Legible : τ → Prop) (Keeps : τ → σ → Prop) (kept : τ → Bytes)
    (Known : τ → Prop) : Prop where
  older : old.Faithful oldView
  newer : new.Faithful newView
  legible_valid : ∀ whole, Legible whole → newView.Valid whole
  keeps_valid : ∀ whole object, Legible whole → Keeps whole object → oldView.Valid object
  keeps_bytes : ∀ whole object, Legible whole → Keeps whole object →
    oldView.bytes object = kept whole
  read : ∀ whole, Legible whole → (newView.bytes whole).length ≤ limit →
    Reader.Gives old.read limit (Write.blob (newView.bytes whole)) fun object =>
      Keeps whole object ∧ oldView.Exact object
  kept_of_known : ∀ whole, Legible whole → Known whole → kept whole = newView.bytes whole
  kept_lt : ∀ whole, Legible whole → ¬Known whole →
    (kept whole).length < (newView.bytes whole).length

/-- What an older side makes of a collection of newer elements that declares its length.  `Restricts`
says of a collection that it has what the older side knows of the elements, and nothing else. -/
structure Downgrades (format : ObjectFormat σ) (view : View σ) (limit : Nat) (written : Bytes)
    (declared : Nat) (Restricts : σ → Prop) (Known : Prop) (loaded : σ) : Prop where
  decoded : format.deserializeWithin limit written = .ok loaded
  restricts : Restricts loaded
  stored : (format.size loaded).1 = declared
  fresh : ∃ other, Restricts other ∧ view.Exact other
  same_iff : ∀ other, Restricts other → view.Exact other →
    ((format.encode loaded).1 = (format.encode other).1 ↔ Known)
  again : Known → format.deserializeWithin limit (format.encode loaded).1 = .ok loaded
  fails : ∀ other, Restricts other → view.Exact other → ¬Known →
    format.deserializeWithin limit (format.encode loaded).1 =
      .error (.bufferUnderrun declared (format.size other).1)

/-- It is enough that the older side writes the declared length in front of the bytes that it keeps,
and that these are fewer than were read if something was not known. -/
theorem downgrades_of_parts {format : ObjectFormat σ} {view : View σ} {limit : Nat}
    {body kept : Bytes} {Restricts : σ → Prop} {Known : Prop} {loaded : σ}
    (opens : format.OpensSpan) (within : body.length ≤ limit) (small : body.length < 2 ^ 62)
    (decoded : format.deserializeWithin limit (Write.blob body) = .ok loaded)
    (restricts : Restricts loaded) (stored : (format.size loaded).1 = body.length)
    (encoded : (format.encode loaded).1 = Write.word (LengthTag.span body.length) ++ kept)
    (fresh : ∃ other, Restricts other ∧ view.Exact other)
    (others : ∀ other, Restricts other → view.Exact other →
      (format.size other).1 = kept.length ∧ (format.encode other).1 = Write.blob kept)
    (all : Known → kept = body) (fewer : ¬Known → kept.length < body.length) :
    format.Downgrades view limit (Write.blob body) body.length Restricts Known loaded where
  decoded := decoded
  restricts := restricts
  stored := stored
  fresh := fresh
  same_iff other otherRestricts exact := by
    rw [encoded, (others other otherRestricts exact).2]
    constructor
    · intro same
      by_contra lost
      -- With more bytes declared than follow it is no envelope, and the other one is.
      have shorter := fewer lost
      have right : LengthTag.IsEnvelope (Write.blob kept) :=
        (LengthTag.isEnvelope_span _ _ (Nat.lt_trans shorter small)).mpr rfl
      rw [← same] at right
      exact absurd ((LengthTag.isEnvelope_span _ _ small).mp right) (Nat.ne_of_lt shorter)
    · intro known
      rw [all known]
      rfl
  again known := by
    rw [encoded, all known]
    exact decoded
  fails other otherRestricts exact lost := by
    rw [encoded, (others other otherRestricts exact).1]
    exact opens.deserializeWithin_of_lt within small (fewer lost)

/-! ## Runs of newer objects -/

theorem exists_of_mem_right {P : τ → σ → Prop} {wholes : List τ} {objects : List σ} {object : σ}
    (related : List.Forall₂ P wholes objects) (member : object ∈ objects) :
    ∃ whole ∈ wholes, P whole object := by
  obtain ⟨index, there⟩ := List.mem_iff_getElem?.mp member
  obtain ⟨whole, found, holds⟩ := Presence.forall₂_getElem? related there
  exact ⟨whole, List.mem_of_getElem? found, holds⟩

/-- Objects with the given bodies, one after the other, with their count in front. -/
def runOf (body : τ → Bytes) (wholes : List τ) : Bytes :=
  Write.lengthTag wholes.length .list ++ wholes.flatMap fun whole => Write.blob (body whole)

theorem length_runOf (body : τ → Bytes) (wholes : List τ) :
    (runOf body wholes).length = LengthTag.size wholes.length .list +
      (wholes.map fun whole => LengthTag.spanSize (body whole).length).sum := by
  rw [runOf, List.length_append, List.length_flatMap, Write.lengthTag, Varint.length_encode]
  simp only [Write.length_blob]
  rfl

theorem length_body_le_runOf (body : τ → Bytes) {wholes : List τ} {whole : τ}
    (member : whole ∈ wholes) : (body whole).length ≤ (runOf body wholes).length := by
  have there : Write.blob (body whole) ∈ wholes.map fun whole => Write.blob (body whole) :=
    List.mem_map_of_mem member
  have inside : (Write.blob (body whole)).length ≤
      (wholes.flatMap fun whole => Write.blob (body whole)).length :=
    (List.sublist_flatten_of_mem there).length_le
  have smaller := Write.length_le_blob (body whole)
  rw [runOf, List.length_append]
  omega

variable {old : ObjectFormat σ} {oldView : View σ} {new : ObjectFormat τ} {newView : View τ}
  {limit : Nat} {Legible : τ → Prop} {Keeps : τ → σ → Prop} {kept : τ → Bytes} {Known : τ → Prop}
  {wholes : List τ} {objects : List σ}

namespace Outgrown

theorem run_gives (outgrown : old.Outgrown oldView new newView limit Legible Keeps kept Known)
    (legible : ∀ whole ∈ wholes, Legible whole)
    (within : (runOf newView.bytes wholes).length ≤ limit) (default : limit ≤ defaultPayloadLimit) :
    Reader.Gives (ElementFormat.object old).readValues limit (runOf newView.bytes wholes)
      fun objects => List.Forall₂ Keeps wholes objects ∧ ∀ object ∈ objects, oldView.Exact object := by
  have elementsWithin :
      (wholes.flatMap fun whole => Write.blob (newView.bytes whole)).length ≤ limit := by
    rw [runOf, List.length_append] at within
    omega
  have run : Reader.Gives (ElementFormat.object old).readValues limit (runOf newView.bytes wholes)
      (List.Forall₂ (fun whole object => Keeps whole object ∧ oldView.Exact object) wholes) := by
    apply ElementFormat.readValues_gives ?_ ?_ elementsWithin default
    · intro whole member short
      exact outgrown.read whole (legible whole member)
        (Nat.le_trans (Write.length_le_blob _) short)
    · intro whole _
      exact Write.length_blob_pos _
  intro tail pos
  obtain ⟨objects, read, both⟩ := run tail pos
  refine ⟨objects, read, both.imp fun _ _ holds => holds.1, ?_⟩
  intro object member
  obtain ⟨_, _, _, exact⟩ := exists_of_mem_right both member
  exact exact

theorem run_valid (outgrown : old.Outgrown oldView new newView limit Legible Keeps kept Known)
    (legible : ∀ whole ∈ wholes, Legible whole) (keeps : List.Forall₂ Keeps wholes objects) :
    ∀ object ∈ objects, oldView.Valid object := by
  intro object member
  obtain ⟨whole, inside, kept⟩ := exists_of_mem_right keeps member
  exact outgrown.keeps_valid whole object (legible whole inside) kept

theorem run_bytes (outgrown : old.Outgrown oldView new newView limit Legible Keeps kept Known)
    (legible : ∀ whole ∈ wholes, Legible whole) (keeps : List.Forall₂ Keeps wholes objects) :
    (oldView.spanned.run .list).bytes objects = runOf kept wholes := by
  have bodies : objects.map oldView.bytes = wholes.map kept := by
    induction keeps with
    | nil => rfl
    | @cons whole object wholes objects first _ ih =>
      have same := outgrown.keeps_bytes whole object (legible whole List.mem_cons_self) first
      have rest := ih fun other member => legible other (List.mem_cons_of_mem _ member)
      rw [List.map_cons, List.map_cons, same, rest]
  have blobs : (objects.flatMap fun object => Write.blob (oldView.bytes object)) =
      wholes.flatMap fun whole => Write.blob (kept whole) := by
    rw [← List.flatMap_map, bodies, List.flatMap_map]
  change Write.lengthTag objects.length .list ++
    (objects.flatMap fun object => Write.blob (oldView.bytes object)) = _
  rw [blobs, ← keeps.length_eq]
  rfl

theorem run_of_known (outgrown : old.Outgrown oldView new newView limit Legible Keeps kept Known)
    (legible : ∀ whole ∈ wholes, Legible whole) (known : ∀ whole ∈ wholes, Known whole) :
    runOf kept wholes = runOf newView.bytes wholes := by
  refine congrArg (_ ++ ·) (List.flatMap_congr fun whole member => ?_)
  rw [outgrown.kept_of_known whole (legible whole member) (known whole member)]

/-- A run in which some object is not known in full is written shorter than it was read. -/
theorem run_lt (outgrown : old.Outgrown oldView new newView limit Legible Keeps kept Known)
    (legible : ∀ whole ∈ wholes, Legible whole) (small : (runOf newView.bytes wholes).length < 2 ^ 62)
    (lost : ¬∀ whole ∈ wholes, Known whole) :
    (runOf kept wholes).length < (runOf newView.bytes wholes).length := by
  have below : ∀ whole ∈ wholes, (newView.bytes whole).length < 2 ^ 62 := fun whole member =>
    Nat.lt_of_le_of_lt (length_body_le_runOf _ member) small
  have shorter : ∀ whole ∈ wholes, ¬Known whole →
      LengthTag.spanSize (kept whole).length < LengthTag.spanSize (newView.bytes whole).length := by
    intro whole member unknown
    exact LengthTag.spanSize_strictMono (outgrown.kept_lt whole (legible whole member) unknown)
      (below whole member)
  push Not at lost
  obtain ⟨whole, member, unknown⟩ := lost
  -- The count in front is the same, so the elements are compared one by one.
  rw [length_runOf, length_runOf]
  apply Nat.add_lt_add_left
  apply List.sum_lt_sum
  · intro other inside
    by_cases known : Known other
    · rw [outgrown.kept_of_known other (legible other inside) known]
    · exact Nat.le_of_lt (shorter other inside known)
  · exact ⟨whole, member, shorter whole member unknown⟩

end Outgrown

end ObjectFormat

/-! ## Sequences and dictionaries -/

/-- Each element has what the older side knows of the element in its place. -/
def Sequence.Restricts {σ τ : Type} (Keeps : τ → σ → Prop) (whole : Sequence τ)
    (sequence : Sequence σ) : Prop :=
  List.Forall₂ Keeps whole.items sequence.items

/-- The keys are the same, and each value has what the older side knows of the value under its
key. -/
def Dictionary.Restricts {σ τ : Type} (Keeps : τ → σ → Prop) (whole : Dictionary τ)
    (dictionary : Dictionary σ) : Prop :=
  dictionary.keys.map Text.bytes = whole.keys.map Text.bytes ∧
    List.Forall₂ Keeps whole.values dictionary.values

namespace ObjectFormat.Outgrown

variable {σ τ : Type} {old : ObjectFormat σ} {oldView : View σ} {new : ObjectFormat τ}
  {newView : View τ} {limit : Nat} {Legible : τ → Prop} {Keeps : τ → σ → Prop} {kept : τ → Bytes}
  {Known : τ → Prop}

/-! ### Sequences -/

theorem sequence_downgrades
    (outgrown : old.Outgrown oldView new newView limit Legible Keeps kept Known)
    (default : limit ≤ defaultPayloadLimit) {whole : Sequence τ}
    (legible : ∀ item ∈ whole.items, Legible item)
    (exact : (Sequence.view .list newView.spanned).Exact whole)
    (within : (whole.size (ElementFormat.object new)).1 ≤ limit) :
    ∃ loaded, (Sequence.format (ElementFormat.object old)).Downgrades
      (Sequence.view .list oldView.spanned) limit (whole.encode (ElementFormat.object new)).1
      (whole.size (ElementFormat.object new)).1 (Sequence.Restricts Keeps whole)
      (∀ item ∈ whole.items, Known item) loaded := by
  have older := ElementFormat.object_faithful outgrown.older
  have newer := Sequence.faithful (ElementFormat.object_faithful outgrown.newer)
  have valid : ∀ item ∈ whole.items, newView.Valid item := fun item member =>
    outgrown.legible_valid item (legible item member)
  have sized : (whole.size (ElementFormat.object new)).1 = (runOf newView.bytes whole.items).length :=
    newer.size_eq whole valid exact
  have written : (whole.encode (ElementFormat.object new)).1 =
      Write.blob (runOf newView.bytes whole.items) := newer.encode_eq whole valid exact
  rw [sized] at within
  have small := lt_of_le_default within default
  obtain ⟨⟨items, memo⟩, decoded, ⟨keeps, right⟩, remembered⟩ := deserializeWithin_of_gives
    (Sequence.read_gives within small (outgrown.run_gives legible within default))
  cases remembered
  have run := outgrown.run_bytes legible keeps
  rw [sized, written]
  refine ⟨_, downgrades_of_parts Sequence.opensSpan within small decoded keeps rfl ?_
    ⟨⟨items, none⟩, keeps, remembers_none _, right⟩ ?_ (outgrown.run_of_known legible)
    (outgrown.run_lt legible small)⟩
  · rw [← run]
    exact Sequence.encode_of_some older (outgrown.run_valid legible keeps) right _
  · intro other otherKeeps otherExact
    have otherValid := outgrown.run_valid legible otherKeeps
    rw [← outgrown.run_bytes legible otherKeeps]
    exact ⟨(Sequence.faithful older).size_eq other otherValid otherExact,
      (Sequence.faithful older).encode_eq other otherValid otherExact⟩

/-! ### Dictionaries -/

/-- The keys of a dictionary, and objects with the given bodies under them. -/
def dictionaryBody (body : τ → Bytes) (whole : Dictionary τ) : Bytes :=
  (ElementFormat.textView.run .list).bytes whole.keys ++ runOf body whole.values

theorem dictionary_valid
    (outgrown : old.Outgrown oldView new newView limit Legible Keeps kept Known)
    {whole : Dictionary τ} {dictionary : Dictionary σ} (distinct : (whole.keys.map Text.bytes).Nodup)
    (legible : ∀ value ∈ whole.values, Legible value)
    (restricts : Dictionary.Restricts Keeps whole dictionary) :
    (Dictionary.view .list oldView.spanned).Valid dictionary := by
  refine ⟨?_, outgrown.run_valid legible restricts.2⟩
  change (dictionary.keys.map Text.bytes).Nodup
  rw [restricts.1]
  exact distinct

theorem dictionary_bytes
    (outgrown : old.Outgrown oldView new newView limit Legible Keeps kept Known)
    {whole : Dictionary τ} {dictionary : Dictionary σ}
    (legible : ∀ value ∈ whole.values, Legible value)
    (restricts : Dictionary.Restricts Keeps whole dictionary) :
    Dictionary.bytesOf .list oldView.spanned dictionary.entries = dictionaryBody kept whole := by
  rw [dictionaryBody, ← ElementFormat.run_bytes_of_texts restricts.1,
    ← outgrown.run_bytes legible restricts.2]
  rfl

theorem dictionary_of_known
    (outgrown : old.Outgrown oldView new newView limit Legible Keeps kept Known)
    {whole : Dictionary τ} (legible : ∀ value ∈ whole.values, Legible value)
    (known : ∀ value ∈ whole.values, Known value) :
    dictionaryBody kept whole = dictionaryBody newView.bytes whole := by
  rw [dictionaryBody, outgrown.run_of_known legible known]
  rfl

theorem dictionary_lt
    (outgrown : old.Outgrown oldView new newView limit Legible Keeps kept Known)
    {whole : Dictionary τ} (legible : ∀ value ∈ whole.values, Legible value)
    (small : (dictionaryBody newView.bytes whole).length < 2 ^ 62)
    (lost : ¬∀ value ∈ whole.values, Known value) :
    (dictionaryBody kept whole).length < (dictionaryBody newView.bytes whole).length := by
  rw [dictionaryBody, List.length_append] at small
  rw [dictionaryBody, dictionaryBody, List.length_append, List.length_append]
  exact Nat.add_lt_add_left (outgrown.run_lt legible (by omega) lost) _

theorem dictionary_gives
    (outgrown : old.Outgrown oldView new newView limit Legible Keeps kept Known)
    (default : limit ≤ defaultPayloadLimit) {whole : Dictionary τ}
    (distinct : (whole.keys.map Text.bytes).Nodup) (legible : ∀ value ∈ whole.values, Legible value)
    (within : (dictionaryBody newView.bytes whole).length ≤ limit)
    (small : (dictionaryBody newView.bytes whole).length < 2 ^ 62) :
    Reader.Gives (Dictionary.format (ElementFormat.object old)).read limit
      (Write.blob (dictionaryBody newView.bytes whole)) fun loaded =>
        ∃ entries, loaded = ⟨entries, some (dictionaryBody newView.bytes whole).length⟩ ∧
          (∀ memo, Dictionary.Restricts Keeps whole ⟨entries, memo⟩) ∧
          ∀ value ∈ entries.map (·.2), oldView.Exact value := by
  have fits := within
  rw [dictionaryBody, List.length_append] at fits
  have keysGiven : Reader.Gives ElementFormat.text.readValues limit
      ((ElementFormat.textView.run .list).bytes whole.keys) fun keys =>
        keys.map Text.bytes = whole.keys.map Text.bytes :=
    ElementFormat.text_readable.readValues_recovers (fun _ _ => trivial)
      (Nat.le_trans (Nat.le_add_right _ _) fits) default
  have valuesGiven := outgrown.run_gives legible (Nat.le_trans (Nat.le_add_left _ _) fits) default
  have paired : ∀ (keys : List Text) (values : List σ),
      keys.map Text.bytes = whole.keys.map Text.bytes →
      (List.Forall₂ Keeps whole.values values ∧ ∀ value ∈ values, oldView.Exact value) →
        values.length = keys.length := by
    intro keys values same given
    have count := congrArg List.length same
    rw [List.length_map, List.length_map, Dictionary.keys, List.length_map] at count
    rw [count, ← given.1.length_eq, Dictionary.values, List.length_map]
  intro tail pos
  obtain ⟨_, read, keys, values, same, given, rfl⟩ :=
    Dictionary.read_gives within small keysGiven valuesGiven paired tail pos
  have lengths := paired keys values same given
  rw [Dictionary.collapse_of_nodup _ lengths (same ▸ distinct)] at read
  refine ⟨_, read, keys.zip values, rfl, fun memo => ⟨?_, ?_⟩, ?_⟩
  · rw [Dictionary.keys, Dictionary.keys_zip lengths]
    exact same
  · change List.Forall₂ Keeps whole.values ((keys.zip values).map (·.2))
    rw [Dictionary.values_zip lengths]
    exact given.1
  · rw [Dictionary.values_zip lengths]
    exact given.2

theorem dictionary_downgrades
    (outgrown : old.Outgrown oldView new newView limit Legible Keeps kept Known)
    (default : limit ≤ defaultPayloadLimit) {whole : Dictionary τ}
    (distinct : (whole.keys.map Text.bytes).Nodup) (legible : ∀ value ∈ whole.values, Legible value)
    (exact : (Dictionary.view .list newView.spanned).Exact whole)
    (within : (whole.size (ElementFormat.object new)).1 ≤ limit) :
    ∃ loaded, (Dictionary.format (ElementFormat.object old)).Downgrades
      (Dictionary.view .list oldView.spanned) limit (whole.encode (ElementFormat.object new)).1
      (whole.size (ElementFormat.object new)).1 (Dictionary.Restricts Keeps whole)
      (∀ value ∈ whole.values, Known value) loaded := by
  have older := ElementFormat.object_faithful outgrown.older
  have newer := Dictionary.faithful (ElementFormat.object_faithful outgrown.newer)
  have valid : (Dictionary.view .list newView.spanned).Valid whole :=
    ⟨distinct, fun value member => outgrown.legible_valid value (legible value member)⟩
  have sized : (whole.size (ElementFormat.object new)).1 = (dictionaryBody newView.bytes whole).length :=
    newer.size_eq whole valid exact
  have written : (whole.encode (ElementFormat.object new)).1 =
      Write.blob (dictionaryBody newView.bytes whole) := newer.encode_eq whole valid exact
  rw [sized] at within
  have small := lt_of_le_default within default
  obtain ⟨_, decoded, entries, rfl, restricts, right⟩ := deserializeWithin_of_gives
    (outgrown.dictionary_gives default distinct legible within small)
  rw [sized, written]
  refine ⟨_, downgrades_of_parts Dictionary.opensSpan within small decoded (restricts _) rfl ?_
    ⟨⟨entries, none⟩, restricts none, remembers_none _, right⟩ ?_
    (outgrown.dictionary_of_known legible) (outgrown.dictionary_lt legible small)⟩
  · rw [← outgrown.dictionary_bytes legible (restricts none)]
    exact Dictionary.encode_of_some older
      (outgrown.dictionary_valid distinct legible (restricts none)).2 right _
  · intro other otherRestricts otherExact
    have otherValid := outgrown.dictionary_valid distinct legible otherRestricts
    rw [← outgrown.dictionary_bytes legible otherRestricts]
    exact ⟨(Dictionary.faithful older).size_eq other otherValid otherExact,
      (Dictionary.faithful older).encode_eq other otherValid otherExact⟩

end ObjectFormat.Outgrown

/-! ## Collections of structures -/

namespace Structured

variable {φ ψ ν : Type} {old : SegmentFormat φ} {new : SegmentFormat ψ}
  {value : Nat → UInt64 → φ → ν} {newValue : Nat → UInt64 → ψ → ν} {code : Nat → UInt64 → ν → Bytes}
  {limit : Nat} {Legal : Nat → UInt64 → ν → Prop} {State : φ → Prop} {NewState : ψ → Prop}

theorem outgrown_of_growsTo (grows : old.GrowsTo new.layout value code limit Legal State)
    (writes : new.Writes newValue code NewState) (default : limit ≤ defaultPayloadLimit) :
    (Structured.format old).Outgrown (writtenView old value State) (Structured.format new)
      (writtenView new newValue NewState) limit (Legible new newValue Legal NewState)
      (Restricts old.layout value State newValue) (keptBody old.layout newValue code)
      (fun whole => whole.presence.restrict old.layout = whole.presence) where
  older := Structured.faithful grows.writes.faithful
  newer := Structured.faithful writes.faithful
  legible_valid _ legible := legible.valid
  keeps_valid _ _ legible restricts := restricts.valid grows legible
  keeps_bytes _ _ legible restricts := restricts.bytes_eq grows legible
  read _ legible within :=
    read_of_growsTo grows writes legible within (lt_of_le_default within default)
  kept_of_known _ legible known := legible.kept_of_known writes known
  kept_lt _ legible unknown := legible.kept_lt grows writes unknown

/-- Lists and dictionaries of structures, written with a newer layout and read with the older one. -/
theorem downgrades_of_growsTo (grows : old.GrowsTo new.layout value code limit Legal State)
    (writes : new.Writes newValue code NewState) (default : limit ≤ defaultPayloadLimit) :
    (∀ whole : Sequence (Structured ψ),
      (∀ item ∈ whole.items, Legible new newValue Legal NewState item) →
      (Sequence.view .list (writtenView new newValue NewState).spanned).Exact whole →
      (whole.size (ElementFormat.object (Structured.format new))).1 ≤ limit →
        ∃ loaded, (Sequence.format (ElementFormat.object (Structured.format old))).Downgrades
          (Sequence.view .list (writtenView old value State).spanned) limit
          (whole.encode (ElementFormat.object (Structured.format new))).1
          (whole.size (ElementFormat.object (Structured.format new))).1
          (Sequence.Restricts (Restricts old.layout value State newValue) whole)
          (∀ item ∈ whole.items, item.presence.restrict old.layout = item.presence) loaded) ∧
    ∀ whole : Dictionary (Structured ψ), (whole.keys.map Text.bytes).Nodup →
      (∀ item ∈ whole.values, Legible new newValue Legal NewState item) →
      (Dictionary.view .list (writtenView new newValue NewState).spanned).Exact whole →
      (whole.size (ElementFormat.object (Structured.format new))).1 ≤ limit →
        ∃ loaded, (Dictionary.format (ElementFormat.object (Structured.format old))).Downgrades
          (Dictionary.view .list (writtenView old value State).spanned) limit
          (whole.encode (ElementFormat.object (Structured.format new))).1
          (whole.size (ElementFormat.object (Structured.format new))).1
          (Dictionary.Restricts (Restricts old.layout value State newValue) whole)
          (∀ item ∈ whole.values, item.presence.restrict old.layout = item.presence) loaded := by
  have outgrown := outgrown_of_growsTo grows writes default
  constructor
  · intro whole legible exact within
    exact outgrown.sequence_downgrades default legible exact within
  · intro whole distinct legible exact within
    exact outgrown.dictionary_downgrades default distinct legible exact within

/-- A list with one element, and a dictionary with one value, of a message of one byte and a second
blob, read as framework errors.  Each is written again with a length that is two bytes too large. -/
theorem downgrades_of_growsTo_example :
    let new := SegmentFormat.ofBlobs (FrameworkError.messageField ||| fieldBit 1)
    let whole : Structured (UInt64 → Bytes) :=
      ⟨[⟨.list, 0, FrameworkError.messageField ||| fieldBit 1⟩], none,
        fun field => if field = FrameworkError.messageField then [0x61] else [0x62]⟩
    let error := FrameworkError.ofMessage (Text.ofWire [0x61])
    let lists := Sequence.format (ElementFormat.object FrameworkError.format)
    let dictionaries := Dictionary.format (ElementFormat.object FrameworkError.format)
    ((Sequence.ofList [whole]).encode (ElementFormat.object (Structured.format new))).1 =
        [0x1c, 0x04, 0x14, 0x18, 0x04, 0x61, 0x04, 0x62] ∧
      (lists.encode (Sequence.ofList [error])).1 = [0x14, 0x04, 0x0c, 0x08, 0x04, 0x61] ∧
      (∃ loaded, lists.deserialize [0x1c, 0x04, 0x14, 0x18, 0x04, 0x61, 0x04, 0x62] = .ok loaded ∧
        (lists.size loaded).1 = 7 ∧
        (lists.encode loaded).1 ≠ (lists.encode (Sequence.ofList [error])).1 ∧
        lists.deserialize (lists.encode loaded).1 = .error (.bufferUnderrun 7 5)) ∧
      ∃ loaded, dictionaries.deserialize
          [0x28, 0x04, 0x04, 0x6b, 0x04, 0x14, 0x18, 0x04, 0x61, 0x04, 0x62] = .ok loaded ∧
        (dictionaries.size loaded).1 = 10 ∧
        (dictionaries.encode loaded).1 ≠
          (dictionaries.encode ⟨[(Text.ofWire [0x6b], error)], none⟩).1 ∧
        dictionaries.deserialize (dictionaries.encode loaded).1 = .error (.bufferUnderrun 10 8) := by
  intro new whole error lists dictionaries
  have fits : whole.presence.Fits new.layout := .cons ⟨rfl, rfl, rfl, rfl, rfl⟩ .nil
  have short : ∀ field, (Write.blob (whole.fields field)).length ≤ defaultPayloadLimit := by
    intro field
    change (Write.blob (if field = FrameworkError.messageField then _ else _)).length ≤ _
    split <;> decide
  have legible : ∀ item ∈ [whole], Legible new (fun _ field fields => some (fields field))
      (IsContent defaultPayloadLimit) (fun _ => True) item :=
    List.forall_mem_singleton.mpr (SegmentFormat.ofBlobs_legible fits short)
  have right : ∀ item ∈ [whole], (writtenView new
      (fun _ field (fields : UInt64 → Bytes) => some (fields field)) fun _ => True).Exact item :=
    List.forall_mem_singleton.mpr (writtenView_exact_iff.mpr (remembers_none _))
  have kept : Restricts FrameworkError.segments.layout FrameworkError.content (fun _ => True)
      (fun _ field fields => some (fields field)) whole error :=
    FrameworkError.ofMessage_restricts (by decide) rfl
  have errorRight : ∀ item ∈ [error], (writtenView FrameworkError.segments FrameworkError.content
      fun _ => True).Exact item :=
    List.forall_mem_singleton.mpr (writtenView_exact_iff.mpr (remembers_none _))
  have lost : ¬∀ item ∈ [whole],
      item.presence.restrict FrameworkError.segments.layout = item.presence := fun known =>
    absurd (known whole List.mem_cons_self) (by decide)
  obtain ⟨ofSequences, ofDictionaries⟩ := downgrades_of_growsTo
    (FrameworkError.segments_growsTo (Nat.le_refl defaultPayloadLimit)
      FrameworkError.segments_growsTo_second)
    (SegmentFormat.ofBlobs_writes (FrameworkError.messageField ||| fieldBit 1))
    (Nat.le_refl defaultPayloadLimit)
  have listWritten : ((Sequence.ofList [whole]).encode
      (ElementFormat.object (Structured.format new))).1 =
        [0x1c, 0x04, 0x14, 0x18, 0x04, 0x61, 0x04, 0x62] := by decide
  have listSize : ((Sequence.ofList [whole]).size (ElementFormat.object (Structured.format new))).1 =
      7 := by decide
  have errorsSize : (lists.size (Sequence.ofList [error])).1 = 5 := by decide
  obtain ⟨list, forList⟩ := ofSequences (Sequence.ofList [whole]) legible ⟨remembers_none _, right⟩
    (by rw [listSize]; decide)
  rw [listWritten, listSize] at forList
  have listKept : Sequence.Restricts _ (Sequence.ofList [whole]) (Sequence.ofList [error]) :=
    .cons kept .nil
  have listRight : (Sequence.view .list (writtenView FrameworkError.segments FrameworkError.content
      fun _ => True).spanned).Exact (Sequence.ofList [error]) := ⟨remembers_none _, errorRight⟩
  have listFails : lists.deserialize (lists.encode list).1 =
      .error (.bufferUnderrun 7 (lists.size (Sequence.ofList [error])).1) :=
    forList.fails _ listKept listRight lost
  rw [errorsSize] at listFails
  have dictionaryWritten : (Dictionary.encode (ElementFormat.object (Structured.format new))
      ⟨[(Text.ofWire [0x6b], whole)], none⟩).1 =
        [0x28, 0x04, 0x04, 0x6b, 0x04, 0x14, 0x18, 0x04, 0x61, 0x04, 0x62] := by decide
  have dictionarySize : (Dictionary.size (ElementFormat.object (Structured.format new))
      ⟨[(Text.ofWire [0x6b], whole)], none⟩).1 = 10 := by decide
  have errorDictionarySize : (dictionaries.size ⟨[(Text.ofWire [0x6b], error)], none⟩).1 = 8 := by
    decide
  obtain ⟨dictionary, forDictionary⟩ := ofDictionaries ⟨[(Text.ofWire [0x6b], whole)], none⟩
    (by decide) legible ⟨remembers_none _, right⟩ (by rw [dictionarySize]; decide)
  rw [dictionaryWritten, dictionarySize] at forDictionary
  have dictionaryKept : Dictionary.Restricts _ ⟨[(Text.ofWire [0x6b], whole)], none⟩
      ⟨[(Text.ofWire [0x6b], error)], none⟩ := ⟨rfl, .cons kept .nil⟩
  have dictionaryRight : (Dictionary.view .list (writtenView FrameworkError.segments
      FrameworkError.content fun _ => True).spanned).Exact
        ⟨[(Text.ofWire [0x6b], error)], none⟩ := ⟨remembers_none _, errorRight⟩
  have dictionaryFails : dictionaries.deserialize (dictionaries.encode dictionary).1 =
      .error (.bufferUnderrun 10 (dictionaries.size ⟨[(Text.ofWire [0x6b], error)], none⟩).1) :=
    forDictionary.fails _ dictionaryKept dictionaryRight lost
  rw [errorDictionarySize] at dictionaryFails
  exact ⟨listWritten, by decide, ⟨list, forList.decoded, forList.stored,
      fun same => lost ((forList.same_iff _ listKept listRight).mp same), listFails⟩,
    dictionary, forDictionary.decoded, forDictionary.stored,
      fun same => lost ((forDictionary.same_iff _ dictionaryKept dictionaryRight).mp same),
      dictionaryFails⟩

end Structured

end FieldWire
