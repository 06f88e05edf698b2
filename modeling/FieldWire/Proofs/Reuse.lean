import FieldWire.Proofs.Interrupted

/-!
# Loading into a used object

A load works in place: it clears the presence of a structure and then overwrites what the input
carries.  To see what is left of an object that was used before, the same load is followed on that
object and on a new one side by side.  What both read is the same, so that they go through the same
blocks; a relation between the fields, which may say more once certain slots have had a block, is
carried from block to block.
-/

set_option autoImplicit false

namespace FieldWire

/-! ## Two runs of a loader -/

namespace Loader

variable {σ τ α β : Type} {Before Middle : σ → σ → Prop} {After : β → σ → σ → Prop}

/-- Where the loader succeeds on a fresh object, it succeeds on a used one that is related to it, with
the same result and at the same place, and what it leaves of the two is related too. -/
def Relates (loader : Loader σ α) (Before : σ → σ → Prop) (After : α → σ → σ → Prop) : Prop :=
  ∀ used fresh cursor value final after, Before used fresh →
    loader (fresh, cursor) = .ok value (final, after) →
      ∃ result, loader (used, cursor) = .ok value (result, after) ∧ After value result final

theorem relates_read (reader : Reader α) :
    (read reader : Loader σ α).Relates Before fun _ => Before := by
  intro used fresh cursor value final after related ran
  obtain ⟨rfl, readerRan⟩ := read_eq_ok ran
  exact ⟨used, read_of_ok readerRan used, related⟩

theorem relates_update {change : σ → σ} {R : σ → σ → Prop}
    (changed : ∀ used fresh, Before used fresh → R (change used) (change fresh)) :
    (update change).Relates Before fun _ => R := by
  intro used fresh cursor value final after related ran
  cases ran
  exact ⟨change used, rfl, changed used fresh related⟩

theorem relates_pure {value : β}
    (holds : ∀ used fresh, Before used fresh → After value used fresh) :
    (pure value : Loader σ β).Relates Before After := by
  intro used fresh cursor result final after related ran
  cases ran
  exact ⟨used, rfl, holds used fresh related⟩

theorem relates_throw (error : CodecError) :
    (throw error : Loader σ β).Relates Before After :=
  fun _ _ _ _ _ _ _ ran => absurd ran (throw_ne_ok _ _ _ _)

/-- A check that fails, in the middle of a loader. -/
theorem relates_throw_bind (error : CodecError) (next : α → Loader σ β) :
    (throw error >>= next : Loader σ β).Relates Before After :=
  relates_throw error

theorem Relates.bind {first : Loader σ α} {next : α → Loader σ β} {Between : α → σ → σ → Prop}
    (related : first.Relates Before Between)
    (more : ∀ value, (next value).Relates (Between value) After) :
    (first >>= next).Relates Before After := by
  intro used fresh cursor result final after before ran
  obtain ⟨value, ⟨middle, here⟩, firstRan, nextRan⟩ := (bind_eq_ok_iff _ _ _ _ _).mp ran
  obtain ⟨other, otherRan, between⟩ := related _ _ _ _ _ _ before firstRan
  obtain ⟨last, lastRan, holds⟩ := more value _ _ _ _ _ _ between nextRan
  exact ⟨last, (bind_of_ok otherRan).trans lastRan, holds⟩

/-- Reading a value and storing it. -/
theorem relates_store {reader : Reader α} {change : α → σ → σ} {R : σ → σ → Prop}
    (stored : ∀ value used fresh, Before used fresh →
      R (change value used) (change value fresh)) :
    (do
      let found ← read reader
      update (change found) : Loader σ Unit).Relates Before fun _ => R :=
  (relates_read reader).bind fun value => relates_update (stored value)

theorem Relates.part {loader : Loader τ β} {Outer : τ → τ → Prop} {Inner : β → τ → τ → Prop}
    {get : σ → τ} {put : σ → τ → σ} (related : loader.Relates Outer Inner)
    (outside : ∀ used fresh, Before used fresh → Outer (get used) (get fresh))
    (inside : ∀ value used fresh inner other, Before used fresh → Inner value inner other →
      After value (put used inner) (put fresh other)) :
    (part get put loader).Relates Before After := by
  intro used fresh cursor value final after before ran
  obtain ⟨inner, rfl, loaded⟩ := part_eq_ok ran
  obtain ⟨other, otherLoaded, holds⟩ := related _ _ _ _ _ _ (outside used fresh before) loaded
  exact ⟨put used other, part_of_ok otherLoaded, inside value used fresh other inner before holds⟩

end Loader

/-! ## Objects that are replaced as a whole -/

theorem Sequence.load_relates {α : Type} (format : ElementFormat α) :
    (Sequence.load format).Relates (fun _ _ => True) fun _ => Eq := by
  refine (Loader.relates_read _).bind fun declared => (Loader.relates_read _).bind fun start =>
    (Loader.relates_read _).bind fun items => (Loader.relates_update
      (R := fun used fresh => used.items = fresh.items) fun _ _ _ => rfl).bind fun _ =>
    (Loader.relates_read _).bind fun stop => ?_
  dsimp only
  split
  · exact Loader.relates_throw_bind _ _
  · exact Loader.relates_update fun used fresh same => congrArg (Sequence.mk · _) same

theorem Dictionary.load_relates {α : Type} (format : ElementFormat α) :
    (Dictionary.load format).Relates (fun _ _ => True) fun _ => Eq := by
  refine (Loader.relates_read _).bind fun declared => (Loader.relates_read _).bind fun start =>
    (Loader.relates_read _).bind fun keys => (Loader.relates_read _).bind fun values => ?_
  dsimp only
  split
  · exact Loader.relates_throw_bind _ _
  · refine (Loader.relates_read _).bind fun stop => ?_
    split
    · exact Loader.relates_throw_bind _ _
    · exact Loader.relates_update fun _ _ _ => rfl

theorem Tree.load_relates : format.load.Relates (fun _ _ => True) fun _ => Eq := by
  intro used fresh cursor value final after related ran
  let elements := ElementFormat.object (formatUpTo cursor.rest.length)
  have whole : (Loader.part children (fun _ later => node later) (Sequence.load elements)).Relates
      (fun _ _ => True) fun _ => Eq :=
    (Sequence.load_relates elements).part (fun _ _ _ => trivial)
      fun _ _ _ _ _ _ same => congrArg node same
  exact whole used fresh cursor value final after related ran

/-! ## Structures -/

namespace Structured

variable {φ : Type} {format : SegmentFormat φ} {Rel : List Nat → φ → φ → Prop}

/-- Two structures in the same place of the same load. -/
structure Abreast (Rel : φ → φ → Prop) (used fresh : Structured φ) : Prop where
  presence : used.presence = fresh.presence
  fields : Rel used.fields fresh.fields

/-- The fields that a used and a fresh structure hold once the segments `done` have had a block are
related by `Rel done`. -/
def CarriesOver (format : SegmentFormat φ) (Rel : List Nat → φ → φ → Prop) : Prop :=
  ∀ (slot : Nat) (segment : Segment) (set : FieldSet) (done : List Nat),
    format.layout[slot]? = some segment → set.wireType = segment.wireType →
      (format.load set).Relates (Rel done) fun _ => Rel (slot :: done)

theorem loadBlock_relates (carries : CarriesOver format Rel) (done : List Nat) :
    (loadBlock format).Relates (Abreast (Rel done)) fun answer => Abreast (Rel (answer.1 :: done)) := by
  intro used fresh cursor answer final after abreast ran
  obtain ⟨header, segment, middle, filled, place, headerRead, located, complete, loaded, skipped,
    passed, rfl⟩ := loadBlock_eq_ok_iff.mp ran
  obtain ⟨found, _, _⟩ := Layout.locate?_eq_some located
  obtain ⟨other, otherLoaded, related⟩ :=
    carries answer.1 segment _ done found rfl _ _ _ _ _ _ abreast.fields loaded
  refine ⟨_, loadBlock_eq_ok_iff.mpr ⟨header, segment, middle, other, place, headerRead, located,
    complete, otherLoaded, skipped, passed, rfl⟩, ?_, related⟩
  exact congrArg (Presence.replace · answer.1 _) abreast.presence

theorem loadBlocks_relates (carries : CarriesOver format Rel) (start declared fuel : Nat)
    (done : List Nat) :
    (loadBlocks format start declared fuel).Relates (Abreast (Rel done)) fun answer =>
      Abreast (Rel (answer.1.reverse ++ done)) := by
  induction fuel generalizing done with
  | zero => exact Loader.relates_pure fun _ _ abreast => abreast
  | succ fuel ih =>
    refine (Loader.relates_read _).bind fun here => ?_
    split
    · refine (loadBlock_relates carries done).bind fun block => (ih (block.1 :: done)).bind
        fun rest => Loader.relates_pure fun used fresh abreast => ?_
      rw [List.reverse_cons, List.append_assoc]
      exact abreast
    · exact Loader.relates_pure fun _ _ abreast => abreast

/-- A used structure and a fresh one after the same load. -/
structure Reloaded (layout : Layout) (Rel : List Nat → φ → φ → Prop) (used fresh : Structured φ) :
    Prop where
  presence : used.presence = fresh.presence
  memo : used.memo = fresh.memo
  /-- Every segment with required fields has had a block. -/
  fields : ∃ done, Rel done used.fields fresh.fields ∧ ∀ (slot : Nat) (segment : Segment),
    layout[slot]? = some segment → segment.required ≠ 0 → slot ∈ done

theorem Reloaded.eq {layout : Layout} {used fresh : Structured φ}
    (reloaded : Reloaded layout Rel used fresh) (fields : used.fields = fresh.fields) :
    used = fresh := by
  obtain ⟨presence, memo, held⟩ := used
  obtain rfl : presence = fresh.presence := reloaded.presence
  obtain rfl : memo = fresh.memo := reloaded.memo
  obtain rfl : held = fresh.fields := fields
  rfl

/-- What was present before does not matter, only which field sets there are. -/
theorem load_relates (carries : CarriesOver format Rel) :
    (load format).Relates
      (fun used fresh => used.presence.clear = fresh.presence.clear ∧ Rel [] used.fields fresh.fields)
      fun _ => Reloaded format.layout Rel := by
  refine (Loader.relates_read _).bind fun declared => (Loader.relates_read _).bind fun start =>
    (Loader.relates_update (R := Abreast (Rel []))
      fun used fresh before => ⟨before.1, before.2⟩).bind fun _ =>
    (loadBlocks_relates carries _ _ _ []).bind fun answer =>
    (Loader.relates_read _).bind fun stop => ?_
  obtain ⟨seen, skipped⟩ := answer
  by_cases wrong : (stop - start != declared) = true
  · simp only [wrong]
    exact Loader.relates_throw_bind _ _
  · simp only [wrong]
    cases unseen : format.layout.firstUnseen? seen with
    | some segment => exact Loader.relates_throw _
    | none =>
      refine Loader.relates_update fun used fresh abreast => ⟨abreast.presence, rfl, ?_⟩
      refine ⟨seen.reverse ++ [], abreast.fields, fun slot segment found required => ?_⟩
      have inside := (Layout.firstUnseen?_eq_none_iff _ _).mp unseen slot segment found required
      simpa using inside

end Structured

/-! ## The field sets that there are -/

namespace Presence

theorem clear_clear (presence : Presence) : presence.clear.clear = presence.clear :=
  List.map_map

theorem clear_set (presence : Presence) (slot : Nat) (fields : UInt64) (present : Bool) :
    (presence.set slot fields present).clear = presence.clear := by
  apply List.ext_getElem?
  intro place
  rw [clear, clear, List.getElem?_map, List.getElem?_map, Presence.set, List.getElem?_modify]
  cases presence[place]? with
  | none => rfl
  | some set => cases present <;> by_cases same : slot = place <;> simp [same, FieldSet.set]

theorem clear_replace {presence : Presence} {layout : Layout}
    (cleared : presence.clear = layout.fresh.clear) {slot : Nat} {segment : Segment}
    (found : layout[slot]? = some segment) (bits : UInt64) :
    (presence.replace slot (FieldSet.ofBits segment.wireType segment.index bits)).clear =
      layout.fresh.clear := by
  have there : layout.fresh.clear[slot]? = some (FieldSet.empty segment.wireType segment.index) := by
    rw [clear, Layout.fresh, List.getElem?_map, List.getElem?_map, found]
    rfl
  obtain ⟨inside, same⟩ := List.getElem?_eq_some_iff.mp there
  rw [clear, Presence.replace, List.map_set]
  change List.set presence.clear slot (FieldSet.empty segment.wireType segment.index) = _
  rw [cleared, ← same]
  exact List.set_getElem_self inside

/-- Nothing is written if the only segment has one field and that is absent. -/
theorem written_eq_nil {presence : Presence} {segment : Segment} (fits : presence.Fits [segment])
    (absent : ∀ set ∈ presence.written, ¬set.has segment.known) : presence.written = [] := by
  refine List.eq_nil_iff_forall_not_mem.mpr fun set member => absent set member ?_
  obtain ⟨inside, nonempty⟩ := (mem_written_iff _ _).mp member
  obtain ⟨_, _, _, found, admits⟩ := fits.exists_slot inside
  obtain ⟨_, rfl⟩ := singleton_getElem? found
  exact admits.has_known nonempty

end Presence

/-- The states that an object comes to by mutators, by calls that only look at it, and by loads from
any bytes, whether they succeed or fail. -/
inductive ObjectFormat.Reached {σ : Type} (format : ObjectFormat σ) (Change Look : σ → σ → Prop) :
    σ → Prop where
  | new : Reached format Change Look format.empty
  | change {object later : σ} : Reached format Change Look object → Change object later →
      Reached format Change Look later
  | look {object later : σ} : Reached format Change Look object → Look object later →
      Reached format Change Look later
  | load {object : σ} (limit : Nat) (bytes : Bytes) : Reached format Change Look object →
      Reached format Change Look (format.loadFrom limit bytes object).2.1

namespace Structured

variable {φ : Type} {format : SegmentFormat φ}

/-- What can be done to any structure: fields are made present or absent, and the remembered size is
forgotten. -/
inductive Touch (object : Structured φ) : Structured φ → Prop where
  | mark (slot : Nat) (fields : UInt64) (present : Bool) :
      Touch object (object.mark slot fields present)
  | forget : Touch object object.forget

/-- The field sets are those of the layout, whatever is present. -/
def Slotted (layout : Layout) (object : Structured φ) : Prop :=
  object.presence.clear = layout.fresh.clear

theorem keeps_slotted : (load format).Keeps (Slotted format.layout) := by
  refine keeps_load (fun object slotted => ?_) (fun _ _ slotted => slotted) (keeps_loadBlock ?_ ?_)
  · exact (Presence.clear_clear _).trans slotted
  · intro header segment slot found _ object slotted
    exact Presence.clear_replace slotted found _
  · intro set
    exact Loader.keeps_part (Q := fun _ => True)
      ⟨fun _ _ _ _ _ _ _ => trivial, fun _ _ _ _ _ _ _ => trivial⟩ (fun _ _ => trivial)
      fun _ _ slotted _ => slotted

theorem slotted_of_reached {Change Look : Structured φ → Structured φ → Prop}
    (changes : ∀ object later, Change object later →
      later.presence.clear = object.presence.clear)
    (looks : ∀ object later, Look object later → later.presence = object.presence)
    {object : Structured φ} (reached : (Structured.format format).Reached Change Look object) :
    Slotted format.layout object := by
  induction reached with
  | new => rfl
  | change _ changed ih => exact (changes _ _ changed).trans ih
  | look _ looked ih => exact (congrArg Presence.clear (looks _ _ looked)).trans ih
  | load limit bytes _ ih =>
    rw [ObjectFormat.loadFrom]
    split
    · rename_i ran
      exact keeps_slotted.ok _ _ _ _ _ ih ran
    · rename_i failed
      exact keeps_slotted.error _ _ _ _ _ ih failed

theorem presence_of_touch {object later : Structured φ} (touched : Touch object later) :
    later.presence.clear = object.presence.clear := by
  cases touched with
  | mark slot fields present => exact Presence.clear_set _ _ _ _
  | forget => rfl

theorem presence_size (object : Structured φ) :
    (object.size format).2.presence = object.presence := by
  rw [size]
  split <;> rfl

theorem ofPlain_presence_follows {layout : Layout} {empty : φ} {size : FieldSet → φ → Nat}
    {encode : FieldSet → φ → Bytes} {load : FieldSet → Loader φ Unit} {same : φ → φ → Bool} :
    (Structured.format (SegmentFormat.ofPlain layout empty size encode load same)).Follows
      fun object later => later.presence = object.presence :=
  ofPlain_follows (fun _ => rfl) (fun _ _ _ before after => after.trans before) presence_size

/-- The values of fields that are not written do not matter. -/
theorem encode_of_nothing {presence : Presence} (nothing : presence.written = [])
    (memo : Option Nat) (fields other : φ) :
    (encode format ⟨presence, memo, fields⟩).1 = (encode format ⟨presence, memo, other⟩).1 := by
  cases memo <;> simp [encode, size, nothing, SegmentFormat.blocksSize, SegmentFormat.blocks]

end Structured

end FieldWire
