import FieldWire.Proofs.Schema

/-!
# Looking at objects

Asking for a size or for the bytes, comparing, and handing out what is inside only look at an object.
All the same they leave it in another state: sizes are remembered from then on, and payloads that
were asked for stay decoded.  A relation between states is followed by a format if each of these
calls leads along it; collections follow a relation if their elements do.
-/

set_option autoImplicit false

namespace FieldWire

/-! ## Following a relation -/

/-- The calls that only look at an element lead along a relation. -/
structure ElementFormat.Follows {α : Type} (format : ElementFormat α) (Rel : α → α → Prop) : Prop where
  refl : ∀ value, Rel value value
  trans : ∀ first second third, Rel first second → Rel second third → Rel first third
  size : ∀ value, Rel value (format.size value).2
  write : ∀ value, Rel value (format.write value).2
  left : ∀ value other, Rel value (format.same value other).2.1
  right : ∀ value other, Rel value (format.same other value).2.2

namespace ObjectFormat

variable {σ : Type} {format : ObjectFormat σ} {Rel Inside : σ → σ → Prop}

/-- The calls that only look at an object lead along a relation. -/
structure Follows (format : ObjectFormat σ) (Rel : σ → σ → Prop) : Prop where
  refl : ∀ object, Rel object object
  trans : ∀ first second third, Rel first second → Rel second third → Rel first third
  size : ∀ object, Rel object (format.size object).2
  encode : ∀ object, Rel object (format.encode object).2
  left : ∀ object other, Rel object (format.same object other).2.1
  right : ∀ object other, Rel object (format.same other object).2.2

/-- The states that an object comes to by calls that only look at it, or at what is inside of it. -/
inductive Peek (format : ObjectFormat σ) (Inside : σ → σ → Prop) (first : σ) : σ → Prop where
  | start : Peek format Inside first first
  | size {object : σ} : Peek format Inside first object →
      Peek format Inside first (format.size object).2
  | encode {object : σ} : Peek format Inside first object →
      Peek format Inside first (format.encode object).2
  | left {object : σ} (other : σ) : Peek format Inside first object →
      Peek format Inside first (format.same object other).2.1
  | right {object : σ} (other : σ) : Peek format Inside first object →
      Peek format Inside first (format.same other object).2.2
  | inside {object later : σ} : Peek format Inside first object → Inside object later →
      Peek format Inside first later

theorem Follows.of_peek (follows : format.Follows Rel)
    (inside : ∀ object later, Inside object later → Rel object later) {first last : σ}
    (peek : format.Peek Inside first last) : Rel first last := by
  induction peek with
  | start => exact follows.refl first
  | size _ ih => exact follows.trans _ _ _ ih (follows.size _)
  | encode _ ih => exact follows.trans _ _ _ ih (follows.encode _)
  | left other _ ih => exact follows.trans _ _ _ ih (follows.left _ other)
  | right other _ ih => exact follows.trans _ _ _ ih (follows.right _ other)
  | inside _ looked ih => exact follows.trans _ _ _ ih (inside _ _ looked)

theorem Follows.imp {Weaker : σ → σ → Prop} (follows : format.Follows Rel)
    (refl : ∀ object, Weaker object object)
    (trans : ∀ first second third, Weaker first second → Weaker second third → Weaker first third)
    (weaker : ∀ object later, Rel object later → Weaker object later) : format.Follows Weaker where
  refl := refl
  trans := trans
  size object := weaker _ _ (follows.size object)
  encode object := weaker _ _ (follows.encode object)
  left object other := weaker _ _ (follows.left object other)
  right object other := weaker _ _ (follows.right object other)

theorem Follows.element (follows : format.Follows Rel) :
    (ElementFormat.object format).Follows Rel where
  refl := follows.refl
  trans := follows.trans
  size := follows.size
  write := follows.encode
  left := follows.left
  right := follows.right

end ObjectFormat

theorem forall₂_trans {α : Type} {Rel : α → α → Prop}
    (trans : ∀ first second third, Rel first second → Rel second third → Rel first third)
    {first second third : List α} (before : List.Forall₂ Rel first second)
    (after : List.Forall₂ Rel second third) : List.Forall₂ Rel first third := by
  induction before generalizing third with
  | nil => exact after
  | cons head _ ih =>
    cases after with
    | cons next rest => exact .cons (trans _ _ _ head next) (ih rest)

theorem forall₂_set {α : Type} {Rel : α → α → Prop} (refl : ∀ value, Rel value value)
    {values : List α} {index : Nat} {value later : α} (there : values[index]? = some value)
    (rel : Rel value later) : List.Forall₂ Rel values (values.set index later) := by
  induction values generalizing index with
  | nil => cases there
  | cons head rest ih =>
    cases index with
    | zero =>
      cases there
      exact .cons rel (List.forall₂_same.mpr fun other _ => refl other)
    | succ index => exact .cons (refl head) (ih there)

namespace ElementFormat

variable {α : Type} {format : ElementFormat α} {Rel : α → α → Prop}

theorem ofPlain_follows {scheme : WireType} {size : α → Nat} {write : α → Bytes} {read : Reader α}
    {same : α → α → Bool} (refl : ∀ value, Rel value value)
    (trans : ∀ first second third, Rel first second → Rel second third → Rel first third) :
    (ofPlain scheme size write read same).Follows Rel where
  refl := refl
  trans := trans
  size := refl
  write := refl
  left value _ := refl value
  right value _ := refl value

/-- They lead along any weaker relation that is reflexive and transitive. -/
theorem Follows.imp {Weaker : α → α → Prop} (follows : format.Follows Rel)
    (refl : ∀ value, Weaker value value)
    (trans : ∀ first second third, Weaker first second → Weaker second third → Weaker first third)
    (weaker : ∀ value later, Rel value later → Weaker value later) : format.Follows Weaker where
  refl := refl
  trans := trans
  size value := weaker _ _ (follows.size value)
  write value := weaker _ _ (follows.write value)
  left value other := weaker _ _ (follows.left value other)
  right value other := weaker _ _ (follows.right value other)

theorem Follows.unchanged (follows : format.Follows Rel) (values : List α) :
    List.Forall₂ Rel values values :=
  List.forall₂_same.mpr fun value _ => follows.refl value

theorem forall₂_map (look : α → α) (looked : ∀ value, Rel value (look value)) (values : List α) :
    List.Forall₂ Rel values (values.map look) :=
  List.forall₂_map_right_iff.mpr (List.forall₂_same.mpr fun value _ => looked value)

theorem Follows.valuesSize (follows : format.Follows Rel) (values : List α) :
    List.Forall₂ Rel values (format.valuesSize values).2 := by
  rw [ElementFormat.valuesSize]
  split
  · exact follows.unchanged values
  · have sized := forall₂_map (fun value => (format.size value).2) follows.size values
    rwa [← elementsSize_snd] at sized

theorem Follows.writeValues (follows : format.Follows Rel) (values : List α) :
    List.Forall₂ Rel values (format.writeValues values).2 := by
  rw [writeValues_snd]
  exact forall₂_map _ follows.write values

theorem Follows.sameValues (follows : format.Follows Rel) (lefts rights : List α) :
    List.Forall₂ Rel lefts (format.sameValues lefts rights).2.1 ∧
      List.Forall₂ Rel rights (format.sameValues lefts rights).2.2 := by
  induction lefts generalizing rights with
  | nil => exact ⟨follows.unchanged _, follows.unchanged _⟩
  | cons left lefts ih =>
    cases rights with
    | nil => exact ⟨follows.unchanged _, follows.unchanged _⟩
    | cons right rights =>
      have first := follows.left left right
      have second := follows.right right left
      obtain ⟨ihLefts, ihRights⟩ := ih rights
      rw [ElementFormat.sameValues]
      split
      · rename_i compared
        rw [compared] at first second
        exact ⟨.cons first ihLefts, .cons second ihRights⟩
      · rename_i compared
        rw [compared] at first second
        exact ⟨.cons first (follows.unchanged _), .cons second (follows.unchanged _)⟩

end ElementFormat

/-! ## Sequences -/

namespace Sequence

variable {α : Type} {format : ElementFormat α} {Looked Element : α → α → Prop}
  {Rel : Sequence α → Sequence α → Prop}

/-- An element is looked at where it is. -/
inductive Inside (Looked : α → α → Prop) (sequence : Sequence α) : Sequence α → Prop where
  | element {index : Nat} {item later : α} (there : sequence.items[index]? = some item)
      (looked : Looked item later) :
      Inside Looked sequence { sequence with items := sequence.items.set index later }

theorem follows (elements : format.Follows Element)
    (trans : ∀ first second third, Rel first second → Rel second third → Rel first third)
    (size : ∀ sequence, Rel sequence (sequence.size format).2)
    (items : ∀ items later memo, List.Forall₂ Element items later → Rel ⟨items, memo⟩ ⟨later, memo⟩) :
    (Sequence.format format).Follows Rel where
  refl sequence := items _ _ _ (elements.unchanged sequence.items)
  trans := trans
  size := size
  encode sequence :=
    trans _ _ _ (size sequence) (items _ _ _ (elements.writeValues (sequence.size format).2.items))
  left sequence other := by
    change Rel sequence (Sequence.same format sequence other).2.1
    rw [Sequence.same]
    split
    · exact items _ _ _ (elements.sameValues sequence.items other.items).1
    · exact items _ _ _ (elements.unchanged sequence.items)
  right sequence other := by
    change Rel sequence (Sequence.same format other sequence).2.2
    rw [Sequence.same]
    split
    · exact items _ _ _ (elements.sameValues other.items sequence.items).2
    · exact items _ _ _ (elements.unchanged sequence.items)

theorem rel_of_inside (elements : format.Follows Element)
    (items : ∀ items later memo, List.Forall₂ Element items later → Rel ⟨items, memo⟩ ⟨later, memo⟩)
    (looks : ∀ value later, Looked value later → Element value later)
    {sequence later : Sequence α} (inside : Inside Looked sequence later) : Rel sequence later := by
  cases inside with
  | element there looked => exact items _ _ _ (forall₂_set elements.refl there (looks _ _ looked))

end Sequence

/-! ## Dictionaries -/

namespace Dictionary

variable {α : Type} {format : ElementFormat α} {Looked Element : α → α → Prop}
  {Rel : Dictionary α → Dictionary α → Prop}

/-- Another state of a value under the same key. -/
def SameKey (Element : α → α → Prop) (entry later : Text × α) : Prop :=
  later.1 = entry.1 ∧ Element entry.2 later.2

/-- A value is looked at where it is. -/
inductive Inside (Looked : α → α → Prop) (dictionary : Dictionary α) : Dictionary α → Prop where
  | value {index : Nat} {key : Text} {value later : α}
      (there : dictionary.entries[index]? = some (key, value)) (looked : Looked value later) :
      Inside Looked dictionary
        { dictionary with entries := dictionary.entries.set index (key, later) }

theorem sameKey_refl (elements : format.Follows Element) (entry : Text × α) :
    SameKey Element entry entry :=
  ⟨rfl, elements.refl entry.2⟩

theorem sameKey_trans (elements : format.Follows Element) (first second third : Text × α)
    (before : SameKey Element first second) (after : SameKey Element second third) :
    SameKey Element first third :=
  ⟨after.1.trans before.1, elements.trans _ _ _ before.2 after.2⟩

theorem sameKey_parts {entries later : List (Text × α)}
    (same : List.Forall₂ (SameKey Element) entries later) :
    later.map (·.1) = entries.map (·.1) ∧
      List.Forall₂ Element (entries.map (·.2)) (later.map (·.2)) := by
  induction same with
  | nil => exact ⟨rfl, .nil⟩
  | cons head _ ih =>
    refine ⟨?_, .cons head.2 ih.2⟩
    rw [List.map_cons, List.map_cons, head.1, ih.1]

theorem entries_unchanged (elements : format.Follows Element) (entries : List (Text × α)) :
    List.Forall₂ (SameKey Element) entries entries :=
  List.forall₂_same.mpr fun entry _ => sameKey_refl elements entry

theorem entries_zip {entries : List (Text × α)} {values : List α}
    (later : List.Forall₂ Element (entries.map (·.2)) values) :
    List.Forall₂ (SameKey Element) entries ((entries.map (·.1)).zip values) := by
  induction entries generalizing values with
  | nil => exact .nil
  | cons entry rest ih =>
    cases later with
    | cons head others => exact .cons ⟨rfl, head⟩ (ih others)

theorem entries_overwrite (elements : format.Follows Element) {key : Bytes} {value later : α}
    {entries : List (Text × α)} (there : lookup? key entries = some value)
    (looked : Element value later) :
    List.Forall₂ (SameKey Element) entries (overwrite key later entries) := by
  induction entries with
  | nil => cases there
  | cons entry rest ih =>
    obtain ⟨other, old⟩ := entry
    rw [lookup?] at there
    rw [overwrite]
    split
    · rename_i same
      rw [if_pos same] at there
      cases there
      exact .cons ⟨rfl, looked⟩ (entries_unchanged elements rest)
    · rename_i different
      rw [if_neg different] at there
      exact .cons (sameKey_refl elements _) (ih there)

/-- The entries on the right may be looked at in any order, and an entry more than once. -/
theorem sameEntries_follows (elements : format.Follows Element) (entries others : List (Text × α)) :
    List.Forall₂ (SameKey Element) entries (sameEntries format entries others).2.1 ∧
      List.Forall₂ (SameKey Element) others (sameEntries format entries others).2.2 := by
  induction entries generalizing others with
  | nil => exact ⟨.nil, entries_unchanged elements others⟩
  | cons entry rest ih =>
    obtain ⟨key, value⟩ := entry
    have still := entries_unchanged elements rest
    rw [sameEntries]
    split
    · exact ⟨entries_unchanged elements _, entries_unchanged elements others⟩
    · rename_i other there
      have first := elements.left other value
      have second := elements.right value other
      split
      · rename_i compared
        rw [compared] at first second
        obtain ⟨ihEntries, ihOthers⟩ := ih (overwrite key.bytes _ others)
        exact ⟨.cons ⟨rfl, second⟩ ihEntries, forall₂_trans (sameKey_trans elements)
          (entries_overwrite elements there first) ihOthers⟩
      · rename_i compared
        rw [compared] at first second
        exact ⟨.cons ⟨rfl, second⟩ still, entries_overwrite elements there first⟩

theorem follows (elements : format.Follows Element)
    (trans : ∀ first second third, Rel first second → Rel second third → Rel first third)
    (size : ∀ dictionary, Rel dictionary (dictionary.size format).2)
    (entries : ∀ entries later memo, List.Forall₂ (SameKey Element) entries later →
      Rel ⟨entries, memo⟩ ⟨later, memo⟩) :
    (Dictionary.format format).Follows Rel where
  refl dictionary := entries _ _ _ (entries_unchanged elements dictionary.entries)
  trans := trans
  size := size
  encode dictionary := by
    change Rel dictionary (dictionary.encode format).2
    rw [encode_snd]
    exact trans _ _ _ (size dictionary) (entries _ _ _ (entries_zip (elements.writeValues _)))
  left dictionary other := by
    change Rel dictionary (Dictionary.same format dictionary other).2.1
    rw [Dictionary.same]
    split
    · exact entries _ _ _ (sameEntries_follows elements dictionary.entries other.entries).1
    · exact entries _ _ _ (entries_unchanged elements dictionary.entries)
  right dictionary other := by
    change Rel dictionary (Dictionary.same format other dictionary).2.2
    rw [Dictionary.same]
    split
    · exact entries _ _ _ (sameEntries_follows elements other.entries dictionary.entries).2
    · exact entries _ _ _ (entries_unchanged elements dictionary.entries)

theorem rel_of_inside (elements : format.Follows Element)
    (entries : ∀ entries later memo, List.Forall₂ (SameKey Element) entries later →
      Rel ⟨entries, memo⟩ ⟨later, memo⟩)
    (looks : ∀ value later, Looked value later → Element value later)
    {dictionary later : Dictionary α} (inside : Inside Looked dictionary later) :
    Rel dictionary later := by
  cases inside with
  | value there looked =>
    exact entries _ _ _ (forall₂_set (sameKey_refl elements) there ⟨rfl, looks _ _ looked⟩)

end Dictionary

/-! ## Structures without memory in their fields -/

namespace Structured

variable {φ : Type} {Rel : Structured φ → Structured φ → Prop}

variable {layout : Layout} {empty : φ} {size : FieldSet → φ → Nat} {encode : FieldSet → φ → Bytes}
  {load : FieldSet → Loader φ Unit} {same : φ → φ → Bool}

theorem ofPlain_blocks_snd (sets : List FieldSet) (fields : φ) :
    ((SegmentFormat.ofPlain layout empty size encode load same).blocks sets fields).2 = fields :=
  SegmentFormat.blocks_preserves (P := fun later => later = fields) (fun _ _ _ still => still) rfl

theorem ofPlain_follows (refl : ∀ object, Rel object object)
    (trans : ∀ first second third, Rel first second → Rel second third → Rel first third)
    (sized : ∀ object : Structured φ, Rel object
      (object.size (SegmentFormat.ofPlain layout empty size encode load same)).2) :
    (Structured.format (SegmentFormat.ofPlain layout empty size encode load same)).Follows Rel where
  refl := refl
  trans := trans
  size := sized
  encode object := by
    let format := SegmentFormat.ofPlain layout empty size encode load same
    let later := (object.size format).2
    change Rel object ⟨later.presence, later.memo, (format.blocks later.presence.written later.fields).2⟩
    rw [ofPlain_blocks_snd]
    exact sized object
  left object other := by
    change Rel object (Structured.same _ object other).2.1
    rw [Structured.same]
    split
    · exact refl object
    · exact refl object
  right object other := by
    change Rel object (Structured.same _ other object).2.2
    rw [Structured.same]
    split
    · exact refl object
    · exact refl object

end Structured

/-! ## Optional payloads -/

namespace Deferred

variable {σ : Type} {format : ObjectFormat σ} {Object : σ → σ → Prop}
  {Rel : Deferred σ → Deferred σ → Prop}

theorem object?_of_get {deferred : Deferred σ} {object : σ}
    (got : (deferred.get format).1 = .ok object) :
    (deferred.get format).2.object? = some object := by
  cases deferred with
  | raw bytes =>
    rw [get] at got ⊢
    split at got
    · cases got
      simp_all [object?]
    · cases got
  | decoded bytes held =>
    cases got
    rfl
  | owned held =>
    cases got
    rfl

/-- What is shared by all relations between the states of a deferred object: it may be decoded, and
the object in it may be looked at. -/
structure Allows (format : ObjectFormat σ) (Object : σ → σ → Prop)
    (Rel : Deferred σ → Deferred σ → Prop) : Prop where
  refl : ∀ deferred, Rel deferred deferred
  trans : ∀ first second third, Rel first second → Rel second third → Rel first third
  get : ∀ deferred, Rel deferred (deferred.get format).2
  refresh : ∀ deferred object later, deferred.object? = some object → Object object later →
    Rel deferred (deferred.refresh later)

theorem Allows.visit {α : Type} (allows : Allows format Object Rel) {look : σ → α × σ}
    (looked : ∀ object, Object object (look object).2) (deferred : Deferred σ) :
    Rel deferred (deferred.visit format look).2 := by
  have got := allows.get deferred
  rw [Deferred.visit]
  split
  · rename_i object later ran
    have held : later.object? = some object := by
      have found := object?_of_get (congrArg Prod.fst ran)
      rwa [ran] at found
    rw [ran] at got
    exact allows.trans _ _ _ got (allows.refresh _ _ _ held (looked object))
  · rename_i error later ran
    rw [ran] at got
    exact got

theorem Allows.same (allows : Allows format Object Rel) (objects : format.Follows Object)
    (left right : Deferred σ) :
    Rel left (Deferred.same format left right).2.1 ∧
      Rel right (Deferred.same format left right).2.2 := by
  have first := allows.get left
  have second := allows.get right
  unfold Deferred.same
  split
  · exact ⟨allows.refl _, allows.refl _⟩
  · split
    · rename_i leftObject leftLater rightObject rightLater leftRan rightRan
      have leftHeld : leftLater.object? = some leftObject := by
        have found := object?_of_get (congrArg Prod.fst leftRan)
        rwa [leftRan] at found
      have rightHeld : rightLater.object? = some rightObject := by
        have found := object?_of_get (congrArg Prod.fst rightRan)
        rwa [rightRan] at found
      rw [leftRan] at first
      rw [rightRan] at second
      exact ⟨allows.trans _ _ _ first (allows.refresh _ _ _ leftHeld (objects.left _ _)),
        allows.trans _ _ _ second (allows.refresh _ _ _ rightHeld (objects.right _ _))⟩
    · rename_i leftRan rightRan
      rw [leftRan] at first
      rw [rightRan] at second
      exact ⟨first, second⟩

theorem Allows.follows (allows : Allows format Object Rel) (objects : format.Follows Object) :
    (element format).Follows Rel where
  refl := allows.refl
  trans := allows.trans
  size deferred := by
    cases deferred with
    | raw bytes => exact allows.refl _
    | decoded bytes object => exact allows.refresh _ object _ rfl (objects.size object)
    | owned object => exact allows.refresh _ object _ rfl (objects.size object)
  write deferred := by
    cases deferred with
    | raw bytes => exact allows.refl _
    | decoded bytes object => exact allows.refresh _ object _ rfl (objects.encode object)
    | owned object => exact allows.refresh _ object _ rfl (objects.encode object)
  left deferred other := (allows.same objects deferred other).1
  right deferred other := (allows.same objects other deferred).2

end Deferred

namespace Optional

variable {σ : Type} {inner : ObjectFormat σ} {Looked Object : σ → σ → Prop}
  {Item : Deferred σ → Deferred σ → Prop} {Rel : Optional σ → Optional σ → Prop}

/-- The payload is looked at where it is. -/
inductive Inside (inner : ObjectFormat σ) (Looked : σ → σ → Prop) (wrapper : Optional σ) :
    Optional σ → Prop where
  | item {α : Type} {look : σ → α × σ} (looked : ∀ object, Looked object (look object).2) :
      Inside inner Looked wrapper (visitItem inner look wrapper).2

theorem follows (items : (Deferred.element inner).Follows Item)
    (refl : ∀ wrapper, Rel wrapper wrapper)
    (trans : ∀ first second third, Rel first second → Rel second third → Rel first third)
    (size : ∀ wrapper, Rel wrapper (wrapper.size (segments inner)).2)
    (item : ∀ presence memo item later, Item item later →
      Rel ⟨presence, memo, ⟨some item⟩⟩ ⟨presence, memo, ⟨some later⟩⟩) :
    (Optional.format inner).Follows Rel where
  refl := refl
  trans := trans
  size := size
  encode wrapper := by
    let sized := (wrapper.size (segments inner)).2
    have written : Rel sized { sized with
        fields := ((segments inner).blocks sized.presence.written sized.fields).2 } := by
      apply SegmentFormat.blocks_preserves
        (P := fun later => Rel sized { sized with fields := later })
      · intro set _ fields still
        obtain ⟨found⟩ := fields
        change Rel sized { sized with fields := (encodeFields inner set ⟨found⟩).2 }
        by_cases has : set.has itemField
        · cases found with
          | none => exact still
          | some found =>
            rw [encodeFields_of_has has]
            exact trans _ _ _ still (item _ _ _ _ (items.write found))
        · rw [encodeFields_of_missing _ has]
          exact still
      · exact refl sized
    exact trans _ _ _ (size wrapper) written
  left wrapper other := by
    obtain ⟨presence, memo, ⟨left⟩⟩ := wrapper
    obtain ⟨otherPresence, otherMemo, ⟨right⟩⟩ := other
    change Rel _ (Structured.same (segments inner) _ _).2.1
    rw [Structured.same]
    split
    · cases left with
      | none => cases right <;> exact refl _
      | some left =>
        cases right with
        | none => exact refl _
        | some right => exact item _ _ _ _ (items.left left right)
    · exact refl _
  right wrapper other := by
    obtain ⟨presence, memo, ⟨right⟩⟩ := wrapper
    obtain ⟨otherPresence, otherMemo, ⟨left⟩⟩ := other
    change Rel _ (Structured.same (segments inner) _ _).2.2
    rw [Structured.same]
    split
    · cases left with
      | none => cases right <;> exact refl _
      | some left =>
        cases right with
        | none => exact refl _
        | some right => exact item _ _ _ _ (items.right right left)
    · exact refl _

theorem rel_of_inside (allows : Deferred.Allows inner Object Item)
    (refl : ∀ wrapper, Rel wrapper wrapper)
    (item : ∀ presence memo item later, Item item later →
      Rel ⟨presence, memo, ⟨some item⟩⟩ ⟨presence, memo, ⟨some later⟩⟩)
    (looks : ∀ object later, Looked object later → Object object later)
    {wrapper later : Optional σ} (inside : Inside inner Looked wrapper later) :
    Rel wrapper later := by
  obtain ⟨presence, memo, ⟨found⟩⟩ := wrapper
  cases inside with
  | item looked =>
    cases found with
    | none => exact refl _
    | some found =>
      have visited := allows.visit (fun object => looks _ _ (looked object)) found
      rw [visitItem]
      dsimp only
      split
      · split
        · rename_i ran
          rw [ran] at visited
          exact item _ _ _ _ visited
        · rename_i ran
          rw [ran] at visited
          exact item _ _ _ _ visited
      · exact refl _

end Optional

/-! ## Schemas -/

/-- The states that a tree comes to by calls that only look at it, or at a subtree. -/
inductive Tree.Peek : Tree → Tree → Prop where
  | start (tree : Tree) : Peek tree tree
  | size {first tree : Tree} : Peek first tree → Peek first (format.size tree).2
  | encode {first tree : Tree} : Peek first tree → Peek first (format.encode tree).2
  | left {first tree : Tree} (other : Tree) : Peek first tree →
      Peek first (format.same tree other).2.1
  | right {first tree : Tree} (other : Tree) : Peek first tree →
      Peek first (format.same other tree).2.2
  | subtree {first : Tree} {children : Sequence Tree} {index : Nat} {child later : Tree} :
      Peek first (node children) → children.items[index]? = some child → Peek child later →
        Peek first (node { children with items := children.items.set index later })

mutual

/-- The states that an object comes to by calls that only look at it, or at what is inside of it:
its elements, its payload or its subtrees, to any depth. -/
def Schema.Peek : (schema : Schema) → schema.isStandard = true →
    schema.Carrier → schema.Carrier → Prop
  | .sequence element, standard =>
    (Sequence.format element.format).Peek (Sequence.Inside (element.Peek standard))
  | .dictionary element, standard =>
    (Dictionary.format element.format).Peek (Dictionary.Inside (element.Peek standard))
  | .frameworkError, _ => FrameworkError.format.Peek fun _ _ => False
  | .errorEnvelope, _ => ErrorEnvelope.format.Peek fun _ _ => False
  | .signedChunk, _ => SignedChunk.format.Peek fun _ _ => False
  | .optional item, standard =>
    (Optional.format item.format).Peek (Optional.Inside item.format (item.Peek standard))
  | .record _, standard => absurd standard Bool.false_ne_true
  | .tree, _ => Tree.Peek

/-- Elements that are not objects stay as they are. -/
def ElementKind.Peek : (kind : ElementKind) → kind.isStandard = true →
    kind.Carrier → kind.Carrier → Prop
  | .bool, _ => Eq
  | .integer _, _ => Eq
  | .float, _ => Eq
  | .double, _ => Eq
  | .text, _ => Eq
  | .object schema, standard => schema.Peek standard

end

end FieldWire
