import FieldWire.Proofs.Aging

/-!
# Messages, payloads and trees that were read

Plain messages have nothing to decode, so that looking at them changes at most what they remember.
Payloads are where an object really changes: bytes give way to the object they decode to.  Trees
remember their sizes on every level from the time they are read, so that looking changes nothing.
-/

set_option autoImplicit false

namespace FieldWire

/-! ## Structures without memory in their fields -/

namespace Structured

variable {φ ν : Type} {layout : Layout} {empty : φ} {size : FieldSet → φ → Nat}
  {encode : FieldSet → φ → Bytes} {load : FieldSet → Loader φ Unit} {same : φ → φ → Bool}
  {value : Nat → UInt64 → φ → ν} {Valid : FieldSet → φ → Prop}

theorem plain_size_aging (sized : ∀ set fields, size set fields = (encode set fields).length)
    (object : Structured φ) :
    let format := SegmentFormat.ofPlain layout empty size encode load same
    let view := Structured.view layout (SegmentView.plain value encode Valid)
    Aging (Structured.size format) view ((Structured.format format).Weighed view) object
      (object.size format).2 := by
  intro format view
  obtain ⟨presence, memo, fields⟩ := object
  cases memo with
  | some declared => exact Aging.refl _
  | none =>
    intro weighed
    have settled : format.Settled (SegmentView.plain value encode Valid) fields :=
      SegmentFormat.ofPlain_settled sized fields
    let body := (SegmentView.plain value encode Valid).bodyOf presence fields
    have blocks : format.blocksSize presence.written fields = (body.length, fields) :=
      settled.blocksSize_eq presence.written
    have later : Structured.size format ⟨presence, none, fields⟩ =
        (body.length, ⟨presence, some body.length, fields⟩) := by
      rw [Structured.size, blocks]
    have small := weighed.small
    change (Structured.size format _).1 < 2 ^ 62 at small
    rw [later] at small ⊢
    exact ⟨weighed_of_some settled weighed.valid (Nat.le_refl _) small, rfl, Nat.le_refl _⟩

theorem plain_ages (sized : ∀ set fields, size set fields = (encode set fields).length)
    (measured : (Structured.format
      (SegmentFormat.ofPlain layout empty size encode load same)).Measured
        (Structured.view layout (SegmentView.plain value encode Valid))) :
    let format := SegmentFormat.ofPlain layout empty size encode load same
    let view := Structured.view layout (SegmentView.plain value encode Valid)
    (Structured.format format).Ages view ((Structured.format format).Weighed view) where
  read cursor object after ran := (measured cursor object after ran).1
  weighed _ weighed := weighed
  follows := ofPlain_follows Aging.refl Aging.trans (plain_size_aging sized)

end Structured

/-! ## Deferred objects -/

namespace Deferred

variable {σ : Type} {format : ObjectFormat σ} {inner : View σ} {Object : σ → Prop}

/-- Bytes as they came, or an object that was read. -/
def Kept (Object : σ → Prop) : Deferred σ → Prop
  | .raw bytes => LengthTag.IsEnvelope bytes
  | .decoded _ object => Object object
  | .owned object => Object object

theorem weighed_of_kept (objects : ∀ object, Object object → format.Weighed inner object)
    {deferred : Deferred σ} (kept : Kept Object deferred) :
    (element format).Weighed (view format inner) deferred := by
  have inside : ∀ object, Object object →
      (ElementFormat.object format).Weighed inner.spanned object :=
    fun object kept => ElementFormat.object_weighed (objects object kept)
  cases deferred with
  | raw bytes => exact ⟨kept, rfl, (Bounds.refl _).imp id⟩
  | decoded bytes object => exact ⟨(inside _ kept).valid, (inside _ kept).settled, (inside _ kept).bounds⟩
  | owned object => exact ⟨(inside _ kept).valid, (inside _ kept).settled, (inside _ kept).bounds⟩

/-- What bytes decode to takes no more bytes than they are. -/
theorem get_aging (measured : format.Measured inner) (ages : format.Ages inner Object)
    (deferred : Deferred σ) :
    Aging (encodedSize format) (view format inner) (Kept Object) deferred
      (deferred.get format).2 := by
  cases deferred with
  | raw bytes =>
    cases decoded : format.deserialize bytes with
    | error error =>
      rw [get, decoded]
      exact Aging.refl _
    | ok object =>
      obtain ⟨after, ran, _⟩ := ObjectFormat.read_of_deserialize decoded
      obtain ⟨_, _, length, inside, _, fits⟩ := measured _ object after ran
      have still : Kept Object (.decoded bytes object) := ages.read _ object after ran
      have contents : (view format inner).contents (.decoded bytes object) =
          (view format inner).contents (.raw bytes) := by
        change Except.ok (inner.contents object) =
          ((get format (.raw bytes)).1).map inner.contents
        rw [get, decoded]
        rfl
      rw [get, decoded]
      exact fun _ => ⟨still, contents, Nat.le_trans fits inside⟩
  | decoded bytes object => exact Aging.refl _
  | owned object => exact Aging.refl _

theorem allows_aging (measured : format.Measured inner) (ages : format.Ages inner Object) :
    Allows format (Aging format.size inner Object)
      (Aging (encodedSize format) (view format inner) (Kept Object)) where
  refl := Aging.refl
  trans := Aging.trans
  get := get_aging measured ages
  refresh deferred object later held aging := by
    have spanned := ElementFormat.object_aging ages.weighed aging
    cases deferred with
    | raw bytes => cases held
    | decoded bytes object =>
      cases held
      intro kept
      obtain ⟨still, contents, shorter⟩ := spanned kept
      exact ⟨still, congrArg Except.ok contents, shorter⟩
    | owned object =>
      cases held
      intro kept
      obtain ⟨still, contents, shorter⟩ := spanned kept
      exact ⟨still, congrArg Except.ok contents, shorter⟩

end Deferred

/-! ## Optional payloads -/

namespace Optional

variable {σ : Type} {format : ObjectFormat σ} {inner : View σ} {Object : σ → Prop}

/-- The payload of a wrapper that was read fits into the size of the wrapper, remembered or not.  A
payload that is not present may be held all the same, and nothing is known of it. -/
structure Kept (format : ObjectFormat σ) (Object : σ → Prop) (wrapper : Optional σ) : Prop where
  presence : wrapper.presence.Fits (segments format).layout
  item : ∀ set ∈ wrapper.presence.written,
    ∃ item, wrapper.fields.item = some item ∧ Deferred.Kept Object item
  fits : ((segments format).blocksSize wrapper.presence.written wrapper.fields).1 ≤
    (wrapper.size (segments format)).1
  small : (wrapper.size (segments format)).1 < 2 ^ 62

/-- At most one block is written, and it has the payload. -/
theorem written_cases {presence : Presence} (fits : presence.Fits (segments format).layout) :
    presence.written = [] ∨ ∃ set, presence.written = [set] ∧ set.has itemField = true := by
  cases fits with
  | @cons _ set _ _ admits rest =>
    cases rest
    by_cases empty : set.bits = 0
    · left
      rw [Presence.written, List.filter_cons_of_neg (by simp [FieldSet.isEmpty, empty])]
      rfl
    · right
      refine ⟨set, ?_, admits.has_known empty⟩
      rw [Presence.written, List.filter_cons_of_pos (by simp [FieldSet.isEmpty, empty])]
      rfl

theorem blocksSize_of_has {set : FieldSet} {item : Deferred σ} (has : set.has itemField) :
    (segments format).blocksSize [set] ⟨some item⟩ =
      (set.encodedSize + (item.encodedSize format).1, ⟨some (item.encodedSize format).2⟩) := by
  have size : (segments format).size set ⟨some item⟩ = _ := fieldsSize_of_has has
  rw [SegmentFormat.blocksSize, size]
  rfl

theorem blocks_of_has {set : FieldSet} {item : Deferred σ} (has : set.has itemField) :
    (segments format).blocks [set] ⟨some item⟩ =
      (set.encode ++ (item.encode format).1, ⟨some (item.encode format).2⟩) := by
  have encoded : (segments format).encode set ⟨some item⟩ = _ := encodeFields_of_has has
  rw [SegmentFormat.blocks, encoded]
  dsimp only
  rw [SegmentFormat.blocks, List.append_nil]

/-- Which fields are present does not change, and what is inside is seen as before. -/
theorem contents_of_item (presence : Presence) (memo : Option Nat) {item later : Deferred σ}
    (same : presence.written ≠ [] →
      (Deferred.view format inner).contents later = (Deferred.view format inner).contents item) :
    (Structured.view (segments format).layout (fieldView format inner)).contents
        ⟨presence, memo, ⟨some later⟩⟩ =
      (Structured.view (segments format).layout (fieldView format inner)).contents
        ⟨presence, memo, ⟨some item⟩⟩ := by
  apply SegmentView.contentsOf_congr
  intro place set there field member
  have written : set ∈ presence.written := by
    refine (Presence.mem_written_iff _ _).mpr ⟨List.mem_of_getElem? there, ?_⟩
    intro empty
    rw [FieldSet.presentFields, empty] at member
    cases member
  change (if place = slot ∧ field = itemField then some _ else none) =
    if place = slot ∧ field = itemField then some _ else none
  rw [same (List.ne_nil_of_mem written)]

/-- A remembered size stays, and without one the size is that of the blocks. -/
theorem size_cases {presence : Presence} {fields later : Fields σ} (memo : Option Nat)
    (shorter : ((segments format).blocksSize presence.written later).1 ≤
      ((segments format).blocksSize presence.written fields).1)
    (fits : ((segments format).blocksSize presence.written fields).1 ≤
      (Structured.size (segments format) ⟨presence, memo, fields⟩).1) :
    ((segments format).blocksSize presence.written later).1 ≤
        (Structured.size (segments format) ⟨presence, memo, later⟩).1 ∧
      (Structured.size (segments format) ⟨presence, memo, later⟩).1 ≤
        (Structured.size (segments format) ⟨presence, memo, fields⟩).1 := by
  cases memo with
  | some declared => exact ⟨Nat.le_trans shorter fits, Nat.le_refl _⟩
  | none => exact ⟨Nat.le_refl _, shorter⟩

theorem aging_item (presence : Presence) (memo : Option Nat) {item later : Deferred σ}
    (aging : Aging (Deferred.encodedSize format) (Deferred.view format inner)
      (Deferred.Kept Object) item later) :
    Aging (Structured.size (segments format))
      (Structured.view (segments format).layout (fieldView format inner)) (Kept format Object)
      ⟨presence, memo, ⟨some item⟩⟩ ⟨presence, memo, ⟨some later⟩⟩ := by
  intro kept
  have inside : ∀ set ∈ presence.written, Deferred.Kept Object item := by
    intro set member
    obtain ⟨_, there, itemKept⟩ := kept.item set member
    cases there
    exact itemKept
  have contents := contents_of_item presence memo fun some => by
    obtain ⟨set, member⟩ := List.exists_mem_of_ne_nil _ some
    exact (aging (inside set member)).2.1
  have shorter : ((segments format).blocksSize presence.written ⟨some later⟩).1 ≤
      ((segments format).blocksSize presence.written ⟨some item⟩).1 := by
    rcases written_cases kept.presence with none | ⟨set, written, has⟩
    · rw [none]
      exact Nat.le_refl _
    · rw [written, blocksSize_of_has has, blocksSize_of_has has]
      have member : set ∈ presence.written := by simp [written]
      exact Nat.add_le_add_left (aging (inside set member)).2.2 _
  obtain ⟨fits, smaller⟩ := size_cases memo shorter kept.fits
  exact ⟨⟨kept.presence, fun set member => ⟨later, rfl, (aging (inside set member)).1⟩, fits,
    Nat.lt_of_le_of_lt smaller kept.small⟩, contents, smaller⟩

/-- A size that is remembered from now on is that of the payload as it was. -/
theorem size_aging (items : (Deferred.element format).Follows
      (Aging (Deferred.encodedSize format) (Deferred.view format inner) (Deferred.Kept Object)))
    (wrapper : Optional σ) :
    Aging (Structured.size (segments format))
      (Structured.view (segments format).layout (fieldView format inner)) (Kept format Object)
      wrapper (wrapper.size (segments format)).2 := by
  obtain ⟨presence, memo, fields⟩ := wrapper
  cases memo with
  | some declared => exact Aging.refl _
  | none =>
    intro kept
    -- The payload ages first, and then the size is remembered.
    have aged : Aging (Structured.size (segments format))
        (Structured.view (segments format).layout (fieldView format inner)) (Kept format Object)
        ⟨presence, none, fields⟩
        ⟨presence, none, ((segments format).blocksSize presence.written fields).2⟩ := by
      rcases written_cases kept.presence with none | ⟨set, written, has⟩
      · rw [none]
        exact Aging.refl _
      · obtain ⟨item, there, _⟩ := kept.item set (by simp [written])
        obtain rfl : fields = ⟨some item⟩ := congrArg Fields.mk there
        rw [written, blocksSize_of_has has]
        exact aging_item presence none (items.size item)
    obtain ⟨still, contents, shorter⟩ := aged kept
    exact ⟨⟨still.presence, still.item, shorter, kept.small⟩, contents, Nat.le_refl _⟩

/-- What is known of the block of a payload that was read. -/
structure Block (format : ObjectFormat σ) (inner : View σ) (presence : Presence)
    (fields : Fields σ) : Prop where
  bounds : Bounds ((segments format).blocksSize presence.written fields).1
    ((segments format).blocks presence.written fields).1.length
    ((fieldView format inner).bodyOf presence fields).length
    (∀ set ∈ presence.written, (fieldView format inner).Exact set fields)
  settled : ((segments format).blocks presence.written
      ((segments format).blocksSize presence.written fields).2).1 =
    ((segments format).blocks presence.written fields).1
  written : (∀ set ∈ presence.written, (fieldView format inner).Exact set fields) →
    ((segments format).blocks presence.written fields).1 =
      (fieldView format inner).bodyOf presence fields

theorem block_of_kept (objects : format.Faithful inner)
    (weighed : ∀ object, Object object → format.Weighed inner object) {wrapper : Optional σ}
    (kept : Kept format Object wrapper) : Block format inner wrapper.presence wrapper.fields := by
  obtain ⟨presence, memo, fields⟩ := wrapper
  rcases written_cases kept.presence with none | ⟨set, written, has⟩
  · have body : (fieldView format inner).bodyOf presence fields = [] := by
      rw [SegmentView.bodyOf, none]
      rfl
    refine ⟨?_, ?_, ?_⟩
    · rw [body, none]
      exact (Bounds.refl 0).imp fun _ _ member => absurd member List.not_mem_nil
    · rw [none]
      rfl
    · rw [body, none]
      exact fun _ => rfl
  · obtain ⟨item, there, itemKept⟩ := kept.item set (by simp [written])
    obtain rfl : fields = ⟨some item⟩ := congrArg Fields.mk there
    have itemWeighed := Deferred.weighed_of_kept weighed itemKept
    have bytes : (fieldView format inner).bodyOf presence ⟨some item⟩ =
        set.encode ++ (Deferred.view format inner).bytes item := by
      have block : (fieldView format inner).bytes set ⟨some item⟩ = _ := bytesOf_of_has has
      rw [SegmentView.bodyOf, written, List.flatMap_cons, List.flatMap_nil, List.append_nil, block]
    have sum := (Bounds.refl set.encodedSize).add itemWeighed.bounds
    have exact_iff : (∀ other ∈ [set], (fieldView format inner).Exact other ⟨some item⟩) ↔
        (Deferred.view format inner).Exact item := by
      constructor
      · exact fun exact => exact set List.mem_cons_self has item rfl
      · intro exact _ _ _ _ found
        cases found
        exact exact
    refine ⟨?_, ?_, ?_⟩
    · rw [bytes, written, blocksSize_of_has has, blocks_of_has has, List.length_append,
        List.length_append, FieldSet.length_encode]
      exact sum.imp fun both => exact_iff.mpr both.2
    · rw [written, blocksSize_of_has has, blocks_of_has has, blocks_of_has has]
      exact congrArg (set.encode ++ ·) itemWeighed.settled
    · rw [bytes, written, blocks_of_has has, exact_iff]
      intro exact
      exact congrArg (set.encode ++ ·)
        ((Deferred.element_faithful objects).write_eq item itemWeighed.valid exact)

theorem weighed_of_kept (objects : format.Faithful inner)
    (weighed : ∀ object, Object object → format.Weighed inner object) {wrapper : Optional σ}
    (kept : Kept format Object wrapper) :
    (Optional.format format).Weighed
      (Structured.view (segments format).layout (fieldView format inner)) wrapper := by
  have block := block_of_kept objects weighed kept
  obtain ⟨presence, memo, fields⟩ := wrapper
  have valid : ∀ set ∈ presence.written, (fieldView format inner).Valid set fields := by
    intro set member _
    obtain ⟨item, there, itemKept⟩ := kept.item set member
    exact ⟨item, there, (Deferred.weighed_of_kept weighed itemKept).valid⟩
  cases memo with
  | some declared =>
    have bounds := block.bounds.remember kept.fits fun exact =>
      congrArg List.length (block.written exact)
    exact ⟨⟨kept.presence, valid⟩, rfl, kept.small, _, rfl,
      bounds.imp fun right => ⟨(remembers_some_iff _ _).mpr right.1, right.2⟩⟩
  | none =>
    have encoded : ((Optional.format format).encode ⟨presence, none, fields⟩).1 =
        Write.word (LengthTag.span ((segments format).blocksSize presence.written fields).1) ++
          ((segments format).blocks presence.written fields).1 :=
      congrArg (Write.word _ ++ ·) block.settled
    exact ⟨⟨kept.presence, valid⟩, rfl, kept.small, _, encoded,
      block.bounds.imp fun exact => ⟨remembers_none _, exact⟩⟩

/-- Whatever is held for the payload are bytes as they came. -/
def Fields.Raw (fields : Fields σ) : Prop :=
  ∀ item, fields.item = some item → ∃ bytes, item = .raw bytes ∧ LengthTag.IsEnvelope bytes

theorem raw_of_load {set : FieldSet} {fields filled : Fields σ} {cursor after : Cursor}
    (raw : fields.Raw) (ran : loadFields set (fields, cursor) = .ok () (filled, after)) :
    filled.Raw := by
  rw [loadFields] at ran
  split at ran
  · obtain ⟨item, read, rfl⟩ := Loader.store_eq_ok ran
    obtain ⟨bytes, rfl, envelope, _⟩ := Deferred.read_eq_ok read
    intro item found
    cases found
    exact ⟨bytes, rfl, envelope⟩
  · cases ran
    exact raw

theorem Fields.Raw.settled {fields : Fields σ} (raw : fields.Raw) :
    (segments format).Settled (fieldView format inner) fields := by
  obtain ⟨item⟩ := fields
  cases item with
  | none => exact settled_none
  | some item =>
    obtain ⟨bytes, rfl, _⟩ := raw item rfl
    exact settled_raw bytes

theorem raw_of_read {cursor after : Cursor} {wrapper : Optional σ}
    (ran : (Optional.format format).read cursor = .ok wrapper after) : wrapper.fields.Raw := by
  have loaded : Structured.load (segments format) (Structured.empty (segments format), cursor) =
      .ok () (wrapper, after) := ObjectFormat.load_of_read ran
  have start : (segments format).empty.Raw := fun item found => by cases found
  exact Structured.load_preserves (fun _ _ _ _ _ => raw_of_load) start loaded

theorem kept_of_read {cursor after : Cursor} {wrapper : Optional σ}
    (measured : (Optional.format format).Measured
      (Structured.view (segments format).layout (fieldView format inner)))
    (ran : (Optional.format format).read cursor = .ok wrapper after) :
    Kept format Object wrapper := by
  have raw := raw_of_read ran
  have weighed := (measured cursor wrapper after ran).1
  obtain ⟨written, encoded, bounds⟩ := weighed.bounds
  have settled : (segments format).Settled (fieldView format inner) wrapper.fields := raw.settled
  refine ⟨weighed.valid.1, ?_, ?_, weighed.small⟩
  · intro set member
    obtain ⟨present, nonempty⟩ := (Presence.mem_written_iff _ _).mp member
    obtain ⟨place, segment, _, found, admits⟩ := weighed.valid.1.exists_slot present
    obtain ⟨_, rfl⟩ := singleton_getElem? found
    obtain ⟨item, there, _⟩ := weighed.valid.2 set member (admits.has_known nonempty)
    obtain ⟨bytes, rfl, envelope⟩ := raw item there
    exact ⟨_, there, envelope⟩
  · rw [settled.blocksSize_eq]
    exact bounds.least_le

theorem ages (objects : format.Faithful inner) (measured : format.Measured inner)
    (inside : format.Ages inner Object) :
    (Optional.format format).Ages
      (Structured.view (segments format).layout (fieldView format inner)) (Kept format Object) where
  read _ _ _ ran :=
    have whole : (Optional.format format).Measured
        (Structured.view (segments format).layout (fieldView format inner)) :=
      Structured.measured segments_measured
    kept_of_read whole ran
  weighed _ kept := weighed_of_kept objects inside.weighed kept
  follows :=
    let items := (Deferred.allows_aging measured inside).follows inside.follows
    Optional.follows items Aging.refl Aging.trans (size_aging items)
      fun presence memo _ _ => aging_item presence memo

end Optional

/-! ## Trees -/

namespace Tree

mutual

/-- On every level a size is remembered. -/
def Remembering : Tree → Prop
  | .node ⟨items, memo⟩ => memo.isSome ∧ RememberingList items

def RememberingList : List Tree → Prop
  | [] => True
  | tree :: trees => Remembering tree ∧ RememberingList trees

end

theorem rememberingList_iff (trees : List Tree) :
    RememberingList trees ↔ ∀ tree ∈ trees, Remembering tree := by
  induction trees with
  | nil => simp [RememberingList]
  | cons tree trees ih => simp [RememberingList, ih]

theorem remembering_node_iff (children : Sequence Tree) :
    Remembering (node children) ↔
      children.memo.isSome ∧ ∀ child ∈ children.items, Remembering child := by
  obtain ⟨items, memo⟩ := children
  rw [Remembering, rememberingList_iff]

/-- A tree that remembers all its sizes stays as it is. -/
def Still (tree later : Tree) : Prop := Remembering tree → later = tree

theorem Still.refl (tree : Tree) : Still tree tree := fun _ => rfl

theorem Still.trans (first second third : Tree) (before : Still first second)
    (after : Still second third) : Still first third := by
  intro remembering
  obtain rfl := before remembering
  exact after remembering

theorem eq_of_still {trees later : List Tree} (still : List.Forall₂ Still trees later)
    (remembering : ∀ tree ∈ trees, Remembering tree) : later = trees := by
  induction still with
  | nil => rfl
  | cons head _ ih =>
    obtain ⟨first, rest⟩ := List.forall_mem_cons.mp remembering
    rw [head first, ih rest]

theorem still_items {items later : List Tree} (memo : Option Nat)
    (still : List.Forall₂ Still items later) : Still (node ⟨items, memo⟩) (node ⟨later, memo⟩) := by
  intro remembering
  rw [eq_of_still still ((remembering_node_iff _).mp remembering).2]

theorem formatUpTo_still (levels : Nat) : (formatUpTo levels).Follows Still := by
  induction levels with
  | zero =>
    exact ⟨Still.refl, Still.trans, Still.refl, Still.refl, fun tree _ => Still.refl tree,
      fun tree _ => Still.refl tree⟩
  | succ levels ih =>
    have sized : ∀ children : Sequence Tree, Still (node children)
        (node (children.size (ElementFormat.object (formatUpTo levels))).2) := by
      rintro ⟨items, memo⟩ remembering
      cases memo with
      | some declared => rfl
      | none => cases ((remembering_node_iff _).mp remembering).1
    have children : (Sequence.format (ElementFormat.object (formatUpTo levels))).Follows
        fun children later => Still (node children) (node later) :=
      Sequence.follows ih.element (fun _ _ _ => Still.trans _ _ _) sized
        fun _ _ memo still => still_items memo still
    exact {
      refl := Still.refl
      trans := Still.trans
      size := fun ⟨sequence⟩ => children.size sequence
      encode := fun ⟨sequence⟩ => children.encode sequence
      left := fun ⟨sequence⟩ ⟨other⟩ => children.left sequence other
      right := fun ⟨sequence⟩ ⟨other⟩ => children.right sequence other }

theorem still : format.Follows Still where
  refl := Still.refl
  trans := Still.trans
  size tree := (formatUpTo_still tree.depth).size tree
  encode tree := (formatUpTo_still tree.depth).encode tree
  left tree other := (formatUpTo_still _).left tree other
  right tree other := (formatUpTo_still _).right tree other

theorem still_of_peek {tree later : Tree} (peek : Peek tree later) : Still tree later := by
  induction peek with
  | start tree => exact Still.refl tree
  | size _ ih => exact Still.trans _ _ _ ih (still.size _)
  | encode _ ih => exact Still.trans _ _ _ ih (still.encode _)
  | left other _ ih => exact Still.trans _ _ _ ih (still.left _ other)
  | right other _ ih => exact Still.trans _ _ _ ih (still.right _ other)
  | subtree _ there _ ih childIh =>
    exact Still.trans _ _ _ ih (still_items _ (forall₂_set Still.refl there childIh))

theorem formatUpTo_remembering {levels : Nat} {cursor after : Cursor} {tree : Tree}
    (ran : (formatUpTo levels).read cursor = .ok tree after) : Remembering tree := by
  induction levels generalizing cursor tree after with
  | zero => cases ran
  | succ levels ih =>
    obtain ⟨children, rfl, inner⟩ := children_of_read ran
    obtain ⟨_, declared, _, read, _, remembered⟩ :=
      Sequence.load_eq_ok (ObjectFormat.load_of_read inner)
    refine (remembering_node_iff children).mpr ⟨by rw [remembered]; rfl, ?_⟩
    exact ElementFormat.readValues_forall (fun _ _ _ => ih) read

/-- What is known of a tree that was read. -/
structure Kept (tree : Tree) : Prop where
  remembering : Remembering tree
  weighed : format.Weighed view tree

theorem aging_of_still {tree later : Tree} (still : Still tree later) :
    Aging format.size view Kept tree later := by
  intro kept
  obtain rfl := still kept.remembering
  exact ⟨kept, rfl, Nat.le_refl _⟩

theorem ages : format.Ages view Kept where
  read cursor tree after ran := by
    have levels : (formatUpTo (cursor.rest.length + 1)).read cursor = .ok tree after := ran
    exact ⟨formatUpTo_remembering levels, (measured cursor tree after ran).1⟩
  weighed _ kept := kept.weighed
  follows := still.imp Aging.refl Aging.trans fun _ _ => aging_of_still

end Tree

end FieldWire
