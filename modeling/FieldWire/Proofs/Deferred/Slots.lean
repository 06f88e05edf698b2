import FieldWire.Proofs.Deferred
import FieldWire.Proofs.Peek

/-!
# A deferred object in three slots

In memory a deferred object is three places, each of which may be empty: the bytes as they came, the
object that they were decoded to, and an object that was put in or taken out to be changed.  Of the
eight ways to fill them three ever come about, whatever is done in whatever order, and these are the
three states of a deferred object.  What a caller sees of them has two states only: bytes until the
first access that succeeds, and a value from then on.
-/

set_option autoImplicit false

namespace FieldWire

variable {σ : Type} {format : ObjectFormat σ} {Inside : σ → σ → Prop}

theorem ObjectFormat.Peek.trans {first second third : σ} (before : format.Peek Inside first second)
    (after : format.Peek Inside second third) : format.Peek Inside first third := by
  induction after with
  | start => exact before
  | size _ ih => exact .size ih
  | encode _ ih => exact .encode ih
  | left other _ ih => exact .left other ih
  | right other _ ih => exact .right other ih
  | inside _ looked ih => exact .inside ih looked

theorem ObjectFormat.peek_follows (format : ObjectFormat σ) (Inside : σ → σ → Prop) :
    format.Follows (format.Peek Inside) where
  refl _ := .start
  trans _ _ _ := .trans
  size _ := .size .start
  encode _ := .encode .start
  left _ other := .left other .start
  right _ other := .right other .start

namespace Deferred

/-! ## The slots -/

/-- The places in which a deferred object is kept. -/
structure Slots (σ : Type) where
  /-- The bytes as they came, unless the object may have been changed. -/
  raw : Option Bytes
  /-- What the bytes were decoded to. -/
  decoded : Option σ
  /-- An object that was put in or taken out to be changed. -/
  owned : Option σ

namespace Slots

def new (object : σ) : Slots σ := ⟨none, none, some object⟩

/-- Bytes that nobody has asked for. -/
def fromRaw (bytes : Bytes) : Slots σ := ⟨some bytes, none, none⟩

/-- Takes the bytes of an object from the wire. -/
def read : Reader (Slots σ) := do return fromRaw (← Reader.object)

/-- The object, if it is at hand. -/
def current? (slots : Slots σ) : Option σ := slots.owned.or slots.decoded

/-- What the bytes decode to; a new object if there are none. -/
def decodeRaw (format : ObjectFormat σ) (slots : Slots σ) : Except CodecError σ :=
  match slots.raw with
  | some bytes => format.deserialize bytes
  | none => .ok format.empty

/-- The object, decoded now if it is not at hand. -/
def get (format : ObjectFormat σ) (slots : Slots σ) : Except CodecError σ × Slots σ :=
  match slots.current? with
  | some object => (.ok object, slots)
  | none =>
    match slots.decodeRaw format with
    | .ok object => (.ok object, { slots with decoded := some object })
    | .error error => (.error error, slots)

/-- Another state of the object that is at hand, in its place. -/
def refresh (object : σ) (slots : Slots σ) : Slots σ :=
  match slots.owned with
  | some _ => { slots with owned := some object }
  | none => { slots with decoded := slots.decoded.map fun _ => object }

def visit (format : ObjectFormat σ) (look : σ → σ) (slots : Slots σ) :
    Except CodecError σ × Slots σ :=
  match slots.get format with
  | (.ok object, slots) => (.ok object, slots.refresh (look object))
  | (.error error, slots) => (.error error, slots)

/-- Takes the object out to be changed.  Both places for objects are emptied on the way; if there is
nothing in them and the bytes do not decode, that is where it ends. -/
def getMut (format : ObjectFormat σ) (slots : Slots σ) : Except CodecError σ × Slots σ :=
  match slots.owned with
  | some object => (.ok object, ⟨none, slots.decoded, some object⟩)
  | none =>
    match slots.decoded with
    | some object => (.ok object, ⟨none, none, some object⟩)
    | none =>
      match slots.decodeRaw format with
      | .ok object => (.ok object, ⟨none, none, some object⟩)
      | .error error => (.error error, ⟨slots.raw, none, none⟩)

def modify (format : ObjectFormat σ) (change : σ → σ) (slots : Slots σ) :
    Except CodecError σ × Slots σ :=
  match slots.getMut format with
  | (.ok object, slots) => (.ok object, { slots with owned := some (change object) })
  | (.error error, slots) => (.error error, slots)

def set (object : σ) (_ : Slots σ) : Slots σ := new object

def intoInner (format : ObjectFormat σ) (slots : Slots σ) : Except CodecError σ :=
  match slots.current? with
  | some object => .ok object
  | none => slots.decodeRaw format

/-- Works out or writes something from the object if it is at hand, from the bytes if there are any,
and else from a new object. -/
def emit {α : Type} (format : ObjectFormat σ) (ofObject : σ → α × σ) (ofBytes : Bytes → α)
    (slots : Slots σ) : α × Slots σ :=
  match slots.current?, slots.raw with
  | some object, _ => ((ofObject object).1, slots.refresh (ofObject object).2)
  | none, some bytes => (ofBytes bytes, slots)
  | none, none => ((ofObject format.empty).1, slots)

def encodedSize (format : ObjectFormat σ) : Slots σ → Nat × Slots σ :=
  emit format format.encodedSize List.length

def encode (format : ObjectFormat σ) : Slots σ → Bytes × Slots σ := emit format format.encode id

/-- Whether two are equal: by their bytes if neither is at hand, and else by the objects. -/
def same (format : ObjectFormat σ) (left right : Slots σ) : Bool × Slots σ × Slots σ :=
  match left.current?, right.current?, left.raw, right.raw with
  | none, none, some leftBytes, some rightBytes => (leftBytes == rightBytes, left, right)
  | _, _, _, _ =>
    match left.get format, right.get format with
    | (.ok leftObject, left), (.ok rightObject, right) =>
      let (answer, leftObject, rightObject) := format.same leftObject rightObject
      (answer, left.refresh leftObject, right.refresh rightObject)
    | (_, left), (_, right) => (false, left, right)

def of : Deferred σ → Slots σ
  | .raw bytes => ⟨some bytes, none, none⟩
  | .decoded bytes object => ⟨some bytes, some object, none⟩
  | .owned object => ⟨none, none, some object⟩

end Slots

/-! ## Two states -/

/-- What is seen of a deferred object. -/
inductive Reference (σ : Type) where
  /-- Bytes that were never accessed with success. -/
  | raw (bytes : Bytes)
  | value (object : σ)

namespace Reference

/-- The object, whether it is at hand or not. -/
def current (format : ObjectFormat σ) : Reference σ → Except CodecError σ
  | .raw bytes => format.deserialize bytes
  | .value object => .ok object

/-- An access with success makes a value of it, and one that fails changes nothing. -/
def access (format : ObjectFormat σ) (change : σ → σ) (reference : Reference σ) :
    Except CodecError σ × Reference σ :=
  match reference.current format with
  | .ok object => (.ok object, .value (change object))
  | .error error => (.error error, reference)

def emit {α : Type} (ofObject : σ → α × σ) (ofBytes : Bytes → α) : Reference σ → α × Reference σ
  | .raw bytes => (ofBytes bytes, .raw bytes)
  | .value object => ((ofObject object).1, .value (ofObject object).2)

def same (format : ObjectFormat σ) : Reference σ → Reference σ → Bool × Reference σ × Reference σ
  | .raw left, .raw right => (left == right, .raw left, .raw right)
  | left, right =>
    match left.current format, right.current format with
    | .ok leftObject, .ok rightObject =>
      let (answer, leftObject, rightObject) := format.same leftObject rightObject
      (answer, .value leftObject, .value rightObject)
    | _, _ => (false, (left.access format id).2, (right.access format id).2)

def of : Deferred σ → Reference σ
  | .raw bytes => .raw bytes
  | .decoded _ object => .value object
  | .owned object => .value object

end Reference

/-! ## Calls -/

/-- What can be done with a deferred object that is kept in one way or another. -/
structure Keeping (σ τ : Type) where
  visit : (σ → σ) → τ → Except CodecError σ × τ
  modify : (σ → σ) → τ → Except CodecError σ × τ
  set : σ → τ → τ
  /-- Compares it, on the left. -/
  equals : Deferred σ → τ → Bool × τ
  /-- Compares it, on the right. -/
  equalsTo : Deferred σ → τ → Bool × τ
  encodedSize : τ → Nat × τ
  encode : τ → Bytes × τ

def Slots.keeping (format : ObjectFormat σ) : Keeping σ (Slots σ) where
  visit := Slots.visit format
  modify := Slots.modify format
  set := Slots.set
  equals other slots := ((slots.same format (.of other)).1, (slots.same format (.of other)).2.1)
  equalsTo other slots := (((Slots.of other).same format slots).1,
    ((Slots.of other).same format slots).2.2)
  encodedSize := Slots.encodedSize format
  encode := Slots.encode format

def keeping (format : ObjectFormat σ) : Keeping σ (Deferred σ) where
  visit look := Deferred.visit format fun object => (object, look object)
  modify change := Deferred.modify format fun object => (object, change object)
  set object _ := .owned object
  equals other deferred := ((deferred.same format other).1, (deferred.same format other).2.1)
  equalsTo other deferred := ((other.same format deferred).1, (other.same format deferred).2.2)
  encodedSize := Deferred.encodedSize format
  encode := Deferred.encode format

def Reference.keeping (format : ObjectFormat σ) : Keeping σ (Reference σ) where
  visit := Reference.access format
  modify := Reference.access format
  set object _ := .value object
  equals other reference := ((reference.same format (.of other)).1,
    (reference.same format (.of other)).2.1)
  equalsTo other reference := (((Reference.of other).same format reference).1,
    ((Reference.of other).same format reference).2.2)
  encodedSize := Reference.emit format.encodedSize List.length
  encode := Reference.emit format.encode id

/-- A call.  What is done with an object that was only handed out to be looked at is a look. -/
inductive Operation (format : ObjectFormat σ) (Inside : σ → σ → Prop) where
  | get (look : σ → σ) (looks : ∀ object, format.Peek Inside object (look object))
  | getMut (change : σ → σ)
  | set (object : σ)
  | equals (other : Deferred σ)
  | equalsTo (other : Deferred σ)
  | encodedSize
  | encode
  /-- Goes on with a copy, which is the same value. -/
  | clone

inductive Answer (σ : Type) where
  | object (found : Except CodecError σ)
  | equal (answer : Bool)
  | size (size : Nat)
  | bytes (bytes : Bytes)
  | done

/-- What a call returns, and the state afterwards. -/
def Operation.apply {τ : Type} (keeping : Keeping σ τ) :
    Operation format Inside → τ → Answer σ × τ
  | .get look _, state => (keeping.visit look state).map .object id
  | .getMut change, state => (keeping.modify change state).map .object id
  | .set object, state => (.done, keeping.set object state)
  | .equals other, state => (keeping.equals other state).map .equal id
  | .equalsTo other, state => (keeping.equalsTo other state).map .equal id
  | .encodedSize, state => (keeping.encodedSize state).map .size id
  | .encode, state => (keeping.encode state).map .bytes id
  | .clone, state => (.done, state)

def Keeping.run {τ : Type} (keeping : Keeping σ τ) :
    List (Operation format Inside) → τ → List (Answer σ) × τ
  | [], state => ([], state)
  | operation :: operations, state =>
    let (answer, state) := operation.apply keeping state
    let (answers, state) := keeping.run operations state
    (answer :: answers, state)

theorem Keeping.run_append {τ : Type} (keeping : Keeping σ τ)
    (before after : List (Operation format Inside)) (state : τ) :
    (keeping.run (before ++ after) state).2 = (keeping.run after (keeping.run before state).2).2 := by
  induction before generalizing state with
  | nil => rfl
  | cons operation before ih => exact ih (operation.apply keeping state).2

/-- Two ways of keeping an object that cannot be told apart: states that belong together give the
same answers and go over into states that belong together. -/
structure Keeping.Along {τ υ : Type} (first : Keeping σ τ) (second : Keeping σ υ) (view : τ → υ) :
    Prop where
  visit : ∀ look state, second.visit look (view state) = (first.visit look state).map id view
  modify : ∀ change state, second.modify change (view state) =
    (first.modify change state).map id view
  set : ∀ object state, second.set object (view state) = view (first.set object state)
  equals : ∀ other state, second.equals other (view state) = (first.equals other state).map id view
  equalsTo : ∀ other state, second.equalsTo other (view state) =
    (first.equalsTo other state).map id view
  encodedSize : ∀ state, second.encodedSize (view state) = (first.encodedSize state).map id view
  encode : ∀ state, second.encode (view state) = (first.encode state).map id view

section Along

variable {τ υ : Type} {first : Keeping σ τ} {second : Keeping σ υ} {view : τ → υ}

theorem Keeping.Along.apply (along : first.Along second view) (operation : Operation format Inside)
    (state : τ) :
    operation.apply second (view state) = (operation.apply first state).map id view := by
  cases operation with
  | get look looks => rw [Operation.apply, Operation.apply, along.visit]; rfl
  | getMut change => rw [Operation.apply, Operation.apply, along.modify]; rfl
  | set object => rw [Operation.apply, Operation.apply, along.set]; rfl
  | equals other => rw [Operation.apply, Operation.apply, along.equals]; rfl
  | equalsTo other => rw [Operation.apply, Operation.apply, along.equalsTo]; rfl
  | encodedSize => rw [Operation.apply, Operation.apply, along.encodedSize]; rfl
  | encode => rw [Operation.apply, Operation.apply, along.encode]; rfl
  | clone => rfl

theorem Keeping.Along.run (along : first.Along second view)
    (operations : List (Operation format Inside)) (state : τ) :
    second.run operations (view state) = (first.run operations state).map id view := by
  induction operations generalizing state with
  | nil => rfl
  | cons operation operations ih =>
    simp only [Keeping.run, along.apply, Prod.map_fst, Prod.map_snd, ih, id]
    rfl

end Along

/-! ## Each call by itself -/

theorem Slots.get_of (format : ObjectFormat σ) (deferred : Deferred σ) :
    (Slots.of deferred).get format = (deferred.get format).map id .of := by
  cases deferred with
  | raw bytes =>
    cases decoded : format.deserialize bytes <;>
      simp [Slots.of, Slots.get, Slots.current?, Slots.decodeRaw, Deferred.get, decoded]
  | decoded bytes object => rfl
  | owned object => rfl

theorem Slots.refresh_of (object : σ) (deferred : Deferred σ) :
    (Slots.of deferred).refresh object = .of (deferred.refresh object) := by
  cases deferred with
  | raw bytes => rfl
  | decoded bytes held => rfl
  | owned held => rfl

theorem Slots.visit_of (format : ObjectFormat σ) (look : σ → σ) (deferred : Deferred σ) :
    (Slots.of deferred).visit format look =
      (deferred.visit format fun object => (object, look object)).map id .of := by
  rw [Slots.visit, Slots.get_of, Deferred.visit]
  rcases deferred.get format with ⟨_ | object, later⟩
  · rfl
  · exact congrArg (Prod.mk _) (Slots.refresh_of (look object) later)

theorem Slots.modify_of (format : ObjectFormat σ) (change : σ → σ) (deferred : Deferred σ) :
    (Slots.of deferred).modify format change =
      (deferred.modify format fun object => (object, change object)).map id .of := by
  cases deferred with
  | raw bytes =>
    cases decoded : format.deserialize bytes <;>
      simp [Slots.of, Slots.modify, Slots.getMut, Slots.decodeRaw, Deferred.modify, Deferred.get,
        decoded]
  | decoded bytes object => rfl
  | owned object => rfl

theorem Slots.intoInner_of (format : ObjectFormat σ) (deferred : Deferred σ) :
    (Slots.of deferred).intoInner format = deferred.intoInner format := by
  cases deferred with
  | raw bytes => exact (Deferred.get_raw format bytes).symm
  | decoded bytes object => rfl
  | owned object => rfl

theorem same_of_object {left right : Deferred σ}
    (atHand : ∀ leftBytes rightBytes, left = .raw leftBytes → right ≠ .raw rightBytes) :
    left.same format right = match left.get format, right.get format with
      | (.ok leftObject, left), (.ok rightObject, right) =>
        ((format.same leftObject rightObject).1,
          left.refresh (format.same leftObject rightObject).2.1,
          right.refresh (format.same leftObject rightObject).2.2)
      | (_, left), (_, right) => (false, left, right) := by
  rewrite [Deferred.same]
  · rfl
  · exact atHand

theorem Slots.same_of_object {left right : Deferred σ}
    (atHand : ∀ leftBytes rightBytes, left = .raw leftBytes → right ≠ .raw rightBytes) :
    (Slots.of left).same format (.of right) =
      match (Slots.of left).get format, (Slots.of right).get format with
      | (.ok leftObject, left), (.ok rightObject, right) =>
        ((format.same leftObject rightObject).1,
          left.refresh (format.same leftObject rightObject).2.1,
          right.refresh (format.same leftObject rightObject).2.2)
      | (_, left), (_, right) => (false, left, right) := by
  cases left with
  | raw leftBytes =>
    cases right with
    | raw rightBytes => exact absurd rfl (atHand leftBytes rightBytes rfl)
    | decoded rightBytes rightObject => rfl
    | owned rightObject => rfl
  | decoded leftBytes leftObject => rfl
  | owned leftObject => rfl

/-- Either both are bytes, or one of two has an object at hand. -/
theorem raw_or_object (left right : Deferred σ) :
    (∃ leftBytes rightBytes, left = .raw leftBytes ∧ right = .raw rightBytes) ∨
      ∀ leftBytes rightBytes, left = .raw leftBytes → right ≠ .raw rightBytes := by
  cases left <;> cases right <;> simp

theorem Slots.same_of (format : ObjectFormat σ) (left right : Deferred σ) :
    (Slots.of left).same format (.of right) =
      (left.same format right).map id (Prod.map .of .of) := by
  rcases raw_or_object left right with ⟨leftBytes, rightBytes, rfl, rfl⟩ | atHand
  · rfl
  -- what asking left behind is refreshed with what comparing left behind, on either side
  rw [Slots.same_of_object atHand, Deferred.same_of_object atHand, Slots.get_of, Slots.get_of]
  rcases left.get format with ⟨_ | leftObject, leftLater⟩ <;>
    rcases right.get format with ⟨_ | rightObject, rightLater⟩ <;>
    simp [Slots.refresh_of]

theorem Slots.emit_of {α : Type} (ofObject : σ → α × σ) (ofBytes : Bytes → α)
    (deferred : Deferred σ) :
    (Slots.of deferred).emit format ofObject ofBytes = match deferred with
      | .raw bytes => (ofBytes bytes, .of (.raw bytes))
      | .decoded bytes object => ((ofObject object).1, .of (.decoded bytes (ofObject object).2))
      | .owned object => ((ofObject object).1, .of (.owned (ofObject object).2)) := by
  cases deferred with
  | raw bytes => rfl
  | decoded bytes object => rfl
  | owned object => rfl

theorem slots_along (format : ObjectFormat σ) :
    (Deferred.keeping format).Along (Slots.keeping format) .of where
  visit := Slots.visit_of format
  modify := Slots.modify_of format
  set _ _ := rfl
  equals other deferred := by
    change (((Slots.of deferred).same format (.of other)).1, _) = _
    rw [Slots.same_of]
    rfl
  equalsTo other deferred := by
    change (((Slots.of other).same format (.of deferred)).1, _) = _
    rw [Slots.same_of]
    rfl
  encodedSize deferred := (Slots.emit_of _ _ deferred).trans (by cases deferred <;> rfl)
  encode deferred := (Slots.emit_of _ _ deferred).trans (by cases deferred <;> rfl)

/-! ## What is seen of it -/

theorem Reference.current_of (format : ObjectFormat σ) (deferred : Deferred σ) :
    (Reference.of deferred).current format = (deferred.get format).1 := by
  cases deferred with
  | raw bytes => exact (Deferred.get_raw format bytes).symm
  | decoded bytes object => rfl
  | owned object => rfl

/-- An access with success leaves a value, and one that fails leaves everything as it is. -/
theorem Reference.of_get (format : ObjectFormat σ) (deferred : Deferred σ) :
    (∃ object later, deferred.get format = (.ok object, later) ∧ Reference.of later = .value object ∧
      ∀ next, Reference.of (later.refresh next) = .value next) ∨
    ∃ error, deferred.get format = (.error error, deferred) := by
  cases deferred with
  | raw bytes =>
    rw [Deferred.get]
    split
    · exact .inl ⟨_, _, rfl, rfl, fun _ => rfl⟩
    · exact .inr ⟨_, rfl⟩
  | decoded bytes object => exact .inl ⟨_, _, rfl, rfl, fun _ => rfl⟩
  | owned object => exact .inl ⟨_, _, rfl, rfl, fun _ => rfl⟩

theorem Reference.access_of (format : ObjectFormat σ) (change : σ → σ) (deferred : Deferred σ) :
    (Reference.of deferred).access format change =
      (deferred.visit format fun object => (object, change object)).map id .of := by
  rw [Reference.access, Reference.current_of, Deferred.visit]
  rcases Reference.of_get format deferred with ⟨object, later, got, _, of⟩ | ⟨error, failed⟩
  · rw [got]
    exact congrArg (Prod.mk _) (of (change object)).symm
  · rw [failed]
    rfl

/-- Looking and changing differ in what becomes of the bytes, which is not seen. -/
theorem Reference.of_modify (format : ObjectFormat σ) (change : σ → σ) (deferred : Deferred σ) :
    (deferred.modify format fun object => (object, change object)).map id Reference.of =
      (deferred.visit format fun object => (object, change object)).map id Reference.of := by
  rw [Deferred.modify, Deferred.visit]
  rcases Reference.of_get format deferred with ⟨object, later, got, _, of⟩ | ⟨error, failed⟩
  · rw [got]
    exact congrArg (Prod.mk _) (of (change object)).symm
  · rw [failed]

theorem Reference.of_eq_raw_iff {deferred : Deferred σ} {bytes : Bytes} :
    Reference.of deferred = .raw bytes ↔ deferred = .raw bytes := by
  cases deferred <;> simp [Reference.of]

theorem Reference.same_of_object {left right : Deferred σ}
    (atHand : ∀ leftBytes rightBytes, left = .raw leftBytes → right ≠ .raw rightBytes) :
    (Reference.of left).same format (.of right) =
      match (Reference.of left).current format, (Reference.of right).current format with
      | .ok leftObject, .ok rightObject =>
        ((format.same leftObject rightObject).1, .value (format.same leftObject rightObject).2.1,
          .value (format.same leftObject rightObject).2.2)
      | _, _ => (false, ((Reference.of left).access format id).2,
          ((Reference.of right).access format id).2) := by
  rewrite [Reference.same]
  · rfl
  · intro leftBytes rightBytes isLeft isRight
    exact atHand leftBytes rightBytes (of_eq_raw_iff.mp isLeft) (of_eq_raw_iff.mp isRight)

theorem Reference.same_of (format : ObjectFormat σ) (left right : Deferred σ) :
    (Reference.of left).same format (.of right) =
      (left.same format right).map id (Prod.map .of .of) := by
  rcases raw_or_object left right with ⟨leftBytes, rightBytes, rfl, rfl⟩ | atHand
  · rfl
  rw [Reference.same_of_object atHand, Deferred.same_of_object atHand]
  simp only [Reference.access, Reference.current_of]
  rcases Reference.of_get format left with ⟨leftObject, leftLater, leftGot, leftOf, leftNext⟩ |
      ⟨leftError, leftFailed⟩ <;>
    rcases Reference.of_get format right with ⟨rightObject, rightLater, rightGot, rightOf, rightNext⟩ |
      ⟨rightError, rightFailed⟩ <;>
    simp [*]

theorem reference_along (format : ObjectFormat σ) :
    (Deferred.keeping format).Along (Reference.keeping format) .of where
  visit := Reference.access_of format
  modify change deferred :=
    (Reference.access_of format change deferred).trans (Reference.of_modify format change deferred).symm
  set _ _ := rfl
  equals other deferred := by
    change (((Reference.of deferred).same format (.of other)).1, _) = _
    rw [Reference.same_of]
    rfl
  equalsTo other deferred := by
    change (((Reference.of other).same format (.of deferred)).1, _) = _
    rw [Reference.same_of]
    rfl
  encodedSize deferred := by cases deferred <;> rfl
  encode deferred := by cases deferred <;> rfl

/-! ## What was decoded -/

/-- An object that is kept beside bytes is what they decode to, apart from what looking leaves
behind. -/
def Sound (format : ObjectFormat σ) (Inside : σ → σ → Prop) : Deferred σ → Prop
  | .decoded bytes object =>
    ∃ first, format.deserialize bytes = .ok first ∧ format.Peek Inside first object
  | .raw _ => True
  | .owned _ => True

theorem sound_allows (format : ObjectFormat σ) (Inside : σ → σ → Prop) :
    Allows format (format.Peek Inside)
      fun deferred later => Sound format Inside deferred → Sound format Inside later where
  refl _ := id
  trans _ _ _ before after sound := after (before sound)
  get deferred sound := by
    cases deferred with
    | raw bytes =>
      rw [Deferred.get]
      split
      · rename_i object decoded
        exact ⟨object, decoded, .start⟩
      · trivial
    | decoded bytes object => exact sound
    | owned object => trivial
  refresh deferred object later held looked sound := by
    cases deferred with
    | raw bytes => trivial
    | decoded bytes found =>
      cases held
      obtain ⟨first, decoded, before⟩ := sound
      exact ⟨first, decoded, before.trans looked⟩
    | owned found => trivial

theorem Sound.apply {deferred : Deferred σ} (sound : Sound format Inside deferred)
    (operation : Operation format Inside) :
    Sound format Inside (operation.apply (Deferred.keeping format) deferred).2 := by
  have allows := sound_allows format Inside
  have objects := format.peek_follows Inside
  cases operation with
  | get look looks =>
    have looked : ∀ object, format.Peek Inside object (object, look object).2 := looks
    exact allows.visit looked deferred sound
  | getMut change =>
    change Sound format Inside (deferred.modify format fun object => (object, change object)).2
    rw [Deferred.modify]
    rcases Reference.of_get format deferred with ⟨object, later, got, _⟩ | ⟨error, failed⟩
    · rw [got]
      trivial
    · rw [failed]
      exact sound
  | set object => trivial
  | equals other => exact (allows.same objects deferred other).1 sound
  | equalsTo other => exact (allows.same objects other deferred).2 sound
  | encodedSize => exact (allows.follows objects).size deferred sound
  | encode => exact (allows.follows objects).write deferred sound
  | clone => exact sound

theorem Sound.run {deferred : Deferred σ} (sound : Sound format Inside deferred)
    (operations : List (Operation format Inside)) :
    Sound format Inside ((Deferred.keeping format).run operations deferred).2 := by
  induction operations generalizing deferred with
  | nil => exact sound
  | cons operation operations ih => exact ih (sound.apply operation)

/-! ## When bytes become a value -/

namespace Operation

/-- Whether nothing but a look is taken. -/
def looks : Operation format Inside → Bool
  | .getMut _ => false
  | .set _ => false
  | _ => true

/-- It has the object of the given bytes, or another one in its place. -/
def Accesses (bytes : Bytes) : Operation format Inside → Prop
  | .get _ _ => ∃ object, format.deserialize bytes = .ok object
  | .getMut _ => ∃ object, format.deserialize bytes = .ok object
  | .set _ => True
  | .equals other => other.isMaterialized = true ∧ ∃ object, format.deserialize bytes = .ok object
  | .equalsTo other => other.isMaterialized = true ∧ ∃ object, format.deserialize bytes = .ok object
  | .encodedSize => False
  | .encode => False
  | .clone => False

end Operation

theorem Reference.same_value (object : σ) (other : Reference σ) :
    (∃ later, ((value object).same format other).2.1 = .value later ∧
      format.Peek Inside object later) ∧
    ∃ later, (other.same format (value object)).2.2 = .value later ∧
      format.Peek Inside object later := by
  cases other with
  | value held =>
    exact ⟨⟨_, rfl, .left held .start⟩, ⟨_, rfl, .right held .start⟩⟩
  | raw bytes =>
    simp only [Reference.same, Reference.current, Reference.access]
    cases format.deserialize bytes with
    | ok held => exact ⟨⟨_, rfl, .left held .start⟩, ⟨_, rfl, .right held .start⟩⟩
    | error error => exact ⟨⟨object, rfl, .start⟩, ⟨object, rfl, .start⟩⟩

/-- What was bytes has become a value if they were accessed, and else it is the same bytes. -/
def Reference.TurnedIf (accessed : Prop) (bytes : Bytes) (reference : Reference σ) : Prop :=
  accessed ∧ (∃ object, reference = .value object) ∨ ¬accessed ∧ reference = .raw bytes

theorem Reference.access_raw (format : ObjectFormat σ) (bytes : Bytes) (change : σ → σ) :
    ((raw bytes).access format change).2.TurnedIf
      (∃ object, format.deserialize bytes = .ok object) bytes := by
  rw [Reference.access, Reference.current]
  cases format.deserialize bytes <;> simp [TurnedIf]

/-- Bytes that are compared become a value if the other side is one and they decode. -/
theorem Reference.same_raw (format : ObjectFormat σ) (bytes : Bytes) (other : Deferred σ) :
    ((raw bytes).same format (.of other)).2.1.TurnedIf
      (other.isMaterialized = true ∧ ∃ object, format.deserialize bytes = .ok object) bytes ∧
    ((Reference.of other).same format (raw bytes)).2.2.TurnedIf
      (other.isMaterialized = true ∧ ∃ object, format.deserialize bytes = .ok object) bytes := by
  cases other with
  | raw held => simp [Reference.of, Reference.same, isMaterialized, object?, TurnedIf]
  | decoded held object =>
    cases decoded : format.deserialize bytes <;>
      simp [Reference.of, Reference.same, Reference.current, Reference.access, isMaterialized,
        object?, decoded, TurnedIf]
  | owned object =>
    cases decoded : format.deserialize bytes <;>
      simp [Reference.of, Reference.same, Reference.current, Reference.access, isMaterialized,
        object?, decoded, TurnedIf]

namespace Operation

/-- A value stays a value.  Looking at it leaves it the same value. -/
theorem apply_value (operation : Operation format Inside) (object : σ) :
    ∃ later, (operation.apply (Reference.keeping format) (.value object)).2 = .value later ∧
      (operation.looks = true → format.Peek Inside object later) := by
  cases operation with
  | get look looks => exact ⟨look object, rfl, fun _ => looks object⟩
  | getMut change => exact ⟨change object, rfl, fun looks => by cases looks⟩
  | set next => exact ⟨next, rfl, fun looks => by cases looks⟩
  | equals other =>
    obtain ⟨⟨later, same, looked⟩, _⟩ := Reference.same_value object (Reference.of other)
    exact ⟨later, same, fun _ => looked⟩
  | equalsTo other =>
    obtain ⟨_, later, same, looked⟩ := Reference.same_value object (Reference.of other)
    exact ⟨later, same, fun _ => looked⟩
  | encodedSize => exact ⟨_, rfl, fun _ => .size .start⟩
  | encode => exact ⟨_, rfl, fun _ => .encode .start⟩
  | clone => exact ⟨object, rfl, fun _ => .start⟩

/-- Bytes become a value by a call that has their object or puts in another one. -/
theorem apply_raw (operation : Operation format Inside) (bytes : Bytes) :
    (operation.apply (Reference.keeping format) (.raw bytes)).2.TurnedIf
      (operation.Accesses bytes) bytes := by
  cases operation with
  | get look looks => exact Reference.access_raw format bytes look
  | getMut change => exact Reference.access_raw format bytes change
  | set object => exact .inl ⟨trivial, object, rfl⟩
  | equals other => exact (Reference.same_raw format bytes other).1
  | equalsTo other => exact (Reference.same_raw format bytes other).2
  | encodedSize => exact .inr ⟨id, rfl⟩
  | encode => exact .inr ⟨id, rfl⟩
  | clone => exact .inr ⟨id, rfl⟩

end Operation

/-- Through any number of calls that only look, a value is the same value. -/
theorem Reference.run_value (operations : List (Operation format Inside)) (object : σ) :
    ∃ later, ((Reference.keeping format).run operations (.value object)).2 = .value later ∧
      ((∀ operation ∈ operations, operation.looks = true) → format.Peek Inside object later) := by
  induction operations generalizing object with
  | nil => exact ⟨object, rfl, fun _ => .start⟩
  | cons operation operations ih =>
    obtain ⟨next, applied, looked⟩ := operation.apply_value object
    obtain ⟨later, ran, looks⟩ := ih next
    refine ⟨later, ?_, fun all => ?_⟩
    · rw [← ran, ← applied]
      rfl
    · obtain ⟨first, rest⟩ := List.forall_mem_cons.mp all
      exact (looked first).trans (looks rest)

/-- The first call that accesses bytes makes a value of them for good; until then they are the same
bytes. -/
theorem Reference.run_raw (operations : List (Operation format Inside)) (bytes : Bytes) :
    ((Reference.keeping format).run operations (.raw bytes)).2.TurnedIf
      (∃ operation ∈ operations, operation.Accesses bytes) bytes := by
  induction operations with
  | nil => exact .inr ⟨by simp, rfl⟩
  | cons operation operations ih =>
    have step : ((Reference.keeping format).run (operation :: operations) (.raw bytes)).2 =
        ((Reference.keeping format).run operations
          (operation.apply (Reference.keeping format) (.raw bytes)).2).2 := rfl
    rw [step, List.exists_mem_cons_iff]
    -- a value stays one whatever comes after it, and bytes that were not accessed start the rest again
    rcases operation.apply_raw bytes with ⟨accessed, object, turned⟩ | ⟨kept, same⟩
    · obtain ⟨later, ran, _⟩ := Reference.run_value operations object
      rw [turned, ran]
      exact .inl ⟨.inl accessed, later, rfl⟩
    · rw [same, or_iff_right kept]
      exact ih

/-! ## Every history -/

/-- How a deferred object comes about, in slots and as a state. -/
inductive Starts (format : ObjectFormat σ) : Slots σ → Deferred σ → Prop where
  | new (object : σ) : Starts format (.new object) (.owned object)
  | fromRaw (bytes : Bytes) : Starts format (.fromRaw bytes) (.raw bytes)
  | read {cursor after afterSlots : Cursor} {slots : Slots σ} {deferred : Deferred σ}
      (ran : Slots.read cursor = .ok slots afterSlots)
      (same : Deferred.read cursor = .ok deferred after) : Starts format slots deferred
  | default : Starts format (.new format.empty) (.empty format)

theorem Starts.eq_of {slots : Slots σ} {deferred : Deferred σ} (starts : Starts format slots deferred) :
    slots = .of deferred ∧ Sound format Inside deferred := by
  cases starts with
  | new object => exact ⟨rfl, trivial⟩
  | fromRaw bytes => exact ⟨rfl, trivial⟩
  | read ran same =>
    obtain ⟨bytes, rfl, taken⟩ := object_of_read same
    obtain ⟨found, middle, again, returned⟩ := (bind_eq_ok_iff _ _ _ _ _).mp ran
    cases taken.symm.trans again
    obtain ⟨rfl, _⟩ := (pure_eq_ok_iff _ _ _ _).mp returned
    exact ⟨rfl, trivial⟩
  | default => exact ⟨rfl, trivial⟩

/-- The slots of an object that is seen as bytes or as a value. -/
structure Slots.Holds (format : ObjectFormat σ) (Inside : σ → σ → Prop) (slots : Slots σ)
    (seen : Reference σ) : Prop where
  /-- Either there are bytes or there is an object that was put in or taken out. -/
  oneOwner : slots.raw.isSome = !slots.owned.isSome
  /-- What was decoded is there together with the bytes that it comes from. -/
  decoded : ∀ object, slots.decoded = some object → ∃ bytes first, slots.raw = some bytes ∧
    format.deserialize bytes = .ok first ∧ format.Peek Inside first object
  /-- However the object is asked for, it is the same one. -/
  current : (slots.get format).1 = seen.current format ∧
    (slots.getMut format).1 = seen.current format ∧ slots.intoInner format = seen.current format
  /-- What is changed is what is there from then on. -/
  changed : ∀ object change, seen.current format = .ok object →
    slots.modify format change = (.ok object, .new (change object))
  /-- Where the bytes do not decode nothing is changed. -/
  failing : ∀ error, seen.current format = .error error → (∃ bytes, seen = .raw bytes) ∧
    ∀ change, slots.visit format change = (.error error, slots) ∧
      slots.modify format change = (.error error, slots)
  /-- Bytes are written as they came. -/
  verbatim : ∀ bytes, seen = .raw bytes →
    slots = .fromRaw bytes ∧ (slots.encode format).1 = bytes
  /-- Of a value, what is written is its own encoding. -/
  written : ∀ object, seen = .value object → slots.current? = some object ∧
    (slots.encode format).1 = (format.encode object).1
  /-- The size is right if that of the object is. -/
  size : (∀ object, slots.current? = some object →
      (format.encodedSize object).1 = (format.encode object).1.length) →
    (slots.encodedSize format).1 = (slots.encode format).1.length

theorem Sound.holds {deferred : Deferred σ} (sound : Sound format Inside deferred) :
    (Slots.of deferred).Holds format Inside (.of deferred) where
  oneOwner := by cases deferred <;> rfl
  decoded object held := by
    cases deferred with
    | raw bytes => cases held
    | decoded bytes found =>
      cases held
      obtain ⟨first, decoded, looked⟩ := sound
      exact ⟨bytes, first, rfl, decoded, looked⟩
    | owned found => cases held
  current := by
    rw [Reference.current_of, Slots.get_of, Slots.intoInner_of]
    refine ⟨rfl, ?_, rfl⟩
    cases deferred with
    | raw bytes =>
      rw [Deferred.get_raw]
      cases decoded : format.deserialize bytes <;>
        simp [Slots.of, Slots.getMut, Slots.decodeRaw, decoded]
    | decoded bytes object => rfl
    | owned object => rfl
  changed object change found := by
    rw [Reference.current_of] at found
    rw [Slots.modify_of, Deferred.modify]
    rcases Reference.of_get format deferred with ⟨held, later, got, _⟩ | ⟨error, failed⟩
    · rw [got] at found ⊢
      cases found
      rfl
    · rw [failed] at found
      cases found
  failing error failing := by
    rw [Reference.current_of] at failing
    -- only bytes can fail, and asking leaves them alone then
    rcases Reference.of_get format deferred with ⟨held, later, got, _⟩ | ⟨reason, failed⟩
    · rw [got] at failing
      cases failing
    · rw [failed] at failing
      cases failing
      refine ⟨?_, fun change => ?_⟩
      · cases deferred with
        | raw bytes => exact ⟨bytes, rfl⟩
        | decoded bytes object => cases failed
        | owned object => cases failed
      · rw [Slots.visit_of, Slots.modify_of, Deferred.visit, Deferred.modify, failed]
        exact ⟨rfl, rfl⟩
  verbatim bytes same := by
    cases Reference.of_eq_raw_iff.mp same
    exact ⟨rfl, rfl⟩
  written object same := by
    cases deferred with
    | raw bytes => cases same
    | decoded bytes held =>
      cases same
      exact ⟨rfl, rfl⟩
    | owned held =>
      cases same
      exact ⟨rfl, rfl⟩
  size right := by
    cases deferred with
    | raw bytes => rfl
    | decoded bytes object => exact right object rfl
    | owned object => exact right object rfl

/-- Whatever is done with a deferred object, however it came about: in slots, as one of three states
and as bytes or a value it gives the same answers, and in the end the slots hold what is seen. -/
theorem slots_hold_of_run {slots : Slots σ} {deferred : Deferred σ}
    (starts : Starts format slots deferred) (operations : List (Operation format Inside)) :
    let stored := (Slots.keeping format).run operations slots
    let state := (Deferred.keeping format).run operations deferred
    let seen := (Reference.keeping format).run operations (.of deferred)
    (stored.1 = state.1 ∧ state.1 = seen.1) ∧
      (stored.2 = .of state.2 ∧ seen.2 = .of state.2) ∧
      stored.2.Holds format Inside seen.2 ∧
      (∀ bytes, deferred = .raw bytes → seen.2.TurnedIf
        (∃ operation ∈ operations, operation.Accesses bytes) bytes) ∧
      ∀ before after object, operations = before ++ after →
        ((Reference.keeping format).run before (.of deferred)).2 = .value object →
        (∀ operation ∈ after, operation.looks = true) →
        ∃ last, seen.2 = .value last ∧ format.Peek Inside object last := by
  intro stored state seen
  obtain ⟨rfl, sound⟩ : slots = .of deferred ∧ Sound format Inside deferred := starts.eq_of
  have inSlots : stored = state.map id .of := (slots_along format).run operations deferred
  have inView : seen = state.map id .of := (reference_along format).run operations deferred
  have holds := (sound.run operations).holds
  refine ⟨⟨by rw [inSlots]; rfl, by rw [inView]; rfl⟩, ⟨by rw [inSlots]; rfl, by rw [inView]; rfl⟩,
    ?_, ?_, ?_⟩
  · rw [inSlots, inView]
    exact holds
  · rintro bytes rfl
    exact Reference.run_raw operations bytes
  · rintro before after object rfl became looks
    obtain ⟨last, ran, looked⟩ := Reference.run_value after object
    refine ⟨last, ?_, looked looks⟩
    rw [← ran, ← became]
    exact Keeping.run_append _ before after _

/-- A list of one truth value that is written as it came, changed and written anew, in slots. -/
theorem slots_hold_of_run_example :
    let format := Sequence.format ElementFormat.bool
    let bytes : Bytes := [0x08, 0x05, 0x02]
    let operations : List (Operation format fun _ _ => False) :=
      [.encode, .getMut fun list => list.push false, .encodedSize, .encode]
    Starts format (.fromRaw bytes) (.raw bytes) ∧
      ((Slots.keeping format).run operations (.fromRaw bytes)).1 =
        [.bytes bytes, .object (.ok ⟨[true], some 2⟩), .size 4, .bytes [0x0c, 0x09, 0x02, 0x00]] ∧
      ((Reference.keeping format).run operations (.raw bytes)).1 =
        [.bytes bytes, .object (.ok ⟨[true], some 2⟩), .size 4, .bytes [0x0c, 0x09, 0x02, 0x00]] ∧
      ((Slots.keeping format).run operations (.fromRaw bytes)).2.raw = none := by
  intro format bytes operations
  have starts : Starts format (.fromRaw bytes) (.raw bytes) := .fromRaw bytes
  obtain ⟨⟨stored, seen⟩, _, holds, _⟩ := slots_hold_of_run starts operations
  have answers : ((Slots.keeping format).run operations (.fromRaw bytes)).1 =
      [.bytes bytes, .object (.ok ⟨[true], some 2⟩), .size 4, .bytes [0x0c, 0x09, 0x02, 0x00]] := by
    simp only [operations, format, bytes]
    rfl
  refine ⟨starts, answers, (stored.trans seen).symm.trans answers, ?_⟩
  have owner := holds.oneOwner
  exact Option.not_isSome_iff_eq_none.mp (by rw [owner]; exact Bool.false_ne_true)

end Deferred

end FieldWire
