import FieldWire.Proofs.Deferred.Slots
import FieldWire.Proofs.Equivalence.Schema

/-!
# Equality of deferred objects

Two deferred objects of which neither was accessed are compared by their bytes, and any others by
their values.  An object may be encoded in more than one way, with the entries of a dictionary in
another order or with a length in more bytes than it needs.  So two that hold the same value are
told apart as long as neither was accessed, and both are equal to a third that was: equality is
symmetric, and it is an equivalence that lasts exactly among deferred objects of which no two are in
this position.
-/

set_option autoImplicit false

namespace FieldWire.Deferred

variable {σ : Type} {format : ObjectFormat σ} {Domain : σ → Prop} {Looked : σ → σ → Prop}
  {deferred later left right first second third : Deferred σ}

/-! ## Values and bytes -/

/-- It holds a value of a domain, or bytes that decode to one. -/
def Readable (format : ObjectFormat σ) (Domain : σ → Prop) (deferred : Deferred σ) : Prop :=
  ∃ object, deferred.intoInner format = .ok object ∧ Domain object

/-- Two hold equal values. -/
def Agree (format : ObjectFormat σ) (left right : Deferred σ) : Prop :=
  ∃ leftObject rightObject, left.intoInner format = .ok leftObject ∧
    right.intoInner format = .ok rightObject ∧ (format.same leftObject rightObject).1 = true

/-- Two are different bytes that nobody has asked for. -/
def Clash : Deferred σ → Deferred σ → Prop
  | .raw left, .raw right => left ≠ right
  | _, _ => False

theorem clash_iff : Clash left right ↔
    ∃ leftBytes rightBytes, left = .raw leftBytes ∧ right = .raw rightBytes ∧
      leftBytes ≠ rightBytes := by
  cases left <;> cases right <;> simp [Clash]

theorem Clash.symm (clash : Clash left right) : Clash right left := by
  obtain ⟨leftBytes, rightBytes, rfl, rfl, apart⟩ := clash_iff.mp clash
  exact apart.symm

theorem agree_refl (elements : EquivalenceOn format.same Domain)
    (readable : Readable format Domain deferred) : Agree format deferred deferred := by
  obtain ⟨object, value, holds⟩ := readable
  exact ⟨object, object, value, value, elements.refl object holds⟩

theorem Agree.symm (elements : EquivalenceOn format.same Domain) (one : Readable format Domain left)
    (two : Readable format Domain right) (agree : Agree format left right) :
    Agree format right left := by
  obtain ⟨leftObject, rightObject, leftValue, rightValue, equal⟩ := agree
  obtain ⟨_, again, holds⟩ := one
  cases leftValue.symm.trans again
  obtain ⟨_, again, holdsRight⟩ := two
  cases rightValue.symm.trans again
  exact ⟨_, _, rightValue, leftValue, elements.symm _ _ holds holdsRight equal⟩

theorem Agree.trans (elements : EquivalenceOn format.same Domain) (one : Readable format Domain first)
    (two : Readable format Domain second) (three : Readable format Domain third)
    (front : Agree format first second) (back : Agree format second third) :
    Agree format first third := by
  obtain ⟨firstObject, firstValue, holdsFirst⟩ := one
  obtain ⟨secondObject, secondValue, holdsSecond⟩ := two
  obtain ⟨thirdObject, thirdValue, holdsThird⟩ := three
  obtain ⟨_, _, again, middle, equal⟩ := front
  cases firstValue.symm.trans again
  cases secondValue.symm.trans middle
  obtain ⟨_, _, middle, again, next⟩ := back
  cases secondValue.symm.trans middle
  cases thirdValue.symm.trans again
  exact ⟨_, _, firstValue, thirdValue,
    elements.trans _ _ _ holdsFirst holdsSecond holdsThird equal next⟩

/-- Equality of values, unless bytes that nobody has asked for tell them apart. -/
theorem same_iff (elements : EquivalenceOn format.same Domain) (one : Readable format Domain left)
    (two : Readable format Domain right) :
    (left.same format right).1 = true ↔ Agree format left right ∧ ¬Clash left right := by
  obtain ⟨leftObject, leftValue, holds⟩ := one
  obtain ⟨rightObject, rightValue, _⟩ := two
  rcases raw_or_object left right with ⟨leftBytes, rightBytes, rfl, rfl⟩ | atHand
  · change (leftBytes == rightBytes) = true ↔ _ ∧ ¬leftBytes ≠ rightBytes
    rw [beq_iff_eq, not_not]
    refine ⟨fun same => ⟨?_, same⟩, fun agree => agree.2⟩
    subst same
    exact ⟨leftObject, leftObject, leftValue, leftValue, elements.refl leftObject holds⟩
  · have apart : ¬Clash left right := by
      rw [clash_iff]
      rintro ⟨leftBytes, rightBytes, isLeft, isRight, _⟩
      exact atHand leftBytes rightBytes isLeft isRight
    rw [and_iff_left apart, same_of_object atHand]
    rw [intoInner] at leftValue rightValue
    rcases leftGot : left.get format with ⟨_ | leftFound, leftLater⟩
    · rw [leftGot] at leftValue
      cases leftValue
    rcases rightGot : right.get format with ⟨_ | rightFound, rightLater⟩
    · rw [rightGot] at rightValue
      cases rightValue
    simp [Agree, intoInner, leftGot, rightGot]

/-! ## Shared access -/

/-- A call that anyone can make who holds a reference: asking for the object and looking at it,
asking for the size and the bytes, comparing. -/
inductive Access (format : ObjectFormat σ) (Looked : σ → σ → Prop) (deferred : Deferred σ) :
    Deferred σ → Prop where
  | get : Access format Looked deferred (deferred.get format).2
  | look {object later : σ} (held : deferred.object? = some object) (looked : Looked object later) :
      Access format Looked deferred (deferred.refresh later)
  | size : Access format Looked deferred (deferred.encodedSize format).2
  | encode : Access format Looked deferred (deferred.encode format).2
  | left (other : Deferred σ) : Access format Looked deferred (deferred.same format other).2.1
  | right (other : Deferred σ) : Access format Looked deferred (other.same format deferred).2.2

/-- Any number of such calls. -/
abbrev Shared (format : ObjectFormat σ) (Looked : σ → σ → Prop) : Deferred σ → Deferred σ → Prop :=
  Relation.ReflTransGen (Access format Looked)

/-- The value stays, and what was accessed does not become bytes again. -/
structure Endures (format : ObjectFormat σ) (Domain : σ → Prop) (deferred later : Deferred σ) :
    Prop where
  readable : Readable format Domain later
  agree : Agree format deferred later
  raw : ∀ bytes, later = .raw bytes → deferred = .raw bytes

theorem endures_allows (elements : EquivalenceOn format.same Domain) :
    Allows format (StaysEqual format.same Domain)
      fun deferred later => Readable format Domain deferred → Endures format Domain deferred later where
  refl deferred readable := ⟨readable, agree_refl elements readable, fun _ => id⟩
  trans first second third before after readable := by
    have front := before readable
    have back := after front.readable
    exact ⟨back.readable, front.agree.trans elements readable front.readable back.readable back.agree,
      fun bytes same => front.raw bytes (back.raw bytes same)⟩
  get deferred readable := by
    cases deferred with
    | raw bytes =>
      obtain ⟨object, value, holds⟩ := readable
      have decoded : format.deserialize bytes = .ok object := (get_raw format bytes).symm.trans value
      simp only [Deferred.get, decoded]
      exact ⟨⟨object, rfl, holds⟩, ⟨object, object, value, rfl, elements.refl object holds⟩,
        fun _ same => by cases same⟩
    | decoded bytes object => exact ⟨readable, agree_refl elements readable, fun _ => id⟩
    | owned object => exact ⟨readable, agree_refl elements readable, fun _ => id⟩
  refresh deferred object next held stays readable := by
    obtain ⟨_, value, holds⟩ := readable
    cases deferred with
    | raw bytes => cases held
    | decoded bytes old =>
      cases held
      cases value
      obtain ⟨holdsNext, equal⟩ := stays holds
      exact ⟨⟨next, rfl, holdsNext⟩, ⟨_, next, rfl, rfl, equal⟩, fun _ same => by cases same⟩
    | owned old =>
      cases held
      cases value
      obtain ⟨holdsNext, equal⟩ := stays holds
      exact ⟨⟨next, rfl, holdsNext⟩, ⟨_, next, rfl, rfl, equal⟩, fun _ same => by cases same⟩

theorem endures_of_shared (elements : EquivalenceOn format.same Domain)
    (follows : format.Follows (StaysEqual format.same Domain))
    (looks : ∀ object later, Looked object later → StaysEqual format.same Domain object later)
    (shared : Shared format Looked deferred later) (readable : Readable format Domain deferred) :
    Endures format Domain deferred later := by
  have allows := endures_allows elements
  have calls := allows.follows follows
  induction shared with
  | refl => exact allows.refl _ readable
  | tail _ access ih =>
    refine allows.trans _ _ _ (fun _ => ih) ?_ readable
    cases access with
    | get => exact allows.get _
    | look held looked => exact allows.refresh _ _ _ held (looks _ _ looked)
    | size => exact calls.size _
    | encode => exact calls.write _
    | left other => exact calls.left _ other
    | right other => exact calls.right _ other

/-! ## How far equality goes -/

/-- Equality of deferred objects that hold values: where it is an equivalence that lasts, and where
it is not. -/
structure Compared (format : ObjectFormat σ) (Holds : Deferred σ → Prop)
    (Later : Deferred σ → Deferred σ → Prop) : Prop where
  symm : ∀ left right, Holds left → Holds right →
    (left.same format right).1 = (right.same format left).1
  trans_iff : ∀ first second third, Holds first → Holds second → Holds third →
    (first.same format second).1 = true → (second.same format third).1 = true →
    ((first.same format third).1 = true ↔ ¬Clash first third)
  /-- An answer changes in one direction only, and only if bytes of equal values were accessed. -/
  later_iff : ∀ left right leftLater rightLater, Holds left → Holds right →
    Later left leftLater → Later right rightLater →
    ((leftLater.same format rightLater).1 = true ↔ (left.same format right).1 = true ∨
      Agree format left right ∧ Clash left right ∧ ¬Clash leftLater rightLater)
  /-- Among deferred objects of which no two are different bytes of equal values, equality is an
  equivalence. -/
  equivalence : ∀ Some : Deferred σ → Prop, (∀ deferred, Some deferred → Holds deferred) →
    (∀ left right, Some left → Some right → Agree format left right → ¬Clash left right) →
    EquivalenceOn (Deferred.same format) Some
  /-- Unless two are such bytes, what is answered for them lasts. -/
  lasts : ∀ left right leftLater rightLater, Holds left → Holds right →
    Later left leftLater → Later right rightLater → (Agree format left right → ¬Clash left right) →
    (leftLater.same format rightLater).1 = (left.same format right).1
  /-- If they are, then neither. -/
  breaks : ∀ left right, Holds left → Holds right → Agree format left right → Clash left right →
    (left.same format right).1 = false ∧
      (Later left (left.get format).2 ∧ ((left.get format).2.same format right).1 = true) ∧
      ∃ middle, Holds middle ∧ (left.same format middle).1 = true ∧
        (middle.same format right).1 = true

section Compared

variable (elements : EquivalenceOn format.same Domain)
  (follows : format.Follows (StaysEqual format.same Domain))
  (looks : ∀ object later, Looked object later → StaysEqual format.same Domain object later)

include elements

theorem same_comm (one : Readable format Domain left) (two : Readable format Domain right) :
    (left.same format right).1 = (right.same format left).1 := by
  rw [Bool.eq_iff_iff, same_iff elements one two, same_iff elements two one]
  exact ⟨fun equal => ⟨equal.1.symm elements one two, fun clash => equal.2 clash.symm⟩,
    fun equal => ⟨equal.1.symm elements two one, fun clash => equal.2 clash.symm⟩⟩

theorem same_trans_iff (one : Readable format Domain first) (two : Readable format Domain second)
    (three : Readable format Domain third) (front : (first.same format second).1 = true)
    (back : (second.same format third).1 = true) :
    (first.same format third).1 = true ↔ ¬Clash first third := by
  rw [same_iff elements one two] at front
  rw [same_iff elements two three] at back
  rw [same_iff elements one three]
  exact and_iff_right (front.1.trans elements one two three back.1)

/-- A value is compared as a value. -/
theorem breaks_of_clash (one : Readable format Domain left) (two : Readable format Domain right)
    (agree : Agree format left right) (clash : Clash left right) :
    (left.same format right).1 = false ∧ ((left.get format).2.same format right).1 = true ∧
      ∃ middle, Readable format Domain middle ∧ (left.same format middle).1 = true ∧
        (middle.same format right).1 = true := by
  have accessed := (endures_allows elements).get left one
  obtain ⟨object, value, holds⟩ := one
  have middle : Readable format Domain (.owned object) := ⟨object, rfl, holds⟩
  have whole : Agree format left (.owned object) :=
    ⟨object, object, value, rfl, elements.refl object holds⟩
  have one : Readable format Domain left := ⟨object, value, holds⟩
  refine ⟨?_, ?_, .owned object, middle, ?_, ?_⟩
  · rw [Bool.eq_false_iff, ne_eq, same_iff elements one two]
    exact fun equal => equal.2 clash
  · rw [same_iff elements accessed.readable two]
    refine ⟨(accessed.agree.symm elements one accessed.readable).trans elements accessed.readable one
      two agree, fun again => ?_⟩
    obtain ⟨bytes, _, still, _⟩ := clash_iff.mp again
    have held := object?_of_get value
    rw [still] at held
    cases held
  · rw [same_iff elements one middle]
    exact ⟨whole, fun clash => by cases left <;> exact clash⟩
  · rw [same_iff elements middle two]
    exact ⟨(whole.symm elements one middle).trans elements middle one two agree, id⟩

include follows looks

theorem same_later_iff {leftLater rightLater : Deferred σ} (one : Readable format Domain left)
    (two : Readable format Domain right) (leftShared : Shared format Looked left leftLater)
    (rightShared : Shared format Looked right rightLater) :
    (leftLater.same format rightLater).1 = true ↔ (left.same format right).1 = true ∨
      Agree format left right ∧ Clash left right ∧ ¬Clash leftLater rightLater := by
  have leftKept := endures_of_shared elements follows looks leftShared one
  have rightKept := endures_of_shared elements follows looks rightShared two
  -- the values last, and the bytes that tell them apart can only go away
  have agrees : Agree format leftLater rightLater ↔ Agree format left right := by
    have leftBack := leftKept.agree.symm elements one leftKept.readable
    have rightBack := rightKept.agree.symm elements two rightKept.readable
    constructor
    · intro agree
      have front := leftKept.agree.trans elements one leftKept.readable rightKept.readable agree
      exact front.trans elements one rightKept.readable two rightBack
    · intro agree
      have front := leftBack.trans elements leftKept.readable one two agree
      exact front.trans elements leftKept.readable two rightKept.readable rightKept.agree
  have clashes : Clash leftLater rightLater → Clash left right := by
    intro clash
    obtain ⟨leftBytes, rightBytes, isLeft, isRight, apart⟩ := clash_iff.mp clash
    exact clash_iff.mpr ⟨leftBytes, rightBytes, leftKept.raw _ isLeft, rightKept.raw _ isRight, apart⟩
  rw [same_iff elements leftKept.readable rightKept.readable, same_iff elements one two, agrees]
  by_cases clash : Clash left right
  · simp [clash]
  · have later : ¬Clash leftLater rightLater := fun again => clash (clashes again)
    simp [clash, later]

theorem compared : Compared format (Readable format Domain) (Shared format Looked) where
  symm _ _ := same_comm elements
  trans_iff _ _ _ := same_trans_iff elements
  later_iff _ _ _ _ := same_later_iff elements follows looks
  equivalence Some holds free := {
    refl := fun deferred there =>
      have agree := agree_refl elements (holds deferred there)
      (same_iff elements (holds _ there) (holds _ there)).mpr ⟨agree, free _ _ there there agree⟩
    symm := fun left right one two equal =>
      (same_comm elements (holds right two) (holds left one)).trans equal
    trans := fun first second third one two three front back => by
      have agree := (((same_iff elements (holds _ one) (holds _ two)).mp front).1).trans elements
        (holds _ one) (holds _ two) (holds _ three)
        ((same_iff elements (holds _ two) (holds _ three)).mp back).1
      exact (same_trans_iff elements (holds _ one) (holds _ two) (holds _ three) front back).mpr
        (free _ _ one three agree) }
  lasts left right leftLater rightLater one two leftShared rightShared free := by
    rw [Bool.eq_iff_iff, same_later_iff elements follows looks one two leftShared rightShared]
    exact or_iff_left fun apart => free apart.1 apart.2.1
  breaks left right one two agree clash := by
    obtain ⟨apart, accessed, middle⟩ := breaks_of_clash elements one two agree clash
    exact ⟨apart, ⟨.single .get, accessed⟩, middle⟩

end Compared

end FieldWire.Deferred

namespace FieldWire

/-- Deferred objects of any schema whose own equality is an equivalence, and what can be done with
them by anyone who holds a reference. -/
theorem Schema.deferred_compared (schema : Schema) (standard : schema.isStandard = true)
    (equivalence : EquivalenceOn schema.format.same (schema.Distinct standard)) :
    Deferred.Compared schema.format (Deferred.Readable schema.format (schema.Distinct standard))
      (Deferred.Shared schema.format (schema.Peek standard)) :=
  Deferred.compared equivalence (schema.stays standard equivalence)
    (schema.stays_of_peek standard equivalence)

/-- The entries `a` and `b` in one order and in the other.  The answer changes when one of the two
is accessed, and both are equal to the dictionary itself. -/
theorem Schema.deferred_compared_example :
    let schema : Schema := .dictionary (.integer .int)
    let left : Deferred schema.Carrier :=
      .raw [0x20, 0x08, 0x04, 0x61, 0x04, 0x62, 0x09, 0x02, 0x04]
    let right : Deferred schema.Carrier :=
      .raw [0x20, 0x08, 0x04, 0x62, 0x04, 0x61, 0x09, 0x04, 0x02]
    EquivalenceOn schema.format.same (schema.Distinct rfl) ∧
      Deferred.Readable schema.format (schema.Distinct rfl) left ∧
      Deferred.Readable schema.format (schema.Distinct rfl) right ∧
      (left.same schema.format right).1 = false ∧
      ((left.get schema.format).2.same schema.format right).1 = true ∧
      ∃ middle, Deferred.Readable schema.format (schema.Distinct rfl) middle ∧
        (left.same schema.format middle).1 = true ∧ (middle.same schema.format right).1 = true := by
  intro schema left right
  have equivalence := schema.equivalence rfl rfl
  have decodes : ∀ bytes object, schema.format.deserialize bytes = .ok object →
      Deferred.Readable schema.format (schema.Distinct rfl) (.raw bytes) := fun bytes object decoded =>
    ⟨object, (Deferred.get_raw _ bytes).trans decoded,
      schema.distinct_of_deserialize rfl bytes object decoded⟩
  let one : Integer .int := ⟨1, by decide, by decide⟩
  let two : Integer .int := ⟨2, by decide, by decide⟩
  let leftObject : Dictionary (Integer .int) :=
    ⟨[(Text.ofWire [0x61], one), (Text.ofWire [0x62], two)], some 8⟩
  let rightObject : Dictionary (Integer .int) :=
    ⟨[(Text.ofWire [0x62], two), (Text.ofWire [0x61], one)], some 8⟩
  have leftReadable := decodes [0x20, 0x08, 0x04, 0x61, 0x04, 0x62, 0x09, 0x02, 0x04] leftObject rfl
  have rightReadable :=
    decodes [0x20, 0x08, 0x04, 0x62, 0x04, 0x61, 0x09, 0x04, 0x02] rightObject rfl
  have agree : Deferred.Agree schema.format left right := ⟨leftObject, rightObject, rfl, rfl, rfl⟩
  have clash : Deferred.Clash left right := by
    simp only [Deferred.Clash, left, right]
    decide
  obtain ⟨apart, ⟨_, accessed⟩, middle⟩ := (schema.deferred_compared rfl equivalence).breaks
    left right leftReadable rightReadable agree clash
  exact ⟨equivalence, leftReadable, rightReadable, apart, accessed, middle⟩

end FieldWire
