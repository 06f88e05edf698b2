import FieldWire.Proofs.Reader

/-!
# Numbers of fixed width

Floating-point numbers stand on the wire as their bits, in four bytes or in eight.  The width is all
in which the two kinds differ, so whatever holds of them is said once, of any numbers that take as
many bytes as their wire type fixes.
-/

set_option autoImplicit false

namespace FieldWire

namespace Bytes

theorem ofLittleEndian_lt (bytes : Bytes) : ofLittleEndian bytes < 256 ^ bytes.length := by
  induction bytes with
  | nil => decide
  | cons byte rest ih =>
    have small := byte.toNat_lt
    rw [ofLittleEndian, List.length_cons, Nat.pow_succ]
    omega

theorem littleEndian_ofLittleEndian (bytes : Bytes) :
    littleEndian bytes.length (ofLittleEndian bytes) = bytes := by
  induction bytes with
  | nil => rfl
  | cons byte rest ih =>
    have small := byte.toNat_lt
    have low : (byte.toNat + 256 * ofLittleEndian rest) % 256 = byte.toNat := by omega
    have high : (byte.toNat + 256 * ofLittleEndian rest) / 256 = ofLittleEndian rest := by omega
    rw [List.length_cons, littleEndian, ofLittleEndian, low, high, ih, UInt8.ofNat_toNat]

end Bytes

/-- A width that is fixed is the least one as well. -/
theorem WireType.minimalWidth_of_fixedWidth? {wireType : WireType} {width : Nat}
    (fixed : wireType.fixedWidth? = some width) : wireType.minimalWidth = width := by
  cases wireType <;> cases fixed <;> rfl

/-- Numbers whose bits fill as many bytes as their wire type fixes. -/
structure FixedWidth (α : Type) where
  scheme : WireType
  width : Nat
  scheme_width : scheme.fixedWidth? = some width
  bits : α → Nat
  ofBits : Nat → α
  bits_lt : ∀ number, bits number < 256 ^ width
  ofBits_bits : ∀ number, ofBits (bits number) = number
  bits_ofBits : ∀ pattern, pattern < 256 ^ width → bits (ofBits pattern) = pattern

namespace FixedWidth

variable {α : Type} (code : FixedWidth α)

/-- The bytes of a number, from the least significant one up. -/
def encode (number : α) : Bytes := Bytes.littleEndian code.width (code.bits number)

/-- The number with the given bytes. -/
def ofWire (bytes : Bytes) : α := code.ofBits (Bytes.ofLittleEndian bytes)

theorem length_encode (number : α) : (code.encode number).length = code.width :=
  Bytes.littleEndian_length code.width _

theorem minimalWidth_eq : code.scheme.minimalWidth = code.width :=
  WireType.minimalWidth_of_fixedWidth? code.scheme_width

theorem ofWire_encode (number : α) : code.ofWire (code.encode number) = number := by
  rw [ofWire, encode, Bytes.ofLittleEndian_littleEndian _ _ (code.bits_lt number), code.ofBits_bits]

theorem encode_ofWire {bytes : Bytes} (whole : bytes.length = code.width) :
    code.encode (code.ofWire bytes) = bytes := by
  have small := bytes.ofLittleEndian_lt
  rw [whole] at small
  rw [encode, ofWire, code.bits_ofBits _ small, ← whole, Bytes.littleEndian_ofLittleEndian]

/-- Four-byte floating-point numbers. -/
def binary32 : FixedWidth Binary32 where
  scheme := .fourByte
  width := 4
  scheme_width := rfl
  bits number := number.bits.toNat
  ofBits pattern := ⟨UInt32.ofNat pattern⟩
  bits_lt number := number.bits.toNat_lt
  ofBits_bits number := congrArg Binary32.mk number.bits.ofNat_toNat
  bits_ofBits _ small := UInt32.toNat_ofNat_of_lt' small

/-- Eight-byte floating-point numbers. -/
def binary64 : FixedWidth Binary64 where
  scheme := .eightByte
  width := 8
  scheme_width := rfl
  bits number := number.bits.toNat
  ofBits pattern := ⟨UInt64.ofNat pattern⟩
  bits_lt number := number.bits.toNat_lt
  ofBits_bits number := congrArg Binary64.mk number.bits.ofNat_toNat
  bits_ofBits _ small := UInt64.toNat_ofNat_of_lt' small

end FixedWidth

namespace Reader

variable {α : Type} (code : FixedWidth α)

/-- The bytes of a number. -/
def fixed : Reader α := do return code.ofWire (← span code.width)

theorem fixed_takes (limit : Nat) (number : α) :
    Takes (fixed code) limit (code.encode number) number := by
  have taken := span_takes limit (code.encode number)
  rw [code.length_encode] at taken
  exact Takes.bindPure taken (congrArg pure (code.ofWire_encode number))

theorem fixed_costs {cursor after : Cursor} {number : α}
    (ran : fixed code cursor = .ok number after) :
    code.width ≤ cursor.rest.length ∧ after = cursor.advance code.width := by
  obtain ⟨bytes, middle, taken, returned⟩ := (bind_eq_ok_iff _ _ _ _ _).mp ran
  obtain ⟨rfl, rfl⟩ := (pure_eq_ok_iff _ _ _ _).mp returned
  obtain ⟨enough, _, moved⟩ := span_eq_ok taken
  exact ⟨enough, moved⟩

end Reader

end FieldWire
