import FieldWire.LengthTag
import FieldWire.Proofs.Varint

/-!
# Length tags

A count below 2^62 survives its tag, a tag is determined by its count and its wire type, and a span
takes the more bytes the longer it is.  `IsEnvelope` says of a byte string that it is one span with
its length in front, however the length is written.
-/

set_option autoImplicit false

namespace FieldWire.LengthTag

theorem toNat_encode (count : Nat) (scheme : WireType) (fits : count < 2 ^ 62) :
    (encode count scheme).toNat = 4 * count + scheme.tag := by
  have low := scheme.tag_lt_four
  rw [encode, UInt64.toNat_ofNat', Nat.mod_eq_of_lt (by omega)]

@[simp]
theorem scheme_encode (count : Nat) (wireType : WireType) :
    scheme (encode count wireType) = wireType := by
  have low := wireType.tag_lt_four
  have word : (encode count wireType).toNat =
      4 * (count % 2 ^ 62) + wireType.tag := by
    rw [encode, UInt64.toNat_ofNat']
    omega
  rw [scheme, word, WireType.ofTag_add_tag]

theorem count_encode (number : Nat) (scheme : WireType) (fits : number < 2 ^ 62) :
    count (encode number scheme) = number := by
  have low := scheme.tag_lt_four
  rw [count, toNat_encode _ _ fits]
  omega

theorem count_lt (tag : UInt64) : count tag < 2 ^ 62 := by
  have bound := tag.toNat_lt
  rw [count]
  omega

theorem encode_count (tag : UInt64) : encode (count tag) (scheme tag) = tag := by
  apply UInt64.toNat_inj.mp
  rw [toNat_encode _ _ (count_lt tag), count, scheme, WireType.tag_ofTag]
  omega

theorem decode_eq_ok_iff (tag : UInt64) (expected : WireType) (number : Nat) :
    decode tag expected = .ok number ↔ scheme tag = expected ∧ count tag = number := by
  unfold decode
  split
  · rename_i same
    simp [same]
  · rename_i different
    simp [different]

theorem decode_encode (number : Nat) (scheme : WireType) (fits : number < 2 ^ 62) :
    decode (encode number scheme) scheme = .ok number :=
  (decode_eq_ok_iff _ _ _).mpr ⟨scheme_encode number scheme, count_encode number scheme fits⟩

/-! ## Sizes -/

theorem size_pos (count : Nat) (scheme : WireType) : 1 ≤ size count scheme :=
  Varint.size_pos _

theorem size_mono {lower upper : Nat} (scheme : WireType) (ordered : lower ≤ upper)
    (fits : upper < 2 ^ 62) : size lower scheme ≤ size upper scheme := by
  apply Varint.size_mono
  rw [toNat_encode _ _ fits, toNat_encode _ _ (by omega)]
  omega

theorem spanSize_strictMono {lower upper : Nat} (ordered : lower < upper)
    (fits : upper < 2 ^ 62) : spanSize lower < spanSize upper := by
  have tags := size_mono .list (Nat.le_of_lt ordered) fits
  rw [spanSize, spanSize]
  omega

theorem le_of_spanSize_le {lower upper : Nat} (spans : spanSize upper ≤ spanSize lower)
    (fits : upper < 2 ^ 62) : upper ≤ lower :=
  Nat.le_of_not_lt fun less => Nat.not_lt_of_le spans (spanSize_strictMono less fits)

theorem spanSize_mono {lower upper : Nat} (ordered : lower ≤ upper) (fits : upper < 2 ^ 62) :
    spanSize lower ≤ spanSize upper := by
  have tags := size_mono .list ordered fits
  rw [spanSize, spanSize]
  omega

/-! ## Envelopes -/

/-- The bytes are one span with its length tag in front, in whatever way the tag is written. -/
def IsEnvelope (bytes : Bytes) : Prop :=
  ∃ tag tagSize, Varint.decode bytes = .ok (some (tag, tagSize)) ∧ scheme tag = .list ∧
    bytes.length = tagSize + count tag

theorem isEnvelope_span (length : Nat) (body : Bytes) (fits : length < 2 ^ 62) :
    IsEnvelope (Varint.encode (span length) ++ body) ↔ body.length = length := by
  have decoded := Varint.decode_encode_append (span length) body
  have counted : count (span length) = length := count_encode length .list fits
  constructor
  · intro envelope
    obtain ⟨tag, tagSize, tagDecoded, listed, total⟩ := envelope
    rw [decoded] at tagDecoded
    simp only [Except.ok.injEq, Option.some.injEq, Prod.mk.injEq] at tagDecoded
    obtain ⟨rfl, rfl⟩ := tagDecoded
    rw [List.length_append, Varint.length_encode, counted] at total
    omega
  · intro whole
    refine ⟨span length, Varint.size (span length), decoded, scheme_encode length .list, ?_⟩
    rw [List.length_append, Varint.length_encode, counted, whole]

end FieldWire.LengthTag
