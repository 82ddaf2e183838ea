import PostgresProtobuf.PathTexts

/-! # Map keys

The keys of a map as values of its key type, their usual texts and what the compiler
makes of them. -/

namespace PostgresProtobuf

open Foundation

inductive KeyValue
  | integer (value : Int)
  | bool (value : Bool)
  | string (value : StdString)
  deriving DecidableEq

namespace KeyValue

def OfType : FieldType → KeyValue → Prop
  | .int32, integer value | .sint32, integer value | .sfixed32, integer value =>
      -2 ^ 31 ≤ value ∧ value < 2 ^ 31
  | .int64, integer value | .sint64, integer value | .sfixed64, integer value =>
      -2 ^ 63 ≤ value ∧ value < 2 ^ 63
  | .uint32, integer value | .fixed32, integer value => 0 ≤ value ∧ value < 2 ^ 32
  | .uint64, integer value | .fixed64, integer value => 0 ≤ value ∧ value < 2 ^ 64
  | .bool, bool _ | .string, string _ => True
  | _, _ => False

def text : KeyValue → StdString
  | integer value => signedToString value
  | bool value => if value then literal "true" else literal "false"
  | string value => value

def written (type : FieldType) (key : KeyValue) (value : FieldInfo.Value) :
    FieldInfo.Value :=
  match type, key with
  | .int32, integer number | .sfixed32, integer number
  | .uint32, integer number | .fixed32, integer number =>
      value.setUInt32 (UInt32.ofInt number)
  | .sint32, integer number => value.setUInt32 (UInt32.ofNat (zigZagEncode number))
  | .int64, integer number | .sfixed64, integer number
  | .uint64, integer number | .fixed64, integer number =>
      value.setUInt64 (UInt64.ofInt number)
  | .sint64, integer number => value.setUInt64 (UInt64.ofNat (zigZagEncode number))
  | .bool, bool holds => value.setUInt32 (if holds then 1 else 0)
  | .string, string contents => value.setSize contents.length
  | _, _ => value

def serialize (type : FieldType) (key : KeyValue) : WireValue :=
  match type, key with
  | .int32, integer number | .int64, integer number
  | .uint32, integer number | .uint64, integer number => .varint (UInt64.ofInt number)
  | .sint32, integer number | .sint64, integer number =>
      .varint (UInt64.ofNat (zigZagEncode number))
  | .fixed32, integer number | .sfixed32, integer number => .fixed32 (UInt32.ofInt number)
  | .fixed64, integer number | .sfixed64, integer number => .fixed64 (UInt64.ofInt number)
  | .bool, bool holds => .varint (if holds then 1 else 0)
  | _, string contents => .ofPayload contents
  | _, _ => .varint 0

def Negative : KeyValue → Prop
  | integer value => value < 0
  | _ => False

instance (key : KeyValue) : Decidable key.Negative := by
  cases key <;> unfold Negative <;> infer_instance

def contents : KeyValue → StdString
  | string value => value
  | _ => []

end KeyValue

theorem denotesInteger_signedToString (value : Int) :
    DenotesInteger (signedToString value) value := by
  unfold signedToString
  by_cases negative : value < 0
  · rw [if_pos negative]
    rcases unsignedToString_digits value.natAbs with ⟨digits, denotes⟩
    have all : (unsignedToString value.natAbs).takeWhile IsDecimalDigit =
        unsignedToString value.natAbs := List.takeWhile_eq_self_iff.mpr digits
    have nonempty := unsignedToString_ne_nil value.natAbs
    have blank : (literal "-" ++ unsignedToString value.natAbs).dropWhile IsBlank =
        45 :: unsignedToString value.natAbs := rfl
    have magnitude : -(value.natAbs : Int) = value := by omega
    rw [DenotesInteger, readInteger, blank]
    simp only [splitSign, all, List.isEmpty_eq_false_iff.mpr nonempty, denotes, magnitude,
      Bool.false_eq_true, if_false, if_true, Nat.sub_self, Nat.sub_zero]
  · rw [if_neg negative]
    have denotes := denotesInteger_unsignedToString value.natAbs
    rwa [Int.natAbs_of_nonneg (Int.not_lt.mp negative)] at denotes

theorem parseSigned_signedToString {value : Int} (range : -2 ^ 63 ≤ value ∧ value < 2 ^ 63) :
    parseSigned (signedToString value) = .ok value := by
  have read := stoll_of_denotes (denotesInteger_signedToString value)
  rw [if_pos range] at read
  simp [parseSigned, read]

theorem parseUnsigned_signedToString {value : Int} (range : 0 ≤ value ∧ value < 2 ^ 64) :
    parseUnsigned (signedToString value) = .ok value.toNat := by
  have read := stoull_of_denotes (denotesInteger_signedToString value)
  rw [if_pos (by omega), Int.emod_eq_of_lt range.1 range.2] at read
  simp [parseUnsigned, read]

theorem toInt_of_range {value : Int} (range : -2 ^ 31 ≤ value ∧ value < 2 ^ 31) :
    toInt value = value := by
  rw [toInt, Int.bmod_eq_of_le (by omega) (by omega)]

theorem ofNat_toNat_uint64 {value : Int} (nonnegative : 0 ≤ value) :
    UInt64.ofNat value.toNat = UInt64.ofInt value := by
  rw [← Int.toNat_of_nonneg nonnegative]
  apply UInt64.toNat_inj.mp
  simp [UInt64.ofInt]
  omega

theorem ofNat_toNat_uint32 {value : Int} (nonnegative : 0 ≤ value) :
    UInt32.ofNat value.toNat = UInt32.ofInt value := by
  rw [← Int.toNat_of_nonneg nonnegative]
  apply UInt32.toNat_inj.mp
  simp [UInt32.ofInt]
  omega

theorem parseNumericMapKey_text {type : FieldType} {key : KeyValue}
    (ofType : key.OfType type) (notString : type ≠ .string) (value : FieldInfo.Value) :
    parseNumericMapKey key.text type value = .ok (key.written type value) := by
  cases key with
  | string contents => cases type <;> first | exact absurd rfl notString | cases ofType
  | bool holds =>
      cases type with
      | bool => cases holds <;> rfl
      | _ => cases ofType
  | integer number =>
      have signed : -2 ^ 63 ≤ number ∧ number < 2 ^ 63 →
          parseSigned (KeyValue.integer number).text = .ok number :=
        parseSigned_signedToString
      have unsigned : 0 ≤ number ∧ number < 2 ^ 64 →
          parseUnsigned (KeyValue.integer number).text = .ok number.toNat :=
        parseUnsigned_signedToString
      have narrow : -2 ^ 31 ≤ number ∧ number < 2 ^ 31 → toInt number = number :=
        toInt_of_range
      cases type with
      | int64 | sfixed64 | sint64 =>
          simp only [parseNumericMapKey, signed ofType]
          rfl
      | int32 | sfixed32 | sint32 =>
          have wide : -2 ^ 63 ≤ number ∧ number < 2 ^ 63 := ⟨by have := ofType.1; omega,
            by have := ofType.2; omega⟩
          simp only [parseNumericMapKey, signed wide, Except.map, narrow ofType]
          rfl
      | uint64 | fixed64 =>
          simp only [parseNumericMapKey, unsigned ofType, Except.map,
            ofNat_toNat_uint64 ofType.1]
          rfl
      | uint32 | fixed32 =>
          have wide : 0 ≤ number ∧ number < 2 ^ 64 := ⟨ofType.1, by have := ofType.2; omega⟩
          simp only [parseNumericMapKey, unsigned wide, Except.map,
            ofNat_toNat_uint32 ofType.1]
          rfl
      | _ => cases ofType

theorem KeyValue.contents_eq_nil {type : FieldType} {key : KeyValue}
    (ofType : key.OfType type) (notString : type ≠ .string) : key.contents = [] := by
  cases key with
  | string contents => cases type <;> first | exact absurd rfl notString | cases ofType
  | bool holds => rfl
  | integer number => rfl

theorem parseMapKey_text {type : FieldType} {key : KeyValue} (ofType : key.OfType type)
    (bits : UInt64) :
    parseMapKey key.text type bits =
      .ok (⟨1, type.wireType, key.written type ⟨bits⟩⟩, key.contents) := by
  by_cases isString : type = .string
  · subst isString
    cases key with
    | string contents => rfl
    | bool holds => cases ofType
    | integer number => cases ofType
  · simp only [parseMapKey, if_neg isString, parseNumericMapKey_text ofType isString,
      Except.map, KeyValue.contents_eq_nil ofType isString]

theorem KeyValue.text_ne_star {type : FieldType} {key : KeyValue} (ofType : key.OfType type)
    (notStar : key ≠ .string star) : key.text ≠ star := by
  cases key with
  | integer value =>
      intro isStar
      have member : '*'.toUInt8 ∈ (integer value).text := by
        rw [isStar]
        decide
      exact (denotesInteger_signedToString value).not_mem
        (.inr (.inr (.inr (.inr (.inr rfl))))) member
  | bool value => cases value <;> decide
  | string value => exact fun isStar => notStar (congrArg KeyValue.string isStar)

theorem KeyValue.text_ne_nil {key : KeyValue} (nonempty : key ≠ .string []) :
    key.text ≠ [] := by
  cases key with
  | integer value => exact (denotesInteger_signedToString value).nonempty
  | bool value => cases value <;> decide
  | string value => exact fun isEmpty => nonempty (congrArg KeyValue.string isEmpty)

/-! ## Comparing keys -/

theorem toNat_ofInt_uint32 (value : Int) :
    ((UInt32.ofInt value).toNat : Int) = value % 2 ^ 32 := by
  simp [UInt32.ofInt]
  omega

theorem toNat_ofInt_uint64 (value : Int) :
    ((UInt64.ofInt value).toNat : Int) = value % 2 ^ 64 := by
  simp [UInt64.ofInt]
  omega

theorem zigZagEncode_lt {value : Int} {bound : Nat}
    (range : -bound ≤ value ∧ value < bound) : zigZagEncode value < 2 * bound := by
  unfold zigZagEncode
  split <;> omega

theorem zigZagEncode_eq_iff {value other : Int} :
    zigZagEncode value = zigZagEncode other ↔ value = other := by
  constructor
  · intro equal
    unfold zigZagEncode at equal
    split at equal <;> split at equal <;> omega
  · exact congrArg zigZagEncode

theorem valueEquals_varint_iff (number : UInt64) (wanted : FieldInfo.Value) :
    ((WireValue.varint number).header 0).valueEquals ⟨1, 0, wanted⟩ = true ↔
      number = wanted.asUInt64 := by
  simp [FieldInfo.valueEquals, WireValue.header, WireValue.wireType, WireValue.union]

theorem valueEquals_fixed64_iff (number : UInt64) (wanted : FieldInfo.Value) :
    ((WireValue.fixed64 number).header 0).valueEquals ⟨1, 1, wanted⟩ = true ↔
      number = wanted.asUInt64 := by
  simp [FieldInfo.valueEquals, WireValue.header, WireValue.wireType, WireValue.union]

theorem valueEquals_fixed32_iff (number : UInt32) (wanted : FieldInfo.Value) :
    ((WireValue.fixed32 number).header 0).valueEquals ⟨1, 5, wanted⟩ = true ↔
      number = wanted.asUInt32 := by
  simp [FieldInfo.valueEquals, WireValue.header, WireValue.wireType, WireValue.union]

theorem valueEquals_narrow_iff (number : UInt64) (written : UInt32) :
    ((WireValue.varint number).header 0).valueEquals
        ⟨1, 0, FieldInfo.Value.setUInt32 ⟨0⟩ written⟩ = true ↔
      number.toNat = written.toNat := by
  have whole : (FieldInfo.Value.setUInt32 ⟨0⟩ written).asUInt64.toNat = written.toNat := by
    rw [FieldInfo.Value.asUInt64, FieldInfo.Value.toNat_bits_setUInt32]
    exact Nat.zero_add _
  rw [valueEquals_varint_iff, ← UInt64.toNat_inj, whole]

theorem ofInt_uint64_eq_iff (number other : Int) :
    UInt64.ofInt number = UInt64.ofInt other ↔ number % 2 ^ 64 = other % 2 ^ 64 := by
  rw [← UInt64.toNat_inj, ← toNat_ofInt_uint64, ← toNat_ofInt_uint64, Int.natCast_inj]

theorem ofInt_uint32_eq_iff (number other : Int) :
    UInt32.ofInt number = UInt32.ofInt other ↔ number % 2 ^ 32 = other % 2 ^ 32 := by
  rw [← UInt32.toNat_inj, ← toNat_ofInt_uint32, ← toNat_ofInt_uint32, Int.natCast_inj]

theorem valueEquals_integer_iff {type : FieldType} {number other : Int}
    (ofType : (KeyValue.integer number).OfType type)
    (otherOfType : (KeyValue.integer other).OfType type) :
    (((KeyValue.integer other).serialize type).header 0).valueEquals
        ⟨1, type.wireType, (KeyValue.integer number).written type ⟨0⟩⟩ = true ↔
      number = other ∧ ¬ (type = .int32 ∧ number < 0) := by
  have narrow := toNat_ofInt_uint32 number
  have otherWide := toNat_ofInt_uint64 other
  cases type with
  | int32 | uint32 =>
      rcases ofType with ⟨low, high⟩
      rcases otherOfType with ⟨otherLow, otherHigh⟩
      apply (valueEquals_narrow_iff (UInt64.ofInt other) (UInt32.ofInt number)).trans
      simp only [true_and, reduceCtorEq, false_and, not_false_eq_true, and_true]
      omega
  | sint32 =>
      have encoded : zigZagEncode number < 2 * 2 ^ 31 := zigZagEncode_lt ofType
      have otherEncoded : zigZagEncode other < 2 * 2 ^ 31 := zigZagEncode_lt otherOfType
      apply (valueEquals_narrow_iff (UInt64.ofNat (zigZagEncode other))
        (UInt32.ofNat (zigZagEncode number))).trans
      rw [UInt64.toNat_ofNat', UInt32.toNat_ofNat', Nat.mod_eq_of_lt (by omega),
        Nat.mod_eq_of_lt (by omega), zigZagEncode_eq_iff]
      simp [eq_comm]
  | int64 | uint64 =>
      rcases ofType with ⟨low, high⟩
      rcases otherOfType with ⟨otherLow, otherHigh⟩
      apply (valueEquals_varint_iff (UInt64.ofInt other) ⟨UInt64.ofInt number⟩).trans
      apply (ofInt_uint64_eq_iff other number).trans
      simp only [reduceCtorEq, false_and, not_false_eq_true, and_true]
      omega
  | sint64 =>
      have encoded : zigZagEncode number < 2 * 2 ^ 63 := zigZagEncode_lt ofType
      have otherEncoded : zigZagEncode other < 2 * 2 ^ 63 := zigZagEncode_lt otherOfType
      apply (valueEquals_varint_iff (UInt64.ofNat (zigZagEncode other))
        ⟨UInt64.ofNat (zigZagEncode number)⟩).trans
      rw [FieldInfo.Value.asUInt64, ← UInt64.toNat_inj, UInt64.toNat_ofNat',
        UInt64.toNat_ofNat', Nat.mod_eq_of_lt (by omega), Nat.mod_eq_of_lt (by omega),
        zigZagEncode_eq_iff]
      simp [eq_comm]
  | fixed64 | sfixed64 =>
      rcases ofType with ⟨low, high⟩
      rcases otherOfType with ⟨otherLow, otherHigh⟩
      apply (valueEquals_fixed64_iff (UInt64.ofInt other) ⟨UInt64.ofInt number⟩).trans
      apply (ofInt_uint64_eq_iff other number).trans
      simp only [reduceCtorEq, false_and, not_false_eq_true, and_true]
      omega
  | fixed32 | sfixed32 =>
      rcases ofType with ⟨low, high⟩
      rcases otherOfType with ⟨otherLow, otherHigh⟩
      apply (valueEquals_fixed32_iff (UInt32.ofInt other)
        (FieldInfo.Value.setUInt32 ⟨0⟩ (UInt32.ofInt number))).trans
      rw [FieldInfo.Value.asUInt32_setUInt32, ofInt_uint32_eq_iff]
      simp only [reduceCtorEq, false_and, not_false_eq_true, and_true]
      omega
  | _ => cases ofType

/-- A wanted key is found in the entries with that key, unless its sign is lost. -/
theorem valueEquals_serialize_iff {type : FieldType} {key other : KeyValue}
    (ofType : key.OfType type) (otherOfType : other.OfType type) (notString : type ≠ .string) :
    ((other.serialize type).header 0).valueEquals
        ⟨1, type.wireType, key.written type ⟨0⟩⟩ = true ↔
      key = other ∧ ¬ (type = .int32 ∧ key.Negative) := by
  cases key with
  | string contents => cases type <;> first | exact absurd rfl notString | cases ofType
  | bool holds =>
      cases other with
      | string contents =>
          cases type <;> first | exact absurd rfl notString | cases otherOfType
      | bool otherHolds =>
          cases type with
          | bool => cases holds <;> cases otherHolds <;> decide
          | _ => cases ofType
      | integer number => cases type <;> first | exact ofType.elim | exact otherOfType.elim
  | integer number =>
      cases other with
      | string contents =>
          cases type <;> first | exact absurd rfl notString | cases otherOfType
      | bool holds => cases type <;> first | exact ofType.elim | exact otherOfType.elim
      | integer otherNumber =>
          rw [valueEquals_integer_iff ofType otherOfType, KeyValue.integer.injEq]
          rfl

end PostgresProtobuf
