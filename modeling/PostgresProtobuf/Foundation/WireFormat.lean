import PostgresProtobuf.Foundation.Reader

/-! # The protobuf wire format

One message level as a list of fields. Varints are base 128, at most ten bytes
long and reduced modulo 2 ^ 64; fixed-width values are little-endian; a
length-delimited field declares the size of its payload. -/

namespace PostgresProtobuf.Foundation

/-! ## Varints -/

/-- Base 128 groups, least significant first, within `limit` bytes. -/
def decodeGroups : (limit : Nat) → Bytes → Option (Nat × Bytes)
  | 0, _ => none
  | _ + 1, [] => none
  | limit + 1, byte :: bytes =>
      if byte.toNat < 128 then
        some (byte.toNat, bytes)
      else
        (decodeGroups limit bytes).map fun higher =>
          (byte.toNat - 128 + 128 * higher.1, higher.2)

def decodeVarint (bytes : Bytes) : Option (UInt64 × Bytes) :=
  (decodeGroups 10 bytes).map fun decoded => (UInt64.ofNat decoded.1, decoded.2)

def encodeGroups : (limit : Nat) → Nat → Bytes
  | 0, _ => []
  | limit + 1, value =>
      if value < 128 then
        [UInt8.ofNat value]
      else
        UInt8.ofNat (value % 128 + 128) :: encodeGroups limit (value / 128)

def encodeVarint (value : UInt64) : Bytes := encodeGroups 10 value.toNat

example : encodeVarint 300 = [0xAC, 0x02] := by decide

theorem decodeGroups_encodeGroups (rest : Bytes) :
    ∀ (limit value : Nat), value < 128 ^ limit → 0 < limit →
      decodeGroups limit (encodeGroups limit value ++ rest) = some (value, rest)
  | 0, _, _, positive => absurd positive (by omega)
  | limit + 1, value, bound, _ => by
      by_cases small : value < 128
      · have byte : (UInt8.ofNat value).toNat = value := by
          rw [UInt8.toNat_ofNat']
          omega
        simp [encodeGroups, decodeGroups, small, byte]
      · have byte : (UInt8.ofNat (value % 128 + 128)).toNat = value % 128 + 128 := by
          rw [UInt8.toNat_ofNat']
          omega
        have higherBound : value / 128 < 128 ^ limit := by
          rw [Nat.div_lt_iff_lt_mul (by omega)]
          simpa [Nat.pow_succ] using bound
        have limitPositive : 0 < limit := by
          rcases Nat.eq_zero_or_pos limit with zero | positive
          · subst zero
            simp only [Nat.zero_add, Nat.pow_one] at bound
            omega
          · exact positive
        have higher :=
          decodeGroups_encodeGroups rest limit (value / 128) higherBound limitPositive
        have continues : ¬ (value % 128 + 128 < 128) := by omega
        simp only [encodeGroups, if_neg small, List.cons_append, decodeGroups, byte,
          if_neg continues, higher, Option.map_some, Option.some.injEq, Prod.mk.injEq,
          and_true]
        omega

@[simp] theorem decodeVarint_encodeVarint (value : UInt64) (rest : Bytes) :
    decodeVarint (encodeVarint value ++ rest) = some (value, rest) := by
  have bound : value.toNat < 128 ^ 10 :=
    Nat.lt_of_lt_of_le value.toNat_lt (by decide)
  simp [decodeVarint, encodeVarint,
    decodeGroups_encodeGroups rest 10 value.toNat bound (by decide)]

theorem decodeGroups_eq_some {limit : Nat} {bytes rest : Bytes} {value : Nat}
    (decoded : decodeGroups limit bytes = some (value, rest)) :
    ∃ taken, taken ≠ [] ∧ bytes = taken ++ rest ∧
      ∀ other, decodeGroups limit (taken ++ other) = some (value, other) := by
  induction limit generalizing bytes value with
  | zero => simp [decodeGroups] at decoded
  | succ limit induction =>
      cases bytes with
      | nil => simp [decodeGroups] at decoded
      | cons byte bytes =>
          by_cases last : byte.toNat < 128
          · simp only [decodeGroups, if_pos last, Option.some.injEq,
              Prod.mk.injEq] at decoded
            rcases decoded with ⟨rfl, rfl⟩
            exact ⟨[byte], by simp, rfl, fun other => by simp [decodeGroups, last]⟩
          · simp only [decodeGroups, if_neg last, Option.map_eq_some_iff,
              Prod.mk.injEq] at decoded
            rcases decoded with ⟨⟨higher, left⟩, decodedHigher, rfl, rfl⟩
            rcases induction decodedHigher with ⟨taken, _, rfl, again⟩
            refine ⟨byte :: taken, by simp, rfl, fun other => ?_⟩
            simp [decodeGroups, last, again other]

theorem decodeVarint_eq_some {bytes rest : Bytes} {value : UInt64}
    (decoded : decodeVarint bytes = some (value, rest)) :
    ∃ taken, taken ≠ [] ∧ bytes = taken ++ rest ∧
      ∀ other, decodeVarint (taken ++ other) = some (value, other) := by
  simp only [decodeVarint, Option.map_eq_some_iff, Prod.mk.injEq] at decoded
  rcases decoded with ⟨⟨number, left⟩, groups, rfl, rfl⟩
  rcases decodeGroups_eq_some groups with ⟨taken, nonempty, rfl, again⟩
  exact ⟨taken, nonempty, rfl, fun other => by simp [decodeVarint, again other]⟩

/-! ## Fixed-width values -/

def littleEndian : Bytes → Nat
  | [] => 0
  | byte :: bytes => byte.toNat + 256 * littleEndian bytes

def decodeFixed (width : Nat) (bytes : Bytes) : Option (Nat × Bytes) :=
  if width ≤ bytes.length then
    some (littleEndian (bytes.take width), bytes.drop width)
  else
    none

def encodeFixed : (width : Nat) → Nat → Bytes
  | 0, _ => []
  | width + 1, value => UInt8.ofNat (value % 256) :: encodeFixed width (value / 256)

@[simp] theorem encodeFixed_length : ∀ (width value : Nat),
    (encodeFixed width value).length = width
  | 0, _ => rfl
  | width + 1, value => by simp [encodeFixed, encodeFixed_length width]

theorem littleEndian_encodeFixed : ∀ (width value : Nat), value < 256 ^ width →
    littleEndian (encodeFixed width value) = value
  | 0, value, bound => by
      simp only [Nat.pow_zero] at bound
      simp only [encodeFixed, littleEndian]
      omega
  | width + 1, value, bound => by
      have higher : value / 256 < 256 ^ width := by
        rw [Nat.div_lt_iff_lt_mul (by omega)]
        simpa [Nat.pow_succ] using bound
      have byte : (UInt8.ofNat (value % 256)).toNat = value % 256 := by
        rw [UInt8.toNat_ofNat']
        omega
      simp only [encodeFixed, littleEndian, byte,
        littleEndian_encodeFixed width _ higher]
      omega

theorem decodeFixed_encodeFixed {width value : Nat} (rest : Bytes)
    (bound : value < 256 ^ width) :
    decodeFixed width (encodeFixed width value ++ rest) = some (value, rest) := by
  simp [decodeFixed, littleEndian_encodeFixed width value bound]

theorem decodeFixed_eq_some {width value : Nat} {bytes rest : Bytes}
    (decoded : decodeFixed width bytes = some (value, rest)) :
    ∃ taken, taken.length = width ∧ bytes = taken ++ rest ∧
      ∀ other, decodeFixed width (taken ++ other) = some (value, other) := by
  by_cases enough : width ≤ bytes.length
  · simp only [decodeFixed, if_pos enough, Option.some.injEq, Prod.mk.injEq] at decoded
    rcases decoded with ⟨rfl, rfl⟩
    have takenLength : (bytes.take width).length = width :=
      List.length_take_of_le enough
    refine ⟨bytes.take width, takenLength,
      (List.take_append_drop width bytes).symm, fun other => ?_⟩
    simp [decodeFixed, takenLength]
  · simp [decodeFixed, enough] at decoded

/-! ## Fields -/

/-- The value of a field as it stands on the wire. The payload of a
length-delimited value is what is left of its message where the declared size
runs past the end. -/
inductive WireValue
  | varint (value : UInt64)
  | fixed64 (value : UInt64)
  | lengthDelimited (size : Nat) (payload : Bytes)
  | fixed32 (value : UInt32)
  deriving DecidableEq, Repr

namespace WireValue

def wireType : WireValue → Nat
  | varint _ => 0
  | fixed64 _ => 1
  | lengthDelimited _ _ => 2
  | fixed32 _ => 5

def payload : WireValue → Bytes
  | lengthDelimited _ payload => payload
  | _ => []

theorem payload_eq_nil {value : WireValue} (notLengthDelimited : value.wireType ≠ 2) :
    value.payload = [] := by
  cases value with
  | lengthDelimited size payload => exact absurd rfl notLengthDelimited
  | _ => rfl

def ofPayload (payload : Bytes) : WireValue :=
  lengthDelimited payload.length payload

def Fits : WireValue → Prop
  | lengthDelimited size payload => payload.length = size
  | _ => True

def Sized : WireValue → Prop
  | lengthDelimited size _ => size < 2 ^ 31
  | _ => True

instance (value : WireValue) : Decidable value.Fits := by
  cases value <;> unfold Fits <;> infer_instance

end WireValue

structure WireField where
  number : Nat
  value : WireValue
  deriving DecidableEq, Repr

inductive FramingFault
  | tag
  | varint
  | fixed64
  | size
  | fixed32
  | wireType (wireType : Nat)
  deriving DecidableEq, Repr

/-- Sizes are varints that fit a signed 32-bit integer. -/
def decodeSize (bytes : Bytes) : Option (Nat × Bytes) :=
  match decodeVarint bytes with
  | some (value, rest) =>
      if value.toNat < 2 ^ 31 then some (value.toNat, rest) else none
  | none => none

/-- Tags are varints truncated to 32 bits; zero is no tag. -/
def decodeTag (bytes : Bytes) : Option (Nat × Bytes) :=
  match decodeVarint bytes with
  | some (value, rest) =>
      if value.toNat % 2 ^ 32 = 0 then none
      else some (value.toNat % 2 ^ 32, rest)
  | none => none

def readValue (wireType : Nat) : Reader FramingFault WireValue := fun bytes =>
  match wireType with
  | 0 =>
      match decodeVarint bytes with
      | some (value, rest) => .ok (.varint value, rest)
      | none => .error .varint
  | 1 =>
      match decodeFixed 8 bytes with
      | some (value, rest) => .ok (.fixed64 (UInt64.ofNat value), rest)
      | none => .error .fixed64
  | 2 =>
      match decodeSize bytes with
      | some (size, rest) =>
          .ok (.lengthDelimited size (rest.take size), rest.drop size)
      | none => .error .size
  | 5 =>
      match decodeFixed 4 bytes with
      | some (value, rest) => .ok (.fixed32 (UInt32.ofNat value), rest)
      | none => .error .fixed32
  | other => .error (.wireType other)

def readField : Reader FramingFault WireField := fun bytes =>
  match decodeTag bytes with
  | some (tag, rest) =>
      match readValue (tag % 8) rest with
      | .ok (value, rest) => .ok (⟨tag / 8, value⟩, rest)
      | .error fault => .error fault
  | none => .error .tag

def readFields (bytes : Bytes) : List WireField × Option FramingFault :=
  readField.readAll bytes

def readElements (wireType : Nat) (bytes : Bytes) :
    List WireValue × Option FramingFault :=
  (readValue wireType).readAll bytes

/-- Every tag and value of the level is complete and of a known wire type, and
every payload fits. -/
def WellFramed (bytes : Bytes) : Prop :=
  (readFields bytes).2 = none ∧ ∀ field ∈ (readFields bytes).1, field.value.Fits

instance (bytes : Bytes) : Decidable (WellFramed bytes) := by
  unfold WellFramed
  infer_instance

theorem decodeSize_eq_some {bytes rest : Bytes} {size : Nat}
    (decoded : decodeSize bytes = some (size, rest)) :
    size < 2 ^ 31 ∧ ∃ taken, taken ≠ [] ∧ bytes = taken ++ rest ∧
      ∀ other, decodeSize (taken ++ other) = some (size, other) := by
  unfold decodeSize at decoded
  split at decoded
  · rename_i value left step
    split at decoded
    · rename_i bound
      simp only [Option.some.injEq, Prod.mk.injEq] at decoded
      rcases decoded with ⟨rfl, rfl⟩
      rcases decodeVarint_eq_some step with ⟨taken, nonempty, rfl, again⟩
      exact ⟨bound, taken, nonempty, rfl, fun other => by
        simp only [decodeSize, again other, if_pos bound]⟩
    · simp at decoded
  · simp at decoded

theorem decodeTag_eq_some {bytes rest : Bytes} {tag : Nat}
    (decoded : decodeTag bytes = some (tag, rest)) :
    tag ≠ 0 ∧ tag < 2 ^ 32 ∧ ∃ taken, taken ≠ [] ∧ bytes = taken ++ rest ∧
      ∀ other, decodeTag (taken ++ other) = some (tag, other) := by
  unfold decodeTag at decoded
  split at decoded
  · rename_i value left step
    split at decoded
    · simp at decoded
    · rename_i nonzero
      simp only [Option.some.injEq, Prod.mk.injEq] at decoded
      rcases decoded with ⟨rfl, rfl⟩
      rcases decodeVarint_eq_some step with ⟨taken, nonempty, rfl, again⟩
      exact ⟨nonzero, Nat.mod_lt _ (by decide), taken, nonempty, rfl, fun other => by
        simp only [decodeTag, again other, if_neg nonzero]⟩
  · simp at decoded

theorem readValue_eq_ok {wireType : Nat} {bytes rest : Bytes} {value : WireValue}
    (step : readValue wireType bytes = .ok (value, rest)) :
    value.wireType = wireType ∧ rest.length < bytes.length ∧
      (value.Fits → ∃ taken, taken ≠ [] ∧ bytes = taken ++ rest ∧
        (readValue wireType).Takes taken value) := by
  unfold readValue at step
  split at step
  · split at step
    · rename_i number left decoded
      simp only [Except.ok.injEq, Prod.mk.injEq] at step
      rcases step with ⟨rfl, rfl⟩
      rcases decodeVarint_eq_some decoded with ⟨taken, nonempty, rfl, again⟩
      refine ⟨rfl, ?_, fun _ => ⟨taken, nonempty, rfl, fun other => ?_⟩⟩
      · simpa using List.length_pos_iff.mpr nonempty
      · simp [readValue, again other]
    · simp at step
  · split at step
    · rename_i number left decoded
      simp only [Except.ok.injEq, Prod.mk.injEq] at step
      rcases step with ⟨rfl, rfl⟩
      rcases decodeFixed_eq_some decoded with ⟨taken, width, rfl, again⟩
      have nonempty : taken ≠ [] := by
        rintro rfl
        simp at width
      refine ⟨rfl, ?_, fun _ => ⟨taken, nonempty, rfl, fun other => ?_⟩⟩
      · simpa using List.length_pos_iff.mpr nonempty
      · simp [readValue, again other]
    · simp at step
  · split at step
    · rename_i size left decoded
      simp only [Except.ok.injEq, Prod.mk.injEq] at step
      rcases step with ⟨rfl, rfl⟩
      rcases decodeSize_eq_some decoded with ⟨_, taken, nonempty, rfl, again⟩
      have positive := List.length_pos_iff.mpr nonempty
      refine ⟨rfl, ?_, fun fits => ⟨taken ++ left.take size, by simp [nonempty], ?_, ?_⟩⟩
      · simp only [List.length_drop, List.length_append]
        omega
      · simp
      · intro other
        simp only [WireValue.Fits] at fits
        have exact : (left.take size).length = size := fits
        simp only [readValue, List.append_assoc, again]
        rw [List.take_append_of_le_length (by omega),
          List.take_of_length_le (by omega), List.drop_append_of_le_length (by omega),
          List.drop_of_length_le (by omega)]
        rfl
    · simp at step
  · split at step
    · rename_i number left decoded
      simp only [Except.ok.injEq, Prod.mk.injEq] at step
      rcases step with ⟨rfl, rfl⟩
      rcases decodeFixed_eq_some decoded with ⟨taken, width, rfl, again⟩
      have nonempty : taken ≠ [] := by
        rintro rfl
        simp at width
      refine ⟨rfl, ?_, fun _ => ⟨taken, nonempty, rfl, fun other => ?_⟩⟩
      · simpa using List.length_pos_iff.mpr nonempty
      · simp [readValue, again other]
    · simp at step
  · simp at step

theorem readValue_shrinks (wireType : Nat) : (readValue wireType).Shrinks :=
  fun _ _ _ step => (readValue_eq_ok step).2.1

theorem readValue_sized {wireType : Nat} {bytes rest : Bytes} {value : WireValue}
    (step : readValue wireType bytes = .ok (value, rest)) : value.Sized := by
  have isType := (readValue_eq_ok step).1
  cases value with
  | lengthDelimited size payload =>
      simp only [WireValue.wireType] at isType
      subst isType
      simp only [readValue] at step
      split at step
      · rename_i other left decoded
        simp only [Except.ok.injEq, Prod.mk.injEq, WireValue.lengthDelimited.injEq] at step
        rcases step with ⟨⟨rfl, _⟩, _⟩
        exact (decodeSize_eq_some decoded).1
      · simp at step
  | _ => trivial

theorem readField_eq_ok {bytes rest : Bytes} {field : WireField}
    (step : readField bytes = .ok (field, rest)) :
    field.number < 2 ^ 29 ∧ rest.length < bytes.length ∧
      (field.value.Fits → ∃ taken, taken ≠ [] ∧ bytes = taken ++ rest ∧
        readField.Takes taken field) := by
  unfold readField at step
  split at step
  · rename_i tag left decoded
    split at step
    · rename_i value after read
      simp only [Except.ok.injEq, Prod.mk.injEq] at step
      rcases step with ⟨rfl, rfl⟩
      rcases decodeTag_eq_some decoded with ⟨_, bound, head, nonempty, rfl, again⟩
      rcases readValue_eq_ok read with ⟨_, smaller, takes⟩
      have positive := List.length_pos_iff.mpr nonempty
      refine ⟨?_, ?_, fun fits => ?_⟩
      · simp only
        omega
      · simp only [List.length_append]
        omega
      · rcases takes fits with ⟨taken, _, rfl, takesValue⟩
        refine ⟨head ++ taken, by simp [nonempty], by simp, fun other => ?_⟩
        simp [readField, List.append_assoc, again, takesValue other]
    · simp at step
  · simp at step

theorem readField_shrinks : readField.Shrinks :=
  fun _ _ _ step => (readField_eq_ok step).2.1

theorem readFields_sized (bytes : Bytes) :
    ∀ field ∈ (readFields bytes).1, field.value.Sized := by
  refine Reader.forall_mem_readAll readField_shrinks ?_ bytes
  intro bytes field rest step
  unfold readField at step
  split at step
  · split at step
    · rename_i value after read
      simp only [Except.ok.injEq, Prod.mk.injEq] at step
      rcases step with ⟨rfl, rfl⟩
      exact readValue_sized read
    · simp at step
  · simp at step

theorem readElements_sized (wireType : Nat) (bytes : Bytes) :
    ∀ value ∈ (readElements wireType bytes).1, value.Sized :=
  Reader.forall_mem_readAll (readValue_shrinks wireType)
    (fun _ _ _ step => readValue_sized step) bytes

def WireValue.width : WireValue → Nat
  | .lengthDelimited _ payload => payload.length
  | _ => 1

theorem readValue_width {wireType : Nat} {bytes rest : Bytes} {value : WireValue}
    (step : readValue wireType bytes = .ok (value, rest)) :
    value.width + rest.length ≤ bytes.length := by
  have smaller := (readValue_eq_ok step).2.1
  cases value with
  | lengthDelimited size payload =>
      have isType := (readValue_eq_ok step).1
      simp only [WireValue.wireType] at isType
      subst isType
      simp only [readValue] at step
      split at step
      · rename_i other left decoded
        simp only [Except.ok.injEq, Prod.mk.injEq, WireValue.lengthDelimited.injEq] at step
        rcases step with ⟨⟨rfl, rfl⟩, rfl⟩
        rcases decodeSize_eq_some decoded with ⟨_, taken, _, rfl, _⟩
        simp only [WireValue.width, List.length_take, List.length_drop, List.length_append]
        omega
      · simp at step
  | _ =>
      simp only [WireValue.width]
      omega

theorem readFields_width (bytes : Bytes) :
    ((readFields bytes).1.map fun field => field.value.width).sum ≤ bytes.length := by
  refine Reader.sum_readAll_le readField_shrinks ?_ bytes
  intro bytes field rest step
  unfold readField at step
  split at step
  · rename_i tag left decoded
    rcases decodeTag_eq_some decoded with ⟨_, _, taken, _, rfl, _⟩
    split at step
    · rename_i value after read
      simp only [Except.ok.injEq, Prod.mk.injEq] at step
      rcases step with ⟨rfl, rfl⟩
      have width := readValue_width read
      simp only [List.length_append]
      omega
    · simp at step
  · simp at step

theorem readElements_length (wireType : Nat) (bytes : Bytes) :
    (readElements wireType bytes).1.length ≤ bytes.length := by
  have counted : ∀ values : List WireValue, (values.map fun _ => 1).sum = values.length := by
    intro values
    induction values with
    | nil => rfl
    | cons value values induction =>
        rw [List.map_cons, List.sum_cons, induction, List.length_cons, Nat.add_comm]
  rw [← counted]
  refine Reader.sum_readAll_le (readValue_shrinks wireType) ?_ bytes
  intro bytes item rest step
  have smaller := readValue_shrinks wireType bytes item rest step
  omega

@[simp] theorem readFields_nil : readFields [] = ([], none) := rfl

theorem readFields_of_ok {bytes rest : Bytes} {field : WireField}
    (step : readField bytes = .ok (field, rest)) :
    readFields bytes = (field :: (readFields rest).1, (readFields rest).2) :=
  Reader.readAll_of_ok readField_shrinks step

theorem readFields_of_error {bytes : Bytes} {fault : FramingFault}
    (nonempty : bytes ≠ []) (step : readField bytes = .error fault) :
    readFields bytes = ([], some fault) :=
  Reader.readAll_of_error nonempty step

theorem readFields_append {bytes : Bytes} (framed : WellFramed bytes)
    (rest : Bytes) :
    readFields (bytes ++ rest) =
      ((readFields bytes).1 ++ (readFields rest).1, (readFields rest).2) := by
  rcases empty : bytes with _ | ⟨byte, tail⟩
  · simp
  · rw [← empty]
    have nonempty : bytes ≠ [] := by simp [empty]
    cases step : readField bytes with
    | error fault =>
        have read := readFields_of_error nonempty step
        simp [WellFramed, read] at framed
    | ok pair =>
        rcases pair with ⟨field, left⟩
        have read := readFields_of_ok step
        rcases readField_eq_ok step with ⟨_, smaller, takes⟩
        have fits : field.value.Fits := framed.2 field (by simp [read])
        rcases takes fits with ⟨taken, _, split, takesField⟩
        have leftFramed : WellFramed left := by
          refine ⟨by simpa [WellFramed, read] using framed.1, fun other member => ?_⟩
          exact framed.2 other (by simp [read, member])
        have induction := readFields_append leftFramed rest
        have step' : readField (bytes ++ rest) = .ok (field, left ++ rest) := by
          rw [split, List.append_assoc]
          exact takesField (left ++ rest)
        rw [readFields_of_ok step', induction, read]
        rfl
termination_by bytes.length

theorem readFields_filter {bytes : Bytes} (framed : WellFramed bytes)
    (keep : WireField → Bool) :
    ∃ kept, kept.length ≤ bytes.length ∧
      readFields kept = ((readFields bytes).1.filter keep, none) := by
  rcases empty : bytes with _ | ⟨byte, tail⟩
  · exact ⟨[], Nat.le_refl _, rfl⟩
  · rw [← empty]
    have nonempty : bytes ≠ [] := by simp [empty]
    cases step : readField bytes with
    | error fault =>
        have read := readFields_of_error nonempty step
        simp [WellFramed, read] at framed
    | ok pair =>
        rcases pair with ⟨field, left⟩
        have read := readFields_of_ok step
        rcases readField_eq_ok step with ⟨_, smaller, takes⟩
        have fits : field.value.Fits := framed.2 field (by simp [read])
        rcases takes fits with ⟨taken, _, split, takesField⟩
        have leftFramed : WellFramed left := by
          refine ⟨by simpa [WellFramed, read] using framed.1, fun other member => ?_⟩
          exact framed.2 other (by simp [read, member])
        rcases readFields_filter leftFramed keep with ⟨kept, shorter, readKept⟩
        have lengths := congrArg List.length split
        rw [List.length_append] at lengths
        by_cases isKept : keep field = true
        · refine ⟨taken ++ kept, ?_, ?_⟩
          · rw [List.length_append]
            omega
          · rw [readFields_of_ok (takesField kept), readKept, read, List.filter_cons_of_pos isKept]
        · refine ⟨kept, by omega, ?_⟩
          rw [readKept, read, List.filter_cons_of_neg isKept]
termination_by bytes.length

end PostgresProtobuf.Foundation
