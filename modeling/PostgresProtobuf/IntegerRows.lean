import PostgresProtobuf.NumericKeys
import PostgresProtobuf.RepeatedScalars

/-! # Rows of integers

The text that is emitted for an integer or a bool, however it comes to the emitter. -/

namespace PostgresProtobuf

open Foundation

variable {Message : Type}

/-! ## Decoding -/

def FieldType.Integral (type : FieldType) : Prop := type.MapKey ∧ type ≠ .string

theorem FieldType.Integral.packable {type : FieldType} (integral : type.Integral) :
    type.Packable := by
  cases type <;> first
    | exact integral.1.elim
    | exact absurd rfl integral.2
    | decide

theorem FieldType.Integral.ne_enum {type : FieldType} (integral : type.Integral) :
    type ≠ .enum := by
  intro isEnum
  exact (isEnum ▸ integral).1

/-- The value that a protobuf decoder reads into a field of the type: a varint that does
not fit is truncated. -/
def KeyValue.decode (type : FieldType) (value : WireValue) : KeyValue :=
  match type, value with
  | .int32, .varint number => integer ((number.toNat : Int).bmod (2 ^ 32))
  | .int64, .varint number => integer ((number.toNat : Int).bmod (2 ^ 64))
  | .uint32, .varint number => integer (number.toNat % 2 ^ 32 : Nat)
  | .uint64, .varint number => integer number.toNat
  | .sint32, .varint number => integer (zigZagDecode (number.toNat % 2 ^ 32))
  | .sint64, .varint number => integer (zigZagDecode number.toNat)
  | .bool, .varint number => bool (number ≠ 0)
  | .fixed32, .fixed32 number => integer number.toNat
  | .sfixed32, .fixed32 number => integer ((number.toNat : Int).bmod (2 ^ 32))
  | .fixed64, .fixed64 number => integer number.toNat
  | .sfixed64, .fixed64 number => integer ((number.toNat : Int).bmod (2 ^ 64))
  | _, _ => integer 0

theorem zigZagDecode_zigZagEncode (value : Int) :
    zigZagDecode (zigZagEncode value) = value := by
  unfold zigZagEncode zigZagDecode
  split <;> split <;> omega

theorem zigZagDecode_range {encoded bound : Nat} (small : encoded < 2 * bound) :
    -bound ≤ zigZagDecode encoded ∧ zigZagDecode encoded < bound := by
  unfold zigZagDecode
  split <;> omega

theorem bmod_32_of_emod {value written : Int} (range : -2 ^ 31 ≤ value ∧ value < 2 ^ 31)
    (congruent : written % 2 ^ 32 = value % 2 ^ 32) : written.bmod (2 ^ 32) = value := by
  rw [Int.bmod_def]
  split <;> omega

theorem bmod_64_of_emod {value written : Int} (range : -2 ^ 63 ≤ value ∧ value < 2 ^ 63)
    (congruent : written % 2 ^ 64 = value % 2 ^ 64) : written.bmod (2 ^ 64) = value := by
  rw [Int.bmod_def]
  split <;> omega

namespace KeyValue

theorem decode_serialize {type : FieldType} {key : KeyValue} (ofType : key.OfType type)
    (integral : type.Integral) : decode type (key.serialize type) = key := by
  cases key with
  | string contents => cases type <;> first | exact absurd rfl integral.2 | cases ofType
  | bool holds =>
      cases type with
      | bool => cases holds <;> rfl
      | _ => cases ofType
  | integer number =>
      have narrow := toNat_ofInt_uint32 number
      have wide := toNat_ofInt_uint64 number
      cases type with
      | int32 => exact congrArg integer (bmod_32_of_emod ofType (by omega))
      | sfixed32 => exact congrArg integer (bmod_32_of_emod ofType (by omega))
      | int64 | sfixed64 => exact congrArg integer (bmod_64_of_emod ofType (by omega))
      | uint32 =>
          rcases ofType with ⟨low, high⟩
          have same : ((UInt64.ofInt number).toNat % 2 ^ 32 : Nat) = number := by omega
          exact congrArg integer same
      | fixed32 =>
          rcases ofType with ⟨low, high⟩
          have same : ((UInt32.ofInt number).toNat : Int) = number := by omega
          exact congrArg integer same
      | uint64 | fixed64 =>
          rcases ofType with ⟨low, high⟩
          have same : ((UInt64.ofInt number).toNat : Int) = number := by omega
          exact congrArg integer same
      | sint32 =>
          have encoded : zigZagEncode number < 2 * 2 ^ 31 := zigZagEncode_lt ofType
          have same : (UInt64.ofNat (zigZagEncode number)).toNat % 2 ^ 32 =
              zigZagEncode number := by
            rw [UInt64.toNat_ofNat']
            omega
          rw [serialize, decode, same, zigZagDecode_zigZagEncode]
      | sint64 =>
          have encoded : zigZagEncode number < 2 * 2 ^ 63 := zigZagEncode_lt ofType
          have same : (UInt64.ofNat (zigZagEncode number)).toNat = zigZagEncode number := by
            rw [UInt64.toNat_ofNat']
            omega
          rw [serialize, decode, same, zigZagDecode_zigZagEncode]
      | _ => cases ofType

theorem bmod_32_range (written : Int) :
    -2 ^ 31 ≤ written.bmod (2 ^ 32) ∧ written.bmod (2 ^ 32) < 2 ^ 31 := by
  rw [Int.bmod_def]
  split <;> omega

theorem bmod_64_range (written : Int) :
    -2 ^ 63 ≤ written.bmod (2 ^ 64) ∧ written.bmod (2 ^ 64) < 2 ^ 63 := by
  rw [Int.bmod_def]
  split <;> omega

theorem decode_ofType {type : FieldType} (integral : type.Integral) {value : WireValue}
    (sameType : value.wireType = type.wireType) : (decode type value).OfType type := by
  cases value with
  | varint number =>
      have bound := number.toNat_lt
      cases type with
      | int32 => exact bmod_32_range number.toNat
      | int64 => exact bmod_64_range number.toNat
      | uint32 | uint64 => simp only [decode, OfType]; omega
      | sint32 =>
          have small : number.toNat % 2 ^ 32 < 2 * 2 ^ 31 := by omega
          exact zigZagDecode_range small
      | sint64 =>
          have small : number.toNat < 2 * 2 ^ 63 := bound
          exact zigZagDecode_range small
      | bool => exact trivial
      | enum => exact integral.1.elim
      | _ => cases sameType
  | fixed32 number =>
      have bound := number.toNat_lt
      cases type with
      | fixed32 => simp only [decode, OfType]; omega
      | sfixed32 => exact bmod_32_range number.toNat
      | float => exact integral.1.elim
      | _ => cases sameType
  | fixed64 number =>
      have bound := number.toNat_lt
      cases type with
      | fixed64 => simp only [decode, OfType]; omega
      | sfixed64 => exact bmod_64_range number.toNat
      | double => exact integral.1.elim
      | _ => cases sameType
  | lengthDelimited size payload => exact absurd sameType.symm (integral.1.wireType_ne integral.2)

end KeyValue

theorem text_natCast (value : Nat) :
    (KeyValue.integer value).text = unsignedToString value := by
  rw [KeyValue.text, signedToString, if_neg (by omega), Int.natAbs_natCast]

theorem primitiveRow_integral {type : FieldType} (integral : type.Integral)
    {value : WireValue} (sameType : value.wireType = type.wireType) (utils : PostgresUtils) :
    EmitterKind.primitiveRow utils type (value.union 0) =
      .ok (KeyValue.decode type value).text := by
  cases value with
  | varint number =>
      have low : number.toUInt32.toBitVec.toNat = number.toNat % 2 ^ 32 :=
        UInt64.toNat_toUInt32 number
      cases type with
      | int32 =>
          simp only [EmitterKind.primitiveRow, WireValue.union, FieldInfo.Value.asUInt32,
            FieldInfo.Value.setUInt64, KeyValue.decode, KeyValue.text,
            BitVec.toInt_eq_toNat_bmod, low, Int.natCast_emod]
          exact congrArg (Except.ok ∘ signedToString) (Int.emod_bmod _ (2 ^ 32))
      | int64 =>
          simp only [EmitterKind.primitiveRow, BitVec.toInt_eq_toNat_bmod]
          rfl
      | uint32 =>
          rw [KeyValue.decode, text_natCast, ← low]
          rfl
      | uint64 =>
          rw [KeyValue.decode, text_natCast]
          rfl
      | sint32 =>
          rw [KeyValue.decode, ← low]
          rfl
      | sint64 => rfl
      | bool =>
          by_cases zero : number = 0
          · subst zero
            rfl
          · simp [EmitterKind.primitiveRow, KeyValue.decode, KeyValue.text, zero,
              WireValue.union, FieldInfo.Value.setUInt64, FieldInfo.Value.asUInt64]
      | enum => exact integral.1.elim
      | _ => cases sameType
  | fixed32 number =>
      cases type with
      | fixed32 =>
          rw [KeyValue.decode, text_natCast]
          simp only [EmitterKind.primitiveRow, WireValue.union, FieldInfo.Value.asUInt32_setUInt32]
      | sfixed32 =>
          simp only [EmitterKind.primitiveRow, WireValue.union,
            FieldInfo.Value.asUInt32_setUInt32, BitVec.toInt_eq_toNat_bmod]
          rfl
      | float => exact integral.1.elim
      | _ => cases sameType
  | fixed64 number =>
      cases type with
      | fixed64 =>
          rw [KeyValue.decode, text_natCast]
          rfl
      | sfixed64 =>
          simp only [EmitterKind.primitiveRow, BitVec.toInt_eq_toNat_bmod]
          rfl
      | double => exact integral.1.elim
      | _ => cases sameType
  | lengthDelimited size payload =>
      exact absurd sameType.symm (integral.1.wireType_ne integral.2)

/-! ## What paths select -/

theorem Conforms.select {step : Step} {steps : List Step} {depth : Nat} {value : WireValue}
    (conforms : Conforms (step :: steps) depth value) :
    ∀ selected ∈ step.select value.payload,
      selected.wireType = step.type.wireType ∧ ∃ below, Conforms steps below selected := by
  intro selected member
  cases depth with
  | zero => exact conforms.elim
  | succ depth =>
      cases step with
      | occurrences number type index =>
          rcases conforms with ⟨_, sameType, below⟩
          rw [Step.select_occurrences] at member
          refine ⟨sameType selected (mem_of_mem_pick member), depth, below selected ?_⟩
          rwa [Step.select_occurrences]
      | entries number wantKeys type =>
          rcases List.mem_flatMap.mp member with ⟨entry, isEntry, isWanted⟩
          rcases (conforms.2.2 entry isEntry).2 selected isWanted with ⟨sameType, below⟩
          exact ⟨sameType, depth - 1, below⟩
      | entry number key type =>
          rcases List.mem_flatMap.mp member with ⟨entry, isEntry, isWanted⟩
          rcases List.mem_filter.mp isEntry with ⟨isOccurrence, hasKey⟩
          rcases conforms.2.2 entry isOccurrence with ⟨wellFormed, below⟩
          exact ⟨wellFormed.value_wireType isWanted, depth - 1, below hasKey selected isWanted⟩

theorem TypedParts.wireType_of_evaluate {pool : DescriptorPool Message} {desc : Message}
    {texts : List StdString} {steps : List Step} {target : Target Message}
    (typed : TypedParts pool desc texts steps target) {type : FieldType}
    (isScalar : target = .scalar type) {depth : Nat} {value : WireValue}
    (conforms : Conforms steps depth value) :
    ∀ selected ∈ evaluate steps value, selected.wireType = type.wireType := by
  induction typed generalizing depth value with
  | last _ typed =>
      intro selected member
      have hasType := typed.hasType
      rw [isScalar] at hasType
      rw [evaluate, List.mem_flatMap] at member
      rcases member with ⟨occurrence, isOccurrence, isSelected⟩
      rw [evaluate, List.mem_singleton] at isSelected
      rw [isSelected, hasType.1]
      exact (conforms.select occurrence isOccurrence).1
  | cons _ _ _ induction =>
      intro selected member
      rw [evaluate, List.mem_flatMap] at member
      rcases member with ⟨occurrence, isOccurrence, isSelected⟩
      rcases (conforms.select occurrence isOccurrence).2 with ⟨below, conformsBelow⟩
      exact induction isScalar conformsBelow selected isSelected

theorem TypedPath.wireType_of_evaluate {pool : DescriptorPool Message} {desc : Message}
    {path : StdString} {steps : List Step} {type : FieldType}
    (typed : TypedPath pool desc path steps (.scalar type)) {depth : Nat} {value : WireValue}
    (conforms : Conforms steps depth value) :
    ∀ selected ∈ evaluate steps value, selected.wireType = type.wireType := by
  cases typed with
  | parts _ typed => exact typed.wireType_of_evaluate rfl conforms

theorem wireType_of_numbered {isPacked : Bool} {wireType : Nat} {occurrences : List WireValue}
    (encodes : ∀ occurrence ∈ occurrences, EncodesElements wireType occurrence)
    (start : Nat) :
    ∀ element ∈ numbered isPacked wireType start occurrences,
      element.1.wireType = wireType := by
  induction occurrences generalizing start with
  | nil => simp [numbered]
  | cons occurrence rest induction =>
      have others := induction fun other member =>
        encodes other (List.mem_cons_of_mem _ member)
      intro element member
      rw [numbered_cons, List.mem_append] at member
      rcases member with here | later
      · cases occurrence with
        | lengthDelimited size payload =>
            simp only [numbered, List.append_nil] at here
            have isElement := List.fst_mem_of_mem_zipIdx here
            cases isPacked with
            | false => simp at isElement
            | true => exact readElements_wireType wireType payload element.1 isElement
        | _ =>
            rw [numbered_single (by simp [WireValue.wireType]), numbered,
              List.mem_singleton] at here
            rw [here]
            exact encodes _ List.mem_cons_self
      · exact others _ element later

/-! ## Ways to the emitter -/

section

variable (Stream : Type) [CodedInputStream Stream] [LawfulCodedInputStream Stream]

/-- The ways in which values of a type come to the emitter, each with a path, a message
and the values that arrive. -/
inductive Host.Delivers (host : Host Message) (type : FieldType) (desc : Message) :
    StdString → Bytea → List WireValue → Prop
  /-- Fields of their own, and keys and values of maps. -/
  | path {path : StdString} {steps : List Step} {message : Bytea}
      (typed : TypedPath host.descSet.pool desc path steps (.scalar type))
      (conforms : Conforms steps (CodedInputStream.recursionLimit Stream)
        (.ofPayload message.data))
      (unknownLast : UnknownLastAlong steps (.ofPayload message.data)) :
      host.Delivers type desc path message (evaluate steps (.ofPayload message.data))
  /-- Elements of a repeated field, in packed chunks or alone. -/
  | elements {field : FieldDescriptor Message} {name inner : StdString} {message : Bytea}
      {index : Option Int} (member : field ∈ host.descSet.pool.fields desc)
      (isRepeated : field.isRepeated = true) (yields : field.Yields (.scalar type))
      (named : field.NamedBy name) (noDot : '.'.toUInt8 ∉ inner) (nonempty : inner ≠ [])
      (parsed : parseIndex inner = .ok index) (framed : WellFramed message.data)
      (encodes : ∀ occurrence ∈ fieldValues field.number message.data,
        EncodesElements type.wireType occurrence)
      (decodes : ForeignDecodes field.isPacked type.wireType field.number
        (readFields message.data).1) :
      host.Delivers type desc (name ++ bracketed inner) message
        (pickNumbered index (numbered field.isPacked type.wireType 0
          (fieldValues field.number message.data)))
  /-- Values that a map holds for a key that is not a string. -/
  | numericKey {field keyField valueField : FieldDescriptor Message} {name : StdString}
      {message : Bytea} {key : KeyValue}
      (zero : ∀ position, host.uninitialised.wantedKey position = 0)
      (member : field ∈ host.descSet.pool.fields desc) (named : field.NamedBy name)
      (isMap : field.isMap = true)
      (mapEntry : MapEntry host.descSet.pool field keyField valueField)
      (numeric : keyField.type ≠ .string) (yields : valueField.Yields (.scalar type))
      (ofType : key.OfType keyField.type) (deep : 2 ≤ CodedInputStream.recursionLimit Stream)
      (framed : WellFramed message.data)
      (entries : List (SerializedEntry keyField.type valueField.type))
      (isEntries : fieldValues field.number message.data =
        entries.map SerializedEntry.entry) :
      host.Delivers type desc (name ++ bracketed key.text) message
        ((entries.filter fun serialized =>
          serialized.key = key ∧ ¬ (keyField.type = .int32 ∧ key.Negative)).map
            SerializedEntry.value)

variable {Stream} {type : FieldType} {host : Host Message} {desc : Message} {path : StdString}
variable {message : Bytea} {values : List WireValue}

theorem Answer.collect_rows {Item : Type} {result : Item → Answer} {text : Item → StdString}
    (items : List Item) (each : ∀ item ∈ items, result item = .ok [text item]) :
    Answer.collect (items.map result) = .ok (items.map text) := by
  induction items with
  | nil => rfl
  | cons item items induction =>
      rw [List.map_cons, Answer.collect_cons, each item List.mem_cons_self,
        induction fun other member => each other (List.mem_cons_of_mem _ member)]
      rfl

theorem Target.rendering_integral (integral : type.Integral) {value : WireValue}
    (sameType : value.wireType = type.wireType) (pool : DescriptorPool Message)
    (utils : PostgresUtils) (binaryToJsonString : StdString → Bytes → Option StdString) :
    (Target.scalar type).rendering pool utils binaryToJsonString value =
      some (KeyValue.decode type value).text := by
  have rendered : (Target.scalar type).rendering pool utils binaryToJsonString value =
      (EmitterKind.primitiveRow utils type (value.union 0)).toOption := by
    cases type with
    | string => exact absurd rfl integral.2
    | bytes => exact integral.1.elim
    | _ => rfl
  rw [rendered, primitiveRow_integral integral sameType]
  rfl

omit [LawfulCodedInputStream Stream] in
theorem Host.answer_of_returns (integral : type.Integral)
    (sameType : ∀ value ∈ values, value.wireType = type.wireType)
    (returns : host.Returns Stream desc path message
      (values.map ((Target.scalar type).rendering host.descSet.pool host.utils
        host.descSet.binaryToJsonString))) :
    host.answer Stream desc path message =
      .ok (values.map fun value => (KeyValue.decode type value).text) := by
  rcases returns with ⟨rows, answered, same⟩
  have texts : values.map ((Target.scalar type).rendering host.descSet.pool host.utils
      host.descSet.binaryToJsonString) =
      (values.map fun value => (KeyValue.decode type value).text).map some := by
    rw [List.map_map]
    apply List.map_congr_left
    intro value member
    exact Target.rendering_integral integral (sameType value member) _ _ _
  rw [texts] at same
  rw [answered, List.map_injective_iff.mpr (Option.some_injective _) same]

theorem Host.Delivers.answer (integral : type.Integral)
    (delivers : host.Delivers Stream type desc path message values) :
    host.answer Stream desc path message =
      .ok (values.map fun value => (KeyValue.decode type value).text) := by
  cases delivers with
  | path typed conforms unknownLast =>
      rcases host.emits_typedPath Stream typed message conforms unknownLast
        fun _ _ => trivial with ⟨parts, last, final, chain, emits⟩
      apply Host.answer_of_returns integral (typed.wireType_of_evaluate conforms)
      exact (Host.returns_iff_of_emits chain emits _).mpr rfl
  | elements member isRepeated yields named noDot nonempty parsed framed encodes decodes =>
      cases yields.2.2
      apply Host.answer_of_returns integral
      · intro value picked
        rcases List.mem_map.mp picked with ⟨element, isElement, rfl⟩
        exact wireType_of_numbered encodes 0 element (List.mem_filter.mp isElement).1
      · exact (returns_scalars member isRepeated integral.packable yields named framed.1
          encodes noDot nonempty parsed _).mpr ⟨decodes, rfl⟩
  | numericKey zero member named isMap mapEntry numeric yields ofType deep framed entries
      isEntries =>
      cases yields.2.2
      have answered := answer_numericKey_filter zero member named isMap mapEntry numeric
        integral.ne_enum yields ofType deep framed entries isEntries
      rw [answered, List.map_map]
      apply Answer.collect_rows
      intro serialized _
      rw [Target.answer, Target.rendering_integral integral serialized.sameType]
      rfl

end

variable (Message) in
/-- A value of an integer type or bool is emitted as its text, on every way to the emitter
and whatever the union held before. A varint that does not fit its type is emitted as the
value that it is truncated to. -/
theorem integerRows (Stream : Type) [CodedInputStream Stream] [LawfulCodedInputStream Stream]
    {type : FieldType} (integral : type.Integral) :
    (∀ key : KeyValue, key.OfType type → KeyValue.decode type (key.serialize type) = key) ∧
      (∀ value : WireValue, value.wireType = type.wireType →
        (KeyValue.decode type value).OfType type ∧
          ∀ (utils : PostgresUtils) (bits : UInt64) (number : Int),
            (EmitterKind.primitive type).readPrimitive utils
                ⟨number, value.wireType, value.union bits⟩ =
              .ok (some (KeyValue.decode type value).text)) ∧
      ∀ (host : Host Message) (desc : Message) (path : StdString) (message : Bytea)
        (values : List WireValue), host.Delivers Stream type desc path message values →
          host.answer Stream desc path message =
            .ok (values.map fun value => (KeyValue.decode type value).text) := by
  refine ⟨fun key ofType => KeyValue.decode_serialize ofType integral, ?_, ?_⟩
  · intro value sameType
    refine ⟨KeyValue.decode_ofType integral sameType, fun utils bits number => ?_⟩
    rw [EmitterKind.readPrimitive, primitiveRow_union utils sameType,
      primitiveRow_integral integral sameType]
    rfl
  · intro host desc path message values delivers
    exact delivers.answer integral

def overlongChunk : Bytea :=
  ⟨[0x12, 17, 255, 255, 255, 255, 255, 255, 255, 255, 255, 1, 255, 255, 255, 255, 15, 0x82, 0],
    by decide⟩

theorem integerRows_overlongChunk :
    (∀ key : KeyValue, key.OfType .int32 →
      KeyValue.decode .int32 (key.serialize .int32) = key) ∧
      (KeyValue.decode .int32 (.varint 4294967295)).OfType .int32 ∧
      (EmitterKind.primitive .int32).readPrimitive testUtils
          ⟨2, 0, (WireValue.varint 4294967295).union 77⟩ =
        .ok (some (literal "-1")) ∧
      testHost.answer ArrayStream .exampleMessage
          (literal "repeated_int32" ++ bracketed star) overlongChunk =
        .ok [literal "-1", literal "-1", literal "2"] := by
  have integral : FieldType.int32.Integral := ⟨trivial, nofun⟩
  have faithful := integerRows TestMessage ArrayStream integral
  have member : TestMessage.repeatedField "repeated_int32" 2 .int32 ∈
      testHost.descSet.pool.fields .exampleMessage := by decide
  have yields : (TestMessage.repeatedField "repeated_int32" 2 .int32).Yields
      (.scalar .int32) := ⟨nofun, nofun, rfl⟩
  have truncated := faithful.2.1 (.varint 4294967295) rfl
  have ownFields : ∀ field ∈ (readFields overlongChunk.data).1, (field.number : Int) = 2 := by
    decide +kernel
  have decodes : ForeignDecodes true 0 2 (readFields overlongChunk.data).1 :=
    fun _ field member foreign => absurd (ownFields field member) foreign
  have delivers : testHost.Delivers ArrayStream .int32 .exampleMessage
      (literal "repeated_int32" ++ bracketed star) overlongChunk _ :=
    .elements member rfl yields (.inl rfl) (by decide) (by decide) rfl (by decide +kernel)
      (by decide +kernel) decodes
  refine ⟨faithful.1, truncated.1,
    (truncated.2 testUtils 77 2).trans (by decide +kernel), ?_⟩
  rw [faithful.2.2 testHost _ _ _ _ delivers]
  decide +kernel

end PostgresProtobuf
