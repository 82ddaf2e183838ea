import PostgresProtobuf.IntegerRows

/-! # Rows of enums

The number that a varint has as an enum, and the text that is emitted for it. -/

namespace PostgresProtobuf

open Foundation

variable {Message : Type}

/-! ## Texts -/

namespace EnumDescriptor

def number (payload : UInt64) : Int := (payload.toNat : Int).bmod (2 ^ 32)

variable (descriptor : EnumDescriptor)

def Defines (number : Int) : Prop := (descriptor.findValueByNumber number).isSome = true

instance (number : Int) : Decidable (descriptor.Defines number) := by
  unfold Defines
  infer_instance

def text (number : Int) : StdString :=
  (descriptor.findValueByNumber number).getD (signedToString number)

theorem text_of_defines {number : Int} (defines : descriptor.Defines number) :
    ∃ name, descriptor.findValueByNumber number = some name ∧ descriptor.text number = name := by
  rcases Option.isSome_iff_exists.mp defines with ⟨name, found⟩
  exact ⟨name, found, by rw [text, found]; rfl⟩

theorem findValueByNumber_of_not_defines {number : Int} (unknown : ¬ descriptor.Defines number) :
    descriptor.findValueByNumber number = none :=
  Option.not_isSome_iff_eq_none.mp unknown

end EnumDescriptor

theorem signedToString_eq_unsignedToString_iff {number : Int} {value : Nat} :
    signedToString number = unsignedToString value ↔ number = value := by
  constructor
  · intro sameText
    have denotes := denotesInteger_signedToString number
    rw [sameText] at denotes
    exact denotes.unique (denotesInteger_unsignedToString value)
  · rintro rfl
    exact text_natCast value

theorem unsignedToString_injective {value other : Nat}
    (sameText : unsignedToString value = unsignedToString other) : value = other := by
  have denotes := denotesInteger_unsignedToString value
  rw [sameText] at denotes
  exact Int.ofNat_inj.mp (denotes.unique (denotesInteger_unsignedToString other))

theorem EnumDescriptor.number_eq_iff {payload : UInt64} :
    EnumDescriptor.number payload = payload.toNat ↔ payload.toNat < 2 ^ 31 := by
  unfold EnumDescriptor.number
  have bound := payload.toNat_lt
  rw [Int.bmod_def]
  constructor
  · intro same
    split at same <;> omega
  · intro small
    split <;> omega

/-! ## The emitter -/

section

variable (descriptor : EnumDescriptor)

/-- The lookup goes by the number, the fallback by the payload. -/
theorem enumRow_eq (payload : UInt64) :
    EmitterKind.enumRow descriptor ⟨payload⟩ =
      (descriptor.findValueByNumber (EnumDescriptor.number payload)).getD
        (unsignedToString payload.toNat) := by
  have low : payload.toUInt32.toBitVec.toNat = payload.toNat % 2 ^ 32 :=
    UInt64.toNat_toUInt32 payload
  have narrowed : payload.toUInt32.toBitVec.toInt = EnumDescriptor.number payload := by
    rw [BitVec.toInt_eq_toNat_bmod, low, Int.natCast_emod]
    exact Int.emod_bmod _ (2 ^ 32)
  simp only [EmitterKind.enumRow, FieldInfo.Value.asUInt32, FieldInfo.Value.asUInt64, narrowed]
  cases descriptor.findValueByNumber (EnumDescriptor.number payload) <;> rfl

/-- An emitted row is the text of the number unless it is the digits of a payload that is
not the number. -/
theorem enumRow_eq_text_iff (payload : UInt64) :
    EmitterKind.enumRow descriptor ⟨payload⟩ =
        descriptor.text (EnumDescriptor.number payload) ↔
      descriptor.Defines (EnumDescriptor.number payload) ∨ payload.toNat < 2 ^ 31 := by
  rw [enumRow_eq]
  by_cases defines : descriptor.Defines (EnumDescriptor.number payload)
  · rcases descriptor.text_of_defines defines with ⟨name, found, isText⟩
    rw [found, isText]
    exact iff_of_true rfl (.inl defines)
  · have unknown := descriptor.findValueByNumber_of_not_defines defines
    rw [EnumDescriptor.text, unknown, Option.getD_none, Option.getD_none, eq_comm,
      signedToString_eq_unsignedToString_iff, EnumDescriptor.number_eq_iff]
    exact (or_iff_right defines).symm

theorem number_eq_of_enumRow_eq {payload other : UInt64}
    (undefined : ¬ descriptor.Defines (EnumDescriptor.number payload))
    (otherUndefined : ¬ descriptor.Defines (EnumDescriptor.number other))
    (sameRow : EmitterKind.enumRow descriptor ⟨payload⟩ =
      EmitterKind.enumRow descriptor ⟨other⟩) :
    EnumDescriptor.number payload = EnumDescriptor.number other := by
  rw [enumRow_eq, enumRow_eq, descriptor.findValueByNumber_of_not_defines undefined,
    descriptor.findValueByNumber_of_not_defines otherUndefined, Option.getD_none,
    Option.getD_none] at sameRow
  unfold EnumDescriptor.number
  rw [unsignedToString_injective sameRow]

end

/-! ## Ways to the emitter -/

section

variable (Stream : Type) [CodedInputStream Stream] [LawfulCodedInputStream Stream]

/-- The ways in which payloads come to the emitter of an enum, each with a path, a message
and the payloads that arrive. -/
inductive Host.DeliversEnum (host : Host Message) (descriptor : EnumDescriptor)
    (desc : Message) : StdString → Bytea → List UInt64 → Prop
  /-- Fields of their own. -/
  | path {path : StdString} {steps : List Step} {message : Bytea} {payloads : List UInt64}
      (typed : TypedPath host.descSet.pool desc path steps (.enum descriptor))
      (conforms : Conforms steps (CodedInputStream.recursionLimit Stream)
        (.ofPayload message.data))
      (unknownLast : UnknownLastAlong steps (.ofPayload message.data))
      (arrive : evaluate steps (.ofPayload message.data) = payloads.map .varint) :
      host.DeliversEnum descriptor desc path message payloads
  /-- Elements of a repeated field, in packed chunks or alone. -/
  | elements {field : FieldDescriptor Message} {name inner : StdString} {message : Bytea}
      {index : Option Int} {payloads : List UInt64}
      (member : field ∈ host.descSet.pool.fields desc) (isRepeated : field.isRepeated = true)
      (yields : field.Yields (.enum descriptor)) (named : field.NamedBy name)
      (noDot : '.'.toUInt8 ∉ inner) (nonempty : inner ≠ [])
      (parsed : parseIndex inner = .ok index) (framed : WellFramed message.data)
      (encodes : ∀ occurrence ∈ fieldValues field.number message.data,
        EncodesElements 0 occurrence)
      (decodes : ForeignDecodes field.isPacked 0 field.number (readFields message.data).1)
      (arrive : pickNumbered index (numbered field.isPacked 0 0
        (fieldValues field.number message.data)) = payloads.map .varint) :
      host.DeliversEnum descriptor desc (name ++ bracketed inner) message payloads

variable {Stream} {descriptor : EnumDescriptor} {host : Host Message} {desc : Message}
variable {path : StdString} {message : Bytea} {payloads : List UInt64}

theorem Host.DeliversEnum.answer
    (delivers : host.DeliversEnum Stream descriptor desc path message payloads) :
    host.answer Stream desc path message =
      .ok (payloads.map fun payload => EmitterKind.enumRow descriptor ⟨payload⟩) := by
  have rendered : (payloads.map .varint).map ((Target.enum descriptor).rendering
      host.descSet.pool host.utils host.descSet.binaryToJsonString) =
      (payloads.map fun payload => EmitterKind.enumRow descriptor ⟨payload⟩).map some := by
    rw [List.map_map, List.map_map]
    rfl
  have returns : host.Returns Stream desc path message
      ((payloads.map .varint).map ((Target.enum descriptor).rendering host.descSet.pool
        host.utils host.descSet.binaryToJsonString)) := by
    cases delivers with
    | path typed conforms unknownLast arrive =>
        rcases host.emits_typedPath Stream typed message conforms unknownLast
          fun _ _ => trivial with ⟨parts, last, final, chain, emits⟩
        rw [← arrive]
        exact (Host.returns_iff_of_emits chain emits _).mpr rfl
    | @elements field name inner message index payloads member isRepeated yields named noDot
        nonempty parsed framed encodes decodes arrive =>
        have isVarint : field.type.wireType = 0 := by rw [yields.1]; rfl
        have packable : field.type.Packable := .inl isVarint
        have returned : ∀ texts, host.Returns Stream desc (name ++ bracketed inner) message
            texts ↔ _ :=
          returns_scalars member isRepeated packable yields named framed.1
            (isVarint ▸ encodes) noDot nonempty parsed
        rw [isVarint] at returned
        rw [← arrive]
        exact (returned _).mpr ⟨decodes, rfl⟩
  rcases returns with ⟨rows, answered, same⟩
  rw [rendered] at same
  rw [answered, List.map_injective_iff.mpr (Option.some_injective _) same]

end

variable (Message) in
/-- On every way to the emitter and whatever the union held before, payloads are emitted as
the texts of their numbers if and only if each number is defined or its payload is below
`2 ^ 31`. Numbers without a name never share a text. -/
theorem enumRows_iff (Stream : Type) [CodedInputStream Stream] [LawfulCodedInputStream Stream]
    (descriptor : EnumDescriptor) :
    (∀ (utils : PostgresUtils) (fieldNumber : Int) (payload bits : UInt64),
      (EmitterKind.enum descriptor).readPrimitive utils
            ⟨fieldNumber, 0, (WireValue.varint payload).union bits⟩ =
          .ok (some (descriptor.text (EnumDescriptor.number payload))) ↔
        descriptor.Defines (EnumDescriptor.number payload) ∨ payload.toNat < 2 ^ 31) ∧
      (∀ (host : Host Message) (desc : Message) (path : StdString) (message : Bytea)
        (payloads : List UInt64),
        host.DeliversEnum Stream descriptor desc path message payloads →
          (host.answer Stream desc path message =
              .ok (payloads.map fun payload =>
                descriptor.text (EnumDescriptor.number payload)) ↔
            ∀ payload ∈ payloads, descriptor.Defines (EnumDescriptor.number payload) ∨
              payload.toNat < 2 ^ 31)) ∧
      ∀ payload other : UInt64, ¬ descriptor.Defines (EnumDescriptor.number payload) →
        ¬ descriptor.Defines (EnumDescriptor.number other) →
        EmitterKind.enumRow descriptor ⟨payload⟩ = EmitterKind.enumRow descriptor ⟨other⟩ →
        EnumDescriptor.number payload = EnumDescriptor.number other := by
  refine ⟨?_, ?_, fun payload other => number_eq_of_enumRow_eq descriptor⟩
  · intro utils fieldNumber payload bits
    have emitted : (EmitterKind.enum descriptor).readPrimitive utils
        ⟨fieldNumber, 0, (WireValue.varint payload).union bits⟩ =
          .ok (some (EmitterKind.enumRow descriptor ⟨payload⟩)) := rfl
    rw [emitted, Except.ok.injEq, Option.some.injEq]
    exact enumRow_eq_text_iff descriptor payload
  · intro host desc path message payloads delivers
    rw [delivers.answer, Except.ok.injEq, List.map_inj_left]
    apply forall₂_congr
    intro payload _
    exact enumRow_eq_text_iff descriptor payload

def twoEnums : Bytea := ⟨[0x30, 1, 0x30, 7], by decide⟩

theorem enumRows_iff_twoEnums :
    ((EmitterKind.enum TestMessage.anEnum).readPrimitive testUtils
          ⟨6, 0, (WireValue.varint 1).union 77⟩ = .ok (some (literal "EnumValue1")) ↔
        TestMessage.anEnum.Defines 1 ∨ (1 : UInt64).toNat < 2 ^ 31) ∧
      testHost.answer ArrayStream .exampleMessage (literal "an_enum") twoEnums =
        .ok [literal "EnumValue1", literal "7"] ∧
      EmitterKind.enumRow TestMessage.anEnum ⟨7⟩ ≠ EmitterKind.enumRow TestMessage.anEnum ⟨8⟩ := by
  have rows := enumRows_iff TestMessage ArrayStream TestMessage.anEnum
  have anEnum : TypedPart testPool .exampleMessage (literal "an_enum")
      (.occurrences 6 .enum none) (.enum TestMessage.anEnum) :=
    .single (rfl : findField testPool .exampleMessage (literal "an_enum") =
      .ok (TestMessage.single "an_enum" 6 .enum)) rfl rfl ⟨rfl, rfl⟩
  have texts : (literal "an_enum").splitOn '.'.toUInt8 = [literal "an_enum"] := by decide
  have typed : TypedPath testPool .exampleMessage (literal "an_enum")
      [.occurrences 6 .enum none] (.enum TestMessage.anEnum) := by
    refine .parts nofun ?_
    rw [texts]
    exact .last nofun anEnum
  have conforms : Conforms [.occurrences 6 .enum none]
      (CodedInputStream.recursionLimit ArrayStream) (.ofPayload twoEnums.data) :=
    ⟨⟨rfl, by decide +kernel⟩, by decide +kernel, fun _ _ => trivial⟩
  have delivers : testHost.DeliversEnum ArrayStream TestMessage.anEnum .exampleMessage
      (literal "an_enum") twoEnums [1, 7] := .path typed conforms (by decide +kernel) (by decide +kernel)
  have numbers : EnumDescriptor.number 7 ≠ EnumDescriptor.number 8 := by decide +kernel
  have one : EnumDescriptor.number 1 = 1 := by decide +kernel
  have named : TestMessage.anEnum.text 1 = literal "EnumValue1" := by decide +kernel
  have shown : [1, 7].map (fun payload =>
      TestMessage.anEnum.text (EnumDescriptor.number payload)) =
      [literal "EnumValue1", literal "7"] := by decide +kernel
  have first := rows.1 testUtils 6 1 77
  rw [one, named] at first
  refine ⟨first, ?_, fun sameRow => numbers ?_⟩
  · rw [← shown]
    apply (rows.2.1 testHost _ _ _ _ delivers).mpr
    rw [List.forall_mem_cons, List.forall_mem_singleton]
    exact ⟨by decide +kernel, by decide +kernel⟩
  · exact rows.2.2 7 8 (by decide +kernel) (by decide +kernel) sameRow

def minusOneEnum : Bytea :=
  ⟨[0x30, 255, 255, 255, 255, 255, 255, 255, 255, 255, 1], by decide⟩

/-- An enum number -1 without a name is shown as a large positive one. -/
theorem enumRow_minusOne :
    (readFields minusOneEnum.data).1 = [⟨6, .varint (UInt64.ofInt (-1))⟩] ∧
      EnumDescriptor.number (UInt64.ofInt (-1)) = -1 ∧
      ¬ TestMessage.anEnum.Defines (-1) ∧
      testHost.answer ArrayStream .exampleMessage (literal "an_enum") minusOneEnum =
        .ok [literal "18446744073709551615"] ∧
      testHost.answer ArrayStream .exampleMessage (literal "an_enum") minusOneEnum ≠
        .ok [TestMessage.anEnum.text (-1)] := by
  have answered : testHost.answer ArrayStream .exampleMessage (literal "an_enum")
      minusOneEnum = .ok [literal "18446744073709551615"] := by
    decide +kernel
  refine ⟨by decide +kernel, by decide +kernel, by decide +kernel, answered, ?_⟩
  rw [answered]
  decide +kernel

end PostgresProtobuf
