import PostgresProtobuf.PathEvaluation
import PostgresProtobuf.PathGrammar
import PostgresProtobuf.MapKeys

/-! # Looking up numeric keys

Which entries of a map a numeric key selects. -/

namespace PostgresProtobuf

open Foundation

variable {Message : Type}

/-! ## Wanted keys -/

def Knowledge.wanted : Knowledge (Nat → Bool) :=
  { Knowledge.unknown with wantedKeys := true }

def Host.wantedSetting (Stream : Type) [CodedInputStream Stream] (host : Host Message) :
    Setting (Nat → Bool) :=
  { host.setting Stream with knowledge := .wanted }

theorem Host.answer_of_answersWith {Stream : Type} [CodedInputStream Stream]
    [LawfulCodedInputStream Stream] {host : Host Message} {desc : Message} {path : StdString}
    {parts : List ChainPart} {last : ChainEnd} {final : DescPtrs Message}
    (chain : ChainCompiles host.uninitialised host.descSet.pool desc path parts last final)
    {message : Bytea} {result : Answer}
    (answers : AnswersWith ((host.wantedSetting Stream).runs parts last message.data) result) :
    host.answer Stream desc path message = result := by
  rw [answer_of_chain chain]
  have matching : Matches (host.wantedSetting Stream)
      ⟨host.utils, host.descSet.binaryToJsonString, host.localBits⟩ Stream :=
    ⟨rfl, rfl, nofun, rfl⟩
  have suits : host.uninitialised.Suits (host.wantedSetting Stream).knowledge fun _ => true :=
    fun _ known => Bool.noConfusion known
  have concluded : (host.wantedSetting Stream).outcome parts last (fun _ => true)
      message.data = some result := by
    rcases answers fun _ => true with ⟨events, ending, ends, answered⟩
    rw [Setting.outcome, ends]
    cases result with
    | ok rows =>
        rcases answered with ⟨⟨next, rfl⟩, rfl⟩
        rfl
    | error exception =>
        rcases answered with ⟨rfl, reported⟩
        cases exception <;> first | rfl | exact reported.elim
  exact run_eq rfl matching suits concluded

section

variable {State : Type}

theorem Emits.answersWith {action : Activity State} {text : Option StdString}
    (emits : Emits action [text]) (other : Answer) :
    AnswersWith action (text.elim other fun text => .ok [text]) := by
  intro state
  rcases emits state with ⟨events, next, ends, texts⟩
  cases text with
  | none => simp [List.map_eq_cons_iff] at texts
  | some text =>
      exact ⟨events, .ok next, ends, ⟨next, rfl⟩,
        List.map_injective_iff.mpr (Option.some_injective _) texts⟩

def Target.answer (pool : DescriptorPool Message) (utils : PostgresUtils)
    (binaryToJsonString : StdString → Bytes → Option StdString) (target : Target Message)
    (value : WireValue) : Answer :=
  (target.rendering pool utils binaryToJsonString value).elim
    (.error (.badProto (literal "failed to convert submessage to JSON")))
    fun text => .ok [text]

theorem Target.answer_ne_nil (pool : DescriptorPool Message) (utils : PostgresUtils)
    (binaryToJsonString : StdString → Bytes → Option StdString) (target : Target Message)
    (value : WireValue) : target.answer pool utils binaryToJsonString value ≠ .ok [] := by
  unfold Target.answer
  cases target.rendering pool utils binaryToJsonString value <;> simp

namespace Setting

variable (setting : Setting State)

theorem emitter_answersWith (pool : DescriptorPool Message) {target : Target Message}
    {type : FieldType} (hasType : target.HasType type) {value : WireValue}
    (sameType : value.wireType = type.wireType) (fits : value.Fits) :
    AnswersWith ((setting.emitter (target.kind pool)).field setting.recursionLimit value)
      (target.answer pool setting.utils setting.binaryToJsonString value) := by
  have renders := (setting.emitter_renders pool target hasType).field (Nat.le_refl _)
    (Nat.le_refl _) sameType fits trivial trivial
  simp only [evaluate, List.forall_mem_singleton, List.map_singleton] at renders
  have emitted : target.Converts pool setting.binaryToJsonString value →
      AnswersWith ((setting.emitter (target.kind pool)).field setting.recursionLimit value)
        (target.answer pool setting.utils setting.binaryToJsonString value) :=
    fun converts => (renders converts).answersWith _
  cases target with
  | message desc =>
      cases converted : setting.binaryToJsonString (typeUrl pool desc) value.payload with
      | some text => exact emitted (by rw [Target.Converts, converted]; rfl)
      | none =>
          rw [hasType] at sameType
          cases value with
          | lengthDelimited size payload =>
              have row : EmitterKind.bufferedValue setting.binaryToJsonString
                  (.message (typeUrl pool desc)) payload =
                  .error (.badProto (literal "failed to convert submessage to JSON")) := by
                have noJson : setting.binaryToJsonString (typeUrl pool desc) payload = none :=
                  converted
                simp [EmitterKind.bufferedValue, typeUrl_isEmpty, noJson]
              have delivered : (setting.emitter ((Target.message desc).kind pool)).field
                  setting.recursionLimit (.lengthDelimited size payload) =
                  emit (.error (.badProto (literal "failed to convert submessage to JSON"))) :=
                (readWhole_of_fits fits).trans (congrArg emit row)
              rw [delivered, Target.answer, Target.rendering, converted]
              exact .raise trivial
          | _ => simp [WireValue.wireType, FieldType.wireType] at sameType
  | enum descriptor => exact emitted trivial
  | scalar wanted => exact emitted trivial

end Setting

/-! ## Entries -/

theorem AnswersWith.turns_selectField {part : ChainPart} (unpacked : part.isPacked = false)
    (isMessage : part.type = .message) (every : part.wantedIndex = none)
    {next : Delivery State} {budget : Nat} (fields : List WireField) (index : Int)
    {results : List Answer}
    (each : List.Forall₂ (fun value result => AnswersWith (next.field budget value) result)
      (valuesOf part.wantedField fields) results) :
    AnswersWith (turns (Setting.selectField part next budget) index fields).1
      (.collect results) := by
  induction fields generalizing index results with
  | nil =>
      cases each
      exact one
  | cons field fields induction =>
      rw [turns, Setting.selectField_unpacked unpacked, isMessage, Setting.hand_message]
      have emits : part.Emits field.number index ↔ (field.number : Int) = part.wantedField := by
        simp [ChainPart.Emits, every]
      by_cases wanted : (field.number : Int) = part.wantedField
      · rw [valuesOf_cons_of_eq wanted] at each
        cases each with
        | cons first others =>
            rw [if_pos (emits.mpr wanted)]
            exact first.mul (induction _ others)
      · rw [valuesOf_cons_of_ne wanted] at each
        have rest := one.mul (induction (part.indexAfter field.number index) each)
        rw [Answer.ok_nil_followedBy] at rest
        rw [if_neg (mt emits.mp wanted)]
        exact rest

structure SerializedEntry (keyType valueType : FieldType) where
  entry : WireValue
  key : KeyValue
  value : WireValue
  whole : WholeMessage entry
  ofType : key.OfType keyType
  sameType : value.wireType = valueType.wireType
  fields : (readFields entry.payload).1 = [⟨1, key.serialize keyType⟩, ⟨2, value⟩] ∨
    (readFields entry.payload).1 = [⟨2, value⟩, ⟨1, key.serialize keyType⟩]

theorem SerializedEntry.fits {keyType valueType : FieldType}
    (serialized : SerializedEntry keyType valueType) : serialized.value.Fits := by
  apply serialized.whole.2.2 ⟨2, serialized.value⟩
  rcases serialized.fields with fields | fields <;> simp [fields]

theorem KeyValue.wireType_serialize {type : FieldType} {key : KeyValue}
    (ofType : key.OfType type) : (key.serialize type).wireType = type.wireType := by
  cases key <;> cases type <;> first | rfl | exact ofType.elim

theorem FieldType.MapKey.wireType_ne {type : FieldType} (mapKey : type.MapKey)
    (notString : type ≠ .string) : type.wireType ≠ 2 := by
  cases type <;> first | exact absurd rfl notString | exact mapKey.elim | decide

theorem AnswersWith.mapFilter {setting : Setting State}
    (known : setting.knowledge.wantedKeys = true) {keyType : FieldType}
    {entry key value : WireValue} (whole : WholeMessage entry) (primitive : key.wireType ≠ 2)
    (fields : (readFields entry.payload).1 = [⟨1, key⟩, ⟨2, value⟩] ∨
      (readFields entry.payload).1 = [⟨2, value⟩, ⟨1, key⟩])
    (wanted : FieldInfo) {next : Delivery State} (position budget : Nat) {result : Answer}
    (forwards : AnswersWith (next.field setting.recursionLimit value) result) :
    AnswersWith
      ((setting.mapFilter keyType wanted [] next position).field (budget + 1) entry)
      (if (key.header 0).valueEquals wanted then result else .ok []) := by
  have valueFits : value.Fits := by
    apply whole.2.2 ⟨2, value⟩
    rcases fields with fields | fields <;> simp [fields]
  -- Both orders of the two fields leave the same buffers.
  have buffered : ∀ buffers : Setting.EntryBuffers, buffers.inEntry = true →
      turns (setting.lookupField keyType wanted [] next budget) buffers
        (readFields entry.payload).1 =
      (1, { buffers with key := some key, value := some value }) := by
    intro buffers inEntry
    rcases fields with fields | fields
    · rw [fields, turns, setting.lookupField_primitive _ _ _ _ primitive, if_pos inEntry,
        if_pos rfl, turns, setting.lookupField_whole_value valueFits budget (by exact inEntry)]
      simp [turns]
    · rw [fields, turns, setting.lookupField_whole_value valueFits budget inEntry, turns,
        setting.lookupField_primitive _ _ _ _ primitive]
      simp [inEntry, turns]
  rw [whole.1, WireValue.ofPayload, Setting.mapFilter_lengthDelimited]
  apply choose
  intro pristine
  have noContents : (if pristine then Setting.EntryBuffers.found
      else Setting.EntryBuffers.empty).keyContents = [] := by
    cases pristine <;> rfl
  rw [← Answer.ok_nil_followedBy (if (key.header 0).valueEquals wanted then result else .ok [])]
  apply mul
  · apply scanLevel whole.2.1
    rw [buffered _ rfl]
    exact one
  · simp only [scanSubmessage, PostgresProtobuf.scanLevel, buffered, Setting.leaveEntry, if_true,
      Setting.endEntry, Setting.keyMatches, noContents, known, true_or]
    cases matched : (key.header 0).valueEquals wanted with
    | true => simpa [matched] using forwards
    | false => simpa [matched] using one

end

/-! ## Numeric keys -/

theorem Answer.collect_ne_nil {answers : List Answer} (some : answers ≠ [])
    (none : .ok [] ∉ answers) : Answer.collect answers ≠ .ok [] := by
  cases answers with
  | nil => exact absurd rfl some
  | cons first rest =>
      intro nothing
      rcases Answer.followedBy_eq_ok_iff.mp nothing with ⟨front, back, isFront, _, isNil⟩
      rw [(List.append_eq_nil_iff.mp isNil.symm).1] at isFront
      exact none (isFront ▸ List.mem_cons_self)

theorem Answer.collect_filter {Item : Type} (keep : Item → Bool) (result : Item → Answer)
    (items : List Item) :
    Answer.collect ((items.filter keep).map result) =
      Answer.collect (items.map fun item => if keep item then result item else .ok []) := by
  induction items with
  | nil => rfl
  | cons item items induction =>
      by_cases kept : keep item = true
      · simp [kept, induction]
      · simp [kept, induction]

section

variable {Stream : Type} [CodedInputStream Stream] [LawfulCodedInputStream Stream]
variable {host : Host Message} {desc : Message}
variable {field keyField valueField : FieldDescriptor Message}
variable {name : StdString} {key : KeyValue} {target : Target Message}

theorem answer_numericKey (zero : ∀ position, host.uninitialised.wantedKey position = 0)
    (member : field ∈ host.descSet.pool.fields desc) (named : field.NamedBy name)
    (isMap : field.isMap = true)
    (mapEntry : MapEntry host.descSet.pool field keyField valueField)
    (numeric : keyField.type ≠ .string) (notEnum : valueField.type ≠ .enum)
    (yields : valueField.Yields target) (ofType : key.OfType keyField.type)
    (deep : 2 ≤ CodedInputStream.recursionLimit Stream) {message : Bytea}
    (framed : WellFramed message.data)
    (entries : List (SerializedEntry keyField.type valueField.type))
    (isEntries : fieldValues field.number message.data = entries.map SerializedEntry.entry) :
    host.answer Stream desc (name ++ bracketed key.text) message =
      Answer.collect (entries.map fun serialized =>
        if ((serialized.key.serialize keyField.type).header 0).valueEquals
            ⟨1, keyField.type.wireType, key.written keyField.type ⟨0⟩⟩ then
          target.answer host.descSet.pool host.utils host.descSet.binaryToJsonString
            serialized.value
        else .ok []) := by
  have valid := host.descSet.pool.field_valid desc field member
  have starts := startsSelector_bracketed key.text
  have mapField := mapEntry.mapField (findField_append member named starts) isMap
  have parsed := parseMapKey_text ofType (host.uninitialised.wantedKey 2)
  rw [zero, KeyValue.contents_eq_nil ofType numeric] at parsed
  have keyText := (keyText_of_parseMapKey parsed).1
  have notString : ∀ contents, key ≠ .string contents := by
    rintro contents rfl
    generalize keyField.type = type at ofType numeric
    cases type <;> first | exact absurd rfl numeric | cases ofType
  have noDot : '.'.toUInt8 ∉ name ++ bracketed key.text :=
    dot_not_mem_bracketed named valid (keyText.not_mem numeric (.inr (.inl rfl)))
  have compiles : PartCompiles host.uninitialised host.descSet.pool 1 desc
      (name ++ bracketed key.text) _ _ :=
    .lookup mapField (selectorText_append named valid starts)
      (KeyValue.text_ne_nil (notString [])) (KeyValue.text_ne_star ofType (notString star))
      (by rw [zero]; exact parsed)
  have leaves := yields.leaves_ofValues notEnum field.descPtrs
  have chain := chainCompiles_single (by simp [bracketed]) noDot compiles
    (leaves.create host.descSet.pool)
  apply Host.answer_of_answersWith chain
  obtain ⟨lower, isDeep⟩ : ∃ lower, CodedInputStream.recursionLimit Stream = lower + 2 :=
    ⟨_, (Nat.sub_add_cancel deep).symm⟩
  rw [Setting.runs]
  have limit : (host.wantedSetting Stream).recursionLimit = lower + 2 := isDeep
  rw [limit]
  apply AnswersWith.scanLevel framed.1
  apply AnswersWith.turns_selectField
  · exact mapField.unpacked valid
  · exact mapField.isMessage
  · rfl
  · change List.Forall₂ _ (fieldValues field.number message.data) _
    rw [isEntries, List.forall₂_map_left_iff, List.forall₂_map_right_iff, List.forall₂_same]
    intro serialized _
    have primitive : (serialized.key.serialize keyField.type).wireType ≠ 2 := by
      rw [KeyValue.wireType_serialize serialized.ofType]
      exact mapField.keyType.wireType_ne numeric
    have forwarded := (host.wantedSetting Stream).emitter_answersWith host.descSet.pool
      yields.hasType serialized.sameType serialized.fits
    exact AnswersWith.mapFilter rfl serialized.whole primitive serialized.fields _ 2 lower
      forwarded

theorem answer_numericKey_filter
    (zero : ∀ position, host.uninitialised.wantedKey position = 0)
    (member : field ∈ host.descSet.pool.fields desc) (named : field.NamedBy name)
    (isMap : field.isMap = true)
    (mapEntry : MapEntry host.descSet.pool field keyField valueField)
    (numeric : keyField.type ≠ .string) (notEnum : valueField.type ≠ .enum)
    (yields : valueField.Yields target) (ofType : key.OfType keyField.type)
    (deep : 2 ≤ CodedInputStream.recursionLimit Stream) {message : Bytea}
    (framed : WellFramed message.data)
    (entries : List (SerializedEntry keyField.type valueField.type))
    (isEntries : fieldValues field.number message.data = entries.map SerializedEntry.entry) :
    host.answer Stream desc (name ++ bracketed key.text) message =
      Answer.collect ((entries.filter fun serialized =>
        serialized.key = key ∧ ¬ (keyField.type = .int32 ∧ key.Negative)).map fun serialized =>
          target.answer host.descSet.pool host.utils host.descSet.binaryToJsonString
            serialized.value) := by
  have answered := answer_numericKey zero member named isMap mapEntry numeric notEnum yields
    ofType deep framed entries isEntries
  have test : ∀ serialized : SerializedEntry keyField.type valueField.type,
      ((serialized.key.serialize keyField.type).header 0).valueEquals
          ⟨1, keyField.type.wireType, key.written keyField.type ⟨0⟩⟩ =
        decide (serialized.key = key ∧ ¬ (keyField.type = .int32 ∧ key.Negative)) := by
    intro serialized
    rw [Bool.eq_iff_iff, decide_eq_true_iff, eq_comm (a := serialized.key)]
    exact valueEquals_serialize_iff ofType serialized.ofType numeric
  simp only [test, ← Answer.collect_filter] at answered
  exact answered

/-- A numeric key selects exactly the values of the entries with that key, unless it is a
negative `int32` that one of the entries has. -/
theorem numericKey_iff (zero : ∀ position, host.uninitialised.wantedKey position = 0)
    (member : field ∈ host.descSet.pool.fields desc) (named : field.NamedBy name)
    (isMap : field.isMap = true)
    (mapEntry : MapEntry host.descSet.pool field keyField valueField)
    (numeric : keyField.type ≠ .string) (notEnum : valueField.type ≠ .enum)
    (yields : valueField.Yields target) (ofType : key.OfType keyField.type)
    (deep : 2 ≤ CodedInputStream.recursionLimit Stream) {message : Bytea}
    (framed : WellFramed message.data)
    (entries : List (SerializedEntry keyField.type valueField.type))
    (isEntries : fieldValues field.number message.data = entries.map SerializedEntry.entry) :
    host.answer Stream desc (name ++ bracketed key.text) message =
        Answer.collect ((entries.filter fun serialized => serialized.key = key).map
          fun serialized => target.answer host.descSet.pool host.utils
            host.descSet.binaryToJsonString serialized.value) ↔
      ¬ (keyField.type = .int32 ∧ key.Negative ∧
        ∃ serialized ∈ entries, serialized.key = key) := by
  have answered := answer_numericKey_filter zero member named isMap mapEntry numeric notEnum
    yields ofType deep framed entries isEntries
  rw [answered]
  by_cases loses : keyField.type = .int32 ∧ key.Negative
  · have nothing : entries.filter (fun serialized => decide (serialized.key = key ∧
        ¬ (keyField.type = .int32 ∧ key.Negative))) = [] := by
      simp [loses]
    rw [nothing]
    constructor
    · intro same present
      rcases present.2.2 with ⟨serialized, member, isKey⟩
      have kept : serialized ∈ entries.filter fun serialized => serialized.key = key :=
        List.mem_filter.mpr ⟨member, decide_eq_true isKey⟩
      apply Answer.collect_ne_nil _ _ same.symm
      · exact fun isNil => absurd kept (by rw [List.map_eq_nil_iff.mp isNil]; exact nofun)
      · intro isNil
        rcases List.mem_map.mp isNil with ⟨other, _, answersNil⟩
        exact Target.answer_ne_nil _ _ _ _ _ answersNil
    · intro absent
      have none : entries.filter (fun serialized => serialized.key = key) = [] := by
        rw [List.filter_eq_nil_iff]
        intro serialized member isKey
        exact absent ⟨loses.1, loses.2, serialized, member, of_decide_eq_true isKey⟩
      rw [none]
  · have same : entries.filter (fun serialized => decide (serialized.key = key ∧
        ¬ (keyField.type = .int32 ∧ key.Negative))) =
        entries.filter (fun serialized => serialized.key = key) := by
      simp [loses]
    rw [same]
    exact iff_of_true rfl fun present => loses ⟨present.1, present.2.1⟩

end

section

def int2strEntry (key : Int) (payload : Bytes) (framed : WellFramed payload)
    (ofType : (KeyValue.integer key).OfType .int32)
    (fields : (readFields payload).1 =
      [⟨1, (KeyValue.integer key).serialize .int32⟩, ⟨2, .ofPayload [0x61]⟩]) :
    SerializedEntry .int32 .string where
  entry := .ofPayload payload
  key := .integer key
  value := .ofPayload [0x61]
  whole := ⟨rfl, framed⟩
  ofType := ofType
  sameType := rfl
  fields := .inl fields

/-- `map_int2str[1]` on an entry with the key 1. -/
theorem numericKey_iff_one :
    let entry := int2strEntry 1 [0x08, 1, 0x12, 1, 0x61] (by decide +kernel)
      ⟨by decide, by decide⟩ (by decide +kernel)
    let message : Bytea := ⟨[0x42, 5, 0x08, 1, 0x12, 1, 0x61], by decide⟩
    testHost.answer ArrayStream .exampleMessage
        (literal "map_int2str" ++ bracketed (KeyValue.integer 1).text) message =
        Answer.collect (([entry].filter fun serialized =>
          serialized.key = .integer 1).map fun serialized =>
          (Target.scalar .string).answer testPool testUtils testSet.binaryToJsonString
            serialized.value) ↔
      ¬ (FieldType.int32 = .int32 ∧ (KeyValue.integer 1).Negative ∧
        ∃ serialized ∈ [entry], serialized.key = .integer 1) := by
  intro entry message
  have zero : ∀ position, testHost.uninitialised.wantedKey position = 0 := fun _ => rfl
  have member : TestMessage.ofMessage "map_int2str" 8 true true .mapInt2strEntry ∈
      testHost.descSet.pool.fields .exampleMessage := by decide +kernel
  have mapEntry : MapEntry testHost.descSet.pool
      (TestMessage.ofMessage "map_int2str" 8 true true .mapInt2strEntry)
      (TestMessage.single "key" 1 .int32) (TestMessage.single "value" 2 .string) :=
    ⟨_, rfl, by decide +kernel, by decide +kernel⟩
  have yields : (TestMessage.single "value" 2 .string).Yields (.scalar .string) :=
    ⟨nofun, nofun, rfl⟩
  have ofType : (KeyValue.integer 1).OfType .int32 := ⟨by decide, by decide⟩
  have deep : 2 ≤ CodedInputStream.recursionLimit ArrayStream := by decide
  have framed : WellFramed message.data := by decide +kernel
  have isEntries : fieldValues 8 message.data = [entry].map SerializedEntry.entry := by
    decide +kernel
  have selects := numericKey_iff zero member (.inl rfl) rfl mapEntry nofun nofun yields ofType
    deep framed [entry] isEntries
  exact selects

/-- `map_int2str[-1]` misses the entry that a serializer writes for the key -1. -/
theorem negativeKey_lost :
    let entry := int2strEntry (-1)
      [0x08, 255, 255, 255, 255, 255, 255, 255, 255, 255, 1, 0x12, 1, 0x61]
      (by decide +kernel) ⟨by decide, by decide⟩ (by decide +kernel)
    let message : Bytea := ⟨[0x42, 14] ++ entry.entry.payload, by decide⟩
    fieldValues 8 message.data = [entry.entry] ∧ entry.key = .integer (-1) ∧
      testHost.answer ArrayStream .exampleMessage
        (literal "map_int2str" ++ bracketed (KeyValue.integer (-1)).text) message = .ok [] ∧
      testHost.answer ArrayStream .exampleMessage (literal "map_int2str[*]") message =
        .ok [literal "a"] := by
  decide +kernel

end

end PostgresProtobuf
