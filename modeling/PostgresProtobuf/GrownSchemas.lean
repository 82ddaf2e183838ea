import PostgresProtobuf.Flows
import PostgresProtobuf.TestSchema
import Mathlib.Data.Fintype.Option

/-! # Schemas that grow

A query that is accepted stays accepted, and compiles to the same visitors, when messages
get new fields and descriptor sets get new messages. -/

namespace PostgresProtobuf

open Foundation

variable {Message Other : Type}

/-! ## Growing -/

def FieldDescriptor.map (embed : Message → Other) (field : FieldDescriptor Message) :
    FieldDescriptor Other where
  name := field.name
  number := field.number
  type := field.type
  isRepeated := field.isRepeated
  isMap := field.isMap
  isPacked := field.isPacked
  messageType := field.messageType.map embed
  enumType := field.enumType

def DescPtrs.map (embed : Message → Other) (descPtrs : DescPtrs Message) : DescPtrs Other where
  type := descPtrs.type
  desc := descPtrs.desc.map embed
  enumDesc := descPtrs.enumDesc
  isRepeated := descPtrs.isRepeated
  isMap := descPtrs.isMap

structure DescriptorPool.Grows (embed : Message → Other) (pool : DescriptorPool Message)
    (grown : DescriptorPool Other) : Prop where
  fullName : ∀ message, grown.fullName (embed message) = pool.fullName message
  findMessageType : ∀ name message, pool.findMessageTypeByName name = some message →
    grown.findMessageTypeByName name = some (embed message)
  fields : ∀ message, ∀ field ∈ pool.fields message,
    field.map embed ∈ grown.fields (embed message)

def DescDb.Grows (embed : Message → Other) (descDb : DescDb Message) (grown : DescDb Other) :
    Prop :=
  ∀ name descSet, descDb.descSets name = some descSet →
    ∃ other, grown.descSets name = some other ∧ descSet.pool.Grows embed other.pool

section

variable {embed : Message → Other} {pool : DescriptorPool Message} {grown : DescriptorPool Other}

theorem FieldDescriptor.descPtrs_map (field : FieldDescriptor Message) :
    (field.map embed).descPtrs = field.descPtrs.map embed := by
  unfold FieldDescriptor.descPtrs DescPtrs.map FieldDescriptor.map
  dsimp only
  by_cases isMessage : field.type = .message
  · rw [if_pos isMessage, if_pos isMessage]
  · rw [if_neg isMessage, if_neg isMessage]
    rfl

theorem DescPtrs.ofValues_map (descPtrs : DescPtrs Message)
    (valueField : FieldDescriptor Message) :
    (descPtrs.map embed).ofValues (valueField.map embed) =
      (descPtrs.ofValues valueField).map embed := by
  unfold DescPtrs.ofValues DescPtrs.map FieldDescriptor.map
  dsimp only
  by_cases isMessage : valueField.type = .message
  · rw [if_pos isMessage, if_pos isMessage]
  · rw [if_neg isMessage, if_neg isMessage]
    rfl

namespace DescriptorPool.Grows

variable (grows : pool.Grows embed grown)

include grows

theorem findFieldByNumber {message : Message} {number : Int} {field : FieldDescriptor Message}
    (found : pool.findFieldByNumber message number = some field) :
    grown.findFieldByNumber (embed message) number = some (field.map embed) := by
  rcases findFieldByNumber_eq_some found with ⟨member, rfl⟩
  exact findFieldByNumber_of_mem (grows.fields message field member)

theorem findFieldByName {message : Message} {name : StdString}
    {field : FieldDescriptor Message}
    (found : pool.findFieldByName message name = some field) :
    grown.findFieldByName (embed message) name = some (field.map embed) := by
  rcases findFieldByName_eq_some found with ⟨member, rfl⟩
  exact findFieldByName_of_mem (grows.fields message field member)

theorem findField {desc : Message} {part : StdString} {field : FieldDescriptor Message}
    (found : PostgresProtobuf.findField pool desc part = .ok field) :
    PostgresProtobuf.findField grown (embed desc) part = .ok (field.map embed) := by
  change ite (byNumber part = true) _ _ = Except.ok (field.map embed)
  rcases findField_eq_ok found with ⟨isNumber, ends, isField⟩ | ⟨notNumber, isField⟩
  · rw [if_pos isNumber, if_neg (not_not.mpr ends), grows.findFieldByNumber isField]
  · rw [if_neg (by simp [notNumber]), grows.findFieldByName isField]

theorem mapField {desc : Message} {part : StdString}
    {field keyField valueField : FieldDescriptor Message}
    (mapField : MapField pool desc part field keyField valueField) :
    MapField grown (embed desc) part (field.map embed) (keyField.map embed)
      (valueField.map embed) where
  found := grows.findField mapField.found
  isRepeated := mapField.isRepeated
  isMap := mapField.isMap
  isMessage := mapField.isMessage
  entry := by
    rcases mapField.entry with ⟨entry, isEntry, isKey, isValue⟩
    refine ⟨embed entry, ?_, grows.findFieldByNumber isKey, grows.findFieldByNumber isValue⟩
    exact congrArg (Option.map embed) isEntry
  keyType := mapField.keyType

theorem partCompiles {uninitialised : Uninitialised} {position : Nat} {desc : Message}
    {text : StdString} {part : ChainPart} {next : DescPtrs Message}
    (compiles : PartCompiles uninitialised pool position desc text part next) :
    PartCompiles uninitialised grown position (embed desc) text part (next.map embed) := by
  cases compiles with
  | single found notRepeated bare =>
      rw [← FieldDescriptor.descPtrs_map]
      exact .single (grows.findField found) notRepeated bare
  | element found isRepeated notMap selects nonempty parsed =>
      rw [← FieldDescriptor.descPtrs_map]
      exact .element (grows.findField found) isRepeated notMap selects nonempty parsed
  | keys mapField selects =>
      have keys : PartCompiles uninitialised grown position (embed desc) text _ _ :=
        .keys (grows.mapField mapField) selects
      rw [FieldDescriptor.descPtrs_map] at keys
      exact keys
  | values mapField selects =>
      rw [← DescPtrs.ofValues_map, ← FieldDescriptor.descPtrs_map]
      exact .values (grows.mapField mapField) selects
  | lookup mapField selects nonempty notStar parsed =>
      rw [← DescPtrs.ofValues_map, ← FieldDescriptor.descPtrs_map]
      exact .lookup (grows.mapField mapField) selects nonempty notStar parsed

theorem pathCompiles {uninitialised : Uninitialised} {position : Nat}
    {descPtrs final : DescPtrs Message} {texts : List StdString} {parts : List ChainPart}
    {trailingDot : Bool}
    (compiles : PathCompiles uninitialised pool position descPtrs texts parts trailingDot
      final) :
    PathCompiles uninitialised grown position (descPtrs.map embed) texts parts trailingDot
      (final.map embed) := by
  induction compiles with
  | trailingDot => exact .trailingDot
  | last hasDesc nonempty part =>
      exact .last (congrArg (Option.map embed) hasDesc) nonempty (grows.partCompiles part)
  | cons hasDesc nonempty part _ induction =>
      exact .cons (congrArg (Option.map embed) hasDesc) nonempty (grows.partCompiles part)
        induction

theorem emitterCreate {final : DescPtrs Message} {limit : Option Nat} {emitter : Emitter}
    (created : Emitter.create pool final limit = .ok emitter) :
    Emitter.create grown (final.map embed) limit = .ok emitter := by
  unfold Emitter.create at created ⊢
  unfold DescPtrs.map
  dsimp only
  split at created
  · split at created
    · rename_i selected isSelected
      rw [isSelected]
      simp only [Option.map_some, grows.fullName]
      exact created
    · cases created
  · exact created
  · exact created

theorem chainCompiles {uninitialised : Uninitialised} {desc : Message} {path : StdString}
    {parts : List ChainPart} {last : ChainEnd} {final : DescPtrs Message}
    (chain : ChainCompiles uninitialised pool desc path parts last final) :
    ChainCompiles uninitialised grown (embed desc) path parts last (final.map embed) where
  compiles := by
    rcases chain.compiles with ⟨isEmpty, noParts, noDot, rfl⟩ | ⟨nonempty, compiles⟩
    · exact .inl ⟨isEmpty, noParts, noDot, rfl⟩
    · exact .inr ⟨nonempty, grows.pathCompiles compiles⟩
  emits := grows.emitterCreate chain.emits

end DescriptorPool.Grows

end

/-! ## Conversions -/

section

variable (utils : PostgresUtils) (limit : Nat) (bits : UInt64)
variable (json otherJson : StdString → Bytes → Option StdString)

theorem mapPart_json (position : Nat) (map : MapPart) (next : Delivery Unit) :
    (Setting.fixed utils json limit bits).mapPart position map next =
      (Setting.fixed utils otherJson limit bits).mapPart position map next := by
  cases map with
  | none => rfl
  | entries wantKeys type => rfl
  | lookup keyType wantedKeyField wantedKeyContents valueType =>
      have sameFields : (Setting.fixed utils json limit bits).lookupField keyType
          wantedKeyField wantedKeyContents next =
          (Setting.fixed utils otherJson limit bits).lookupField keyType wantedKeyField
            wantedKeyContents next := funext (Setting.lookupField_of_leaveEntry rfl)
      simp only [Setting.mapPart, Setting.mapFilter, sameFields]
      rfl

theorem runs_json {last : ChainEnd} (notMessage : ∀ typeUrl, last.kind ≠ .message typeUrl)
    (parts : List ChainPart) (message : Bytes) :
    (Setting.fixed utils json limit bits).runs parts last message =
      (Setting.fixed utils otherJson limit bits).runs parts last message := by
  have sameValue : last.kind.bufferedValue json = last.kind.bufferedValue otherJson := by
    funext contents
    cases isKind : last.kind with
    | message typeUrl => exact absurd isKind (notMessage typeUrl)
    | _ => rfl
  have sameEmitter : (Setting.fixed utils json limit bits).emitter last.kind =
      (Setting.fixed utils otherJson limit bits).emitter last.kind := by
    simp only [Setting.emitter, Setting.emitTreated, Setting.fixed, sameValue]
    rfl
  have sameParts : ∀ onto position,
      (Setting.fixed utils json limit bits).chainOnto onto position parts =
        (Setting.fixed utils otherJson limit bits).chainOnto onto position parts := by
    intro onto position
    induction parts generalizing position with
    | nil => rfl
    | cons part parts induction =>
        rw [Setting.chainOnto, Setting.chainOnto, induction, mapPart_json utils limit bits json
          otherJson]
  unfold Setting.runs
  rw [Setting.chain_eq_chainOnto, Setting.chain_eq_chainOnto, Setting.chainEnd_eq_endOnto,
    Setting.chainEnd_eq_endOnto, sameEmitter, sameParts]
  rfl

end

/-! ## Queries -/

section

variable {embed : Message → Other} {descDb : DescDb Message} {grown : DescDb Other}

theorem getDescSet_grows (grows : descDb.Grows embed grown) {text : StdString}
    {descSet : DescSet Message} {start : Nat}
    (found : getDescSet descDb text = .ok (descSet, start)) :
    ∃ other, descSet.pool.Grows embed other.pool ∧
      getDescSet grown text = .ok (other, start) := by
  unfold getDescSet at found ⊢
  dsimp only at found ⊢
  split at found
  · rename_i set isSet
    cases found
    rcases grows _ _ isSet with ⟨other, isOther, poolGrows⟩
    exact ⟨other, poolGrows, by rw [isOther]⟩
  · cases found

theorem getDesc_grows {descSet : DescSet Message} {other : DescSet Other}
    (grows : descSet.pool.Grows embed other.pool) {text : StdString} {start next : Nat}
    {desc : Message} (found : getDesc descSet text start = .ok (desc, next)) :
    getDesc other text start = .ok (embed desc, next) := by
  unfold getDesc at found ⊢
  split at found
  · split at found
    · rename_i message isMessage
      cases found
      rw [grows.findMessageType _ _ isMessage]
    · cases found
  · cases found

theorem resolveQuery_grows (grows : descDb.Grows embed grown) {text path : StdString}
    {descSet : DescSet Message} {desc : Message}
    (resolved : resolveQuery descDb text = .ok (descSet, desc, path)) :
    ∃ other, descSet.pool.Grows embed other.pool ∧
      resolveQuery grown text = .ok (other, embed desc, path) := by
  unfold resolveQuery at resolved
  rcases Except.bind_eq_ok_iff.mp resolved with ⟨⟨set, start⟩, isSet, others⟩
  rcases Except.bind_eq_ok_iff.mp others with ⟨⟨message, next⟩, isMessage, ends⟩
  cases ends
  rcases getDescSet_grows grows isSet with ⟨other, poolGrows, isOther⟩
  refine ⟨other, poolGrows, ?_⟩
  unfold resolveQuery
  rw [isOther]
  change (getDesc other text start >>= fun found => _) = _
  rw [getDesc_grows poolGrows isMessage]
  rfl

/-- An accepted query is accepted under the grown schema with the same visitors; where it
does not select messages, it returns and throws the same as before. -/
theorem compileQuery_grows (grows : descDb.Grows embed grown) {uninitialised : Uninitialised}
    {text : StdString} {limit : Option Nat} {query : QueryImpl}
    (accepted : compileQuery descDb uninitialised text limit = .ok query) :
    ∃ other, compileQuery grown uninitialised text limit = .ok other ∧
      other.visitors = query.visitors ∧
      ((∀ typeUrl, query.visitors.getLast? ≠
          some (.emitter (.new (.message typeUrl) none))) → uninitialised.ZeroBuffers →
        ∀ (Stream : Type) [CodedInputStream Stream] [LawfulCodedInputStream Stream]
          (utils : PostgresUtils) (bits : UInt64) (message : Bytea),
          other.run Stream utils (fun _ => bits) message =
            query.run Stream utils (fun _ => bits) message) := by
  rcases compileQuery_eq_ok_iff.mp accepted with
    ⟨descSet, desc, path, parts, last, final, resolved, chain, rfl⟩
  rcases resolveQuery_grows grows resolved with ⟨other, poolGrows, otherResolved⟩
  refine ⟨⟨chainObjects uninitialised parts last, other.binaryToJsonString⟩,
    compileQuery_eq_ok_iff.mpr ⟨other, embed desc, path, parts, last, _, otherResolved,
      poolGrows.chainCompiles chain, rfl⟩, rfl, ?_⟩
  intro notMessage zero Stream _ _ utils bits message
  have notMessageKind : ∀ typeUrl, last.kind ≠ .message typeUrl := by
    intro typeUrl isMessage
    apply notMessage typeUrl
    simp only [chainObjects, ← List.append_assoc, List.getLast?_concat, isMessage]
  rw [run_fixed utils _ bits parts last zero, run_fixed utils _ bits parts last zero,
    runs_json utils _ bits _ descSet.binaryToJsonString notMessageKind]

def grownFields : Option TestMessage → List (FieldDescriptor (Option TestMessage))
  | none => []
  | some message =>
      message.fields.map (FieldDescriptor.map some) ++
        if message = .innerMessage then
          [{ (TestMessage.single "added" 99 .message).map some with messageType := some none }]
        else []

def grownPool : DescriptorPool (Option TestMessage) where
  findMessageTypeByName name :=
    if name = literal "pgpb.test.Added" then some none
    else (testPool.findMessageTypeByName name).map some
  fullName message := message.elim (literal "pgpb.test.Added") TestMessage.fullName
  fields := grownFields
  fullName_of_find name message found := by
    split at found
    · cases found
      exact Eq.symm ‹name = _›
    · rcases Option.map_eq_some_iff.mp found with ⟨old, isOld, rfl⟩
      exact testPool.fullName_of_find name old isOld
  colon_not_mem_fullName message := by
    cases message with
    | none => decide
    | some message => exact testPool.colon_not_mem_fullName message
  field_valid message := by
    rcases message with _ | _ | _ <;> decide +kernel
  numbers_nodup message := by
    rcases message with _ | _ | _ <;> decide +kernel
  names_nodup message := by
    rcases message with _ | _ | _ <;> decide +kernel
  map_entry message := by
    rcases message with _ | _ | _ <;> decide +kernel

def grownDb : DescDb (Option TestMessage) where
  descSets name :=
    if name = literal "default" then some ⟨grownPool, testSet.binaryToJsonString⟩ else none

theorem grownDb_grows : testDb.Grows some grownDb := by
  intro name descSet found
  change ite (name = literal "default") _ _ = _ at found
  split at found
  · rename_i isDefault
    cases found
    refine ⟨_, if_pos isDefault, fun _ => rfl, ?_, ?_⟩
    · intro name message isMessage
      change testPool.findMessageTypeByName name = some message at isMessage
      have notAdded : name ≠ literal "pgpb.test.Added" := by
        intro isAdded
        rw [isAdded] at isMessage
        cases isMessage
      change ite (name = literal "pgpb.test.Added") _ _ = _
      rw [if_neg notAdded, isMessage]
      rfl
    · intro message field member
      exact List.mem_append_left _ (List.mem_map_of_mem member)
  · cases found

theorem compileQuery_grows_innerStr :
    ∃ other, compileQuery grownDb zeroMemory
        (literal "pgpb.test.ExampleMessage:repeated_inner[*].inner_str") none = .ok other ∧
      other.visitors = (testQuery .exampleMessage "repeated_inner[*].inner_str").visitors ∧
      ∀ message : Bytea, other.run ArrayStream testUtils (fun _ => 7) message =
        (testQuery .exampleMessage "repeated_inner[*].inner_str").run ArrayStream testUtils
          (fun _ => 7) message := by
  have grows := compileQuery_grows grownDb_grows
    (rfl : compileQuery testDb zeroMemory
      (literal "pgpb.test.ExampleMessage:repeated_inner[*].inner_str") none =
      .ok (testQuery .exampleMessage "repeated_inner[*].inner_str"))
  rcases grows with ⟨other, accepted, sameVisitors, sameRuns⟩
  exact ⟨other, accepted, sameVisitors,
    sameRuns (fun typeUrl isMessage => by cases isMessage) (fun _ => ⟨rfl, rfl⟩) ArrayStream
      testUtils 7⟩

end

end PostgresProtobuf
