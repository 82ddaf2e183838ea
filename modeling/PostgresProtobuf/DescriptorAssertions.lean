import PostgresProtobuf.PathSemantics
import PostgresProtobuf.TestSchema

/-! # The assertions of `Emitter::Create`

Which accepted paths leave the descriptors that the emitter needs. -/

namespace PostgresProtobuf

open Foundation

variable {Message : Type}

structure DescPtrs.Described (descPtrs : DescPtrs Message) : Prop where
  message : descPtrs.type = .message → descPtrs.desc.isSome = true
  enum : descPtrs.type = .enum → descPtrs.enumDesc.isSome = true

theorem Emitter.create_described {descPtrs : DescPtrs Message} (pool : DescriptorPool Message)
    (limit : Option Nat) (described : descPtrs.Described) :
    ∃ emitter, Emitter.create pool descPtrs limit = .ok emitter := by
  unfold Emitter.create
  split
  · rename_i isMessage
    rcases Option.isSome_iff_exists.mp (described.message isMessage) with ⟨desc, isDesc⟩
    rw [isDesc]
    exact ⟨_, rfl⟩
  · rename_i isEnum
    rcases Option.isSome_iff_exists.mp (described.enum isEnum) with ⟨descriptor, isDescriptor⟩
    rw [isDescriptor]
    exact ⟨_, rfl⟩
  · exact ⟨_, rfl⟩

theorem Emitter.create_undescribed {descPtrs : DescPtrs Message}
    (pool : DescriptorPool Message) (limit : Option Nat)
    (undescribed : ¬ descPtrs.Described) :
    Emitter.create pool descPtrs limit = .error .assertionFailed := by
  unfold Emitter.create
  split
  · rename_i isMessage
    split
    · rename_i isDesc
      refine absurd ⟨?_, ?_⟩ undescribed
      · simp [isDesc]
      · simp [isMessage]
    · rfl
  · rename_i isEnum
    split
    · rename_i isDescriptor
      refine absurd ⟨?_, ?_⟩ undescribed
      · simp [isEnum]
      · simp [isDescriptor]
    · rfl
  · rename_i notMessage notEnum
    exact absurd ⟨fun isMessage => absurd isMessage notMessage,
      fun isEnum => absurd isEnum notEnum⟩ undescribed

/-! ## Paths that end in the enum values of a map -/

section

variable (pool : DescriptorPool Message)

def SelectsEnumValues (desc : Message) (part : StdString) : Prop :=
  ∃ field keyField valueField, MapField pool desc part field keyField valueField ∧
    selectorText part ≠ keysText ∧ valueField.type = .enum

/-- The field whose values a part selects, by its message type. A part after `|keys`
is looked up in the entry. -/
def selectedMessage (desc : Message) (part : StdString) : Option Message :=
  match findField pool desc part with
  | .error _ => none
  | .ok field =>
      if field.isMap && selectorText part != keysText then
        match field.messageType.bind fun entry => pool.findFieldByNumber entry 2 with
        | some valueField =>
            if valueField.type = .message then valueField.messageType else none
        | none => none
      else if field.type = .message then field.messageType
      else none

def EndsInEnumValues : Message → List StdString → Prop
  | _, [] => False
  | desc, part :: rest =>
      if rest = [] ∨ rest = [[]] then SelectsEnumValues pool desc part
      else ∃ next, selectedMessage pool desc part = some next ∧ EndsInEnumValues next rest

end

section

variable {pool : DescriptorPool Message} {uninitialised : Uninitialised} {position : Nat}
variable {desc : Message} {part : StdString}

theorem MapField.unique {field keyField valueField otherField otherKey otherValue :
      FieldDescriptor Message}
    (mapField : MapField pool desc part field keyField valueField)
    (other : MapField pool desc part otherField otherKey otherValue) :
    otherField = field ∧ otherKey = keyField ∧ otherValue = valueField := by
  have sameField := Except.ok.inj (other.found.symm.trans mapField.found)
  subst sameField
  rcases mapField.entry with ⟨entry, isEntry, isKey, isValue⟩
  rcases other.entry with ⟨otherEntry, isOther, otherIsKey, otherIsValue⟩
  rw [isEntry, Option.some.injEq] at isOther
  subst isOther
  rw [isKey, Option.some.injEq] at otherIsKey
  rw [isValue, Option.some.injEq] at otherIsValue
  exact ⟨rfl, otherIsKey.symm, otherIsValue.symm⟩

theorem FieldDescriptor.described {field : FieldDescriptor Message}
    (found : findField pool desc part = .ok field) : field.descPtrs.Described := by
  have valid := pool.field_valid desc field (findField_mem found)
  constructor
  · intro isMessage
    have typed : field.type = .message := isMessage
    rw [FieldDescriptor.descPtrs, if_pos typed]
    exact valid.messageType_isSome.mpr (.inl typed)
  · intro isEnum
    have typed : field.type = .enum := isEnum
    rw [FieldDescriptor.descPtrs, if_pos typed]
    exact valid.enumType_isSome.mpr typed

theorem selectedMessage_of_found {field : FieldDescriptor Message}
    (found : findField pool desc part = .ok field)
    (direct : field.isMap = false ∨ selectorText part = keysText) :
    selectedMessage pool desc part = field.descPtrs.desc := by
  have test : (field.isMap && selectorText part != keysText) = false := by
    rcases direct with notMap | isKeys
    · simp [notMap]
    · simp [isKeys]
  simp only [selectedMessage, found, test, Bool.false_eq_true, if_false,
    FieldDescriptor.descPtrs]

theorem selectedMessage_of_mapField {field keyField valueField : FieldDescriptor Message}
    (mapField : MapField pool desc part field keyField valueField)
    (notKeys : selectorText part ≠ keysText) :
    selectedMessage pool desc part = (field.descPtrs.ofValues valueField).desc := by
  have test : (field.isMap && selectorText part != keysText) = true := by
    simp [mapField.isMap, notKeys]
  rcases mapField.entry with ⟨entry, isEntry, _, isValue⟩
  simp only [selectedMessage, mapField.found, test, if_true, isEntry, Option.bind_some,
    isValue, DescPtrs.ofValues]

theorem described_ofValues_iff {field keyField valueField : FieldDescriptor Message}
    (mapField : MapField pool desc part field keyField valueField)
    (notKeys : selectorText part ≠ keysText) :
    (field.descPtrs.ofValues valueField).Described ↔ ¬ SelectsEnumValues pool desc part := by
  have selects : SelectsEnumValues pool desc part ↔ valueField.type = .enum := by
    constructor
    · intro holds
      rcases holds with ⟨_, _, _, other, _, isEnum⟩
      rcases mapField.unique other with ⟨_, _, rfl⟩
      exact isEnum
    · exact fun isEnum => ⟨_, _, _, mapField, notKeys, isEnum⟩
  rw [selects]
  constructor
  · intro described isEnum
    have present := described.enum isEnum
    simp [DescPtrs.ofValues, FieldDescriptor.descPtrs, mapField.isMessage] at present
  · intro notEnum
    rcases mapField.entry with ⟨entry, _, _, isValue⟩
    have valid := pool.field_valid entry valueField
      (DescriptorPool.findFieldByNumber_eq_some isValue).1
    constructor
    · intro isMessage
      have typed : valueField.type = .message := isMessage
      rw [DescPtrs.ofValues, if_pos typed]
      exact valid.messageType_isSome.mpr (.inl typed)
    · exact fun isEnum => absurd isEnum notEnum

theorem PartCompiles.described_iff {chainPart : ChainPart} {next : DescPtrs Message}
    (compiles : PartCompiles uninitialised pool position desc part chainPart next) :
    (next.Described ↔ ¬ SelectsEnumValues pool desc part) ∧
      selectedMessage pool desc part = next.desc := by
  have direct : ∀ {field : FieldDescriptor Message}, findField pool desc part = .ok field →
      field.isMap = false ∨ selectorText part = keysText →
      ¬ SelectsEnumValues pool desc part := by
    intro field found direct selects
    rcases selects with ⟨_, _, _, mapField, notKeys, _⟩
    rcases direct with notMap | isKeys
    · rw [← Except.ok.inj (mapField.found.symm.trans found), mapField.isMap] at notMap
      cases notMap
    · exact notKeys isKeys
  have notKeys : ∀ inner, selectorText part = bracketed inner →
      selectorText part ≠ keysText := by
    intro inner selects isKeys
    exact bracketed_ne_keysText inner (selects.symm.trans isKeys)
  cases compiles with
  | @single field found notRepeated bare =>
      have valid := pool.field_valid desc field (findField_mem found)
      have notMap : field.isMap = false := by
        cases isMap : field.isMap with
        | false => rfl
        | true => rw [(valid.map isMap).1] at notRepeated; cases notRepeated
      exact ⟨iff_of_true (FieldDescriptor.described found) (direct found (.inl notMap)),
        selectedMessage_of_found found (.inl notMap)⟩
  | element found _ notMap _ _ _ =>
      exact ⟨iff_of_true (FieldDescriptor.described found) (direct found (.inl notMap)),
        selectedMessage_of_found found (.inl notMap)⟩
  | keys mapField selects =>
      refine ⟨iff_of_true ⟨?_, ?_⟩ (direct mapField.found (.inr selects)),
        selectedMessage_of_found mapField.found (.inr selects)⟩
      · exact fun isMessage => absurd isMessage mapField.keyType.ne.1
      · exact fun isEnum => absurd isEnum mapField.keyType.ne.2
  | values mapField selects =>
      exact ⟨described_ofValues_iff mapField (notKeys _ selects),
        selectedMessage_of_mapField mapField (notKeys _ selects)⟩
  | lookup mapField selects _ _ _ =>
      exact ⟨described_ofValues_iff mapField (notKeys _ selects),
        selectedMessage_of_mapField mapField (notKeys _ selects)⟩

theorem PathCompiles.described_iff {descPtrs final : DescPtrs Message}
    {texts : List StdString} {parts : List ChainPart} {trailingDot : Bool}
    (compiles : PathCompiles uninitialised pool position descPtrs texts parts trailingDot
      final)
    (nonempty : texts ≠ [[]]) {desc : Message} (hasDesc : descPtrs.desc = some desc) :
    final.Described ↔ ¬ EndsInEnumValues pool desc texts := by
  induction compiles generalizing desc with
  | trailingDot => exact absurd rfl nonempty
  | last hasOther _ compiles =>
      rw [hasDesc, Option.some.injEq] at hasOther
      subst hasOther
      rw [EndsInEnumValues, if_pos (.inl rfl)]
      exact compiles.described_iff.1
  | @cons _ _ next _ _ _ _ texts _ _ hasOther _ compiles rest induction =>
      rw [hasDesc, Option.some.injEq] at hasOther
      subst hasOther
      by_cases dot : texts = [[]]
      · subst dot
        rw [EndsInEnumValues, if_pos (.inr rfl)]
        cases rest with
        | trailingDot => exact compiles.described_iff.1
        | last _ textNonempty _ => exact absurd rfl textNonempty
        | cons _ textNonempty _ _ => exact absurd rfl textNonempty
      · have more : texts ≠ [] := by
          rintro rfl
          cases rest
        rw [EndsInEnumValues, if_neg (by simp [dot, more]), compiles.described_iff.2]
        have hasNext : ∃ desc, next.desc = some desc := by
          cases rest with
          | trailingDot => exact absurd rfl dot
          | last hasDesc _ _ => exact ⟨_, hasDesc⟩
          | cons hasDesc _ _ _ => exact ⟨_, hasDesc⟩
        rcases hasNext with ⟨desc, hasNext⟩
        rw [induction dot hasNext]
        simp [hasNext]

theorem described_iff {path : StdString} {final : DescPtrs Message}
    {visitors : List ChainVisitor}
    (compiled : compilePath pool uninitialised path [] (rootPtrs desc)
      (if path.isEmpty then [] else [.descendIntoSubmessage]) = .ok (final, visitors)) :
    final.Described ↔ ¬ EndsInEnumValues pool desc (path.splitOn '.'.toUInt8) := by
  by_cases empty : path = []
  · subst empty
    cases compiled
    refine iff_of_true ⟨fun _ => rfl, nofun⟩ ?_
    change ¬ EndsInEnumValues pool desc [[]]
    rw [EndsInEnumValues, if_pos (.inl rfl)]
    rintro ⟨field, _, _, mapField, _⟩
    have named := findField_eq_ok mapField.found
    have member := findField_mem mapField.found
    rcases named with ⟨isNumber, _⟩ | ⟨_, found⟩
    · cases isNumber
    · rcases (pool.field_valid desc field member).name_identifier.1 with ⟨first, rest, split, _⟩
      have nameless := (DescriptorPool.findFieldByName_eq_some found).2
      simp [split] at nameless
  · have notEmpty : path.isEmpty = false := by simpa using empty
    have start : [ChainVisitor.descendIntoSubmessage] = [] ++ [.descendIntoSubmessage] := rfl
    simp only [notEmpty, Bool.false_eq_true, if_false] at compiled
    rw [start, compilePath_eq_ok_iff List.not_mem_nil] at compiled
    rcases compiled with ⟨parts, trailingDot, pathCompiles, _⟩
    exact pathCompiles.described_iff
      (fun single => empty ((splitOn_eq_singleton_nil_iff _ path).mp single)) rfl

end

/-! ## Queries -/

/-- Where compilation gets as far as building the emitter, the descriptors are as
asserted unless the path ends in the enum values of a map; there the query aborts. -/
theorem assertions_iff {descDb : DescDb Message} {uninitialised : Uninitialised}
    {text path : StdString} {descSet : DescSet Message} {desc : Message}
    (resolved : resolveQuery descDb text = .ok (descSet, desc, path))
    {final : DescPtrs Message} {visitors : List ChainVisitor}
    (compiled : compilePath descSet.pool uninitialised path [] (rootPtrs desc)
      (if path.isEmpty then [] else [.descendIntoSubmessage]) = .ok (final, visitors))
    (limit : Option Nat) :
    (final.Described ↔ ¬ EndsInEnumValues descSet.pool desc (path.splitOn '.'.toUInt8)) ∧
      ((∃ query, compileQuery descDb uninitialised text limit = .ok query) ↔
        ¬ EndsInEnumValues descSet.pool desc (path.splitOn '.'.toUInt8)) ∧
      (compileQuery descDb uninitialised text limit = .error .assertionFailed ↔
        EndsInEnumValues descSet.pool desc (path.splitOn '.'.toUInt8)) := by
  have described := described_iff compiled
  have ends : compileQuery descDb uninitialised text limit =
      (do let emitter ← Emitter.create descSet.pool final limit
          return ⟨visitors ++ [.emitter emitter], descSet.binaryToJsonString⟩) := by
    simp only [compileQuery, resolved, compileFrom, bind, Except.bind]
    unfold rootPtrs at compiled
    rw [compiled]
  refine ⟨described, ?_⟩
  by_cases holds : final.Described
  · rcases Emitter.create_described descSet.pool limit holds with ⟨emitter, created⟩
    rw [ends, created]
    have accepted := described.mp holds
    exact ⟨iff_of_true ⟨_, rfl⟩ accepted, iff_of_false (by rintro ⟨⟩) accepted⟩
  · rw [ends, Emitter.create_undescribed descSet.pool limit holds]
    have enumValues := not_not.mp (mt described.mpr holds)
    exact ⟨iff_of_false (by rintro ⟨_, ⟨⟩⟩) (not_not.mpr enumValues),
      iff_of_true rfl enumValues⟩

/-- `an_enum`, an enum that is in no map. -/
theorem assertions_iff_anEnum :
    ∃ final : DescPtrs TestMessage,
      final.type = .enum ∧ final.enumDesc.isSome ∧
        (final.Described ↔ ¬ EndsInEnumValues testPool .exampleMessage
          ((literal "an_enum").splitOn '.'.toUInt8)) ∧
        ((∃ query, compileQuery testDb zeroMemory
            (literal "pgpb.test.ExampleMessage:an_enum") none = .ok query) ↔
          ¬ EndsInEnumValues testPool .exampleMessage
            ((literal "an_enum").splitOn '.'.toUInt8)) ∧
        (compileQuery testDb zeroMemory
            (literal "pgpb.test.ExampleMessage:an_enum") none = .error .assertionFailed ↔
          EndsInEnumValues testPool .exampleMessage
            ((literal "an_enum").splitOn '.'.toUInt8)) := by
  have resolved : resolveQuery testDb (literal "pgpb.test.ExampleMessage:an_enum") =
      .ok (testSet, .exampleMessage, literal "an_enum") := rfl
  have compiled : compilePath testPool zeroMemory (literal "an_enum") []
      (rootPtrs .exampleMessage) [.descendIntoSubmessage] =
      .ok ((TestMessage.single "an_enum" 6 .enum).descPtrs,
        [.descendIntoSubmessage, .fieldSelector (ChainPart.plain
          (TestMessage.single "an_enum" 6 .enum) none).selector]) := rfl
  exact ⟨_, rfl, rfl, assertions_iff resolved compiled none⟩

inductive EnumMapMessage
  | holder
  | entry
  deriving DecidableEq

namespace EnumMapMessage

def fullName : EnumMapMessage → StdString
  | holder => literal "Holder"
  | entry => literal "Holder.StatusesEntry"

def key : FieldDescriptor EnumMapMessage where
  name := literal "key"
  number := 1
  type := .string
  isRepeated := false
  isMap := false
  isPacked := false
  messageType := none
  enumType := none

def value : FieldDescriptor EnumMapMessage where
  name := literal "value"
  number := 2
  type := .enum
  isRepeated := false
  isMap := false
  isPacked := false
  messageType := none
  enumType := some TestMessage.anEnum

def statuses : FieldDescriptor EnumMapMessage where
  name := literal "statuses"
  number := 1
  type := .message
  isRepeated := true
  isMap := true
  isPacked := false
  messageType := some entry
  enumType := none

def fields : EnumMapMessage → List (FieldDescriptor EnumMapMessage)
  | holder => [statuses]
  | entry => [key, value]

end EnumMapMessage

open EnumMapMessage in
def enumMapPool : DescriptorPool EnumMapMessage where
  findMessageTypeByName name := [holder, entry].find? fun message => message.fullName = name
  fullName := EnumMapMessage.fullName
  fields := EnumMapMessage.fields
  fullName_of_find name message found := by
    simpa using List.find?_some found
  colon_not_mem_fullName message := by
    cases message <;> decide
  field_valid message := by
    cases message <;> decide +kernel
  numbers_nodup message := by
    cases message <;> decide +kernel
  names_nodup message := by
    cases message <;> decide +kernel
  map_entry message field member isMap other isOther := by
    cases message with
    | holder =>
        rw [List.mem_singleton.mp member] at isOther
        cases isOther
        exact ⟨key, by decide, value, by decide, rfl, rfl, rfl, rfl, trivial⟩
    | entry =>
        have noMap : ∀ field ∈ EnumMapMessage.fields entry, field.isMap = false := by decide
        rw [noMap field member] at isMap
        cases isMap

def enumMapDb : DescDb EnumMapMessage where
  descSets name :=
    if name = literal "default" then some ⟨enumMapPool, fun _ contents => some contents⟩
    else none

/-- The values of a map of enums are selected without a descriptor of the enum. -/
theorem enumMap_assertionFailed :
    (compilePath enumMapPool zeroMemory (literal "statuses[*]") [] (rootPtrs .holder)
        [.descendIntoSubmessage]).map (fun compiled =>
          (compiled.1.type, compiled.1.enumDesc)) = .ok (.enum, none) ∧
      compileQuery enumMapDb zeroMemory (literal "Holder:statuses[*]") none =
        .error .assertionFailed :=
  ⟨rfl, rfl⟩

end PostgresProtobuf
