import PostgresProtobuf.FieldInfo
import Mathlib.Data.List.Nodup

/-! # Descriptors

The protobuf library's descriptors, as far as queries look at them. A pool
carries the facts that the library checks when it builds descriptors. -/

namespace PostgresProtobuf

open Foundation

inductive FieldType
  | double | float | int64 | uint64 | int32 | fixed64 | fixed32 | bool | string
  | group | message | bytes | uint32 | enum | sfixed32 | sfixed64 | sint32 | sint64
  deriving DecidableEq, Repr

namespace FieldType

def code : FieldType → Nat
  | double => 1 | float => 2 | int64 => 3 | uint64 => 4 | int32 => 5
  | fixed64 => 6 | fixed32 => 7 | bool => 8 | string => 9 | group => 10
  | message => 11 | bytes => 12 | uint32 => 13 | enum => 14 | sfixed32 => 15
  | sfixed64 => 16 | sint32 => 17 | sint64 => 18

def wireType : FieldType → Nat
  | int64 | uint64 | int32 | bool | uint32 | enum | sint32 | sint64 => 0
  | double | fixed64 | sfixed64 => 1
  | string | message | bytes => 2
  | group => 3
  | float | fixed32 | sfixed32 => 5

def Packable (type : FieldType) : Prop :=
  type.wireType = 0 ∨ type.wireType = 1 ∨ type.wireType = 5

def MapKey : FieldType → Prop
  | double | float | bytes | enum | message | group => False
  | _ => True

instance (type : FieldType) : Decidable type.Packable := by
  unfold Packable
  infer_instance

instance (type : FieldType) : Decidable type.MapKey := by
  cases type <;> unfold MapKey <;> infer_instance

end FieldType

structure EnumDescriptor where
  fullName : StdString
  values : List (Int × StdString)
  deriving DecidableEq, Repr

def EnumDescriptor.findValueByNumber (descriptor : EnumDescriptor) (number : Int) :
    Option StdString :=
  (descriptor.values.find? fun value => value.1 = number).map Prod.snd

/-- Message descriptors are handles of an arbitrary type. -/
structure FieldDescriptor (Message : Type) where
  name : StdString
  number : Int
  type : FieldType
  isRepeated : Bool
  isMap : Bool
  isPacked : Bool
  messageType : Option Message
  enumType : Option EnumDescriptor
  deriving DecidableEq

def IsIdentifier (name : StdString) : Prop :=
  (∃ first rest, name = first :: rest ∧
    ¬ ('0'.toUInt8 ≤ first ∧ first ≤ '9'.toUInt8)) ∧
  ∀ char ∈ name,
    ('a'.toUInt8 ≤ char ∧ char ≤ 'z'.toUInt8) ∨
    ('A'.toUInt8 ≤ char ∧ char ≤ 'Z'.toUInt8) ∨
    ('0'.toUInt8 ≤ char ∧ char ≤ '9'.toUInt8) ∨ char = '_'.toUInt8

instance (name : StdString) : Decidable (IsIdentifier name) := by
  unfold IsIdentifier
  have first : Decidable (∃ first rest, name = first :: rest ∧
      ¬ ('0'.toUInt8 ≤ first ∧ first ≤ '9'.toUInt8)) :=
    match name with
    | [] => isFalse (by simp)
    | first :: rest =>
        decidable_of_iff (¬ ('0'.toUInt8 ≤ first ∧ first ≤ '9'.toUInt8)) (by
          constructor
          · exact fun holds => ⟨first, rest, rfl, holds⟩
          · rintro ⟨_, _, ⟨rfl, rfl⟩, holds⟩
            exact holds)
  exact @instDecidableAnd _ _ first (List.decidableBAll _ _)

/-- What the library guarantees of one field. -/
structure FieldDescriptor.Valid {Message : Type} (field : FieldDescriptor Message) :
    Prop where
  number_pos : 0 < field.number
  number_lt : field.number < 2 ^ 29
  name_identifier : IsIdentifier field.name
  messageType_isSome : field.messageType.isSome ↔
    field.type = .message ∨ field.type = .group
  enumType_isSome : field.enumType.isSome ↔ field.type = .enum
  packed : field.isPacked = true → field.isRepeated = true ∧ field.type.Packable
  map : field.isMap = true → field.isRepeated = true ∧ field.type = .message

instance {Message : Type} (field : FieldDescriptor Message) : Decidable field.Valid :=
  decidable_of_iff
    (0 < field.number ∧ field.number < 2 ^ 29 ∧ IsIdentifier field.name ∧
      (field.messageType.isSome ↔ field.type = .message ∨ field.type = .group) ∧
      (field.enumType.isSome ↔ field.type = .enum) ∧
      (field.isPacked = true → field.isRepeated = true ∧ field.type.Packable) ∧
      (field.isMap = true → field.isRepeated = true ∧ field.type = .message))
    ⟨fun ⟨positive, bound, identifier, message, enum, packed, map⟩ =>
        ⟨positive, bound, identifier, message, enum, packed, map⟩,
      fun valid => ⟨valid.number_pos, valid.number_lt, valid.name_identifier,
        valid.messageType_isSome, valid.enumType_isSome, valid.packed, valid.map⟩⟩

/-- A descriptor pool. A map field is a repeated field of entry messages with a
key field 1 and a value field 2. -/
structure DescriptorPool (Message : Type) where
  findMessageTypeByName : StdString → Option Message
  fullName : Message → StdString
  fields : Message → List (FieldDescriptor Message)
  fullName_of_find : ∀ name message,
    findMessageTypeByName name = some message → fullName message = name
  colon_not_mem_fullName : ∀ message, ':'.toUInt8 ∉ fullName message
  field_valid : ∀ message, ∀ field ∈ fields message, field.Valid
  numbers_nodup : ∀ message, ((fields message).map FieldDescriptor.number).Nodup
  names_nodup : ∀ message, ((fields message).map FieldDescriptor.name).Nodup
  map_entry : ∀ message, ∀ field ∈ fields message, field.isMap = true →
    ∀ entry, field.messageType = some entry →
      ∃ key ∈ fields entry, ∃ value ∈ fields entry,
        key.number = 1 ∧ value.number = 2 ∧ key.isRepeated = false ∧
          value.isRepeated = false ∧ key.type.MapKey

namespace DescriptorPool

variable {Message : Type} (pool : DescriptorPool Message)

def findFieldByNumber (message : Message) (number : Int) :
    Option (FieldDescriptor Message) :=
  (pool.fields message).find? fun field => field.number = number

def findFieldByName (message : Message) (name : StdString) :
    Option (FieldDescriptor Message) :=
  (pool.fields message).find? fun field => field.name = name

variable {pool}

theorem findFieldByNumber_eq_some {message : Message} {number : Int}
    {field : FieldDescriptor Message}
    (found : pool.findFieldByNumber message number = some field) :
    field ∈ pool.fields message ∧ field.number = number :=
  ⟨List.mem_of_find?_eq_some found, by simpa using List.find?_some found⟩

theorem findFieldByName_eq_some {message : Message} {name : StdString}
    {field : FieldDescriptor Message}
    (found : pool.findFieldByName message name = some field) :
    field ∈ pool.fields message ∧ field.name = name :=
  ⟨List.mem_of_find?_eq_some found, by simpa using List.find?_some found⟩

theorem findFieldByNumber_of_mem {message : Message} {field : FieldDescriptor Message}
    (member : field ∈ pool.fields message) :
    pool.findFieldByNumber message field.number = some field := by
  cases found : pool.findFieldByNumber message field.number with
  | none =>
      rw [findFieldByNumber, List.find?_eq_none] at found
      exact absurd (decide_eq_true rfl) (found field member)
  | some other =>
      rcases findFieldByNumber_eq_some found with ⟨otherMember, sameNumber⟩
      exact congrArg some (List.inj_on_of_nodup_map (pool.numbers_nodup message) otherMember
        member sameNumber)

theorem findFieldByName_of_mem {message : Message} {field : FieldDescriptor Message}
    (member : field ∈ pool.fields message) :
    pool.findFieldByName message field.name = some field := by
  cases found : pool.findFieldByName message field.name with
  | none =>
      rw [findFieldByName, List.find?_eq_none] at found
      exact absurd (decide_eq_true rfl) (found field member)
  | some other =>
      rcases findFieldByName_eq_some found with ⟨otherMember, sameName⟩
      exact congrArg some (List.inj_on_of_nodup_map (pool.names_nodup message) otherMember
        member sameName)

end DescriptorPool

/-- `descriptor_db::DescSet`. Its type resolver is only handed on to
`BinaryToJsonString`, which converts a message of the type with the given URL;
`none` is a status that is not ok. -/
structure DescSet (Message : Type) where
  pool : DescriptorPool Message
  binaryToJsonString : StdString → Bytes → Option StdString

/-- `descriptor_db::DescDb`: the descriptor sets by name. -/
structure DescDb (Message : Type) where
  descSets : StdString → Option (DescSet Message)

/-- The float formatting of `postgres_utils`, which depends on the server. -/
structure PostgresUtils where
  doubleToString : UInt64 → StdString
  floatToString : UInt32 → StdString

end PostgresProtobuf
