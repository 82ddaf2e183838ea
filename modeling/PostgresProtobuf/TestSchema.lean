import PostgresProtobuf.FieldPaths
import Mathlib.Data.Fintype.Defs
import Mathlib.Data.Fintype.Basic

/-! # The schema of the tests

Most of `test_protos/main_descriptor_set.proto`, on which concrete queries are run. -/

namespace PostgresProtobuf

open Foundation

inductive TestMessage
  | exampleMessage
  | innerMessage
  | scalars
  | mapStr2strEntry
  | mapInt2strEntry
  | mapInt2intEntry
  | mapStr2innerEntry
  deriving DecidableEq

namespace TestMessage

def all : List TestMessage :=
  [exampleMessage, innerMessage, scalars, mapStr2strEntry, mapInt2strEntry,
    mapInt2intEntry, mapStr2innerEntry]

instance : Fintype TestMessage where
  elems := ⟨all, by decide⟩
  complete message := by cases message <;> decide

def fullName : TestMessage → StdString
  | exampleMessage => literal "pgpb.test.ExampleMessage"
  | innerMessage => literal "pgpb.test.ExampleMessage.InnerMessage"
  | scalars => literal "pgpb.test.Scalars"
  | mapStr2strEntry => literal "pgpb.test.ExampleMessage.MapStr2strEntry"
  | mapInt2strEntry => literal "pgpb.test.ExampleMessage.MapInt2strEntry"
  | mapInt2intEntry => literal "pgpb.test.ExampleMessage.MapInt2intEntry"
  | mapStr2innerEntry => literal "pgpb.test.ExampleMessage.MapStr2innerEntry"

def anEnum : EnumDescriptor where
  fullName := literal "pgpb.test.AnEnum"
  values :=
    [(0, literal "EnumValue0"), (1, literal "EnumValue1"), (2, literal "EnumValue2")]

def single (name : String) (number : Int) (type : FieldType) :
    FieldDescriptor TestMessage where
  name := literal name
  number := number
  type := type
  isRepeated := false
  isMap := false
  isPacked := false
  messageType := none
  enumType := if type = .enum then some anEnum else none

/-- Fields of packable types are packed, as `proto3` has it. -/
def repeatedField (name : String) (number : Int) (type : FieldType) :
    FieldDescriptor TestMessage :=
  { single name number type with
    isRepeated := true
    isPacked := decide type.Packable }

def ofMessage (name : String) (number : Int) (isRepeated isMap : Bool)
    (messageType : TestMessage) : FieldDescriptor TestMessage :=
  { single name number .message with
    isRepeated := isRepeated
    isMap := isMap
    messageType := some messageType }

def entry (keyType : FieldType) (value : FieldDescriptor TestMessage) :
    List (FieldDescriptor TestMessage) :=
  [single "key" 1 keyType, value]

def fields : TestMessage → List (FieldDescriptor TestMessage)
  | exampleMessage =>
      [ofMessage "scalars" 1 false false scalars,
        repeatedField "repeated_int32" 2 .int32,
        repeatedField "repeated_string" 3 .string,
        ofMessage "inner" 4 false false innerMessage,
        ofMessage "repeated_inner" 5 true false innerMessage,
        single "an_enum" 6 .enum,
        ofMessage "map_str2str" 7 true true mapStr2strEntry,
        ofMessage "map_int2str" 8 true true mapInt2strEntry,
        ofMessage "map_int2int" 9 true true mapInt2intEntry,
        ofMessage "map_str2inner" 10 true true mapStr2innerEntry]
  | innerMessage =>
      [single "inner_str" 1 .string,
        repeatedField "inner_repeated" 2 .string,
        ofMessage "repeated_inner" 3 true false innerMessage]
  | scalars =>
      [single "int32_field" 3 .int32,
        single "int64_field" 4 .int64,
        single "sint32_field" 7 .sint32,
        single "bool_field" 13 .bool,
        single "string_field" 14 .string,
        single "bytes_field" 15 .bytes]
  | mapStr2strEntry => entry .string (single "value" 2 .string)
  | mapInt2strEntry => entry .int32 (single "value" 2 .string)
  | mapInt2intEntry => entry .int32 (single "value" 2 .int32)
  | mapStr2innerEntry => entry .string (ofMessage "value" 2 false false innerMessage)

def IsEntry (message : TestMessage) : Prop :=
  ∃ key ∈ message.fields, ∃ value ∈ message.fields,
    key.number = 1 ∧ value.number = 2 ∧ key.isRepeated = false ∧
      value.isRepeated = false ∧ key.type.MapKey

instance (message : TestMessage) : Decidable message.IsEntry := by
  unfold IsEntry
  infer_instance

theorem isEntry_of_isMap (message : TestMessage) : ∀ field ∈ message.fields,
    field.isMap = true → ∀ entry, field.messageType = some entry → entry.IsEntry := by
  cases message <;> decide

end TestMessage

open TestMessage in
def testPool : DescriptorPool TestMessage where
  findMessageTypeByName name := all.find? fun message => message.fullName = name
  fullName := TestMessage.fullName
  fields := TestMessage.fields
  fullName_of_find name message found := by
    simpa using List.find?_some found
  colon_not_mem_fullName message := by
    cases message <;> decide
  field_valid message := by
    cases message <;> decide +kernel
  numbers_nodup message := by
    cases message <;> decide +kernel
  names_nodup message := by
    cases message <;> decide +kernel
  map_entry := isEntry_of_isMap

def testSet : DescSet TestMessage where
  pool := testPool
  binaryToJsonString _ contents := some contents

def zeroMemory : Uninitialised where
  wantedKey _ := 0
  bufferedKeyField _ := FieldInfo.zero
  bufferedValueField _ := FieldInfo.zero

def compileTest (message : TestMessage) (path : String) : Except Exception QueryImpl :=
  compileFrom testSet zeroMemory message (literal path) none

/-- The query for a path; one without objects stands for a path that is rejected. -/
def testQuery (message : TestMessage) (path : String) : QueryImpl :=
  match compileTest message path with
  | .ok query => query
  | .error _ => ⟨[], testSet.binaryToJsonString⟩

theorem compileTest_eq_ok {message : TestMessage} {path : String}
    (accepts : (compileTest message path).isOk = true) :
    compileTest message path = .ok (testQuery message path) := by
  unfold testQuery
  cases compiled : compileTest message path with
  | error exception => simp [compiled, Except.isOk, Except.toBool] at accepts
  | ok query => rfl

def testDb : DescDb TestMessage where
  descSets name := if name = literal "default" then some testSet else none

def testUtils : PostgresUtils where
  doubleToString bits := unsignedToString bits.toNat
  floatToString bits := unsignedToString bits.toNat

def testHost : Host TestMessage := ⟨testSet, zeroMemory, testUtils, fun _ => 0⟩

end PostgresProtobuf
