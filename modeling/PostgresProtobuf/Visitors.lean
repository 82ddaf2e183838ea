import PostgresProtobuf.ProtobufTraverser
import PostgresProtobuf.Descriptor

/-! # The visitors

The classes derived from `ProtobufVisitor`, each with its members and the part
of its callbacks that touches only the object itself. -/

namespace PostgresProtobuf

open Foundation

/-! ## Treatments by type -/

def compositeFieldTreatmentForType : FieldType → LengthDelimitedFieldTreatment
  | .message => .asSubmessage
  | .string => .asString
  | .bytes => .asBytes
  | _ => .skip

def packedCompositeFieldTreatmentForType (type : FieldType) :
    LengthDelimitedFieldTreatment :=
  match type.wireType with
  | 0 => .asPackedVarint
  | 1 => .asPacked64
  | 5 => .asPacked32
  | _ => .skip

/-! ## Emitters -/

def zigZagDecode (encoded : Nat) : Int :=
  if encoded % 2 = 0 then (encoded / 2 : Nat) else -((encoded / 2 : Nat) : Int) - 1

def hexadecimal (width value : Nat) : StdString :=
  let digits := (Nat.toDigits 16 value).map fun digit => digit.toUpper.toUInt8
  List.replicate (width - digits.length) '0'.toUInt8 ++ digits

/-- `static_cast<unsigned int>` of a `char`, which is signed. -/
def charToUnsigned (char : UInt8) : Nat :=
  (char.toBitVec.signExtend 32).toNat

/-- `PrimitiveEmitter`, `EnumEmitter` and `MessageEmitter` with their members. -/
inductive EmitterKind
  | primitive (type : FieldType)
  | enum (descriptor : EnumDescriptor)
  | message (typeUrl : StdString)
  deriving DecidableEq

structure Emitter where
  kind : EmitterKind
  limit : Option Nat
  deriving DecidableEq

/-- The constructor takes a limit but only initialises the type, so `limit_` keeps
its default. -/
def Emitter.new (kind : EmitterKind) (_limit : Option Nat) : Emitter where
  kind := kind
  limit := none

namespace EmitterKind

def readLengthDelimitedField : EmitterKind → LengthDelimitedFieldTreatment
  | primitive type => compositeFieldTreatmentForType type
  | enum _ => .skip
  | message _ => .buffer

def primitiveRow (utils : PostgresUtils) (type : FieldType) (value : FieldInfo.Value) :
    Except Exception StdString :=
  match type with
  | .double => .ok (utils.doubleToString value.asUInt64)
  | .float => .ok (utils.floatToString value.asUInt32)
  | .int64 | .sfixed64 => .ok (signedToString value.asUInt64.toBitVec.toInt)
  | .uint64 | .fixed64 => .ok (unsignedToString value.asUInt64.toNat)
  | .int32 | .sfixed32 => .ok (signedToString value.asUInt32.toBitVec.toInt)
  | .fixed32 | .uint32 => .ok (unsignedToString value.asUInt32.toNat)
  | .bool => .ok (if value.asUInt64 ≠ 0 then literal "true" else literal "false")
  | .sint32 => .ok (signedToString (zigZagDecode value.asUInt32.toNat))
  | .sint64 => .ok (signedToString (zigZagDecode value.asUInt64.toNat))
  | .string | .group | .message | .bytes | .enum =>
      .error (.badProto
        (literal "unrecognized primitive field type: " ++ unsignedToString type.code))

/-- The row for an enum number. The lookup narrows the payload to `int`, the
fallback prints all 64 bits. -/
def enumRow (descriptor : EnumDescriptor) (value : FieldInfo.Value) : StdString :=
  match descriptor.findValueByNumber value.asUInt32.toBitVec.toInt with
  | some name => name
  | none => unsignedToString value.asUInt64.toNat

def readPrimitive (utils : PostgresUtils) (kind : EmitterKind) (field : FieldInfo) :
    Except Exception (Option StdString) :=
  match kind with
  | primitive type => (primitiveRow utils type field.value).map some
  | enum descriptor => .ok (some (enumRow descriptor field.value))
  | message _ => .ok none

/-- `ReadString`: only `PrimitiveEmitter` overrides it. -/
def readString (kind : EmitterKind) (contents : StdString) : Option StdString :=
  match kind with
  | primitive _ => some contents
  | _ => none

def bytesRow (contents : StdString) : StdString :=
  literal "\\x" ++ (contents.map fun char => hexadecimal 2 (charToUnsigned char)).flatten

def readBytes (kind : EmitterKind) (contents : StdString) : Option StdString :=
  match kind with
  | primitive _ => some (bytesRow contents)
  | _ => none

/-- `BufferedValue`: only `MessageEmitter` overrides it. -/
def bufferedValue (binaryToJsonString : StdString → Bytes → Option StdString)
    (kind : EmitterKind) (contents : StdString) : Except Exception (Option StdString) :=
  match kind with
  | message typeUrl =>
      if typeUrl.isEmpty then
        .error (.badQuery (literal "result type not known"))
      else
        match binaryToJsonString typeUrl contents with
        | some json => .ok (some json)
        | none => .error (.badProto (literal "failed to convert submessage to JSON"))
  | _ => .ok none

end EmitterKind

/-! ## Field selectors -/

inductive FieldSelector.State
  | scanning
  | emittingPacked
  | emittingOtherComposite
  deriving DecidableEq

structure FieldSelector where
  wantedField : Int
  type : FieldType
  isPacked : Bool
  wantedIndex : Option Int
  state : FieldSelector.State
  currentField : Int
  currentIndex : Int
  deriving DecidableEq

namespace FieldSelector

def new (wantedField : Int) (type : FieldType) (isPacked : Bool) : FieldSelector where
  wantedField := wantedField
  type := type
  isPacked := isPacked
  wantedIndex := none
  state := .scanning
  currentField := 0
  currentIndex := 0

def setWantedIndex (selector : FieldSelector) (wantedIndex : Int) : FieldSelector :=
  { selector with wantedIndex := some wantedIndex }

def shouldEmitCurrentIndex (selector : FieldSelector) : Bool :=
  selector.currentField == selector.wantedField &&
    (selector.wantedIndex.isNone ||
      selector.wantedIndex == some selector.currentIndex)

/-- `BeginField`; the flag says that `next_` is returned. -/
def beginField (selector : FieldSelector) (number : Int) (wireType : Nat) :
    FieldSelector × Bool :=
  let selector := { selector with currentField := number }
  if wireType = 2 then
    if selector.isPacked then
      ({ selector with state := .emittingPacked }, false)
    else if selector.shouldEmitCurrentIndex then
      if selector.type = .message then
        (selector, true)
      else
        ({ selector with state := .emittingOtherComposite }, false)
    else
      (selector, false)
  else
    (selector, selector.shouldEmitCurrentIndex)

def readLengthDelimitedField (selector : FieldSelector) :
    LengthDelimitedFieldTreatment × Bool :=
  if selector.state = .emittingPacked then
    (packedCompositeFieldTreatmentForType selector.type, false)
  else if selector.shouldEmitCurrentIndex then
    (compositeFieldTreatmentForType selector.type,
      decide (selector.state = .emittingOtherComposite))
  else
    (.skip, false)

def endField (selector : FieldSelector) : FieldSelector :=
  if selector.currentField = selector.wantedField then
    { selector with currentIndex := selector.currentIndex + 1 }
  else
    selector

def popped (selector : FieldSelector) : FieldSelector :=
  { selector with state := .scanning, currentField := 0, currentIndex := 0 }

end FieldSelector

/-! ## Map filters -/

inductive MapFilter.Scope
  | outermost
  | inEntry
  | inKey
  | inValue
  deriving DecidableEq

structure MapFilter where
  wantedKeyField : FieldInfo
  wantedKeyContents : StdString
  valueType : FieldType
  scope : MapFilter.Scope
  bufferedKeyField : FieldInfo
  bufferedKeyContents : StdString
  bufferedValueField : FieldInfo
  bufferedValueContents : StdString
  deriving DecidableEq

namespace MapFilter

/-- The constructor leaves the two buffered fields as it finds them. -/
def new (wantedKeyField : FieldInfo) (wantedKeyContents : StdString)
    (valueType : FieldType) (bufferedKeyField bufferedValueField : FieldInfo) :
    MapFilter where
  wantedKeyField := wantedKeyField
  wantedKeyContents := wantedKeyContents
  valueType := valueType
  scope := .outermost
  bufferedKeyField := bufferedKeyField
  bufferedKeyContents := []
  bufferedValueField := bufferedValueField
  bufferedValueContents := []

def beginField (filter : MapFilter) (number : Int) (wireType : Nat) : MapFilter :=
  if wireType = 2 ∧ filter.scope = .outermost then
    { filter with scope := .inEntry }
  else if filter.scope = .inEntry then
    if number = 1 then { filter with scope := .inKey }
    else if number = 2 then { filter with scope := .inValue }
    else filter
  else
    filter

def beginMessage (filter : MapFilter) : MapFilter :=
  if filter.scope = .outermost then { filter with scope := .inEntry } else filter

def readPrimitive (filter : MapFilter) (field : FieldInfo) : MapFilter :=
  match filter.scope with
  | .inKey => { filter with bufferedKeyField := field }
  | .inValue => { filter with bufferedValueField := field }
  | _ => filter

def readLengthDelimitedField (filter : MapFilter) (field : FieldInfo) :
    MapFilter × LengthDelimitedFieldTreatment :=
  match filter.scope with
  | .inEntry => (filter, .asSubmessage)
  | .inKey => ({ filter with bufferedKeyField := field }, .buffer)
  | .inValue => ({ filter with bufferedValueField := field }, .buffer)
  | .outermost => (filter, .skip)

def bufferedValue (filter : MapFilter) (contents : StdString) : MapFilter :=
  match filter.scope with
  | .inKey => { filter with bufferedKeyContents := contents }
  | .inValue => { filter with bufferedValueContents := contents }
  | _ => filter

def leaveScope (filter : MapFilter) : MapFilter :=
  match filter.scope with
  | .inKey => { filter with scope := .inEntry }
  | .inValue => { filter with scope := .inEntry }
  | _ => { filter with scope := .outermost }

def keyMatches (filter : MapFilter) : Bool :=
  filter.bufferedKeyField.valueEquals filter.wantedKeyField &&
    filter.bufferedKeyContents == filter.wantedKeyContents

def reset (filter : MapFilter) : MapFilter :=
  { filter with
    scope := .outermost
    bufferedKeyField := FieldInfo.zero
    bufferedValueField := FieldInfo.zero
    bufferedKeyContents := []
    bufferedValueContents := [] }

end MapFilter

/-! ## All map entries -/

inductive AllMapEntries.Scope
  | outermost
  | inEntry
  | inWantedField
  | inUnwantedOtherField
  deriving DecidableEq

structure AllMapEntries where
  wantKeys : Bool
  type : FieldType
  scope : AllMapEntries.Scope
  deriving DecidableEq

namespace AllMapEntries

def new (wantKeys : Bool) (type : FieldType) : AllMapEntries where
  wantKeys := wantKeys
  type := type
  scope := .outermost

def wants (entries : AllMapEntries) (number : Int) : Bool :=
  (number == 1 && entries.wantKeys) || (number == 2 && !entries.wantKeys)

def beginField (entries : AllMapEntries) (number : Int) : AllMapEntries × Bool :=
  match entries.scope with
  | .outermost => ({ entries with scope := .inEntry }, false)
  | .inEntry =>
      if entries.wants number then
        ({ entries with scope := .inWantedField }, true)
      else
        ({ entries with scope := .inUnwantedOtherField }, false)
  | _ => (entries, false)

def readLengthDelimitedField (entries : AllMapEntries) :
    LengthDelimitedFieldTreatment × Bool :=
  match entries.scope with
  | .inEntry => (.asSubmessage, false)
  | .inWantedField => (compositeFieldTreatmentForType entries.type, true)
  | _ => (.skip, false)

def endField (entries : AllMapEntries) : AllMapEntries :=
  match entries.scope with
  | .inWantedField => { entries with scope := .inEntry }
  | .inUnwantedOtherField => { entries with scope := .inEntry }
  | _ => { entries with scope := .outermost }

end AllMapEntries

end PostgresProtobuf
