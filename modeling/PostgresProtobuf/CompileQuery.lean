import PostgresProtobuf.QueryImpl
import PostgresProtobuf.Foundation.IntegerText

/-! # Compiling a query

`QueryImpl::CompileQuery` finds the descriptor set and the message, splits the path
at its dots and turns each part into visitors while it follows the descriptors. -/

namespace PostgresProtobuf

open Foundation

variable {Message : Type}

structure Uninitialised where
  /-- The wanted key of the map filter at a position of the chain. -/
  wantedKey : Nat → UInt64
  bufferedKeyField : Nat → FieldInfo
  bufferedValueField : Nat → FieldInfo

structure DescPtrs (Message : Type) where
  type : FieldType
  desc : Option Message
  enumDesc : Option EnumDescriptor
  isRepeated : Bool
  isMap : Bool

def find (char : UInt8) (text : StdString) (start : Nat) : Option Nat :=
  ((text.drop start).findIdx? (· == char)).map (· + start)

/-- What `c_str()` shows of a string. -/
def cString (text : StdString) : StdString := text.takeWhile (· != 0)

def toInt (value : Int) : Int := Int.bmod value (2 ^ 32)

/-! ## Descriptor set and message -/

def getDescSet (descDb : DescDb Message) (query : StdString) :
    Except Exception (DescSet Message × Nat) :=
  let (name, queryStart) :=
    match find ':'.toUInt8 query 0 with
    | some colon =>
        if (find ':'.toUInt8 query (colon + 1)).isSome then
          (query.take colon, colon + 1)
        else
          (literal "default", 0)
    | none => (literal "default", 0)
  match descDb.descSets name with
  | some descSet => .ok (descSet, queryStart)
  | none => .error (.badQuery (literal "descriptor set not found: " ++ cString name))

def getDesc (descSet : DescSet Message) (query : StdString) (queryStart : Nat) :
    Except Exception (Message × Nat) :=
  match find ':'.toUInt8 query queryStart with
  | some colon =>
      match descSet.pool.findMessageTypeByName
          ((query.drop queryStart).take (colon - queryStart)) with
      | some desc => .ok (desc, colon + 1)
      | none =>
          .error (.badQuery (literal
            "unknown protobuf (did you remember to include the package name?)"))
  | none =>
      .error (.badQuery (literal ("invalid protobuf query - expected: " ++
        "[<descriptor_set>:]<message_name>:<path>")))

/-! ## Map keys -/

def invalidNumericKey (text : StdString) : Exception :=
  .badQuery (literal "invalid numeric key: " ++ text)

def numericKeyOutOfRange (text : StdString) : Exception :=
  .badQuery (literal "numeric key out of range key type: " ++ text)

def integerException (text : StdString) : IntegerFault → Exception
  | .invalidArgument => invalidNumericKey text
  | .outOfRange => numericKeyOutOfRange text

/-- `ParseNum` before the cast, for the signed types. -/
def parseSigned (text : StdString) : Except Exception Int :=
  match stoll text with
  | .ok (value, count) =>
      if count ≠ text.length then .error (invalidNumericKey text) else .ok value
  | .error fault => .error (integerException text fault)

def parseUnsigned (text : StdString) : Except Exception Nat :=
  match stoull text with
  | .ok (value, count) =>
      if count ≠ text.length then .error (invalidNumericKey text) else .ok value
  | .error fault => .error (integerException text fault)

def zigZagEncode (value : Int) : Nat :=
  if 0 ≤ value then (2 * value).toNat else (-2 * value - 1).toNat

def parseNumericMapKey (text : StdString) (type : FieldType) (value : FieldInfo.Value) :
    Except Exception FieldInfo.Value :=
  match type with
  | .int64 | .sfixed64 =>
      (parseSigned text).map fun number => value.setUInt64 (UInt64.ofInt number)
  | .uint64 | .fixed64 =>
      (parseUnsigned text).map fun number => value.setUInt64 (UInt64.ofNat number)
  | .int32 | .sfixed32 | .enum =>
      (parseSigned text).map fun number => value.setUInt32 (UInt32.ofInt (toInt number))
  | .fixed32 | .uint32 =>
      (parseUnsigned text).map fun number => value.setUInt32 (UInt32.ofNat number)
  | .bool =>
      if text = literal "true" then .ok (value.setUInt32 1)
      else if text = literal "false" then .ok (value.setUInt32 0)
      else .error (.badQuery (literal "invalid boolean map key: " ++ text))
  | .sint32 =>
      (parseSigned text).map fun number =>
        value.setUInt32 (UInt32.ofNat (zigZagEncode (toInt number)))
  | .sint64 =>
      (parseSigned text).map fun number =>
        value.setUInt64 (UInt64.ofNat (zigZagEncode number))
  | .double | .float | .string | .group | .message | .bytes =>
      .error (.badQuery
        (literal "unrecognized numeric key type: " ++ unsignedToString type.code))

def parseMapKey (text : StdString) (type : FieldType) (bits : UInt64) :
    Except Exception (FieldInfo × StdString) :=
  let wantedKeyField : FieldInfo := ⟨1, type.wireType, ⟨bits⟩⟩
  if type = .string then
    .ok ({ wantedKeyField with value := wantedKeyField.value.setSize text.length }, text)
  else
    (parseNumericMapKey text type wantedKeyField.value).map fun value =>
      ({ wantedKeyField with value := value }, [])

/-! ## Parts -/

def fieldSelectorEnd (part : StdString) : Nat :=
  match find '['.toUInt8 part 0, find '|'.toUInt8 part 0 with
  | some bracket, some pipe => min bracket pipe
  | some bracket, none => bracket
  | none, some pipe => pipe
  | none, none => part.length

def findField (pool : DescriptorPool Message) (desc : Message) (part : StdString) :
    Except Exception (FieldDescriptor Message) :=
  let notFound : Exception := .badQuery
    (literal "field not found: " ++ part ++ literal " in " ++ pool.fullName desc)
  let byNumber := match part with
    | first :: _ => IsDecimalDigit first
    | [] => false
  if byNumber then
    if (strtol part).2 ≠ fieldSelectorEnd part then
      .error (.badQuery (literal "invalid field number in query: " ++ part))
    else
      match pool.findFieldByNumber desc (toInt (strtol part).1) with
      | some field => .ok field
      | none => .error notFound
  else
    match pool.findFieldByName desc (part.take (fieldSelectorEnd part)) with
    | some field => .ok field
    | none => .error notFound

def compileMapSelector (pool : DescriptorPool Message) (uninitialised : Uninitialised)
    (position : Nat) (keysSelector : Bool) (filterStr : StdString)
    (descPtrs : DescPtrs Message) :
    Except Exception (DescPtrs Message × ChainVisitor) :=
  match descPtrs.desc with
  | none => .error .assertionFailed
  | some entry =>
      match pool.findFieldByNumber entry 1, pool.findFieldByNumber entry 2 with
      | some keyField, some valueField =>
          if keysSelector then
            -- `desc` keeps pointing at the entry.
            .ok ({ descPtrs with type := keyField.type },
              .allMapEntries (.new true keyField.type))
          else
            let descPtrs := { descPtrs with
              type := valueField.type
              desc := if valueField.type = .message then valueField.messageType else none }
            if filterStr = literal "*" then
              .ok (descPtrs, .allMapEntries (.new false valueField.type))
            else
              (parseMapKey filterStr keyField.type (uninitialised.wantedKey position)).map
                fun wanted =>
                  (descPtrs, .mapFilter (.new wanted.1 wanted.2 valueField.type
                    (uninitialised.bufferedKeyField position)
                    (uninitialised.bufferedValueField position)))
      | _, _ => .error (.badProto (literal "invalid map field"))

def parseIndex (filterStr : StdString) : Except Exception (Option Int) :=
  if filterStr = literal "*" then
    .ok none
  else
    match stoll filterStr with
    | .ok (value, count) =>
        if count ≠ filterStr.length then
          .error (.badQuery (literal "expected numeric indexer at: " ++ filterStr))
        else
          .ok (some (toInt value))
    | .error fault => .error (integerException filterStr fault)

def isBracketed (filterStr : StdString) : Bool :=
  filterStr.head? == some '['.toUInt8 && filterStr.getLast? == some ']'.toUInt8

def compileQueryPart (pool : DescriptorPool Message) (uninitialised : Uninitialised)
    (position : Nat) (part : StdString) (descPtrs : DescPtrs Message) :
    Except Exception (DescPtrs Message × List ChainVisitor) := do
  match descPtrs.desc with
  | none =>
      throw (.badQuery (literal "query does not refer to a known field: " ++ part))
  | some desc =>
      if part.isEmpty then
        throw (.badQuery (literal "unexpected empty query part"))
      let field ← findField pool desc part
      let descPtrs : DescPtrs Message :=
        { type := field.type
          desc := if field.type = .message then field.messageType else none
          enumDesc := if field.type = .enum then field.enumType else none
          isRepeated := field.isRepeated
          isMap := field.isMap }
      if !field.isRepeated && fieldSelectorEnd part != part.length then
        throw (.badQuery (literal
          "non-repeated field must not be followed by an array/map selector"))
      let selector := FieldSelector.new field.number field.type field.isPacked
      let filterStr := part.drop (fieldSelectorEnd part)
      if !field.isRepeated then
        return (descPtrs, [.fieldSelector selector])
      let bracketed := isBracketed filterStr
      let keysSelector := filterStr == literal "|keys"
      if !bracketed && !keysSelector then
        throw (.badQuery (literal ("repeated field must be followed by an array/map " ++
          "selector like '[*]', or '|keys' (for maps)")))
      let filterStr :=
        if bracketed then (filterStr.drop 1).take (filterStr.length - 2) else filterStr
      if bracketed && filterStr.isEmpty then
        throw (.badQuery (literal
          "empty array/map selector '[]' is invalid - did you mean '[*]'?"))
      if keysSelector && !field.isMap then
        throw (.badQuery (literal "'|keys' can only be used on maps"))
      if field.isMap then
        let (descPtrs, visitor) ← compileMapSelector pool uninitialised (position + 1)
          keysSelector filterStr descPtrs
        return (descPtrs, [.fieldSelector selector, visitor])
      else
        match ← parseIndex filterStr with
        | some index => return (descPtrs, [.fieldSelector (selector.setWantedIndex index)])
        | none => return (descPtrs, [.fieldSelector selector])

/-! ## Paths -/

/-- The loop of `CompileQuery` over the path, with the part read so far. -/
def compilePath (pool : DescriptorPool Message) (uninitialised : Uninitialised) :
    (path partBuf : StdString) → DescPtrs Message → List ChainVisitor →
      Except Exception (DescPtrs Message × List ChainVisitor)
  | [], partBuf, descPtrs, visitors =>
      if partBuf.isEmpty then
        .ok (descPtrs, visitors)
      else do
        let (descPtrs, compiled) ←
          compileQueryPart pool uninitialised visitors.length partBuf descPtrs
        return (descPtrs, visitors ++ compiled)
  | char :: path, partBuf, descPtrs, visitors =>
      if char = '.'.toUInt8 then do
        let (descPtrs, compiled) ←
          compileQueryPart pool uninitialised visitors.length partBuf descPtrs
        compilePath pool uninitialised path [] descPtrs
          (visitors ++ compiled ++ [.descendIntoSubmessage])
      else
        compilePath pool uninitialised path (partBuf ++ [char]) descPtrs visitors

def Emitter.create (pool : DescriptorPool Message) (descPtrs : DescPtrs Message)
    (limit : Option Nat) : Except Exception Emitter :=
  match descPtrs.type with
  | .message =>
      match descPtrs.desc with
      | some desc =>
          .ok (.new (.message (literal "type.googleapis.com/" ++ pool.fullName desc)) limit)
      | none => .error .assertionFailed
  | .enum =>
      match descPtrs.enumDesc with
      | some enumDesc => .ok (.new (.enum enumDesc) limit)
      | none => .error .assertionFailed
  | type => .ok (.new (.primitive type) limit)

def compileFrom (descSet : DescSet Message) (uninitialised : Uninitialised)
    (desc : Message) (path : StdString) (limit : Option Nat) :
    Except Exception QueryImpl := do
  let descPtrs : DescPtrs Message :=
    { type := .message, desc := some desc, enumDesc := none,
      isRepeated := false, isMap := false }
  let visitors := if path.isEmpty then [] else [ChainVisitor.descendIntoSubmessage]
  let (descPtrs, visitors) ←
    compilePath descSet.pool uninitialised path [] descPtrs visitors
  let emitter ← Emitter.create descSet.pool descPtrs limit
  return ⟨visitors ++ [.emitter emitter], descSet.binaryToJsonString⟩

def resolveQuery (descDb : DescDb Message) (query : StdString) :
    Except Exception (DescSet Message × Message × StdString) := do
  let (descSet, queryStart) ← getDescSet descDb query
  let (desc, queryStart) ← getDesc descSet query queryStart
  return (descSet, desc, query.drop queryStart)

def compileQuery (descDb : DescDb Message) (uninitialised : Uninitialised)
    (query : StdString) (limit : Option Nat) : Except Exception QueryImpl := do
  let (descSet, desc, path) ← resolveQuery descDb query
  compileFrom descSet uninitialised desc path limit

end PostgresProtobuf
