import PostgresProtobuf.CodedInputStream
import PostgresProtobuf.FieldInfo

/-! # The traverser

`ProtobufTraverser` drives a stack of visitors over a stream. It is generic in
the family of visitors: their callbacks are programs over a memory that the
traverser does not look into. -/

namespace PostgresProtobuf

open Foundation

inductive LengthDelimitedFieldTreatment
  | skip
  | buffer
  | asString
  | asBytes
  | asSubmessage
  | asPackedVarint
  | asPacked32
  | asPacked64
  deriving DecidableEq, Repr

/-- Ghost record of the message levels that are scanned. No code reads it. -/
inductive ScanEvent (Stream : Type)
  | enterMessage (stream : Stream)
  | leaveMessage

structure World (Memory Stream : Type) where
  memory : Memory
  /-- The number of `FieldInfo` locals declared so far. -/
  locals : Nat
  scanned : List (ScanEvent Stream)

structure VisitorFamily (Visitor Memory Stream : Type) where
  noOp : Visitor
  pushed : Visitor → Program (World Memory Stream) Unit
  beginField : Visitor → Int → Nat → Program (World Memory Stream) Visitor
  readPrimitive : Visitor → FieldInfo → Program (World Memory Stream) Unit
  readLengthDelimitedField : Visitor → FieldInfo →
    Program (World Memory Stream) (LengthDelimitedFieldTreatment × Visitor)
  readString : Visitor → StdString → Program (World Memory Stream) Unit
  readBytes : Visitor → StdString → Program (World Memory Stream) Unit
  bufferedValue : Visitor → StdString → Program (World Memory Stream) Unit
  beginMessage : Visitor → Program (World Memory Stream) Visitor
  endField : Visitor → Program (World Memory Stream) Unit
  popped : Visitor → Program (World Memory Stream) Unit

structure StackElement (Visitor : Type) where
  visitor : Visitor
  depthAdded : Int

/-- The top of the stack is the head of the list. -/
structure ProtobufTraverser (Visitor : Type) where
  visitorStack : List (StackElement Visitor)
  visitor : Visitor
  depth : Int

/-- What a scan depends on besides its arguments: the visitors, the bits found
in the n-th `FieldInfo` local, and the turns allowed to a handover loop. -/
structure ScanContext (Visitor Memory Stream : Type) where
  visitors : VisitorFamily Visitor Memory Stream
  localBits : Nat → UInt64
  handovers : Nat

section

variable {Visitor Memory Stream : Type} [DecidableEq Visitor]
variable [CodedInputStream Stream]

def declareFieldInfo (context : ScanContext Visitor Memory Stream) (number : Int)
    (wireType : Nat) : Program (World Memory Stream) FieldInfo := do
  let world ← get
  set { world with locals := world.locals + 1 }
  return ⟨number, wireType, ⟨context.localBits world.locals⟩⟩

def record (event : ScanEvent Stream) : Program (World Memory Stream) Unit :=
  modify fun world => { world with scanned := world.scanned ++ [event] }

def readFieldValueOrSize (field : FieldInfo) (stream : Stream) :
    Program (World Memory Stream) (FieldInfo × Stream) :=
  match field.wireType with
  | 0 =>
      match CodedInputStream.readVarint64 stream with
      | some (value, stream) =>
          return ({ field with value := field.value.setUInt64 value }, stream)
      | none => throw (.badProto (literal "failed to read varint field"))
  | 1 =>
      match CodedInputStream.readLittleEndian64 stream with
      | some (value, stream) =>
          return ({ field with value := field.value.setUInt64 value }, stream)
      | none => throw (.badProto (literal "failed to read 64-bit field"))
  | 2 =>
      match CodedInputStream.readVarintSizeAsInt stream with
      | some (size, stream) =>
          return ({ field with value := field.value.setSize size }, stream)
      | none => throw (.badProto (literal "failed to read size varint"))
  -- Wire types 3 and 4 (groups) are not supported.
  | 5 =>
      match CodedInputStream.readLittleEndian32 stream with
      | some (value, stream) =>
          return ({ field with value := field.value.setUInt32 value }, stream)
      | none => throw (.badProto (literal "failed to read 32-bit field"))
  | wireType =>
      throw (.badProto (literal "unrecognized wire_type " ++ unsignedToString wireType))

end

namespace ProtobufTraverser

variable {Visitor Memory Stream : Type} [DecidableEq Visitor]
variable [CodedInputStream Stream]

def new (family : VisitorFamily Visitor Memory Stream) : ProtobufTraverser Visitor where
  visitorStack := []
  visitor := family.noOp
  depth := 0

variable (context : ScanContext Visitor Memory Stream)

def pushVisitor (visitor : Visitor) (traverser : ProtobufTraverser Visitor) :
    Program (World Memory Stream) (ProtobufTraverser Visitor) := do
  context.visitors.pushed visitor
  return { traverser with
    visitorStack := ⟨visitor, traverser.depth⟩ :: traverser.visitorStack
    visitor := visitor }

def popVisitor (traverser : ProtobufTraverser Visitor) :
    Program (World Memory Stream) (ProtobufTraverser Visitor) := do
  match traverser.visitorStack with
  | [] => return { traverser with visitor := context.visitors.noOp }
  | popped :: rest =>
      context.visitors.popped popped.visitor
      match rest with
      | [] =>
          return { traverser with visitorStack := [], visitor := context.visitors.noOp }
      | top :: _ =>
          return { traverser with visitorStack := rest, visitor := top.visitor }

/-- The handover loop of `IncrementDepthAndCallBeginField`. -/
def callBeginField : (handovers : Nat) → Int → Nat → ProtobufTraverser Visitor →
    Program (World Memory Stream) (ProtobufTraverser Visitor)
  | 0, _, _, _ => throw .outOfFuel
  | handovers + 1, number, wireType, traverser => do
      let newVisitor ← context.visitors.beginField traverser.visitor number wireType
      if newVisitor = traverser.visitor then
        return traverser
      else
        let traverser ← pushVisitor context newVisitor traverser
        callBeginField handovers number wireType traverser

def incrementDepthAndCallBeginField (number : Int) (wireType : Nat)
    (traverser : ProtobufTraverser Visitor) :
    Program (World Memory Stream) (ProtobufTraverser Visitor) :=
  callBeginField context context.handovers number wireType
    { traverser with depth := traverser.depth + 1 }

/-- The handover loop of `CallBeginMessage`. -/
def callBeginMessageWithin : (handovers : Nat) → ProtobufTraverser Visitor →
    Program (World Memory Stream) (ProtobufTraverser Visitor)
  | 0, _ => throw .outOfFuel
  | handovers + 1, traverser => do
      let newVisitor ← context.visitors.beginMessage traverser.visitor
      if newVisitor = traverser.visitor then
        return traverser
      else
        let traverser ← pushVisitor context newVisitor traverser
        callBeginMessageWithin handovers traverser

def callBeginMessage (traverser : ProtobufTraverser Visitor) :
    Program (World Memory Stream) (ProtobufTraverser Visitor) :=
  callBeginMessageWithin context context.handovers traverser

/-- The loop of `DecrementDepthAndEndFieldAndPopVisitors`. Each turn pops one
visitor, so the height of the stack bounds the turns. -/
def endFieldAndPopVisitors : (height : Nat) → ProtobufTraverser Visitor →
    Program (World Memory Stream) (ProtobufTraverser Visitor)
  | 0, traverser => return traverser
  | height + 1, traverser =>
      match traverser.visitorStack with
      | [] => return traverser
      | top :: _ =>
          if top.depthAdded > traverser.depth then do
            let traverser ← popVisitor context traverser
            context.visitors.endField traverser.visitor
            endFieldAndPopVisitors height traverser
          else
            return traverser

def decrementDepthAndEndFieldAndPopVisitors (traverser : ProtobufTraverser Visitor) :
    Program (World Memory Stream) (ProtobufTraverser Visitor) := do
  let traverser := { traverser with depth := traverser.depth - 1 }
  context.visitors.endField traverser.visitor
  endFieldAndPopVisitors context traverser.visitorStack.length traverser

/-- The loop of `ReadPacked`. -/
def readPackedElements : (fuel : Nat) → FieldInfo → ProtobufTraverser Visitor → Stream →
    Program (World Memory Stream) (ProtobufTraverser Visitor × Stream)
  | 0, _, _, _ => throw .outOfFuel
  | fuel + 1, field, traverser, stream =>
      if CodedInputStream.bytesUntilLimit stream > 0 then do
        let (field, stream) ← readFieldValueOrSize field stream
        let traverser ←
          incrementDepthAndCallBeginField context field.number field.wireType traverser
        context.visitors.readPrimitive traverser.visitor field
        let traverser ← decrementDepthAndEndFieldAndPopVisitors context traverser
        readPackedElements fuel field traverser stream
      else
        return (traverser, stream)

def readPacked (fuel : Nat) (number size : Int) (wireType : Nat)
    (traverser : ProtobufTraverser Visitor) (stream : Stream) :
    Program (World Memory Stream) (ProtobufTraverser Visitor × Stream) := do
  let field ← declareFieldInfo context number wireType
  let (limit, stream) := CodedInputStream.pushLimit size stream
  let (traverser, stream) ← readPackedElements context fuel field traverser stream
  return (traverser, CodedInputStream.popLimit limit stream)

/-- The switch of `ScanField` over the treatment of a length-delimited field. -/
def treatField (fuel : Nat)
    (scanMessage : ProtobufTraverser Visitor → Stream →
      Program (World Memory Stream) (ProtobufTraverser Visitor × Stream))
    (treatment : LengthDelimitedFieldTreatment) (field : FieldInfo)
    (traverser : ProtobufTraverser Visitor) (stream : Stream) :
    Program (World Memory Stream) (ProtobufTraverser Visitor × Stream) :=
  match treatment with
  | .skip =>
      -- The result of `Skip` is not looked at.
      return (traverser, (CodedInputStream.skip field.value.asSize stream).2)
  | .buffer =>
      match CodedInputStream.readString field.value.asSize stream with
      | some (contents, stream) => do
          context.visitors.bufferedValue traverser.visitor contents
          return (traverser, stream)
      | none =>
          throw (.badProto (literal "failed to fully read length-delimited field"))
  | .asString =>
      match CodedInputStream.readString field.value.asSize stream with
      | some (contents, stream) => do
          context.visitors.readString traverser.visitor contents
          return (traverser, stream)
      | none => throw (.badProto (literal "failed to fully read string field"))
  | .asBytes =>
      match CodedInputStream.readString field.value.asSize stream with
      | some (contents, stream) => do
          context.visitors.readBytes traverser.visitor contents
          return (traverser, stream)
      | none => throw (.badProto (literal "failed to fully read bytes field"))
  | .asSubmessage => do
      let ((limit, depth), stream) :=
        CodedInputStream.incrementRecursionDepthAndPushLimit field.value.asSize stream
      if depth < 0 then
        throw .recursionDepthExceeded
      -- The visitor that `BeginMessage` returns here is dropped.
      let _ ← context.visitors.beginMessage traverser.visitor
      let (traverser, stream) ← scanMessage traverser stream
      return (traverser,
        CodedInputStream.decrementRecursionDepthAndPopLimit limit stream)
  | .asPackedVarint =>
      readPacked context fuel field.number field.value.asSize 0 traverser stream
  | .asPacked32 =>
      readPacked context fuel field.number field.value.asSize 5 traverser stream
  | .asPacked64 =>
      readPacked context fuel field.number field.value.asSize 1 traverser stream

/-- `ScanField`, with the recursive call to `ScanMessage` as a parameter. -/
def scanFieldWith (fuel : Nat)
    (scanMessage : ProtobufTraverser Visitor → Stream →
      Program (World Memory Stream) (ProtobufTraverser Visitor × Stream))
    (field : FieldInfo) (traverser : ProtobufTraverser Visitor) (stream : Stream) :
    Program (World Memory Stream) (ProtobufTraverser Visitor × Stream) := do
  if field.wireType ≠ 2 then
    context.visitors.readPrimitive traverser.visitor field
    return (traverser, stream)
  else
    let (treatment, newVisitor) ←
      context.visitors.readLengthDelimitedField traverser.visitor field
    if newVisitor = traverser.visitor then
      treatField context fuel scanMessage treatment field traverser stream
    else
      let traverser ← pushVisitor context newVisitor traverser
      let traverser ←
        incrementDepthAndCallBeginField context field.number field.wireType traverser
      let (traverser, stream) ←
        treatField context fuel scanMessage treatment field traverser stream
      let traverser ← decrementDepthAndEndFieldAndPopVisitors context traverser
      return (traverser, stream)

/-- `ScanMessage` around its loop. -/
def scanMessageWith
    (scanFields : ProtobufTraverser Visitor → Stream →
      Program (World Memory Stream) (ProtobufTraverser Visitor × Stream))
    (traverser : ProtobufTraverser Visitor) (stream : Stream) :
    Program (World Memory Stream) (ProtobufTraverser Visitor × Stream) := do
  record (.enterMessage stream)
  let traverser ← callBeginMessage context traverser
  let scanned ← scanFields traverser stream
  record .leaveMessage
  return scanned

/-- The loop of `ScanMessage`. -/
def scanFields : (fuel : Nat) → ProtobufTraverser Visitor → Stream →
    Program (World Memory Stream) (ProtobufTraverser Visitor × Stream)
  | 0, _, _ => throw .outOfFuel
  | fuel + 1, traverser, stream => do
      let (tag, stream) := CodedInputStream.readTag stream
      if tag = 0 then
        if CodedInputStream.consumedEntireMessage stream then
          return (traverser, stream)
        else
          throw (.badProto (literal "Unexpected tag=0"))
      else
        let field ← declareFieldInfo context (tag >>> 3).toNat (tag &&& 7).toNat
        let (field, stream) ← readFieldValueOrSize field stream
        let traverser ←
          incrementDepthAndCallBeginField context field.number field.wireType traverser
        let (traverser, stream) ←
          scanFieldWith context fuel (scanMessageWith context (scanFields fuel)) field
            traverser stream
        let traverser ← decrementDepthAndEndFieldAndPopVisitors context traverser
        scanFields fuel traverser stream

def scanMessage (fuel : Nat) (traverser : ProtobufTraverser Visitor) (stream : Stream) :
    Program (World Memory Stream) (ProtobufTraverser Visitor × Stream) :=
  scanMessageWith context (scanFields context fuel) traverser stream

def scanField (fuel : Nat) (field : FieldInfo) (traverser : ProtobufTraverser Visitor)
    (stream : Stream) :
    Program (World Memory Stream) (ProtobufTraverser Visitor × Stream) :=
  scanFieldWith context fuel (scanMessage context fuel) field traverser stream

end ProtobufTraverser

end PostgresProtobuf
