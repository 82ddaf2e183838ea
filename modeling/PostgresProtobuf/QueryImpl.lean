import PostgresProtobuf.Visitors

/-! # Running a compiled query

A compiled query is a chain of visitor objects that ends in an emitter. `Run`
pushes the first one on a traverser and scans the message as one field. -/

namespace PostgresProtobuf

open Foundation

inductive ChainVisitor
  | descendIntoSubmessage
  | fieldSelector (selector : FieldSelector)
  | mapFilter (filter : MapFilter)
  | allMapEntries (entries : AllMapEntries)
  | emitter (emitter : Emitter)
  deriving DecidableEq

/-- A pointer into the chain; `none` is `&ProtobufVisitor::noOp`. -/
abbrev VisitorPointer := Option Nat

/-- The objects of a query: its visitors, each linked to the one after it, and the
rows held by the emitter. -/
structure QueryMemory where
  visitors : List ChainVisitor
  rows : List StdString
  deriving DecidableEq

namespace QueryMemory

def next (memory : QueryMemory) (index : Nat) : VisitorPointer :=
  if index + 1 < memory.visitors.length then some (index + 1) else none

def setVisitor (memory : QueryMemory) (index : Nat) (visitor : ChainVisitor) :
    QueryMemory :=
  { memory with visitors := memory.visitors.set index visitor }

end QueryMemory

/-- A postgres bytea: its length fits the `int` sizes of the stream. -/
structure Bytea where
  data : Bytes
  size_lt : data.length < 2 ^ 31

abbrev QueryWorld (Stream : Type) := World QueryMemory Stream

section

variable {Stream : Type}

def readVisitor (pointer : VisitorPointer) :
    Program (QueryWorld Stream) (Option ChainVisitor) := do
  match pointer with
  | none => return none
  | some index => return (← get).memory.visitors[index]?

def writeVisitor (pointer : VisitorPointer) (visitor : ChainVisitor) :
    Program (QueryWorld Stream) Unit :=
  match pointer with
  | none => return ()
  | some index =>
      modify fun world => { world with memory := world.memory.setVisitor index visitor }

def nextVisitor (pointer : VisitorPointer) :
    Program (QueryWorld Stream) VisitorPointer := do
  match pointer with
  | none => return none
  | some index => return (← get).memory.next index

def emitStr (emitter : Emitter) (row : StdString) : Program (QueryWorld Stream) Unit := do
  modify fun world =>
    { world with memory := { world.memory with rows := world.memory.rows ++ [row] } }
  match emitter.limit with
  | some limit =>
      if limit ≤ (← get).memory.rows.length then
        throw .limitReached
  | none => return ()

/-- Emit the row that a callback of an emitter produced, if any. -/
def emitRow (emitter : Emitter) (row : Except Exception (Option StdString)) :
    Program (QueryWorld Stream) Unit :=
  match row with
  | .ok (some row) => emitStr emitter row
  | .ok none => return ()
  | .error exception => throw exception

/-- The virtual functions of the chain. `forward` is the scan that
`MapFilter::ForwardBufferedValue` starts on the next visitor. -/
def chainVisitors (utils : PostgresUtils)
    (binaryToJsonString : StdString → Bytes → Option StdString)
    (forward : VisitorPointer → FieldInfo → StdString →
      Program (QueryWorld Stream) Unit) :
    VisitorFamily VisitorPointer QueryMemory Stream where
  noOp := none
  pushed _ := return ()
  beginField this number wireType := do
    match ← readVisitor this with
    | some (.fieldSelector selector) =>
        let (selector, handsOver) := selector.beginField number wireType
        writeVisitor this (.fieldSelector selector)
        if handsOver then nextVisitor this else return this
    | some (.mapFilter filter) =>
        writeVisitor this (.mapFilter (filter.beginField number wireType))
        return this
    | some (.allMapEntries entries) =>
        let (entries, handsOver) := entries.beginField number
        writeVisitor this (.allMapEntries entries)
        if handsOver then nextVisitor this else return this
    | _ => return this
  readPrimitive this field := do
    match ← readVisitor this with
    | some (.mapFilter filter) =>
        writeVisitor this (.mapFilter (filter.readPrimitive field))
    | some (.emitter emitter) =>
        emitRow emitter (emitter.kind.readPrimitive utils field)
    | _ => return ()
  readLengthDelimitedField this field := do
    match ← readVisitor this with
    | some .descendIntoSubmessage => return (.asSubmessage, this)
    | some (.fieldSelector selector) =>
        let (treatment, handsOver) := selector.readLengthDelimitedField
        let visitor ← if handsOver then nextVisitor this else pure this
        return (treatment, visitor)
    | some (.mapFilter filter) =>
        let (filter, treatment) := filter.readLengthDelimitedField field
        writeVisitor this (.mapFilter filter)
        return (treatment, this)
    | some (.allMapEntries entries) =>
        let (treatment, handsOver) := entries.readLengthDelimitedField
        let visitor ← if handsOver then nextVisitor this else pure this
        return (treatment, visitor)
    | some (.emitter emitter) => return (emitter.kind.readLengthDelimitedField, this)
    | none => return (.skip, this)
  readString this contents := do
    match ← readVisitor this with
    | some (.emitter emitter) => emitRow emitter (.ok (emitter.kind.readString contents))
    | _ => return ()
  readBytes this contents := do
    match ← readVisitor this with
    | some (.emitter emitter) => emitRow emitter (.ok (emitter.kind.readBytes contents))
    | _ => return ()
  bufferedValue this contents := do
    match ← readVisitor this with
    | some (.mapFilter filter) =>
        writeVisitor this (.mapFilter (filter.bufferedValue contents))
    | some (.emitter emitter) =>
        emitRow emitter (emitter.kind.bufferedValue binaryToJsonString contents)
    | _ => return ()
  beginMessage this := do
    match ← readVisitor this with
    | some .descendIntoSubmessage => nextVisitor this
    | some (.mapFilter filter) =>
        writeVisitor this (.mapFilter filter.beginMessage)
        return this
    | _ => return this
  endField this := do
    match ← readVisitor this with
    | some (.fieldSelector selector) => writeVisitor this (.fieldSelector selector.endField)
    | some (.mapFilter filter) =>
        writeVisitor this (.mapFilter filter.leaveScope)
        if filter.scope = .inEntry then
          if filter.keyMatches then
            forward (← nextVisitor this) filter.bufferedValueField
              filter.bufferedValueContents
          writeVisitor this (.mapFilter filter.reset)
    | some (.allMapEntries entries) => writeVisitor this (.allMapEntries entries.endField)
    | _ => return ()
  popped this := do
    match ← readVisitor this with
    | some (.fieldSelector selector) => writeVisitor this (.fieldSelector selector.popped)
    | some (.mapFilter filter) => writeVisitor this (.mapFilter filter.reset)
    | _ => return ()

end

section

variable {Stream : Type} [CodedInputStream Stream]

/-- `MapFilter::ForwardBufferedValue`: a traverser and a stream of its own. -/
def forwardBufferedValue (context : ScanContext VisitorPointer QueryMemory Stream)
    (fuel : Nat) (next : VisitorPointer) (field : FieldInfo) (contents : StdString) :
    Program (QueryWorld Stream) Unit := do
  let substream : Stream := CodedInputStream.ofBytes contents
  let subtraverser := ProtobufTraverser.new context.visitors
  let subtraverser ← ProtobufTraverser.pushVisitor context next subtraverser
  let (subtraverser, _) ←
    ProtobufTraverser.scanField context fuel field subtraverser substream
  let _ ← ProtobufTraverser.popVisitor context subtraverser
  return ()

/-- The parameters of a run that the source leaves to its environment. -/
structure RunEnvironment where
  utils : PostgresUtils
  binaryToJsonString : StdString → Bytes → Option StdString
  localBits : Nat → UInt64

def scanContext (environment : RunEnvironment) (fuel handovers : Nat) :
    (nesting : Nat) → ScanContext VisitorPointer QueryMemory Stream
  | 0 =>
      { visitors := chainVisitors environment.utils environment.binaryToJsonString
          fun _ _ _ => throw .outOfFuel
        localBits := environment.localBits
        handovers := handovers }
  | nesting + 1 =>
      { visitors := chainVisitors environment.utils environment.binaryToJsonString
          (forwardBufferedValue (scanContext environment fuel handovers nesting) fuel)
        localBits := environment.localBits
        handovers := handovers }

/-- The `try` block of `QueryImpl::Run`. -/
def scanRoot (context : ScanContext VisitorPointer QueryMemory Stream) (fuel : Nat)
    (protoData : Bytea) : Program (QueryWorld Stream) Unit := do
  let stream : Stream := CodedInputStream.ofBytes protoData.data
  let traverser := ProtobufTraverser.new context.visitors
  let traverser ← ProtobufTraverser.pushVisitor context (some 0) traverser
  let fakeRootField ← declareFieldInfo context 0 2
  let fakeRootField :=
    { fakeRootField with value := fakeRootField.value.setSize protoData.data.length }
  let (traverser, _) ←
    ProtobufTraverser.scanField context fuel fakeRootField traverser stream
  let _ ← ProtobufTraverser.popVisitor context traverser
  return ()

end

/-- A compiled query: the objects as `CompileQuery` builds them, and the converter
behind its type resolver. -/
structure QueryImpl where
  visitors : List ChainVisitor
  binaryToJsonString : StdString → Bytes → Option StdString

namespace QueryImpl

def memory (query : QueryImpl) : QueryMemory := ⟨query.visitors, []⟩

variable (Stream : Type) [CodedInputStream Stream]

/-- The end of the `try` block of `Run` on the given objects. Every loop gets more
turns than the message has bytes, and every handover more than the chain has
visitors. -/
def scan (query : QueryImpl) (utils : PostgresUtils) (localBits : Nat → UInt64)
    (memory : QueryMemory) (protoData : Bytea) :
    EStateM.Result Exception (QueryWorld Stream) Unit :=
  let environment : RunEnvironment := ⟨utils, query.binaryToJsonString, localBits⟩
  let fuel := protoData.data.length + 1
  scanRoot
    (scanContext environment fuel (query.visitors.length + 1) query.visitors.length)
    fuel protoData ⟨memory, 0, []⟩

/-- `QueryImpl::Run` on the given objects, with the objects it leaves behind. -/
def runOn (query : QueryImpl) (utils : PostgresUtils) (localBits : Nat → UInt64)
    (memory : QueryMemory) (protoData : Bytea) :
    Except Exception (List StdString) × QueryMemory :=
  match query.scan Stream utils localBits memory protoData with
  | .ok _ world => (.ok world.memory.rows, { world.memory with rows := [] })
  -- early exit
  | .error .limitReached world => (.ok world.memory.rows, { world.memory with rows := [] })
  | .error exception world => (.error exception, world.memory)

def run (query : QueryImpl) (utils : PostgresUtils) (localBits : Nat → UInt64)
    (protoData : Bytea) : Except Exception (List StdString) :=
  (query.runOn Stream utils localBits query.memory protoData).1

end QueryImpl

end PostgresProtobuf
