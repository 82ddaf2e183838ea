import PostgresProtobuf.CompileQuery
import PostgresProtobuf.Foundation.Realization

/-! # What a chain of visitors does

The meaning of a compiled path on a message, without visitor objects, stacks or
streams. Each part of the path is told what the rest of the path does with one
value, and says what it does with one value itself. -/

namespace PostgresProtobuf

open Foundation

/-! ## Chains -/

inductive MapPart
  | none
  | entries (wantKeys : Bool) (type : FieldType)
  | lookup (keyType : FieldType) (wantedKeyField : FieldInfo)
      (wantedKeyContents : StdString) (valueType : FieldType)

structure ChainPart where
  wantedField : Int
  type : FieldType
  isPacked : Bool
  wantedIndex : Option Int
  map : MapPart
  map_type : map ≠ .none → type = .message

namespace ChainPart

def selector (part : ChainPart) : FieldSelector where
  wantedField := part.wantedField
  type := part.type
  isPacked := part.isPacked
  wantedIndex := part.wantedIndex
  state := .scanning
  currentField := 0
  currentIndex := 0

/-- `ShouldEmitCurrentIndex` for a field when `index` wanted ones have ended. -/
def Emits (part : ChainPart) (number index : Int) : Prop :=
  number = part.wantedField ∧ ∀ wanted ∈ part.wantedIndex, index = wanted

instance (part : ChainPart) (number index : Int) :
    Decidable (part.Emits number index) := by
  unfold Emits
  infer_instance

def indexAfter (part : ChainPart) (number index : Int) : Int :=
  if number = part.wantedField then index + 1 else index

end ChainPart

structure ChainEnd where
  trailingDot : Bool
  kind : EmitterKind
  kind_ne : kind ≠ .primitive .message

/-! ## What is known of unwritten memory -/

/-- What is known of the memory that the code reads before it writes it. The
state tells which map filters may still hold what they found. -/
structure Knowledge (State : Type) where
  /-- The bits in every `FieldInfo` local, if they are known. -/
  localBits : Option UInt64
  /-- Whether the wanted keys are known with the halves never written. -/
  wantedKeys : Bool
  /-- Whether the texts of rows are left open, so that only their number counts. -/
  textless : Bool
  pristine : (position : Nat) → State → Bool
  touch : (position : Nat) → State → State
  pristine_touch : ∀ position other state, other ≠ position →
    pristine other (touch position state) = pristine other state

namespace Knowledge

variable {State : Type} (knowledge : Knowledge State)

def Possible (bits : UInt64) : Prop :=
  ∀ known ∈ knowledge.localBits, bits = known

open Classical in
noncomputable def read {Result : Type} (function : UInt64 → Result) : Option Result :=
  if ∃ result, ∀ bits, knowledge.Possible bits → function bits = result then
    some (function (knowledge.localBits.getD 0))
  else
    none

theorem possible_getD : knowledge.Possible (knowledge.localBits.getD 0) := by
  intro known member
  simp [Option.mem_def.mp member]

theorem read_eq_some {Result : Type} {function : UInt64 → Result} {result : Result}
    (known : knowledge.read function = some result) {bits : UInt64}
    (possible : knowledge.Possible bits) : function bits = result := by
  unfold read at known
  split at known
  · rename_i determined
    rcases determined with ⟨other, always⟩
    rw [← Option.some.inj known, always bits possible,
      always _ knowledge.possible_getD]
  · simp at known

theorem read_of_determined {Result : Type} {function : UInt64 → Result}
    {result : Result} (always : ∀ bits, knowledge.Possible bits → function bits = result) :
    knowledge.read function = some result := by
  rw [read, if_pos ⟨result, always⟩, always _ knowledge.possible_getD]

def certain (bits : UInt64) : Knowledge Unit where
  localBits := some bits
  wantedKeys := true
  textless := false
  pristine _ _ := false
  touch _ state := state
  pristine_touch _ _ _ _ := rfl

/-- Nothing is known. The state maps the position of a map filter to whether it
was never reset. -/
def unknown : Knowledge (Nat → Bool) where
  localBits := none
  wantedKeys := false
  textless := false
  pristine position state := state position
  touch position state other := if other = position then false else state other
  pristine_touch position other state distinct := by simp [distinct]

/-- Nothing is known of the locals, and the texts of rows are left open. Every map filter
starts with zero buffers. -/
def textfree : Knowledge Unit where
  localBits := none
  wantedKeys := true
  textless := true
  pristine _ _ := false
  touch _ state := state
  pristine_touch _ _ _ _ := rfl

end Knowledge

/-! ## Values in the union -/

def Foundation.WireValue.union (value : WireValue) (bits : UInt64) : FieldInfo.Value :=
  match value with
  | .varint number => FieldInfo.Value.setUInt64 ⟨bits⟩ number
  | .fixed64 number => FieldInfo.Value.setUInt64 ⟨bits⟩ number
  | .lengthDelimited size _ => FieldInfo.Value.setSize ⟨bits⟩ size
  | .fixed32 number => FieldInfo.Value.setUInt32 ⟨bits⟩ number

def Foundation.WireValue.header (value : WireValue) (bits : UInt64) : FieldInfo :=
  ⟨0, value.wireType, value.union bits⟩

/-! ## Actions of a run -/

/-- What can be told of a run: its rows, and the message levels it scans, with what is
left of the recursion budget there. -/
inductive Event
  | row (row : StdString)
  | enter (budget : Int) (level : Bytes)
  | leave
  deriving DecidableEq

namespace Event

def isRow : Event → Bool
  | row _ => true
  | _ => false

end Event

abbrev Activity (State : Type) := Action State (Stop Exception) Event

def framingException : FramingFault → Exception
  | .tag => .badProto (literal "Unexpected tag=0")
  | .varint => .badProto (literal "failed to read varint field")
  | .fixed64 => .badProto (literal "failed to read 64-bit field")
  | .size => .badProto (literal "failed to read size varint")
  | .fixed32 => .badProto (literal "failed to read 32-bit field")
  | .wireType wireType =>
      .badProto (literal "unrecognized wire_type " ++ unsignedToString wireType)

section

variable {State Progress : Type}

def raise (exception : Exception) : Activity State := Action.stop (.raised exception)

def endOn : Option FramingFault → Activity State
  | none => 1
  | some fault => raise (framingException fault)

def turns {Item : Type} (turn : Progress → Item → Activity State × Progress) :
    Progress → List Item → Activity State × Progress
  | progress, [] => (1, progress)
  | progress, item :: items =>
      let first := turn progress item
      let others := turns turn first.2 items
      (first.1 * others.1, others.2)

theorem turns_append {Item : Type} (turn : Progress → Item → Activity State × Progress)
    (front back : List Item) (progress : Progress) :
    turns turn progress (front ++ back) =
      ((turns turn progress front).1 * (turns turn (turns turn progress front).2 back).1,
        (turns turn (turns turn progress front).2 back).2) := by
  induction front generalizing progress with
  | nil => simp [turns]
  | cons item front induction => simp [turns, induction, mul_assoc]

def scanLevel (budget : Nat) (turn : Progress → WireField → Activity State × Progress)
    (progress : Progress) (payload : Bytes) : Activity State × Progress :=
  let fields := readFields payload
  let scanned := turns turn progress fields.1
  (Action.log (.enter budget payload) * scanned.1 * endOn fields.2 * Action.log .leave,
    scanned.2)

def scanSubmessage (turn : Nat → Progress → WireField → Activity State × Progress)
    (budget : Nat) (progress : Progress) (payload : Bytes) :
    Activity State × Progress :=
  match budget with
  | 0 => (raise .recursionDepthExceeded, progress)
  | budget + 1 => scanLevel budget (turn budget) progress payload

def readWhole (text : String) (size : Nat) (payload : Bytes)
    (continuation : Activity State) : Activity State :=
  if payload.length = size then continuation else raise (.badProto (literal text))

def emit : Except Exception (Option StdString) → Activity State
  | .ok (some row) => Action.log (.row row)
  | .ok none => 1
  | .error exception => raise exception

end

/-- What a part of the chain does with one value of a field that is handed to it,
and with a length-delimited field that the selector before it treats by type. -/
structure Delivery (State : Type) where
  field : (budget : Nat) → WireValue → Activity State
  handed : FieldType → (size : Nat) → (payload : Bytes) → Activity State

structure Setting (State : Type) where
  utils : PostgresUtils
  binaryToJsonString : StdString → Bytes → Option StdString
  recursionLimit : Nat
  knowledge : Knowledge State

namespace Setting

variable {State : Type} (setting : Setting State)

/-! ## Emitters -/

def treatAs (readString readBytes bufferedValue : Bytes → Activity State)
    (treatment : LengthDelimitedFieldTreatment) (size : Nat) (payload : Bytes) :
    Activity State :=
  match treatment with
  | .asString =>
      readWhole "failed to fully read string field" size payload (readString payload)
  | .asBytes =>
      readWhole "failed to fully read bytes field" size payload (readBytes payload)
  | .buffer =>
      readWhole "failed to fully read length-delimited field" size payload
        (bufferedValue payload)
  | _ => 1

def emitTreated (kind : EmitterKind) (treatment : LengthDelimitedFieldTreatment)
    (size : Nat) (payload : Bytes) : Activity State :=
  treatAs (fun contents => emit (.ok (kind.readString contents)))
    (fun contents => emit (.ok (kind.readBytes contents)))
    (fun contents => emit (kind.bufferedValue setting.binaryToJsonString contents))
    treatment size payload

noncomputable def emitPrimitive (kind : EmitterKind) (value : WireValue) :
    Activity State :=
  match setting.knowledge.read fun bits =>
      kind.readPrimitive setting.utils (value.header bits) with
  | some row => emit row
  | none => if setting.knowledge.textless then emit (.ok (some [])) else Action.stop .undefined

noncomputable def emitter (kind : EmitterKind) : Delivery State where
  field _ value :=
    match value with
    | .lengthDelimited size payload =>
        setting.emitTreated kind kind.readLengthDelimitedField size payload
    | value => setting.emitPrimitive kind value
  handed type size payload :=
    setting.emitTreated kind (compositeFieldTreatmentForType type) size payload

/-! ## Descending -/

def descend {Progress : Type}
    (turn : Nat → Progress → WireField → Activity State × Progress)
    (start : Progress) : Delivery State where
  field budget value :=
    match value with
    | .lengthDelimited _ payload => (scanSubmessage turn budget start payload).1
    | _ => 1
  handed type size payload :=
    treatAs (fun _ => 1) (fun _ => 1) (fun _ => 1)
      (compositeFieldTreatmentForType type) size payload

/-! ## Field selectors -/

def packedWireType (type : FieldType) : Option Nat :=
  match packedCompositeFieldTreatmentForType type with
  | .asPackedVarint => some 0
  | .asPacked64 => some 1
  | .asPacked32 => some 5
  | _ => none

def selectElement (part : ChainPart) (next : Delivery State) (budget : Nat)
    (number : Int) (index : Int) (value : WireValue) : Activity State × Int :=
  (if part.Emits number index then next.field budget value else 1,
    part.indexAfter number index)

def selectPacked (part : ChainPart) (next : Delivery State) (budget : Nat)
    (number : Int) (index : Int) (payload : Bytes) : Activity State × Int :=
  match packedWireType part.type with
  | some wireType =>
      let elements := readElements wireType payload
      let scanned :=
        turns (selectElement part next budget number) index elements.1
      (scanned.1 * endOn elements.2, scanned.2)
  | none => (1, index)

def selectField (part : ChainPart) (next : Delivery State) (budget : Nat)
    (index : Int) (field : WireField) : Activity State × Int :=
  match field.value with
  | .lengthDelimited size payload =>
      if part.isPacked then
        let packed := selectPacked part next budget field.number index payload
        (packed.1, part.indexAfter field.number packed.2)
      else
        (if part.Emits field.number index then
            if part.type = .message then next.field budget field.value
            else next.handed part.type size payload
          else 1,
          part.indexAfter field.number index)
  | value =>
      (if part.Emits field.number index then next.field budget value else 1,
        part.indexAfter field.number index)

/-! ## All map entries -/

def wantsEntryField (wantKeys : Bool) (number : Nat) : Bool :=
  (number == 1 && wantKeys) || (number == 2 && !wantKeys)

def entriesField (wantKeys : Bool) (next : Delivery State) (budget : Nat)
    (_ : Unit) (field : WireField) : Activity State × Unit :=
  (if wantsEntryField wantKeys field.number then next.field budget field.value else 1, ())

def allMapEntries (wantKeys : Bool) (next : Delivery State) : Delivery State where
  field budget value :=
    match value with
    | .lengthDelimited _ payload =>
        (scanSubmessage (entriesField wantKeys next) budget () payload).1
    | _ => 1
  handed _ _ _ := 1

/-! ## Map filters -/

/-- What a map filter holds of the entry it is in; `none` is what it found there. -/
structure EntryBuffers where
  inEntry : Bool
  key : Option WireValue
  keyContents : Bytes
  value : Option WireValue

namespace EntryBuffers

def empty : EntryBuffers := ⟨false, some (.varint 0), [], some (.varint 0)⟩

def found : EntryBuffers := ⟨false, none, [], none⟩

end EntryBuffers

/-- Whether writing a key of the type leaves the upper half of the union alone
where it will be compared. -/
def halfWritten : FieldType → Bool
  | .int32 | .uint32 | .sint32 | .bool => true
  | _ => false

open Classical in
noncomputable def keyMatches (keyType : FieldType) (wantedKeyField : FieldInfo)
    (wantedKeyContents : StdString) (buffers : EntryBuffers) : Option Bool :=
  if buffers.keyContents = wantedKeyContents then
    match buffers.key with
    | none => none
    | some key =>
        let test (value : FieldInfo.Value) : Bool :=
          (key.header 0).valueEquals { wantedKeyField with value := value }
        if setting.knowledge.wantedKeys ∨ halfWritten keyType = false ∨
            ∀ value : FieldInfo.Value, value.asUInt32 = wantedKeyField.value.asUInt32 →
              test value = test wantedKeyField.value then
          some (test wantedKeyField.value)
        else
          none
  else
    some false

noncomputable def endEntry (keyType : FieldType) (wantedKeyField : FieldInfo)
    (wantedKeyContents : StdString) (next : Delivery State) (buffers : EntryBuffers) :
    Activity State :=
  match setting.keyMatches keyType wantedKeyField wantedKeyContents buffers with
  | none => Action.stop .undefined
  | some false => 1
  | some true =>
      match buffers.value with
      | none => Action.stop .undefined
      | some value => next.field setting.recursionLimit value

section

variable (keyType : FieldType) (wantedKeyField : FieldInfo)
variable (wantedKeyContents : StdString) (next : Delivery State)

noncomputable def leaveEntry (buffers : EntryBuffers) : Activity State × EntryBuffers :=
  if buffers.inEntry then
    (setting.endEntry keyType wantedKeyField wantedKeyContents next buffers, .empty)
  else
    (1, buffers)

noncomputable def lookupField :
    (budget : Nat) → EntryBuffers → WireField → Activity State × EntryBuffers
  | budget, buffers, field =>
      let leave := setting.leaveEntry keyType wantedKeyField wantedKeyContents next
      match field.value with
      | .lengthDelimited size payload =>
          if buffers.inEntry ∧ field.number = 1 then
            (readWhole "failed to fully read length-delimited field" size payload 1,
              { buffers with key := some field.value, keyContents := payload })
          else if buffers.inEntry ∧ field.number = 2 then
            (readWhole "failed to fully read length-delimited field" size payload 1,
              { buffers with value := some field.value })
          else
            -- Any other field is scanned as an entry inside the entry, and its
            -- end is taken for the end of the entry.
            let inside := { buffers with inEntry := true }
            let nested := match budget with
              | 0 => (raise .recursionDepthExceeded, inside)
              | budget + 1 => scanLevel budget (lookupField budget) inside payload
            let left := leave nested.2
            (nested.1 * left.1, left.2)
      | value =>
          if buffers.inEntry then
            if field.number = 1 then (1, { buffers with key := some value })
            else if field.number = 2 then (1, { buffers with value := some value })
            else leave buffers
          else
            (1, buffers)

theorem lookupField_entry {buffers : EntryBuffers} {number : Nat}
    (notKey : ¬ (buffers.inEntry ∧ number = 1)) (notValue : ¬ (buffers.inEntry ∧ number = 2))
    (budget size : Nat) (payload : Bytes) :
    setting.lookupField keyType wantedKeyField wantedKeyContents next budget buffers
        ⟨number, .lengthDelimited size payload⟩ =
      let nested := scanSubmessage
        (setting.lookupField keyType wantedKeyField wantedKeyContents next) budget
        { buffers with inEntry := true } payload
      let left := setting.leaveEntry keyType wantedKeyField wantedKeyContents next nested.2
      (nested.1 * left.1, left.2) := by
  cases budget <;> simp only [lookupField, if_neg notKey, if_neg notValue] <;> rfl

theorem lookupField_key {buffers : EntryBuffers} (inEntry : buffers.inEntry = true)
    (budget size : Nat) (payload : Bytes) :
    setting.lookupField keyType wantedKeyField wantedKeyContents next budget buffers
        ⟨1, .lengthDelimited size payload⟩ =
      (readWhole "failed to fully read length-delimited field" size payload 1,
        { buffers with key := some (.lengthDelimited size payload),
                       keyContents := payload }) := by
  cases budget <;> simp [lookupField, inEntry]

theorem lookupField_value {buffers : EntryBuffers} (inEntry : buffers.inEntry = true)
    (budget size : Nat) (payload : Bytes) :
    setting.lookupField keyType wantedKeyField wantedKeyContents next budget buffers
        ⟨2, .lengthDelimited size payload⟩ =
      (readWhole "failed to fully read length-delimited field" size payload 1,
        { buffers with value := some (.lengthDelimited size payload) }) := by
  cases budget <;> simp [lookupField, inEntry]

theorem lookupField_primitive {value : WireValue} (primitive : value.wireType ≠ 2)
    (budget : Nat) (buffers : EntryBuffers) (number : Nat) :
    setting.lookupField keyType wantedKeyField wantedKeyContents next budget buffers
        ⟨number, value⟩ =
      if buffers.inEntry then
        if number = 1 then (1, { buffers with key := some value })
        else if number = 2 then (1, { buffers with value := some value })
        else setting.leaveEntry keyType wantedKeyField wantedKeyContents next buffers
      else
        (1, buffers) := by
  cases value with
  | lengthDelimited size payload => exact absurd rfl primitive
  | _ => cases budget <;> rfl

noncomputable def mapFilter (position : Nat) : Delivery State where
  field budget value :=
    Action.choose
      (fun state => (setting.knowledge.pristine position state,
        setting.knowledge.touch position state))
      fun pristine =>
        let buffers := if pristine then EntryBuffers.found else .empty
        match value with
        | .lengthDelimited _ payload =>
            let scanned := scanSubmessage
              (setting.lookupField keyType wantedKeyField wantedKeyContents next) budget
              { buffers with inEntry := true } payload
            scanned.1 *
              (setting.leaveEntry keyType wantedKeyField wantedKeyContents next scanned.2).1
        | _ => 1
  handed _ _ _ := 1

theorem mapFilter_lengthDelimited (position budget size : Nat) (payload : Bytes) :
    (setting.mapFilter keyType wantedKeyField wantedKeyContents next position).field budget
        (.lengthDelimited size payload) =
      Action.choose
        (fun state => (setting.knowledge.pristine position state,
          setting.knowledge.touch position state))
        fun pristine =>
          let buffers := if pristine then EntryBuffers.found else .empty
          let scanned := scanSubmessage
            (setting.lookupField keyType wantedKeyField wantedKeyContents next) budget
            { buffers with inEntry := true } payload
          scanned.1 *
            (setting.leaveEntry keyType wantedKeyField wantedKeyContents next scanned.2).1 :=
  rfl

end

/-! ## Chains -/

noncomputable def mapPart (position : Nat) (map : MapPart) (next : Delivery State) :
    Delivery State :=
  match map with
  | .none => next
  | .entries wantKeys _ => allMapEntries wantKeys next
  | .lookup keyType wantedKeyField wantedKeyContents _ =>
      setting.mapFilter keyType wantedKeyField wantedKeyContents next position

def mapWidth : MapPart → Nat
  | .none => 0
  | _ => 1

noncomputable def chainEnd (last : ChainEnd) : Delivery State :=
  if last.trailingDot then
    descend
      (fun budget (_ : Unit) field =>
        ((setting.emitter last.kind).field budget field.value, ()))
      ()
  else
    setting.emitter last.kind

noncomputable def chain (last : ChainEnd) : (position : Nat) → List ChainPart →
    Delivery State
  | _, [] => setting.chainEnd last
  | position, part :: parts =>
      descend
        (selectField part
          (setting.mapPart (position + 2) part.map
            (chain last (position + 2 + mapWidth part.map) parts)))
        (0 : Int)

noncomputable def runs (parts : List ChainPart) (last : ChainEnd) (message : Bytes) :
    Activity State :=
  (setting.chain last 0 parts).field setting.recursionLimit (.ofPayload message)

end Setting

end PostgresProtobuf
