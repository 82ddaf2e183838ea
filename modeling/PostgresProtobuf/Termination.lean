import PostgresProtobuf.CompiledChain
import PostgresProtobuf.TestSchema
import PostgresProtobuf.ScanContracts

/-! # Termination

The measure of a run is lexicographic: how much of the chain lies ahead, and how many bytes
are left. The visitors of a scan hand over to later visitors only, a map filter forwards
its value to later visitors only, and each turn of a loop takes bytes. -/

namespace PostgresProtobuf

open Foundation

variable {Stream : Type}

/-! ## Chains that are scanned from a position on -/

def ChainVisitor.BufferBelow (tolerant : Prop) (bound : Nat) (visitor : ChainVisitor) : Prop :=
  ∀ filter, visitor = .mapFilter filter →
    tolerant ∨ filter.bufferedValueContents.length < bound

namespace ChainVisitor.BufferBelow

variable {tolerant : Prop} {bound : Nat} {filter : MapFilter}

theorem mapFilter (short : tolerant ∨ filter.bufferedValueContents.length < bound) :
    (ChainVisitor.mapFilter filter).BufferBelow tolerant bound := by
  rintro _ ⟨⟩
  exact short

theorem fieldSelector (selector : FieldSelector) :
    (ChainVisitor.fieldSelector selector).BufferBelow tolerant bound := by
  rintro _ ⟨⟩

theorem allMapEntries (entries : AllMapEntries) :
    (ChainVisitor.allMapEntries entries).BufferBelow tolerant bound := by
  rintro _ ⟨⟩

theorem beginField (below : (ChainVisitor.mapFilter filter).BufferBelow tolerant bound)
    (number : Int) (wireType : Nat) :
    (ChainVisitor.mapFilter (filter.beginField number wireType)).BufferBelow tolerant bound := by
  apply mapFilter
  have short := below filter rfl
  unfold MapFilter.beginField
  split_ifs <;> exact short

theorem beginMessage (below : (ChainVisitor.mapFilter filter).BufferBelow tolerant bound) :
    (ChainVisitor.mapFilter filter.beginMessage).BufferBelow tolerant bound := by
  apply mapFilter
  have short := below filter rfl
  unfold MapFilter.beginMessage
  split_ifs <;> exact short

theorem readPrimitive (below : (ChainVisitor.mapFilter filter).BufferBelow tolerant bound)
    (field : FieldInfo) :
    (ChainVisitor.mapFilter (filter.readPrimitive field)).BufferBelow tolerant bound := by
  apply mapFilter
  have short := below filter rfl
  unfold MapFilter.readPrimitive
  split <;> exact short

theorem readLengthDelimitedField
    (below : (ChainVisitor.mapFilter filter).BufferBelow tolerant bound) (field : FieldInfo) :
    (ChainVisitor.mapFilter (filter.readLengthDelimitedField field).1).BufferBelow tolerant
      bound := by
  apply mapFilter
  have short := below filter rfl
  unfold MapFilter.readLengthDelimitedField
  split <;> exact short

theorem bufferedValue (below : (ChainVisitor.mapFilter filter).BufferBelow tolerant bound)
    {contents : StdString} (short : tolerant ∨ contents.length < bound) :
    (ChainVisitor.mapFilter (filter.bufferedValue contents)).BufferBelow tolerant bound := by
  apply mapFilter
  have old := below filter rfl
  unfold MapFilter.bufferedValue
  split
  · exact old
  · exact short
  · exact old

theorem leaveScope (below : (ChainVisitor.mapFilter filter).BufferBelow tolerant bound) :
    (ChainVisitor.mapFilter filter.leaveScope).BufferBelow tolerant bound := by
  apply mapFilter
  have short := below filter rfl
  unfold MapFilter.leaveScope
  split <;> exact short

theorem reset (below : (ChainVisitor.mapFilter filter).BufferBelow tolerant bound) :
    (ChainVisitor.mapFilter filter.reset).BufferBelow tolerant bound :=
  mapFilter ((below filter rfl).imp_right Nat.zero_lt_of_lt)

end ChainVisitor.BufferBelow

structure Confined (tolerant : Prop) (front : List ChainVisitor) (length bound : Nat)
    (memory : QueryMemory) : Prop where
  sameLength : memory.visitors.length = length
  sameFront : memory.visitors.take front.length = front
  buffers : ∀ visitor ∈ memory.visitors, visitor.BufferBelow tolerant bound

/-- Only visitors behind the front are called. Unless it is tolerated that the fuel runs
out, there are at most as many visitors behind one that is called as scans may be nested. -/
def chainContract (tolerant : Prop) (front : List ChainVisitor) (length nesting bound : Nat) :
    ScanContract VisitorPointer QueryMemory where
  holds _ := Confined tolerant front length bound
  allowed exception memory :=
    (exception = .outOfFuel → tolerant) ∧ Confined tolerant front length bound memory
  called pointer := ∀ index, pointer = some index →
    front.length ≤ index ∧ (tolerant ∨ length ≤ index + nesting)
  rank
    | none => 0
    | some index => length - index
  bound := bound

section

variable {tolerant : Prop} {front : List ChainVisitor} {length nesting bound : Nat}
variable {this : VisitorPointer} {pending : List VisitorPointer}

theorem tolerates {exception : Exception} (other : exception = .outOfFuel → tolerant) :
    (chainContract tolerant front length nesting bound).Tolerates exception :=
  fun _ _ holds => ⟨other, holds⟩

theorem keeps_readVisitor :
    (chainContract tolerant front length nesting bound).invariant.Keeps
      (readVisitor this : Program (QueryWorld Stream) _) pending fun read next =>
        next = pending ∧ ∀ visitor, read = some visitor → visitor.BufferBelow tolerant bound ∧
          ∃ index, this = some index ∧ index < length := by
  cases this with
  | none =>
      refine .pure ⟨rfl, ?_⟩
      rintro _ ⟨⟩
  | some index =>
      intro world holds
      refine ⟨pending, holds, rfl, ?_⟩
      intro visitor isRead
      refine ⟨holds.buffers visitor (List.mem_of_getElem? isRead), index, rfl, ?_⟩
      rw [← holds.sameLength]
      exact (List.getElem?_eq_some_iff.mp isRead).1

theorem keeps_writeVisitor
    (called : (chainContract tolerant front length nesting bound).called this)
    {visitor : ChainVisitor} (below : visitor.BufferBelow tolerant bound) :
    (chainContract tolerant front length nesting bound).invariant.Keeps
      (writeVisitor this visitor : Program (QueryWorld Stream) _) pending
        fun _ next => next = pending := by
  cases this with
  | none => exact .pure rfl
  | some index =>
      intro world holds
      refine ⟨pending, ⟨?_, ?_, ?_⟩, rfl⟩
      · exact (List.length_set ..).trans holds.sameLength
      · exact (List.take_set_of_le (called index rfl).1).trans holds.sameFront
      · intro other isVisitor
        rcases List.mem_or_eq_of_mem_set isVisitor with isOld | rfl
        · exact holds.buffers other isOld
        · exact below

def nextPointer (length index : Nat) : VisitorPointer :=
  if index + 1 < length then some (index + 1) else none

theorem follows_nextPointer {index : Nat} (inChain : index < length)
    (called : (chainContract tolerant front length nesting bound).called (some index)) :
    (chainContract tolerant front length nesting bound).Follows (some index)
      (nextPointer length index) := by
  have bounds := called index rfl
  unfold nextPointer
  split
  · refine ⟨?_, .inr (.inr ?_)⟩
    · intro later isLater
      cases isLater
      exact ⟨Nat.le_succ_of_le bounds.1, bounds.2.imp_right fun few => by omega⟩
    · simp only [chainContract]
      omega
  · refine ⟨by rintro _ ⟨⟩, .inr (.inr ?_)⟩
    simp only [chainContract]
    omega

theorem follows_self (called : (chainContract tolerant front length nesting bound).called this) :
    (chainContract tolerant front length nesting bound).Follows this this :=
  ⟨called, .inl rfl⟩

theorem keeps_reindex {program : Program (QueryWorld Stream) Unit}
    (old : List VisitorPointer) {after first last : List VisitorPointer}
    (keeps : (chainContract tolerant front length nesting bound).invariant.Keeps program old
      fun _ next => next = after) :
    (chainContract tolerant front length nesting bound).invariant.Keeps program first
      fun _ next => next = last := by
  intro world holds
  apply (keeps world holds).imp
  · rintro _ memory ⟨_, holdsAfter, _⟩
    exact ⟨last, holdsAfter, rfl⟩
  · exact fun _ _ isAllowed => isAllowed

theorem keeps_nextVisitor {index : Nat} :
    (chainContract tolerant front length nesting bound).invariant.Keeps
      (nextVisitor (some index) : Program (QueryWorld Stream) _) pending fun pointer next =>
        next = pending ∧ pointer = nextPointer length index := by
  intro world holds
  refine ⟨pending, holds, rfl, ?_⟩
  rw [← holds.sameLength]
  rfl

theorem keeps_handsOver {index : Nat} (inChain : index < length)
    (called : (chainContract tolerant front length nesting bound).called (some index))
    (handsOver : Bool) :
    (chainContract tolerant front length nesting bound).invariant.Keeps
      (if handsOver then nextVisitor (some index) else return some index :
        Program (QueryWorld Stream) _) pending fun pointer next =>
          next = pending ∧
            (chainContract tolerant front length nesting bound).Follows (some index) pointer := by
  split
  · apply keeps_nextVisitor.weaken
    rintro pointer _ ⟨rfl, rfl⟩
    exact ⟨rfl, follows_nextPointer inChain called⟩
  · exact .pure ⟨rfl, follows_self called⟩

theorem keeps_treats {index : Nat} (inChain : index < length)
    (called : (chainContract tolerant front length nesting bound).called (some index))
    (treatment : LengthDelimitedFieldTreatment) (handsOver : Bool) :
    (chainContract tolerant front length nesting bound).invariant.Keeps
      (do let visitor ← if handsOver then nextVisitor (some index) else pure (some index)
          return (treatment, visitor) : Program (QueryWorld Stream) _) pending
      fun chosen next => next = pending ∧
        (chainContract tolerant front length nesting bound).called chosen.2 := by
  split
  · apply keeps_nextVisitor.bind
    rintro pointer _ ⟨rfl, rfl⟩
    exact .pure ⟨rfl, (follows_nextPointer inChain called).1⟩
  · exact .pure ⟨rfl, called⟩

theorem keeps_emitRow {row : Except Exception (Option StdString)} (emitter : Emitter)
    (other : row ≠ .error .outOfFuel) :
    (chainContract tolerant front length nesting bound).invariant.Keeps
      (emitRow emitter row : Program (QueryWorld Stream) _) pending
        fun _ next => next = pending := by
  rcases row with exception | _ | row
  · apply Invariant.Keeps.throw
    exact fun world holds => ⟨fun same => absurd (congrArg _ same) other, holds⟩
  · exact .pure rfl
  · unfold emitRow emitStr
    have writes : (chainContract tolerant front length nesting bound).invariant.Keeps
        (modify fun world : QueryWorld Stream => { world with
          memory := { world.memory with rows := world.memory.rows ++ [row] } }) pending
        fun _ next => next = pending :=
      .of_ok fun world => ⟨_, _, rfl,
        fun holds => ⟨holds.sameLength, holds.sameFront, holds.buffers⟩, rfl⟩
    have reads : (chainContract tolerant front length nesting bound).invariant.Keeps
        (get : Program (QueryWorld Stream) _) pending fun _ next => next = pending :=
      .of_ok fun world => ⟨world, world, rfl, id, rfl⟩
    apply writes.bind
    rintro _ _ rfl
    split
    · apply reads.bind
      rintro _ _ rfl
      split
      · exact .throw fun _ holds => ⟨nofun, holds⟩
      · exact .pure rfl
    · exact .pure rfl

theorem readPrimitive_ne_outOfFuel (utils : PostgresUtils) (kind : EmitterKind)
    (field : FieldInfo) : kind.readPrimitive utils field ≠ .error .outOfFuel := by
  cases kind with
  | primitive type => cases type <;> simp [EmitterKind.readPrimitive, EmitterKind.primitiveRow,
      Except.map]
  | enum descriptor => simp [EmitterKind.readPrimitive]
  | message typeUrl => simp [EmitterKind.readPrimitive]

theorem bufferedValue_ne_outOfFuel (binaryToJsonString : StdString → Bytes → Option StdString)
    (kind : EmitterKind) (contents : StdString) :
    kind.bufferedValue binaryToJsonString contents ≠ .error .outOfFuel := by
  cases kind with
  | message typeUrl =>
      simp only [EmitterKind.bufferedValue]
      split
      · simp
      · split <;> simp
  | _ => simp [EmitterKind.bufferedValue]

theorem keptBy_chainVisitors (utils : PostgresUtils)
    (binaryToJsonString : StdString → Bytes → Option StdString)
    {forward : VisitorPointer → FieldInfo → StdString → Program (QueryWorld Stream) Unit}
    (forwards : ∀ index pending field contents,
      (chainContract tolerant front length nesting bound).called (some index) → index < length →
      tolerant ∨ contents.length < bound →
      (chainContract tolerant front length nesting bound).invariant.Keeps
        (forward (nextPointer length index) field contents) pending
          fun _ next => next = pending)
    (localBits : Nat → UInt64) {handovers : Nat} (enough : tolerant ∨ length < handovers) :
    (chainContract tolerant front length nesting bound).KeptBy
      ⟨chainVisitors utils binaryToJsonString forward, localBits, handovers⟩ where
  badProto _ := tolerates nofun
  recursionDepthExceeded := tolerates nofun
  handovers := by
    intro visitor _
    apply enough.imp
    · exact fun isTolerant => tolerates fun _ => isTolerant
    · intro few
      cases visitor with
      | none => exact Nat.zero_lt_of_lt few
      | some index => exact Nat.lt_of_le_of_lt (Nat.sub_le ..) few
  pushed visitor pending _ := keeps_reindex pending (.pure rfl)
  popped visitor pending called := by
    apply keeps_reindex pending
    apply keeps_readVisitor.bind
    rintro read _ ⟨rfl, known⟩
    split
    · exact keeps_writeVisitor called (.fieldSelector _)
    · exact keeps_writeVisitor called (known _ rfl).1.reset
    · exact .pure rfl
  beginField visitor pending number wireType called := by
    apply keeps_readVisitor.bind
    rintro read _ ⟨rfl, known⟩
    split
    · rename_i selector
      rcases known _ rfl with ⟨_, index, rfl, inChain⟩
      generalize selector.beginField number wireType = begun
      rcases begun with ⟨changed, handsOver⟩
      apply (keeps_writeVisitor called (.fieldSelector changed)).bind
      rintro _ _ rfl
      exact keeps_handsOver inChain called handsOver
    · apply (keeps_writeVisitor called ((known _ rfl).1.beginField number wireType)).bind
      rintro _ _ rfl
      exact .pure ⟨rfl, follows_self called⟩
    · rename_i entries
      rcases known _ rfl with ⟨_, index, rfl, inChain⟩
      generalize entries.beginField number = begun
      rcases begun with ⟨changed, handsOver⟩
      apply (keeps_writeVisitor called (.allMapEntries changed)).bind
      rintro _ _ rfl
      exact keeps_handsOver inChain called handsOver
    · exact .pure ⟨rfl, follows_self called⟩
  beginMessage visitor pending called := by
    apply keeps_readVisitor.bind
    rintro read _ ⟨rfl, known⟩
    split
    · rcases known _ rfl with ⟨_, index, rfl, inChain⟩
      exact keeps_handsOver inChain called true
    · apply (keeps_writeVisitor called (known _ rfl).1.beginMessage).bind
      rintro _ _ rfl
      exact .pure ⟨rfl, follows_self called⟩
    · exact .pure ⟨rfl, follows_self called⟩
  readLengthDelimitedField visitor pending field called := by
    apply keeps_readVisitor.bind
    rintro read _ ⟨rfl, known⟩
    split
    · exact .pure ⟨rfl, called⟩
    · rename_i selector
      rcases known _ rfl with ⟨_, index, rfl, inChain⟩
      generalize selector.readLengthDelimitedField = chosen
      rcases chosen with ⟨treatment, handsOver⟩
      exact keeps_treats inChain called treatment handsOver
    · apply (keeps_writeVisitor called ((known _ rfl).1.readLengthDelimitedField field)).bind
      rintro _ _ rfl
      exact .pure ⟨rfl, called⟩
    · rename_i entries
      rcases known _ rfl with ⟨_, index, rfl, inChain⟩
      generalize entries.readLengthDelimitedField = chosen
      rcases chosen with ⟨treatment, handsOver⟩
      exact keeps_treats inChain called treatment handsOver
    · exact .pure ⟨rfl, called⟩
    · exact .pure ⟨rfl, called⟩
  readPrimitive visitor pending field called := by
    apply keeps_readVisitor.bind
    rintro read _ ⟨rfl, known⟩
    split
    · exact keeps_writeVisitor called ((known _ rfl).1.readPrimitive field)
    · exact keeps_emitRow _ (readPrimitive_ne_outOfFuel _ _ _)
    · exact .pure rfl
  readString visitor pending contents called := by
    apply keeps_readVisitor.bind
    rintro read _ ⟨rfl, known⟩
    split
    · exact keeps_emitRow _ nofun
    · exact .pure rfl
  readBytes visitor pending contents called := by
    apply keeps_readVisitor.bind
    rintro read _ ⟨rfl, known⟩
    split
    · exact keeps_emitRow _ nofun
    · exact .pure rfl
  bufferedValue visitor pending contents called short := by
    intro world holds
    have isShort : tolerant ∨ contents.length < bound :=
      short.imp_left fun tolerated => (tolerated pending world.memory holds).1 rfl
    revert world
    apply keeps_readVisitor.bind
    rintro read _ ⟨rfl, known⟩
    split
    · exact keeps_writeVisitor called ((known _ rfl).1.bufferedValue isShort)
    · exact keeps_emitRow _ (bufferedValue_ne_outOfFuel _ _ _)
    · exact .pure rfl
  endField visitor pending called := by
    apply keeps_readVisitor.bind
    rintro read _ ⟨rfl, known⟩
    split
    · exact keeps_writeVisitor called (.fieldSelector _)
    · rename_i filter
      rcases known _ rfl with ⟨below, index, rfl, inChain⟩
      apply (keeps_writeVisitor called below.leaveScope).bind
      rintro _ _ rfl
      split
      · split
        · apply keeps_nextVisitor.bind
          rintro pointer _ ⟨rfl, rfl⟩
          apply (forwards index _ _ _ called inChain (below filter rfl)).bind
          rintro _ _ rfl
          exact keeps_writeVisitor called below.reset
        · exact keeps_writeVisitor called below.reset
      · exact .pure rfl
    · exact keeps_writeVisitor called (.allMapEntries _)
    · exact .pure rfl

end

/-! ## Scans inside each other -/

open LawfulCodedInputStream (view)

class RefusesNegativeSizes (Stream : Type) [CodedInputStream Stream]
    [LawfulCodedInputStream Stream] : Prop where
  readString : ∀ (stream : Stream) {size : Int}, size < 0 →
    CodedInputStream.readString size stream = none
  pushLimit : ∀ (stream : Stream) {size : Int}, size < 0 →
    (view (CodedInputStream.pushLimit size stream).2).left.length ≤
      (view stream).left.length
  incrementRecursionDepth : ∀ (stream : Stream) {size : Int}, size < 0 →
    (view (CodedInputStream.incrementRecursionDepthAndPushLimit size stream).2).left.length ≤
      (view stream).left.length

theorem ArrayStream.pushLimit_left_length (stream : ArrayStream) (size : Int) :
    (stream.pushLimit size).2.view.left.length ≤ stream.view.left.length := by
  rw [StreamView.left_length (stream.pushLimit size).2.valid,
    StreamView.left_length stream.valid]
  simp only [pushLimit]
  omega

instance : RefusesNegativeSizes ArrayStream where
  readString _ _ negative := if_neg fun fits => Int.not_lt.mpr fits.1 negative
  pushLimit stream size _ := stream.pushLimit_left_length size
  incrementRecursionDepth stream size _ := stream.pushLimit_left_length size

section

variable [CodedInputStream Stream] [LawfulCodedInputStream Stream]
variable [RefusesNegativeSizes Stream]

theorem contained_asSize (stream : Stream) (value : FieldInfo.Value) :
    Contained stream value.asSize := by
  by_cases negative : value.asSize < 0
  · refine ⟨?_, RefusesNegativeSizes.pushLimit stream negative,
      RefusesNegativeSizes.incrementRecursionDepth stream negative⟩
    intro contents next reads
    cases (RefusesNegativeSizes.readString stream negative).symm.trans reads
  · rcases Int.eq_ofNat_of_zero_le (Int.not_lt.mp negative) with ⟨size, isSize⟩
    have bound : value.asSize < 2 ^ 31 := BitVec.toInt_lt
    rw [isSize]
    exact contained_natural stream (by omega)

variable {tolerant : Prop} {front : List ChainVisitor} {length nesting bound : Nat}
variable {pending : List VisitorPointer}
variable {context : ScanContext VisitorPointer QueryMemory Stream}

open ProtobufTraverser

omit [CodedInputStream Stream] [LawfulCodedInputStream Stream] [RefusesNegativeSizes Stream] in
theorem keeps_popVisitor (kept : (chainContract tolerant front length nesting bound).KeptBy context)
    {traverser : ProtobufTraverser VisitorPointer}
    (allCalled : ∀ element ∈ traverser.visitorStack,
      (chainContract tolerant front length nesting bound).called element.visitor) :
    (chainContract tolerant front length nesting bound).invariant.Keeps
      (popVisitor context traverser) pending fun _ _ => True := by
  unfold popVisitor
  split
  · exact .pure True.intro
  · rename_i top below isStack
    have called := allCalled top (isStack ▸ List.mem_cons_self ..)
    have pops : (chainContract tolerant front length nesting bound).invariant.Keeps
        (context.visitors.popped top.visitor) pending fun _ next => next = pending :=
      keeps_reindex _ (kept.popped top.visitor pending called)
    apply pops.bind
    intro _ _ _
    split
    · exact .pure True.intro
    · exact .pure True.intro

theorem keeps_ownScan (kept : (chainContract tolerant front length nesting bound).KeptBy context)
    {visitor : VisitorPointer}
    (called : (chainContract tolerant front length nesting bound).called visitor)
    {fuel : Nat} {contents : Bytes}
    (short : tolerant ∨ contents.length < fuel ∧ contents.length < bound) (field : FieldInfo) :
    (chainContract tolerant front length nesting bound).invariant.Keeps
      (do let (traverser, _) ← scanField context fuel field
            ((ProtobufTraverser.new context.visitors).withPushed 0 [visitor])
            (CodedInputStream.ofBytes contents : Stream)
          let _ ← popVisitor context traverser
          return ()) pending fun _ _ => True := by
  have left : (view (CodedInputStream.ofBytes contents : Stream)).left.length =
      contents.length := by
    rw [StreamView.left_length (LawfulCodedInputStream.view_valid _),
      LawfulCodedInputStream.view_ofBytes]
    rfl
  have enough : (chainContract tolerant front length nesting bound).Enough fuel
      (CodedInputStream.ofBytes contents : Stream) := by
    apply short.imp
    · exact fun isTolerant => tolerates fun _ => isTolerant
    · rw [left]
      exact id
  have settled := (settled_new context.visitors).withPushed [visitor]
  apply (kept.keeps_scanField settled called enough
    fun _ => .inr (contained_asSize _ field.value)).bind
  rintro ⟨_, last⟩ _ ⟨visitors, allCalled, rfl, rfl⟩
  have onStack : ∀ element ∈ ((((ProtobufTraverser.new context.visitors).withPushed 0
      [visitor]).withPushed 0 visitors).visitorStack),
      (chainContract tolerant front length nesting bound).called element.visitor := by
    intro element isOn
    rw [withPushed_append] at isOn
    rcases List.mem_append.mp (visitor_mem_of_mem_withPushed isOn) with isPushed | isFirst
    · exact allCalled _ isPushed
    · rw [List.mem_singleton.mp isFirst]
      exact called
  apply (keeps_popVisitor kept onStack).bind
  intro _ _ _
  exact .pure True.intro

variable (environment : RunEnvironment)

omit [CodedInputStream Stream] [LawfulCodedInputStream Stream] [RefusesNegativeSizes Stream] in
theorem Confined.outer {memory after : QueryMemory} {index : Nat}
    (holds : Confined tolerant front length bound memory) (behind : front.length ≤ index)
    (inner : Confined tolerant (memory.visitors.take (index + 1)) length bound after)
    (inChain : index < length) : Confined tolerant front length bound after := by
  have innerFront : after.visitors.take (index + 1) = memory.visitors.take (index + 1) := by
    have same := inner.sameFront
    rwa [List.length_take_of_le (by rw [holds.sameLength]; exact inChain)] at same
  refine ⟨inner.sameLength, ?_, inner.buffers⟩
  have shorter : min front.length (index + 1) = front.length :=
    Nat.min_eq_left (Nat.le_succ_of_le behind)
  have again := congrArg (List.take front.length) innerFront
  rw [List.take_take, List.take_take, shorter] at again
  exact again.trans holds.sameFront

omit [LawfulCodedInputStream Stream] [RefusesNegativeSizes Stream] in
theorem forwardBufferedValue_eq {context : ScanContext VisitorPointer QueryMemory Stream}
    (still : ∀ visitor, context.visitors.pushed visitor = pure ()) (fuel : Nat)
    (next : VisitorPointer) (field : FieldInfo) (contents : StdString) :
    forwardBufferedValue context fuel next field contents =
      (do let (traverser, _) ← scanField context fuel field
            ((ProtobufTraverser.new context.visitors).withPushed 0 [next])
            (CodedInputStream.ofBytes contents : Stream)
          let _ ← popVisitor context traverser
          return ()) := by
  simp only [forwardBufferedValue, pushVisitor_eq, still, pure_bind]
  rfl

omit [LawfulCodedInputStream Stream] [RefusesNegativeSizes Stream] in
theorem pushed_scanContext (fuel handovers nesting : Nat) (visitor : VisitorPointer) :
    (scanContext environment fuel handovers nesting :
      ScanContext VisitorPointer QueryMemory Stream).visitors.pushed visitor = pure () := by
  cases nesting <;> rfl

theorem meets_forwardBufferedValue
    (still : ∀ visitor, context.visitors.pushed visitor = pure ()) {index : Nat}
    {world : QueryWorld Stream}
    (kept : (chainContract tolerant (world.memory.visitors.take (index + 1)) length nesting
      bound).KeptBy context)
    (inChain : index < length) (holds : Confined tolerant front length bound world.memory)
    (nested : tolerant ∨ length ≤ index + 1 + nesting) {fuel : Nat} {contents : StdString}
    (short : tolerant ∨ contents.length < fuel ∧ contents.length < bound) (field : FieldInfo) :
    Meets
      (fun exception after => (exception = .outOfFuel → tolerant) ∧
        Confined tolerant (world.memory.visitors.take (index + 1)) length bound after.memory)
      (forwardBufferedValue context fuel (nextPointer length index) field contents) world
      fun _ after =>
        Confined tolerant (world.memory.visitors.take (index + 1)) length bound after.memory := by
  have frontLength : (world.memory.visitors.take (index + 1)).length = index + 1 :=
    List.length_take_of_le (by rw [holds.sameLength]; exact inChain)
  have calledNext : (chainContract tolerant (world.memory.visitors.take (index + 1)) length
      nesting bound).called (nextPointer length index) := by
    intro later isNext
    unfold nextPointer at isNext
    split at isNext
    · cases isNext
      rw [frontLength]
      exact ⟨Nat.le_refl _, nested⟩
    · cases isNext
  have inner : Confined tolerant (world.memory.visitors.take (index + 1)) length bound
      world.memory := by
    refine ⟨holds.sameLength, ?_, holds.buffers⟩
    rw [frontLength]
  have keeps : (chainContract tolerant (world.memory.visitors.take (index + 1)) length nesting
      bound).invariant.Keeps _ [] fun _ _ => True :=
    keeps_ownScan kept calledNext short field
  rw [forwardBufferedValue_eq still]
  apply (keeps world inner).imp
  · rintro _ after ⟨_, innerAfter, _⟩
    exact innerAfter
  · exact fun _ _ isAllowed => isAllowed

theorem keptBy_scanContext {fuel handovers : Nat}
    (enough : tolerant ∨ length < handovers ∧ bound ≤ fuel) (nesting : Nat)
    (front : List ChainVisitor) :
    (chainContract tolerant front length nesting bound).KeptBy
      (scanContext environment fuel handovers nesting :
        ScanContext VisitorPointer QueryMemory Stream) := by
  have enoughHandovers : tolerant ∨ length < handovers := enough.imp_right And.left
  induction nesting generalizing front with
  | zero =>
      apply keptBy_chainVisitors _ _ ?_ _ enoughHandovers
      intro index pending field contents called inChain _
      have isTolerant : tolerant :=
        (called index rfl).2.resolve_right (Nat.not_le.mpr inChain)
      exact .throw fun _ holds => ⟨fun _ => isTolerant, holds⟩
  | succ nesting induction =>
      apply keptBy_chainVisitors _ _ ?_ _ enoughHandovers
      intro index pending field contents called inChain short world holds
      have bounds := called index rfl
      have shortBoth : tolerant ∨ contents.length < fuel ∧ contents.length < bound := by
        rcases enough with isTolerant | enough
        · exact .inl isTolerant
        · exact short.imp_right fun few => ⟨Nat.lt_of_lt_of_le few enough.2, few⟩
      have nested : tolerant ∨ length ≤ index + 1 + nesting :=
        bounds.2.imp_right fun few => by omega
      apply (meets_forwardBufferedValue
        (pushed_scanContext environment fuel handovers nesting) (induction _) inChain holds nested
        shortBoth field).imp
      · intro _ after inner
        exact ⟨pending, holds.outer bounds.1 inner inChain, rfl⟩
      · rintro exception after ⟨other, inner⟩
        exact ⟨other, holds.outer bounds.1 inner inChain⟩

variable (Stream) in
theorem scanRoot_ne_outOfFuel {visitors : List ChainVisitor} {protoData : Bytea}
    (short : ∀ visitor ∈ visitors, visitor.BufferBelow False (protoData.data.length + 1))
    (after : QueryWorld Stream) :
    scanRoot
        (scanContext environment (protoData.data.length + 1) (visitors.length + 1)
          visitors.length : ScanContext VisitorPointer QueryMemory Stream)
        (protoData.data.length + 1) protoData ⟨⟨visitors, []⟩, 0, []⟩ ≠
      .error .outOfFuel after := by
  have kept : (chainContract False [] visitors.length visitors.length
      (protoData.data.length + 1)).KeptBy
      (scanContext environment (protoData.data.length + 1) (visitors.length + 1)
        visitors.length : ScanContext VisitorPointer QueryMemory Stream) :=
    keptBy_scanContext environment (.inr ⟨Nat.lt_succ_self _, Nat.le_refl _⟩) _ []
  have keeps : (chainContract False [] visitors.length visitors.length
      (protoData.data.length + 1)).invariant.Keeps
      (scanRoot
        (scanContext environment (protoData.data.length + 1) (visitors.length + 1)
          visitors.length : ScanContext VisitorPointer QueryMemory Stream)
        (protoData.data.length + 1) protoData) [] fun _ _ => True := by
    simp only [scanRoot, pushVisitor_eq, pushed_scanContext, pure_bind]
    apply (ScanContract.KeptBy.keeps_declareFieldInfo 0 2).bind
    rintro field _ ⟨rfl, _, _⟩
    apply keeps_ownScan kept
    · rintro index ⟨⟩
      exact ⟨Nat.le_refl _, .inr (Nat.le_add_left ..)⟩
    · exact .inr ⟨Nat.lt_succ_self _, Nat.lt_succ_self _⟩
  have starts : (chainContract False [] visitors.length visitors.length
      (protoData.data.length + 1)).invariant.holds [] (⟨⟨visitors, []⟩, 0, []⟩ :
        QueryWorld Stream) := Confined.mk rfl rfl short
  intro stops
  exact (keeps.stopped starts stops).1 rfl

end

/-! ## Handovers -/

section

def Later (this other : VisitorPointer) : Prop :=
  ∃ index, this = some index ∧ ∀ later, other = some later → index < later

structure HandsOverForward (family : VisitorFamily VisitorPointer QueryMemory Stream) :
    Prop where
  beginField : ∀ this number wireType, Yields (family.beginField this number wireType)
    fun other => other = this ∨ Later this other
  beginMessage : ∀ this, Yields (family.beginMessage this)
    fun other => other = this ∨ Later this other
  readLengthDelimitedField : ∀ this field, Yields (family.readLengthDelimitedField this field)
    fun chosen => chosen.2 = this ∨ Later this chosen.2

theorem yields_nextVisitor (this : VisitorPointer) :
    Yields (nextVisitor this : Program (QueryWorld Stream) _)
      fun other => other = this ∨ Later this other := by
  cases this with
  | none => exact .pure (.inl rfl)
  | some index =>
      apply Yields.after
      intro world
      refine .pure (.inr ⟨index, rfl, ?_⟩)
      intro later isNext
      unfold QueryMemory.next at isNext
      split at isNext
      · cases isNext
        exact Nat.lt_succ_self index
      · cases isNext

theorem yields_treats (this : VisitorPointer) (treatment : LengthDelimitedFieldTreatment)
    (handsOver : Bool) :
    Yields (do let visitor ← if handsOver then nextVisitor this else pure this
               return (treatment, visitor) : Program (QueryWorld Stream) _)
      fun chosen => chosen.2 = this ∨ Later this chosen.2 := by
  split
  · apply (yields_nextVisitor this).bind
    intro other forward
    exact .pure forward
  · exact .pure (.inl rfl)

theorem yields_handsOver (this : VisitorPointer) (handsOver : Bool) :
    Yields (if handsOver then nextVisitor this else return this : Program (QueryWorld Stream) _)
      fun other => other = this ∨ Later this other := by
  split
  · exact yields_nextVisitor this
  · exact .pure (.inl rfl)

theorem handsOverForward_chainVisitors (utils : PostgresUtils)
    (binaryToJsonString : StdString → Bytes → Option StdString)
    (forward : VisitorPointer → FieldInfo → StdString → Program (QueryWorld Stream) Unit) :
    HandsOverForward (chainVisitors utils binaryToJsonString forward) where
  beginField this number wireType := by
    apply Yields.after
    intro read
    split
    · rename_i selector
      generalize selector.beginField number wireType = begun
      rcases begun with ⟨changed, handsOver⟩
      exact Yields.after fun _ => yields_handsOver this handsOver
    · exact Yields.after fun _ => .pure (.inl rfl)
    · rename_i entries
      generalize entries.beginField number = begun
      rcases begun with ⟨changed, handsOver⟩
      exact Yields.after fun _ => yields_handsOver this handsOver
    · exact .pure (.inl rfl)
  beginMessage this := by
    apply Yields.after
    intro read
    split
    · exact yields_nextVisitor this
    · exact Yields.after fun _ => .pure (.inl rfl)
    · exact .pure (.inl rfl)
  readLengthDelimitedField this field := by
    apply Yields.after
    intro read
    split
    · exact .pure (.inl rfl)
    · rename_i selector
      generalize selector.readLengthDelimitedField = chosen
      rcases chosen with ⟨treatment, handsOver⟩
      exact yields_treats this treatment handsOver
    · exact Yields.after fun _ => .pure (.inl rfl)
    · rename_i entries
      generalize entries.readLengthDelimitedField = chosen
      rcases chosen with ⟨treatment, handsOver⟩
      exact yields_treats this treatment handsOver
    · exact .pure (.inl rfl)
    · exact .pure (.inl rfl)

theorem handsOverForward_scanContext [CodedInputStream Stream] (environment : RunEnvironment)
    (fuel handovers nesting : Nat) :
    HandsOverForward (scanContext environment fuel handovers nesting :
      ScanContext VisitorPointer QueryMemory Stream).visitors := by
  have hands : ∀ forward, HandsOverForward (chainVisitors environment.utils
      environment.binaryToJsonString forward : VisitorFamily VisitorPointer QueryMemory Stream) :=
    handsOverForward_chainVisitors environment.utils environment.binaryToJsonString
  cases nesting with
  | zero => exact hands fun _ _ _ => throw .outOfFuel
  | succ nesting => exact hands _

end

/-! ## Runs -/

section

variable [CodedInputStream Stream] [LawfulCodedInputStream Stream]

open ProtobufTraverser

structure TurnsTakeBytes {Visitor Memory : Type} [DecidableEq Visitor]
    (context : ScanContext Visitor Memory Stream) : Prop where
  messageTurn : ∀ fuel traverser stream, (CodedInputStream.readTag stream).1 ≠ 0 →
    Yields
      (messageTurn context fuel (CodedInputStream.readTag stream).1 traverser
        (CodedInputStream.readTag stream).2)
      fun turned => (view turned.2).left.length < (view stream).left.length
  packedTurn : ∀ field traverser stream,
    Yields (packedTurn context field traverser stream)
      fun turned => (view turned.2.2).left.length < (view stream).left.length

theorem Moves.shrinks {water : HighWaterMark Stream} {stream next : Stream} {count : Nat}
    (moves : Moves water stream next count) (positive : 0 < count) :
    (view next).left.length < (view stream).left.length := by
  have fits := moves.reaches.1
  have fewer := moves.left_length
  omega

theorem turnsTakeBytes {Visitor Memory : Type} [DecidableEq Visitor]
    (context : ScanContext Visitor Memory Stream) : TurnsTakeBytes context where
  messageTurn fuel traverser stream nonzero := by
    rcases readTag_cases .trivial stream with
      ⟨_, count, positive, moves⟩ | ⟨zero, _⟩ | ⟨zero, _⟩
    · apply (yields_messageTurn .trivial context (scansLevel_scanMessage .trivial context fuel) _
        traverser _).weaken
      rintro turned ⟨taken, _, movesTurn⟩
      exact (moves.trans movesTurn).shrinks (Nat.add_pos_left positive taken)
    · exact absurd zero nonzero
    · exact absurd zero nonzero
  packedTurn field traverser stream := by
    apply (yields_packedTurn .trivial context field traverser stream).weaken
    rintro turned ⟨count, positive, moves⟩
    exact moves.shrinks positive

def ForwardsToLater
    (forward : VisitorPointer → FieldInfo → StdString → Program (QueryWorld Stream) Unit) :
    Prop :=
  ∀ (world : QueryWorld Stream) (index : Nat) (field : FieldInfo) (contents : StdString),
    index < world.memory.visitors.length →
    Meets
      (fun _ after => after.memory.visitors.take (index + 1) =
        world.memory.visitors.take (index + 1))
      (forward (world.memory.next index) field contents) world
      fun _ after => after.memory.visitors.take (index + 1) =
        world.memory.visitors.take (index + 1)

variable [RefusesNegativeSizes Stream]

theorem forwardsToLater (environment : RunEnvironment) (fuel handovers nesting : Nat) :
    ForwardsToLater (forwardBufferedValue
      (scanContext environment fuel handovers nesting :
        ScanContext VisitorPointer QueryMemory Stream) fuel) := by
  intro world index field contents inChain
  have frontLength : (world.memory.visitors.take (index + 1)).length = index + 1 :=
    List.length_take_of_le inChain
  have starts : Confined True [] world.memory.visitors.length 0 world.memory :=
    ⟨rfl, rfl, fun _ _ _ _ => .inl True.intro⟩
  have same : ∀ after : QueryWorld Stream,
      Confined True (world.memory.visitors.take (index + 1)) world.memory.visitors.length 0
        after.memory →
      after.memory.visitors.take (index + 1) = world.memory.visitors.take (index + 1) := by
    intro after holds
    have sameFront := holds.sameFront
    rwa [frontLength] at sameFront
  apply (meets_forwardBufferedValue
    (pushed_scanContext environment fuel handovers nesting)
    (keptBy_scanContext environment (.inl True.intro) nesting _) inChain starts
    (.inl True.intro) (.inl True.intro) field).imp
  · exact fun _ after holds => same after holds
  · exact fun _ after allowed => same after allowed.2

theorem bufferBelow_partsVisitors {uninitialised : Uninitialised} {bound : Nat}
    (positive : 0 < bound) (position : Nat) (parts : List ChainPart) :
    ∀ visitor ∈ partsVisitors uninitialised position parts,
      visitor.BufferBelow False bound := by
  induction parts generalizing position with
  | nil => exact fun _ isVisitor => absurd isVisitor List.not_mem_nil
  | cons part parts induction =>
      intro visitor isVisitor filter isFilter
      subst isFilter
      simp only [partsVisitors, ChainPart.visitors, List.cons_append, List.mem_cons,
        List.mem_append, reduceCtorEq, false_or] at isVisitor
      rcases isVisitor with isMap | isLater
      · cases map : part.map with
        | none =>
            rw [map] at isMap
            cases isMap
        | entries wantKeys type =>
            rw [map] at isMap
            cases List.mem_singleton.mp isMap
        | lookup keyType wantedKeyField wantedKeyContents valueType =>
            rw [map] at isMap
            cases List.mem_singleton.mp isMap
            exact .inr positive
      · exact induction _ _ isLater filter rfl

theorem bufferBelow_chainObjects {uninitialised : Uninitialised} {parts : List ChainPart}
    {last : ChainEnd} {bound : Nat} (positive : 0 < bound) :
    ∀ visitor ∈ chainObjects uninitialised parts last, visitor.BufferBelow False bound := by
  intro visitor isVisitor
  rcases List.mem_append.mp isVisitor with isPart | isLast
  · exact bufferBelow_partsVisitors positive 0 parts visitor isPart
  · rintro filter rfl
    unfold dotVisitors at isLast
    split at isLast <;> simp at isLast

variable (Stream) in
theorem run_ne_outOfFuel {query : QueryImpl} {message : Bytea}
    (short : ∀ visitor ∈ query.visitors,
      visitor.BufferBelow False (message.data.length + 1))
    (utils : PostgresUtils) (localBits : Nat → UInt64) :
    query.run Stream utils localBits message ≠ .error .outOfFuel := by
  have enough := scanRoot_ne_outOfFuel Stream
    ⟨utils, query.binaryToJsonString, localBits⟩ short
  unfold QueryImpl.run QueryImpl.runOn
  split
  · nofun
  · nofun
  · rename_i exception after other stops
    intro isFuel
    cases isFuel
    exact enough after stops

variable (Stream) {Message : Type}

/-- A run of an accepted query ends with rows or an error of the code. Meanwhile each turn
of a loop takes bytes, handovers go forward along the chain, and what a filter forwards is
scanned by the visitors behind it. -/
theorem run_terminates {descDb : DescDb Message} {uninitialised : Uninitialised}
    {text : StdString} {limit : Option Nat} {query : QueryImpl}
    (accepted : compileQuery descDb uninitialised text limit = .ok query)
    (utils : PostgresUtils) (localBits : Nat → UInt64) (message : Bytea) :
    query.run Stream utils localBits message ≠ .error .outOfFuel ∧
      ∀ fuel handovers nesting,
        let context : ScanContext VisitorPointer QueryMemory Stream :=
          scanContext ⟨utils, query.binaryToJsonString, localBits⟩ fuel handovers nesting
        TurnsTakeBytes context ∧ HandsOverForward context.visitors ∧
          ForwardsToLater (forwardBufferedValue context fuel) := by
  rcases compileQuery_eq_ok_iff.mp accepted with
    ⟨descSet, desc, path, parts, last, final, _, _, rfl⟩
  refine ⟨run_ne_outOfFuel Stream (bufferBelow_chainObjects (Nat.succ_pos _)) utils localBits, ?_⟩
  intro fuel handovers nesting context
  exact ⟨turnsTakeBytes context, handsOverForward_scanContext _ fuel handovers nesting,
    forwardsToLater _ fuel handovers nesting⟩

end

/-- A filter that forwards the value of an entry, and what follows the entry is cut off. -/
theorem run_terminates_mapValue :
    let message : Bytea := ⟨[0x52, 8, 0x0A, 1, 0x6B, 0x12, 3, 0x0A, 1, 0x61, 0x0A], by decide⟩
    let query := testQuery .exampleMessage "map_str2inner[k].inner_str"
    query.run ArrayStream testUtils (fun _ => 0) message ≠ .error .outOfFuel ∧
      ∀ fuel handovers nesting,
        let context : ScanContext VisitorPointer QueryMemory ArrayStream :=
          scanContext ⟨testUtils, query.binaryToJsonString, fun _ => 0⟩ fuel handovers nesting
        TurnsTakeBytes context ∧ HandsOverForward context.visitors ∧
          ForwardsToLater (forwardBufferedValue context fuel) := by
  intro message query
  have accepted : compileQuery testDb zeroMemory
      (literal "pgpb.test.ExampleMessage:map_str2inner[k].inner_str") none = .ok query := rfl
  exact run_terminates ArrayStream accepted testUtils (fun _ => 0) message

end PostgresProtobuf
