import PostgresProtobuf.ChainCallbacks
import PostgresProtobuf.StreamReading
import PostgresProtobuf.TraverserStack

/-! # Rules for the loops of a scan

A loop of the traverser realizes the turns of its fields when each of its turns
does. The rules hold for any visitors over the objects of a chain. -/

namespace PostgresProtobuf

open Foundation

/-- The union holds the value over bits that a local may hold. -/
def Heads {State : Type} (knowledge : Knowledge State) (value : WireValue)
    (header : FieldInfo) : Prop :=
  header.wireType = value.wireType ∧
    ∃ bits, knowledge.Possible bits ∧ header.value = value.union bits

theorem union_union {first second : WireValue}
    (same : second.wireType = first.wireType) (bits : UInt64) :
    second.union (first.union bits).bits = second.union bits := by
  cases first <;> cases second <;> simp only [WireValue.wireType] at same
  case varint.varint => rfl
  case fixed64.fixed64 => rfl
  case lengthDelimited.lengthDelimited =>
      exact FieldInfo.Value.setUInt32_setUInt32 ..
  case fixed32.fixed32 => exact FieldInfo.Value.setUInt32_setUInt32 ..
  all_goals omega

theorem declareFieldInfo_eq {Stream : Type}
    (context : ScanContext VisitorPointer QueryMemory Stream) (number : Int)
    (wireType : Nat) (world : QueryWorld Stream) :
    declareFieldInfo context number wireType world =
      .ok ⟨number, wireType, ⟨context.localBits world.locals⟩⟩
        { world with locals := world.locals + 1 } := rfl

theorem record_eq {Stream : Type} (event : ScanEvent Stream) (world : QueryWorld Stream) :
    record event world = .ok () { world with scanned := world.scanned ++ [event] } := rfl

theorem record_realizes {Stream State : Type} [CodedInputStream Stream]
    [LawfulCodedInputStream Stream] (textless : Bool) (event : ScanEvent Stream) (state : State)
    (world : QueryWorld Stream) :
    Realizes (runRecorder textless) (Action.log event.event) state (record event) world
      fun _ after next =>
        after.memory.visitors = world.memory.visitors ∧ next = state := by
  have noRows : Event.rows [event.event] = [] := by
    cases event <;> rfl
  have shows : RowsShow textless [] (Event.rows [event.event]) := by
    rw [noRows]
    exact rowsShow_self textless []
  refine ⟨(), _, record_eq event world, ⟨⟨[], by simp, shows⟩, [event], rfl, ?_⟩, rfl, rfl⟩
  cases event <;> rfl

namespace ProtobufTraverser

variable {Stream : Type} [CodedInputStream Stream] [LawfulCodedInputStream Stream]
variable {State Progress : Type}

open LawfulCodedInputStream (view)

variable (context : ScanContext VisitorPointer QueryMemory Stream)
variable (knowledge : Knowledge State)

def fieldTurn (fuel : Nat) (header : FieldInfo)
    (traverser : ProtobufTraverser VisitorPointer) (stream : Stream) :
    Program (QueryWorld Stream) (ProtobufTraverser VisitorPointer × Stream) := do
  let traverser ←
    incrementDepthAndCallBeginField context header.number header.wireType traverser
  let (traverser, stream) ← scanField context fuel header traverser stream
  let traverser ← decrementDepthAndEndFieldAndPopVisitors context traverser
  return (traverser, stream)

def elementTurn (header : FieldInfo) (traverser : ProtobufTraverser VisitorPointer) :
    Program (QueryWorld Stream) (ProtobufTraverser VisitorPointer) := do
  let traverser ←
    incrementDepthAndCallBeginField context header.number header.wireType traverser
  context.visitors.readPrimitive traverser.visitor header
  decrementDepthAndEndFieldAndPopVisitors context traverser

omit [CodedInputStream Stream] [LawfulCodedInputStream Stream] in
theorem elementTurn_bind {Result : Type} (header : FieldInfo)
    (traverser : ProtobufTraverser VisitorPointer)
    (continuation : ProtobufTraverser VisitorPointer → Program (QueryWorld Stream) Result) :
    (elementTurn context header traverser >>= continuation) = (do
      let traverser ←
        incrementDepthAndCallBeginField context header.number header.wireType traverser
      context.visitors.readPrimitive traverser.visitor header
      let traverser ← decrementDepthAndEndFieldAndPopVisitors context traverser
      continuation traverser) := by
  simp only [elementTurn, bind_assoc]

/-- The turns at one message level realize their meaning: the traverser comes back,
the stream is past the payload, and what holds of the objects holds again. -/
def TurnsRealize (limit budget : Nat) (traverser : ProtobufTraverser VisitorPointer)
    (turn : Progress → WireField → Activity State × Progress)
    (Holds : Progress → List ChainVisitor → State → Prop) : Prop :=
  ∀ (fuel : Nat) (progress : Progress) (field : WireField) (header : FieldInfo)
    (stream : Stream) (world : QueryWorld Stream) (state : State),
    fuel ≤ limit → (view stream).left.length < fuel →
    (view stream).recursionBudget = budget → Carries stream field.value →
    header.number = field.number → Heads knowledge field.value header →
    Holds progress world.memory.visitors state →
    Realizes (runRecorder knowledge.textless) (turn progress field).1 state
      (fieldTurn context fuel header traverser stream) world
      fun result after next =>
        result.1 = traverser ∧ Reaches stream result.2 field.value.payload.length ∧
          Holds (turn progress field).2 after.memory.visitors next

def ElementsRealize (number : Int) (traverser : ProtobufTraverser VisitorPointer)
    (turn : Progress → WireValue → Activity State × Progress)
    (Holds : Progress → List ChainVisitor → State → Prop) : Prop :=
  ∀ (progress : Progress) (value : WireValue) (header : FieldInfo)
    (world : QueryWorld Stream) (state : State),
    value.wireType ≠ 2 → header.number = number → Heads knowledge value header →
    Holds progress world.memory.visitors state →
    Realizes (runRecorder knowledge.textless) (turn progress value).1 state
      (elementTurn context header traverser) world
      fun result after next =>
        result = traverser ∧ Holds (turn progress value).2 after.memory.visitors next

theorem tag_number (tag : UInt32) : (tag >>> 3).toNat = tag.toNat / 8 := by
  simp [Nat.shiftRight_eq_div_pow]

theorem tag_wireType (tag : UInt32) : (tag &&& 7).toNat = tag.toNat % 8 := by
  simp only [UInt32.toNat_and]
  exact Nat.and_two_pow_sub_one_eq_mod tag.toNat 3

section

variable {knowledge}
variable {limit budget : Nat} (traverser : ProtobufTraverser VisitorPointer)
variable {turn : Progress → WireField → Activity State × Progress}
variable {Holds : Progress → List ChainVisitor → State → Prop}

theorem scanFields_of_end {stream : Stream} (empty : (view stream).left = [])
    (fuel : Nat) (world : QueryWorld Stream) :
    ∃ next, scanFields context (fuel + 1) traverser stream world =
        .ok (traverser, next) world ∧ Reaches stream next 0 := by
  rcases LawfulCodedInputStream.readTag_of_left_eq_nil stream empty with
    ⟨tagZero, consumed, sameView⟩
  refine ⟨(CodedInputStream.readTag stream).2, ?_, Nat.zero_le _, by simp [sameView]⟩
  simp only [scanFields, tagZero, consumed, if_true]
  rfl

theorem scanFields_of_error {stream : Stream} {fault : FramingFault}
    (nonempty : (view stream).left ≠ [])
    (step : readField (view stream).left = .error fault) (fuel : Nat)
    (world : QueryWorld Stream) :
    ∃ after, scanFields context (fuel + 1) traverser stream world =
        .error (framingException fault) after ∧
      (runRecorder knowledge.textless).Records world [] after := by
  cases decoded : decodeTag (view stream).left with
  | none =>
      rcases LawfulCodedInputStream.readTag_of_decodeTag_eq_none stream nonempty decoded
        with ⟨tagZero, notConsumed⟩
      simp only [readField, decoded, Except.error.injEq] at step
      subst step
      refine ⟨world, ?_, (runRecorder _).nil world⟩
      simp only [scanFields, tagZero, notConsumed, if_true]
      rfl
  | some pair =>
      rcases pair with ⟨tag, rest⟩
      rcases LawfulCodedInputStream.readTag_of_decodeTag_eq_some stream tag rest decoded
        with ⟨rfl, tagView⟩
      rcases decodeTag_eq_some decoded with ⟨nonzero, _, taken, _, split, _⟩
      rcases Reaches.of_suffix split tagView with ⟨_, rfl⟩
      have tagNonzero : (CodedInputStream.readTag stream).1 ≠ 0 := fun zero =>
        nonzero (by rw [zero]; rfl)
      cases value : readValue ((CodedInputStream.readTag stream).1.toNat % 8)
          (view (CodedInputStream.readTag stream).2).left with
      | ok pair => simp [readField, decoded, value] at step
      | error valueFault =>
          simp only [readField, decoded, value, Except.error.injEq] at step
          subst step
          rw [← tag_wireType] at value
          refine ⟨{ world with locals := world.locals + 1 }, ?_, runRecorder_nil rfl rfl⟩
          simp only [scanFields, if_neg tagNonzero]
          refine (Program.bind_ok (declareFieldInfo_eq ..)).trans ?_
          exact Program.bind_error (readFieldValueOrSize_of_error
            ⟨_, _, ⟨context.localBits world.locals⟩⟩ value _)

theorem scanFields_of_field
    (possible : ∀ count, knowledge.Possible (context.localBits count))
    {stream : Stream} {field : WireField} {rest : Bytes}
    (step : readField (view stream).left = .ok (field, rest)) (fuel : Nat)
    (world : QueryWorld Stream) :
    ∃ (header : FieldInfo) (next : Stream) (count : Nat),
      scanFields context (fuel + 1) traverser stream world =
        (do let (traverser, stream) ← fieldTurn context fuel header traverser next
            scanFields context fuel traverser stream)
          { world with locals := world.locals + 1 } ∧
      header.number = field.number ∧ Heads knowledge field.value header ∧
      Reaches stream next count ∧ 0 < count ∧
      (view next).left = field.value.payload ++ rest ∧ Carries next field.value := by
  cases decoded : decodeTag (view stream).left with
  | none => simp [readField, decoded] at step
  | some pair =>
      rcases pair with ⟨tag, tagRest⟩
      rcases LawfulCodedInputStream.readTag_of_decodeTag_eq_some stream tag tagRest decoded
        with ⟨rfl, tagView⟩
      rcases decodeTag_eq_some decoded with ⟨nonzero, _, taken, _, split, _⟩
      rcases Reaches.of_suffix split tagView with ⟨tagReaches, rfl⟩
      have tagNonzero : (CodedInputStream.readTag stream).1 ≠ 0 := fun zero =>
        nonzero (by rw [zero]; rfl)
      cases read : readValue ((CodedInputStream.readTag stream).1.toNat % 8)
          (view (CodedInputStream.readTag stream).2).left with
      | error fault => simp [readField, decoded, read] at step
      | ok pair =>
          rcases pair with ⟨value, last⟩
          simp only [readField, decoded, read, Except.ok.injEq, Prod.mk.injEq] at step
          rcases step with ⟨rfl, rfl⟩
          have wireType := (readValue_eq_ok read).1
          rw [← tag_wireType] at read wireType
          let header : FieldInfo := ⟨((CodedInputStream.readTag stream).1 >>> 3).toNat,
            ((CodedInputStream.readTag stream).1 &&& 7).toNat,
            ⟨context.localBits world.locals⟩⟩
          rcases readFieldValueOrSize_of_ok header read
            { world with locals := world.locals + 1 } with
            ⟨next, count, reads, reaches, positive, left, carries⟩
          refine ⟨{ header with value := value.union (context.localBits world.locals) },
            next, taken.length + count, ?_, ?_, ⟨wireType.symm, _, possible _, rfl⟩,
            tagReaches.trans reaches, by omega, left, carries⟩
          · simp only [scanFields, if_neg tagNonzero]
            refine (Program.bind_ok (declareFieldInfo_eq ..)).trans ?_
            refine (Program.bind_ok reads).trans ?_
            simp only [fieldTurn, bind_assoc, pure_bind]
            rfl
          · simp only [header, tag_number]

variable {context traverser}

/-- The loop of `ScanMessage`, by induction on its turns. -/
theorem scanFields_realizes
    (possible : ∀ count, knowledge.Possible (context.localBits count))
    (realize : TurnsRealize context knowledge limit budget traverser turn Holds) :
    ∀ (fuel : Nat) (progress : Progress) (stream : Stream) (world : QueryWorld Stream)
      (state : State), fuel ≤ limit → (view stream).left.length < fuel →
      (view stream).recursionBudget = budget →
      Holds progress world.memory.visitors state →
      Realizes (runRecorder knowledge.textless)
        ((turns turn progress (readFields (view stream).left).1).1 *
          endOn (readFields (view stream).left).2) state
        (scanFields context fuel traverser stream) world
        fun result after next =>
          result.1 = traverser ∧ Reaches stream result.2 (view stream).left.length ∧
            Holds (turns turn progress (readFields (view stream).left).1).2
              after.memory.visitors next := by
  intro fuel
  induction fuel with
  | zero =>
      intro progress stream world state _ enough
      exact absurd enough (Nat.not_lt_zero _)
  | succ fuel induction =>
      intro progress stream world state within enough budgetEq holds
      by_cases empty : (view stream).left = []
      · rcases scanFields_of_end context traverser empty fuel world
          with ⟨next, runs, reaches⟩
        rw [empty, readFields_nil]
        simp only [turns, endOn, one_mul]
        exact ⟨_, _, runs, (runRecorder _).nil world, rfl, reaches, holds⟩
      · cases step : readField (view stream).left with
        | error fault =>
            rw [readFields_of_error empty step]
            simp only [turns, endOn, one_mul]
            exact scanFields_of_error context traverser empty step fuel world
        | ok pair =>
            rcases pair with ⟨field, rest⟩
            rcases scanFields_of_field context traverser possible step fuel world with
              ⟨header, next, count, runs, number, heads, reaches, positive, left, carries⟩
            have consumed : (view stream).left.length =
                count + (field.value.payload.length + rest.length) := by
              have length := congrArg List.length (reaches.left_eq.symm.trans left)
              simp only [List.length_drop, List.length_append] at length
              have := reaches.1
              omega
            have shorter : (view next).left.length < fuel := by
              rw [left, List.length_append]
              omega
            rw [readFields_of_ok step]
            simp only [turns, mul_assoc]
            refine Realizes.congr runs (runRecorder_nil rfl rfl) ?_
            refine Realizes.bind (realize fuel progress field header next _ state
              (by omega) shorter (reaches.budget_eq.trans budgetEq) carries number heads
              holds) ?_
            rintro ⟨sameTraverser, after⟩ middle middleState
              ⟨rfl, payloadReaches, middleHolds⟩
            have afterLeft : (view after).left = rest := by
              rw [payloadReaches.left_eq, left, List.drop_left]
            have others := induction (turn progress field).2 after middle middleState
              (by omega) (by rw [afterLeft]; omega)
              ((payloadReaches.budget_eq.trans reaches.budget_eq).trans budgetEq)
              middleHolds
            rw [afterLeft] at others
            refine others.weaken ?_
            rintro ⟨lastTraverser, last⟩ lastWorld lastState ⟨rfl, lastReaches, lastHolds⟩
            refine ⟨rfl, ?_, lastHolds⟩
            rw [consumed]
            exact reaches.trans (payloadReaches.trans lastReaches)

theorem scanMessage_realizes {outer : ProtobufTraverser VisitorPointer}
    {before visitors : List ChainVisitor} {start : Progress} {state : State}
    (possible : ∀ count, knowledge.Possible (context.localBits count))
    (realize : TurnsRealize context knowledge limit budget traverser turn Holds)
    (begins : ∀ world : QueryWorld Stream, world.memory.visitors = before →
      callBeginMessage context outer world =
        .ok traverser (world.withVisitors visitors))
    (holds : Holds start visitors state)
    (fuel : Nat) (stream : Stream) (world : QueryWorld Stream)
    (within : fuel ≤ limit) (enough : (view stream).left.length < fuel)
    (budgetEq : (view stream).recursionBudget = budget)
    (same : world.memory.visitors = before) :
    Realizes (runRecorder knowledge.textless)
      (scanLevel budget turn start (view stream).left).1 state
      (scanMessage context fuel outer stream) world
      fun result after next =>
        result.1 = traverser ∧ Reaches stream result.2 (view stream).left.length ∧
          Holds (scanLevel budget turn start (view stream).left).2 after.memory.visitors next := by
  simp only [scanLevel, scanMessage, scanMessageWith, mul_assoc, ← budgetEq]
  refine (record_realizes knowledge.textless (.enterMessage stream) state world).bind ?_
  rintro _ entered _ ⟨enteredVisitors, rfl⟩
  refine Realizes.silent (begins entered (enteredVisitors.trans same))
    (runRecorder_withVisitors ..) ?_
  rw [← mul_assoc]
  refine Realizes.bind (scanFields_realizes possible realize fuel start stream _ _ within
    enough budgetEq holds) ?_
  rintro ⟨last, final⟩ after next ⟨rfl, reaches, lastHolds⟩
  have left := record_realizes knowledge.textless
    (ScanEvent.leaveMessage : ScanEvent Stream) next after
  rw [← mul_one (Action.log _)]
  refine left.bind ?_
  rintro _ closed _ ⟨closedVisitors, rfl⟩
  exact Realizes.pure ⟨rfl, reaches, closedVisitors ▸ lastHolds⟩

end

theorem treatField_asSubmessage_realizes
    {context : ScanContext VisitorPointer QueryMemory Stream} {knowledge : Knowledge State}
    {limit budget : Nat} (outer : ProtobufTraverser VisitorPointer)
    {inner : ProtobufTraverser VisitorPointer}
    {turn : Nat → Progress → WireField → Activity State × Progress}
    {Holds : Progress → List ChainVisitor → State → Prop}
    {before between visitors : List ChainVisitor} (start : Progress) {state : State}
    (possible : ∀ count, knowledge.Possible (context.localBits count))
    (realize : ∀ lower, budget = lower + 1 →
      TurnsRealize context knowledge limit lower inner (turn lower) Holds)
    (beginsOnce : ∀ world : QueryWorld Stream, world.memory.visitors = before →
      ∃ pointer, context.visitors.beginMessage outer.visitor world =
        .ok pointer (world.withVisitors between))
    (begins : ∀ world : QueryWorld Stream, world.memory.visitors = between →
      callBeginMessage context outer world = .ok inner (world.withVisitors visitors))
    (holds : Holds start visitors state)
    {fuel size : Nat} {payload : Bytes} {header : FieldInfo} {stream : Stream}
    {world : QueryWorld Stream}
    (within : fuel ≤ limit) (enough : (view stream).left.length < fuel)
    (budgetEq : (view stream).recursionBudget = budget)
    (carries : Carries stream (.lengthDelimited size payload))
    (heads : Heads knowledge (.lengthDelimited size payload) header)
    (same : world.memory.visitors = before) :
    Realizes (runRecorder knowledge.textless) (scanSubmessage turn budget start payload).1 state
      (treatField context fuel (scanMessage context fuel) .asSubmessage header outer stream)
      world
      fun result after next =>
        result.1 = inner ∧ Reaches stream result.2 payload.length ∧
          Holds (scanSubmessage turn budget start payload).2 after.memory.visitors next := by
  rcases heads with ⟨_, bits, _, value⟩
  have sizeEq : header.value.asSize = (size : Int) := by
    rw [value]
    exact FieldInfo.Value.asSize_setSize ⟨bits⟩ carries.1
  rcases incrementRecursionDepth_left carries with ⟨innerLeft, innerBudget⟩
  have depth := LawfulCodedInputStream.budget_incrementRecursionDepth stream size
  simp only [treatField, sizeEq]
  cases budget with
  | zero =>
      have negative : (CodedInputStream.incrementRecursionDepthAndPushLimit size
          stream).1.2 < 0 := by
        rw [depth, budgetEq]
        decide
      simp only [if_pos negative]
      exact ⟨world, rfl, (runRecorder _).nil world⟩
  | succ lower =>
      have nonnegative : ¬ (CodedInputStream.incrementRecursionDepthAndPushLimit size
          stream).1.2 < 0 := by
        rw [depth, budgetEq]
        omega
      simp only [if_neg nonnegative]
      rcases beginsOnce world same with ⟨pointer, runs⟩
      refine Realizes.silent runs (runRecorder_withVisitors ..) ?_
      have shorter := carries.payload_length_le
      have scanned := scanMessage_realizes possible (realize lower rfl) begins holds fuel
        (CodedInputStream.incrementRecursionDepthAndPushLimit size stream).2
        (world.withVisitors between) within
        (by rw [innerLeft]; simp only [WireValue.payload] at shorter; omega)
        (by rw [innerBudget, budgetEq]; omega) rfl
      rw [innerLeft] at scanned
      refine Realizes.andSilent scanned ?_
      rintro ⟨last, final⟩ after next ⟨rfl, reaches, lastHolds⟩
      exact ⟨_, _, rfl, (runRecorder _).nil _, rfl,
        decrementRecursionDepth_reaches carries reaches, lastHolds⟩

/-! ## Packed fields -/

def Covers (knowledge : Knowledge State) (wireType : Nat) (value : FieldInfo.Value) : Prop :=
  ∃ bits, knowledge.Possible bits ∧ ∀ written : WireValue, written.wireType = wireType →
    written.union value.bits = written.union bits

section

variable {context : ScanContext VisitorPointer QueryMemory Stream}
variable {knowledge : Knowledge State} {traverser : ProtobufTraverser VisitorPointer}
variable {number : Int} {turn : Progress → WireValue → Activity State × Progress}
variable {Holds : Progress → List ChainVisitor → State → Prop}

/-- The loop of `ReadPacked`, by induction on its turns. -/
theorem readPackedElements_realizes {wireType : Nat} (notLengthDelimited : wireType ≠ 2)
    (realize : ElementsRealize context knowledge number traverser turn Holds) :
    ∀ (fuel : Nat) (progress : Progress) (header : FieldInfo) (stream : Stream)
      (world : QueryWorld Stream) (state : State),
      (view stream).left.length < fuel → header.number = number →
      header.wireType = wireType → Covers knowledge wireType header.value →
      Holds progress world.memory.visitors state →
      Realizes (runRecorder knowledge.textless)
        ((turns turn progress (readElements wireType (view stream).left).1).1 *
          endOn (readElements wireType (view stream).left).2) state
        (readPackedElements context fuel header traverser stream) world
        fun result after next =>
          result.1 = traverser ∧ Reaches stream result.2 (view stream).left.length ∧
            Holds (turns turn progress (readElements wireType (view stream).left).1).2
              after.memory.visitors next := by
  intro fuel
  induction fuel with
  | zero =>
      intro progress header stream world state enough
      exact absurd enough (Nat.not_lt_zero _)
  | succ fuel induction =>
      intro progress header stream world state enough numberEq wireTypeEq covers holds
      have bytesLeft := LawfulCodedInputStream.bytesUntilLimit_eq stream
      by_cases empty : (view stream).left = []
      · have stops : ¬ CodedInputStream.bytesUntilLimit stream > 0 := by
          rw [bytesLeft, empty]
          decide
        simp only [readPackedElements, if_neg stops, empty, readElements, Reader.readAll_nil,
          turns, endOn, one_mul]
        exact Realizes.pure ⟨rfl, Reaches.refl stream, holds⟩
      · have positive := List.length_pos_iff.mpr empty
        have continues : CodedInputStream.bytesUntilLimit stream > 0 := by
          rw [bytesLeft]
          omega
        simp only [readPackedElements, if_pos continues]
        cases step : readValue wireType (view stream).left with
        | error fault =>
            have reads := Reader.readAll_of_error empty step
            simp only [readElements, reads, turns, endOn, one_mul]
            exact ⟨world, Program.bind_error
              (readFieldValueOrSize_of_error header (wireTypeEq ▸ step) world),
              (runRecorder _).nil world⟩
        | ok pair =>
            rcases pair with ⟨value, rest⟩
            have reads := Reader.readAll_of_ok (readValue_shrinks wireType) step
            have valueType := (readValue_eq_ok step).1
            have noPayload := WireValue.payload_eq_nil (valueType ▸ notLengthDelimited)
            rcases readFieldValueOrSize_of_ok header (wireTypeEq ▸ step) world with
              ⟨next, count, runs, reaches, advanced, left, _⟩
            rw [noPayload, List.nil_append] at left
            have consumed : (view stream).left.length = count + rest.length := by
              have length := congrArg List.length (reaches.left_eq.symm.trans left)
              simp only [List.length_drop] at length
              have := reaches.1
              omega
            rcases covers with ⟨bits, possible, same⟩
            simp only [readElements, reads, turns, mul_assoc]
            refine Realizes.silent runs ((runRecorder _).nil world) ?_
            have first := realize progress value
              { header with value := value.union header.value.bits } world state
              (by omega) numberEq
              ⟨wireTypeEq.trans valueType.symm, bits, possible, same value valueType⟩ holds
            have others := fun middle middleState middleHolds => induction
              (turn progress value).2 { header with value := value.union header.value.bits }
              next middle middleState (by rw [left]; omega) numberEq wireTypeEq
              ⟨bits, possible, fun written writtenType =>
                (union_union (writtenType.trans valueType.symm) _).trans
                  (same written writtenType)⟩ middleHolds
            rw [left] at others
            refine Realizes.congr (congrFun (elementTurn_bind context
              { header with value := value.union header.value.bits } traverser _).symm world)
              ((runRecorder _).nil world) (first.bind ?_)
            rintro sameTraverser middle middleState ⟨rfl, middleHolds⟩
            refine (others middle middleState middleHolds).weaken ?_
            rintro ⟨lastTraverser, last⟩ lastWorld lastState ⟨rfl, lastReaches, lastHolds⟩
            refine ⟨rfl, ?_, lastHolds⟩
            rw [consumed]
            exact reaches.trans lastReaches

theorem readPacked_realizes {wireType : Nat} (notLengthDelimited : wireType ≠ 2)
    (possible : ∀ count, knowledge.Possible (context.localBits count))
    (realize : ElementsRealize context knowledge number traverser turn Holds)
    {fuel size : Nat} {payload : Bytes} {progress : Progress} {stream : Stream}
    {world : QueryWorld Stream} {state : State}
    (enough : (view stream).left.length < fuel)
    (carries : Carries stream (.lengthDelimited size payload))
    (holds : Holds progress world.memory.visitors state) :
    Realizes (runRecorder knowledge.textless)
      ((turns turn progress (readElements wireType payload).1).1 *
        endOn (readElements wireType payload).2) state
      (readPacked context fuel number size wireType traverser stream) world
      fun result after next =>
        result.1 = traverser ∧ Reaches stream result.2 payload.length ∧
          Holds (turns turn progress (readElements wireType payload).1).2
            after.memory.visitors next := by
  have shorter := carries.payload_length_le
  rcases pushLimit_left carries with ⟨pushedLeft, _⟩
  refine Realizes.silent (declareFieldInfo_eq ..) (runRecorder_nil rfl rfl) ?_
  have loop := readPackedElements_realizes notLengthDelimited realize fuel progress
    ⟨number, wireType, ⟨context.localBits world.locals⟩⟩
    (CodedInputStream.pushLimit size stream).2
    { world with locals := world.locals + 1 } state
    (by rw [pushedLeft]; exact Nat.lt_of_le_of_lt shorter enough) rfl rfl
    ⟨_, possible _, fun _ _ => rfl⟩ holds
  rw [pushedLeft] at loop
  refine Realizes.andSilent loop ?_
  rintro ⟨sameTraverser, last⟩ after next ⟨rfl, reaches, lastHolds⟩
  exact ⟨_, _, rfl, (runRecorder _).nil _, rfl, popLimit_reaches carries reaches, lastHolds⟩

end

omit [LawfulCodedInputStream Stream] in
theorem fieldTurn_of_wireType_ne (context : ScanContext VisitorPointer QueryMemory Stream)
    {header : FieldInfo} (primitive : header.wireType ≠ 2) (fuel : Nat)
    (traverser : ProtobufTraverser VisitorPointer) (stream : Stream) :
    fieldTurn context fuel header traverser stream = (do
      let traverser ← elementTurn context header traverser
      return (traverser, stream)) := by
  simp only [fieldTurn, elementTurn, scanField, scanFieldWith, ne_eq, primitive,
    not_false_eq_true, if_true, bind_assoc, pure_bind]

end ProtobufTraverser

end PostgresProtobuf
