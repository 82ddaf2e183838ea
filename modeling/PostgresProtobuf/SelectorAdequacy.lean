import PostgresProtobuf.EndAdequacy

/-! # Descending and selecting

A field selector keeps count of the wanted fields that have ended, and hands the
wanted ones to the next visitor. -/

namespace PostgresProtobuf

open Foundation ChainVisitor

variable {Stream : Type} [CodedInputStream Stream] [LawfulCodedInputStream Stream]
variable {State : Type}

open LawfulCodedInputStream (view)
open ProtobufTraverser

theorem packedCompositeFieldTreatmentForType_cases (type : FieldType) :
    packedCompositeFieldTreatmentForType type = .asPackedVarint ∨
      packedCompositeFieldTreatmentForType type = .asPacked64 ∨
      packedCompositeFieldTreatmentForType type = .asPacked32 ∨
      packedCompositeFieldTreatmentForType type = .skip := by
  cases type <;> simp [packedCompositeFieldTreatmentForType, FieldType.wireType]

/-! ## The selector of a part -/

/-- The selector of the part, after `index` wanted fields have ended. -/
structure ChainPart.Tracks (part : ChainPart) (index : Int) (selector : FieldSelector) :
    Prop where
  wantedField : selector.wantedField = part.wantedField
  type : selector.type = part.type
  isPacked : selector.isPacked = part.isPacked
  wantedIndex : selector.wantedIndex = part.wantedIndex
  currentIndex : selector.currentIndex = index
  unpacked : part.isPacked = false → selector.state ≠ .emittingPacked

structure ChainPart.Reads (part : ChainPart) (index number : Int)
    (selector : FieldSelector) : Prop extends part.Tracks index selector where
  currentField : selector.currentField = number

namespace ChainPart

variable {part : ChainPart} {index number : Int} {selector : FieldSelector}

theorem tracks_selector (part : ChainPart) : part.Tracks 0 part.selector where
  wantedField := rfl
  type := rfl
  isPacked := rfl
  wantedIndex := rfl
  currentIndex := rfl
  unpacked _ := by simp [selector]

theorem Tracks.popped_eq (tracks : part.Tracks index selector) :
    selector.popped = part.selector := by
  rcases selector with ⟨_, _, _, _, _, _, _⟩
  simp only [FieldSelector.popped, ChainPart.selector, ← tracks.wantedField, ← tracks.type,
    ← tracks.isPacked, ← tracks.wantedIndex]

theorem Reads.shouldEmit_iff (reads : part.Reads index number selector) :
    selector.shouldEmitCurrentIndex = true ↔ part.Emits number index := by
  simp only [FieldSelector.shouldEmitCurrentIndex, reads.currentField, reads.wantedField,
    reads.wantedIndex, reads.currentIndex, Emits, Bool.and_eq_true, Bool.or_eq_true,
    beq_iff_eq]
  cases part.wantedIndex with
  | none => simp
  | some wanted => simp [eq_comm]

theorem Reads.endField (reads : part.Reads index number selector) :
    part.Reads (part.indexAfter number index) number selector.endField := by
  by_cases wanted : number = part.wantedField
  · have same : selector.currentField = selector.wantedField := by
      rw [reads.currentField, reads.wantedField, wanted]
    rw [FieldSelector.endField, if_pos same, indexAfter, if_pos wanted]
    exact {
      wantedField := reads.wantedField
      type := reads.type
      isPacked := reads.isPacked
      wantedIndex := reads.wantedIndex
      currentIndex := congrArg (· + 1) reads.currentIndex
      unpacked := reads.unpacked
      currentField := reads.currentField }
  · have different : ¬ selector.currentField = selector.wantedField := by
      rw [reads.currentField, reads.wantedField]
      exact wanted
    rw [FieldSelector.endField, if_neg different, indexAfter, if_neg wanted]
    exact reads

theorem Tracks.sees (tracks : part.Tracks index selector) (number : Int) :
    part.Reads index number { selector with currentField := number } where
  wantedField := tracks.wantedField
  type := tracks.type
  isPacked := tracks.isPacked
  wantedIndex := tracks.wantedIndex
  currentIndex := tracks.currentIndex
  unpacked := tracks.unpacked
  currentField := rfl

theorem Tracks.beginField_primitive (tracks : part.Tracks index selector) {wireType : Nat}
    (notLengthDelimited : wireType ≠ 2) (number : Int) :
    ∃ after, part.Reads index number after ∧
      selector.beginField number wireType =
        (after, decide (part.Emits number index)) := by
  have reads := tracks.sees number
  refine ⟨_, reads, ?_⟩
  simp only [FieldSelector.beginField, if_neg notLengthDelimited, Prod.mk.injEq, true_and]
  rw [Bool.eq_iff_iff, reads.shouldEmit_iff, decide_eq_true_iff]

theorem Tracks.beginField_packed (tracks : part.Tracks index selector)
    (packed : part.isPacked = true) (number : Int) :
    ∃ after, part.Reads index number after ∧ after.state = .emittingPacked ∧
      selector.beginField number 2 = (after, false) := by
  have isPacked := tracks.isPacked.trans packed
  refine ⟨{ selector with currentField := number, state := .emittingPacked }, ?_, rfl, ?_⟩
  · exact { tracks.sees number with
      unpacked := fun unpacked => absurd (packed.symm.trans unpacked) (by decide) }
  · rw [FieldSelector.beginField, if_pos rfl, if_pos isPacked]

section

variable (tracks : part.Tracks index selector) (unpacked : part.isPacked = false)

include tracks unpacked

theorem Tracks.beginField_message {number : Int} (emits : part.Emits number index)
    (message : part.type = .message) :
    ∃ after, part.Reads index number after ∧ selector.beginField number 2 = (after, true) := by
  have reads := tracks.sees number
  have isUnpacked : ¬ selector.isPacked = true := by simp [tracks.isPacked, unpacked]
  refine ⟨_, reads, ?_⟩
  rw [FieldSelector.beginField, if_pos rfl, if_neg isUnpacked,
    if_pos (reads.shouldEmit_iff.mpr emits), if_pos (tracks.type.trans message)]

theorem Tracks.beginField_composite {number : Int} (emits : part.Emits number index)
    (notMessage : part.type ≠ .message) :
    ∃ after, part.Reads index number after ∧ after.state = .emittingOtherComposite ∧
      selector.beginField number 2 = (after, false) := by
  have reads := tracks.sees number
  have isUnpacked : ¬ selector.isPacked = true := by simp [tracks.isPacked, unpacked]
  refine ⟨{ selector with currentField := number, state := .emittingOtherComposite },
    { reads with unpacked := fun _ => by simp }, rfl, ?_⟩
  rw [FieldSelector.beginField, if_pos rfl, if_neg isUnpacked,
    if_pos (reads.shouldEmit_iff.mpr emits), if_neg (tracks.type ▸ notMessage)]

theorem Tracks.beginField_unwanted {number : Int} (unwanted : ¬ part.Emits number index) :
    ∃ after, part.Reads index number after ∧ selector.beginField number 2 = (after, false) := by
  have reads := tracks.sees number
  have isUnpacked : ¬ selector.isPacked = true := by simp [tracks.isPacked, unpacked]
  refine ⟨_, reads, ?_⟩
  rw [FieldSelector.beginField, if_pos rfl, if_neg isUnpacked,
    if_neg fun emits => unwanted (reads.shouldEmit_iff.mp emits)]

end

theorem Reads.readLengthDelimitedField_packed (reads : part.Reads index number selector)
    (packed : selector.state = .emittingPacked) :
    selector.readLengthDelimitedField =
      (packedCompositeFieldTreatmentForType part.type, false) := by
  rw [FieldSelector.readLengthDelimitedField, if_pos packed, reads.type]

theorem Reads.readLengthDelimitedField_composite (reads : part.Reads index number selector)
    (composite : selector.state = .emittingOtherComposite)
    (emits : part.Emits number index) :
    selector.readLengthDelimitedField =
      (compositeFieldTreatmentForType part.type, true) := by
  rw [FieldSelector.readLengthDelimitedField, if_neg (by simp [composite]),
    if_pos (reads.shouldEmit_iff.mpr emits), reads.type, decide_eq_true composite]

theorem Reads.readLengthDelimitedField_unwanted (reads : part.Reads index number selector)
    (unpacked : part.isPacked = false) (unwanted : ¬ part.Emits number index) :
    selector.readLengthDelimitedField = (.skip, false) := by
  rw [FieldSelector.readLengthDelimitedField, if_neg (reads.unpacked unpacked),
    if_neg fun emits => unwanted (reads.shouldEmit_iff.mp emits)]

end ChainPart

/-! ## Fields under a selector -/

def Selecting (part : ChainPart) (resting : Resting State) (front : List ChainVisitor)
    (index : Int) (visitors : List ChainVisitor) (state : State) : Prop :=
  ∃ selector suffix, visitors = front ++ fieldSelector selector :: suffix ∧
    part.Tracks index selector ∧ resting state suffix

def SelectingIn (part : ChainPart) (resting : Resting State) (front : List ChainVisitor)
    (number index : Int) (visitors : List ChainVisitor) (state : State) : Prop :=
  ∃ selector suffix, visitors = front ++ fieldSelector selector :: suffix ∧
    part.Reads index number selector ∧ resting state suffix

theorem SelectingIn.selecting {part : ChainPart} {resting : Resting State}
    {front visitors : List ChainVisitor} {number index : Int} {state : State}
    (selecting : SelectingIn part resting front number index visitors state) :
    Selecting part resting front index visitors state := by
  rcases selecting with ⟨selector, suffix, holds, reads, rests⟩
  exact ⟨selector, suffix, holds, reads.toTracks, rests⟩

section

variable {setting : Setting State}
variable {context : ScanContext VisitorPointer QueryMemory Stream}
variable {forward : VisitorPointer → FieldInfo → StdString →
  Program (QueryWorld Stream) Unit}
variable {limit : Nat} {next : Delivery State} {resting : Resting State}
variable {part : ChainPart} {front : List ChainVisitor}
variable {traverser : ProtobufTraverser VisitorPointer}

variable (equipped : Equipped setting context forward)
variable (grounded : traverser.Grounded) (top : traverser.visitor = some front.length)

include equipped top

omit [LawfulCodedInputStream Stream] [CodedInputStream Stream] in
theorem closes_selector (selector : FieldSelector) :
    Closes context traverser (front ++ [fieldSelector selector])
      (front ++ [fieldSelector selector.endField]) := by
  intro world suffix holds
  rw [equipped.visitors, top, endField_selector _ _ _ (by simpa using holds)]
  simp

include grounded

theorem selector_ends {index number : Int} {selector : FieldSelector}
    (reads : part.Reads index number selector) {suffix : List ChainVisitor} {state : State}
    {world : QueryWorld Stream}
    (holds : world.memory.visitors = front ++ fieldSelector selector :: suffix)
    (rests : resting state suffix) :
    ∃ after, decrementDepthAndEndFieldAndPopVisitors context (traverser.inside []) world =
        .ok traverser after ∧ (runRecorder setting.knowledge.textless).Records world [] after ∧
      SelectingIn part resting front number (part.indexAfter number index)
        after.memory.visitors state := by
  refine ⟨_, ?_, runRecorder_withVisitors world _, _, suffix, rfl, reads.endField, rests⟩
  rw [decrementDepthAndEndFieldAndPopVisitors_inside context grounded]
  simp only [leaveVisitors, pure_bind]
  rw [equipped.visitors, top]
  exact Program.bind_ok (endField_selector _ _ _ holds)

theorem selectElement_realizes
    (serves : Serves context setting.knowledge limit next resting) (budget : Nat)
    {number index : Int} {value : WireValue} {header : FieldInfo}
    {world : QueryWorld Stream} {state : State} (notLengthDelimited : value.wireType ≠ 2)
    (numberEq : header.number = number) (heads : Heads setting.knowledge value header)
    (selecting : Selecting part resting front index world.memory.visitors state) :
    Realizes (runRecorder setting.knowledge.textless)
      (Setting.selectElement part next budget number index value).1 state
      (elementTurn context header traverser) world
      fun result after last =>
        result = traverser ∧ SelectingIn part resting front number
          (part.indexAfter number index) after.memory.visitors last := by
  rcases selecting with ⟨selector, suffix, holds, tracks, rests⟩
  have primitive : header.wireType ≠ 2 := heads.1 ▸ notLengthDelimited
  rcases tracks.beginField_primitive primitive number with ⟨reading, reads, begins⟩
  have enough : 0 < context.handovers := Nat.lt_of_succ_lt equipped.handovers
  simp only [Setting.selectElement]
  subst numberEq
  by_cases emits : part.Emits header.number index
  · simp only [emits, decide_true] at begins
    rcases List.exists_cons_of_ne_nil (serves.nonempty _ _ rests) with ⟨object, rest, rfl⟩
    have handsOver := beginField_selector_handsOver setting.utils
      setting.binaryToJsonString forward holds begins
    rw [← equipped.visitors, ← top] at handsOver
    rw [if_pos emits]
    refine (serves.elementTurn_realizes equipped grounded
      (closes_selector equipped top reading) (by rw [top]; simp) budget notLengthDelimited
      heads handsOver (runRecorder_withVisitors ..) ⟨_, by simp, rests⟩).weaken ?_
    rintro result after last ⟨rfl, suffix, after, restsAfter⟩
    exact ⟨rfl, _, suffix, by simpa using after, reads.endField, restsAfter⟩
  · simp only [emits, decide_false] at begins
    have stays := beginField_selector_stays setting.utils
      setting.binaryToJsonString forward holds begins
    rw [← equipped.visitors, ← top] at stays
    have calls := callBeginField_stays context (traverser.inside []) enough stays
    rw [if_neg emits]
    simp only [elementTurn, incrementDepthAndCallBeginField_eq]
    refine Realizes.silent calls (runRecorder_withVisitors ..) ?_
    have passes := readPrimitive_selector setting.utils setting.binaryToJsonString forward
      (World.visitors_withVisitors world (front ++ fieldSelector reading :: suffix)) header
    rw [← equipped.visitors, ← top] at passes
    refine Realizes.silent passes ((runRecorder _).nil _) ?_
    rcases selector_ends equipped grounded top reads (World.visitors_withVisitors world _)
      rests with ⟨after, runs, records, selecting⟩
    exact Realizes.of_silent runs records ⟨rfl, selecting⟩

theorem keepField_realizes {selector reading : FieldSelector}
    {suffix : List ChainVisitor} {size fuel : Nat} {payload : Bytes} {header : FieldInfo}
    {stream : Stream} {world : QueryWorld Stream} {state : State}
    {treatment : LengthDelimitedFieldTreatment}
    {number : Int} (action : Activity State × Int)
    (holds : world.memory.visitors = front ++ fieldSelector selector :: suffix)
    (heads : Heads setting.knowledge (.lengthDelimited size payload) header)
    (numberEq : header.number = number)
    (begins : selector.beginField number 2 = (reading, false))
    (treats : reading.readLengthDelimitedField = (treatment, false))
    (realizes : Realizes (runRecorder setting.knowledge.textless) action.1 state
      (treatField context fuel (scanMessage context fuel) treatment header
        (traverser.inside []) stream)
      (world.withVisitors (front ++ fieldSelector reading :: suffix))
      fun result after next =>
        result.1 = traverser.inside [] ∧ Reaches stream result.2 payload.length ∧
          SelectingIn part resting front number action.2 after.memory.visitors next) :
    Realizes (runRecorder setting.knowledge.textless) action.1 state
      (fieldTurn context fuel header traverser stream) world
      fun result after next =>
        result.1 = traverser ∧ Reaches stream result.2 payload.length ∧
          Selecting part resting front (part.indexAfter number action.2)
            after.memory.visitors next := by
  have enough : 0 < context.handovers := Nat.lt_of_succ_lt equipped.handovers
  have wireType : header.wireType = 2 := heads.1
  subst numberEq
  have stays := beginField_selector_stays setting.utils setting.binaryToJsonString forward
    holds begins
  rw [← equipped.visitors, ← top, ← wireType] at stays
  have calls := callBeginField_stays context (traverser.inside []) enough stays
  have chooses := readLengthDelimitedField_selector_stays setting.utils
    setting.binaryToJsonString forward (World.visitors_withVisitors world
      (front ++ fieldSelector reading :: suffix)) header treats
  rw [← equipped.visitors, ← top] at chooses
  simp only [fieldTurn, incrementDepthAndCallBeginField_eq]
  refine Realizes.silent calls (runRecorder_withVisitors ..) ?_
  have keeps := scanField_stays context (traverser.inside []) fuel stream wireType chooses
  refine Realizes.congr (Program.bind_congr keeps) ((runRecorder _).nil _) (realizes.andSilent ?_)
  rintro ⟨treated, streamAfter⟩ after next ⟨rfl, reaches, last, lastSuffix, lastHolds, reads,
    rests⟩
  rcases selector_ends equipped grounded top reads lastHolds rests with
    ⟨final, runs, records, selecting⟩
  exact ⟨_, _, Program.bind_ok runs, records, rfl, reaches, selecting.selecting⟩

theorem selectPacked_realizes
    (serves : Serves context setting.knowledge limit next resting) (budget : Nat)
    {number index : Int} {size fuel : Nat} {payload : Bytes} {header : FieldInfo}
    {stream : Stream} {world : QueryWorld Stream} {state : State}
    (enough : (view stream).left.length < fuel)
    (carries : Carries stream (.lengthDelimited size payload))
    (heads : Heads setting.knowledge (.lengthDelimited size payload) header)
    (numberEq : header.number = number)
    (selecting : SelectingIn part resting front number index world.memory.visitors state) :
    Realizes (runRecorder setting.knowledge.textless)
      (Setting.selectPacked part next budget number index payload).1 state
      (treatField context fuel (scanMessage context fuel)
        (packedCompositeFieldTreatmentForType part.type) header traverser stream) world
      fun result after last =>
        result.1 = traverser ∧ Reaches stream result.2 payload.length ∧
          SelectingIn part resting front number
            (Setting.selectPacked part next budget number index payload).2
            after.memory.visitors last := by
  have elements : ElementsRealize context setting.knowledge number traverser
      (Setting.selectElement part next budget number)
      (SelectingIn part resting front number) := by
    intro index value header world state notLengthDelimited numberEq heads selecting
    exact selectElement_realizes equipped grounded top serves budget notLengthDelimited
      numberEq heads selecting.selecting
  have sizeEq := heads.asSize_eq carries
  unfold Setting.selectPacked Setting.packedWireType
  rcases packedCompositeFieldTreatmentForType_cases part.type with
    treatment | treatment | treatment | treatment
  · simp only [treatment, treatField, sizeEq, numberEq]
    exact readPacked_realizes (by decide) equipped.possible elements enough carries selecting
  · simp only [treatment, treatField, sizeEq, numberEq]
    exact readPacked_realizes (by decide) equipped.possible elements enough carries selecting
  · simp only [treatment, treatField, sizeEq, numberEq]
    exact readPacked_realizes (by decide) equipped.possible elements enough carries selecting
  · simp only [treatment]
    exact Realizes.pure ⟨rfl, sizeEq ▸ skip_reaches carries, selecting⟩

theorem selectMessage_realizes
    (serves : Serves context setting.knowledge limit next resting) (budget : Nat)
    {index : Int} {selector reading : FieldSelector} {suffix : List ChainVisitor}
    {size fuel : Nat} {payload : Bytes} {header : FieldInfo} {stream : Stream}
    {world : QueryWorld Stream} {state : State} {number : Int}
    (within : fuel ≤ limit) (enoughFuel : (view stream).left.length < fuel)
    (budgetEq : (view stream).recursionBudget = budget)
    (carries : Carries stream (.lengthDelimited size payload))
    (heads : Heads setting.knowledge (.lengthDelimited size payload) header)
    (numberEq : header.number = number)
    (holds : world.memory.visitors = front ++ fieldSelector selector :: suffix)
    (rests : resting state suffix)
    (reads : part.Reads index number reading)
    (begins : selector.beginField number 2 = (reading, true)) :
    Realizes (runRecorder setting.knowledge.textless)
      (next.field budget (.lengthDelimited size payload)) state
      (fieldTurn context fuel header traverser stream) world
      fun result after last =>
        result.1 = traverser ∧ Reaches stream result.2 payload.length ∧
          Selecting part resting front (part.indexAfter number index)
            after.memory.visitors last := by
  have wireType : header.wireType = 2 := heads.1
  subst numberEq
  rcases List.exists_cons_of_ne_nil (serves.nonempty _ _ rests) with ⟨object, rest, rfl⟩
  have handsOver := beginField_selector_handsOver setting.utils
    setting.binaryToJsonString forward holds begins
  rw [← equipped.visitors, ← top, ← wireType] at handsOver
  refine (serves.fieldTurn_realizes equipped grounded (closes_selector equipped top reading)
    (by rw [top]; simp) within enoughFuel budgetEq carries heads handsOver
    (runRecorder_withVisitors ..) ⟨_, by simp, rests⟩).weaken ?_
  rintro result after last ⟨same, reaches, suffix, after, restsAfter⟩
  exact ⟨same, reaches, _, suffix, by simpa using after, reads.endField.toTracks, restsAfter⟩

theorem selectComposite_realizes
    (receives : Receives context setting.knowledge limit next resting)
    {index : Int} {selector reading : FieldSelector} {suffix : List ChainVisitor}
    {size fuel : Nat} {payload : Bytes} {header : FieldInfo} {stream : Stream}
    {world : QueryWorld Stream} {state : State} {number : Int}
    (notMessage : part.type ≠ .message)
    (carries : Carries stream (.lengthDelimited size payload))
    (heads : Heads setting.knowledge (.lengthDelimited size payload) header)
    (numberEq : header.number = number)
    (holds : world.memory.visitors = front ++ fieldSelector selector :: suffix)
    (rests : resting state suffix)
    (reads : part.Reads index number reading)
    (begins : selector.beginField number 2 = (reading, false))
    (treats : reading.readLengthDelimitedField =
      (compositeFieldTreatmentForType part.type, true)) :
    Realizes (runRecorder setting.knowledge.textless) (next.handed part.type size payload) state
      (fieldTurn context fuel header traverser stream) world
      fun result after last =>
        result.1 = traverser ∧ Reaches stream result.2 payload.length ∧
          Selecting part resting front (part.indexAfter number index)
            after.memory.visitors last := by
  have enough : 0 < context.handovers := Nat.lt_of_succ_lt equipped.handovers
  have wireType : header.wireType = 2 := heads.1
  subst numberEq
  rcases receives.head _ _ rests with ⟨object, rest, rfl, _⟩
  have stays := beginField_selector_stays setting.utils setting.binaryToJsonString forward
    holds begins
  rw [← equipped.visitors, ← top, ← wireType] at stays
  have calls := callBeginField_stays context (traverser.inside []) enough stays
  have shape := World.visitors_withVisitors world
    (front ++ fieldSelector reading :: object :: rest)
  have handsOver := readLengthDelimitedField_selector_handsOver setting.utils
    setting.binaryToJsonString forward shape header treats
  rw [← equipped.visitors, ← top] at handsOver
  have different : some (front ++ [fieldSelector reading]).length ≠ traverser.visitor := by
    rw [top]
    simp
  have restsNext : RestsBehind resting (front ++ [fieldSelector reading]) state
      (world.withVisitors (front ++ fieldSelector reading :: object :: rest)) :=
    ⟨_, by simp, rests⟩
  simp only [fieldTurn, incrementDepthAndCallBeginField_eq]
  refine Realizes.silent calls (runRecorder_withVisitors ..) ?_
  have hands := scanField_handsOver context (traverser.inside []) fuel stream wireType
    different handsOver
  refine Realizes.congr (Program.bind_congr hands) ((runRecorder _).nil _) ?_
  simp only [bind_assoc]
  refine Realizes.silent (equipped.pushVisitor_inside ..) ((runRecorder _).nil _) ?_
  refine Realizes.silent (receives.callBeginField_eq equipped rfl enough header.number
    header.wireType restsNext) ((runRecorder _).nil _) ?_
  have handed := receives.handed (front ++ [fieldSelector reading]) part.type size payload
    header fuel (scanMessage context fuel)
    ((traverser.inside [some (front ++ [fieldSelector reading]).length]).inside []) stream
    (world.withVisitors (front ++ fieldSelector reading :: object :: rest)) state notMessage
    carries heads rfl restsNext
  refine handed.andSilent ?_
  rintro ⟨_, streamAfter⟩ after last ⟨rfl, reaches, restsAfter⟩
  -- The inner end of the field leaves the visitor on the stack, the outer one takes it off.
  have innerEnds : decrementDepthAndEndFieldAndPopVisitors context
      ((traverser.inside [some (front ++ [fieldSelector reading]).length]).inside []) after =
      .ok (traverser.inside [some (front ++ [fieldSelector reading]).length]) after := by
    rw [decrementDepthAndEndFieldAndPopVisitors_inside context
      (grounded_inside grounded _)]
    rcases restsAfter with ⟨_, afterHolds, restsAfter⟩
    rcases receives.head _ _ restsAfter with ⟨_, _, rfl, stateless⟩
    simp only [leaveVisitors, pure_bind, equipped.visitors]
    exact Program.bind_ok (endField_stateless _ _ _ stateless afterHolds)
  rcases (closes_selector equipped top reading).endField grounded
    (receives.leaveVisitors_eq equipped restsAfter) restsAfter with
    ⟨finalVisitors, runs, suffix, final, restsFinal⟩
  refine ⟨_, _, (Program.bind_ok innerEnds).trans (Program.bind_ok runs),
    runRecorder_withVisitors .., rfl, reaches, _, suffix, by simpa using final,
    reads.endField.toTracks, restsFinal⟩

theorem selectField_realizes
    (serves : Serves context setting.knowledge limit next resting)
    (receives : part.type ≠ .message →
      Receives context setting.knowledge limit next resting) (budget : Nat) :
    TurnsRealize context setting.knowledge limit budget traverser
      (Setting.selectField part next budget) (Selecting part resting front) := by
  intro fuel index field header stream world state within enoughFuel budgetEq carries
    numberEq heads selecting
  rcases field with ⟨number, value⟩
  have primitive : ∀ value : WireValue, value.wireType ≠ 2 →
      Heads setting.knowledge value header →
      Realizes (runRecorder setting.knowledge.textless)
        (Setting.selectElement part next budget number index value).1 state
        (fieldTurn context fuel header traverser stream) world
        fun result after last =>
          result.1 = traverser ∧ Reaches stream result.2 0 ∧
            Selecting part resting front (part.indexAfter number index)
              after.memory.visitors last := by
    intro value notLengthDelimited heads
    rw [fieldTurn_of_wireType_ne context (heads.1 ▸ notLengthDelimited)]
    refine (selectElement_realizes equipped grounded top serves budget notLengthDelimited
      numberEq heads selecting).andSilent ?_
    rintro _ after last ⟨rfl, selecting⟩
    exact ⟨_, _, rfl, (runRecorder _).nil _, rfl, Reaches.refl stream, selecting.selecting⟩
  cases value with
  | varint _ => exact primitive _ (by simp [WireValue.wireType]) heads
  | fixed64 _ => exact primitive _ (by simp [WireValue.wireType]) heads
  | fixed32 _ => exact primitive _ (by simp [WireValue.wireType]) heads
  | lengthDelimited size payload =>
      rcases selecting with ⟨selector, suffix, holds, tracks, rests⟩
      cases packed : part.isPacked with
      | true =>
          rcases tracks.beginField_packed packed (number : Int) with
            ⟨reading, reads, state, begins⟩
          have treats := reads.readLengthDelimitedField_packed state
          have innerTop : (traverser.inside []).visitor = some front.length := top
          have realizes := selectPacked_realizes equipped (grounded_inside grounded [])
            innerTop serves budget enoughFuel carries heads numberEq
            ⟨reading, suffix, World.visitors_withVisitors world _, reads, rests⟩
          have turn := keepField_realizes equipped grounded top _ holds heads numberEq begins
            treats realizes
          simp only [Setting.selectField, packed, if_true]
          exact turn
      | false =>
          simp only [Setting.selectField, packed, Bool.false_eq_true, if_false]
          by_cases emits : part.Emits number index
          · rw [if_pos emits]
            by_cases message : part.type = .message
            · rcases tracks.beginField_message packed emits message with
                ⟨reading, reads, begins⟩
              rw [if_pos message]
              exact selectMessage_realizes equipped grounded top serves budget within
                enoughFuel budgetEq carries heads numberEq holds rests reads begins
            · rcases tracks.beginField_composite packed emits message with
                ⟨reading, reads, state, begins⟩
              rw [if_neg message]
              exact selectComposite_realizes equipped grounded top (receives message) message
                carries heads numberEq holds rests reads begins
                (reads.readLengthDelimitedField_composite state emits)
          · rcases tracks.beginField_unwanted packed emits with ⟨reading, reads, begins⟩
            rw [if_neg emits]
            have treats := reads.readLengthDelimitedField_unwanted packed emits
            have reaches : Reaches stream (CodedInputStream.skip header.value.asSize stream).2
                payload.length := by
              rw [heads.asSize_eq carries]
              exact skip_reaches carries
            exact keepField_realizes equipped grounded top (1, index) holds heads
              numberEq begins treats (Realizes.pure ⟨rfl, reaches, reading, suffix,
                World.visitors_withVisitors world _, reads, rests⟩)

end

end PostgresProtobuf
