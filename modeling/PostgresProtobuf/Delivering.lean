import PostgresProtobuf.ScanRules

/-! # Delivering a field to the rest of the chain

The visitors that `DescendIntoSubmessage` and the emitters stand for are reached
in three ways: pushed while a field begins, pushed with a treatment chosen for
them, and pushed on a traverser of their own. All three come down to what the
visitor does with a field when it is on top of the stack. -/

namespace PostgresProtobuf

open Foundation ChainVisitor

variable {Stream : Type} [CodedInputStream Stream] [LawfulCodedInputStream Stream]
variable {State : Type}

open LawfulCodedInputStream (view)
open ProtobufTraverser

structure Equipped (setting : Setting State)
    (context : ScanContext VisitorPointer QueryMemory Stream)
    (forward : VisitorPointer → FieldInfo → StdString →
      Program (QueryWorld Stream) Unit) : Prop where
  visitors : context.visitors =
    chainVisitors setting.utils setting.binaryToJsonString forward
  possible : ∀ count, setting.knowledge.Possible (context.localBits count)
  handovers : 1 < context.handovers

abbrev Resting (State : Type) := State → List ChainVisitor → Prop

def Loose (resting : Resting State) (state : State) (suffix : List ChainVisitor) : Prop :=
  ∃ head second rest, suffix = head :: second :: rest ∧ head.Stateless ∧
    ((∃ selector, second = fieldSelector selector ∧
        resting state (head :: fieldSelector selector.popped :: rest)) ∨
      (second.Stateless ∧ resting state suffix))

def RestsBehind (resting : Resting State) (front : List ChainVisitor) (state : State)
    (world : QueryWorld Stream) : Prop :=
  ∃ suffix, world.memory.visitors = front ++ suffix ∧ resting state suffix

/-- A stateless visitor realizes a delivery on top of the stack. -/
structure Receives (context : ScanContext VisitorPointer QueryMemory Stream)
    (knowledge : Knowledge State) (limit : Nat) (delivery : Delivery State)
    (resting : Resting State) : Prop where
  head : ∀ state suffix, resting state suffix →
    ∃ visitor rest, suffix = visitor :: rest ∧ visitor.Stateless
  primitive : ∀ (front : List ChainVisitor) (value : WireValue) (header : FieldInfo)
    (budget : Nat) (world : QueryWorld Stream) (state : State),
    value.wireType ≠ 2 → Heads knowledge value header →
    RestsBehind resting front state world →
    Realizes (runRecorder knowledge.textless) (delivery.field budget value) state
      (context.visitors.readPrimitive (some front.length) header) world
      fun _ after next => RestsBehind resting front next after
  lengthDelimited : ∀ (front : List ChainVisitor) (size : Nat) (payload : Bytes)
    (header : FieldInfo) (fuel budget : Nat)
    (traverser : ProtobufTraverser VisitorPointer) (stream : Stream)
    (world : QueryWorld Stream) (state : State),
    fuel ≤ limit → (view stream).left.length < fuel →
    (view stream).recursionBudget = budget →
    Carries stream (.lengthDelimited size payload) →
    Heads knowledge (.lengthDelimited size payload) header →
    traverser.visitor = some front.length →
    RestsBehind resting front state world →
    Realizes (runRecorder knowledge.textless)
      (delivery.field budget (.lengthDelimited size payload)) state
      (scanField context fuel header traverser stream) world
      fun result after next =>
        Reaches stream result.2 payload.length ∧
          ((result.1 = traverser ∧ RestsBehind resting front next after) ∨
            (result.1 = traverser.withPushed traverser.depth [some (front.length + 1)] ∧
              RestsBehind (Loose resting) front next after))
  handed : ∀ (front : List ChainVisitor) (type : FieldType) (size : Nat)
    (payload : Bytes) (header : FieldInfo) (fuel : Nat)
    (scanMessage : ProtobufTraverser VisitorPointer → Stream →
      Program (QueryWorld Stream) (ProtobufTraverser VisitorPointer × Stream))
    (traverser : ProtobufTraverser VisitorPointer) (stream : Stream)
    (world : QueryWorld Stream) (state : State),
    type ≠ .message → Carries stream (.lengthDelimited size payload) →
    Heads knowledge (.lengthDelimited size payload) header →
    traverser.visitor = some front.length →
    RestsBehind resting front state world →
    Realizes (runRecorder knowledge.textless) (delivery.handed type size payload) state
      (treatField context fuel scanMessage (compositeFieldTreatmentForType type) header
        traverser stream) world
      fun result after next =>
        result.1 = traverser ∧ Reaches stream result.2 payload.length ∧
          RestsBehind resting front next after

def Closes (context : ScanContext VisitorPointer QueryMemory Stream)
    (traverser : ProtobufTraverser VisitorPointer) (front after : List ChainVisitor) :
    Prop :=
  ∀ (world : QueryWorld Stream) (suffix : List ChainVisitor),
    world.memory.visitors = front ++ suffix →
    context.visitors.endField traverser.visitor world =
      .ok () (world.withVisitors (after ++ suffix))

/-- A visitor realizes a delivery when the visitor before it hands a field over. -/
structure Serves (context : ScanContext VisitorPointer QueryMemory Stream)
    (knowledge : Knowledge State) (limit : Nat) (delivery : Delivery State)
    (resting : Resting State) : Prop where
  nonempty : ∀ state suffix, resting state suffix → suffix ≠ []
  primitive : ∀ (front closed : List ChainVisitor)
    (value : WireValue) (header : FieldInfo) (budget handovers : Nat)
    (below : ProtobufTraverser VisitorPointer) (world : QueryWorld Stream)
    (state : State),
    0 < handovers → below.Grounded → Closes context below front closed →
    value.wireType ≠ 2 → Heads knowledge value header →
    RestsBehind resting front state world →
    Realizes (runRecorder knowledge.textless) (delivery.field budget value) state
      (do let traverser ← pushVisitor context (some front.length) (below.inside [])
          let traverser ←
            callBeginField context handovers header.number header.wireType traverser
          context.visitors.readPrimitive traverser.visitor header
          decrementDepthAndEndFieldAndPopVisitors context traverser) world
      fun result after next =>
        result = below ∧ RestsBehind resting closed next after
  lengthDelimited : ∀ (front closed : List ChainVisitor) (size : Nat) (payload : Bytes)
    (header : FieldInfo) (fuel budget handovers : Nat)
    (below : ProtobufTraverser VisitorPointer) (stream : Stream)
    (world : QueryWorld Stream) (state : State),
    0 < handovers → below.Grounded → Closes context below front closed →
    fuel ≤ limit → (view stream).left.length < fuel →
    (view stream).recursionBudget = budget →
    Carries stream (.lengthDelimited size payload) →
    Heads knowledge (.lengthDelimited size payload) header →
    RestsBehind resting front state world →
    Realizes (runRecorder knowledge.textless)
      (delivery.field budget (.lengthDelimited size payload)) state
      (do let traverser ← pushVisitor context (some front.length) (below.inside [])
          let traverser ←
            callBeginField context handovers header.number header.wireType traverser
          let (traverser, stream) ← scanField context fuel header traverser stream
          let traverser ← decrementDepthAndEndFieldAndPopVisitors context traverser
          return (traverser, stream)) world
      fun result after next =>
        result.1 = below ∧ Reaches stream result.2 payload.length ∧
          RestsBehind resting closed next after

theorem FieldSelector.popped_endField (selector : FieldSelector) :
    selector.endField.popped = selector.popped := by
  unfold FieldSelector.endField
  split <;> rfl

section

variable {setting : Setting State}
variable {context : ScanContext VisitorPointer QueryMemory Stream}
variable {forward : VisitorPointer → FieldInfo → StdString →
  Program (QueryWorld Stream) Unit}
variable {limit : Nat} {delivery : Delivery State} {resting : Resting State}

omit [CodedInputStream Stream] [LawfulCodedInputStream Stream] in
theorem Equipped.pushVisitor_inside (equipped : Equipped setting context forward)
    (visitor : VisitorPointer) (visitors : List VisitorPointer)
    (below : ProtobufTraverser VisitorPointer) (world : QueryWorld Stream) :
    pushVisitor context visitor (below.inside visitors) world =
      .ok (below.inside (visitor :: visitors)) world := by
  rw [ProtobufTraverser.pushVisitor_inside, equipped.visitors]
  rfl

omit [CodedInputStream Stream] [LawfulCodedInputStream Stream] in
theorem Closes.endField {below : ProtobufTraverser VisitorPointer}
    {front closed : List ChainVisitor} (closes : Closes context below front closed)
    (grounded : below.Grounded) {visitors : List VisitorPointer}
    {world after : QueryWorld Stream}
    (leaves : leaveVisitors context visitors world = .ok () after) {state : State}
    (rests : RestsBehind resting front state after) :
    ∃ last, decrementDepthAndEndFieldAndPopVisitors context (below.inside visitors) world =
        .ok below (after.withVisitors last) ∧
      RestsBehind resting closed state (after.withVisitors last) := by
  rcases rests with ⟨suffix, holds, rests⟩
  refine ⟨closed ++ suffix, ?_, suffix, rfl, rests⟩
  rw [decrementDepthAndEndFieldAndPopVisitors_inside context grounded,
    Program.bind_ok leaves]
  exact Program.bind_ok (closes after suffix holds)

namespace Serves

theorem elementTurn_realizes (serves : Serves context setting.knowledge limit delivery resting)
    (equipped : Equipped setting context forward)
    {front closed : List ChainVisitor} {traverser : ProtobufTraverser VisitorPointer}
    (grounded : traverser.Grounded) (closes : Closes context traverser front closed)
    (different : some front.length ≠ traverser.visitor) (budget : Nat)
    {value : WireValue} {header : FieldInfo} {world begun : QueryWorld Stream}
    {state : State} (notLengthDelimited : value.wireType ≠ 2)
    (heads : Heads setting.knowledge value header)
    (handsOver : context.visitors.beginField traverser.visitor header.number
      header.wireType world = .ok (some front.length) begun)
    (records : (runRecorder setting.knowledge.textless).Records world [] begun)
    (rests : RestsBehind resting front state begun) :
    Realizes (runRecorder setting.knowledge.textless) (delivery.field budget value) state
      (elementTurn context header traverser) world
      fun result after next =>
        result = traverser ∧ RestsBehind resting closed next after := by
  have enough : 0 < context.handovers := Nat.lt_of_succ_lt equipped.handovers
  have calls := callBeginField_handsOver context (traverser.inside []) enough different
    handsOver
  have delivered := serves.primitive front closed value header budget
    (context.handovers - 1) traverser begun state (Nat.sub_pos_of_lt equipped.handovers)
    grounded closes notLengthDelimited heads rests
  refine Realizes.congr ((Program.bind_congr calls).trans ?_) records delivered
  rw [bind_assoc]

theorem fieldTurn_realizes (serves : Serves context setting.knowledge limit delivery resting)
    (equipped : Equipped setting context forward)
    {front closed : List ChainVisitor} {traverser : ProtobufTraverser VisitorPointer}
    (grounded : traverser.Grounded) (closes : Closes context traverser front closed)
    (different : some front.length ≠ traverser.visitor) {budget fuel : Nat}
    {value : WireValue} {header : FieldInfo} {stream : Stream}
    {world begun : QueryWorld Stream} {state : State}
    (within : fuel ≤ limit) (enoughFuel : (view stream).left.length < fuel)
    (budgetEq : (view stream).recursionBudget = budget) (carries : Carries stream value)
    (heads : Heads setting.knowledge value header)
    (handsOver : context.visitors.beginField traverser.visitor header.number
      header.wireType world = .ok (some front.length) begun)
    (records : (runRecorder setting.knowledge.textless).Records world [] begun)
    (rests : RestsBehind resting front state begun) :
    Realizes (runRecorder setting.knowledge.textless) (delivery.field budget value) state
      (fieldTurn context fuel header traverser stream) world
      fun result after next =>
        result.1 = traverser ∧ Reaches stream result.2 value.payload.length ∧
          RestsBehind resting closed next after := by
  by_cases lengthDelimited : value.wireType = 2
  · cases value with
    | lengthDelimited size payload =>
        have enough : 0 < context.handovers := Nat.lt_of_succ_lt equipped.handovers
        have calls := callBeginField_handsOver context (traverser.inside []) enough different
          handsOver
        have delivered := serves.lengthDelimited front closed size payload header fuel budget
          (context.handovers - 1) traverser stream begun state
          (Nat.sub_pos_of_lt equipped.handovers) grounded closes within enoughFuel budgetEq
          carries heads rests
        refine Realizes.congr ((Program.bind_congr calls).trans ?_) records delivered
        rw [bind_assoc]
    | _ => simp [WireValue.wireType] at lengthDelimited
  · rw [fieldTurn_of_wireType_ne context (heads.1 ▸ lengthDelimited)]
    refine (serves.elementTurn_realizes equipped grounded closes different budget
      lengthDelimited heads handsOver records rests).andSilent ?_
    rintro _ after next ⟨rfl, restsAfter⟩
    refine ⟨_, _, rfl, (runRecorder _).nil after, rfl, ?_, restsAfter⟩
    rw [WireValue.payload_eq_nil lengthDelimited]
    exact Reaches.refl stream

end Serves

namespace Receives

variable (equipped : Equipped setting context forward)

include equipped

theorem callBeginField_eq
    (receives : Receives context setting.knowledge limit delivery resting)
    {front : List ChainVisitor} {traverser : ProtobufTraverser VisitorPointer}
    (top : traverser.visitor = some front.length) {handovers : Nat}
    (enough : 0 < handovers) (number : Int) (wireType : Nat) {state : State}
    {world : QueryWorld Stream} (rests : RestsBehind resting front state world) :
    callBeginField context handovers number wireType traverser world =
      .ok traverser world := by
  rcases rests with ⟨suffix, holds, rests⟩
  rcases receives.head _ _ rests with ⟨visitor, rest, rfl, stateless⟩
  refine callBeginField_stays context _ enough ?_
  rw [equipped.visitors, top]
  exact beginField_stateless _ _ _ stateless holds number wireType

theorem leaveVisitors_eq
    (receives : Receives context setting.knowledge limit delivery resting)
    {front : List ChainVisitor} {state : State} {world : QueryWorld Stream}
    (rests : RestsBehind resting front state world) :
    leaveVisitors context [some front.length] world = .ok () world := by
  rcases rests with ⟨suffix, holds, rests⟩
  rcases receives.head _ _ rests with ⟨visitor, rest, rfl, stateless⟩
  simp only [leaveVisitors, equipped.visitors]
  rw [Program.bind_ok (endField_stateless _ _ _ stateless holds),
    Program.bind_ok (popped_stateless _ _ _ stateless holds)]
  rfl

theorem leaveVisitors_loose
    (receives : Receives context setting.knowledge limit delivery resting)
    {front : List ChainVisitor} {state : State} {world : QueryWorld Stream}
    (loose : RestsBehind (Loose resting) front state world) :
    ∃ after, leaveVisitors context [some (front.length + 1), some front.length] world =
        .ok () after ∧
      (runRecorder setting.knowledge.textless).Records world [] after ∧
        RestsBehind resting front state after := by
  rcases loose with ⟨_, holds, head, second, rest, rfl, _, selects | ⟨stateless, rests⟩⟩
  · rcases selects with ⟨selector, rfl, rests⟩
    have second : world.memory.visitors =
        (front ++ [head]) ++ fieldSelector selector :: rest := by simpa using holds
    have position : front.length + 1 = (front ++ [head]).length := by simp
    have popped : RestsBehind resting front state (world.withVisitors
        ((front ++ [head]) ++ fieldSelector selector.endField.popped :: rest)) := by
      refine ⟨_, List.append_assoc .., ?_⟩
      rw [FieldSelector.popped_endField]
      exact rests
    refine ⟨_, ?_, runRecorder_withVisitors world _, popped⟩
    have first := receives.leaveVisitors_eq equipped popped
    simp only [leaveVisitors, equipped.visitors, position] at first ⊢
    rw [Program.bind_ok (endField_selector _ _ _ second),
      Program.bind_ok (popped_selector _ _ _ (World.visitors_withVisitors _ _))]
    exact first
  · have second : world.memory.visitors = (front ++ [head]) ++ second :: rest := by
      simpa using holds
    have position : front.length + 1 = (front ++ [head]).length := by simp
    have popped : RestsBehind resting front state world := ⟨_, holds, rests⟩
    refine ⟨_, ?_, (runRecorder _).nil world, popped⟩
    have first := receives.leaveVisitors_eq equipped popped
    simp only [leaveVisitors, equipped.visitors, position] at first ⊢
    rw [Program.bind_ok (endField_stateless _ _ _ stateless second),
      Program.bind_ok (popped_stateless _ _ _ stateless second)]
    exact first

theorem serves (receives : Receives context setting.knowledge limit delivery resting) :
    Serves context setting.knowledge limit delivery resting where
  nonempty state suffix rests := by
    rcases receives.head _ _ rests with ⟨visitor, rest, rfl, _⟩
    simp
  primitive front closed value header budget handovers below world state enough grounded
      closes notLengthDelimited heads rests := by
    refine Realizes.silent (equipped.pushVisitor_inside ..) ((runRecorder _).nil world) ?_
    refine Realizes.silent
      (receives.callBeginField_eq equipped rfl enough header.number header.wireType rests)
      ((runRecorder _).nil world) ?_
    refine Realizes.andSilent
      (receives.primitive front value header budget world state notLengthDelimited heads
        rests) ?_
    intro _ after next restsAfter
    rcases closes.endField grounded (receives.leaveVisitors_eq equipped restsAfter)
      restsAfter with ⟨last, runs, restsLast⟩
    exact ⟨_, _, runs, runRecorder_withVisitors .., rfl, restsLast⟩
  lengthDelimited front closed size payload header fuel budget handovers below stream world
      state enough grounded closes within enoughFuel budgetEq carries heads rests := by
    refine Realizes.silent (equipped.pushVisitor_inside ..) ((runRecorder _).nil world) ?_
    refine Realizes.silent
      (receives.callBeginField_eq equipped rfl enough header.number header.wireType rests)
      ((runRecorder _).nil world) ?_
    refine Realizes.andSilent
      (receives.lengthDelimited front size payload header fuel budget _ stream world state
        within enoughFuel budgetEq carries heads rfl rests) ?_
    rintro ⟨traverser, streamAfter⟩ after next ⟨reaches, ⟨rfl, restsAfter⟩ | ⟨rfl, loose⟩⟩
    · rcases closes.endField grounded (receives.leaveVisitors_eq equipped restsAfter)
        restsAfter with ⟨last, runs, restsLast⟩
      exact ⟨_, _, Program.bind_ok runs, runRecorder_withVisitors .., rfl, reaches, restsLast⟩
    · rcases receives.leaveVisitors_loose equipped loose with
        ⟨between, leaves, records, restsBetween⟩
      rcases closes.endField grounded leaves restsBetween with ⟨last, runs, restsLast⟩
      have stack : (below.inside [some front.length]).withPushed
          (below.inside [some front.length]).depth [some (front.length + 1)] =
          below.inside [some (front.length + 1), some front.length] := by
        rw [depth_inside, inside, withPushed_append]
        rfl
      refine ⟨_, _, Program.bind_ok (stack ▸ runs), ?_, rfl, reaches, restsLast⟩
      exact (runRecorder _).append records (runRecorder_withVisitors ..)

end Receives

end

end PostgresProtobuf
