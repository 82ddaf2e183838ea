import PostgresProtobuf.ProtobufTraverser

/-! # The visitor stack during a field

During a field the stack holds the visitors that were there before and those
that the field has pushed at its own depth. The end of the field takes exactly
the latter off again. -/

namespace PostgresProtobuf

open Foundation

namespace ProtobufTraverser

variable {Visitor Memory Stream : Type}

/-- The traverser with the given visitors pushed at a depth, the last one first. -/
def withPushed (traverser : ProtobufTraverser Visitor) (depth : Int) :
    List Visitor → ProtobufTraverser Visitor
  | [] => { traverser with depth := depth }
  | visitor :: visitors =>
      { visitorStack := ⟨visitor, depth⟩ :: (withPushed traverser depth visitors).visitorStack
        visitor := visitor
        depth := depth }

def Grounded (traverser : ProtobufTraverser Visitor) : Prop :=
  ∃ below, ∃ top : StackElement Visitor,
    traverser.visitorStack = top :: below ∧ top.visitor = traverser.visitor ∧
      top.depthAdded ≤ traverser.depth

/-- The current visitor is on top of the stack, pushed no deeper than here, or the stack is
empty and it is the one that does nothing. -/
def Settled (noOp : Visitor) (traverser : ProtobufTraverser Visitor) : Prop :=
  match traverser.visitorStack with
  | [] => traverser.visitor = noOp
  | top :: _ => top.visitor = traverser.visitor ∧ top.depthAdded ≤ traverser.depth

theorem Grounded.settled {traverser : ProtobufTraverser Visitor}
    (grounded : traverser.Grounded) (noOp : Visitor) : traverser.Settled noOp := by
  rcases grounded with ⟨below, top, stack, same, shallow⟩
  unfold Settled
  rw [stack]
  exact ⟨same, shallow⟩

def inside (traverser : ProtobufTraverser Visitor) (visitors : List Visitor) :
    ProtobufTraverser Visitor :=
  traverser.withPushed (traverser.depth + 1) visitors

@[simp] theorem depth_withPushed (traverser : ProtobufTraverser Visitor) (depth : Int)
    (visitors : List Visitor) : (traverser.withPushed depth visitors).depth = depth := by
  cases visitors <;> rfl

@[simp] theorem depth_inside (traverser : ProtobufTraverser Visitor)
    (visitors : List Visitor) :
    (traverser.inside visitors).depth = traverser.depth + 1 :=
  depth_withPushed ..

@[simp] theorem visitor_inside_nil (traverser : ProtobufTraverser Visitor) :
    (traverser.inside []).visitor = traverser.visitor := rfl

@[simp] theorem visitor_inside_cons (traverser : ProtobufTraverser Visitor)
    (visitor : Visitor) (visitors : List Visitor) :
    (traverser.inside (visitor :: visitors)).visitor = visitor := rfl

theorem withPushed_append (traverser : ProtobufTraverser Visitor) (depth : Int)
    (front back : List Visitor) :
    (traverser.withPushed depth back).withPushed depth front =
      traverser.withPushed depth (front ++ back) := by
  induction front with
  | nil => cases back <;> rfl
  | cons visitor front induction => simp only [List.cons_append, withPushed, induction]

theorem grounded_inside {traverser : ProtobufTraverser Visitor}
    (grounded : traverser.Grounded) (visitors : List Visitor) :
    (traverser.inside visitors).Grounded := by
  cases visitors with
  | nil =>
      rcases grounded with ⟨below, top, stack, visitor, depth⟩
      exact ⟨below, top, stack, visitor, by simp only [depth_inside]; omega⟩
  | cons visitor visitors => exact ⟨_, ⟨visitor, _⟩, rfl, rfl, Int.le_refl _⟩

theorem settled_new (family : VisitorFamily Visitor Memory Stream) :
    (new family).Settled family.noOp := rfl

theorem visitor_mem_of_mem_withPushed {family : VisitorFamily Visitor Memory Stream}
    {depth : Int} {visitors : List Visitor} {element : StackElement Visitor}
    (isOn : element ∈ ((new family).withPushed depth visitors).visitorStack) :
    element.visitor ∈ visitors := by
  induction visitors with
  | nil => cases isOn
  | cons visitor visitors induction =>
      rcases List.mem_cons.mp isOn with rfl | below
      · exact List.mem_cons_self ..
      · exact List.mem_cons_of_mem _ (induction below)

theorem Settled.withPushed {noOp : Visitor} {traverser : ProtobufTraverser Visitor}
    (settled : traverser.Settled noOp) (visitors : List Visitor) :
    (traverser.withPushed traverser.depth visitors).Settled noOp := by
  cases visitors with
  | nil => exact settled
  | cons visitor visitors => exact ⟨rfl, Int.le_refl _⟩

theorem Settled.inside {noOp : Visitor} {traverser : ProtobufTraverser Visitor}
    (settled : traverser.Settled noOp) (visitors : List Visitor) :
    (traverser.inside visitors).Settled noOp := by
  cases visitors with
  | nil =>
      unfold Settled at settled ⊢
      simp only [ProtobufTraverser.inside, ProtobufTraverser.withPushed]
      split
      · rename_i isEmpty
        rw [isEmpty] at settled
        exact settled
      · rename_i top below isStack
        rw [isStack] at settled
        exact ⟨settled.1, by have := settled.2; omega⟩
  | cons visitor visitors => exact ⟨rfl, Int.le_refl _⟩

variable (context : ScanContext Visitor Memory Stream)

theorem pushVisitor_eq (visitor : Visitor) (traverser : ProtobufTraverser Visitor) :
    pushVisitor context visitor traverser = do
      context.visitors.pushed visitor
      return traverser.withPushed traverser.depth [visitor] := rfl

theorem pushVisitor_inside (visitor : Visitor) (visitors : List Visitor)
    (traverser : ProtobufTraverser Visitor) :
    pushVisitor context visitor (traverser.inside visitors) = do
      context.visitors.pushed visitor
      return traverser.inside (visitor :: visitors) := by
  rw [pushVisitor_eq, depth_inside, inside, withPushed_append]
  rfl

def leaveVisitors : List Visitor → Program (World Memory Stream) Unit
  | [] => return ()
  | visitor :: visitors => do
      context.visitors.endField visitor
      context.visitors.popped visitor
      leaveVisitors visitors

theorem popVisitor_inside {traverser : ProtobufTraverser Visitor}
    (settled : traverser.Settled context.visitors.noOp) (visitor : Visitor)
    (visitors : List Visitor) (depth : Int) :
    popVisitor context { traverser.inside (visitor :: visitors) with depth := depth } =
      (do context.visitors.popped visitor
          return { traverser.inside visitors with depth := depth }) := by
  have below := settled.inside visitors
  unfold Settled at below
  simp only [popVisitor, inside, withPushed] at below ⊢
  split
  · rename_i isEmpty
    rw [isEmpty] at below
    simp only [← below, isEmpty]
  · rename_i top rest isStack
    rw [isStack] at below
    simp only [below.1]

theorem endFieldAndPopVisitors_inside {traverser : ProtobufTraverser Visitor}
    (settled : traverser.Settled context.visitors.noOp) (height : Nat)
    (visitors : List Visitor) (enough : visitors.length ≤ height) :
    (do context.visitors.endField (traverser.inside visitors).visitor
        endFieldAndPopVisitors context height
          { traverser.inside visitors with depth := traverser.depth }) =
      (do leaveVisitors context visitors
          context.visitors.endField traverser.visitor
          return traverser) := by
  induction visitors generalizing height with
  | nil =>
      have stays : endFieldAndPopVisitors context height traverser = pure traverser := by
        cases height with
        | zero => rfl
        | succ height =>
            unfold endFieldAndPopVisitors
            unfold Settled at settled
            split
            · rfl
            · rename_i top below isStack
              rw [isStack] at settled
              exact if_neg (Int.not_lt.mpr settled.2)
      have same : { traverser.inside [] with depth := traverser.depth } = traverser := rfl
      rw [same, stays, leaveVisitors, pure_bind]
      rfl
  | cons visitor visitors induction =>
      cases height with
      | zero => simp at enough
      | succ height =>
          have deeper : traverser.depth + 1 > traverser.depth := by omega
          have pops := popVisitor_inside context settled visitor visitors traverser.depth
          simp only [endFieldAndPopVisitors, visitor_inside_cons]
          simp only [inside, withPushed, if_pos deeper] at pops ⊢
          rw [pops]
          simp only [leaveVisitors, bind_assoc, pure_bind]
          simp only [inside] at induction
          rw [induction height (by simpa using enough)]

/-- The end of a field takes off what the field has pushed and calls `EndField`
on the visitor that was there before. -/
theorem decrementDepthAndEndFieldAndPopVisitors_settled
    {traverser : ProtobufTraverser Visitor}
    (settled : traverser.Settled context.visitors.noOp) (visitors : List Visitor) :
    decrementDepthAndEndFieldAndPopVisitors context (traverser.inside visitors) =
      (do leaveVisitors context visitors
          context.visitors.endField traverser.visitor
          return traverser) := by
  have enough : ∀ pushed : List Visitor,
      pushed.length ≤ (traverser.inside pushed).visitorStack.length := by
    intro pushed
    induction pushed with
    | nil => exact Nat.zero_le _
    | cons visitor pushed induction => exact Nat.succ_le_succ induction
  have loop := endFieldAndPopVisitors_inside context settled _ visitors (enough visitors)
  have shallower : (traverser.inside visitors).depth - 1 = traverser.depth := by
    rw [depth_inside]
    omega
  simp only [decrementDepthAndEndFieldAndPopVisitors, shallower]
  exact loop

theorem decrementDepthAndEndFieldAndPopVisitors_inside
    {traverser : ProtobufTraverser Visitor} (grounded : traverser.Grounded)
    (visitors : List Visitor) :
    decrementDepthAndEndFieldAndPopVisitors context (traverser.inside visitors) =
      (do leaveVisitors context visitors
          context.visitors.endField traverser.visitor
          return traverser) :=
  decrementDepthAndEndFieldAndPopVisitors_settled context (grounded.settled _) visitors

theorem incrementDepthAndCallBeginField_eq [DecidableEq Visitor] (number : Int)
    (wireType : Nat) (traverser : ProtobufTraverser Visitor) :
    incrementDepthAndCallBeginField context number wireType traverser =
      callBeginField context context.handovers number wireType (traverser.inside []) :=
  rfl

/-! ## Beginning a field -/

section

variable [DecidableEq Visitor] (traverser : ProtobufTraverser Visitor)
variable {world after : World Memory Stream}
variable {number : Int} {wireType : Nat}

theorem callBeginField_stays {handovers : Nat} (enough : 0 < handovers)
    (runs : context.visitors.beginField traverser.visitor number wireType world =
      .ok traverser.visitor after) :
    callBeginField context handovers number wireType traverser world =
      .ok traverser after := by
  cases handovers with
  | zero => exact absurd enough (Nat.lt_irrefl 0)
  | succ handovers =>
      rw [callBeginField, Program.bind_ok runs, if_pos rfl]
      rfl

theorem callBeginField_handsOver {handovers : Nat} (enough : 0 < handovers)
    {next : Visitor} (different : next ≠ traverser.visitor)
    (runs : context.visitors.beginField traverser.visitor number wireType world =
      .ok next after) :
    callBeginField context handovers number wireType traverser world =
      (do let traverser ← pushVisitor context next traverser
          callBeginField context (handovers - 1) number wireType traverser) after := by
  cases handovers with
  | zero => exact absurd enough (Nat.lt_irrefl 0)
  | succ handovers =>
      rw [callBeginField, Program.bind_ok runs, if_neg different]
      rfl

theorem callBeginMessage_stays (enough : 0 < context.handovers)
    (runs : context.visitors.beginMessage traverser.visitor world =
      .ok traverser.visitor after) :
    callBeginMessage context traverser world = .ok traverser after := by
  rw [callBeginMessage]
  cases handovers : context.handovers with
  | zero => omega
  | succ handovers =>
      rw [callBeginMessageWithin, Program.bind_ok runs, if_pos rfl]
      rfl

theorem callBeginMessage_handsOver (enough : 1 < context.handovers)
    {next : Visitor} {last : World Memory Stream}
    (different : next ≠ traverser.visitor)
    (runs : context.visitors.beginMessage traverser.visitor world = .ok next after)
    (pushes : context.visitors.pushed next after = .ok () after)
    (stays : context.visitors.beginMessage next after = .ok next last) :
    callBeginMessage context traverser world =
      .ok (traverser.withPushed traverser.depth [next]) last := by
  rw [callBeginMessage]
  cases first : context.handovers with
  | zero => omega
  | succ handovers =>
      cases handovers with
      | zero => omega
      | succ handovers =>
          rw [callBeginMessageWithin, Program.bind_ok runs, if_neg different, pushVisitor_eq,
            bind_assoc, Program.bind_ok pushes, pure_bind, callBeginMessageWithin]
          refine (Program.bind_ok stays).trans ?_
          rw [withPushed, if_pos rfl]
          rfl

end

/-! ## Scanning a field -/

section

variable [DecidableEq Visitor] [CodedInputStream Stream]
variable (traverser : ProtobufTraverser Visitor) (fuel : Nat) (stream : Stream)
variable {world after : World Memory Stream} {header : FieldInfo}
variable {treatment : LengthDelimitedFieldTreatment}

theorem scanField_stays (lengthDelimited : header.wireType = 2)
    (chooses : context.visitors.readLengthDelimitedField traverser.visitor header world =
      .ok (treatment, traverser.visitor) after) :
    scanField context fuel header traverser stream world =
      treatField context fuel (scanMessage context fuel) treatment header traverser stream
        after := by
  rw [scanField, scanFieldWith, if_neg (fun primitive => primitive lengthDelimited)]
  exact (Program.bind_ok chooses).trans (congrFun (if_pos rfl) after)

theorem scanField_handsOver {next : Visitor} (lengthDelimited : header.wireType = 2)
    (different : next ≠ traverser.visitor)
    (chooses : context.visitors.readLengthDelimitedField traverser.visitor header world =
      .ok (treatment, next) after) :
    scanField context fuel header traverser stream world =
      (do let traverser ← pushVisitor context next traverser
          let traverser ←
            incrementDepthAndCallBeginField context header.number header.wireType traverser
          let (traverser, stream) ←
            treatField context fuel (scanMessage context fuel) treatment header traverser stream
          let traverser ← decrementDepthAndEndFieldAndPopVisitors context traverser
          return (traverser, stream)) after := by
  rw [scanField, scanFieldWith, if_neg (fun primitive => primitive lengthDelimited)]
  exact (Program.bind_ok chooses).trans (congrFun (if_neg different) after)

end

end ProtobufTraverser

end PostgresProtobuf
