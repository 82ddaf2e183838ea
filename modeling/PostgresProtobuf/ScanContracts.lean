import PostgresProtobuf.ScanStreams
import PostgresProtobuf.TraverserStack

/-! # What scans keep

Rules for scans with arbitrary visitors: what every callback keeps, every scan keeps. The
turns of the loops give the traverser back as it was. -/

namespace PostgresProtobuf

open Foundation

variable {Visitor Memory Stream : Type}

open LawfulCodedInputStream (view)

structure ScanContract (Visitor Memory : Type) where
  /-- Of the memory, while the visitors are pushed and not popped, the last one first. -/
  holds : List Visitor → Memory → Prop
  /-- Of the exceptions that break a scan off, and of the memory then. -/
  allowed : Exception → Memory → Prop
  called : Visitor → Prop
  rank : Visitor → Nat
  /-- More than the bytes of any stream that is scanned. -/
  bound : Nat

/-- Whatever the size, nothing longer than what is left is read, and no limit shows more. -/
structure Contained [CodedInputStream Stream] [LawfulCodedInputStream Stream]
    (stream : Stream) (size : Int) : Prop where
  readString : ∀ {contents next}, CodedInputStream.readString size stream =
    some (contents, next) → contents.length ≤ (view stream).left.length
  pushLimit : (view (CodedInputStream.pushLimit size stream).2).left.length ≤
    (view stream).left.length
  incrementRecursionDepth :
    (view (CodedInputStream.incrementRecursionDepthAndPushLimit size stream).2).left.length ≤
      (view stream).left.length

theorem contained_natural [CodedInputStream Stream] [LawfulCodedInputStream Stream]
    (stream : Stream) {size : Nat} (small : size < 2 ^ 31) : Contained stream size where
  readString := by
    intro contents next reads
    by_cases fits : size ≤ (view stream).left.length
    · rcases LawfulCodedInputStream.readString_of_le stream size fits with ⟨_, readsTake, _⟩
      cases readsTake.symm.trans reads
      exact List.length_take_le' ..
    · have fails := LawfulCodedInputStream.readString_of_lt stream size (Nat.lt_of_not_le fits)
      cases fails.symm.trans reads
  pushLimit := by
    rw [(pushLimit_left (carries_take stream small)).1]
    exact List.length_take_le' ..
  incrementRecursionDepth := by
    rw [(incrementRecursionDepth_left (carries_take stream small)).1]
    exact List.length_take_le' ..

namespace ScanContract

def invariant (contract : ScanContract Visitor Memory) :
    Invariant (World Memory Stream) (List Visitor) Exception where
  allowed exception world := contract.allowed exception world.memory
  holds pending world := contract.holds pending world.memory

def Tolerates (contract : ScanContract Visitor Memory) (exception : Exception) : Prop :=
  ∀ pending memory, contract.holds pending memory → contract.allowed exception memory

/-- The visitor stands where the other one was called, after the handover loops have asked
it: it is the same or comes later. -/
def Follows (contract : ScanContract Visitor Memory) (visitor next : Visitor) : Prop :=
  contract.called next ∧
    (next = visitor ∨ contract.Tolerates .outOfFuel ∨ contract.rank next < contract.rank visitor)

structure KeptBy (contract : ScanContract Visitor Memory)
    (context : ScanContext Visitor Memory Stream) : Prop where
  badProto : ∀ message, contract.Tolerates (.badProto message)
  recursionDepthExceeded : contract.Tolerates .recursionDepthExceeded
  handovers : ∀ visitor, contract.called visitor →
    contract.Tolerates .outOfFuel ∨ contract.rank visitor < context.handovers
  pushed : ∀ visitor pending, contract.called visitor →
    contract.invariant.Keeps (context.visitors.pushed visitor) pending
      fun _ next => next = visitor :: pending
  popped : ∀ visitor pending, contract.called visitor →
    contract.invariant.Keeps (context.visitors.popped visitor) (visitor :: pending)
      fun _ next => next = pending
  beginField : ∀ visitor pending number wireType, contract.called visitor →
    contract.invariant.Keeps (context.visitors.beginField visitor number wireType) pending
      fun other next => next = pending ∧ contract.Follows visitor other
  beginMessage : ∀ visitor pending, contract.called visitor →
    contract.invariant.Keeps (context.visitors.beginMessage visitor) pending
      fun other next => next = pending ∧ contract.Follows visitor other
  readLengthDelimitedField : ∀ visitor pending field, contract.called visitor →
    contract.invariant.Keeps (context.visitors.readLengthDelimitedField visitor field) pending
      fun chosen next => next = pending ∧ contract.called chosen.2
  readPrimitive : ∀ visitor pending field, contract.called visitor →
    contract.invariant.Keeps (context.visitors.readPrimitive visitor field) pending
      fun _ next => next = pending
  readString : ∀ visitor pending contents, contract.called visitor →
    contract.invariant.Keeps (context.visitors.readString visitor contents) pending
      fun _ next => next = pending
  readBytes : ∀ visitor pending contents, contract.called visitor →
    contract.invariant.Keeps (context.visitors.readBytes visitor contents) pending
      fun _ next => next = pending
  bufferedValue : ∀ visitor pending contents, contract.called visitor →
    contract.Tolerates .outOfFuel ∨ contents.length < contract.bound →
    contract.invariant.Keeps (context.visitors.bufferedValue visitor contents) pending
      fun _ next => next = pending
  endField : ∀ visitor pending, contract.called visitor →
    contract.invariant.Keeps (context.visitors.endField visitor) pending
      fun _ next => next = pending

variable (contract : ScanContract Visitor Memory)

/-- The traverser is the other one with called visitors pushed where it stands. -/
def Pushes (traverser : ProtobufTraverser Visitor) (pending : List Visitor)
    (after : ProtobufTraverser Visitor) (next : List Visitor) : Prop :=
  ∃ visitors : List Visitor, (∀ visitor ∈ visitors, contract.called visitor) ∧
    after = traverser.withPushed traverser.depth visitors ∧ next = visitors ++ pending

/-- The turns that the loops are given last for the bytes of the stream, or need not. -/
def Enough [CodedInputStream Stream] [LawfulCodedInputStream Stream] (fuel : Nat)
    (stream : Stream) : Prop :=
  contract.Tolerates .outOfFuel ∨
    (view stream).left.length < fuel ∧ (view stream).left.length < contract.bound

variable {contract}

namespace Enough

variable [CodedInputStream Stream] [LawfulCodedInputStream Stream]
variable {fuel : Nat} {stream next : Stream}

theorem within (enough : contract.Enough fuel stream)
    (fewer : (view next).left.length ≤ (view stream).left.length) :
    contract.Enough fuel next :=
  enough.imp_right fun few => ⟨by omega, by omega⟩

theorem after {water : HighWaterMark Stream} {count : Nat}
    (enough : contract.Enough (fuel + 1) stream) (moves : Moves water stream next count)
    (positive : 0 < count) : contract.Enough fuel next := by
  have fits := moves.reaches.1
  have fewer := moves.left_length
  exact enough.imp_right fun few => ⟨by omega, by omega⟩

end Enough

variable {context : ScanContext Visitor Memory Stream}
variable {traverser : ProtobufTraverser Visitor} {pending : List Visitor}

namespace Pushes

theorem refl (traverser : ProtobufTraverser Visitor) (pending : List Visitor) :
    contract.Pushes traverser pending traverser pending :=
  ⟨[], nofun, rfl, rfl⟩

theorem push {visitor : Visitor} (called : contract.called visitor) :
    contract.Pushes traverser pending (traverser.withPushed traverser.depth [visitor])
      (visitor :: pending) :=
  ⟨[visitor], by simpa using called, rfl, rfl⟩

variable {after : ProtobufTraverser Visitor} {next : List Visitor}

theorem trans {last : ProtobufTraverser Visitor} {lastPending : List Visitor}
    (first : contract.Pushes traverser pending after next)
    (second : contract.Pushes after next last lastPending) :
    contract.Pushes traverser pending last lastPending := by
  rcases first with ⟨back, calledBack, rfl, rfl⟩
  rcases second with ⟨front, calledFront, rfl, rfl⟩
  refine ⟨front ++ back, ?_, ?_, (List.append_assoc ..).symm⟩
  · intro visitor isPushed
    rcases List.mem_append.mp isPushed with isFront | isBack
    · exact calledFront visitor isFront
    · exact calledBack visitor isBack
  · rw [ProtobufTraverser.depth_withPushed, ProtobufTraverser.withPushed_append]

theorem settled {noOp : Visitor} (pushes : contract.Pushes traverser pending after next)
    (settled : traverser.Settled noOp) : after.Settled noOp := by
  rcases pushes with ⟨visitors, _, rfl, _⟩
  exact settled.withPushed visitors

theorem called (pushes : contract.Pushes traverser pending after next)
    (called : contract.called traverser.visitor) : contract.called after.visitor := by
  rcases pushes with ⟨_ | ⟨visitor, visitors⟩, allCalled, rfl, _⟩
  · exact called
  · exact allCalled visitor (List.mem_cons_self ..)

theorem inside {visitors : List Visitor}
    (pushes : contract.Pushes (traverser.inside visitors) (visitors ++ pending) after next)
    (allCalled : ∀ visitor ∈ visitors, contract.called visitor) :
    ∃ both : List Visitor, (∀ visitor ∈ both, contract.called visitor) ∧
      after = traverser.inside both ∧ next = both ++ pending := by
  rcases pushes with ⟨others, calledOthers, rfl, rfl⟩
  refine ⟨others ++ visitors, ?_, ?_, (List.append_assoc ..).symm⟩
  · intro other isPushed
    exact (List.mem_append.mp isPushed).elim (calledOthers other) (allCalled other)
  · rw [ProtobufTraverser.depth_inside, ProtobufTraverser.inside,
      ProtobufTraverser.withPushed_append]
    rfl

end Pushes

theorem called_inside (called : contract.called traverser.visitor) {visitors : List Visitor}
    (allCalled : ∀ visitor ∈ visitors, contract.called visitor) :
    contract.called (traverser.inside visitors).visitor := by
  cases visitors with
  | nil => exact called
  | cons visitor visitors => exact allCalled visitor (List.mem_cons_self ..)

namespace KeptBy

open ProtobufTraverser

theorem keeps_leaveVisitors (kept : contract.KeptBy context) {visitors : List Visitor}
    (called : ∀ visitor ∈ visitors, contract.called visitor) :
    contract.invariant.Keeps (leaveVisitors context visitors) (visitors ++ pending)
      fun _ next => next = pending := by
  induction visitors with
  | nil => exact .pure rfl
  | cons visitor visitors induction =>
      have isCalled := called visitor (List.mem_cons_self ..)
      apply (kept.endField visitor _ isCalled).bind
      rintro _ _ rfl
      apply (kept.popped visitor _ isCalled).bind
      rintro _ _ rfl
      exact induction fun other isOther => called other (List.mem_cons_of_mem _ isOther)

theorem keeps_decrement (kept : contract.KeptBy context)
    (settled : traverser.Settled context.visitors.noOp)
    (called : contract.called traverser.visitor) {visitors : List Visitor}
    (allCalled : ∀ visitor ∈ visitors, contract.called visitor) :
    contract.invariant.Keeps
      (decrementDepthAndEndFieldAndPopVisitors context (traverser.inside visitors))
      (visitors ++ pending) fun after next => after = traverser ∧ next = pending := by
  rw [decrementDepthAndEndFieldAndPopVisitors_settled context settled]
  apply (kept.keeps_leaveVisitors allCalled).bind
  rintro _ _ rfl
  apply (kept.endField _ _ called).bind
  rintro _ _ rfl
  exact .pure ⟨rfl, rfl⟩

theorem keeps_pushVisitor (kept : contract.KeptBy context) {visitor : Visitor}
    (called : contract.called visitor) :
    contract.invariant.Keeps (pushVisitor context visitor traverser) pending
      fun after next => after = traverser.withPushed traverser.depth [visitor] ∧
        next = visitor :: pending := by
  rw [pushVisitor_eq]
  apply (kept.pushed visitor _ called).bind
  rintro _ _ rfl
  exact .pure ⟨rfl, rfl⟩

theorem keeps_declareFieldInfo (number : Int) (wireType : Nat) :
    contract.invariant.Keeps (declareFieldInfo context number wireType) pending
      fun field next => next = pending ∧ field.number = number ∧ field.wireType = wireType :=
  .of_ok fun world => ⟨_, { world with locals := world.locals + 1 }, rfl, id, rfl, rfl, rfl⟩

theorem keeps_record (event : ScanEvent Stream) :
    contract.invariant.Keeps (record event : Program (World Memory Stream) Unit) pending
      fun _ next => next = pending :=
  .of_ok fun _ => ⟨_, _, rfl, id, rfl⟩

section

variable [CodedInputStream Stream] [LawfulCodedInputStream Stream]

theorem keeps_readFieldValueOrSize (kept : contract.KeptBy context) (field : FieldInfo)
    (stream : Stream) :
    contract.invariant.Keeps (readFieldValueOrSize field stream) pending fun read next =>
      next = pending ∧ ReadsHeader .trivial field stream read := by
  have stops : contract.invariant.Keeps (readFieldValueOrSize field stream) pending
      fun _ next => next = pending := by
    intro world holds
    unfold Meets
    cases step : readValue field.wireType (view stream).left with
    | ok pair =>
        rcases pair with ⟨value, left⟩
        rcases readFieldValueOrSize_of_ok field step world with ⟨_, _, reads, _⟩
        rw [reads]
        exact ⟨pending, holds, rfl⟩
    | error fault =>
        rw [readFieldValueOrSize_of_error field step world]
        cases fault <;> exact kept.badProto _ _ _ holds
  exact stops.and (yields_readFieldValueOrSize .trivial field stream)

theorem keeps_contents (kept : contract.KeptBy context) {fuel : Nat} {stream : Stream}
    (enough : contract.Enough fuel stream) {size : Int}
    (contained : contract.Tolerates .outOfFuel ∨ Contained stream size)
    {deliver : StdString → Program (World Memory Stream) Unit}
    (delivers : ∀ contents,
      contract.Tolerates .outOfFuel ∨ contents.length < contract.bound →
      contract.invariant.Keeps (deliver contents) pending fun _ next => next = pending)
    (message : StdString) :
    contract.invariant.Keeps
      (match CodedInputStream.readString size stream with
      | some (contents, stream) => do
          deliver contents
          return (traverser, stream)
      | none => throw (.badProto message)) pending
      fun scanned next => next = pending ∧ scanned.1 = traverser := by
  rcases reads : CodedInputStream.readString size stream with _ | ⟨contents, rest⟩
  · exact .throw fun _ => kept.badProto message _ _
  · have short : contract.Tolerates .outOfFuel ∨ contents.length < contract.bound := by
      rcases contained with allowed | contained
      · exact .inl allowed
      · have within := contained.readString reads
        exact enough.imp_right fun few => by omega
    apply (delivers contents short).bind
    rintro _ _ rfl
    exact .pure ⟨rfl, rfl⟩

end

variable [DecidableEq Visitor]

theorem keeps_handovers (kept : contract.KeptBy context)
    {ask : Visitor → Program (World Memory Stream) Visitor}
    (asked : ∀ visitor pending, contract.called visitor →
      contract.invariant.Keeps (ask visitor) pending
        fun other next => next = pending ∧ contract.Follows visitor other)
    (loop : Nat → ProtobufTraverser Visitor →
      Program (World Memory Stream) (ProtobufTraverser Visitor))
    (zero : ∀ traverser, loop 0 traverser = throw .outOfFuel)
    (succ : ∀ handovers traverser, loop (handovers + 1) traverser = do
      let newVisitor ← ask traverser.visitor
      if newVisitor = traverser.visitor then return traverser
      else pushVisitor context newVisitor traverser >>= loop handovers)
    {handovers : Nat} (called : contract.called traverser.visitor)
    (enough : contract.Tolerates .outOfFuel ∨ contract.rank traverser.visitor < handovers) :
    contract.invariant.Keeps (loop handovers traverser) pending
      (contract.Pushes traverser pending) := by
  induction handovers generalizing traverser pending with
  | zero =>
      rcases enough with allowed | few
      · rw [zero]
        exact .throw fun _ => allowed _ _
      · exact absurd few (Nat.not_lt_zero _)
  | succ handovers induction =>
      rw [succ]
      apply (asked _ _ called).bind
      rintro other _ ⟨rfl, calledOther, later⟩
      split
      · exact .pure (.refl _ _)
      · rename_i different
        apply (kept.keeps_pushVisitor calledOther).bind
        rintro _ _ ⟨rfl, rfl⟩
        have enoughLater : contract.Tolerates .outOfFuel ∨ contract.rank other < handovers := by
          rcases later with same | allowed | smaller
          · exact absurd same different
          · exact .inl allowed
          · exact enough.imp_right fun few => by omega
        apply (induction calledOther enoughLater).weaken
        intro _ _ pushes
        exact (Pushes.push calledOther).trans pushes

theorem keeps_callBeginMessage (kept : contract.KeptBy context)
    (called : contract.called traverser.visitor) :
    contract.invariant.Keeps (callBeginMessage context traverser) pending
      (contract.Pushes traverser pending) :=
  kept.keeps_handovers kept.beginMessage (callBeginMessageWithin context) (fun _ => rfl)
    (fun _ _ => rfl) called (kept.handovers _ called)

theorem keeps_incrementDepth (kept : contract.KeptBy context) (number : Int) (wireType : Nat)
    (called : contract.called traverser.visitor) :
    contract.invariant.Keeps
      (incrementDepthAndCallBeginField context number wireType traverser) pending
      fun after next => ∃ visitors : List Visitor,
        (∀ visitor ∈ visitors, contract.called visitor) ∧ after = traverser.inside visitors ∧
          next = visitors ++ pending := by
  rw [incrementDepthAndCallBeginField_eq]
  have isCalled : contract.called (traverser.inside []).visitor := called
  have handsOver : contract.invariant.Keeps (callBeginField context context.handovers number
      wireType (traverser.inside [])) pending
      (contract.Pushes (traverser.inside []) pending) :=
    kept.keeps_handovers (fun visitor pending => kept.beginField visitor pending number wireType)
      (fun handovers => callBeginField context handovers number wireType) (fun _ => rfl)
      (fun _ _ => rfl) isCalled (kept.handovers _ isCalled)
  apply handsOver.weaken
  rintro _ _ ⟨visitors, allCalled, rfl, rfl⟩
  refine ⟨visitors, allCalled, ?_, rfl⟩
  rw [depth_inside, inside, withPushed_append, List.append_nil]
  rfl

omit [DecidableEq Visitor] in
theorem pushes_of_back
    {program : Program (World Memory Stream) (ProtobufTraverser Visitor × Stream)}
    (keeps : contract.invariant.Keeps program pending
      fun scanned next => next = pending ∧ scanned.1 = traverser) :
    contract.invariant.Keeps program pending
      fun scanned next => contract.Pushes traverser pending scanned.1 next := by
  apply keeps.weaken
  rintro ⟨_, last⟩ _ ⟨rfl, rfl⟩
  exact .refl _ _

variable [CodedInputStream Stream] [LawfulCodedInputStream Stream]

theorem keeps_packedTurn (kept : contract.KeptBy context)
    (settled : traverser.Settled context.visitors.noOp)
    (called : contract.called traverser.visitor) (field : FieldInfo) (stream : Stream) :
    contract.invariant.Keeps (packedTurn context field traverser stream) pending
      fun turned next => next = pending ∧ turned.2.1 = traverser := by
  apply (kept.keeps_readFieldValueOrSize field stream).bind
  rintro ⟨header, rest⟩ _ ⟨rfl, _⟩
  apply (kept.keeps_incrementDepth _ _ called).bind
  rintro _ _ ⟨visitors, allCalled, rfl, rfl⟩
  apply (kept.readPrimitive _ _ _ (called_inside called allCalled)).bind
  rintro _ _ rfl
  apply (kept.keeps_decrement settled called allCalled).bind
  rintro _ _ ⟨rfl, rfl⟩
  exact .pure ⟨rfl, rfl⟩

theorem keeps_readPackedElements (kept : contract.KeptBy context)
    (settled : traverser.Settled context.visitors.noOp)
    (called : contract.called traverser.visitor) {fuel : Nat} (field : FieldInfo)
    {stream : Stream} (enough : contract.Enough fuel stream) :
    contract.invariant.Keeps (readPackedElements context fuel field traverser stream) pending
      fun scanned next => next = pending ∧ scanned.1 = traverser := by
  induction fuel generalizing field stream with
  | zero =>
      rcases enough with allowed | few
      · exact .throw fun _ => allowed _ _
      · exact absurd few.1 (Nat.not_lt_zero _)
  | succ fuel induction =>
      rw [readPackedElements_succ]
      split
      · apply ((kept.keeps_packedTurn settled called field stream).and
          (yields_packedTurn .trivial context field traverser stream)).bind
        rintro ⟨header, _, rest⟩ _ ⟨⟨rfl, rfl⟩, count, positive, moves⟩
        exact induction header (enough.after moves positive)
      · exact .pure ⟨rfl, rfl⟩

theorem keeps_readPacked (kept : contract.KeptBy context)
    (settled : traverser.Settled context.visitors.noOp)
    (called : contract.called traverser.visitor) {fuel : Nat} {stream : Stream}
    (enough : contract.Enough fuel stream) (number : Int) (wireType : Nat) {size : Int}
    (contained : contract.Tolerates .outOfFuel ∨ Contained stream size) :
    contract.invariant.Keeps (readPacked context fuel number size wireType traverser stream)
      pending fun scanned next => next = pending ∧ scanned.1 = traverser := by
  apply (keeps_declareFieldInfo number wireType).bind
  rintro field _ ⟨rfl, _, _⟩
  have enoughPushed : contract.Enough fuel (CodedInputStream.pushLimit size stream).2 := by
    rcases contained with allowed | contained
    · exact .inl allowed
    · exact enough.within contained.pushLimit
  apply (kept.keeps_readPackedElements settled called field enoughPushed).bind
  rintro ⟨_, last⟩ _ ⟨rfl, rfl⟩
  exact .pure ⟨rfl, rfl⟩

/-- A scan of a message level pushes visitors where the traverser stands. -/
def LevelKept (contract : ScanContract Visitor Memory)
    (context : ScanContext Visitor Memory Stream) (fuel : Nat)
    (scanMessage : ProtobufTraverser Visitor → Stream →
      Program (World Memory Stream) (ProtobufTraverser Visitor × Stream)) : Prop :=
  ∀ {traverser : ProtobufTraverser Visitor} {pending : List Visitor} {stream : Stream},
    traverser.Settled context.visitors.noOp → contract.called traverser.visitor →
    contract.Enough fuel stream →
    contract.invariant.Keeps (scanMessage traverser stream) pending fun scanned next =>
      contract.Pushes traverser pending scanned.1 next

theorem keeps_treatField (kept : contract.KeptBy context)
    (settled : traverser.Settled context.visitors.noOp)
    (called : contract.called traverser.visitor) {fuel : Nat} {stream : Stream}
    (enough : contract.Enough fuel stream)
    {scanMessage : ProtobufTraverser Visitor → Stream →
      Program (World Memory Stream) (ProtobufTraverser Visitor × Stream)}
    (level : LevelKept contract context fuel scanMessage)
    (treatment : LengthDelimitedFieldTreatment) {field : FieldInfo}
    (contained : contract.Tolerates .outOfFuel ∨ Contained stream field.value.asSize) :
    contract.invariant.Keeps
      (treatField context fuel scanMessage treatment field traverser stream) pending
      fun scanned next => contract.Pushes traverser pending scanned.1 next := by
  cases treatment with
  | skip => exact .pure (.refl _ _)
  | buffer =>
      exact pushes_of_back (kept.keeps_contents enough contained
        (fun contents => kept.bufferedValue _ _ contents called) _)
  | asString =>
      exact pushes_of_back (kept.keeps_contents enough contained
        (fun contents _ => kept.readString _ _ contents called) _)
  | asBytes =>
      exact pushes_of_back (kept.keeps_contents enough contained
        (fun contents _ => kept.readBytes _ _ contents called) _)
  | asSubmessage =>
      simp only [treatField]
      split
      · exact .throw fun _ => kept.recursionDepthExceeded _ _
      · apply (kept.beginMessage _ _ called).bind
        rintro _ _ ⟨rfl, _⟩
        have enoughPushed : contract.Enough fuel
            (CodedInputStream.incrementRecursionDepthAndPushLimit field.value.asSize
              stream).2 := by
          rcases contained with allowed | contained
          · exact .inl allowed
          · exact enough.within contained.incrementRecursionDepth
        apply (level settled called enoughPushed).bind
        rintro ⟨scanned, last⟩ _ pushes
        exact .pure pushes
  | asPackedVarint =>
      exact pushes_of_back (kept.keeps_readPacked settled called enough field.number 0 contained)
  | asPacked32 =>
      exact pushes_of_back (kept.keeps_readPacked settled called enough field.number 5 contained)
  | asPacked64 =>
      exact pushes_of_back (kept.keeps_readPacked settled called enough field.number 1 contained)

theorem keeps_scanFieldWith (kept : contract.KeptBy context)
    (settled : traverser.Settled context.visitors.noOp)
    (called : contract.called traverser.visitor) {fuel : Nat} {stream : Stream}
    (enough : contract.Enough fuel stream)
    {scanMessage : ProtobufTraverser Visitor → Stream →
      Program (World Memory Stream) (ProtobufTraverser Visitor × Stream)}
    (level : LevelKept contract context fuel scanMessage) {field : FieldInfo}
    (contained : field.wireType = 2 →
      contract.Tolerates .outOfFuel ∨ Contained stream field.value.asSize) :
    contract.invariant.Keeps (scanFieldWith context fuel scanMessage field traverser stream)
      pending fun scanned next => contract.Pushes traverser pending scanned.1 next := by
  unfold scanFieldWith
  split
  · apply (kept.readPrimitive _ _ field called).bind
    rintro _ _ rfl
    exact .pure (.refl _ _)
  · rename_i notPrimitive
    have contained := contained (not_not.mp notPrimitive)
    apply (kept.readLengthDelimitedField _ _ field called).bind
    rintro ⟨treatment, visitor⟩ _ ⟨rfl, calledVisitor⟩
    simp only
    split
    · exact kept.keeps_treatField settled called enough level treatment contained
    · apply (kept.keeps_pushVisitor calledVisitor).bind
      rintro _ _ ⟨rfl, rfl⟩
      have onTop : (traverser.withPushed traverser.depth [visitor]).Settled
          context.visitors.noOp := settled.withPushed [visitor]
      apply (kept.keeps_incrementDepth _ _ calledVisitor).bind
      rintro _ _ ⟨visitors, allCalled, rfl, rfl⟩
      apply (kept.keeps_treatField (onTop.inside visitors)
        (called_inside calledVisitor allCalled) enough level treatment contained).bind
      rintro ⟨_, last⟩ _ pushes
      rcases pushes.inside allCalled with ⟨both, calledBoth, rfl, rfl⟩
      apply (kept.keeps_decrement onTop calledVisitor calledBoth).bind
      rintro _ _ ⟨rfl, rfl⟩
      exact .pure (.push calledVisitor)

theorem keeps_scanMessageWith (kept : contract.KeptBy context) {fuel : Nat}
    {scanFields : ProtobufTraverser Visitor → Stream →
      Program (World Memory Stream) (ProtobufTraverser Visitor × Stream)}
    (level : LevelKept contract context fuel scanFields) :
    LevelKept contract context fuel (scanMessageWith context scanFields) := by
  intro traverser pending stream settled called enough
  apply (keeps_record (.enterMessage stream)).bind
  rintro _ _ rfl
  apply (kept.keeps_callBeginMessage called).bind
  intro begun next pushes
  apply (level (pushes.settled settled) (pushes.called called) enough).bind
  rintro scanned last pushesLater
  apply (keeps_record .leaveMessage).bind
  rintro _ _ rfl
  exact .pure (pushes.trans pushesLater)

theorem keeps_messageTurn (kept : contract.KeptBy context)
    (settled : traverser.Settled context.visitors.noOp)
    (called : contract.called traverser.visitor) {fuel : Nat} {stream : Stream}
    (enough : contract.Enough fuel stream)
    (level : LevelKept contract context fuel (scanMessage context fuel)) (tag : UInt32) :
    contract.invariant.Keeps (messageTurn context fuel tag traverser stream) pending
      fun turned next => next = pending ∧ turned.1 = traverser := by
  apply (keeps_declareFieldInfo _ _).bind
  rintro declared _ ⟨rfl, _, _⟩
  apply (kept.keeps_readFieldValueOrSize declared stream).bind
  rintro ⟨header, rest⟩ _ ⟨rfl, _, sameType, ⟨count, _, moves⟩, sized⟩
  have contained : header.wireType = 2 →
      contract.Tolerates .outOfFuel ∨ Contained rest header.value.asSize := by
    intro lengthDelimited
    rcases sized (sameType ▸ lengthDelimited) with ⟨size, small, isSize⟩
    rw [isSize]
    exact .inr (contained_natural rest small)
  have enoughRest : contract.Enough fuel rest := by
    apply enough.within
    rw [moves.left_length]
    exact Nat.sub_le ..
  apply (kept.keeps_incrementDepth _ _ called).bind
  rintro _ _ ⟨visitors, allCalled, rfl, rfl⟩
  apply (kept.keeps_scanFieldWith (settled.inside visitors) (called_inside called allCalled)
    enoughRest level contained).bind
  rintro ⟨_, last⟩ _ pushes
  rcases pushes.inside allCalled with ⟨both, calledBoth, rfl, rfl⟩
  apply (kept.keeps_decrement settled called calledBoth).bind
  rintro _ _ ⟨rfl, rfl⟩
  exact .pure ⟨rfl, rfl⟩

theorem keeps_scanFields (kept : contract.KeptBy context)
    (settled : traverser.Settled context.visitors.noOp)
    (called : contract.called traverser.visitor) {fuel : Nat} {stream : Stream}
    (enough : contract.Enough fuel stream) :
    contract.invariant.Keeps (scanFields context fuel traverser stream) pending
      fun scanned next => next = pending ∧ scanned.1 = traverser := by
  induction fuel generalizing traverser pending stream with
  | zero =>
      rcases enough with allowed | few
      · exact .throw fun _ => allowed _ _
      · exact absurd few.1 (Nat.not_lt_zero _)
  | succ fuel induction =>
      have level : LevelKept contract context fuel (scanMessage context fuel) := by
        apply kept.keeps_scanMessageWith
        intro traverser pending stream settled called enough
        exact pushes_of_back (induction settled called enough)
      rw [scanFields_succ]
      rcases readTag_cases .trivial stream with
        ⟨nonzero, count, positive, moves⟩ | ⟨zero, whole, _⟩ | ⟨zero, short⟩
      · rw [if_neg nonzero]
        have enoughRest := enough.after moves positive
        apply ((kept.keeps_messageTurn settled called enoughRest level _).and
          (yields_messageTurn .trivial context (scansLevel_scanMessage .trivial context fuel) _
            traverser _)).bind
        rintro ⟨_, last⟩ _ ⟨⟨rfl, rfl⟩, taken, _, movesTurn⟩
        exact induction settled called
          (enough.after (moves.trans movesTurn) (Nat.add_pos_left positive taken))
      · rw [if_pos zero, if_pos whole]
        exact .pure ⟨rfl, rfl⟩
      · rw [if_pos zero, short]
        exact .throw fun _ => kept.badProto _ _ _

theorem keeps_scanMessage (kept : contract.KeptBy context) (fuel : Nat) :
    LevelKept contract context fuel (scanMessage context fuel) := by
  apply kept.keeps_scanMessageWith
  intro traverser pending stream settled called enough
  exact pushes_of_back (kept.keeps_scanFields settled called enough)

theorem keeps_scanField (kept : contract.KeptBy context)
    (settled : traverser.Settled context.visitors.noOp)
    (called : contract.called traverser.visitor) {fuel : Nat} {stream : Stream}
    (enough : contract.Enough fuel stream) {field : FieldInfo}
    (contained : field.wireType = 2 →
      contract.Tolerates .outOfFuel ∨ Contained stream field.value.asSize) :
    contract.invariant.Keeps (scanField context fuel field traverser stream) pending
      fun scanned next => contract.Pushes traverser pending scanned.1 next :=
  kept.keeps_scanFieldWith settled called enough (kept.keeps_scanMessage fuel) contained

end KeptBy

end ScanContract

end PostgresProtobuf
