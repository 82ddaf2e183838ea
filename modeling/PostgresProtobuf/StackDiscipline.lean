import PostgresProtobuf.QueryImpl
import PostgresProtobuf.ScanContracts

/-! # The discipline of the visitor stack

Whatever the visitors do, a turn of the loops of `ScanMessage` and `ReadPacked` that
completes gives the traverser back as it was, and the visitors that were pushed during it
are popped in reverse order. -/

namespace PostgresProtobuf

open Foundation

/-! ## Logs -/

inductive StackEvent (Visitor : Type)
  | pushed (visitor : Visitor)
  | popped (visitor : Visitor)
  deriving DecidableEq

variable {Visitor Memory Stream : Type}

section

variable [DecidableEq Visitor]

/-- The visitors that are pending after the events; none if another visitor than the last
one that was pushed is popped. -/
def replay : List Visitor → List (StackEvent Visitor) → Option (List Visitor)
  | pending, [] => some pending
  | pending, .pushed visitor :: events => replay (visitor :: pending) events
  | [], .popped _ :: _ => none
  | last :: pending, .popped visitor :: events =>
      if visitor = last then replay pending events else none

theorem replay_append (pending : List Visitor) (events others : List (StackEvent Visitor)) :
    replay pending (events ++ others) =
      (replay pending events).bind fun pending => replay pending others := by
  fun_induction replay pending events with
  | case1 pending => rfl
  | case2 pending visitor events induction => exact induction
  | case3 visitor events => rfl
  | case4 last pending events induction =>
      rw [List.cons_append, replay, if_pos rfl]
      exact induction
  | case5 last pending visitor events different =>
      rw [List.cons_append, replay, if_neg different]
      rfl

def Balanced (events : List (StackEvent Visitor)) : Prop :=
  replay [] events = some []

end

/-! ## Visitors with a log -/

def besideLog {Value : Type} (program : Program (World Memory Stream) Value) :
    Program (World (Memory × List (StackEvent Visitor)) Stream) Value := fun world =>
  match program ⟨world.memory.1, world.locals, world.scanned⟩ with
  | .ok value after => .ok value ⟨(after.memory, world.memory.2), after.locals, after.scanned⟩
  | .error exception after =>
      .error exception ⟨(after.memory, world.memory.2), after.locals, after.scanned⟩

def logEvent (event : StackEvent Visitor) :
    Program (World (Memory × List (StackEvent Visitor)) Stream) Unit :=
  modify fun world => { world with memory := (world.memory.1, world.memory.2 ++ [event]) }

def VisitorFamily.logged (family : VisitorFamily Visitor Memory Stream) :
    VisitorFamily Visitor (Memory × List (StackEvent Visitor)) Stream where
  noOp := family.noOp
  pushed visitor := do
    logEvent (.pushed visitor)
    besideLog (family.pushed visitor)
  beginField visitor number wireType := besideLog (family.beginField visitor number wireType)
  readPrimitive visitor field := besideLog (family.readPrimitive visitor field)
  readLengthDelimitedField visitor field :=
    besideLog (family.readLengthDelimitedField visitor field)
  readString visitor contents := besideLog (family.readString visitor contents)
  readBytes visitor contents := besideLog (family.readBytes visitor contents)
  bufferedValue visitor contents := besideLog (family.bufferedValue visitor contents)
  beginMessage visitor := besideLog (family.beginMessage visitor)
  endField visitor := besideLog (family.endField visitor)
  popped visitor := do
    logEvent (.popped visitor)
    besideLog (family.popped visitor)

def ScanContext.logged (context : ScanContext Visitor Memory Stream) :
    ScanContext Visitor (Memory × List (StackEvent Visitor)) Stream where
  visitors := context.visitors.logged
  localBits := context.localBits
  handovers := context.handovers

section

variable [DecidableEq Visitor]

/-- The log goes on from the given one with what leaves the visitors pending. Everything
may be thrown and any visitor may be called. -/
def loggedContract (log : List (StackEvent Visitor)) :
    ScanContract Visitor (Memory × List (StackEvent Visitor)) where
  holds pending memory :=
    ∃ events, memory.2 = log ++ events ∧ replay [] events = some pending
  allowed _ _ := True
  called _ := True
  rank _ := 0
  bound := 0

variable {log : List (StackEvent Visitor)} {pending : List Visitor}

theorem keeps_besideLog {Value : Type} {program : Program (World Memory Stream) Value} :
    (loggedContract log).invariant.Keeps (besideLog program) pending
      fun _ next => next = pending := by
  intro world holds
  unfold Meets besideLog
  split
  · rename_i runs
    split at runs
    · cases runs
      exact ⟨pending, holds, rfl⟩
    · cases runs
  · exact True.intro

theorem keeps_logEvent {event : StackEvent Visitor} {after : List Visitor}
    (goesOn : replay pending [event] = some after) :
    (loggedContract log).invariant.Keeps
      (logEvent event : Program (World (Memory × List (StackEvent Visitor)) Stream) Unit)
      pending fun _ next => next = after := by
  rintro world ⟨events, isLog, replays⟩
  refine ⟨after, ⟨events ++ [event], ?_, ?_⟩, rfl⟩
  · rw [← List.append_assoc, ← isLog]
  · rw [replay_append, replays]
    exact goesOn

theorem keptBy_logged (context : ScanContext Visitor Memory Stream)
    (log : List (StackEvent Visitor)) : (loggedContract log).KeptBy context.logged where
  badProto _ _ _ _ := True.intro
  recursionDepthExceeded _ _ _ := True.intro
  handovers _ _ := .inl fun _ _ _ => True.intro
  pushed visitor pending _ := by
    have grows : replay pending [.pushed visitor] = some (visitor :: pending) := rfl
    apply (keeps_logEvent grows).bind
    rintro _ _ rfl
    exact keeps_besideLog
  popped visitor pending _ := by
    have shrinks : replay (visitor :: pending) [.popped visitor] = some pending := if_pos rfl
    apply (keeps_logEvent shrinks).bind
    rintro _ _ rfl
    exact keeps_besideLog
  beginField visitor pending number wireType _ := by
    apply keeps_besideLog.weaken
    exact fun _ _ same => ⟨same, True.intro, .inr (.inl fun _ _ _ => True.intro)⟩
  beginMessage visitor pending _ := by
    apply keeps_besideLog.weaken
    exact fun _ _ same => ⟨same, True.intro, .inr (.inl fun _ _ _ => True.intro)⟩
  readLengthDelimitedField visitor pending field _ := by
    apply keeps_besideLog.weaken
    exact fun _ _ same => ⟨same, True.intro⟩
  readPrimitive _ _ _ _ := keeps_besideLog
  readString _ _ _ _ := keeps_besideLog
  readBytes _ _ _ _ := keeps_besideLog
  bufferedValue _ _ _ _ _ := keeps_besideLog
  endField _ _ _ := keeps_besideLog

end

/-! ## Reachable traversers -/

section

open ProtobufTraverser

variable [DecidableEq Visitor]

inductive Reachable (context : ScanContext Visitor Memory Stream) :
    ProtobufTraverser Visitor → Prop
  | new : Reachable context (.new context.visitors)
  | push {traverser after visitor} {world last : World Memory Stream}
      (before : Reachable context traverser)
      (pushes : pushVisitor context visitor traverser world = .ok after last) :
      Reachable context after
  | beginField {traverser after number wireType} {world last : World Memory Stream}
      (before : Reachable context traverser)
      (begins : incrementDepthAndCallBeginField context number wireType traverser world =
        .ok after last) : Reachable context after
  | beginMessage {traverser after} {world last : World Memory Stream}
      (before : Reachable context traverser)
      (begins : callBeginMessage context traverser world = .ok after last) :
      Reachable context after
  | endField {traverser after} {world last : World Memory Stream}
      (before : Reachable context traverser)
      (ends : decrementDepthAndEndFieldAndPopVisitors context traverser world =
        .ok after last) : Reachable context after

namespace ProtobufTraverser

variable (context : ScanContext Visitor Memory Stream) {traverser : ProtobufTraverser Visitor}

omit [DecidableEq Visitor] in
theorem yields_pushVisitor (settled : traverser.Settled context.visitors.noOp)
    (visitor : Visitor) :
    Yields (pushVisitor context visitor traverser) (Settled context.visitors.noOp) := by
  rw [pushVisitor_eq]
  apply Yields.after
  intro _
  exact .pure (settled.withPushed [visitor])

theorem yields_callBeginField (handovers : Nat) (number : Int) (wireType : Nat)
    (settled : traverser.Settled context.visitors.noOp) :
    Yields (callBeginField context handovers number wireType traverser)
      (Settled context.visitors.noOp) := by
  induction handovers generalizing traverser with
  | zero => exact .throw _ _
  | succ handovers induction =>
      apply Yields.after
      intro visitor
      split
      · exact .pure settled
      · exact (yields_pushVisitor context settled visitor).bind fun _ => induction

theorem yields_callBeginMessageWithin (handovers : Nat)
    (settled : traverser.Settled context.visitors.noOp) :
    Yields (callBeginMessageWithin context handovers traverser)
      (Settled context.visitors.noOp) := by
  induction handovers generalizing traverser with
  | zero => exact .throw _ _
  | succ handovers induction =>
      apply Yields.after
      intro visitor
      split
      · exact .pure settled
      · exact (yields_pushVisitor context settled visitor).bind fun _ => induction

def OnTop (noOp : Visitor) (traverser : ProtobufTraverser Visitor) : Prop :=
  traverser.visitor = match traverser.visitorStack with
    | [] => noOp
    | top :: _ => top.visitor

omit [DecidableEq Visitor] in
theorem Settled.onTop {noOp : Visitor} (settled : traverser.Settled noOp) :
    traverser.OnTop noOp := by
  unfold Settled at settled
  unfold OnTop
  split
  · rename_i isEmpty
    rw [isEmpty] at settled
    exact settled
  · rename_i top below isStack
    rw [isStack] at settled
    exact settled.1.symm

omit [DecidableEq Visitor] in
theorem yields_endFieldAndPopVisitors (height : Nat)
    (enough : traverser.visitorStack.length ≤ height)
    (onTop : traverser.OnTop context.visitors.noOp) :
    Yields (endFieldAndPopVisitors context height traverser)
      (Settled context.visitors.noOp) := by
  induction height generalizing traverser with
  | zero =>
      have empty := List.eq_nil_of_length_eq_zero (Nat.le_zero.mp enough)
      apply Yields.pure
      unfold OnTop at onTop
      unfold Settled
      rw [empty] at onTop ⊢
      exact onTop
  | succ height induction =>
      rcases traverser with ⟨stack, visitor, depth⟩
      cases stack with
      | nil => exact .pure onTop
      | cons element below =>
          simp only [endFieldAndPopVisitors, popVisitor]
          split
          · simp only [bind_assoc]
            apply Yields.after
            intro _
            cases below with
            | nil =>
                simp only [pure_bind]
                apply Yields.after
                intro _
                exact induction (Nat.zero_le _) rfl
            | cons next others =>
                simp only [pure_bind]
                apply Yields.after
                intro _
                exact induction (by simpa using enough) rfl
          · rename_i shallow
            exact .pure ⟨onTop.symm, Int.not_lt.mp shallow⟩

end ProtobufTraverser

theorem Reachable.settled {context : ScanContext Visitor Memory Stream}
    {traverser : ProtobufTraverser Visitor} (reachable : Reachable context traverser) :
    traverser.Settled context.visitors.noOp := by
  induction reachable with
  | new => exact settled_new _
  | push _ pushes induction =>
      exact (yields_pushVisitor context induction _).returned pushes
  | @beginField traverser after number wireType world last _ begins induction =>
      exact (yields_callBeginField context context.handovers number wireType
        (induction.inside [])).returned begins
  | beginMessage _ begins induction =>
      exact (yields_callBeginMessageWithin context context.handovers induction).returned begins
  | @endField traverser after world last _ ends induction =>
      have yields : Yields (decrementDepthAndEndFieldAndPopVisitors context traverser)
          (Settled context.visitors.noOp) := by
        apply Yields.after
        intro _
        exact yields_endFieldAndPopVisitors context _ (Nat.le_refl _) induction.onTop
      exact yields.returned ends

/-! ## Turns -/

/-- A turn of either loop that completes gives the traverser back: its stack, its current
visitor and its depth. Meanwhile exactly the visitors that were pushed are popped, each
once and in reverse order. -/
theorem turns_balanced [CodedInputStream Stream] [LawfulCodedInputStream Stream]
    (context : ScanContext Visitor Memory Stream) {traverser : ProtobufTraverser Visitor}
    (reachable : Reachable context.logged traverser)
    (world : World (Memory × List (StackEvent Visitor)) Stream) (stream : Stream) :
    (∀ fuel tag after last,
      messageTurn context.logged fuel tag traverser stream world = .ok after last →
        after.1 = traverser ∧
          ∃ events, last.memory.2 = world.memory.2 ++ events ∧ Balanced events) ∧
    (∀ field after last,
      packedTurn context.logged field traverser stream world = .ok after last →
        after.2.1 = traverser ∧
          ∃ events, last.memory.2 = world.memory.2 ++ events ∧ Balanced events) := by
  have settled := reachable.settled
  have kept := keptBy_logged context world.memory.2
  have starts : (loggedContract world.memory.2).invariant.holds [] world :=
    ⟨[], (List.append_nil _).symm, rfl⟩
  refine ⟨?_, ?_⟩
  · intro fuel tag after last returns
    rcases (kept.keeps_messageTurn settled True.intro (.inl fun _ _ _ => True.intro)
      (kept.keeps_scanMessage fuel) tag).returned starts returns with
      ⟨_, holds, rfl, same⟩
    exact ⟨same, holds⟩
  · intro field after last returns
    rcases (kept.keeps_packedTurn settled True.intro field stream).returned starts returns with
      ⟨_, holds, rfl, same⟩
    exact ⟨same, holds⟩

/-- A string that its selector hands over to an emitter. -/
theorem turns_balanced_string :
    let visitors :=
      [.fieldSelector (.new 1 .string false), .emitter (.new (.primitive .string) none)]
    let context :=
      scanContext ⟨⟨fun _ => [], fun _ => []⟩, fun _ _ => none, fun _ => 0⟩ 4 3 0
    let traverser : ProtobufTraverser VisitorPointer := ⟨[⟨some 0, 0⟩], some 0, 0⟩
    let stream : ArrayStream := CodedInputStream.ofBytes [0x01, 0x41]
    ∃ after last, messageTurn context.logged 4 0x0a traverser stream
        ⟨(⟨visitors, []⟩, []), 0, []⟩ = .ok after last ∧
      after.1 = traverser ∧ ∃ events, last.memory.2 = [] ++ events ∧ Balanced events := by
  intro visitors context traverser stream
  have succeeds : (match messageTurn context.logged 4 0x0a traverser stream
      ⟨(⟨visitors, []⟩, []), 0, []⟩ with | .ok _ _ => true | .error _ _ => false) = true := by
    decide +kernel
  have reachable : Reachable context.logged traverser :=
    @Reachable.push _ _ ArrayStream _ context.logged (.new _) traverser (some 0)
      ⟨(⟨visitors, []⟩, []), 0, []⟩ ⟨(⟨visitors, []⟩, [.pushed (some 0)]), 0, []⟩ .new rfl
  split at succeeds
  · rename_i after last runs
    exact ⟨after, last, runs,
      (turns_balanced context reachable _ stream).1 4 0x0a after last runs⟩
  · cases succeeds

end

end PostgresProtobuf
