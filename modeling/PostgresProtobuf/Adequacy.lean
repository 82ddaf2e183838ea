import PostgresProtobuf.DescendAdequacy
import PostgresProtobuf.EntriesAdequacy
import PostgresProtobuf.LookupAdequacy

/-! # A run realizes the meaning of its chain

By induction on the parts of the path. A map filter scans the rest of the path on
a traverser of its own, one level of nesting deeper. -/

namespace PostgresProtobuf

open Foundation ChainVisitor

variable {Stream : Type} [CodedInputStream Stream] [LawfulCodedInputStream Stream]
variable {State : Type}

open LawfulCodedInputStream (view view_ofBytes)
open ProtobufTraverser

/-! ## A traverser of its own -/

theorem left_ofBytes (Stream : Type) [CodedInputStream Stream]
    [LawfulCodedInputStream Stream] (bytes : Bytes) :
    (view (CodedInputStream.ofBytes bytes : Stream)).left = bytes := by
  simp [view_ofBytes, StreamView.left]

section

variable {setting : Setting State}
variable {context : ScanContext VisitorPointer QueryMemory Stream}
variable {forward : VisitorPointer → FieldInfo → StdString →
  Program (QueryWorld Stream) Unit}
variable {limit : Nat} {delivery : Delivery State} {resting : Resting State}

omit [CodedInputStream Stream] [LawfulCodedInputStream Stream] in
theorem popVisitor_eq (traverser : ProtobufTraverser VisitorPointer)
    {top : StackElement VisitorPointer} {below : List (StackElement VisitorPointer)}
    (stack : traverser.visitorStack = top :: below) {world after : QueryWorld Stream}
    (pops : context.visitors.popped top.visitor world = .ok () after) :
    ∃ left, popVisitor context traverser world = .ok left after := by
  simp only [popVisitor, stack]
  cases below with
  | nil => exact ⟨_, Program.bind_ok pops⟩
  | cons next below => exact ⟨_, Program.bind_ok pops⟩

def alone (context : ScanContext VisitorPointer QueryMemory Stream)
    (visitor : VisitorPointer) : ProtobufTraverser VisitorPointer :=
  (ProtobufTraverser.new context.visitors).withPushed 0 [visitor]

omit [CodedInputStream Stream] [LawfulCodedInputStream Stream] in
theorem Equipped.pushVisitor_new (equipped : Equipped setting context forward)
    (visitor : VisitorPointer) (world : QueryWorld Stream) :
    pushVisitor context visitor (ProtobufTraverser.new context.visitors) world =
      .ok (alone context visitor) world := by
  rw [ProtobufTraverser.pushVisitor_eq, equipped.visitors]
  rfl

theorem Equipped.popped_loose (equipped : Equipped setting context forward)
    {front : List ChainVisitor} {world : QueryWorld Stream} {state : State}
    (loose : RestsBehind (Loose resting) front state world) :
    ∃ after, context.visitors.popped (some (front.length + 1)) world = .ok () after ∧
      (runRecorder setting.knowledge.textless).Records world [] after ∧
        RestsBehind resting front state after := by
  rcases loose with ⟨_, holds, head, second, rest, rfl, _, selects | ⟨stateless, rests⟩⟩
  · rcases selects with ⟨selector, rfl, rests⟩
    have split : world.memory.visitors =
        (front ++ [head]) ++ fieldSelector selector :: rest := by simpa using holds
    have pops := popped_selector setting.utils setting.binaryToJsonString forward split
    rw [← equipped.visitors, List.length_append] at pops
    exact ⟨_, pops, runRecorder_withVisitors .., _, List.append_assoc .., rests⟩
  · have split : world.memory.visitors = (front ++ [head]) ++ second :: rest := by
      simpa using holds
    have pops := popped_stateless setting.utils setting.binaryToJsonString forward stateless
      split
    rw [← equipped.visitors, List.length_append] at pops
    exact ⟨_, pops, (runRecorder _).nil world, _, holds, rests⟩

theorem Receives.scansAlone
    (receives : Receives context setting.knowledge limit delivery resting)
    (equipped : Equipped setting context forward)
    (budgetEq : setting.recursionLimit = CodedInputStream.recursionLimit Stream)
    (front : List ChainVisitor) {value : WireValue} {header : FieldInfo}
    {contents : StdString} (world : QueryWorld Stream) {state : State}
    (heads : Heads setting.knowledge value header) (whole : Whole limit value contents)
    (rests : RestsBehind resting front state world) :
    Realizes (runRecorder setting.knowledge.textless)
      (delivery.field setting.recursionLimit value) state
      (do let (traverser, _) ← scanField context limit header
            (alone context (some front.length))
            (CodedInputStream.ofBytes contents : Stream)
          let _ ← popVisitor context traverser
          return ()) world
      fun _ after next => RestsBehind resting front next after := by
  have pops : ∀ {world : QueryWorld Stream} {state : State},
      RestsBehind resting front state world →
      context.visitors.popped (some front.length) world = .ok () world := by
    rintro world state ⟨_, holds, rests⟩
    rcases receives.head _ _ rests with ⟨visitor, rest, rfl, stateless⟩
    rw [equipped.visitors]
    exact popped_stateless _ _ _ stateless holds
  by_cases lengthDelimited : value.wireType = 2
  · cases value with
    | lengthDelimited size payload =>
        rcases whole with ⟨rfl, sameSize, small, short⟩
        have left := left_ofBytes Stream contents
        have scanned := receives.lengthDelimited front size contents header limit
          setting.recursionLimit (alone context (some front.length))
          (CodedInputStream.ofBytes contents) world state (Nat.le_refl limit)
          (by rw [left]; exact short) (by rw [view_ofBytes, budgetEq])
          ⟨small, by rw [left, ← sameSize, List.take_length]⟩ heads rfl rests
        refine scanned.andSilent ?_
        rintro ⟨_, streamAfter⟩ after next ⟨_, ⟨rfl, restsAfter⟩ | ⟨rfl, loose⟩⟩
        · rcases popVisitor_eq (alone context (some front.length)) rfl (pops restsAfter) with
            ⟨_, runs⟩
          exact ⟨_, _, Program.bind_ok runs, (runRecorder _).nil after, restsAfter⟩
        · rcases equipped.popped_loose loose with ⟨last, poppedRuns, records, restsLast⟩
          rcases popVisitor_eq ((alone context (some front.length)).withPushed
            (alone context (some front.length)).depth [some (front.length + 1)]) rfl
            poppedRuns with ⟨_, runs⟩
          exact ⟨_, _, Program.bind_ok runs, records, restsLast⟩
    | _ => simp [WireValue.wireType] at lengthDelimited
  · have primitive : header.wireType ≠ 2 := heads.1 ▸ lengthDelimited
    simp only [scanField, scanFieldWith, ne_eq, primitive, not_false_eq_true, if_true,
      bind_assoc, pure_bind]
    have reads := receives.primitive front value header setting.recursionLimit world state
      lengthDelimited heads rests
    refine reads.andSilent ?_
    rintro _ after next restsAfter
    rcases popVisitor_eq (alone context (some front.length)) rfl (pops restsAfter) with
      ⟨_, runs⟩
    exact ⟨_, _, Program.bind_ok runs, (runRecorder _).nil after, restsAfter⟩

theorem Receives.forwards
    (receives : Receives context setting.knowledge limit delivery resting)
    (equipped : Equipped setting context forward)
    (budgetEq : setting.recursionLimit = CodedInputStream.recursionLimit Stream) :
    Forwards (forwardBufferedValue context limit) setting limit delivery resting := by
  intro front value header contents world state heads whole rests
  refine Realizes.silent (equipped.pushVisitor_new ..) ((runRecorder _).nil world) ?_
  exact receives.scansAlone equipped budgetEq front world heads whole rests

end

/-! ## Chains -/

section

variable (setting : Setting State) (limit : Nat) (last : ChainEnd)

def endResting : Resting State :=
  if last.trailingDot then dotResting last.kind else emitterResting last.kind

def mapResting (position : Nat) (map : MapPart) (resting : Resting State) :
    Resting State :=
  match map with
  | .none => resting
  | .entries wantKeys type => entriesResting wantKeys type resting
  | .lookup _ wantedKeyField wantedKeyContents valueType =>
      lookupResting setting.knowledge limit wantedKeyField wantedKeyContents valueType
        position resting

def chainResting : (position : Nat) → List ChainPart → Resting State
  | _, [] => endResting last
  | position, part :: parts =>
      partResting part (mapResting setting limit (position + 2) part.map
        (chainResting (position + 2 + Setting.mapWidth part.map) parts))

variable {setting limit last}

theorem untouched_map {position other : Nat} (different : position ≠ other) (map : MapPart)
    {resting : Resting State} (untouched : Untouched setting.knowledge other resting) :
    Untouched setting.knowledge other (mapResting setting limit position map resting) := by
  intro state suffix rests
  cases map with
  | none => exact untouched state suffix rests
  | entries wantKeys type =>
      rcases rests with ⟨rest, rfl, rests⟩
      exact ⟨rest, rfl, untouched state rest rests⟩
  | lookup keyType wantedKeyField wantedKeyContents valueType =>
      rcases rests with ⟨filter, rest, rfl, between, cleared, rests⟩
      have kept := setting.knowledge.pristine_touch other position state different
      refine ⟨filter, rest, rfl, ?_, fun known => cleared (kept ▸ known),
        untouched state rest rests⟩
      unfold restingBuffers at between ⊢
      rw [kept]
      exact between

theorem untouched_chain {position other : Nat} (before : other < position)
    (parts : List ChainPart) :
    Untouched setting.knowledge other (chainResting setting limit last position parts) := by
  induction parts generalizing position with
  | nil =>
      intro state suffix rests
      simp only [chainResting, endResting] at rests ⊢
      split
      · rwa [if_pos ‹_›] at rests
      · rwa [if_neg ‹_›] at rests
  | cons part parts induction =>
      rintro state suffix ⟨rest, rfl, rests⟩
      exact ⟨rest, rfl, untouched_map (by omega) part.map
        (induction (by omega)) state rest rests⟩

def forwardWithin (environment : RunEnvironment) (limit handovers : Nat) :
    (nesting : Nat) → VisitorPointer → FieldInfo → StdString →
      Program (QueryWorld Stream) Unit
  | 0 => fun _ _ _ => throw .outOfFuel
  | nesting + 1 =>
      forwardBufferedValue (scanContext environment limit handovers nesting) limit

structure Matches (setting : Setting State) (environment : RunEnvironment) (Stream : Type)
    [CodedInputStream Stream] : Prop where
  utils : environment.utils = setting.utils
  binaryToJsonString : environment.binaryToJsonString = setting.binaryToJsonString
  possible : ∀ count, setting.knowledge.Possible (environment.localBits count)
  recursionLimit : setting.recursionLimit = CodedInputStream.recursionLimit Stream

variable {environment : RunEnvironment}

omit [LawfulCodedInputStream Stream] in
theorem Matches.equipped (matching : Matches setting environment Stream) (limit : Nat)
    {handovers : Nat} (enough : 1 < handovers) (nesting : Nat) :
    Equipped setting
      (scanContext environment limit handovers nesting :
        ScanContext VisitorPointer QueryMemory Stream)
      (forwardWithin environment limit handovers nesting) := by
  cases nesting with
  | zero =>
      exact ⟨by rw [scanContext, ← matching.utils, ← matching.binaryToJsonString]; rfl,
        matching.possible, enough⟩
  | succ nesting =>
      exact ⟨by rw [scanContext, ← matching.utils, ← matching.binaryToJsonString]; rfl,
        matching.possible, enough⟩

/-- The chain from a position on realizes its meaning, by induction on the parts. -/
theorem receives_chain (matching : Matches setting environment Stream) {handovers : Nat}
    (enough : 1 < handovers) (parts : List ChainPart) :
    ∀ position nesting, parts.length ≤ nesting →
      Receives
        (scanContext environment limit handovers nesting :
          ScanContext VisitorPointer QueryMemory Stream)
        setting.knowledge limit (setting.chain last position parts)
        (chainResting setting limit last position parts) := by
  induction parts with
  | nil =>
      intro position nesting _
      have equipped := matching.equipped limit enough nesting
      unfold chainResting endResting Setting.chain Setting.chainEnd
      split
      · exact receives_dot equipped last.kind_ne
      · exact receives_emitter equipped last.kind_ne limit
  | cons part parts induction =>
      intro position nesting deep
      have equipped := matching.equipped limit enough nesting
      have rest := induction (position + 2 + Setting.mapWidth part.map)
      have shallower : parts.length ≤ nesting := Nat.le_of_succ_le deep
      have serves := (rest nesting shallower).serves equipped
      refine receives_part equipped ?_ ?_
      · cases map : part.map with
        | none => simpa only [map, mapResting, Setting.mapPart] using serves
        | entries wantKeys type =>
            simp only [map] at serves
            exact serves_entries equipped serves
        | lookup keyType wantedKeyField wantedKeyContents valueType =>
            simp only [map] at serves rest
            cases nesting with
            | zero => exact absurd deep (Nat.not_succ_le_zero _)
            | succ nesting =>
                have inner := matching.equipped limit enough nesting
                have forwards := (rest nesting (Nat.le_of_succ_le_succ deep)).forwards inner
                  matching.recursionLimit
                exact serves_filter equipped serves forwards
                  (untouched_chain (by simp only [Setting.mapWidth]; omega) parts)
      · intro notMessage
        have noMap : part.map = .none := by
          by_contra isMap
          exact notMessage (part.map_type isMap)
        simpa only [noMap, mapResting, Setting.mapPart] using rest nesting shallower

/-! ## Runs -/

theorem heads_ofPayload (knowledge : Knowledge State) (payload : Bytes) {bits : UInt64}
    (possible : knowledge.Possible bits) :
    Heads knowledge (.ofPayload payload)
      ⟨0, 2, FieldInfo.Value.setSize ⟨bits⟩ payload.length⟩ :=
  ⟨rfl, bits, possible, rfl⟩

theorem whole_ofPayload (protoData : Bytea) :
    Whole (protoData.data.length + 1) (.ofPayload protoData.data) protoData.data :=
  ⟨rfl, rfl, protoData.size_lt, Nat.lt_succ_self _⟩

theorem scanRoot_realizes (matching : Matches setting environment Stream)
    {handovers : Nat} (enough : 1 < handovers) {parts : List ChainPart} {nesting : Nat}
    (deep : parts.length ≤ nesting) (protoData : Bytea) {world : QueryWorld Stream}
    {state : State}
    (rests : chainResting setting (protoData.data.length + 1) last 0 parts state
      world.memory.visitors) :
    Realizes (runRecorder setting.knowledge.textless) (setting.runs parts last protoData.data) state
      (scanRoot (scanContext environment (protoData.data.length + 1) handovers nesting)
        (protoData.data.length + 1) protoData) world
      fun _ after next =>
        chainResting setting (protoData.data.length + 1) last 0 parts next
          after.memory.visitors := by
  have equipped := matching.equipped (protoData.data.length + 1) enough nesting
  have receives : Receives
      (scanContext environment (protoData.data.length + 1) handovers nesting :
        ScanContext VisitorPointer QueryMemory Stream)
      setting.knowledge (protoData.data.length + 1) (setting.chain last 0 parts)
      (chainResting setting (protoData.data.length + 1) last 0 parts) :=
    receives_chain matching enough parts 0 nesting deep
  refine Realizes.silent (equipped.pushVisitor_new ..) ((runRecorder _).nil world) ?_
  refine Realizes.silent (declareFieldInfo_eq ..) (runRecorder_nil rfl rfl) ?_
  have heads := heads_ofPayload setting.knowledge protoData.data
    (equipped.possible world.locals)
  have whole := whole_ofPayload protoData
  have scanned := receives.scansAlone equipped matching.recursionLimit []
    { world with locals := world.locals + 1 } heads whole ⟨_, rfl, rests⟩
  refine scanned.weaken ?_
  rintro _ after next ⟨suffix, holds, restsAfter⟩
  rw [holds]
  exact restsAfter

end

end PostgresProtobuf
