import PostgresProtobuf.SelectorAdequacy

/-! # Descending into a submessage

`DescendIntoSubmessage` pushes the visitor after it when the submessage begins. -/

namespace PostgresProtobuf

open Foundation ChainVisitor

variable {Stream : Type} [CodedInputStream Stream] [LawfulCodedInputStream Stream]
variable {State : Type}

open LawfulCodedInputStream (view)
open ProtobufTraverser

variable {setting : Setting State}
variable {context : ScanContext VisitorPointer QueryMemory Stream}
variable {forward : VisitorPointer → FieldInfo → StdString →
  Program (QueryWorld Stream) Unit}
variable {limit : Nat}

section

variable {Progress : Type}
variable {turn : Nat → Progress → WireField → Activity State × Progress}
variable {start : Progress} {resting : Resting State}
variable (Holds : List ChainVisitor → Progress → List ChainVisitor → State → Prop)

theorem receives_descend (equipped : Equipped setting context forward)
    (begins : ∀ front suffix state, resting state suffix →
      Holds front start (front ++ suffix) state ∧
      ∃ second rest, suffix = descendIntoSubmessage :: second :: rest ∧
        ∀ world : QueryWorld Stream, world.memory.visitors = front ++ suffix →
          context.visitors.beginMessage
            (some (front ++ [descendIntoSubmessage]).length) world =
            .ok (some (front ++ [descendIntoSubmessage]).length) world)
    (realize : ∀ front (traverser : ProtobufTraverser VisitorPointer) budget,
      traverser.Grounded →
      traverser.visitor = some (front ++ [descendIntoSubmessage]).length →
      TurnsRealize context setting.knowledge limit budget traverser (turn budget)
        (Holds front))
    (loosens : ∀ front progress visitors state, Holds front progress visitors state →
      ∃ suffix, visitors = front ++ suffix ∧ Loose resting state suffix) :
    Receives context setting.knowledge limit (Setting.descend turn start) resting where
  head state suffix rests := by
    rcases (begins [] suffix state rests).2 with ⟨second, rest, rfl, _⟩
    exact ⟨_, _, rfl, trivial⟩
  primitive front value header budget world state notLengthDelimited heads rests := by
    have same := rests
    rcases rests with ⟨suffix, holds, rests⟩
    rcases (begins front suffix state rests).2 with ⟨second, rest, rfl, _⟩
    have passes := readPrimitive_descend setting.utils setting.binaryToJsonString forward
      holds header
    rw [← equipped.visitors] at passes
    cases value with
    | lengthDelimited size payload => exact absurd rfl notLengthDelimited
    | _ => exact Realizes.of_silent passes ((runRecorder _).nil world) same
  lengthDelimited front size payload header fuel budget traverser stream world state within
      enough budgetEq carries heads top rests := by
    rcases rests with ⟨suffix, holds, rests⟩
    rcases begins front suffix state rests with ⟨starts, second, rest, rfl, stays⟩
    have chooses := readLengthDelimitedField_descend setting.utils
      setting.binaryToJsonString forward holds header
    rw [← equipped.visitors, ← top] at chooses
    have different : some (front ++ [descendIntoSubmessage]).length ≠ traverser.visitor := by
      rw [top]
      simp
    have beginMessage : ∀ world : QueryWorld Stream,
        world.memory.visitors = front ++ descendIntoSubmessage :: second :: rest →
        context.visitors.beginMessage traverser.visitor world =
          .ok (some (front ++ [descendIntoSubmessage]).length) world := by
      intro world holds
      rw [equipped.visitors, top]
      exact beginMessage_descend _ _ _ holds
    have pushes : ∀ world : QueryWorld Stream,
        world.memory.visitors = front ++ descendIntoSubmessage :: second :: rest →
        callBeginMessage context traverser world = .ok
          (traverser.withPushed traverser.depth
            [some (front ++ [descendIntoSubmessage]).length]) world := by
      intro world holds
      refine callBeginMessage_handsOver context traverser equipped.handovers different
        (beginMessage world holds) ?_ (stays world holds)
      rw [equipped.visitors]
      rfl
    refine Realizes.congr (scanField_stays context traverser fuel stream heads.1 chooses)
      ((runRecorder _).nil world) ?_
    have scanned := treatField_asSubmessage_realizes traverser start equipped.possible
      (fun lower _ => realize front
        (traverser.withPushed traverser.depth
          [some (front ++ [descendIntoSubmessage]).length]) lower
        ⟨_, _, rfl, rfl, Int.le_of_eq rfl⟩ rfl)
      (fun world holds => ⟨_, by
        rw [World.withVisitors_self holds]
        exact beginMessage world holds⟩)
      (fun world holds => by
        rw [World.withVisitors_self holds]
        exact pushes world holds)
      starts within enough budgetEq carries heads holds
    refine scanned.weaken ?_
    rintro ⟨last, streamAfter⟩ after next ⟨rfl, reaches, holdsAfter⟩
    rcases loosens _ _ _ _ holdsAfter with ⟨suffix, holdsAfter, loose⟩
    exact ⟨reaches, Or.inr ⟨by simp, suffix, holdsAfter, loose⟩⟩
  handed front type size payload header fuel scanMessage traverser stream world state
      notMessage carries heads top rests := by
    rcases rests with ⟨suffix, holds, rests⟩
    rcases (begins front suffix state rests).2 with ⟨second, rest, rfl, _⟩
    exact treatField_descend_realizes equipped notMessage carries heads top holds rests

end

/-! ## Before a field selector -/

def partResting (part : ChainPart) (resting : Resting State) : Resting State :=
  fun state suffix => ∃ rest,
    suffix = descendIntoSubmessage :: fieldSelector part.selector :: rest ∧
      resting state rest

theorem receives_part {next : Delivery State} {resting : Resting State} {part : ChainPart}
    (equipped : Equipped setting context forward)
    (serves : Serves context setting.knowledge limit next resting)
    (receives : part.type ≠ .message →
      Receives context setting.knowledge limit next resting) :
    Receives context setting.knowledge limit
      (Setting.descend (Setting.selectField part next) (0 : Int))
      (partResting part resting) := by
  refine receives_descend
    (fun front => Selecting part resting (front ++ [descendIntoSubmessage])) equipped ?_ ?_ ?_
  · rintro front suffix state ⟨rest, rfl, rests⟩
    refine ⟨⟨part.selector, rest, by simp, part.tracks_selector, rests⟩, _, rest, rfl, ?_⟩
    intro world holds
    rw [equipped.visitors]
    exact beginMessage_selector _ _ _ (by rw [holds, List.append_assoc]; rfl)
  · intro front traverser budget grounded top
    exact selectField_realizes equipped grounded top serves receives budget
  · rintro front index visitors state ⟨selector, suffix, holds, tracks, rests⟩
    refine ⟨descendIntoSubmessage :: fieldSelector selector :: suffix,
      by rw [holds, List.append_assoc]; rfl, _, _, _, rfl, trivial, Or.inl ⟨selector, rfl, ?_⟩⟩
    rw [tracks.popped_eq]
    exact ⟨suffix, rfl, rests⟩

/-! ## Before an emitter -/

def dotResting (kind : EmitterKind) : Resting State := fun _ suffix =>
  suffix = [descendIntoSubmessage, emitterObject kind]

theorem emitField_realizes (equipped : Equipped setting context forward)
    {kind : EmitterKind} (notMessage : kind ≠ .primitive .message)
    {front : List ChainVisitor} {traverser : ProtobufTraverser VisitorPointer}
    (grounded : traverser.Grounded) (top : traverser.visitor = some front.length)
    (budget : Nat) :
    TurnsRealize context setting.knowledge limit budget traverser
      (fun (_ : Unit) field => ((setting.emitter kind).field budget field.value, ()))
      (fun _ visitors _ => visitors = front ++ [emitterObject kind]) := by
  intro fuel _ field header stream world state _ _ _ carries _ heads holds
  have enough : 0 < context.handovers := Nat.lt_of_succ_lt equipped.handovers
  have receives := receives_emitter equipped notMessage limit
  have rests : RestsBehind (emitterResting kind) front state world := ⟨_, holds, rfl⟩
  have innerTop : (traverser.inside []).visitor = some front.length := top
  have calls := receives.callBeginField_eq equipped innerTop enough header.number
    header.wireType rests
  have ends : ∀ (after : QueryWorld Stream) (next : State),
      RestsBehind (emitterResting kind) front next after →
      decrementDepthAndEndFieldAndPopVisitors context (traverser.inside []) after =
          .ok traverser after ∧
        after.memory.visitors = front ++ [emitterObject kind] := by
    rintro after next ⟨_, afterHolds, rfl⟩
    refine ⟨?_, afterHolds⟩
    rw [decrementDepthAndEndFieldAndPopVisitors_inside context grounded]
    simp only [leaveVisitors, pure_bind]
    rw [equipped.visitors, top]
    have stateless : (emitterObject kind).Stateless := trivial
    exact Program.bind_ok (endField_stateless _ _ _ stateless afterHolds)
  by_cases lengthDelimited : field.value.wireType = 2
  · rcases field with ⟨number, value⟩
    cases value with
    | lengthDelimited size payload =>
        refine Realizes.silent calls ((runRecorder _).nil world) ?_
        refine (scanField_emitter_realizes equipped notMessage budget carries heads innerTop
          holds).andSilent ?_
        rintro ⟨_, streamAfter⟩ after next ⟨rfl, reaches, restsAfter⟩
        have closed := ends after next restsAfter
        exact ⟨_, _, Program.bind_ok closed.1, (runRecorder _).nil after, rfl, reaches, closed.2⟩
    | _ => simp [WireValue.wireType] at lengthDelimited
  · have primitive := heads.1 ▸ lengthDelimited
    have noPayload := WireValue.payload_eq_nil lengthDelimited
    rw [fieldTurn_of_wireType_ne context primitive]
    simp only [elementTurn, bind_assoc]
    refine Realizes.silent calls ((runRecorder _).nil world) ?_
    have emits := receives.primitive front field.value header budget world state
      lengthDelimited heads rests
    rw [← top] at emits
    refine emits.andSilent ?_
    rintro _ after next restsAfter
    have closed := ends after next restsAfter
    refine ⟨_, _, Program.bind_ok closed.1, (runRecorder _).nil after, rfl, ?_, closed.2⟩
    rw [noPayload]
    exact Reaches.refl stream

theorem receives_dot (equipped : Equipped setting context forward) {kind : EmitterKind}
    (notMessage : kind ≠ .primitive .message) :
    Receives context setting.knowledge limit
      (Setting.descend
        (fun budget (_ : Unit) field =>
          ((setting.emitter kind).field budget field.value, ())) ())
      (dotResting kind) := by
  refine receives_descend
    (fun front _ visitors _ =>
      visitors = (front ++ [descendIntoSubmessage]) ++ [emitterObject kind])
    equipped ?_ ?_ ?_
  · rintro front suffix state rfl
    refine ⟨by simp, _, [], rfl, ?_⟩
    intro world holds
    have split : world.memory.visitors =
        (front ++ [descendIntoSubmessage]) ++ [emitterObject kind] := by
      rw [holds, List.append_assoc]
      rfl
    rw [equipped.visitors]
    exact beginMessage_emitter _ _ _ split
  · intro front traverser budget grounded top
    exact emitField_realizes equipped notMessage grounded top budget
  · rintro front _ visitors state rfl
    exact ⟨[descendIntoSubmessage, emitterObject kind], by simp, _, _, _, rfl, trivial,
      Or.inr ⟨trivial, rfl⟩⟩

end PostgresProtobuf
