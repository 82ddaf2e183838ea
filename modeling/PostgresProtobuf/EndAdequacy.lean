import PostgresProtobuf.Delivering

/-! # The end of the chain

Emitters realize their meaning, also with a trailing dot before them. -/

namespace PostgresProtobuf

open Foundation ChainVisitor

variable {Stream : Type} [CodedInputStream Stream] [LawfulCodedInputStream Stream]
variable {State : Type}

open LawfulCodedInputStream (view)
open ProtobufTraverser

variable {setting : Setting State}
variable {context : ScanContext VisitorPointer QueryMemory Stream}
variable {forward : VisitorPointer → FieldInfo → StdString →
  Program (QueryWorld Stream) Unit}

/-! ## Treatments that do not look into the payload -/

theorem Heads.asSize_eq {knowledge : Knowledge State} {size : Nat} {payload : Bytes}
    {header : FieldInfo} {stream : Stream}
    (heads : Heads knowledge (.lengthDelimited size payload) header)
    (carries : Carries stream (.lengthDelimited size payload)) :
    header.value.asSize = (size : Int) := by
  rcases heads with ⟨_, bits, _, value⟩
  rw [value]
  exact FieldInfo.Value.asSize_setSize ⟨bits⟩ carries.1

theorem treatField_realizes_treatAs
    {readString readBytes bufferedValue : Bytes → Activity State}
    {treatment : LengthDelimitedFieldTreatment} {size : Nat} {payload : Bytes}
    {header : FieldInfo} {fuel : Nat}
    {scanMessage : ProtobufTraverser VisitorPointer → Stream →
      Program (QueryWorld Stream) (ProtobufTraverser VisitorPointer × Stream)}
    {traverser : ProtobufTraverser VisitorPointer} {stream : Stream}
    {world : QueryWorld Stream} {state : State} {knowledge : Knowledge State}
    (post : QueryWorld Stream → State → Prop)
    (unscanned : treatment = .skip ∨ treatment = .asString ∨ treatment = .asBytes ∨
      treatment = .buffer)
    (carries : Carries stream (.lengthDelimited size payload))
    (heads : Heads knowledge (.lengthDelimited size payload) header)
    (ends : post world state)
    (strings : Realizes (runRecorder setting.knowledge.textless) (readString payload) state
      (context.visitors.readString traverser.visitor payload) world
      fun _ after next => post after next)
    (byteStrings : Realizes (runRecorder setting.knowledge.textless) (readBytes payload) state
      (context.visitors.readBytes traverser.visitor payload) world
      fun _ after next => post after next)
    (buffers : Realizes (runRecorder setting.knowledge.textless) (bufferedValue payload) state
      (context.visitors.bufferedValue traverser.visitor payload) world
      fun _ after next => post after next) :
    Realizes (runRecorder setting.knowledge.textless)
      (Setting.treatAs readString readBytes bufferedValue treatment size payload) state
      (treatField context fuel scanMessage treatment header traverser stream) world
      fun result after next =>
        result.1 = traverser ∧ Reaches stream result.2 payload.length ∧ post after next := by
  have sizeEq := heads.asSize_eq carries
  by_cases whole : payload.length = size
  · rcases readString_of_length_eq carries whole with ⟨next, reads, reaches⟩
    rcases unscanned with rfl | rfl | rfl | rfl
    · exact Realizes.pure ⟨rfl, sizeEq ▸ skip_reaches carries, ends⟩
    · simp only [Setting.treatAs, readWhole, if_pos whole, treatField, sizeEq, reads]
      exact strings.andSilent fun _ after last holds =>
        ⟨_, _, rfl, (runRecorder _).nil _, rfl, reaches, holds⟩
    · simp only [Setting.treatAs, readWhole, if_pos whole, treatField, sizeEq, reads]
      exact byteStrings.andSilent fun _ after last holds =>
        ⟨_, _, rfl, (runRecorder _).nil _, rfl, reaches, holds⟩
    · simp only [Setting.treatAs, readWhole, if_pos whole, treatField, sizeEq, reads]
      exact buffers.andSilent fun _ after last holds =>
        ⟨_, _, rfl, (runRecorder _).nil _, rfl, reaches, holds⟩
  · have fails := readString_of_length_ne carries whole
    rcases unscanned with rfl | rfl | rfl | rfl
    · exact Realizes.pure ⟨rfl, sizeEq ▸ skip_reaches carries, ends⟩
    all_goals
      simp only [Setting.treatAs, readWhole, if_neg whole, treatField, sizeEq, fails]
      exact Realizes.throw

theorem compositeFieldTreatmentForType_unscanned {type : FieldType}
    (notMessage : type ≠ .message) :
    compositeFieldTreatmentForType type = .skip ∨
      compositeFieldTreatmentForType type = .asString ∨
      compositeFieldTreatmentForType type = .asBytes ∨
      compositeFieldTreatmentForType type = .buffer := by
  cases type <;> simp [compositeFieldTreatmentForType] at notMessage ⊢

theorem treatField_descend_realizes (equipped : Equipped setting context forward)
    {front rest : List ChainVisitor} {type : FieldType} {size : Nat} {payload : Bytes}
    {header : FieldInfo} {fuel : Nat}
    {scanMessage : ProtobufTraverser VisitorPointer → Stream →
      Program (QueryWorld Stream) (ProtobufTraverser VisitorPointer × Stream)}
    {traverser : ProtobufTraverser VisitorPointer} {stream : Stream}
    {world : QueryWorld Stream} {state : State} {resting : Resting State}
    (notMessage : type ≠ .message)
    (carries : Carries stream (.lengthDelimited size payload))
    (heads : Heads setting.knowledge (.lengthDelimited size payload) header)
    (top : traverser.visitor = some front.length)
    (holds : world.memory.visitors = front ++ descendIntoSubmessage :: rest)
    (rests : resting state (descendIntoSubmessage :: rest)) :
    Realizes (runRecorder setting.knowledge.textless)
      (Setting.treatAs (fun _ => 1) (fun _ => 1) (fun _ => 1)
        (compositeFieldTreatmentForType type) size payload) state
      (treatField context fuel scanMessage (compositeFieldTreatmentForType type) header
        traverser stream) world
      fun result after next =>
        result.1 = traverser ∧ Reaches stream result.2 payload.length ∧
          RestsBehind resting front next after := by
  have same : RestsBehind resting front state world := ⟨_, holds, rests⟩
  refine treatField_realizes_treatAs (fun after next => RestsBehind resting front next after)
    (compositeFieldTreatmentForType_unscanned notMessage) carries heads same ?_ ?_ ?_
  · rw [equipped.visitors, top]
    exact Realizes.of_silent (readString_descend _ _ _ holds _) ((runRecorder _).nil world) same
  · rw [equipped.visitors, top]
    exact Realizes.of_silent (readBytes_descend _ _ _ holds _) ((runRecorder _).nil world) same
  · rw [equipped.visitors, top]
    exact Realizes.of_silent (bufferedValue_descend _ _ _ holds _) ((runRecorder _).nil world) same

/-! ## Emitters -/

abbrev emitterObject (kind : EmitterKind) : ChainVisitor := .emitter ⟨kind, none⟩

def emitterResting (kind : EmitterKind) : Resting State := fun _ suffix =>
  suffix = [emitterObject kind]

theorem emitRow_realizes {kind : EmitterKind} {state : State} {world : QueryWorld Stream}
    {visitors : List ChainVisitor} (holds : world.memory.visitors = visitors)
    (row : Except Exception (Option StdString)) :
    Realizes (runRecorder setting.knowledge.textless) (emit row) state
      (emitRow ⟨kind, none⟩ row) world
      fun _ after next => after.memory.visitors = visitors ∧ next = state := by
  rcases row with exception | _ | text
  · exact Realizes.throw
  · exact Realizes.pure ⟨holds, rfl⟩
  · exact ⟨(), _, rfl, ⟨⟨[text], rfl, rowsShow_self _ _⟩, [], by simp, rfl⟩, holds, rfl⟩

theorem emitRow_rests {kind : EmitterKind} {front : List ChainVisitor} {state : State}
    {world : QueryWorld Stream}
    (holds : world.memory.visitors = front ++ [emitterObject kind])
    (row : Except Exception (Option StdString)) :
    Realizes (runRecorder setting.knowledge.textless) (emit row) state
      (emitRow ⟨kind, none⟩ row) world
      fun _ after next => RestsBehind (emitterResting kind) front next after :=
  (emitRow_realizes holds row).weaken fun _ _ _ after => ⟨_, after.1, rfl⟩

theorem treatField_emitter_realizes (equipped : Equipped setting context forward)
    {kind : EmitterKind} {front : List ChainVisitor}
    {treatment : LengthDelimitedFieldTreatment} {size : Nat} {payload : Bytes}
    {header : FieldInfo} {fuel : Nat}
    {scanMessage : ProtobufTraverser VisitorPointer → Stream →
      Program (QueryWorld Stream) (ProtobufTraverser VisitorPointer × Stream)}
    {traverser : ProtobufTraverser VisitorPointer} {stream : Stream}
    {world : QueryWorld Stream} {state : State}
    (unscanned : treatment = .skip ∨ treatment = .asString ∨ treatment = .asBytes ∨
      treatment = .buffer)
    (carries : Carries stream (.lengthDelimited size payload))
    (heads : Heads setting.knowledge (.lengthDelimited size payload) header)
    (top : traverser.visitor = some front.length)
    (holds : world.memory.visitors = front ++ [emitterObject kind]) :
    Realizes (runRecorder setting.knowledge.textless)
      (setting.emitTreated kind treatment size payload) state
      (treatField context fuel scanMessage treatment header traverser stream) world
      fun result after next =>
        result.1 = traverser ∧ Reaches stream result.2 payload.length ∧
          RestsBehind (emitterResting kind) front next after := by
  refine treatField_realizes_treatAs
    (fun after next => RestsBehind (emitterResting kind) front next after)
    unscanned carries heads ⟨_, holds, rfl⟩ ?_ ?_ ?_
  · rw [equipped.visitors, top]
    exact Realizes.congr (readString_emitter _ _ _ holds payload) ((runRecorder _).nil world)
      (emitRow_rests holds _)
  · rw [equipped.visitors, top]
    exact Realizes.congr (readBytes_emitter _ _ _ holds payload) ((runRecorder _).nil world)
      (emitRow_rests holds _)
  · rw [equipped.visitors, top]
    exact Realizes.congr (bufferedValue_emitter _ _ _ holds payload) ((runRecorder _).nil world)
      (emitRow_rests holds _)

theorem EmitterKind.readLengthDelimitedField_unscanned {kind : EmitterKind}
    (notMessage : kind ≠ .primitive .message) :
    kind.readLengthDelimitedField = .skip ∨ kind.readLengthDelimitedField = .asString ∨
      kind.readLengthDelimitedField = .asBytes ∨
      kind.readLengthDelimitedField = .buffer := by
  cases kind with
  | primitive type =>
      exact compositeFieldTreatmentForType_unscanned fun equal => notMessage (equal ▸ rfl)
  | enum descriptor => exact Or.inl rfl
  | message typeUrl => exact Or.inr (Or.inr (Or.inr rfl))

/-- Where texts are left open, any text is as good as the empty one. -/
theorem emitText_realizes (textless : setting.knowledge.textless = true) {kind : EmitterKind}
    {front : List ChainVisitor} {state : State} {world : QueryWorld Stream}
    (holds : world.memory.visitors = front ++ [emitterObject kind]) (text : StdString) :
    Realizes (runRecorder setting.knowledge.textless) (emit (.ok (some []))) state
      (emitRow ⟨kind, none⟩ (.ok (some text))) world
      fun _ after next => RestsBehind (emitterResting kind) front next after := by
  have shows : RowsShow setting.knowledge.textless [text] [[]] := by
    rw [textless]
    rfl
  exact ⟨(), _, rfl, ⟨⟨[text], rfl, shows⟩, [], by simp, rfl⟩, _, holds, rfl⟩

theorem EmitterKind.readPrimitive_cases (utils : PostgresUtils) (kind : EmitterKind) :
    (∃ row, ∀ field, kind.readPrimitive utils field = row) ∨
      ∀ field, ∃ text, kind.readPrimitive utils field = .ok (some text) := by
  cases kind with
  | primitive type => cases type <;> first
      | exact Or.inr fun field => ⟨_, rfl⟩
      | exact Or.inl ⟨_, fun field => rfl⟩
  | enum descriptor => exact Or.inr fun field => ⟨_, rfl⟩
  | message typeUrl => exact Or.inl ⟨_, fun field => rfl⟩

theorem EmitterKind.readPrimitive_eq (utils : PostgresUtils) (kind : EmitterKind)
    {field : FieldInfo} (other : FieldInfo) (same : field.value = other.value) :
    kind.readPrimitive utils field = kind.readPrimitive utils other := by
  cases kind <;> simp only [EmitterKind.readPrimitive, same]

theorem readPrimitive_emitter_realizes (equipped : Equipped setting context forward)
    {kind : EmitterKind} {front : List ChainVisitor} {value : WireValue}
    {header : FieldInfo} {world : QueryWorld Stream} {state : State}
    (heads : Heads setting.knowledge value header)
    (holds : world.memory.visitors = front ++ [emitterObject kind]) :
    Realizes (runRecorder setting.knowledge.textless) (setting.emitPrimitive kind value) state
      (context.visitors.readPrimitive (some front.length) header) world
      fun _ after next => RestsBehind (emitterResting kind) front next after := by
  rcases heads with ⟨_, bits, possible, valueEq⟩
  unfold Setting.emitPrimitive
  split
  · rename_i row known
    have same := setting.knowledge.read_eq_some known possible
    rw [equipped.visitors]
    refine Realizes.congr (readPrimitive_emitter _ _ _ holds header) ((runRecorder _).nil world) ?_
    rw [EmitterKind.readPrimitive_eq setting.utils kind (value.header bits) valueEq, same]
    exact emitRow_rests holds row
  · rename_i unknown
    by_cases textless : setting.knowledge.textless = true
    · rw [if_pos textless, equipped.visitors]
      refine Realizes.congr (readPrimitive_emitter _ _ _ holds header)
        ((runRecorder _).nil world) ?_
      rcases EmitterKind.readPrimitive_cases setting.utils kind with ⟨row, always⟩ | rows
      · rw [setting.knowledge.read_of_determined fun bits _ => always _] at unknown
        cases unknown
      · rcases rows header with ⟨text, isText⟩
        rw [isText]
        exact emitText_realizes textless holds text
    · rw [if_neg textless]
      exact Realizes.undefined

theorem scanField_emitter_realizes (equipped : Equipped setting context forward)
    {kind : EmitterKind} (notMessage : kind ≠ .primitive .message)
    {front : List ChainVisitor} {size : Nat} {payload : Bytes} {header : FieldInfo}
    {fuel : Nat} (budget : Nat) {traverser : ProtobufTraverser VisitorPointer}
    {stream : Stream} {world : QueryWorld Stream} {state : State}
    (carries : Carries stream (.lengthDelimited size payload))
    (heads : Heads setting.knowledge (.lengthDelimited size payload) header)
    (top : traverser.visitor = some front.length)
    (holds : world.memory.visitors = front ++ [emitterObject kind]) :
    Realizes (runRecorder setting.knowledge.textless)
      ((setting.emitter kind).field budget (.lengthDelimited size payload)) state
      (scanField context fuel header traverser stream) world
      fun result after next =>
        result.1 = traverser ∧ Reaches stream result.2 payload.length ∧
          RestsBehind (emitterResting kind) front next after := by
  have reads := readLengthDelimitedField_emitter setting.utils setting.binaryToJsonString
    forward holds header
  rw [← equipped.visitors, ← top] at reads
  refine Realizes.congr (scanField_stays context traverser fuel stream heads.1 reads)
    ((runRecorder _).nil world) ?_
  exact treatField_emitter_realizes equipped
    (EmitterKind.readLengthDelimitedField_unscanned notMessage) carries heads top holds

theorem receives_emitter (equipped : Equipped setting context forward)
    {kind : EmitterKind} (notMessage : kind ≠ .primitive .message) (limit : Nat) :
    Receives context setting.knowledge limit (setting.emitter kind)
      (emitterResting kind) where
  head _ _ rests := ⟨_, _, rests, trivial⟩
  primitive front value header budget world state notLengthDelimited heads rests := by
    rcases rests with ⟨_, holds, rfl⟩
    cases value with
    | lengthDelimited size payload => exact absurd rfl notLengthDelimited
    | _ => exact readPrimitive_emitter_realizes equipped heads holds
  lengthDelimited front size payload header fuel budget traverser stream world state _ _ _
      carries heads top rests := by
    rcases rests with ⟨_, holds, rfl⟩
    refine (scanField_emitter_realizes equipped notMessage budget carries heads top
      holds).weaken ?_
    rintro result after next ⟨same, reaches, rests⟩
    exact ⟨reaches, Or.inl ⟨same, rests⟩⟩
  handed front type size payload header fuel scanMessage traverser stream world state
      typeNe carries heads top rests := by
    rcases rests with ⟨_, holds, rfl⟩
    exact treatField_emitter_realizes equipped
      (compositeFieldTreatmentForType_unscanned typeNe) carries heads top holds

end PostgresProtobuf
