import PostgresProtobuf.EndAdequacy

/-! # Map filters

A map filter buffers the key and the value of an entry, and forwards the value on
a traverser of its own when the entry ends with the wanted key. -/

namespace PostgresProtobuf

open Foundation ChainVisitor

variable {Stream : Type} [CodedInputStream Stream] [LawfulCodedInputStream Stream]
variable {State : Type}

open LawfulCodedInputStream (view)
open ProtobufTraverser

def Whole (limit : Nat) (value : WireValue) (contents : StdString) : Prop :=
  match value with
  | .lengthDelimited size payload =>
      contents = payload ∧ payload.length = size ∧ size < 2 ^ 31 ∧ payload.length < limit
  | _ => True

def Forwards (forward : VisitorPointer → FieldInfo → StdString →
      Program (QueryWorld Stream) Unit) (setting : Setting State) (limit : Nat)
    (delivery : Delivery State) (resting : Resting State) : Prop :=
  ∀ (front : List ChainVisitor) (value : WireValue) (header : FieldInfo)
    (contents : StdString) (world : QueryWorld Stream) (state : State),
    Heads setting.knowledge value header → Whole limit value contents →
    RestsBehind resting front state world →
    Realizes (runRecorder setting.knowledge.textless)
      (delivery.field setting.recursionLimit value) state
      (forward (some front.length) header contents) world
      fun _ after next => RestsBehind resting front next after

def Untouched (knowledge : Knowledge State) (position : Nat) (resting : Resting State) :
    Prop :=
  ∀ state suffix, resting state suffix → resting (knowledge.touch position state) suffix

open Setting (EntryBuffers)

/-- The filter holds the buffers of its abstract counterpart. -/
structure Buffered (knowledge : Knowledge State) (limit : Nat)
    (wantedKeyField : FieldInfo) (wantedKeyContents : StdString) (valueType : FieldType)
    (buffers : EntryBuffers) (filter : MapFilter) : Prop where
  valueType : filter.valueType = valueType
  wantedKeyField : filter.wantedKeyField = wantedKeyField
  wantedKeyContents : filter.wantedKeyContents = wantedKeyContents
  keyContents : filter.bufferedKeyContents = buffers.keyContents
  key : ∀ value ∈ buffers.key, Heads knowledge value filter.bufferedKeyField
  value : ∀ value ∈ buffers.value, Heads knowledge value filter.bufferedValueField ∧
    Whole limit value filter.bufferedValueContents

structure BetweenFields (knowledge : Knowledge State) (limit : Nat)
    (wantedKeyField : FieldInfo) (wantedKeyContents : StdString) (valueType : FieldType)
    (buffers : EntryBuffers) (filter : MapFilter) : Prop
    extends Buffered knowledge limit wantedKeyField wantedKeyContents valueType buffers filter where
  scope : filter.scope = if buffers.inEntry then .inEntry else .outermost

section

variable {knowledge : Knowledge State} {limit : Nat} {wantedKeyField : FieldInfo}
variable {wantedKeyContents : StdString} {valueType : FieldType} {buffers : EntryBuffers}
variable {filter : MapFilter}

theorem heads_zero (knowledge : Knowledge State) :
    Heads knowledge (.varint 0) FieldInfo.zero :=
  ⟨rfl, _, knowledge.possible_getD, rfl⟩

theorem Buffered.reset
    (buffered : Buffered knowledge limit wantedKeyField wantedKeyContents valueType
      buffers filter) :
    BetweenFields knowledge limit wantedKeyField wantedKeyContents valueType
      .empty filter.reset where
  valueType := buffered.valueType
  wantedKeyField := buffered.wantedKeyField
  wantedKeyContents := buffered.wantedKeyContents
  keyContents := rfl
  key := by
    rintro value ⟨rfl⟩
    exact heads_zero knowledge
  value := by
    rintro value ⟨rfl⟩
    exact ⟨heads_zero knowledge, trivial⟩
  scope := rfl

theorem BetweenFields.found
    (between : BetweenFields knowledge limit wantedKeyField wantedKeyContents valueType
      .empty filter) :
    BetweenFields knowledge limit wantedKeyField wantedKeyContents valueType .found filter where
  valueType := between.valueType
  wantedKeyField := between.wantedKeyField
  wantedKeyContents := between.wantedKeyContents
  keyContents := between.keyContents
  key := by simp [EntryBuffers.found]
  value := by simp [EntryBuffers.found]
  scope := between.scope

def restingBuffers (knowledge : Knowledge State) (position : Nat) (state : State) :
    EntryBuffers :=
  if knowledge.pristine position state then .found else .empty

theorem Buffered.rests
    (buffered : Buffered knowledge limit wantedKeyField wantedKeyContents valueType buffers filter)
    (position : Nat) (state : State) :
    BetweenFields knowledge limit wantedKeyField wantedKeyContents valueType
      (restingBuffers knowledge position state) filter.reset := by
  unfold restingBuffers
  split
  · exact buffered.reset.found
  · exact buffered.reset

theorem BetweenFields.scope_resting {position : Nat} {state : State}
    (between : BetweenFields knowledge limit wantedKeyField wantedKeyContents valueType
      (restingBuffers knowledge position state) filter) : filter.scope = .outermost := by
  rw [between.scope, restingBuffers]
  split <;> rfl

theorem BetweenFields.leaveScope
    (between : BetweenFields knowledge limit wantedKeyField wantedKeyContents valueType
      buffers filter) :
    Buffered knowledge limit wantedKeyField wantedKeyContents valueType
      buffers filter.leaveScope := by
  have same : ∃ scope, filter.leaveScope = { filter with scope := scope } := by
    unfold MapFilter.leaveScope
    split <;> exact ⟨_, rfl⟩
  rcases same with ⟨scope, equal⟩
  rw [equal]
  exact ⟨between.valueType, between.wantedKeyField, between.wantedKeyContents,
    between.keyContents, between.key, between.value⟩

/-! ## Comparing keys -/

theorem valueEquals_header {value : WireValue} {header : FieldInfo}
    (heads : Heads knowledge value header) (wanted : FieldInfo) :
    header.valueEquals wanted = (value.header 0).valueEquals wanted := by
  rcases header with ⟨number, wireType, union⟩
  rcases heads with ⟨rfl, bits, _, rfl⟩
  cases value <;>
    simp [FieldInfo.valueEquals, WireValue.header, WireValue.union, WireValue.wireType,
      FieldInfo.Value.asSize, FieldInfo.Value.setSize]

theorem keyMatches_eq {setting : Setting State} {keyType : FieldType} {result : Bool}
    (buffered : Buffered setting.knowledge limit wantedKeyField wantedKeyContents valueType buffers
      filter)
    (known : setting.keyMatches keyType wantedKeyField wantedKeyContents buffers =
      some result) : filter.keyMatches = result := by
  unfold Setting.keyMatches at known
  simp only [MapFilter.keyMatches, buffered.wantedKeyField, buffered.wantedKeyContents,
    buffered.keyContents]
  by_cases same : buffers.keyContents = wantedKeyContents
  · rw [if_pos same] at known
    cases found : buffers.key with
    | none => simp [found] at known
    | some key =>
        simp only [found] at known
        split at known
        · rw [Option.some.injEq] at known
          rw [valueEquals_header (buffered.key key found), ← known]
          simp [same]
        · simp at known
  · rw [if_neg same, Option.some.injEq] at known
    simp [same, ← known]

/-! ## Scopes -/

def MapFilter.inScope (filter : MapFilter) (scope : MapFilter.Scope) : MapFilter :=
  { filter with scope := scope }

theorem Buffered.inScope
    (buffered : Buffered knowledge limit wantedKeyField wantedKeyContents valueType buffers filter)
    (scope : MapFilter.Scope) :
    Buffered knowledge limit wantedKeyField wantedKeyContents valueType buffers
      (filter.inScope scope) :=
  ⟨buffered.valueType, buffered.wantedKeyField, buffered.wantedKeyContents,
    buffered.keyContents, buffered.key, buffered.value⟩

theorem Buffered.enter
    (buffered : Buffered knowledge limit wantedKeyField wantedKeyContents valueType
      buffers filter) :
    BetweenFields knowledge limit wantedKeyField wantedKeyContents valueType
      { buffers with inEntry := true } (filter.inScope .inEntry) where
  toBuffered := ⟨buffered.valueType, buffered.wantedKeyField, buffered.wantedKeyContents,
    buffered.keyContents, buffered.key, buffered.value⟩
  scope := rfl

end

/-! ## Fields under a filter -/

section

variable {setting : Setting State}
variable {context : ScanContext VisitorPointer QueryMemory Stream}
variable {forward : VisitorPointer → FieldInfo → StdString →
  Program (QueryWorld Stream) Unit}
variable {limit : Nat} {next : Delivery State} {resting : Resting State}
variable {keyType : FieldType} {wantedKeyField : FieldInfo}
variable {wantedKeyContents : StdString} {valueType : FieldType}

def Looking (knowledge : Knowledge State) (limit : Nat) (wantedKeyField : FieldInfo)
    (wantedKeyContents : StdString) (valueType : FieldType) (resting : Resting State)
    (front : List ChainVisitor) (buffers : EntryBuffers) (visitors : List ChainVisitor)
    (state : State) : Prop :=
  ∃ filter rest, visitors = front ++ mapFilter filter :: rest ∧
    BetweenFields knowledge limit wantedKeyField wantedKeyContents valueType buffers filter ∧
    resting state rest

variable {front : List ChainVisitor}

section

variable (equipped : Equipped setting context forward)
variable (serves : Serves context setting.knowledge limit next resting)
variable (forwards : Forwards forward setting limit next resting)

include equipped serves forwards

theorem endField_filter_realizes {buffers : EntryBuffers} {world : QueryWorld Stream}
    {state : State}
    (looking : Looking setting.knowledge limit wantedKeyField wantedKeyContents valueType
      resting front
      buffers world.memory.visitors state) :
    Realizes (runRecorder setting.knowledge.textless)
      (setting.leaveEntry keyType wantedKeyField wantedKeyContents next buffers).1 state
      (context.visitors.endField (some front.length)) world
      fun _ after last =>
        Looking setting.knowledge limit wantedKeyField wantedKeyContents valueType resting front
          (setting.leaveEntry keyType wantedKeyField wantedKeyContents next buffers).2
          after.memory.visitors last := by
  rcases looking with ⟨filter, rest, holds, between, rests⟩
  have scope := between.scope
  unfold Setting.leaveEntry
  rw [equipped.visitors]
  cases inEntry : buffers.inEntry with
  | false =>
      simp only [inEntry, Bool.false_eq_true, if_false] at scope ⊢
      have outside : filter.scope ≠ .inEntry := by simp [scope]
      have sameFilter : filter.leaveScope = filter.inScope .outermost := by
        simp [MapFilter.leaveScope, scope, MapFilter.inScope]
      refine Realizes.of_silent (endField_filter_inside _ _ _ holds outside)
        (runRecorder_withVisitors ..) ⟨_, rest, rfl, ?_, rests⟩
      rw [sameFilter]
      exact ⟨between.toBuffered.inScope _, by simp [MapFilter.inScope, inEntry]⟩
  | true =>
      simp only [inEntry, if_true] at scope ⊢
      unfold Setting.endEntry
      cases known : setting.keyMatches keyType wantedKeyField wantedKeyContents buffers with
      | none => exact Realizes.undefined
      | some result =>
          have matching := keyMatches_eq between.toBuffered known
          cases result with
          | false =>
              exact Realizes.of_silent (endField_filter_mismatch _ _ _ holds scope matching)
                (runRecorder_withVisitors ..)
                ⟨_, rest, rfl, between.toBuffered.reset, rests⟩
          | true =>
              cases found : buffers.value with
              | none => exact Realizes.undefined
              | some value =>
                  rcases between.value value found with ⟨heads, whole⟩
                  rcases List.exists_cons_of_ne_nil (serves.nonempty _ _ rests) with
                    ⟨object, rest, rfl⟩
                  have forwarded := forwards (front ++ [mapFilter filter.leaveScope]) value
                    filter.bufferedValueField filter.bufferedValueContents
                    (world.withVisitors
                      (front ++ mapFilter filter.leaveScope :: object :: rest))
                    state heads whole ⟨_, by simp, rests⟩
                  refine Realizes.congr
                    (endField_filter_match _ _ _ holds scope matching)
                    (runRecorder_withVisitors ..) (forwarded.andSilent ?_)
                  rintro _ after last ⟨suffix, afterHolds, restsAfter⟩
                  have shape : after.memory.visitors =
                      front ++ mapFilter filter.leaveScope :: suffix := by
                    simpa using afterHolds
                  exact ⟨_, _, writeVisitor_eq shape _, runRecorder_withVisitors ..,
                    _, suffix, rfl, between.toBuffered.reset, restsAfter⟩

variable {traverser : ProtobufTraverser VisitorPointer}
variable (grounded : traverser.Grounded) (top : traverser.visitor = some front.length)

include grounded top

theorem filter_ends {buffers : EntryBuffers} {world : QueryWorld Stream} {state : State}
    (looking : Looking setting.knowledge limit wantedKeyField wantedKeyContents valueType
      resting front
      buffers world.memory.visitors state) :
    Realizes (runRecorder setting.knowledge.textless)
      (setting.leaveEntry keyType wantedKeyField wantedKeyContents next buffers).1 state
      (decrementDepthAndEndFieldAndPopVisitors context (traverser.inside [])) world
      fun result after last => result = traverser ∧
        Looking setting.knowledge limit wantedKeyField wantedKeyContents valueType resting front
          (setting.leaveEntry keyType wantedKeyField wantedKeyContents next buffers).2
          after.memory.visitors last := by
  rw [decrementDepthAndEndFieldAndPopVisitors_inside context grounded, top]
  simp only [leaveVisitors, pure_bind]
  exact (endField_filter_realizes equipped serves forwards looking).andSilent
    fun _ after last holds => ⟨_, _, rfl, (runRecorder _).nil after, rfl, holds⟩

end

section

variable {traverser : ProtobufTraverser VisitorPointer}
variable (equipped : Equipped setting context forward)
variable (grounded : traverser.Grounded) (top : traverser.visitor = some front.length)

include equipped grounded top

omit [CodedInputStream Stream] [LawfulCodedInputStream Stream] in
theorem filter_ends_buffered {filter : MapFilter} {rest : List ChainVisitor}
    {world : QueryWorld Stream} (inside : filter.scope ≠ .inEntry)
    (holds : world.memory.visitors = front ++ mapFilter filter :: rest) :
    decrementDepthAndEndFieldAndPopVisitors context (traverser.inside []) world =
      .ok traverser (world.withVisitors (front ++ mapFilter filter.leaveScope :: rest)) := by
  rw [decrementDepthAndEndFieldAndPopVisitors_inside context grounded, top]
  simp only [leaveVisitors, pure_bind]
  rw [equipped.visitors]
  exact Program.bind_ok (endField_filter_inside _ _ _ holds inside)

omit [CodedInputStream Stream] [LawfulCodedInputStream Stream] grounded in
theorem filter_begins {filter : MapFilter} {rest : List ChainVisitor}
    {world : QueryWorld Stream}
    (holds : world.memory.visitors = front ++ mapFilter filter :: rest)
    (header : FieldInfo) :
    callBeginField context context.handovers header.number header.wireType
        (traverser.inside []) world =
      .ok (traverser.inside []) (world.withVisitors
        (front ++ mapFilter (filter.beginField header.number header.wireType) :: rest)) := by
  refine callBeginField_stays context (traverser.inside [])
    (Nat.lt_of_succ_lt equipped.handovers) ?_
  rw [visitor_inside_nil, equipped.visitors, top]
  exact beginField_filter _ _ _ holds header.number header.wireType

theorem bufferPrimitive_realizes {filter : MapFilter} (stored : MapFilter)
    {rest : List ChainVisitor}
    {buffers : EntryBuffers} {value : WireValue} {header : FieldInfo} {fuel : Nat}
    {stream : Stream} {world : QueryWorld Stream} {state : State}
    (holds : world.memory.visitors = front ++ mapFilter filter :: rest)
    (rests : resting state rest) (notLengthDelimited : value.wireType ≠ 2)
    (heads : Heads setting.knowledge value header)
    (stores : (filter.beginField header.number header.wireType).readPrimitive header =
      stored)
    (inside : stored.scope ≠ .inEntry)
    (between : BetweenFields setting.knowledge limit wantedKeyField wantedKeyContents valueType
      buffers
      stored.leaveScope) :
    Realizes (runRecorder setting.knowledge.textless) 1 state
      (fieldTurn context fuel header traverser stream) world
      fun result after last =>
        result.1 = traverser ∧ Reaches stream result.2 value.payload.length ∧
          Looking setting.knowledge limit wantedKeyField wantedKeyContents valueType resting front
            buffers after.memory.visitors last := by
  have calls := filter_begins equipped top holds header
  have reads := readPrimitive_filter setting.utils setting.binaryToJsonString forward
    (World.visitors_withVisitors world
      (front ++ mapFilter (filter.beginField header.number header.wireType) :: rest)) header
  rw [← equipped.visitors, ← top, stores] at reads
  rw [fieldTurn_of_wireType_ne context (heads.1 ▸ notLengthDelimited)]
  simp only [elementTurn, bind_assoc]
  refine Realizes.silent calls (runRecorder_withVisitors ..) ?_
  refine Realizes.silent reads (runRecorder_withVisitors ..) ?_
  have ends := filter_ends_buffered equipped grounded top inside
    (World.visitors_withVisitors world (front ++ mapFilter stored :: rest))
  refine Realizes.of_silent (Program.bind_ok ends) (runRecorder_withVisitors ..)
    ⟨rfl, ?_, _, rest, rfl, between, rests⟩
  rw [WireValue.payload_eq_nil notLengthDelimited]
  exact Reaches.refl stream

theorem bufferContents_realizes {filter : MapFilter} (opened : MapFilter)
    {rest : List ChainVisitor}
    {buffers : EntryBuffers} {size : Nat} {payload : Bytes} {header : FieldInfo}
    {fuel : Nat} {stream : Stream} {world : QueryWorld Stream} {state : State}
    (holds : world.memory.visitors = front ++ mapFilter filter :: rest)
    (rests : resting state rest)
    (carries : Carries stream (.lengthDelimited size payload))
    (heads : Heads setting.knowledge (.lengthDelimited size payload) header)
    (opens : (filter.beginField header.number header.wireType).readLengthDelimitedField
      header = (opened, .buffer))
    (inside : (opened.bufferedValue payload).scope ≠ .inEntry)
    (between : payload.length = size →
      BetweenFields setting.knowledge limit wantedKeyField wantedKeyContents valueType buffers
        (opened.bufferedValue payload).leaveScope) :
    Realizes (runRecorder setting.knowledge.textless)
      (readWhole "failed to fully read length-delimited field" size payload 1) state
      (fieldTurn context fuel header traverser stream) world
      fun result after last =>
        result.1 = traverser ∧ Reaches stream result.2 payload.length ∧
          Looking setting.knowledge limit wantedKeyField wantedKeyContents valueType resting front
            buffers after.memory.visitors last := by
  have calls := filter_begins equipped top holds header
  have chooses := readLengthDelimitedField_filter setting.utils setting.binaryToJsonString
    forward (World.visitors_withVisitors world
      (front ++ mapFilter (filter.beginField header.number header.wireType) :: rest)) header
  rw [← equipped.visitors, ← top, opens] at chooses
  have keeps := scanField_stays context (traverser.inside []) fuel stream heads.1 chooses
  have sizeEq := heads.asSize_eq carries
  refine Realizes.silent calls (runRecorder_withVisitors ..) ?_
  refine Realizes.congr (Program.bind_congr keeps) (runRecorder_withVisitors ..) ?_
  by_cases whole : payload.length = size
  · rcases readString_of_length_eq carries whole with ⟨streamAfter, reads, reaches⟩
    have buffered := bufferedValue_filter setting.utils setting.binaryToJsonString forward
      (World.visitors_withVisitors world (front ++ mapFilter opened :: rest)) payload
    rw [← equipped.visitors, ← top] at buffered
    have ends := filter_ends_buffered equipped grounded top inside
      (World.visitors_withVisitors world
        (front ++ mapFilter (opened.bufferedValue payload) :: rest))
    simp only [readWhole, if_pos whole, treatField, sizeEq, reads, bind_assoc]
    refine Realizes.silent buffered (runRecorder_withVisitors ..) ?_
    exact Realizes.of_silent (Program.bind_ok ends) (runRecorder_withVisitors ..)
      ⟨rfl, reaches, _, rest, rfl, between whole, rests⟩
  · have fails := readString_of_length_ne carries whole
    simp only [readWhole, if_neg whole, treatField, sizeEq, fails]
    exact ⟨_, rfl, (runRecorder _).nil _⟩

end

section

variable {traverser : ProtobufTraverser VisitorPointer}
variable (equipped : Equipped setting context forward)
variable (serves : Serves context setting.knowledge limit next resting)
variable (forwards : Forwards forward setting limit next resting)
variable (grounded : traverser.Grounded) (top : traverser.visitor = some front.length)

include equipped serves forwards grounded top

theorem lookupPrimitive_realizes {buffers : EntryBuffers} {number budget : Nat}
    {value : WireValue} {header : FieldInfo} {fuel : Nat} {stream : Stream}
    {world : QueryWorld Stream} {state : State}
    (notLengthDelimited : value.wireType ≠ 2) (numberEq : header.number = number)
    (heads : Heads setting.knowledge value header)
    (looking : Looking setting.knowledge limit wantedKeyField wantedKeyContents valueType
      resting front
      buffers world.memory.visitors state) :
    Realizes (runRecorder setting.knowledge.textless)
      (setting.lookupField keyType wantedKeyField wantedKeyContents next budget buffers
        ⟨number, value⟩).1 state
      (fieldTurn context fuel header traverser stream) world
      fun result after last =>
        result.1 = traverser ∧ Reaches stream result.2 value.payload.length ∧
          Looking setting.knowledge limit wantedKeyField wantedKeyContents valueType resting front
            (setting.lookupField keyType wantedKeyField wantedKeyContents next budget buffers
              ⟨number, value⟩).2 after.memory.visitors last := by
  rcases looking with ⟨filter, rest, holds, between, rests⟩
  have scope := between.scope
  have primitive : header.wireType ≠ 2 := heads.1 ▸ notLengthDelimited
  have whole : Whole limit value filter.bufferedValueContents := by
    cases value with
    | lengthDelimited size payload => exact absurd rfl notLengthDelimited
    | _ => trivial
  have unfolds : setting.lookupField keyType wantedKeyField wantedKeyContents next budget
      buffers ⟨number, value⟩ =
      if buffers.inEntry then
        if number = 1 then (1, { buffers with key := some value })
        else if number = 2 then (1, { buffers with value := some value })
        else setting.leaveEntry keyType wantedKeyField wantedKeyContents next buffers
      else (1, buffers) := by
    cases value with
    | lengthDelimited size payload => exact absurd rfl notLengthDelimited
    | _ => cases budget <;> rfl
  -- A field that the filter neither buffers nor reacts to.
  have passes : ∀ action : Activity State × EntryBuffers,
      action = setting.leaveEntry keyType wantedKeyField wantedKeyContents next buffers →
      (filter.beginField header.number header.wireType).readPrimitive header = filter →
      Realizes (runRecorder setting.knowledge.textless) action.1 state
        (fieldTurn context fuel header traverser stream) world
        fun result after last =>
          result.1 = traverser ∧ Reaches stream result.2 value.payload.length ∧
            Looking setting.knowledge limit wantedKeyField wantedKeyContents valueType resting front
              action.2 after.memory.visitors last := by
    rintro _ rfl unchanged
    have calls := filter_begins equipped top holds header
    have reads := readPrimitive_filter setting.utils setting.binaryToJsonString forward
      (World.visitors_withVisitors world
        (front ++ mapFilter (filter.beginField header.number header.wireType) :: rest)) header
    rw [← equipped.visitors, ← top, unchanged] at reads
    rw [fieldTurn_of_wireType_ne context primitive]
    simp only [elementTurn, bind_assoc]
    refine Realizes.silent calls (runRecorder_withVisitors ..) ?_
    refine Realizes.silent reads (runRecorder_withVisitors ..) ?_
    refine (filter_ends equipped serves forwards grounded top
      ⟨filter, rest, rfl, between, rests⟩).andSilent ?_
    rintro _ after last ⟨rfl, looking⟩
    refine ⟨_, _, rfl, (runRecorder _).nil after, rfl, ?_, looking⟩
    rw [WireValue.payload_eq_nil notLengthDelimited]
    exact Reaches.refl stream
  rw [unfolds]
  cases inEntry : buffers.inEntry with
  | false =>
      simp only [inEntry, Bool.false_eq_true, if_false] at scope ⊢
      refine passes (1, buffers) (by simp [Setting.leaveEntry, inEntry]) ?_
      simp [MapFilter.beginField, MapFilter.readPrimitive, scope, primitive]
  | true =>
      simp only [inEntry, if_true] at scope ⊢
      by_cases key : number = 1
      · subst key
        simp only [if_true]
        refine bufferPrimitive_realizes equipped grounded top
          { filter with scope := .inKey, bufferedKeyField := header } holds rests
          notLengthDelimited heads ?_ (by simp) ?_
        · simp [MapFilter.beginField, MapFilter.readPrimitive, scope, primitive, numberEq]
        · exact {
            valueType := between.valueType
            wantedKeyField := between.wantedKeyField
            wantedKeyContents := between.wantedKeyContents
            keyContents := between.keyContents
            key := by
              rintro _ ⟨rfl⟩
              exact heads
            value := between.value
            scope := by simp [MapFilter.leaveScope] }
      · simp only [if_neg key]
        by_cases wanted : number = 2
        · subst wanted
          simp only [if_true]
          refine bufferPrimitive_realizes equipped grounded top
            { filter with scope := .inValue, bufferedValueField := header } holds rests
            notLengthDelimited heads ?_ (by simp) ?_
          · simp [MapFilter.beginField, MapFilter.readPrimitive, scope, primitive, numberEq]
          · exact {
              valueType := between.valueType
              wantedKeyField := between.wantedKeyField
              wantedKeyContents := between.wantedKeyContents
              keyContents := between.keyContents
              key := between.key
              value := by
                rintro _ ⟨rfl⟩
                exact ⟨heads, whole⟩
              scope := by simp [MapFilter.leaveScope] }
        · simp only [if_neg wanted]
          refine passes _ rfl ?_
          have notKey : header.number ≠ 1 := by omega
          have notValue : header.number ≠ 2 := by omega
          simp [MapFilter.beginField, MapFilter.readPrimitive, scope, notKey, notValue]

omit serves forwards grounded in
theorem scanEntry_realizes {lower : Nat → EntryBuffers → WireField →
      Activity State × EntryBuffers}
    {buffers : EntryBuffers} {filter : MapFilter} {rest : List ChainVisitor}
    {size fuel budget : Nat} {payload : Bytes} {header : FieldInfo} {stream : Stream}
    {world : QueryWorld Stream} {state : State}
    (realize : ∀ below, budget = below + 1 →
      TurnsRealize context setting.knowledge limit below traverser (lower below)
        (Looking setting.knowledge limit wantedKeyField wantedKeyContents valueType resting front))
    (within : fuel ≤ limit) (enough : (view stream).left.length < fuel)
    (budgetEq : (view stream).recursionBudget = budget)
    (carries : Carries stream (.lengthDelimited size payload))
    (heads : Heads setting.knowledge (.lengthDelimited size payload) header)
    (holds : world.memory.visitors = front ++ mapFilter (filter.inScope .inEntry) :: rest)
    (buffered : Buffered setting.knowledge limit wantedKeyField wantedKeyContents valueType buffers
      filter) (rests : resting state rest) :
    Realizes (runRecorder setting.knowledge.textless)
      (scanSubmessage lower budget { buffers with inEntry := true } payload).1 state
      (scanField context fuel header traverser stream) world
      fun result after last =>
        result.1 = traverser ∧ Reaches stream result.2 payload.length ∧
          Looking setting.knowledge limit wantedKeyField wantedKeyContents valueType resting front
            (scanSubmessage lower budget { buffers with inEntry := true } payload).2
            after.memory.visitors last := by
  have chooses := readLengthDelimitedField_filter setting.utils setting.binaryToJsonString
    forward holds header
  have stays : (filter.inScope .inEntry).readLengthDelimitedField header =
      (filter.inScope .inEntry, .asSubmessage) := rfl
  rw [← equipped.visitors, ← top, stays, World.withVisitors_self holds] at chooses
  have beginMessage : ∀ world : QueryWorld Stream, world.memory.visitors =
      front ++ mapFilter (filter.inScope .inEntry) :: rest →
      context.visitors.beginMessage traverser.visitor world =
        .ok traverser.visitor
          (world.withVisitors (front ++ mapFilter (filter.inScope .inEntry) :: rest)) := by
    intro world holds
    rw [equipped.visitors, top]
    exact beginMessage_filter _ _ _ holds
  refine Realizes.congr (scanField_stays context traverser fuel stream heads.1 chooses)
    ((runRecorder _).nil world) ?_
  exact treatField_asSubmessage_realizes traverser { buffers with inEntry := true }
    equipped.possible realize (fun world holds => ⟨_, beginMessage world holds⟩)
    (fun world holds => callBeginMessage_stays context traverser
      (Nat.lt_of_succ_lt equipped.handovers) (beginMessage world holds))
    ⟨_, rest, rfl, buffered.enter, rests⟩ within enough budgetEq carries heads holds

theorem lookupTurns_realize (budget : Nat)
    (realize : ∀ below, budget = below + 1 →
      TurnsRealize context setting.knowledge limit below (traverser.inside [])
        (setting.lookupField keyType wantedKeyField wantedKeyContents next below)
        (Looking setting.knowledge limit wantedKeyField wantedKeyContents valueType
          resting front)) :
    TurnsRealize context setting.knowledge limit budget traverser
      (setting.lookupField keyType wantedKeyField wantedKeyContents next budget)
      (Looking setting.knowledge limit wantedKeyField wantedKeyContents valueType
        resting front) := by
  intro fuel buffers field header stream world state within enoughFuel budgetEq carries
    numberEq heads looking
  rcases field with ⟨number, value⟩
  by_cases lengthDelimited : value.wireType = 2
  · cases value with
    | lengthDelimited size payload =>
        rcases looking with ⟨filter, rest, holds, between, rests⟩
        have scope := between.scope
        have wireType : header.wireType = 2 := heads.1
        have shorter := carries.payload_length_le
        simp only [WireValue.payload] at shorter
        have whole : payload.length = size → Whole limit (.lengthDelimited size payload)
            payload := fun same => ⟨rfl, same, carries.1, by omega⟩
        by_cases key : buffers.inEntry ∧ number = 1
        · rcases key with ⟨inEntry, rfl⟩
          have unfolds : setting.lookupField keyType wantedKeyField wantedKeyContents next
              budget buffers ⟨1, .lengthDelimited size payload⟩ =
              (readWhole "failed to fully read length-delimited field" size payload 1,
                { buffers with
                  key := some (.lengthDelimited size payload), keyContents := payload }) := by
            cases budget <;> simp only [Setting.lookupField, inEntry, and_self, if_true]
          rw [unfolds]
          simp only [inEntry, if_true] at scope
          refine bufferContents_realizes equipped grounded top
            { filter with scope := .inKey, bufferedKeyField := header } holds rests carries
            heads ?_ (by simp [MapFilter.bufferedValue]) ?_
          · simp [MapFilter.beginField, MapFilter.readLengthDelimitedField, scope, numberEq]
          · intro _
            exact {
              valueType := between.valueType
              wantedKeyField := between.wantedKeyField
              wantedKeyContents := between.wantedKeyContents
              keyContents := rfl
              key := by
                rintro _ ⟨rfl⟩
                exact heads
              value := between.value
              scope := by simp [MapFilter.bufferedValue, MapFilter.leaveScope, inEntry] }
        · by_cases wanted : buffers.inEntry ∧ number = 2
          · rcases wanted with ⟨inEntry, rfl⟩
            have unfolds : setting.lookupField keyType wantedKeyField wantedKeyContents next
                budget buffers ⟨2, .lengthDelimited size payload⟩ =
                (readWhole "failed to fully read length-delimited field" size payload 1,
                  { buffers with value := some (.lengthDelimited size payload) }) := by
              cases budget <;> simp [Setting.lookupField, inEntry]
            rw [unfolds]
            simp only [inEntry, if_true] at scope
            refine bufferContents_realizes equipped grounded top
              { filter with scope := .inValue, bufferedValueField := header } holds rests
              carries heads ?_ (by simp [MapFilter.bufferedValue]) ?_
            · simp [MapFilter.beginField, MapFilter.readLengthDelimitedField, scope, numberEq]
            · intro same
              exact {
                valueType := between.valueType
                wantedKeyField := between.wantedKeyField
                wantedKeyContents := between.wantedKeyContents
                keyContents := between.keyContents
                key := between.key
                value := by
                  rintro _ ⟨rfl⟩
                  exact ⟨heads, whole same⟩
                scope := by simp [MapFilter.bufferedValue, MapFilter.leaveScope, inEntry] }
          · rw [Setting.lookupField_entry setting keyType wantedKeyField wantedKeyContents
              next key wanted]
            have enters : filter.beginField header.number header.wireType =
                filter.inScope .inEntry := by
              cases inEntry : buffers.inEntry with
              | false =>
                  simp only [inEntry, Bool.false_eq_true, if_false] at scope
                  simp [MapFilter.beginField, scope, wireType, MapFilter.inScope]
              | true =>
                  simp only [inEntry, if_true] at scope
                  have numberIs : header.number = (number : Int) := numberEq
                  have notKey : header.number ≠ 1 := by
                    intro one
                    exact key ⟨inEntry, by omega⟩
                  have notValue : header.number ≠ 2 := by
                    intro two
                    exact wanted ⟨inEntry, by omega⟩
                  have unchanged : filter.inScope .inEntry = filter := by
                    rw [MapFilter.inScope, ← scope]
                  rw [unchanged]
                  simp [MapFilter.beginField, scope, notKey, notValue]
            have calls := filter_begins equipped top holds header
            rw [enters] at calls
            have innerTop : (traverser.inside []).visitor = some front.length := top
            refine Realizes.silent calls (runRecorder_withVisitors ..) ?_
            refine (scanEntry_realizes equipped innerTop realize within enoughFuel
              budgetEq carries heads (World.visitors_withVisitors world _)
              between.toBuffered rests).bind ?_
            rintro ⟨_, streamAfter⟩ after last ⟨rfl, reaches, lookingAfter⟩
            refine (filter_ends equipped serves forwards grounded top
              lookingAfter).andSilent ?_
            rintro _ final end_ ⟨rfl, lookingFinal⟩
            exact ⟨_, _, rfl, (runRecorder _).nil final, rfl, reaches, lookingFinal⟩
    | _ => simp [WireValue.wireType] at lengthDelimited
  · exact lookupPrimitive_realizes equipped serves forwards grounded top lengthDelimited
      numberEq heads looking

variable (keyType) in
omit grounded top in
/-- Every turn under a map filter, by induction on the budget left below it. -/
theorem lookupField_realizes (budget : Nat) :
    ∀ traverser : ProtobufTraverser VisitorPointer, traverser.Grounded →
      traverser.visitor = some front.length →
      TurnsRealize context setting.knowledge limit budget traverser
        (setting.lookupField keyType wantedKeyField wantedKeyContents next budget)
        (Looking setting.knowledge limit wantedKeyField wantedKeyContents valueType
          resting front) := by
  induction budget with
  | zero =>
      intro traverser grounded top
      exact lookupTurns_realize equipped serves forwards grounded top 0
        fun below impossible => absurd impossible (Nat.succ_ne_zero below).symm
  | succ budget induction =>
      intro traverser grounded top
      refine lookupTurns_realize equipped serves forwards grounded top (budget + 1) ?_
      intro below same
      rw [← Nat.succ.inj same]
      exact induction (traverser.inside []) (grounded_inside grounded []) top

end

def lookupResting (knowledge : Knowledge State) (limit : Nat) (wantedKeyField : FieldInfo)
    (wantedKeyContents : StdString) (valueType : FieldType) (position : Nat)
    (resting : Resting State) : Resting State :=
  fun state suffix => ∃ filter rest, suffix = mapFilter filter :: rest ∧
    BetweenFields knowledge limit wantedKeyField wantedKeyContents valueType
      (restingBuffers knowledge position state) filter ∧
    (knowledge.pristine position state = false → filter.reset = filter) ∧
    resting state rest

theorem serves_filter (equipped : Equipped setting context forward)
    (serves : Serves context setting.knowledge limit next resting)
    (forwards : Forwards forward setting limit next resting) {position : Nat}
    (untouched : Untouched setting.knowledge position resting) :
    Serves context setting.knowledge limit
      (setting.mapFilter keyType wantedKeyField wantedKeyContents next position)
      (lookupResting setting.knowledge limit wantedKeyField wantedKeyContents valueType position
        resting) where
  nonempty := by
    rintro state _ ⟨filter, rest, rfl, _⟩
    simp
  primitive front closed value header budget handovers below world state enough grounded
      closes notLengthDelimited heads rests := by
    rcases rests with ⟨_, holds, filter, rest, rfl, between, _, rests⟩
    have outside := between.scope_resting
    have wireType : header.wireType ≠ 2 := heads.1 ▸ notLengthDelimited
    have begins : filter.beginField header.number header.wireType = filter := by
      simp [MapFilter.beginField, outside, wireType]
    have keeps : filter.readPrimitive header = filter := by
      simp [MapFilter.readPrimitive, outside]
    have calls : callBeginField context handovers header.number header.wireType
        (below.inside [some front.length]) world =
        .ok (below.inside [some front.length]) world := by
      refine callBeginField_stays context _ enough ?_
      have stays := beginField_filter setting.utils setting.binaryToJsonString forward holds
        header.number header.wireType
      rw [begins, World.withVisitors_self holds] at stays
      rw [equipped.visitors]
      exact stays
    have reads : context.visitors.readPrimitive (some front.length) header world =
        .ok () world := by
      have passes := readPrimitive_filter setting.utils setting.binaryToJsonString forward
        holds header
      rw [keeps, World.withVisitors_self holds] at passes
      rw [equipped.visitors]
      exact passes
    have leaves : leaveVisitors context [some front.length] world = .ok ()
        (world.withVisitors (front ++ mapFilter filter.leaveScope.reset :: rest)) := by
      have inside : filter.scope ≠ .inEntry := by simp [outside]
      simp only [leaveVisitors, equipped.visitors]
      rw [Program.bind_ok (endField_filter_inside _ _ _ holds inside)]
      exact Program.bind_ok (popped_filter _ _ _ (World.visitors_withVisitors _ _))
    have unfolds : (setting.mapFilter keyType wantedKeyField wantedKeyContents next
        position).field budget value = Action.choose
          (fun state => (setting.knowledge.pristine position state,
            setting.knowledge.touch position state)) fun _ => 1 := by
      cases value with
      | lengthDelimited size payload => exact absurd rfl notLengthDelimited
      | _ => rfl
    rw [unfolds]
    refine Realizes.choose ?_
    refine Realizes.silent (equipped.pushVisitor_inside ..) ((runRecorder _).nil world) ?_
    refine Realizes.silent calls ((runRecorder _).nil world) ?_
    refine Realizes.silent reads ((runRecorder _).nil world) ?_
    have restsLeft : RestsBehind (lookupResting setting.knowledge limit wantedKeyField
        wantedKeyContents valueType position resting) front
        (setting.knowledge.touch position state)
        (world.withVisitors (front ++ mapFilter filter.leaveScope.reset :: rest)) :=
      ⟨_, rfl, _, rest, rfl, between.leaveScope.rests position _, fun _ => rfl,
        untouched _ _ rests⟩
    rcases closes.endField grounded leaves restsLeft with ⟨last, ends, restsLast⟩
    exact Realizes.of_silent ends (runRecorder_withVisitors ..) ⟨rfl, restsLast⟩
  lengthDelimited front closed size payload header fuel budget handovers below stream world
      state enough grounded closes within enoughFuel budgetEq carries heads rests := by
    rcases rests with ⟨_, holds, filter, rest, rfl, between, _, rests⟩
    have outside := between.scope_resting
    have wireType : header.wireType = 2 := heads.1
    have begins : filter.beginField header.number header.wireType =
        filter.inScope .inEntry := by
      simp [MapFilter.beginField, outside, wireType, MapFilter.inScope]
    have calls : callBeginField context handovers header.number header.wireType
        (below.inside [some front.length]) world =
        .ok (below.inside [some front.length])
          (world.withVisitors (front ++ mapFilter (filter.inScope .inEntry) :: rest)) := by
      refine callBeginField_stays context _ enough ?_
      have stays := beginField_filter setting.utils setting.binaryToJsonString forward holds
        header.number header.wireType
      rw [begins] at stays
      rw [equipped.visitors]
      exact stays
    have innerTop : (below.inside [some front.length]).visitor = some front.length := rfl
    have scanned := scanEntry_realizes equipped innerTop
      (fun lower _ => lookupField_realizes keyType equipped serves forwards lower
        (below.inside [some front.length]) (grounded_inside grounded _) innerTop)
      within enoughFuel budgetEq carries heads
      (World.visitors_withVisitors world
        (front ++ mapFilter (filter.inScope .inEntry) :: rest))
      between.toBuffered (untouched _ _ rests)
    rw [Setting.mapFilter_lengthDelimited]
    refine Realizes.choose ?_
    refine Realizes.silent (equipped.pushVisitor_inside ..) ((runRecorder _).nil world) ?_
    refine Realizes.silent calls (runRecorder_withVisitors ..) ?_
    refine scanned.bind ?_
    rintro ⟨_, streamAfter⟩ after last ⟨rfl, reaches, looking⟩
    simp only
    rw [decrementDepthAndEndFieldAndPopVisitors_inside context grounded]
    simp only [leaveVisitors, bind_assoc, pure_bind]
    refine (endField_filter_realizes equipped serves forwards looking).andSilent ?_
    rintro _ left final ⟨filter, rest, leftHolds, leftBetween, leftRests⟩
    have pops := popped_filter setting.utils setting.binaryToJsonString forward leftHolds
    rw [← equipped.visitors] at pops
    have shape := closes (left.withVisitors (front ++ mapFilter filter.reset :: rest)) _
      (World.visitors_withVisitors _ _)
    refine ⟨_, _, (Program.bind_ok pops).trans (Program.bind_ok shape),
      runRecorder_withVisitors .., rfl, reaches, _, rfl, _, rest, rfl,
      leftBetween.toBuffered.rests position _, fun _ => rfl, leftRests⟩

end

end PostgresProtobuf
