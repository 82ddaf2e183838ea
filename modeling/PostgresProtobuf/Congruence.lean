import PostgresProtobuf.CompiledChain

/-! # Chains respect relations between actions

Relations between actions that sequencing respects carry over from what follows a
chain to the chain itself, also where one side has less of the recursion budget. -/

namespace PostgresProtobuf

open Foundation

namespace Setting

/-! ## Nothing uncertain -/

/-- Every unwritten local holds the same bits, and map filters start with zero buffers. -/
def fixed (utils : PostgresUtils)
    (binaryToJsonString : StdString → Bytes → Option StdString) (recursionLimit : Nat)
    (bits : UInt64) : Setting Unit where
  utils := utils
  binaryToJsonString := binaryToJsonString
  recursionLimit := recursionLimit
  knowledge := Knowledge.certain bits

def entryMatches (wantedKeyField : FieldInfo) (wantedKeyContents : StdString)
    (key : WireValue) (keyContents : Bytes) : Bool :=
  decide (keyContents = wantedKeyContents) && (key.header 0).valueEquals wantedKeyField

section

variable (utils : PostgresUtils)
variable (binaryToJsonString : StdString → Bytes → Option StdString)
variable (recursionLimit : Nat) (bits : UInt64)
variable (keyType : FieldType) (wantedKeyField : FieldInfo) (wantedKeyContents : StdString)
variable (next : Delivery Unit)

theorem endEntry_fixed {buffers : EntryBuffers} {key value : WireValue}
    (isKey : buffers.key = some key) (isValue : buffers.value = some value) :
    (fixed utils binaryToJsonString recursionLimit bits).endEntry keyType wantedKeyField
        wantedKeyContents next buffers =
      if entryMatches wantedKeyField wantedKeyContents key buffers.keyContents then
        next.field recursionLimit value
      else 1 := by
  have known : (fixed utils binaryToJsonString recursionLimit bits).knowledge.wantedKeys =
      true := rfl
  unfold endEntry keyMatches entryMatches
  simp only [isKey, isValue, known, true_or, if_true]
  by_cases sameContents : buffers.keyContents = wantedKeyContents
  · cases (key.header 0).valueEquals wantedKeyField <;> simp [sameContents, fixed]
  · simp [sameContents]

theorem mapFilter_fixed (position budget size : Nat) (payload : Bytes) :
    ((fixed utils binaryToJsonString recursionLimit bits).mapFilter keyType wantedKeyField
        wantedKeyContents next position).field budget (.lengthDelimited size payload) =
      let setting := fixed utils binaryToJsonString recursionLimit bits
      let scanned := scanSubmessage
        (setting.lookupField keyType wantedKeyField wantedKeyContents next) budget
        { EntryBuffers.empty with inEntry := true } payload
      scanned.1 *
        (setting.leaveEntry keyType wantedKeyField wantedKeyContents next scanned.2).1 :=
  rfl

end

/-! ## Chains onto a delivery -/

section

variable {State : Type} (setting : Setting State)

noncomputable def chainOnto (onto : Delivery State) : (position : Nat) →
    List ChainPart → Delivery State
  | _, [] => onto
  | position, part :: parts =>
      descend
        (selectField part
          (setting.mapPart (position + 2) part.map
            (chainOnto onto (position + 2 + mapWidth part.map) parts)))
        (0 : Int)

def endOnto (emitter : Delivery State) (trailingDot : Bool) : Delivery State :=
  if trailingDot then
    descend (fun budget (_ : Unit) field => (emitter.field budget field.value, ())) ()
  else
    emitter

theorem chainEnd_eq_endOnto (last : ChainEnd) :
    setting.chainEnd last = endOnto (setting.emitter last.kind) last.trailingDot := rfl

theorem chain_eq_chainOnto (last : ChainEnd) (position : Nat) (parts : List ChainPart) :
    setting.chain last position parts =
      setting.chainOnto (setting.chainEnd last) position parts := by
  induction parts generalizing position with
  | nil => rfl
  | cons part parts induction => rw [chain, chainOnto, induction]

def positionAfter : (position : Nat) → List ChainPart → Nat
  | position, [] => position
  | position, part :: parts => positionAfter (position + 2 + mapWidth part.map) parts

theorem chainOnto_append (onto : Delivery State) (position : Nat)
    (front back : List ChainPart) :
    setting.chainOnto onto position (front ++ back) =
      setting.chainOnto (setting.chainOnto onto (positionAfter position front) back)
        position front := by
  induction front generalizing position with
  | nil => rfl
  | cons part front induction =>
      rw [List.cons_append, chainOnto, chainOnto, induction, positionAfter]

end

end Setting

/-! ## Relations between actions -/

def Stops {State : Type} (action : Activity State) : Prop :=
  ∀ state, ∃ reason, (action state).2 = .error reason

theorem stops_raise {State : Type} (exception : Exception) :
    Stops (raise exception : Activity State) :=
  fun _ => ⟨_, rfl⟩

theorem Stops.mul {State : Type} {first : Activity State} (stops : Stops first)
    (rest : Activity State) : first * rest = first := by
  ext1 state
  rcases stops state with ⟨reason, stopped⟩
  have ends : first state = ((first state).1, .error reason) := Prod.ext rfl stopped
  rw [Action.mul_apply_of_error ends, ← ends]

theorem Stops.mul_right {State : Type} {rest : Activity State} (stops : Stops rest)
    (first : Activity State) : Stops (first * rest) := by
  intro state
  rcases ends : first state with ⟨events, reason | next⟩
  · exact ⟨reason, by rw [Action.mul_apply_of_error ends]⟩
  · rcases stops next with ⟨reason, stopped⟩
    exact ⟨reason, by rw [Action.mul_apply_of_ok ends]; exact stopped⟩

def Exception.Reported : Exception → Prop
  | .badProto _ | .badQuery _ | .recursionDepthExceeded => True
  | _ => False

def Exception.Malformed : Exception → Prop
  | .badProto _ | .recursionDepthExceeded => True
  | _ => False

theorem Exception.Malformed.reported {exception : Exception}
    (malformed : exception.Malformed) : exception.Reported := by
  cases exception <;> trivial

theorem framingException_malformed (fault : FramingFault) :
    (framingException fault).Malformed := by
  cases fault <;> trivial

/-- A relation between actions that sequencing respects. -/
structure Congruence (Related : Activity Unit → Activity Unit → Prop) : Prop where
  one : Related 1 1
  raise : ∀ exception : Exception, exception.Malformed →
    Related (raise exception) (raise exception)
  mul : ∀ {first second third fourth}, Related first second → Related third fourth →
    Related (first * third) (second * fourth)
  stopped : ∀ {first second} (third fourth), Related first second → Stops first →
    Related (first * third) (second * fourth)

def BudgetsRelated (Related : Activity Unit → Activity Unit → Prop) (recursionLimit : Nat)
    (budget other : Nat) : Prop :=
  other ≤ recursionLimit ∧
    (budget = other ∨
      budget ≤ other ∧ ∀ action, Related (raise .recursionDepthExceeded) action)

def TurnsRelated {Progress Other : Type} (Related : Activity Unit → Activity Unit → Prop)
    (Alike : Progress → Other → Prop) (turn : Activity Unit × Progress)
    (other : Activity Unit × Other) : Prop :=
  Related turn.1 other.1 ∧ (Alike turn.2 other.2 ∨ Stops turn.1)

/-- Which budgets the two sides of a relation may have together. The left side runs out
first, before it enters a level that the right side enters. -/
structure BudgetsAllowed (Related : Activity Unit → Activity Unit → Prop)
    (Allowed : Nat → Nat → Prop) (limit otherLimit : Nat) : Prop where
  whole : Allowed limit otherLimit
  pred : ∀ {budget other}, Allowed (budget + 1) (other + 1) → Allowed budget other
  ahead : ∀ {budget}, ¬ Allowed (budget + 1) 0
  exhausted : ∀ {other}, Allowed 0 (other + 1) → ∀ (payload : Bytes) (rest : Activity Unit),
    Related (raise .recursionDepthExceeded) (Action.log (.enter other payload) * rest)
  level : ∀ {budget other}, Allowed budget other → ∀ (payload : Bytes)
    {first second : Activity Unit}, Related first second →
      Related
        (Action.log (.enter budget payload) * first * endOn (readFields payload).2 *
          Action.log .leave)
        (Action.log (.enter other payload) * second * endOn (readFields payload).2 *
          Action.log .leave)

structure LiftsWhere (Related : Activity Unit → Activity Unit → Prop)
    (Allowed : Nat → Nat → Prop) (next other : Delivery Unit) : Prop where
  field : ∀ {budget otherBudget}, Allowed budget otherBudget →
    ∀ value : WireValue, value.Sized →
      Related (next.field budget value) (other.field otherBudget value)
  handed : ∀ type size payload,
    Related (next.handed type size payload) (other.handed type size payload)

abbrev Lifts (Related : Activity Unit → Activity Unit → Prop) (recursionLimit : Nat)
    (next other : Delivery Unit) : Prop :=
  LiftsWhere Related (BudgetsRelated Related recursionLimit) next other

theorem BudgetsRelated.refl {Related : Activity Unit → Activity Unit → Prop}
    {recursionLimit budget : Nat} (enough : budget ≤ recursionLimit) :
    BudgetsRelated Related recursionLimit budget budget :=
  ⟨enough, .inl rfl⟩

section

variable {Related : Activity Unit → Activity Unit → Prop}

theorem endOn_related (congruence : Congruence Related) (fault : Option FramingFault) :
    Related (endOn fault) (endOn fault) := by
  cases fault with
  | none => exact congruence.one
  | some fault => exact congruence.raise _ (framingException_malformed fault)

theorem Congruence.level (congruence : Congruence Related) {entered other : Event}
    (enter : Related (Action.log entered) (Action.log other))
    (leave : Related (Action.log .leave) (Action.log .leave)) (fault : Option FramingFault)
    {first second : Activity Unit} (related : Related first second) :
    Related (Action.log entered * first * endOn fault * Action.log .leave)
      (Action.log other * second * endOn fault * Action.log .leave) :=
  congruence.mul (congruence.mul (congruence.mul enter related)
    (endOn_related congruence fault)) leave

theorem BudgetsAllowed.related (congruence : Congruence Related)
    (enter : ∀ (budget other : Nat) (payload : Bytes),
      budget = other ∨ (∀ action, Related (raise .recursionDepthExceeded) action) →
        Related (Action.log (.enter budget payload)) (Action.log (.enter other payload)))
    (leave : Related (Action.log .leave) (Action.log .leave)) (recursionLimit : Nat) :
    BudgetsAllowed Related (BudgetsRelated Related recursionLimit) recursionLimit
      recursionLimit where
  whole := .refl (Nat.le_refl _)
  pred := by
    intro budget other related
    rcases related with ⟨enough, equal | ⟨bound, always⟩⟩
    · exact ⟨Nat.le_of_succ_le enough, .inl (Nat.succ.inj equal)⟩
    · exact ⟨Nat.le_of_succ_le enough, .inr ⟨Nat.le_of_succ_le_succ bound, always⟩⟩
  ahead := by
    intro budget related
    rcases related.2 with equal | ⟨bound, _⟩ <;> omega
  exhausted := by
    intro other related payload rest
    rcases related.2 with equal | ⟨_, always⟩
    · omega
    · exact always _
  level := by
    intro budget other related payload first second
    exact congruence.level (enter _ _ payload (related.2.imp_right And.right)) leave _

end

section

variable {Related : Activity Unit → Activity Unit → Prop} {Allowed : Nat → Nat → Prop}
variable {limit otherLimit : Nat}

section

variable {Progress Other : Type} {Alike : Progress → Other → Prop}

theorem TurnsRelated.of_stops {turn : Activity Unit × Progress}
    {other : Activity Unit × Other} (related : Related turn.1 other.1)
    (stops : Stops turn.1) : TurnsRelated Related Alike turn other :=
  ⟨related, .inr stops⟩

variable (congruence : Congruence Related)

include congruence

theorem turns_related {Item : Type} {turn : Progress → Item → Activity Unit × Progress}
    {otherTurn : Other → Item → Activity Unit × Other} {items : List Item}
    (steps : ∀ item ∈ items, ∀ progress other, Alike progress other →
      TurnsRelated Related Alike (turn progress item) (otherTurn other item))
    {progress : Progress} {other : Other} (alike : Alike progress other) :
    TurnsRelated Related Alike (turns turn progress items)
      (turns otherTurn other items) := by
  induction items generalizing progress other with
  | nil => exact ⟨congruence.one, .inl alike⟩
  | cons item items induction =>
      rcases steps item List.mem_cons_self progress other alike with
        ⟨related, stillAlike | stops⟩
      · rcases induction (fun later member => steps later (List.mem_cons_of_mem _ member))
          stillAlike with ⟨relatedRest, endsAlike⟩
        refine ⟨congruence.mul related relatedRest, ?_⟩
        rcases endsAlike with endsAlike | stops
        · exact .inl endsAlike
        · exact .inr (stops.mul_right _)
      · refine ⟨congruence.stopped _ _ related stops, .inr ?_⟩
        rw [turns, stops.mul]
        exact stops

variable (allowed : BudgetsAllowed Related Allowed limit otherLimit)

include allowed

theorem scanLevel_related {budget otherBudget : Nat} (budgets : Allowed budget otherBudget)
    {turn : Progress → WireField → Activity Unit × Progress}
    {otherTurn : Other → WireField → Activity Unit × Other} {payload : Bytes}
    (steps : ∀ field ∈ (readFields payload).1, ∀ progress other, Alike progress other →
      TurnsRelated Related Alike (turn progress field) (otherTurn other field))
    {progress : Progress} {other : Other} (alike : Alike progress other) :
    TurnsRelated Related Alike (scanLevel budget turn progress payload)
      (scanLevel otherBudget otherTurn other payload) := by
  rcases turns_related congruence steps alike with ⟨related, endsAlike⟩
  refine ⟨?_, ?_⟩
  · exact allowed.level budgets payload related
  · rcases endsAlike with endsAlike | stops
    · exact .inl endsAlike
    · refine .inr ?_
      simp only [scanLevel]
      rw [mul_assoc, mul_assoc, stops.mul]
      exact stops.mul_right _

theorem scanSubmessage_related
    {turn : Nat → Progress → WireField → Activity Unit × Progress}
    {otherTurn : Nat → Other → WireField → Activity Unit × Other} {payload : Bytes}
    {budget otherBudget : Nat}
    (steps : ∀ lower otherLower, lower < budget → Allowed lower otherLower →
      ∀ field ∈ (readFields payload).1, ∀ progress other, Alike progress other →
        TurnsRelated Related Alike (turn lower progress field)
          (otherTurn otherLower other field))
    (budgets : Allowed budget otherBudget)
    {progress : Progress} {other : Other} (alike : Alike progress other) :
    TurnsRelated Related Alike (scanSubmessage turn budget progress payload)
      (scanSubmessage otherTurn otherBudget other payload) := by
  cases budget with
  | zero =>
      refine .of_stops ?_ (stops_raise _)
      cases otherBudget with
      | zero => exact congruence.raise _ trivial
      | succ otherBudget =>
          simp only [scanSubmessage, scanLevel, mul_assoc]
          exact allowed.exhausted budgets _ _
  | succ budget =>
      cases otherBudget with
      | zero => exact absurd budgets allowed.ahead
      | succ otherBudget =>
          exact scanLevel_related congruence allowed (allowed.pred budgets)
            (steps budget otherBudget (Nat.lt_succ_self _) (allowed.pred budgets)) alike

end

/-! ## Deliveries -/

section

variable (congruence : Congruence Related)

include congruence

theorem readWhole_related (text : String) (size : Nat) (payload : Bytes)
    {continuation other : Activity Unit} (related : Related continuation other) :
    Related (readWhole text size payload continuation) (readWhole text size payload other) := by
  unfold readWhole
  split
  · exact related
  · exact congruence.raise _ trivial

theorem treatAs_related {readString readBytes bufferedValue : Bytes → Activity Unit}
    {otherString otherBytes otherValue : Bytes → Activity Unit}
    (strings : ∀ payload, Related (readString payload) (otherString payload))
    (bytes : ∀ payload, Related (readBytes payload) (otherBytes payload))
    (values : ∀ payload, Related (bufferedValue payload) (otherValue payload))
    (treatment : LengthDelimitedFieldTreatment) (size : Nat) (payload : Bytes) :
    Related (Setting.treatAs readString readBytes bufferedValue treatment size payload)
      (Setting.treatAs otherString otherBytes otherValue treatment size payload) := by
  cases treatment with
  | asString => exact readWhole_related congruence _ _ _ (strings payload)
  | asBytes => exact readWhole_related congruence _ _ _ (bytes payload)
  | buffer => exact readWhole_related congruence _ _ _ (values payload)
  | _ => exact congruence.one

variable (allowed : BudgetsAllowed Related Allowed limit otherLimit)

section

include allowed

theorem descend_lifts {Progress Other : Type} {Alike : Progress → Other → Prop}
    {turn : Nat → Progress → WireField → Activity Unit × Progress}
    {otherTurn : Nat → Other → WireField → Activity Unit × Other}
    (steps : ∀ budget otherBudget, Allowed budget otherBudget →
      ∀ field : WireField, field.value.Sized → ∀ progress other, Alike progress other →
        TurnsRelated Related Alike (turn budget progress field)
          (otherTurn otherBudget other field))
    {start : Progress} {otherStart : Other} (alike : Alike start otherStart) :
    LiftsWhere Related Allowed (Setting.descend turn start)
      (Setting.descend otherTurn otherStart) where
  field := by
    intro budget otherBudget budgets value sized
    cases value with
    | lengthDelimited size payload =>
        exact (scanSubmessage_related congruence allowed
          (fun lower otherLower _ budgets field member =>
            steps lower otherLower budgets field (readFields_sized payload field member))
          budgets alike).1
    | _ => exact congruence.one
  handed type size payload :=
    treatAs_related congruence (fun _ => congruence.one) (fun _ => congruence.one)
      (fun _ => congruence.one) _ size payload

end

variable {next other : Delivery Unit} (lifts : LiftsWhere Related Allowed next other)

include lifts

include allowed in
theorem endOnto_lifts (trailingDot : Bool) :
    LiftsWhere Related Allowed (Setting.endOnto next trailingDot)
      (Setting.endOnto other trailingDot) := by
  unfold Setting.endOnto
  split
  · refine descend_lifts congruence allowed ?_ rfl
    rintro budget otherBudget budgets field sized progress _ rfl
    exact ⟨lifts.field budgets _ sized, .inl rfl⟩
  · exact lifts

theorem selectElement_related {part : ChainPart} {budget otherBudget : Nat}
    (budgets : Allowed budget otherBudget) (number index : Int)
    {value : WireValue} (sized : value.Sized) :
    TurnsRelated Related Eq (Setting.selectElement part next budget number index value)
      (Setting.selectElement part other otherBudget number index value) := by
  refine ⟨?_, .inl rfl⟩
  unfold Setting.selectElement
  split
  · exact lifts.field budgets value sized
  · exact congruence.one

theorem selectPacked_related {part : ChainPart} {budget otherBudget : Nat}
    (budgets : Allowed budget otherBudget) (number index : Int)
    (payload : Bytes) :
    TurnsRelated Related Eq (Setting.selectPacked part next budget number index payload)
      (Setting.selectPacked part other otherBudget number index payload) := by
  unfold Setting.selectPacked
  cases Setting.packedWireType part.type with
  | none => exact ⟨congruence.one, .inl rfl⟩
  | some wireType =>
      have scanned : TurnsRelated Related Eq
          (turns (Setting.selectElement part next budget number) index
            (readElements wireType payload).1)
          (turns (Setting.selectElement part other otherBudget number) index
            (readElements wireType payload).1) :=
        turns_related congruence
          (fun value member progress _ equal => equal ▸
            selectElement_related congruence lifts budgets number progress
              (readElements_sized wireType payload value member))
          rfl
      refine ⟨congruence.mul scanned.1 (endOn_related congruence _), ?_⟩
      rcases scanned.2 with equal | stops
      · exact .inl equal
      · refine .inr ?_
        simp only
        rw [stops.mul]
        exact stops

theorem selectField_related {part : ChainPart} {budget otherBudget : Nat}
    (budgets : Allowed budget otherBudget) (index : Int)
    {field : WireField} (sized : field.value.Sized) :
    TurnsRelated Related Eq (Setting.selectField part next budget index field)
      (Setting.selectField part other otherBudget index field) := by
  have plain : TurnsRelated Related Eq
      (if part.Emits field.number index then next.field budget field.value else 1,
        part.indexAfter field.number index)
      (if part.Emits field.number index then other.field otherBudget field.value else 1,
        part.indexAfter field.number index) := by
    refine ⟨?_, .inl rfl⟩
    dsimp only
    split
    · exact lifts.field budgets _ sized
    · exact congruence.one
  rcases field with ⟨number, value⟩
  cases value with
  | lengthDelimited size payload =>
      simp only [Setting.selectField]
      split
      · have packed : TurnsRelated Related Eq
            (Setting.selectPacked part next budget number index payload)
            (Setting.selectPacked part other otherBudget number index payload) :=
          selectPacked_related congruence lifts budgets number index payload
        refine ⟨packed.1, ?_⟩
        rcases packed.2 with equal | stops
        · exact .inl (congrArg (part.indexAfter number) equal)
        · exact .inr stops
      · refine ⟨?_, .inl rfl⟩
        dsimp only
        split
        · split
          · exact lifts.field budgets _ sized
          · exact lifts.handed ..
        · exact congruence.one
  | _ => exact plain

theorem entriesField_related (wantKeys : Bool) {budget otherBudget : Nat}
    (budgets : Allowed budget otherBudget) (start otherStart : Unit)
    {field : WireField} (sized : field.value.Sized) :
    TurnsRelated Related Eq (Setting.entriesField wantKeys next budget start field)
      (Setting.entriesField wantKeys other otherBudget otherStart field) := by
  refine ⟨?_, .inl rfl⟩
  unfold Setting.entriesField
  split
  · exact lifts.field budgets _ sized
  · exact congruence.one

include allowed in
theorem allMapEntries_lifts (wantKeys : Bool) :
    LiftsWhere Related Allowed (Setting.allMapEntries wantKeys next)
      (Setting.allMapEntries wantKeys other) where
  field := by
    intro budget otherBudget budgets value sized
    cases value with
    | lengthDelimited size payload =>
        have scanned : TurnsRelated Related Eq
            (scanSubmessage (Setting.entriesField wantKeys next) budget () payload)
            (scanSubmessage (Setting.entriesField wantKeys other) otherBudget () payload) := by
          refine scanSubmessage_related congruence allowed ?_ budgets rfl
          intro lower otherLower _ budgets field member start otherStart _
          have sized := readFields_sized payload field member
          exact entriesField_related congruence lifts wantKeys budgets start otherStart sized
        exact scanned.1
    | _ => exact congruence.one
  handed _ _ _ := congruence.one

end

/-! ## Map filters -/

structure BuffersRelated (Related : Activity Unit → Activity Unit → Prop)
    (next other : Delivery Unit) (limit otherLimit : Nat)
    (buffers others : Setting.EntryBuffers) : Prop where
  inEntry : buffers.inEntry = others.inEntry
  key : buffers.key = others.key
  keyContents : buffers.keyContents = others.keyContents
  known : ∃ key, buffers.key = some key
  value : ∃ value otherValue, buffers.value = some value ∧
    others.value = some otherValue ∧
    Related (next.field limit value) (other.field otherLimit otherValue)

theorem TurnsRelated.andThen {Progress Other Last OtherLast : Type}
    {Alike : Progress → Other → Prop} {AlikeAfter : Last → OtherLast → Prop}
    (congruence : Congruence Related) {turn : Activity Unit × Progress}
    {otherTurn : Activity Unit × Other} {rest : Progress → Activity Unit × Last}
    {otherRest : Other → Activity Unit × OtherLast}
    (first : TurnsRelated Related Alike turn otherTurn)
    (second : Alike turn.2 otherTurn.2 →
      TurnsRelated Related AlikeAfter (rest turn.2) (otherRest otherTurn.2)) :
    TurnsRelated Related AlikeAfter (turn.1 * (rest turn.2).1, (rest turn.2).2)
      (otherTurn.1 * (otherRest otherTurn.2).1, (otherRest otherTurn.2).2) := by
  rcases first with ⟨related, alike | stops⟩
  · rcases second alike with ⟨relatedRest, after⟩
    refine ⟨congruence.mul related relatedRest, ?_⟩
    rcases after with after | stopsRest
    · exact .inl after
    · exact .inr (stopsRest.mul_right _)
  · refine ⟨congruence.stopped _ _ related stops, .inr ?_⟩
    simp only
    rw [stops.mul]
    exact stops

section

variable {utils otherUtils : PostgresUtils}
variable {binaryToJsonString otherToJsonString : StdString → Bytes → Option StdString}
variable {bits : UInt64}
variable {keyType : FieldType} {wantedKeyField : FieldInfo} {wantedKeyContents : StdString}
variable {next other : Delivery Unit}

theorem BuffersRelated.inside {buffers others : Setting.EntryBuffers}
    (alike : BuffersRelated Related next other limit otherLimit buffers others) :
    BuffersRelated Related next other limit otherLimit
      { buffers with inEntry := true } { others with inEntry := true } :=
  { alike with inEntry := rfl }

variable (congruence : Congruence Related)
variable (allowed : BudgetsAllowed Related Allowed limit otherLimit)
variable (lifts : LiftsWhere Related Allowed next other)

section

include allowed lifts

theorem buffersRelated_empty :
    BuffersRelated Related next other limit otherLimit .empty .empty where
  inEntry := rfl
  key := rfl
  keyContents := rfl
  known := ⟨_, rfl⟩
  value := ⟨_, _, rfl, rfl, lifts.field (allowed.whole) _ trivial⟩

include congruence

theorem leaveEntry_related {buffers others : Setting.EntryBuffers}
    (alike : BuffersRelated Related next other limit otherLimit buffers others) :
    TurnsRelated Related (BuffersRelated Related next other limit otherLimit)
      ((Setting.fixed utils binaryToJsonString limit bits).leaveEntry keyType
        wantedKeyField wantedKeyContents next buffers)
      ((Setting.fixed otherUtils otherToJsonString otherLimit bits).leaveEntry keyType
        wantedKeyField wantedKeyContents other others) := by
  rcases alike.known with ⟨key, isKey⟩
  rcases alike.value with ⟨value, otherValue, isValue, isOther, related⟩
  unfold Setting.leaveEntry
  rw [← alike.inEntry]
  split
  · refine ⟨?_, .inl (buffersRelated_empty allowed lifts)⟩
    dsimp only
    rw [Setting.endEntry_fixed _ _ _ _ _ _ _ _ isKey isValue,
      Setting.endEntry_fixed _ _ _ _ _ _ _ _ (alike.key.symm.trans isKey) isOther,
      alike.keyContents]
    split
    · exact related
    · exact congruence.one
  · exact ⟨congruence.one, .inl alike⟩

theorem lookupField_related {budget otherBudget : Nat}
    (budgets : Allowed budget otherBudget)
    {buffers others : Setting.EntryBuffers}
    (alike : BuffersRelated Related next other limit otherLimit buffers others)
    {field : WireField} (sized : field.value.Sized) :
    TurnsRelated Related (BuffersRelated Related next other limit otherLimit)
      ((Setting.fixed utils binaryToJsonString limit bits).lookupField keyType
        wantedKeyField wantedKeyContents next budget buffers field)
      ((Setting.fixed otherUtils otherToJsonString otherLimit bits).lookupField keyType
        wantedKeyField wantedKeyContents other otherBudget others field) := by
  induction budget using Nat.strongRecOn generalizing otherBudget buffers others field with
  | _ budget induction =>
      rcases field with ⟨number, value⟩
      by_cases primitive : value.wireType ≠ 2
      · rw [Setting.lookupField_primitive _ _ _ _ _ primitive,
          Setting.lookupField_primitive _ _ _ _ _ primitive, ← alike.inEntry]
        split
        · split
          · exact ⟨congruence.one, .inl
              ⟨rfl, rfl, alike.keyContents, ⟨_, rfl⟩, alike.value⟩⟩
          · split
            · exact ⟨congruence.one, .inl ⟨rfl, alike.key, alike.keyContents,
                alike.known, _, _, rfl, rfl, lifts.field (allowed.whole) _ sized⟩⟩
            · exact leaveEntry_related congruence allowed lifts alike
        · exact ⟨congruence.one, .inl alike⟩
      · cases value with
        | lengthDelimited size payload =>
            have whole := readWhole_related congruence
              "failed to fully read length-delimited field" size payload congruence.one
            by_cases isKey : buffers.inEntry ∧ number = 1
            · rcases isKey with ⟨inEntry, rfl⟩
              rw [Setting.lookupField_key _ _ _ _ _ inEntry,
                Setting.lookupField_key _ _ _ _ _ (alike.inEntry ▸ inEntry)]
              exact ⟨whole, .inl ⟨alike.inEntry, rfl, rfl, ⟨_, rfl⟩, alike.value⟩⟩
            · by_cases isValue : buffers.inEntry ∧ number = 2
              · rcases isValue with ⟨inEntry, rfl⟩
                rw [Setting.lookupField_value _ _ _ _ _ inEntry,
                  Setting.lookupField_value _ _ _ _ _ (alike.inEntry ▸ inEntry)]
                exact ⟨whole, .inl ⟨alike.inEntry, alike.key, alike.keyContents, alike.known,
                  _, _, rfl, rfl, lifts.field (allowed.whole) _ sized⟩⟩
              · rw [Setting.lookupField_entry _ _ _ _ _ isKey isValue,
                  Setting.lookupField_entry _ _ _ _ _ (alike.inEntry ▸ isKey)
                    (alike.inEntry ▸ isValue)]
                refine TurnsRelated.andThen congruence ?_
                  (leaveEntry_related congruence allowed lifts)
                refine scanSubmessage_related congruence allowed ?_ budgets alike.inside
                intro lower otherLower less budgets field member buffers others alike
                have sized := readFields_sized payload field member
                exact induction lower less budgets alike sized
        | _ => exact absurd (by simp [WireValue.wireType]) primitive

theorem mapFilter_lifts (position otherPosition : Nat) :
    LiftsWhere Related Allowed
      ((Setting.fixed utils binaryToJsonString limit bits).mapFilter keyType
        wantedKeyField wantedKeyContents next position)
      ((Setting.fixed otherUtils otherToJsonString otherLimit bits).mapFilter keyType
        wantedKeyField wantedKeyContents other otherPosition) where
  field := by
    intro budget otherBudget budgets value sized
    cases value with
    | lengthDelimited size payload =>
        rw [Setting.mapFilter_fixed, Setting.mapFilter_fixed]
        refine (TurnsRelated.andThen congruence ?_
          (leaveEntry_related congruence allowed lifts)).1
        refine scanSubmessage_related congruence allowed ?_ budgets
          (buffersRelated_empty allowed lifts).inside
        intro lower otherLower _ budgets field member buffers others alike
        have sized := readFields_sized payload field member
        exact lookupField_related congruence allowed lifts budgets alike sized
    | _ => exact congruence.one
  handed _ _ _ := congruence.one

theorem mapPart_lifts (position otherPosition : Nat) (map : MapPart) :
    LiftsWhere Related Allowed
      ((Setting.fixed utils binaryToJsonString limit bits).mapPart position map
        next)
      ((Setting.fixed otherUtils otherToJsonString otherLimit bits).mapPart
        otherPosition map other) := by
  cases map with
  | none => exact lifts
  | entries wantKeys type => exact allMapEntries_lifts congruence allowed lifts wantKeys
  | lookup keyType wantedKeyField wantedKeyContents valueType =>
      exact mapFilter_lifts congruence allowed lifts position otherPosition

end

include congruence allowed

/-- Chains lift relations from their continuations, by induction on the parts. -/
theorem chainOnto_lifts {onto otherOnto : Delivery Unit}
    (lifts : LiftsWhere Related Allowed onto otherOnto) (parts : List ChainPart)
    (position otherPosition : Nat) :
    LiftsWhere Related Allowed
      ((Setting.fixed utils binaryToJsonString limit bits).chainOnto onto position
        parts)
      ((Setting.fixed otherUtils otherToJsonString otherLimit bits).chainOnto otherOnto
        otherPosition parts) := by
  induction parts generalizing position otherPosition with
  | nil => exact lifts
  | cons part parts induction =>
      refine descend_lifts congruence allowed ?_ rfl
      rintro budget otherBudget budgets field sized index _ rfl
      exact selectField_related congruence
        (mapPart_lifts congruence allowed (induction _ _) _ _ part.map) budgets index sized

end

/-! ## Whole chains -/

section

variable (utils : PostgresUtils)
variable (binaryToJsonString : StdString → Bytes → Option StdString)
variable (bits : UInt64)

theorem emitPrimitive_fixed (recursionLimit : Nat) (kind : EmitterKind) (value : WireValue) :
    (Setting.fixed utils binaryToJsonString recursionLimit bits).emitPrimitive kind value =
      emit (kind.readPrimitive utils (value.header bits)) := by
  have known : (Knowledge.certain bits).read
      (fun bits => kind.readPrimitive utils (value.header bits)) =
      some (kind.readPrimitive utils (value.header bits)) :=
    Knowledge.read_of_determined _ fun other possible => by rw [possible bits rfl]
  simp only [Setting.emitPrimitive, Setting.fixed, known]

def EmitterKind.Throws (kind : EmitterKind) (exception : Exception) : Prop :=
  exception.Malformed ∨
    exception.Reported ∧ ∃ typeUrl, kind = .message typeUrl ∧ typeUrl.isEmpty = true

theorem EmitterKind.Throws.reported {kind : EmitterKind} {exception : Exception}
    (throws : kind.Throws exception) : exception.Reported := by
  rcases throws with malformed | ⟨reported, _⟩
  · exact malformed.reported
  · exact reported

theorem readPrimitive_throws (kind : EmitterKind) (field : FieldInfo)
    {exception : Exception} (throws : kind.readPrimitive utils field = .error exception) :
    kind.Throws exception := by
  apply Or.inl
  cases kind with
  | primitive type =>
      cases type <;> simp [EmitterKind.readPrimitive, EmitterKind.primitiveRow, Except.map]
        at throws <;> (subst throws; trivial)
  | _ => simp [EmitterKind.readPrimitive] at throws

theorem bufferedValue_throws (kind : EmitterKind) (contents : StdString)
    {exception : Exception}
    (throws : kind.bufferedValue binaryToJsonString contents = .error exception) :
    kind.Throws exception := by
  unfold EmitterKind.bufferedValue at throws
  split at throws
  · rename_i typeUrl
    split at throws
    · rename_i unknown
      cases throws
      exact .inr ⟨trivial, typeUrl, rfl, unknown⟩
    · split at throws <;> cases throws
      exact .inl trivial
  · simp at throws

variable (congruence : Congruence Related)

include congruence

theorem emit_related (rows : ∀ row, Related (Action.log (.row row)) (Action.log (.row row)))
    {Throws : Exception → Prop}
    (raises : ∀ exception, Throws exception → Related (raise exception) (raise exception))
    (row : Except Exception (Option StdString))
    (throws : ∀ exception, row = .error exception → Throws exception) :
    Related (emit row) (emit row) := by
  rcases row with exception | _ | text
  · exact raises _ (throws _ rfl)
  · exact congruence.one
  · exact rows text

variable (rows : ∀ row, Related (Action.log (.row row)) (Action.log (.row row)))

include rows

theorem emitter_lifts (kind : EmitterKind)
    (raises : ∀ exception, kind.Throws exception →
      Related (raise exception) (raise exception)) :
    LiftsWhere Related Allowed
      ((Setting.fixed utils binaryToJsonString limit bits).emitter kind)
      ((Setting.fixed utils binaryToJsonString otherLimit bits).emitter kind) := by
  have treated := treatAs_related congruence
    (fun contents => emit_related congruence rows raises (.ok (kind.readString contents)) nofun)
    (fun contents => emit_related congruence rows raises (.ok (kind.readBytes contents)) nofun)
    (fun contents => emit_related congruence rows raises
      (kind.bufferedValue binaryToJsonString contents)
      fun _ => bufferedValue_throws binaryToJsonString kind contents)
  have primitive : ∀ value, Related
      ((Setting.fixed utils binaryToJsonString limit bits).emitPrimitive kind value)
      ((Setting.fixed utils binaryToJsonString otherLimit bits).emitPrimitive kind value) := by
    intro value
    rw [emitPrimitive_fixed, emitPrimitive_fixed]
    exact emit_related congruence rows raises _ fun _ => readPrimitive_throws utils kind _
  refine ⟨?_, fun type size payload => treated _ size payload⟩
  intro budget otherBudget _ value _
  cases value with
  | lengthDelimited size payload => exact treated _ size payload
  | _ => exact primitive _

theorem chain_lifts (allowed : BudgetsAllowed Related Allowed limit otherLimit)
    (last : ChainEnd)
    (raises : ∀ exception, last.kind.Throws exception →
      Related (raise exception) (raise exception))
    (parts : List ChainPart) (position otherPosition : Nat) :
    LiftsWhere Related Allowed
      ((Setting.fixed utils binaryToJsonString limit bits).chain last position parts)
      ((Setting.fixed utils binaryToJsonString otherLimit bits).chain last otherPosition
        parts) := by
  rw [Setting.chain_eq_chainOnto, Setting.chain_eq_chainOnto]
  refine chainOnto_lifts congruence allowed ?_ parts position otherPosition
  exact endOnto_lifts congruence allowed
    (emitter_lifts utils binaryToJsonString bits congruence rows last.kind raises) _

end

end

/-! ## Properties of all actions of a chain -/

structure KeptByChains (Holds : Activity Unit → Prop) : Prop where
  one : Holds 1
  raise : ∀ exception : Exception, exception.Malformed → Holds (raise exception)
  mul : ∀ {first rest}, Holds first → Holds rest → Holds (first * rest)
  level : ∀ (budget : Nat) (payload : Bytes) {scanned}, Holds scanned →
    Holds (Action.log (.enter budget payload) * scanned * endOn (readFields payload).2 *
      Action.log .leave)

namespace KeptByChains

variable {Holds : Activity Unit → Prop} (kept : KeptByChains Holds)

include kept

theorem congruence : Congruence fun action other => action = other ∧ Holds action where
  one := ⟨rfl, kept.one⟩
  raise exception malformed := ⟨rfl, kept.raise exception malformed⟩
  mul := by
    rintro first _ third _ ⟨rfl, holds⟩ ⟨rfl, holdsRest⟩
    exact ⟨rfl, kept.mul holds holdsRest⟩
  stopped := by
    rintro first _ third fourth ⟨rfl, holds⟩ stops
    rw [stops.mul, stops.mul]
    exact ⟨rfl, holds⟩

theorem allowed (limit : Nat) :
    BudgetsAllowed (fun action other => action = other ∧ Holds action) Eq limit limit where
  whole := rfl
  pred := Nat.succ.inj
  ahead := nofun
  exhausted := nofun
  level := by
    rintro budget _ rfl payload first _ ⟨rfl, holds⟩
    exact ⟨rfl, kept.level budget payload holds⟩

theorem chain (utils : PostgresUtils)
    (binaryToJsonString : StdString → Bytes → Option StdString) (limit : Nat) (bits : UInt64)
    (rows : ∀ row, Holds (Action.log (.row row))) (last : ChainEnd)
    (raises : ∀ exception, last.kind.Throws exception → Holds (PostgresProtobuf.raise exception))
    (parts : List ChainPart) (position budget : Nat) {value : WireValue} (sized : value.Sized) :
    Holds (((Setting.fixed utils binaryToJsonString limit bits).chain last position
      parts).field budget value) :=
  ((chain_lifts utils binaryToJsonString bits kept.congruence (fun row => ⟨rfl, rows row⟩)
    (kept.allowed limit) last (fun exception throws => ⟨rfl, raises exception throws⟩) parts
    position position).field rfl value sized).2

end KeptByChains

end PostgresProtobuf
