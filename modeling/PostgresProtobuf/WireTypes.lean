import PostgresProtobuf.Flows
import PostgresProtobuf.RowLimits

/-! # The wire types that rows are made of

A run with every row labelled with the wire type of the value that the emitter made it of:
a field occurrence, an element of a packed field, or a key or a value of a map. -/

namespace PostgresProtobuf

open Foundation

variable {Message : Type}

/-! ## Labels -/

namespace Event

def labelled (wireType : Nat) : Event → Event
  | row text => row (UInt8.ofNat wireType :: text)
  | event => event

def unlabelled : Event → Event
  | row text => row text.tail
  | event => event

theorem unlabelled_labelled (wireType : Nat) (event : Event) :
    (event.labelled wireType).unlabelled = event := by
  cases event <;> rfl

def labels (events : List Event) : List (Nat × StdString) :=
  (rows events).map fun row => ((row.headD 0).toNat, row.tail)

theorem labels_append (front back : List Event) :
    labels (front ++ back) = labels front ++ labels back := by
  rw [labels, rows_append, List.map_append]
  rfl

theorem labels_of_isRow {event : Event} (noRow : event.isRow = false) : labels [event] = [] := by
  cases event with
  | row text => cases noRow
  | _ => rfl

theorem rows_unlabelled (events : List Event) :
    rows (events.map unlabelled) = (labels events).map Prod.snd := by
  induction events with
  | nil => rfl
  | cons event events induction =>
      cases event with
      | row text => exact congrArg (text.tail :: ·) induction
      | _ => exact induction

theorem labels_labelled {wireType : Nat} (small : wireType < 256) (events : List Event) :
    labels (events.map (labelled wireType)) = (rows events).map fun row => (wireType, row) := by
  induction events with
  | nil => rfl
  | cons event events induction =>
      cases event with
      | row text =>
          have first : (UInt8.ofNat wireType).toNat = wireType := by
            rw [UInt8.toNat_ofNat']
            exact Nat.mod_eq_of_lt small
          have split : labels ((row text :: events).map (labelled wireType)) =
              ((UInt8.ofNat wireType).toNat, text) ::
                labels (events.map (labelled wireType)) := rfl
          rw [split, first, induction]
          rfl
      | _ => exact induction

def wireTypes (keep : Nat → Bool) (events : List Event) : List Nat :=
  ((labels events).map Prod.fst).filter keep

theorem wireTypes_labelled {wireType : Nat} (small : wireType < 256) (keep : Nat → Bool)
    (events : List Event) :
    wireTypes keep (events.map (labelled wireType)) =
      if keep wireType then (rows events).map fun _ => wireType else [] := by
  rw [wireTypes, labels_labelled small, List.map_map]
  split
  · rename_i kept
    apply List.filter_eq_self.mpr
    intro found member
    rcases List.mem_map.mp member with ⟨row, _, rfl⟩
    exact kept
  · rename_i dropped
    rw [List.filter_eq_nil_iff]
    intro found member
    rcases List.mem_map.mp member with ⟨row, _, rfl⟩
    exact dropped

theorem wireTypes_of_isRow (keep : Nat → Bool) {event : Event} (noRow : event.isRow = false) :
    wireTypes keep [event] = [] := by
  rw [wireTypes, labels_of_isRow noRow]
  rfl

end Event

namespace View

def all : View Event where
  see events := events
  nil := rfl
  append _ _ := rfl

def unlabelled : View Event where
  see events := events.map Event.unlabelled
  nil := rfl
  append _ _ := List.map_append

def wireTypes (keep : Nat → Bool) : View Nat where
  see := Event.wireTypes keep
  nil := rfl
  append front back := by
    rw [Event.wireTypes, Event.labels_append, List.map_append, List.filter_append]
    rfl

end View

def labelled (wireType : Nat) (action : Activity Unit) : Activity Unit := fun state =>
  ((action state).1.map (Event.labelled wireType), (action state).2)

/-! ## Labelled runs -/

namespace Setting

def labelledEmitter (emitter : Delivery Unit) : Delivery Unit where
  field budget value := labelled value.wireType (emitter.field budget value)
  handed type size payload := labelled 2 (emitter.handed type size payload)

def handing : Delivery Unit where
  field _ value := Action.log (.row [UInt8.ofNat value.wireType])
  handed _ _ _ := Action.log (.row [2])

variable (setting : Setting Unit) (parts : List ChainPart) (last : ChainEnd) (message : Bytes)

noncomputable def runsOnto (onto : Delivery Unit) : Activity Unit :=
  (setting.chainOnto (endOnto onto last.trailingDot) 0 parts).field setting.recursionLimit
    (.ofPayload message)

noncomputable def origins : List (Nat × StdString) :=
  Event.labels (setting.runsOnto parts last message
    (labelledEmitter (setting.emitter last.kind)) ()).1

/-- The wire types of all that the parts of a path hand to its end. -/
noncomputable def handedWireTypes : List Nat :=
  Event.wireTypes (fun _ => true) (setting.runsOnto parts last message handing ()).1

theorem runs_eq_runsOnto :
    setting.runs parts last message =
      setting.runsOnto parts last message (setting.emitter last.kind) := by
  rw [runs, chain_eq_chainOnto, chainEnd_eq_endOnto, runsOnto]

theorem seenAlike_runsOnto {Item : Type} {view otherView : View Item}
    (levels : ∀ event, event.isRow = false → view.see [event] = otherView.see [event])
    {utils : PostgresUtils} {binaryToJsonString : StdString → Bytes → Option StdString}
    {limit : Nat} {bits : UInt64} {onto other : Delivery Unit}
    (fields : ∀ budget value,
      SeenAlike view otherView (onto.field budget value) (other.field budget value))
    (handed : ∀ type size payload,
      SeenAlike view otherView (onto.handed type size payload) (other.handed type size payload))
    (bounded : message.length < 2 ^ 31) :
    let setting := fixed utils binaryToJsonString limit bits
    SeenAlike view otherView (setting.runsOnto parts last message onto)
      (setting.runsOnto parts last message other) := by
  have allowed := allowed_seenAlike view otherView levels limit
  have ends : LiftsWhere (SeenAlike view otherView) Eq onto other := by
    refine ⟨?_, handed⟩
    rintro budget _ rfl value _
    exact fields budget value
  exact (chainOnto_lifts (congruence_seenAlike view otherView) allowed
    (endOnto_lifts (congruence_seenAlike view otherView) allowed ends last.trailingDot) parts 0
    0).field rfl (.ofPayload message) bounded

theorem wireType_lt (value : WireValue) : value.wireType < 256 := by
  cases value <;> simp [WireValue.wireType]

section

variable {utils : PostgresUtils} {binaryToJsonString : StdString → Bytes → Option StdString}
variable {limit : Nat} {bits : UInt64}

theorem emitter_primitive {kind : EmitterKind} {value : WireValue}
    (primitive : value.wireType ≠ 2) (budget : Nat) :
    ((fixed utils binaryToJsonString limit bits).emitter kind).field budget value =
      emit (kind.readPrimitive utils (value.header bits)) := by
  rw [← emitPrimitive_fixed utils binaryToJsonString bits limit]
  cases value with
  | lengthDelimited size payload => exact absurd rfl primitive
  | _ => rfl

theorem rows_origins (bounded : message.length < 2 ^ 31) :
    let setting := fixed utils binaryToJsonString limit bits
    Event.rows (setting.runs parts last message ()).1 =
      (setting.origins parts last message).map Prod.snd := by
  intro setting
  have unlabelled : ∀ wireType (action : Activity Unit),
      SeenAlike .all .unlabelled action (labelled wireType action) := by
    intro wireType action
    have erased : ∀ event, (Event.unlabelled ∘ Event.labelled wireType) event = event :=
      Event.unlabelled_labelled wireType
    refine ⟨?_, rfl⟩
    simp only [View.all, View.unlabelled, labelled, List.map_map, funext erased]
    exact (List.map_id _).symm
  have levels : ∀ event, event.isRow = false →
      View.all.see [event] = View.unlabelled.see [event] := by
    intro event noRow
    cases event with
    | row text => cases noRow
    | _ => rfl
  have alike : SeenAlike .all .unlabelled
      (setting.runsOnto parts last message (setting.emitter last.kind))
      (setting.runsOnto parts last message (labelledEmitter (setting.emitter last.kind))) :=
    seenAlike_runsOnto parts last message levels (fun _ value => unlabelled value.wireType _)
      (fun _ _ _ => unlabelled 2 _) bounded
  rw [runs_eq_runsOnto, origins, ← Event.rows_unlabelled]
  exact congrArg Event.rows alike.1

theorem wireTypes_origins_of_string {type : FieldType}
    (isString : type = .string ∨ type = .bytes) (isKind : last.kind = .primitive type)
    (bounded : message.length < 2 ^ 31) :
    let setting := fixed utils binaryToJsonString limit bits
    (setting.origins parts last message).map Prod.fst =
      List.replicate (setting.origins parts last message).length 2 := by
  have quiet : ∀ wireType (action : Activity Unit),
      (wireType = 2 ∨ Event.rows (action ()).1 = []) → wireType < 256 →
      SeenAlike (.wireTypes fun wireType => wireType ≠ 2) (.wireTypes fun _ => false)
        (labelled wireType action) (labelled wireType action) := by
    intro wireType action onlyStrings small
    refine ⟨?_, rfl⟩
    simp only [View.wireTypes, labelled, Event.wireTypes_labelled small]
    rcases onlyStrings with rfl | noRows
    · rfl
    · rw [noRows]
      simp
  have levels : ∀ event, event.isRow = false →
      (View.wireTypes fun wireType => wireType ≠ 2).see [event] =
        (View.wireTypes fun _ => false).see [event] := by
    intro event noRow
    simp only [View.wireTypes, Event.wireTypes_of_isRow _ noRow]
  let emitter := (fixed utils binaryToJsonString limit bits).emitter last.kind
  let run := (fixed utils binaryToJsonString limit bits).runsOnto parts last message
    (labelledEmitter emitter)
  have alike : SeenAlike (.wireTypes fun wireType => wireType ≠ 2) (.wireTypes fun _ => false)
      run run := by
    refine seenAlike_runsOnto parts last message levels (fun budget value => ?_)
      (fun type size payload => quiet 2 _ (.inl rfl) (by decide)) bounded
    apply quiet _ _ _ (wireType_lt value)
    by_cases primitive : value.wireType ≠ 2
    · refine .inr ?_
      rw [emitter_primitive primitive, isKind]
      rcases isString with rfl | rfl <;> rfl
    · exact .inl (Decidable.of_not_not primitive)
  have none : Event.wireTypes (fun wireType => wireType ≠ 2) (run ()).1 = [] :=
    alike.1.trans (List.filter_eq_nil_iff.mpr fun _ _ => nofun)
  refine List.eq_replicate_iff.mpr ⟨List.length_map _, fun wireType member => ?_⟩
  simpa using List.filter_eq_nil_iff.mp none wireType member

end

section

variable {State : Type} (setting : Setting State) (onto : Delivery State)
variable (handed : FieldType → Nat → Bytes → Activity State)

theorem mapPart_handed (position : Nat) {map : MapPart} (isMap : map ≠ .none) :
    setting.mapPart position map { onto with handed := handed } =
      setting.mapPart position map onto := by
  cases map with
  | none => exact absurd rfl isMap
  | entries wantKeys type => rfl
  | lookup keyType wantedKeyField wantedKeyContents valueType =>
      have sameFields : setting.lookupField keyType wantedKeyField wantedKeyContents
          { onto with handed := handed } = setting.lookupField keyType wantedKeyField
            wantedKeyContents onto := funext (lookupField_of_leaveEntry rfl)
      simp only [mapPart, mapFilter, sameFields]
      rfl

/-- Only a selector at the end of the parts hands over fields that it treats by type, and
only fields of its own type. -/
theorem chainOnto_handed {parts : List ChainPart} (nonempty : parts ≠ [])
    (same : ∀ part ∈ parts.getLast?, part.map = .none →
      onto.handed part.type = handed part.type) (position : Nat) :
    setting.chainOnto { onto with handed := handed } position parts =
      setting.chainOnto onto position parts := by
  induction parts generalizing position with
  | nil => exact absurd rfl nonempty
  | cons part parts induction =>
      rw [chainOnto, chainOnto]
      cases parts with
      | nil =>
          by_cases isMap : part.map = .none
          · have sameHanded := same part rfl isMap
            rw [isMap]
            congr 1
            funext budget index field
            rcases field with ⟨number, value⟩
            cases value with
            | lengthDelimited size payload =>
                simp only [selectField, mapPart, chainOnto, sameHanded]
                rfl
            | _ => rfl
          · rw [chainOnto, chainOnto, mapPart_handed setting onto handed _ isMap]
      | cons other parts =>
          rw [induction (List.cons_ne_nil _ _) same]

end

inductive EmitsNumbers : FieldType → EmitterKind → Prop
  | primitive {type : FieldType} (notString : type.wireType ≠ 2) (notGroup : type ≠ .group)
      (notEnum : type ≠ .enum) : EmitsNumbers type (.primitive type)
  | enum (descriptor : EnumDescriptor) : EmitsNumbers .enum (.enum descriptor)

namespace EmitsNumbers

variable {type : FieldType} {kind : EmitterKind} (emits : EmitsNumbers type kind)

include emits

theorem readPrimitive (utils : PostgresUtils) (field : FieldInfo) :
    ∃ row, kind.readPrimitive utils field = .ok (some row) := by
  cases emits with
  | enum descriptor => exact ⟨_, rfl⟩
  | primitive notString notGroup notEnum =>
      cases type <;> first
        | exact ⟨_, rfl⟩
        | exact absurd rfl notString
        | exact absurd rfl notGroup
        | exact absurd rfl notEnum

theorem wireType_ne : type.wireType ≠ 2 := by
  cases emits with
  | primitive notString _ _ => exact notString
  | enum _ => decide

theorem skips : kind.readLengthDelimitedField = .skip ∧
    compositeFieldTreatmentForType type = .skip := by
  cases emits with
  | enum descriptor => exact ⟨rfl, rfl⟩
  | primitive notString _ _ =>
      have skip : compositeFieldTreatmentForType type = .skip := by
        cases type <;> first | rfl | exact absurd rfl notString
      exact ⟨skip, skip⟩

end EmitsNumbers

section

variable {utils : PostgresUtils} {binaryToJsonString : StdString → Bytes → Option StdString}
variable {limit : Nat} {bits : UInt64} {parts : List ChainPart} {last : ChainEnd}

theorem see_row_string :
    (View.wireTypes fun wireType => wireType ≠ 2).see [.row [2]] = [] := by
  change Event.wireTypes (fun wireType => wireType ≠ 2) [.row [2]] = []
  decide

variable {type : FieldType} (emits : EmitsNumbers type last.kind)

include emits

/-- An emitter of numbers makes a row of what it is handed, unless that is a string. -/
theorem seenAlike_handing (budget : Nat) (value : WireValue) :
    SeenAlike (.wireTypes fun _ => true) (.wireTypes fun wireType => wireType ≠ 2)
      ((labelledEmitter ((fixed utils binaryToJsonString limit bits).emitter last.kind)).field
        budget value)
      (handing.field budget value) := by
  by_cases primitive : value.wireType ≠ 2
  · rcases emits.readPrimitive utils (value.header bits) with ⟨row, isRow⟩
    have emitted : ((fixed utils binaryToJsonString limit bits).emitter last.kind).field budget
        value = Action.log (.row row) := by
      rw [emitter_primitive primitive, isRow]
      rfl
    change SeenAlike _ _ (labelled value.wireType _)
      (labelled value.wireType (Action.log (.row [])))
    rw [emitted]
    refine ⟨?_, rfl⟩
    simp only [View.wireTypes, labelled, Event.wireTypes_labelled (wireType_lt value),
      Action.log_apply, if_true]
    rw [if_pos (decide_eq_true primitive)]
    rfl
  · cases value with
    | lengthDelimited size payload =>
        change SeenAlike _ _ (labelled 2 (emitTreated _ _ last.kind.readLengthDelimitedField _ _))
          (Action.log (.row [2]))
        rw [emits.skips.1]
        exact ⟨see_row_string.symm, rfl⟩
    | _ => exact absurd (by simp [WireValue.wireType]) primitive

variable (nonempty : parts ≠ [])
variable (lastType : last.trailingDot = false → ∀ part ∈ parts.getLast?, part.map = .none →
  part.type = type)
variable {message : Bytes}

include nonempty lastType

theorem runsOnto_skipped :
    let setting := fixed utils binaryToJsonString limit bits
    setting.runsOnto parts last message
        { labelledEmitter (setting.emitter last.kind) with handed := fun _ _ _ => 1 } =
      setting.runsOnto parts last message (labelledEmitter (setting.emitter last.kind)) := by
  intro setting
  unfold runsOnto
  cases dot : last.trailingDot with
  | true => rfl
  | false =>
      have same : ∀ part ∈ parts.getLast?, part.map = .none →
          (labelledEmitter (setting.emitter last.kind)).handed part.type = fun _ _ => 1 := by
        intro part isLast noMap
        funext size payload
        rw [lastType dot part isLast noMap]
        change labelled 2 (setting.emitTreated _ (compositeFieldTreatmentForType type) _ _) = _
        rw [emits.skips.2]
        rfl
      have onto := chainOnto_handed setting (labelledEmitter (setting.emitter last.kind))
        (fun _ _ _ => 1) nonempty same 0
      exact congrArg (fun chain : Delivery Unit => chain.field setting.recursionLimit
        (.ofPayload message)) onto

/-- The rows of numbers are made of all the primitives that are handed to the emitter. -/
theorem wireTypes_origins (bounded : message.length < 2 ^ 31) :
    let setting := fixed utils binaryToJsonString limit bits
    (setting.origins parts last message).map Prod.fst =
      (setting.handedWireTypes parts last message).filter fun wireType => wireType ≠ 2 := by
  intro setting
  have levels : ∀ event, event.isRow = false → (View.wireTypes fun _ => true).see [event] =
      (View.wireTypes fun wireType => wireType ≠ 2).see [event] := by
    intro event noRow
    simp only [View.wireTypes, Event.wireTypes_of_isRow _ noRow]
  have alike : SeenAlike (.wireTypes fun _ => true) (.wireTypes fun wireType => wireType ≠ 2)
      (setting.runsOnto parts last message
        { labelledEmitter (setting.emitter last.kind) with handed := fun _ _ _ => 1 })
      (setting.runsOnto parts last message handing) :=
    seenAlike_runsOnto parts last message levels (seenAlike_handing emits)
      (fun _ _ _ => ⟨see_row_string.symm, rfl⟩) bounded
  rw [runsOnto_skipped emits nonempty lastType] at alike
  rw [handedWireTypes, Event.wireTypes, List.filter_filter]
  have same := alike.1
  simp only [View.wireTypes, Event.wireTypes, List.filter_true] at same
  simpa [origins] using same

omit emits nonempty lastType

theorem handedWireTypes_textfree (message : Bytes) :
    (textfree utils binaryToJsonString limit).handedWireTypes parts last message =
      (fixed utils binaryToJsonString limit bits).handedWireTypes parts last message := by
  unfold handedWireTypes runsOnto
  rw [chainOnto_textfree utils binaryToJsonString limit bits]
  rfl

end

end Setting

/-! ## Emitted rows -/

theorem Event.length_rows_blank (events : List Event) :
    (rows (events.map blank)).length = (rows events).length := by
  induction events with
  | nil => rfl
  | cons event events induction =>
      cases event with
      | row text => exact congrArg (· + 1) induction
      | _ => exact induction

section

variable {Stream : Type} [CodedInputStream Stream] [LawfulCodedInputStream Stream]
variable {uninitialised : Uninitialised} {parts : List ChainPart} {last : ChainEnd}

theorem rowsShow_emitted {State : Type} {setting : Setting State} {state : State}
    {localBits : Nat → UInt64}
    (matching : Matches setting
      ⟨setting.utils, setting.binaryToJsonString, localBits⟩ Stream)
    (suits : uninitialised.Suits setting.knowledge state) {message : Bytea}
    {events : List Event} {ending : Except (Stop Exception) State}
    (ends : setting.runs parts last message.data state = (events, ending))
    (determined : ending ≠ .error .undefined) :
    RowsShow setting.knowledge.textless
      (QueryImpl.emitted Stream
        ⟨chainObjects uninitialised parts last, setting.binaryToJsonString⟩ setting.utils
        localBits message)
      (Event.rows events) := by
  have realizes := QueryImpl.scan_realizes matching
    (restsAs_start suits parts last (message.data.length + 1) setting.binaryToJsonString)
  unfold Realizes at realizes
  rw [ends] at realizes
  unfold QueryImpl.emitted QueryImpl.scan
  rcases ending with (exception | _) | next
  · rcases realizes with ⟨after, runs, ⟨rows, isRows, shows⟩, _⟩
    simp only [QueryImpl.memory, runs, isRows, List.nil_append]
    exact shows
  · exact absurd rfl determined
  · rcases realizes with ⟨_, after, runs, ⟨⟨rows, isRows, shows⟩, _⟩, _⟩
    simp only [QueryImpl.memory, runs, isRows, List.nil_append]
    exact shows

variable {utils : PostgresUtils} {binaryToJsonString : StdString → Bytes → Option StdString}

theorem runs_fixed_determined (limit : Nat) (bits : UInt64) (message : Bytea) :
    ((Setting.fixed utils binaryToJsonString limit bits).runs parts last message.data ()).2 ≠
      .error .undefined := by
  intro undefined
  have sized : (WireValue.ofPayload message.data).Sized := message.size_lt
  rcases proper_chain utils binaryToJsonString bits parts last limit limit 0 sized () .undefined
    undefined with ⟨exception, isRaised, _⟩
  cases isRaised

theorem emitted_fixed (zero : uninitialised.ZeroBuffers) (bits : UInt64) (message : Bytea) :
    QueryImpl.emitted Stream ⟨chainObjects uninitialised parts last, binaryToJsonString⟩ utils
        (fun _ => bits) message =
      Event.rows ((Setting.fixed utils binaryToJsonString
        (CodedInputStream.recursionLimit Stream) bits).runs parts last message.data ()).1 := by
  exact rowsShow_emitted (matches_fixed utils binaryToJsonString bits Stream) (zero.suits _ ())
    rfl (runs_fixed_determined _ bits message)

theorem length_emitted (zero : uninitialised.ZeroBuffers) (localBits : Nat → UInt64)
    (bits : UInt64) (message : Bytea) :
    (QueryImpl.emitted Stream ⟨chainObjects uninitialised parts last, binaryToJsonString⟩ utils
        localBits message).length =
      (Event.rows ((Setting.fixed utils binaryToJsonString
        (CodedInputStream.recursionLimit Stream) bits).runs parts last
          message.data ()).1).length := by
  let setting := Setting.textfree utils binaryToJsonString
    (CodedInputStream.recursionLimit Stream)
  have same := Setting.runs_textfree utils binaryToJsonString
    (CodedInputStream.recursionLimit Stream) bits parts last message.size_lt
  have shows : RowsShow true _ (Event.rows (setting.runs parts last message.data ()).1) :=
    rowsShow_emitted (matches_textfree Stream utils binaryToJsonString localBits)
      (zero.suits _ ()) rfl (same.2 ▸ runs_fixed_determined _ bits message)
  have sameLength := congrArg (fun events => (Event.rows events).length) same.1
  simp only [Event.length_rows_blank] at sameLength
  exact Eq.trans shows sameLength.symm

end

/-! ## The wire types of rows -/

section

variable {uninitialised : Uninitialised} {pool : DescriptorPool Message} {desc : Message}
variable {path : StdString} {parts : List ChainPart} {last : ChainEnd}
variable {final : DescPtrs Message}
variable (chain : ChainCompiles uninitialised pool desc path parts last final)

include chain

theorem ChainCompiles.emits_scalar (notMessage : final.type ≠ .message)
    (notGroup : final.type ≠ .group) :
    (final.type = .string ∨ final.type = .bytes) ∧ last.kind = .primitive final.type ∨
      Setting.EmitsNumbers final.type last.kind := by
  rcases Emitter.kind_cases chain.emits with ⟨isMessage, _⟩ | ⟨isEnum, descriptor, isKind⟩ |
    ⟨_, notEnum, isKind⟩
  · exact absurd isMessage notMessage
  · rw [isEnum, isKind]
    exact .inr (.enum descriptor)
  · by_cases isString : final.type.wireType = 2
    · refine .inl ⟨?_, isKind⟩
      cases type : final.type <;> simp_all [FieldType.wireType]
    · rw [isKind]
      exact .inr (.primitive isString notGroup notEnum)

theorem ChainCompiles.parts_of_scalar (notMessage : final.type ≠ .message) :
    parts ≠ [] ∧ (last.trailingDot = false → ∀ part ∈ parts.getLast?, part.map = .none →
      part.type = final.type) := by
  rcases chain.compiles with ⟨_, _, _, isRoot⟩ | ⟨nonempty, compiles⟩
  · rw [isRoot] at notMessage
    exact absurd rfl notMessage
  · exact ⟨compiles.parts_ne_nil nonempty, compiles.type_of_last⟩

end

/-- Every row of strings or bytes is made of a string. A row of any other scalars is made of
each varint and fixed-width value that the parts of the path hand over, whatever its wire
type, and of nothing else. -/
theorem wireTypes_iff (Stream : Type) [CodedInputStream Stream] [LawfulCodedInputStream Stream]
    {descDb : DescDb Message} {uninitialised : Uninitialised} {text : StdString}
    {descSet : DescSet Message} {desc : Message} {path : StdString} {parts : List ChainPart}
    {last : ChainEnd} {final : DescPtrs Message}
    (resolved : resolveQuery descDb text = .ok (descSet, desc, path))
    (chain : ChainCompiles uninitialised descSet.pool desc path parts last final)
    (notMessage : final.type ≠ .message) (notGroup : final.type ≠ .group)
    (zero : uninitialised.ZeroBuffers) (limit : Option Nat) (utils : PostgresUtils)
    (message : Bytea) :
    let origins := fun bits => (Setting.fixed utils descSet.binaryToJsonString
      (CodedInputStream.recursionLimit Stream) bits).origins parts last message.data
    let wireTypes := (origins 0).map Prod.fst
    let handed := (Setting.textfree utils descSet.binaryToJsonString
      (CodedInputStream.recursionLimit Stream)).handedWireTypes parts last message.data
    ∃ query, compileQuery descDb uninitialised text limit = .ok query ∧
      (∀ bits, query.emitted Stream utils (fun _ => bits) message = (origins bits).map Prod.snd ∧
        (origins bits).map Prod.fst = wireTypes) ∧
      (∀ localBits,
        (query.emitted Stream utils localBits message).length = wireTypes.length) ∧
      ((∀ wireType ∈ wireTypes, wireType = final.type.wireType) ↔
        final.type.wireType = 2 ∨
          ∀ wireType ∈ handed, wireType = 2 ∨ wireType = final.type.wireType) := by
  intro origins wireTypes handed
  have accepted : compileQuery descDb uninitialised text limit =
      .ok ⟨chainObjects uninitialised parts last, descSet.binaryToJsonString⟩ :=
    compileQuery_eq_ok_iff.mpr ⟨descSet, desc, path, parts, last, final, resolved, chain, rfl⟩
  have sameRows : ∀ bits, Event.rows ((Setting.fixed utils descSet.binaryToJsonString
      (CodedInputStream.recursionLimit Stream) bits).runs parts last message.data ()).1 =
      (origins bits).map Prod.snd := fun bits =>
    Setting.rows_origins parts last message.data message.size_lt
  have counts : ∀ localBits bits, (QueryImpl.emitted Stream
      ⟨chainObjects uninitialised parts last, descSet.binaryToJsonString⟩ utils localBits
      message).length = (origins bits).length := by
    intro localBits bits
    rw [length_emitted zero localBits bits, sameRows, List.length_map]
  have sameWireTypes : (∀ bits, (origins bits).map Prod.fst = wireTypes) ∧
      ((∀ wireType ∈ wireTypes, wireType = final.type.wireType) ↔
        final.type.wireType = 2 ∨
          ∀ wireType ∈ handed, wireType = 2 ∨ wireType = final.type.wireType) := by
    rcases chain.emits_scalar notMessage notGroup with ⟨isString, isKind⟩ | emits
    · have strings : ∀ bits, (origins bits).map Prod.fst =
          List.replicate (origins 0).length 2 := by
        intro bits
        rw [← counts (fun _ => 0) 0, counts (fun _ => 0) bits]
        exact Setting.wireTypes_origins_of_string parts last message.data isString isKind
          message.size_lt
      have declared : final.type.wireType = 2 := by
        rcases isString with isType | isType <;> rw [isType] <;> rfl
      refine ⟨fun bits => (strings bits).trans (strings 0).symm, iff_of_true ?_ (.inl declared)⟩
      intro wireType member
      rw [show wireTypes = _ from strings 0] at member
      exact (List.eq_of_mem_replicate member).trans declared.symm
    · rcases chain.parts_of_scalar notMessage with ⟨nonempty, lastType⟩
      have numbers : ∀ bits, (origins bits).map Prod.fst =
          handed.filter fun wireType => wireType ≠ 2 := by
        intro bits
        rw [show handed = _ from Setting.handedWireTypes_textfree message.data]
        exact Setting.wireTypes_origins emits nonempty lastType message.size_lt
      refine ⟨fun bits => (numbers bits).trans (numbers 0).symm, ?_⟩
      rw [show wireTypes = _ from numbers 0]
      simp [or_iff_not_imp_left, emits.wireType_ne]
  refine ⟨_, accepted, fun bits => ⟨?_, sameWireTypes.1 bits⟩, ?_, sameWireTypes.2⟩
  · exact (emitted_fixed zero bits message).trans (sameRows bits)
  · intro localBits
    rw [counts localBits 0, List.length_map]

def int64Parts : List ChainPart :=
  [.plain (TestMessage.ofMessage "scalars" 1 false false .scalars) none,
    .plain (TestMessage.single "int64_field" 4 .int64) none]

def int64End : ChainEnd := ⟨false, .primitive .int64, nofun⟩

theorem int64_compiles :
    ChainCompiles zeroMemory testPool .exampleMessage (literal "scalars.int64_field") int64Parts
      int64End (TestMessage.single "int64_field" 4 .int64).descPtrs := by
  have scalars : PartCompiles zeroMemory testPool 1 .exampleMessage (literal "scalars")
      (.plain (TestMessage.ofMessage "scalars" 1 false false .scalars) none)
      (TestMessage.ofMessage "scalars" 1 false false .scalars).descPtrs := .single rfl rfl rfl
  have int64 : PartCompiles zeroMemory testPool 3 .scalars (literal "int64_field")
      (.plain (TestMessage.single "int64_field" 4 .int64) none)
      (TestMessage.single "int64_field" 4 .int64).descPtrs := .single rfl rfl rfl
  have texts : (literal "scalars.int64_field").splitOn '.'.toUInt8 =
      [literal "scalars", literal "int64_field"] := by decide
  refine ⟨.inr ⟨nofun, ?_⟩, rfl⟩
  rw [texts]
  exact .cons rfl nofun scalars (.last rfl nofun int64)

/-- A varint, and a string that is ignored. -/
theorem wireTypes_iff_int64 :
    let message : Bytea := ⟨[0x0A, 5, 0x20, 7, 0x22, 1, 0x61], by decide⟩
    let origins := fun bits => (Setting.fixed testUtils testSet.binaryToJsonString
      (CodedInputStream.recursionLimit ArrayStream) bits).origins int64Parts int64End message.data
    let wireTypes := (origins 0).map Prod.fst
    let handed := (Setting.textfree testUtils testSet.binaryToJsonString
      (CodedInputStream.recursionLimit ArrayStream)).handedWireTypes int64Parts int64End
        message.data
    ∃ query, compileQuery testDb zeroMemory
        (literal "pgpb.test.ExampleMessage:scalars.int64_field") none = .ok query ∧
      (∀ bits, query.emitted ArrayStream testUtils (fun _ => bits) message =
          (origins bits).map Prod.snd ∧ (origins bits).map Prod.fst = wireTypes) ∧
      (∀ localBits,
        (query.emitted ArrayStream testUtils localBits message).length = wireTypes.length) ∧
      ((∀ wireType ∈ wireTypes, wireType = 0) ↔
        (0 : Nat) = 2 ∨ ∀ wireType ∈ handed, wireType = 2 ∨ wireType = 0) := by
  have resolved : resolveQuery testDb
      (literal "pgpb.test.ExampleMessage:scalars.int64_field") =
      .ok (testSet, .exampleMessage, literal "scalars.int64_field") := rfl
  exact wireTypes_iff ArrayStream resolved int64_compiles nofun nofun (fun _ => ⟨rfl, rfl⟩) none
    testUtils ⟨[0x0A, 5, 0x20, 7, 0x22, 1, 0x61], by decide⟩

/-- The only occurrence of `int64_field` is four bytes wide. A row is made of it, and of four
bytes that nobody wrote. -/
theorem fixed32_decoded :
    let message : Bytea := ⟨[0x0A, 5, 0x25, 1, 0, 0, 0], by decide⟩
    let query := testQuery .exampleMessage "scalars.int64_field"
    compileQuery testDb zeroMemory
        (literal "pgpb.test.ExampleMessage:scalars.int64_field") none = .ok query ∧
      readFields message.data = ([⟨1, .lengthDelimited 5 [0x25, 1, 0, 0, 0]⟩], none) ∧
      readFields [0x25, 1, 0, 0, 0] = ([⟨4, .fixed32 1⟩], none) ∧
      query.run ArrayStream testUtils (fun _ => 0) message = .ok [literal "1"] ∧
      query.run ArrayStream testUtils (fun _ => 0x700000000) message =
        .ok [literal "30064771073"] ∧
      ((Setting.fixed testUtils testSet.binaryToJsonString
          (CodedInputStream.recursionLimit ArrayStream) 0).origins int64Parts int64End
            message.data).map Prod.fst = [5] ∧
      FieldType.int64.wireType = 0 := by
  intro message query
  have emits : Setting.EmitsNumbers .int64 int64End.kind := .primitive nofun nofun nofun
  have handed : (Setting.textfree testUtils testSet.binaryToJsonString
      (CodedInputStream.recursionLimit ArrayStream)).handedWireTypes int64Parts int64End
        message.data = [5] := by decide +kernel
  have nonempty : int64Parts ≠ [] := nofun
  have lastType : int64End.trailingDot = false → ∀ part ∈ int64Parts.getLast?,
      part.map = .none → part.type = .int64 := by
    rintro _ part ⟨⟩ _
    rfl
  refine ⟨rfl, by decide +kernel, by decide +kernel, by decide +kernel, by decide +kernel, ?_, rfl⟩
  rw [Setting.wireTypes_origins emits nonempty lastType message.size_lt,
    ← Setting.handedWireTypes_textfree, handed]
  rfl

end PostgresProtobuf
