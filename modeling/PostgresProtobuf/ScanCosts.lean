import PostgresProtobuf.Flows
import PostgresProtobuf.TestSchema
import PostgresProtobuf.Foundation.Credits

/-! # How much a run scans

A run may scan bytes more than once: every part of a path scans its own level of the
message, and a map filter scans fields inside entries down to the recursion limit before it
scans a value again. All levels together hold the bytes of the message so many times at
most. -/

namespace PostgresProtobuf

open Foundation

variable {Message : Type}

/-! ## Levels -/

def Event.scannedBytes : Event → Nat
  | .enter _ level => level.length
  | _ => 0

section

variable {State Progress : Type}

theorem pays_turns {Item : Type} {price : Event → Nat}
    {turn : Progress → Item → Activity State × Progress} {weight : Item → Nat}
    {potential : Progress → Nat} {items : List Item}
    (step : ∀ progress, ∀ item ∈ items, Pays price (turn progress item).1
      (potential progress + weight item) (potential (turn progress item).2))
    (progress : Progress) :
    Pays price (turns turn progress items).1 (potential progress + (items.map weight).sum)
      (potential (turns turn progress items).2) := by
  induction items generalizing progress with
  | nil => exact .one (Nat.le_refl _)
  | cons item items induction =>
      have first := (step progress item List.mem_cons_self).frame (items.map weight).sum
      have others := induction (fun progress item member =>
        step progress item (List.mem_cons_of_mem _ member)) (turn progress item).2
      rw [List.map_cons, List.sum_cons, ← Nat.add_assoc]
      exact first.mul others

theorem sum_scaled_le {Failure Item : Type} {read : Reader Failure Item} {size : Item → Nat}
    (shrinks : read.Shrinks)
    (each : ∀ bytes item rest, read bytes = .ok (item, rest) →
      size item + rest.length ≤ bytes.length) (factor : Nat) (bytes : Bytes) :
    ((read.readAll bytes).1.map fun item => factor * size item).sum ≤ factor * bytes.length := by
  have scaled : ∀ items : List Item, (items.map fun item => factor * size item).sum =
      factor * (items.map size).sum := by
    intro items
    induction items with
    | nil => rfl
    | cons item items induction =>
        rw [List.map_cons, List.sum_cons, List.map_cons, List.sum_cons, induction, Nat.mul_add]
  rw [scaled]
  exact Nat.mul_le_mul_left factor (Reader.sum_readAll_le shrinks each bytes)

theorem payload_length_le {wireType : Nat} {bytes rest : Bytes} {value : WireValue}
    (step : readValue wireType bytes = .ok (value, rest)) :
    value.payload.length + rest.length ≤ bytes.length := by
  have width := readValue_width step
  cases value with
  | lengthDelimited size payload => exact width
  | _ =>
      change 0 + rest.length ≤ bytes.length
      change 1 + rest.length ≤ bytes.length at width
      omega

theorem field_payload_length_le {bytes rest : Bytes} {field : WireField}
    (step : readField bytes = .ok (field, rest)) :
    field.value.payload.length + rest.length ≤ bytes.length := by
  unfold readField at step
  split at step
  · rename_i tag left decoded
    split at step
    · rename_i value after read
      cases step
      rcases decodeTag_eq_some decoded with ⟨_, _, head, _, rfl, _⟩
      have short := payload_length_le read
      rw [List.length_append]
      change value.payload.length + rest.length ≤ _
      omega
    · cases step
  · cases step

theorem pays_endOn (fault : Option FramingFault) (credits : Nat) :
    Pays Event.scannedBytes (endOn fault : Activity State) credits credits := by
  cases fault with
  | none => exact .one (Nat.le_refl _)
  | some fault => exact .stop _ (Nat.le_refl _)

theorem pays_scanLevel {turn : Progress → WireField → Activity State × Progress}
    {potential : Progress → Nat} (factor budget : Nat) (payload : Bytes)
    (step : ∀ progress (field : WireField), Pays Event.scannedBytes (turn progress field).1
      (potential progress + factor * field.value.payload.length)
      (potential (turn progress field).2))
    (progress : Progress) :
    Pays Event.scannedBytes (scanLevel budget turn progress payload).1
      (potential progress + (1 + factor) * payload.length)
      (potential (scanLevel budget turn progress payload).2) := by
  have fields := pays_turns
    (fun progress field (_ : field ∈ (readFields payload).1) => step progress field) progress
  have sizes := sum_scaled_le readField_shrinks (fun _ _ _ => field_payload_length_le) factor
    payload
  have entered : Pays Event.scannedBytes
      (Action.log (.enter budget payload) : Activity State)
      (potential progress + (1 + factor) * payload.length)
      (potential progress + factor * payload.length) := by
    apply Pays.log
    change payload.length + _ ≤ _
    rw [Nat.add_mul, Nat.one_mul]
    omega
  have scanned := entered.mul (fields.weaken (Nat.add_le_add_left sizes _))
  have ended := scanned.mul (pays_endOn (readFields payload).2 _)
  exact ended.mul (.log _ (by exact Nat.le_of_eq (Nat.zero_add _)))

theorem pays_scanSubmessage {turn : Nat → Progress → WireField → Activity State × Progress}
    {potential : Progress → Nat} (factor budget : Nat) (payload : Bytes)
    (step : ∀ lower < budget, ∀ progress (field : WireField), Pays Event.scannedBytes
      (turn lower progress field).1 (potential progress + factor * field.value.payload.length)
      (potential (turn lower progress field).2)) (progress : Progress) :
    Pays Event.scannedBytes (scanSubmessage turn budget progress payload).1
      (potential progress + (1 + factor) * payload.length)
      (potential (scanSubmessage turn budget progress payload).2) := by
  cases budget with
  | zero => exact .stop _ (Nat.le_add_right _ _)
  | succ budget =>
      exact pays_scanLevel factor budget payload (step budget (Nat.lt_succ_self budget)) progress

theorem pays_nested {turn : Nat → Progress → WireField → Activity State × Progress}
    {potential : Progress → Nat} (factor budget : Nat) (payload : Bytes)
    (step : ∀ lower < budget, ∀ progress (field : WireField), Pays Event.scannedBytes
      (turn lower progress field).1
      (potential progress + (lower + factor) * field.value.payload.length)
      (potential (turn lower progress field).2)) (progress : Progress) :
    Pays Event.scannedBytes (scanSubmessage turn budget progress payload).1
      (potential progress + (budget + factor) * payload.length)
      (potential (scanSubmessage turn budget progress payload).2) := by
  cases budget with
  | zero => exact .stop _ (Nat.le_add_right _ _)
  | succ budget =>
      have scanned := pays_scanLevel (budget + factor) budget payload
        (step budget (Nat.lt_succ_self budget)) progress
      rw [← Nat.add_assoc, Nat.add_comm 1 budget] at scanned
      exact scanned

end

/-! ## Deliveries -/

section

variable {State : Type}

structure Costs (limit factor : Nat) (next : Delivery State) : Prop where
  field : ∀ budget ≤ limit, ∀ value : WireValue,
    Pays Event.scannedBytes (next.field budget value) (factor * value.payload.length) 0
  handed : ∀ type size payload, Pays Event.scannedBytes (next.handed type size payload) 0 0

theorem pays_readWhole (text : String) (size : Nat) (payload : Bytes)
    {continuation : Activity State} (pays : Pays Event.scannedBytes continuation 0 0) :
    Pays Event.scannedBytes (readWhole text size payload continuation) 0 0 := by
  unfold readWhole
  split
  · exact pays
  · exact .stop _ (Nat.le_refl 0)

theorem pays_emit (row : Except Exception (Option StdString)) :
    Pays Event.scannedBytes (emit row : Activity State) 0 0 := by
  match row with
  | .ok (some row) => exact .log _ (Nat.le_refl 0)
  | .ok none => exact .one (Nat.le_refl 0)
  | .error exception => exact .stop _ (Nat.le_refl 0)

theorem pays_treatAs {readString readBytes bufferedValue : Bytes → Activity State}
    (ofString : ∀ payload, Pays Event.scannedBytes (readString payload) 0 0)
    (ofBytes : ∀ payload, Pays Event.scannedBytes (readBytes payload) 0 0)
    (ofBuffer : ∀ payload, Pays Event.scannedBytes (bufferedValue payload) 0 0)
    (treatment : LengthDelimitedFieldTreatment) (size : Nat) (payload : Bytes) :
    Pays Event.scannedBytes
      (Setting.treatAs readString readBytes bufferedValue treatment size payload) 0 0 := by
  unfold Setting.treatAs
  split
  · exact pays_readWhole _ _ _ (ofString payload)
  · exact pays_readWhole _ _ _ (ofBytes payload)
  · exact pays_readWhole _ _ _ (ofBuffer payload)
  · exact .one (Nat.le_refl 0)

theorem descend_costs {Progress : Type}
    {turn : Nat → Progress → WireField → Activity State × Progress} {limit factor : Nat}
    (step : ∀ budget ≤ limit, ∀ progress (field : WireField), Pays Event.scannedBytes
      (turn budget progress field).1 (factor * field.value.payload.length) 0)
    (start : Progress) : Costs limit (1 + factor) (Setting.descend turn start) where
  field budget within value := by
    cases value with
    | lengthDelimited size payload =>
        let potential : Progress → Nat := fun _ => 0
        have paid : ∀ lower < budget, ∀ progress (field : WireField), Pays Event.scannedBytes
            (turn lower progress field).1
            (potential progress + factor * field.value.payload.length)
            (potential (turn lower progress field).2) := by
          intro lower below progress field
          rw [Nat.zero_add]
          exact step lower (Nat.le_trans (Nat.le_of_lt below) within) progress field
        have scanned := pays_scanSubmessage factor budget payload paid start
        rw [Nat.zero_add] at scanned
        exact scanned
    | _ => exact .one (Nat.zero_le _)
  handed type size payload :=
    pays_treatAs (fun _ => .one (Nat.le_refl 0)) (fun _ => .one (Nat.le_refl 0))
      (fun _ => .one (Nat.le_refl 0)) _ size payload

theorem emitter_costs (setting : Setting State) (kind : EmitterKind) (limit : Nat) :
    Costs limit 0 (setting.emitter kind) := by
  have treated : ∀ treatment size payload,
      Pays Event.scannedBytes (setting.emitTreated kind treatment size payload) 0 0 :=
    pays_treatAs (fun _ => pays_emit _) (fun _ => pays_emit _) fun _ => pays_emit _
  have primitive : ∀ value, Pays Event.scannedBytes (setting.emitPrimitive kind value) 0 0 := by
    intro value
    unfold Setting.emitPrimitive
    split
    · exact pays_emit _
    · split
      · exact pays_emit _
      · exact .stop _ (Nat.le_refl 0)
  constructor
  · intro budget _ value
    rw [Nat.zero_mul]
    cases value with
    | lengthDelimited size payload => exact treated _ size payload
    | _ => exact primitive _
  · exact fun type size payload => treated _ size payload

section

variable {limit factor : Nat} {next : Delivery State} (costs : Costs limit factor next)

include costs

theorem selectPacked_pays (part : ChainPart) {budget : Nat} (within : budget ≤ limit)
    (number index : Int) (payload : Bytes) :
    Pays Event.scannedBytes (Setting.selectPacked part next budget number index payload).1
      (factor * payload.length) 0 := by
  unfold Setting.selectPacked
  cases Setting.packedWireType part.type with
  | none => exact .one (Nat.zero_le _)
  | some wireType =>
      let potential : Int → Nat := fun _ => 0
      have element : ∀ index, ∀ value ∈ (readElements wireType payload).1,
          Pays Event.scannedBytes (Setting.selectElement part next budget number index value).1
            (potential index + factor * value.payload.length)
            (potential (Setting.selectElement part next budget number index value).2) := by
        intro index value _
        rw [Nat.zero_add]
        unfold Setting.selectElement
        dsimp only
        split
        · exact costs.field budget within value
        · exact .one (Nat.zero_le _)
      have scanned := pays_turns element index
      have sizes := sum_scaled_le (readValue_shrinks wireType)
        (fun _ _ _ => payload_length_le) factor payload
      rw [Nat.zero_add] at scanned
      exact (scanned.weaken sizes).mul (pays_endOn _ 0)

theorem selectField_pays (part : ChainPart) {budget : Nat} (within : budget ≤ limit)
    (index : Int) (field : WireField) :
    Pays Event.scannedBytes (Setting.selectField part next budget index field).1
      (factor * field.value.payload.length) 0 := by
  have ofValue := costs.field budget within field.value
  rcases field with ⟨number, value⟩
  cases value with
  | lengthDelimited size payload =>
      simp only [Setting.selectField]
      split
      · exact selectPacked_pays costs part within _ index payload
      · dsimp only
        split
        · split
          · exact ofValue
          · exact (costs.handed part.type size payload).weaken (Nat.zero_le _)
        · exact .one (Nat.zero_le _)
  | _ =>
      simp only [Setting.selectField]
      split
      · exact ofValue
      · exact .one (Nat.zero_le _)

theorem allMapEntries_costs (wantKeys : Bool) :
    Costs limit (1 + factor) (Setting.allMapEntries wantKeys next) where
  field budget within value := by
    have scanned : Costs limit (1 + factor)
        (Setting.descend (Setting.entriesField wantKeys next) ()) := by
      apply descend_costs
      intro lower below _ field
      unfold Setting.entriesField
      dsimp only
      split
      · exact costs.field lower below field.value
      · exact .one (Nat.zero_le _)
    have ofValue := scanned.field budget within value
    cases value <;> exact ofValue
  handed type size payload := .one (Nat.le_refl 0)

end

/-! ## Map filters -/

open Setting (EntryBuffers)

def bufferedCredits (factor : Nat) (buffers : EntryBuffers) : Nat :=
  factor * (buffers.value.elim 0 fun value => value.payload.length)

section

variable {setting : Setting State} {factor : Nat} {next : Delivery State}
variable (costs : Costs setting.recursionLimit factor next)
variable (keyType : FieldType) (wantedKeyField : FieldInfo) (wantedKeyContents : StdString)

include costs

theorem endEntry_pays (buffers : EntryBuffers) :
    Pays Event.scannedBytes
      (setting.endEntry keyType wantedKeyField wantedKeyContents next buffers)
      (bufferedCredits factor buffers) 0 := by
  unfold Setting.endEntry
  split
  · exact .stop _ (Nat.zero_le _)
  · exact .one (Nat.zero_le _)
  · split
    · exact .stop _ (Nat.zero_le _)
    · rename_i value isValue
      rw [bufferedCredits, isValue]
      exact costs.field _ (Nat.le_refl _) value

theorem leaveEntry_pays (buffers : EntryBuffers) :
    let left := setting.leaveEntry keyType wantedKeyField wantedKeyContents next buffers
    Pays Event.scannedBytes left.1 (bufferedCredits factor buffers)
      (bufferedCredits factor left.2) := by
  intro left
  by_cases inEntry : buffers.inEntry = true
  · have isLeft : left = (setting.endEntry keyType wantedKeyField wantedKeyContents next buffers,
        .empty) := if_pos inEntry
    rw [isLeft]
    exact endEntry_pays costs keyType wantedKeyField wantedKeyContents buffers
  · have isLeft : left = (1, buffers) := if_neg inEntry
    rw [isLeft]
    exact .one (Nat.le_refl _)

/-- The fields of an entry, by induction on the budget: a level for each field that is
scanned, and what it takes to scan the values that are buffered. -/
theorem lookupField_pays (budget : Nat) (buffers : EntryBuffers) (field : WireField) :
    let seen := setting.lookupField keyType wantedKeyField wantedKeyContents next budget buffers
      field
    Pays Event.scannedBytes seen.1
      (bufferedCredits factor buffers + (budget + factor) * field.value.payload.length)
      (bufferedCredits factor seen.2) := by
  induction budget using Nat.strongRecOn generalizing buffers field with
  | _ budget induction =>
      have leaves := leaveEntry_pays costs keyType wantedKeyField wantedKeyContents
      rcases field with ⟨number, value⟩
      by_cases primitive : value.wireType ≠ 2
      · rw [Setting.lookupField_primitive _ _ _ _ _ primitive]
        split
        · split
          · exact .one (Nat.le_add_right _ _)
          · split
            · apply Pays.one
              dsimp only [bufferedCredits, Option.elim]
              rw [WireValue.payload_eq_nil primitive]
              exact Nat.zero_le _
            · exact (leaves buffers).weaken (Nat.le_add_right _ _)
        · exact .one (Nat.le_add_right _ _)
      · cases value with
        | lengthDelimited size payload =>
            have quiet : Pays Event.scannedBytes (readWhole
                "failed to fully read length-delimited field" size payload 1 : Activity State)
                0 0 :=
              pays_readWhole _ size payload (.one (Nat.le_refl 0))
            by_cases isKey : buffers.inEntry = true ∧ number = 1
            · rcases isKey with ⟨inEntry, rfl⟩
              rw [Setting.lookupField_key _ _ _ _ _ inEntry]
              have framed := quiet.frame (bufferedCredits factor buffers)
              rw [Nat.zero_add] at framed
              exact framed.weaken (Nat.le_add_right _ _)
            · by_cases isValue : buffers.inEntry = true ∧ number = 2
              · rcases isValue with ⟨inEntry, rfl⟩
                rw [Setting.lookupField_value _ _ _ _ _ inEntry]
                have framed := quiet.frame (factor * payload.length)
                rw [Nat.zero_add] at framed
                apply framed.weaken
                rw [WireValue.payload, Nat.add_mul]
                omega
              · rw [Setting.lookupField_entry _ _ _ _ _ isKey isValue]
                refine Pays.mul ?_ (leaves _)
                have sameCredits : bufferedCredits factor { buffers with inEntry := true } =
                    bufferedCredits factor buffers := rfl
                rw [← sameCredits, WireValue.payload]
                exact pays_nested factor budget payload induction { buffers with inEntry := true }
        | _ => exact absurd (by simp [WireValue.wireType]) primitive

theorem mapFilter_costs (position : Nat) :
    Costs setting.recursionLimit (setting.recursionLimit + factor)
      (setting.mapFilter keyType wantedKeyField wantedKeyContents next position) where
  field budget within value := by
    cases value with
    | lengthDelimited size payload =>
        rw [Setting.mapFilter_lengthDelimited]
        apply Pays.choose
        intro pristine
        have fields := lookupField_pays costs keyType wantedKeyField wantedKeyContents
        have leaves := leaveEntry_pays costs keyType wantedKeyField wantedKeyContents
        dsimp only
        have nothing : bufferedCredits factor
            { (if pristine then EntryBuffers.found else .empty) with inEntry := true } = 0 := by
          cases pristine <;> exact Nat.mul_zero _
        refine Pays.mul ?_ ((leaves _).left (Nat.zero_le _))
        have scanned := pays_nested factor budget payload (fun lower _ => fields lower)
          { (if pristine then EntryBuffers.found else .empty) with inEntry := true }
        rw [nothing, Nat.zero_add] at scanned
        exact scanned.weaken (Nat.mul_le_mul_right _ (Nat.add_le_add_right within _))
    | _ => exact .choose fun _ => .one (Nat.zero_le _)
  handed type size payload := .one (Nat.le_refl 0)

end

/-! ## Chains -/

def ChainVisitor.scanCost (recursionLimit : Nat) : ChainVisitor → Nat
  | descendIntoSubmessage => 1
  | allMapEntries _ => 1
  | mapFilter _ => recursionLimit
  | _ => 0

def scanFactor (recursionLimit : Nat) (visitors : List ChainVisitor) : Nat :=
  (visitors.map (ChainVisitor.scanCost recursionLimit)).sum

theorem scanFactor_append (recursionLimit : Nat) (front back : List ChainVisitor) :
    scanFactor recursionLimit (front ++ back) =
      scanFactor recursionLimit front + scanFactor recursionLimit back := by
  rw [scanFactor, List.map_append, List.sum_append]
  rfl

theorem mapPart_costs (setting : Setting State) (uninitialised : Uninitialised)
    (position visitorPosition : Nat) (map : MapPart) {factor : Nat} {next : Delivery State}
    (costs : Costs setting.recursionLimit factor next) :
    Costs setting.recursionLimit
      (scanFactor setting.recursionLimit (map.visitors uninitialised visitorPosition) + factor)
      (setting.mapPart position map next) := by
  cases map with
  | none =>
      rw [MapPart.visitors, scanFactor, List.map_nil, List.sum_nil, Nat.zero_add]
      exact costs
  | entries wantKeys type => exact allMapEntries_costs costs wantKeys
  | lookup keyType wantedKeyField wantedKeyContents valueType =>
      exact mapFilter_costs costs keyType wantedKeyField wantedKeyContents position

theorem chain_costs (setting : Setting State) (uninitialised : Uninitialised) (last : ChainEnd)
    (parts : List ChainPart) (position : Nat) :
    Costs setting.recursionLimit
      (scanFactor setting.recursionLimit (partsVisitors uninitialised position parts ++
        (dotVisitors last.trailingDot ++ [.emitter (.new last.kind none)])))
      (setting.chain last position parts) := by
  induction parts generalizing position with
  | nil =>
      have emits := emitter_costs setting last.kind setting.recursionLimit
      unfold Setting.chain Setting.chainEnd
      cases last.trailingDot with
      | false => exact emits
      | true => exact descend_costs (fun budget within _ field => emits.field budget within _) ()
  | cons part parts induction =>
      have costs := mapPart_costs setting uninitialised (position + 2) (position + 2) part.map
        (induction (position + 2 + Setting.mapWidth part.map))
      have descends := descend_costs (fun budget within index field =>
        selectField_pays costs part within index field) (0 : Int)
      rw [← scanFactor_append] at descends
      have isFactor : scanFactor setting.recursionLimit (partsVisitors uninitialised position
          (part :: parts) ++ (dotVisitors last.trailingDot ++
            [.emitter (.new last.kind none)])) = 1 + scanFactor setting.recursionLimit
          (part.map.visitors uninitialised (position + 2) ++
            (partsVisitors uninitialised (position + 2 + Setting.mapWidth part.map) parts ++
              (dotVisitors last.trailingDot ++ [.emitter (.new last.kind none)]))) := by
        simp [partsVisitors, ChainPart.visitors, scanFactor, ChainVisitor.scanCost]
      rw [isFactor]
      exact descends

end

/-! ## Runs -/

section

variable (Stream : Type) [CodedInputStream Stream] [LawfulCodedInputStream Stream]

/-- The levels that a run scans, whether it returns or throws, hold no more bytes together
than its visitors ask for: the message once for each part that descends and for each
selector of all entries, and as often as the recursion limit for each map filter. -/
theorem scannedBytes_le {descDb : DescDb Message} {uninitialised : Uninitialised}
    {text : StdString} {limit : Option Nat} {query : QueryImpl}
    (accepted : compileQuery descDb uninitialised text limit = .ok query)
    (zero : uninitialised.ZeroBuffers) (utils : PostgresUtils) (localBits : Nat → UInt64)
    (message : Bytea) :
    ((query.trace Stream utils localBits message).map Event.scannedBytes).sum ≤
      scanFactor (CodedInputStream.recursionLimit Stream) query.visitors *
        message.data.length := by
  rcases compileQuery_eq_ok_iff.mp accepted with
    ⟨descSet, desc, path, parts, last, final, _, chain, rfl⟩
  let setting := Setting.fixed utils descSet.binaryToJsonString
    (CodedInputStream.recursionLimit Stream) 0
  have paid := (chain_costs setting uninitialised last parts 0).field setting.recursionLimit
    (Nat.le_refl _) (.ofPayload message.data) ()
  have onlyLevels : ∀ events : List Event, ((Event.scans events).map Event.scannedBytes).sum =
      (events.map Event.scannedBytes).sum := by
    intro events
    induction events with
    | nil => rfl
    | cons event events induction =>
        rw [List.map_cons, List.sum_cons, ← induction]
        cases event with
        | row text => exact (Nat.zero_add _).symm
        | _ => rfl
  rw [trace_eq zero, onlyLevels]
  exact paid

/-- An entry whose value is scanned again, and one inside another field of an entry. -/
theorem scannedBytes_le_mapValue :
    let message : Bytea := ⟨[0x52, 8, 0x0A, 1, 0x6B, 0x12, 3, 0x0A, 1, 0x61,
      0x52, 6, 0x1A, 4, 0x0A, 1, 0x6B, 0x18], by decide⟩
    let query := testQuery .exampleMessage "map_str2inner[k].inner_str"
    ((query.trace ArrayStream testUtils (fun _ => 7) message).map Event.scannedBytes).sum ≤
      102 * 18 := by
  intro message query
  have accepted : compileQuery testDb zeroMemory
      (literal "pgpb.test.ExampleMessage:map_str2inner[k].inner_str") none = .ok query := rfl
  exact scannedBytes_le ArrayStream accepted (fun _ => ⟨rfl, rfl⟩) testUtils (fun _ => 7) message

end

end PostgresProtobuf
