import PostgresProtobuf.Concatenation
import PostgresProtobuf.Composition
import PostgresProtobuf.EntryBuffers
import PostgresProtobuf.RepeatedScalars
import PostgresProtobuf.PathEvaluation

/-! # Fields that no selector wants

A field that is not wanted goes into a level that a field selector scans. The run passes
over it, unless the selector is packed and the contents of the field are no elements. -/

namespace PostgresProtobuf

open Foundation

variable {Message : Type}

/-! ## Messages with one more field -/

def OneMore (inserted : WireField) (payload more : Bytes) : Prop :=
  ∃ front back, readFields payload = (front ++ back, none) ∧
    readFields more = (front ++ inserted :: back, none)

structure ChangesAt (front : List WireField) (number : Nat) (inner innerMore : Bytes)
    (payload more : Bytes) : Prop where
  rest : ∃ back, readFields payload = (front ++ ⟨number, .ofPayload inner⟩ :: back, none) ∧
    readFields more = (front ++ ⟨number, .ofPayload innerMore⟩ :: back, none)

open Setting (EntryBuffers)

section

variable (wantedKeyField : FieldInfo) (wantedKeyContents : StdString)

inductive ForwardsValue : EntryBuffers → List WireField → Prop
  | last {buffers : EntryBuffers}
      (isWanted : buffers.Matches wantedKeyField wantedKeyContents) : ForwardsValue buffers []
  | key {buffers : EntryBuffers} {field : WireField} {rest : List WireField}
      (isKey : field.number = 1) (forwards : ForwardsValue (buffers.after field) rest) :
      ForwardsValue buffers (field :: rest)
  | ended {buffers : EntryBuffers} {field : WireField} {rest : List WireField}
      (notKey : field.number ≠ 1) (notValue : field.number ≠ 2)
      (primitive : field.value.wireType ≠ 2)
      (isWanted : buffers.Matches wantedKeyField wantedKeyContents) :
      ForwardsValue buffers (field :: rest)
  | nested {buffers : EntryBuffers} {number size : Nat} {payload : Bytes}
      {fields rest : List WireField} (notKey : number ≠ 1) (notValue : number ≠ 2)
      (isLevel : readFields payload = (fields, none)) (forwards : ForwardsValue buffers fields) :
      ForwardsValue buffers (⟨number, .lengthDelimited size payload⟩ :: rest)

/-- The contents of a value that is forwarded change, in the fields of an entry or of an
unknown field that the map filter scans like one. -/
inductive EntryChanges (Changes : Bytes → Bytes → Prop) :
    EntryBuffers → List WireField → List WireField → Prop
  | value {buffers : EntryBuffers} {inner innerMore : Bytes} {rest : List WireField}
      (inEntry : buffers.inEntry = true)
      (forwards : ForwardsValue wantedKeyField wantedKeyContents
        (buffers.after ⟨2, .ofPayload inner⟩) rest)
      (changes : Changes inner innerMore) :
      EntryChanges Changes buffers (⟨2, .ofPayload inner⟩ :: rest)
        (⟨2, .ofPayload innerMore⟩ :: rest)
  | later {buffers : EntryBuffers} {field : WireField} {rest restMore : List WireField}
      (changes : EntryChanges Changes (buffers.after field) rest restMore) :
      EntryChanges Changes buffers (field :: rest) (field :: restMore)
  | nested {buffers : EntryBuffers} {number : Nat} {inner innerMore : Bytes}
      {fields fieldsMore rest : List WireField}
      (notKey : ¬ (buffers.inEntry ∧ number = 1)) (notValue : ¬ (buffers.inEntry ∧ number = 2))
      (isInner : readFields inner = (fields, none))
      (isMore : readFields innerMore = (fieldsMore, none))
      (changes : EntryChanges Changes { buffers with inEntry := true } fields fieldsMore) :
      EntryChanges Changes buffers (⟨number, .ofPayload inner⟩ :: rest)
        (⟨number, .ofPayload innerMore⟩ :: rest)

end

def MapChanges (map : MapPart) (Changes : Bytes → Bytes → Prop) (payload more : Bytes) :
    Prop :=
  match map with
  | .none => Changes payload more
  | .entries wantKeys _ => ∃ (front : List WireField) (number : Nat) (inner innerMore : Bytes),
      (number : Int) = Step.entryNumber wantKeys ∧
        ChangesAt front number inner innerMore payload more ∧ Changes inner innerMore
  | .lookup _ wantedKeyField wantedKeyContents _ => ∃ fields fieldsMore,
      readFields payload = (fields, none) ∧ readFields more = (fieldsMore, none) ∧
        EntryChanges wantedKeyField wantedKeyContents Changes
          { EntryBuffers.empty with inEntry := true } fields fieldsMore

/-- The message with one more field in a level that the field selector of some part scans,
where the field is not the one that the selector wants. -/
def Inserts (inserted : WireField) (level : ChainPart) :
    List ChainPart → (payload more : Bytes) → Prop
  | [], _, _ => False
  | part :: parts, payload, more =>
      level = part ∧ (inserted.number : Int) ≠ part.wantedField ∧
          OneMore inserted payload more ∨
        part.isPacked = false ∧ part.type = .message ∧
          ∃ (front : List WireField) (number : Nat) (inner innerMore : Bytes),
          part.Emits number (valuesOf part.wantedField front).length ∧
            ChangesAt front number inner innerMore payload more ∧
            MapChanges part.map (Inserts inserted level parts) inner innerMore

/-- The selector passes over the field where it is not wanted: it is not packed, or the
field is not length-delimited, or its contents are elements of the packed type. -/
def ChainPart.PassesOver (part : ChainPart) (value : WireValue) : Prop :=
  part.isPacked = true → value.wireType = 2 →
    ∀ wireType ∈ Setting.packedWireType part.type, (readElements wireType value.payload).2 = none

/-! ## Answers that stay, and runs that throw -/

/-- A relation between actions that goes by their answers, and that persists whatever comes
before and after on both sides. -/
structure Persists (Related : Activity Unit → Activity Unit → Prop) : Prop where
  exceeded : Related (raise .recursionDepthExceeded) (raise .recursionDepthExceeded)
  after : ∀ (first : Activity Unit) {action other : Activity Unit}, Related action other →
    Related (first * action) (first * other)
  mul : ∀ {action other : Activity Unit}, Related action other → ∀ rest : Activity Unit,
    Related (action * rest) (other * rest)
  of_answers : ∀ {action other first second : Activity Unit}, answer first = answer action →
    answer second = answer other → Related action other → Related first second

def SameAnswer (action other : Activity Unit) : Prop := answer action = answer other

theorem persists_sameAnswer : Persists SameAnswer where
  exceeded := rfl
  after first action other same := by
    unfold SameAnswer
    rw [answer_mul, answer_mul, same]
  mul same rest := by
    unfold SameAnswer
    rw [answer_mul, answer_mul, same]
  of_answers isFirst isSecond same := isFirst.trans (same.trans isSecond.symm)

def OtherThrows (_ other : Activity Unit) : Prop := ∃ exception, answer other = .error exception

theorem persists_otherThrows : Persists OtherThrows where
  exceeded := ⟨_, rfl⟩
  after first _ other throws := by
    rcases throws with ⟨exception, isError⟩
    unfold OtherThrows
    rw [answer_mul, isError]
    cases answer first with
    | error thrown => exact ⟨thrown, rfl⟩
    | ok rows => exact ⟨exception, rfl⟩
  mul throws rest := by
    rcases throws with ⟨exception, isError⟩
    exact ⟨exception, by rw [answer_mul, isError, Answer.error_followedBy]⟩
  of_answers _ isSecond throws := by
    rcases throws with ⟨exception, isError⟩
    exact ⟨exception, isSecond.trans isError⟩

section

variable {Related : Activity Unit → Activity Unit → Prop} (persists : Persists Related)

include persists

theorem Persists.scanSubmessage {Progress : Type}
    {turn : Nat → Progress → WireField → Activity Unit × Progress} {start : Progress}
    {payload more : Bytes} {fields fieldsMore : List WireField}
    (isLevel : readFields payload = (fields, none))
    (isMore : readFields more = (fieldsMore, none))
    (related : ∀ budget, Related (turns (turn budget) start fields).1
      (turns (turn budget) start fieldsMore).1) (budget : Nat) :
    Related (scanSubmessage turn budget start payload).1
      (scanSubmessage turn budget start more).1 := by
  cases budget with
  | zero => exact persists.exceeded
  | succ budget =>
      refine persists.of_answers ?_ ?_ (related budget)
      · simp [PostgresProtobuf.scanSubmessage, answer_scanLevel, isLevel, endOn]
      · simp [PostgresProtobuf.scanSubmessage, answer_scanLevel, isMore, endOn]

theorem Persists.turns {Progress Item : Type} {turn : Progress → Item → Activity Unit × Progress}
    {front back : List Item} {item other : Item} {start : Progress}
    (related : Related (turn (turns turn start front).2 item).1
      (turn (turns turn start front).2 other).1)
    (same : (turn (turns turn start front).2 item).2 =
      (turn (turns turn start front).2 other).2) :
    Related (turns turn start (front ++ item :: back)).1
      (turns turn start (front ++ other :: back)).1 := by
  simp only [turns_append, PostgresProtobuf.turns]
  rw [same]
  exact persists.after _ (persists.mul related _)

end

/-! ## Map filters -/

namespace Setting

section

variable (utils : PostgresUtils)
variable (binaryToJsonString : StdString → Bytes → Option StdString)
variable (limit : Nat) (bits : UInt64)
variable (keyType : FieldType) (wantedKeyField : FieldInfo) (wantedKeyContents : StdString)
variable (next : Delivery Unit)

noncomputable def wholeEntry (budget : Nat) (buffers : EntryBuffers)
    (fields : List WireField) : Activity Unit :=
  let setting := fixed utils binaryToJsonString limit bits
  let scanned := turns (setting.lookupField keyType wantedKeyField wantedKeyContents next budget)
    buffers fields
  scanned.1 *
    (setting.leaveEntry keyType wantedKeyField wantedKeyContents next scanned.2).1

theorem wholeEntry_cons (budget : Nat) {buffers : EntryBuffers} (reset : buffers.Reset)
    (field : WireField) (rest : List WireField) :
    wholeEntry utils binaryToJsonString limit bits keyType wantedKeyField wantedKeyContents next
        budget buffers (field :: rest) =
      ((fixed utils binaryToJsonString limit bits).lookupField keyType wantedKeyField
          wantedKeyContents next budget buffers field).1 *
        wholeEntry utils binaryToJsonString limit bits keyType wantedKeyField wantedKeyContents
          next budget (buffers.after field) rest := by
  simp only [wholeEntry, turns]
  rw [lookupField_snd _ reset, mul_assoc]

variable {utils binaryToJsonString limit bits keyType wantedKeyField wantedKeyContents next}

theorem answer_lookupField_entry {buffers : EntryBuffers} {number : Nat}
    (notKey : ¬ (buffers.inEntry ∧ number = 1)) (notValue : ¬ (buffers.inEntry ∧ number = 2))
    {payload : Bytes} {fields : List WireField} (isLevel : readFields payload = (fields, none))
    (budget size : Nat) :
    answer ((fixed utils binaryToJsonString limit bits).lookupField keyType wantedKeyField
        wantedKeyContents next budget buffers ⟨number, .lengthDelimited size payload⟩).1 =
      match budget with
      | 0 => .error .recursionDepthExceeded
      | budget + 1 => answer (wholeEntry utils binaryToJsonString limit bits keyType
          wantedKeyField wantedKeyContents next budget { buffers with inEntry := true }
          fields) := by
  rw [lookupField_entry _ _ _ _ _ notKey notValue]
  cases budget with
  | zero => rfl
  | succ budget =>
      simp only [scanSubmessage, scanLevel, isLevel, wholeEntry, answer_mul, answer_enter,
        answer_leave, endOn, answer_one, Answer.ok_nil_followedBy, Answer.followedBy_ok_nil]

theorem leaveEntry_of_matches {buffers : EntryBuffers} (inEntry : buffers.inEntry = true)
    (isWanted : buffers.Matches wantedKeyField wantedKeyContents) {value : WireValue}
    (isValue : buffers.value = some value) :
    ((fixed utils binaryToJsonString limit bits).leaveEntry keyType wantedKeyField
      wantedKeyContents next buffers).1 = next.field limit value := by
  rcases isWanted with ⟨key, isKey, isWanted⟩
  rw [leaveEntry, if_pos inEntry]
  dsimp only
  rw [endEntry_fixed _ _ _ _ _ _ _ _ isKey isValue, if_pos isWanted]

theorem lookupField_key_fst {buffers others : EntryBuffers} (inEntry : buffers.inEntry = true)
    (otherEntry : others.inEntry = true) (budget : Nat) (key : WireValue) :
    ((fixed utils binaryToJsonString limit bits).lookupField keyType wantedKeyField
        wantedKeyContents next budget buffers ⟨1, key⟩).1 =
      ((fixed utils binaryToJsonString limit bits).lookupField keyType wantedKeyField
        wantedKeyContents next budget others ⟨1, key⟩).1 := by
  by_cases primitive : key.wireType ≠ 2
  · rw [lookupField_primitive _ _ _ _ _ primitive, lookupField_primitive _ _ _ _ _ primitive,
      if_pos inEntry, if_pos otherEntry]
    rfl
  · cases key with
    | lengthDelimited size payload =>
        rw [lookupField_key _ _ _ _ _ inEntry, lookupField_key _ _ _ _ _ otherEntry]
    | _ => exact absurd (by simp [WireValue.wireType]) primitive

variable {Related : Activity Unit → Activity Unit → Prop} (persists : Persists Related)

include persists

theorem related_lookupField_entry {buffers : EntryBuffers} {number : Nat}
    (notKey : ¬ (buffers.inEntry ∧ number = 1)) (notValue : ¬ (buffers.inEntry ∧ number = 2))
    {others : EntryBuffers} (sameEntry : others.inEntry = buffers.inEntry)
    {payload more : Bytes} {fields fieldsMore : List WireField}
    (isLevel : readFields payload = (fields, none))
    (isMore : readFields more = (fieldsMore, none))
    (related : ∀ budget, Related
      (wholeEntry utils binaryToJsonString limit bits keyType wantedKeyField wantedKeyContents
        next budget { buffers with inEntry := true } fields)
      (wholeEntry utils binaryToJsonString limit bits keyType wantedKeyField wantedKeyContents
        next budget { others with inEntry := true } fieldsMore)) (budget size sizeMore : Nat) :
    Related
      ((fixed utils binaryToJsonString limit bits).lookupField keyType wantedKeyField
        wantedKeyContents next budget buffers ⟨number, .lengthDelimited size payload⟩).1
      ((fixed utils binaryToJsonString limit bits).lookupField keyType wantedKeyField
        wantedKeyContents next budget others ⟨number, .lengthDelimited sizeMore more⟩).1 := by
  have notKeyMore : ¬ (others.inEntry ∧ number = 1) := sameEntry ▸ notKey
  have notValueMore : ¬ (others.inEntry ∧ number = 2) := sameEntry ▸ notValue
  cases budget with
  | zero =>
      exact persists.of_answers (answer_lookupField_entry notKey notValue isLevel 0 size)
        (answer_lookupField_entry notKeyMore notValueMore isMore 0 sizeMore) persists.exceeded
  | succ budget =>
      exact persists.of_answers
        (answer_lookupField_entry notKey notValue isLevel (budget + 1) size)
        (answer_lookupField_entry notKeyMore notValueMore isMore (budget + 1) sizeMore)
        (related budget)

theorem related_of_forwards {buffers : EntryBuffers} {fields : List WireField}
    (forwards : ForwardsValue wantedKeyField wantedKeyContents buffers fields)
    (inEntry : buffers.inEntry = true) {value other : WireValue}
    (isValue : buffers.value = some value)
    (related : Related (next.field limit value) (next.field limit other)) (budget : Nat) :
    Related
      (wholeEntry utils binaryToJsonString limit bits keyType wantedKeyField wantedKeyContents
        next budget buffers fields)
      (wholeEntry utils binaryToJsonString limit bits keyType wantedKeyField wantedKeyContents
        next budget { buffers with value := some other } fields) := by
  have ends : ∀ {buffers : EntryBuffers}, buffers.inEntry = true → buffers.value = some value →
      buffers.Matches wantedKeyField wantedKeyContents →
      Related
        ((fixed utils binaryToJsonString limit bits).leaveEntry keyType wantedKeyField
          wantedKeyContents next buffers).1
        ((fixed utils binaryToJsonString limit bits).leaveEntry keyType wantedKeyField
          wantedKeyContents next { buffers with value := some other }).1 := by
    intro buffers inEntry isValue isWanted
    rw [leaveEntry_of_matches inEntry isWanted isValue,
      leaveEntry_of_matches (by exact inEntry) (by exact isWanted) rfl]
    exact related
  induction forwards generalizing budget with
  | last isWanted => exact persists.after _ (ends inEntry isValue isWanted)
  | @key buffers field rest isKey _ induction =>
      rcases field with ⟨number, found⟩
      obtain rfl : number = 1 := isKey
      have otherEntry : { buffers with value := some other }.inEntry = true := inEntry
      rw [EntryBuffers.after_key inEntry rfl] at induction
      rw [wholeEntry_cons _ _ _ _ _ _ _ _ _ (.of_inEntry inEntry),
        wholeEntry_cons _ _ _ _ _ _ _ _ _ (.of_inEntry otherEntry),
        EntryBuffers.after_key inEntry rfl, EntryBuffers.after_key otherEntry rfl,
        lookupField_key_fst inEntry otherEntry]
      exact persists.after _ (induction inEntry isValue budget)
  | @ended buffers field rest notKey notValue primitive isWanted =>
      rcases field with ⟨number, found⟩
      have otherEntry : { buffers with value := some other }.inEntry = true := inEntry
      have ended : ∀ {buffers : EntryBuffers}, buffers.inEntry = true →
          buffers.after ⟨number, found⟩ = .empty := by
        intro buffers inEntry
        rw [EntryBuffers.after, if_neg fun both => notKey both.2,
          if_neg fun both => notValue both.2, if_pos (.inl inEntry)]
      rw [wholeEntry_cons _ _ _ _ _ _ _ _ _ (.of_inEntry inEntry),
        wholeEntry_cons _ _ _ _ _ _ _ _ _ (.of_inEntry otherEntry), ended inEntry,
        ended otherEntry]
      refine persists.mul ?_ _
      rw [lookupField_primitive _ _ _ _ _ primitive, lookupField_primitive _ _ _ _ _ primitive,
        if_pos inEntry, if_pos otherEntry, if_neg notKey, if_neg notKey, if_neg notValue,
        if_neg notValue]
      exact ends inEntry isValue isWanted
  | @nested buffers number size payload fields rest notKey notValue isLevel _ induction =>
      have otherEntry : { buffers with value := some other }.inEntry = true := inEntry
      have inside : { buffers with inEntry := true } = buffers := by rw [← inEntry]
      have otherInside : { buffers with inEntry := true, value := some other } =
          { buffers with value := some other } := by rw [← inEntry]
      rw [wholeEntry_cons _ _ _ _ _ _ _ _ _ (.of_inEntry inEntry),
        wholeEntry_cons _ _ _ _ _ _ _ _ _ (.of_inEntry otherEntry),
        EntryBuffers.after_entry (fun both => notKey both.2) fun both => notValue both.2,
        EntryBuffers.after_entry (fun both => notKey both.2) fun both => notValue both.2]
      refine persists.mul (related_lookupField_entry persists (fun both => notKey both.2)
        (fun both => notValue both.2) ?_ isLevel isLevel (fun lower => ?_) budget size size) _
      · rfl
      · rw [inside, otherInside]
        exact induction inEntry isValue lower

variable {Changes : Bytes → Bytes → Prop}

theorem related_of_entryChanges {buffers : EntryBuffers} {fields fieldsMore : List WireField}
    (changes : EntryChanges wantedKeyField wantedKeyContents Changes buffers fields fieldsMore)
    (reset : buffers.Reset)
    (related : ∀ inner innerMore, Changes inner innerMore →
      Related (next.field limit (.ofPayload inner)) (next.field limit (.ofPayload innerMore)))
    (budget : Nat) :
    Related
      (wholeEntry utils binaryToJsonString limit bits keyType wantedKeyField wantedKeyContents
        next budget buffers fields)
      (wholeEntry utils binaryToJsonString limit bits keyType wantedKeyField wantedKeyContents
        next budget buffers fieldsMore) := by
  induction changes generalizing budget with
  | @value buffers inner innerMore rest inEntry forwards changed =>
      have buffered : ∀ payload : Bytes,
          ((fixed utils binaryToJsonString limit bits).lookupField keyType wantedKeyField
            wantedKeyContents next budget buffers ⟨2, .ofPayload payload⟩).1 = 1 := by
        intro payload
        rw [WireValue.ofPayload, lookupField_value _ _ _ _ _ inEntry]
        exact readWhole_of_fits rfl
      rw [wholeEntry_cons _ _ _ _ _ _ _ _ _ reset, wholeEntry_cons _ _ _ _ _ _ _ _ _ reset,
        buffered, buffered, EntryBuffers.after_value inEntry, EntryBuffers.after_value inEntry]
      rw [EntryBuffers.after_value inEntry] at forwards
      exact persists.after _ (related_of_forwards persists forwards (by exact inEntry) rfl
        (related _ _ changed) budget)
  | later _ induction =>
      rw [wholeEntry_cons _ _ _ _ _ _ _ _ _ reset, wholeEntry_cons _ _ _ _ _ _ _ _ _ reset]
      exact persists.after _ (induction (EntryBuffers.reset_after reset _) budget)
  | nested notKey notValue isInner isMore _ induction =>
      rw [wholeEntry_cons _ _ _ _ _ _ _ _ _ reset, wholeEntry_cons _ _ _ _ _ _ _ _ _ reset,
        WireValue.ofPayload, WireValue.ofPayload, EntryBuffers.after_entry notKey notValue,
        EntryBuffers.after_entry notKey notValue]
      exact persists.mul (related_lookupField_entry persists notKey notValue rfl isInner isMore
        (induction (by rintro ⟨⟩)) budget _ _) _

end

end Setting

/-! ## Chains -/

def ChainPart.passFault (part : ChainPart) (value : WireValue) : Option FramingFault :=
  if part.isPacked = true ∧ value.wireType = 2 then
    (Setting.packedWireType part.type).bind fun wireType =>
      (readElements wireType value.payload).2
  else
    none

theorem ChainPart.passFault_eq_none_iff {part : ChainPart} {value : WireValue} :
    part.passFault value = none ↔ part.PassesOver value := by
  unfold ChainPart.passFault ChainPart.PassesOver
  constructor
  · intro passes isPacked lengthDelimited wireType isType
    rw [if_pos ⟨isPacked, lengthDelimited⟩, Option.mem_def.mp isType] at passes
    exact passes
  · intro passes
    split
    · rename_i packed
      cases isType : Setting.packedWireType part.type with
      | none => rfl
      | some wireType => exact passes packed.1 packed.2 wireType isType
    · rfl

theorem selectField_notWanted {part : ChainPart} {field : WireField}
    (foreign : (field.number : Int) ≠ part.wantedField) (next : Delivery Unit) (budget : Nat)
    (index : Int) :
    Setting.selectField part next budget index field =
      (endOn (part.passFault field.value), index) := by
  have skips : ¬ part.Emits field.number index := fun emits => foreign emits.1
  have after : part.indexAfter field.number index = index := if_neg foreign
  rcases field with ⟨number, value⟩
  cases value with
  | lengthDelimited size payload =>
      cases isPacked : part.isPacked with
      | false =>
          simp [Setting.selectField, ChainPart.passFault, isPacked, if_neg skips, after, endOn]
      | true =>
          cases packed : Setting.packedWireType part.type with
          | none =>
              simp [Setting.selectField, Setting.selectPacked, ChainPart.passFault, isPacked,
                packed, after, endOn]
          | some wireType =>
              simp [Setting.selectField, selectPacked_eq packed, ChainPart.passFault, isPacked,
                packed, after, WireValue.wireType, WireValue.payload,
                Emits.turns_selectElement_foreign foreign]
  | _ =>
      simp [Setting.selectField, ChainPart.passFault, if_neg skips, after, WireValue.wireType,
        endOn]

theorem turns_selectField_snd {part : ChainPart} (unpacked : part.isPacked = false)
    (next : Delivery Unit) (budget : Nat) (fields : List WireField) (start : Nat) :
    (turns (Setting.selectField part next budget) (start : Int) fields).2 =
      ((start + (valuesOf part.wantedField fields).length : Nat) : Int) := by
  induction fields generalizing start with
  | nil => rfl
  | cons field fields induction =>
      rw [turns, Setting.selectField_unpacked unpacked]
      by_cases wanted : (field.number : Int) = part.wantedField
      · have isNext : part.indexAfter field.number start = ((start + 1 : Nat) : Int) := by
          rw [ChainPart.indexAfter, if_pos wanted]
          rfl
        simp only [isNext, induction, valuesOf_cons_of_eq wanted, List.length_cons]
        congr 1
        omega
      · have same : part.indexAfter field.number start = start := if_neg wanted
        simp only [same, induction, valuesOf_cons_of_ne wanted]

section

variable {utils : PostgresUtils} {binaryToJsonString : StdString → Bytes → Option StdString}
variable {limit : Nat} {bits : UInt64}
variable {Related : Activity Unit → Activity Unit → Prop} (persists : Persists Related)
variable {Changes : Bytes → Bytes → Prop} {payload more : Bytes}

include persists

theorem related_mapPart {map : MapPart} (changes : MapChanges map Changes payload more)
    {rest : Delivery Unit}
    (related : ∀ inner innerMore, Changes inner innerMore → ∀ budget,
      Related (rest.field budget (.ofPayload inner)) (rest.field budget (.ofPayload innerMore)))
    (position budget : Nat) :
    let setting := Setting.fixed utils binaryToJsonString limit bits
    Related ((setting.mapPart position map rest).field budget (.ofPayload payload))
      ((setting.mapPart position map rest).field budget (.ofPayload more)) := by
  intro setting
  cases map with
  | none => exact related payload more changes budget
  | entries wantKeys type =>
      rcases changes with ⟨front, number, inner, innerMore, isEntry, ⟨back, isLevel, isMore⟩,
        changes⟩
      refine persists.scanSubmessage isLevel isMore (fun lower => ?_) budget
      refine persists.turns ?_ rfl
      have wants : Setting.wantsEntryField wantKeys number = true :=
        Setting.wantsEntryField_iff.mpr isEntry
      simp only [Setting.entriesField, if_pos wants]
      exact related inner innerMore changes lower
  | lookup keyType wantedKeyField wantedKeyContents valueType =>
      rcases changes with ⟨fields, fieldsMore, isLevel, isMore, changes⟩
      have entries : ∀ lower, Related
          (Setting.wholeEntry utils binaryToJsonString limit bits keyType wantedKeyField
            wantedKeyContents rest lower { EntryBuffers.empty with inEntry := true } fields)
          (Setting.wholeEntry utils binaryToJsonString limit bits keyType wantedKeyField
            wantedKeyContents rest lower { EntryBuffers.empty with inEntry := true }
            fieldsMore) :=
        Setting.related_of_entryChanges persists changes (by rintro ⟨⟩)
          fun inner innerMore changes => related inner innerMore changes limit
      have answers : ∀ {payload : Bytes} {fields : List WireField},
          readFields payload = (fields, none) → ∀ lower,
            answer ((setting.mapFilter keyType wantedKeyField wantedKeyContents rest
              position).field (lower + 1) (.ofPayload payload)) =
              answer (Setting.wholeEntry utils binaryToJsonString limit bits keyType
                wantedKeyField wantedKeyContents rest lower
                { EntryBuffers.empty with inEntry := true } fields) := by
        intro payload fields isLevel lower
        rw [WireValue.ofPayload, Setting.mapFilter_fixed]
        simp [scanSubmessage, scanLevel, isLevel, Setting.wholeEntry, endOn]
      cases budget with
      | zero =>
          exact persists.mul persists.exceeded (setting.leaveEntry keyType wantedKeyField
            wantedKeyContents rest { EntryBuffers.empty with inEntry := true }).1
      | succ budget =>
          exact persists.of_answers (answers isLevel budget) (answers isMore budget)
            (entries budget)

/-- What becomes of a field that is not wanted decides what becomes of the message, by
induction on the parts. -/
theorem related_of_inserts {inserted : WireField} {level : ChainPart}
    (related : ∀ (next : Delivery Unit) budget index,
      (inserted.number : Int) ≠ level.wantedField →
        Related 1 (Setting.selectField level next budget index inserted).1)
    (last : ChainEnd) {parts : List ChainPart} (inserts : Inserts inserted level parts payload more)
    (position budget : Nat) :
    let setting := Setting.fixed utils binaryToJsonString limit bits
    Related ((setting.chain last position parts).field budget (.ofPayload payload))
      ((setting.chain last position parts).field budget (.ofPayload more)) := by
  intro setting
  induction parts generalizing position budget payload more with
  | nil => exact inserts.elim
  | cons part parts induction =>
      rcases inserts with ⟨rfl, foreign, front, back, isLevel, isMore⟩ |
        ⟨unpacked, isMessage, front, number, inner, innerMore, emits, ⟨back, isLevel, isMore⟩,
          changes⟩
      · refine persists.scanSubmessage isLevel isMore (fun lower => ?_) budget
        simp only [turns_append, turns, selectField_notWanted foreign]
        refine persists.after _ ?_
        have passes := related (setting.mapPart (position + 2) level.map
          (setting.chain last (position + 2 + Setting.mapWidth level.map) parts)) lower 0 foreign
        rw [selectField_notWanted foreign] at passes
        have goes := persists.mul passes (turns (Setting.selectField level (setting.mapPart
          (position + 2) level.map (setting.chain last
            (position + 2 + Setting.mapWidth level.map) parts)) lower)
          (turns (Setting.selectField level (setting.mapPart (position + 2) level.map
            (setting.chain last (position + 2 + Setting.mapWidth level.map) parts)) lower) 0
            front).2 back).1
        rwa [one_mul] at goes
      · refine persists.scanSubmessage isLevel isMore (fun lower => ?_) budget
        have index := turns_selectField_snd unpacked (setting.mapPart (position + 2) part.map
          (setting.chain last (position + 2 + Setting.mapWidth part.map) parts)) lower front 0
        rw [Nat.zero_add] at index
        refine persists.turns ?_ ?_
        · simp only [Setting.selectField_unpacked unpacked]
          rw [Int.ofNat_zero] at index
          rw [index, if_pos emits, if_pos emits, isMessage, Setting.hand_message,
            Setting.hand_message]
          exact related_mapPart persists changes
            (fun inner innerMore changes lower => induction changes _ lower) _ lower
        · simp only [Setting.selectField_unpacked unpacked]

end

/-! ## Runs -/

section

variable (Stream : Type) [CodedInputStream Stream] [LawfulCodedInputStream Stream]

/-- One more field in a level that a field selector scans leaves the rows of a run as they
are, exactly where the selector passes over the field. -/
theorem foreignField_iff {host : Host Message} {desc : Message} {path : StdString}
    {parts : List ChainPart} {last : ChainEnd} {final : DescPtrs Message}
    (chain : ChainCompiles host.uninitialised host.descSet.pool desc path parts last final)
    (zero : host.uninitialised.ZeroBuffers) {bits : UInt64}
    (sameBits : host.localBits = fun _ => bits) {inserted : WireField} {level : ChainPart}
    {message more : Bytea} (inserts : Inserts inserted level parts message.data more.data)
    {rows : List StdString} (returns : host.answer Stream desc path message = .ok rows) :
    host.answer Stream desc path more = .ok rows ↔ level.PassesOver inserted.value := by
  let setting := Setting.fixed host.utils host.descSet.binaryToJsonString
    (CodedInputStream.recursionLimit Stream) bits
  have answers : ∀ message : Bytea, host.answer Stream desc path message =
      answer (setting.runs parts last message.data) := by
    intro message
    rw [host.answer_of_chain chain, sameBits]
    exact run_fixed host.utils _ bits parts last zero message
  have related : ∀ {Related : Activity Unit → Activity Unit → Prop}, Persists Related →
      Related 1 (endOn (level.passFault inserted.value)) →
        Related (setting.runs parts last message.data) (setting.runs parts last more.data) := by
    intro Related persists passes
    refine related_of_inserts persists ?_ last inserts 0 _
    intro next budget index foreign
    rw [selectField_notWanted foreign]
    exact passes
  rw [answers] at returns ⊢
  rw [← ChainPart.passFault_eq_none_iff]
  cases passes : level.passFault inserted.value with
  | none =>
      rw [passes] at related
      have same := related persists_sameAnswer rfl
      exact iff_of_true (same.symm.trans returns) rfl
  | some fault =>
      rw [passes] at related
      rcases related persists_otherThrows ⟨framingException fault, rfl⟩ with
        ⟨exception, isError⟩
      refine iff_of_false (fun same => ?_) nofun
      cases isError.symm.trans same

def moreEntryMessage : Bytea :=
  ⟨[0x52, 13, 0x12, 8, 0x12, 1, 0x61, 0x38, 5, 0x12, 1, 0x62, 0x0A, 1, 0x6B], by decide⟩

/-- `map_str2inner[k].inner_repeated[*]` with an unknown field in the value. -/
theorem foreignField_iff_entryMessage :
    let path := literal "map_str2inner[k].inner_repeated[*]"
    let level := (Step.occurrences 2 .string none).part 0
    testHost.answer ArrayStream .exampleMessage path moreEntryMessage =
        .ok [literal "a", literal "b"] ↔ level.PassesOver (.varint 5) := by
  intro path level
  rcases typedPath_innerRepeated.compiles zeroMemory with ⟨last, final, _, _, chain⟩
  have inValue : Inserts ⟨7, .varint 5⟩ level [level] [0x12, 1, 0x61, 0x12, 1, 0x62]
      [0x12, 1, 0x61, 0x38, 5, 0x12, 1, 0x62] :=
    .inl ⟨rfl, by decide, [⟨2, .ofPayload [0x61]⟩], [⟨2, .ofPayload [0x62]⟩], by decide +kernel,
      by decide +kernel⟩
  have forwards : ForwardsValue
      ⟨1, 2, FieldInfo.Value.setSize ⟨0⟩ 1⟩ (literal "k")
      ({ EntryBuffers.empty with inEntry := true }.after
        ⟨2, .ofPayload [0x12, 1, 0x61, 0x12, 1, 0x62]⟩) [⟨1, .ofPayload [0x6B]⟩] :=
    .key rfl (.last ⟨.ofPayload [0x6B], rfl, by decide⟩)
  have inserts : Inserts ⟨7, .varint 5⟩ level
      (Step.parts zeroMemory 0 [.entry 10 (literal "k") .message, .occurrences 2 .string none])
      entryMessage.data moreEntryMessage.data := by
    refine .inr ⟨rfl, rfl, [], 10,
      [0x12, 6, 0x12, 1, 0x61, 0x12, 1, 0x62, 0x0A, 1, 0x6B],
      [0x12, 8, 0x12, 1, 0x61, 0x38, 5, 0x12, 1, 0x62, 0x0A, 1, 0x6B], by decide,
      ⟨[], by decide +kernel, by decide +kernel⟩, ?_⟩
    exact ⟨_, _, by decide +kernel, by decide +kernel, .value rfl forwards inValue⟩
  have returns : testHost.answer ArrayStream .exampleMessage path entryMessage =
      .ok [literal "a", literal "b"] := by
    decide +kernel
  exact foreignField_iff ArrayStream chain (fun _ => ⟨rfl, rfl⟩) rfl inserts returns

/-- A string in front of no elements: its contents are taken for elements. -/
theorem foreignString_throws :
    let path := literal "repeated_int32[*]"
    let message : Bytea := ⟨[], by decide⟩
    let more : Bytea := ⟨[0x1A, 1, 0x80], by decide⟩
    (∃ query selector, compileTest .exampleMessage "repeated_int32[*]" = .ok query ∧
      query.visitors[1]? = some (.fieldSelector selector) ∧ selector.wantedField = 2) ∧
    OneMore ⟨3, .ofPayload [0x80]⟩ message.data more.data ∧
    testHost.answer ArrayStream .exampleMessage path message = .ok [] ∧
    testHost.answer ArrayStream .exampleMessage path more ≠ .ok [] := by
  refine ⟨⟨_, _, rfl, rfl, rfl⟩, ⟨[], [], by decide +kernel, by decide +kernel⟩,
    by decide +kernel, by decide +kernel⟩

end

end PostgresProtobuf
