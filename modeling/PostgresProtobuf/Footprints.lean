import PostgresProtobuf.MapLookups

/-! # What a run looks at

A run depends on a message by the values of the fields on its path, level by level. Neither
the order of fields with different numbers, nor fields off the path, nor the bytes that tags,
sizes and integers are written with make a difference. -/

namespace PostgresProtobuf

open Foundation

variable {Message : Type}

/-! ## Messages that agree -/

inductive AgreeOn (Agree : Bytes → Bytes → Prop) : WireValue → WireValue → Prop
  | same (value : WireValue) : AgreeOn Agree value value
  | payloads {payload other : Bytes} (agree : Agree payload other) :
      AgreeOn Agree (.ofPayload payload) (.ofPayload other)

structure LevelsAgree (number : Int) (Agree : Bytes → Bytes → Prop) (payload other : Bytes) :
    Prop where
  ends : (readFields payload).2 = (readFields other).2
  values : List.Forall₂ (AgreeOn Agree) (fieldValues number payload) (fieldValues number other)

structure EntriesAgree (Agree : Bytes → Bytes → Prop) (payload other : Bytes) : Prop where
  framed : WellFramed payload
  framedOther : WellFramed other
  known : ∀ field ∈ (readFields payload).1, field.number = 1 ∨ field.number = 2
  knownOther : ∀ field ∈ (readFields other).1, field.number = 1 ∨ field.number = 2
  keys : fieldValues 1 payload = fieldValues 1 other
  values : List.Forall₂ (AgreeOn Agree) (fieldValues 2 payload) (fieldValues 2 other)

namespace MapPart

/-- Which payloads agree below the field, where the given ones do behind the map visitor. -/
def Agree (map : MapPart) (Behind : Bytes → Bytes → Prop) : Bytes → Bytes → Prop :=
  match map with
  | none => Behind
  | entries wantKeys _ => LevelsAgree (Step.entryNumber wantKeys) Behind
  | lookup _ _ _ _ => EntriesAgree Behind

end MapPart

namespace ChainPart

def AgreeBelow (part : ChainPart) (Behind : Bytes → Bytes → Prop) (payload other : Bytes) :
    Prop :=
  if part.isPacked then
    ∀ wireType ∈ Setting.packedWireType part.type,
      readElements wireType payload = readElements wireType other
  else if part.type = .message then
    part.map.Agree Behind payload other
  else
    payload = other

def Skips (part : ChainPart) (payload : Bytes) : Prop :=
  ∀ field ∈ (readFields payload).1, (field.number : Int) ≠ part.wantedField →
    part.PassesOver field.value

end ChainPart

def AgreeAlong : List ChainPart → Bytes → Bytes → Prop
  | [] => Eq
  | part :: parts => fun payload other =>
      LevelsAgree part.wantedField (part.AgreeBelow (AgreeAlong parts)) payload other ∧
        part.Skips payload ∧ part.Skips other

theorem LevelsAgree.of_same {number : Int} {Agree : Bytes → Bytes → Prop}
    {payload other : Bytes} (ends : (readFields payload).2 = (readFields other).2)
    (same : fieldValues number payload = fieldValues number other) :
    LevelsAgree number Agree payload other :=
  ⟨ends, same ▸ List.forall₂_same.mpr fun value _ => .same value⟩

/-! ## Turns over what is wanted -/

section

variable {State Progress Item : Type} {turn : Progress → Item → Activity State × Progress}

theorem turns_filter {wanted : Item → Bool} {items : List Item}
    (skips : ∀ item ∈ items, wanted item = false →
      ∀ progress, turn progress item = (1, progress)) (progress : Progress) :
    turns turn progress items = turns turn progress (items.filter wanted) := by
  induction items generalizing progress with
  | nil => rfl
  | cons item items induction =>
      have later : ∀ progress, turns turn progress items =
          turns turn progress (items.filter wanted) :=
        induction fun item member => skips item (List.mem_cons_of_mem _ member)
      cases isWanted : wanted item with
      | true => rw [List.filter_cons_of_pos isWanted, turns, turns, later]
      | false =>
          have skipped := skips item List.mem_cons_self isWanted progress
          rw [List.filter_cons_of_neg (by simp [isWanted]), turns, skipped, one_mul, later]

end

theorem answer_turns_forall₂ {Progress Item : Type}
    {turn : Progress → Item → Activity Unit × Progress} {Same : Item → Item → Prop}
    (step : ∀ progress item other, Same item other →
      answer (turn progress item).1 = answer (turn progress other).1 ∧
        (turn progress item).2 = (turn progress other).2)
    {items others : List Item} (same : List.Forall₂ Same items others) (progress : Progress) :
    answer (turns turn progress items).1 = answer (turns turn progress others).1 := by
  induction same generalizing progress with
  | nil => rfl
  | cons first _ induction =>
      rcases step progress _ _ first with ⟨sameAnswer, sameProgress⟩
      rw [turns, turns, answer_mul, answer_mul, sameAnswer, sameProgress, induction]

def FieldsAgree (Agree : Bytes → Bytes → Prop) (field other : WireField) : Prop :=
  field.number = other.number ∧ AgreeOn Agree field.value other.value

theorem filter_number (number : Int) (fields : List WireField) :
    fields.filter (fun field => field.number = number) =
      (valuesOf number fields).map (WireField.mk number.toNat) := by
  have same : ∀ field ∈ fields.filter (fun field => field.number = number),
      (WireField.mk number.toNat ∘ WireField.value) field = id field := by
    rintro ⟨found, value⟩ member
    have isNumber : (found : Int) = number := of_decide_eq_true (List.mem_filter.mp member).2
    simp [← isNumber]
  rw [valuesOf, List.map_map, List.map_congr_left same, List.map_id]

theorem LevelsAgree.fields {number : Int} {Agree : Bytes → Bytes → Prop}
    {payload other : Bytes} (agree : LevelsAgree number Agree payload other) :
    List.Forall₂ (FieldsAgree Agree)
      ((readFields payload).1.filter fun field => field.number = number)
      ((readFields other).1.filter fun field => field.number = number) := by
  rw [filter_number, filter_number, List.forall₂_map_left_iff, List.forall₂_map_right_iff]
  exact agree.values.imp fun value other agree => ⟨rfl, agree⟩

theorem answer_scanSubmessage_agree {Progress : Type}
    {turn : Nat → Progress → WireField → Activity Unit × Progress} {number : Int}
    {Agree : Bytes → Bytes → Prop} {payload other : Bytes}
    (agree : LevelsAgree number Agree payload other)
    (skips : ∀ field, field ∈ (readFields payload).1 ∨ field ∈ (readFields other).1 →
      (field.number : Int) ≠ number → ∀ budget progress, turn budget progress field = (1, progress))
    (step : ∀ budget progress field other, FieldsAgree Agree field other →
      answer (turn budget progress field).1 = answer (turn budget progress other).1 ∧
        (turn budget progress field).2 = (turn budget progress other).2)
    (budget : Nat) (progress : Progress) :
    answer (scanSubmessage turn budget progress payload).1 =
      answer (scanSubmessage turn budget progress other).1 := by
  cases budget with
  | zero => rfl
  | succ budget =>
      have wanted : ∀ fields : List WireField,
          (∀ field ∈ fields, field ∈ (readFields payload).1 ∨ field ∈ (readFields other).1) →
          turns (turn budget) progress fields =
            turns (turn budget) progress (fields.filter fun field => field.number = number) := by
        intro fields member
        apply turns_filter
        intro field isField foreign
        exact skips field (member field isField) (of_decide_eq_false foreign) budget
      rw [scanSubmessage, scanSubmessage, answer_scanLevel, answer_scanLevel, agree.ends,
        wanted _ fun _ => .inl, wanted _ fun _ => .inr,
        answer_turns_forall₂ (step budget) agree.fields]

/-! ## Deliveries of values that agree -/

/-- The delivery answers alike for values that agree. -/
def Overlooks (Agree : Bytes → Bytes → Prop) (next : Delivery Unit) : Prop :=
  ∀ budget value other, AgreeOn Agree value other →
    answer (next.field budget value) = answer (next.field budget other)

section

variable {Agree : Bytes → Bytes → Prop} {next : Delivery Unit} (overlooks : Overlooks Agree next)

include overlooks

theorem allMapEntries_overlooks (wantKeys : Bool) :
    Overlooks (LevelsAgree (Step.entryNumber wantKeys) Agree)
      (Setting.allMapEntries wantKeys next) := by
  intro budget value other agree
  cases agree with
  | same => rfl
  | payloads agree =>
      apply answer_scanSubmessage_agree agree
      · intro field _ foreign budget progress
        rw [Setting.entriesField, if_neg (mt Setting.wantsEntryField_iff.mp foreign)]
      · intro budget progress field other agree
        rw [Setting.entriesField, Setting.entriesField, agree.1]
        refine ⟨?_, rfl⟩
        split
        · exact overlooks _ _ _ agree.2
        · rfl

end

/-! ## Map filters -/

namespace Setting

open EntryBuffers

namespace EntryBuffers

def afterKeys (buffers : EntryBuffers) (keys : List WireValue) : EntryBuffers :=
  keys.foldl (fun held key => held.after ⟨1, key⟩) buffers

theorem afterKeys_cons (buffers : EntryBuffers) (key : WireValue) (keys : List WireValue) :
    buffers.afterKeys (key :: keys) = (buffers.after ⟨1, key⟩).afterKeys keys := rfl

theorem afterKeys_inside {buffers : EntryBuffers} {key : WireValue}
    (inEntry : buffers.inEntry = true) (isKey : buffers.key = some key)
    (keys : List WireValue) :
    (buffers.afterKeys keys).inEntry = true ∧ ∃ key, (buffers.afterKeys keys).key = some key := by
  induction keys generalizing buffers key with
  | nil => exact ⟨inEntry, key, isKey⟩
  | cons next keys induction =>
      have isNext : (buffers.after ⟨1, next⟩).key = some next := by rw [after_key inEntry rfl]
      exact induction (inEntry_after inEntry (.inl rfl)) isNext

theorem afterKeys_value {buffers : EntryBuffers} (inEntry : buffers.inEntry = true)
    (value : Option WireValue) (keys : List WireValue) :
    ({ buffers with value := value } : EntryBuffers).afterKeys keys =
      { buffers.afterKeys keys with value := value } := by
  induction keys generalizing buffers with
  | nil => rfl
  | cons next keys induction =>
      have kept : (buffers.after ⟨1, next⟩).inEntry = true := inEntry_after inEntry (.inl rfl)
      have later := induction kept
      rw [after_key inEntry rfl] at later
      rw [afterKeys_cons, afterKeys_cons, after_key inEntry rfl, after_key (by exact inEntry) rfl]
      exact later

theorem foldl_after_known {fields : List WireField}
    (known : ∀ field ∈ fields, field.number = 1 ∨ field.number = 2) {buffers : EntryBuffers}
    (inEntry : buffers.inEntry = true) :
    fields.foldl EntryBuffers.after buffers =
      { buffers.afterKeys (valuesOf 1 fields) with
        value := (valuesOf 2 fields).getLast?.or buffers.value } := by
  induction fields generalizing buffers with
  | nil => rfl
  | cons field fields induction =>
      have isKnown := known field List.mem_cons_self
      have later : ∀ field ∈ fields, field.number = 1 ∨ field.number = 2 :=
        fun field member => known field (List.mem_cons_of_mem _ member)
      rw [List.foldl_cons, induction later (inEntry_after inEntry isKnown)]
      rcases field with ⟨number, value⟩
      rcases isKnown with isKey | isValue
      · obtain rfl : number = 1 := isKey
        rw [valuesOf_cons_of_eq (by rfl), valuesOf_cons_of_ne (by simp), afterKeys_cons]
        rw [after_key inEntry rfl]
      · obtain rfl : number = 2 := isValue
        rw [valuesOf_cons_of_ne (by simp), valuesOf_cons_of_eq (by rfl), after_value inEntry,
          afterKeys_value inEntry, List.getLast?_cons]
        cases (valuesOf 2 fields).getLast? <;> rfl

def held (keys values : List WireValue) : EntryBuffers :=
  { afterKeys { EntryBuffers.empty with inEntry := true } keys with
    value := values.getLast?.or (some (.varint 0)) }

end EntryBuffers

section

variable {utils : PostgresUtils} {binaryToJsonString : StdString → Bytes → Option StdString}
variable {limit : Nat} {bits : UInt64} {keyType : FieldType} {wantedKeyField : FieldInfo}
variable {wantedKeyContents : StdString} {next : Delivery Unit}

theorem lookupField_whole {buffers : EntryBuffers} (inEntry : buffers.inEntry = true)
    {field : WireField} (known : field.number = 1 ∨ field.number = 2) (fits : field.value.Fits)
    (budget : Nat) :
    ((fixed utils binaryToJsonString limit bits).lookupField keyType wantedKeyField
      wantedKeyContents next budget buffers field).1 = 1 := by
  rcases field with ⟨number, value⟩
  rcases known with isKey | isValue
  · obtain rfl : number = 1 := isKey
    by_cases primitive : value.wireType ≠ 2
    · rw [lookupField_primitive _ _ _ _ _ primitive, if_pos inEntry]
      rfl
    · cases value with
      | lengthDelimited size payload =>
          rw [lookupField_key _ _ _ _ _ inEntry]
          exact readWhole_of_fits fits
      | _ => exact absurd (by simp [WireValue.wireType]) primitive
  · obtain rfl : number = 2 := isValue
    rw [lookupField_whole_value _ fits budget inEntry]

theorem wholeEntry_known {fields : List WireField}
    (known : ∀ field ∈ fields, field.number = 1 ∨ field.number = 2)
    (fits : ∀ field ∈ fields, field.value.Fits) {buffers : EntryBuffers}
    (inEntry : buffers.inEntry = true) (budget : Nat) :
    wholeEntry utils binaryToJsonString limit bits keyType wantedKeyField wantedKeyContents next
        budget buffers fields =
      ((fixed utils binaryToJsonString limit bits).leaveEntry keyType wantedKeyField
        wantedKeyContents next (fields.foldl EntryBuffers.after buffers)).1 := by
  induction fields generalizing buffers with
  | nil =>
      rw [wholeEntry, turns, one_mul]
      rfl
  | cons field fields induction =>
      have isKnown := known field List.mem_cons_self
      rw [wholeEntry_cons _ _ _ _ _ _ _ _ _ (.of_inEntry inEntry),
        lookupField_whole inEntry isKnown (fits field List.mem_cons_self), one_mul, List.foldl_cons]
      apply induction
      · exact fun field member => known field (List.mem_cons_of_mem _ member)
      · exact fun field member => fits field (List.mem_cons_of_mem _ member)
      · exact EntryBuffers.inEntry_after inEntry isKnown

theorem answer_mapFilter_known {payload : Bytes} (framed : WellFramed payload)
    (known : ∀ field ∈ (readFields payload).1, field.number = 1 ∨ field.number = 2)
    (position budget : Nat) :
    answer (((fixed utils binaryToJsonString limit bits).mapFilter keyType wantedKeyField
        wantedKeyContents next position).field (budget + 1) (.ofPayload payload)) =
      answer ((fixed utils binaryToJsonString limit bits).leaveEntry keyType wantedKeyField
        wantedKeyContents next (held (fieldValues 1 payload) (fieldValues 2 payload))).1 := by
  have isHeld : (readFields payload).1.foldl EntryBuffers.after
      { EntryBuffers.empty with inEntry := true } =
        held (fieldValues 1 payload) (fieldValues 2 payload) :=
    foldl_after_known known rfl
  rw [← isHeld, ← wholeEntry_known known framed.2 (by rfl) budget, WireValue.ofPayload,
    mapFilter_fixed]
  simp only [scanSubmessage, scanLevel, framed.1, endOn, mul_one, answer_mul, answer_enter,
    Answer.ok_nil_followedBy, answer_leave, Answer.followedBy_ok_nil]
  rw [← answer_mul]
  rfl

theorem leaveEntry_held (keys : List WireValue) :
    ∃ isWanted : Bool, ∀ values : List WireValue,
      ((fixed utils binaryToJsonString limit bits).leaveEntry keyType wantedKeyField
          wantedKeyContents next (held keys values)).1 =
        if isWanted then next.field limit (values.getLast?.getD (.varint 0)) else 1 := by
  have inside : ({ EntryBuffers.empty with inEntry := true } : EntryBuffers).inEntry = true := rfl
  rcases afterKeys_inside inside rfl keys with ⟨inEntry, key, isKey⟩
  refine ⟨entryMatches wantedKeyField wantedKeyContents key (held keys []).keyContents, ?_⟩
  intro values
  have isValue : (held keys values).value = some (values.getLast?.getD (.varint 0)) := by
    unfold held
    cases values.getLast? <;> rfl
  have isHeld : (held keys values).key = some key := isKey
  rw [leaveEntry, if_pos (show (held keys values).inEntry = true from inEntry)]
  exact endEntry_fixed utils binaryToJsonString limit bits keyType wantedKeyField
    wantedKeyContents next isHeld isValue

end

end Setting

theorem getLast_related {Item : Type} {Related : Item → Item → Prop} {items others : List Item}
    (related : List.Forall₂ Related items others) {default otherDefault : Item}
    (ofDefault : Related default otherDefault) :
    Related (items.getLast?.getD default) (others.getLast?.getD otherDefault) := by
  induction related generalizing default otherDefault with
  | nil => exact ofDefault
  | cons first _ induction =>
      rw [List.getLast?_cons, List.getLast?_cons]
      exact induction first

section

variable (utils : PostgresUtils)
variable (binaryToJsonString : StdString → Bytes → Option StdString) (limit : Nat) (bits : UInt64)
variable {Agree : Bytes → Bytes → Prop} {next : Delivery Unit} (overlooks : Overlooks Agree next)

include overlooks

theorem mapFilter_overlooks (keyType : FieldType) (wantedKeyField : FieldInfo)
    (wantedKeyContents : StdString) (position : Nat) :
    Overlooks (EntriesAgree Agree)
      ((Setting.fixed utils binaryToJsonString limit bits).mapFilter keyType wantedKeyField
        wantedKeyContents next position) := by
  intro budget value other agree
  cases agree with
  | same => rfl
  | @payloads payload other agree =>
      cases budget with
      | zero => rfl
      | succ budget =>
          rw [Setting.answer_mapFilter_known agree.framed agree.known,
            Setting.answer_mapFilter_known agree.framedOther agree.knownOther, agree.keys]
          have left := @Setting.leaveEntry_held utils binaryToJsonString limit bits keyType
            wantedKeyField wantedKeyContents next (fieldValues 1 other)
          rcases left with ⟨isWanted, forwards⟩
          rw [forwards, forwards]
          split
          · exact overlooks _ _ _ (getLast_related agree.values (.same _))
          · rfl

theorem mapPart_overlooks (map : MapPart) (position : Nat) :
    Overlooks (map.Agree Agree)
      ((Setting.fixed utils binaryToJsonString limit bits).mapPart position map next) := by
  cases map with
  | none => exact overlooks
  | entries wantKeys type => exact allMapEntries_overlooks overlooks wantKeys
  | lookup keyType wantedKeyField wantedKeyContents valueType =>
      exact mapFilter_overlooks utils binaryToJsonString limit bits overlooks keyType
        wantedKeyField wantedKeyContents position

end

/-! ## Chains -/

theorem ChainPart.PassesOver.skips {part : ChainPart} {field : WireField}
    (passes : part.PassesOver field.value) (foreign : (field.number : Int) ≠ part.wantedField)
    (next : Delivery Unit) (budget : Nat) (index : Int) :
    Setting.selectField part next budget index field = (1, index) := by
  rw [selectField_notWanted foreign, ChainPart.passFault_eq_none_iff.mpr passes]
  rfl

theorem selectField_agrees {part : ChainPart} {Behind : Bytes → Bytes → Prop}
    {next : Delivery Unit} (overlooks : Overlooks (part.map.Agree Behind) next) (budget : Nat)
    (index : Int) {field other : WireField}
    (agree : FieldsAgree (part.AgreeBelow Behind) field other) :
    answer (Setting.selectField part next budget index field).1 =
        answer (Setting.selectField part next budget index other).1 ∧
      (Setting.selectField part next budget index field).2 =
        (Setting.selectField part next budget index other).2 := by
  rcases field with ⟨number, value⟩
  rcases other with ⟨otherNumber, otherValue⟩
  rcases agree with ⟨sameNumber, agree⟩
  dsimp only at sameNumber agree
  subst sameNumber
  cases agree with
  | same => exact ⟨rfl, rfl⟩
  | @payloads payload other agree =>
      unfold ChainPart.AgreeBelow at agree
      cases isPacked : part.isPacked with
      | true =>
          rw [if_pos isPacked] at agree
          have sameElements : Setting.selectPacked part next budget number index payload =
              Setting.selectPacked part next budget number index other := by
            cases packed : Setting.packedWireType part.type with
            | none => simp only [Setting.selectPacked, packed]
            | some wireType =>
                rw [selectPacked_eq packed, selectPacked_eq packed, agree wireType packed]
          simp only [Setting.selectField, WireValue.ofPayload, isPacked, if_true, sameElements,
            and_self]
      | false =>
          rw [if_neg (by simp [isPacked])] at agree
          rw [Setting.selectField_unpacked isPacked, Setting.selectField_unpacked isPacked]
          refine ⟨?_, rfl⟩
          dsimp only
          split
          · by_cases isMessage : part.type = .message
            · rw [if_pos isMessage] at agree
              rw [isMessage, Setting.hand_message, Setting.hand_message]
              exact overlooks _ _ _ (.payloads agree)
            · rw [if_neg isMessage] at agree
              rw [agree]
          · rfl

section

variable (utils : PostgresUtils)
variable (binaryToJsonString : StdString → Bytes → Option StdString) (limit : Nat) (bits : UInt64)

/-- Chains overlook what messages do not agree on, by induction on the parts. -/
theorem chain_overlooks (last : ChainEnd) (parts : List ChainPart) (position : Nat) :
    Overlooks (AgreeAlong parts)
      ((Setting.fixed utils binaryToJsonString limit bits).chain last position parts) := by
  induction parts generalizing position with
  | nil =>
      intro budget value other agree
      cases agree with
      | same => rfl
      | payloads agree => rw [agree]
  | cons part parts induction =>
      intro budget value other agree
      cases agree with
      | same => rfl
      | payloads agree =>
          rcases agree with ⟨levels, skips, skipsOther⟩
          apply answer_scanSubmessage_agree levels
          · intro field member foreign budget index
            rcases member with member | member
            · exact (skips field member foreign).skips foreign _ _ _
            · exact (skipsOther field member foreign).skips foreign _ _ _
          · intro budget index field other agree
            exact selectField_agrees (mapPart_overlooks utils binaryToJsonString limit bits
              (induction _) part.map _) budget index agree

end

/-! ## Runs -/

section

variable (Stream : Type) [CodedInputStream Stream] [LawfulCodedInputStream Stream]

/-- Runs on messages that agree along the path end alike. -/
theorem run_agrees {uninitialised : Uninitialised} (zero : uninitialised.ZeroBuffers)
    {query : QueryImpl} {parts : List ChainPart} {last : ChainEnd}
    (isChain : query.visitors = chainObjects uninitialised parts last) {message other : Bytea}
    (agree : AgreeAlong parts message.data other.data) (utils : PostgresUtils) :
    (∀ (exception : Exception) (ofMessage ofOther : Nat → UInt64),
      query.run Stream utils ofMessage message = .error exception ↔
        query.run Stream utils ofOther other = .error exception) ∧
    ∀ bits, query.run Stream utils (fun _ => bits) message =
      query.run Stream utils (fun _ => bits) other := by
  rcases query with ⟨visitors, binaryToJsonString⟩
  dsimp only at isChain
  subst isChain
  have alike : ∀ bits,
      answer ((Setting.fixed utils binaryToJsonString (CodedInputStream.recursionLimit Stream)
        bits).runs parts last message.data) =
      answer ((Setting.fixed utils binaryToJsonString (CodedInputStream.recursionLimit Stream)
        bits).runs parts last other.data) :=
    fun bits => chain_overlooks utils binaryToJsonString _ bits last parts 0 _ _ _
      (.payloads agree)
  constructor
  · intro exception ofMessage ofOther
    rw [run_eq_error_iff zero, run_eq_error_iff zero, alike 0]
  · intro bits
    rw [run_fixed utils _ bits parts last zero, run_fixed utils _ bits parts last zero]
    exact alike bits

/-- The entry of `entryMessage` with its key first and an unknown field in its value, after an
unknown field. The tag of the entry, the size of the value and the size of `a` are padded. -/
def paddedMessage : Bytea :=
  ⟨[0x60, 7, 0xD2, 0x00, 15, 0x0A, 1, 0x6B, 0x12, 0x89, 0x00,
    0x20, 5, 0x12, 0x81, 0x00, 0x61, 0x12, 1, 0x62], by decide⟩

def entryPart : ChainPart where
  wantedField := 10
  type := .message
  isPacked := false
  wantedIndex := none
  map := .lookup .string ⟨1, 2, FieldInfo.Value.setSize ⟨0⟩ (literal "k").length⟩ (literal "k")
    .message
  map_type _ := rfl

def elementsPart : ChainPart where
  wantedField := 2
  type := .string
  isPacked := false
  wantedIndex := none
  map := .none
  map_type isMap := absurd rfl isMap

theorem agreeAlong_paddedMessage :
    AgreeAlong [entryPart, elementsPart] entryMessage.data paddedMessage.data := by
  have value : fieldValues 2 [0x12, 6, 0x12, 1, 0x61, 0x12, 1, 0x62, 0x0A, 1, 0x6B] =
      [.ofPayload [0x12, 1, 0x61, 0x12, 1, 0x62]] := by
    decide +kernel
  have paddedValue : fieldValues 2 [0x0A, 1, 0x6B, 0x12, 0x89, 0x00, 0x20, 5, 0x12, 0x81, 0x00,
      0x61, 0x12, 1, 0x62] =
      [.ofPayload [0x20, 5, 0x12, 0x81, 0x00, 0x61, 0x12, 1, 0x62]] := by
    decide +kernel
  have values : AgreeAlong [elementsPart] [0x12, 1, 0x61, 0x12, 1, 0x62]
      [0x20, 5, 0x12, 0x81, 0x00, 0x61, 0x12, 1, 0x62] :=
    ⟨.of_same (by decide +kernel) (by decide +kernel), fun _ _ _ => nofun, fun _ _ _ => nofun⟩
  have entries : EntriesAgree (AgreeAlong [elementsPart])
      [0x12, 6, 0x12, 1, 0x61, 0x12, 1, 0x62, 0x0A, 1, 0x6B]
      [0x0A, 1, 0x6B, 0x12, 0x89, 0x00, 0x20, 5, 0x12, 0x81, 0x00, 0x61, 0x12, 1, 0x62] := by
    refine ⟨by decide +kernel, by decide +kernel, by decide +kernel, by decide +kernel,
      by decide +kernel, ?_⟩
    rw [value, paddedValue]
    exact .cons (.payloads values) .nil
  have entry : fieldValues 10 entryMessage.data =
      [.ofPayload [0x12, 6, 0x12, 1, 0x61, 0x12, 1, 0x62, 0x0A, 1, 0x6B]] := by
    decide +kernel
  have paddedEntry : fieldValues 10 paddedMessage.data =
      [.ofPayload [0x0A, 1, 0x6B, 0x12, 0x89, 0x00, 0x20, 5, 0x12, 0x81, 0x00, 0x61,
        0x12, 1, 0x62]] := by
    decide +kernel
  refine ⟨⟨by decide +kernel, ?_⟩, fun _ _ _ => nofun, fun _ _ _ => nofun⟩
  change List.Forall₂ (AgreeOn (EntriesAgree (AgreeAlong [elementsPart])))
    (fieldValues 10 entryMessage.data) (fieldValues 10 paddedMessage.data)
  rw [entry, paddedEntry]
  exact .cons (.payloads entries) .nil

theorem isChain_entryParts :
    (testQuery .exampleMessage "map_str2inner[k].inner_repeated[*]").visitors =
      chainObjects zeroMemory [entryPart, elementsPart] ⟨false, .primitive .string, nofun⟩ := by
  decide +kernel

/-- `map_str2inner[k].inner_repeated[*]` on the two messages. -/
theorem run_agrees_paddedMessage :
    let query := testQuery .exampleMessage "map_str2inner[k].inner_repeated[*]"
    (∀ (exception : Exception) (ofMessage ofOther : Nat → UInt64),
      query.run ArrayStream testUtils ofMessage entryMessage = .error exception ↔
        query.run ArrayStream testUtils ofOther paddedMessage = .error exception) ∧
    ∀ bits, query.run ArrayStream testUtils (fun _ => bits) entryMessage =
      query.run ArrayStream testUtils (fun _ => bits) paddedMessage :=
  run_agrees ArrayStream (fun _ => ⟨rfl, rfl⟩ : zeroMemory.ZeroBuffers) isChain_entryParts
    agreeAlong_paddedMessage testUtils

end

end PostgresProtobuf
