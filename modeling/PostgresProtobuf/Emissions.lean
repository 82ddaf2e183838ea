import PostgresProtobuf.PathSemantics
import PostgresProtobuf.FieldPaths
import PostgresProtobuf.Answers

/-! # What chains emit

Actions that end normally after known rows, whatever the unwritten memory holds. -/

namespace PostgresProtobuf

open Foundation

variable {Message : Type}

/-! ## What actions emit -/

section

variable {State : Type}

/-- The action ends normally from every state, after rows with the given texts. -/
def Emits (action : Activity State) (texts : List (Option StdString)) : Prop :=
  ∀ state, ∃ events next, action state = (events, .ok next) ∧
    (Event.rows events).map some = texts

theorem readWhole_of_fits {text : String} {size : Nat} {payload : Bytes}
    {continuation : Activity State} (fits : payload.length = size) :
    readWhole text size payload continuation = continuation :=
  if_pos fits

namespace Emits

theorem one : Emits (1 : Activity State) [] := fun state => ⟨[], state, rfl, rfl⟩

theorem row {text : StdString} {texts : List (Option StdString)}
    (isText : texts = [some text]) : Emits (emit (.ok (some text)) : Activity State) texts :=
  fun state => ⟨[.row text], state, rfl, isText.symm⟩

theorem enter (budget : Int) (payload : Bytes) :
    Emits (Action.log (.enter budget payload) : Activity State) [] :=
  fun state => ⟨[.enter budget payload], state, rfl, rfl⟩

theorem leave : Emits (Action.log .leave : Activity State) [] :=
  fun state => ⟨[.leave], state, rfl, rfl⟩

theorem mul {first rest : Activity State} {texts more : List (Option StdString)}
    (emits : Emits first texts) (follows : Emits rest more) :
    Emits (first * rest) (texts ++ more) := by
  intro state
  rcases emits state with ⟨events, middle, ends, rfl⟩
  rcases follows middle with ⟨others, next, endsRest, rfl⟩
  exact ⟨events ++ others, next, by rw [Action.mul_apply_of_ok ends, endsRest], by simp⟩

theorem quiet_mul {first rest : Activity State} {texts : List (Option StdString)}
    (emits : Emits first []) (follows : Emits rest texts) : Emits (first * rest) texts :=
  emits.mul follows

theorem choose {Reading : Type} {read : State → Reading × State}
    {rest : Reading → Activity State} {texts : List (Option StdString)}
    (emits : ∀ reading, Emits (rest reading) texts) : Emits (Action.choose read rest) texts :=
  fun _ => emits _ _

theorem scanLevel {budget : Nat} {Progress : Type}
    {turn : Progress → WireField → Activity State × Progress} {progress : Progress}
    {payload : Bytes} {texts : List (Option StdString)}
    (whole : (readFields payload).2 = none)
    (emits : Emits (turns turn progress (readFields payload).1).1 texts) :
    Emits (scanLevel budget turn progress payload).1 texts := by
  have ended : Emits (endOn (readFields payload).2 : Activity State) [] := by
    rw [whole]
    exact one
  have all := (((enter budget payload).mul emits).mul ended).mul leave
  rw [List.nil_append, List.append_nil, List.append_nil] at all
  exact all

end Emits

def Fails (action : Activity State) : Prop :=
  ∀ state, ∃ events exception, action state = (events, .error (.raised exception)) ∧
    exception.Reported

namespace Fails

theorem raise {exception : Exception} (reported : exception.Reported) :
    Fails (raise exception : Activity State) :=
  fun _ => ⟨[], exception, rfl, reported⟩

theorem mul {first : Activity State} (fails : Fails first) (rest : Activity State) :
    Fails (first * rest) := by
  intro state
  rcases fails state with ⟨events, exception, ends, reported⟩
  exact ⟨events, exception, Action.mul_apply_of_error ends, reported⟩

theorem after {first rest : Activity State} {texts : List (Option StdString)}
    (emits : Emits first texts) (fails : Fails rest) : Fails (first * rest) := by
  intro state
  rcases emits state with ⟨events, middle, ends, _⟩
  rcases fails middle with ⟨others, exception, endsRest, reported⟩
  exact ⟨events ++ others, exception, by rw [Action.mul_apply_of_ok ends, endsRest], reported⟩

theorem scanLevel {budget : Nat} {Progress : Type}
    {turn : Progress → WireField → Activity State × Progress} {progress : Progress}
    {payload : Bytes}
    (fails : Fails (turns turn progress (readFields payload).1).1) :
    Fails (scanLevel budget turn progress payload).1 := by
  simp only [PostgresProtobuf.scanLevel]
  exact ((after (Emits.enter budget payload) fails).mul _).mul _

end Fails

def AnswersWith (action : Activity State) (result : Answer) : Prop :=
  ∀ state, ∃ events ending, action state = (events, ending) ∧
    match result with
    | .ok rows => (∃ next, ending = .ok next) ∧ Event.rows events = rows
    | .error exception => ending = .error (.raised exception) ∧ exception.Reported

namespace AnswersWith

theorem one : AnswersWith (1 : Activity State) (.ok []) :=
  fun state => ⟨[], .ok state, rfl, ⟨state, rfl⟩, rfl⟩

theorem enter (budget : Int) (payload : Bytes) :
    AnswersWith (Action.log (.enter budget payload) : Activity State) (.ok []) :=
  fun state => ⟨[.enter budget payload], .ok state, rfl, ⟨state, rfl⟩, rfl⟩

theorem leave : AnswersWith (Action.log .leave : Activity State) (.ok []) :=
  fun state => ⟨[.leave], .ok state, rfl, ⟨state, rfl⟩, rfl⟩

theorem row (text : StdString) :
    AnswersWith (emit (.ok (some text)) : Activity State) (.ok [text]) :=
  fun state => ⟨[.row text], .ok state, rfl, ⟨state, rfl⟩, rfl⟩

theorem raise {exception : Exception} (reported : exception.Reported) :
    AnswersWith (raise exception : Activity State) (.error exception) :=
  fun _ => ⟨[], _, rfl, rfl, reported⟩

theorem mul {first rest : Activity State} {result other : Answer}
    (answers : AnswersWith first result) (follows : AnswersWith rest other) :
    AnswersWith (first * rest) (result.followedBy other) := by
  intro state
  rcases answers state with ⟨events, ending, ends, answered⟩
  cases result with
  | error exception =>
      rcases answered with ⟨rfl, reported⟩
      exact ⟨events, _, Action.mul_apply_of_error ends, rfl, reported⟩
  | ok rows =>
      rcases answered with ⟨⟨middle, rfl⟩, rfl⟩
      rcases follows middle with ⟨others, ending, endsRest, answeredRest⟩
      have both : (first * rest) state = (events ++ others, ending) := by
        rw [Action.mul_apply_of_ok ends, endsRest]
      cases other with
      | error exception => exact ⟨_, ending, both, answeredRest⟩
      | ok more =>
          rcases answeredRest with ⟨next, rfl⟩
          exact ⟨_, ending, both, next, by simp⟩

theorem choose {Reading : Type} {read : State → Reading × State}
    {rest : Reading → Activity State} {result : Answer}
    (answers : ∀ reading, AnswersWith (rest reading) result) :
    AnswersWith (Action.choose read rest) result :=
  fun _ => answers _ _

theorem scanLevel {budget : Nat} {Progress : Type}
    {turn : Progress → WireField → Activity State × Progress} {progress : Progress}
    {payload : Bytes} {result : Answer}
    (whole : (readFields payload).2 = none)
    (answers : AnswersWith (turns turn progress (readFields payload).1).1 result) :
    AnswersWith (scanLevel budget turn progress payload).1 result := by
  have ended : AnswersWith (endOn (readFields payload).2 : Activity State) (.ok []) := by
    rw [whole]
    exact one
  have all := (((enter budget payload).mul answers).mul ended).mul leave
  rw [Answer.ok_nil_followedBy, Answer.followedBy_ok_nil, Answer.followedBy_ok_nil] at all
  exact all

end AnswersWith

def pick {Item : Type} (index : Option Nat) (start : Nat) (values : List Item) : List Item :=
  match index with
  | none => values
  | some index => if start ≤ index then values[index - start]?.toList else []

@[simp] theorem pick_nil {Item : Type} (index : Option Nat) (start : Nat) :
    pick index start ([] : List Item) = [] := by
  cases index <;> simp [pick]

theorem pick_cons {Item : Type} (index : Option Nat) (start : Nat) (value : Item)
    (values : List Item) :
    pick index start (value :: values) =
      (if ∀ wanted ∈ index, start = wanted then [value] else []) ++
        pick index (start + 1) values := by
  cases index with
  | none => simp [pick]
  | some index =>
      rcases Nat.lt_trichotomy start index with before | rfl | after
      · have next : index - start = index - (start + 1) + 1 := by omega
        have notYet : start ≠ index := by omega
        simp [pick, notYet, next, Nat.succ_le_of_lt before, Nat.le_of_lt before]
      · have none : pick (some start) (start + 1) values = [] :=
          if_neg (Nat.not_succ_le_self start)
        rw [none]
        simp [pick]
      · have past : start ≠ index := by omega
        simp [pick, past, Nat.not_le_of_lt after, Nat.not_le_of_lt (Nat.lt_succ_of_lt after)]

namespace Setting

def hand (type : FieldType) (next : Delivery State) (budget : Nat) (value : WireValue) :
    Activity State :=
  match value with
  | .lengthDelimited size payload =>
      if type = .message then next.field budget value else next.handed type size payload
  | value => next.field budget value

theorem hand_message (next : Delivery State) (budget : Nat) (value : WireValue) :
    hand .message next budget value = next.field budget value := by
  cases value <;> rfl

theorem selectField_unpacked {part : ChainPart} (unpacked : part.isPacked = false)
    (next : Delivery State) (budget : Nat) (index : Int) (field : WireField) :
    selectField part next budget index field =
      (if part.Emits field.number index then hand part.type next budget field.value else 1,
        part.indexAfter field.number index) := by
  rcases field with ⟨number, value⟩
  cases value with
  | lengthDelimited size payload => simp [selectField, hand, unpacked]
  | _ => rfl

end Setting

theorem Emits.turns_selectField {part : ChainPart} (unpacked : part.isPacked = false)
    {index : Option Nat} (wants : part.wantedIndex = index.map Int.ofNat)
    {next : Delivery State} {budget : Nat} {texts : WireValue → List (Option StdString)}
    (fields : List WireField) (start : Nat)
    (each : ∀ value ∈ pick index start (valuesOf part.wantedField fields),
      Emits (Setting.hand part.type next budget value) (texts value)) :
    Emits (turns (Setting.selectField part next budget) (start : Int) fields).1
      ((pick index start (valuesOf part.wantedField fields)).flatMap texts) := by
  induction fields generalizing start with
  | nil =>
      rw [valuesOf_nil, pick_nil]
      exact one
  | cons field fields induction =>
      rw [turns, Setting.selectField_unpacked unpacked]
      by_cases wanted : (field.number : Int) = part.wantedField
      · have isNext : part.indexAfter field.number start = ((start + 1 : Nat) : Int) := by
          rw [ChainPart.indexAfter, if_pos wanted]
          rfl
        have emits : part.Emits field.number start ↔ ∀ wanted ∈ index, start = wanted := by
          rw [ChainPart.Emits, wants]
          cases index with
          | none => simp [wanted]
          | some index => simp only [wanted, true_and, Option.map_some, Option.mem_def,
              Option.some.injEq, forall_eq', Int.ofNat_eq_natCast, Int.natCast_inj]
        rw [valuesOf_cons_of_eq wanted, pick_cons] at each ⊢
        rw [List.flatMap_append, isNext]
        refine mul ?_ (induction _ fun value member =>
          each value (List.mem_append_right _ member))
        dsimp only
        by_cases picked : part.Emits field.number start
        · rw [if_pos (emits.mp picked)] at each ⊢
          rw [if_pos picked, List.flatMap_singleton]
          exact each field.value (List.mem_append_left _ List.mem_cons_self)
        · rw [if_neg picked, if_neg (mt emits.mpr picked)]
          exact one
      · have sameIndex : part.indexAfter field.number start = start := by
          rw [ChainPart.indexAfter, if_neg wanted]
        have skips : ¬ part.Emits field.number start := fun emits => wanted emits.1
        rw [valuesOf_cons_of_ne wanted] at each ⊢
        rw [sameIndex, if_neg skips]
        exact one.quiet_mul (induction _ each)

theorem Setting.wantsEntryField_iff {wantKeys : Bool} {number : Nat} :
    wantsEntryField wantKeys number = true ↔ (number : Int) = Step.entryNumber wantKeys := by
  cases wantKeys with
  | true =>
      simp only [wantsEntryField, Step.entryNumber, Bool.and_true, Bool.not_true,
        Bool.and_false, Bool.or_false, beq_iff_eq, if_true]
      omega
  | false =>
      simp only [wantsEntryField, Step.entryNumber, Bool.and_false, Bool.not_false,
        Bool.and_true, Bool.false_or, beq_iff_eq, Bool.false_eq_true, if_false]
      omega

theorem Emits.turns_entriesField (wantKeys : Bool) {next : Delivery State} {budget : Nat}
    {texts : WireValue → List (Option StdString)} (fields : List WireField)
    (each : ∀ value ∈ valuesOf (Step.entryNumber wantKeys) fields,
      Emits (next.field budget value) (texts value)) :
    Emits (turns (Setting.entriesField wantKeys next budget) () fields).1
      ((valuesOf (Step.entryNumber wantKeys) fields).flatMap texts) := by
  induction fields with
  | nil => exact one
  | cons field fields induction =>
      have wants : Setting.wantsEntryField wantKeys field.number = true ↔
          (field.number : Int) = Step.entryNumber wantKeys := Setting.wantsEntryField_iff
      rw [turns, Setting.entriesField]
      by_cases wanted : (field.number : Int) = Step.entryNumber wantKeys
      · rw [valuesOf_cons_of_eq wanted] at each ⊢
        rw [List.flatMap_cons, if_pos (wants.mpr wanted)]
        exact (each _ List.mem_cons_self).mul (induction fun value member =>
          each value (List.mem_cons_of_mem _ member))
      · rw [valuesOf_cons_of_ne wanted] at each ⊢
        rw [if_neg (mt wants.mp wanted)]
        exact one.quiet_mul (induction each)

/-! ## Entries with a string key -/

namespace Setting

variable (setting : Setting State)

section

variable {wantedKeyField : FieldInfo} {wantedKeyContents : StdString} {next : Delivery State}

theorem lookupField_whole_key {key : WireValue} (isString : key.wireType = 2)
    (fits : key.Fits) (budget : Nat) {buffers : EntryBuffers}
    (inEntry : buffers.inEntry = true) :
    setting.lookupField .string wantedKeyField wantedKeyContents next budget buffers
        ⟨1, key⟩ =
      (1, { buffers with key := some key, keyContents := key.payload }) := by
  cases key with
  | lengthDelimited size payload =>
      rw [lookupField_key _ _ _ _ _ inEntry, readWhole_of_fits fits]
      rfl
  | _ => simp [WireValue.wireType] at isString

theorem lookupField_whole_value {keyType : FieldType} {value : WireValue}
    (fits : value.Fits) (budget : Nat) {buffers : EntryBuffers}
    (inEntry : buffers.inEntry = true) :
    setting.lookupField keyType wantedKeyField wantedKeyContents next budget buffers
        ⟨2, value⟩ =
      (1, { buffers with value := some value }) := by
  by_cases primitive : value.wireType ≠ 2
  · rw [lookupField_primitive _ _ _ _ _ primitive, inEntry]
    rfl
  · cases value with
    | lengthDelimited size payload =>
        rw [lookupField_value _ _ _ _ _ inEntry, readWhole_of_fits fits]
    | _ => simp [WireValue.wireType] at primitive

end

/-- A string key is compared by its contents, since its size follows from them. -/
theorem endEntry_string {key : StdString} {bits : UInt64} {next : Delivery State}
    {buffers : EntryBuffers} {found value : WireValue} (isKey : buffers.key = some found)
    (contents : buffers.keyContents = found.payload) (isValue : buffers.value = some value)
    (isString : found.wireType = 2) (fits : found.Fits) (sized : found.Sized) :
    setting.endEntry .string ⟨1, 2, FieldInfo.Value.setSize ⟨bits⟩ key.length⟩ key next
        buffers =
      if found.payload = key then next.field setting.recursionLimit value else 1 := by
  cases found with
  | lengthDelimited size payload =>
      simp only [WireValue.payload] at contents ⊢
      unfold endEntry keyMatches
      by_cases same : payload = key
      · subst same
        have short : payload.length < 2 ^ 31 := by
          rw [WireValue.Fits] at fits
          rw [fits]
          exact sized
        have test : ((WireValue.lengthDelimited size payload).header 0).valueEquals
            ⟨1, 2, FieldInfo.Value.setSize ⟨bits⟩ payload.length⟩ = true := by
          rw [WireValue.Fits] at fits
          subst fits
          simp [FieldInfo.valueEquals, WireValue.header, WireValue.wireType, WireValue.union,
            FieldInfo.Value.asSize_setSize _ short]
        simp [contents, isKey, isValue, halfWritten, test]
      · simp [contents, same]
  | _ => simp [WireValue.wireType] at isString

end Setting

namespace Setting

variable (setting : Setting State)
variable {keyType : FieldType} {wantedKeyField : FieldInfo} {wantedKeyContents : StdString}
variable {next : Delivery State}

theorem turns_lookupField_outside {fields : List WireField}
    (primitives : ∀ field ∈ fields, field.value.wireType ≠ 2) (budget : Nat)
    {buffers : EntryBuffers} (outside : buffers.inEntry = false) :
    turns (setting.lookupField keyType wantedKeyField wantedKeyContents next budget) buffers
      fields = (1, buffers) := by
  induction fields with
  | nil => rfl
  | cons field fields induction =>
      rcases field with ⟨number, value⟩
      have primitive : value.wireType ≠ 2 := primitives _ List.mem_cons_self
      have ignored : setting.lookupField keyType wantedKeyField wantedKeyContents next budget
          buffers ⟨number, value⟩ = (1, buffers) := by
        rw [lookupField_primitive _ _ _ _ _ primitive, outside]
        rfl
      rw [turns, ignored, induction fun field member =>
        primitives field (List.mem_cons_of_mem _ member), one_mul]

/-- The first unknown field ends the entry, and the others are ignored. -/
theorem turns_lookupField_unknown {field : WireField} {unknown : List WireField}
    (areUnknown : ∀ other ∈ field :: unknown,
      other.number ≠ 1 ∧ other.number ≠ 2 ∧ other.value.wireType ≠ 2) (budget : Nat)
    {buffers : EntryBuffers} (inEntry : buffers.inEntry = true) :
    turns (setting.lookupField keyType wantedKeyField wantedKeyContents next budget) buffers
        (field :: unknown) =
      setting.leaveEntry keyType wantedKeyField wantedKeyContents next buffers := by
  rcases field with ⟨number, value⟩
  rcases areUnknown _ List.mem_cons_self with ⟨notKey, notValue, primitive⟩
  have ended : setting.lookupField keyType wantedKeyField wantedKeyContents next budget buffers
      ⟨number, value⟩ =
      setting.leaveEntry keyType wantedKeyField wantedKeyContents next buffers := by
    rw [lookupField_primitive _ _ _ _ _ primitive, if_pos inEntry, if_neg notKey,
      if_neg notValue]
  have reset : (setting.leaveEntry keyType wantedKeyField wantedKeyContents next buffers).2 =
      .empty := by
    rw [leaveEntry, if_pos inEntry]
  rw [turns, ended, reset, setting.turns_lookupField_outside
    (fun other member => (areUnknown other (List.mem_cons_of_mem _ member)).2.2) budget rfl,
    mul_one, ← reset]

theorem turns_lookupField_known {found value : WireValue} {fields : List WireField}
    (orders : fields = [⟨1, found⟩, ⟨2, value⟩] ∨ fields = [⟨2, value⟩, ⟨1, found⟩])
    (isString : found.wireType = 2) (foundFits : found.Fits) (valueFits : value.Fits)
    (budget : Nat) {buffers : EntryBuffers} (inEntry : buffers.inEntry = true) :
    turns (setting.lookupField .string wantedKeyField wantedKeyContents next budget) buffers
        fields =
      (1, { buffers with
        key := some found, keyContents := found.payload, value := some value }) := by
  rcases orders with rfl | rfl
  · rw [turns, setting.lookupField_whole_key isString foundFits budget inEntry, turns,
      setting.lookupField_whole_value valueFits budget (by exact inEntry)]
    simp [turns]
  · rw [turns, setting.lookupField_whole_value valueFits budget inEntry, turns,
      setting.lookupField_whole_key isString foundFits budget (by exact inEntry)]
    simp [turns]

end Setting

/-- The end of an entry that holds a key and a value forwards the value if the key is the
wanted one. -/
theorem Emits.leaveEntry_string {setting : Setting State} {key : StdString} {bits : UInt64}
    {next : Delivery State} {found value : WireValue} {texts : List (Option StdString)}
    (isString : found.wireType = 2) (fits : found.Fits) (sized : found.Sized)
    (forwarded : found.payload = key → Emits (next.field setting.recursionLimit value) texts) :
    Emits (setting.leaveEntry .string ⟨1, 2, FieldInfo.Value.setSize ⟨bits⟩ key.length⟩ key next
        ⟨true, some found, found.payload, some value⟩).1
      (if found.payload = key then texts else []) := by
  simp only [Setting.leaveEntry, if_true]
  rw [setting.endEntry_string rfl rfl rfl isString fits sized]
  by_cases same : found.payload = key
  · rw [if_pos same, if_pos same]
    exact forwarded same
  · rw [if_neg same, if_neg same]
    exact one

theorem Emits.mapFilter {setting : Setting State} {key : StdString} {bits : UInt64}
    {next : Delivery State} {position valueType budget : Nat} {entry : WireValue}
    {texts : WireValue → List (Option StdString)} (isEntry : IsEntry 2 valueType entry)
    (unknownLast : UnknownLast entry.payload)
    (each : Step.hasKey key entry = true → ∀ value ∈ fieldValues 2 entry.payload,
      Emits (next.field setting.recursionLimit value) (texts value)) :
    Emits
      ((setting.mapFilter .string ⟨1, 2, FieldInfo.Value.setSize ⟨bits⟩ key.length⟩ key next
        position).field (budget + 1) entry)
      (if Step.hasKey key entry then (fieldValues 2 entry.payload).flatMap texts else []) := by
  rcases isEntry.split unknownLast with
    ⟨found, value, unknown, keys, isString, values, orders, areUnknown⟩
  rcases isEntry.whole with ⟨whole, framed⟩
  have keyMember : found ∈ fieldValues 1 entry.payload := keys ▸ List.mem_cons_self
  have valueMember : value ∈ fieldValues 2 entry.payload := values ▸ List.mem_cons_self
  rcases mem_valuesOf.mp keyMember with ⟨keyField, isKeyField, _, rfl⟩
  rcases mem_valuesOf.mp valueMember with ⟨valueField, isValueField, _, rfl⟩
  have keyFits : keyField.value.Fits := framed.2 _ isKeyField
  have valueFits : valueField.value.Fits := framed.2 _ isValueField
  have keySized : keyField.value.Sized := readFields_sized _ _ isKeyField
  have hasKey : Step.hasKey key entry = decide (keyField.value.payload = key) := by
    simp [Step.hasKey, keys]
  rw [whole, WireValue.ofPayload, Setting.mapFilter_lengthDelimited]
  refine choose fun pristine => ?_
  rw [hasKey, values] at each
  rw [← WireValue.ofPayload, ← whole, hasKey, values]
  generalize isStart : (if pristine = true then Setting.EntryBuffers.found else .empty) = start
  have level : ∃ known, (known = [⟨1, keyField.value⟩, ⟨2, valueField.value⟩] ∨
      known = [⟨2, valueField.value⟩, ⟨1, keyField.value⟩]) ∧
      (readFields entry.payload).1 = known ++ unknown := by
    rcases orders with fields | fields
    · exact ⟨_, .inl rfl, fields⟩
    · exact ⟨_, .inr rfl, fields⟩
  rcases level with ⟨known, knownOrders, fields⟩
  -- What is in the buffers when the entry ends, at an unknown field or after all fields.
  let buffered : Setting.EntryBuffers :=
    ⟨true, some keyField.value, keyField.value.payload, some valueField.value⟩
  have filled : turns (setting.lookupField .string
      ⟨1, 2, FieldInfo.Value.setSize ⟨bits⟩ key.length⟩ key next budget)
      { start with inEntry := true } known = (1, buffered) :=
    setting.turns_lookupField_known knownOrders isString keyFits valueFits budget rfl
  have ends : Emits (setting.leaveEntry .string
      ⟨1, 2, FieldInfo.Value.setSize ⟨bits⟩ key.length⟩ key next buffered).1
      (if keyField.value.payload = key then texts valueField.value else []) :=
    leaveEntry_string isString keyFits keySized fun same =>
      each (decide_eq_true same) _ List.mem_cons_self
  have isText : (if decide (keyField.value.payload = key) = true
      then [valueField.value].flatMap texts else []) =
      if keyField.value.payload = key then texts valueField.value else [] := by
    simp
  rw [isText]
  cases unknown with
  | nil =>
      have scanned : turns (setting.lookupField .string
          ⟨1, 2, FieldInfo.Value.setSize ⟨bits⟩ key.length⟩ key next budget)
          { start with inEntry := true } (readFields entry.payload).1 = (1, buffered) := by
        rw [fields, List.append_nil]
        exact filled
      simp only [scanSubmessage]
      refine Emits.quiet_mul (Emits.scanLevel framed.1 ?_) ?_
      · rw [scanned]
        exact one
      · simp only [PostgresProtobuf.scanLevel, scanned]
        exact ends
  | cons field unknown =>
      have scanned : turns (setting.lookupField .string
          ⟨1, 2, FieldInfo.Value.setSize ⟨bits⟩ key.length⟩ key next budget)
          { start with inEntry := true } (readFields entry.payload).1 =
          setting.leaveEntry .string ⟨1, 2, FieldInfo.Value.setSize ⟨bits⟩ key.length⟩ key next
            buffered := by
        rw [fields, turns_append, filled,
          setting.turns_lookupField_unknown areUnknown budget rfl, one_mul]
      simp only [scanSubmessage]
      rw [← List.append_nil (if keyField.value.payload = key then _ else _)]
      refine mul (Emits.scanLevel framed.1 ?_) ?_
      · rw [scanned]
        exact ends
      · simp only [PostgresProtobuf.scanLevel, scanned]
        exact one

/-! ## Emitters -/

theorem primitiveRow_isOk (utils : PostgresUtils) {type : FieldType} {wireType : Nat}
    (sameType : wireType = type.wireType) (primitive : wireType ≠ 2 ∧ wireType ≠ 3)
    (notEnum : type ≠ .enum) (value : FieldInfo.Value) :
    ∃ row, EmitterKind.primitiveRow utils type value = .ok row := by
  cases type <;> simp [FieldType.wireType] at sameType notEnum <;>
    first | omega | exact ⟨_, rfl⟩

/-- The row of a primitive with the wire type of its type does not depend on what the
local held before. -/
theorem primitiveRow_union (utils : PostgresUtils) {type : FieldType} {value : WireValue}
    (sameType : value.wireType = type.wireType) (bits : UInt64) :
    EmitterKind.primitiveRow utils type (value.union bits) =
      EmitterKind.primitiveRow utils type (value.union 0) := by
  cases value with
  | varint number => rfl
  | fixed64 number => rfl
  | fixed32 number =>
      cases type <;> simp [WireValue.wireType, FieldType.wireType] at sameType <;>
        simp [EmitterKind.primitiveRow, WireValue.union]
  | lengthDelimited size payload =>
      cases type <;> simp [WireValue.wireType, FieldType.wireType] at sameType <;>
        simp [EmitterKind.primitiveRow]

theorem enumRow_union (descriptor : EnumDescriptor) {value : WireValue}
    (varint : value.wireType = 0) (bits : UInt64) :
    EmitterKind.enumRow descriptor (value.union bits) =
      EmitterKind.enumRow descriptor (value.union 0) := by
  cases value with
  | varint number => rfl
  | _ => simp [WireValue.wireType] at varint

theorem Target.rendering_scalar (pool : DescriptorPool Message) (utils : PostgresUtils)
    (binaryToJsonString : StdString → Bytes → Option StdString) {type : FieldType}
    (primitive : type.wireType ≠ 2) (value : WireValue) :
    Target.rendering pool utils binaryToJsonString (.scalar type) value =
      (EmitterKind.primitiveRow utils type (value.union 0)).toOption := by
  cases type <;> first | rfl | simp [FieldType.wireType] at primitive

namespace Setting

variable (setting : Setting State)

theorem emitPrimitive_of_determined {kind : EmitterKind} {value : WireValue}
    {row : Except Exception (Option StdString)}
    (determined : ∀ bits, kind.readPrimitive setting.utils (value.header bits) = row) :
    setting.emitPrimitive kind value = emit row := by
  have known := Knowledge.read_of_determined setting.knowledge fun bits _ => determined bits
  simp only [emitPrimitive, known]

/-- What a chain does with a value that it is handed. -/
structure Renders (render : WireValue → Option StdString) (Converts : WireValue → Prop)
    (next : Delivery State) (type : FieldType) (steps : List Step) : Prop where
  field : ∀ {depth budget : Nat}, depth ≤ budget → budget ≤ setting.recursionLimit →
    ∀ {value : WireValue}, value.wireType = type.wireType → value.Fits →
      Conforms steps depth value → UnknownLastAlong steps value →
      (∀ selected ∈ evaluate steps value, Converts selected) →
      Emits (next.field budget value) ((evaluate steps value).map render)
  handed : ∀ budget value, hand type next budget value = next.field budget value

variable (pool : DescriptorPool Message) (target : Target Message)

theorem emitter_renders {type : FieldType} (hasType : target.HasType type) :
    setting.Renders (target.rendering pool setting.utils setting.binaryToJsonString)
      (target.Converts pool setting.binaryToJsonString) (setting.emitter (target.kind pool))
      type [] where
  field := by
    intro depth budget _ _ value sameType fits _ _ converts
    have isText := converts value List.mem_cons_self
    cases target with
    | message desc =>
        cases value with
        | lengthDelimited size payload =>
            rcases Option.isSome_iff_exists.mp isText with ⟨text, json⟩
            have converted : setting.binaryToJsonString (typeUrl pool desc) payload =
                some text := json
            have row : EmitterKind.bufferedValue setting.binaryToJsonString
                (.message (typeUrl pool desc)) payload = .ok (some text) := by
              simp [EmitterKind.bufferedValue, typeUrl_isEmpty, converted]
            have delivered : (setting.emitter ((Target.message desc).kind pool)).field budget
                (.lengthDelimited size payload) = emit (.ok (some text)) :=
              (readWhole_of_fits fits).trans (congrArg emit row)
            rw [delivered]
            exact .row (by simp [evaluate, Target.rendering, WireValue.payload, converted])
        | _ => rw [hasType] at sameType; simp [WireValue.wireType, FieldType.wireType] at sameType
    | enum descriptor =>
        rw [hasType] at sameType
        have delivered : (setting.emitter ((Target.enum descriptor).kind pool)).field budget
            value = emit (.ok (some (EmitterKind.enumRow descriptor (value.union 0)))) := by
          cases value with
          | lengthDelimited size payload =>
              simp [WireValue.wireType, FieldType.wireType] at sameType
          | _ =>
              refine setting.emitPrimitive_of_determined fun bits => ?_
              exact congrArg (fun row => Except.ok (some row))
                (enumRow_union descriptor sameType bits)
        rw [delivered]
        exact .row rfl
    | scalar wanted =>
        rcases hasType with ⟨rfl, notMessage, notEnum⟩
        have delivered : ∃ text, Target.rendering pool setting.utils setting.binaryToJsonString
            (.scalar wanted) value = some text ∧
            (setting.emitter ((Target.scalar wanted : Target Message).kind pool)).field budget
                value =
              emit (.ok (some text)) := by
          by_cases primitive : value.wireType ≠ 2
          · have notGroup : value.wireType ≠ 3 := by cases value <;> simp [WireValue.wireType]
            rcases primitiveRow_isOk setting.utils sameType ⟨primitive, notGroup⟩ notEnum
              (value.union 0) with ⟨row, isRow⟩
            refine ⟨row, ?_, ?_⟩
            · rw [Target.rendering_scalar _ _ _ (sameType ▸ primitive), isRow]
              rfl
            · have delivered : (setting.emitter ((Target.scalar wanted : Target Message).kind
                  pool)).field budget value =
                  setting.emitPrimitive (.primitive wanted) value := by
                cases value with
                | lengthDelimited size payload => exact absurd rfl primitive
                | _ => rfl
              rw [delivered]
              refine setting.emitPrimitive_of_determined fun bits => ?_
              have determined := (primitiveRow_union setting.utils sameType bits).trans isRow
              exact congrArg (Except.map some) determined
          · cases value with
            | lengthDelimited size payload =>
                rw [WireValue.wireType] at sameType
                cases wanted <;> simp [FieldType.wireType] at sameType notMessage
                · exact ⟨payload, rfl, readWhole_of_fits fits⟩
                · exact ⟨EmitterKind.bytesRow payload, rfl, readWhole_of_fits fits⟩
            | _ => simp [WireValue.wireType] at primitive
        rcases delivered with ⟨text, isText, delivered⟩
        rw [delivered]
        exact .row (by simp [evaluate, isText])
  handed := by
    intro budget value
    cases value with
    | lengthDelimited size payload =>
        by_cases isMessage : type = .message
        · exact if_pos isMessage
        · refine (if_neg isMessage).trans ?_
          cases target with
          | message desc => exact absurd hasType isMessage
          | enum descriptor =>
              rw [hasType]
              rfl
          | scalar wanted =>
              rw [← hasType.1]
              rfl
    | _ => rfl

end Setting

end

/-! ## Answers to queries -/

def Setting.unknown (utils : PostgresUtils)
    (binaryToJsonString : StdString → Bytes → Option StdString) (recursionLimit : Nat) :
    Setting (Nat → Bool) where
  utils := utils
  binaryToJsonString := binaryToJsonString
  recursionLimit := recursionLimit
  knowledge := .unknown

namespace Host

variable {Stream : Type} [CodedInputStream Stream] [LawfulCodedInputStream Stream]

def setting (Stream : Type) [CodedInputStream Stream] (host : Host Message) :
    Setting (Nat → Bool) :=
  .unknown host.utils host.descSet.binaryToJsonString (CodedInputStream.recursionLimit Stream)

variable {host : Host Message} {desc : Message} {path : StdString} {parts : List ChainPart}
variable {last : ChainEnd} {final : DescPtrs Message}
variable (chain : ChainCompiles host.uninitialised host.descSet.pool desc path parts last final)

include chain

theorem answer_of_outcome {message : Bytea} {result : Except Exception (List StdString)}
    (concluded : (host.setting Stream).outcome parts last (fun _ => true) message.data =
      some result) : host.answer Stream desc path message = result := by
  rw [answer_of_chain chain]
  have matching : Matches (host.setting Stream)
      ⟨host.utils, host.descSet.binaryToJsonString, host.localBits⟩ Stream :=
    ⟨rfl, rfl, nofun, rfl⟩
  have suits : host.uninitialised.Suits (host.setting Stream).knowledge fun _ => true :=
    fun _ known => Bool.noConfusion known
  exact run_eq rfl matching suits concluded

theorem answer_of_emits {message : Bytea} {texts : List (Option StdString)}
    (emits : Emits ((host.setting Stream).runs parts last message.data) texts) :
    ∃ rows, host.answer Stream desc path message = .ok rows ∧ rows.map some = texts := by
  rcases emits fun _ => true with ⟨events, next, ends, rows⟩
  refine ⟨Event.rows events, answer_of_outcome chain ?_, rows⟩
  rw [Setting.outcome, ends]
  rfl

theorem returns_iff_of_emits {message : Bytea} {texts : List (Option StdString)}
    (emits : Emits ((host.setting Stream).runs parts last message.data) texts)
    (others : List (Option StdString)) :
    host.Returns Stream desc path message others ↔ texts = others := by
  rcases answer_of_emits chain emits with ⟨rows, answered, same⟩
  constructor
  · rintro ⟨found, foundAnswer, rfl⟩
    rw [answered, Except.ok.injEq] at foundAnswer
    rw [← same, foundAnswer]
  · rintro rfl
    exact ⟨rows, answered, same⟩

theorem answer_of_fails {message : Bytea}
    (fails : Fails ((host.setting Stream).runs parts last message.data)) :
    ∃ exception, host.answer Stream desc path message = .error exception := by
  rcases fails fun _ => true with ⟨events, exception, ends, reported⟩
  refine ⟨exception, answer_of_outcome chain ?_⟩
  rw [Setting.outcome, ends]
  cases exception <;> first | rfl | exact reported.elim

theorem not_returns_of_fails {message : Bytea}
    (fails : Fails ((host.setting Stream).runs parts last message.data))
    (texts : List (Option StdString)) : ¬ host.Returns Stream desc path message texts := by
  rcases answer_of_fails chain fails with ⟨exception, answered⟩
  rintro ⟨rows, other, _⟩
  rw [answered] at other
  cases other

end Host

end PostgresProtobuf
