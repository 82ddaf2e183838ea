import PostgresProtobuf.ForeignFields
import PostgresProtobuf.NumericKeys

/-! # Looking up string keys

`f[k]s` against `f[*]s`: a map filter buffers an entry and scans its value once the entry
has ended, where the selector of all entries scans the values in place. -/

namespace PostgresProtobuf

open Foundation

variable {Message : Type}

/-! ## Entries -/

/-- A well-framed entry with at most one key and at most one value, of the declared wire
types, and any other fields. -/
structure DeclaredEntry (valueType : FieldType) (payload : Bytes) : Prop where
  framed : WellFramed payload
  oneKey : (fieldValues 1 payload).length ≤ 1
  isString : ∀ key ∈ fieldValues 1 payload, key.wireType = 2
  oneValue : (fieldValues 2 payload).length ≤ 1
  sameType : ∀ value ∈ fieldValues 2 payload, value.wireType = valueType.wireType

instance (valueType : FieldType) (payload : Bytes) :
    Decidable (DeclaredEntry valueType payload) :=
  decidable_of_iff
    (WellFramed payload ∧ (fieldValues 1 payload).length ≤ 1 ∧
      (∀ key ∈ fieldValues 1 payload, key.wireType = 2) ∧
      (fieldValues 2 payload).length ≤ 1 ∧
      ∀ value ∈ fieldValues 2 payload, value.wireType = valueType.wireType)
    ⟨fun ⟨framed, oneKey, isString, oneValue, sameType⟩ =>
        ⟨framed, oneKey, isString, oneValue, sameType⟩,
      fun declared => ⟨declared.framed, declared.oneKey, declared.isString, declared.oneValue,
        declared.sameType⟩⟩

/-- The message without the fields of the number that are not entries with the key. -/
def KeepsEntries (number : Int) (key : StdString) (message kept : Bytes) : Prop :=
  readFields kept =
    ((readFields message).1.filter fun field =>
      (field.number : Int) ≠ number ∨ Step.hasKey key field.value = true, none)

instance (number : Int) (key : StdString) (message kept : Bytes) :
    Decidable (KeepsEntries number key message kept) := by
  unfold KeepsEntries
  infer_instance

theorem exists_keepsEntries (number : Int) (key : StdString) {message : Bytea}
    (framed : WellFramed message.data) :
    ∃ kept : Bytea, KeepsEntries number key message.data kept.data := by
  rcases readFields_filter framed fun field =>
      (field.number : Int) ≠ number ∨ Step.hasKey key field.value = true with
    ⟨kept, shorter, isKept⟩
  have bound := message.size_lt
  exact ⟨⟨kept, by omega⟩, isKept⟩

theorem KeepsEntries.fieldValues {number : Int} {key : StdString} {message kept : Bytes}
    (keeps : KeepsEntries number key message kept) :
    fieldValues number kept = (fieldValues number message).filter (Step.hasKey key) := by
  rw [PostgresProtobuf.fieldValues, PostgresProtobuf.fieldValues, keeps, valuesOf, valuesOf,
    List.filter_map, List.filter_filter, List.filter_filter]
  congr 1
  apply List.filter_congr
  intro field _
  by_cases wanted : (field.number : Int) = number <;> simp [wanted]

/-! ## What a map filter holds -/

open Setting (EntryBuffers)

namespace Setting.EntryBuffers

theorem foldl_after {known : List WireField}
    (isKnown : ∀ field ∈ known, field.number = 1 ∨ field.number = 2)
    (areStrings : ∀ key ∈ valuesOf 1 known, key.wireType = 2) {buffers : EntryBuffers}
    (inEntry : buffers.inEntry = true) :
    known.foldl EntryBuffers.after buffers =
      { inEntry := true
        key := (valuesOf 1 known).getLast?.or buffers.key
        keyContents := ((valuesOf 1 known).getLast?.map WireValue.payload).getD
          buffers.keyContents
        value := (valuesOf 2 known).getLast?.or buffers.value } := by
  induction known generalizing buffers with
  | nil =>
      rcases buffers with ⟨_, key, keyContents, value⟩
      cases inEntry
      simp [valuesOf]
  | cons field known induction =>
      rcases field with ⟨number, value⟩
      have later : ∀ field ∈ known, field.number = 1 ∨ field.number = 2 :=
        fun field member => isKnown field (List.mem_cons_of_mem _ member)
      rcases isKnown _ List.mem_cons_self with isKey | isValue
      · obtain rfl : number = 1 := isKey
        have keys : valuesOf 1 (⟨1, value⟩ :: known) = value :: valuesOf 1 known :=
          @valuesOf_cons_of_eq 1 ⟨1, value⟩ rfl known
        have values : valuesOf 2 (⟨1, value⟩ :: known) = valuesOf 2 known :=
          @valuesOf_cons_of_ne 2 ⟨1, value⟩ (by simp) known
        rw [keys] at areStrings
        have isString : value.wireType = 2 := areStrings value List.mem_cons_self
        rw [List.foldl_cons, EntryBuffers.after_key inEntry rfl, induction later
          (fun key member => areStrings key (List.mem_cons_of_mem _ member)) (by exact inEntry),
          keys, values, List.getLast?_cons]
        cases (valuesOf 1 known).getLast? <;> simp [isString]
      · obtain rfl : number = 2 := isValue
        have keys : valuesOf 1 (⟨2, value⟩ :: known) = valuesOf 1 known :=
          @valuesOf_cons_of_ne 1 ⟨2, value⟩ (by simp) known
        have values : valuesOf 2 (⟨2, value⟩ :: known) = value :: valuesOf 2 known :=
          @valuesOf_cons_of_eq 2 ⟨2, value⟩ rfl known
        rw [keys] at areStrings
        rw [List.foldl_cons, EntryBuffers.after_value inEntry, induction later areStrings
          (by exact inEntry), keys, values, List.getLast?_cons]
        cases (valuesOf 2 known).getLast? <;> simp

end Setting.EntryBuffers

/-! ## Entries under a map filter -/

namespace Setting

section

variable {utils : PostgresUtils} {binaryToJsonString : StdString → Bytes → Option StdString}
variable {limit : Nat} {bits : UInt64} {wantedKeyField : FieldInfo} {key : StdString}
variable {next : Delivery Unit}

theorem answer_lookupField_known {buffers : EntryBuffers} (inEntry : buffers.inEntry = true)
    {field : WireField} (isKnown : field.number = 1 ∨ field.number = 2)
    (areStrings : ∀ key ∈ valuesOf 1 [field], key.wireType = 2) (fits : field.value.Fits)
    (budget : Nat) :
    answer ((fixed utils binaryToJsonString limit bits).lookupField .string wantedKeyField key
      next budget buffers field).1 = .ok [] := by
  rcases field with ⟨number, value⟩
  rcases isKnown with isKey | isValue
  · obtain rfl : number = 1 := isKey
    have isString : value.wireType = 2 := areStrings value (by simp [valuesOf])
    rw [lookupField_whole_key _ isString fits budget inEntry]
    rfl
  · obtain rfl : number = 2 := isValue
    rw [lookupField_whole_value _ fits budget inEntry]
    rfl

theorem EntryBuffers.inEntry_after {buffers : EntryBuffers} (inEntry : buffers.inEntry = true)
    {field : WireField} (isKnown : field.number = 1 ∨ field.number = 2) :
    (buffers.after field).inEntry = true := by
  rcases isKnown with isKey | isValue
  · rw [EntryBuffers.after_key inEntry isKey]
    exact inEntry
  · rcases field with ⟨number, value⟩
    obtain rfl : number = 2 := isValue
    rw [EntryBuffers.after_value inEntry]
    exact inEntry

theorem answer_wholeEntry_known {known : List WireField}
    (isKnown : ∀ field ∈ known, field.number = 1 ∨ field.number = 2)
    (areStrings : ∀ key ∈ valuesOf 1 known, key.wireType = 2)
    (fits : ∀ field ∈ known, field.value.Fits) {buffers : EntryBuffers}
    (inEntry : buffers.inEntry = true) (budget : Nat) (rest : List WireField) :
    answer (wholeEntry utils binaryToJsonString limit bits .string wantedKeyField key next budget
        buffers (known ++ rest)) =
      answer (wholeEntry utils binaryToJsonString limit bits .string wantedKeyField key next
        budget (known.foldl EntryBuffers.after buffers) rest) := by
  induction known generalizing buffers with
  | nil => rfl
  | cons field known induction =>
      have split : valuesOf 1 (field :: known) = valuesOf 1 [field] ++ valuesOf 1 known :=
        valuesOf_append 1 [field] known
      rw [split] at areStrings
      have buffered : answer ((fixed utils binaryToJsonString limit bits).lookupField .string
          wantedKeyField key next budget buffers field).1 = .ok [] :=
        answer_lookupField_known inEntry (isKnown field List.mem_cons_self)
          (fun key member => areStrings key (List.mem_append_left _ member))
          (fits field List.mem_cons_self) budget
      rw [List.cons_append, wholeEntry_cons _ _ _ _ _ _ _ _ _ (.of_inEntry inEntry), answer_mul,
        buffered, Answer.ok_nil_followedBy, List.foldl_cons]
      apply induction
      · exact fun field member => isKnown field (List.mem_cons_of_mem _ member)
      · exact fun key member => areStrings key (List.mem_append_right _ member)
      · exact fun field member => fits field (List.mem_cons_of_mem _ member)
      · exact EntryBuffers.inEntry_after inEntry (isKnown field List.mem_cons_self)

theorem answer_wholeEntry_outside {fields : List WireField}
    (primitives : ∀ field ∈ fields, field.value.wireType ≠ 2) (budget : Nat) :
    answer (wholeEntry utils binaryToJsonString limit bits .string wantedKeyField key next budget
      .empty fields) = .ok [] := by
  induction fields with
  | nil => rfl
  | cons field fields induction =>
      rcases field with ⟨number, value⟩
      have primitive : value.wireType ≠ 2 := primitives ⟨number, value⟩ List.mem_cons_self
      have stays : EntryBuffers.empty.after ⟨number, value⟩ = .empty := by
        simp [EntryBuffers.after, EntryBuffers.empty, primitive]
      rw [wholeEntry_cons _ _ _ _ _ _ _ _ _ (fun _ => rfl), answer_mul, stays,
        lookupField_primitive _ _ _ _ _ primitive,
        induction fun field member => primitives field (List.mem_cons_of_mem _ member)]
      rfl

theorem answer_wholeEntry_unknown {unknown : List WireField}
    (areUnknown : ∀ field ∈ unknown,
      field.number ≠ 1 ∧ field.number ≠ 2 ∧ field.value.wireType ≠ 2)
    {buffers : EntryBuffers} (inEntry : buffers.inEntry = true) (budget : Nat) :
    answer (wholeEntry utils binaryToJsonString limit bits .string wantedKeyField key next budget
        buffers unknown) =
      answer ((fixed utils binaryToJsonString limit bits).leaveEntry .string wantedKeyField key
        next buffers).1 := by
  cases unknown with
  | nil =>
      rw [wholeEntry, turns, one_mul]
  | cons field unknown =>
      rcases field with ⟨number, value⟩
      rcases areUnknown _ List.mem_cons_self with ⟨notKey, notValue, primitive⟩
      have ended : buffers.after ⟨number, value⟩ = .empty := by
        rw [EntryBuffers.after, if_neg fun both => notKey both.2,
          if_neg fun both => notValue both.2, if_pos (.inl inEntry)]
      have ignored : answer (wholeEntry utils binaryToJsonString limit bits .string
          wantedKeyField key next budget .empty unknown) = .ok [] :=
        answer_wholeEntry_outside
          (fun field member => (areUnknown field (List.mem_cons_of_mem _ member)).2.2) budget
      rw [wholeEntry_cons _ _ _ _ _ _ _ _ _ (.of_inEntry inEntry), answer_mul, ended, ignored,
        Answer.followedBy_ok_nil, lookupField_primitive _ _ _ _ _ primitive, if_pos inEntry,
        if_neg notKey, if_neg notValue]

theorem answer_leaveEntry {keys values : List WireValue} (oneKey : keys.length ≤ 1)
    (areStrings : ∀ found ∈ keys, found.wireType = 2) (fits : ∀ found ∈ keys, found.Fits)
    (sized : ∀ found ∈ keys, found.Sized) (nonempty : key ≠ []) {wantedBits : UInt64} :
    answer ((fixed utils binaryToJsonString limit bits).leaveEntry .string
        ⟨1, 2, FieldInfo.Value.setSize ⟨wantedBits⟩ key.length⟩ key next
        { inEntry := true
          key := keys.getLast?.or (some (.varint 0))
          keyContents := (keys.getLast?.map WireValue.payload).getD []
          value := values.getLast?.or (some (.varint 0)) }).1 =
      if keys.any fun found => found.payload = key then
        answer (next.field limit (values.getLast?.getD (.varint 0)))
      else .ok [] := by
  have isValue : values.getLast?.or (some (.varint 0)) =
      some (values.getLast?.getD (.varint 0)) := by
    cases values.getLast? <;> rfl
  rw [isValue, leaveEntry, if_pos rfl]
  cases keys with
  | nil =>
      dsimp only
      rw [endEntry_fixed _ _ _ _ _ _ _ _ rfl rfl, entryMatches]
      simp [Ne.symm nonempty]
  | cons found rest =>
      have single : rest = [] := List.eq_nil_of_length_eq_zero (by
        rw [List.length_cons] at oneKey
        omega)
      subst single
      have isString := areStrings found List.mem_cons_self
      have isFit := fits found List.mem_cons_self
      dsimp only
      rw [endEntry_string _ rfl rfl rfl isString isFit (sized found List.mem_cons_self)]
      by_cases isKey : found.payload = key <;> simp [isKey, fixed]

/-- A map filter forwards the value of an entry for the key; where there is none it
forwards what a reset leaves in the buffer. -/
theorem answer_mapFilter {payload : Bytes} {valueType : FieldType}
    (declared : DeclaredEntry valueType payload) (unknownLast : UnknownLast payload)
    (nonempty : key ≠ []) (wantedBits : UInt64) (position budget : Nat) :
    answer (((fixed utils binaryToJsonString limit bits).mapFilter .string
        ⟨1, 2, FieldInfo.Value.setSize ⟨wantedBits⟩ key.length⟩ key next position).field
        (budget + 1) (.ofPayload payload)) =
      if Step.hasKey key (.ofPayload payload) then
        answer (next.field limit ((fieldValues 2 payload).getLast?.getD (.varint 0)))
      else .ok [] := by
  rcases unknownLast.split with ⟨known, unknown, split, isKnown, areUnknown⟩
  have ofKnown : ∀ number, number = 1 ∨ number = 2 →
      fieldValues number payload = valuesOf number known := by
    intro number isNumber
    have none : valuesOf number unknown = [] := by
      apply valuesOf_eq_nil
      intro field member
      rcases areUnknown field member with ⟨notKey, notValue, _⟩
      omega
    rw [fieldValues, split, valuesOf_append, none, List.append_nil]
  have isLevel : readFields payload = (known ++ unknown, none) :=
    Prod.ext split declared.framed.1
  have member : ∀ field ∈ known, field ∈ (readFields payload).1 := by
    rw [split]
    exact fun field member => List.mem_append_left _ member
  have ofKeys : ∀ found ∈ valuesOf 1 known, ∃ field ∈ known, field.value = found := by
    intro found isFound
    rcases List.mem_map.mp isFound with ⟨field, isField, rfl⟩
    exact ⟨field, List.mem_of_mem_filter isField, rfl⟩
  have areStrings : ∀ found ∈ valuesOf 1 known, found.wireType = 2 := by
    rw [← ofKnown 1 (.inl rfl)]
    exact declared.isString
  have ended : answer (wholeEntry utils binaryToJsonString limit bits .string
      ⟨1, 2, FieldInfo.Value.setSize ⟨wantedBits⟩ key.length⟩ key next budget
      { EntryBuffers.empty with inEntry := true } (known ++ unknown)) =
      answer ((fixed utils binaryToJsonString limit bits).leaveEntry .string
        ⟨1, 2, FieldInfo.Value.setSize ⟨wantedBits⟩ key.length⟩ key next
        (known.foldl EntryBuffers.after { EntryBuffers.empty with inEntry := true })).1 := by
    have fits := fun field isField => declared.framed.2 field (member field isField)
    rw [answer_wholeEntry_known isKnown areStrings fits (by rfl)]
    apply answer_wholeEntry_unknown areUnknown
    rw [EntryBuffers.foldl_after isKnown areStrings (by rfl)]
  rw [WireValue.ofPayload, mapFilter_fixed]
  simp only [scanSubmessage, scanLevel, isLevel, endOn, mul_one, answer_mul, answer_enter,
    Answer.ok_nil_followedBy, answer_leave, Answer.followedBy_ok_nil]
  rw [← answer_mul]
  apply Eq.trans ended
  rw [EntryBuffers.foldl_after isKnown areStrings (by rfl)]
  have oneKey : (valuesOf 1 known).length ≤ 1 := by
    rw [← ofKnown 1 (.inl rfl)]
    exact declared.oneKey
  have fits : ∀ found ∈ valuesOf 1 known, found.Fits := by
    intro found isFound
    rcases ofKeys found isFound with ⟨field, isField, rfl⟩
    exact declared.framed.2 field (member field isField)
  have sized : ∀ found ∈ valuesOf 1 known, found.Sized := by
    intro found isFound
    rcases ofKeys found isFound with ⟨field, isField, rfl⟩
    exact readFields_sized payload field (member field isField)
  apply Eq.trans (answer_leaveEntry oneKey areStrings fits sized nonempty)
  rw [ofKnown 2 (.inr rfl), Step.hasKey, WireValue.payload, ofKnown 1 (.inl rfl)]

theorem answer_allMapEntries {payload : Bytes} (framed : (readFields payload).2 = none)
    (budget : Nat) :
    answer ((allMapEntries false next).field (budget + 1) (.ofPayload payload)) =
      Answer.collect ((fieldValues 2 payload).map fun value =>
        answer (next.field budget value)) := by
  have level : answer ((allMapEntries false next).field (budget + 1) (.ofPayload payload)) =
      answer (turns (entriesField false next budget) () (readFields payload).1).1 := by
    simp only [allMapEntries, WireValue.ofPayload, scanSubmessage, answer_scanLevel, framed,
      endOn, answer_one, Answer.followedBy_ok_nil]
  rw [level, fieldValues]
  generalize (readFields payload).1 = fields
  induction fields with
  | nil => rfl
  | cons field fields induction =>
      have wants : wantsEntryField false field.number = true ↔ (field.number : Int) = 2 :=
        wantsEntryField_iff
      rw [turns, answer_mul, entriesField]
      by_cases wanted : (field.number : Int) = 2
      · rw [valuesOf_cons_of_eq wanted, if_pos (wants.mpr wanted), List.map_cons,
          Answer.collect_cons]
        rw [← induction]
      · rw [valuesOf_cons_of_ne wanted, if_neg (mt wants.mp wanted), answer_one,
          Answer.ok_nil_followedBy]
        exact induction

end

end Setting

/-! ## Answers of two enumerations -/

theorem Answer.collect_isOk_iff {answers : List Answer} :
    (∃ rows, Answer.collect answers = .ok rows) ↔ ∀ each ∈ answers, ∃ rows, each = .ok rows := by
  induction answers with
  | nil => simp
  | cons first rest induction =>
      rw [List.forall_mem_cons, ← induction, Answer.collect_cons]
      constructor
      · rintro ⟨rows, both⟩
        rcases Answer.followedBy_eq_ok_iff.mp both with ⟨front, back, isFront, isBack, _⟩
        exact ⟨⟨front, isFront⟩, back, isBack⟩
      · rintro ⟨⟨front, isFront⟩, back, isBack⟩
        exact ⟨front ++ back, by rw [isFront, isBack, Answer.ok_followedBy_ok]⟩

section

variable {Item : Type} {first second : Item → Answer} {items : List Item} (Extra : Item → Prop)

theorem Answer.length_collect_of_extra
    (same : ∀ item ∈ items, ¬ Extra item → second item = first item)
    (extra : ∀ item ∈ items, Extra item → first item = .ok [] ∧ second item ≠ .ok [])
    {rows more : List StdString} (isFirst : Answer.collect (items.map first) = .ok rows)
    (isSecond : Answer.collect (items.map second) = .ok more) :
    rows.length ≤ more.length ∧
      (rows.length = more.length → ∀ item ∈ items, ¬ Extra item) := by
  induction items generalizing rows more with
  | nil =>
      cases isFirst
      cases isSecond
      exact ⟨Nat.le_refl _, fun _ => nofun⟩
  | cons item items induction =>
      rw [List.map_cons, Answer.collect_cons, Answer.followedBy_eq_ok_iff] at isFirst isSecond
      rcases isFirst with ⟨front, back, isFront, isBack, rfl⟩
      rcases isSecond with ⟨frontMore, backMore, isFrontMore, isBackMore, rfl⟩
      rcases induction (fun item member => same item (List.mem_cons_of_mem _ member))
        (fun item member => extra item (List.mem_cons_of_mem _ member)) isBack isBackMore with
        ⟨shorter, rest⟩
      rw [List.forall_mem_cons, List.length_append, List.length_append]
      by_cases isExtra : Extra item
      · rcases extra item List.mem_cons_self isExtra with ⟨nothing, something⟩
        cases isFront.symm.trans nothing
        have longer : frontMore ≠ [] := by
          rintro rfl
          exact something isFrontMore
        have positive := List.length_pos_iff.mpr longer
        rw [List.length_nil]
        exact ⟨by omega, fun equal => by omega⟩
      · have equal := same item List.mem_cons_self isExtra
        rw [isFront, isFrontMore, Except.ok.injEq] at equal
        subst equal
        exact ⟨by omega, fun equal => ⟨isExtra, rest (by omega)⟩⟩

theorem Answer.collect_eq_iff
    (same : ∀ item ∈ items, ¬ Extra item → second item = first item)
    (extra : ∀ item ∈ items, Extra item → first item = .ok [] ∧ second item ≠ .ok [])
    (returns : ∀ item ∈ items, ∃ rows, first item = .ok rows) :
    Answer.collect (items.map second) = Answer.collect (items.map first) ↔
      ∀ item ∈ items, ¬ Extra item := by
  constructor
  · intro alike
    have isFirst : ∃ rows, Answer.collect (items.map first) = .ok rows := by
      rw [Answer.collect_isOk_iff]
      intro each member
      rcases List.mem_map.mp member with ⟨item, isItem, rfl⟩
      exact returns item isItem
    rcases isFirst with ⟨rows, isFirst⟩
    exact (Answer.length_collect_of_extra Extra same extra isFirst (alike.trans isFirst)).2 rfl
  · intro none
    congr 1
    apply List.map_congr_left
    exact fun item member => same item member (none item member)

end

theorem Answer.collect_wanted_iff {Item : Type} {wanted : Item → Bool} {Empty : Item → Prop}
    [DecidablePred Empty] {first second : Item → Answer} {instead : Answer} {items : List Item}
    (returns : ∀ item ∈ items, ∃ rows, first item = .ok rows)
    (nothing : ∀ item ∈ items, Empty item → first item = .ok [])
    (isSecond : ∀ item ∈ items, second item =
      if wanted item then if Empty item then instead else first item else .ok []) :
    Answer.collect (items.map second) =
        Answer.collect ((items.filter wanted).map first) ↔
      ∀ item ∈ items, wanted item = true → Empty item → instead = .ok [] := by
  have filtered : Answer.collect (items.map second) =
      Answer.collect ((items.filter wanted).map second) := by
    rw [Answer.collect_filter]
    congr 1
    apply List.map_congr_left
    intro item member
    rw [isSecond item member]
    by_cases isWanted : wanted item = true
    · simp only [if_pos isWanted]
    · simp only [if_neg isWanted]
  rw [filtered]
  apply (Answer.collect_eq_iff (fun item => Empty item ∧ instead ≠ .ok []) ?_ ?_ ?_).trans
  · constructor
    · intro none item member isWanted empty
      have isKept := List.mem_filter.mpr ⟨member, isWanted⟩
      exact Classical.byContradiction fun something => none item isKept ⟨empty, something⟩
    · rintro quiet item isKept ⟨empty, something⟩
      rcases List.mem_filter.mp isKept with ⟨member, isWanted⟩
      exact something (quiet item member isWanted empty)
  · intro item isKept ordinary
    rcases List.mem_filter.mp isKept with ⟨member, isWanted⟩
    rw [isSecond item member, if_pos isWanted]
    split
    · rename_i empty
      rw [nothing item member empty]
      exact Classical.byContradiction fun something => ordinary ⟨empty, something⟩
    · rfl
  · rintro item isKept ⟨empty, something⟩
    rcases List.mem_filter.mp isKept with ⟨member, isWanted⟩
    rw [isSecond item member, if_pos isWanted, if_pos empty]
    exact ⟨nothing item member empty, something⟩
  · intro item isKept
    exact returns item (List.mem_of_mem_filter isKept)

/-! ## The two chains -/

theorem answer_turns_selectField {part : ChainPart} (unpacked : part.isPacked = false)
    (isMessage : part.type = .message) (every : part.wantedIndex = none)
    (next : Delivery Unit) (budget : Nat) (fields : List WireField) (index : Int) :
    answer (turns (Setting.selectField part next budget) index fields).1 =
      Answer.collect ((valuesOf part.wantedField fields).map fun value =>
        answer (next.field budget value)) := by
  induction fields generalizing index with
  | nil => rfl
  | cons field fields induction =>
      rw [turns, Setting.selectField_unpacked unpacked, isMessage, Setting.hand_message,
        answer_mul, induction]
      have emits := part.emits_unindexed every field.number index
      by_cases wanted : (field.number : Int) = part.wantedField
      · rw [valuesOf_cons_of_eq wanted, if_pos (emits.mpr wanted), List.map_cons,
          Answer.collect_cons]
      · rw [valuesOf_cons_of_ne wanted, if_neg (mt emits.mp wanted), answer_one,
          Answer.ok_nil_followedBy]

section

variable {utils : PostgresUtils} {binaryToJsonString : StdString → Bytes → Option StdString}
variable {bits : UInt64} {field : FieldDescriptor Message}

theorem answer_runs_ofMap (isMessage : field.type = .message)
    (unpacked : field.isPacked = false) {map : MapPart} (isMap : Setting.mapWidth map = 1)
    (parts : List ChainPart) (last : ChainEnd) (budget : Nat) {message : Bytes}
    (framed : (readFields message).2 = none) :
    let setting := Setting.fixed utils binaryToJsonString (budget + 1) bits
    answer (setting.runs (.ofMap field isMessage map :: parts) last message) =
      Answer.collect ((fieldValues field.number message).map fun entry =>
        answer ((setting.mapPart 2 map (setting.chain last 3 parts)).field budget entry)) := by
  intro setting
  have level : answer (setting.runs (.ofMap field isMessage map :: parts) last message) =
      answer (turns (Setting.selectField (.ofMap field isMessage map)
        (setting.mapPart 2 map (setting.chain last (0 + 2 + Setting.mapWidth map) parts)) budget)
        (0 : Int) (readFields message).1).1 := by
    change answer (scanLevel _ _ _ _).1 = _
    rw [answer_scanLevel, framed, endOn, answer_one, Answer.followedBy_ok_nil]
    rfl
  rw [level, isMap, answer_turns_selectField unpacked isMessage rfl]
  rfl

end

def RestOfPath (rest : StdString) : Prop := rest = [] ∨ ∃ more, rest = '.'.toUInt8 :: more

section

variable {uninitialised : Uninitialised} {pool : DescriptorPool Message} {desc : Message}
variable {field keyField valueField : FieldDescriptor Message} {name key rest : StdString}

theorem partCompiles_values_iff {position : Nat} {part : ChainPart} {next : DescPtrs Message}
    (mapField : MapField pool desc (name ++ bracketed star) field keyField valueField)
    (selects : selectorText (name ++ bracketed star) = bracketed star) :
    PartCompiles uninitialised pool position desc (name ++ bracketed star) part next ↔
      part = .ofMap field mapField.isMessage (.entries false valueField.type) ∧
        next = field.descPtrs.ofValues valueField := by
  constructor
  · intro compiles
    cases compiles with
    | single _ _ bare => exact absurd (selects.symm.trans bare) (by decide)
    | element found _ notMap _ _ _ =>
        cases found.symm.trans mapField.found
        exact absurd (notMap.symm.trans mapField.isMap) nofun
    | keys _ isKeys => exact absurd (selects.symm.trans isKeys) (by decide)
    | values other _ =>
        cases other.found.symm.trans mapField.found
        rcases MapEntry.unique mapField.entry other.entry with ⟨_, rfl⟩
        exact ⟨rfl, rfl⟩
    | lookup _ isInner _ notStar _ =>
        exact absurd (bracketed_injective (isInner.symm.trans selects)) notStar
  · rintro ⟨rfl, rfl⟩
    exact .values mapField selects

theorem ChainCompiles.lookup_of_values (member : field ∈ pool.fields desc)
    (named : field.NamedBy name) (isMap : field.isMap = true)
    (mapEntry : MapEntry pool field keyField valueField) (isString : keyField.type = .string)
    (nonempty : key ≠ []) (notStar : key ≠ star) (noDot : '.'.toUInt8 ∉ key)
    (isRest : RestOfPath rest) {parts : List ChainPart} {last : ChainEnd}
    {final : DescPtrs Message}
    (chain : ChainCompiles uninitialised pool desc (name ++ bracketed star ++ rest) parts last
      final) :
    ∃ isMessage others,
      parts = .ofMap field isMessage (.entries false valueField.type) :: others ∧
      ChainCompiles uninitialised pool desc (name ++ bracketed key ++ rest)
        (.ofMap field isMessage (.lookup .string
          ⟨1, 2, FieldInfo.Value.setSize ⟨uninitialised.wantedKey 2⟩ key.length⟩ key
          valueField.type) :: others) last final ∧
      (rest = [] ∧ others = [] ∧ last.trailingDot = false ∧
          final = field.descPtrs.ofValues valueField ∨
        rest ≠ [] ∧ (others ≠ [] ∨ last.trailingDot = true)) := by
  have valid := pool.field_valid desc field member
  have mapField : ∀ inner, MapField pool desc (name ++ bracketed inner) field keyField
      valueField := fun inner =>
    mapEntry.mapField (findField_append member named (startsSelector_bracketed inner)) isMap
  have selects : ∀ inner, selectorText (name ++ bracketed inner) = bracketed inner :=
    fun inner => selectorText_append named valid (startsSelector_bracketed inner)
  have dotless : ∀ inner, '.'.toUInt8 ∉ inner → '.'.toUInt8 ∉ name ++ bracketed inner :=
    fun inner => dot_not_mem_bracketed named valid
  have notEmpty : ∀ inner more, name ++ bracketed inner ++ more ≠ [] := by
    intro inner more
    simp [bracketed]
  have lookup : PartCompiles uninitialised pool 1 desc (name ++ bracketed key)
      (.ofMap field (mapField key).isMessage (.lookup keyField.type
        ⟨1, 2, FieldInfo.Value.setSize ⟨uninitialised.wantedKey 2⟩ key.length⟩ key
        valueField.type)) (field.descPtrs.ofValues valueField) :=
    .lookup (mapField key) (selects key) nonempty notStar (by rw [isString]; rfl)
  rw [isString] at lookup
  rcases chain.compiles with ⟨empty, _⟩ | ⟨_, compiles⟩
  · exact absurd empty (notEmpty star rest)
  · rcases isRest with rfl | ⟨more, rfl⟩
    · rw [List.append_nil, List.splitOn_eq_singleton (dotless star (by decide))] at compiles
      generalize isText : name ++ bracketed star = text at compiles
      generalize dot : last.trailingDot = trailingDot at compiles
      cases compiles with
      | trailingDot => exact absurd isText (by simp [bracketed])
      | last hasDesc partNonempty part =>
          cases hasDesc
          subst isText
          rcases (partCompiles_values_iff (mapField star) (selects star)).mp part with
            ⟨rfl, rfl⟩
          refine ⟨(mapField star).isMessage, [], rfl, ⟨.inr ⟨notEmpty key [], ?_⟩, chain.emits⟩,
            .inl ⟨rfl, rfl, rfl, rfl⟩⟩
          rw [List.append_nil, List.splitOn_eq_singleton (dotless key noDot), dot]
          exact .last rfl (by simp [bracketed]) lookup
      | cons _ _ _ follows => cases follows
    · rw [splitOn_dot (dotless star (by decide))] at compiles
      have notNil := List.splitOn_ne_nil '.'.toUInt8 more
      generalize texts : more.splitOn '.'.toUInt8 = all at compiles notNil
      generalize isText : name ++ bracketed star = text at compiles
      generalize dot : last.trailingDot = trailingDot at compiles
      cases compiles with
      | trailingDot => exact absurd rfl notNil
      | last => exact absurd rfl notNil
      | @cons _ _ _ _ _ _ part _ others _ hasDesc partNonempty compiled follows =>
          cases hasDesc
          subst isText
          rcases (partCompiles_values_iff (mapField star) (selects star)).mp compiled with
            ⟨rfl, rfl⟩
          refine ⟨(mapField star).isMessage, others, rfl,
            ⟨.inr ⟨notEmpty key _, ?_⟩, chain.emits⟩, .inr ⟨List.cons_ne_nil _ _, ?_⟩⟩
          · rw [splitOn_dot (dotless key noDot), texts, dot]
            exact .cons rfl (by simp [bracketed]) lookup follows
          · cases follows with
            | trailingDot => exact .inr rfl
            | last => exact .inl (List.cons_ne_nil _ _)
            | cons => exact .inl (List.cons_ne_nil _ _)

end

section

variable {utils : PostgresUtils} {binaryToJsonString : StdString → Bytes → Option StdString}
variable {limit : Nat} {bits : UInt64}

theorem answer_missingValue_iff {pool : DescriptorPool Message}
    {field valueField : FieldDescriptor Message} (notEnum : valueField.type ≠ .enum)
    {parts : List ChainPart} {last : ChainEnd} {final : DescPtrs Message}
    (emits : Emitter.create pool final none = .ok (.new last.kind none)) {isLast : Prop}
    (ends : isLast ∧ parts = [] ∧ last.trailingDot = false ∧
        final = field.descPtrs.ofValues valueField ∨
      ¬ isLast ∧ (parts ≠ [] ∨ last.trailingDot = true)) :
    answer (((Setting.fixed utils binaryToJsonString limit bits).chain last 3 parts).field limit
        (.varint 0)) = .ok [] ↔ (isLast → valueField.type = .message) := by
  rcases ends with ⟨isLast, rfl, noDot, rfl⟩ | ⟨notLast, follows⟩
  · have delivered : ((Setting.fixed utils binaryToJsonString limit bits).chain last 3 []).field
        limit (.varint 0) = emit (last.kind.readPrimitive utils ((WireValue.varint 0).header
          bits)) := by
      rw [Setting.chain, Setting.chainEnd, if_neg (by simp [noDot])]
      exact emitPrimitive_fixed utils binaryToJsonString bits limit last.kind (.varint 0)
    rw [delivered]
    generalize last.kind = kind at emits
    have created := Emitter.kind_cases emits
    change valueField.type = .message ∧ _ ∨ valueField.type = .enum ∧ _ ∨
      valueField.type ≠ .message ∧ _ at created
    rcases created with ⟨isMessage, selected, rfl⟩ | ⟨isEnum, _⟩ | ⟨notMessage, _, isPrimitive⟩
    · exact iff_of_true rfl fun _ => isMessage
    · exact absurd isEnum notEnum
    · refine iff_of_false ?_ fun always => notMessage (always isLast)
      change kind = .primitive valueField.type at isPrimitive
      subst isPrimitive
      rw [EmitterKind.readPrimitive]
      cases EmitterKind.primitiveRow utils valueField.type ((WireValue.varint 0).header
        bits).value with
      | ok row => simp [Except.map]
      | error exception => simp [Except.map, emit]
  · refine iff_of_true ?_ fun isLast => absurd isLast notLast
    rcases follows with others | dot
    · rcases List.exists_cons_of_ne_nil others with ⟨part, others, rfl⟩
      rfl
    · cases parts with
      | nil =>
          rw [Setting.chain, Setting.chainEnd, if_pos dot]
          rfl
      | cons part parts => rfl

theorem answer_withoutValue {next : Delivery Unit} {occurrence : WireValue}
    (fits : occurrence.Fits)
    (framed : occurrence.wireType = 2 → (readFields occurrence.payload).2 = none)
    (noValue : fieldValues 2 occurrence.payload = []) {budget : Nat} {rows : List StdString}
    (returns : answer ((Setting.allMapEntries false next).field budget occurrence) = .ok rows) :
    rows = [] := by
  cases occurrence with
  | lengthDelimited size payload =>
      obtain rfl : payload.length = size := fits
      cases budget with
      | zero => cases returns
      | succ budget =>
          have nothing : answer ((Setting.allMapEntries false next).field (budget + 1)
              (.ofPayload payload)) = .ok [] := by
            rw [Setting.answer_allMapEntries (by exact framed rfl)]
            rw [WireValue.payload] at noValue
            rw [noValue]
            rfl
          cases returns.symm.trans nothing
          rfl
  | _ =>
      cases returns
      rfl

/-- What a lookup answers for an entry, where the selector of all entries returns: the
same for the key, unless the entry has no value. -/
theorem answer_entry {valueType : FieldType} {payload : Bytes}
    (declared : DeclaredEntry valueType payload) (unknownLast : UnknownLast payload)
    {key : StdString} (nonempty : key ≠ []) (wantedBits : UInt64) (last : ChainEnd)
    (parts : List ChainPart) {budget : Nat} (enough : budget ≤ limit) {rows : List StdString}
    (returns : answer ((Setting.allMapEntries false
      ((Setting.fixed utils binaryToJsonString limit bits).chain last 3 parts)).field budget
      (.ofPayload payload)) = .ok rows) :
    let setting := Setting.fixed utils binaryToJsonString limit bits
    answer ((setting.mapFilter .string
        ⟨1, 2, FieldInfo.Value.setSize ⟨wantedBits⟩ key.length⟩ key (setting.chain last 3 parts)
        2).field budget (.ofPayload payload)) =
      if Step.hasKey key (.ofPayload payload) then
        if fieldValues 2 payload = [] then
          answer ((setting.chain last 3 parts).field limit (.varint 0))
        else .ok rows
      else .ok [] := by
  intro setting
  cases budget with
  | zero => cases returns
  | succ budget =>
      rw [Setting.answer_allMapEntries declared.framed.1] at returns
      rw [Setting.answer_mapFilter declared unknownLast nonempty]
      have oneValue := declared.oneValue
      have sized : ∀ value ∈ fieldValues 2 payload, value.Sized := by
        intro value member
        rcases List.mem_map.mp member with ⟨field, isField, rfl⟩
        exact readFields_sized payload field (List.mem_of_mem_filter isField)
      generalize fieldValues 2 payload = values at oneValue returns sized
      match values, oneValue with
      | [], _ => rfl
      | [value], _ =>
          rw [List.map_singleton, Answer.collect_cons, Answer.collect_nil,
            Answer.followedBy_ok_nil] at returns
          have within := chain_answersWithin utils binaryToJsonString bits parts last
            (Nat.le_of_succ_le enough) 3 3 (sized value List.mem_cons_self)
          rcases within with exceeded | same
          · cases returns.symm.trans exceeded
          · rw [if_neg (List.cons_ne_nil _ _)]
            congr 1
            exact same.symm.trans returns

theorem answer_occurrence {valueType : FieldType} {occurrence : WireValue}
    (fits : occurrence.Fits)
    (isEntry : occurrence.wireType = 2 →
      DeclaredEntry valueType occurrence.payload ∧ UnknownLast occurrence.payload)
    {key : StdString} (nonempty : key ≠ []) (wantedBits : UInt64) (last : ChainEnd)
    (parts : List ChainPart) {budget : Nat} (enough : budget ≤ limit) {rows : List StdString}
    (returns : answer ((Setting.allMapEntries false
      ((Setting.fixed utils binaryToJsonString limit bits).chain last 3 parts)).field budget
      occurrence) = .ok rows) :
    let setting := Setting.fixed utils binaryToJsonString limit bits
    answer ((setting.mapFilter .string
        ⟨1, 2, FieldInfo.Value.setSize ⟨wantedBits⟩ key.length⟩ key (setting.chain last 3 parts)
        2).field budget occurrence) =
      if Step.hasKey key occurrence then
        if fieldValues 2 occurrence.payload = [] then
          answer ((setting.chain last 3 parts).field limit (.varint 0))
        else .ok rows
      else .ok [] := by
  cases occurrence with
  | lengthDelimited size payload =>
      rcases isEntry rfl with ⟨declared, unknownLast⟩
      obtain rfl : payload.length = size := fits
      exact answer_entry declared unknownLast nonempty wantedBits last parts enough returns
  | _ => rfl

theorem returns_runs_kept {field : FieldDescriptor Message} (isMessage : field.type = .message)
    (unpacked : field.isPacked = false) {map : MapPart} (isMap : Setting.mapWidth map = 1)
    (parts : List ChainPart) (last : ChainEnd) {key : StdString} {message kept : Bytes}
    (framed : (readFields message).2 = none)
    (keeps : KeepsEntries field.number key message kept) {rows : List StdString}
    (returns : answer ((Setting.fixed utils binaryToJsonString limit bits).runs
      (.ofMap field isMessage map :: parts) last message) = .ok rows) :
    ∃ rows, answer ((Setting.fixed utils binaryToJsonString limit bits).runs
      (.ofMap field isMessage map :: parts) last kept) = .ok rows := by
  cases limit with
  | zero => cases returns
  | succ budget =>
      have keptFramed : (readFields kept).2 = none := congrArg Prod.snd keeps
      have each := Answer.collect_isOk_iff.mp ⟨rows,
        (answer_runs_ofMap isMessage unpacked isMap parts last budget framed).symm.trans returns⟩
      have isKept : answer ((Setting.fixed utils binaryToJsonString (budget + 1) bits).runs
          (.ofMap field isMessage map :: parts) last kept) = _ :=
        answer_runs_ofMap isMessage unpacked isMap parts last budget keptFramed
      rw [isKept, Answer.collect_isOk_iff, keeps.fieldValues]
      intro answered member
      rcases List.mem_map.mp member with ⟨entry, isEntry, rfl⟩
      exact each _ (List.mem_map_of_mem (List.mem_of_mem_filter isEntry))

/-- A lookup in a message against the selection of all entries in what the message keeps
for the key. -/
theorem answer_runs_lookup_iff {field : FieldDescriptor Message}
    (isMessage : field.type = .message) (unpacked : field.isPacked = false)
    {valueType : FieldType} {key : StdString} (nonempty : key ≠ []) (wantedBits : UInt64)
    (last : ChainEnd) (parts : List ChainPart) {message kept : Bytes}
    (framed : WellFramed message)
    (entries : ∀ entry ∈ fieldValues field.number message, entry.wireType = 2 →
      DeclaredEntry valueType entry.payload ∧ UnknownLast entry.payload)
    (keeps : KeepsEntries field.number key message kept) {rows : List StdString}
    (returns : answer ((Setting.fixed utils binaryToJsonString limit bits).runs
      (.ofMap field isMessage (.entries false valueType) :: parts) last message) = .ok rows) :
    let setting := Setting.fixed utils binaryToJsonString limit bits
    answer (setting.runs (.ofMap field isMessage (.lookup .string
        ⟨1, 2, FieldInfo.Value.setSize ⟨wantedBits⟩ key.length⟩ key valueType) :: parts) last
        message) =
      answer (setting.runs (.ofMap field isMessage (.entries false valueType) :: parts) last
        kept) ↔
    ∀ entry ∈ fieldValues field.number message, Step.hasKey key entry = true →
      fieldValues 2 entry.payload = [] →
        answer ((setting.chain last 3 parts).field limit (.varint 0)) = .ok [] := by
  intro setting
  cases limit with
  | zero => cases returns
  | succ budget =>
      let next := setting.chain last 3 parts
      let first : WireValue → Answer := fun entry =>
        answer ((Setting.allMapEntries false next).field budget entry)
      let second : WireValue → Answer := fun entry =>
        answer ((setting.mapFilter .string
          ⟨1, 2, FieldInfo.Value.setSize ⟨wantedBits⟩ key.length⟩ key next 2).field budget entry)
      have isFirst : ∀ {message : Bytes}, (readFields message).2 = none →
          answer (setting.runs (.ofMap field isMessage (.entries false valueType) :: parts) last
            message) = Answer.collect ((fieldValues field.number message).map first) :=
        answer_runs_ofMap isMessage unpacked rfl parts last budget
      have isSecond : answer (setting.runs (.ofMap field isMessage (.lookup .string
          ⟨1, 2, FieldInfo.Value.setSize ⟨wantedBits⟩ key.length⟩ key valueType) :: parts) last
          message) = Answer.collect ((fieldValues field.number message).map second) :=
        answer_runs_ofMap isMessage unpacked rfl parts last budget framed.1
      have returnsEach : ∀ entry ∈ fieldValues field.number message,
          ∃ rows, first entry = .ok rows := by
        have each := Answer.collect_isOk_iff.mp ⟨rows, (isFirst framed.1).symm.trans returns⟩
        exact fun entry member => each _ (List.mem_map_of_mem member)
      have fits : ∀ entry ∈ fieldValues field.number message, entry.Fits := by
        intro entry member
        rcases List.mem_map.mp member with ⟨occurrence, isOccurrence, rfl⟩
        exact framed.2 occurrence (List.mem_of_mem_filter isOccurrence)
      have keptFramed : (readFields kept).2 = none := congrArg Prod.snd keeps
      rw [isSecond, isFirst keptFramed, keeps.fieldValues]
      apply Answer.collect_wanted_iff returnsEach
      · intro entry member noValue
        rcases returnsEach entry member with ⟨rows, isRows⟩
        rw [isRows, answer_withoutValue (fits entry member)
          (fun isEntry => (entries entry member isEntry).1.framed.1) noValue isRows]
      · intro entry member
        rcases returnsEach entry member with ⟨rows, isRows⟩
        rw [isRows]
        exact answer_occurrence (fits entry member) (entries entry member) nonempty wantedBits
          last parts (Nat.le_succ budget) isRows

end

/-! ## Runs -/

def Host.withLocals (host : Host Message) (bits : UInt64) : Host Message :=
  { host with localBits := fun _ => bits }

section

variable (Stream : Type) [CodedInputStream Stream] [LawfulCodedInputStream Stream]

theorem Host.answer_withLocals {host : Host Message} {desc : Message} {path : StdString}
    {parts : List ChainPart} {last : ChainEnd} {final : DescPtrs Message}
    (chain : ChainCompiles host.uninitialised host.descSet.pool desc path parts last final)
    (zero : host.uninitialised.ZeroBuffers) (bits : UInt64) (message : Bytea) :
    (host.withLocals bits).answer Stream desc path message =
      PostgresProtobuf.answer ((Setting.fixed host.utils host.descSet.binaryToJsonString
        (CodedInputStream.recursionLimit Stream) bits).runs parts last message.data) := by
  have sameChain : ChainCompiles (host.withLocals bits).uninitialised
      (host.withLocals bits).descSet.pool desc path parts last final := chain
  rw [answer_of_chain sameChain]
  exact run_fixed host.utils _ bits parts last zero message

theorem Host.returns_withLocals {host : Host Message} {desc : Message} {path : StdString}
    {parts : List ChainPart} {last : ChainEnd} {final : DescPtrs Message}
    (chain : ChainCompiles host.uninitialised host.descSet.pool desc path parts last final)
    (zero : host.uninitialised.ZeroBuffers) (bits : UInt64) (message : Bytea) :
    (∃ rows, host.answer Stream desc path message = .ok rows) ↔
      ∃ rows, (host.withLocals bits).answer Stream desc path message = .ok rows := by
  have sameChain : ChainCompiles (host.withLocals bits).uninitialised
      (host.withLocals bits).descSet.pool desc path parts last final := chain
  rw [answer_of_chain chain, answer_of_chain sameChain]
  constructor
  · rintro ⟨rows, returns⟩
    exact run_eq_ok_of_locals zero returns _
  · rintro ⟨rows, returns⟩
    exact run_eq_ok_of_locals zero returns _

/-- Looking up a string key answers as selecting all entries does for the entries with
that key, exactly where no such entry lacks a scalar value. -/
theorem mapLookup_iff {host : Host Message} {desc : Message}
    {field keyField valueField : FieldDescriptor Message} {name key rest : StdString}
    (zero : host.uninitialised.ZeroBuffers) (member : field ∈ host.descSet.pool.fields desc)
    (named : field.NamedBy name) (isMap : field.isMap = true)
    (mapEntry : MapEntry host.descSet.pool field keyField valueField)
    (isString : keyField.type = .string) (notEnum : valueField.type ≠ .enum)
    (nonempty : key ≠ []) (notStar : key ≠ star) (noDot : '.'.toUInt8 ∉ key)
    (isRest : RestOfPath rest) {message kept : Bytea} (framed : WellFramed message.data)
    (entries : ∀ entry ∈ fieldValues field.number message.data, entry.wireType = 2 →
      DeclaredEntry valueField.type entry.payload ∧ UnknownLast entry.payload)
    (keeps : KeepsEntries field.number key message.data kept.data) {rows : List StdString}
    (returns : host.answer Stream desc (name ++ bracketed star ++ rest) message = .ok rows) :
    ((∃ found, host.answer Stream desc (name ++ bracketed key ++ rest) message = .ok found) ∧
        ∀ bits, (host.withLocals bits).answer Stream desc (name ++ bracketed key ++ rest)
          message = (host.withLocals bits).answer Stream desc (name ++ bracketed star ++ rest)
            kept) ↔
      (rest = [] → valueField.type ≠ .message →
        ∀ entry ∈ fieldValues field.number message.data, Step.hasKey key entry = true →
          fieldValues 2 entry.payload ≠ []) := by
  have accepted : ∃ query, compileFrom host.descSet host.uninitialised desc
      (name ++ bracketed star ++ rest) none = .ok query := by
    unfold Host.answer at returns
    rcases Except.bind_eq_ok_iff.mp returns with ⟨query, compiled, _⟩
    exact ⟨query, compiled⟩
  rcases accepted with ⟨query, compiled⟩
  rcases compileFrom_eq_ok_iff.mp compiled with ⟨parts, last, final, chain, _⟩
  rcases chain.lookup_of_values member named isMap mapEntry isString nonempty notStar noDot
    isRest with ⟨isMessage, others, rfl, lookup, ends⟩
  have unpacked : field.isPacked = false :=
    (mapEntry.mapField (findField_append member named (startsSelector_bracketed star))
      isMap).unpacked (host.descSet.pool.field_valid desc field member)
  have agrees : ∀ bits, (host.withLocals bits).answer Stream desc
      (name ++ bracketed key ++ rest) message =
        (host.withLocals bits).answer Stream desc (name ++ bracketed star ++ rest) kept ↔
      (rest = [] → valueField.type ≠ .message →
        ∀ entry ∈ fieldValues field.number message.data, Step.hasKey key entry = true →
          fieldValues 2 entry.payload ≠ []) := by
    intro bits
    rcases (Host.returns_withLocals Stream chain zero bits message).mp ⟨rows, returns⟩ with
      ⟨found, isFound⟩
    rw [Host.answer_withLocals Stream chain zero] at isFound
    rw [Host.answer_withLocals Stream lookup zero, Host.answer_withLocals Stream chain zero]
    apply (answer_runs_lookup_iff isMessage unpacked nonempty (host.uninitialised.wantedKey 2)
      last others framed entries keeps isFound).trans
    rw [answer_missingValue_iff notEnum chain.emits ends]
    constructor
    · intro quiet isLast notMessage entry isEntry hasKey noValue
      exact notMessage (quiet entry isEntry hasKey noValue isLast)
    · intro valued entry isEntry hasKey noValue isLast
      exact Classical.byContradiction fun notMessage =>
        valued isLast notMessage entry isEntry hasKey noValue
  constructor
  · intro same
    exact (agrees 0).mp (same.2 0)
  · intro valued
    refine ⟨?_, fun bits => (agrees bits).mpr valued⟩
    rcases (Host.returns_withLocals Stream chain zero 0 message).mp ⟨rows, returns⟩ with
      ⟨found, isFound⟩
    rw [Host.answer_withLocals Stream chain zero] at isFound
    rw [Host.returns_withLocals Stream lookup zero 0 message, (agrees 0).mpr valued,
      Host.answer_withLocals Stream chain zero]
    exact returns_runs_kept isMessage unpacked rfl others last framed.1 keeps isFound

/-- `map_str2str[k]` on an entry for the key, on one for another key in the other order, and
on one for the key with an unknown field at its end. -/
theorem mapLookup_iff_k :
    let message : Bytea := ⟨[0x3A, 6, 0x0A, 1, 0x6B, 0x12, 1, 0x61,
      0x3A, 6, 0x12, 1, 0x62, 0x0A, 1, 0x7A,
      0x3A, 8, 0x0A, 1, 0x6B, 0x12, 1, 0x63, 0x18, 5], by decide⟩
    let kept : Bytea := ⟨[0x3A, 6, 0x0A, 1, 0x6B, 0x12, 1, 0x61,
      0x3A, 8, 0x0A, 1, 0x6B, 0x12, 1, 0x63, 0x18, 5], by decide⟩
    let path := fun key => literal "map_str2str" ++ bracketed key ++ []
    ((∃ found, testHost.answer ArrayStream .exampleMessage (path (literal "k")) message =
          .ok found) ∧
        ∀ bits, (testHost.withLocals bits).answer ArrayStream .exampleMessage
          (path (literal "k")) message =
            (testHost.withLocals bits).answer ArrayStream .exampleMessage (path star) kept) ↔
      (([] : StdString) = [] → FieldType.string ≠ .message →
        ∀ entry ∈ fieldValues 7 message.data, Step.hasKey (literal "k") entry = true →
          fieldValues 2 entry.payload ≠ []) := by
  intro message kept path
  have member : TestMessage.ofMessage "map_str2str" 7 true true .mapStr2strEntry ∈
      testHost.descSet.pool.fields .exampleMessage := by decide +kernel
  have mapEntry : MapEntry testHost.descSet.pool
      (TestMessage.ofMessage "map_str2str" 7 true true .mapStr2strEntry)
      (TestMessage.single "key" 1 .string) (TestMessage.single "value" 2 .string) :=
    ⟨_, rfl, by decide +kernel, by decide +kernel⟩
  have entries : ∀ entry ∈ fieldValues 7 message.data, entry.wireType = 2 →
      DeclaredEntry .string entry.payload ∧ UnknownLast entry.payload := by decide +kernel
  have keeps : KeepsEntries 7 (literal "k") message.data kept.data := by decide +kernel
  have returns : testHost.answer ArrayStream .exampleMessage
      (literal "map_str2str" ++ bracketed star ++ []) message =
      .ok [literal "a", literal "b", literal "c"] := by decide +kernel
  exact mapLookup_iff ArrayStream (fun _ => ⟨rfl, rfl⟩) member (.inl rfl) rfl mapEntry rfl nofun
    (by decide) (by decide) (by decide) (.inl rfl) (by decide +kernel) entries keeps returns

/-- `map_str2str[k]` on an entry for the key without a value, on one with an unknown
length-delimited field, and on one with an unknown varint in front. -/
theorem mapLookup_throws :
    let all := literal "map_str2str" ++ bracketed star
    let lookup := literal "map_str2str" ++ bracketed (literal "k")
    let missing : Bytea := ⟨[0x3A, 3, 0x0A, 1, 0x6B], by decide⟩
    let nested : Bytea := ⟨[0x3A, 9, 0x0A, 1, 0x6B, 0x12, 1, 0x61, 0x1A, 1, 7], by decide⟩
    let first : Bytea := ⟨[0x3A, 8, 0x18, 5, 0x0A, 1, 0x6B, 0x12, 1, 0x61], by decide⟩
    (∀ message ∈ [missing, nested, first], WellFramed message.data ∧
      ∀ entry ∈ fieldValues 7 message.data, DeclaredEntry .string entry.payload) ∧
    testHost.answer ArrayStream .exampleMessage all missing = .ok [] ∧
    testHost.answer ArrayStream .exampleMessage lookup missing =
      .error (.badProto (literal "unrecognized primitive field type: 9")) ∧
    testHost.answer ArrayStream .exampleMessage all nested = .ok [literal "a"] ∧
    testHost.answer ArrayStream .exampleMessage lookup nested =
      .error (.badProto (literal "unrecognized wire_type 7")) ∧
    testHost.answer ArrayStream .exampleMessage all first = .ok [literal "a"] ∧
    testHost.answer ArrayStream .exampleMessage lookup first =
      .error (.badProto (literal "unrecognized wire_type 3")) := by
  refine ⟨?_, ?_⟩
  · rw [List.forall_mem_cons, List.forall_mem_cons, List.forall_mem_singleton]
    decide +kernel
  · decide +kernel

end

end PostgresProtobuf
