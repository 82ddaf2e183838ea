import Mathlib.Data.List.Dedup
import PostgresProtobuf.ListIndices

/-! # Maps one key at a time

Looking up each key that a map has, once, finds what the selection of all its entries finds,
also where entries are repeated and the path goes on. -/

namespace PostgresProtobuf

open Foundation

variable {Message : Type}

/-! ## Keys of entries -/

def keyOf (entry : WireValue) : Option StdString :=
  (fieldValues 1 entry.payload).head?.map WireValue.payload

theorem exists_keyOf (size : Nat) {payload : Bytes} (nonempty : fieldValues 1 payload ≠ []) :
    ∃ key, keyOf (.lengthDelimited size payload) = some key := by
  rcases List.exists_cons_of_ne_nil nonempty with ⟨key, others, isKeys⟩
  refine ⟨key.payload, ?_⟩
  rw [keyOf, WireValue.payload, isKeys]
  rfl

theorem keyOf_toList {entry : WireValue} (oneKey : (fieldValues 1 entry.payload).length ≤ 1) :
    (keyOf entry).toList = (fieldValues 1 entry.payload).map WireValue.payload := by
  unfold keyOf
  cases isKeys : fieldValues 1 entry.payload with
  | nil => rfl
  | cons key others =>
      rw [isKeys, List.length_cons] at oneKey
      obtain rfl : others = [] := List.eq_nil_of_length_eq_zero (by omega)
      rfl

theorem hasKey_eq_decide {entry : WireValue} (oneKey : (fieldValues 1 entry.payload).length ≤ 1)
    (key : StdString) : Step.hasKey key entry = decide (keyOf entry = some key) := by
  have isMember : Step.hasKey key entry = true ↔ key ∈ (keyOf entry).toList := by
    rw [keyOf_toList oneKey]
    simp [Step.hasKey]
  rw [Option.mem_toList] at isMember
  rw [Bool.eq_iff_iff, isMember, decide_eq_true_iff]

theorem fits_of_mem {number : Int} {payload : Bytes} (framed : WellFramed payload)
    {value : WireValue} (member : value ∈ fieldValues number payload) : value.Fits := by
  rcases List.mem_map.mp member with ⟨field, isField, rfl⟩
  exact framed.2 field (List.mem_of_mem_filter isField)

theorem Emits.answer_eq {action : Activity Unit} {rows : List StdString}
    (emits : Emits action (rows.map some)) : answer action = .ok rows := by
  rcases emits () with ⟨events, next, ends, texts⟩
  rw [answer, ends]
  exact congrArg Except.ok (List.map_injective_iff.mpr (Option.some_injective _) texts)

theorem Answer.collect_map_ok {Item : Type} {first : Item → Answer}
    {rows : Item → List StdString} {items : List Item}
    (each : ∀ item ∈ items, first item = .ok (rows item)) :
    Answer.collect (items.map first) = .ok (items.flatMap rows) := by
  induction items with
  | nil => rfl
  | cons item items induction =>
      rw [List.map_cons, Answer.collect_cons, each item List.mem_cons_self,
        induction fun other member => each other (List.mem_cons_of_mem _ member)]
      rfl

theorem Answer.contents_of_collect {Item : Type} {first : Item → Answer} {items : List Item}
    {rows : List StdString} (returns : Answer.collect (items.map first) = .ok rows) :
    ∃ contents : Item → List StdString,
      (∀ item ∈ items, first item = .ok (contents item)) ∧ rows = items.flatMap contents := by
  have isContents : ∀ item ∈ items, first item = .ok ((first item).toOption.getD []) := by
    intro item member
    rcases Answer.collect_isOk_iff.mp ⟨rows, returns⟩ _ (List.mem_map_of_mem member) with
      ⟨found, isFound⟩
    rw [isFound]
    rfl
  exact ⟨_, isContents, Except.ok.inj (returns.symm.trans (Answer.collect_map_ok isContents))⟩

section

variable {utils : PostgresUtils} {binaryToJsonString : StdString → Bytes → Option StdString}
variable {limit : Nat} {bits : UInt64}

theorem emits_string {value : WireValue} (isString : value.wireType = 2) (fits : value.Fits)
    (budget : Nat) :
    Emits (((Setting.fixed utils binaryToJsonString limit bits).emitter
      (.primitive .string)).field budget value) [some value.payload] := by
  cases value with
  | lengthDelimited size payload =>
      have whole : payload.length = size := fits
      change Emits (readWhole "failed to fully read string field" size payload
        (emit (.ok (some payload)))) [some payload]
      rw [readWhole_of_fits whole]
      exact .row rfl
  | _ => cases isString

theorem answer_allMapKeys {valueType : FieldType} {entry : WireValue}
    (declared : entry.wireType = 2 → DeclaredEntry valueType entry.payload) (budget : Nat) :
    answer ((Setting.allMapEntries true ((Setting.fixed utils binaryToJsonString limit
      bits).emitter (.primitive .string))).field (budget + 1) entry) =
        .ok (keyOf entry).toList := by
  cases entry with
  | lengthDelimited size payload =>
      have isEntry : DeclaredEntry valueType payload := declared rfl
      have texts : ((fieldValues 1 payload).flatMap fun value => [some value.payload]) =
          (keyOf (.lengthDelimited size payload)).toList.map some := by
        rw [keyOf_toList (by exact isEntry.oneKey), List.map_map, List.map_eq_flatMap]
        rfl
      have each : ∀ value ∈ fieldValues 1 payload,
          Emits (((Setting.fixed utils binaryToJsonString limit bits).emitter
            (.primitive .string)).field budget value) [some value.payload] :=
        fun value member => emits_string (isEntry.isString value member)
          (fits_of_mem isEntry.framed member) budget
      apply Emits.answer_eq
      rw [← texts]
      exact Emits.scanLevel isEntry.framed.1 (Emits.turns_entriesField true _ each)
  | _ => rfl

theorem answer_runs_keys {field : FieldDescriptor Message} (isMessage : field.type = .message)
    (unpacked : field.isPacked = false) {valueType : FieldType} (last : ChainEnd)
    (parts : List ChainPart) {message : Bytes} (framed : WellFramed message)
    (entries : ∀ entry ∈ fieldValues field.number message, entry.wireType = 2 →
      DeclaredEntry valueType entry.payload) {rows : List StdString}
    (returns : answer ((Setting.fixed utils binaryToJsonString limit bits).runs
      (.ofMap field isMessage (.entries false valueType) :: parts) last message) = .ok rows)
    {keysEnd : ChainEnd} (noDot : keysEnd.trailingDot = false)
    (isString : keysEnd.kind = .primitive .string) :
    answer ((Setting.fixed utils binaryToJsonString limit bits).runs
      [.ofMap field isMessage (.entries true .string)] keysEnd message) =
        .ok ((fieldValues field.number message).filterMap keyOf) := by
  cases limit with
  | zero => cases returns
  | succ budget =>
      let setting := Setting.fixed utils binaryToJsonString (budget + 1) bits
      have all : answer (setting.runs (.ofMap field isMessage (.entries false valueType) :: parts)
          last message) = _ := answer_runs_ofMap isMessage unpacked rfl parts last budget framed.1
      have returnsEach := Answer.collect_isOk_iff.mp ⟨rows, all.symm.trans returns⟩
      have keys : answer (setting.runs [.ofMap field isMessage (.entries true .string)] keysEnd
          message) = _ := answer_runs_ofMap isMessage unpacked rfl [] keysEnd budget framed.1
      have ends : setting.chain keysEnd 3 [] = setting.emitter (.primitive .string) := by
        rw [Setting.chain, Setting.chainEnd, if_neg (by simp [noDot]), isString]
      rw [keys, ends, List.filterMap_eq_flatMap_toList]
      apply Answer.collect_map_ok
      intro entry member
      rcases returnsEach _ (List.mem_map_of_mem member) with ⟨found, isFound⟩
      cases budget with
      | zero =>
          cases entry with
          | lengthDelimited size payload => cases isFound
          | _ => rfl
      | succ budget => exact answer_allMapKeys (entries entry member) budget

section

variable {field : FieldDescriptor Message} (isMessage : field.type = .message)
variable (unpacked : field.isPacked = false) {valueType : FieldType} (last : ChainEnd)
variable (parts : List ChainPart) {message : Bytea} (framed : WellFramed message.data)
variable (entries : ∀ entry ∈ fieldValues field.number message.data, entry.wireType = 2 →
  DeclaredEntry valueType entry.payload ∧ UnknownLast entry.payload ∧
    fieldValues 1 entry.payload ≠ [])
variable {rows : List StdString}
variable (returns : answer ((Setting.fixed utils binaryToJsonString limit bits).runs
  (.ofMap field isMessage (.entries false valueType) :: parts) last message.data) = .ok rows)
variable (valued : ∀ entry ∈ fieldValues field.number message.data, entry.wireType = 2 →
  fieldValues 2 entry.payload = [] →
    answer (((Setting.fixed utils binaryToJsonString limit bits).chain last 3 parts).field
      limit (.varint 0)) = .ok [])
variable (wantedBits : UInt64)

include unpacked framed entries returns valued

theorem answer_runs_lookup_key {key : StdString} (nonempty : key ≠ []) :
    ∃ kept : Bytea, (readFields kept.data).2 = none ∧
      fieldValues field.number kept.data =
        ((fieldValues field.number message.data).filter fun entry => keyOf entry = some key) ∧
      answer ((Setting.fixed utils binaryToJsonString limit bits).runs
          (.ofMap field isMessage (.lookup .string
            ⟨1, 2, FieldInfo.Value.setSize ⟨wantedBits⟩ key.length⟩ key valueType) :: parts)
          last message.data) =
        answer ((Setting.fixed utils binaryToJsonString limit bits).runs
          (.ofMap field isMessage (.entries false valueType) :: parts) last kept.data) := by
  have oneKey : ∀ entry ∈ fieldValues field.number message.data,
      (fieldValues 1 entry.payload).length ≤ 1 := by
    intro entry member
    cases entry with
    | lengthDelimited size payload => exact (entries _ member rfl).1.oneKey
    | _ => exact Nat.zero_le 1
  rcases exists_keepsEntries field.number key framed with ⟨kept, keeps⟩
  have isKept : (fieldValues field.number message.data).filter (Step.hasKey key) =
      (fieldValues field.number message.data).filter fun entry => keyOf entry = some key :=
    List.filter_congr fun entry member => hasKey_eq_decide (oneKey entry member) key
  refine ⟨kept, congrArg Prod.snd keeps, keeps.fieldValues.trans isKept, ?_⟩
  apply (answer_runs_lookup_iff isMessage unpacked nonempty wantedBits last parts framed
    (fun entry member isEntry => ⟨(entries entry member isEntry).1,
      (entries entry member isEntry).2.1⟩) keeps returns).mpr
  intro entry member hasKey noValue
  cases entry with
  | lengthDelimited size payload => exact valued _ member rfl noValue
  | _ => cases hasKey

/-- Where the selector of all entries returns, its rows are those of the lookups of the
keys, in some order, and there is nothing under other keys. -/
theorem perm_lookups :
    let keys := (fieldValues field.number message.data).filterMap keyOf
    ∃ found : StdString → List StdString,
      (∀ key, key ≠ [] → answer ((Setting.fixed utils binaryToJsonString limit bits).runs
        (.ofMap field isMessage (.lookup .string
          ⟨1, 2, FieldInfo.Value.setSize ⟨wantedBits⟩ key.length⟩ key valueType) :: parts) last
            message.data) = .ok (found key)) ∧
      (∀ key ∉ keys, found key = []) ∧ (keys.dedup.flatMap found).Perm rows := by
  intro keys
  have lookup := fun (key : StdString) (nonempty : key ≠ []) => answer_runs_lookup_key isMessage
    unpacked last parts framed entries returns valued wantedBits nonempty
  cases limit with
  | zero => cases returns
  | succ budget =>
      let setting := Setting.fixed utils binaryToJsonString (budget + 1) bits
      let first : WireValue → Answer := fun entry =>
        answer ((Setting.allMapEntries false (setting.chain last 3 parts)).field budget entry)
      have isFirst : ∀ {message : Bytes}, (readFields message).2 = none →
          answer (setting.runs (.ofMap field isMessage (.entries false valueType) :: parts) last
            message) = Answer.collect ((fieldValues field.number message).map first) :=
        answer_runs_ofMap isMessage unpacked rfl parts last budget
      rcases Answer.contents_of_collect ((isFirst framed.1).symm.trans returns) with
        ⟨contents, isContents, isRows⟩
      refine ⟨fun key => ((fieldValues field.number message.data).filter fun entry =>
        keyOf entry = some key).flatMap contents, ?_, ?_, ?_⟩
      · intro key nonempty
        rcases lookup key nonempty with ⟨kept, keptFramed, isKept, same⟩
        rw [same, isFirst keptFramed, isKept]
        exact Answer.collect_map_ok fun entry member =>
          isContents entry (List.mem_of_mem_filter member)
      · intro key absent
        apply List.flatMap_eq_nil_iff.mpr
        intro entry member
        rcases List.mem_filter.mp member with ⟨isEntry, isKey⟩
        exact absurd (List.mem_filterMap.mpr ⟨entry, isEntry, of_decide_eq_true isKey⟩) absent
      · rw [isRows]
        apply groups_perm contents (List.nodup_dedup keys)
        intro entry member
        cases entry with
        | lengthDelimited size payload =>
            rcases exists_keyOf size (entries _ member rfl).2.2 with ⟨key, isKey⟩
            have isMember : key ∈ keys := List.mem_filterMap.mpr ⟨_, member, isKey⟩
            exact .inr ⟨key, List.mem_dedup.mpr isMember, isKey⟩
        | _ => exact .inl (Except.ok.inj (isContents _ member)).symm

end

end

/-! ## Paths -/

def Spellable (key : StdString) : Prop := key ≠ [] ∧ key ≠ star ∧ '.'.toUInt8 ∉ key

theorem chainCompiles_keys (uninitialised : Uninitialised) {pool : DescriptorPool Message}
    {desc : Message} {field keyField valueField : FieldDescriptor Message} {name : StdString}
    (member : field ∈ pool.fields desc) (named : field.NamedBy name)
    (isMap : field.isMap = true) (mapEntry : MapEntry pool field keyField valueField)
    (isString : keyField.type = .string) (isMessage : field.type = .message) :
    ∃ last : ChainEnd, last.trailingDot = false ∧ last.kind = .primitive .string ∧
      ∃ final, ChainCompiles uninitialised pool desc (name ++ keysText)
        [.ofMap field isMessage (.entries true .string)] last final := by
  have valid := pool.field_valid desc field member
  have starts : StartsSelector keysText := .inr ⟨_, .inr rfl⟩
  have mapField : MapField pool desc (name ++ keysText) field keyField valueField :=
    mapEntry.mapField (findField_append member named starts) isMap
  have noDot : '.'.toUInt8 ∉ name ++ keysText := by
    have inName := named.not_mem valid (.inr (.inr rfl) : '.'.toUInt8 = _ ∨ _)
    rw [List.mem_append, not_or]
    exact ⟨inName, by decide⟩
  have keys : PartCompiles uninitialised pool 1 desc (name ++ keysText)
      (.ofMap field mapField.isMessage (.entries true keyField.type))
      { field.descPtrs with type := keyField.type } :=
    .keys mapField (selectorText_append named valid starts)
  rw [isString] at keys
  have created : Emitter.create pool { field.descPtrs with type := .string } none =
      .ok (.new (.primitive .string) none) := rfl
  exact ⟨_, rfl, rfl, _,
    chainCompiles_single (by simp [keysText, literal]) noDot keys created⟩

section

variable (Stream : Type) [CodedInputStream Stream] [LawfulCodedInputStream Stream]

/-- Where `f[*]s` returns, looking up the keys that `f|keys` returns, each one once, returns
its rows in some order, and other keys find nothing. -/
theorem mapStar_perm_keys {host : Host Message} {desc : Message}
    {field keyField valueField : FieldDescriptor Message} {name rest : StdString}
    (zero : host.uninitialised.ZeroBuffers) (member : field ∈ host.descSet.pool.fields desc)
    (named : field.NamedBy name) (isMap : field.isMap = true)
    (mapEntry : MapEntry host.descSet.pool field keyField valueField)
    (isString : keyField.type = .string) (notEnum : valueField.type ≠ .enum)
    (isRest : RestOfPath rest) {message : Bytea} (framed : WellFramed message.data)
    (entries : ∀ entry ∈ fieldValues field.number message.data, entry.wireType = 2 →
      DeclaredEntry valueField.type entry.payload ∧ UnknownLast entry.payload ∧
        fieldValues 1 entry.payload ≠ [])
    (spellable : ∀ entry ∈ fieldValues field.number message.data,
      ∀ key ∈ keyOf entry, Spellable key)
    (valued : rest = [] → valueField.type ≠ .message →
      ∀ entry ∈ fieldValues field.number message.data, entry.wireType = 2 →
        fieldValues 2 entry.payload ≠ []) {returned : List StdString}
    (returns : host.answer Stream desc (name ++ bracketed star ++ rest) message =
      .ok returned) :
    ∃ keys : List StdString, (∀ key ∈ keys, Spellable key) ∧ ∀ bits,
      let host := host.withLocals bits
      host.answer Stream desc (name ++ keysText) message = .ok keys ∧
      ∃ (rows : List StdString) (found : StdString → List StdString),
        host.answer Stream desc (name ++ bracketed star ++ rest) message = .ok rows ∧
        (∀ key, Spellable key →
          host.answer Stream desc (name ++ bracketed key ++ rest) message = .ok (found key)) ∧
        (∀ key ∉ keys, found key = []) ∧ (keys.dedup.flatMap found).Perm rows := by
  rcases Host.chain_of_answer Stream returns with ⟨parts, last, final, chain⟩
  have lookups := fun key (isSpellable : Spellable key) => chain.lookup_of_values member named
    isMap mapEntry isString isSpellable.1 isSpellable.2.1 isSpellable.2.2 isRest
  rcases lookups (literal "k") ⟨by decide, by decide, by decide⟩ with
    ⟨isMessage, others, rfl, _, ends⟩
  have unpacked : field.isPacked = false :=
    (mapEntry.mapField (findField_append member named (startsSelector_bracketed star))
      isMap).unpacked (host.descSet.pool.field_valid desc field member)
  have compilesKeys :=
    chainCompiles_keys host.uninitialised member named isMap mapEntry isString isMessage
  rcases compilesKeys with ⟨keysEnd, noDot, isKeysEnd, _, keysChain⟩
  refine ⟨(fieldValues field.number message.data).filterMap keyOf, ?_, fun bits => ?_⟩
  · intro key isKey
    rcases List.mem_filterMap.mp isKey with ⟨entry, isEntry, hasKey⟩
    exact spellable entry isEntry key hasKey
  · intro hostWithLocals
    rcases (Host.returns_withLocals Stream chain zero bits message).mp ⟨returned, returns⟩ with
      ⟨rows, isRows⟩
    have returnsRun := isRows
    rw [Host.answer_withLocals Stream chain zero] at returnsRun
    constructor
    · apply (Host.answer_withLocals Stream keysChain zero bits message).trans
      exact answer_runs_keys isMessage unpacked last _ framed
        (fun entry isEntry isType => (entries entry isEntry isType).1) returnsRun noDot isKeysEnd
    · have lookups := perm_lookups isMessage unpacked last _ framed entries returnsRun
        (fun entry isEntry isType noValue => (answer_missingValue_iff notEnum chain.emits ends).mpr
          fun isLast => Classical.byContradiction fun notMessage =>
            valued isLast notMessage entry isEntry isType noValue)
        (host.uninitialised.wantedKey 2)
      rcases lookups with ⟨found, isFound, nothing, perm⟩
      refine ⟨rows, found, isRows, fun key isSpellable => ?_, nothing, perm⟩
      rcases lookups key isSpellable with ⟨_, _, sameParts, lookup, _⟩
      cases sameParts
      apply (Host.answer_withLocals Stream lookup zero bits message).trans
      exact isFound key isSpellable.1

/-- Two entries for one key, and one for another key between them. -/
theorem mapStar_perm_keys_innerStr :
    let message : Bytea := ⟨[0x52, 8, 0x0A, 1, 0x6B, 0x12, 3, 0x0A, 1, 0x61,
      0x52, 8, 0x12, 3, 0x0A, 1, 0x62, 0x0A, 1, 0x7A,
      0x52, 8, 0x0A, 1, 0x6B, 0x12, 3, 0x0A, 1, 0x63], by decide⟩
    let path := fun key => literal "map_str2inner" ++ bracketed key ++ literal ".inner_str"
    ∃ keys : List StdString, (∀ key ∈ keys, Spellable key) ∧ ∀ bits,
      let host := testHost.withLocals bits
      host.answer ArrayStream .exampleMessage (literal "map_str2inner" ++ keysText) message =
        .ok keys ∧
      ∃ (rows : List StdString) (found : StdString → List StdString),
        host.answer ArrayStream .exampleMessage (path star) message = .ok rows ∧
        (∀ key, Spellable key →
          host.answer ArrayStream .exampleMessage (path key) message = .ok (found key)) ∧
        (∀ key ∉ keys, found key = []) ∧ (keys.dedup.flatMap found).Perm rows := by
  intro message path
  have member : TestMessage.ofMessage "map_str2inner" 10 true true .mapStr2innerEntry ∈
      testHost.descSet.pool.fields .exampleMessage := by decide +kernel
  have mapEntry : MapEntry testHost.descSet.pool
      (TestMessage.ofMessage "map_str2inner" 10 true true .mapStr2innerEntry)
      (TestMessage.single "key" 1 .string)
      (TestMessage.ofMessage "value" 2 false false .innerMessage) :=
    ⟨_, rfl, by decide +kernel, by decide +kernel⟩
  have entries : ∀ entry ∈ fieldValues 10 message.data, entry.wireType = 2 →
      DeclaredEntry .message entry.payload ∧ UnknownLast entry.payload ∧
        fieldValues 1 entry.payload ≠ [] := by decide +kernel
  have spellable : ∀ entry ∈ fieldValues 10 message.data, ∀ key ∈ keyOf entry,
      Spellable key := by
    unfold Spellable
    decide +kernel
  have returns : testHost.answer ArrayStream .exampleMessage (path star) message =
      .ok [literal "a", literal "b", literal "c"] := by decide +kernel
  exact mapStar_perm_keys ArrayStream (fun _ => ⟨rfl, rfl⟩) member (.inl rfl) rfl mapEntry rfl
    nofun (.inr ⟨literal "inner_str", rfl⟩) (by decide +kernel) entries spellable nofun returns

end

end PostgresProtobuf
