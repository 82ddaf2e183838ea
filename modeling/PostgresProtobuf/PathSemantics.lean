import PostgresProtobuf.CompiledChain

/-! # Paths on message trees

Which values of a message a well-typed path selects, and that the path is accepted. -/

namespace PostgresProtobuf

open Foundation

variable {Message : Type}

/-! ## Paths and what they select -/

inductive Step
  /-- Every occurrence of a field, or the one at an index. -/
  | occurrences (number : Int) (type : FieldType) (index : Option Nat)
  /-- The keys or the values of a map. -/
  | entries (number : Int) (wantKeys : Bool) (type : FieldType)
  /-- The values that a map with string keys holds for a key. -/
  | entry (number : Int) (key : StdString) (type : FieldType)

def valuesOf (number : Int) (fields : List WireField) : List WireValue :=
  (fields.filter fun field => field.number = number).map WireField.value

def fieldValues (number : Int) (payload : Bytes) : List WireValue :=
  valuesOf number (readFields payload).1

@[simp] theorem valuesOf_nil (number : Int) : valuesOf number [] = [] := rfl

theorem valuesOf_cons_of_eq {number : Int} {field : WireField}
    (wanted : (field.number : Int) = number) (fields : List WireField) :
    valuesOf number (field :: fields) = field.value :: valuesOf number fields := by
  simp [valuesOf, wanted]

theorem valuesOf_cons_of_ne {number : Int} {field : WireField}
    (foreign : (field.number : Int) ≠ number) (fields : List WireField) :
    valuesOf number (field :: fields) = valuesOf number fields := by
  simp [valuesOf, foreign]

theorem mem_valuesOf {number : Int} {fields : List WireField} {value : WireValue} :
    value ∈ valuesOf number fields ↔
      ∃ field ∈ fields, (field.number : Int) = number ∧ field.value = value := by
  simp [valuesOf, and_assoc]

theorem valuesOf_append (number : Int) (front back : List WireField) :
    valuesOf number (front ++ back) = valuesOf number front ++ valuesOf number back := by
  rw [valuesOf, List.filter_append, List.map_append]
  rfl

theorem valuesOf_eq_nil {number : Int} {fields : List WireField}
    (none : ∀ field ∈ fields, (field.number : Int) ≠ number) : valuesOf number fields = [] := by
  rw [valuesOf, List.map_eq_nil_iff, List.filter_eq_nil_iff]
  intro field member isNumber
  exact none field member (of_decide_eq_true isNumber)

namespace Step

def entryNumber (wantKeys : Bool) : Int := if wantKeys then 1 else 2

def hasKey (key : StdString) (entry : WireValue) : Bool :=
  (fieldValues 1 entry.payload).any fun value => value.payload = key

def select (step : Step) (payload : Bytes) : List WireValue :=
  match step with
  | occurrences number _ none => fieldValues number payload
  | occurrences number _ (some index) => (fieldValues number payload)[index]?.toList
  | entries number wantKeys _ =>
      (fieldValues number payload).flatMap fun entry =>
        fieldValues (entryNumber wantKeys) entry.payload
  | entry number key _ =>
      ((fieldValues number payload).filter (hasKey key)).flatMap fun entry =>
        fieldValues 2 entry.payload

end Step

/-- The values that a path selects below a value. -/
def evaluate : List Step → WireValue → List WireValue
  | [], value => [value]
  | step :: steps, value => (step.select value.payload).flatMap (evaluate steps)

inductive Target (Message : Type)
  | message (desc : Message)
  | enum (descriptor : EnumDescriptor)
  | scalar (type : FieldType)

namespace Target

def rendering (pool : DescriptorPool Message) (utils : PostgresUtils)
    (binaryToJsonString : StdString → Bytes → Option StdString) (target : Target Message)
    (value : WireValue) : Option StdString :=
  match target with
  | message desc => binaryToJsonString (typeUrl pool desc) value.payload
  | enum descriptor => some (EmitterKind.enumRow descriptor (value.union 0))
  | scalar .string => some value.payload
  | scalar .bytes => some (EmitterKind.bytesRow value.payload)
  | scalar type => (EmitterKind.primitiveRow utils type (value.union 0)).toOption

def Converts (pool : DescriptorPool Message)
    (binaryToJsonString : StdString → Bytes → Option StdString) (target : Target Message)
    (selected : WireValue) : Prop :=
  match target with
  | message desc => (binaryToJsonString (typeUrl pool desc) selected.payload).isSome = true
  | _ => True

def Leaves (target : Target Message) (descPtrs : DescPtrs Message) : Prop :=
  match target with
  | message desc => descPtrs.type = .message ∧ descPtrs.desc = some desc
  | enum descriptor => descPtrs.type = .enum ∧ descPtrs.enumDesc = some descriptor
  | scalar type => type ≠ .message ∧ type ≠ .enum ∧ descPtrs.type = type

end Target

/-! ## Well-typed paths -/

def FieldDescriptor.Yields (field : FieldDescriptor Message) (target : Target Message) :
    Prop :=
  match target with
  | .message desc => field.type = .message ∧ field.messageType = some desc
  | .enum descriptor => field.type = .enum ∧ field.enumType = some descriptor
  | .scalar type => type ≠ .message ∧ type ≠ .enum ∧ field.type = type

inductive TypedPart (pool : DescriptorPool Message) (desc : Message) (text : StdString) :
    Step → Target Message → Prop
  | single {field : FieldDescriptor Message} {target : Target Message}
      (found : findField pool desc text = .ok field) (notRepeated : field.isRepeated = false)
      (bare : selectorText text = []) (yields : field.Yields target) :
      TypedPart pool desc text (.occurrences field.number field.type none) target
  | every {field : FieldDescriptor Message} {target : Target Message}
      (found : findField pool desc text = .ok field) (isRepeated : field.isRepeated = true)
      (notMap : field.isMap = false) (lengthDelimited : field.type.wireType = 2)
      (selects : selectorText text = bracketed star) (yields : field.Yields target) :
      TypedPart pool desc text (.occurrences field.number field.type none) target
  | index {field : FieldDescriptor Message} {target : Target Message} {inner : StdString}
      {index : Nat} (found : findField pool desc text = .ok field)
      (isRepeated : field.isRepeated = true) (notMap : field.isMap = false)
      (lengthDelimited : field.type.wireType = 2)
      (selects : selectorText text = bracketed inner) (nonempty : inner ≠ [])
      (parsed : parseIndex inner = .ok (some (index : Int))) (bound : index < 2 ^ 31)
      (yields : field.Yields target) :
      TypedPart pool desc text (.occurrences field.number field.type (some index)) target
  | keys {field keyField valueField : FieldDescriptor Message}
      (mapField : MapField pool desc text field keyField valueField)
      (selects : selectorText text = keysText) :
      TypedPart pool desc text (.entries field.number true keyField.type)
        (.scalar keyField.type)
  | values {field keyField valueField : FieldDescriptor Message} {target : Target Message}
      (mapField : MapField pool desc text field keyField valueField)
      (notEnum : valueField.type ≠ .enum) (selects : selectorText text = bracketed star)
      (yields : valueField.Yields target) :
      TypedPart pool desc text (.entries field.number false valueField.type) target
  | key {field keyField valueField : FieldDescriptor Message} {target : Target Message}
      {key : StdString} (mapField : MapField pool desc text field keyField valueField)
      (stringKeys : keyField.type = .string) (notEnum : valueField.type ≠ .enum)
      (selects : selectorText text = bracketed key) (nonempty : key ≠ [])
      (notStar : key ≠ star) (yields : valueField.Yields target) :
      TypedPart pool desc text (.entry field.number key valueField.type) target

/-- The parts of a path after a message. Each part but the last selects messages. -/
inductive TypedParts (pool : DescriptorPool Message) :
    Message → List StdString → List Step → Target Message → Prop
  | last {desc : Message} {text : StdString} {step : Step} {target : Target Message}
      (nonempty : text ≠ []) (typed : TypedPart pool desc text step target) :
      TypedParts pool desc [text] [step] target
  | cons {desc next : Message} {text : StdString} {texts : List StdString} {step : Step}
      {steps : List Step} {target : Target Message} (nonempty : text ≠ [])
      (typed : TypedPart pool desc text step (.message next))
      (rest : TypedParts pool next texts steps target) :
      TypedParts pool desc (text :: texts) (step :: steps) target

inductive TypedPath (pool : DescriptorPool Message) (desc : Message) :
    StdString → List Step → Target Message → Prop
  | nil : TypedPath pool desc [] [] (.message desc)
  | parts {path : StdString} {steps : List Step} {target : Target Message}
      (nonempty : path ≠ [])
      (typed : TypedParts pool desc (path.splitOn '.'.toUInt8) steps target) :
      TypedPath pool desc path steps target

/-! ## Messages that conform to a path -/

def WholeMessage (value : WireValue) : Prop :=
  value = .ofPayload value.payload ∧ WellFramed value.payload

/-- An entry with exactly one key field and one value field of the given wire types, and
any other fields anywhere. -/
structure IsEntry (keyType valueType : Nat) (entry : WireValue) : Prop where
  whole : WholeMessage entry
  key : ∃ key, fieldValues 1 entry.payload = [key] ∧ key.wireType = keyType
  value : ∃ value, fieldValues 2 entry.payload = [value] ∧ value.wireType = valueType

/-- The messages on the path are well framed, its fields have the wire types of their
declared types, and at most `depth` messages are nested in each other. -/
def Conforms : List Step → (depth : Nat) → WireValue → Prop
  | [], _, _ => True
  | _ :: _, 0, _ => False
  | .occurrences number type index :: steps, depth + 1, value =>
      WholeMessage value ∧
        (∀ occurrence ∈ fieldValues number value.payload,
          occurrence.wireType = type.wireType) ∧
        ∀ occurrence ∈ (Step.occurrences number type index).select value.payload,
          Conforms steps depth occurrence
  | .entries number wantKeys type :: steps, depth + 1, value =>
      WholeMessage value ∧ 0 < depth ∧
        ∀ entry ∈ fieldValues number value.payload,
          WholeMessage entry ∧
            ∀ wanted ∈ fieldValues (Step.entryNumber wantKeys) entry.payload,
              wanted.wireType = type.wireType ∧ Conforms steps (depth - 1) wanted
  | .entry number key type :: steps, depth + 1, value =>
      WholeMessage value ∧ 0 < depth ∧
        ∀ entry ∈ fieldValues number value.payload,
          IsEntry 2 type.wireType entry ∧
            (Step.hasKey key entry = true →
              ∀ wanted ∈ fieldValues 2 entry.payload, Conforms steps (depth - 1) wanted)

/-! ## Unknown fields of entries -/

/-- From the first unknown field of the entry on there is neither key nor value, and no
length-delimited field. -/
def UnknownLast (payload : Bytes) : Prop :=
  ∀ field ∈ (readFields payload).1.dropWhile fun field => field.number = 1 ∨ field.number = 2,
    field.number ≠ 1 ∧ field.number ≠ 2 ∧ field.value.wireType ≠ 2

instance (payload : Bytes) : Decidable (UnknownLast payload) := by
  unfold UnknownLast
  infer_instance

theorem UnknownLast.split {payload : Bytes} (unknownLast : UnknownLast payload) :
    ∃ known unknown, (readFields payload).1 = known ++ unknown ∧
      (∀ field ∈ known, field.number = 1 ∨ field.number = 2) ∧
      ∀ field ∈ unknown, field.number ≠ 1 ∧ field.number ≠ 2 ∧ field.value.wireType ≠ 2 := by
  refine ⟨_, _, List.takeWhile_append_dropWhile.symm, ?_, unknownLast⟩
  intro field member
  simpa using List.mem_takeWhile_imp member

theorem eq_map_valuesOf {number : Nat} {fields : List WireField}
    (all : ∀ field ∈ fields, field.number = number) :
    fields = (valuesOf number fields).map (WireField.mk number) := by
  induction fields with
  | nil => rfl
  | cons field fields induction =>
      have isNumber : field.number = number := all field List.mem_cons_self
      rw [valuesOf_cons_of_eq (congrArg Nat.cast isNumber), List.map_cons,
        ← induction fun other member => all other (List.mem_cons_of_mem _ member), ← isNumber]

theorem eq_pair_of_valuesOf {known : List WireField} {key value : WireValue}
    (isKnown : ∀ field ∈ known, field.number = 1 ∨ field.number = 2)
    (keys : valuesOf 1 known = [key]) (values : valuesOf 2 known = [value]) :
    known = [⟨1, key⟩, ⟨2, value⟩] ∨ known = [⟨2, value⟩, ⟨1, key⟩] := by
  have others : ∀ {number other : Nat} {rest : List WireField},
      (∀ field ∈ rest, field.number = number ∨ field.number = other) →
      valuesOf number rest = [] → ∀ field ∈ rest, field.number = other := by
    intro number other rest either none field member
    rcases either field member with isNumber | isOther
    · have found : field.value ∈ valuesOf number rest :=
        mem_valuesOf.mpr ⟨field, member, congrArg Nat.cast isNumber, rfl⟩
      rw [none] at found
      cases found
    · exact isOther
  cases known with
  | nil => cases keys
  | cons field rest =>
      rcases field with ⟨number, found⟩
      have either : ∀ field ∈ rest, field.number = 1 ∨ field.number = 2 :=
        fun field member => isKnown field (List.mem_cons_of_mem _ member)
      rcases isKnown _ List.mem_cons_self with isKey | isValue
      · obtain rfl : number = 1 := isKey
        rw [@valuesOf_cons_of_eq 1 ⟨1, found⟩ rfl, List.cons.injEq] at keys
        rw [@valuesOf_cons_of_ne 2 ⟨1, found⟩ (by simp)] at values
        have second := eq_map_valuesOf (others either keys.2)
        have isRest : rest = [⟨2, value⟩] := second.trans (congrArg _ values)
        exact .inl (by rw [isRest, ← keys.1])
      · obtain rfl : number = 2 := isValue
        rw [@valuesOf_cons_of_ne 1 ⟨2, found⟩ (by simp)] at keys
        rw [@valuesOf_cons_of_eq 2 ⟨2, found⟩ rfl, List.cons.injEq] at values
        have second := eq_map_valuesOf
          (others (fun field member => (either field member).symm) values.2)
        have isRest : rest = [⟨1, key⟩] := second.trans (congrArg _ keys)
        exact .inr (by rw [isRest, ← values.1])

theorem IsEntry.split {keyType valueType : Nat} {entry : WireValue}
    (isEntry : IsEntry keyType valueType entry) (unknownLast : UnknownLast entry.payload) :
    ∃ key value unknown, fieldValues 1 entry.payload = [key] ∧ key.wireType = keyType ∧
      fieldValues 2 entry.payload = [value] ∧
      ((readFields entry.payload).1 = [⟨1, key⟩, ⟨2, value⟩] ++ unknown ∨
        (readFields entry.payload).1 = [⟨2, value⟩, ⟨1, key⟩] ++ unknown) ∧
      ∀ field ∈ unknown,
        field.number ≠ 1 ∧ field.number ≠ 2 ∧ field.value.wireType ≠ 2 := by
  rcases isEntry.key with ⟨key, keys, isKeyType⟩
  rcases isEntry.value with ⟨value, values, _⟩
  rcases unknownLast.split with ⟨known, unknown, split, isKnown, areUnknown⟩
  have ofKnown : ∀ number, number = 1 ∨ number = 2 →
      fieldValues number entry.payload = valuesOf number known := by
    intro number isNumber
    have none : valuesOf number unknown = [] := by
      apply valuesOf_eq_nil
      intro field member
      rcases areUnknown field member with ⟨notKey, notValue, _⟩
      omega
    rw [fieldValues, split, valuesOf_append, none, List.append_nil]
  have orders := eq_pair_of_valuesOf isKnown ((ofKnown 1 (.inl rfl)).symm.trans keys)
    ((ofKnown 2 (.inr rfl)).symm.trans values)
  refine ⟨key, value, unknown, keys, isKeyType, values, ?_, areUnknown⟩
  rcases orders with rfl | rfl
  · exact .inl split
  · exact .inr split

namespace Step

def UnknownLast (payload : Bytes) : Step → Prop
  | entry number _ _ =>
      ∀ entry ∈ fieldValues number payload, PostgresProtobuf.UnknownLast entry.payload
  | _ => True

end Step

instance (payload : Bytes) : (step : Step) → Decidable (step.UnknownLast payload)
  | .occurrences .. => .isTrue trivial
  | .entries .. => .isTrue trivial
  | .entry number _ _ => inferInstanceAs
      (Decidable (∀ entry ∈ fieldValues number payload, UnknownLast entry.payload))

/-- The same for every step of a path, below what the steps before it select. -/
def UnknownLastAlong : List Step → WireValue → Prop
  | [], _ => True
  | step :: steps, value =>
      step.UnknownLast value.payload ∧
        ∀ selected ∈ step.select value.payload, UnknownLastAlong steps selected

instance decidableUnknownLastAlong :
    (steps : List Step) → (value : WireValue) → Decidable (UnknownLastAlong steps value)
  | [], _ => .isTrue trivial
  | _ :: steps, _ =>
      have := decidableUnknownLastAlong steps
      inferInstanceAs (Decidable (_ ∧ ∀ selected ∈ _, UnknownLastAlong steps selected))

/-! ## Compiling well-typed paths -/

namespace Step

def part (bits : UInt64) : Step → ChainPart
  | occurrences number type index =>
      { wantedField := number
        type := type
        isPacked := false
        wantedIndex := index.map Int.ofNat
        map := .none
        map_type := fun isMap => absurd rfl isMap }
  | entries number wantKeys type =>
      { wantedField := number
        type := .message
        isPacked := false
        wantedIndex := none
        map := .entries wantKeys type
        map_type := fun _ => rfl }
  | entry number key type =>
      { wantedField := number
        type := .message
        isPacked := false
        wantedIndex := none
        map := .lookup .string ⟨1, 2, FieldInfo.Value.setSize ⟨bits⟩ key.length⟩ key type
        map_type := fun _ => rfl }

def parts (uninitialised : Uninitialised) : (position : Nat) → List Step → List ChainPart
  | _, [] => []
  | position, step :: steps =>
      let part := step.part (uninitialised.wantedKey (position + 2))
      part :: parts uninitialised (position + 2 + Setting.mapWidth part.map) steps

def type : Step → FieldType
  | occurrences _ type _ => type
  | entries _ _ type => type
  | entry _ _ type => type

end Step

namespace Target

def kind (pool : DescriptorPool Message) : Target Message → EmitterKind
  | message desc => .message (typeUrl pool desc)
  | enum descriptor => .enum descriptor
  | scalar type => .primitive type

def HasType (target : Target Message) (type : FieldType) : Prop :=
  match target with
  | message _ => type = .message
  | enum _ => type = .enum
  | scalar wanted => wanted = type ∧ type ≠ .message ∧ type ≠ .enum

theorem Leaves.create {target : Target Message} {descPtrs : DescPtrs Message}
    (leaves : target.Leaves descPtrs) (pool : DescriptorPool Message) :
    Emitter.create pool descPtrs none = .ok (.new (target.kind pool) none) := by
  cases target with
  | message desc => exact Emitter.create_message leaves.1 leaves.2
  | enum descriptor => simp only [Emitter.create, leaves.1, leaves.2, kind]
  | scalar type =>
      rcases leaves with ⟨notMessage, notEnum, isType⟩
      unfold Emitter.create
      rw [isType]
      cases type <;> first | rfl | contradiction

end Target

section

variable {field : FieldDescriptor Message} {target : Target Message}

theorem FieldDescriptor.Yields.hasType (yields : field.Yields target) :
    target.HasType field.type := by
  cases target with
  | message desc => exact yields.1
  | enum descriptor => exact yields.1
  | scalar type => exact ⟨yields.2.2.symm, yields.2.2 ▸ yields.1, yields.2.2 ▸ yields.2.1⟩

theorem FieldDescriptor.Yields.leaves (yields : field.Yields target) :
    target.Leaves field.descPtrs := by
  cases target with
  | message desc => exact ⟨yields.1, by simp [descPtrs, yields.1, yields.2]⟩
  | enum descriptor => exact ⟨yields.1, by simp [descPtrs, yields.1, yields.2]⟩
  | scalar type => exact yields

theorem FieldDescriptor.Yields.leaves_ofValues {valueField : FieldDescriptor Message}
    (yields : valueField.Yields target) (notEnum : valueField.type ≠ .enum)
    (descPtrs : DescPtrs Message) : target.Leaves (descPtrs.ofValues valueField) := by
  cases target with
  | message desc => exact ⟨yields.1, by simp [DescPtrs.ofValues, yields.1, yields.2]⟩
  | enum descriptor => exact absurd yields.1 notEnum
  | scalar type => exact yields

end

section

variable {pool : DescriptorPool Message} {desc : Message} {text : StdString} {step : Step}
variable {target : Target Message}

theorem FieldType.MapKey.ne {type : FieldType} (mapKey : type.MapKey) :
    type ≠ .message ∧ type ≠ .enum := by
  constructor <;> (rintro rfl; exact mapKey)

theorem TypedPart.hasType (typed : TypedPart pool desc text step target) :
    target.HasType step.type := by
  cases typed with
  | single _ _ _ yields => exact yields.hasType
  | every _ _ _ _ _ yields => exact yields.hasType
  | index _ _ _ _ _ _ _ _ yields => exact yields.hasType
  | keys mapField _ => exact ⟨rfl, mapField.keyType.ne⟩
  | values _ _ _ yields => exact yields.hasType
  | key _ _ _ _ _ _ yields => exact yields.hasType

theorem isPacked_of_wireType {field : FieldDescriptor Message}
    (found : findField pool desc text = .ok field) (lengthDelimited : field.type.wireType = 2) :
    field.isPacked = false := by
  have valid := pool.field_valid desc field (findField_mem found)
  cases packed : field.isPacked with
  | false => rfl
  | true =>
      have packable := (valid.packed packed).2
      unfold FieldType.Packable at packable
      omega

theorem MapField.ofMap_eq {field keyField valueField : FieldDescriptor Message}
    (mapField : MapField pool desc text field keyField valueField) (map : MapPart)
    (map_type : map ≠ .none → FieldType.message = .message) :
    ChainPart.ofMap field mapField.isMessage map =
      ⟨field.number, .message, false, none, map, map_type⟩ := by
  have isPacked := isPacked_of_wireType mapField.found (by rw [mapField.isMessage]; rfl)
  simp only [ChainPart.ofMap, isPacked, mapField.isMessage]

theorem TypedPart.compiles (typed : TypedPart pool desc text step target)
    (uninitialised : Uninitialised) (position : Nat) :
    ∃ next, PartCompiles uninitialised pool position desc text
        (step.part (uninitialised.wantedKey (position + 1))) next ∧
      target.Leaves next := by
  cases typed with
  | @single field _ found notRepeated bare yields =>
      have valid := pool.field_valid desc field (findField_mem found)
      have isPacked : field.isPacked = false := by
        cases packed : field.isPacked with
        | false => rfl
        | true => rw [(valid.packed packed).1] at notRepeated; contradiction
      have compiles : PartCompiles uninitialised pool position desc text
          (.plain field none) field.descPtrs := .single found notRepeated bare
      rw [ChainPart.plain, isPacked] at compiles
      exact ⟨_, compiles, yields.leaves⟩
  | @every field _ found isRepeated notMap lengthDelimited selects yields =>
      have compiles : PartCompiles uninitialised pool position desc text
          (.plain field none) field.descPtrs :=
        .element found isRepeated notMap selects (by decide) rfl
      rw [ChainPart.plain, isPacked_of_wireType found lengthDelimited] at compiles
      exact ⟨_, compiles, yields.leaves⟩
  | @index field _ _ index found isRepeated notMap lengthDelimited selects nonempty parsed _
      yields =>
      have compiles : PartCompiles uninitialised pool position desc text
          (.plain field (some index)) field.descPtrs :=
        .element found isRepeated notMap selects nonempty parsed
      rw [ChainPart.plain, isPacked_of_wireType found lengthDelimited] at compiles
      exact ⟨_, compiles, yields.leaves⟩
  | @keys field keyField _ mapField selects =>
      have compiles : PartCompiles uninitialised pool position desc text
          (.ofMap field mapField.isMessage (.entries true keyField.type))
          { field.descPtrs with type := keyField.type } := .keys mapField selects
      rw [mapField.ofMap_eq _ fun _ => rfl] at compiles
      exact ⟨_, compiles, mapField.keyType.ne.1, mapField.keyType.ne.2, rfl⟩
  | @values field _ valueField _ mapField notEnum selects yields =>
      have compiles : PartCompiles uninitialised pool position desc text
          (.ofMap field mapField.isMessage (.entries false valueField.type))
          (field.descPtrs.ofValues valueField) := .values mapField selects
      rw [mapField.ofMap_eq _ fun _ => rfl] at compiles
      exact ⟨_, compiles, yields.leaves_ofValues notEnum _⟩
  | @key field keyField valueField _ key mapField stringKeys notEnum selects nonempty notStar
      yields =>
      have parsed : parseMapKey key keyField.type
          (uninitialised.wantedKey (position + 1)) =
          .ok (⟨1, 2, FieldInfo.Value.setSize ⟨uninitialised.wantedKey (position + 1)⟩
            key.length⟩, key) := by
        rw [stringKeys]
        rfl
      have compiles := PartCompiles.lookup mapField selects nonempty notStar parsed
      rw [mapField.ofMap_eq _ fun _ => rfl, stringKeys] at compiles
      exact ⟨_, compiles, yields.leaves_ofValues notEnum _⟩

theorem TypedParts.compiles {texts : List StdString} {steps : List Step}
    (typed : TypedParts pool desc texts steps target) (uninitialised : Uninitialised)
    (position : Nat) {descPtrs : DescPtrs Message} (hasDesc : descPtrs.desc = some desc) :
    ∃ final, PathCompiles uninitialised pool position descPtrs texts
        (Step.parts uninitialised position steps) false final ∧
      target.Leaves final := by
  induction typed generalizing position descPtrs with
  | last nonempty typed =>
      rcases typed.compiles uninitialised (position + 1) with ⟨next, compiles, leaves⟩
      exact ⟨next, .last hasDesc nonempty compiles, leaves⟩
  | cons nonempty typed _ induction =>
      rcases typed.compiles uninitialised (position + 1) with ⟨next, compiles, leaves⟩
      rcases induction (position + 2 + Setting.mapWidth _) leaves.2 with
        ⟨final, restCompiles, restLeaves⟩
      exact ⟨final, .cons hasDesc nonempty compiles restCompiles, restLeaves⟩

/-- A well-typed path compiles, whatever the unwritten memory holds. -/
theorem TypedPath.compiles {path : StdString} {steps : List Step}
    (typed : TypedPath pool desc path steps target) (uninitialised : Uninitialised) :
    ∃ last final, last.trailingDot = false ∧ last.kind = target.kind pool ∧
      ChainCompiles uninitialised pool desc path (Step.parts uninitialised 0 steps) last
        final := by
  cases typed with
  | nil =>
      exact ⟨⟨false, .message (typeUrl pool desc), nofun⟩, rootPtrs desc, rfl, rfl,
        .inl ⟨rfl, rfl, rfl, rfl⟩, Emitter.create_message rfl rfl⟩
  | parts nonempty typed =>
      rcases typed.compiles uninitialised 0 (rfl : (rootPtrs desc).desc = some desc) with
        ⟨final, compiles, leaves⟩
      have created := leaves.create pool
      exact ⟨⟨false, target.kind pool, (Emitter.create_eq_ok created).2.1⟩, final, rfl, rfl,
        .inr ⟨nonempty, compiles⟩, created⟩

end

end PostgresProtobuf
