import PostgresProtobuf.QueryPrefixes
import PostgresProtobuf.PathGrammar
import PostgresProtobuf.MapKeys

/-! # Writing paths

Abstract paths, the texts that they are written as, and the chains that they stand for. -/

namespace PostgresProtobuf

open Foundation

variable {Message : Type}

/-! ## Abstract paths -/

inductive PartSelector (Message : Type)
  | single
  | index (index : Nat)
  | elements
  | keys (keyField : FieldDescriptor Message)
  | values (valueField : FieldDescriptor Message)
  | value (keyField valueField : FieldDescriptor Message) (key : KeyValue)

structure AbstractPart (Message : Type) where
  field : FieldDescriptor Message
  byNumber : Bool
  selector : PartSelector Message

section

variable (pool : DescriptorPool Message)

inductive SelectorTyped (field : FieldDescriptor Message) :
    PartSelector Message → FieldDescriptor Message → Prop
  | single (notRepeated : field.isRepeated = false) : SelectorTyped field .single field
  | index {index : Nat} (isRepeated : field.isRepeated = true) (notMap : field.isMap = false)
      (bound : index < 2 ^ 31) : SelectorTyped field (.index index) field
  | elements (isRepeated : field.isRepeated = true) (notMap : field.isMap = false) :
      SelectorTyped field .elements field
  | keys {keyField valueField : FieldDescriptor Message} (isMap : field.isMap = true)
      (mapEntry : MapEntry pool field keyField valueField) :
      SelectorTyped field (.keys keyField) keyField
  | values {keyField valueField : FieldDescriptor Message} (isMap : field.isMap = true)
      (mapEntry : MapEntry pool field keyField valueField)
      (notEnum : valueField.type ≠ .enum) : SelectorTyped field (.values valueField) valueField
  | value {keyField valueField : FieldDescriptor Message} {key : KeyValue}
      (isMap : field.isMap = true) (mapEntry : MapEntry pool field keyField valueField)
      (notEnum : valueField.type ≠ .enum) (ofType : key.OfType keyField.type)
      (nonempty : key ≠ .string []) (notStar : key ≠ .string star) :
      SelectorTyped field (.value keyField valueField key) valueField

/-- Parts after a message. Each part but the last selects messages. -/
inductive PartsTyped : Message → List (AbstractPart Message) → Target Message → Prop
  | last {desc : Message} {part : AbstractPart Message} {selected : FieldDescriptor Message}
      {target : Target Message} (member : part.field ∈ pool.fields desc)
      (typed : SelectorTyped pool part.field part.selector selected)
      (yields : selected.Yields target) : PartsTyped desc [part] target
  | cons {desc next : Message} {part : AbstractPart Message}
      {parts : List (AbstractPart Message)} {selected : FieldDescriptor Message}
      {target : Target Message} (member : part.field ∈ pool.fields desc)
      (typed : SelectorTyped pool part.field part.selector selected)
      (yields : selected.Yields (.message next)) (rest : PartsTyped next parts target) :
      PartsTyped desc (part :: parts) target

inductive PathTyped (desc : Message) : List (AbstractPart Message) → Target Message → Prop
  | nil : PathTyped desc [] (.message desc)
  | parts {parts : List (AbstractPart Message)} {target : Target Message}
      (typed : PartsTyped pool desc parts target) : PathTyped desc parts target

end

/-! ## Texts -/

def PartSelector.text : PartSelector Message → StdString
  | single => []
  | index wanted => bracketed (unsignedToString wanted)
  | elements => bracketed star
  | keys _ => keysText
  | values _ => bracketed star
  | value _ _ key => bracketed key.text

def PartSelector.keyContents : PartSelector Message → StdString
  | value _ _ key => key.contents
  | _ => []

namespace AbstractPart

def reference (part : AbstractPart Message) : StdString :=
  if part.byNumber then unsignedToString part.field.number.toNat else part.field.name

def text (part : AbstractPart Message) : StdString := part.reference ++ part.selector.text

end AbstractPart

def pathText (parts : List (AbstractPart Message)) : StdString :=
  ['.'.toUInt8].intercalate (parts.map AbstractPart.text)

/-! ## Chains -/

section

variable (uninitialised : Uninitialised)

def PartSelector.mapVisitors (position : Nat) : PartSelector Message → List ChainVisitor
  | keys keyField => [.allMapEntries (.new true keyField.type)]
  | values valueField => [.allMapEntries (.new false valueField.type)]
  | value keyField valueField key =>
      [.mapFilter (.new
        ⟨1, keyField.type.wireType,
          key.written keyField.type ⟨uninitialised.wantedKey position⟩⟩
        key.contents valueField.type (uninitialised.bufferedKeyField position)
        (uninitialised.bufferedValueField position))]
  | _ => []

def AbstractPart.fieldSelector (part : AbstractPart Message) : FieldSelector :=
  let selector := FieldSelector.new part.field.number part.field.type part.field.isPacked
  match part.selector with
  | .index wanted => selector.setWantedIndex wanted
  | _ => selector

def abstractVisitors : (position : Nat) → List (AbstractPart Message) → List ChainVisitor
  | _, [] => []
  | position, part :: parts =>
      let map := part.selector.mapVisitors uninitialised (position + 2)
      .descendIntoSubmessage :: .fieldSelector part.fieldSelector ::
        (map ++ abstractVisitors (position + 2 + map.length) parts)

def abstractChain (pool : DescriptorPool Message) (parts : List (AbstractPart Message))
    (target : Target Message) : List ChainVisitor :=
  abstractVisitors uninitialised 0 parts ++ [.emitter (.new (target.kind pool) none)]

end

/-! ## Compiling what was written -/

section

variable {uninitialised : Uninitialised} {pool : DescriptorPool Message} {position : Nat}
variable {desc : Message} {field selected : FieldDescriptor Message}
variable {part : AbstractPart Message} {parts : List (AbstractPart Message)}
variable {target : Target Message}

theorem AbstractPart.namedBy (valid : part.field.Valid) :
    part.field.NamedBy part.reference := by
  unfold AbstractPart.reference
  split
  · rcases unsignedToString_digits part.field.number.toNat with ⟨digits, denotes⟩
    have positive := valid.number_pos
    exact .inr ⟨unsignedToString_ne_nil _, digits, by omega⟩
  · exact .inl rfl

theorem PartSelector.starts (selector : PartSelector Message) :
    StartsSelector selector.text := by
  cases selector with
  | single => exact .inl rfl
  | keys keyField => exact .inr ⟨_, .inr rfl⟩
  | _ => exact startsSelector_bracketed _

theorem parseIndex_unsignedToString {index : Nat} (bound : index < 2 ^ 31) :
    parseIndex (unsignedToString index) = .ok (some (index : Int)) := by
  have denotes := denotesInteger_unsignedToString index
  rw [parseIndex_of_denotes denotes, if_pos (by omega), toInt_of_lt bound]

theorem SelectorTyped.compiles (uninitialised : Uninitialised) (position : Nat)
    (member : part.field ∈ pool.fields desc)
    (typed : SelectorTyped pool part.field part.selector selected) :
    ∃ chainPart next,
      PartCompiles uninitialised pool position desc part.text chainPart next ∧
      chainPart.visitors uninitialised position = .fieldSelector part.fieldSelector ::
        part.selector.mapVisitors uninitialised (position + 1) ∧
      ∀ target, selected.Yields target → target.Leaves next := by
  have valid := pool.field_valid desc part.field member
  have named := AbstractPart.namedBy valid
  have found := findField_append member named part.selector.starts
  have selects := selectorText_append named valid part.selector.starts
  rcases part with ⟨field, byNumber, selector⟩
  cases typed with
  | single notRepeated =>
      exact ⟨_, _, .single found notRepeated selects, rfl, fun _ yields => yields.leaves⟩
  | index isRepeated notMap bound =>
      exact ⟨_, _, .element found isRepeated notMap selects (unsignedToString_ne_nil _)
        (parseIndex_unsignedToString bound), rfl, fun _ yields => yields.leaves⟩
  | elements isRepeated notMap =>
      exact ⟨_, _, .element found isRepeated notMap selects (by decide) rfl, rfl,
        fun _ yields => yields.leaves⟩
  | keys isMap mapEntry =>
      have whole := mapEntry.mapField found isMap
      refine ⟨_, _, .keys whole selects, rfl, fun target yields => ?_⟩
      cases target with
      | message desc => exact absurd yields.1 whole.keyType.ne.1
      | enum descriptor => exact absurd yields.1 whole.keyType.ne.2
      | scalar type => exact yields
  | values isMap mapEntry notEnum =>
      exact ⟨_, _, .values (mapEntry.mapField found isMap) selects, rfl,
        fun _ yields => yields.leaves_ofValues notEnum _⟩
  | value isMap mapEntry notEnum ofType nonempty notStar =>
      exact ⟨_, _, .lookup (mapEntry.mapField found isMap) selects
        (KeyValue.text_ne_nil nonempty) (KeyValue.text_ne_star ofType notStar)
        (parseMapKey_text ofType _), rfl, fun _ yields => yields.leaves_ofValues notEnum _⟩

/-- Written parts compile to their visitors, by induction on the parts. -/
theorem PartsTyped.compiles (uninitialised : Uninitialised) (position : Nat)
    (typed : PartsTyped pool desc parts target)
    {descPtrs : DescPtrs Message} (hasDesc : descPtrs.desc = some desc) :
    ∃ chainParts final,
      PathCompiles uninitialised pool position descPtrs (parts.map AbstractPart.text)
        chainParts false final ∧
      partsVisitors uninitialised position chainParts =
        abstractVisitors uninitialised position parts ∧
      target.Leaves final := by
  have nonempty : ∀ {desc : Message} {part : AbstractPart Message},
      part.field ∈ pool.fields desc → part.text ≠ [] := by
    intro desc part member isEmpty
    have valid := pool.field_valid desc part.field member
    exact (AbstractPart.namedBy valid).nonempty valid (List.append_eq_nil_iff.mp isEmpty).1
  have width : ∀ {chainPart : ChainPart} {position : Nat} {part : AbstractPart Message},
      chainPart.visitors uninitialised position = .fieldSelector part.fieldSelector ::
        part.selector.mapVisitors uninitialised (position + 1) →
      Setting.mapWidth chainPart.map =
        (part.selector.mapVisitors uninitialised (position + 1)).length := by
    intro chainPart position part visitors
    have lengths := congrArg List.length visitors
    rw [ChainPart.length_visitors, List.length_cons] at lengths
    omega
  induction typed generalizing position descPtrs with
  | last member typed yields =>
      rcases typed.compiles uninitialised (position + 1) member with
        ⟨chainPart, next, compiles, visitors, leaves⟩
      refine ⟨[chainPart], next, .last hasDesc (nonempty member) compiles, ?_,
        leaves _ yields⟩
      simp [partsVisitors, abstractVisitors, visitors]
  | cons member typed yields rest induction =>
      rcases typed.compiles uninitialised (position + 1) member with
        ⟨chainPart, next, compiles, visitors, leaves⟩
      rcases induction _ (leaves _ yields).2 with ⟨chainParts, final, restCompiles, others, ends⟩
      refine ⟨chainPart :: chainParts, final,
        .cons hasDesc (nonempty member) compiles restCompiles, ?_, ends⟩
      rw [partsVisitors, abstractVisitors, others, visitors, width visitors]
      simp

/-! ## Dots -/

theorem count_dot_text (member : part.field ∈ pool.fields desc)
    (typed : SelectorTyped pool part.field part.selector selected) :
    part.text.count '.'.toUInt8 = part.selector.keyContents.count '.'.toUInt8 := by
  have named := AbstractPart.namedBy (pool.field_valid desc part.field member)
  have noDot := named.not_mem (pool.field_valid desc part.field member) (.inr (.inr rfl))
  have inBrackets : ∀ inner : StdString,
      (bracketed inner).count '.'.toUInt8 = inner.count '.'.toUInt8 := by
    intro inner
    rw [bracketed, List.count_cons_of_ne (by decide), List.count_append]
    rfl
  have noDotInNumber : ∀ {text : StdString} {value : Int}, DenotesInteger text value →
      text.count '.'.toUInt8 = 0 := by
    intro text value denotes
    exact List.count_eq_zero.mpr (denotes.not_mem (.inr (.inl rfl)))
  rw [AbstractPart.text, List.count_append, List.count_eq_zero.mpr noDot, Nat.zero_add]
  rcases part with ⟨field, byNumber, selector⟩
  cases typed with
  | single _ => rfl
  | @index wanted _ _ _ =>
      change (bracketed (unsignedToString wanted)).count '.'.toUInt8 = 0
      rw [inBrackets, noDotInNumber (denotesInteger_unsignedToString wanted)]
  | elements _ _ => rfl
  | keys _ _ => rfl
  | values _ _ _ => rfl
  | @value keyField valueField key _ _ _ _ _ _ =>
      change (bracketed key.text).count '.'.toUInt8 = key.contents.count '.'.toUInt8
      rw [inBrackets]
      cases key with
      | integer value => exact noDotInNumber (denotesInteger_signedToString value)
      | bool value => cases value <;> rfl
      | string value => rfl

theorem pathText_cons (part : AbstractPart Message) (parts : List (AbstractPart Message))
    (more : parts ≠ []) :
    pathText (part :: parts) = part.text ++ '.'.toUInt8 :: pathText parts := by
  rw [pathText, List.map_cons, List.intercalate_cons_of_ne_nil (by simpa using more)]
  simp [pathText]

theorem PartsTyped.nonempty (typed : PartsTyped pool desc parts target) : parts ≠ [] := by
  cases typed <;> simp

theorem PartsTyped.count_dot_part (typed : PartsTyped pool desc parts target) :
    ∀ part ∈ parts,
      part.text.count '.'.toUInt8 = part.selector.keyContents.count '.'.toUInt8 := by
  induction typed with
  | last member typed _ =>
      intro part isPart
      rw [List.mem_singleton.mp isPart]
      exact count_dot_text member typed
  | cons member typed _ _ induction =>
      exact List.forall_mem_cons.mpr ⟨count_dot_text member typed, induction⟩

theorem PartsTyped.count_dot (typed : PartsTyped pool desc parts target) :
    (pathText parts).count '.'.toUInt8 + 1 =
      parts.length + (parts.map fun part =>
        part.selector.keyContents.count '.'.toUInt8).sum := by
  induction typed with
  | last member typed _ =>
      have dots := count_dot_text member typed
      simp [pathText, dots, Nat.add_comm]
  | cons member typed _ rest induction =>
      have dots := count_dot_text member typed
      rw [pathText_cons _ _ rest.nonempty, List.count_append, List.count_cons_self, dots,
        List.length_cons, List.map_cons, List.sum_cons]
      omega

theorem count_descend_abstractVisitors (position : Nat)
    (parts : List (AbstractPart Message)) :
    (abstractVisitors uninitialised position parts).count .descendIntoSubmessage =
      parts.length := by
  induction parts generalizing position with
  | nil => rfl
  | cons part parts induction =>
      have own : (part.selector.mapVisitors uninitialised (position + 2)).count
          .descendIntoSubmessage = 0 := by
        rw [List.count_eq_zero]
        cases part.selector <;> simp [PartSelector.mapVisitors]
      rw [abstractVisitors, List.count_cons_self, List.count_cons_of_ne (by simp),
        List.count_append, own, induction, List.length_cons, Nat.zero_add]

/-! ## Reading paths back -/

def NoDotInKeys (parts : List (AbstractPart Message)) : Prop :=
  ∀ part ∈ parts, '.'.toUInt8 ∉ part.selector.keyContents

theorem sum_count_eq_zero_iff :
    (parts.map fun part => part.selector.keyContents.count '.'.toUInt8).sum = 0 ↔
      NoDotInKeys parts := by
  rw [List.sum_eq_zero_iff_forall_eq_nat, List.forall_mem_map]
  simp only [List.count_eq_zero, NoDotInKeys]

theorem PartsTyped.splitOn (typed : PartsTyped pool desc parts target)
    (noDots : NoDotInKeys parts) :
    (pathText parts).splitOn '.'.toUInt8 = parts.map AbstractPart.text := by
  apply List.splitOn_intercalate
  · intro text member
    rcases List.mem_map.mp member with ⟨part, isPart, rfl⟩
    apply List.count_eq_zero.mp
    rw [typed.count_dot_part part isPart]
    exact List.count_eq_zero.mpr (noDots part isPart)
  · simpa using typed.nonempty

theorem Target.kind_ne (target : Target Message) (descPtrs : DescPtrs Message)
    (leaves : target.Leaves descPtrs) : target.kind pool ≠ .primitive .message := by
  cases target with
  | message desc => simp [Target.kind]
  | enum descriptor => simp [Target.kind]
  | scalar type =>
      intro isMessage
      exact leaves.1 (EmitterKind.primitive.inj isMessage)

theorem PathTyped.compileFrom (uninitialised : Uninitialised) {descSet : DescSet Message}
    (typed : PathTyped descSet.pool desc parts target) (noDots : NoDotInKeys parts)
    (limit : Option Nat) :
    compileFrom descSet uninitialised desc (pathText parts) limit =
      .ok ⟨abstractChain uninitialised descSet.pool parts target,
        descSet.binaryToJsonString⟩ := by
  apply compileFrom_eq_ok_iff.mpr
  cases typed with
  | nil =>
      have leaves : (Target.message desc).Leaves (rootPtrs desc) := ⟨rfl, rfl⟩
      exact ⟨[], ⟨false, (Target.message desc).kind descSet.pool, nofun⟩, rootPtrs desc,
        ⟨.inl ⟨rfl, rfl, rfl, rfl⟩, leaves.create descSet.pool⟩, rfl⟩
  | parts typed =>
      have isRoot : (rootPtrs desc).desc = some desc := rfl
      rcases typed.compiles uninitialised 0 isRoot with
        ⟨chainParts, final, compiles, visitors, leaves⟩
      rw [← typed.splitOn noDots] at compiles
      have nonempty : pathText parts ≠ [] := by
        intro isEmpty
        rw [isEmpty] at compiles
        cases compiles with
        | last _ textNonempty _ => exact textNonempty rfl
        | cons _ textNonempty _ _ => exact textNonempty rfl
      refine ⟨chainParts, ⟨false, target.kind descSet.pool, target.kind_ne final leaves⟩, final,
        ⟨.inr ⟨nonempty, compiles⟩, leaves.create descSet.pool⟩, ?_⟩
      rw [abstractChain, chainObjects, visitors]
      rfl

theorem count_descend_abstractChain (pool : DescriptorPool Message)
    (parts : List (AbstractPart Message)) (target : Target Message) :
    (abstractChain uninitialised pool parts target).count .descendIntoSubmessage =
      parts.length := by
  rw [abstractChain, List.count_append, count_descend_abstractVisitors]
  rfl

/-- If a path that ends in a written one compiles to the chain of the written one, then
the keys have no dots, by the number of descents. -/
theorem PathTyped.noDotInKeys_of_chain {descSet otherSet : DescSet Message}
    {otherDesc : Message} (front : StdString) {limit : Option Nat}
    (typed : PathTyped descSet.pool desc parts target)
    (compiles : PostgresProtobuf.compileFrom otherSet uninitialised otherDesc
      (front ++ pathText parts) limit =
        .ok ⟨abstractChain uninitialised descSet.pool parts target,
          descSet.binaryToJsonString⟩) : NoDotInKeys parts := by
  rcases compileFrom_eq_ok_iff.mp compiles with ⟨chainParts, last, final, chain, same⟩
  have counts := congrArg (fun query : QueryImpl =>
    query.visitors.count .descendIntoSubmessage) same
  simp only [chain.count_descend, count_descend_abstractChain] at counts
  cases typed with
  | nil => exact fun part member => absurd member List.not_mem_nil
  | parts typed =>
      have dots := typed.count_dot
      have some := List.length_pos_iff.mpr typed.nonempty
      apply sum_count_eq_zero_iff.mp
      split at counts
      · omega
      · rw [List.count_append] at counts
        omega

/-- A well-typed path that is written after the name of a descriptor set and a message is
read back as its chain exactly if the name of the set has no colon and no string key of
the path has a dot. -/
theorem writtenPath_iff {descDb : DescDb Message} {set name : StdString}
    {descSet : DescSet Message} (isSet : descDb.descSets set = some descSet)
    (isMessage : descSet.pool.findMessageTypeByName name = some desc)
    (typed : PathTyped descSet.pool desc parts target) (uninitialised : Uninitialised)
    (limit : Option Nat) :
    compileQuery descDb uninitialised (prefixed set name (pathText parts)) limit =
        .ok ⟨abstractChain uninitialised descSet.pool parts target,
          descSet.binaryToJsonString⟩ ↔
      ':'.toUInt8 ∉ set ∧ NoDotInKeys parts := by
  have noColonInName : ':'.toUInt8 ∉ name := by
    rw [← descSet.pool.fullName_of_find name desc isMessage]
    exact descSet.pool.colon_not_mem_fullName desc
  constructor
  · intro compiles
    by_cases colon : ':'.toUInt8 ∈ set
    · rcases List.eq_append_cons_of_mem colon with ⟨front, back, split, noColonInFront⟩
      have more : ':'.toUInt8 ∈ back ++ ':'.toUInt8 :: name :=
        List.mem_append_right _ List.mem_cons_self
      rcases List.eq_append_cons_of_mem more with ⟨other, rest, otherSplit, noColonInOther⟩
      have reading : prefixed set name (pathText parts) =
          prefixed front other (unprefixed rest (pathText parts)) := by
        have tail := congrArg (· ++ ':'.toUInt8 :: pathText parts) otherSplit
        simp only [List.append_assoc, List.cons_append] at tail
        simp only [prefixed, unprefixed, split, List.append_assoc, List.cons_append, tail]
      rw [reading, compileQuery_prefixed noColonInFront noColonInOther] at compiles
      rcases compileIn_eq_ok_iff.mp compiles with ⟨otherSet, otherDesc, _, _, otherCompiles⟩
      have before : unprefixed rest (pathText parts) =
          (rest ++ [':'.toUInt8]) ++ pathText parts := by simp [unprefixed]
      have noDots : NoDotInKeys parts := by
        rw [before] at otherCompiles
        exact typed.noDotInKeys_of_chain _ otherCompiles
      rcases compileFrom_eq_ok_iff.mp (typed.compileFrom uninitialised noDots limit) with
        ⟨_, _, _, chain, same⟩
      rcases compileFrom_eq_ok_iff.mp otherCompiles with ⟨_, _, _, otherChain, otherSame⟩
      have equal := congrArg QueryImpl.visitors (same.symm.trans otherSame)
      exact absurd equal (chainObjects_ne_of_colon chain otherChain)
    · apply And.intro colon
      rw [compileQuery_prefixed colon noColonInName] at compiles
      rcases compileIn_eq_ok_iff.mp compiles with ⟨otherSet, otherDesc, _, _, otherCompiles⟩
      exact typed.noDotInKeys_of_chain [] otherCompiles
  · intro plain
    rw [compileQuery_prefixed plain.1 noColonInName]
    exact compileIn_eq_ok_iff.mpr
      ⟨descSet, desc, isSet, isMessage, typed.compileFrom uninitialised plain.2 limit⟩

def str2strPart (key : StdString) : AbstractPart TestMessage where
  field := TestMessage.ofMessage "map_str2str" 7 true true .mapStr2strEntry
  byNumber := false
  selector := .value (TestMessage.single "key" 1 .string) (TestMessage.single "value" 2 .string)
    (.string key)

theorem str2strPart_typed {key : StdString} (nonempty : key ≠ []) (notStar : key ≠ star) :
    PathTyped testPool .exampleMessage [str2strPart key] (.scalar .string) := by
  have member : (str2strPart key).field ∈ testPool.fields .exampleMessage :=
    List.mem_of_getElem? (i := 6) rfl
  have mapEntry : MapEntry testPool (str2strPart key).field
      (TestMessage.single "key" 1 .string) (TestMessage.single "value" 2 .string) :=
    ⟨.mapStr2strEntry, rfl, rfl, rfl⟩
  have isKey : (KeyValue.string key).OfType (TestMessage.single "key" 1 .string).type := trivial
  exact .parts (.last member
    (.value rfl mapEntry (by decide) isKey
      (fun isEmpty => nonempty (KeyValue.string.inj isEmpty))
      (fun isStar => notStar (KeyValue.string.inj isStar)))
    ⟨by decide, by decide, rfl⟩)

theorem writtenPath_iff_mapKey :
    compileQuery testDb zeroMemory
        (prefixed defaultSet (literal "pgpb.test.ExampleMessage")
          (pathText [str2strPart (literal "a")])) none =
        .ok ⟨abstractChain zeroMemory testPool [str2strPart (literal "a")] (.scalar .string),
          testSet.binaryToJsonString⟩ ↔
      ':'.toUInt8 ∉ defaultSet ∧ NoDotInKeys [str2strPart (literal "a")] :=
  writtenPath_iff (rfl : testDb.descSets defaultSet = some testSet) rfl
    (str2strPart_typed (by decide) (by decide)) zeroMemory none

/-- `map_str2str[a.b]` is taken apart at the dot of its key. -/
theorem dottedKey_rejected :
    PathTyped testPool .exampleMessage [str2strPart (literal "a.b")] (.scalar .string) ∧
      compileQuery testDb zeroMemory
        (prefixed defaultSet (literal "pgpb.test.ExampleMessage")
          (pathText [str2strPart (literal "a.b")])) none =
        .error (.badQuery (literal ("repeated field must be followed by an array/map " ++
          "selector like '[*]', or '|keys' (for maps)"))) :=
  ⟨str2strPart_typed (by decide) (by decide), rfl⟩

end

end PostgresProtobuf
