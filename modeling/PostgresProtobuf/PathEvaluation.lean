import PostgresProtobuf.Emissions
import PostgresProtobuf.TestSchema

/-! # Runs of well-typed paths

On a message that conforms to a well-typed path, a run emits what the path selects. -/

namespace PostgresProtobuf

open Foundation

variable {Message : Type}

section

variable {State : Type}

/-! ## Steps -/

namespace Step

def number : Step → Int
  | occurrences number _ _ => number
  | entries number _ _ => number
  | entry number _ _ => number

def index : Step → Option Nat
  | occurrences _ _ index => index
  | _ => none

def below (steps : List Step) (step : Step) (occurrence : WireValue) : List WireValue :=
  match step with
  | occurrences _ _ _ => evaluate steps occurrence
  | entries _ wantKeys _ =>
      (fieldValues (entryNumber wantKeys) occurrence.payload).flatMap (evaluate steps)
  | entry _ key _ =>
      if hasKey key occurrence then (fieldValues 2 occurrence.payload).flatMap (evaluate steps)
      else []

theorem select_occurrences (number : Int) (type : FieldType) (index : Option Nat)
    (payload : Bytes) :
    (occurrences number type index).select payload =
      pick index 0 (fieldValues number payload) := by
  cases index <;> simp [select, pick]

theorem evaluate_cons (step : Step) (steps : List Step) (value : WireValue) :
    evaluate (step :: steps) value =
      (pick step.index 0 (fieldValues step.number value.payload)).flatMap
        (step.below steps) := by
  cases step with
  | occurrences number type index => rw [evaluate, select_occurrences]; rfl
  | entries number wantKeys type => rw [evaluate, select, List.flatMap_assoc]; rfl
  | entry number key type =>
      rw [evaluate, select, List.flatMap_assoc]
      simp only [pick, index, Step.number]
      generalize fieldValues number value.payload = entries
      induction entries with
      | nil => rfl
      | cons entry entries induction =>
          by_cases has : hasKey key entry = true <;> simp [has, induction, below]

end Step

theorem mem_of_mem_pick {Item : Type} {index : Option Nat} {start : Nat} {values : List Item}
    {value : Item} (picked : value ∈ pick index start values) : value ∈ values := by
  cases index with
  | none => exact picked
  | some index =>
      rw [pick] at picked
      split at picked
      · exact List.mem_of_getElem? (Option.mem_toList.mp picked)
      · simp at picked

theorem IsEntry.value_wireType {keyType valueType : Nat} {entry value : WireValue}
    (isEntry : IsEntry keyType valueType entry) (member : value ∈ fieldValues 2 entry.payload) :
    value.wireType = valueType := by
  rcases isEntry.value with ⟨wanted, values, sameType⟩
  rw [values, List.mem_singleton] at member
  exact member ▸ sameType

theorem WholeMessage.fits {value : WireValue} (whole : WholeMessage value) :
    ∀ {number : Int}, ∀ occurrence ∈ fieldValues number value.payload, occurrence.Fits := by
  intro number occurrence member
  rcases mem_valuesOf.mp member with ⟨field, isField, _, rfl⟩
  exact whole.2.2 field isField

namespace Setting

variable {setting : Setting State} {render : WireValue → Option StdString}

theorem emits_level {part : ChainPart} (unpacked : part.isPacked = false)
    {index : Option Nat} (wants : part.wantedIndex = index.map Int.ofNat)
    {next : Delivery State} {value : WireValue} (whole : WholeMessage value) (budget : Nat)
    {texts : WireValue → List (Option StdString)}
    (each : ∀ occurrence ∈ pick index 0 (fieldValues part.wantedField value.payload),
      Emits (hand part.type next budget occurrence) (texts occurrence)) :
    Emits ((descend (selectField part next) 0).field (budget + 1) value)
      ((pick index 0 (fieldValues part.wantedField value.payload)).flatMap texts) := by
  rw [whole.1, WireValue.ofPayload]
  exact .scanLevel whole.2.1 (.turns_selectField unpacked wants _ 0 each)

theorem emits_allMapEntries (wantKeys : Bool) {next : Delivery State} {entry : WireValue}
    (whole : WholeMessage entry) (budget : Nat) {texts : WireValue → List (Option StdString)}
    (each : ∀ value ∈ fieldValues (Step.entryNumber wantKeys) entry.payload,
      Emits (next.field budget value) (texts value)) :
    Emits ((allMapEntries wantKeys next).field (budget + 1) entry)
      ((fieldValues (Step.entryNumber wantKeys) entry.payload).flatMap texts) := by
  rw [whole.1, WireValue.ofPayload]
  exact .scanLevel whole.2.1 (.turns_entriesField wantKeys _ each)

theorem Renders.step {Converts : WireValue → Prop} {next : Delivery State} {step : Step}
    {steps : List Step} (renders : setting.Renders render Converts next step.type steps)
    (bits : UInt64) (position : Nat) :
    setting.Renders render Converts
      (descend (selectField (step.part bits)
        (setting.mapPart position (step.part bits).map next)) 0)
      .message (step :: steps) where
  field := by
    intro depth budget enough within value _ _ conforms unknownLast converts
    rw [Step.evaluate_cons] at converts ⊢
    rw [List.map_flatMap]
    have below : ∀ occurrence ∈ pick step.index 0 (fieldValues step.number value.payload),
        ∀ selected ∈ step.below steps occurrence, Converts selected :=
      fun occurrence picked selected member =>
        converts selected (List.mem_flatMap.mpr ⟨occurrence, picked, member⟩)
    cases depth with
    | zero => cases step <;> exact conforms.elim
    | succ depth =>
        obtain ⟨budget, rfl⟩ : ∃ lower, budget = lower + 1 := ⟨budget - 1, by omega⟩
        cases step with
        | occurrences number type index =>
            rcases conforms with ⟨whole, sameType, each⟩
            rw [Step.select_occurrences] at each
            refine emits_level rfl rfl whole budget fun occurrence picked => ?_
            have member := mem_of_mem_pick picked
            have emits := renders.field (Nat.le_of_succ_le_succ enough)
              (Nat.le_of_succ_le within) (sameType _ member) (whole.fits _ member)
              (each _ picked) (unknownLast.2 _ (by rwa [Step.select_occurrences]))
              (below _ picked)
            exact (renders.handed budget occurrence).symm ▸ emits
        | entries number wantKeys type =>
            rcases conforms with ⟨whole, positive, each⟩
            obtain ⟨lower, rfl⟩ : ∃ lower, budget = lower + 1 := ⟨budget - 1, by omega⟩
            refine emits_level rfl rfl whole (lower + 1) fun entry picked => ?_
            rcases each entry (mem_of_mem_pick picked) with ⟨wholeEntry, eachWanted⟩
            have belowEntry := below entry picked
            simp only [Step.below, List.map_flatMap] at belowEntry ⊢
            refine (hand_message _ (lower + 1) entry).symm ▸
              emits_allMapEntries wantKeys wholeEntry lower fun wanted member => ?_
            rcases eachWanted wanted member with ⟨sameType, conforms⟩
            exact renders.field (by omega) (by omega) sameType (wholeEntry.fits _ member) conforms
              (unknownLast.2 _ (List.mem_flatMap.mpr ⟨entry, mem_of_mem_pick picked, member⟩))
              fun selected selects =>
                belowEntry selected (List.mem_flatMap.mpr ⟨wanted, member, selects⟩)
        | entry number key type =>
            rcases conforms with ⟨whole, positive, each⟩
            obtain ⟨lower, rfl⟩ : ∃ lower, budget = lower + 1 := ⟨budget - 1, by omega⟩
            refine emits_level rfl rfl whole (lower + 1) fun entry picked => ?_
            rcases each entry (mem_of_mem_pick picked) with ⟨isEntry, eachValue⟩
            have belowEntry := below entry picked
            have emits : Emits
                ((setting.mapFilter .string ⟨1, 2, FieldInfo.Value.setSize ⟨bits⟩ key.length⟩
                  key next position).field (lower + 1) entry)
                (((Step.entry number key type).below steps entry).map render) := by
              have texts : ((Step.entry number key type).below steps entry).map render =
                  if Step.hasKey key entry then (fieldValues 2 entry.payload).flatMap
                    fun value => (evaluate steps value).map render
                  else [] := by
                rw [Step.below]
                split <;> simp [List.map_flatMap]
              rw [texts]
              have occurs : entry ∈ fieldValues number value.payload := mem_of_mem_pick picked
              refine .mapFilter isEntry (unknownLast.1 entry occurs) fun has wanted member => ?_
              have sameType : wanted.wireType = type.wireType := isEntry.value_wireType member
              have selects : wanted ∈ (Step.entry number key type).select value.payload :=
                List.mem_flatMap.mpr ⟨entry, List.mem_filter.mpr ⟨occurs, has⟩, member⟩
              refine renders.field (Nat.le_trans (Nat.sub_le depth 1) (by omega)) (Nat.le_refl _)
                sameType (isEntry.whole.fits _ member) (eachValue has wanted member)
                (unknownLast.2 _ selects) fun selected selects => belowEntry selected ?_
              rw [Step.below, if_pos has]
              exact List.mem_flatMap.mpr ⟨wanted, member, selects⟩
            exact (hand_message _ (lower + 1) entry).symm ▸ emits
  handed := hand_message _

/-- The chain of a well-typed path, by induction on its parts. -/
theorem chain_renders {pool : DescriptorPool Message} {target : Target Message}
    {last : ChainEnd} (noDot : last.trailingDot = false)
    (isKind : last.kind = target.kind pool) (uninitialised : Uninitialised) {desc : Message}
    {texts : List StdString} {steps : List Step}
    (typed : TypedParts pool desc texts steps target) (position : Nat) :
    setting.Renders (target.rendering pool setting.utils setting.binaryToJsonString)
      (target.Converts pool setting.binaryToJsonString)
      (setting.chain last position (Step.parts uninitialised position steps)) .message
      steps := by
  induction typed generalizing position with
  | last _ typed =>
      refine Renders.step ?_ _ _
      simp only [Step.parts, chain, chainEnd, noDot, isKind, Bool.false_eq_true, if_false]
      exact setting.emitter_renders pool _ typed.hasType
  | cons _ typed _ induction =>
      refine Renders.step ?_ _ _
      rw [typed.hasType]
      exact induction isKind _

end Setting

end

/-! ## Runs -/

section

variable (Stream : Type) [CodedInputStream Stream] [LawfulCodedInputStream Stream]

section

variable {path : StdString} {desc : Message} {steps : List Step} {target : Target Message}

omit [LawfulCodedInputStream Stream] in
theorem Host.emits_typedPath {host : Host Message}
    (typed : TypedPath host.descSet.pool desc path steps target) (message : Bytea)
    (conforms : Conforms steps (CodedInputStream.recursionLimit Stream)
      (.ofPayload message.data))
    (unknownLast : UnknownLastAlong steps (.ofPayload message.data))
    (converts : ∀ selected ∈ evaluate steps (.ofPayload message.data),
      target.Converts host.descSet.pool host.descSet.binaryToJsonString selected) :
    ∃ parts last final,
      ChainCompiles host.uninitialised host.descSet.pool desc path parts last final ∧
      Emits ((host.setting Stream).runs parts last message.data)
        ((evaluate steps (.ofPayload message.data)).map
          (target.rendering host.descSet.pool host.utils host.descSet.binaryToJsonString)) := by
  rcases typed.compiles host.uninitialised with ⟨last, final, noDot, isKind, chain⟩
  have renders : (host.setting Stream).Renders
      (target.rendering host.descSet.pool host.utils host.descSet.binaryToJsonString)
      (target.Converts host.descSet.pool host.descSet.binaryToJsonString)
      ((host.setting Stream).chain last 0 (Step.parts host.uninitialised 0 steps)) .message
      steps := by
    cases typed with
    | nil =>
        simp only [Step.parts, Setting.chain, Setting.chainEnd, noDot, isKind,
          Bool.false_eq_true, if_false]
        exact (host.setting Stream).emitter_renders host.descSet.pool _ rfl
    | parts nonempty typed =>
        exact Setting.chain_renders noDot isKind host.uninitialised typed 0
  exact ⟨_, last, final, chain, renders.field (Nat.le_refl _) (Nat.le_refl _)
    (rfl : (WireValue.ofPayload message.data).wireType = 2) rfl conforms unknownLast converts⟩

/-- A well-typed path is accepted, and on a message that conforms to it a run returns
what the path selects, in order, whatever the unwritten memory holds. -/
theorem run_typedPath {descDb : DescDb Message} {text path : StdString}
    {descSet : DescSet Message} {desc : Message} {steps : List Step} {target : Target Message}
    (resolved : resolveQuery descDb text = .ok (descSet, desc, path))
    (typed : TypedPath descSet.pool desc path steps target) (uninitialised : Uninitialised)
    (utils : PostgresUtils) (localBits : Nat → UInt64) (message : Bytea)
    (conforms : Conforms steps (CodedInputStream.recursionLimit Stream)
      (.ofPayload message.data))
    (unknownLast : UnknownLastAlong steps (.ofPayload message.data))
    (converts : ∀ selected ∈ evaluate steps (.ofPayload message.data),
      target.Converts descSet.pool descSet.binaryToJsonString selected) :
    ∃ query rows, compileQuery descDb uninitialised text none = .ok query ∧
      query.run Stream utils localBits message = .ok rows ∧
      rows.map some = (evaluate steps (.ofPayload message.data)).map
        (target.rendering descSet.pool utils descSet.binaryToJsonString) := by
  let host : Host Message := ⟨descSet, uninitialised, utils, localBits⟩
  rcases host.emits_typedPath Stream typed message conforms unknownLast converts with
    ⟨parts, last, final, chain, emits⟩
  rcases host.answer_of_emits chain emits with ⟨rows, answered, same⟩
  rw [host.answer_of_chain chain] at answered
  exact ⟨_, rows, compileQuery_eq_ok_iff.mpr ⟨_, _, _, _, _, _, resolved, chain, rfl⟩, answered,
    same⟩

end

open TestMessage in
theorem typedPath_innerRepeated :
    TypedPath testPool .exampleMessage (literal "map_str2inner[k].inner_repeated[*]")
      [.entry 10 (literal "k") .message, .occurrences 2 .string none] (.scalar .string) := by
  have texts : (literal "map_str2inner[k].inner_repeated[*]").splitOn '.'.toUInt8 =
      [literal "map_str2inner[k]", literal "inner_repeated[*]"] := by decide
  have mapField : MapField testPool .exampleMessage (literal "map_str2inner[k]")
      (ofMessage "map_str2inner" 10 true true mapStr2innerEntry) (single "key" 1 .string)
      (ofMessage "value" 2 false false innerMessage) :=
    ⟨rfl, rfl, rfl, rfl, ⟨mapStr2innerEntry, rfl, rfl, rfl⟩, trivial⟩
  have lookup : TypedPart testPool .exampleMessage (literal "map_str2inner[k]")
      (.entry 10 (literal "k") .message) (.message innerMessage) :=
    .key mapField rfl nofun rfl nofun (by decide) ⟨rfl, rfl⟩
  have found : findField testPool innerMessage (literal "inner_repeated[*]") =
      .ok (repeatedField "inner_repeated" 2 .string) := rfl
  have elements : TypedPart testPool innerMessage (literal "inner_repeated[*]")
      (.occurrences 2 .string none) (.scalar .string) :=
    .every found rfl rfl rfl rfl ⟨nofun, nofun, rfl⟩
  refine .parts nofun ?_
  rw [texts]
  exact .cons nofun lookup (.last nofun elements)

def entryMessage : Bytea :=
  ⟨[0x52, 11, 0x12, 6, 0x12, 1, 0x61, 0x12, 1, 0x62, 0x0A, 1, 0x6B], by decide⟩

theorem conforms_entryMessage :
    Conforms [.entry 10 (literal "k") .message, .occurrences 2 .string none] 100
      (.ofPayload entryMessage.data) := by
  have entries : fieldValues 10 entryMessage.data =
      [.ofPayload [0x12, 6, 0x12, 1, 0x61, 0x12, 1, 0x62, 0x0A, 1, 0x6B]] := by
    decide +kernel
  have values : fieldValues 2 [0x12, 6, 0x12, 1, 0x61, 0x12, 1, 0x62, 0x0A, 1, 0x6B] =
      [.ofPayload [0x12, 1, 0x61, 0x12, 1, 0x62]] := by
    decide +kernel
  have keys : fieldValues 1 [0x12, 6, 0x12, 1, 0x61, 0x12, 1, 0x62, 0x0A, 1, 0x6B] =
      [.ofPayload [0x6B]] := by
    decide +kernel
  refine ⟨⟨rfl, by decide +kernel⟩, by decide, fun entry member => ?_⟩
  rw [WireValue.ofPayload, WireValue.payload, entries, List.mem_singleton] at member
  subst member
  refine ⟨⟨⟨rfl, by decide +kernel⟩, ⟨_, keys, rfl⟩, _, values, rfl⟩, fun _ value member => ?_⟩
  rw [WireValue.ofPayload, WireValue.payload, values, List.mem_singleton] at member
  subst member
  exact ⟨⟨rfl, by decide +kernel⟩, by decide +kernel, fun _ _ => trivial⟩

theorem unknownLast_entryMessage :
    UnknownLastAlong [.entry 10 (literal "k") .message, .occurrences 2 .string none]
      (.ofPayload entryMessage.data) := by
  decide +kernel

/-- `map_str2inner[k].inner_repeated[*]` on that message. -/
theorem run_typedPath_innerRepeated :
    ∃ query rows, compileQuery testDb zeroMemory
        (literal "pgpb.test.ExampleMessage:map_str2inner[k].inner_repeated[*]") none =
          .ok query ∧
      query.run ArrayStream testUtils (fun _ => 0) entryMessage = .ok rows ∧
      rows.map some = [some (literal "a"), some (literal "b")] := by
  have resolved : resolveQuery testDb
      (literal "pgpb.test.ExampleMessage:map_str2inner[k].inner_repeated[*]") =
      .ok (testSet, .exampleMessage, literal "map_str2inner[k].inner_repeated[*]") := rfl
  have selected : (evaluate [.entry 10 (literal "k") .message, .occurrences 2 .string none]
      (.ofPayload entryMessage.data)).map
        (Target.rendering testPool testUtils testSet.binaryToJsonString (.scalar .string)) =
      [some (literal "a"), some (literal "b")] := by
    decide +kernel
  rw [← selected]
  exact run_typedPath ArrayStream resolved typedPath_innerRepeated zeroMemory testUtils
    (fun _ => 0) entryMessage conforms_entryMessage unknownLast_entryMessage fun _ _ => trivial

open TestMessage in
/-- An unknown varint before the key and the value of an entry, and an unknown
length-delimited field after them: the map filter takes the one for the end of the entry and
scans the other as an entry, and both runs throw. -/
theorem unknownField_throws :
    let path := literal "map_str2str" ++ bracketed (literal "k")
    let steps : List Step := [.entry 7 (literal "k") .string]
    let before : Bytea := ⟨[0x3A, 8, 0x18, 5, 0x0A, 1, 0x6B, 0x12, 1, 0x61], by decide⟩
    let after : Bytea := ⟨[0x3A, 9, 0x0A, 1, 0x6B, 0x12, 1, 0x61, 0x1A, 1, 7], by decide⟩
    TypedPath testPool .exampleMessage path steps (.scalar .string) ∧
      (∀ message ∈ [before, after], Conforms steps 100 (.ofPayload message.data) ∧
        (evaluate steps (.ofPayload message.data)).map
          (Target.rendering testPool testUtils testSet.binaryToJsonString (.scalar .string)) =
            [some (literal "a")]) ∧
      testHost.answer ArrayStream .exampleMessage path before =
        .error (.badProto (literal "unrecognized wire_type 3")) ∧
      testHost.answer ArrayStream .exampleMessage path after =
        .error (.badProto (literal "unrecognized wire_type 7")) := by
  intro path steps before after
  have mapField : MapField testPool .exampleMessage path
      (ofMessage "map_str2str" 7 true true mapStr2strEntry) (single "key" 1 .string)
      (single "value" 2 .string) :=
    ⟨rfl, rfl, rfl, rfl, ⟨mapStr2strEntry, rfl, rfl, rfl⟩, trivial⟩
  have lookup : TypedPart testPool .exampleMessage path (.entry 7 (literal "k") .string)
      (.scalar .string) :=
    .key mapField rfl nofun rfl nofun (by decide) ⟨nofun, nofun, rfl⟩
  have texts : path.splitOn '.'.toUInt8 = [path] := by decide
  have typed : TypedPath testPool .exampleMessage path steps (.scalar .string) := by
    refine .parts nofun ?_
    rw [texts]
    exact .last nofun lookup
  have conforms : ∀ message ∈ [before, after],
      Conforms steps 100 (.ofPayload message.data) := by
    have isEntry : ∀ message ∈ [before, after], ∀ entry ∈ fieldValues 7 message.data,
        entry = .ofPayload entry.payload ∧ WellFramed entry.payload ∧
          fieldValues 1 entry.payload = [.ofPayload [0x6B]] ∧
          fieldValues 2 entry.payload = [.ofPayload [0x61]] := by
      rw [List.forall_mem_cons, List.forall_mem_singleton]
      decide +kernel
    have framed : ∀ message ∈ [before, after], WellFramed message.data := by
      rw [List.forall_mem_cons, List.forall_mem_singleton]
      decide +kernel
    intro message member
    refine ⟨⟨rfl, framed message member⟩, by decide, fun entry isMember => ?_⟩
    rcases isEntry message member entry isMember with ⟨whole, entryFramed, keys, values⟩
    exact ⟨⟨⟨whole, entryFramed⟩, ⟨_, keys, rfl⟩, _, values, rfl⟩, fun _ _ _ => trivial⟩
  refine ⟨typed, fun message member => ⟨conforms message member, ?_⟩, by decide +kernel⟩
  revert message
  rw [List.forall_mem_cons, List.forall_mem_singleton]
  decide +kernel

end

end PostgresProtobuf
