import PostgresProtobuf.Foundation.Slices
import PostgresProtobuf.MapLookups
import PostgresProtobuf.RowSources

/-! # Lists one index at a time

Selecting all elements of a list answers as selecting one index after the other does, also
where the path goes on and whatever encoding the elements have. -/

namespace PostgresProtobuf

open Foundation

variable {Message : Type}

/-! ## Answers in slices -/

def Slices (low high : Nat) (whole : Answer) (single : Nat → Answer) : Prop :=
  ∀ rows, whole = .ok rows →
    ∃ slice, (∀ index, single index = .ok (slice index)) ∧ Sliced low high rows slice

section

variable {low middle high : Nat} {whole rest : Answer} {single others : Nat → Answer}

theorem slices_empty (index : Nat) : Slices index index (.ok []) fun _ => .ok [] := by
  intro rows returns
  cases returns
  exact ⟨fun _ => [], fun _ => rfl, .nil index⟩

theorem slices_error (exception : Exception) : Slices low high (.error exception) single :=
  nofun

theorem slices_single (index : Nat) (whole : Answer) :
    Slices index (index + 1) whole fun other => if index = other then whole else .ok [] := by
  intro rows returns
  subst returns
  refine ⟨fun other => if other = index then rows else [], fun other => ?_,
    .single index rows⟩
  dsimp only
  by_cases same : other = index
  · rw [if_pos same, if_pos same.symm]
  · rw [if_neg same, if_neg (Ne.symm same)]

theorem Slices.followedBy (slices : Slices low middle whole single)
    (after : Slices middle high rest others) :
    Slices low high (whole.followedBy rest) fun index =>
      (single index).followedBy (others index) := by
  intro rows returns
  rcases Answer.followedBy_eq_ok_iff.mp returns with ⟨front, back, isFront, isBack, rfl⟩
  rcases slices front isFront with ⟨slice, isSlice, sliced⟩
  rcases after back isBack with ⟨other, isOther, slicedAfter⟩
  refine ⟨_, fun index => ?_, sliced.append slicedAfter⟩
  dsimp only
  rw [isSlice, isOther]
  rfl

theorem Slices.widen (slices : Slices low middle whole single) (later : middle ≤ high) :
    Slices low high whole single := by
  intro rows returns
  rcases slices rows returns with ⟨slice, isSlice, sliced⟩
  exact ⟨slice, isSlice, sliced.widen later⟩

theorem Slices.endOn (slices : Slices low high whole single) (fault : Option FramingFault) :
    Slices low high (whole.followedBy (answer (endOn fault))) fun index =>
      (single index).followedBy (answer (endOn fault)) := by
  cases fault with
  | none => exact slices.followedBy (slices_empty high)
  | some fault => exact slices.followedBy (slices_error (framingException fault))

theorem Slices.collect {size : Nat} (slices : Slices 0 high whole single) (enough : high ≤ size)
    {rows : List StdString} (returns : whole = .ok rows) :
    (∀ index, ∃ rows, single index = .ok rows) ∧
      Answer.collect ((List.range size).map single) = whole ∧
      ∀ index, size ≤ index → single index = .ok [] := by
  rcases slices rows returns with ⟨slice, isSlice, sliced⟩
  have collected : ∀ indices : List Nat,
      Answer.collect (indices.map single) = .ok (indices.flatMap slice) := by
    intro indices
    induction indices with
    | nil => rfl
    | cons index indices induction =>
        rw [List.map_cons, Answer.collect_cons, isSlice, induction]
        rfl
  refine ⟨fun index => ⟨slice index, isSlice index⟩, ?_, fun index outside => ?_⟩
  · rw [collected, returns, sliced.range enough]
  · rw [isSlice, sliced.outside index (.inr (Nat.le_trans enough outside))]

end

/-! ## Selectors -/

def ChainPart.at (part : ChainPart) (index : Nat) : ChainPart :=
  { part with wantedIndex := some index }

/-- The actions at a number of wanted fields that have ended take a bounded number of
indices and end at the same number. -/
def SlicesActions (count width : Nat) (whole : Activity Unit × Int)
    (single : Nat → Activity Unit × Int) : Prop :=
  ∃ after : Nat, after ≤ count + width ∧ whole.2 = after ∧ (∀ index, (single index).2 = after) ∧
    Slices count after (answer whole.1) fun index => answer (single index).1

theorem slicesActions_turns {Item : Type} {weight : Item → Nat}
    {turn : Int → Item → Activity Unit × Int} {single : Nat → Int → Item → Activity Unit × Int}
    (items : List Item)
    (step : ∀ count : Nat, ∀ item ∈ items, SlicesActions count (weight item) (turn count item)
      fun index => single index count item) (count : Nat) :
    SlicesActions count (items.map weight).sum (turns turn count items) fun index =>
      turns (single index) count items := by
  induction items generalizing count with
  | nil => exact ⟨count, Nat.le_refl _, rfl, fun _ => rfl, slices_empty count⟩
  | cons item items induction =>
      rcases step count item List.mem_cons_self with
        ⟨middle, bound, isMiddle, areMiddle, slices⟩
      have others := induction
        (fun count item member => step count item (List.mem_cons_of_mem _ member)) middle
      rcases others with ⟨after, boundAfter, isAfter, areAfter, slicesAfter⟩
      refine ⟨after, ?_, ?_, fun index => ?_, ?_⟩
      · rw [List.map_cons, List.sum_cons]
        omega
      · simp only [turns, isMiddle]
        exact isAfter
      · simp only [turns, areMiddle]
        exact areAfter index
      · have both := slices.followedBy slicesAfter
        simp only [turns, answer_mul, isMiddle, areMiddle]
        exact both

section

variable {part : ChainPart} (every : part.wantedIndex = none)

include every

theorem slicesActions_field (number : Int) (count : Nat) (action : Activity Unit) :
    SlicesActions count 1
      (if part.Emits number count then action else 1, part.indexAfter number count)
      fun index => (if (part.at index).Emits number count then action else 1,
        (part.at index).indexAfter number count) := by
  have emits := part.emits_unindexed every number count
  have emitsAt : ∀ index, (part.at index).Emits number count ↔
      number = part.wantedField ∧ count = index := by
    intro index
    simp only [ChainPart.Emits, ChainPart.at, Option.mem_def, Option.some.injEq, forall_eq',
      Int.natCast_inj]
  by_cases wanted : number = part.wantedField
  · refine ⟨count + 1, Nat.le_refl _, if_pos wanted, fun _ => if_pos wanted, ?_⟩
    dsimp only
    rw [if_pos (emits.mpr wanted)]
    have asSingle : (fun index => answer (if (part.at index).Emits number count then action
        else 1)) = fun index => if count = index then answer action else .ok [] := by
      funext index
      by_cases here : count = index
      · rw [if_pos here, if_pos ((emitsAt index).mpr ⟨wanted, here⟩)]
      · rw [if_neg here, if_neg fun emits => here ((emitsAt index).mp emits).2, answer_one]
    rw [asSingle]
    exact slices_single count (answer action)
  · refine ⟨count, Nat.le_succ _, if_neg wanted, fun _ => if_neg wanted, ?_⟩
    dsimp only
    rw [if_neg (mt emits.mp wanted), answer_one]
    have asEmpty : (fun index => answer (if (part.at index).Emits number count then action
        else 1)) = fun _ => .ok [] := by
      funext index
      rw [if_neg fun emits => wanted ((emitsAt index).mp emits).1, answer_one]
    rw [asEmpty]
    exact slices_empty count

variable (next : Delivery Unit) (budget : Nat)

theorem slicesActions_selectPacked (number : Int) (count : Nat) (payload : Bytes) :
    SlicesActions count payload.length
      (Setting.selectPacked part next budget number count payload)
      fun index => Setting.selectPacked (part.at index) next budget number count payload := by
  have sameType : ∀ index, (part.at index).type = part.type := fun _ => rfl
  unfold Setting.selectPacked
  simp only [sameType]
  cases Setting.packedWireType part.type with
  | none => exact ⟨count, Nat.le_add_right _ _, rfl, fun _ => rfl, slices_empty count⟩
  | some wireType =>
      have sliced := @slicesActions_turns _ (fun _ => 1)
        (Setting.selectElement part next budget number)
        (fun index => Setting.selectElement (part.at index) next budget number)
        (readElements wireType payload).1
        (fun count value _ => slicesActions_field every number count (next.field budget value))
        count
      rcases sliced with ⟨after, bound, isAfter, areAfter, slices⟩
      have short := readElements_length wireType payload
      refine ⟨after, ?_, isAfter, areAfter, ?_⟩
      · rw [List.map_const', List.sum_replicate_nat, Nat.mul_one] at bound
        omega
      · have ended := slices.endOn (readElements wireType payload).2
        simp only [answer_mul]
        exact ended

def indexWidth : WireValue → Nat
  | .lengthDelimited _ payload => payload.length + 1
  | _ => 1

theorem slicesActions_selectField (count : Nat) (field : WireField) :
    SlicesActions count (indexWidth field.value)
      (Setting.selectField part next budget count field)
      fun index => Setting.selectField (part.at index) next budget count field := by
  have samePacked : ∀ index, (part.at index).isPacked = part.isPacked := fun _ => rfl
  have sameType : ∀ index, (part.at index).type = part.type := fun _ => rfl
  rcases field with ⟨number, value⟩
  cases value with
  | lengthDelimited size payload =>
      simp only [Setting.selectField, samePacked, sameType]
      cases part.isPacked with
      | true =>
          rcases slicesActions_selectPacked every next budget number count payload with
            ⟨middle, bound, isMiddle, areMiddle, slices⟩
          have ended : ∃ after : Nat, middle ≤ after ∧ after ≤ middle + 1 ∧
              part.indexAfter number middle = after := by
            by_cases wanted : number = part.wantedField
            · exact ⟨middle + 1, Nat.le_succ _, Nat.le_refl _, if_pos wanted⟩
            · exact ⟨middle, Nat.le_refl _, Nat.le_succ _, if_neg wanted⟩
          rcases ended with ⟨after, later, boundAfter, isAfter⟩
          refine ⟨after, by rw [indexWidth]; omega, ?_, fun index => ?_, slices.widen later⟩
          · rw [← isAfter, ← isMiddle]
            rfl
          · rw [← isAfter, ← areMiddle index]
            rfl
      | false =>
          have sliced := slicesActions_field every number count
            (if part.type = .message then next.field budget (.lengthDelimited size payload)
              else next.handed part.type size payload)
          rcases sliced with ⟨after, bound, rest⟩
          exact ⟨after, by rw [indexWidth]; omega, rest⟩
  | _ => exact slicesActions_field every number count (next.field budget _)

end

theorem indexWidth_le {bytes rest : Bytes} {field : WireField}
    (step : readField bytes = .ok (field, rest)) :
    indexWidth field.value + rest.length ≤ bytes.length := by
  rcases readField_spans step with ⟨taken, rfl, spans⟩
  rw [List.length_append]
  apply Nat.add_le_add_right
  generalize field.value = value at spans
  cases spans with
  | payload size payload long =>
      rw [indexWidth, List.length_append]
      omega
  | primitive nonempty isPrimitive =>
      have positive := List.length_pos_iff.mpr nonempty
      cases value with
      | lengthDelimited size payload => exact absurd rfl isPrimitive
      | _ => exact positive

theorem slices_runs (setting : Setting Unit) {part : ChainPart}
    (every : part.wantedIndex = none) (parts : List ChainPart) (last : ChainEnd)
    (message : Bytes) :
    ∃ high ≤ message.length,
      Slices 0 high (answer (setting.runs (part :: parts) last message))
        fun index => answer (setting.runs (part.at index :: parts) last message) := by
  let next := setting.mapPart 2 part.map
    (setting.chain last (0 + 2 + Setting.mapWidth part.map) parts)
  unfold Setting.runs
  cases setting.recursionLimit with
  | zero => exact ⟨0, Nat.zero_le _, slices_error _⟩
  | succ budget =>
      have sliced := @slicesActions_turns _ (fun field => indexWidth field.value)
        (Setting.selectField part next budget)
        (fun index => Setting.selectField (part.at index) next budget) (readFields message).1
        (fun count field _ => slicesActions_selectField every next budget count field) 0
      rcases sliced with ⟨after, bound, _, _, slices⟩
      have short := Reader.sum_readAll_le readField_shrinks (fun _ _ _ => indexWidth_le) message
      refine ⟨after, ?_, ?_⟩
      · rw [Nat.zero_add] at bound
        exact Nat.le_trans bound short
      · have ended := slices.endOn (readFields message).2
        have level : ∀ turn, answer (scanLevel budget turn (0 : Int) message).1 = _ :=
          fun turn => answer_scanLevel budget turn 0 message
        change Slices 0 after
          (answer (scanLevel budget (Setting.selectField part next budget) (0 : Int) message).1)
          fun index => answer (scanLevel budget (Setting.selectField (part.at index) next budget)
            (0 : Int) message).1
        simp only [level]
        exact ended

/-! ## Paths -/

section

variable {uninitialised : Uninitialised} {pool : DescriptorPool Message} {desc : Message}
variable {field : FieldDescriptor Message} {name rest : StdString}

theorem ChainCompiles.first_part {text : StdString} (nonempty : text ≠ [])
    (noDot : '.'.toUInt8 ∉ text) (isRest : RestOfPath rest) {parts : List ChainPart}
    {last : ChainEnd} {final : DescPtrs Message}
    (chain : ChainCompiles uninitialised pool desc (text ++ rest) parts last final) :
    ∃ part next others, parts = part :: others ∧
      PartCompiles uninitialised pool 1 desc text part next ∧
      ∀ (other : StdString) (otherPart : ChainPart), other ≠ [] → '.'.toUInt8 ∉ other →
        Setting.mapWidth otherPart.map = Setting.mapWidth part.map →
        PartCompiles uninitialised pool 1 desc other otherPart next →
          ChainCompiles uninitialised pool desc (other ++ rest) (otherPart :: others) last
            final := by
  have notEmpty : ∀ {front : StdString}, front ≠ [] → front ++ rest ≠ [] :=
    fun notNil empty => notNil (List.append_eq_nil_iff.mp empty).1
  rcases chain.compiles with ⟨empty, _⟩ | ⟨_, compiles⟩
  · exact absurd empty (notEmpty nonempty)
  · rcases isRest with rfl | ⟨more, rfl⟩
    · rw [List.append_nil, List.splitOn_eq_singleton noDot] at compiles
      generalize dot : last.trailingDot = trailingDot at compiles
      cases compiles with
      | trailingDot => exact absurd rfl nonempty
      | last hasDesc _ compiled =>
          cases hasDesc
          refine ⟨_, _, [], rfl, compiled, fun other otherPart otherNonempty otherNoDot _
            otherCompiled => ⟨.inr ⟨notEmpty otherNonempty, ?_⟩, chain.emits⟩⟩
          rw [List.append_nil, List.splitOn_eq_singleton otherNoDot, dot]
          exact .last rfl otherNonempty otherCompiled
      | cons _ _ _ follows => cases follows
    · rw [splitOn_dot noDot] at compiles
      have notNil := List.splitOn_ne_nil '.'.toUInt8 more
      generalize texts : more.splitOn '.'.toUInt8 = all at compiles notNil
      generalize dot : last.trailingDot = trailingDot at compiles
      cases compiles with
      | trailingDot => exact absurd rfl notNil
      | last => exact absurd rfl notNil
      | cons hasDesc _ compiled follows =>
          cases hasDesc
          refine ⟨_, _, _, rfl, compiled, fun other otherPart otherNonempty otherNoDot sameWidth
            otherCompiled => ⟨.inr ⟨notEmpty otherNonempty, ?_⟩, chain.emits⟩⟩
          rw [splitOn_dot otherNoDot, texts, dot]
          rw [← sameWidth] at follows
          exact .cons rfl otherNonempty otherCompiled follows

theorem ChainCompiles.index_of_star (member : field ∈ pool.fields desc)
    (named : field.NamedBy name) (isRepeated : field.isRepeated = true)
    (notMap : field.isMap = false) (isRest : RestOfPath rest) {parts : List ChainPart}
    {last : ChainEnd} {final : DescPtrs Message}
    (chain : ChainCompiles uninitialised pool desc (name ++ bracketed star ++ rest) parts last
      final) :
    ∃ others, parts = .plain field none :: others ∧
      ∀ {inner : StdString} {index : Nat}, DenotesInteger inner index → index < 2 ^ 31 →
        ChainCompiles uninitialised pool desc (name ++ bracketed inner ++ rest)
          (.plain field (some index) :: others) last final := by
  have valid := pool.field_valid desc field member
  have found : ∀ inner, findField pool desc (name ++ bracketed inner) = .ok field :=
    fun inner => findField_append member named (startsSelector_bracketed inner)
  have selects : ∀ inner, selectorText (name ++ bracketed inner) = bracketed inner :=
    fun inner => selectorText_append named valid (startsSelector_bracketed inner)
  have dotless : ∀ inner, '.'.toUInt8 ∉ inner → '.'.toUInt8 ∉ name ++ bracketed inner :=
    fun inner => dot_not_mem_bracketed named valid
  have nonempty : ∀ inner, name ++ bracketed inner ≠ [] := by
    intro inner
    simp [bracketed]
  rcases chain.first_part (nonempty star) (dotless star (by decide)) isRest with
    ⟨part, next, others, rfl, compiled, exchange⟩
  have isPart : part = .plain field none ∧ next = field.descPtrs := by
    have foundText := found star
    have selectsText := selects star
    generalize name ++ bracketed star = text at compiled foundText selectsText
    have noMap : ∀ {other keyField valueField : FieldDescriptor Message},
        ¬ MapField pool desc text other keyField valueField := by
      intro other keyField valueField mapField
      cases foundText.symm.trans mapField.found
      cases notMap.symm.trans mapField.isMap
    cases compiled with
    | single _ _ bare => exact absurd (selectsText.symm.trans bare) (by decide)
    | element otherFound _ _ isInner _ isIndex =>
        cases foundText.symm.trans otherFound
        rw [← bracketed_injective (selectsText.symm.trans isInner)] at isIndex
        cases isIndex
        exact ⟨rfl, rfl⟩
    | keys mapField _ => exact absurd mapField noMap
    | values mapField _ => exact absurd mapField noMap
    | lookup mapField _ _ _ _ => exact absurd mapField noMap
  rcases isPart with ⟨rfl, rfl⟩
  refine ⟨others, rfl, fun {inner} {index} denotes small => ?_⟩
  have parsed : parseIndex inner = .ok (some (index : Int)) := by
    rw [parseIndex_of_denotes denotes, if_pos (by omega), toInt_of_lt small]
  exact exchange _ _ (nonempty inner) (dotless inner (denotes.not_mem (.inr (.inl rfl)))) rfl
    (.element (found inner) isRepeated notMap (selects inner) denotes.nonempty parsed)

end

section

variable (Stream : Type) [CodedInputStream Stream] [LawfulCodedInputStream Stream]

omit [LawfulCodedInputStream Stream] in
theorem Host.chain_of_answer {host : Host Message} {desc : Message} {path : StdString}
    {message : Bytea} {rows : List StdString}
    (returns : host.answer Stream desc path message = .ok rows) :
    ∃ parts last final,
      ChainCompiles host.uninitialised host.descSet.pool desc path parts last final := by
  unfold Host.answer at returns
  rcases Except.bind_eq_ok_iff.mp returns with ⟨query, compiled, _⟩
  rcases compileFrom_eq_ok_iff.mp compiled with ⟨parts, last, final, chain, _⟩
  exact ⟨parts, last, final, chain⟩

/-- Where `f[*]s` returns, `f[0]s`, `f[1]s` and so on return its rows one after the other,
and nothing from as many on as the message has bytes. -/
theorem listStar_eq_indices {host : Host Message} {desc : Message}
    {field : FieldDescriptor Message} {name rest : StdString}
    (zero : host.uninitialised.ZeroBuffers) (member : field ∈ host.descSet.pool.fields desc)
    (named : field.NamedBy name) (isRepeated : field.isRepeated = true)
    (notMap : field.isMap = false) (isRest : RestOfPath rest) (spelling : Nat → StdString)
    (denotes : ∀ index, DenotesInteger (spelling index) index) {message : Bytea}
    {rows : List StdString}
    (returns : host.answer Stream desc (name ++ bracketed star ++ rest) message = .ok rows) :
    (∀ index < 2 ^ 31, ∃ found,
      host.answer Stream desc (name ++ bracketed (spelling index) ++ rest) message =
        .ok found) ∧
    ∀ bits,
      (host.withLocals bits).answer Stream desc (name ++ bracketed star ++ rest) message =
        Answer.collect ((List.range message.data.length).map fun index =>
          (host.withLocals bits).answer Stream desc (name ++ bracketed (spelling index) ++ rest)
            message) ∧
      ∀ index < 2 ^ 31, message.data.length ≤ index →
        (host.withLocals bits).answer Stream desc (name ++ bracketed (spelling index) ++ rest)
          message = .ok [] := by
  rcases Host.chain_of_answer Stream returns with ⟨parts, last, final, chain⟩
  rcases chain.index_of_star member named isRepeated notMap isRest with ⟨others, rfl, indexed⟩
  have short := message.size_lt
  let whole := fun bits => (Setting.fixed host.utils host.descSet.binaryToJsonString
    (CodedInputStream.recursionLimit Stream) bits).runs (.plain field none :: others) last
      message.data
  let single := fun bits index => (Setting.fixed host.utils host.descSet.binaryToJsonString
    (CodedInputStream.recursionLimit Stream) bits).runs
      ((ChainPart.plain field none).at index :: others) last message.data
  have isWhole : ∀ bits, (host.withLocals bits).answer Stream desc
      (name ++ bracketed star ++ rest) message = PostgresProtobuf.answer (whole bits) :=
    fun bits => Host.answer_withLocals Stream chain zero bits message
  have isSingle : ∀ bits, ∀ index < 2 ^ 31, (host.withLocals bits).answer Stream desc
      (name ++ bracketed (spelling index) ++ rest) message =
        PostgresProtobuf.answer (single bits index) :=
    fun bits index small =>
      Host.answer_withLocals Stream (indexed (denotes index) small) zero bits message
  have sliced : ∀ bits,
      (∀ index, ∃ rows, PostgresProtobuf.answer (single bits index) = .ok rows) ∧
        Answer.collect ((List.range message.data.length).map fun index =>
          PostgresProtobuf.answer (single bits index)) = PostgresProtobuf.answer (whole bits) ∧
        ∀ index, message.data.length ≤ index →
          PostgresProtobuf.answer (single bits index) = .ok [] := by
    intro bits
    rcases (Host.returns_withLocals Stream chain zero bits message).mp ⟨rows, returns⟩ with
      ⟨found, isFound⟩
    rw [isWhole] at isFound
    have every : (ChainPart.plain field none).wantedIndex = none := rfl
    have sliced := slices_runs (Setting.fixed host.utils host.descSet.binaryToJsonString
      (CodedInputStream.recursionLimit Stream) bits) every others last message.data
    rcases sliced with ⟨high, enough, slices⟩
    exact slices.collect enough isFound
  constructor
  · intro index small
    rw [Host.returns_withLocals Stream (indexed (denotes index) small) zero 0 message,
      isSingle 0 index small]
    exact (sliced 0).1 index
  · intro bits
    constructor
    · rw [isWhole, ← (sliced bits).2.1]
      congr 1
      apply List.map_congr_left
      intro index inRange
      have below := List.mem_range.mp inRange
      exact (isSingle bits index (by omega)).symm
    · intro index small outside
      rw [isSingle bits index small]
      exact (sliced bits).2.2 index outside

/-- Two inner messages with two strings and one string. -/
theorem listStar_eq_indices_innerRepeated :
    let message : Bytea := ⟨[0x2A, 6, 0x12, 1, 0x61, 0x12, 1, 0x62,
      0x2A, 3, 0x12, 1, 0x63], by decide⟩
    let path := fun inner => literal "repeated_inner" ++ bracketed inner ++
      literal ".inner_repeated[*]"
    (∀ index < 2 ^ 31, ∃ found, testHost.answer ArrayStream .exampleMessage
      (path (unsignedToString index)) message = .ok found) ∧
    ∀ bits,
      (testHost.withLocals bits).answer ArrayStream .exampleMessage (path star) message =
        Answer.collect ((List.range 13).map fun index =>
          (testHost.withLocals bits).answer ArrayStream .exampleMessage
            (path (unsignedToString index)) message) ∧
      ∀ index < 2 ^ 31, 13 ≤ index →
        (testHost.withLocals bits).answer ArrayStream .exampleMessage
          (path (unsignedToString index)) message = .ok [] := by
  intro message path
  have member : TestMessage.ofMessage "repeated_inner" 5 true false .innerMessage ∈
      testHost.descSet.pool.fields .exampleMessage := by decide +kernel
  have returns : testHost.answer ArrayStream .exampleMessage (path star) message =
      .ok [literal "a", literal "b", literal "c"] := by decide +kernel
  exact listStar_eq_indices ArrayStream (fun _ => ⟨rfl, rfl⟩) member (.inl rfl) rfl rfl
    (.inr ⟨literal "inner_repeated[*]", rfl⟩) unsignedToString denotesInteger_unsignedToString
    returns

end

end PostgresProtobuf
