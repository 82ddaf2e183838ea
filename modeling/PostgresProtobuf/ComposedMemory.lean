import PostgresProtobuf.UnwrittenMemory

/-! # Composed paths over unwritten memory

The runs that composition compares find memory of their own, and only the buffers of their map
filters are zero. They compose where none of them lets what it found decide. -/

namespace PostgresProtobuf

open Foundation

variable {Message : Type}

structure FoundMemory where
  uninitialised : Uninitialised
  zero : uninitialised.ZeroBuffers
  localBits : Nat → UInt64

def FoundMemory.blank : FoundMemory := ⟨.constant 0, zeroBuffers_constant 0, fun _ => 0⟩

theorem SelectsMessages.overMemory {uninitialised : Uninitialised}
    {pool : DescriptorPool Message} {desc selected : Message} {path : StdString}
    (selects : SelectsMessages uninitialised pool desc path selected) (other : Uninitialised) :
    SelectsMessages other pool desc path selected := by
  refine ⟨selects.noDot, ?_⟩
  have isSelected := selects.selects
  unfold selection at isSelected ⊢
  by_cases empty : path.isEmpty = true
  · rw [if_pos empty] at isSelected ⊢
    exact isSelected
  · rw [if_neg empty] at isSelected ⊢
    have same : SameVerdict SameShape
        (compilePath pool uninitialised path [] (rootPtrs desc) [.descendIntoSubmessage])
        (compilePath pool other path [] (rootPtrs desc) [.descendIntoSubmessage]) :=
      compilePath_verdict pool uninitialised other path [] (rootPtrs desc) rfl
    generalize compilePath pool uninitialised path [] (rootPtrs desc)
      [.descendIntoSubmessage] = verdict at same isSelected
    generalize compilePath pool other path [] (rootPtrs desc)
      [.descendIntoSubmessage] = otherVerdict at same ⊢
    cases same with
    | accepted related =>
        simp only [Except.map, ← related.1]
        exact isSelected
    | rejected exception => exact isSelected

theorem compileFrom_overMemory {descSet : DescSet Message} {uninitialised : Uninitialised}
    {desc : Message} {path : StdString} {query : QueryImpl}
    (accepted : compileFrom descSet uninitialised desc path none = .ok query)
    (other : Uninitialised) : ∃ query, compileFrom descSet other desc path none = .ok query := by
  rcases compileFrom_eq_ok_iff.mp accepted with ⟨parts, last, final, chain, _⟩
  rcases chain.overMemory other with ⟨others, otherChain, _⟩
  exact ⟨_, compileFrom_eq_ok_iff.mpr ⟨_, _, _, otherChain, rfl⟩⟩

section

variable (Stream : Type) [CodedInputStream Stream]

/-- The path is accepted, and its chain settled on the message, where the buffers of map
filters are zero. -/
def SettledPath (descSet : DescSet Message) (utils : PostgresUtils) (desc : Message)
    (path : StdString) (message : Bytes) : Prop :=
  ∃ parts last final, ChainCompiles (.constant 0) descSet.pool desc path parts last final ∧
    Setting.SettledFrom utils descSet.binaryToJsonString (CodedInputStream.recursionLimit Stream)
      (fun _ => false) parts last message

def DescSet.handingOn (descSet : DescSet Message) : DescSet Message :=
  { descSet with binaryToJsonString := fun _ contents => some contents }

variable [LawfulCodedInputStream Stream]

def AnswersOn (descSet : DescSet Message) (utils : PostgresUtils) (desc : Message)
    (path : StdString) (message : Bytea) (answer : Answer) : Prop :=
  ∃ (found : FoundMemory) (query : QueryImpl),
    compileFrom descSet found.uninitialised desc path none = .ok query ∧
      query.run Stream utils found.localBits message = answer

variable {Stream} {descSet : DescSet Message} {utils : PostgresUtils} {desc : Message}
variable {path : StdString} {message : Bytea}

theorem SettledPath.answers
    (settled : SettledPath Stream descSet utils desc path message.data) :
    ∃ result, ∀ answer, AnswersOn Stream descSet utils desc path message answer →
      answer = result := by
  rcases settled with ⟨parts, last, final, chain, settled⟩
  rcases settled.run_eq with ⟨result, always⟩
  refine ⟨result, fun answer answers => ?_⟩
  rcases answers with ⟨found, query, accepted, rfl⟩
  rcases chain.overMemory found.uninitialised with ⟨others, otherChain, alike⟩
  have compiled : compileFrom descSet found.uninitialised desc path none =
      .ok ⟨chainObjects found.uninitialised others last, descSet.binaryToJsonString⟩ :=
    compileFrom_eq_ok_iff.mpr ⟨_, _, _, otherChain, rfl⟩
  cases accepted.symm.trans compiled
  exact always found.uninitialised others found.localBits (fun position _ => found.zero position)
    alike

theorem SettledPath.answers_eq
    (settled : SettledPath Stream descSet utils desc path message.data) {answer other : Answer}
    (answers : AnswersOn Stream descSet utils desc path message answer)
    (answersOther : AnswersOn Stream descSet utils desc path message other) :
    answer = other := by
  rcases settled.answers with ⟨result, always⟩
  exact (always answer answers).trans (always other answersOther).symm

omit [LawfulCodedInputStream Stream] in
theorem answersOn_payloads {found : FoundMemory} {query : QueryImpl}
    (accepted : compileFrom descSet found.uninitialised desc path none = .ok query) :
    AnswersOn Stream descSet.handingOn utils desc path message
      (query.payloads Stream utils found.localBits message) := by
  rcases compileFrom_eq_ok_iff.mp accepted with ⟨parts, last, final, chain, rfl⟩
  exact ⟨found, _, compileFrom_eq_ok_iff.mpr ⟨_, _, _, chain, rfl⟩, rfl⟩

theorem answers_eq_map {query : QueryImpl} {found : FoundMemory}
    (accepted : compileFrom descSet found.uninitialised desc path none = .ok query)
    {datas : List Bytea}
    (settled : ∀ data ∈ datas, SettledPath Stream descSet utils desc path data.data)
    {answers : List Answer}
    (each : List.Forall₂ (AnswersOn Stream descSet utils desc path) datas answers) :
    answers = datas.map (query.run Stream utils found.localBits) := by
  induction each with
  | nil => rfl
  | @cons data answer datas answers isAnswer _ induction =>
      have same : answer = query.run Stream utils found.localBits data :=
        (settled data List.mem_cons_self).answers_eq isAnswer ⟨found, query, accepted, rfl⟩
      rw [List.map_cons, same,
        induction fun other member => settled other (List.mem_cons_of_mem _ member)]

/-- Running `p.q` over some memory is running `q` over any memory on every payload that `p`
selects over another, where none of these runs lets the memory decide. -/
theorem run_joinPath_of_settled {selected : Message} {p q : StdString} {ofP ofQ : FoundMemory}
    {queryP queryQ : QueryImpl}
    (selects : SelectsMessages ofP.uninitialised descSet.pool desc p selected)
    (acceptsP : compileFrom descSet ofP.uninitialised desc p none = .ok queryP)
    (nonempty : q ≠ [])
    (acceptsQ : compileFrom descSet ofQ.uninitialised selected q none = .ok queryQ)
    {payloads : List StdString}
    (delivers : queryP.payloads Stream utils ofP.localBits message = .ok payloads)
    (settledP : SettledPath Stream descSet.handingOn utils desc p message.data)
    (settledQ : ∀ payload ∈ payloads, SettledPath Stream descSet utils selected q payload)
    (settledJoined : SettledPath Stream descSet utils desc (joinPath p q) message.data)
    (ofJoined : FoundMemory) :
    ∃ (query : QueryImpl) (datas : List Bytea),
      compileFrom descSet ofJoined.uninitialised desc (joinPath p q) none = .ok query ∧
      datas.map Bytea.data = payloads ∧
      (query.run Stream utils ofJoined.localBits message = .error .recursionDepthExceeded ∨
        ∀ answers, List.Forall₂ (AnswersOn Stream descSet utils selected q) datas answers →
          query.run Stream utils ofJoined.localBits message = Answer.collect answers) := by
  -- Every run is exchanged for the one over blank memory, where composition holds.
  rcases compileFrom_overMemory acceptsP (.constant 0) with ⟨blankP, acceptsBlankP⟩
  rcases compileFrom_overMemory acceptsQ (.constant 0) with ⟨blankQ, acceptsBlankQ⟩
  have blankPayloads : AnswersOn Stream descSet.handingOn utils desc p message
      (blankP.payloads Stream utils FoundMemory.blank.localBits message) :=
    answersOn_payloads acceptsBlankP
  have samePayloads := settledP.answers_eq blankPayloads (answersOn_payloads acceptsP)
  rw [delivers] at samePayloads
  rcases run_joinPath Stream (selects.overMemory (.constant 0)) acceptsBlankP nonempty
    acceptsBlankQ utils 0 samePayloads with
    ⟨blankQuery, datas, acceptsBlank, arePayloads, outcome⟩
  rcases compileFrom_overMemory acceptsBlank ofJoined.uninitialised with ⟨query, accepts⟩
  have sameOutcome := settledJoined.answers_eq ⟨ofJoined, query, accepts, rfl⟩
    ⟨.blank, blankQuery, acceptsBlank, rfl⟩
  refine ⟨query, datas, accepts, arePayloads, ?_⟩
  rw [sameOutcome]
  rcases outcome with tooDeep | collects
  · exact .inl tooDeep
  · apply Or.inr
    intro answers each
    have settledEach : ∀ data ∈ datas,
        SettledPath Stream descSet utils selected q data.data := by
      intro data member
      apply settledQ
      rw [← arePayloads]
      exact List.mem_map_of_mem member
    have areAnswers : answers = datas.map (blankQ.run Stream utils FoundMemory.blank.localBits) :=
      answers_eq_map acceptsBlankQ settledEach each
    rw [areAnswers]
    exact collects

omit [LawfulCodedInputStream Stream] in
theorem settledPath_of_typedPath {steps : List Step} {target : Target Message}
    (typed : TypedPath descSet.pool desc path steps target)
    (conforms : Conforms steps (CodedInputStream.recursionLimit Stream)
      (.ofPayload message.data))
    (unknownLast : UnknownLastAlong steps (.ofPayload message.data))
    (converts : ∀ selected ∈ evaluate steps (.ofPayload message.data),
      target.Converts descSet.pool descSet.binaryToJsonString selected) :
    SettledPath Stream descSet utils desc path message.data := by
  let host : Host Message := ⟨descSet, .constant 0, utils, fun _ => 0⟩
  rcases host.emits_typedPath Stream typed message conforms unknownLast converts with
    ⟨parts, last, final, chain, emits⟩
  rcases emits fun _ => false with ⟨events, next, ends, _⟩
  exact ⟨parts, last, final, chain, .inl ⟨.ok (Event.rows events), congrArg conclude ends⟩⟩

end

def usedMemory : FoundMemory :=
  ⟨.constant (2 ^ 32), zeroBuffers_constant _, fun slot => if slot = 2 then 0x700000000 else 0⟩

open TestMessage in
theorem settledPath_lookup :
    SettledPath ArrayStream testSet.handingOn testUtils .exampleMessage
      (literal "map_str2inner[k]") entryMessage.data := by
  have mapField : MapField testPool .exampleMessage (literal "map_str2inner[k]")
      (ofMessage "map_str2inner" 10 true true mapStr2innerEntry) (single "key" 1 .string)
      (ofMessage "value" 2 false false innerMessage) :=
    ⟨rfl, rfl, rfl, rfl, ⟨mapStr2innerEntry, rfl, rfl, rfl⟩, trivial⟩
  have lookup : TypedPart testPool .exampleMessage (literal "map_str2inner[k]")
      (.entry 10 (literal "k") .message) (.message innerMessage) :=
    .key mapField rfl nofun rfl nofun (by decide) ⟨rfl, rfl⟩
  have typed : TypedPath testPool .exampleMessage (literal "map_str2inner[k]")
      [.entry 10 (literal "k") .message] (.message innerMessage) := by
    refine .parts nofun ?_
    rw [List.splitOn_eq_singleton (by decide)]
    exact .last nofun lookup
  rcases conforms_entryMessage with ⟨whole, positive, entries⟩
  have conforms : Conforms [.entry 10 (literal "k") .message] 100
      (.ofPayload entryMessage.data) :=
    ⟨whole, positive, fun entry member => ⟨(entries entry member).1, fun _ _ _ => trivial⟩⟩
  exact settledPath_of_typedPath typed conforms (by decide +kernel) fun _ _ => rfl

def entryValue : Bytea := ⟨[0x12, 1, 0x61, 0x12, 1, 0x62], by decide⟩

open TestMessage in
theorem settledPath_elements :
    SettledPath ArrayStream testSet testUtils .innerMessage (literal "inner_repeated[*]")
      entryValue.data := by
  have found : findField testPool innerMessage (literal "inner_repeated[*]") =
      .ok (repeatedField "inner_repeated" 2 .string) := rfl
  have elements : TypedPart testPool innerMessage (literal "inner_repeated[*]")
      (.occurrences 2 .string none) (.scalar .string) :=
    .every found rfl rfl rfl rfl ⟨nofun, nofun, rfl⟩
  have typed : TypedPath testPool innerMessage (literal "inner_repeated[*]")
      [.occurrences 2 .string none] (.scalar .string) := by
    refine .parts nofun ?_
    rw [List.splitOn_eq_singleton (by decide)]
    exact .last nofun elements
  have conforms : Conforms [.occurrences 2 .string none] 100 (.ofPayload entryValue.data) :=
    ⟨⟨rfl, by decide +kernel⟩, by decide +kernel, fun _ _ => trivial⟩
  exact settledPath_of_typedPath typed conforms (by decide +kernel) fun _ _ => trivial

/-- `map_str2inner[k]` and `inner_repeated[*]` after it. -/
theorem run_joinPath_entryMessage :
    let q := literal "inner_repeated[*]"
    ∃ (query : QueryImpl) (datas : List Bytea),
      compileFrom testSet usedMemory.uninitialised .exampleMessage
        (joinPath (literal "map_str2inner[k]") q) none = .ok query ∧
      datas.map Bytea.data = [entryValue.data] ∧
      (query.run ArrayStream testUtils usedMemory.localBits entryMessage =
          .error .recursionDepthExceeded ∨
        ∀ answers, List.Forall₂ (AnswersOn ArrayStream testSet testUtils .innerMessage q) datas
            answers →
          query.run ArrayStream testUtils usedMemory.localBits entryMessage =
            Answer.collect answers) := by
  intro q
  have nonempty : q ≠ [] := by decide
  have selects : SelectsMessages FoundMemory.blank.uninitialised testPool .exampleMessage
      (literal "map_str2inner[k]") .innerMessage := ⟨by decide, by decide +kernel⟩
  have acceptsP : compileFrom testSet FoundMemory.blank.uninitialised .exampleMessage
      (literal "map_str2inner[k]") none = .ok (testQuery .exampleMessage "map_str2inner[k]") :=
    compileTest_eq_ok (by decide +kernel)
  have acceptsQ : compileFrom testSet FoundMemory.blank.uninitialised .innerMessage q none =
      .ok (testQuery .innerMessage "inner_repeated[*]") := compileTest_eq_ok (by decide +kernel)
  have delivers : (testQuery .exampleMessage "map_str2inner[k]").payloads ArrayStream testUtils
      FoundMemory.blank.localBits entryMessage = .ok [entryValue.data] := by
    decide +kernel
  have settledQ : ∀ payload ∈ [entryValue.data],
      SettledPath ArrayStream testSet testUtils .innerMessage q payload := by
    intro payload member
    rw [List.mem_singleton.mp member]
    exact settledPath_elements
  have settledJoined : SettledPath ArrayStream testSet testUtils .exampleMessage
      (joinPath (literal "map_str2inner[k]") q) entryMessage.data :=
    settledPath_of_typedPath typedPath_innerRepeated conforms_entryMessage
      unknownLast_entryMessage fun _ _ => trivial
  exact run_joinPath_of_settled selects acceptsP nonempty acceptsQ delivers settledPath_lookup
    settledQ settledJoined usedMemory

/-- An `int64` that was sent as four bytes. In the composed run another local is given them
than in the run on the payload. -/
theorem joinPath_halfWritten :
    let memory := usedMemory.uninitialised
    let localBits := usedMemory.localBits
    let message : Bytea := ⟨[0x0A, 5, 0x25, 1, 0, 0, 0], by decide⟩
    let payload : Bytea := ⟨[0x25, 1, 0, 0, 0], by decide⟩
    let p := literal "scalars"
    let q := literal "int64_field"
    let queryP := testQuery .exampleMessage "scalars"
    let queryQ := testQuery .scalars "int64_field"
    let query := testQuery .exampleMessage "scalars.int64_field"
    SelectsMessages memory testPool .exampleMessage p .scalars ∧
      compileFrom testSet memory .exampleMessage p none = .ok queryP ∧
      compileFrom testSet memory .scalars q none = .ok queryQ ∧
      compileFrom testSet memory .exampleMessage (joinPath p q) none = .ok query ∧
      queryP.payloads ArrayStream testUtils localBits message = .ok [payload.data] ∧
      queryQ.run ArrayStream testUtils localBits payload = .ok [literal "1"] ∧
      query.run ArrayStream testUtils localBits message = .ok [literal "30064771073"] :=
  ⟨⟨by decide, by decide +kernel⟩, rfl, rfl, rfl, by decide +kernel, by decide +kernel,
    by decide +kernel⟩

end PostgresProtobuf
