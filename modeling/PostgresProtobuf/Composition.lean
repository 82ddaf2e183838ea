import PostgresProtobuf.Answers
import PostgresProtobuf.TestSchema

/-! # Composed paths

A path that selects messages, followed by another path, answers on a message as the
second path answers on each of the selected payloads in turn. -/

namespace PostgresProtobuf

open Foundation

variable {Message : Type}

/-! ## Compiling a composed path -/

def joinPath (path rest : StdString) : StdString :=
  if path = [] then rest else path ++ '.'.toUInt8 :: rest

/-- All unwritten memory of the compiler holds the given bits, and the buffers of the
map filters are zero. -/
def Uninitialised.constant (wanted : UInt64) : Uninitialised where
  wantedKey _ := wanted
  bufferedKeyField _ := FieldInfo.zero
  bufferedValueField _ := FieldInfo.zero

theorem zeroBuffers_constant (wanted : UInt64) :
    (Uninitialised.constant wanted).ZeroBuffers := fun _ => ⟨rfl, rfl⟩

section

variable {wanted : UInt64} {pool : DescriptorPool Message}

theorem PartCompiles.anywhere {position : Nat} {desc : Message} {text : StdString}
    {part : ChainPart} {next : DescPtrs Message}
    (compiles : PartCompiles (.constant wanted) pool position desc text part next)
    (other : Nat) : PartCompiles (.constant wanted) pool other desc text part next := by
  cases compiles with
  | single found notRepeated bare => exact .single found notRepeated bare
  | element found isRepeated notMap selects nonempty parsed =>
      exact .element found isRepeated notMap selects nonempty parsed
  | keys mapField selects => exact .keys mapField selects
  | values mapField selects => exact .values mapField selects
  | lookup mapField selects nonempty notStar parsed =>
      exact .lookup mapField selects nonempty notStar parsed

theorem PathCompiles.anywhere {position : Nat} {descPtrs final : DescPtrs Message}
    {texts : List StdString} {parts : List ChainPart} {trailingDot : Bool}
    (compiles : PathCompiles (.constant wanted) pool position descPtrs texts parts
      trailingDot final)
    (nonempty : texts ≠ [[]]) (other : Nat) {start : DescPtrs Message}
    (sameDesc : start.desc = descPtrs.desc) :
    PathCompiles (.constant wanted) pool other start texts parts trailingDot final := by
  induction compiles generalizing other start with
  | trailingDot => exact absurd rfl nonempty
  | last hasDesc textNonempty part =>
      exact .last (sameDesc.trans hasDesc) textNonempty (part.anywhere _)
  | @cons _ _ next _ _ _ _ texts _ _ hasDesc textNonempty part rest induction =>
      refine .cons (sameDesc.trans hasDesc) textNonempty (part.anywhere _) ?_
      by_cases dot : texts = [[]]
      · subst dot
        cases rest with
        | trailingDot => exact .trailingDot
        | last _ textNonempty _ => exact absurd rfl textNonempty
        | cons _ textNonempty _ _ => exact absurd rfl textNonempty
      · exact induction dot _ rfl

theorem PathCompiles.append {position : Nat} {descPtrs middle final : DescPtrs Message}
    {texts more : List StdString} {parts rest : List ChainPart} {trailingDot : Bool}
    (compiles : PathCompiles (.constant wanted) pool position descPtrs texts parts false
      middle)
    (follows : PathCompiles (.constant wanted) pool (Setting.positionAfter position parts)
      middle more rest trailingDot final) :
    PathCompiles (.constant wanted) pool position descPtrs (texts ++ more) (parts ++ rest)
      trailingDot final := by
  generalize noDot : false = dot at compiles
  induction compiles with
  | trailingDot => simp at noDot
  | last hasDesc textNonempty part => exact .cons hasDesc textNonempty part follows
  | cons hasDesc textNonempty part _ induction =>
      exact .cons hasDesc textNonempty part (induction follows noDot)

def selection (uninitialised : Uninitialised) (pool : DescriptorPool Message)
    (desc : Message) (path : StdString) : Except Exception (FieldType × Option Message) :=
  if path.isEmpty then
    .ok (.message, some desc)
  else
    (compilePath pool uninitialised path [] (rootPtrs desc) [.descendIntoSubmessage]).map
      fun compiled => (compiled.1.type, compiled.1.desc)

/-- The path is accepted after the message, does not end in a dot, and selects messages
of the given type. -/
structure SelectsMessages (uninitialised : Uninitialised) (pool : DescriptorPool Message)
    (desc : Message) (path : StdString) (selected : Message) : Prop where
  noDot : path.getLast? ≠ some '.'.toUInt8
  selects : selection uninitialised pool desc path = .ok (.message, some selected)

theorem SelectsMessages.emitter {desc selected : Message} {path : StdString}
    (selects : SelectsMessages (.constant wanted) pool desc path selected) :
    ∃ parts last final,
      ChainCompiles (.constant wanted) pool desc path parts last final ∧
        final.desc = some selected ∧ last.trailingDot = false ∧
        last.kind = .message (typeUrl pool selected) := by
  rcases selects with ⟨noDot, selects⟩
  unfold selection at selects
  by_cases empty : path = []
  · subst empty
    cases selects
    exact ⟨[], ⟨false, .message (typeUrl pool desc), nofun⟩, rootPtrs desc,
      ⟨.inl ⟨rfl, rfl, rfl, rfl⟩, Emitter.create_message rfl rfl⟩, rfl, rfl, rfl⟩
  · have notEmpty : path.isEmpty = false := by simpa using empty
    cases compiled : compilePath pool (.constant wanted) path [] (rootPtrs desc)
        [.descendIntoSubmessage] with
    | error exception => simp [notEmpty, compiled, Except.map] at selects
    | ok result =>
        rcases result with ⟨final, visitors⟩
        simp only [notEmpty, compiled, Except.map, Bool.false_eq_true, if_false,
          Except.ok.injEq, Prod.mk.injEq] at selects
        rcases selects with ⟨isMessage, isSelected⟩
        have start : [ChainVisitor.descendIntoSubmessage] = [] ++ [.descendIntoSubmessage] :=
          rfl
        rw [start, compilePath_eq_ok_iff List.not_mem_nil] at compiled
        rcases compiled with ⟨parts, trailingDot, compiles, rfl⟩
        have dot : trailingDot = false := by
          rw [← Bool.not_eq_true, compiles.trailingDot_iff, List.nil_append,
            getLast?_splitOn_eq_some_nil_iff, not_or]
          exact ⟨empty, noDot⟩
        subst dot
        exact ⟨parts, ⟨false, .message (typeUrl pool selected), nofun⟩, final,
          ⟨.inr ⟨empty, compiles⟩, Emitter.create_message isMessage isSelected⟩, isSelected,
          rfl, rfl⟩

theorem ChainCompiles.join {desc selected : Message} {path rest : StdString}
    {parts others : List ChainPart} {last lastOther : ChainEnd}
    {middle final : DescPtrs Message}
    (compiles : ChainCompiles (.constant wanted) pool desc path parts last middle)
    (isSelected : middle.desc = some selected) (noDot : last.trailingDot = false)
    (nonempty : rest ≠ [])
    (follows : ChainCompiles (.constant wanted) pool selected rest others lastOther final) :
    ChainCompiles (.constant wanted) pool desc (joinPath path rest) (parts ++ others)
      lastOther final := by
  rcases follows with ⟨⟨isEmpty, _⟩ | ⟨_, restCompiles⟩, emits⟩
  · exact absurd isEmpty nonempty
  · have notNil : rest.splitOn '.'.toUInt8 ≠ [[]] :=
      fun single => nonempty ((splitOn_eq_singleton_nil_iff _ rest).mp single)
    refine ⟨.inr ?_, emits⟩
    rcases compiles.compiles with ⟨rfl, rfl, _, rfl⟩ | ⟨pathNonempty, pathCompiles⟩
    · exact ⟨nonempty, restCompiles.anywhere notNil 0 isSelected⟩
    · rw [joinPath, if_neg pathNonempty, List.splitOn_append_cons_self]
      refine ⟨by simp, ?_⟩
      rw [noDot] at pathCompiles
      exact pathCompiles.append (restCompiles.anywhere notNil _ isSelected)

end

/-! ## Smaller budgets -/

theorem answer_of_stops {action : Activity Unit} (stops : Stops action) :
    ∃ exception, answer action = .error exception := by
  rcases stops () with ⟨reason, stopped⟩
  unfold answer
  rcases ends : action () with ⟨events, (exception | _) | next⟩
  · exact ⟨exception, rfl⟩
  · exact ⟨_, rfl⟩
  · rw [ends] at stopped
    cases stopped

def AnswersWithin (action other : Activity Unit) : Prop :=
  answer action = .error .recursionDepthExceeded ∨ answer action = answer other

theorem congruence_answersWithin : Congruence AnswersWithin where
  one := .inr rfl
  raise _ _ := .inr rfl
  mul := by
    intro first second third fourth within rest
    unfold AnswersWithin
    rw [answer_mul, answer_mul]
    rcases within with exceeded | equal
    · exact .inl (by rw [exceeded]; rfl)
    · rw [equal]
      rcases rest with exceeded | equalRest
      · rw [exceeded]
        cases answer second with
        | error exception => exact .inr rfl
        | ok rows => exact .inl rfl
      · exact .inr (by rw [equalRest])
  stopped := by
    intro first second third fourth within stops
    rcases answer_of_stops stops with ⟨exception, isError⟩
    unfold AnswersWithin at within ⊢
    rw [answer_mul, answer_mul]
    rw [isError] at within ⊢
    rcases within with exceeded | equal
    · exact .inl exceeded
    · exact .inr (by rw [← equal]; rfl)

section

variable (utils : PostgresUtils)
variable (binaryToJsonString : StdString → Bytes → Option StdString)
variable {recursionLimit : Nat} (bits : UInt64)
variable (parts : List ChainPart) (last : ChainEnd)

theorem chain_answersWithin {budget : Nat} (enough : budget ≤ recursionLimit)
    (position otherPosition : Nat) {value : WireValue} (sized : value.Sized) :
    AnswersWithin
      (((Setting.fixed utils binaryToJsonString recursionLimit bits).chain last position
        parts).field budget value)
      (((Setting.fixed utils binaryToJsonString recursionLimit bits).chain last
        otherPosition parts).field recursionLimit value) :=
  (chain_lifts utils binaryToJsonString bits congruence_answersWithin (fun _ => .inr rfl)
    (.related congruence_answersWithin (fun _ _ _ _ => .inr rfl) (.inr rfl) _) last
    (fun _ _ => .inr rfl) parts position otherPosition).field
    ⟨Nat.le_refl _, .inr ⟨enough, fun _ => .inl rfl⟩⟩ value sized

end

/-! ## Substituting a path for an emitter -/

/-- Where the first action answers with payloads, the second one answers as the query
does on those, or exceeds the recursion limit. -/
def Substitutes (query : Bytes → Answer) (action other : Activity Unit) : Prop :=
  ∀ payloads, answer action = .ok payloads →
    (∀ payload ∈ payloads, payload.length < 2 ^ 31) ∧
      (answer other = .error .recursionDepthExceeded ∨
        answer other = .collect (payloads.map query))

theorem substitutes_quiet {query : Bytes → Answer} {action other : Activity Unit}
    (quiet : answer action = .ok []) (quietOther : answer other = .ok []) :
    Substitutes query action other := by
  intro payloads answers
  cases quiet.symm.trans answers
  exact ⟨nofun, .inr quietOther⟩

theorem congruence_substitutes (query : Bytes → Answer) : Congruence (Substitutes query) where
  one := by
    rintro _ ⟨rfl⟩
    exact ⟨nofun, .inr rfl⟩
  raise _ _ := nofun
  mul := by
    intro first second third fourth substitutes rest payloads answers
    rw [answer_mul, Answer.followedBy_eq_ok_iff] at answers
    rcases answers with ⟨front, back, isFront, isBack, rfl⟩
    rcases substitutes front isFront with ⟨bounded, follows⟩
    rcases rest back isBack with ⟨boundedBack, followsBack⟩
    refine ⟨fun payload member => ?_, ?_⟩
    · rcases List.mem_append.mp member with isMember | isMember
      · exact bounded payload isMember
      · exact boundedBack payload isMember
    · rw [answer_mul, List.map_append, Answer.collect_append]
      rcases follows with exceeded | equal
      · exact .inl (by rw [exceeded]; rfl)
      · rw [equal]
        rcases followsBack with exceeded | equalBack
        · rw [exceeded]
          cases Answer.collect (front.map query) with
          | error exception => exact .inr rfl
          | ok rows => exact .inl rfl
        · exact .inr (by rw [equalBack])
  stopped := by
    intro first second third fourth _ stops payloads answers
    rcases answer_of_stops stops with ⟨exception, isError⟩
    rw [answer_mul, isError] at answers
    simp at answers

section

variable (utils : PostgresUtils)
variable (binaryToJsonString : StdString → Bytes → Option StdString)
variable (recursionLimit : Nat) (bits : UInt64)

abbrev handingOn : Setting Unit :=
  Setting.fixed utils (fun _ contents => some contents) recursionLimit bits

theorem substitutes_nil {query : Bytes → Answer} {action other : Activity Unit}
    (noRow : ∀ payloads, answer action = .ok payloads → payloads = [] ∧ answer other = .ok []) :
    Substitutes query action other := by
  intro payloads answers
  rcases noRow payloads answers with ⟨rfl, nothing⟩
  exact ⟨nofun, .inr nothing⟩

theorem answer_readWhole_eq_ok {text : String} {size : Nat} {payload : Bytes}
    {continuation : Activity Unit} {rows : List StdString}
    (answers : answer (readWhole text size payload continuation) = .ok rows) :
    payload.length = size ∧ answer continuation = .ok rows := by
  unfold readWhole at answers
  split at answers
  · exact ⟨‹_›, answers⟩
  · simp at answers

theorem answer_treatAs_one_eq_ok {treatment : LengthDelimitedFieldTreatment} {size : Nat}
    {payload : Bytes} {rows : List StdString}
    (answers : answer (Setting.treatAs (fun _ => 1) (fun _ => 1) (fun _ => 1) treatment size
      payload) = .ok rows) : rows = [] := by
  have whole : ∀ text, answer (readWhole text size payload 1) = .ok rows → rows = [] := by
    intro text read
    have nothing := (answer_readWhole_eq_ok read).2
    cases nothing
    rfl
  cases treatment with
  | asString => exact whole _ answers
  | asBytes => exact whole _ answers
  | buffer => exact whole _ answers
  | _ => cases answers; rfl

theorem answer_emitTreated (typeUrl : StdString) {treatment : LengthDelimitedFieldTreatment}
    (notBuffer : treatment ≠ .buffer) (size : Nat) (payload : Bytes) :
    answer ((handingOn utils recursionLimit bits).emitTreated (.message typeUrl) treatment
        size payload) =
      answer (Setting.treatAs (fun _ => 1) (fun _ => 1) (fun _ => 1) treatment size
        payload) := by
  cases treatment <;> first | rfl | exact absurd rfl notBuffer

theorem emitter_substitutes {typeUrl : StdString} (known : typeUrl.isEmpty = false)
    {parts : List ChainPart} (nonempty : parts ≠ []) (last : ChainEnd) (position : Nat) :
    Lifts
      (Substitutes fun payload =>
        answer ((Setting.fixed utils binaryToJsonString recursionLimit bits).runs parts last
          payload))
      recursionLimit
      ((handingOn utils recursionLimit bits).emitter (.message typeUrl))
      ((Setting.fixed utils binaryToJsonString recursionLimit bits).chain last position
        parts) := by
  rcases List.exists_cons_of_ne_nil nonempty with ⟨part, others, rfl⟩
  refine ⟨?_, ?_⟩
  · intro budget otherBudget budgets value sized
    by_cases primitive : value.wireType ≠ 2
    · refine substitutes_nil fun payloads answers => ?_
      have emits : ((handingOn utils recursionLimit bits).emitter (.message typeUrl)).field
          budget value = (handingOn utils recursionLimit bits).emitPrimitive
            (.message typeUrl) value := by
        cases value <;> first | rfl | exact absurd rfl primitive
      have nothing : ((Setting.fixed utils binaryToJsonString recursionLimit bits).chain last
          position (part :: others)).field otherBudget value = 1 := by
        cases value <;> first | rfl | exact absurd rfl primitive
      rw [emits, emitPrimitive_fixed] at answers
      rw [nothing]
      cases answers
      exact ⟨rfl, rfl⟩
    · cases value with
      | lengthDelimited size payload =>
          intro payloads answers
          rcases answer_readWhole_eq_ok answers with ⟨rfl, emitted⟩
          have handsOn : EmitterKind.bufferedValue (fun _ contents => some contents)
              (.message typeUrl) payload = .ok (some payload) := by
            simp [EmitterKind.bufferedValue, known]
          simp only [Setting.fixed] at emitted
          rw [handsOn, answer_emit_ok_some] at emitted
          cases emitted
          refine ⟨fun _ member => by rwa [List.mem_singleton.mp member], ?_⟩
          rw [List.map_singleton, Answer.collect_cons, Answer.collect_nil,
            Answer.followedBy_ok_nil]
          exact chain_answersWithin utils binaryToJsonString bits _ last budgets.1 position 0
            sized
      | _ => exact absurd (by simp [WireValue.wireType]) primitive
  · intro type size payload
    refine substitutes_nil fun payloads answers => ?_
    have notBuffer : compositeFieldTreatmentForType type ≠ .buffer := by
      cases type <;> rintro ⟨⟩
    have same := answer_emitTreated utils recursionLimit bits typeUrl notBuffer size payload
    have answersSame := same.symm.trans answers
    exact ⟨answer_treatAs_one_eq_ok answersSame, answersSame.trans
      (by rw [answer_treatAs_one_eq_ok answersSame])⟩

theorem runs_append_substitutes {typeUrl : StdString} (known : typeUrl.isEmpty = false)
    (parts : List ChainPart) {last : ChainEnd} (isMessage : last.kind = .message typeUrl)
    (noDot : last.trailingDot = false) {others : List ChainPart} (nonempty : others ≠ [])
    (lastOther : ChainEnd) {message : Bytes} (bounded : message.length < 2 ^ 31) :
    Substitutes
      (fun payload => answer ((Setting.fixed utils binaryToJsonString recursionLimit
        bits).runs others lastOther payload))
      ((handingOn utils recursionLimit bits).runs parts last message)
      ((Setting.fixed utils binaryToJsonString recursionLimit bits).runs (parts ++ others)
        lastOther message) := by
  have ends : (handingOn utils recursionLimit bits).chainEnd last =
      (handingOn utils recursionLimit bits).emitter (.message typeUrl) := by
    simp only [Setting.chainEnd, noDot, isMessage, Bool.false_eq_true, if_false]
  have front : (handingOn utils recursionLimit bits).chain last 0 parts =
      (handingOn utils recursionLimit bits).chainOnto
        ((handingOn utils recursionLimit bits).emitter (.message typeUrl)) 0 parts := by
    rw [Setting.chain_eq_chainOnto, ends]
  have whole : (Setting.fixed utils binaryToJsonString recursionLimit bits).chain lastOther 0
      (parts ++ others) =
      (Setting.fixed utils binaryToJsonString recursionLimit bits).chainOnto
        ((Setting.fixed utils binaryToJsonString recursionLimit bits).chain lastOther
          (Setting.positionAfter 0 parts) others) 0 parts := by
    rw [Setting.chain_eq_chainOnto, Setting.chainOnto_append, Setting.chain_eq_chainOnto]
  change Substitutes _
    (((handingOn utils recursionLimit bits).chain last 0 parts).field recursionLimit
      (.ofPayload message))
    (((Setting.fixed utils binaryToJsonString recursionLimit bits).chain lastOther 0
      (parts ++ others)).field recursionLimit (.ofPayload message))
  rw [front, whole]
  exact (chainOnto_lifts (congruence_substitutes _)
    (.related (congruence_substitutes _)
      (fun _ _ _ _ => substitutes_quiet rfl rfl) (substitutes_quiet rfl rfl) _)
    (emitter_substitutes utils binaryToJsonString recursionLimit bits known nonempty
      lastOther (Setting.positionAfter 0 parts)) parts 0 0).field (.refl (Nat.le_refl _))
    (.ofPayload message) bounded

end

/-! ## Runs of composed paths -/

section

variable (Stream : Type) [CodedInputStream Stream] [LawfulCodedInputStream Stream]

/-- The payloads that a path selects: what its emitter would be given to convert. -/
def QueryImpl.payloads (query : QueryImpl) (utils : PostgresUtils)
    (localBits : Nat → UInt64) (message : Bytea) : Answer :=
  { query with binaryToJsonString := fun _ contents => some contents }.run Stream utils
    localBits message

theorem exists_byteas {payloads : List StdString}
    (bounded : ∀ payload ∈ payloads, payload.length < 2 ^ 31) :
    ∃ datas : List Bytea, datas.map Bytea.data = payloads := by
  induction payloads with
  | nil => exact ⟨[], rfl⟩
  | cons payload payloads induction =>
      rcases induction fun other member => bounded other (List.mem_cons_of_mem _ member) with
        ⟨datas, rfl⟩
      exact ⟨⟨payload, bounded payload List.mem_cons_self⟩ :: datas, rfl⟩

/-- Running `p.q` is running `q` on every payload that `p` selects, over one memory that holds
the same everywhere. -/
theorem run_joinPath {descSet : DescSet Message} {desc selected : Message}
    {p q : StdString} {wanted : UInt64} {queryP queryQ : QueryImpl}
    (selects : SelectsMessages (.constant wanted) descSet.pool desc p selected)
    (acceptsP : compileFrom descSet (.constant wanted) desc p none = .ok queryP)
    (nonempty : q ≠ [])
    (acceptsQ : compileFrom descSet (.constant wanted) selected q none = .ok queryQ)
    (utils : PostgresUtils) (bits : UInt64) {message : Bytea} {payloads : List StdString}
    (delivers : queryP.payloads Stream utils (fun _ => bits) message = .ok payloads) :
    ∃ (query : QueryImpl) (datas : List Bytea),
      compileFrom descSet (.constant wanted) desc (joinPath p q) none = .ok query ∧
      datas.map Bytea.data = payloads ∧
      (query.run Stream utils (fun _ => bits) message = .error .recursionDepthExceeded ∨
        query.run Stream utils (fun _ => bits) message =
          Answer.collect (datas.map (queryQ.run Stream utils (fun _ => bits)))) := by
  rcases selects.emitter with
    ⟨parts, last, middle, chain, isSelected, noDot, isMessage⟩
  have compiledP : compileFrom descSet (.constant wanted) desc p none = .ok _ :=
    compileFrom_eq_ok_iff.mpr ⟨_, _, _, chain, rfl⟩
  rw [acceptsP, Except.ok.injEq] at compiledP
  subst compiledP
  rcases compileFrom_eq_ok_iff.mp acceptsQ with ⟨others, lastOther, final, chainQ, rfl⟩
  have othersNonempty : others ≠ [] := by
    rintro rfl
    rcases chainQ.compiles with ⟨isEmpty, _⟩ | ⟨_, compiles⟩
    · exact nonempty isEmpty
    · exact nonempty ((splitOn_eq_singleton_nil_iff _ q).mp compiles.texts_eq)
  have substitutes := runs_append_substitutes utils descSet.binaryToJsonString
    (CodedInputStream.recursionLimit Stream) bits (typeUrl_isEmpty selected) parts isMessage noDot
    othersNonempty
    lastOther message.size_lt
  have zero := zeroBuffers_constant wanted
  rw [QueryImpl.payloads, run_fixed utils _ bits parts last zero message] at delivers
  rcases substitutes payloads delivers with ⟨bounded, follows⟩
  rcases exists_byteas bounded with ⟨datas, rfl⟩
  refine ⟨_, datas, compileFrom_eq_ok_iff.mpr
    ⟨_, _, _, chain.join isSelected noDot nonempty chainQ, rfl⟩, rfl, ?_⟩
  rw [run_fixed utils _ bits _ _ zero message]
  have each : datas.map (QueryImpl.run Stream
      ⟨chainObjects (.constant wanted) others lastOther, descSet.binaryToJsonString⟩ utils
        (fun _ => bits)) =
      (datas.map Bytea.data).map fun payload =>
        answer ((Setting.fixed utils descSet.binaryToJsonString
          (CodedInputStream.recursionLimit Stream) bits).runs others lastOther payload) := by
    rw [List.map_map]
    exact List.map_congr_left fun data _ => run_fixed utils _ bits _ _ zero data
  rw [each]
  exact follows

end

end PostgresProtobuf
