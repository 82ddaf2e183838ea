import PostgresProtobuf.QueryPrefixes
import PostgresProtobuf.Emissions

/-! # The SQL functions

`protobuf_query`, `protobuf_query_array` and the conversions to and from JSON, with the errors
that they report. -/

namespace PostgresProtobuf

open Foundation

variable {Message : Type}

inductive ErrorCode
  | invalidBinaryRepresentation
  | invalidParameterValue
  | programLimitExceeded
  | internalError
  deriving DecidableEq

inductive SqlError
  | report (code : ErrorCode) (message : StdString)
  | aborted
  deriving DecidableEq

def unknownException : SqlError :=
  .report .internalError
    (literal "unknown C++ exception in postgres_protobuf extension")

def catchException : Exception → SqlError
  | .badProto message =>
      .report .invalidBinaryRepresentation (literal "invalid protobuf: " ++ cString message)
  | .badQuery message =>
      .report .invalidParameterValue (literal "invalid query: " ++ cString message)
  | .recursionDepthExceeded =>
      .report .programLimitExceeded (literal "protobuf recursion depth exceeded")
  | .limitReached => unknownException
  | .assertionFailed | .outOfFuel => .aborted

structure Session (Message : Type) where
  descDb : DescDb Message
  uninitialised : Uninitialised
  utils : PostgresUtils
  localBits : Nat → UInt64

namespace Session

variable (session : Session Message)

section

variable (Stream : Type) [CodedInputStream Stream]

def rows (text : StdString) (limit : Option Nat) (protoData : Bytea) :
    Except SqlError (List StdString) :=
  Except.mapError catchException do
    let query ← compileQuery session.descDb session.uninitialised text limit
    query.run Stream session.utils session.localBits protoData

def protobufQuery (text : StdString) (protoData : Bytea) :
    Except SqlError (Option StdString) :=
  (session.rows Stream text (some 1) protoData).map List.head?

def protobufQueryArray (text : StdString) (protoData : Bytea) :
    Except SqlError (List StdString) :=
  session.rows Stream text none protoData

end

/-- `GetProtobufInfoOrThrow`: the type URL and the converter; `none` is
`ProtobufNotFound`. -/
def getProtobufInfo (descSpec : StdString) :
    Option (StdString × (StdString → Bytes → Option StdString)) :=
  let (descSetName, descNameStart) :=
    match find ':'.toUInt8 descSpec 0 with
    | some colon => (descSpec.take colon, colon + 1)
    | none => (literal "default", 0)
  match session.descDb.descSets descSetName with
  | none => none
  | some descSet =>
      let descName := descSpec.drop descNameStart
      match descSet.pool.findMessageTypeByName descName with
      | none => none
      | some _ =>
          some (literal "type.googleapis.com/" ++ descName, descSet.binaryToJsonString)

def protobufToJsonText (protobufType : StdString) (protoData : Bytea) :
    Except SqlError StdString :=
  match session.getProtobufInfo protobufType with
  | none =>
      .error (.report .internalError (literal "invalid query: protobuf type " ++
        cString protobufType ++ literal " not found"))
  | some (typeUrl, binaryToJsonString) =>
      match binaryToJsonString typeUrl protoData.data with
      | some json => .ok json
      | none => .error unknownException

end Session

/-! ## Whole messages -/

theorem Host.answer_nil (Stream : Type) [CodedInputStream Stream]
    [LawfulCodedInputStream Stream] (host : Host Message) (desc : Message) (message : Bytea) :
    host.answer Stream desc [] message =
      match host.descSet.binaryToJsonString (typeUrl host.descSet.pool desc) message.data with
      | some json => .ok [json]
      | none => .error (.badProto (literal "failed to convert submessage to JSON")) := by
  have chain : ChainCompiles host.uninitialised host.descSet.pool desc [] []
      ⟨false, .message (typeUrl host.descSet.pool desc), nofun⟩ (rootPtrs desc) :=
    ⟨.inl ⟨rfl, rfl, rfl, rfl⟩, Emitter.create_message rfl rfl⟩
  have emits : (host.setting Stream).runs []
      ⟨false, .message (typeUrl host.descSet.pool desc), nofun⟩ message.data =
      emit (EmitterKind.bufferedValue host.descSet.binaryToJsonString
        (.message (typeUrl host.descSet.pool desc)) message.data) :=
    readWhole_of_fits rfl
  apply answer_of_outcome chain
  rw [Setting.outcome, emits, EmitterKind.bufferedValue, typeUrl_isEmpty]
  cases host.descSet.binaryToJsonString (typeUrl host.descSet.pool desc) message.data <;> rfl

theorem compileFrom_limit (descSet : DescSet Message) (uninitialised : Uninitialised)
    (desc : Message) (path : StdString) (limit : Option Nat) :
    compileFrom descSet uninitialised desc path limit =
      compileFrom descSet uninitialised desc path none := rfl

/-! ## Conversion to JSON -/

theorem exists_mem_splitOn_concat {dot char : UInt8} (notDot : char ≠ dot) (front : StdString) :
    ∃ text, text ++ [char] ∈ (front ++ [char]).splitOn dot := by
  induction front with
  | nil =>
      have absent : dot ∉ [char] := by simpa using Ne.symm notDot
      refine ⟨[], ?_⟩
      rw [List.nil_append, List.splitOn_eq_singleton absent]
      exact List.mem_cons_self
  | cons first front induction =>
      rcases induction with ⟨text, member⟩
      rw [List.cons_append, List.splitOn_cons_eq_if_modifyHead]
      split
      · exact ⟨text, List.mem_cons_of_mem _ member⟩
      · generalize (front ++ [char]).splitOn dot = texts at member
        cases member with
        | head rest => exact ⟨first :: text, List.mem_cons_self⟩
        | tail other later => exact ⟨text, List.mem_cons_of_mem _ later⟩

section

variable {uninitialised : Uninitialised} {pool : DescriptorPool Message}

theorem PathCompiles.part_of_mem {position : Nat} {descPtrs final : DescPtrs Message}
    {texts : List StdString} {parts : List ChainPart} {trailingDot : Bool}
    (compiles : PathCompiles uninitialised pool position descPtrs texts parts trailingDot
      final)
    {text : StdString} (member : text ∈ texts) (nonempty : text ≠ []) :
    ∃ position desc chainPart next,
      PartCompiles uninitialised pool position desc text chainPart next := by
  induction compiles with
  | trailingDot => exact absurd (List.mem_singleton.mp member) nonempty
  | last _ _ part =>
      rw [List.mem_singleton.mp member]
      exact ⟨_, _, _, _, part⟩
  | cons _ _ part _ induction =>
      rcases List.mem_cons.mp member with rfl | later
      · exact ⟨_, _, _, _, part⟩
      · exact induction later

theorem compileFrom_colon (descSet : DescSet Message) (desc : Message) (front : StdString)
    (limit : Option Nat) :
    ∃ exception, compileFrom descSet uninitialised desc (front ++ [':'.toUInt8]) limit =
      .error exception := by
  cases compiled : compileFrom descSet uninitialised desc (front ++ [':'.toUInt8]) limit with
  | error exception => exact ⟨exception, rfl⟩
  | ok query =>
      rcases compileFrom_eq_ok_iff.mp compiled with ⟨parts, last, final, chain, _⟩
      rcases chain.compiles with ⟨isEmpty, _⟩ | ⟨_, compiles⟩
      · simp at isEmpty
      · rcases exists_mem_splitOn_concat
          (by decide : ':'.toUInt8 ≠ '.'.toUInt8) front with ⟨text, member⟩
        rcases compiles.part_of_mem member (by simp) with ⟨_, _, _, _, part⟩
        rcases part.lookup_of_colon (by simp) with ⟨inner, _, _, selects, _⟩
        -- The last character would have to be the closing bracket.
        have whole := referenceText_append_selectorText (text ++ [':'.toUInt8])
        have ends := congrArg List.getLast? whole
        rw [selects, bracketed, ← List.cons_append, ← List.append_assoc,
          List.getLast?_concat, List.getLast?_concat] at ends
        exact absurd (Option.some.inj ends) (by decide)

end

section

variable (Stream : Type) [CodedInputStream Stream] [LawfulCodedInputStream Stream]
variable (session : Session Message)

def Session.convert (set name : StdString) (protoData : Bytea) : Option StdString := do
  let descSet ← session.descDb.descSets set
  let _ ← descSet.pool.findMessageTypeByName name
  descSet.binaryToJsonString (literal "type.googleapis.com/" ++ name) protoData.data

def Reports {Value : Type} (result : Except SqlError Value) (expected : Option Value) : Prop :=
  match expected with
  | some value => result = .ok value
  | none => ∃ error, result = .error error

theorem Reports.same {Value Other : Type} {result : Except SqlError Value}
    {other : Except SqlError Other} {wrap : Value → Other}
    (injective : Function.Injective wrap) {expected : Option Value}
    (reports : Reports result expected) (reportsOther : Reports other (expected.map wrap)) :
    (∀ value, result = .ok value ↔ other = .ok (wrap value)) ∧
      ((∃ error, result = .error error) ↔ ∃ error, other = .error error) := by
  cases expected with
  | none =>
      rcases reports with ⟨error, rfl⟩
      rcases reportsOther with ⟨otherError, rfl⟩
      exact ⟨fun _ => iff_of_false nofun nofun, iff_of_true ⟨_, rfl⟩ ⟨_, rfl⟩⟩
  | some value =>
      have isValue : result = .ok value := reports
      have isOther : other = .ok (wrap value) := reportsOther
      subst isValue
      subst isOther
      refine ⟨fun found => ?_, iff_of_false nofun nofun⟩
      simp [injective.eq_iff]

theorem reports_query (set name : StdString) {text : StdString}
    (compiled : compileQuery session.descDb session.uninitialised text (some 1) =
      compileIn session.descDb session.uninitialised set name [] (some 1))
    (protoData : Bytea) :
    Reports (session.protobufQuery Stream text protoData)
      ((session.convert set name protoData).map some) := by
  unfold Session.protobufQuery Session.rows Session.convert
  rw [compiled, compileIn, resolveIn]
  cases found : session.descDb.descSets set with
  | none => exact ⟨_, rfl⟩
  | some descSet =>
      cases isDesc : descSet.pool.findMessageTypeByName name with
      | none =>
          simp only [isDesc, bind, Except.bind, Option.bind]
          exact ⟨_, rfl⟩
      | some desc =>
          let host : Host Message :=
            ⟨descSet, session.uninitialised, session.utils, session.localBits⟩
          have answered := host.answer_nil Stream desc protoData
          have isUrl : typeUrl descSet.pool desc = literal "type.googleapis.com/" ++ name := by
            rw [typeUrl, descSet.pool.fullName_of_find name desc isDesc]
          simp only [Host.answer, bind, Except.bind, isUrl, host] at answered
          simp only [isDesc, bind, Except.bind, Option.bind, compileFrom_limit, answered]
          cases descSet.binaryToJsonString (literal "type.googleapis.com/" ++ name)
            protoData.data with
          | none => exact ⟨_, rfl⟩
          | some json => rfl

def Session.infoIn (set name : StdString) :
    Option (StdString × (StdString → Bytes → Option StdString)) := do
  let descSet ← session.descDb.descSets set
  let _ ← descSet.pool.findMessageTypeByName name
  return (literal "type.googleapis.com/" ++ name, descSet.binaryToJsonString)

theorem getProtobufInfo_plain {name : StdString} (noColon : ':'.toUInt8 ∉ name) :
    session.getProtobufInfo name = session.infoIn defaultSet name := by
  unfold Session.getProtobufInfo Session.infoIn
  simp only [find_of_not_mem noColon, List.drop_zero]
  change _ = (session.descDb.descSets (literal "default")).bind _
  cases session.descDb.descSets (literal "default") with
  | none => rfl
  | some descSet =>
      simp only [bind, Option.bind, pure]
      cases descSet.pool.findMessageTypeByName name <;> rfl

theorem getProtobufInfo_prefixed {set : StdString} (noColon : ':'.toUInt8 ∉ set)
    (name : StdString) :
    session.getProtobufInfo (unprefixed set name) = session.infoIn set name := by
  unfold Session.getProtobufInfo Session.infoIn
  have isSet : (unprefixed set name).take set.length = set := List.take_left
  have isName : (unprefixed set name).drop (set.length + 1) = name := by
    rw [unprefixed, ← List.drop_drop, List.drop_left]
    rfl
  simp only [find_unprefixed noColon name, isSet, isName]
  cases session.descDb.descSets set with
  | none => rfl
  | some descSet =>
      simp only [bind, Option.bind, pure]
      cases descSet.pool.findMessageTypeByName name <;> rfl

theorem reports_toJsonText (set name : StdString) {spec : StdString}
    (info : session.getProtobufInfo spec = session.infoIn set name) (protoData : Bytea) :
    Reports (session.protobufToJsonText spec protoData)
      (session.convert set name protoData) := by
  unfold Session.protobufToJsonText Session.convert
  rw [info, Session.infoIn]
  cases session.descDb.descSets set with
  | none => exact ⟨_, rfl⟩
  | some descSet =>
      simp only [bind, Option.bind, pure]
      cases descSet.pool.findMessageTypeByName name with
      | none => exact ⟨_, rfl⟩
      | some desc =>
          simp only
          cases descSet.binaryToJsonString (literal "type.googleapis.com/" ++ name)
            protoData.data with
          | none => exact ⟨_, rfl⟩
          | some json => rfl

/-- Converting a message to JSON is querying it with the empty path. -/
theorem toJsonText_eq_query (spec : StdString) (protoData : Bytea) :
    (∀ text, session.protobufToJsonText spec protoData = .ok text ↔
        session.protobufQuery Stream (spec ++ literal ":") protoData = .ok (some text)) ∧
      ((∃ error, session.protobufToJsonText spec protoData = .error error) ↔
        ∃ error, session.protobufQuery Stream (spec ++ literal ":") protoData =
          .error error) := by
  by_cases more : ':'.toUInt8 ∈ spec
  · rcases List.eq_append_cons_of_mem more with ⟨set, rest, rfl, noColon⟩
    by_cases evenMore : ':'.toUInt8 ∈ rest
    · -- The path of the query ends in a colon, and the name of the type contains one.
      rcases List.eq_append_cons_of_mem evenMore with ⟨name, front, rfl, noColonInName⟩
      have noType : session.convert set (unprefixed name front) protoData = none := by
        unfold Session.convert
        cases session.descDb.descSets set with
        | none => rfl
        | some descSet =>
            cases isDesc : descSet.pool.findMessageTypeByName (unprefixed name front) with
            | none => simp [isDesc]
            | some desc =>
                have noColons := descSet.pool.colon_not_mem_fullName desc
                rw [descSet.pool.fullName_of_find _ desc isDesc] at noColons
                exact absurd (List.mem_append_right _ List.mem_cons_self) noColons
      have converts := reports_toJsonText session set (unprefixed name front)
        (getProtobufInfo_prefixed session noColon _) protoData
      rw [noType] at converts
      have isPrefixed : set ++ ':'.toUInt8 :: (name ++ ':'.toUInt8 :: front) ++ literal ":" =
          prefixed set name (front ++ [':'.toUInt8]) := by
        simp [prefixed, unprefixed, literal]
      have refuses : Refuses session.descDb session.uninitialised set name
          (front ++ [':'.toUInt8]) :=
        fun descSet desc _ _ => compileFrom_colon descSet desc front none
      rcases (compileIn_isError_iff (some 1)).mpr refuses with ⟨exception, rejected⟩
      have fails : Reports (session.protobufQuery Stream
          (prefixed set name (front ++ [':'.toUInt8])) protoData)
          ((none : Option StdString).map some) := by
        unfold Session.protobufQuery Session.rows
        rw [compileQuery_prefixed noColon noColonInName, rejected]
        exact ⟨_, rfl⟩
      rw [isPrefixed]
      exact converts.same (Option.some_injective _) fails
    · have isPrefixed : set ++ ':'.toUInt8 :: rest ++ literal ":" = prefixed set rest [] := by
        simp [prefixed, unprefixed, literal]
      rw [isPrefixed]
      exact (reports_toJsonText session set rest (getProtobufInfo_prefixed session noColon _)
        protoData).same (Option.some_injective _)
          (reports_query Stream session set rest (compileQuery_prefixed noColon evenMore _)
            protoData)
  · have isUnprefixed : spec ++ literal ":" = unprefixed spec [] := rfl
    rw [isUnprefixed]
    exact (reports_toJsonText session defaultSet spec (getProtobufInfo_plain session more)
      protoData).same (Option.some_injective _)
        (reports_query Stream session defaultSet spec
          (compileQuery_unprefixed more List.not_mem_nil _) protoData)

def testSession : Session TestMessage := ⟨testDb, zeroMemory, testUtils, fun _ => 0⟩

/-- A type with the name of its descriptor set. -/
theorem toJsonText_eq_query_innerMessage :
    let spec := literal "default:pgpb.test.ExampleMessage.InnerMessage"
    let protoData : Bytea := ⟨[0x0A, 1, 0x61], by decide⟩
    (∀ text, testSession.protobufToJsonText spec protoData = .ok text ↔
        testSession.protobufQuery ArrayStream (spec ++ literal ":") protoData =
          .ok (some text)) ∧
      ((∃ error, testSession.protobufToJsonText spec protoData = .error error) ↔
        ∃ error, testSession.protobufQuery ArrayStream (spec ++ literal ":") protoData =
          .error error) :=
  toJsonText_eq_query ArrayStream testSession
    (literal "default:pgpb.test.ExampleMessage.InnerMessage") ⟨[0x0A, 1, 0x61], by decide⟩

end

end PostgresProtobuf
