import PostgresProtobuf.Composition
import PostgresProtobuf.CutMessages

/-! # Selected messages

A query that selects messages answers with their conversions to JSON, in the order in which
they stand in the message. What it selects does not depend on the conversion. -/

namespace PostgresProtobuf

open Foundation

variable {Message : Type}

/-! ## Converted rows -/

def unconverted : Exception := .badProto (literal "failed to convert submessage to JSON")

/-- The second action emits the conversions of what the first one emits, and ends in the same
way, or it stops at a row that is not converted. -/
def Converts (convert : StdString → Option StdString) (action other : Activity Unit) : Prop :=
  match (rowsOf action).mapM convert with
  | some texts => rowsOf other = texts ∧ (other ()).2 = (action ()).2
  | none => answer other = .error unconverted

section

variable {convert : StdString → Option StdString}
variable {first second third fourth : Activity Unit}

theorem converts_some {texts : List StdString}
    (isTexts : (rowsOf first).mapM convert = some texts) :
    Converts convert first second ↔ rowsOf second = texts ∧ (second ()).2 = (first ()).2 := by
  unfold Converts
  rw [isTexts]

theorem converts_none (fails : (rowsOf first).mapM convert = none) :
    Converts convert first second ↔ answer second = .error unconverted := by
  unfold Converts
  rw [fails]

theorem converts_quiet (noRow : rowsOf first = []) (noOther : rowsOf second = [])
    (same : (second ()).2 = (first ()).2) : Converts convert first second := by
  have nothing : (rowsOf first).mapM convert = some [] := by rw [noRow]; rfl
  exact (converts_some nothing).mpr ⟨noOther, same⟩

theorem Converts.fails_mul (converts : Converts convert first second)
    (fails : (rowsOf first).mapM convert = none)
    (failsBoth : (rowsOf (first * third)).mapM convert = none) :
    Converts convert (first * third) (second * fourth) := by
  rw [converts_none failsBoth, answer_mul, (converts_none fails).mp converts]
  rfl

theorem Converts.mul (converts : Converts convert first second)
    (follows : (∃ events, first () = (events, .ok ())) → Converts convert third fourth) :
    Converts convert (first * third) (second * fourth) := by
  rcases ends : first () with ⟨events, reason | ⟨⟨⟩⟩⟩
  · have same : rowsOf (first * third) = rowsOf first := rowsOf_mul_of_error ends
    cases isTexts : (rowsOf first).mapM convert with
    | none => exact converts.fails_mul isTexts (same ▸ isTexts)
    | some texts =>
        rcases (converts_some isTexts).mp converts with ⟨emits, ending⟩
        rcases endsOther : second () with ⟨others, other⟩
        rw [ends, endsOther] at ending
        subst ending
        rw [converts_some (same ▸ isTexts), rowsOf_mul_of_error endsOther]
        rw [Action.mul_apply_of_error ends, Action.mul_apply_of_error endsOther]
        exact ⟨emits, rfl⟩
  · have continues := follows ⟨events, ends⟩
    have both : (rowsOf (first * third)).mapM convert =
        (do return (← (rowsOf first).mapM convert) ++ (← (rowsOf third).mapM convert)) := by
      rw [rowsOf_mul_of_ok ends, List.mapM_append]
    cases isTexts : (rowsOf first).mapM convert with
    | none =>
        rw [isTexts] at both
        exact converts.fails_mul isTexts both
    | some texts =>
        rcases (converts_some isTexts).mp converts with ⟨emits, ending⟩
        rcases endsOther : second () with ⟨others, other⟩
        rw [ends, endsOther] at ending
        subst ending
        rw [isTexts] at both
        cases isMore : (rowsOf third).mapM convert with
        | none =>
            rw [isMore] at both
            have isOk : answer second = .ok (Event.rows others) := by rw [answer, endsOther]
            rw [converts_none both, answer_mul, isOk, (converts_none isMore).mp continues]
            rfl
        | some more =>
            rw [isMore] at both
            rcases (converts_some isMore).mp continues with ⟨emitsRest, endingRest⟩
            rw [converts_some both, rowsOf_mul_of_ok endsOther, emits, emitsRest]
            rw [Action.mul_apply_of_ok ends, Action.mul_apply_of_ok endsOther]
            exact ⟨rfl, endingRest⟩

theorem congruence_converts (convert : StdString → Option StdString) :
    Congruence (Converts convert) where
  one := converts_quiet rfl rfl rfl
  raise _ _ := converts_quiet rfl rfl rfl
  mul converts follows := converts.mul fun _ => follows
  stopped := by
    intro first second third fourth converts stops
    apply converts.mul
    rintro ⟨events, ends⟩
    rcases stops () with ⟨reason, stopped⟩
    rw [ends] at stopped
    cases stopped

end

/-! ## Chains of converting emitters -/

section

variable (utils : PostgresUtils)
variable (binaryToJsonString : StdString → Bytes → Option StdString)
variable {typeUrl : StdString}

theorem emit_converts (known : typeUrl.isEmpty = false) (payload : Bytes) :
    Converts (binaryToJsonString typeUrl)
      (emit (EmitterKind.bufferedValue (fun _ contents => some contents) (.message typeUrl)
        payload))
      (emit (EmitterKind.bufferedValue binaryToJsonString (.message typeUrl) payload)) := by
  have isRow : (rowsOf (emit (.ok (some payload)))).mapM (binaryToJsonString typeUrl) =
      [payload].mapM (binaryToJsonString typeUrl) := rfl
  simp only [EmitterKind.bufferedValue, known, Bool.false_eq_true, if_false]
  cases isJson : binaryToJsonString typeUrl payload with
  | none =>
      rw [List.mapM_cons, isJson] at isRow
      exact (converts_none isRow).mpr rfl
  | some json =>
      rw [List.mapM_cons, isJson] at isRow
      exact (converts_some isRow).mpr ⟨rfl, rfl⟩

variable (recursionLimit : Nat) (bits : UInt64)

theorem emitter_converts (known : typeUrl.isEmpty = false) :
    Lifts (Converts (binaryToJsonString typeUrl)) recursionLimit
      ((handingOn utils recursionLimit bits).emitter (.message typeUrl))
      ((Setting.fixed utils binaryToJsonString recursionLimit bits).emitter
        (.message typeUrl)) := by
  have congruence := congruence_converts (binaryToJsonString typeUrl)
  have treated := treatAs_related congruence
    (fun contents => congruence.one) (fun contents => congruence.one)
    (emit_converts binaryToJsonString known)
  refine ⟨?_, fun type size payload => treated _ size payload⟩
  intro budget otherBudget _ value _
  cases value with
  | lengthDelimited size payload => exact treated _ size payload
  | _ =>
      change Converts _ ((handingOn utils recursionLimit bits).emitPrimitive _ _)
        ((Setting.fixed utils binaryToJsonString recursionLimit bits).emitPrimitive _ _)
      rw [emitPrimitive_fixed, emitPrimitive_fixed]
      exact congruence.one

theorem runs_converts (known : typeUrl.isEmpty = false) (parts : List ChainPart)
    {last : ChainEnd} (isMessage : last.kind = .message typeUrl) {message : Bytes}
    (bounded : message.length < 2 ^ 31) :
    Converts (binaryToJsonString typeUrl)
      ((handingOn utils recursionLimit bits).runs parts last message)
      ((Setting.fixed utils binaryToJsonString recursionLimit bits).runs parts last
        message) := by
  have congruence := congruence_converts (binaryToJsonString typeUrl)
  have allowed := BudgetsAllowed.related congruence
    (fun _ _ _ _ => converts_quiet rfl rfl rfl) (converts_quiet rfl rfl rfl) recursionLimit
  have ends := endOnto_lifts congruence allowed
    (emitter_converts utils binaryToJsonString recursionLimit bits known) last.trailingDot
  unfold Setting.runs
  rw [Setting.chain_eq_chainOnto, Setting.chain_eq_chainOnto, Setting.chainEnd_eq_endOnto,
    Setting.chainEnd_eq_endOnto, isMessage]
  exact (chainOnto_lifts congruence allowed ends parts 0 0).field (.refl (Nat.le_refl _))
    (.ofPayload message) bounded

end

/-! ## Queries and conversions -/

namespace Session

variable (session : Session Message)

def convertAll (protobufType : StdString) (datas : List Bytea)
    (selection : Except Exception (List StdString)) : Except SqlError (List StdString) :=
  match datas.mapM (session.protobufToJsonText protobufType) with
  | .ok texts => (selection.mapError catchException).map fun _ => texts
  | .error _ => .error (catchException unconverted)

variable {protobufType typeUrl : StdString}
variable {binaryToJsonString : StdString → Bytes → Option StdString}

theorem mapM_protobufToJsonText
    (info : session.getProtobufInfo protobufType = some (typeUrl, binaryToJsonString))
    (datas : List Bytea) :
    datas.mapM (session.protobufToJsonText protobufType) =
      ((datas.map Bytea.data).mapM (binaryToJsonString typeUrl)).elim (.error unknownException)
        .ok := by
  induction datas with
  | nil => rfl
  | cons data datas induction =>
      have one : session.protobufToJsonText protobufType data =
          (binaryToJsonString typeUrl data.data).elim (.error unknownException) .ok := by
        rw [protobufToJsonText, info]
        dsimp only
        cases binaryToJsonString typeUrl data.data <;> rfl
      rw [List.mapM_cons, List.map_cons, List.mapM_cons, induction, one]
      cases binaryToJsonString typeUrl data.data with
      | none => rfl
      | some json => cases (datas.map Bytea.data).mapM (binaryToJsonString typeUrl) <;> rfl

theorem convertAll_eq
    (info : session.getProtobufInfo protobufType = some (typeUrl, binaryToJsonString))
    (datas : List Bytea) (selection : Except Exception (List StdString)) :
    session.convertAll protobufType datas selection =
      (((datas.map Bytea.data).mapM (binaryToJsonString typeUrl)).elim (.error unconverted)
        fun texts => selection.map fun _ => texts).mapError catchException := by
  unfold convertAll
  rw [session.mapM_protobufToJsonText info]
  cases (datas.map Bytea.data).mapM (binaryToJsonString typeUrl) with
  | none => rfl
  | some texts => cases selection <;> rfl

end Session

theorem Converts.answer_eq {convert : StdString → Option StdString}
    {action other : Activity Unit} (converts : Converts convert action other) :
    answer other =
      ((rowsOf action).mapM convert).elim (.error unconverted) fun texts =>
        (answer action).map fun _ => texts := by
  cases isTexts : (rowsOf action).mapM convert with
  | none => exact (converts_none isTexts).mp converts
  | some texts =>
      rcases (converts_some isTexts).mp converts with ⟨emits, ending⟩
      rcases ends : action () with ⟨events, reason⟩
      rcases endsOther : other () with ⟨others, otherReason⟩
      rw [rowsOf, endsOther] at emits
      rw [ends, endsOther] at ending
      subst ending
      subst emits
      unfold answer
      rw [ends, endsOther]
      rcases otherReason with (exception | _) | next <;> rfl

def QueryImpl.handing (query : QueryImpl) : QueryImpl :=
  { query with binaryToJsonString := fun _ contents => some contents }

section

variable (Stream : Type) [CodedInputStream Stream] [LawfulCodedInputStream Stream]

/-- Querying messages is selecting their bytes, and converting these one after the other. -/
theorem queryArray_converts (session : Session Message) {text protobufType typeUrl : StdString}
    {query : QueryImpl}
    (accepted : compileQuery session.descDb session.uninitialised text none = .ok query)
    (zero : session.uninitialised.ZeroBuffers)
    (selects : query.visitors.getLast? = some (.emitter (.new (.message typeUrl) none)))
    (info : session.getProtobufInfo protobufType = some (typeUrl, query.binaryToJsonString))
    (protoData : Bytea) :
    let selected := query.handing.emitted Stream session.utils session.localBits protoData
    let selection := query.handing.run Stream session.utils session.localBits protoData
    ∃ datas : List Bytea,
      datas.map Bytea.data = selected ∧ Excerpts Eq protoData.data selected ∧
      session.protobufQueryArray Stream text protoData =
        session.convertAll protobufType datas selection ∧
      session.protobufQuery Stream text protoData =
        (session.convertAll protobufType datas selection).map List.head? := by
  intro selected selection
  rcases compileQuery_eq_ok_iff.mp accepted with
    ⟨descSet, desc, path, parts, last, final, _, chain, rfl⟩
  have isKind : last.kind = .message typeUrl := kind_of_last selects
  have isText : last.kind.Textual := by
    rw [isKind]
    trivial
  have known : typeUrl.isEmpty = false := by
    rcases Emitter.kind_cases chain.emits with ⟨_, desc, isMessage⟩ | ⟨_, descriptor, isEnum⟩ |
      ⟨_, _, isPrimitive⟩
    · cases isKind.symm.trans isMessage
      exact typeUrl_isEmpty desc
    · cases isKind.symm.trans isEnum
    · cases isKind.symm.trans isPrimitive
  have excerpts : Excerpts Eq protoData.data selected := by
    apply (chain.emitted_excerpts Stream zero isText (fun _ contents => some contents)
      session.utils session.localBits protoData).imp
    intro piece output shows
    rw [isKind] at shows
    exact Option.some.inj shows
  have bounded : ∀ payload ∈ selected, payload.length < 2 ^ 31 := fun payload member =>
    Nat.lt_of_le_of_lt (excerpts.infix_of_mem member).length_le protoData.size_lt
  rcases exists_byteas bounded with ⟨datas, isDatas⟩
  have converts := runs_converts session.utils descSet.binaryToJsonString
    (CodedInputStream.recursionLimit Stream) 0 known parts isKind protoData.size_lt
  have answers := converts.answer_eq
  have isSelection : selection = _ := run_textual Stream zero isText session.localBits protoData
  have isSelected : selected = _ :=
    emitted_textual Stream zero isText session.localBits protoData
  rw [← isSelection, rowsOf, ← isSelected, ← isDatas,
    ← run_textual Stream zero isText session.localBits protoData] at answers
  have queried : session.protobufQueryArray Stream text protoData =
      session.convertAll protobufType datas selection := by
    rw [session.convertAll_eq info, ← answers, Session.protobufQueryArray, Session.rows, accepted]
    rfl
  refine ⟨datas, isDatas, excerpts, queried, ?_⟩
  rw [← queried]
  rfl

/-- An inner message, and another one that is cut off. -/
theorem queryArray_converts_repeatedInner :
    let protoData : Bytea := ⟨[0x2A, 3, 0x0A, 1, 0x61, 0x2A, 9, 0x0A, 1], by decide⟩
    let text := literal "pgpb.test.ExampleMessage:repeated_inner[*]"
    let query := testQuery .exampleMessage "repeated_inner[*]"
    let selected := query.handing.emitted ArrayStream testUtils (fun _ => 0) protoData
    let selection := query.handing.run ArrayStream testUtils (fun _ => 0) protoData
    let inner := literal "pgpb.test.ExampleMessage.InnerMessage"
    ∃ datas : List Bytea,
      datas.map Bytea.data = selected ∧ Excerpts Eq protoData.data selected ∧
      testSession.protobufQueryArray ArrayStream text protoData =
        testSession.convertAll inner datas selection ∧
      testSession.protobufQuery ArrayStream text protoData =
        (testSession.convertAll inner datas selection).map List.head? :=
  queryArray_converts ArrayStream testSession
    (rfl : compileQuery testDb zeroMemory
      (literal "pgpb.test.ExampleMessage:repeated_inner[*]") none =
      .ok (testQuery .exampleMessage "repeated_inner[*]"))
    (fun _ => ⟨rfl, rfl⟩) rfl rfl ⟨[0x2A, 3, 0x0A, 1, 0x61, 0x2A, 9, 0x0A, 1], by decide⟩

end

end PostgresProtobuf
