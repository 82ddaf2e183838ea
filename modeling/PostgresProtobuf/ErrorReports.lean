import PostgresProtobuf.Framing
import PostgresProtobuf.NumericLiterals
import PostgresProtobuf.SqlFunctions

/-! # What errors are about

A query function fails over its query, with one error for all messages, or over the message,
with the error codes of malformed and of too deep messages. It never reports an unknown
exception. -/

namespace PostgresProtobuf

open Foundation

variable {Message : Type}

/-! ## Compilation -/

section

variable {uninitialised : Uninitialised} {pool : DescriptorPool Message}

theorem onlyBadQuery_compilePart (position : Nat) (part : StdString)
    (descPtrs : DescPtrs Message) :
    OnlyBadQuery (compileQueryPart pool uninitialised position part descPtrs) := by
  cases isDesc : descPtrs.desc with
  | some desc => exact onlyBadQuery_compileQueryPart isDesc
  | none =>
      intro exception failed
      simp only [compileQueryPart, isDesc, throw, throwThe, MonadExceptOf.throw] at failed
      exact ⟨_, (Except.error.inj failed).symm⟩

theorem onlyBadQuery_pure {Value : Type} (value : Value) :
    OnlyBadQuery (pure value : Except Exception Value) := by
  intro exception failed
  cases failed

theorem onlyBadQuery_bind {Value Other : Type} {result : Except Exception Value}
    {next : Value → Except Exception Other} (refuses : OnlyBadQuery result)
    (refusesNext : ∀ value, OnlyBadQuery (next value)) : OnlyBadQuery (result >>= next) := by
  intro exception failed
  cases result with
  | error other =>
      cases failed
      exact refuses exception rfl
  | ok value => exact refusesNext value exception failed

theorem onlyBadQuery_compilePath (path partBuf : StdString) (descPtrs : DescPtrs Message)
    (visitors : List ChainVisitor) :
    OnlyBadQuery (compilePath pool uninitialised path partBuf descPtrs visitors) := by
  induction path generalizing partBuf descPtrs visitors with
  | nil =>
      unfold compilePath
      split
      · exact onlyBadQuery_pure _
      · exact onlyBadQuery_bind (onlyBadQuery_compilePart _ _ _) fun _ => onlyBadQuery_pure _
  | cons char path induction =>
      unfold compilePath
      split
      · exact onlyBadQuery_bind (onlyBadQuery_compilePart _ _ _) fun _ => induction _ _ _
      · exact induction _ _ _

theorem onlyBadQuery_getDescSet (descDb : DescDb Message) (query : StdString) :
    OnlyBadQuery (getDescSet descDb query) := by
  intro exception failed
  unfold getDescSet at failed
  dsimp only at failed
  split at failed
  · cases failed
  · exact ⟨_, (Except.error.inj failed).symm⟩

theorem onlyBadQuery_getDesc (descSet : DescSet Message) (query : StdString) (start : Nat) :
    OnlyBadQuery (getDesc descSet query start) := by
  intro exception failed
  unfold getDesc at failed
  split at failed
  · split at failed
    · cases failed
    · exact ⟨_, (Except.error.inj failed).symm⟩
  · exact ⟨_, (Except.error.inj failed).symm⟩

theorem onlyBadQuery_resolveQuery (descDb : DescDb Message) (query : StdString) :
    OnlyBadQuery (resolveQuery descDb query) := by
  unfold resolveQuery
  apply onlyBadQuery_bind (onlyBadQuery_getDescSet _ _)
  intro found
  exact onlyBadQuery_bind (onlyBadQuery_getDesc _ _ _) fun _ => onlyBadQuery_pure _

def Exception.OfQuery (exception : Exception) : Prop :=
  (∃ message, exception = .badQuery message) ∨ exception = .assertionFailed

theorem create_error {descPtrs : DescPtrs Message} {limit : Option Nat} {exception : Exception}
    (failed : Emitter.create pool descPtrs limit = .error exception) :
    exception = .assertionFailed := by
  unfold Emitter.create at failed
  split at failed
  · split at failed <;> cases failed
    rfl
  · split at failed <;> cases failed
    rfl
  · cases failed

theorem compileQuery_error {descDb : DescDb Message} {text : StdString} {limit : Option Nat}
    {exception : Exception}
    (failed : compileQuery descDb uninitialised text limit = .error exception) :
    exception.OfQuery := by
  unfold compileQuery at failed
  cases resolved : resolveQuery descDb text with
  | error other =>
      rw [resolved] at failed
      cases failed
      exact .inl (onlyBadQuery_resolveQuery descDb text _ resolved)
  | ok found =>
      rcases found with ⟨descSet, desc, path⟩
      rw [resolved] at failed
      simp only [bind, Except.bind, compileFrom] at failed
      split at failed
      · rename_i other compiled
        cases failed
        exact .inl (onlyBadQuery_compilePath _ _ _ _ _ compiled)
      · split at failed
        · rename_i other created
          cases failed
          exact .inr (create_error created)
        · cases failed

end

/-! ## Runs -/

section

variable {Stream : Type} [CodedInputStream Stream] [LawfulCodedInputStream Stream]

theorem ChainCompiles.run_error {uninitialised : Uninitialised} {pool : DescriptorPool Message}
    {desc : Message} {path : StdString} {parts : List ChainPart} {last : ChainEnd}
    {final : DescPtrs Message}
    (chain : ChainCompiles uninitialised pool desc path parts last final)
    (zero : uninitialised.ZeroBuffers) {utils : PostgresUtils}
    {binaryToJsonString : StdString → Bytes → Option StdString} {localBits : Nat → UInt64}
    {message : Bytea} {exception : Exception}
    (throws : QueryImpl.run Stream ⟨chainObjects uninitialised parts last, binaryToJsonString⟩
      utils localBits message = .error exception) : exception.Malformed := by
  have sized : (WireValue.ofPayload message.data).Sized := message.size_lt
  have reads : LevelsRead (flow Stream parts last utils binaryToJsonString message.data) :=
    ReadsLevels.kept.chain utils binaryToJsonString (CodedInputStream.recursionLimit Stream) 0
      .row last (fun _ throws => .raise (chain.throws_malformed throws)) parts 0
      (CodedInputStream.recursionLimit Stream) sized
  rcases flow_cases Stream parts last utils binaryToJsonString message with
    ⟨events, ends⟩ | ⟨events, other, ends, _⟩
  · obtain ⟨rows, returns⟩ : ∃ rows, QueryImpl.run Stream
        ⟨chainObjects uninitialised parts last, binaryToJsonString⟩ utils localBits message =
          .ok rows :=
      run_of_flow_ok zero ends
    cases returns.symm.trans throws
  · cases (run_of_flow_error zero ends).symm.trans throws
    rw [ends] at reads
    rcases reads with ⟨_, same, malformed⟩
    cases same
    exact malformed

end

/-! ## Reports -/

namespace SqlError

def OfQuery : SqlError → Prop
  | report code _ => code = .invalidParameterValue
  | aborted => True

def OfMessage : SqlError → Prop
  | report code _ => code = .invalidBinaryRepresentation ∨ code = .programLimitExceeded
  | aborted => False

end SqlError

theorem Exception.OfQuery.catch {exception : Exception} (ofQuery : exception.OfQuery) :
    (catchException exception).OfQuery := by
  rcases ofQuery with ⟨message, rfl⟩ | rfl
  · rfl
  · trivial

theorem Exception.Malformed.catch {exception : Exception} (malformed : exception.Malformed) :
    (catchException exception).OfMessage := by
  cases exception with
  | badProto message => exact .inl rfl
  | recursionDepthExceeded => exact .inr rfl
  | _ => exact malformed.elim

section

variable (Stream : Type) [CodedInputStream Stream] [LawfulCodedInputStream Stream]

/-- A call fails over its query, and then with the same error for every message, or it fails
for some messages only and reports that they are malformed or too deep. -/
theorem errors_blamed (session : Session Message) (zero : session.uninitialised.ZeroBuffers)
    (text : StdString) (limit : Option Nat) :
    (∃ error : SqlError, error.OfQuery ∧
        ∀ protoData, session.rows Stream text limit protoData = .error error) ∨
      ∀ protoData error, session.rows Stream text limit protoData = .error error →
        error.OfMessage := by
  unfold Session.rows
  cases compiled : compileQuery session.descDb session.uninitialised text limit with
  | error exception =>
      exact .inl ⟨catchException exception, (compileQuery_error compiled).catch, fun _ => rfl⟩
  | ok query =>
      apply Or.inr
      intro protoData error failed
      rcases compileQuery_eq_ok_iff.mp compiled with
        ⟨descSet, desc, path, parts, last, final, _, chain, rfl⟩
      simp only [bind, Except.bind] at failed
      cases answers : QueryImpl.run Stream
          ⟨chainObjects session.uninitialised parts last, descSet.binaryToJsonString⟩
          session.utils session.localBits protoData with
      | ok rows =>
          rw [answers] at failed
          cases failed
      | error exception =>
          rw [answers] at failed
          cases failed
          exact (chain.run_error zero answers).catch

/-- A query for strings. -/
theorem errors_blamed_repeatedString :
    let text := literal "pgpb.test.ExampleMessage:repeated_string[*]"
    (∃ error : SqlError, error.OfQuery ∧
        ∀ protoData, testSession.rows ArrayStream text none protoData = .error error) ∨
      ∀ protoData error, testSession.rows ArrayStream text none protoData = .error error →
        error.OfMessage :=
  errors_blamed ArrayStream testSession (fun _ => ⟨rfl, rfl⟩)
    (literal "pgpb.test.ExampleMessage:repeated_string[*]") none

end

end PostgresProtobuf
