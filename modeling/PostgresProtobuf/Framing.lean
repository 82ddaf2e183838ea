import PostgresProtobuf.Requirements
import PostgresProtobuf.TestSchema

/-! # Malformed messages

A run that returns has read all tags and values of every level that it scanned, and a run
that throws says that the message is malformed or too deep. But no run looks whether a
length-delimited field that it skips, unpacks or descends into fits its message. -/

namespace PostgresProtobuf

open Foundation

variable {Message : Type}

/-! ## Complete levels -/

/-- Where a run ends, every level that it has entered could be read to its end, and where it
throws, it does so about the message. -/
def LevelsRead : List Event × Except (Stop Exception) Unit → Prop
  | (events, .ok _) => ∀ budget level, .enter budget level ∈ events → (readFields level).2 = none
  | (_, .error reason) => ∃ exception : Exception, reason = .raised exception ∧ exception.Malformed

def ReadsLevels (action : Activity Unit) : Prop := LevelsRead (action ())

namespace ReadsLevels

theorem row (text : StdString) : ReadsLevels (Action.log (.row text)) := by
  intro budget level member
  cases List.mem_singleton.mp member

theorem raise {exception : Exception} (malformed : exception.Malformed) :
    ReadsLevels (raise exception) :=
  ⟨exception, rfl, malformed⟩

theorem mul {first rest : Activity Unit} (reads : ReadsLevels first)
    (readsRest : ReadsLevels rest) : ReadsLevels (first * rest) := by
  unfold ReadsLevels at *
  rcases ends : first () with ⟨events, reason | next⟩
  · rw [ends] at reads
    rw [Action.mul_apply_of_error ends]
    exact reads
  · rw [ends] at reads
    rw [Action.mul_apply_of_ok ends]
    rcases endsRest : rest () with ⟨more, reason | last⟩
    · rw [endsRest] at readsRest
      exact readsRest
    · rw [endsRest] at readsRest
      intro budget level member
      rcases List.mem_append.mp member with member | member
      · exact reads budget level member
      · exact readsRest budget level member

theorem endOn (fault : Option FramingFault) : ReadsLevels (endOn fault) := by
  cases fault with
  | none => exact nofun
  | some fault => exact raise (framingException_malformed fault)

theorem log_of_stops (event : Event) {action : Activity Unit} (reads : ReadsLevels action)
    (stops : Stops action) : ReadsLevels (Action.log event * action) := by
  rcases stops () with ⟨reason, stopped⟩
  unfold ReadsLevels at *
  rw [Action.mul_apply_of_ok (Action.log_apply event ())]
  rcases ends : action () with ⟨events, ending⟩
  rw [ends] at reads stopped
  subst stopped
  exact reads

theorem level (budget : Nat) (payload : Bytes) {scanned : Activity Unit}
    (reads : ReadsLevels scanned) :
    ReadsLevels (Action.log (.enter budget payload) * scanned *
      PostgresProtobuf.endOn (readFields payload).2 * Action.log .leave) := by
  cases ends : (readFields payload).2 with
  | none =>
      have enters : ReadsLevels (Action.log (.enter budget payload)) := by
        intro otherBudget other member
        rw [List.mem_singleton, Event.enter.injEq] at member
        rw [member.2, ends]
      have leaves : ReadsLevels (Action.log .leave) := by
        intro otherBudget other member
        cases List.mem_singleton.mp member
      exact ((enters.mul reads).mul (endOn none)).mul leaves
  | some fault =>
      have malformed := framingException_malformed fault
      have throws : ReadsLevels (scanned * PostgresProtobuf.raise (framingException fault)) :=
        reads.mul (raise malformed)
      have stops : Stops (scanned * PostgresProtobuf.raise (framingException fault)) :=
        (stops_raise _).mul_right scanned
      have whole : Action.log (.enter budget payload) * scanned *
          PostgresProtobuf.endOn (some fault) * Action.log .leave =
          Action.log (.enter budget payload) *
            (scanned * PostgresProtobuf.raise (framingException fault)) := by
        rw [mul_assoc, mul_assoc, ← mul_assoc scanned]
        exact congrArg _ (stops.mul _)
      rw [whole]
      exact throws.log_of_stops _ stops

theorem kept : KeptByChains ReadsLevels where
  one := nofun
  raise _ := raise
  mul := mul
  level := level

end ReadsLevels

/-! ## Runs -/

theorem ChainCompiles.throws_malformed {uninitialised : Uninitialised}
    {pool : DescriptorPool Message} {desc : Message} {path : StdString}
    {parts : List ChainPart} {last : ChainEnd} {final : DescPtrs Message}
    (chain : ChainCompiles uninitialised pool desc path parts last final)
    {exception : Exception} (throws : last.kind.Throws exception) : exception.Malformed := by
  rcases throws with malformed | ⟨_, typeUrl, isMessage, isEmpty⟩
  · exact malformed
  · rcases Emitter.kind_cases chain.emits with ⟨_, selected, isUrl⟩ | ⟨_, _, isEnum⟩ |
      ⟨_, _, isPrimitive⟩
    · rw [isMessage, EmitterKind.message.injEq] at isUrl
      rw [isUrl, typeUrl_isEmpty] at isEmpty
      cases isEmpty
    · cases isMessage.symm.trans isEnum
    · cases isMessage.symm.trans isPrimitive

def Scans (trace : List Event) (level : Bytes) : Prop :=
  ∃ budget, Event.enter budget level ∈ trace

section

variable (Stream : Type) [CodedInputStream Stream] [LawfulCodedInputStream Stream]

/-- A run that returns has found all the levels that it scanned well framed, and others
throw, exactly where a message that passes every check along the chain has no field that is
skipped, unpacked or descended into and overruns its level. -/
theorem framing_iff {descDb : DescDb Message} {uninitialised : Uninitialised}
    {text : StdString} {query : QueryImpl} {descSet : DescSet Message} {desc : Message}
    {path : StdString} {parts : List ChainPart} {last : ChainEnd} {final : DescPtrs Message}
    (accepted : compileQuery descDb uninitialised text none = .ok query)
    (resolved : resolveQuery descDb text = .ok (descSet, desc, path))
    (chain : ChainCompiles uninitialised descSet.pool desc path parts last final)
    (zero : uninitialised.ZeroBuffers) (utils : PostgresUtils) (localBits : Nat → UInt64)
    (message : Bytea) :
    let limit := CodedInputStream.recursionLimit Stream
    let checks := Requirement.checks utils descSet.binaryToJsonString last.kind 0
    ((∀ rows, query.run Stream utils localBits message = .ok rows →
        ∀ level, Scans (query.trace Stream utils localBits message) level → WellFramed level) ∧
      ∀ exception, query.run Stream utils localBits message = .error exception →
        exception.Malformed) ↔
      (checks.Met parts last limit message.data →
        checks.fitting.Met parts last limit message.data) := by
  intro limit checks
  have isQuery : query = ⟨chainObjects uninitialised parts last, descSet.binaryToJsonString⟩ :=
    Except.ok.inj (accepted.symm.trans
      (compileQuery_eq_ok_iff.mpr ⟨_, _, _, _, _, _, resolved, chain, rfl⟩))
  subst isQuery
  have sized : (WireValue.ofPayload message.data).Sized := message.size_lt
  have reads : LevelsRead
      (flow Stream parts last utils descSet.binaryToJsonString message.data) :=
    ReadsLevels.kept.chain utils descSet.binaryToJsonString limit 0 .row last
      (fun _ throws => .raise (chain.throws_malformed throws)) parts 0 limit sized
  have passes : (∃ events, LevelsUnread checks.unread events ∧
      flow Stream parts last utils descSet.binaryToJsonString message.data =
        (events, .ok ())) ↔ checks.Met parts last limit message.data :=
    runs_ends_iff (fun _ => Iff.rfl) fun _ => Iff.rfl
  have fits : (∃ events, LevelsUnread checks.fitting.unread events ∧
      flow Stream parts last utils descSet.binaryToJsonString message.data =
        (events, .ok ())) ↔ checks.fitting.Met parts last limit message.data :=
    runs_ends_iff (fun _ => Iff.rfl) fun _ => Iff.rfl
  rw [trace_eq zero, ← passes, ← fits]
  constructor
  · intro checked ends
    rcases ends with ⟨events, _, ends⟩
    refine ⟨events, ?_, ends⟩
    intro budget level entered
    rcases run_of_flow_ok zero ends with ⟨rows, returns⟩
    have scans : Scans (Event.scans
        (flow Stream parts last utils descSet.binaryToJsonString message.data).1) level := by
      rw [ends]
      exact ⟨budget, List.mem_filter.mpr ⟨entered, rfl⟩⟩
    exact (checked.1 rows returns level scans).2
  · intro fitting
    rcases flow_cases Stream parts last utils descSet.binaryToJsonString message with
      ⟨events, ends⟩ | ⟨events, other, ends, _⟩
    · rcases fitting ⟨events, fun _ _ _ _ _ => trivial, ends⟩ with ⟨others, unread, endsOthers⟩
      cases ends.symm.trans endsOthers
      constructor
      · intro _ _ level scans
        rcases scans with ⟨budget, member⟩
        rw [ends] at reads member
        have entered := List.mem_of_mem_filter member
        exact ⟨reads budget level entered, unread budget level entered⟩
      · intro exception throws
        rcases run_of_flow_ok zero ends with ⟨rows, returns⟩
        cases returns.symm.trans throws
    · have stopped : QueryImpl.run Stream ⟨chainObjects uninitialised parts last,
          descSet.binaryToJsonString⟩ utils localBits message = .error other :=
        run_of_flow_error zero ends
      constructor
      · intro rows returns
        cases returns.symm.trans stopped
      · intro exception throws
        cases stopped.symm.trans throws
        rw [ends] at reads
        rcases reads with ⟨_, same, malformed⟩
        cases same
        exact malformed

def innerStrParts : List ChainPart :=
  [.plain (TestMessage.ofMessage "inner" 4 false false .innerMessage) none,
    .plain (TestMessage.single "inner_str" 1 .string) none]

def innerStrEnd : ChainEnd := ⟨false, .primitive .string, nofun⟩

theorem innerStr_compiles :
    ChainCompiles zeroMemory testPool .exampleMessage (literal "inner.inner_str") innerStrParts
      innerStrEnd (TestMessage.single "inner_str" 1 .string).descPtrs := by
  have inner : PartCompiles zeroMemory testPool 1 .exampleMessage (literal "inner")
      (.plain (TestMessage.ofMessage "inner" 4 false false .innerMessage) none)
      (TestMessage.ofMessage "inner" 4 false false .innerMessage).descPtrs := .single rfl rfl rfl
  have innerStr : PartCompiles zeroMemory testPool 3 .innerMessage (literal "inner_str")
      (.plain (TestMessage.single "inner_str" 1 .string) none)
      (TestMessage.single "inner_str" 1 .string).descPtrs := .single rfl rfl rfl
  have texts : (literal "inner.inner_str").splitOn '.'.toUInt8 =
      [literal "inner", literal "inner_str"] := by decide
  refine ⟨.inr ⟨nofun, ?_⟩, rfl⟩
  rw [texts]
  exact .cons rfl nofun inner (.last rfl nofun innerStr)

/-- `inner.inner_str` on a packed field and an unknown field, which are skipped, and a
submessage. -/
theorem framing_iff_innerStr :
    let message : Bytea := ⟨[0x12, 2, 7, 8, 0x7A, 1, 0x61, 0x22, 3, 0x0A, 1, 0x61], by decide⟩
    let query := testQuery .exampleMessage "inner.inner_str"
    let checks := Requirement.checks testUtils testSet.binaryToJsonString innerStrEnd.kind 0
    query.run ArrayStream testUtils (fun _ => 0) message = .ok [literal "a"] ∧
      (((∀ rows, query.run ArrayStream testUtils (fun _ => 0) message = .ok rows →
          ∀ level, Scans (query.trace ArrayStream testUtils (fun _ => 0) message) level →
            WellFramed level) ∧
        ∀ exception, query.run ArrayStream testUtils (fun _ => 0) message = .error exception →
          exception.Malformed) ↔
        (checks.Met innerStrParts innerStrEnd 100 message.data →
          checks.fitting.Met innerStrParts innerStrEnd 100 message.data)) := by
  intro message query checks
  have accepted : compileQuery testDb zeroMemory
      (literal "pgpb.test.ExampleMessage:inner.inner_str") none = .ok query := rfl
  have resolved : resolveQuery testDb (literal "pgpb.test.ExampleMessage:inner.inner_str") =
      .ok (testSet, .exampleMessage, literal "inner.inner_str") := rfl
  exact ⟨by decide +kernel, framing_iff ArrayStream accepted resolved innerStr_compiles
    (fun _ => ⟨rfl, rfl⟩) testUtils (fun _ => 0) message⟩

/-- A skipped field, a packed chunk and a submessage that are cut off: all are accepted. -/
theorem overrun_accepted :
    (∃ query, compileQuery testDb zeroMemory
        (literal "pgpb.test.ExampleMessage:repeated_string[*]") none = .ok query ∧
      query.run ArrayStream testUtils (fun _ => 0) ⟨[0x7A, 5, 0x61], by decide⟩ = .ok [] ∧
      Scans (query.trace ArrayStream testUtils (fun _ => 0) ⟨[0x7A, 5, 0x61], by decide⟩)
        [0x7A, 5, 0x61] ∧ ¬ WellFramed [0x7A, 5, 0x61]) ∧
    (∃ query, compileQuery testDb zeroMemory
        (literal "pgpb.test.ExampleMessage:repeated_int32[*]") none = .ok query ∧
      query.run ArrayStream testUtils (fun _ => 0) ⟨[0x12, 5, 7], by decide⟩ =
        .ok [literal "7"] ∧
      Scans (query.trace ArrayStream testUtils (fun _ => 0) ⟨[0x12, 5, 7], by decide⟩)
        [0x12, 5, 7] ∧ ¬ WellFramed [0x12, 5, 7]) ∧
    ∃ query, compileQuery testDb zeroMemory
        (literal "pgpb.test.ExampleMessage:inner.inner_str") none = .ok query ∧
      query.run ArrayStream testUtils (fun _ => 0) ⟨[0x22, 5, 0x0A, 1, 0x61], by decide⟩ =
        .ok [literal "a"] ∧
      Scans
        (query.trace ArrayStream testUtils (fun _ => 0) ⟨[0x22, 5, 0x0A, 1, 0x61], by decide⟩)
        [0x22, 5, 0x0A, 1, 0x61] ∧ ¬ WellFramed [0x22, 5, 0x0A, 1, 0x61] :=
  ⟨⟨testQuery .exampleMessage "repeated_string[*]", rfl, by decide +kernel,
      ⟨99, by decide +kernel⟩, by decide +kernel⟩,
    ⟨testQuery .exampleMessage "repeated_int32[*]", rfl, by decide +kernel,
      ⟨99, by decide +kernel⟩, by decide +kernel⟩,
    ⟨testQuery .exampleMessage "inner.inner_str", rfl, by decide +kernel,
      ⟨99, by decide +kernel⟩, by decide +kernel⟩⟩

end

end PostgresProtobuf
