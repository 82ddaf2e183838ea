import PostgresProtobuf.RecursionDepth
import PostgresProtobuf.WireTypes

/-! # Runs on any stream

A run, with its visitors, its stack and its stream, does what the chain of its path means.
So it depends on the stream by its recursion limit only, and on that only where the limit is
exceeded. -/

namespace PostgresProtobuf

open Foundation

variable {Message : Type}

/-! ## The meaning of a query -/

/-- Every accepted query has a chain, which its path compiles to, and whose meaning tells of
each run on each stream what it returns or throws, which rows it emits and which levels it
scans. Only texts of rows may depend on what the locals hold. -/
theorem run_refines {descDb : DescDb Message} {uninitialised : Uninitialised}
    {text : StdString} {limit : Option Nat} {query : QueryImpl}
    (accepted : compileQuery descDb uninitialised text limit = .ok query)
    (zero : uninitialised.ZeroBuffers) :
    ∃ (descSet : DescSet Message) (desc : Message) (path : StdString) (parts : List ChainPart)
      (last : ChainEnd) (final : DescPtrs Message),
      resolveQuery descDb text = .ok (descSet, desc, path) ∧
      ChainCompiles uninitialised descSet.pool desc path parts last final ∧
      ∀ (Stream : Type) [CodedInputStream Stream] [LawfulCodedInputStream Stream]
        (utils : PostgresUtils) (message : Bytea),
        let meaning := fun bits => (Setting.fixed utils descSet.binaryToJsonString
          (CodedInputStream.recursionLimit Stream) bits).runs parts last message.data
        (∀ bits, query.run Stream utils (fun _ => bits) message = answer (meaning bits) ∧
          query.emitted Stream utils (fun _ => bits) message =
            Event.rows (meaning bits ()).1) ∧
        ∀ localBits : Nat → UInt64,
          (∀ exception, query.run Stream utils localBits message = .error exception ↔
            answer (meaning 0) = .error exception) ∧
          (query.emitted Stream utils localBits message).length =
            (Event.rows (meaning 0 ()).1).length ∧
          query.trace Stream utils localBits message = Event.scans (meaning 0 ()).1 := by
  rcases compileQuery_eq_ok_iff.mp accepted with
    ⟨descSet, desc, path, parts, last, final, resolved, chain, rfl⟩
  refine ⟨descSet, desc, path, parts, last, final, resolved, chain, ?_⟩
  intro Stream _ _ utils message meaning
  constructor
  · intro bits
    exact ⟨run_fixed utils _ bits parts last zero message, emitted_fixed zero bits message⟩
  · intro localBits
    exact ⟨fun exception => run_eq_error_iff zero, length_emitted zero localBits 0 message,
      trace_eq zero⟩

/-- A path that looks up a map entry and goes on. -/
theorem run_refines_mapValue :
    let text := literal "pgpb.test.ExampleMessage:map_str2inner[k].inner_str"
    let query := testQuery .exampleMessage "map_str2inner[k].inner_str"
    ∃ (descSet : DescSet TestMessage) (desc : TestMessage) (path : StdString)
      (parts : List ChainPart) (last : ChainEnd) (final : DescPtrs TestMessage),
      resolveQuery testDb text = .ok (descSet, desc, path) ∧
      ChainCompiles zeroMemory descSet.pool desc path parts last final ∧
      ∀ (Stream : Type) [CodedInputStream Stream] [LawfulCodedInputStream Stream]
        (utils : PostgresUtils) (message : Bytea),
        let meaning := fun bits => (Setting.fixed utils descSet.binaryToJsonString
          (CodedInputStream.recursionLimit Stream) bits).runs parts last message.data
        (∀ bits, query.run Stream utils (fun _ => bits) message = answer (meaning bits) ∧
          query.emitted Stream utils (fun _ => bits) message =
            Event.rows (meaning bits ()).1) ∧
        ∀ localBits : Nat → UInt64,
          (∀ exception, query.run Stream utils localBits message = .error exception ↔
            answer (meaning 0) = .error exception) ∧
          (query.emitted Stream utils localBits message).length =
            (Event.rows (meaning 0 ()).1).length ∧
          query.trace Stream utils localBits message = Event.scans (meaning 0 ()).1 :=
  run_refines
    (rfl : compileQuery testDb zeroMemory
      (literal "pgpb.test.ExampleMessage:map_str2inner[k].inner_str") none =
      .ok (testQuery .exampleMessage "map_str2inner[k].inner_str"))
    fun _ => ⟨rfl, rfl⟩

/-! ## Raising the recursion limit -/

section

variable {extra : Nat}

theorem rows_lower (events : List Event) :
    Event.rows (events.map (Event.lower extra)) = Event.rows events := by
  induction events with
  | nil => rfl
  | cons event events induction =>
      cases event with
      | row text => exact congrArg (text :: ·) induction
      | enter budget level => exact induction
      | leave => exact induction

theorem Charged.rows {Ending : Type} {exceeded ending otherEnding : Ending}
    {events others : List Event}
    (charged : Charged extra exceeded (events, ending) (others, otherEnding)) :
    Event.rows events = Event.rows others ∧ ending = otherEnding ∨
      Event.rows events <+: Event.rows others ∧ ending = exceeded := by
  cases charged with
  | within _ affords => exact .inl ⟨rows_lower others, rfl⟩
  | @beyond front budget level back _ affords short =>
      rw [rows_lower, Event.rows_append]
      exact .inr ⟨List.prefix_append _ _, rfl⟩

end

theorem answer_deeper (utils : PostgresUtils)
    (binaryToJsonString : StdString → Bytes → Option StdString) (limit extra : Nat)
    (bits : UInt64) (parts : List ChainPart) (last : ChainEnd) {message : Bytes}
    (bounded : message.length < 2 ^ 31) :
    let shallow := (Setting.fixed utils binaryToJsonString limit bits).runs parts last message
    let deep := (Setting.fixed utils binaryToJsonString (limit + extra) bits).runs parts last
      message
    answer shallow = answer deep ∨
      answer shallow = .error .recursionDepthExceeded ∧
        Event.rows (shallow ()).1 <+: Event.rows (deep ()).1 := by
  intro shallow deep
  have charged : ChargedActions extra shallow deep :=
    runs_charged utils binaryToJsonString limit bits parts last bounded
  rw [ChargedActions] at charged
  rcases ends : shallow () with ⟨events, ending⟩
  rcases endsDeeper : deep () with ⟨others, otherEnding⟩
  unfold answer
  rw [ends, endsDeeper] at charged ⊢
  rcases charged.rows with ⟨sameRows, rfl⟩ | ⟨isPrefix, rfl⟩
  · apply Or.inl
    rcases ending with (exception | _) | _ <;> simp [sameRows]
  · exact .inr ⟨rfl, isPrefix⟩

section

variable (Stream Deeper : Type) [CodedInputStream Stream] [LawfulCodedInputStream Stream]
variable [CodedInputStream Deeper] [LawfulCodedInputStream Deeper]

/-- A run on a stream with a larger limit ends as one on a stream with a smaller limit does,
unless that one exceeds its limit; it has emitted no other rows by then. -/
theorem run_deeper {descDb : DescDb Message} {uninitialised : Uninitialised}
    {text : StdString} {query : QueryImpl}
    (accepted : compileQuery descDb uninitialised text none = .ok query)
    (zero : uninitialised.ZeroBuffers)
    (shallower : CodedInputStream.recursionLimit Stream ≤
      CodedInputStream.recursionLimit Deeper)
    (utils : PostgresUtils) (message : Bytea) :
    (∀ (exception : Exception) (locals others : Nat → UInt64),
      exception ≠ .recursionDepthExceeded →
        query.run Stream utils locals message = .error exception →
          query.run Deeper utils others message = .error exception) ∧
    ∀ bits : UInt64,
      query.run Stream utils (fun _ => bits) message =
          query.run Deeper utils (fun _ => bits) message ∨
        query.run Stream utils (fun _ => bits) message = .error .recursionDepthExceeded ∧
          query.emitted Stream utils (fun _ => bits) message <+:
            query.emitted Deeper utils (fun _ => bits) message := by
  rcases compileQuery_eq_ok_iff.mp accepted with
    ⟨descSet, desc, path, parts, last, final, _, _, rfl⟩
  rcases Nat.exists_eq_add_of_le shallower with ⟨extra, isDeeper⟩
  have outcomes := fun bits => answer_deeper utils descSet.binaryToJsonString
    (CodedInputStream.recursionLimit Stream) extra bits parts last message.size_lt
  rw [← isDeeper] at outcomes
  constructor
  · intro exception locals others other throws
    rw [run_eq_error_iff zero] at throws ⊢
    rcases outcomes 0 with same | ⟨exceeds, _⟩
    · rw [← same]
      exact throws
    · rw [exceeds] at throws
      exact absurd (Except.error.inj throws).symm other
  · intro bits
    rw [run_fixed utils _ bits parts last zero, run_fixed utils _ bits parts last zero,
      emitted_fixed zero bits, emitted_fixed zero bits]
    exact outcomes bits

/-- A value that is forwarded from a map, and a limit that is larger by 50. -/
theorem run_deeper_mapValue :
    let message : Bytea := ⟨[0x52, 8, 0x0A, 1, 0x6B, 0x12, 3, 0x0A, 1, 0x61], by decide⟩
    let query := testQuery .exampleMessage "map_str2inner[k].inner_str"
    (∀ (exception : Exception) (locals others : Nat → UInt64),
      exception ≠ .recursionDepthExceeded →
        query.run ArrayStream testUtils locals message = .error exception →
          query.run (DeeperStream ArrayStream 50) testUtils others message =
            .error exception) ∧
    ∀ bits : UInt64,
      query.run ArrayStream testUtils (fun _ => bits) message =
          query.run (DeeperStream ArrayStream 50) testUtils (fun _ => bits) message ∨
        query.run ArrayStream testUtils (fun _ => bits) message =
            .error .recursionDepthExceeded ∧
          query.emitted ArrayStream testUtils (fun _ => bits) message <+:
            query.emitted (DeeperStream ArrayStream 50) testUtils (fun _ => bits) message := by
  intro message query
  have accepted : compileQuery testDb zeroMemory
      (literal "pgpb.test.ExampleMessage:map_str2inner[k].inner_str") none = .ok query := rfl
  have shallower : CodedInputStream.recursionLimit ArrayStream ≤
      CodedInputStream.recursionLimit (DeeperStream ArrayStream 50) := Nat.le_add_right _ 50
  exact run_deeper ArrayStream (DeeperStream ArrayStream 50) accepted (fun _ => ⟨rfl, rfl⟩)
    shallower testUtils message

end

end PostgresProtobuf
