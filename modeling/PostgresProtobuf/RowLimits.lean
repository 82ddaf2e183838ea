import PostgresProtobuf.SqlFunctions

/-! # Limits on the rows

`Query` takes a limit on its rows, and `protobuf_query` sets it to one, but no emitter
ever keeps it. -/

namespace PostgresProtobuf

open Foundation

variable {Message : Type}

/-- The constructor of the emitter drops the limit. -/
theorem compileQuery_limit (descDb : DescDb Message) (uninitialised : Uninitialised)
    (text : StdString) (limit : Option Nat) :
    compileQuery descDb uninitialised text limit =
      compileQuery descDb uninitialised text none := rfl

section

variable (Stream : Type) [CodedInputStream Stream]

def QueryImpl.emitted (query : QueryImpl) (utils : PostgresUtils)
    (localBits : Nat → UInt64) (message : Bytea) : List StdString :=
  match query.scan Stream utils localBits query.memory message with
  | .ok _ world => world.memory.rows
  | .error _ world => world.memory.rows

variable {Stream}

theorem QueryImpl.emitted_of_run {query : QueryImpl} {utils : PostgresUtils}
    {localBits : Nat → UInt64} {message : Bytea} {rows : List StdString}
    (returns : query.run Stream utils localBits message = .ok rows) :
    query.emitted Stream utils localBits message = rows := by
  unfold QueryImpl.run QueryImpl.runOn at returns
  unfold QueryImpl.emitted
  split at returns <;> simp_all

end

def limited (limit : Nat) (emitted : List StdString)
    (unlimited : Except Exception (List StdString)) : Except Exception (List StdString) :=
  if limit ≤ emitted.length then .ok (emitted.take limit) else unlimited

section

variable (Stream : Type) [CodedInputStream Stream]

/-- A run with a limit ends as it is meant to exactly where fewer rows are emitted than
the limit allows, or just as many and the run returns normally. -/
theorem run_limit_iff {descDb : DescDb Message} {uninitialised : Uninitialised}
    {text : StdString} {unlimited : QueryImpl}
    (accepted : compileQuery descDb uninitialised text none = .ok unlimited) (limit : Nat)
    (utils : PostgresUtils) (localBits : Nat → UInt64) (message : Bytea) :
    ∃ query, compileQuery descDb uninitialised text (some limit) = .ok query ∧
      (query.run Stream utils localBits message =
          limited limit (unlimited.emitted Stream utils localBits message)
            (unlimited.run Stream utils localBits message) ↔
        (unlimited.emitted Stream utils localBits message).length < limit ∨
          (unlimited.emitted Stream utils localBits message).length = limit ∧
            ∃ rows, unlimited.run Stream utils localBits message = .ok rows) := by
  refine ⟨unlimited, accepted, ?_⟩
  unfold limited
  by_cases reached : limit ≤ (unlimited.emitted Stream utils localBits message).length
  · rw [if_pos reached]
    constructor
    · intro returns
      have length := congrArg List.length (QueryImpl.emitted_of_run returns)
      rw [List.length_take] at length
      exact .inr ⟨by omega, _, returns⟩
    · intro few
      rcases few with fewer | ⟨asMany, rows, returns⟩
      · omega
      · have emitted := QueryImpl.emitted_of_run returns
        rw [returns, emitted, List.take_of_length_le]
        rw [← emitted]
        omega
  · rw [if_neg reached]
    exact iff_of_true rfl (.inl (by omega))

/-- Two strings, and a limit of two. -/
theorem run_limit_iff_repeatedString :
    let message : Bytea := ⟨[0x1A, 1, 0x61, 0x1A, 1, 0x62], by decide⟩
    let text := literal "pgpb.test.ExampleMessage:repeated_string[*]"
    let unlimited := testQuery .exampleMessage "repeated_string[*]"
    ∃ query, compileQuery testDb zeroMemory text (some 2) = .ok query ∧
      (query.run ArrayStream testUtils (fun _ => 0) message =
          limited 2 (unlimited.emitted ArrayStream testUtils (fun _ => 0) message)
            (unlimited.run ArrayStream testUtils (fun _ => 0) message) ↔
        (unlimited.emitted ArrayStream testUtils (fun _ => 0) message).length < 2 ∨
          (unlimited.emitted ArrayStream testUtils (fun _ => 0) message).length = 2 ∧
            ∃ rows, unlimited.run ArrayStream testUtils (fun _ => 0) message = .ok rows) :=
  run_limit_iff ArrayStream
    (rfl : compileQuery testDb zeroMemory
      (literal "pgpb.test.ExampleMessage:repeated_string[*]") none =
      .ok (testQuery .exampleMessage "repeated_string[*]"))
    2 testUtils (fun _ => 0) ⟨[0x1A, 1, 0x61, 0x1A, 1, 0x62], by decide⟩

/-- With a limit of one, a second string is returned too, and a malformed field after
the first string makes `protobuf_query` fail. -/
theorem limitOne_ignored :
    (∃ query unlimited,
      compileQuery testDb zeroMemory
        (literal "pgpb.test.ExampleMessage:repeated_string[*]") (some 1) = .ok query ∧
      compileQuery testDb zeroMemory
        (literal "pgpb.test.ExampleMessage:repeated_string[*]") none = .ok unlimited ∧
      query.run ArrayStream testUtils (fun _ => 0)
          ⟨[0x1A, 1, 0x61, 0x1A, 1, 0x62], by decide⟩ ≠
        limited 1
          (unlimited.emitted ArrayStream testUtils (fun _ => 0)
            ⟨[0x1A, 1, 0x61, 0x1A, 1, 0x62], by decide⟩)
          (unlimited.run ArrayStream testUtils (fun _ => 0)
            ⟨[0x1A, 1, 0x61, 0x1A, 1, 0x62], by decide⟩)) ∧
      testSession.protobufQuery ArrayStream
          (literal "pgpb.test.ExampleMessage:repeated_string[*]")
          ⟨[0x1A, 1, 0x61, 0], by decide⟩ =
        .error (.report .invalidBinaryRepresentation
          (literal "invalid protobuf: Unexpected tag=0")) :=
  ⟨⟨testQuery .exampleMessage "repeated_string[*]",
      testQuery .exampleMessage "repeated_string[*]", rfl, rfl, by decide +kernel⟩,
    by decide +kernel⟩

end

end PostgresProtobuf
