import PostgresProtobuf.Flows
import PostgresProtobuf.TestSchema

/-! # Running a query again

A run that returns leaves the query as it was compiled. -/

namespace PostgresProtobuf

open Foundation

variable {Message : Type}

/-- The members that a visitor changes are as its constructor sets them, and the buffers
of a map filter are zero. -/
def ChainVisitor.JustBuilt : ChainVisitor → Prop
  | .descendIntoSubmessage => True
  | .fieldSelector selector =>
      selector.state = .scanning ∧ selector.currentField = 0 ∧ selector.currentIndex = 0
  | .mapFilter filter =>
      filter.scope = .outermost ∧ filter.bufferedKeyField = FieldInfo.zero ∧
        filter.bufferedKeyContents = [] ∧ filter.bufferedValueField = FieldInfo.zero ∧
        filter.bufferedValueContents = []
  | .allMapEntries entries => entries.scope = .outermost
  | .emitter _ => True

section

variable {uninitialised : Uninitialised}

theorem ChainPart.justBuilt (zero : uninitialised.ZeroBuffers) (part : ChainPart)
    (position : Nat) :
    ∀ visitor ∈ part.visitors uninitialised position, visitor.JustBuilt := by
  intro visitor member
  rcases List.mem_cons.mp member with rfl | member
  · exact ⟨rfl, rfl, rfl⟩
  · cases map : part.map with
    | none => simp [map, MapPart.visitors] at member
    | entries wantKeys type =>
        rw [map, MapPart.visitors, List.mem_singleton] at member
        subst member
        rfl
    | lookup keyType wantedKeyField wantedKeyContents valueType =>
        rw [map, MapPart.visitors, List.mem_singleton] at member
        subst member
        exact ⟨rfl, (zero _).1, rfl, (zero _).2, rfl⟩

theorem partsVisitors_justBuilt (zero : uninitialised.ZeroBuffers) (parts : List ChainPart)
    (position : Nat) :
    ∀ visitor ∈ partsVisitors uninitialised position parts, visitor.JustBuilt := by
  induction parts generalizing position with
  | nil => simp [partsVisitors]
  | cons part parts induction =>
      intro visitor member
      rw [partsVisitors, List.mem_append, List.mem_cons] at member
      rcases member with (rfl | member) | member
      · trivial
      · exact part.justBuilt zero _ visitor member
      · exact induction _ visitor member

theorem chainObjects_justBuilt (zero : uninitialised.ZeroBuffers) (parts : List ChainPart)
    (last : ChainEnd) :
    ∀ visitor ∈ chainObjects uninitialised parts last, visitor.JustBuilt := by
  intro visitor member
  rw [chainObjects, List.mem_append, List.mem_append, List.mem_singleton] at member
  rcases member with inParts | isDot | rfl
  · exact partsVisitors_justBuilt zero parts 0 visitor inParts
  · unfold dotVisitors at isDot
    split at isDot
    · rw [List.mem_singleton.mp isDot]
      trivial
    · simp at isDot
  · trivial

end

section

variable (Stream : Type) [CodedInputStream Stream]

inductive QueryImpl.Reused (query : QueryImpl) : QueryMemory → Prop
  | fresh : query.Reused query.memory
  | again {memory : QueryMemory} {utils : PostgresUtils} {localBits : Nat → UInt64}
      {message : Bytea} {rows : List StdString} (reused : query.Reused memory)
      (returns : (query.runOn Stream utils localBits memory message).1 = .ok rows) :
      query.Reused (query.runOn Stream utils localBits memory message).2

variable {Stream} [LawfulCodedInputStream Stream]
variable {descDb : DescDb Message} {uninitialised : Uninitialised} {text : StdString}
variable {limit : Option Nat} {query : QueryImpl}

theorem runOn_restores
    (accepted : compileQuery descDb uninitialised text limit = .ok query)
    (zero : uninitialised.ZeroBuffers) {utils : PostgresUtils} {localBits : Nat → UInt64}
    {message : Bytea} {rows : List StdString}
    (returns : (query.runOn Stream utils localBits query.memory message).1 = .ok rows) :
    (query.runOn Stream utils localBits query.memory message).2 = query.memory := by
  rcases compileQuery_eq_ok_iff.mp accepted with
    ⟨descSet, desc, path, parts, last, final, _, _, rfl⟩
  rcases flow_cases Stream parts last utils descSet.binaryToJsonString message with
    ⟨events, ends⟩ | ⟨events, exception, ends, reported⟩
  · rcases scan_of_ok zero ends with ⟨after, scans, objects, _⟩
    unfold QueryImpl.runOn
    rw [QueryImpl.memory, scans]
    exact congrArg (QueryMemory.mk · []) objects
  · rcases scan_of_error zero ends with ⟨after, scans, _⟩
    unfold QueryImpl.runOn at returns
    rw [QueryImpl.memory, scans] at returns
    cases exception <;> first | exact reported.elim | cases returns

/-- However often a query has returned, all its members are as they were compiled, and it
runs like a fresh one. -/
theorem reused_run (accepted : compileQuery descDb uninitialised text limit = .ok query)
    (zero : uninitialised.ZeroBuffers) {memory : QueryMemory}
    (reused : query.Reused Stream memory) :
    memory = query.memory ∧ memory.rows = [] ∧
      (∀ visitor ∈ memory.visitors, visitor.JustBuilt) ∧
      ∀ (utils : PostgresUtils) (localBits : Nat → UInt64) (message : Bytea),
        (query.runOn Stream utils localBits memory message).1 =
          query.run Stream utils localBits message := by
  have restored : memory = query.memory := by
    induction reused with
    | fresh => rfl
    | again _ returns induction =>
        rw [induction] at returns ⊢
        exact runOn_restores accepted zero returns
  subst restored
  refine ⟨rfl, rfl, ?_, fun _ _ _ => rfl⟩
  rcases compileQuery_eq_ok_iff.mp accepted with ⟨_, _, _, parts, last, _, _, _, rfl⟩
  exact chainObjects_justBuilt zero parts last

/-- `map_str2str[a]` after a run on one message, on which it has returned. -/
theorem reused_run_mapKey :
    let message : Bytea :=
      ⟨[0x3A, 6, 0x12, 1, 0x62, 0x0A, 1, 0x61, 0x3A, 3, 0x0A, 1, 0x63], by decide⟩
    let query := testQuery .exampleMessage "map_str2str[a]"
    let left := (query.runOn ArrayStream testUtils (fun _ => 7) query.memory message).2
    left = query.memory ∧ left.rows = [] ∧ (∀ visitor ∈ left.visitors, visitor.JustBuilt) ∧
      ∀ (utils : PostgresUtils) (localBits : Nat → UInt64) (other : Bytea),
        (query.runOn ArrayStream utils localBits left other).1 =
          query.run ArrayStream utils localBits other := by
  intro message query left
  have accepted : compileQuery testDb zeroMemory
      (literal "pgpb.test.ExampleMessage:map_str2str[a]") none = .ok query := rfl
  have returns : (query.runOn ArrayStream testUtils (fun _ => 7) query.memory message).1 =
      .ok [literal "b"] := by
    decide +kernel
  exact reused_run accepted (fun _ => ⟨rfl, rfl⟩) (.again .fresh returns)

end

end PostgresProtobuf
