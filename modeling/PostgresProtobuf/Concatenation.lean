import PostgresProtobuf.Requirements
import PostgresProtobuf.TestSchema

/-! # Concatenated messages

Messages are merged by concatenation. A query whose first part has no index answers on
the whole with its answers on the two messages, one after the other, where no row depends on
what a local held before. -/

namespace PostgresProtobuf

open Foundation

variable {Message : Type}

/-! ## Turns one after the other -/

section

variable {State Progress Item : Type} (turn : Progress → Item → Activity State × Progress)

theorem turns_of_forgetful
    (forgetful : ∀ progress other item, (turn progress item).1 = (turn other item).1)
    (items : List Item) (progress other : Progress) :
    (turns turn progress items).1 = (turns turn other items).1 := by
  induction items generalizing progress other with
  | nil => rfl
  | cons item items induction =>
      simp only [turns]
      rw [forgetful progress other, induction _ (turn other item).2]

end

/-! ## Selectors without an index -/

section

variable {State : Type} {part : ChainPart} (unindexed : part.wantedIndex = none)

include unindexed

theorem ChainPart.emits_unindexed (number index : Int) :
    part.Emits number index ↔ number = part.wantedField := by
  simp [ChainPart.Emits, unindexed]

theorem selectField_unindexed (next : Delivery State) (budget : Nat) (index other : Int)
    (field : WireField) :
    (Setting.selectField part next budget index field).1 =
      (Setting.selectField part next budget other field).1 := by
  have packed : ∀ payload,
      (Setting.selectPacked part next budget field.number index payload).1 =
        (Setting.selectPacked part next budget field.number other payload).1 := by
    intro payload
    unfold Setting.selectPacked
    cases Setting.packedWireType part.type with
    | none => rfl
    | some wireType =>
        have elements := turns_of_forgetful
          (Setting.selectElement part next budget field.number)
          (fun progress other value => by
            simp only [Setting.selectElement, part.emits_unindexed unindexed])
          (readElements wireType payload).1 index other
        simp only [elements]
  rcases field with ⟨number, value⟩
  cases value with
  | lengthDelimited size payload =>
      simp only [Setting.selectField]
      split
      · exact packed payload
      · simp only [part.emits_unindexed unindexed]
  | _ => simp only [Setting.selectField, part.emits_unindexed unindexed]

end

/-! ## Runs on a concatenation -/

section

variable (utils : PostgresUtils)
variable (binaryToJsonString : StdString → Bytes → Option StdString)
variable (recursionLimit : Nat) (bits : UInt64)

theorem answer_scanLevel_append {Progress : Type} (budget : Nat)
    {turn : Progress → WireField → Activity Unit × Progress}
    (forgetful : ∀ progress other field, (turn progress field).1 = (turn other field).1)
    (progress : Progress) {front : Bytes} (framed : WellFramed front) (back : Bytes) :
    answer (scanLevel budget turn progress (front ++ back)).1 =
      (answer (scanLevel budget turn progress front).1).followedBy
        (answer (scanLevel budget turn progress back).1) := by
  have complete : endOn (readFields front).2 = (1 : Activity Unit) := by
    rw [framed.1]
    rfl
  have later := turns_of_forgetful turn forgetful (readFields back).1
    (turns turn progress (readFields front).1).2 progress
  rw [answer_scanLevel, answer_scanLevel, answer_scanLevel, readFields_append framed,
    turns_append, answer_mul, later, complete, answer_one, Answer.followedBy_ok_nil,
    Answer.followedBy_assoc]

theorem answer_runs_append {part : ChainPart} (unindexed : part.wantedIndex = none)
    (parts : List ChainPart) (last : ChainEnd) {front : Bytes} (framed : WellFramed front)
    (back : Bytes) :
    let setting := Setting.fixed utils binaryToJsonString recursionLimit bits
    answer (setting.runs (part :: parts) last (front ++ back)) =
      (answer (setting.runs (part :: parts) last front)).followedBy
        (answer (setting.runs (part :: parts) last back)) := by
  intro setting
  cases recursionLimit with
  | zero => rfl
  | succ budget =>
      exact answer_scanLevel_append budget
        (fun progress other field => selectField_unindexed unindexed _ _ progress other field)
        0 framed back

/-- What does not depend on the locals in either message does not depend on them in both. -/
theorem written_met_append {part : ChainPart} (unindexed : part.wantedIndex = none)
    {parts : List ChainPart} {last : ChainEnd} {front back : Bytes} (framed : WellFramed front)
    (writtenFront : (Requirement.written utils binaryToJsonString last.kind).Met
      (part :: parts) last recursionLimit front)
    (writtenBack : (Requirement.written utils binaryToJsonString last.kind).Met
      (part :: parts) last recursionLimit back) :
    (Requirement.written utils binaryToJsonString last.kind).Met (part :: parts) last
      recursionLimit (front ++ back) := by
  rcases written_met_iff.mp writtenFront with ⟨frontRows, always⟩
  rcases written_met_iff.mp writtenBack with ⟨backRows, alwaysBack⟩
  apply written_met_iff.mpr
  refine ⟨frontRows ++ backRows, ?_⟩
  intro bits
  rw [answer_runs_append utils binaryToJsonString recursionLimit bits unindexed parts last framed
    back, always, alwaysBack]
  rfl

end

section

variable (Stream : Type) [CodedInputStream Stream] [LawfulCodedInputStream Stream]

/-- Running a query whose first part has no index on a concatenation throws what the second
message does. Where it returns, the rows are those of the two messages, whatever the locals
hold in the three runs, exactly where neither message has a row that depends on them. -/
theorem run_append_iff {descDb : DescDb Message} {uninitialised : Uninitialised}
    {text : StdString} {descSet : DescSet Message} {desc : Message} {path : StdString}
    {query : QueryImpl} {parts : List ChainPart} {last : ChainEnd} {final : DescPtrs Message}
    (accepted : compileQuery descDb uninitialised text none = .ok query)
    (resolved : resolveQuery descDb text = .ok (descSet, desc, path))
    (chain : ChainCompiles uninitialised descSet.pool desc path parts last final)
    (nonempty : path ≠ [])
    (unindexed : ∀ selector, query.visitors[1]? = some (.fieldSelector selector) →
      selector.wantedIndex = none)
    (zero : uninitialised.ZeroBuffers) {utils : PostgresUtils} {front back whole : Bytea}
    (joined : whole.data = front.data ++ back.data) (framed : WellFramed front.data)
    {localBits : Nat → UInt64} {rows : List StdString}
    (returns : query.run Stream utils localBits front = .ok rows) :
    let limit := CodedInputStream.recursionLimit Stream
    let checks := Requirement.checks utils descSet.binaryToJsonString last.kind 0
    let written := Requirement.written utils descSet.binaryToJsonString last.kind
    ((∀ (exception : Exception) (ofWhole ofBack : Nat → UInt64),
        query.run Stream utils ofWhole whole = .error exception ↔
          query.run Stream utils ofBack back = .error exception) ∧
      ∀ (ofFront ofBack ofWhole : Nat → UInt64) (rows more : List StdString),
        query.run Stream utils ofFront front = .ok rows →
        query.run Stream utils ofBack back = .ok more →
        query.run Stream utils ofWhole whole = .ok (rows ++ more)) ↔
      (checks.Met parts last limit back.data →
        written.Met parts last limit front.data ∧ written.Met parts last limit back.data) := by
  intro limit checks written
  have isQuery : query = ⟨chainObjects uninitialised parts last, descSet.binaryToJsonString⟩ :=
    Except.ok.inj (accepted.symm.trans
      (compileQuery_eq_ok_iff.mpr ⟨_, _, _, _, _, _, resolved, chain, rfl⟩))
  subst isQuery
  cases parts with
  | nil =>
      rcases chain.compiles with ⟨isEmpty, _⟩ | ⟨_, compiles⟩
      · exact absurd isEmpty nonempty
      · exact absurd ((splitOn_eq_singleton_nil_iff _ path).mp compiles.texts_eq) nonempty
  | cons part parts =>
      have noIndex : part.wantedIndex = none := unindexed part.selector rfl
      have whenBits := fun bits => answer_runs_append utils descSet.binaryToJsonString limit bits
        noIndex parts last framed back.data
      have runBits : ∀ bits message, QueryImpl.run Stream
          ⟨chainObjects uninitialised (part :: parts) last, descSet.binaryToJsonString⟩ utils
            (fun _ => bits) message =
          answer ((Setting.fixed utils descSet.binaryToJsonString limit bits).runs
            (part :: parts) last message.data) :=
        fun bits message => run_fixed utils _ bits _ last zero message
      constructor
      · intro appends passes
        -- One part over other locals has to leave the rows of the whole as they are.
        rcases (run_returns_iff zero).mp passes with ⟨more, backReturns⟩
        constructor
        · apply (run_constant_iff zero).mpr
          refine ⟨rows, fun others => ?_⟩
          rcases run_eq_ok_of_locals zero returns others with ⟨otherRows, otherReturns⟩
          have isWhole := appends.2 localBits localBits localBits rows more returns backReturns
          have isOther := appends.2 others localBits localBits otherRows more otherReturns
            backReturns
          rw [isWhole, Except.ok.injEq] at isOther
          rw [otherReturns, List.append_cancel_right isOther]
        · apply (run_constant_iff zero).mpr
          refine ⟨more, fun others => ?_⟩
          rcases run_eq_ok_of_locals zero backReturns others with ⟨otherMore, otherReturns⟩
          have isWhole := appends.2 localBits localBits localBits rows more returns backReturns
          have isOther := appends.2 localBits others localBits rows otherMore returns otherReturns
          rw [isWhole, Except.ok.injEq] at isOther
          rw [otherReturns, List.append_cancel_left isOther]
      · intro condition
        constructor
        · intro exception ofWhole ofBack
          rcases run_eq_ok_of_locals zero returns (fun _ => 0) with ⟨rows, isFront⟩
          rw [runBits] at isFront
          rw [run_eq_error_iff zero, run_eq_error_iff zero, joined, whenBits, isFront]
          exact Answer.ok_followedBy_eq_error_iff
        · intro ofFront ofBack ofWhole rows more isFront isBack
          rcases condition ((run_returns_iff zero).mpr ⟨more, isBack⟩) with
            ⟨writtenFront, writtenBack⟩
          rcases (run_constant_iff zero).mp writtenFront with ⟨frontRows, always⟩
          rcases (run_constant_iff zero).mp writtenBack with ⟨backRows, alwaysBack⟩
          cases isFront.symm.trans (always ofFront)
          cases isBack.symm.trans (alwaysBack ofBack)
          have writtenWhole : written.Met (part :: parts) last limit whole.data := by
            rw [joined]
            exact written_met_append utils _ limit noIndex framed writtenFront writtenBack
          rcases (run_constant_iff zero).mp writtenWhole with ⟨wholeRows, alwaysWhole⟩
          have atZero := alwaysWhole fun _ => 0
          rw [runBits, joined, whenBits, ← runBits, ← runBits, always, alwaysBack] at atZero
          cases atZero
          exact alwaysWhole ofWhole

/-- `int64_field` on a message with an ill-typed value, and on one more. -/
theorem run_append_iff_int64 :
    let front : Bytea := ⟨[0x20, 5, 0x22, 1, 0x61], by decide⟩
    let back : Bytea := ⟨[0x20, 7], by decide⟩
    let whole : Bytea := ⟨front.data ++ back.data, by decide⟩
    let query := testQuery .scalars "int64_field"
    let parts : List ChainPart := [.plain (TestMessage.single "int64_field" 4 .int64) none]
    let last : ChainEnd := ⟨false, .primitive .int64, nofun⟩
    let checks := Requirement.checks testUtils testSet.binaryToJsonString last.kind 0
    let written := Requirement.written testUtils testSet.binaryToJsonString last.kind
    query.run ArrayStream testUtils (fun _ => 0) front = .ok [literal "5"] ∧
      (((∀ (exception : Exception) (ofWhole ofBack : Nat → UInt64),
          query.run ArrayStream testUtils ofWhole whole = .error exception ↔
            query.run ArrayStream testUtils ofBack back = .error exception) ∧
        ∀ (ofFront ofBack ofWhole : Nat → UInt64) (rows more : List StdString),
          query.run ArrayStream testUtils ofFront front = .ok rows →
          query.run ArrayStream testUtils ofBack back = .ok more →
          query.run ArrayStream testUtils ofWhole whole = .ok (rows ++ more)) ↔
        (checks.Met parts last 100 back.data →
          written.Met parts last 100 front.data ∧ written.Met parts last 100 back.data)) := by
  intro front back whole query parts last checks written
  have accepted : compileQuery testDb zeroMemory (literal "pgpb.test.Scalars:int64_field") none =
      .ok query := rfl
  have resolved : resolveQuery testDb (literal "pgpb.test.Scalars:int64_field") =
      .ok (testSet, .scalars, literal "int64_field") := rfl
  have compiles : PartCompiles zeroMemory testPool 1 .scalars (literal "int64_field")
      (.plain (TestMessage.single "int64_field" 4 .int64) none)
      (TestMessage.single "int64_field" 4 .int64).descPtrs := .single rfl rfl rfl
  have nonempty : literal "int64_field" ≠ [] := by decide
  have chain : ChainCompiles zeroMemory testPool .scalars (literal "int64_field") parts last
      (TestMessage.single "int64_field" 4 .int64).descPtrs :=
    chainCompiles_single nonempty (by decide) compiles rfl
  have unindexed : ∀ selector, query.visitors[1]? = some (.fieldSelector selector) →
      selector.wantedIndex = none := by
    intro selector isSelector
    cases isSelector
    rfl
  have returns : query.run ArrayStream testUtils (fun _ => 0) front = .ok [literal "5"] := by
    decide +kernel
  exact ⟨returns, run_append_iff ArrayStream accepted resolved chain nonempty unindexed
    (fun _ => ⟨rfl, rfl⟩) rfl (by decide +kernel) returns⟩

/-- An `int64` that was sent as four bytes, after one that was sent as a varint. The local
that the four bytes go to is not the one that they go to when they come first. -/
theorem append_halfWritten :
    let front : Bytea := ⟨[0x20, 5], by decide⟩
    let back : Bytea := ⟨[0x25, 1, 0, 0, 0], by decide⟩
    let whole : Bytea := ⟨front.data ++ back.data, by decide⟩
    let query := testQuery .scalars "int64_field"
    let localBits := fun slot => if slot = 2 then 0x700000000 else 0
    compileQuery testDb zeroMemory (literal "pgpb.test.Scalars:int64_field") none = .ok query ∧
      WellFramed front.data ∧
      query.run ArrayStream testUtils localBits front = .ok [literal "5"] ∧
      query.run ArrayStream testUtils localBits back = .ok [literal "1"] ∧
      query.run ArrayStream testUtils localBits whole =
        .ok [literal "5", literal "30064771073"] :=
  ⟨rfl, by decide +kernel, by decide +kernel, by decide +kernel, by decide +kernel⟩

end

end PostgresProtobuf
