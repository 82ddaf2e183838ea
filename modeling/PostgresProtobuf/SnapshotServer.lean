import PostgresProtobuf.DescriptorTable
import PostgresProtobuf.Foundation.Component
import PostgresProtobuf.SqlFunctions

/-! # Statements in transactions

A backend answers calls of the SQL functions from the descriptors in its one cache. To its
statements every transaction and subtransaction keeps a snapshot of the table. -/

namespace PostgresProtobuf

open Foundation

variable {File Message : Type}

/-! ## Statements -/

inductive Statement
  | query (text : StdString) (protoData : Bytea)
  | queryArray (text : StdString) (protoData : Bytea)
  | toJsonText (protobufType : StdString) (protoData : Bytea)

inductive StatementResult
  | text (row : Option StdString)
  | array (rows : List StdString)
  deriving DecidableEq

structure Process where
  uninitialised : Uninitialised
  utils : PostgresUtils
  localBits : Nat → UInt64

def Process.session (process : Process) (descDb : DescDb Message) : Session Message :=
  ⟨descDb, process.uninitialised, process.utils, process.localBits⟩

inductive ServerError
  | sql (error : SqlError)
  /-- Reported by Postgres or before any C++ code is entered. -/
  | postgres (message : StdString)
  | outOfMemory
  deriving DecidableEq

namespace Statement

def run (Stream : Type) [CodedInputStream Stream] (statement : Statement)
    (session : Session Message) : Except SqlError StatementResult :=
  match statement with
  | query text protoData =>
      (session.protobufQuery Stream text protoData).map StatementResult.text
  | queryArray text protoData =>
      (session.protobufQueryArray Stream text protoData).map StatementResult.array
  | toJsonText protobufType protoData =>
      (session.protobufToJsonText protobufType protoData).map fun json => .text (some json)

/-- What is reported where the descriptors cannot be loaded. Only the query functions catch
`BadProto`. -/
def catchCacheError : Statement → CacheError → ServerError
  | _, .report message => .postgres message
  | _, .badAlloc => .outOfMemory
  | .query _ _, .badProto message => .sql (catchException (.badProto message))
  | .queryArray _ _, .badProto message => .sql (catchException (.badProto message))
  | .toJsonText _ _, .badProto _ => .sql unknownException

end Statement

abbrev KeyedTable : Type := { table : FileDescriptorSets // table.HasPrimaryKey }

inductive ServerInput
  | begin
  | commit
  | abort
  | update (table : KeyedTable)
  | call (failure : Option FailurePoint) (process : Process) (statement : Statement)

inductive ServerOutput
  | done
  | answer (result : Except ServerError StatementResult)

/-! ## The server -/

namespace Backend

/-- After a failed assertion another process takes over what was committed. -/
def restart (backend : Backend Message) : Backend Message :=
  { backend with
    table := (backend.levels.getLast?.map TransactionLevel.savedTable).getD backend.table
    cached := none
    levels := []
    inError := false }

def finish (backend : Backend Message) : Except SqlError StatementResult → Backend Message
  | .ok _ => backend
  | .error .aborted => backend.restart
  | .error (.report _ _) => { backend with inError := true }

def execute (library : DescriptorLibrary File Message) (Stream : Type)
    [CodedInputStream Stream] (backend : Backend Message) (failure : Option FailurePoint)
    (process : Process) (statement : Statement) : Option (ServerOutput × Backend Message) :=
  if backend.inError ∨ backend.levels.isEmpty then none else
    match backend.getOrCreateCached library failure with
    | (backend, .error error) =>
        some (.answer (.error (statement.catchCacheError error)), { backend with inError := true })
    | (backend, .ok cached) =>
        let result := statement.run Stream (process.session cached.descDb)
        some (.answer (result.mapError .sql), backend.finish result)

end Backend

def server (library : DescriptorLibrary File Message) (Stream : Type)
    [CodedInputStream Stream] (table : KeyedTable) :
    Component (Backend Message) ServerInput ServerOutput where
  initial := (backendMachine library table.val).initial
  respond backend input :=
    match input with
    | .begin => (backend.next library .begin).map fun after => (.done, after)
    | .commit => (backend.next library .commit).map fun after => (.done, after)
    | .abort => (backend.next library .abort).map fun after => (.done, after)
    | .update table =>
        (backend.next library (.update table.val)).map fun after => (.done, after)
    | .call failure process statement =>
        backend.execute library Stream failure process statement

/-! ## Snapshots -/

/-- A transaction or subtransaction with the table that its first call has read, if no call
before it has. -/
structure SnapshotLevel where
  savedTable : KeyedTable
  snapshot : Option KeyedTable

structure Snapshots where
  table : KeyedTable
  levels : List SnapshotLevel
  inError : Bool

namespace Snapshots

def current (snapshots : Snapshots) : Option KeyedTable :=
  snapshots.levels.findSome? SnapshotLevel.snapshot

def begin (snapshots : Snapshots) : Option Snapshots :=
  if snapshots.inError then none else
    some { snapshots with levels := ⟨snapshots.table, none⟩ :: snapshots.levels }

def commit (snapshots : Snapshots) : Option Snapshots :=
  if snapshots.inError then none else
    match snapshots.levels with
    | [] => none
    | [_] => some { snapshots with levels := [] }
    | level :: parent :: outer =>
        some { snapshots with
          levels := { parent with snapshot := parent.snapshot.or level.snapshot } :: outer }

def abort (snapshots : Snapshots) : Option Snapshots :=
  match snapshots.levels with
  | [] => none
  | level :: outer => some ⟨level.savedTable, outer, false⟩

def restart (snapshots : Snapshots) : Snapshots :=
  ⟨(snapshots.levels.getLast?.map SnapshotLevel.savedTable).getD snapshots.table, [], false⟩

def finish (snapshots : Snapshots) : Except SqlError StatementResult → Snapshots
  | .ok _ => snapshots
  | .error .aborted => snapshots.restart
  | .error (.report _ _) => { snapshots with inError := true }

def answerFrom (library : DescriptorLibrary File Message) (Stream : Type)
    [CodedInputStream Stream] (snapshots : Snapshots) (snapshot : KeyedTable)
    (process : Process) (statement : Statement) : ServerOutput × Snapshots :=
  let result := statement.run Stream (process.session (library.tableDescDb snapshot.val))
  (.answer (result.mapError .sql), snapshots.finish result)

def take (snapshots : Snapshots) : Snapshots :=
  { snapshots with
    levels := snapshots.levels.modifyHead fun level =>
      { level with snapshot := some snapshots.table } }

def execute (library : DescriptorLibrary File Message) (Stream : Type)
    [CodedInputStream Stream] (snapshots : Snapshots) (failure : Option FailurePoint)
    (process : Process) (statement : Statement) : Option (ServerOutput × Snapshots) :=
  if snapshots.inError ∨ snapshots.levels.isEmpty then none else
    match snapshots.current with
    | some snapshot =>
        some (snapshots.answerFrom library Stream snapshot process statement)
    | none =>
        match library.loadDescDb snapshots.table.val failure with
        | .error error =>
            some (.answer (.error (statement.catchCacheError error)),
              { snapshots with inError := true })
        | .ok _ =>
            some (snapshots.take.answerFrom library Stream snapshots.table process statement)

end Snapshots

/-- The same statements answered from snapshots, without a cache and without callbacks. -/
def snapshotServer (library : DescriptorLibrary File Message) (Stream : Type)
    [CodedInputStream Stream] (table : KeyedTable) :
    Component Snapshots ServerInput ServerOutput where
  initial := ⟨table, [], false⟩
  respond snapshots input :=
    match input with
    | .begin => snapshots.begin.map fun after => (.done, after)
    | .commit => snapshots.commit.map fun after => (.done, after)
    | .abort => snapshots.abort.map fun after => (.done, after)
    | .update table =>
        if snapshots.inError then none else some (.done, { snapshots with table := table })
    | .call failure process statement =>
        snapshots.execute library Stream failure process statement

/-! ## The cache holds the snapshot -/

def SnapshotLevel.concrete (level : SnapshotLevel) : TransactionLevel where
  savedTable := level.savedTable.val
  callbacks := if level.snapshot.isSome then 1 else 0

/-- The cache holds the descriptors of the snapshot, which only one level has. -/
structure Backend.Represents (library : DescriptorLibrary File Message)
    (backend : Backend Message) (snapshots : Snapshots) : Prop where
  table : backend.table = snapshots.table.val
  inError : backend.inError = snapshots.inError
  levels : backend.levels = snapshots.levels.map SnapshotLevel.concrete
  cached : backend.cached.map Cached.descDb =
    snapshots.current.map fun snapshot => library.tableDescDb snapshot.val
  single : snapshots.levels.Pairwise fun inner outer =>
    inner.snapshot = none ∨ outer.snapshot = none

section

variable {level parent : SnapshotLevel} {outer : List SnapshotLevel}

theorem findSome?_snapshot_cons : (level :: outer).findSome? SnapshotLevel.snapshot =
    level.snapshot.or (outer.findSome? SnapshotLevel.snapshot) := by
  rw [List.findSome?_cons]
  cases level.snapshot <;> rfl

theorem findSome?_snapshot_of_head {snapshot : KeyedTable}
    (single : (level :: outer).Pairwise fun inner outer =>
      inner.snapshot = none ∨ outer.snapshot = none)
    (isHead : level.snapshot = some snapshot) :
    outer.findSome? SnapshotLevel.snapshot = none := by
  rw [List.findSome?_eq_none_iff]
  intro other member
  have oneOf := (List.pairwise_cons.mp single).1 other member
  rw [isHead] at oneOf
  exact oneOf.resolve_left (Option.some_ne_none snapshot)

end

namespace Backend.Represents

variable {library : DescriptorLibrary File Message} {backend after : Backend Message}
variable {snapshots : Snapshots}

theorem begin (represents : backend.Represents library snapshots)
    (begins : backend.begin = some after) :
    ∃ next, snapshots.begin = some next ∧ after.Represents library next := by
  unfold Backend.begin at begins
  split at begins
  · cases begins
  · rename_i noError
    cases begins
    refine ⟨_, if_neg (represents.inError ▸ noError), represents.table, represents.inError, ?_,
      represents.cached, ?_⟩
    · rw [List.map_cons, ← represents.levels, SnapshotLevel.concrete, ← represents.table]
      rfl
    · exact List.pairwise_cons.mpr ⟨fun _ _ => .inl rfl, represents.single⟩

theorem released {level : SnapshotLevel} {outer : List SnapshotLevel} {next : Snapshots}
    (represents : backend.Represents library snapshots)
    (isLevels : snapshots.levels = level :: outer) (isOuter : next.levels = outer)
    (table : after.table = next.table.val) (inError : after.inError = next.inError)
    (levels : after.levels = outer.map SnapshotLevel.concrete)
    (sameCached : after.cached = backend.cached) :
    (after.release level.concrete).Represents library next := by
  have single := represents.single
  rw [isLevels] at single
  have cached := represents.cached
  rw [Snapshots.current, isLevels, findSome?_snapshot_cons] at cached
  have singleOuter := single.of_cons
  rw [← isOuter] at levels singleOuter
  unfold Backend.release Backend.clearCache SnapshotLevel.concrete
  cases isSnapshot : level.snapshot with
  | none =>
      rw [isSnapshot, ← sameCached, ← isOuter] at cached
      exact ⟨table, inError, levels, cached, singleOuter⟩
  | some snapshot =>
      have others := findSome?_snapshot_of_head single isSnapshot
      rw [← isOuter] at others
      refine ⟨table, inError, levels, ?_, singleOuter⟩
      rw [Snapshots.current, others]
      rfl

theorem merged {level parent : SnapshotLevel} {outer : List SnapshotLevel}
    (represents : backend.Represents library snapshots)
    (isLevels : snapshots.levels = level :: parent :: outer) :
    { backend with
        levels := { parent.concrete with
          callbacks := parent.concrete.callbacks + level.concrete.callbacks } ::
            outer.map SnapshotLevel.concrete }.Represents library
      { snapshots with
        levels := { parent with snapshot := parent.snapshot.or level.snapshot } :: outer } := by
  have single := represents.single
  rw [isLevels] at single
  rcases List.pairwise_cons.mp single with ⟨ofLevel, others⟩
  rcases List.pairwise_cons.mp others with ⟨ofParent, ofOuter⟩
  have oneOf := ofLevel parent List.mem_cons_self
  have cached := represents.cached
  rw [Snapshots.current, isLevels, findSome?_snapshot_cons, findSome?_snapshot_cons,
    ← Option.or_assoc] at cached
  have sameSnapshot : level.snapshot.or parent.snapshot =
      parent.snapshot.or level.snapshot := by
    rcases oneOf with none | none <;> rw [none] <;> simp
  refine ⟨represents.table, represents.inError, ?_, ?_, ?_⟩
  · rw [List.map_cons]
    unfold SnapshotLevel.concrete
    rcases oneOf with none | none
    · cases parent.snapshot <;> simp [none]
    · cases level.snapshot <;> simp [none]
  · rw [Snapshots.current, findSome?_snapshot_cons, ← sameSnapshot]
    exact cached
  · apply List.pairwise_cons.mpr
    refine ⟨?_, ofOuter⟩
    intro other member
    have first := ofLevel other (List.mem_cons_of_mem _ member)
    have second := ofParent other member
    rcases oneOf with none | none
    · simpa [none] using second
    · simpa [none] using first

theorem commit (represents : backend.Represents library snapshots)
    (commits : backend.commit = some after) :
    ∃ next, snapshots.commit = some next ∧ after.Represents library next := by
  unfold Backend.commit at commits
  unfold Snapshots.commit
  split at commits
  · cases commits
  · rename_i noError
    rw [if_neg (represents.inError ▸ noError)]
    have levels := represents.levels
    cases isLevels : snapshots.levels with
    | nil =>
        rw [isLevels] at levels
        rw [levels] at commits
        cases commits
    | cons level outer =>
        rw [isLevels] at levels
        cases outer with
        | nil =>
            rw [levels] at commits
            cases commits
            exact ⟨_, rfl, represents.released isLevels rfl represents.table represents.inError
              rfl rfl⟩
        | cons parent outer =>
            rw [levels] at commits
            cases commits
            exact ⟨_, rfl, represents.merged isLevels⟩

theorem abort (represents : backend.Represents library snapshots)
    (aborts : backend.abort = some after) :
    ∃ next, snapshots.abort = some next ∧ after.Represents library next := by
  unfold Backend.abort at aborts
  unfold Snapshots.abort
  have levels := represents.levels
  cases isLevels : snapshots.levels with
  | nil =>
      rw [isLevels] at levels
      rw [levels] at aborts
      cases aborts
  | cons level outer =>
      rw [isLevels] at levels
      rw [levels] at aborts
      cases aborts
      exact ⟨_, rfl, represents.released isLevels rfl rfl rfl rfl rfl⟩

theorem restart (represents : backend.Represents library snapshots) :
    backend.restart.Represents library snapshots.restart := by
  refine ⟨?_, rfl, rfl, rfl, .nil⟩
  unfold Backend.restart Snapshots.restart
  rw [represents.levels, represents.table, List.getLast?_map]
  cases snapshots.levels.getLast? <;> rfl

theorem failed (represents : backend.Represents library snapshots) :
    { backend with inError := true }.Represents library { snapshots with inError := true } :=
  ⟨represents.table, rfl, represents.levels, represents.cached, represents.single⟩

theorem finish (represents : backend.Represents library snapshots)
    (result : Except SqlError StatementResult) :
    (backend.finish result).Represents library (snapshots.finish result) := by
  cases result with
  | ok result => exact represents
  | error error =>
      cases error with
      | aborted => exact represents.restart
      | report code message => exact represents.failed

theorem take {cached : Cached Message} (represents : backend.Represents library snapshots)
    (none : snapshots.current = none) (isOpen : snapshots.levels ≠ [])
    (isTable : cached.descDb = library.tableDescDb snapshots.table.val) :
    ({ backend with cached := some cached }.registerCallback).Represents library
      snapshots.take := by
  rcases List.exists_cons_of_ne_nil isOpen with ⟨level, outer, isLevels⟩
  have single := represents.single
  rw [isLevels] at single
  rw [Snapshots.current, List.findSome?_eq_none_iff, isLevels] at none
  have noSnapshot := none level List.mem_cons_self
  refine ⟨represents.table, represents.inError, ?_, ?_, ?_⟩
  · unfold Backend.registerCallback Snapshots.take
    rw [represents.levels, isLevels]
    simp [SnapshotLevel.concrete, noSnapshot]
  · simp [Backend.registerCallback, Snapshots.take, Snapshots.current, isLevels, isTable]
  · rw [Snapshots.take, isLevels, List.modifyHead_cons]
    apply List.pairwise_cons.mpr
    exact ⟨fun other member => .inr (none other (List.mem_cons_of_mem _ member)),
      single.of_cons⟩

theorem execute {Stream : Type} [CodedInputStream Stream]
    (represents : backend.Represents library snapshots) {failure : Option FailurePoint}
    (allocates : failure ≠ some .callbackAllocation) {process : Process} {statement : Statement}
    {output : ServerOutput}
    (executes : backend.execute library Stream failure process statement =
      some (output, after)) :
    ∃ next, snapshots.execute library Stream failure process statement = some (output, next) ∧
      after.Represents library next := by
  unfold Backend.execute at executes
  unfold Snapshots.execute
  have sameOpen : backend.levels.isEmpty = snapshots.levels.isEmpty := by
    rw [represents.levels, List.isEmpty_map]
  rw [← represents.inError, ← sameOpen]
  split at executes
  · cases executes
  · rename_i taken
    rw [if_neg taken]
    have isOpen : snapshots.levels ≠ [] := by
      intro closed
      rw [closed] at sameOpen
      exact taken (.inr sameOpen)
    have cached := represents.cached
    unfold Backend.getOrCreateCached at executes
    cases isCurrent : snapshots.current with
    | some snapshot =>
        rw [isCurrent] at cached
        rcases Option.map_eq_some_iff.mp cached with ⟨held, isHeld, sameDescDb⟩
        rw [isHeld] at executes
        cases executes
        rw [sameDescDb]
        exact ⟨_, rfl, represents.finish _⟩
    | none =>
        rw [isCurrent] at cached
        rw [Option.map_eq_none_iff.mp cached] at executes
        rw [← represents.table]
        dsimp only at executes ⊢
        cases loaded : library.loadDescDb backend.table failure with
        | error error =>
            rw [loaded] at executes
            cases executes
            exact ⟨_, rfl, represents.failed⟩
        | ok descDb =>
            rw [loaded] at executes
            dsimp only at executes
            rw [if_neg allocates] at executes
            cases executes
            rw [represents.table] at loaded
            have isTable := library.loadDescDb_eq_ok snapshots.table.property loaded
            dsimp only [Snapshots.answerFrom]
            rw [← isTable]
            exact ⟨_, rfl, (represents.take isCurrent isOpen isTable).finish _⟩

end Backend.Represents

/-! ## Runs of the server -/

def ServerInput.Allocates : ServerInput → Prop
  | call failure _ _ => failure ≠ some .callbackAllocation
  | _ => True

theorem server_simulates (library : DescriptorLibrary File Message) (Stream : Type)
    [CodedInputStream Stream] (table : KeyedTable) :
    (server library Stream table).Simulates (snapshotServer library Stream table)
      ServerInput.Allocates (Backend.Represents library) := by
  intro backend snapshots input output after represents allocates responds
  cases input with
  | begin =>
      rcases Option.map_eq_some_iff.mp responds with ⟨ended, begins, isOutput⟩
      cases isOutput
      rcases represents.begin begins with ⟨next, answers, stays⟩
      exact ⟨next, Option.map_eq_some_iff.mpr ⟨next, answers, rfl⟩, stays⟩
  | commit =>
      rcases Option.map_eq_some_iff.mp responds with ⟨ended, commits, isOutput⟩
      cases isOutput
      rcases represents.commit commits with ⟨next, answers, stays⟩
      exact ⟨next, Option.map_eq_some_iff.mpr ⟨next, answers, rfl⟩, stays⟩
  | abort =>
      rcases Option.map_eq_some_iff.mp responds with ⟨ended, aborts, isOutput⟩
      cases isOutput
      rcases represents.abort aborts with ⟨next, answers, stays⟩
      exact ⟨next, Option.map_eq_some_iff.mpr ⟨next, answers, rfl⟩, stays⟩
  | update table =>
      rcases Option.map_eq_some_iff.mp responds with ⟨ended, updates, isOutput⟩
      cases isOutput
      change (if backend.inError then none else some _) = some after at updates
      split at updates
      · cases updates
      · rename_i noError
        cases updates
        exact ⟨_, if_neg (represents.inError ▸ noError), rfl, represents.inError,
          represents.levels, represents.cached, represents.single⟩
  | call failure process statement => exact represents.execute allocates responds

/-- Every answer of a run in which no callback fails to be allocated is the one that the
functions give on the table of a snapshot: of the transaction or subtransaction that was the
first one around the call to read the table. -/
theorem server_refines (library : DescriptorLibrary File Message) (Stream : Type)
    [CodedInputStream Stream] (table : KeyedTable) {inputs : List ServerInput}
    (allocates : ∀ input ∈ inputs, input.Allocates) {outputs : List ServerOutput}
    {last : Backend Message}
    (runs : (server library Stream table).run (server library Stream table).initial inputs =
      some (outputs, last)) :
    ∃ snapshots, (snapshotServer library Stream table).run
        (snapshotServer library Stream table).initial inputs = some (outputs, snapshots) ∧
      last.Represents library snapshots :=
  Component.Simulates.run (server_simulates library Stream table) ⟨rfl, rfl, rfl, rfl, .nil⟩
    allocates runs

def testProcess : Process := ⟨zeroMemory, testUtils, fun _ => 0⟩

def testTable : KeyedTable := ⟨[(literal "default", [])], List.nodup_singleton _⟩

def emptiedBetween : List ServerInput :=
  let call := .call none testProcess
    (.query (literal "pgpb.test.ExampleMessage:repeated_string[*]") ⟨[0x1A, 1, 0x61], by decide⟩)
  [.begin, call, .update ⟨[], .nil⟩, .begin, call, .commit, .commit, .begin, call, .abort]

theorem emptiedBetween_allocates : ∀ input ∈ emptiedBetween, input.Allocates := by
  intro input member
  simp only [emptiedBetween, List.mem_cons, List.not_mem_nil, or_false] at member
  rcases member with rfl | rfl | rfl | rfl | rfl | rfl | rfl | rfl | rfl | rfl <;>
    first | exact trivial | exact (Option.some_ne_none _).symm

/-- Only the last call finds no descriptor set. -/
theorem server_refines_emptiedBetween :
    ∃ snapshots, (snapshotServer testLibrary ArrayStream testTable).run
      (snapshotServer testLibrary ArrayStream testTable).initial emptiedBetween =
        some ([.done, .answer (.ok (.text (some [0x61]))), .done, .done,
          .answer (.ok (.text (some [0x61]))), .done, .done, .done,
          .answer (.error (.sql (.report .invalidParameterValue
            (literal "invalid query: descriptor set not found: default")))), .done],
          snapshots) := by
  rcases server_refines testLibrary ArrayStream testTable emptiedBetween_allocates rfl with
    ⟨snapshots, runs, _⟩
  exact ⟨snapshots, runs⟩

end PostgresProtobuf
