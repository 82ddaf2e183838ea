import PostgresProtobuf.TestSchema
import PostgresProtobuf.Foundation.Machine

/-! # The descriptor cache

A backend with its transactions, the memory contexts that they release and the cached
descriptor database. -/

namespace PostgresProtobuf

open Foundation

variable {File Message : Type}

structure DescriptorLibrary (File Message : Type) where
  parseFromArray : Bytes → Option (List File)
  descSet : List File → DescSet Message

abbrev FileDescriptorSets : Type := List (StdString × Bytes)

inductive FailurePoint
  | spiConnect
  | spiExecute (status : StdString)
  | postgresError (message : StdString)
  | spiFinish
  | heapAllocation (row : Nat)
  | callbackAllocation
  deriving DecidableEq

inductive CacheError
  | report (message : StdString)
  | badProto (message : StdString)
  | badAlloc
  deriving DecidableEq

namespace DescriptorLibrary

variable (library : DescriptorLibrary File Message)

abbrev DescSets (File : Type) : Type := List (StdString × List File)

def addFiles (descSets : DescSets File) (name : StdString) (files : List File) :
    DescSets File :=
  (name, (descSets.lookup name).getD [] ++ files.reverse) ::
    descSets.filter fun descSet => descSet.1 ≠ name

def readRows (failing : Option Nat) (descSets : DescSets File) :
    List (StdString × Bytes) → Except CacheError (DescSets File)
  | [] => if failing.isSome then .error .badAlloc else .ok descSets
  | (name, data) :: rows =>
      if failing = some 0 then .error .badAlloc else
        match library.parseFromArray data with
        | none => .error (.badProto (literal "failed to parse FileDescriptorSet"))
        | some files => readRows (failing.map Nat.pred) (addFiles descSets name files) rows

/-- `GetOrCreateCached` up to the point where it sets `cached_`. -/
def loadDescDb (table : FileDescriptorSets) (failure : Option FailurePoint) :
    Except CacheError (DescDb Message) := do
  if failure = some .spiConnect then throw (.report (literal "SPI_connect failed"))
  match failure with
  | some (.spiExecute status) =>
      throw (.report (literal "SPI_execute failed: " ++ cString status))
  | some (.postgresError message) => throw (.report message)
  | _ => pure ()
  if failure = some .spiFinish then throw (.report (literal "SPI_finish failed"))
  let failing :=
    match failure with
    | some (.heapAllocation row) => some row
    | _ => none
  let descSets ← library.readRows failing [] table
  return ⟨fun name => (descSets.lookup name).map library.descSet⟩

end DescriptorLibrary

/-- `cached_`, with the number of the transaction that the rows were read in. -/
structure Cached (Message : Type) where
  descDb : DescDb Message
  readIn : Nat

/-- An open transaction or subtransaction: the table at its start, and how often
`ClearCacheCallback` is registered on its context. -/
structure TransactionLevel where
  savedTable : FileDescriptorSets
  callbacks : Nat

/-- The levels are in order from the current one outwards. -/
structure Backend (Message : Type) where
  table : FileDescriptorSets
  cached : Option (Cached Message)
  levels : List TransactionLevel
  transaction : Nat
  inError : Bool

inductive BackendEvent
  | begin
  | commit
  | abort
  | update (table : FileDescriptorSets)
  | call (failure : Option FailurePoint)

namespace Backend

def clearCache (backend : Backend Message) : Backend Message :=
  { backend with cached := none }

def release (backend : Backend Message) (level : TransactionLevel) : Backend Message :=
  if 0 < level.callbacks then backend.clearCache else backend

def registerCallback (backend : Backend Message) : Backend Message :=
  { backend with
    levels := backend.levels.modifyHead fun level =>
      { level with callbacks := level.callbacks + 1 } }

def getOrCreateCached (library : DescriptorLibrary File Message) (backend : Backend Message)
    (failure : Option FailurePoint) :
    Backend Message × Except CacheError (Cached Message) :=
  match backend.cached with
  | some cached => (backend, .ok cached)
  | none =>
      match library.loadDescDb backend.table failure with
      | .error error => (backend, .error error)
      | .ok descDb =>
          let cached : Cached Message := ⟨descDb, backend.transaction⟩
          let backend := { backend with cached := some cached }
          if failure = some .callbackAllocation then (backend, .error .badAlloc)
          else (backend.registerCallback, .ok cached)

def begin (backend : Backend Message) : Option (Backend Message) :=
  if backend.inError then none else
    some { backend with
      levels := ⟨backend.table, 0⟩ :: backend.levels
      transaction :=
        if backend.levels.isEmpty then backend.transaction + 1 else backend.transaction }

/-- A committed subtransaction leaves its context to its parent. -/
def commit (backend : Backend Message) : Option (Backend Message) :=
  if backend.inError then none else
    match backend.levels with
    | [] => none
    | [level] => some ({ backend with levels := [] }.release level)
    | level :: parent :: outer =>
        some { backend with
          levels := { parent with callbacks := parent.callbacks + level.callbacks } :: outer }

def abort (backend : Backend Message) : Option (Backend Message) :=
  match backend.levels with
  | [] => none
  | level :: outer =>
      some ({ backend with table := level.savedTable, levels := outer, inError := false }.release
        level)

def call (library : DescriptorLibrary File Message) (backend : Backend Message)
    (failure : Option FailurePoint) : Option (Backend Message) :=
  if backend.inError ∨ backend.levels.isEmpty then none else
    match backend.getOrCreateCached library failure with
    | (backend, .ok _) => some backend
    | (backend, .error _) => some { backend with inError := true }

def next (library : DescriptorLibrary File Message) (backend : Backend Message) :
    BackendEvent → Option (Backend Message)
  | .begin => backend.begin
  | .commit => backend.commit
  | .abort => backend.abort
  | .update table => if backend.inError then none else some { backend with table := table }
  | .call failure => backend.call library failure

end Backend

def backendMachine (library : DescriptorLibrary File Message) (table : FileDescriptorSets) :
    Machine (Backend Message) BackendEvent where
  initial := ⟨table, none, [], 0, false⟩
  next := Backend.next library

/-! ## Every callback is registered -/

/-- The cache is of the current transaction, and a context that is released with it or
earlier clears the cache; so a call only serves what this transaction has read. -/
structure Guarded (library : DescriptorLibrary File Message) (backend : Backend Message) :
    Prop where
  registered : ∀ cached ∈ backend.cached,
    cached.readIn = backend.transaction ∧ ∃ level ∈ backend.levels, 0 < level.callbacks
  served : ∀ failure after cached,
    backend.getOrCreateCached library failure = (after, .ok cached) →
      cached.readIn = backend.transaction

def Parses (library : DescriptorLibrary File Message) (table : FileDescriptorSets) : Prop :=
  ∀ row ∈ table, (library.parseFromArray row.2).isSome

def LosesCallback (library : DescriptorLibrary File Message) (backend : Backend Message)
    (event : BackendEvent) : Prop :=
  event = .call (some .callbackAllocation) ∧ backend.cached = none ∧
    Parses library backend.table

namespace Backend

def callbacks (backend : Backend Message) : Nat :=
  (backend.levels.map TransactionLevel.callbacks).sum

/-- A full cache has one callback, an empty one has none. -/
structure Invariant (backend : Backend Message) : Prop where
  callbacks : backend.callbacks = if backend.cached.isSome then 1 else 0
  readIn : ∀ cached ∈ backend.cached, cached.readIn = backend.transaction

end Backend

theorem isOk_readRows (library : DescriptorLibrary File Message)
    (descSets : DescriptorLibrary.DescSets File) (rows : List (StdString × Bytes)) :
    (∃ result, library.readRows none descSets rows = .ok result) ↔
      ∀ row ∈ rows, (library.parseFromArray row.2).isSome := by
  induction rows generalizing descSets with
  | nil => simp [DescriptorLibrary.readRows]
  | cons row rows induction =>
      rcases row with ⟨name, data⟩
      cases parsed : library.parseFromArray data with
      | none => simp [DescriptorLibrary.readRows, parsed]
      | some files =>
          have rest := induction (DescriptorLibrary.addFiles descSets name files)
          simpa [DescriptorLibrary.readRows, parsed] using rest

theorem isOk_loadDescDb (library : DescriptorLibrary File Message)
    (table : FileDescriptorSets) :
    (∃ descDb, library.loadDescDb table (some .callbackAllocation) = .ok descDb) ↔
      Parses library table := by
  have loads : (∃ descDb, library.loadDescDb table (some .callbackAllocation) = .ok descDb) ↔
      ∃ descSets, library.readRows none [] table = .ok descSets := by
    simp only [DescriptorLibrary.loadDescDb]
    cases library.readRows none [] table with
    | error error => simp [bind, Except.bind]
    | ok descSets => simp [bind, Except.bind, pure, Except.pure]
  rw [loads, isOk_readRows]
  exact Iff.rfl

namespace Backend

variable {library : DescriptorLibrary File Message} {backend after : Backend Message}

theorem getOrCreateCached_cases (library : DescriptorLibrary File Message)
    (backend : Backend Message) (failure : Option FailurePoint) :
    (∃ cached, backend.cached = some cached ∧
      backend.getOrCreateCached library failure = (backend, .ok cached)) ∨
    (∃ error, backend.cached = none ∧
      backend.getOrCreateCached library failure = (backend, .error error)) ∨
    (∃ cached, backend.cached = none ∧ cached.readIn = backend.transaction ∧
      backend.getOrCreateCached library failure =
        ({ backend with cached := some cached }.registerCallback, .ok cached)) ∨
    (∃ cached, LosesCallback library backend (.call failure) ∧
      backend.getOrCreateCached library failure =
        ({ backend with cached := some cached }, .error .badAlloc)) := by
  unfold getOrCreateCached
  cases full : backend.cached with
  | some cached => exact .inl ⟨cached, rfl, rfl⟩
  | none =>
      cases loaded : library.loadDescDb backend.table failure with
      | error error => exact .inr (.inl ⟨error, rfl, rfl⟩)
      | ok descDb =>
          by_cases fails : failure = some .callbackAllocation
          · subst fails
            have parses := (isOk_loadDescDb library backend.table).mp ⟨descDb, loaded⟩
            exact .inr (.inr (.inr ⟨_, ⟨rfl, full, parses⟩, if_pos rfl⟩))
          · exact .inr (.inr (.inl ⟨_, rfl, rfl, if_neg fails⟩))

theorem getOrCreateCached_of_losesCallback
    (loses : LosesCallback library backend (.call (some .callbackAllocation))) :
    ∃ cached, backend.getOrCreateCached library (some .callbackAllocation) =
      ({ backend with cached := some cached }, .error .badAlloc) := by
  rcases (isOk_loadDescDb library backend.table).mpr loses.2.2 with ⟨descDb, loaded⟩
  simp [getOrCreateCached, loses.2.1, loaded]

theorem callbacks_cons (level : TransactionLevel) (levels : List TransactionLevel)
    (isLevels : backend.levels = level :: levels) :
    backend.callbacks = level.callbacks + { backend with levels := levels }.callbacks := by
  rw [callbacks, isLevels]
  rfl

theorem callbacks_pos :
    0 < backend.callbacks ↔ ∃ level ∈ backend.levels, 0 < level.callbacks := by
  rw [callbacks, List.sum_pos_iff_exists_pos_nat]
  constructor
  · intro registered
    rcases registered with ⟨count, member, positive⟩
    rcases List.mem_map.mp member with ⟨level, isLevel, rfl⟩
    exact ⟨level, isLevel, positive⟩
  · intro registered
    rcases registered with ⟨level, isLevel, positive⟩
    exact ⟨level.callbacks, List.mem_map_of_mem isLevel, positive⟩

theorem Invariant.release {level : TransactionLevel}
    (callbacks : level.callbacks + backend.callbacks =
      if backend.cached.isSome then 1 else 0)
    (readIn : ∀ cached ∈ backend.cached, cached.readIn = backend.transaction) :
    (backend.release level).Invariant := by
  unfold Backend.release
  by_cases registered : 0 < level.callbacks
  · rw [if_pos registered]
    constructor
    · change backend.callbacks = 0
      split at callbacks <;> omega
    · intro cached isCached
      exact absurd isCached nofun
  · rw [if_neg registered]
    constructor
    · omega
    · exact readIn

theorem Invariant.begin (invariant : backend.Invariant) (next : backend.begin = some after) :
    after.Invariant := by
  unfold Backend.begin at next
  split at next
  · exact absurd next nofun
  · rw [← Option.some.inj next]
    constructor
    · exact (Nat.zero_add _).trans invariant.callbacks
    · intro cached isCached
      by_cases outermost : backend.levels.isEmpty = true
      · have full : backend.callbacks = 1 := by
          rw [invariant.callbacks, Option.mem_def.mp isCached]
          rfl
        rw [Backend.callbacks, List.isEmpty_iff.mp outermost] at full
        exact absurd full (by decide)
      · simp only [outermost]
        exact invariant.readIn cached isCached

theorem Invariant.commit (invariant : backend.Invariant)
    (next : backend.commit = some after) : after.Invariant := by
  unfold Backend.commit at next
  split at next
  · exact absurd next nofun
  · cases levels : backend.levels with
    | nil => simp [levels] at next
    | cons level outer =>
        have callbacks := invariant.callbacks
        rw [callbacks_cons level outer levels] at callbacks
        cases outer with
        | nil =>
            simp only [levels, Option.some.injEq] at next
            rw [← next]
            exact Invariant.release callbacks invariant.readIn
        | cons parent outer =>
            simp only [levels, Option.some.injEq] at next
            rw [← next]
            constructor
            · simp only [Backend.callbacks, List.map_cons, List.sum_cons] at callbacks ⊢
              rw [← callbacks]
              omega
            · exact invariant.readIn

theorem Invariant.abort (invariant : backend.Invariant)
    (next : backend.abort = some after) : after.Invariant := by
  unfold Backend.abort at next
  cases levels : backend.levels with
  | nil => simp [levels] at next
  | cons level outer =>
      have callbacks := invariant.callbacks
      rw [callbacks_cons level outer levels] at callbacks
      simp only [levels, Option.some.injEq] at next
      rw [← next]
      exact Invariant.release callbacks invariant.readIn

theorem Invariant.registerCallback {cached : Cached Message} (invariant : backend.Invariant)
    (empty : backend.cached = none) (isOpen : backend.levels ≠ [])
    (readIn : cached.readIn = backend.transaction) :
    ({ backend with cached := some cached }.registerCallback).Invariant := by
  have callbacks := invariant.callbacks
  cases levels : backend.levels with
  | nil => exact absurd levels isOpen
  | cons level outer =>
      constructor
      · simp only [Backend.callbacks, Backend.registerCallback, levels, empty,
          List.map_cons, List.sum_cons, List.modifyHead_cons, Option.isSome_none,
          Option.isSome_some, if_true, Bool.false_eq_true, if_false] at callbacks ⊢
        omega
      · intro other isCached
        rw [← Option.some.inj isCached]
        exact readIn

theorem Invariant.call {failure : Option FailurePoint} (invariant : backend.Invariant)
    (next : backend.call library failure = some after)
    (keeps : ¬ LosesCallback library backend (.call failure)) : after.Invariant := by
  unfold Backend.call at next
  split at next
  · exact absurd next nofun
  · rename_i taken
    have isOpen : backend.levels ≠ [] := fun closed => taken (.inr (by rw [closed]; rfl))
    rcases getOrCreateCached_cases library backend failure with
      ⟨cached, full, call⟩ | ⟨error, empty, call⟩ | ⟨cached, empty, readIn, call⟩ |
        ⟨cached, loses, call⟩
    · rw [call] at next
      rw [← Option.some.inj next]
      exact invariant
    · rw [call] at next
      rw [← Option.some.inj next]
      exact ⟨invariant.callbacks, invariant.readIn⟩
    · rw [call] at next
      rw [← Option.some.inj next]
      exact Invariant.registerCallback invariant empty isOpen readIn
    · exact absurd loses keeps

theorem Invariant.next {event : BackendEvent} (invariant : backend.Invariant)
    (next : backend.next library event = some after)
    (keeps : ¬ LosesCallback library backend event) : after.Invariant := by
  cases event with
  | begin => exact Invariant.begin invariant next
  | commit => exact Invariant.commit invariant next
  | abort => exact Invariant.abort invariant next
  | update table =>
      simp only [Backend.next] at next
      split at next
      · exact absurd next nofun
      · rw [← Option.some.inj next]
        exact ⟨invariant.callbacks, invariant.readIn⟩
  | call failure => exact Invariant.call invariant next keeps

theorem Invariant.guarded (invariant : backend.Invariant) : Guarded library backend := by
  constructor
  · intro cached isCached
    apply And.intro (invariant.readIn cached isCached)
    apply callbacks_pos.mp
    rw [invariant.callbacks, Option.mem_def.mp isCached]
    exact Nat.one_pos
  · intro failure after served call
    rcases getOrCreateCached_cases library backend failure with
      ⟨cached, full, other⟩ | ⟨error, _, other⟩ | ⟨cached, _, readIn, other⟩ |
        ⟨cached, _, other⟩
    · rw [other] at call
      cases call
      exact invariant.readIn served full
    · rw [other] at call
      cases call
    · rw [other] at call
      cases call
      exact readIn
    · rw [other] at call
      cases call

theorem Invariant.not_guarded {event : BackendEvent} (invariant : backend.Invariant)
    (next : backend.next library event = some after)
    (loses : LosesCallback library backend event) : ¬ Guarded library after := by
  have isCall := loses.1
  subst isCall
  rcases getOrCreateCached_of_losesCallback loses with ⟨cached, call⟩
  change backend.call library (some .callbackAllocation) = some after at next
  unfold Backend.call at next
  split at next
  · exact absurd next nofun
  · rw [call] at next
    rw [← Option.some.inj next]
    intro guarded
    have registered : 0 < backend.callbacks :=
      callbacks_pos.mpr (guarded.registered cached rfl).2
    rw [invariant.callbacks, loses.2.1] at registered
    exact absurd registered (Nat.lt_irrefl 0)

end Backend

/-- In every run the cache stays within its transaction exactly if no step loses the
callback. -/
theorem cacheGuarded_iff (library : DescriptorLibrary File Message)
    (table : FileDescriptorSets) (events : List BackendEvent) :
    (backendMachine library table).Throughout (Guarded library)
        (backendMachine library table).initial events ↔
      (backendMachine library table).EveryStep
        (fun backend event => ¬ LosesCallback library backend event)
        (backendMachine library table).initial events := by
  apply Machine.throughout_iff_everyStep Backend.Invariant
  · exact fun backend invariant => invariant.guarded
  · exact fun backend event after invariant next keeps => invariant.next next keeps
  · intro backend event after invariant next loses
    exact invariant.not_guarded next (not_not.mp loses)
  · exact ⟨rfl, nofun⟩

def testLibrary : DescriptorLibrary Unit TestMessage :=
  ⟨fun _ => some [()], fun _ => testSet⟩

def lostCallbackEvents : List BackendEvent :=
  [.begin, .call (some .callbackAllocation), .abort, .update [], .begin]

/-- The second transaction is served what the first one has read. -/
theorem lostCallback_servesStale :
    (∃ backend after cached,
      (backendMachine testLibrary [(literal "default", [])]).run
          (backendMachine testLibrary [(literal "default", [])]).initial
          lostCallbackEvents = some backend ∧
        backend.getOrCreateCached testLibrary none = (after, .ok cached) ∧
        backend.table = [] ∧ backend.transaction = 2 ∧ cached.readIn = 1) ∧
      ¬ (backendMachine testLibrary [(literal "default", [])]).Throughout
          (Guarded testLibrary)
          (backendMachine testLibrary [(literal "default", [])]).initial
          lostCallbackEvents := by
  have stale : ∃ backend after cached,
      (backendMachine testLibrary [(literal "default", [])]).run
          (backendMachine testLibrary [(literal "default", [])]).initial
          lostCallbackEvents = some backend ∧
        backend.getOrCreateCached testLibrary none = (after, .ok cached) ∧
        backend.table = [] ∧ backend.transaction = 2 ∧ cached.readIn = 1 :=
    ⟨_, _, _, rfl, rfl, rfl, rfl, rfl⟩
  apply And.intro stale
  intro throughout
  rcases stale with ⟨backend, after, cached, runs, call, _, transaction, readIn⟩
  have fresh := (throughout.of_run runs).served none after cached call
  rw [transaction, readIn] at fresh
  exact absurd fresh (by decide)

end PostgresProtobuf
