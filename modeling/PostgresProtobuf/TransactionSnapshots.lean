import PostgresProtobuf.DescriptorCache

/-! # What calls see in a transaction

A transaction or subtransaction that is aborted leaves nothing behind in the cache, and the
calls of one transaction are served the same descriptors. -/

namespace PostgresProtobuf

open Foundation

variable {File Message : Type}

/-! ## Runs that lose no callback -/

section

variable (library : DescriptorLibrary File Message) (table : FileDescriptorSets)

def KeepsCallbacks (backend : Backend Message) (events : List BackendEvent) : Prop :=
  (backendMachine library table).EveryStep
    (fun backend event => ¬ LosesCallback library backend event) backend events

variable {library table} {backend after : Backend Message} {events : List BackendEvent}

theorem KeepsCallbacks.cons {event : BackendEvent} {middle : Backend Message}
    (keeps : KeepsCallbacks library table backend (event :: events))
    (next : backend.next library event = some middle) :
    ¬ LosesCallback library backend event ∧ KeepsCallbacks library table middle events :=
  keeps middle next

theorem KeepsCallbacks.append {front back : List BackendEvent} {middle : Backend Message}
    (keeps : KeepsCallbacks library table backend (front ++ back))
    (runs : (backendMachine library table).run backend front = some middle) :
    KeepsCallbacks library table backend front ∧ KeepsCallbacks library table middle back :=
  (Machine.everyStep_append runs).mp keeps

theorem Backend.Invariant.run (invariant : backend.Invariant)
    (keeps : KeepsCallbacks library table backend events)
    (runs : (backendMachine library table).run backend events = some after) :
    after.Invariant := by
  induction events generalizing backend with
  | nil =>
      cases runs
      exact invariant
  | cons event events induction =>
      rcases Machine.run_cons_eq_some.mp runs with ⟨middle, next, rest⟩
      rcases keeps.cons next with ⟨kept, keepsRest⟩
      exact induction (invariant.next next kept) keepsRest rest

theorem keepsCallbacks_of_not_mem
    (never : BackendEvent.call (some .callbackAllocation) ∉ events) :
    KeepsCallbacks library table backend events := by
  induction events generalizing backend with
  | nil => trivial
  | cons event events induction =>
      intro after _
      have other : event ≠ .call (some .callbackAllocation) :=
        fun isCall => never (isCall ▸ List.mem_cons_self)
      exact ⟨fun loses => other loses.1,
        induction fun member => never (List.mem_cons_of_mem _ member)⟩

theorem Backend.Invariant.initial : ((backendMachine library table).initial).Invariant :=
  ⟨rfl, nofun⟩

end

/-! ## Nested transactions -/

inductive Nested : List BackendEvent → Prop
  | nil : Nested []
  | update (table : FileDescriptorSets) {events : List BackendEvent} (rest : Nested events) :
      Nested (.update table :: events)
  | call (failure : Option FailurePoint) {events : List BackendEvent}
      (rest : Nested events) : Nested (.call failure :: events)
  | committed {inner events : List BackendEvent} (inside : Nested inner)
      (rest : Nested events) : Nested (.begin :: (inner ++ .commit :: events))
  | aborted {inner events : List BackendEvent} (inside : Nested inner)
      (rest : Nested events) : Nested (.begin :: (inner ++ .abort :: events))

/-- The current level is still the current one, with callbacks added, and a full cache is
as it was. -/
structure Continues (backend after : Backend Message) : Prop where
  levels : ∀ level outer, backend.levels = level :: outer →
    ∃ added, after.levels = { level with callbacks := level.callbacks + added } :: outer
  transaction : after.transaction = backend.transaction
  cached : ∀ cached, backend.cached = some cached → after.cached = some cached

namespace Continues

variable {backend middle after : Backend Message}

theorem refl (backend : Backend Message) : Continues backend backend where
  levels _ _ isLevels := ⟨0, isLevels⟩
  transaction := rfl
  cached _ isCached := isCached

theorem trans (first : Continues backend middle) (second : Continues middle after) :
    Continues backend after where
  levels level outer isLevels := by
    rcases first.levels level outer isLevels with ⟨added, isMiddle⟩
    rcases second.levels _ outer isMiddle with ⟨more, isAfter⟩
    exact ⟨added + more, by rw [isAfter, Nat.add_assoc]⟩
  transaction := second.transaction.trans first.transaction
  cached cached isCached := second.cached cached (first.cached cached isCached)

theorem isOpen (continues : Continues backend after) (isOpen : backend.levels ≠ []) :
    after.levels ≠ [] := by
  rcases List.exists_cons_of_ne_nil isOpen with ⟨level, outer, isLevels⟩
  rcases continues.levels level outer isLevels with ⟨added, isAfter⟩
  simp [isAfter]

end Continues

namespace Backend

variable {library : DescriptorLibrary File Message} {backend opened closing after : Backend Message}

theorem callbacks_of_levels {level : TransactionLevel} (isLevels : closing.levels =
    level :: backend.levels) : closing.callbacks = level.callbacks + backend.callbacks :=
  callbacks_cons level backend.levels isLevels

theorem begin_eq_some (begins : backend.begin = some opened) :
    backend.inError = false ∧ opened =
      { backend with
        levels := ⟨backend.table, 0⟩ :: backend.levels
        transaction :=
          if backend.levels.isEmpty then backend.transaction + 1
          else backend.transaction } := by
  unfold Backend.begin at begins
  split at begins
  · cases begins
  · rename_i noError
    exact ⟨Bool.not_eq_true _ ▸ noError, (Option.some.inj begins).symm⟩

theorem abort_eq_some (invariant : backend.Invariant) (begins : backend.begin = some opened)
    (continues : Continues opened closing) (invariantClosing : closing.Invariant)
    (aborts : closing.abort = some after) :
    after = { backend with transaction := opened.transaction } := by
  rcases begin_eq_some begins with ⟨noError, isOpened⟩
  have openedLevels : opened.levels = ⟨backend.table, 0⟩ :: backend.levels := by rw [isOpened]
  have openedCached : opened.cached = backend.cached := by rw [isOpened]
  rcases continues.levels _ _ openedLevels with ⟨added, isClosing⟩
  have total := invariantClosing.callbacks
  rw [callbacks_of_levels isClosing, invariant.callbacks] at total
  -- The cache is cleared exactly if it was empty and has been filled since.
  have restored : (if 0 < 0 + added then none else closing.cached) = backend.cached := by
    cases isCached : backend.cached with
    | some cached =>
        have kept := continues.cached cached (openedCached.trans isCached)
        rw [isCached, kept] at total
        have none : added = 0 := by simpa using total
        rw [none, kept]
        rfl
    | none =>
        rw [isCached] at total
        split
        · rfl
        · rename_i zero
          have noneAdded : added = 0 := by omega
          cases isFull : closing.cached with
          | none => rfl
          | some cached =>
              rw [isFull, noneAdded] at total
              exact absurd total (by simp)
  unfold Backend.abort at aborts
  rw [isClosing] at aborts
  have isAfter := Option.some.inj aborts
  rw [← isAfter]
  unfold Backend.release Backend.clearCache
  have transaction := continues.transaction
  rcases backend with ⟨table, cached, levels, number, inError⟩
  dsimp only at noError restored
  subst noError
  rw [← restored, ← transaction]
  split <;> simp_all

theorem commit_continues (isOpen : backend.levels ≠ [])
    (begins : backend.begin = some opened) (continues : Continues opened closing)
    (commits : closing.commit = some after) : Continues backend after := by
  rcases begin_eq_some begins with ⟨_, isOpened⟩
  rcases List.exists_cons_of_ne_nil isOpen with ⟨parent, outer, isLevels⟩
  have openedLevels : opened.levels = ⟨backend.table, 0⟩ :: parent :: outer := by
    rw [isOpened, isLevels]
  have openedCached : opened.cached = backend.cached := by rw [isOpened]
  have openedTransaction : opened.transaction = backend.transaction := by
    rw [isOpened, isLevels]
    rfl
  rcases continues.levels _ _ openedLevels with ⟨added, isClosing⟩
  unfold Backend.commit at commits
  rw [isClosing] at commits
  split at commits
  · cases commits
  · have isAfter := Option.some.inj commits
    rw [← isAfter]
    constructor
    · intro level others isBackend
      rw [isLevels] at isBackend
      cases isBackend
      exact ⟨0 + added, rfl⟩
    · exact continues.transaction.trans openedTransaction
    · intro cached isCached
      exact continues.cached cached (openedCached.trans isCached)

theorem update_continues {table : FileDescriptorSets}
    (updates : backend.next library (.update table) = some after) :
    Continues backend after := by
  simp only [Backend.next] at updates
  split at updates
  · cases updates
  · cases updates
    exact ⟨fun _ _ isLevels => ⟨0, isLevels⟩, rfl, fun _ isCached => isCached⟩

theorem call_continues {failure : Option FailurePoint}
    (keeps : ¬ LosesCallback library backend (.call failure))
    (calls : backend.call library failure = some after) : Continues backend after := by
  unfold Backend.call at calls
  split at calls
  · cases calls
  · rcases getOrCreateCached_cases library backend failure with
      ⟨cached, full, call⟩ | ⟨error, empty, call⟩ | ⟨cached, empty, _, call⟩ |
        ⟨cached, loses, call⟩
    · rw [call] at calls
      cases calls
      exact .refl backend
    · rw [call] at calls
      cases calls
      exact ⟨fun _ _ isLevels => ⟨0, isLevels⟩, rfl, fun _ isCached => isCached⟩
    · rw [call] at calls
      cases calls
      constructor
      · intro level outer isLevels
        refine ⟨1, ?_⟩
        rw [registerCallback, isLevels]
        rfl
      · rfl
      · intro cached isCached
        rw [empty] at isCached
        cases isCached
    · exact absurd loses keeps

end Backend

section

variable {library : DescriptorLibrary File Message} {table : FileDescriptorSets}
variable {backend after : Backend Message}

def ContinuesOver (library : DescriptorLibrary File Message) (table : FileDescriptorSets)
    (inner : List BackendEvent) : Prop :=
  ∀ opened closing : Backend Message, opened.Invariant → opened.levels ≠ [] →
    KeepsCallbacks library table opened inner →
      (backendMachine library table).run opened inner = some closing → Continues opened closing

theorem subtransaction_cases {inner rest : List BackendEvent} {close : BackendEvent}
    (invariant : backend.Invariant)
    (keeps : KeepsCallbacks library table backend (.begin :: (inner ++ close :: rest)))
    (runs : (backendMachine library table).run backend (.begin :: (inner ++ close :: rest)) =
      some after)
    (inside : ContinuesOver library table inner) :
    ∃ opened closing ended, backend.begin = some opened ∧ Continues opened closing ∧
      closing.Invariant ∧ closing.next library close = some ended ∧ ended.Invariant ∧
      KeepsCallbacks library table ended rest ∧
      (backendMachine library table).run ended rest = some after := by
  rcases Machine.run_cons_eq_some.mp runs with ⟨opened, begins, continuing⟩
  rcases Machine.run_append_eq_some.mp continuing with ⟨closing, runsInner, runsRest⟩
  rcases Machine.run_cons_eq_some.mp runsRest with ⟨ended, closes, runsEnd⟩
  have openedInvariant := Backend.Invariant.begin invariant begins
  rcases (keeps.cons begins).2.append runsInner with ⟨keepsInner, keepsRest⟩
  have closingInvariant := openedInvariant.run keepsInner runsInner
  rcases keepsRest.cons closes with ⟨keepsClose, keepsEnd⟩
  have openedOpen : opened.levels ≠ [] := by simp [(Backend.begin_eq_some begins).2]
  exact ⟨opened, closing, ended, begins,
    inside opened closing openedInvariant openedOpen keepsInner runsInner, closingInvariant,
    closes, closingInvariant.next closes keepsClose, keepsEnd, runsEnd⟩

theorem Nested.continues {events : List BackendEvent} (nested : Nested events) :
    ContinuesOver library table events := by
  induction nested with
  | nil =>
      intro backend after _ _ _ runs
      cases runs
      exact .refl backend
  | update newTable rest induction =>
      intro backend after invariant isOpen keeps runs
      rcases Machine.run_cons_eq_some.mp runs with ⟨middle, next, runsRest⟩
      have updates : backend.next library (.update newTable) = some middle := next
      rcases keeps.cons updates with ⟨keepsOne, keepsRest⟩
      have same := Backend.update_continues updates
      exact same.trans (induction middle after (invariant.next updates keepsOne)
        (same.isOpen isOpen) keepsRest runsRest)
  | call failure rest induction =>
      intro backend after invariant isOpen keeps runs
      rcases Machine.run_cons_eq_some.mp runs with ⟨middle, next, runsRest⟩
      have calls : backend.next library (.call failure) = some middle := next
      rcases keeps.cons calls with ⟨keepsOne, keepsRest⟩
      have continues := Backend.call_continues keepsOne calls
      exact continues.trans (induction middle after (invariant.next calls keepsOne)
        (continues.isOpen isOpen) keepsRest runsRest)
  | committed inner rest inside induction =>
      intro backend after invariant isOpen keeps runs
      rcases subtransaction_cases invariant keeps runs inside with
        ⟨opened, closing, ended, begins, continues, _, commits, endedInvariant, keepsRest,
          runsRest⟩
      have same := Backend.commit_continues isOpen begins continues commits
      exact same.trans (induction ended after endedInvariant (same.isOpen isOpen) keepsRest
        runsRest)
  | aborted inner rest inside induction =>
      intro backend after invariant isOpen keeps runs
      rcases subtransaction_cases invariant keeps runs inside with
        ⟨opened, closing, ended, begins, continues, closingInvariant, aborts, endedInvariant,
          keepsRest, runsRest⟩
      have restored := Backend.abort_eq_some invariant begins continues closingInvariant aborts
      have sameNumber : opened.transaction = backend.transaction := by
        simp [(Backend.begin_eq_some begins).2, isOpen]
      have same : ended = backend := by rw [restored, sameNumber]
      rw [same] at endedInvariant keepsRest runsRest
      exact induction backend after endedInvariant isOpen keepsRest runsRest

/-- In every run that loses no callback, a transaction or subtransaction that is aborted
leaves the backend as it was: the table, the cache, the levels with their callbacks, all but
the number of the transaction. -/
theorem abort_restores {before inner : List BackendEvent} {ended : Backend Message}
    (nested : Nested inner)
    (keeps : KeepsCallbacks library table (backendMachine library table).initial
      (before ++ .begin :: (inner ++ [.abort])))
    (runs : (backendMachine library table).run (backendMachine library table).initial before =
      some backend)
    (runsOn : (backendMachine library table).run backend (.begin :: (inner ++ [.abort])) =
      some ended) :
    ended = { backend with transaction := ended.transaction } ∧
      (backend.levels ≠ [] → ended = backend) := by
  rcases keeps.append runs with ⟨keepsBefore, keepsOn⟩
  have invariant := Backend.Invariant.initial.run keepsBefore runs
  rcases subtransaction_cases invariant keepsOn runsOn nested.continues with
    ⟨opened, closing, after, begins, continues, closingInvariant, aborts, _, _, isEnd⟩
  cases isEnd
  have restored := Backend.abort_eq_some invariant begins continues closingInvariant aborts
  constructor
  · rw [restored]
  · intro isOpen
    rw [restored, (Backend.begin_eq_some begins).2]
    simp [isOpen]

/-- The descriptors that an aborted subtransaction has read are dropped. -/
theorem abort_restores_filledCache :
    let before : List BackendEvent := [.begin]
    let inner : List BackendEvent := [.update [], .begin, .call none, .commit, .call none]
    let machine := backendMachine testLibrary [(literal "default", [])]
    ∃ backend ended, machine.run machine.initial before = some backend ∧
      machine.run backend (.begin :: (inner ++ [.abort])) = some ended ∧
      ended = { backend with transaction := ended.transaction } ∧
      (backend.levels ≠ [] → ended = backend) := by
  have nested : Nested [.update [], .begin, .call none, .commit, .call none] :=
    .update [] (.committed (.call none .nil) (.call none .nil))
  have keeps : KeepsCallbacks testLibrary [(literal "default", [])]
      (backendMachine testLibrary [(literal "default", [])]).initial
      ([.begin] ++ .begin ::
        ([.update [], .begin, .call none, .commit, .call none] ++ [.abort])) :=
    keepsCallbacks_of_not_mem (by simp)
  exact ⟨_, _, rfl, rfl, abort_restores nested keeps rfl rfl⟩

end

/-! ## Calls of one transaction -/

inductive Undisturbed : List BackendEvent → Prop
  | nil : Undisturbed []
  | update (table : FileDescriptorSets) {events : List BackendEvent}
      (rest : Undisturbed events) : Undisturbed (.update table :: events)
  | call (failure : Option FailurePoint) {events : List BackendEvent}
      (rest : Undisturbed events) : Undisturbed (.call failure :: events)
  | begin {events : List BackendEvent} (rest : Undisturbed events) :
      Undisturbed (.begin :: events)
  | commit {events : List BackendEvent} (rest : Undisturbed events) :
      Undisturbed (.commit :: events)
  | aborted {inner events : List BackendEvent} (inside : Nested inner)
      (rest : Undisturbed events) : Undisturbed (.begin :: (inner ++ .abort :: events))

namespace Backend

variable {library : DescriptorLibrary File Message} {backend after : Backend Message}

@[simp] theorem release_transaction (backend : Backend Message) (level : TransactionLevel) :
    (backend.release level).transaction = backend.transaction := by
  unfold release
  split <;> rfl

@[simp] theorem getOrCreateCached_transaction (library : DescriptorLibrary File Message)
    (backend : Backend Message) (failure : Option FailurePoint) :
    (backend.getOrCreateCached library failure).1.transaction = backend.transaction := by
  rcases getOrCreateCached_cases library backend failure with
    ⟨_, _, call⟩ | ⟨_, _, call⟩ | ⟨_, _, _, call⟩ | ⟨_, _, call⟩ <;>
      simp [call, registerCallback]

theorem next_transaction {event : BackendEvent} (next : backend.next library event = some after) :
    backend.transaction ≤ after.transaction ∧
      (backend.levels = [] → after.levels ≠ [] → backend.transaction < after.transaction) := by
  cases event with
  | begin =>
      rw [(begin_eq_some next).2]
      constructor
      · dsimp only
        split <;> omega
      · intro closed _
        simp [closed]
  | commit =>
      simp only [Backend.next, Backend.commit] at next
      split at next
      · cases next
      · split at next <;> cases next
        · simp_all
        · simp_all
  | abort =>
      simp only [Backend.next, Backend.abort] at next
      split at next <;> cases next
      simp_all
  | update table =>
      simp only [Backend.next] at next
      split at next <;> cases next
      exact ⟨Nat.le_refl _, fun closed isOpen => absurd closed isOpen⟩
  | call failure =>
      have number := getOrCreateCached_transaction library backend failure
      simp only [Backend.next, Backend.call] at next
      split at next
      · cases next
      · rename_i taken
        have isOpen : backend.levels ≠ [] := fun closed => taken (.inr (by rw [closed]; rfl))
        refine ⟨?_, fun closed => absurd closed isOpen⟩
        split at next <;> rename_i isCall <;> cases next <;> rw [isCall] at number
        · exact Nat.le_of_eq number.symm
        · exact Nat.le_of_eq number.symm

structure Past (number : Nat) (backend : Backend Message) : Prop where
  reached : number ≤ backend.transaction
  closed : backend.levels ≠ [] → number < backend.transaction

theorem Past.next {number : Nat} (past : Past number backend) {event : BackendEvent}
    (next : backend.next library event = some after) : Past number after := by
  rcases next_transaction next with ⟨upwards, reopens⟩
  constructor
  · exact past.reached.trans upwards
  · intro isOpen
    by_cases closed : backend.levels = []
    · exact Nat.lt_of_le_of_lt past.reached (reopens closed isOpen)
    · exact Nat.lt_of_lt_of_le (past.closed closed) upwards

theorem Past.run {number : Nat} {table : FileDescriptorSets} {events : List BackendEvent}
    (past : Past number backend)
    (runs : (backendMachine library table).run backend events = some after) :
    Past number after := by
  induction events generalizing backend with
  | nil =>
      cases runs
      exact past
  | cons event events induction =>
      rcases Machine.run_cons_eq_some.mp runs with ⟨middle, next, rest⟩
      have steps : backend.next library event = some middle := next
      exact induction (past.next steps) rest

end Backend

structure Serving (cached : Cached Message) (number : Nat) (backend : Backend Message) :
    Prop where
  cached : backend.cached = some cached
  isOpen : backend.levels ≠ []
  transaction : backend.transaction = number

section

variable {library : DescriptorLibrary File Message} {table : FileDescriptorSets}
variable {backend after : Backend Message} {cached : Cached Message} {number : Nat}

theorem Serving.continues (serving : Serving cached number backend)
    (continues : Continues backend after) : Serving cached number after where
  cached := continues.cached cached serving.cached
  isOpen := continues.isOpen serving.isOpen
  transaction := continues.transaction.trans serving.transaction

theorem Serving.begin (serving : Serving cached number backend)
    (begins : backend.begin = some after) : Serving cached number after := by
  rw [(Backend.begin_eq_some begins).2]
  have stillOpen : backend.levels.isEmpty = false := by
    simpa using serving.isOpen
  constructor
  · exact serving.cached
  · exact List.cons_ne_nil _ _
  · simp only [stillOpen]
    exact serving.transaction

theorem Serving.commit (serving : Serving cached number backend)
    (commits : backend.commit = some after) :
    Serving cached number after ∨ Backend.Past number after := by
  unfold Backend.commit at commits
  split at commits
  · cases commits
  · split at commits
    · cases commits
    · cases commits
      apply Or.inr
      have closed : ∀ level : TransactionLevel,
          ({ backend with levels := [] }.release level).levels = [] := by
        intro level
        unfold Backend.release
        split <;> rfl
      constructor
      · simp [serving.transaction]
      · exact fun isOpen => absurd (closed _) isOpen
    · cases commits
      exact .inl ⟨serving.cached, List.cons_ne_nil _ _, serving.transaction⟩

theorem Serving.run {events : List BackendEvent} (undisturbed : Undisturbed events)
    (serving : Serving cached number backend) (invariant : backend.Invariant)
    (keeps : KeepsCallbacks library table backend events)
    (runs : (backendMachine library table).run backend events = some after) :
    Serving cached number after ∨ Backend.Past number after := by
  induction undisturbed generalizing backend with
  | nil =>
      cases runs
      exact .inl serving
  | update newTable rest induction =>
      rcases Machine.run_cons_eq_some.mp runs with ⟨middle, next, runsRest⟩
      have updates : backend.next library (.update newTable) = some middle := next
      rcases keeps.cons updates with ⟨keepsOne, keepsRest⟩
      exact induction (serving.continues (Backend.update_continues updates))
        (invariant.next updates keepsOne) keepsRest runsRest
  | call failure rest induction =>
      rcases Machine.run_cons_eq_some.mp runs with ⟨middle, next, runsRest⟩
      have calls : backend.next library (.call failure) = some middle := next
      rcases keeps.cons calls with ⟨keepsOne, keepsRest⟩
      exact induction (serving.continues (Backend.call_continues keepsOne calls))
        (invariant.next calls keepsOne) keepsRest runsRest
  | begin rest induction =>
      rcases Machine.run_cons_eq_some.mp runs with ⟨middle, next, runsRest⟩
      have begins : backend.next library .begin = some middle := next
      rcases keeps.cons begins with ⟨keepsOne, keepsRest⟩
      exact induction (serving.begin begins) (invariant.next begins keepsOne) keepsRest runsRest
  | commit rest induction =>
      rcases Machine.run_cons_eq_some.mp runs with ⟨middle, next, runsRest⟩
      have commits : backend.next library .commit = some middle := next
      rcases keeps.cons commits with ⟨keepsOne, keepsRest⟩
      rcases serving.commit commits with still | past
      · exact induction still (invariant.next commits keepsOne) keepsRest runsRest
      · exact .inr (past.run runsRest)
  | aborted inside rest induction =>
      rcases subtransaction_cases invariant keeps runs inside.continues with
        ⟨opened, closing, ended, begins, continues, closingInvariant, aborts, endedInvariant,
          keepsRest, runsRest⟩
      have restored := Backend.abort_eq_some invariant begins continues closingInvariant aborts
      have sameNumber : opened.transaction = backend.transaction := by
        simp [(Backend.begin_eq_some begins).2, serving.isOpen]
      have same : ended = backend := by rw [restored, sameNumber]
      rw [same] at endedInvariant keepsRest runsRest
      exact induction serving endedInvariant keepsRest runsRest

/-- In every run that loses no callback, two calls of one transaction that return are served
the same descriptors, whatever happens to the table between them, unless the first call was
in a subtransaction that is aborted. -/
theorem calls_agree (first second : Option FailurePoint) {before between : List BackendEvent}
    {called later afterFirst afterSecond : Backend Message} {read again : Cached Message}
    (undisturbed : Undisturbed between)
    (keeps : KeepsCallbacks library table (backendMachine library table).initial
      (before ++ .call first :: between))
    (runs : (backendMachine library table).run (backendMachine library table).initial before =
      some backend)
    (calls : (backendMachine library table).next backend (.call first) = some called)
    (returns : backend.getOrCreateCached library first = (afterFirst, .ok read))
    (runsOn : (backendMachine library table).run called between = some later)
    (isOpen : later.levels ≠ []) (sameTransaction : later.transaction = backend.transaction)
    (returnsAgain : later.getOrCreateCached library second = (afterSecond, .ok again)) :
    again = read := by
  rcases keeps.append runs with ⟨keepsBefore, keepsOn⟩
  have invariant := Backend.Invariant.initial.run keepsBefore runs
  have callsNext : backend.next library (.call first) = some called := calls
  rcases keepsOn.cons callsNext with ⟨keepsOne, keepsRest⟩
  have continues := Backend.call_continues keepsOne callsNext
  have calledInvariant := invariant.next callsNext keepsOne
  simp only [Backend.next, Backend.call, returns] at callsNext
  split at callsNext
  · cases callsNext
  · rename_i taken
    cases callsNext
    have openBefore : backend.levels ≠ [] := fun closed => taken (.inr (by rw [closed]; rfl))
    have isCached : called.cached = some read := by
      rcases Backend.getOrCreateCached_cases library backend first with
        ⟨cached, full, call⟩ | ⟨error, _, call⟩ | ⟨cached, _, _, call⟩ | ⟨cached, _, call⟩ <;>
          (rw [returns] at call; cases call)
      · exact full
      · rfl
    have serving : Serving read backend.transaction called :=
      ⟨isCached, continues.isOpen openBefore, continues.transaction⟩
    rcases serving.run undisturbed calledInvariant keepsRest runsOn with still | past
    · simp only [Backend.getOrCreateCached, still.cached] at returnsAgain
      cases returnsAgain
      rfl
    · have closed := past.closed isOpen
      omega

/-- The table is emptied between the calls, and a subtransaction is aborted. -/
theorem calls_agree_emptiedTable :
    let machine := backendMachine testLibrary [(literal "default", [])]
    ∃ backend called later afterFirst afterSecond read again,
      machine.run machine.initial [.begin] = some backend ∧
      machine.next backend (.call none) = some called ∧
      backend.getOrCreateCached testLibrary none = (afterFirst, .ok read) ∧
      machine.run called [.update [], .begin, .call none, .abort, .begin] = some later ∧
      later.getOrCreateCached testLibrary none = (afterSecond, .ok again) ∧ again = read := by
  have undisturbed : Undisturbed [.update [], .begin, .call none, .abort, .begin] :=
    .update [] (.aborted (.call none .nil) (.begin .nil))
  have keeps : KeepsCallbacks testLibrary [(literal "default", [])]
      (backendMachine testLibrary [(literal "default", [])]).initial
      ([.begin] ++ .call none :: [.update [], .begin, .call none, .abort, .begin]) :=
    keepsCallbacks_of_not_mem (by simp)
  exact ⟨_, _, _, _, _, _, _, rfl, rfl, rfl, rfl, rfl,
    calls_agree none none undisturbed keeps rfl rfl rfl rfl (List.cons_ne_nil _ _) rfl rfl⟩

end

end PostgresProtobuf
