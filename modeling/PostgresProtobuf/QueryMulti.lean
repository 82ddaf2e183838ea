import PostgresProtobuf.Foundation.Component
import PostgresProtobuf.RowSources
import PostgresProtobuf.SqlFunctions

/-! # Sets of rows

`protobuf_query_multi` keeps its rows and an index between the calls from one place, and
places are called in any order. -/

namespace PostgresProtobuf

open Foundation

variable {Message : Type}

structure MultiQueryState where
  rows : List StdString
  index : Nat

/-- What `SRF_FIRSTCALL_INIT` allocates; `user_fctx` starts as a null pointer. -/
structure FuncCallContext where
  userFctx : Option MultiQueryState

inductive Fetched
  | next (row : StdString)
  | done
  deriving DecidableEq

/-- `protobuf_query_multi` after the block for the first call. `SRF_RETURN_DONE` clears
`fn_extra`. -/
def fetch (funcctx : FuncCallContext) : Except SqlError Fetched × Option FuncCallContext :=
  match funcctx.userFctx with
  | none => (.error .aborted, some funcctx)
  | some state =>
      if state.index < state.rows.length then
        let i := toInt state.index
        let state := { state with index := (state.index + 1) % 2 ^ 64 }
        match state.rows[(i % 2 ^ 64).toNat]? with
        | some row => (.ok (.next row), some ⟨some state⟩)
        | none => (.error .aborted, some ⟨some state⟩)
      else
        (.ok .done, none)

namespace Session

variable (Stream : Type) [CodedInputStream Stream] (session : Session Message)

/-- One call from a place with the given `fn_extra`, and what it leaves there. -/
def protobufQueryMulti (fnExtra : Option FuncCallContext) (text : StdString)
    (protoData : Bytea) : Except SqlError Fetched × Option FuncCallContext :=
  match fnExtra with
  | some funcctx => fetch funcctx
  | none =>
      match compileQuery session.descDb session.uninitialised text none with
      | .error exception => (.error (catchException exception), some ⟨none⟩)
      | .ok query =>
          let state : MultiQueryState := ⟨[], 0⟩
          match query.run Stream session.utils session.localBits protoData with
          | .error exception => (.error (catchException exception), some ⟨some state⟩)
          | .ok rows => fetch ⟨some { state with rows := state.rows ++ rows }⟩

end Session

/-! ## Call sites -/

structure CallSite where
  fnExtra : Option FuncCallContext
  failed : Bool

inductive SiteInput (Message : Type)
  | call (session : Session Message) (text : StdString) (protoData : Bytea)
  /-- The statement gives up the set: `shutdown_MultiFuncCall`. -/
  | release

inductive SiteOutput
  | answer (result : Except SqlError Fetched)
  | released

/-- After an error Postgres gives up the statement, and calls no more. -/
def callSite (Message Stream : Type) [CodedInputStream Stream] :
    Component CallSite (SiteInput Message) SiteOutput where
  initial := ⟨none, false⟩
  respond site input :=
    match input with
    | .release => some (.released, ⟨none, false⟩)
    | .call session text protoData =>
        if site.failed then none else
          let (result, fnExtra) :=
            session.protobufQueryMulti Stream site.fnExtra text protoData
          some (.answer result, ⟨fnExtra, !result.isOk⟩)

/-! ## Sets -/

inductive ResultSet
  | unopened
  | rest (rows : List StdString)
  | failed

namespace ResultSet

def take : List StdString → SiteOutput × ResultSet
  | [] => (.answer (.ok .done), .unopened)
  | row :: rows => (.answer (.ok (.next row)), .rest rows)

end ResultSet

/-- The rows of `protobuf_query_array` one by one. Only the first call of a set looks at
its arguments. -/
def resultSet (Message Stream : Type) [CodedInputStream Stream] :
    Component ResultSet (SiteInput Message) SiteOutput where
  initial := .unopened
  respond
    | _, .release => some (.released, .unopened)
    | .failed, .call _ _ _ => none
    | .rest rows, .call _ _ _ => some (ResultSet.take rows)
    | .unopened, .call session text protoData =>
        some <|
          match session.protobufQueryArray Stream text protoData with
          | .ok rows => ResultSet.take rows
          | .error error => (.answer (.error error), .failed)

/-- The index stands before the rows that are left, and all of them fit an `int`. -/
inductive CallSite.Holds : CallSite → ResultSet → Prop
  | unopened : CallSite.Holds ⟨none, false⟩ .unopened
  | failed (fnExtra : Option FuncCallContext) : CallSite.Holds ⟨fnExtra, true⟩ .failed
  | rest {state : MultiQueryState} {rows : List StdString}
      (left : rows = state.rows.drop state.index) (fits : state.rows.length < 2 ^ 31) :
      CallSite.Holds ⟨some ⟨some state⟩, false⟩ (.rest rows)

def SiteInput.Zero : SiteInput Message → Prop
  | call session _ _ => session.uninitialised.ZeroBuffers
  | release => True

theorem fetch_holds {state : MultiQueryState} (fits : state.rows.length < 2 ^ 31) :
    ∃ result, (fetch ⟨some state⟩).1 = .ok result ∧
      (ResultSet.take (state.rows.drop state.index)).1 = .answer (.ok result) ∧
      CallSite.Holds ⟨(fetch ⟨some state⟩).2, false⟩
        (ResultSet.take (state.rows.drop state.index)).2 := by
  by_cases more : state.index < state.rows.length
  · have small : state.index < 2 ^ 31 := by omega
    have isIndex : (toInt state.index % 2 ^ 64).toNat = state.index := by
      rw [toInt_of_lt small]
      omega
    have isNext : (state.index + 1) % 2 ^ 64 = state.index + 1 := by omega
    have found := List.getElem?_eq_getElem more
    have fetched : fetch ⟨some state⟩ = (.ok (.next state.rows[state.index]),
        some ⟨some { state with index := state.index + 1 }⟩) := by
      simp only [fetch, if_pos more, isIndex, isNext, found]
    rw [fetched, List.drop_eq_getElem_cons more]
    exact ⟨_, rfl, rfl, .rest rfl fits⟩
  · have fetched : fetch ⟨some state⟩ = (.ok .done, none) := by
      simp only [fetch, if_neg more]
    rw [fetched, List.drop_eq_nil_of_le (Nat.not_lt.mp more)]
    exact ⟨_, rfl, rfl, .unopened⟩

def SiteInput.IsCall : SiteInput Message → Prop
  | call _ _ _ => True
  | release => False

def SiteOutput.row (row : StdString) : SiteOutput := .answer (.ok (.next row))

section

variable {Stream : Type} [CodedInputStream Stream]

theorem rest_drains {rows : List StdString} {calls : List (SiteInput Message)}
    (areCalls : ∀ input ∈ calls, input.IsCall) (enough : calls.length = rows.length + 1) :
    ((resultSet Message Stream).run (.rest rows) calls) =
      some (rows.map SiteOutput.row ++ [.answer (.ok .done)], .unopened) := by
  induction rows generalizing calls with
  | nil =>
      rcases List.length_eq_one_iff.mp enough with ⟨call, rfl⟩
      cases call with
      | release => exact (areCalls _ List.mem_cons_self).elim
      | call session text protoData => rfl
  | cons row rows induction =>
      cases calls with
      | nil => cases enough
      | cons call calls =>
          cases call with
          | release => exact (areCalls _ List.mem_cons_self).elim
          | call session text protoData =>
              have others := induction
                (fun input member => areCalls input (List.mem_cons_of_mem _ member))
                (Nat.succ.inj enough)
              exact Component.run_cons_eq_some.mpr ⟨_, _, _, rfl, others, rfl⟩

variable [LawfulCodedInputStream Stream]

theorem length_rows_lt {session : Session Message}
    (zero : session.uninitialised.ZeroBuffers) {text : StdString} {query : QueryImpl}
    (accepted : compileQuery session.descDb session.uninitialised text none = .ok query)
    {protoData : Bytea} {rows : List StdString}
    (returns : query.run Stream session.utils session.localBits protoData = .ok rows) :
    rows.length < 2 ^ 31 := by
  rcases compileQuery_eq_ok_iff.mp accepted with
    ⟨descSet, desc, path, parts, last, final, _, chain, rfl⟩
  have bound := chain.emitted_length_le Stream zero descSet.binaryToJsonString session.utils
    session.localBits protoData
  rw [QueryImpl.emitted_of_run returns] at bound
  have size := protoData.size_lt
  split at bound <;> omega

theorem firstCall_holds {session : Session Message}
    (zero : session.uninitialised.ZeroBuffers) (text : StdString) (protoData : Bytea) :
    let called := session.protobufQueryMulti Stream none text protoData
    ∃ next, (resultSet Message Stream).respond .unopened (.call session text protoData) =
        some (.answer called.1, next) ∧
      CallSite.Holds ⟨called.2, !called.1.isOk⟩ next := by
  intro called
  have isCalled : called = session.protobufQueryMulti Stream none text protoData := rfl
  simp only [resultSet, Session.protobufQueryArray, Session.rows]
  unfold Session.protobufQueryMulti at isCalled
  dsimp only at isCalled
  cases accepted : compileQuery session.descDb session.uninitialised text none with
  | error exception =>
      rw [accepted] at isCalled
      rw [isCalled]
      exact ⟨_, rfl, .failed _⟩
  | ok query =>
      rw [accepted] at isCalled
      dsimp only at isCalled
      simp only [bind, Except.bind]
      cases returns : query.run Stream session.utils session.localBits protoData with
      | error exception =>
          rw [returns] at isCalled
          rw [isCalled]
          exact ⟨_, rfl, .failed _⟩
      | ok rows =>
          rw [returns] at isCalled
          dsimp only [List.nil_append] at isCalled
          rw [isCalled]
          have fits : (MultiQueryState.mk rows 0).rows.length < 2 ^ 31 :=
            length_rows_lt zero accepted returns
          rcases fetch_holds fits with ⟨result, fetched, takes, holds⟩
          rw [List.drop_zero] at takes holds
          refine ⟨(ResultSet.take rows).2, ?_, ?_⟩
          · rw [fetched, ← takes]
            rfl
          · rw [fetched]
            exact holds

theorem callSite_simulates :
    (callSite Message Stream).Simulates (resultSet Message Stream) SiteInput.Zero
      CallSite.Holds := by
  intro site set input output after holds zero responds
  cases input with
  | release =>
      cases responds
      exact ⟨.unopened, by cases set <;> rfl, .unopened⟩
  | call session text protoData =>
      cases holds with
      | failed fnExtra => cases responds
      | unopened =>
          cases responds
          exact firstCall_holds zero text protoData
      | @rest state rows left fits =>
          cases responds
          subst left
          rcases fetch_holds fits with ⟨result, fetched, takes, holds⟩
          refine ⟨(ResultSet.take (state.rows.drop state.index)).2, ?_, ?_⟩
          · change some (ResultSet.take _) = some (.answer (fetch ⟨some state⟩).1, _)
            rw [fetched, ← takes]
          · change CallSite.Holds ⟨(fetch ⟨some state⟩).2, !(fetch ⟨some state⟩).1.isOk⟩ _
            rw [fetched]
            exact holds

/-- However the calls from any number of places are interleaved, every place is given sets
of rows as its own calls open them, and no call fails that `protobuf_query_array` does not
fail. -/
theorem queryMulti_refines {Site : Type} [DecidableEq Site]
    {inputs : List (Site × SiteInput Message)} {outputs : List (Site × SiteOutput)}
    {last : Site → CallSite}
    (runs : ((callSite Message Stream).sideBySide Site).run
      ((callSite Message Stream).sideBySide Site).initial inputs = some (outputs, last))
    (zero : ∀ input ∈ inputs, input.2.Zero) (site : Site) :
    ∃ set, (resultSet Message Stream).run (resultSet Message Stream).initial
        (Component.ofSite site inputs) =
      some (Component.ofSite site outputs, set) := by
  have alone := Component.run_sideBySide runs site
  have simulated := callSite_simulates.run CallSite.Holds.unopened
    (fun input member => zero (site, input) (Component.mem_ofSite member)) alone
  rcases simulated with ⟨set, refines, _⟩
  exact ⟨set, refines⟩

def twoPlaces : List (Bool × SiteInput TestMessage) :=
  let query := literal "pgpb.test.ExampleMessage:repeated_string[*]"
  let strings : Bytea := ⟨[0x1A, 1, 0x61, 0x1A, 1, 0x62], by decide⟩
  let cutOff : Bytea := ⟨[0x1A, 9], by decide⟩
  [(true, .call testSession query strings), (false, .call testSession query cutOff),
    (true, .call testSession query cutOff), (false, .release),
    (true, .call testSession [] strings), (false, .call testSession query strings)]

theorem twoPlaces_run :
    ∃ answers, ((callSite TestMessage ArrayStream).sideBySide Bool).run
      ((callSite TestMessage ArrayStream).sideBySide Bool).initial twoPlaces = some answers := by
  apply Option.isSome_iff_exists.mp
  decide +kernel

theorem twoPlaces_zero : ∀ input ∈ twoPlaces, input.2.Zero := by
  intro input member
  simp only [twoPlaces, List.mem_cons, List.not_mem_nil, or_false] at member
  rcases member with rfl | rfl | rfl | rfl | rfl | rfl <;>
    first | exact trivial | exact fun _ => ⟨rfl, rfl⟩

theorem queryMulti_refines_twoPlaces :
    ∃ answers, ((callSite TestMessage ArrayStream).sideBySide Bool).run
        ((callSite TestMessage ArrayStream).sideBySide Bool).initial twoPlaces = some answers ∧
      ∃ set, (resultSet TestMessage ArrayStream).run
          (resultSet TestMessage ArrayStream).initial (Component.ofSite false twoPlaces) =
        some (Component.ofSite false answers.1, set) := by
  rcases twoPlaces_run with ⟨answers, runs⟩
  exact ⟨answers, runs, queryMulti_refines runs twoPlaces_zero false⟩

omit [LawfulCodedInputStream Stream] in
theorem unopened_drains {session : Session Message} {text : StdString} {protoData : Bytea}
    {rows : List StdString} {calls : List (SiteInput Message)}
    (array : session.protobufQueryArray Stream text protoData = .ok rows)
    (areCalls : ∀ input ∈ calls, input.IsCall) (length : calls.length = rows.length) :
    (resultSet Message Stream).run .unopened (.call session text protoData :: calls) =
      some (rows.map SiteOutput.row ++ [.answer (.ok .done)], .unopened) := by
  have allCalls : ∀ input ∈ SiteInput.call session text protoData :: calls, input.IsCall := by
    intro input member
    rcases List.mem_cons.mp member with rfl | further
    · trivial
    · exact areCalls input further
  have drains : (resultSet Message Stream).run (.rest rows)
      (.call session text protoData :: calls) =
        some (rows.map SiteOutput.row ++ [.answer (.ok .done)], .unopened) :=
    rest_drains allCalls (congrArg Nat.succ length)
  have same : (resultSet Message Stream).respond .unopened (.call session text protoData) =
      (resultSet Message Stream).respond (.rest rows) (.call session text protoData) := by
    simp only [resultSet, array]
  rw [Component.run, same]
  exact drains

/-- The set that a call opens, taken up to its end by further calls, is the array of
`protobuf_query_array`, whatever the further calls are given and whatever other places do
in between. -/
theorem queryMulti_collects {Site : Type} [DecidableEq Site]
    {inputs : List (Site × SiteInput Message)} {outputs : List (Site × SiteOutput)}
    {last : Site → CallSite}
    (runs : ((callSite Message Stream).sideBySide Site).run
      ((callSite Message Stream).sideBySide Site).initial inputs = some (outputs, last))
    (zero : ∀ input ∈ inputs, input.2.Zero) {site : Site}
    {before calls later : List (SiteInput Message)} {session : Session Message}
    {text : StdString} {protoData : Bytea}
    (split : Component.ofSite site inputs =
      before ++ .call session text protoData :: (calls ++ later))
    {earlier : List SiteOutput}
    (isFirst : (callSite Message Stream).run (callSite Message Stream).initial before =
      some (earlier, ⟨none, false⟩))
    (areCalls : ∀ input ∈ calls, input.IsCall) {rows : List StdString}
    (array : session.protobufQueryArray Stream text protoData = .ok rows)
    (length : calls.length = rows.length) :
    ∃ others, Component.ofSite site outputs =
      earlier ++ rows.map SiteOutput.row ++ .answer (.ok .done) :: others := by
  have alone := Component.run_sideBySide runs site
  have zeroAtSite : ∀ input ∈ Component.ofSite site inputs, input.Zero :=
    fun input member => zero (site, input) (Component.mem_ofSite member)
  rcases callSite_simulates.run CallSite.Holds.unopened zeroAtSite alone with ⟨set, refines, _⟩
  rw [split] at refines zeroAtSite
  have simulated := callSite_simulates.run CallSite.Holds.unopened
    (fun input member => zeroAtSite input (List.mem_append_left _ member)) isFirst
  rcases simulated with ⟨opened, first, holds⟩
  rcases Component.run_append_eq_some.mp refines with
    ⟨front, middle, rest, runsBefore, runsRest, isWhole⟩
  cases runsBefore.symm.trans first
  cases holds
  have opens := unopened_drains array areCalls length
  rw [← List.cons_append] at runsRest
  rcases Component.run_append_eq_some.mp runsRest with
    ⟨drained, closed, others, runsSet, _, rfl⟩
  cases runsSet.symm.trans opens
  exact ⟨others, by rw [isWhole]; simp⟩

/-- The first place is given both strings of its first message. -/
theorem queryMulti_collects_twoPlaces :
    ∃ answers, ((callSite TestMessage ArrayStream).sideBySide Bool).run
        ((callSite TestMessage ArrayStream).sideBySide Bool).initial twoPlaces = some answers ∧
      ∃ others, Component.ofSite true answers.1 =
        [] ++ [literal "a", literal "b"].map SiteOutput.row ++ .answer (.ok .done) :: others := by
  rcases twoPlaces_run with ⟨answers, runs⟩
  let query := literal "pgpb.test.ExampleMessage:repeated_string[*]"
  let strings : Bytea := ⟨[0x1A, 1, 0x61, 0x1A, 1, 0x62], by decide⟩
  let calls : List (SiteInput TestMessage) :=
    [.call testSession query ⟨[0x1A, 9], by decide⟩, .call testSession [] strings]
  have split : Component.ofSite true twoPlaces =
      [] ++ .call testSession query strings :: (calls ++ []) := rfl
  have isFirst : (callSite TestMessage ArrayStream).run
      (callSite TestMessage ArrayStream).initial [] = some ([], ⟨none, false⟩) := rfl
  have areCalls : ∀ input ∈ calls, input.IsCall := by simp [calls, SiteInput.IsCall]
  have array : testSession.protobufQueryArray ArrayStream query strings =
      .ok [literal "a", literal "b"] := by
    decide +kernel
  exact ⟨answers, runs,
    queryMulti_collects runs twoPlaces_zero split isFirst areCalls array rfl⟩

end

end PostgresProtobuf
