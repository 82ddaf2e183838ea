import PostgresProtobuf.PathTexts
import PostgresProtobuf.TestSchema

/-! # The prefixes of a query

How the colons of a query text divide it into descriptor set, message and path. -/

namespace PostgresProtobuf

open Foundation

variable {Message : Type}

def defaultSet : StdString := literal "default"

def unprefixed (name path : StdString) : StdString := name ++ ':'.toUInt8 :: path

def prefixed (set name path : StdString) : StdString := set ++ ':'.toUInt8 :: unprefixed name path

/-! ## Resolving -/

theorem find_drop (char : UInt8) (before rest : StdString) :
    find char (before ++ rest) before.length =
      (find char rest 0).map (· + before.length) := by
  simp [find]

theorem find_cons_self (char : UInt8) (rest : StdString) : find char (char :: rest) 0 = some 0 := by
  simp [find, List.findIdx?_cons]

theorem find_of_not_mem {char : UInt8} {text : StdString} (absent : char ∉ text) :
    find char text 0 = none := by
  have found := find_append absent []
  rw [List.append_nil] at found
  rw [found]
  rfl

theorem find_unprefixed {name : StdString} (noColon : ':'.toUInt8 ∉ name)
    (path : StdString) : find ':'.toUInt8 (unprefixed name path) 0 = some name.length := by
  rw [unprefixed, find_append noColon, find_cons_self]
  simp

theorem unprefixed_injective {name other path more : StdString}
    (noColon : ':'.toUInt8 ∉ name) (noColonInOther : ':'.toUInt8 ∉ other)
    (equal : unprefixed name path = unprefixed other more) : name = other ∧ path = more := by
  have found := find_unprefixed noColon path
  rw [equal, find_unprefixed noColonInOther, Option.some.injEq] at found
  rcases List.append_inj equal found.symm with ⟨sameName, rest⟩
  exact ⟨sameName, List.tail_eq_of_cons_eq rest⟩

def resolveIn (descDb : DescDb Message) (set name path : StdString) :
    Except Exception (DescSet Message × Message × StdString) :=
  match descDb.descSets set with
  | none => .error (.badQuery (literal "descriptor set not found: " ++ cString set))
  | some descSet =>
      match descSet.pool.findMessageTypeByName name with
      | some desc => .ok (descSet, desc, path)
      | none =>
          .error (.badQuery (literal
            "unknown protobuf (did you remember to include the package name?)"))

section

variable (descDb : DescDb Message) {set name path : StdString}

theorem getDesc_eq (descSet : DescSet Message) (before path : StdString)
    (noColon : ':'.toUInt8 ∉ name) :
    getDesc descSet (before ++ unprefixed name path) before.length =
      match descSet.pool.findMessageTypeByName name with
      | some desc => .ok (desc, before.length + name.length + 1)
      | none =>
          .error (.badQuery (literal
            "unknown protobuf (did you remember to include the package name?)")) := by
  have found : find ':'.toUInt8 (before ++ unprefixed name path) before.length =
      some (name.length + before.length) := by
    rw [find_drop, find_unprefixed noColon]
    rfl
  have isName : ((before ++ unprefixed name path).drop before.length).take
      (name.length + before.length - before.length) = name := by
    rw [List.drop_left, Nat.add_sub_cancel, unprefixed, List.take_left]
  have ends : name.length + before.length + 1 = before.length + name.length + 1 := by omega
  cases isDesc : descSet.pool.findMessageTypeByName name <;>
    simp only [getDesc, found, isName, isDesc, ends]

theorem resolveQuery_unprefixed (noColon : ':'.toUInt8 ∉ name) (noMore : ':'.toUInt8 ∉ path) :
    resolveQuery descDb (unprefixed name path) = resolveIn descDb defaultSet name path := by
  have first := find_unprefixed noColon path
  have second : find ':'.toUInt8 (unprefixed name path) (name.length + 1) = none := by
    have split : unprefixed name path = (name ++ [':'.toUInt8]) ++ path := by simp [unprefixed]
    have length : name.length + 1 = (name ++ [':'.toUInt8]).length := by simp
    rw [split, length, find_drop]
    rw [find_of_not_mem noMore]
    rfl
  unfold resolveQuery resolveIn getDescSet
  have isDefault : literal "default" = defaultSet := rfl
  simp only [first, second, Option.isSome_none, Bool.false_eq_true, if_false, isDefault]
  cases descDb.descSets defaultSet with
  | none => rfl
  | some descSet =>
      have resolved := getDesc_eq descSet [] path noColon
      simp only [List.nil_append, List.length_nil, Nat.zero_add] at resolved
      simp only [bind, Except.bind, resolved]
      cases descSet.pool.findMessageTypeByName name with
      | none => rfl
      | some desc => simp [unprefixed, pure, Except.pure]

theorem resolveQuery_prefixed (noColon : ':'.toUInt8 ∉ set) (noColonInName : ':'.toUInt8 ∉ name) :
    resolveQuery descDb (prefixed set name path) = resolveIn descDb set name path := by
  have first : find ':'.toUInt8 (prefixed set name path) 0 = some set.length :=
    find_unprefixed noColon _
  have split : prefixed set name path = (set ++ [':'.toUInt8]) ++ unprefixed name path := by
    simp [prefixed]
  have length : set.length + 1 = (set ++ [':'.toUInt8]).length := by simp
  have second : (find ':'.toUInt8 (prefixed set name path) (set.length + 1)).isSome = true := by
    rw [split, length, find_drop, find_unprefixed noColonInName]
    rfl
  have isSet : (prefixed set name path).take set.length = set := by
    rw [prefixed, List.take_left]
  unfold resolveQuery resolveIn getDescSet
  simp only [first, second, if_true, isSet]
  cases descDb.descSets set with
  | none => rfl
  | some descSet =>
      have resolved := getDesc_eq descSet (set ++ [':'.toUInt8]) path noColonInName
      rw [← split, ← length] at resolved
      simp only [bind, Except.bind, resolved]
      cases descSet.pool.findMessageTypeByName name with
      | none => rfl
      | some desc =>
          have rest : (prefixed set name path).drop (set.length + 1 + name.length + 1) =
              path := by
            rw [split, length, Nat.add_assoc, ← List.drop_drop, List.drop_left, unprefixed,
              ← List.drop_drop, List.drop_left]
            rfl
          simp only [rest, pure, Except.pure]

end

/-! ## The default descriptor set -/

/-- Both texts are rejected, or both compile to the same query. -/
def SameOutcome (left right : Except Exception QueryImpl) : Prop :=
  (∃ exception other, left = .error exception ∧ right = .error other) ∨
    ∃ query, left = .ok query ∧ right = .ok query

def Refuses (descDb : DescDb Message) (uninitialised : Uninitialised)
    (set name path : StdString) : Prop :=
  ∀ descSet desc, descDb.descSets set = some descSet →
    descSet.pool.findMessageTypeByName name = some desc →
      ∃ exception, compileFrom descSet uninitialised desc path none = .error exception

def compileIn (descDb : DescDb Message) (uninitialised : Uninitialised)
    (set name path : StdString) (limit : Option Nat) : Except Exception QueryImpl := do
  let (descSet, desc, path) ← resolveIn descDb set name path
  compileFrom descSet uninitialised desc path limit

section

variable {descDb : DescDb Message} {uninitialised : Uninitialised}
variable {set name path : StdString}

theorem compileQuery_unprefixed (noColon : ':'.toUInt8 ∉ name) (noMore : ':'.toUInt8 ∉ path)
    (limit : Option Nat) :
    compileQuery descDb uninitialised (unprefixed name path) limit =
      compileIn descDb uninitialised defaultSet name path limit := by
  rw [compileQuery, resolveQuery_unprefixed descDb noColon noMore]
  rfl

theorem compileQuery_prefixed (noColon : ':'.toUInt8 ∉ set)
    (noColonInName : ':'.toUInt8 ∉ name) (limit : Option Nat) :
    compileQuery descDb uninitialised (prefixed set name path) limit =
      compileIn descDb uninitialised set name path limit := by
  rw [compileQuery, resolveQuery_prefixed descDb noColon noColonInName]
  rfl

theorem compileIn_eq_ok_iff {limit : Option Nat} {query : QueryImpl} :
    compileIn descDb uninitialised set name path limit = .ok query ↔
      ∃ descSet desc, descDb.descSets set = some descSet ∧
        descSet.pool.findMessageTypeByName name = some desc ∧
        compileFrom descSet uninitialised desc path limit = .ok query := by
  unfold compileIn resolveIn
  cases found : descDb.descSets set with
  | none => simp [bind, Except.bind]
  | some descSet =>
      cases isDesc : descSet.pool.findMessageTypeByName name with
      | none => simp [bind, Except.bind, isDesc]
      | some desc => simp [bind, Except.bind, isDesc]

theorem compileIn_isError_iff (limit : Option Nat) :
    (∃ exception, compileIn descDb uninitialised set name path limit = .error exception) ↔
      Refuses descDb uninitialised set name path := by
  constructor
  · intro isError descSet desc found isDesc
    rcases isError with ⟨exception, isError⟩
    cases compiled : compileFrom descSet uninitialised desc path none with
    | error exception => exact ⟨exception, rfl⟩
    | ok query =>
        have accepted : compileFrom descSet uninitialised desc path limit = .ok query :=
          compileFrom_eq_ok_iff.mpr (compileFrom_eq_ok_iff.mp compiled)
        rw [compileIn_eq_ok_iff.mpr ⟨descSet, desc, found, isDesc, accepted⟩] at isError
        cases isError
  · intro refuses
    cases compiled : compileIn descDb uninitialised set name path limit with
    | error exception => exact ⟨exception, rfl⟩
    | ok query =>
        rcases compileIn_eq_ok_iff.mp compiled with ⟨descSet, desc, found, isDesc, accepted⟩
        rcases refuses descSet desc found isDesc with ⟨exception, rejected⟩
        rw [compileFrom_eq_ok_iff.mpr (compileFrom_eq_ok_iff.mp accepted)] at rejected
        cases rejected

/-- Two readings of a text with a colon in its path never give the same query. -/
theorem compileIn_ne_of_colon {otherSet otherName front : StdString} {limit : Option Nat}
    {query other : QueryImpl}
    (compiles : compileIn descDb uninitialised set name path limit = .ok query)
    (longer : compileIn descDb uninitialised otherSet otherName (unprefixed front path) limit =
      .ok other) : query.visitors ≠ other.visitors := by
  rcases compileIn_eq_ok_iff.mp compiles with ⟨_, _, _, _, accepted⟩
  rcases compileIn_eq_ok_iff.mp longer with ⟨_, _, _, _, otherAccepted⟩
  rcases compileFrom_eq_ok_iff.mp accepted with ⟨_, _, _, chain, rfl⟩
  rcases compileFrom_eq_ok_iff.mp otherAccepted with ⟨_, _, _, otherChain, rfl⟩
  exact chainObjects_ne_of_colon chain otherChain

/-- The prefix `default:` changes nothing exactly when the path has no colon, or when it
has one and both readings of the text are rejected. -/
theorem defaultPrefix_iff (descDb : DescDb Message) (uninitialised : Uninitialised)
    {name : StdString} (noColon : ':'.toUInt8 ∉ name) (path : StdString)
    (limit : Option Nat) :
    SameOutcome (compileQuery descDb uninitialised (unprefixed name path) limit)
        (compileQuery descDb uninitialised (prefixed defaultSet name path) limit) ↔
      ∀ front rest, path = unprefixed front rest → ':'.toUInt8 ∉ front →
        Refuses descDb uninitialised name front rest ∧
          Refuses descDb uninitialised defaultSet name path := by
  have noColonInDefault : ':'.toUInt8 ∉ defaultSet := by decide
  rw [compileQuery_prefixed noColonInDefault noColon]
  by_cases more : ':'.toUInt8 ∈ path
  · rcases List.eq_append_cons_of_mem more with ⟨front, rest, split, noColonInFront⟩
    have isPrefixed : unprefixed name path = prefixed name front rest := by
      rw [split, prefixed, unprefixed, unprefixed]
    rw [isPrefixed, compileQuery_prefixed noColon noColonInFront]
    constructor
    · intro same other more otherSplit noColonInOther
      rcases unprefixed_injective noColonInOther noColonInFront
        (otherSplit.symm.trans split) with ⟨rfl, rfl⟩
      rcases same with ⟨exception, _, isError, isOther⟩ | ⟨query, accepted, otherAccepted⟩
      · exact ⟨(compileIn_isError_iff limit).mp ⟨_, isError⟩,
          (compileIn_isError_iff limit).mp ⟨_, isOther⟩⟩
      · rw [otherSplit] at otherAccepted
        exact absurd rfl (compileIn_ne_of_colon accepted otherAccepted)
    · intro refuses
      rcases refuses front rest split noColonInFront with ⟨first, second⟩
      rcases (compileIn_isError_iff limit).mpr first with ⟨exception, isError⟩
      rcases (compileIn_isError_iff limit).mpr second with ⟨other, isOther⟩
      exact .inl ⟨exception, other, isError, isOther⟩
  · rw [compileQuery_unprefixed noColon more]
    refine iff_of_true ?_ ?_
    · cases compileIn descDb uninitialised defaultSet name path limit with
      | error exception => exact .inl ⟨exception, exception, rfl, rfl⟩
      | ok query => exact .inr ⟨query, rfl, rfl⟩
    · intro front rest split
      exact absurd (split ▸ List.mem_append_right _ List.mem_cons_self) more

/-- `map_str2str[a]` after the message name, with and without the prefix. -/
theorem defaultPrefix_iff_mapKey :
    SameOutcome
        (compileQuery testDb zeroMemory
          (unprefixed (literal "pgpb.test.ExampleMessage") (literal "map_str2str[a]")) none)
        (compileQuery testDb zeroMemory
          (prefixed defaultSet (literal "pgpb.test.ExampleMessage")
            (literal "map_str2str[a]")) none) ↔
      ∀ front rest, literal "map_str2str[a]" = unprefixed front rest →
        ':'.toUInt8 ∉ front →
          Refuses testDb zeroMemory (literal "pgpb.test.ExampleMessage") front rest ∧
            Refuses testDb zeroMemory defaultSet (literal "pgpb.test.ExampleMessage")
              (literal "map_str2str[a]") :=
  defaultPrefix_iff testDb zeroMemory (by decide) (literal "map_str2str[a]") none

/-- A colon in a map key turns the message name into the name of a descriptor set. -/
theorem mapKey_colon :
    ¬ SameOutcome
        (compileQuery testDb zeroMemory
          (literal "pgpb.test.ExampleMessage:map_str2str[a:b]") none)
        (compileQuery testDb zeroMemory
          (literal "default:pgpb.test.ExampleMessage:map_str2str[a:b]") none) := by
  have rejected : compileQuery testDb zeroMemory
      (literal "pgpb.test.ExampleMessage:map_str2str[a:b]") none =
      .error (.badQuery (literal "descriptor set not found: pgpb.test.ExampleMessage")) := rfl
  have accepted : (compileQuery testDb zeroMemory
      (literal "default:pgpb.test.ExampleMessage:map_str2str[a:b]") none).isOk = true := by
    decide +kernel
  intro same
  rcases same with ⟨_, other, _, isOther⟩ | ⟨query, isQuery, _⟩
  · rw [isOther] at accepted
    cases accepted
  · rw [rejected] at isQuery
    cases isQuery

end

end PostgresProtobuf
