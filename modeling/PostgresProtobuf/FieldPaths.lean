import PostgresProtobuf.CompiledChain

/-! # Paths to a field

Paths that consist of the name or number of a field and a selector. -/

namespace PostgresProtobuf

open Foundation

variable {Message : Type}

/-! ## Naming a field -/

def FieldDescriptor.NamedBy (field : FieldDescriptor Message) (name : StdString) : Prop :=
  name = field.name ∨
    name ≠ [] ∧ (∀ char ∈ name, IsDecimalDigit char = true) ∧
      (digitsValue name : Int) = field.number

def StartsSelector (text : StdString) : Prop :=
  text = [] ∨ ∃ rest, text = '['.toUInt8 :: rest ∨ text = '|'.toUInt8 :: rest

theorem startsSelector_bracketed (inner : StdString) : StartsSelector (bracketed inner) :=
  .inr ⟨_, .inl rfl⟩

section

variable {field : FieldDescriptor Message} {name selector : StdString}

theorem IsIdentifier.ne {char other : UInt8} {name : StdString} (identifier : IsIdentifier name)
    (member : char ∈ name)
    (isOther : other = '['.toUInt8 ∨ other = '|'.toUInt8 ∨ other = '.'.toUInt8) :
    char ≠ other := by
  have allowed := identifier.2 char member
  rintro rfl
  rcases isOther with rfl | rfl | rfl <;> exact absurd allowed (by decide)

theorem FieldDescriptor.NamedBy.ne (named : field.NamedBy name) (valid : field.Valid)
    {char other : UInt8} (member : char ∈ name)
    (isOther : other = '['.toUInt8 ∨ other = '|'.toUInt8 ∨ other = '.'.toUInt8) :
    char ≠ other := by
  rcases named with rfl | ⟨_, digits, _⟩
  · exact valid.name_identifier.ne member isOther
  · have isDigit := digits char member
    rintro rfl
    rcases isOther with rfl | rfl | rfl <;> exact absurd isDigit (by decide)

theorem FieldDescriptor.NamedBy.not_mem (named : field.NamedBy name) (valid : field.Valid)
    {other : UInt8}
    (isOther : other = '['.toUInt8 ∨ other = '|'.toUInt8 ∨ other = '.'.toUInt8) :
    other ∉ name :=
  fun member => named.ne valid member isOther rfl

theorem FieldDescriptor.NamedBy.nonempty (named : field.NamedBy name) (valid : field.Valid) :
    name ≠ [] := by
  rcases named with rfl | ⟨nonempty, _, _⟩
  · rcases valid.name_identifier.1 with ⟨first, rest, split, _⟩
    simp [split]
  · exact nonempty

theorem find_append {char : UInt8} (absent : char ∉ name) (rest : StdString) :
    find char (name ++ rest) 0 = (find char rest 0).map (· + name.length) := by
  have notFound : name.findIdx? (· == char) = none := by
    rw [List.findIdx?_eq_none_iff]
    intro other member
    simpa using fun equal : other = char => absent (equal ▸ member)
  simp [find, List.findIdx?_append, notFound]
  rfl

theorem fieldSelectorEnd_of_starts (noBracket : '['.toUInt8 ∉ name)
    (noPipe : '|'.toUInt8 ∉ name) (starts : StartsSelector selector) :
    fieldSelectorEnd (name ++ selector) = name.length := by
  have bracket := find_append noBracket selector
  have pipe := find_append noPipe selector
  unfold fieldSelectorEnd
  rw [bracket, pipe]
  rcases starts with rfl | ⟨rest, rfl | rfl⟩
  · simp [find]
  · have first : find '['.toUInt8 ('['.toUInt8 :: rest) 0 = some 0 := by
      simp [find, List.findIdx?_cons]
    rw [first]
    cases find '|'.toUInt8 ('['.toUInt8 :: rest) 0 <;> simp
  · have first : find '|'.toUInt8 ('|'.toUInt8 :: rest) 0 = some 0 := by
      simp [find, List.findIdx?_cons]
    rw [first]
    cases find '['.toUInt8 ('|'.toUInt8 :: rest) 0 <;> simp

theorem fieldSelectorEnd_append (named : field.NamedBy name) (valid : field.Valid)
    (starts : StartsSelector selector) :
    fieldSelectorEnd (name ++ selector) = name.length :=
  fieldSelectorEnd_of_starts (named.not_mem valid (.inl rfl))
    (named.not_mem valid (.inr (.inl rfl))) starts

theorem selectorText_append (named : field.NamedBy name) (valid : field.Valid)
    (starts : StartsSelector selector) : selectorText (name ++ selector) = selector := by
  rw [selectorText, fieldSelectorEnd_append named valid starts, List.drop_left]

theorem dot_not_mem_bracketed (named : field.NamedBy name) (valid : field.Valid)
    {inner : StdString} (noDot : '.'.toUInt8 ∉ inner) :
    '.'.toUInt8 ∉ name ++ bracketed inner := by
  have inName := named.not_mem valid (.inr (.inr rfl) : '.'.toUInt8 = _ ∨ _)
  simp only [bracketed, List.mem_append, List.mem_cons, List.not_mem_nil, or_false, not_or]
  exact ⟨inName, by decide, noDot, by decide⟩

theorem toInt_of_lt {number : Nat} (bound : number < 2 ^ 31) : toInt number = number := by
  rw [toInt, Int.bmod_eq_of_le (by omega) (by omega)]

theorem findField_append {pool : DescriptorPool Message} {desc : Message}
    (member : field ∈ pool.fields desc) (named : field.NamedBy name)
    (starts : StartsSelector selector) :
    findField pool desc (name ++ selector) = .ok field := by
  have valid := pool.field_valid desc field member
  have ends := fieldSelectorEnd_append named valid starts
  change ite (byNumber (name ++ selector) = true) _ _ = Except.ok field
  rcases named with rfl | ⟨nonempty, digits, isNumber⟩
  · have notNumber : byNumber (field.name ++ selector) = false := by
      rcases valid.name_identifier.1 with ⟨first, rest, split, notDigit⟩
      rw [split]
      simp only [byNumber, List.cons_append, IsDecimalDigit, Bool.and_eq_false_imp,
        decide_eq_true_eq, decide_eq_false_iff_not]
      exact fun above below => notDigit ⟨above, below⟩
    rw [if_neg (by simp [notNumber]), ends, List.take_left,
      DescriptorPool.findFieldByName_of_mem member]
  · have isDigits : byNumber (name ++ selector) = true := by
      cases name with
      | nil => exact absurd rfl nonempty
      | cons first rest => exact digits first List.mem_cons_self
    have stops : ∀ char ∈ selector.head?, IsDecimalDigit char = false := by
      rcases starts with rfl | ⟨rest, rfl | rfl⟩
      · simp
      · rintro _ ⟨rfl⟩
        rfl
      · rintro _ ⟨rfl⟩
        rfl
    have bound := valid.number_lt
    have read : strtol (name ++ selector) = (field.number, name.length) := by
      simp only [strtol, readInteger_digits nonempty digits stops, isNumber, Prod.mk.injEq,
        and_true]
      have positive := valid.number_pos
      omega
    have same : toInt field.number = field.number := by
      rw [← isNumber]
      exact toInt_of_lt (by omega)
    rw [if_pos isDigits, read, ends, if_neg (by simp), same,
      DescriptorPool.findFieldByNumber_of_mem member]

end

/-! ## Decimal texts -/

theorem toUInt8_digitChar {digit : Nat} (bound : digit < 10) :
    (Nat.digitChar digit).toUInt8.toNat = 48 + digit := by
  have all : ∀ digit < 10, (Nat.digitChar digit).toUInt8.toNat = 48 + digit := by decide
  exact all digit bound

theorem unsignedToString_of_lt {value : Nat} (small : value < 10) :
    unsignedToString value = [(Nat.digitChar value).toUInt8] := by
  rw [unsignedToString, Nat.toDigits_of_lt_base small]
  rfl

theorem unsignedToString_of_le {value : Nat} (large : 10 ≤ value) :
    unsignedToString value =
      unsignedToString (value / 10) ++ [(Nat.digitChar (value % 10)).toUInt8] := by
  rw [unsignedToString, Nat.toDigits_of_base_le (by decide) large, List.map_append]
  rfl

theorem unsignedToString_ne_nil (value : Nat) : unsignedToString value ≠ [] := by
  simp [unsignedToString, Nat.toDigits_ne_nil]

theorem unsignedToString_digits (value : Nat) :
    (∀ char ∈ unsignedToString value, IsDecimalDigit char = true) ∧
      digitsValue (unsignedToString value) = value := by
  have isDigit : ∀ digit < 10, IsDecimalDigit (Nat.digitChar digit).toUInt8 = true := by
    decide
  by_cases small : value < 10
  · rw [unsignedToString_of_lt small]
    refine ⟨by simpa using isDigit value small, ?_⟩
    have char := toUInt8_digitChar small
    simp [digitsValue, char]
  · rcases unsignedToString_digits (value / 10) with ⟨digits, denotes⟩
    rw [unsignedToString_of_le (Nat.le_of_not_lt small)]
    refine ⟨fun char member => ?_, ?_⟩
    · rcases List.mem_append.mp member with earlier | last
      · exact digits char earlier
      · rw [List.mem_singleton.mp last]
        exact isDigit _ (Nat.mod_lt _ (by decide))
    · rw [digitsValue_append_singleton, denotes,
        toUInt8_digitChar (Nat.mod_lt _ (by decide))]
      omega
termination_by value

theorem denotesInteger_unsignedToString (value : Nat) :
    DenotesInteger (unsignedToString value) value := by
  rcases unsignedToString_digits value with ⟨digits, denotes⟩
  have read := readInteger_digits (unsignedToString_ne_nil value) digits
    (by simp : ∀ char ∈ ([] : Bytes).head?, IsDecimalDigit char = false)
  rw [List.append_nil, denotes] at read
  exact read

theorem Foundation.DenotesInteger.ne_star {text : StdString} {number : Int}
    (denotes : DenotesInteger text number) : text ≠ star := by
  rintro rfl
  rcases denotes.mem (List.mem_singleton_self _) with isBlank | isMinus | isPlus | isDigit
  · exact absurd isBlank (by decide)
  · exact absurd isMinus (by decide)
  · exact absurd isPlus (by decide)
  · exact absurd isDigit (by decide)

theorem parseIndex_of_denotes {inner : StdString} {number : Int}
    (denotes : DenotesInteger inner number) :
    parseIndex inner =
      if -2 ^ 63 ≤ number ∧ number < 2 ^ 63 then .ok (some (toInt number))
      else .error (numericKeyOutOfRange inner) := by
  have notStar : inner ≠ literal "*" := denotes.ne_star
  rw [parseIndex, if_neg notStar, stoll_of_denotes denotes]
  by_cases range : -2 ^ 63 ≤ number ∧ number < 2 ^ 63
  · rw [if_pos range, if_pos range]
    exact if_neg fun differ => differ rfl
  · rw [if_neg range, if_neg range]
    rfl

/-! ## Paths of one part -/

theorem chainCompiles_single {uninitialised : Uninitialised} {pool : DescriptorPool Message}
    {desc : Message} {text : StdString} {part : ChainPart} {final : DescPtrs Message}
    {kind : EmitterKind} (nonempty : text ≠ []) (noDot : '.'.toUInt8 ∉ text)
    (compiles : PartCompiles uninitialised pool 1 desc text part final)
    (created : Emitter.create pool final none = .ok (.new kind none)) :
    ChainCompiles uninitialised pool desc text [part]
      ⟨false, kind, (Emitter.create_eq_ok created).2.1⟩ final := by
  refine ⟨.inr ⟨nonempty, ?_⟩, created⟩
  rw [List.splitOn_eq_singleton noDot]
  exact .last rfl nonempty compiles

theorem ChainCompiles.single {uninitialised : Uninitialised} {pool : DescriptorPool Message}
    {desc : Message} {text : StdString} {parts : List ChainPart} {last : ChainEnd}
    {final : DescPtrs Message}
    (chain : ChainCompiles uninitialised pool desc text parts last final) (nonempty : text ≠ [])
    (noDot : '.'.toUInt8 ∉ text) :
    ∃ part, parts = [part] ∧ last.trailingDot = false ∧
      PartCompiles uninitialised pool 1 desc text part final := by
  rcases chain.compiles with ⟨empty, _⟩ | ⟨_, compiles⟩
  · exact absurd empty nonempty
  · rw [List.splitOn_eq_singleton noDot] at compiles
    generalize texts : [text] = all at compiles
    generalize isDot : last.trailingDot = dot at compiles
    cases compiles with
    | trailingDot => exact absurd (List.head_eq_of_cons_eq texts) nonempty
    | last hasDesc _ partCompiles =>
        cases texts
        cases hasDesc
        exact ⟨_, rfl, rfl, partCompiles⟩
    | cons _ _ _ rest =>
        cases texts
        cases rest

/-! ## Compiling and running -/

structure Host (Message : Type) where
  descSet : DescSet Message
  uninitialised : Uninitialised
  utils : PostgresUtils
  localBits : Nat → UInt64

namespace Host

variable (Stream : Type) [CodedInputStream Stream] (host : Host Message)

def answer (desc : Message) (path : StdString) (message : Bytea) :
    Except Exception (List StdString) := do
  let query ← compileFrom host.descSet host.uninitialised desc path none
  query.run Stream host.utils host.localBits message

def Returns (desc : Message) (path : StdString) (message : Bytea)
    (texts : List (Option StdString)) : Prop :=
  ∃ rows, host.answer Stream desc path message = .ok rows ∧ rows.map some = texts

variable {Stream host}

theorem answer_of_chain {desc : Message} {path : StdString} {parts : List ChainPart}
    {last : ChainEnd} {final : DescPtrs Message}
    (chain : ChainCompiles host.uninitialised host.descSet.pool desc path parts last final)
    (message : Bytea) :
    host.answer Stream desc path message =
      QueryImpl.run Stream
        ⟨chainObjects host.uninitialised parts last, host.descSet.binaryToJsonString⟩
        host.utils host.localBits message := by
  have compiled : compileFrom host.descSet host.uninitialised desc path none =
      .ok ⟨chainObjects host.uninitialised parts last, host.descSet.binaryToJsonString⟩ :=
    compileFrom_eq_ok_iff.mpr ⟨parts, last, final, chain, rfl⟩
  rw [answer, compiled]
  rfl

end Host

end PostgresProtobuf
