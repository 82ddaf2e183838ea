import PostgresProtobuf.IntegerRows

/-! # Numeric literals

What the compiler makes of the decimal literals of a part: the number of a field, the
index of a list and the integer key of a map. -/

namespace PostgresProtobuf

open Foundation

variable {Message : Type}

inductive LiteralPlace
  | fieldNumber
  | listIndex
  | mapKey (type : FieldType)

def FieldInfo.Value.keyNumber (type : FieldType) (value : FieldInfo.Value) : Int :=
  match type with
  | .int32 | .sfixed32 => value.asUInt32.toBitVec.toInt
  | .uint32 | .fixed32 => value.asUInt32.toNat
  | .sint32 => zigZagDecode value.asUInt32.toNat
  | .int64 | .sfixed64 => value.asUInt64.toBitVec.toInt
  | .uint64 | .fixed64 => value.asUInt64.toNat
  | .sint64 => zigZagDecode value.asUInt64.toNat
  | _ => 0

namespace LiteralPlace

def Fits : LiteralPlace → Int → Prop
  | fieldNumber, number | listIndex, number => -2 ^ 31 ≤ number ∧ number < 2 ^ 31
  | mapKey type, number => (KeyValue.integer number).OfType type

def Readable : LiteralPlace → Int → Prop
  | mapKey .uint32, number | mapKey .fixed32, number
  | mapKey .uint64, number | mapKey .fixed64, number => number.natAbs < 2 ^ 64
  | _, number => -2 ^ 63 ≤ number ∧ number < 2 ^ 63

def wanted : LiteralPlace → List ChainVisitor → Option Int
  | fieldNumber, .fieldSelector selector :: _ => some selector.wantedField
  | listIndex, [.fieldSelector selector] => selector.wantedIndex
  | mapKey type, [.fieldSelector _, .mapFilter filter] =>
      some (filter.wantedKeyField.value.keyNumber type)
  | _, _ => none

end LiteralPlace

section

variable (uninitialised : Uninitialised) (pool : DescriptorPool Message) (position : Nat)
variable (desc : Message)

inductive HasLiteral : (part : StdString) → LiteralPlace → Int → Prop
  | fieldNumber {digits selector : StdString} (nonempty : digits ≠ [])
      (all : ∀ char ∈ digits, IsDecimalDigit char = true)
      (starts : StartsSelector selector) :
      HasLiteral (digits ++ selector) .fieldNumber (digitsValue digits)
  | listIndex {part inner : StdString} {field : FieldDescriptor Message} {number : Int}
      (found : findField pool desc part = .ok field) (isRepeated : field.isRepeated = true)
      (notMap : field.isMap = false) (selects : selectorText part = bracketed inner)
      (denotes : DenotesInteger inner number) : HasLiteral part .listIndex number
  | mapKey {part inner : StdString} {field keyField valueField : FieldDescriptor Message}
      {number : Int} (mapField : MapField pool desc part field keyField valueField)
      (integerKey : (KeyValue.integer 0).OfType keyField.type)
      (selects : selectorText part = bracketed inner)
      (denotes : DenotesInteger inner number) :
      HasLiteral part (.mapKey keyField.type) number

/-- The part with the last 32 bits of a number in place of its field number. -/
def wrappedPart (part : StdString) (number : Int) : StdString :=
  unsignedToString (number % 2 ^ 32).toNat ++ selectorText part

/-- The number fits its place or is refused: it is too large for the library function that
reads it or, if it is a field number, its last 32 bits would be refused as well. -/
def Unwrapped (part : StdString) (place : LiteralPlace) (number : Int) : Prop :=
  place.Fits number ∨ ¬ place.Readable number ∨
    place = .fieldNumber ∧ ∀ chainPart next,
      ¬ PartCompiles uninitialised pool position desc (wrappedPart part number) chainPart next

end

/-- A literal is compiled to its number, or refused if that does not fit. -/
structure LiteralExact (place : LiteralPlace) (number : Int)
    (compiled : Except Exception (DescPtrs Message × List ChainVisitor)) : Prop where
  exact : ∀ next visitors, compiled = .ok (next, visitors) →
    place.wanted visitors = some number
  refused : ¬ place.Fits number → ∃ message, compiled = .error (.badQuery message)

/-! ## Refused parts -/

section

variable {uninitialised : Uninitialised} {pool : DescriptorPool Message} {position : Nat}
variable {desc : Message} {part : StdString} {field : FieldDescriptor Message}

def OnlyBadQuery {Value : Type} (result : Except Exception Value) : Prop :=
  ∀ exception, result = .error exception → ∃ message, exception = .badQuery message

theorem onlyBadQuery_map {Value Other : Type} {result : Except Exception Value}
    (refuses : OnlyBadQuery result) (change : Value → Other) :
    OnlyBadQuery (result.map change) := by
  intro exception failed
  cases result with
  | ok value => cases failed
  | error other =>
      cases failed
      exact refuses _ rfl

theorem onlyBadQuery_parseIndex (inner : StdString) : OnlyBadQuery (parseIndex inner) := by
  intro exception failed
  unfold parseIndex at failed
  split at failed
  · cases failed
  · split at failed
    · split at failed
      · cases failed
        exact ⟨_, rfl⟩
      · cases failed
    · rename_i fault _
      cases fault <;> cases failed <;> exact ⟨_, rfl⟩

theorem onlyBadQuery_parseSigned (text : StdString) : OnlyBadQuery (parseSigned text) := by
  intro exception failed
  unfold parseSigned at failed
  split at failed
  · split at failed
    · cases failed
      exact ⟨_, rfl⟩
    · cases failed
  · rename_i fault _
    cases fault <;> cases failed <;> exact ⟨_, rfl⟩

theorem onlyBadQuery_parseUnsigned (text : StdString) : OnlyBadQuery (parseUnsigned text) := by
  intro exception failed
  unfold parseUnsigned at failed
  split at failed
  · split at failed
    · cases failed
      exact ⟨_, rfl⟩
    · cases failed
  · rename_i fault _
    cases fault <;> cases failed <;> exact ⟨_, rfl⟩

theorem onlyBadQuery_parseMapKey (text : StdString) (type : FieldType) (bits : UInt64) :
    OnlyBadQuery (parseMapKey text type bits) := by
  unfold parseMapKey
  split
  · exact nofun
  · apply onlyBadQuery_map
    cases type with
    | int64 | sfixed64 | int32 | sfixed32 | enum | sint32 | sint64 =>
        exact onlyBadQuery_map (onlyBadQuery_parseSigned text) _
    | uint64 | fixed64 | fixed32 | uint32 =>
        exact onlyBadQuery_map (onlyBadQuery_parseUnsigned text) _
    | bool =>
        intro exception failed
        unfold parseNumericMapKey at failed
        simp only at failed
        split at failed
        · cases failed
        · split at failed <;> cases failed
          exact ⟨_, rfl⟩
    | _ =>
        rintro _ ⟨rfl⟩
        exact ⟨_, rfl⟩

theorem onlyBadQuery_findField (pool : DescriptorPool Message) (desc : Message)
    (part : StdString) : OnlyBadQuery (findField pool desc part) := by
  intro exception failed
  change ite (byNumber part = true) _ _ = _ at failed
  split at failed
  · split at failed
    · cases failed
      exact ⟨_, rfl⟩
    · cases found : pool.findFieldByNumber desc (toInt (strtol part).1) with
      | some field => simp [found] at failed
      | none =>
          simp only [found, Except.error.injEq] at failed
          exact ⟨_, failed.symm⟩
  · cases found : pool.findFieldByName desc (part.take (fieldSelectorEnd part)) with
    | some field => simp [found] at failed
    | none =>
        simp only [found, Except.error.injEq] at failed
        exact ⟨_, failed.symm⟩

theorem onlyBadQuery_compileQueryPart {descPtrs : DescPtrs Message}
    (hasDesc : descPtrs.desc = some desc) :
    OnlyBadQuery (compileQueryPart pool uninitialised position part descPtrs) := by
  by_cases isEmpty : part = []
  · subst isEmpty
    intro exception failed
    simp [compileQueryPart, hasDesc, throw, throwThe, MonadExceptOf.throw, bind,
      Except.bind] at failed
    exact ⟨_, failed.symm⟩
  · have notEmpty : part.isEmpty = false := by simpa using isEmpty
    cases found : findField pool desc part with
    | error exception =>
        rintro other failed
        simp only [compileQueryPart, hasDesc, notEmpty, found, bind, Except.bind] at failed
        cases failed
        exact onlyBadQuery_findField pool desc part _ found
    | ok field =>
        cases repeats : field.isRepeated with
        | false =>
            rw [compileQueryPart_single hasDesc isEmpty found repeats]
            split
            · rintro _ ⟨⟩
            · rintro _ ⟨rfl⟩
              exact ⟨_, rfl⟩
        | true =>
            by_cases test : isBracketed (selectorText part) = true
            · rcases isBracketed_eq_true test with ⟨inner, selects⟩
              rw [compileQueryPart_bracketed hasDesc isEmpty found repeats selects]
              split
              · rintro _ ⟨rfl⟩
                exact ⟨_, rfl⟩
              · split
                · rename_i isMap
                  rcases mapField_of_find found isMap with ⟨keyField, valueField, mapField⟩
                  apply onlyBadQuery_map
                  by_cases isStar : inner = star
                  · subst isStar
                    rw [compileMapSelector_values mapField]
                    rintro _ ⟨⟩
                  · rw [compileMapSelector_lookup mapField isStar]
                    exact onlyBadQuery_map (onlyBadQuery_parseMapKey _ _ _) _
                · exact onlyBadQuery_map (onlyBadQuery_parseIndex inner) _
            · by_cases isKeys : selectorText part = keysText
              · rw [compileQueryPart_keys hasDesc isEmpty found repeats isKeys]
                split
                · rename_i isMap
                  rcases mapField_of_find found isMap with ⟨keyField, valueField, mapField⟩
                  rw [compileMapSelector_keys mapField]
                  rintro _ ⟨⟩
                · rintro _ ⟨rfl⟩
                  exact ⟨_, rfl⟩
              · have other : (selectorText part == literal "|keys") = false := by
                  simpa [keysText] using isKeys
                unfold selectorText at test other
                intro exception failed
                simp [compileQueryPart, hasDesc, notEmpty, found, repeats, test, other, bind,
                  Except.bind, throw, throwThe, MonadExceptOf.throw] at failed
                exact ⟨_, failed.symm⟩

/-! ## Field numbers -/

theorem findField_digits {digits selector : StdString} (nonempty : digits ≠ [])
    (all : ∀ char ∈ digits, IsDecimalDigit char = true) (starts : StartsSelector selector) :
    findField pool desc (digits ++ selector) = .ok field ↔
      pool.findFieldByNumber desc (narrowed (digitsValue digits)) = some field := by
  have absent : ∀ char, IsDecimalDigit char = false → char ∉ digits := by
    intro char notDigit member
    rw [all char member] at notDigit
    cases notDigit
  have ends := fieldSelectorEnd_of_starts (absent '['.toUInt8 rfl) (absent '|'.toUInt8 rfl)
    starts
  have stops : ∀ char ∈ selector.head?, IsDecimalDigit char = false := by
    rcases starts with rfl | ⟨rest, rfl | rfl⟩
    · simp
    · rintro _ ⟨rfl⟩
      rfl
    · rintro _ ⟨rfl⟩
      rfl
  have isNumber : byNumber (digits ++ selector) = true := by
    cases digits with
    | nil => exact absurd rfl nonempty
    | cons first rest => exact all first List.mem_cons_self
  have read := strtol_of_byNumber isNumber
  rw [takeWhile_append_of_all selector all stops] at read
  have number : toInt (strtol (digits ++ selector)).1 = narrowed (digitsValue digits) := by
    rw [read]
    rfl
  have atEnd : (strtol (digits ++ selector)).2 = fieldSelectorEnd (digits ++ selector) := by
    rw [read, ends]
  change ite (byNumber (digits ++ selector) = true) _ _ = _ ↔ _
  rw [if_pos isNumber, if_neg (fun differ => differ atEnd), number]
  cases pool.findFieldByNumber desc (narrowed (digitsValue digits)) with
  | none => simp
  | some other => simp

end

/-! ## Map keys -/

theorem parseSigned_of_denotes {text : StdString} {number : Int}
    (denotes : DenotesInteger text number) :
    parseSigned text =
      if -2 ^ 63 ≤ number ∧ number < 2 ^ 63 then .ok number
      else .error (numericKeyOutOfRange text) := by
  rw [parseSigned, stoll_of_denotes denotes]
  by_cases range : -2 ^ 63 ≤ number ∧ number < 2 ^ 63
  · rw [if_pos range, if_pos range]
    exact if_neg fun differ => differ rfl
  · rw [if_neg range, if_neg range]
    rfl

theorem parseUnsigned_of_denotes {text : StdString} {number : Int}
    (denotes : DenotesInteger text number) :
    parseUnsigned text =
      if number.natAbs < 2 ^ 64 then .ok (number % 2 ^ 64).toNat
      else .error (numericKeyOutOfRange text) := by
  rw [parseUnsigned, stoull_of_denotes denotes]
  by_cases range : number.natAbs < 2 ^ 64
  · rw [if_pos range, if_pos range]
    exact if_neg fun differ => differ rfl
  · rw [if_neg range, if_neg range]
    rfl

theorem keyNumber_written {type : FieldType} {number : Int}
    (ofType : (KeyValue.integer number).OfType type) (value : FieldInfo.Value) :
    ((KeyValue.integer number).written type value).keyNumber type = number := by
  have narrow := toNat_ofInt_uint32 number
  have wide := toNat_ofInt_uint64 number
  cases type with
  | int32 | sfixed32 =>
      simp only [KeyValue.written, FieldInfo.Value.keyNumber,
        FieldInfo.Value.asUInt32_setUInt32, BitVec.toInt_eq_toNat_bmod, UInt32.toNat_toBitVec]
      exact bmod_32_of_emod ofType (by omega)
  | int64 | sfixed64 =>
      simp only [KeyValue.written, FieldInfo.Value.keyNumber,
        FieldInfo.Value.asUInt64_setUInt64, BitVec.toInt_eq_toNat_bmod, UInt64.toNat_toBitVec]
      exact bmod_64_of_emod ofType (by omega)
  | uint32 | fixed32 =>
      rcases ofType with ⟨low, high⟩
      simp only [KeyValue.written, FieldInfo.Value.keyNumber,
        FieldInfo.Value.asUInt32_setUInt32]
      omega
  | uint64 | fixed64 =>
      rcases ofType with ⟨low, high⟩
      simp only [KeyValue.written, FieldInfo.Value.keyNumber,
        FieldInfo.Value.asUInt64_setUInt64]
      omega
  | sint32 =>
      have encoded : zigZagEncode number < 2 * 2 ^ 31 := zigZagEncode_lt ofType
      have same : (UInt32.ofNat (zigZagEncode number)).toNat = zigZagEncode number := by
        rw [UInt32.toNat_ofNat']
        omega
      simp only [KeyValue.written, FieldInfo.Value.keyNumber,
        FieldInfo.Value.asUInt32_setUInt32, same, zigZagDecode_zigZagEncode]
  | sint64 =>
      have encoded : zigZagEncode number < 2 * 2 ^ 63 := zigZagEncode_lt ofType
      have same : (UInt64.ofNat (zigZagEncode number)).toNat = zigZagEncode number := by
        rw [UInt64.toNat_ofNat']
        omega
      simp only [KeyValue.written, FieldInfo.Value.keyNumber,
        FieldInfo.Value.asUInt64_setUInt64, same, zigZagDecode_zigZagEncode]
  | _ => cases ofType

theorem parseNumericMapKey_readable {type : FieldType}
    (integerKey : (KeyValue.integer 0).OfType type) {text : StdString} {number : Int}
    (denotes : DenotesInteger text number)
    (readable : (LiteralPlace.mapKey type).Readable number) (value : FieldInfo.Value) :
    ∃ written, parseNumericMapKey text type value = .ok written ∧
      ((KeyValue.integer number).OfType type →
        written = (KeyValue.integer number).written type value) := by
  have signed : -2 ^ 63 ≤ number ∧ number < 2 ^ 63 → parseSigned text = .ok number :=
    fun range => (parseSigned_of_denotes denotes).trans (if_pos range)
  have unsigned : number.natAbs < 2 ^ 64 →
      parseUnsigned text = .ok (number % 2 ^ 64).toNat :=
    fun range => (parseUnsigned_of_denotes denotes).trans (if_pos range)
  cases type with
  | int64 | sfixed64 | sint64 =>
      simp only [parseNumericMapKey, signed readable]
      exact ⟨_, rfl, fun _ => rfl⟩
  | int32 | sfixed32 | sint32 =>
      simp only [parseNumericMapKey, signed readable]
      refine ⟨_, rfl, fun ofType => ?_⟩
      simp only [toInt_of_range ofType]
      rfl
  | uint64 | fixed64 =>
      simp only [parseNumericMapKey, unsigned readable]
      refine ⟨_, rfl, fun ofType => ?_⟩
      simp only [Int.emod_eq_of_lt ofType.1 ofType.2, ofNat_toNat_uint64 ofType.1]
      rfl
  | uint32 | fixed32 =>
      simp only [parseNumericMapKey, unsigned readable]
      refine ⟨_, rfl, fun ofType => ?_⟩
      rcases ofType with ⟨low, high⟩
      have wide : number < 2 ^ 64 := by omega
      simp only [Int.emod_eq_of_lt low wide, ofNat_toNat_uint32 low]
      rfl
  | _ => exact integerKey.elim

theorem parseNumericMapKey_unreadable {type : FieldType}
    (integerKey : (KeyValue.integer 0).OfType type) {text : StdString} {number : Int}
    (denotes : DenotesInteger text number)
    (unreadable : ¬ (LiteralPlace.mapKey type).Readable number) (value : FieldInfo.Value) :
    parseNumericMapKey text type value = .error (numericKeyOutOfRange text) := by
  have signed : ¬ (-2 ^ 63 ≤ number ∧ number < 2 ^ 63) →
      parseSigned text = .error (numericKeyOutOfRange text) :=
    fun range => (parseSigned_of_denotes denotes).trans (if_neg range)
  have unsigned : ¬ number.natAbs < 2 ^ 64 →
      parseUnsigned text = .error (numericKeyOutOfRange text) :=
    fun range => (parseUnsigned_of_denotes denotes).trans (if_neg range)
  cases type with
  | int64 | sfixed64 | sint64 | int32 | sfixed32 | sint32 =>
      simp only [parseNumericMapKey, signed unreadable]
      rfl
  | uint64 | fixed64 | uint32 | fixed32 =>
      simp only [parseNumericMapKey, unsigned unreadable]
      rfl
  | _ => exact integerKey.elim

/-! ## Literals of parts -/

section

variable {place : LiteralPlace} {number : Int}
variable {compiled : Except Exception (DescPtrs Message × List ChainVisitor)}

theorem literalExact_of_ok {next : DescPtrs Message} {visitors : List ChainVisitor}
    (accepted : compiled = .ok (next, visitors))
    (wanted : place.Fits number → place.wanted visitors = some number) :
    LiteralExact place number compiled ↔ place.Fits number := by
  subst accepted
  constructor
  · intro literalExact
    by_contra tooLarge
    rcases literalExact.refused tooLarge with ⟨message, refused⟩
    cases refused
  · intro fits
    refine ⟨?_, fun tooLarge => absurd fits tooLarge⟩
    rintro _ _ ⟨rfl⟩
    exact wanted fits

theorem literalExact_of_error (onlyBadQuery : OnlyBadQuery compiled)
    (notAccepted : ∀ next visitors, compiled ≠ .ok (next, visitors)) :
    LiteralExact place number compiled := by
  refine ⟨fun next visitors accepted => absurd accepted (notAccepted next visitors), ?_⟩
  intro _
  cases compiled with
  | ok pair => exact absurd rfl (notAccepted pair.1 pair.2)
  | error exception =>
      rcases onlyBadQuery exception rfl with ⟨message, rfl⟩
      exact ⟨message, rfl⟩

end

section

variable {uninitialised : Uninitialised} {pool : DescriptorPool Message} {position : Nat}
variable {desc : Message} {part other : StdString} {field : FieldDescriptor Message}
variable {descPtrs : DescPtrs Message} {number : Int}

theorem nonempty_of_selectorText {inner : StdString}
    (selects : selectorText part = bracketed inner) : part ≠ [] := by
  rintro rfl
  cases selects

theorem listIndex_iff (hasDesc : descPtrs.desc = some desc) {inner : StdString}
    (found : findField pool desc part = .ok field) (isRepeated : field.isRepeated = true)
    (notMap : field.isMap = false) (selects : selectorText part = bracketed inner)
    (denotes : DenotesInteger inner number) :
    LiteralExact .listIndex number
        (compileQueryPart pool uninitialised position part descPtrs) ↔
      LiteralPlace.listIndex.Fits number ∨ ¬ LiteralPlace.listIndex.Readable number := by
  have notTrue : ¬ field.isMap = true := by simp [notMap]
  have compiles : compileQueryPart pool uninitialised position part descPtrs = _ :=
    compileQueryPart_bracketed hasDesc (nonempty_of_selectorText selects) found isRepeated
      selects
  rw [if_neg denotes.nonempty, if_neg notTrue] at compiles
  by_cases readable : LiteralPlace.listIndex.Readable number
  · rw [(parseIndex_of_denotes denotes).trans (if_pos readable)] at compiles
    have exact : LiteralPlace.listIndex.Fits number → some (toInt number) = some number :=
      fun fits => congrArg some (toInt_of_range fits)
    rw [literalExact_of_ok compiles exact]
    exact (or_iff_left fun unreadable => unreadable readable).symm
  · rw [(parseIndex_of_denotes denotes).trans (if_neg readable)] at compiles
    refine iff_of_true ?_ (.inr readable)
    exact literalExact_of_error (onlyBadQuery_compileQueryPart hasDesc)
      (by rw [compiles]; exact nofun)

theorem mapKey_iff (hasDesc : descPtrs.desc = some desc) {inner : StdString}
    {keyField valueField : FieldDescriptor Message}
    (mapField : MapField pool desc part field keyField valueField)
    (integerKey : (KeyValue.integer 0).OfType keyField.type)
    (selects : selectorText part = bracketed inner)
    (denotes : DenotesInteger inner number) :
    LiteralExact (.mapKey keyField.type) number
        (compileQueryPart pool uninitialised position part descPtrs) ↔
      (LiteralPlace.mapKey keyField.type).Fits number ∨
        ¬ (LiteralPlace.mapKey keyField.type).Readable number := by
  have notString : keyField.type ≠ .string := fun isString => by
    rw [isString] at integerKey
    exact integerKey
  have compiles : compileQueryPart pool uninitialised position part descPtrs = _ :=
    compileQueryPart_bracketed hasDesc (nonempty_of_selectorText selects) mapField.found
      mapField.isRepeated selects
  rw [if_neg denotes.nonempty, if_pos mapField.isMap,
    compileMapSelector_lookup mapField denotes.ne_star] at compiles
  simp only [parseMapKey, if_neg notString] at compiles
  by_cases readable : (LiteralPlace.mapKey keyField.type).Readable number
  · rcases parseNumericMapKey_readable integerKey denotes readable
      ⟨uninitialised.wantedKey (position + 1)⟩ with ⟨written, parsed, isNumber⟩
    rw [parsed] at compiles
    rw [literalExact_of_ok compiles ?_]
    · exact (or_iff_left fun unreadable => unreadable readable).symm
    · intro fits
      rw [isNumber fits]
      exact congrArg some (keyNumber_written fits _)
  · rw [parseNumericMapKey_unreadable integerKey denotes readable] at compiles
    refine iff_of_true ?_ (.inr readable)
    exact literalExact_of_error (onlyBadQuery_compileQueryPart hasDesc)
      (by rw [compiles]; rintro _ _ ⟨⟩)

theorem PartCompiles.of_found {chainPart : ChainPart} {next : DescPtrs Message}
    (compiles : PartCompiles uninitialised pool position desc part chainPart next)
    (sameField : ∀ field, findField pool desc part = .ok field →
      findField pool desc other = .ok field)
    (sameSelector : selectorText other = selectorText part) :
    PartCompiles uninitialised pool position desc other chainPart next := by
  have sameMap : ∀ {field keyField valueField : FieldDescriptor Message},
      MapField pool desc part field keyField valueField →
        MapField pool desc other field keyField valueField := by
    intro field keyField valueField mapField
    exact { mapField with found := sameField field mapField.found }
  cases compiles with
  | single found notRepeated bare =>
      exact .single (sameField _ found) notRepeated (sameSelector.trans bare)
  | element found isRepeated notMap selects nonempty parsed =>
      exact .element (sameField _ found) isRepeated notMap (sameSelector.trans selects)
        nonempty parsed
  | keys mapField selects =>
      exact .keys (sameMap mapField) (sameSelector.trans selects)
  | values mapField selects =>
      exact .values (sameMap mapField) (sameSelector.trans selects)
  | lookup mapField selects nonempty notStar parsed =>
      exact .lookup (sameMap mapField) (sameSelector.trans selects) nonempty notStar parsed

theorem wanted_fieldNumber {chainPart : ChainPart} {next : DescPtrs Message}
    (compiles : PartCompiles uninitialised pool position desc part chainPart next) :
    ∃ field, findField pool desc part = .ok field ∧
      LiteralPlace.fieldNumber.wanted (chainPart.visitors uninitialised position) =
        some field.number := by
  cases compiles with
  | single found _ _ => exact ⟨_, found, rfl⟩
  | element found _ _ _ _ _ => exact ⟨_, found, rfl⟩
  | keys mapField _ => exact ⟨_, mapField.found, rfl⟩
  | values mapField _ => exact ⟨_, mapField.found, rfl⟩
  | lookup mapField _ _ _ _ => exact ⟨_, mapField.found, rfl⟩

section

variable {digits selector : StdString} (digitsNonempty : digits ≠ [])
variable (all : ∀ char ∈ digits, IsDecimalDigit char = true)
variable (starts : StartsSelector selector)

include all starts

theorem selectorText_digits : selectorText (digits ++ selector) = selector := by
  have absent : ∀ char, IsDecimalDigit char = false → char ∉ digits := by
    intro char notDigit member
    rw [all char member] at notDigit
    cases notDigit
  rw [selectorText,
    fieldSelectorEnd_of_starts (absent '['.toUInt8 rfl) (absent '|'.toUInt8 rfl) starts,
    List.drop_left]

include digitsNonempty

theorem readable_of_found (found : findField pool desc (digits ++ selector) = .ok field) :
    digitsValue digits < 2 ^ 63 := by
  by_contra tooLarge
  have isNumber := (DescriptorPool.findFieldByNumber_eq_some
    ((findField_digits digitsNonempty all starts).mp found)).2
  have positive := (pool.field_valid desc field (findField_mem found)).number_pos
  rw [narrowed, Int.min_eq_left (by omega)] at isNumber
  have clamped : toInt (2 ^ 63 - 1) = -1 := by decide
  omega

theorem findField_wrapped (readable : digitsValue digits < 2 ^ 63) :
    findField pool desc (wrappedPart (digits ++ selector) (digitsValue digits)) = .ok field ↔
      findField pool desc (digits ++ selector) = .ok field := by
  rcases unsignedToString_digits ((digitsValue digits : Int) % 2 ^ 32).toNat with
    ⟨allWrapped, denotes⟩
  have sameNumber : narrowed ((digitsValue digits : Int) % 2 ^ 32).toNat =
      narrowed (digitsValue digits) := by
    have nonnegative : 0 ≤ (digitsValue digits : Int) % 2 ^ 32 := by omega
    rw [narrowed, narrowed, Int.toNat_of_nonneg nonnegative, Int.min_eq_right (by omega),
      Int.min_eq_right (by omega), toInt, toInt]
    exact Int.emod_bmod ..
  rw [wrappedPart, selectorText_digits all starts,
    findField_digits (unsignedToString_ne_nil _) allWrapped starts, denotes, sameNumber,
    findField_digits digitsNonempty all starts]

theorem fieldNumber_iff (hasDesc : descPtrs.desc = some desc) :
    LiteralExact .fieldNumber (digitsValue digits)
        (compileQueryPart pool uninitialised position (digits ++ selector) descPtrs) ↔
      Unwrapped uninitialised pool position desc (digits ++ selector) .fieldNumber
        (digitsValue digits) := by
  have nonempty : digits ++ selector ≠ [] := by simp [digitsNonempty]
  by_cases accepted : ∃ chainPart next,
      PartCompiles uninitialised pool position desc (digits ++ selector) chainPart next
  · rcases accepted with ⟨chainPart, next, compiles⟩
    rcases wanted_fieldNumber compiles with ⟨field, found, wanted⟩
    have readable := readable_of_found digitsNonempty all starts found
    have isNumber := (DescriptorPool.findFieldByNumber_eq_some
      ((findField_digits digitsNonempty all starts).mp found)).2
    have compiled := (compileQueryPart_eq_ok_iff hasDesc nonempty).mpr ⟨_, compiles, rfl⟩
    have exact : LiteralPlace.fieldNumber.Fits (digitsValue digits) →
        LiteralPlace.fieldNumber.wanted (chainPart.visitors uninitialised position) =
          some (digitsValue digits : Int) := by
      intro fits
      have small : digitsValue digits < 2 ^ 31 := Int.ofNat_lt.mp fits.2
      rw [wanted, isNumber, narrowed_of_lt small]
    rw [literalExact_of_ok compiled exact]
    refine ⟨.inl, fun unwrapped => ?_⟩
    rcases unwrapped with fits | unreadable | ⟨_, refused⟩
    · exact fits
    · exact absurd ⟨by omega, by omega⟩ unreadable
    · refine absurd (compiles.of_found
        (fun field found => (findField_wrapped digitsNonempty all starts readable).mpr found)
        ?_) (refused _ _)
      rcases unsignedToString_digits ((digitsValue digits : Int) % 2 ^ 32).toNat with
        ⟨allWrapped, _⟩
      rw [wrappedPart, selectorText_digits all starts, selectorText_digits allWrapped starts]
  · have notAccepted : ∀ next visitors, compileQueryPart pool uninitialised position
        (digits ++ selector) descPtrs ≠ .ok (next, visitors) := by
      intro next visitors compiled
      rcases (compileQueryPart_eq_ok_iff hasDesc nonempty).mp compiled with
        ⟨chainPart, compiles, _⟩
      exact accepted ⟨_, _, compiles⟩
    refine iff_of_true
      (literalExact_of_error (onlyBadQuery_compileQueryPart hasDesc) notAccepted) ?_
    by_cases readable : digitsValue digits < 2 ^ 63
    · refine .inr (.inr ⟨rfl, fun chainPart next compiles => accepted ⟨_, _, compiles.of_found
        (fun field found => (findField_wrapped digitsNonempty all starts readable).mp found)
        ?_⟩⟩)
      rcases unsignedToString_digits ((digitsValue digits : Int) % 2 ^ 32).toNat with
        ⟨allWrapped, _⟩
      rw [wrappedPart, selectorText_digits all starts, selectorText_digits allWrapped starts]
    · refine .inr (.inl fun range => readable ?_)
      exact Int.ofNat_lt.mp range.2

end

theorem HasLiteral.exact_iff {place : LiteralPlace}
    (hasLiteral : HasLiteral pool desc part place number)
    (hasDesc : descPtrs.desc = some desc) :
    LiteralExact place number
        (compileQueryPart pool uninitialised position part descPtrs) ↔
      Unwrapped uninitialised pool position desc part place number := by
  have notWrapped : ∀ {place : LiteralPlace}, place ≠ .fieldNumber →
      (place.Fits number ∨ ¬ place.Readable number ↔
        Unwrapped uninitialised pool position desc part place number) := by
    intro place notNumber
    constructor
    · intro settled
      exact settled.imp_right .inl
    · intro unwrapped
      rcases unwrapped with fits | unreadable | ⟨isNumber, _⟩
      · exact .inl fits
      · exact .inr unreadable
      · exact absurd isNumber notNumber
  cases hasLiteral with
  | fieldNumber nonempty all starts => exact fieldNumber_iff nonempty all starts hasDesc
  | listIndex found isRepeated notMap selects denotes =>
      exact (listIndex_iff hasDesc found isRepeated notMap selects denotes).trans
        (notWrapped (by simp))
  | mapKey mapField integerKey selects denotes =>
      exact (mapKey_iff hasDesc mapField integerKey selects denotes).trans
        (notWrapped (by simp))

variable (uninitialised pool position) in
/-- The literals of accepted parts are exact unless they are wrapped, and two that are not
wrapped differ in what they look for. -/
theorem numericLiterals_iff (hasDesc : descPtrs.desc = some desc) :
    (∀ part place number, HasLiteral pool desc part place number →
      (LiteralExact place number
          (compileQueryPart pool uninitialised position part descPtrs) ↔
        Unwrapped uninitialised pool position desc part place number)) ∧
    ∀ part other place number otherNumber next otherNext visitors,
      HasLiteral pool desc part place number →
      HasLiteral pool desc other place otherNumber →
      Unwrapped uninitialised pool position desc part place number →
      Unwrapped uninitialised pool position desc other place otherNumber →
      compileQueryPart pool uninitialised position part descPtrs = .ok (next, visitors) →
      compileQueryPart pool uninitialised position other descPtrs =
        .ok (otherNext, visitors) →
      number = otherNumber := by
  constructor
  · intro part place number hasLiteral
    exact hasLiteral.exact_iff hasDesc
  · intro part other place number otherNumber next otherNext visitors hasLiteral otherLiteral
      unwrapped otherUnwrapped accepted otherAccepted
    have wanted := ((hasLiteral.exact_iff hasDesc).mpr unwrapped).exact _ _ accepted
    have otherWanted :=
      ((otherLiteral.exact_iff hasDesc).mpr otherUnwrapped).exact _ _ otherAccepted
    exact Option.some.inj (wanted.symm.trans otherWanted)

/-- `repeated_int32[1]` is exact, and differs from `repeated_int32[0]`. -/
theorem numericLiterals_iff_listIndex :
    LiteralExact .listIndex 1 (compileQueryPart testPool zeroMemory 1
        (literal "repeated_int32[1]") (rootPtrs .exampleMessage)) ∧
      ∀ next otherNext visitors,
        compileQueryPart testPool zeroMemory 1 (literal "repeated_int32[1]")
            (rootPtrs .exampleMessage) = .ok (next, visitors) →
          compileQueryPart testPool zeroMemory 1 (literal "repeated_int32[0]")
            (rootPtrs .exampleMessage) ≠ .ok (otherNext, visitors) := by
  have one : HasLiteral testPool .exampleMessage (literal "repeated_int32[1]") .listIndex 1 :=
    .listIndex (show findField _ _ _ = .ok (TestMessage.repeatedField "repeated_int32" 2 .int32)
      from rfl) rfl rfl (show selectorText _ = bracketed (literal "1") from rfl) (by decide)
  have zero : HasLiteral testPool .exampleMessage (literal "repeated_int32[0]") .listIndex 0 :=
    .listIndex (show findField _ _ _ = .ok (TestMessage.repeatedField "repeated_int32" 2 .int32)
      from rfl) rfl rfl (show selectorText _ = bracketed (literal "0") from rfl) (by decide)
  have fits : ∀ number : Int, 0 ≤ number → number < 2 → ∀ part,
      Unwrapped zeroMemory testPool 1 .exampleMessage part .listIndex number :=
    fun number low high part => .inl ⟨by omega, by omega⟩
  have literals := numericLiterals_iff zeroMemory testPool 1
    (show (rootPtrs TestMessage.exampleMessage).desc = some .exampleMessage from rfl)
  refine ⟨(literals.1 _ _ _ one).mpr (fits 1 (by decide) (by decide) _), ?_⟩
  intro next otherNext visitors accepted otherAccepted
  exact absurd (literals.2 _ _ _ _ _ _ _ _ one zero (fits 1 (by decide) (by decide) _)
    (fits 0 (by decide) (by decide) _) accepted otherAccepted) (by decide)

end

/-- An index that wraps around is accepted, and compiles to the same as index 0. -/
theorem wrappedIndex_accepted :
    HasLiteral testPool .exampleMessage (literal "repeated_int32[4294967296]") .listIndex
        4294967296 ∧
      ¬ LiteralExact .listIndex 4294967296 (compileQueryPart testPool zeroMemory 1
        (literal "repeated_int32[4294967296]") (rootPtrs .exampleMessage)) ∧
      ∃ next visitors, compileQueryPart testPool zeroMemory 1
          (literal "repeated_int32[4294967296]") (rootPtrs .exampleMessage) =
            .ok (next, visitors) ∧
        compileQueryPart testPool zeroMemory 1 (literal "repeated_int32[0]")
          (rootPtrs .exampleMessage) = .ok (next, visitors) := by
  have accepted : compileQueryPart testPool zeroMemory 1
      (literal "repeated_int32[4294967296]") (rootPtrs .exampleMessage) =
        .ok ((TestMessage.repeatedField "repeated_int32" 2 .int32).descPtrs,
          [.fieldSelector ⟨2, .int32, true, some 0, .scanning, 0, 0⟩]) := rfl
  refine ⟨?_, ?_, _, _, accepted, rfl⟩
  · exact .listIndex (show findField _ _ _ =
      .ok (TestMessage.repeatedField "repeated_int32" 2 .int32) from rfl) rfl rfl
      (show selectorText _ = bracketed (literal "4294967296") from rfl) (by decide)
  · intro literalExact
    have wanted := literalExact.exact _ _ accepted
    cases wanted

end PostgresProtobuf
