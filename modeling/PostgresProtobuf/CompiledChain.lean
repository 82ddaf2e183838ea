import PostgresProtobuf.Runs
import Mathlib.Data.List.Basic

/-! # The chain of a compiled query

What each part of an accepted path compiles to, as a relation without the order
in which the compiler makes its checks. -/

namespace PostgresProtobuf

open Foundation

variable {Message : Type}

/-! ## Selectors -/

def selectorText (part : StdString) : StdString := part.drop (fieldSelectorEnd part)

def bracketed (inner : StdString) : StdString :=
  '['.toUInt8 :: (inner ++ [']'.toUInt8])

def star : StdString := literal "*"

def keysText : StdString := literal "|keys"

theorem isBracketed_bracketed (inner : StdString) : isBracketed (bracketed inner) = true := by
  have last : (bracketed inner).getLast? = some ']'.toUInt8 := by
    rw [bracketed, ← List.cons_append, List.getLast?_concat]
  simp only [isBracketed, last]
  rfl

theorem isBracketed_eq_true {filterStr : StdString} (test : isBracketed filterStr = true) :
    ∃ inner, filterStr = bracketed inner := by
  simp only [isBracketed, Bool.and_eq_true, beq_iff_eq, List.getLast?_eq_some_iff] at test
  rcases test with ⟨opens, front, rfl⟩
  cases front with
  | nil => simp only [List.nil_append, List.head?_cons, Option.some.injEq] at opens; cases opens
  | cons first inner =>
      simp only [List.cons_append, List.head?_cons, Option.some.injEq] at opens
      exact ⟨inner, by rw [opens]; rfl⟩

theorem inner_bracketed (inner : StdString) :
    ((bracketed inner).drop 1).take ((bracketed inner).length - 2) = inner := by
  simp [bracketed]

theorem bracketed_ne_keysText (inner : StdString) : bracketed inner ≠ keysText := by
  intro equal
  have first := congrArg List.head? equal
  simp only [bracketed, List.head?_cons] at first
  exact absurd first (by decide)

theorem bracketed_injective {inner other : StdString}
    (equal : bracketed inner = bracketed other) : inner = other := by
  rw [← inner_bracketed inner, equal, inner_bracketed]

/-! ## Parts -/

def FieldDescriptor.descPtrs (field : FieldDescriptor Message) : DescPtrs Message where
  type := field.type
  desc := if field.type = .message then field.messageType else none
  enumDesc := if field.type = .enum then field.enumType else none
  isRepeated := field.isRepeated
  isMap := field.isMap

def DescPtrs.ofValues (descPtrs : DescPtrs Message) (valueField : FieldDescriptor Message) :
    DescPtrs Message :=
  { descPtrs with
    type := valueField.type
    desc := if valueField.type = .message then valueField.messageType else none }

namespace ChainPart

def plain (field : FieldDescriptor Message) (index : Option Int) : ChainPart where
  wantedField := field.number
  type := field.type
  isPacked := field.isPacked
  wantedIndex := index
  map := .none
  map_type isMap := absurd rfl isMap

def ofMap (field : FieldDescriptor Message) (isMessage : field.type = .message)
    (map : MapPart) : ChainPart where
  wantedField := field.number
  type := field.type
  isPacked := field.isPacked
  wantedIndex := none
  map := map
  map_type _ := isMessage

end ChainPart

section

variable (uninitialised : Uninitialised)

def MapPart.visitors (position : Nat) : MapPart → List ChainVisitor
  | .none => []
  | .entries wantKeys type => [.allMapEntries (.new wantKeys type)]
  | .lookup _ wantedKeyField wantedKeyContents valueType =>
      [.mapFilter (.new wantedKeyField wantedKeyContents valueType
        (uninitialised.bufferedKeyField position)
        (uninitialised.bufferedValueField position))]

def ChainPart.visitors (position : Nat) (part : ChainPart) : List ChainVisitor :=
  .fieldSelector part.selector :: part.map.visitors uninitialised (position + 1)

@[simp] theorem MapPart.length_visitors (position : Nat) (map : MapPart) :
    (map.visitors uninitialised position).length = Setting.mapWidth map := by
  cases map <;> rfl

@[simp] theorem ChainPart.length_visitors (position : Nat) (part : ChainPart) :
    (part.visitors uninitialised position).length = 1 + Setting.mapWidth part.map := by
  simp [ChainPart.visitors, Nat.add_comm]

variable (pool : DescriptorPool Message) (position : Nat) (desc : Message)

structure MapField (part : StdString) (field keyField valueField : FieldDescriptor Message) :
    Prop where
  found : findField pool desc part = .ok field
  isRepeated : field.isRepeated = true
  isMap : field.isMap = true
  isMessage : field.type = .message
  entry : ∃ entry, field.messageType = some entry ∧
    pool.findFieldByNumber entry 1 = some keyField ∧
    pool.findFieldByNumber entry 2 = some valueField
  keyType : keyField.type.MapKey

/-- What a part of a path compiles to after the given message. -/
inductive PartCompiles (part : StdString) : ChainPart → DescPtrs Message → Prop
  | single {field : FieldDescriptor Message} (found : findField pool desc part = .ok field)
      (notRepeated : field.isRepeated = false) (bare : selectorText part = []) :
      PartCompiles part (.plain field none) field.descPtrs
  | element {field : FieldDescriptor Message} {inner : StdString} {index : Option Int}
      (found : findField pool desc part = .ok field) (isRepeated : field.isRepeated = true)
      (notMap : field.isMap = false) (selects : selectorText part = bracketed inner)
      (nonempty : inner ≠ []) (parsed : parseIndex inner = .ok index) :
      PartCompiles part (.plain field index) field.descPtrs
  | keys {field keyField valueField : FieldDescriptor Message}
      (mapField : MapField pool desc part field keyField valueField)
      (selects : selectorText part = keysText) :
      PartCompiles part
        (.ofMap field mapField.isMessage (.entries true keyField.type))
        { field.descPtrs with type := keyField.type }
  | values {field keyField valueField : FieldDescriptor Message}
      (mapField : MapField pool desc part field keyField valueField)
      (selects : selectorText part = bracketed star) :
      PartCompiles part
        (.ofMap field mapField.isMessage (.entries false valueField.type))
        (field.descPtrs.ofValues valueField)
  | lookup {field keyField valueField : FieldDescriptor Message} {inner : StdString}
      {wanted : FieldInfo × StdString}
      (mapField : MapField pool desc part field keyField valueField)
      (selects : selectorText part = bracketed inner) (nonempty : inner ≠ [])
      (notStar : inner ≠ star)
      (parsed : parseMapKey inner keyField.type (uninitialised.wantedKey (position + 1)) =
        .ok wanted) :
      PartCompiles part
        (.ofMap field mapField.isMessage
          (.lookup keyField.type wanted.1 wanted.2 valueField.type))
        (field.descPtrs.ofValues valueField)

end

theorem MapField.unpacked {pool : DescriptorPool Message} {desc : Message} {part : StdString}
    {field keyField valueField : FieldDescriptor Message}
    (mapField : MapField pool desc part field keyField valueField) (valid : field.Valid) :
    field.isPacked = false := by
  cases isPacked : field.isPacked with
  | false => rfl
  | true =>
      have packable := (valid.packed isPacked).2
      rw [mapField.isMessage] at packable
      exact absurd packable (by decide)

/-! ## Compiling a part -/

section

variable {pool : DescriptorPool Message} {uninitialised : Uninitialised} {position : Nat}
variable {desc : Message} {part : StdString} {field : FieldDescriptor Message}

def byNumber (part : StdString) : Bool :=
  match part with
  | first :: _ => IsDecimalDigit first
  | [] => false

theorem findField_eq_ok (found : findField pool desc part = .ok field) :
    byNumber part = true ∧ (strtol part).2 = fieldSelectorEnd part ∧
        pool.findFieldByNumber desc (toInt (strtol part).1) = some field ∨
      byNumber part = false ∧
        pool.findFieldByName desc (part.take (fieldSelectorEnd part)) = some field := by
  change ite (byNumber part = true) _ _ = Except.ok field at found
  cases number : byNumber part with
  | true =>
      rw [if_pos number] at found
      refine .inl ⟨rfl, ?_⟩
      split at found
      · simp at found
      · rename_i ends
        rw [not_not] at ends
        split at found <;> simp_all
  | false =>
      rw [if_neg (by simp [number])] at found
      refine .inr ⟨rfl, ?_⟩
      split at found <;> simp_all

theorem findField_mem (found : findField pool desc part = .ok field) :
    field ∈ pool.fields desc := by
  rcases findField_eq_ok found with ⟨_, _, isSome⟩ | ⟨_, isSome⟩
  · exact (DescriptorPool.findFieldByNumber_eq_some isSome).1
  · exact (DescriptorPool.findFieldByName_eq_some isSome).1

theorem mapField_of_find (found : findField pool desc part = .ok field)
    (isMap : field.isMap = true) :
    ∃ keyField valueField, MapField pool desc part field keyField valueField := by
  have member := findField_mem found
  have valid := pool.field_valid desc field member
  rcases valid.map isMap with ⟨isRepeated, isMessage⟩
  rcases Option.isSome_iff_exists.mp (valid.messageType_isSome.mpr (.inl isMessage)) with
    ⟨entry, isEntry⟩
  rcases pool.map_entry desc field member isMap entry isEntry with
    ⟨key, keyMember, value, valueMember, keyNumber, valueNumber, _, _, keyType⟩
  have isKey := DescriptorPool.findFieldByNumber_of_mem keyMember
  have isValue := DescriptorPool.findFieldByNumber_of_mem valueMember
  rw [keyNumber] at isKey
  rw [valueNumber] at isValue
  exact ⟨key, value, found, isRepeated, isMap, isMessage, ⟨entry, isEntry, isKey, isValue⟩,
    keyType⟩

theorem fieldSelectorEnd_le (part : StdString) : fieldSelectorEnd part ≤ part.length := by
  have bound : ∀ char index, find char part 0 = some index → index ≤ part.length := by
    intro char index found
    simp only [find, List.drop_zero, Nat.add_zero, Option.map_id',
      List.findIdx?_eq_some_iff_findIdx_eq] at found
    exact Nat.le_of_lt found.1
  unfold fieldSelectorEnd
  split
  · rename_i bracket pipe isBracket _
    exact Nat.le_trans (Nat.min_le_left ..) (bound _ _ isBracket)
  · exact bound _ _ ‹_›
  · exact bound _ _ ‹_›
  · exact Nat.le_refl _

theorem selectorText_eq_nil_iff (part : StdString) :
    selectorText part = [] ↔ fieldSelectorEnd part = part.length := by
  have bound := fieldSelectorEnd_le part
  rw [selectorText, List.drop_eq_nil_iff]
  omega

theorem compileMapSelector_keys {keyField valueField : FieldDescriptor Message}
    (mapField : MapField pool desc part field keyField valueField) (filterStr : StdString) :
    compileMapSelector pool uninitialised position true filterStr field.descPtrs =
      .ok ({ field.descPtrs with type := keyField.type },
        .allMapEntries (.new true keyField.type)) := by
  rcases mapField.entry with ⟨entry, isEntry, isKey, isValue⟩
  simp only [compileMapSelector, FieldDescriptor.descPtrs, if_pos mapField.isMessage, isEntry,
    isKey, isValue, if_true]

theorem compileMapSelector_values {keyField valueField : FieldDescriptor Message}
    (mapField : MapField pool desc part field keyField valueField) :
    compileMapSelector pool uninitialised position false star field.descPtrs =
      .ok (field.descPtrs.ofValues valueField,
        .allMapEntries (.new false valueField.type)) := by
  rcases mapField.entry with ⟨entry, isEntry, isKey, isValue⟩
  simp only [compileMapSelector, DescPtrs.ofValues, FieldDescriptor.descPtrs,
    if_pos mapField.isMessage, isEntry, isKey, isValue, Bool.false_eq_true, if_false]
  rfl

theorem compileMapSelector_lookup {keyField valueField : FieldDescriptor Message}
    (mapField : MapField pool desc part field keyField valueField) {filterStr : StdString}
    (notStar : filterStr ≠ star) :
    compileMapSelector pool uninitialised position false filterStr field.descPtrs =
      (parseMapKey filterStr keyField.type (uninitialised.wantedKey position)).map
        fun wanted =>
          (field.descPtrs.ofValues valueField,
            .mapFilter (.new wanted.1 wanted.2 valueField.type
              (uninitialised.bufferedKeyField position)
              (uninitialised.bufferedValueField position))) := by
  rcases mapField.entry with ⟨entry, isEntry, isKey, isValue⟩
  have notStar' : filterStr ≠ literal "*" := notStar
  simp only [compileMapSelector, DescPtrs.ofValues, FieldDescriptor.descPtrs,
    if_pos mapField.isMessage, isEntry, isKey, isValue, Bool.false_eq_true, if_false,
    if_neg notStar']

variable {descPtrs : DescPtrs Message}

theorem compileQueryPart_eq_ok {compiled : DescPtrs Message × List ChainVisitor}
    (compiles : compileQueryPart pool uninitialised position part descPtrs = .ok compiled) :
    ∃ desc field, descPtrs.desc = some desc ∧ part ≠ [] ∧
      findField pool desc part = .ok field := by
  unfold compileQueryPart at compiles
  cases hasDesc : descPtrs.desc with
  | none => simp [hasDesc, throw, throwThe, MonadExceptOf.throw] at compiles
  | some desc =>
      cases part with
      | nil => simp [hasDesc, throw, throwThe, MonadExceptOf.throw, bind, Except.bind] at compiles
      | cons first rest =>
          cases found : findField pool desc (first :: rest) with
          | error exception =>
              simp [hasDesc, found, bind, Except.bind] at compiles
          | ok field => exact ⟨desc, field, rfl, by simp, found⟩

section

variable (hasDesc : descPtrs.desc = some desc) (nonempty : part ≠ [])
variable (found : findField pool desc part = .ok field)

include hasDesc nonempty found

theorem compileQueryPart_single (notRepeated : field.isRepeated = false) :
    compileQueryPart pool uninitialised position part descPtrs =
      if selectorText part = [] then
        .ok (field.descPtrs, (ChainPart.plain field none).visitors uninitialised position)
      else
        .error (.badQuery (literal
          "non-repeated field must not be followed by an array/map selector")) := by
  have notEmpty : part.isEmpty = false := by simpa using nonempty
  simp [compileQueryPart, hasDesc, notEmpty, found, notRepeated, bind, Except.bind, pure,
    Except.pure, throw, throwThe, MonadExceptOf.throw, selectorText_eq_nil_iff,
    FieldDescriptor.descPtrs]
  rfl

variable (isRepeated : field.isRepeated = true)

include isRepeated

theorem compileQueryPart_keys (selects : selectorText part = keysText) :
    compileQueryPart pool uninitialised position part descPtrs =
      if field.isMap = true then
        (compileMapSelector pool uninitialised (position + 1) true keysText
            field.descPtrs).map fun compiled =>
          (compiled.1,
            [.fieldSelector (ChainPart.plain field none).selector, compiled.2])
      else
        .error (.badQuery (literal "'|keys' can only be used on maps")) := by
  have notEmpty : part.isEmpty = false := by simpa using nonempty
  have notBracketed : isBracketed keysText = false := by decide
  have keysSelector : (keysText == literal "|keys") = true := by decide
  have filterStr : part.drop (fieldSelectorEnd part) = keysText := selects
  have fold : field.descPtrs = { field.descPtrs with isRepeated := true } := by
    rw [FieldDescriptor.descPtrs, isRepeated]
  rw [fold]
  simp [compileQueryPart, hasDesc, notEmpty, found, isRepeated, filterStr, notBracketed,
    keysSelector, bind, Except.bind, pure, Except.pure, throw, throwThe, MonadExceptOf.throw]
  cases isMap : field.isMap with
  | false => rfl
  | true =>
      simp only [FieldDescriptor.descPtrs, isMap, if_true, Bool.true_eq_false, if_false]
      split <;> simp_all [Except.map, ChainPart.selector, ChainPart.plain, FieldSelector.new]

theorem compileQueryPart_bracketed {inner : StdString}
    (selects : selectorText part = bracketed inner) :
    compileQueryPart pool uninitialised position part descPtrs =
      if inner = [] then
        .error (.badQuery (literal
          "empty array/map selector '[]' is invalid - did you mean '[*]'?"))
      else if field.isMap = true then
        (compileMapSelector pool uninitialised (position + 1) false inner
            field.descPtrs).map fun compiled =>
          (compiled.1,
            [.fieldSelector (ChainPart.plain field none).selector, compiled.2])
      else
        (parseIndex inner).map fun index =>
          (field.descPtrs, (ChainPart.plain field index).visitors uninitialised position) := by
  have notEmpty : part.isEmpty = false := by simpa using nonempty
  have notKeys : bracketed inner ≠ literal "|keys" := bracketed_ne_keysText inner
  have keysSelector : (bracketed inner == literal "|keys") = false := by simpa using notKeys
  have filterStr : part.drop (fieldSelectorEnd part) = bracketed inner := selects
  have fold : field.descPtrs = { field.descPtrs with isRepeated := true } := by
    rw [FieldDescriptor.descPtrs, isRepeated]
  rw [fold]
  simp only [compileQueryPart, hasDesc, notEmpty, found, filterStr,
    isBracketed_bracketed, inner_bracketed, keysSelector]
  cases inner with
  | nil =>
      simp [isRepeated, bind, Except.bind, throw, throwThe, MonadExceptOf.throw]
  | cons first rest =>
      cases isMap : field.isMap with
      | false =>
          simp [isRepeated, isMap, FieldDescriptor.descPtrs, bind, Except.bind, pure,
            Except.pure]
          cases parseIndex (first :: rest) with
          | error exception => rfl
          | ok index => cases index <;> rfl
      | true =>
          simp [isRepeated, isMap, FieldDescriptor.descPtrs, bind, Except.bind, pure,
            Except.pure]
          split <;> simp_all [Except.map, ChainPart.selector, ChainPart.plain,
            FieldSelector.new]

theorem compileQueryPart_repeated {compiled : DescPtrs Message × List ChainVisitor}
    (compiles : compileQueryPart pool uninitialised position part descPtrs = .ok compiled) :
    selectorText part = keysText ∨
      ∃ inner, inner ≠ [] ∧ selectorText part = bracketed inner := by
  have notEmpty : part.isEmpty = false := by simpa using nonempty
  by_cases test : isBracketed (selectorText part) = true
  · rcases isBracketed_eq_true test with ⟨inner, selects⟩
    refine .inr ⟨inner, ?_, selects⟩
    rintro rfl
    rw [compileQueryPart_bracketed hasDesc nonempty found isRepeated selects] at compiles
    simp at compiles
  · refine .inl ?_
    by_contra notKeys
    have other : (selectorText part == literal "|keys") = false := by
      simpa [keysText] using notKeys
    unfold selectorText at test other
    simp [compileQueryPart, hasDesc, notEmpty, found, isRepeated, test, other, bind,
      Except.bind, throw, throwThe, MonadExceptOf.throw] at compiles

omit found isRepeated in
theorem compileQueryPart_eq_ok_iff {next : DescPtrs Message} {visitors : List ChainVisitor} :
    compileQueryPart pool uninitialised position part descPtrs = .ok (next, visitors) ↔
      ∃ chainPart, PartCompiles uninitialised pool position desc part chainPart next ∧
        visitors = chainPart.visitors uninitialised position := by
  constructor
  · intro compiles
    rcases compileQueryPart_eq_ok compiles with ⟨other, field, hasOther, _, found⟩
    rw [hasDesc, Option.some.injEq] at hasOther
    subst hasOther
    cases repeats : field.isRepeated with
    | false =>
        rw [compileQueryPart_single hasDesc nonempty found repeats] at compiles
        split at compiles
        · rename_i bare
          cases compiles
          exact ⟨_, .single found repeats bare, rfl⟩
        · simp at compiles
    | true =>
        have selected := compileQueryPart_repeated hasDesc nonempty found repeats compiles
        cases isMap : field.isMap with
        | false =>
            rcases selected with selects | ⟨inner, innerNonempty, selects⟩
            · rw [compileQueryPart_keys hasDesc nonempty found repeats selects] at compiles
              simp [isMap] at compiles
            · rw [compileQueryPart_bracketed hasDesc nonempty found repeats selects] at compiles
              cases parsed : parseIndex inner with
              | error exception => simp [innerNonempty, isMap, parsed, Except.map] at compiles
              | ok index =>
                  simp only [innerNonempty, isMap, parsed, Except.map, if_false,
                    Bool.false_eq_true, Except.ok.injEq, Prod.mk.injEq] at compiles
                  rcases compiles with ⟨rfl, rfl⟩
                  exact ⟨_, .element found repeats isMap selects innerNonempty parsed, rfl⟩
        | true =>
            rcases mapField_of_find found isMap with ⟨keyField, valueField, mapField⟩
            rcases selected with selects | ⟨inner, innerNonempty, selects⟩
            · rw [compileQueryPart_keys hasDesc nonempty found repeats selects, if_pos isMap,
                compileMapSelector_keys mapField] at compiles
              cases compiles
              exact ⟨_, .keys mapField selects, rfl⟩
            · rw [compileQueryPart_bracketed hasDesc nonempty found repeats selects,
                if_neg innerNonempty, if_pos isMap] at compiles
              by_cases isStar : inner = star
              · subst isStar
                rw [compileMapSelector_values mapField] at compiles
                cases compiles
                exact ⟨_, .values mapField selects, rfl⟩
              · rw [compileMapSelector_lookup mapField isStar] at compiles
                cases parsed : parseMapKey inner keyField.type
                    (uninitialised.wantedKey (position + 1)) with
                | error exception => simp [parsed, Except.map] at compiles
                | ok wanted =>
                    rw [parsed] at compiles
                    cases compiles
                    exact ⟨_, .lookup mapField selects innerNonempty isStar parsed, rfl⟩
  · rintro ⟨chainPart, compiles, rfl⟩
    cases compiles with
    | single found repeats bare =>
        rw [compileQueryPart_single hasDesc nonempty found repeats, if_pos bare]
    | element found repeats notMap selects innerNonempty parsed =>
        rw [compileQueryPart_bracketed hasDesc nonempty found repeats selects,
          if_neg innerNonempty, if_neg (by simp [notMap]), parsed]
        rfl
    | keys mapField selects =>
        rw [compileQueryPart_keys hasDesc nonempty mapField.found mapField.isRepeated selects,
          if_pos mapField.isMap, compileMapSelector_keys mapField]
        rfl
    | values mapField selects =>
        rw [compileQueryPart_bracketed hasDesc nonempty mapField.found mapField.isRepeated
          selects, if_neg (by decide), if_pos mapField.isMap,
          compileMapSelector_values mapField]
        rfl
    | lookup mapField selects innerNonempty notStar parsed =>
        rw [compileQueryPart_bracketed hasDesc nonempty mapField.found mapField.isRepeated
          selects, if_neg innerNonempty, if_pos mapField.isMap,
          compileMapSelector_lookup mapField notStar, parsed]
        rfl

end

end

/-! ## Paths -/

section

variable (uninitialised : Uninitialised) (pool : DescriptorPool Message)

inductive PathCompiles : (position : Nat) → DescPtrs Message → List StdString →
    List ChainPart → (trailingDot : Bool) → DescPtrs Message → Prop
  | trailingDot {position : Nat} {descPtrs : DescPtrs Message} :
      PathCompiles position descPtrs [[]] [] true descPtrs
  | last {position : Nat} {descPtrs next : DescPtrs Message} {desc : Message}
      {text : StdString} {part : ChainPart} (hasDesc : descPtrs.desc = some desc)
      (nonempty : text ≠ [])
      (compiles : PartCompiles uninitialised pool (position + 1) desc text part next) :
      PathCompiles position descPtrs [text] [part] false next
  | cons {position : Nat} {descPtrs next final : DescPtrs Message} {desc : Message}
      {text : StdString} {part : ChainPart} {texts : List StdString}
      {parts : List ChainPart} {trailingDot : Bool} (hasDesc : descPtrs.desc = some desc)
      (nonempty : text ≠ [])
      (compiles : PartCompiles uninitialised pool (position + 1) desc text part next)
      (rest : PathCompiles (position + 2 + Setting.mapWidth part.map) next texts parts
        trailingDot final) :
      PathCompiles position descPtrs (text :: texts) (part :: parts) trailingDot final

def partsVisitors : (position : Nat) → List ChainPart → List ChainVisitor
  | _, [] => []
  | position, part :: parts =>
      .descendIntoSubmessage :: part.visitors uninitialised (position + 1) ++
        partsVisitors (position + 2 + Setting.mapWidth part.map) parts

def dotVisitors (trailingDot : Bool) : List ChainVisitor :=
  if trailingDot then [.descendIntoSubmessage] else []

end

section

variable {uninitialised : Uninitialised} {pool : DescriptorPool Message}

theorem Except.bind_eq_ok_iff {Fault Value Other : Type} {first : Except Fault Value}
    {continuation : Value → Except Fault Other} {result : Other} :
    first >>= continuation = .ok result ↔
      ∃ value, first = .ok value ∧ continuation value = .ok result := by
  cases first with
  | error fault => simp [bind, Except.bind]
  | ok value => simp [bind, Except.bind]

theorem splitOn_dot {partBuf : StdString} (noDot : '.'.toUInt8 ∉ partBuf)
    (path : StdString) :
    (partBuf ++ '.'.toUInt8 :: path).splitOn '.'.toUInt8 =
      partBuf :: path.splitOn '.'.toUInt8 := by
  rw [List.splitOn_append_cons_self, List.splitOn_eq_singleton noDot]
  rfl

theorem splitOn_eq_singleton_nil_iff (dot : UInt8) (path : StdString) :
    path.splitOn dot = [[]] ↔ path = [] := by
  constructor
  · intro single
    have joined : [dot].intercalate (path.splitOn dot) = path := List.intercalate_splitOn dot
    rw [single] at joined
    exact joined.symm
  · rintro rfl
    rfl

theorem getLast?_splitOn_concat {dot char : UInt8} (notDot : char ≠ dot) :
    ∀ front : StdString, ((front ++ [char]).splitOn dot).getLast? ≠ some [] := fun front => by
  by_cases noDot : dot ∈ front
  · rcases List.append_of_mem noDot with ⟨before, after, split⟩
    have shorter : after.length < front.length := by
      rw [split, List.length_append, List.length_cons]
      omega
    rw [split, List.append_assoc, List.cons_append, List.splitOn_append_cons_self,
      List.getLast?_append_of_ne_nil _ (List.splitOn_ne_nil _ _)]
    exact getLast?_splitOn_concat notDot after
  · have absent : dot ∉ front ++ [char] := by simp [noDot, Ne.symm notDot]
    rw [List.splitOn_eq_singleton absent]
    simp
termination_by front => front.length

theorem getLast?_splitOn_eq_some_nil_iff (dot : UInt8) (path : StdString) :
    (path.splitOn dot).getLast? = some [] ↔ path = [] ∨ path.getLast? = some dot := by
  rcases List.eq_nil_or_concat' path with rfl | ⟨front, char, rfl⟩
  · simp
  · by_cases isDot : char = dot
    · subst isDot
      rw [List.splitOn_append_cons_self]
      simp
    · simp [getLast?_splitOn_concat isDot, isDot]

theorem PathCompiles.texts_eq {position : Nat} {descPtrs final : DescPtrs Message}
    {texts : List StdString} {trailingDot : Bool}
    (compiles : PathCompiles uninitialised pool position descPtrs texts [] trailingDot
      final) : texts = [[]] := by
  cases compiles
  rfl

theorem PathCompiles.trailingDot_iff {position : Nat} {descPtrs final : DescPtrs Message}
    {texts : List StdString} {parts : List ChainPart} {trailingDot : Bool}
    (compiles : PathCompiles uninitialised pool position descPtrs texts parts trailingDot
      final) :
    trailingDot = true ↔ texts.getLast? = some [] := by
  induction compiles with
  | trailingDot => simp
  | last _ nonempty _ => simp [nonempty]
  | cons _ _ _ rest induction =>
      rw [induction]
      cases rest <;> simp

theorem PathCompiles.parts_ne_nil {path : StdString} (nonempty : path ≠ []) {position : Nat}
    {descPtrs final : DescPtrs Message} {parts : List ChainPart} {trailingDot : Bool}
    (compiles : PathCompiles uninitialised pool position descPtrs (path.splitOn '.'.toUInt8)
      parts trailingDot final) : parts ≠ [] := by
  rintro rfl
  exact nonempty ((splitOn_eq_singleton_nil_iff _ path).mp compiles.texts_eq)

theorem PathCompiles.type_of_last {position : Nat} {descPtrs final : DescPtrs Message}
    {texts : List StdString} {parts : List ChainPart} {trailingDot : Bool}
    (compiles : PathCompiles uninitialised pool position descPtrs texts parts trailingDot
      final) (noDot : trailingDot = false) :
    ∀ part ∈ parts.getLast?, part.map = .none → part.type = final.type := by
  induction compiles with
  | trailingDot => cases noDot
  | last _ _ compiled =>
      rintro part ⟨⟩ notMap
      cases compiled with
      | single _ _ _ => rfl
      | element _ _ _ _ _ _ => rfl
      | keys _ _ => cases notMap
      | values _ _ => cases notMap
      | lookup _ _ _ _ _ => cases notMap
  | cons _ _ _ rest induction =>
      intro part isLast
      have follows := induction noDot
      cases rest with
      | trailingDot => cases noDot
      | last _ _ _ => exact follows part isLast
      | cons _ _ _ _ => exact follows part isLast

/-- The compiler's loop compiles the path as the relation says, by induction on the
path. -/
theorem compilePath_eq_ok_iff {path partBuf : StdString} {descPtrs final : DescPtrs Message}
    {before visitors : List ChainVisitor} (noDot : '.'.toUInt8 ∉ partBuf) :
    compilePath pool uninitialised path partBuf descPtrs
        (before ++ [.descendIntoSubmessage]) = .ok (final, visitors) ↔
      ∃ parts trailingDot,
        PathCompiles uninitialised pool before.length descPtrs
          ((partBuf ++ path).splitOn '.'.toUInt8) parts trailingDot final ∧
        visitors = before ++
          (partsVisitors uninitialised before.length parts ++ dotVisitors trailingDot) := by
  induction path generalizing partBuf descPtrs before visitors with
  | nil =>
      rw [List.append_nil, List.splitOn_eq_singleton noDot]
      by_cases empty : partBuf = []
      · subst empty
        constructor
        · intro compiles
          cases compiles
          exact ⟨[], true, .trailingDot, rfl⟩
        · rintro ⟨parts, trailingDot, compiles, rfl⟩
          cases compiles with
          | trailingDot => rfl
          | last _ nonempty _ => exact absurd rfl nonempty
          | cons _ nonempty _ _ => exact absurd rfl nonempty
      · have notEmpty : partBuf.isEmpty = false := by simpa using empty
        simp only [compilePath, notEmpty, Bool.false_eq_true, if_false,
          Except.bind_eq_ok_iff, List.length_append, List.length_singleton]
        constructor
        · rintro ⟨⟨next, compiled⟩, compiles, done⟩
          cases done
          rcases compileQueryPart_eq_ok compiles with ⟨desc, _, hasDesc, _, _⟩
          rcases (compileQueryPart_eq_ok_iff hasDesc empty).mp compiles with
            ⟨part, partCompiles, rfl⟩
          refine ⟨[part], false, .last hasDesc empty partCompiles, ?_⟩
          simp [partsVisitors, dotVisitors]
        · rintro ⟨parts, trailingDot, compiles, rfl⟩
          cases compiles with
          | trailingDot => exact absurd rfl empty
          | last hasDesc nonempty partCompiles =>
              refine ⟨_, (compileQueryPart_eq_ok_iff hasDesc nonempty).mpr
                ⟨_, partCompiles, rfl⟩, ?_⟩
              simp [partsVisitors, dotVisitors, pure, Except.pure]
          | cons _ _ _ rest => cases rest
  | cons char path induction =>
      by_cases isDot : char = '.'.toUInt8
      · subst isDot
        have position : ∀ part, (before ++ [ChainVisitor.descendIntoSubmessage] ++
            ChainPart.visitors uninitialised (before.length + 1) part).length =
            before.length + 2 + Setting.mapWidth part.map := by
          intro part
          simp only [List.length_append, List.length_singleton, ChainPart.length_visitors]
          omega
        rw [splitOn_dot noDot]
        simp only [compilePath, if_true, Except.bind_eq_ok_iff, List.length_append,
          List.length_singleton]
        constructor
        · rintro ⟨⟨next, compiled⟩, compiles, follows⟩
          rcases compileQueryPart_eq_ok compiles with ⟨desc, _, hasDesc, nonempty, _⟩
          rcases (compileQueryPart_eq_ok_iff hasDesc nonempty).mp compiles with
            ⟨part, partCompiles, rfl⟩
          rcases (induction List.not_mem_nil).mp follows with
            ⟨parts, trailingDot, restCompiles, rfl⟩
          rw [position part] at restCompiles ⊢
          refine ⟨part :: parts, trailingDot,
            .cons hasDesc nonempty partCompiles restCompiles, ?_⟩
          simp [partsVisitors]
        · rintro ⟨parts, trailingDot, compiles, rfl⟩
          have notNil := List.splitOn_ne_nil '.'.toUInt8 path
          generalize texts : path.splitOn '.'.toUInt8 = rest at compiles notNil
          cases compiles with
          | trailingDot => exact absurd rfl notNil
          | last => exact absurd rfl notNil
          | @cons _ _ next _ _ _ part _ parts _ hasDesc nonempty partCompiles restCompiles =>
              refine ⟨_, (compileQueryPart_eq_ok_iff hasDesc nonempty).mpr
                ⟨_, partCompiles, rfl⟩, ?_⟩
              refine (induction List.not_mem_nil).mpr ⟨parts, trailingDot, ?_, ?_⟩
              · rw [position part, List.nil_append, texts]
                exact restCompiles
              · rw [position part]
                simp [partsVisitors]
      · have step : compilePath pool uninitialised (char :: path) partBuf descPtrs
            (before ++ [.descendIntoSubmessage]) =
            compilePath pool uninitialised path (partBuf ++ [char]) descPtrs
              (before ++ [.descendIntoSubmessage]) := by
          simp only [compilePath, if_neg isDot]
        rw [step, induction (by simp [noDot, Ne.symm isDot]), List.append_assoc]
        rfl

end

/-! ## Queries -/

def rootPtrs (desc : Message) : DescPtrs Message where
  type := .message
  desc := some desc
  enumDesc := none
  isRepeated := false
  isMap := false

def chainObjects (uninitialised : Uninitialised) (parts : List ChainPart)
    (last : ChainEnd) : List ChainVisitor :=
  partsVisitors uninitialised 0 parts ++
    (dotVisitors last.trailingDot ++ [.emitter (.new last.kind none)])

structure ChainCompiles (uninitialised : Uninitialised) (pool : DescriptorPool Message)
    (desc : Message) (path : StdString) (parts : List ChainPart) (last : ChainEnd)
    (final : DescPtrs Message) : Prop where
  compiles : path = [] ∧ parts = [] ∧ last.trailingDot = false ∧ final = rootPtrs desc ∨
    path ≠ [] ∧ PathCompiles uninitialised pool 0 (rootPtrs desc)
      (path.splitOn '.'.toUInt8) parts last.trailingDot final
  emits : Emitter.create pool final none = .ok (.new last.kind none)

section

variable {uninitialised : Uninitialised} {pool : DescriptorPool Message}

theorem Emitter.create_eq_ok {descPtrs : DescPtrs Message} {limit : Option Nat}
    {emitter : Emitter} (created : Emitter.create pool descPtrs limit = .ok emitter) :
    emitter = .new emitter.kind none ∧ emitter.kind ≠ .primitive .message ∧
      ∀ other, Emitter.create pool descPtrs other = .ok emitter := by
  unfold Emitter.create at created ⊢
  split at created
  · split at created
    · cases created
      exact ⟨rfl, by simp [Emitter.new], fun _ => rfl⟩
    · simp at created
  · split at created
    · cases created
      exact ⟨rfl, by simp [Emitter.new], fun _ => rfl⟩
    · simp at created
  · cases created
    refine ⟨rfl, ?_, fun _ => rfl⟩
    simp only [Emitter.new, ne_eq, EmitterKind.primitive.injEq]
    assumption

def typeUrl (pool : DescriptorPool Message) (desc : Message) : StdString :=
  literal "type.googleapis.com/" ++ pool.fullName desc

theorem typeUrl_isEmpty (desc : Message) : (typeUrl pool desc).isEmpty = false := rfl

theorem Emitter.create_message {final : DescPtrs Message} {selected : Message}
    (isMessage : final.type = .message) (isSelected : final.desc = some selected) :
    Emitter.create pool final none =
      .ok (.new (.message (typeUrl pool selected)) none) := by
  simp only [Emitter.create, isMessage, isSelected]
  rfl

theorem Emitter.kind_cases {final : DescPtrs Message} {kind : EmitterKind}
    (created : Emitter.create pool final none = .ok (.new kind none)) :
    (final.type = .message ∧ ∃ selected, kind = .message (typeUrl pool selected)) ∨
      (final.type = .enum ∧ ∃ descriptor, kind = .enum descriptor) ∨
      final.type ≠ .message ∧ final.type ≠ .enum ∧ kind = .primitive final.type := by
  unfold Emitter.create at created
  split at created
  · rename_i isMessage
    split at created
    · rename_i selected _
      cases created
      exact .inl ⟨isMessage, selected, rfl⟩
    · cases created
  · rename_i isEnum
    split at created
    · rename_i descriptor _
      cases created
      exact .inr (.inl ⟨isEnum, descriptor, rfl⟩)
    · cases created
  · rename_i notMessage notEnum
    cases created
    exact .inr (.inr ⟨notMessage, notEnum, rfl⟩)

theorem finish_eq_ok_iff {final : DescPtrs Message} {limit : Option Nat}
    {visitors : List ChainVisitor}
    {binaryToJsonString : StdString → Bytes → Option StdString} {query : QueryImpl} :
    (do let emitter ← Emitter.create pool final limit
        return QueryImpl.mk (visitors ++ [.emitter emitter]) binaryToJsonString) =
      Except.ok query ↔
      ∃ kind, kind ≠ .primitive .message ∧
        Emitter.create pool final none = .ok (.new kind none) ∧
        query = ⟨visitors ++ [.emitter (.new kind none)], binaryToJsonString⟩ := by
  rw [Except.bind_eq_ok_iff]
  constructor
  · rintro ⟨emitter, created, made⟩
    rcases Emitter.create_eq_ok created with ⟨isNew, notMessage, always⟩
    cases made
    exact ⟨emitter.kind, notMessage, by rw [← isNew]; exact always none, by rw [← isNew]⟩
  · rintro ⟨kind, notMessage, created, rfl⟩
    exact ⟨_, (Emitter.create_eq_ok created).2.2 limit, rfl⟩

theorem compileFrom_eq_ok_iff {descSet : DescSet Message} {desc : Message}
    {path : StdString} {limit : Option Nat} {query : QueryImpl} :
    compileFrom descSet uninitialised desc path limit = .ok query ↔
      ∃ parts last final,
        ChainCompiles uninitialised descSet.pool desc path parts last final ∧
        query = ⟨chainObjects uninitialised parts last, descSet.binaryToJsonString⟩ := by
  by_cases empty : path = []
  · subst empty
    have start : compileFrom descSet uninitialised desc [] limit =
        (do let emitter ← Emitter.create descSet.pool (rootPtrs desc) limit
            return QueryImpl.mk ([] ++ [.emitter emitter]) descSet.binaryToJsonString) := rfl
    rw [start, finish_eq_ok_iff]
    constructor
    · rintro ⟨kind, notMessage, created, rfl⟩
      exact ⟨[], ⟨false, kind, notMessage⟩, _, ⟨.inl ⟨rfl, rfl, rfl, rfl⟩, created⟩, rfl⟩
    · rintro ⟨parts, last, final, ⟨⟨_, rfl, dot, rfl⟩ | ⟨nonempty, _⟩, created⟩, rfl⟩
      · exact ⟨last.kind, last.kind_ne, created, by simp [chainObjects, partsVisitors,
          dotVisitors, dot]⟩
      · exact absurd rfl nonempty
  · have notEmpty : path.isEmpty = false := by simpa using empty
    have start : compileFrom descSet uninitialised desc path limit =
        (do let compiled ← compilePath descSet.pool uninitialised path [] (rootPtrs desc)
              ([] ++ [.descendIntoSubmessage])
            let emitter ← Emitter.create descSet.pool compiled.1 limit
            return QueryImpl.mk (compiled.2 ++ [.emitter emitter])
              descSet.binaryToJsonString) := by
      simp only [compileFrom, notEmpty]
      rfl
    rw [start, Except.bind_eq_ok_iff]
    constructor
    · rintro ⟨⟨final, visitors⟩, compiles, follows⟩
      rcases (compilePath_eq_ok_iff List.not_mem_nil).mp compiles with
        ⟨parts, trailingDot, pathCompiles, rfl⟩
      rcases finish_eq_ok_iff.mp follows with ⟨kind, notMessage, created, rfl⟩
      exact ⟨parts, ⟨trailingDot, kind, notMessage⟩, final,
        ⟨.inr ⟨empty, pathCompiles⟩, created⟩, by simp [chainObjects]⟩
    · rintro ⟨parts, last, final, ⟨⟨isEmpty, _⟩ | ⟨_, pathCompiles⟩, created⟩, rfl⟩
      · exact absurd isEmpty empty
      · refine ⟨_, (compilePath_eq_ok_iff List.not_mem_nil).mpr
          ⟨parts, last.trailingDot, pathCompiles, rfl⟩, ?_⟩
        exact finish_eq_ok_iff.mpr ⟨last.kind, last.kind_ne, created, by
          simp only [chainObjects, List.nil_append, List.append_assoc, List.length_nil]⟩

theorem compileQuery_eq_ok_iff {descDb : DescDb Message} {text : StdString}
    {limit : Option Nat} {query : QueryImpl} :
    compileQuery descDb uninitialised text limit = .ok query ↔
      ∃ descSet desc path parts last final,
        resolveQuery descDb text = .ok (descSet, desc, path) ∧
        ChainCompiles uninitialised descSet.pool desc path parts last final ∧
        query = ⟨chainObjects uninitialised parts last, descSet.binaryToJsonString⟩ := by
  rw [compileQuery, Except.bind_eq_ok_iff]
  constructor
  · rintro ⟨⟨descSet, desc, path⟩, resolved, compiles⟩
    rcases compileFrom_eq_ok_iff.mp compiles with ⟨parts, last, final, chain, rfl⟩
    exact ⟨descSet, desc, path, parts, last, final, resolved, chain, rfl⟩
  · rintro ⟨descSet, desc, path, parts, last, final, resolved, chain, rfl⟩
    exact ⟨(descSet, desc, path), resolved,
      compileFrom_eq_ok_iff.mpr ⟨parts, last, final, chain, rfl⟩⟩

end

/-! ## Runs of compiled queries -/

section

variable {State : Type} {setting : Setting State} {uninitialised : Uninitialised}

/-- The buffers of a map filter are zero before its first reset where the setting
counts on it. -/
def Uninitialised.Suits (uninitialised : Uninitialised) (knowledge : Knowledge State)
    (state : State) : Prop :=
  ∀ position, knowledge.pristine position state = false →
    uninitialised.bufferedKeyField position = FieldInfo.zero ∧
      uninitialised.bufferedValueField position = FieldInfo.zero

theorem mapResting_start {state : State} (suits : uninitialised.Suits setting.knowledge state)
    (limit position : Nat) (map : MapPart) {resting : Resting State}
    {suffix : List ChainVisitor} (rests : resting state suffix) :
    mapResting setting limit position map resting state
      (map.visitors uninitialised position ++ suffix) := by
  cases map with
  | none => exact rests
  | entries wantKeys type => exact ⟨suffix, rfl, rests⟩
  | lookup keyType wantedKeyField wantedKeyContents valueType =>
      have cleared : setting.knowledge.pristine position state = false →
          (MapFilter.new wantedKeyField wantedKeyContents valueType
            (uninitialised.bufferedKeyField position)
            (uninitialised.bufferedValueField position)).reset = .new wantedKeyField
              wantedKeyContents valueType (uninitialised.bufferedKeyField position)
              (uninitialised.bufferedValueField position) := by
        intro known
        rcases suits position known with ⟨key, value⟩
        rw [key, value]
        rfl
      refine ⟨_, suffix, rfl, ?_, cleared, rests⟩
      unfold restingBuffers
      cases pristine : setting.knowledge.pristine position state with
      | true =>
          exact ⟨⟨rfl, rfl, rfl, rfl, nofun, nofun⟩, rfl⟩
      | false =>
          rcases suits position pristine with ⟨key, value⟩
          refine ⟨⟨rfl, rfl, rfl, rfl, ?_, ?_⟩, rfl⟩
          · rintro _ ⟨rfl⟩
            rw [MapFilter.new, key]
            exact heads_zero setting.knowledge
          · rintro _ ⟨rfl⟩
            rw [MapFilter.new, value]
            exact ⟨heads_zero setting.knowledge, trivial⟩

theorem chainResting_start {state : State}
    (suits : uninitialised.Suits setting.knowledge state) (limit : Nat) (last : ChainEnd)
    (position : Nat) (parts : List ChainPart) :
    chainResting setting limit last position parts state
      (partsVisitors uninitialised position parts ++
        (dotVisitors last.trailingDot ++ [.emitter (.new last.kind none)])) := by
  induction parts generalizing position with
  | nil =>
      unfold chainResting endResting dotVisitors
      split <;> rfl
  | cons part parts induction =>
      have rests := mapResting_start suits limit (position + 2) part.map
        (induction (position + 2 + Setting.mapWidth part.map))
      refine ⟨_, ?_, rests⟩
      simp [partsVisitors, ChainPart.visitors]

theorem length_le_partsVisitors (uninitialised : Uninitialised) (position : Nat)
    (parts : List ChainPart) :
    parts.length ≤ (partsVisitors uninitialised position parts).length := by
  induction parts generalizing position with
  | nil => exact Nat.zero_le _
  | cons part parts induction =>
      have rest := induction (position + 2 + Setting.mapWidth part.map)
      simp only [partsVisitors, List.cons_append, List.length_cons, List.length_append]
      omega

theorem restsAs_start {state : State} (suits : uninitialised.Suits setting.knowledge state)
    (parts : List ChainPart) (last : ChainEnd) (limit : Nat)
    (binaryToJsonString : StdString → Bytes → Option StdString) :
    QueryImpl.RestsAs setting parts last
      ⟨chainObjects uninitialised parts last, binaryToJsonString⟩ state limit
      ⟨chainObjects uninitialised parts last, []⟩ where
  enough := by
    have bound := length_le_partsVisitors uninitialised 0 parts
    simp only [chainObjects, List.length_append, List.length_singleton]
    omega
  resting := chainResting_start suits limit last 0 parts
  rows := rfl

variable {Stream : Type} [CodedInputStream Stream] [LawfulCodedInputStream Stream]

theorem run_eq {localBits : Nat → UInt64} {parts : List ChainPart} {last : ChainEnd}
    {state : State} {protoData : Bytea} {result : Except Exception (List StdString)}
    (texts : setting.knowledge.textless = false)
    (matching : Matches setting
      ⟨setting.utils, setting.binaryToJsonString, localBits⟩ Stream)
    (suits : uninitialised.Suits setting.knowledge state)
    (concluded : setting.outcome parts last state protoData.data = some result) :
    QueryImpl.run Stream ⟨chainObjects uninitialised parts last, setting.binaryToJsonString⟩
      setting.utils localBits protoData = result :=
  QueryImpl.runOn_eq texts matching (restsAs_start suits parts last _ _) concluded

end

end PostgresProtobuf
