import PostgresProtobuf.FieldPaths

/-! # The texts of accepted paths

What an accepted path tells of its text: how a part refers to its field, what its
selector reads, and where a colon may stand. -/

namespace PostgresProtobuf

open Foundation

variable {Message : Type}

/-! ## References to fields -/

def referenceText (part : StdString) : StdString := part.take (fieldSelectorEnd part)

theorem referenceText_append_selectorText (part : StdString) :
    referenceText part ++ selectorText part = part :=
  List.take_append_drop _ _

def narrowed (number : Nat) : Int := toInt (min (2 ^ 63 - 1) (number : Int))

section

variable {pool : DescriptorPool Message} {desc : Message} {part : StdString}
variable {field : FieldDescriptor Message}

theorem strtol_of_byNumber (isNumber : byNumber part = true) :
    strtol part =
      (min (2 ^ 63 - 1) (digitsValue (part.takeWhile IsDecimalDigit) : Int),
        (part.takeWhile IsDecimalDigit).length) := by
  have nonempty : part.takeWhile IsDecimalDigit ≠ [] := by
    cases part with
    | nil => cases isNumber
    | cons first rest =>
        have isDigit : IsDecimalDigit first = true := isNumber
        simp [isDigit]
  have stops : ∀ char ∈ (part.dropWhile IsDecimalDigit).head?,
      IsDecimalDigit char = false := by
    intro char isHead
    have notDigit := List.head?_dropWhile_not IsDecimalDigit part
    rw [Option.mem_def.mp isHead] at notDigit
    exact notDigit
  have read := readInteger_digits nonempty
    (fun char member => List.mem_takeWhile_imp member) stops
  rw [List.takeWhile_append_dropWhile] at read
  simp only [strtol, read, Prod.mk.injEq, and_true]
  omega

theorem reference_of_found (found : findField pool desc part = .ok field) :
    byNumber part = false ∧ referenceText part = field.name ∨
      byNumber part = true ∧ referenceText part = part.takeWhile IsDecimalDigit ∧
        narrowed (digitsValue (referenceText part)) = field.number := by
  rcases findField_eq_ok found with ⟨isNumber, ends, isField⟩ | ⟨notNumber, isField⟩
  · refine .inr ⟨isNumber, ?_⟩
    rw [strtol_of_byNumber isNumber] at ends isField
    have digits : referenceText part = part.takeWhile IsDecimalDigit := by
      rw [referenceText, ← ends]
      exact (List.prefix_iff_eq_take.mp (List.takeWhile_prefix _)).symm
    refine ⟨digits, ?_⟩
    rw [digits]
    exact (DescriptorPool.findFieldByNumber_eq_some isField).2.symm
  · exact .inl ⟨notNumber, (DescriptorPool.findFieldByName_eq_some isField).2.symm⟩

def Separator (char : UInt8) : Prop :=
  char = ':'.toUInt8 ∨ char = '.'.toUInt8 ∨ char = '['.toUInt8 ∨ char = '|'.toUInt8 ∨
    char = ']'.toUInt8 ∨ char = '*'.toUInt8

theorem not_mem_referenceText (found : findField pool desc part = .ok field) {char : UInt8}
    (separator : Separator char) : char ∉ referenceText part := by
  intro member
  rcases reference_of_found found with ⟨_, isName⟩ | ⟨_, isDigits, _⟩
  · rw [isName] at member
    have valid := pool.field_valid desc field (findField_mem found)
    have allowed := valid.name_identifier.2 char member
    rcases separator with rfl | rfl | rfl | rfl | rfl | rfl <;>
      exact absurd allowed (by decide)
  · rw [isDigits] at member
    have isDigit := List.mem_takeWhile_imp member
    rcases separator with rfl | rfl | rfl | rfl | rfl | rfl <;>
      exact absurd isDigit (by decide)

end

/-! ## What selectors read -/

theorem denotes_of_parseIndex {inner : StdString} {index : Option Int}
    (parsed : parseIndex inner = .ok index) :
    inner = star ∧ index = none ∨
      ∃ value, DenotesInteger inner value ∧ index = some (toInt value) := by
  unfold parseIndex at parsed
  split at parsed
  · rename_i isStar
    exact .inl ⟨isStar, (Except.ok.inj parsed).symm⟩
  · split at parsed
    · rename_i value count read
      split at parsed
      · cases parsed
      · rename_i whole
        rw [not_not] at whole
        subst whole
        exact .inr ⟨value, readInteger_of_stoll read, (Except.ok.inj parsed).symm⟩
    · cases parsed

theorem denotes_of_parseSigned {text : StdString} {value : Int}
    (parsed : parseSigned text = .ok value) : DenotesInteger text value := by
  unfold parseSigned at parsed
  split at parsed
  · rename_i number count read
    split at parsed
    · cases parsed
    · rename_i whole
      rw [not_not] at whole
      subst whole
      cases parsed
      exact readInteger_of_stoll read
  · cases parsed

theorem denotes_of_parseUnsigned {text : StdString} {value : Nat}
    (parsed : parseUnsigned text = .ok value) :
    ∃ number, DenotesInteger text number ∧ value = (number % 2 ^ 64).toNat := by
  unfold parseUnsigned at parsed
  split at parsed
  · rename_i found count read
    split at parsed
    · cases parsed
    · rename_i whole
      rw [not_not] at whole
      subst whole
      cases parsed
      rcases readInteger_of_stoull read with ⟨number, denotes, _, isValue⟩
      exact ⟨number, denotes, isValue⟩
  · cases parsed

def KeyText (type : FieldType) (text : StdString) : Prop :=
  match type with
  | .string => True
  | .bool => text = literal "true" ∨ text = literal "false"
  | _ => ∃ value, DenotesInteger text value

theorem keyText_of_parseMapKey {text : StdString} {type : FieldType} {bits : UInt64}
    {wanted : FieldInfo × StdString} (parsed : parseMapKey text type bits = .ok wanted) :
    KeyText type text ∧ wanted.2 = if type = .string then text else [] := by
  unfold parseMapKey at parsed
  by_cases isString : type = .string
  · simp only [isString, if_true, Except.ok.injEq] at parsed
    subst parsed
    simp [isString, KeyText]
  · simp only [if_neg isString] at parsed
    cases numeric : parseNumericMapKey text type ⟨bits⟩ with
    | error exception => simp [numeric, Except.map] at parsed
    | ok value =>
        simp only [numeric, Except.map, Except.ok.injEq] at parsed
        subst parsed
        refine ⟨?_, by rw [if_neg isString]⟩
        have signed : ∀ {result : Int → FieldInfo.Value},
            (parseSigned text).map result = .ok value → ∃ number, DenotesInteger text number := by
          intro result mapped
          cases isNumber : parseSigned text with
          | error exception => simp [isNumber, Except.map] at mapped
          | ok number => exact ⟨number, denotes_of_parseSigned isNumber⟩
        have unsigned : ∀ {result : Nat → FieldInfo.Value},
            (parseUnsigned text).map result = .ok value →
              ∃ number, DenotesInteger text number := by
          intro result mapped
          cases isNumber : parseUnsigned text with
          | error exception => simp [isNumber, Except.map] at mapped
          | ok number =>
              rcases denotes_of_parseUnsigned isNumber with ⟨number, denotes, _⟩
              exact ⟨number, denotes⟩
        cases type with
        | string => exact absurd rfl isString
        | bool =>
            unfold parseNumericMapKey at numeric
            simp only at numeric
            split at numeric
            · exact .inl ‹_›
            · split at numeric
              · exact .inr ‹_›
              · cases numeric
        | uint64 => exact unsigned numeric
        | fixed64 => exact unsigned numeric
        | fixed32 => exact unsigned numeric
        | uint32 => exact unsigned numeric
        | int64 => exact signed numeric
        | sfixed64 => exact signed numeric
        | int32 => exact signed numeric
        | sfixed32 => exact signed numeric
        | enum => exact signed numeric
        | sint32 => exact signed numeric
        | sint64 => exact signed numeric
        | _ => cases numeric

theorem Foundation.DenotesInteger.not_mem {text : StdString} {value : Int}
    (denotes : DenotesInteger text value) {char : UInt8}
    (separator : Separator char) : char ∉ text := by
  intro member
  have allowed := denotes.mem member
  rcases separator with rfl | rfl | rfl | rfl | rfl | rfl <;> exact absurd allowed (by decide)

theorem KeyText.not_mem {type : FieldType} {text : StdString} (keyText : KeyText type text)
    (notString : type ≠ .string) {char : UInt8} (separator : Separator char) :
    char ∉ text := by
  have literals : text = literal "true" ∨ text = literal "false" → char ∉ text := by
    intro isLiteral
    rcases isLiteral with rfl | rfl <;>
      rcases separator with rfl | rfl | rfl | rfl | rfl | rfl <;> decide
  have number : (∃ value, DenotesInteger text value) → char ∉ text := by
    intro denotes
    rcases denotes with ⟨value, denotes⟩
    exact denotes.not_mem separator
  cases type <;> first
    | exact absurd rfl notString
    | exact literals keyText
    | exact number keyText

/-! ## Dots -/

theorem length_splitOn (dot : UInt8) (path : StdString) :
    (path.splitOn dot).length = path.count dot + 1 := by
  induction path with
  | nil => rfl
  | cons char path induction =>
      rw [List.splitOn_cons_eq_if_modifyHead, List.count_cons]
      split <;> simp [induction]

theorem splitOn_append {dot : UInt8} {front : StdString} (noDot : dot ∉ front)
    (path : StdString) :
    (front ++ path).splitOn dot = (path.splitOn dot).modifyHead (front ++ ·) := by
  induction front with
  | nil =>
      rw [List.nil_append]
      cases path.splitOn dot <;> rfl
  | cons char front induction =>
      have different : (char == dot) = false := by
        simpa using fun equal : char = dot => noDot (equal ▸ List.mem_cons_self)
      have later := induction fun member => noDot (List.mem_cons_of_mem _ member)
      rw [List.cons_append, List.splitOn_cons_eq_if_modifyHead, different, later]
      cases path.splitOn dot <;> rfl

section

variable {uninitialised : Uninitialised} {pool : DescriptorPool Message}

theorem PathCompiles.length_texts {position : Nat} {descPtrs final : DescPtrs Message}
    {texts : List StdString} {parts : List ChainPart} {trailingDot : Bool}
    (compiles : PathCompiles uninitialised pool position descPtrs texts parts trailingDot
      final) :
    texts.length = parts.length + trailingDot.toNat := by
  induction compiles with
  | trailingDot => rfl
  | last => rfl
  | cons _ _ _ _ induction =>
      rw [List.length_cons, List.length_cons, induction]
      omega

theorem count_descend_partsVisitors (position : Nat) (parts : List ChainPart) :
    (partsVisitors uninitialised position parts).count .descendIntoSubmessage =
      parts.length := by
  induction parts generalizing position with
  | nil => rfl
  | cons part parts induction =>
      have own : (part.visitors uninitialised (position + 1)).count
          .descendIntoSubmessage = 0 := by
        rw [List.count_eq_zero, ChainPart.visitors]
        cases part.map <;> simp [MapPart.visitors]
      rw [partsVisitors, List.cons_append, List.count_cons_self, List.count_append, own,
        induction, List.length_cons, Nat.zero_add]

theorem ChainCompiles.count_descend {desc : Message} {path : StdString}
    {parts : List ChainPart} {last : ChainEnd} {final : DescPtrs Message}
    (compiles : ChainCompiles uninitialised pool desc path parts last final) :
    (chainObjects uninitialised parts last).count .descendIntoSubmessage =
      if path = [] then 0 else path.count '.'.toUInt8 + 1 := by
  have dots : (dotVisitors last.trailingDot).count .descendIntoSubmessage =
      last.trailingDot.toNat := by
    cases last.trailingDot <;> rfl
  have total : (chainObjects uninitialised parts last).count .descendIntoSubmessage =
      parts.length + last.trailingDot.toNat := by
    rw [chainObjects, List.count_append, List.count_append, count_descend_partsVisitors, dots]
    simp
  rw [total]
  rcases compiles.compiles with ⟨rfl, rfl, noDot, _⟩ | ⟨nonempty, pathCompiles⟩
  · simp [noDot]
  · rw [if_neg nonempty, ← pathCompiles.length_texts, length_splitOn]

/-! ## Colons -/

theorem mem_of_mem_bracketed {inner : StdString} {char : UInt8}
    (member : char ∈ bracketed inner) (other : char ≠ '['.toUInt8 ∧ char ≠ ']'.toUInt8) :
    char ∈ inner := by
  simp only [bracketed, List.mem_cons, List.mem_append, List.not_mem_nil, or_false] at member
  rcases member with isOpen | member | isClose
  · exact absurd isOpen other.1
  · exact member
  · exact absurd isClose other.2

variable {position : Nat} {desc : Message} {part : StdString} {chainPart : ChainPart}
variable {next : DescPtrs Message}

theorem PartCompiles.found (compiles : PartCompiles uninitialised pool position desc part
    chainPart next) : ∃ field, findField pool desc part = .ok field := by
  cases compiles with
  | single found _ _ => exact ⟨_, found⟩
  | element found _ _ _ _ _ => exact ⟨_, found⟩
  | keys mapField _ => exact ⟨_, mapField.found⟩
  | values mapField _ => exact ⟨_, mapField.found⟩
  | lookup mapField _ _ _ _ => exact ⟨_, mapField.found⟩

theorem PartCompiles.lookup_of_colon
    (compiles : PartCompiles uninitialised pool position desc part chainPart next)
    (colon : ':'.toUInt8 ∈ part) :
    ∃ inner wantedKeyField valueType, selectorText part = bracketed inner ∧
      chainPart.map = .lookup .string wantedKeyField inner valueType := by
  rcases compiles.found with ⟨field, found⟩
  have inSelector : ':'.toUInt8 ∈ selectorText part := by
    rw [← referenceText_append_selectorText part, List.mem_append] at colon
    rcases colon with inReference | inSelector
    · exact absurd inReference (not_mem_referenceText found (.inl rfl))
    · exact inSelector
  have inside : ∀ inner, selectorText part = bracketed inner → ':'.toUInt8 ∈ inner := by
    intro inner selects
    rw [selects] at inSelector
    exact mem_of_mem_bracketed inSelector (by decide)
  cases compiles with
  | single _ _ bare =>
      rw [bare] at inSelector
      cases inSelector
  | element _ _ _ selects _ parsed =>
      have member := inside _ selects
      rcases denotes_of_parseIndex parsed with ⟨rfl, _⟩ | ⟨value, denotes, _⟩
      · exact absurd member (by decide)
      · exact absurd member (denotes.not_mem (.inl rfl))
  | keys _ selects =>
      rw [selects] at inSelector
      exact absurd inSelector (by decide)
  | values _ selects => exact absurd (inside _ selects) (by decide)
  | @lookup _ keyField valueField inner wanted mapField selects nonempty notStar parsed =>
      rcases keyText_of_parseMapKey parsed with ⟨keyText, contents⟩
      have isString : keyField.type = .string := by
        by_contra notString
        exact keyText.not_mem notString (.inl rfl) (inside _ selects)
      rw [if_pos isString] at contents
      refine ⟨inner, wanted.1, valueField.type, selects, ?_⟩
      rw [ChainPart.ofMap, isString, contents]

theorem PartCompiles.contents_of_lookup
    (compiles : PartCompiles uninitialised pool position desc part chainPart next)
    {keyType valueType : FieldType} {wantedKeyField : FieldInfo} {contents : StdString}
    (isLookup : chainPart.map = .lookup keyType wantedKeyField contents valueType) :
    contents = [] ∨ selectorText part = bracketed contents := by
  cases compiles with
  | single _ _ _ => cases isLookup
  | element _ _ _ _ _ _ => cases isLookup
  | keys _ _ => cases isLookup
  | values _ _ => cases isLookup
  | lookup mapField selects _ _ parsed =>
      cases isLookup
      have contents := (keyText_of_parseMapKey parsed).2
      split at contents
      · rw [contents]
        exact .inr selects
      · exact .inl contents

theorem length_lt_of_colon {front inner : StdString} {field : FieldDescriptor Message}
    (found : findField pool desc (front ++ ':'.toUInt8 :: part) = .ok field)
    (selects : selectorText (front ++ ':'.toUInt8 :: part) = bracketed inner) :
    part.length ≤ inner.length := by
  have whole := referenceText_append_selectorText (front ++ ':'.toUInt8 :: part)
  have absent : ':'.toUInt8 ∉ referenceText (front ++ ':'.toUInt8 :: part) :=
    not_mem_referenceText found (.inl rfl)
  rw [selects] at whole
  rcases List.append_eq_append_iff.mp whole with ⟨rest, isFront, split⟩ | ⟨rest, isReference, split⟩
  · cases rest with
    | nil => exact absurd (List.head_eq_of_cons_eq split) (by decide)
    | cons first rest =>
        have lengths := congrArg List.length split
        simp only [bracketed, List.length_cons, List.length_append, List.length_nil] at lengths
        omega
  · cases rest with
    | nil => exact absurd (List.head_eq_of_cons_eq split) (by decide)
    | cons first rest =>
        have isColon := List.head_eq_of_cons_eq split
        rw [isReference, ← isColon] at absent
        exact absurd (List.mem_append_right _ List.mem_cons_self) absent

theorem ChainCompiles.first {path : StdString} {parts : List ChainPart} {last : ChainEnd}
    {final : DescPtrs Message}
    (compiles : ChainCompiles uninitialised pool desc path parts last final)
    (nonempty : path ≠ []) {text : StdString} {texts : List StdString}
    (split : path.splitOn '.'.toUInt8 = text :: texts) :
    ∃ chainPart rest next, text ≠ [] ∧
      PartCompiles uninitialised pool 1 desc text chainPart next ∧
      chainObjects uninitialised parts last =
        .descendIntoSubmessage :: .fieldSelector chainPart.selector ::
          (chainPart.map.visitors uninitialised 2 ++ rest) ∧
      ∀ filter, ChainVisitor.mapFilter filter ∉ rest.head? := by
  have follows : ∀ (position : Nat) (others : List ChainPart) (filter : MapFilter),
      ChainVisitor.mapFilter filter ∉ (partsVisitors uninitialised position others ++
        (dotVisitors last.trailingDot ++
          [ChainVisitor.emitter (.new last.kind none)])).head? := by
    intro position others filter
    cases others with
    | nil => cases last.trailingDot <;> simp [partsVisitors, dotVisitors]
    | cons part others => simp [partsVisitors]
  rcases compiles.compiles with ⟨isEmpty, _⟩ | ⟨_, pathCompiles⟩
  · exact absurd isEmpty nonempty
  · rw [split] at pathCompiles
    generalize isDot : last.trailingDot = dot at pathCompiles
    cases pathCompiles with
    | trailingDot => exact absurd ((splitOn_eq_singleton_nil_iff _ path).mp split) nonempty
    | @last _ _ _ _ _ chainPart hasDesc textNonempty part =>
        cases hasDesc
        refine ⟨chainPart, _, _, textNonempty, part, ?_,
          follows (0 + 2 + Setting.mapWidth chainPart.map) []⟩
        simp [chainObjects, partsVisitors, ChainPart.visitors]
    | @cons _ _ _ _ _ _ chainPart _ others _ hasDesc textNonempty part rest =>
        cases hasDesc
        refine ⟨chainPart, _, _, textNonempty, part, ?_,
          follows (0 + 2 + Setting.mapWidth chainPart.map) others⟩
        simp [chainObjects, partsVisitors, ChainPart.visitors]

end

theorem chainObjects_ne_of_colon {Other : Type} {uninitialised : Uninitialised}
    {pool : DescriptorPool Message} {otherPool : DescriptorPool Other} {desc : Message}
    {otherDesc : Other} {front path : StdString} {parts otherParts : List ChainPart}
    {last otherLast : ChainEnd} {final : DescPtrs Message} {otherFinal : DescPtrs Other}
    (compiles : ChainCompiles uninitialised pool desc path parts last final)
    (longer : ChainCompiles uninitialised otherPool otherDesc (front ++ ':'.toUInt8 :: path)
      otherParts otherLast otherFinal) :
    chainObjects uninitialised parts last ≠
      chainObjects uninitialised otherParts otherLast := by
  intro equal
  have counts := congrArg (List.count .descendIntoSubmessage) equal
  have notEmpty : front ++ ':'.toUInt8 :: path ≠ [] := by simp
  rw [compiles.count_descend, longer.count_descend, if_neg notEmpty] at counts
  by_cases empty : path = []
  · rw [if_pos empty] at counts
    omega
  · rw [if_neg empty, List.count_append, List.count_cons] at counts
    have noDot : '.'.toUInt8 ∉ front ++ [':'.toUInt8] := by
      have none : front.count '.'.toUInt8 = 0 := by omega
      have absent := List.count_eq_zero.mp none
      rw [List.mem_append, not_or]
      exact ⟨absent, by decide⟩
    obtain ⟨text, texts, split⟩ := List.exists_cons_of_ne_nil
      (List.splitOn_ne_nil '.'.toUInt8 path)
    have longSplit := splitOn_append noDot path
    rw [split, List.append_assoc, List.singleton_append, List.modifyHead_cons,
      List.append_assoc, List.singleton_append] at longSplit
    rcases compiles.first empty split with
      ⟨chainPart, rest, _, nonempty, partCompiles, objects, restHead⟩
    rcases longer.first notEmpty longSplit with
      ⟨otherPart, otherRest, _, _, otherCompiles, otherObjects, _⟩
    rcases otherCompiles.lookup_of_colon (by simp) with
      ⟨inner, wantedKeyField, valueType, selects, isLookup⟩
    rcases otherCompiles.found with ⟨field, found⟩
    have long := length_lt_of_colon found selects
    have positive := List.length_pos_iff.mpr nonempty
    rw [objects, otherObjects, isLookup] at equal
    simp only [List.cons.injEq, true_and] at equal
    cases isMap : chainPart.map with
    | none =>
        rw [isMap, MapPart.visitors, List.nil_append] at equal
        apply restHead
        rw [equal.2]
        rfl
    | entries wantKeys type =>
        rw [isMap] at equal
        exact absurd (List.head_eq_of_cons_eq equal.2) nofun
    | lookup keyType otherKeyField contents otherType =>
        rw [isMap] at equal
        have sameFilter := List.head_eq_of_cons_eq equal.2
        simp only [ChainVisitor.mapFilter.injEq, MapFilter.new, MapFilter.mk.injEq] at sameFilter
        rcases partCompiles.contents_of_lookup isMap with isEmpty | isSelector
        · rw [← sameFilter.2.1, isEmpty] at long
          simp only [List.length_nil] at long
          omega
        · have lengths := congrArg List.length (referenceText_append_selectorText text)
          rw [isSelector, sameFilter.2.1] at lengths
          simp only [bracketed, List.length_cons, List.length_append, List.length_nil] at lengths
          omega

end PostgresProtobuf
