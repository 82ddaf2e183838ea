import PostgresProtobuf.PathSemantics
import PostgresProtobuf.PathTexts
import PostgresProtobuf.TestSchema

/-! # The grammar of paths

The paths that are well typed by the grammar of queries, and which accepted paths are
not. -/

namespace PostgresProtobuf

open Foundation

variable {Message : Type}

section

variable (pool : DescriptorPool Message)

def MapEntry (field keyField valueField : FieldDescriptor Message) : Prop :=
  ∃ entry, field.messageType = some entry ∧
    pool.findFieldByNumber entry 1 = some keyField ∧
    pool.findFieldByNumber entry 2 = some valueField

inductive LegalSelector (field : FieldDescriptor Message) (selector : StdString) :
    FieldDescriptor Message → Prop
  | single (notRepeated : field.isRepeated = false) (bare : selector = []) :
      LegalSelector field selector field
  | element {inner : StdString} (isRepeated : field.isRepeated = true)
      (notMap : field.isMap = false) (selects : selector = bracketed inner)
      (index : inner = star ∨ ∃ value, DenotesInteger inner value) :
      LegalSelector field selector field
  | keys {keyField valueField : FieldDescriptor Message} (isMap : field.isMap = true)
      (mapEntry : MapEntry pool field keyField valueField) (selects : selector = keysText) :
      LegalSelector field selector keyField
  | values {keyField valueField : FieldDescriptor Message} {inner : StdString}
      (isMap : field.isMap = true) (mapEntry : MapEntry pool field keyField valueField)
      (selects : selector = bracketed inner) (nonempty : inner ≠ [])
      (key : inner = star ∨ KeyText keyField.type inner) :
      LegalSelector field selector valueField

inductive GrammarPart (desc : Message) : StdString → FieldDescriptor Message → Prop
  | mk {field selected : FieldDescriptor Message} {name selector : StdString}
      (member : field ∈ pool.fields desc) (named : field.NamedBy name)
      (legal : LegalSelector pool field selector selected) :
      GrammarPart desc (name ++ selector) selected

/-- Parts after a message. A part is only followed by another one if it selects
messages. -/
inductive GrammarParts : Message → List StdString → Prop
  | last {desc : Message} {text : StdString} {selected : FieldDescriptor Message}
      (nonempty : text ≠ []) (part : GrammarPart pool desc text selected) :
      GrammarParts desc [text]
  | cons {desc next : Message} {text : StdString} {texts : List StdString}
      {selected : FieldDescriptor Message} (nonempty : text ≠ [])
      (part : GrammarPart pool desc text selected)
      (isMessage : selected.Yields (.message next)) (rest : GrammarParts next texts) :
      GrammarParts desc (text :: texts)

def GrammarPath (desc : Message) (path : StdString) : Prop :=
  path = [] ∨ GrammarParts pool desc (path.splitOn '.'.toUInt8)

end

/-- If the part refers to its field by a number, it is below `2 ^ 31`. -/
def ExactNumber (part : StdString) : Prop :=
  byNumber part = true → digitsValue (part.takeWhile IsDecimalDigit) < 2 ^ 31

/-- The path has no dot at its end, no part after `|keys` and no field number that is
narrowed. -/
structure OrdinaryPath (path : StdString) : Prop where
  noTrailingDot : path.getLast? ≠ some '.'.toUInt8
  endsAfterKeys : ∀ part ∈ (path.splitOn '.'.toUInt8).dropLast, selectorText part ≠ keysText
  exactNumbers : ∀ part ∈ path.splitOn '.'.toUInt8, ExactNumber part

section

variable {uninitialised : Uninitialised} {pool : DescriptorPool Message} {position : Nat}
variable {desc : Message} {part : StdString} {field selected : FieldDescriptor Message}

theorem MapEntry.unique {keyField valueField otherKey otherValue : FieldDescriptor Message}
    (mapEntry : MapEntry pool field keyField valueField)
    (otherEntry : MapEntry pool field otherKey otherValue) :
    otherKey = keyField ∧ otherValue = valueField := by
  rcases mapEntry with ⟨entry, isEntry, isKey, isValue⟩
  rcases otherEntry with ⟨_, otherIsEntry, otherIsKey, otherIsValue⟩
  rw [isEntry, Option.some.injEq] at otherIsEntry
  subst otherIsEntry
  rw [isKey, Option.some.injEq] at otherIsKey
  rw [isValue, Option.some.injEq] at otherIsValue
  exact ⟨otherIsKey.symm, otherIsValue.symm⟩

theorem MapEntry.mapField {keyField valueField : FieldDescriptor Message}
    (mapEntry : MapEntry pool field keyField valueField)
    (found : findField pool desc part = .ok field) (isMap : field.isMap = true) :
    MapField pool desc part field keyField valueField := by
  rcases mapField_of_find found isMap with ⟨key, value, whole⟩
  rcases mapEntry.unique whole.entry with ⟨rfl, rfl⟩
  exact whole

theorem LegalSelector.starts {selector : StdString}
    (legal : LegalSelector pool field selector selected) : StartsSelector selector := by
  cases legal with
  | single _ bare => exact .inl bare
  | element _ _ selects _ => exact selects ▸ startsSelector_bracketed _
  | keys _ _ selects => exact selects ▸ .inr ⟨_, .inr rfl⟩
  | values _ _ selects _ _ => exact selects ▸ startsSelector_bracketed _

theorem grammarPart_iff :
    GrammarPart pool desc part selected ↔
      ∃ field, findField pool desc part = .ok field ∧ field.NamedBy (referenceText part) ∧
        LegalSelector pool field (selectorText part) selected := by
  constructor
  · intro grammar
    cases grammar with
    | @mk field selected name selector member named legal =>
        have valid := pool.field_valid desc field member
        have ends := fieldSelectorEnd_append named valid legal.starts
        refine ⟨field, findField_append member named legal.starts, ?_, ?_⟩
        · rw [referenceText, ends, List.take_left]
          exact named
        · rw [selectorText_append named valid legal.starts]
          exact legal
  · intro grammar
    rcases grammar with ⟨field, found, named, legal⟩
    have whole := GrammarPart.mk (findField_mem found) named legal
    rw [referenceText_append_selectorText] at whole
    exact whole

theorem narrowed_of_lt {number : Nat} (bound : number < 2 ^ 31) :
    narrowed number = number := by
  rw [narrowed, Int.min_eq_right (by omega), toInt_of_lt bound]

theorem namedBy_iff_exactNumber (found : findField pool desc part = .ok field) :
    field.NamedBy (referenceText part) ↔ ExactNumber part := by
  have valid := pool.field_valid desc field (findField_mem found)
  rcases reference_of_found found with ⟨notNumber, isName⟩ | ⟨isNumber, isDigits, denotes⟩
  · exact iff_of_true (.inl isName) (fun isNumber => absurd isNumber (by simp [notNumber]))
  · have notName : referenceText part ≠ field.name := by
      intro isName
      rcases valid.name_identifier.1 with ⟨first, rest, split, notDigit⟩
      have digit : IsDecimalDigit first = true := by
        apply List.mem_takeWhile_imp (l := part)
        rw [← isDigits, isName, split]
        exact List.mem_cons_self
      have bounds : 48 ≤ first ∧ first ≤ 57 := by simpa [IsDecimalDigit] using digit
      exact notDigit bounds
    constructor
    · intro named _
      rcases named with isName | ⟨_, _, isNumber⟩
      · exact absurd isName notName
      · rw [← isDigits]
        have bound := valid.number_lt
        omega
    · intro exactNumber
      have bound := exactNumber isNumber
      rw [← isDigits] at bound
      refine .inr ⟨?_, ?_, ?_⟩
      · rw [isDigits]
        cases part with
        | nil => cases isNumber
        | cons first rest =>
            have isDigit : IsDecimalDigit first = true := isNumber
            simp [isDigit]
      · intro char member
        rw [isDigits] at member
        exact List.mem_takeWhile_imp member
      · rw [← denotes, narrowed_of_lt bound]

theorem LegalSelector.unique {selector : StdString} {other : FieldDescriptor Message}
    (legal : LegalSelector pool field selector selected)
    (otherLegal : LegalSelector pool field selector other) : other = selected := by
  cases legal with
  | single notRepeated bare =>
      cases otherLegal with
      | single _ _ => rfl
      | element isRepeated _ _ _ => simp [notRepeated] at isRepeated
      | keys _ _ selects => simp [bare, keysText, literal] at selects
      | values _ _ selects _ _ => simp [bare, bracketed] at selects
  | element isRepeated notMap selects index =>
      cases otherLegal with
      | single notRepeated _ => rfl
      | element _ _ _ _ => rfl
      | keys isMap _ _ => simp [notMap] at isMap
      | values isMap _ _ _ _ => simp [notMap] at isMap
  | keys isMap mapEntry selects =>
      cases otherLegal with
      | single _ bare => simp [selects, keysText, literal] at bare
      | element _ notMap _ _ => simp [notMap] at isMap
      | keys _ otherEntry _ => exact (mapEntry.unique otherEntry).1
      | values _ _ otherSelects _ _ =>
          exact absurd (otherSelects.symm.trans selects) (bracketed_ne_keysText _)
  | values isMap mapEntry selects nonempty key =>
      cases otherLegal with
      | single _ bare => simp [selects, bracketed] at bare
      | element _ notMap _ _ => simp [notMap] at isMap
      | keys _ _ otherSelects =>
          exact absurd (selects.symm.trans otherSelects) (bracketed_ne_keysText _)
      | values _ otherEntry _ _ _ => exact (mapEntry.unique otherEntry).2

/-- What an accepted part selects by the grammar, if its field is named exactly. Only
after `|keys` does the compiler go on with another message. -/
theorem PartCompiles.grammar {chainPart : ChainPart} {next : DescPtrs Message}
    (compiles : PartCompiles uninitialised pool position desc part chainPart next) :
    ∃ field selected, findField pool desc part = .ok field ∧
      LegalSelector pool field (selectorText part) selected ∧
      (selectorText part = keysText → selected.type.MapKey) ∧
      (selectorText part ≠ keysText →
        next.desc = if selected.type = .message then selected.messageType else none) := by
  cases compiles with
  | single found notRepeated bare =>
      refine ⟨_, _, found, .single notRepeated bare, ?_, fun _ => rfl⟩
      simp [bare, keysText, literal]
  | @element field inner index found isRepeated notMap selects nonempty parsed =>
      have literal : inner = star ∨ ∃ value, DenotesInteger inner value := by
        rcases denotes_of_parseIndex parsed with ⟨isStar, _⟩ | ⟨value, denotes, _⟩
        · exact .inl isStar
        · exact .inr ⟨value, denotes⟩
      refine ⟨_, _, found, .element isRepeated notMap selects literal, ?_, fun _ => rfl⟩
      exact fun isKeys => absurd (selects.symm.trans isKeys) (bracketed_ne_keysText _)
  | keys mapField selects =>
      refine ⟨_, _, mapField.found, .keys mapField.isMap mapField.entry selects, ?_, ?_⟩
      · exact fun _ => mapField.keyType
      · exact fun notKeys => absurd selects notKeys
  | values mapField selects =>
      refine ⟨_, _, mapField.found,
        .values mapField.isMap mapField.entry selects (by decide) (.inl rfl), ?_, fun _ => rfl⟩
      exact fun isKeys => absurd (selects.symm.trans isKeys) (bracketed_ne_keysText _)
  | lookup mapField selects nonempty notStar parsed =>
      refine ⟨_, _, mapField.found, .values mapField.isMap mapField.entry selects nonempty
        (.inr (keyText_of_parseMapKey parsed).1), ?_, fun _ => rfl⟩
      exact fun isKeys => absurd (selects.symm.trans isKeys) (bracketed_ne_keysText _)

/-- Parts that compile are as the grammar says under the three conditions, by induction on
the parts. -/
theorem PathCompiles.grammarParts_iff {descPtrs final : DescPtrs Message}
    {texts : List StdString} {parts : List ChainPart} {trailingDot : Bool}
    (compiles : PathCompiles uninitialised pool position descPtrs texts parts trailingDot
      final)
    {desc : Message} (isDesc : ∀ other, descPtrs.desc = some other → other = desc) :
    GrammarParts pool desc texts ↔
      trailingDot = false ∧ (∀ text ∈ texts.dropLast, selectorText text ≠ keysText) ∧
        ∀ text ∈ texts, ExactNumber text := by
  induction compiles generalizing desc with
  | trailingDot =>
      refine iff_of_false ?_ (by simp)
      intro grammar
      cases grammar with
      | last nonempty _ => exact nonempty rfl
      | cons _ _ _ rest => cases rest
  | @last position descPtrs next other text chainPart hasDesc nonempty compiles =>
      have same := isDesc other hasDesc
      subst same
      rcases compiles.grammar with ⟨field, selected, found, legal, _, _⟩
      have named := namedBy_iff_exactNumber found
      constructor
      · intro grammar
        cases grammar with
        | last _ grammarPart =>
            rcases grammarPart_iff.mp grammarPart with ⟨field', found', named', _⟩
            rw [found, Except.ok.injEq] at found'
            subst found'
            simpa using named.mp named'
        | cons _ _ _ rest => cases rest
      · intro ordinary
        have exactNumber := ordinary.2.2 text List.mem_cons_self
        exact .last nonempty (grammarPart_iff.mpr ⟨field, found, named.mpr exactNumber, legal⟩)
  | @cons position descPtrs next final other text chainPart texts parts trailingDot hasDesc
      nonempty compiles rest induction =>
      have same := isDesc other hasDesc
      subst same
      rcases compiles.grammar with ⟨field, selected, found, legal, keys, leaves⟩
      have named := namedBy_iff_exactNumber found
      have more : texts ≠ [] := by
        rintro rfl
        cases rest
      rw [List.dropLast_cons_of_ne_nil more]
      constructor
      · intro grammar
        cases grammar with
        | last _ _ => exact absurd rfl more
        | @cons _ nextDesc _ _ otherSelected _ grammarPart isMessage grammarRest =>
            rcases grammarPart_iff.mp grammarPart with ⟨field', found', named', legal'⟩
            rw [found, Except.ok.injEq] at found'
            subst found'
            have selectedSame := legal.unique legal'
            subst selectedSame
            have notKeys : selectorText text ≠ keysText :=
              fun isKeys => (keys isKeys).ne.1 isMessage.1
            have isNext : ∀ nextOther, next.desc = some nextOther → nextOther = nextDesc := by
              intro nextOther isOther
              rw [leaves notKeys, if_pos isMessage.1, isMessage.2, Option.some.injEq] at isOther
              exact isOther.symm
            have follows := (induction isNext).mp grammarRest
            refine ⟨follows.1, ?_, ?_⟩
            · exact List.forall_mem_cons.mpr ⟨notKeys, follows.2.1⟩
            · exact List.forall_mem_cons.mpr ⟨named.mp named', follows.2.2⟩
      · intro ordinary
        rcases ordinary with ⟨noDot, endsAfterKeys, exactNumbers⟩
        rcases List.forall_mem_cons.mp endsAfterKeys with ⟨notKeys, endsAfterKeys⟩
        rcases List.forall_mem_cons.mp exactNumbers with ⟨exactNumber, exactNumbers⟩
        have hasNext : ∃ nextDesc, next.desc = some nextDesc := by
          cases rest with
          | trailingDot => cases noDot
          | last hasDesc _ _ => exact ⟨_, hasDesc⟩
          | cons hasDesc _ _ _ => exact ⟨_, hasDesc⟩
        rcases hasNext with ⟨nextDesc, isNext⟩
        have isMessage : selected.Yields (.message nextDesc) := by
          rw [leaves notKeys] at isNext
          split at isNext
          · exact ⟨‹_›, isNext⟩
          · cases isNext
        have isOnly : ∀ nextOther, next.desc = some nextOther → nextOther = nextDesc := by
          intro nextOther isOther
          rw [isNext, Option.some.injEq] at isOther
          exact isOther.symm
        exact GrammarParts.cons nonempty
          (grammarPart_iff.mpr ⟨field, found, named.mpr exactNumber, legal⟩) isMessage
          ((induction isOnly).mpr ⟨noDot, endsAfterKeys, exactNumbers⟩)

end

/-! ## Queries -/

/-- The path of an accepted query is well typed by the grammar exactly if it is
ordinary. -/
theorem acceptedPath_grammar_iff {descDb : DescDb Message} {uninitialised : Uninitialised}
    {text : StdString} {limit : Option Nat} {query : QueryImpl}
    (accepted : compileQuery descDb uninitialised text limit = .ok query) :
    ∃ descSet desc path, resolveQuery descDb text = .ok (descSet, desc, path) ∧
      (GrammarPath descSet.pool desc path ↔ OrdinaryPath path) := by
  rcases compileQuery_eq_ok_iff.mp accepted with
    ⟨descSet, desc, path, parts, last, final, resolved, chain, _⟩
  refine ⟨descSet, desc, path, resolved, ?_⟩
  rcases chain.compiles with ⟨isEmpty, _⟩ | ⟨nonempty, compiles⟩
  · subst isEmpty
    refine iff_of_true (.inl rfl) ⟨nofun, nofun, ?_⟩
    intro part member
    rw [List.mem_singleton.mp member]
    exact nofun
  · have trailing := compiles.trailingDot_iff
    rw [getLast?_splitOn_eq_some_nil_iff] at trailing
    have isRoot : ∀ other, (rootPtrs desc).desc = some other → other = desc :=
      fun other isOther => (Option.some.inj isOther).symm
    have grammar := compiles.grammarParts_iff isRoot
    constructor
    · intro grammarPath
      rcases grammarPath with isEmpty | grammarParts
      · exact absurd isEmpty nonempty
      · rcases grammar.mp grammarParts with ⟨noDot, endsAfterKeys, exactNumbers⟩
        have noTrailingDot : path.getLast? ≠ some '.'.toUInt8 := by
          intro endsInDot
          rw [trailing.mpr (.inr endsInDot)] at noDot
          cases noDot
        exact ⟨noTrailingDot, endsAfterKeys, exactNumbers⟩
    · intro ordinary
      have noDot : last.trailingDot = false := by
        rw [← Bool.not_eq_true, trailing]
        intro endsInDot
        rcases endsInDot with isEmpty | endsInDot
        · exact nonempty isEmpty
        · exact ordinary.noTrailingDot endsInDot
      exact .inr (grammar.mpr ⟨noDot, ordinary.endsAfterKeys, ordinary.exactNumbers⟩)

/-- `scalars.bool_field` is accepted and ordinary. -/
theorem acceptedPath_grammar_iff_boolField :
    ∃ descSet desc path,
      resolveQuery testDb (literal "pgpb.test.ExampleMessage:scalars.bool_field") =
          .ok (descSet, desc, path) ∧
        (GrammarPath descSet.pool desc path ↔ OrdinaryPath path) :=
  acceptedPath_grammar_iff
    (show compileQuery testDb zeroMemory
      (literal "pgpb.test.ExampleMessage:scalars.bool_field") none =
        .ok (testQuery .exampleMessage "scalars.bool_field") from rfl)

theorem GrammarParts.nonempty {pool : DescriptorPool Message} {desc : Message}
    {texts : List StdString} (grammar : GrammarParts pool desc texts) : [] ∉ texts := by
  induction grammar with
  | last nonempty _ => exact fun member => nonempty (List.mem_singleton.mp member).symm
  | cons nonempty _ _ _ induction =>
      intro member
      rcases List.mem_cons.mp member with isFirst | later
      · exact nonempty isFirst.symm
      · exact induction later

/-- A dot after a scalar field is accepted. -/
theorem trailingDot_accepted :
    (∃ query, compileQuery testDb zeroMemory
        (literal "pgpb.test.ExampleMessage:scalars.bool_field.") none = .ok query) ∧
      resolveQuery testDb (literal "pgpb.test.ExampleMessage:scalars.bool_field.") =
        .ok (testSet, .exampleMessage, literal "scalars.bool_field.") ∧
      ¬ GrammarPath testPool .exampleMessage (literal "scalars.bool_field.") := by
  apply And.intro ⟨_, rfl⟩
  apply And.intro rfl
  intro grammarPath
  rcases grammarPath with isEmpty | grammarParts
  · exact absurd isEmpty (by decide)
  · exact grammarParts.nonempty (by decide)

end PostgresProtobuf
