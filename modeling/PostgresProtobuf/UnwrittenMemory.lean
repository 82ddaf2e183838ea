import PostgresProtobuf.PathEvaluation
import PostgresProtobuf.Composition
import Mathlib.Data.UInt

/-! # Unwritten memory

The wanted keys that the compiler builds, the locals of the scan and the buffers of a new
map filter start with whatever the memory holds. Where a run never lets that decide, its
outcome is the same over any memory. -/

namespace PostgresProtobuf

open Foundation

variable {Message : Type}

/-! ## Verdicts -/

inductive SameVerdict {Result Other : Type} (Related : Result → Other → Prop) :
    Except Exception Result → Except Exception Other → Prop
  | accepted {result : Result} {other : Other} (related : Related result other) :
      SameVerdict Related (.ok result) (.ok other)
  | rejected (exception : Exception) : SameVerdict Related (.error exception) (.error exception)

namespace SameVerdict

variable {Result Other : Type} {Related : Result → Other → Prop}
variable {verdict : Except Exception Result} {otherVerdict : Except Exception Other}

theorem refl {Related : Result → Result → Prop} (related : ∀ result, Related result result)
    (verdict : Except Exception Result) : SameVerdict Related verdict verdict := by
  cases verdict with
  | error exception => exact .rejected exception
  | ok result => exact .accepted (related result)

theorem bind {Last OtherLast : Type} {RelatedLast : Last → OtherLast → Prop}
    (same : SameVerdict Related verdict otherVerdict)
    {next : Result → Except Exception Last} {otherNext : Other → Except Exception OtherLast}
    (follows : ∀ result other, Related result other →
      SameVerdict RelatedLast (next result) (otherNext other)) :
    SameVerdict RelatedLast (verdict >>= next) (otherVerdict >>= otherNext) := by
  cases same with
  | accepted related => exact follows _ _ related
  | rejected exception => exact .rejected exception

theorem map {Last OtherLast : Type} {RelatedLast : Last → OtherLast → Prop}
    (same : SameVerdict Related verdict otherVerdict) {next : Result → Last}
    {otherNext : Other → OtherLast}
    (follows : ∀ result other, Related result other →
      RelatedLast (next result) (otherNext other)) :
    SameVerdict RelatedLast (verdict.map next) (otherVerdict.map otherNext) := by
  cases same with
  | accepted related => exact .accepted (follows _ _ related)
  | rejected exception => exact .rejected exception

theorem guarded {test : Prop} [Decidable test] {exception : Exception}
    {skipped : PUnit → Except Exception Result} {otherSkipped : PUnit → Except Exception Other}
    (same : SameVerdict Related verdict otherVerdict) :
    SameVerdict Related
      (if test then (throw exception : Except Exception PUnit) >>= skipped else verdict)
      (if test then (throw exception : Except Exception PUnit) >>= otherSkipped
        else otherVerdict) := by
  by_cases fails : test
  · rw [if_pos fails, if_pos fails]
    exact .rejected exception
  · rw [if_neg fails, if_neg fails]
    exact same

end SameVerdict

/-! ## Wanted keys over other memory -/

structure KeysAlike (keyType : FieldType) (wanted other : FieldInfo) : Prop where
  number : wanted.number = other.number
  wireType : wanted.wireType = other.wireType
  low : wanted.value.asUInt32 = other.value.asUInt32
  test : Setting.halfWritten keyType = false →
    ∀ field : FieldInfo, field.valueEquals wanted = field.valueEquals other

theorem keysAlike_of_low {keyType : FieldType} {wireType : Nat} {value other : FieldInfo.Value}
    (compares : wireType = 2 ∨ wireType = 5) (low : value.asUInt32 = other.asUInt32) :
    KeysAlike keyType ⟨1, wireType, value⟩ ⟨1, wireType, other⟩ where
  number := rfl
  wireType := rfl
  low := low
  test _ field := by
    unfold FieldInfo.valueEquals
    by_cases same : field.wireType = wireType
    · rcases compares with rfl | rfl <;> simp [same, FieldInfo.Value.asSize, low]
    · simp [same]

theorem keysAlike_of_halfWritten {keyType : FieldType} {wireType : Nat}
    {value other : FieldInfo.Value} (half : Setting.halfWritten keyType = true)
    (low : value.asUInt32 = other.asUInt32) :
    KeysAlike keyType ⟨1, wireType, value⟩ ⟨1, wireType, other⟩ where
  number := rfl
  wireType := rfl
  low := low
  test whole := by simp [half] at whole

theorem keysAlike_refl (keyType : FieldType) (wanted : FieldInfo) :
    KeysAlike keyType wanted wanted :=
  ⟨rfl, rfl, rfl, fun _ _ => rfl⟩

theorem parseNumericMapKey_alike (type : FieldType) (text : StdString)
    (value other : FieldInfo.Value) :
    SameVerdict
      (fun wanted otherWanted => type.MapKey →
        KeysAlike type ⟨1, type.wireType, wanted⟩ ⟨1, type.wireType, otherWanted⟩)
      (parseNumericMapKey text type value) (parseNumericMapKey text type other) := by
  have signed : SameVerdict Eq (parseSigned text) (parseSigned text) := .refl (fun _ => rfl) _
  have unsigned : SameVerdict Eq (parseUnsigned text) (parseUnsigned text) :=
    .refl (fun _ => rfl) _
  cases type with
  | int64 | sfixed64 | sint64 => exact signed.map fun _ _ same _ => same ▸ keysAlike_refl _ _
  | uint64 | fixed64 => exact unsigned.map fun _ _ same _ => same ▸ keysAlike_refl _ _
  | int32 | sint32 =>
      exact signed.map fun _ _ same _ => same ▸ keysAlike_of_halfWritten rfl (by simp)
  | uint32 =>
      exact unsigned.map fun _ _ same _ => same ▸ keysAlike_of_halfWritten rfl (by simp)
  | sfixed32 => exact signed.map fun _ _ same _ => same ▸ keysAlike_of_low (.inr rfl) (by simp)
  | fixed32 =>
      exact unsigned.map fun _ _ same _ => same ▸ keysAlike_of_low (.inr rfl) (by simp)
  | bool =>
      unfold parseNumericMapKey
      by_cases isTrue : text = literal "true"
      · rw [if_pos isTrue, if_pos isTrue]
        exact .accepted fun _ => keysAlike_of_halfWritten rfl (by simp)
      · rw [if_neg isTrue, if_neg isTrue]
        by_cases isFalse : text = literal "false"
        · rw [if_pos isFalse, if_pos isFalse]
          exact .accepted fun _ => keysAlike_of_halfWritten rfl (by simp)
        · rw [if_neg isFalse, if_neg isFalse]
          exact .rejected _
  | enum => exact signed.map fun _ _ _ mapKey => mapKey.elim
  | _ => exact .rejected _

theorem parseMapKey_alike (type : FieldType) (text : StdString) (bits others : UInt64) :
    SameVerdict
      (fun wanted other =>
        (type.MapKey → KeysAlike type wanted.1 other.1) ∧ wanted.2 = other.2)
      (parseMapKey text type bits) (parseMapKey text type others) := by
  unfold parseMapKey
  by_cases isString : type = .string
  · subst isString
    have low : ∀ size : Int, (FieldInfo.Value.setSize ⟨bits⟩ size).asUInt32 =
        (FieldInfo.Value.setSize ⟨others⟩ size).asUInt32 := by
      simp [FieldInfo.Value.setSize]
    exact .accepted ⟨fun _ => keysAlike_of_low (.inl rfl) (low _), rfl⟩
  · rw [if_neg isString, if_neg isString]
    exact (parseNumericMapKey_alike type text ⟨bits⟩ ⟨others⟩).map fun _ _ alike => ⟨alike, rfl⟩

/-! ## Compiling over other memory -/

section

variable (pool : DescriptorPool Message) (uninitialised other : Uninitialised)

def SameShape (compiled others : DescPtrs Message × List ChainVisitor) : Prop :=
  compiled.1 = others.1 ∧ compiled.2.length = others.2.length

theorem compileMapSelector_verdict (position : Nat) (keysSelector : Bool)
    (filterStr : StdString) (descPtrs : DescPtrs Message) :
    SameVerdict (fun compiled others => compiled.1 = others.1)
      (compileMapSelector pool uninitialised position keysSelector filterStr descPtrs)
      (compileMapSelector pool other position keysSelector filterStr descPtrs) := by
  have same : ∀ verdict : Except Exception (DescPtrs Message × ChainVisitor),
      SameVerdict (fun compiled others => compiled.1 = others.1) verdict verdict :=
    .refl fun _ => rfl
  unfold compileMapSelector
  split
  · exact same _
  · split
    · split
      · exact same _
      · simp only
        split
        · exact same _
        · exact (parseMapKey_alike _ filterStr _ _).map fun _ _ _ => rfl
    · exact same _

theorem compileQueryPart_verdict (position : Nat) (part : StdString)
    (descPtrs : DescPtrs Message) :
    SameVerdict SameShape (compileQueryPart pool uninitialised position part descPtrs)
      (compileQueryPart pool other position part descPtrs) := by
  have same : ∀ verdict : Except Exception (DescPtrs Message × List ChainVisitor),
      SameVerdict SameShape verdict verdict := .refl fun _ => ⟨rfl, rfl⟩
  unfold compileQueryPart
  cases descPtrs.desc with
  | none => exact same _
  | some desc =>
      apply SameVerdict.guarded
      cases findField pool desc part with
      | error exception => exact .rejected exception
      | ok field =>
          apply SameVerdict.guarded
          by_cases single : (!field.isRepeated) = true
          · simp only [single, if_true]
            exact same _
          · simp only [single]
            apply SameVerdict.guarded
            apply SameVerdict.guarded
            apply SameVerdict.guarded
            by_cases isMap : field.isMap = true
            · simp only [isMap, if_true]
              apply SameVerdict.bind (compileMapSelector_verdict pool uninitialised other _ _ _ _)
              intro compiled others equal
              exact .accepted ⟨equal, rfl⟩
            · rw [if_neg isMap, if_neg isMap]
              exact same _

theorem compilePath_verdict (path partBuf : StdString) (descPtrs : DescPtrs Message)
    {visitors others : List ChainVisitor} (length : visitors.length = others.length) :
    SameVerdict SameShape (compilePath pool uninitialised path partBuf descPtrs visitors)
      (compilePath pool other path partBuf descPtrs others) := by
  induction path generalizing partBuf descPtrs visitors others with
  | nil =>
      unfold compilePath
      by_cases empty : partBuf.isEmpty = true
      · rw [if_pos empty, if_pos empty]
        exact .accepted ⟨rfl, length⟩
      · rw [if_neg empty, if_neg empty, length]
        apply (compileQueryPart_verdict pool uninitialised other _ partBuf descPtrs).bind
        rintro ⟨next, compiled⟩ ⟨_, otherCompiled⟩ ⟨rfl, sameLength⟩
        exact .accepted ⟨rfl, by simp only [List.length_append, length, sameLength]⟩
  | cons char path induction =>
      unfold compilePath
      by_cases dot : char = '.'.toUInt8
      · rw [if_pos dot, if_pos dot, length]
        apply (compileQueryPart_verdict pool uninitialised other _ partBuf descPtrs).bind
        rintro ⟨next, compiled⟩ ⟨_, otherCompiled⟩ ⟨rfl, sameLength⟩
        exact induction [] next (by simp only [List.length_append, length, sameLength])
      · rw [if_neg dot, if_neg dot]
        exact induction _ descPtrs length

end

theorem compileQuery_verdict (descDb : DescDb Message) (uninitialised other : Uninitialised)
    (text : StdString) (limit : Option Nat) :
    SameVerdict (fun _ _ => True) (compileQuery descDb uninitialised text limit)
      (compileQuery descDb other text limit) := by
  unfold compileQuery
  cases resolveQuery descDb text with
  | error exception => exact .rejected exception
  | ok resolved =>
      rcases resolved with ⟨descSet, desc, path⟩
      simp only [compileFrom]
      apply (compilePath_verdict descSet.pool uninitialised other path [] _ rfl).bind
      rintro ⟨final, visitors⟩ ⟨_, others⟩ ⟨rfl, _⟩
      cases Emitter.create descSet.pool final limit with
      | error exception => exact .rejected exception
      | ok emitter => exact .accepted trivial

/-! ## Chains over other memory -/

inductive MapPartsAlike : MapPart → MapPart → Prop
  | same (map : MapPart) : MapPartsAlike map map
  | lookup {keyType valueType : FieldType} {wanted other : FieldInfo} (contents : StdString)
      (alike : KeysAlike keyType wanted other) :
      MapPartsAlike (.lookup keyType wanted contents valueType)
        (.lookup keyType other contents valueType)

structure PartsAlike (part other : ChainPart) : Prop where
  wantedField : part.wantedField = other.wantedField
  type : part.type = other.type
  isPacked : part.isPacked = other.isPacked
  wantedIndex : part.wantedIndex = other.wantedIndex
  map : MapPartsAlike part.map other.map

theorem partsAlike_refl (part : ChainPart) : PartsAlike part part :=
  ⟨rfl, rfl, rfl, rfl, .same _⟩

theorem MapPartsAlike.width {map other : MapPart} (alike : MapPartsAlike map other) :
    Setting.mapWidth map = Setting.mapWidth other := by
  cases alike <;> rfl

section

variable {pool : DescriptorPool Message} {uninitialised : Uninitialised}

theorem PartCompiles.overMemory {position : Nat} {desc : Message} {text : StdString}
    {part : ChainPart} {next : DescPtrs Message}
    (compiles : PartCompiles uninitialised pool position desc text part next)
    (other : Uninitialised) :
    ∃ otherPart, PartCompiles other pool position desc text otherPart next ∧
      PartsAlike part otherPart := by
  cases compiles with
  | single found notRepeated bare =>
      exact ⟨_, .single found notRepeated bare, partsAlike_refl _⟩
  | element found isRepeated notMap selects nonempty parsed =>
      exact ⟨_, .element found isRepeated notMap selects nonempty parsed, partsAlike_refl _⟩
  | keys mapField selects => exact ⟨_, .keys mapField selects, partsAlike_refl _⟩
  | values mapField selects => exact ⟨_, .values mapField selects, partsAlike_refl _⟩
  | @lookup field keyField valueField inner wanted mapField selects nonempty notStar parsed =>
      have verdict := parseMapKey_alike keyField.type inner
        (uninitialised.wantedKey (position + 1)) (other.wantedKey (position + 1))
      rw [parsed] at verdict
      generalize otherParsed : parseMapKey inner keyField.type
        (other.wantedKey (position + 1)) = otherVerdict at verdict
      cases verdict with
      | accepted related =>
          rcases related with ⟨alike, contents⟩
          refine ⟨_, .lookup mapField selects nonempty notStar otherParsed, rfl, rfl, rfl, rfl, ?_⟩
          simp only [ChainPart.ofMap, contents]
          exact .lookup _ (alike mapField.keyType)

theorem PathCompiles.overMemory {position : Nat} {descPtrs final : DescPtrs Message}
    {texts : List StdString} {parts : List ChainPart} {trailingDot : Bool}
    (compiles : PathCompiles uninitialised pool position descPtrs texts parts trailingDot final)
    (other : Uninitialised) :
    ∃ others, PathCompiles other pool position descPtrs texts others trailingDot final ∧
      List.Forall₂ PartsAlike parts others := by
  induction compiles with
  | trailingDot => exact ⟨[], .trailingDot, .nil⟩
  | last hasDesc nonempty part =>
      rcases part.overMemory other with ⟨otherPart, otherCompiles, alike⟩
      exact ⟨[otherPart], .last hasDesc nonempty otherCompiles, .cons alike .nil⟩
  | cons hasDesc nonempty part _ induction =>
      rcases part.overMemory other with ⟨otherPart, otherCompiles, alike⟩
      rcases induction with ⟨others, rest, restAlike⟩
      rw [alike.map.width] at rest
      exact ⟨otherPart :: others, .cons hasDesc nonempty otherCompiles rest,
        .cons alike restAlike⟩

theorem ChainCompiles.overMemory {desc : Message} {path : StdString} {parts : List ChainPart}
    {last : ChainEnd} {final : DescPtrs Message}
    (chain : ChainCompiles uninitialised pool desc path parts last final)
    (other : Uninitialised) :
    ∃ others, ChainCompiles other pool desc path others last final ∧
      List.Forall₂ PartsAlike parts others := by
  rcases chain.compiles with ⟨isEmpty, rfl, noDot, isRoot⟩ | ⟨nonempty, compiles⟩
  · exact ⟨[], ⟨.inl ⟨isEmpty, rfl, noDot, isRoot⟩, chain.emits⟩, .nil⟩
  · rcases compiles.overMemory other with ⟨others, otherCompiles, alike⟩
    exact ⟨others, ⟨.inr ⟨nonempty, otherCompiles⟩, chain.emits⟩, alike⟩

end

/-! ## What chains do over other memory -/

namespace Setting

section

variable {State : Type} {setting : Setting State}
variable {keyType : FieldType} {wanted other : FieldInfo}

theorem keyMatches_alike (unsure : setting.knowledge.wantedKeys = false)
    (alike : KeysAlike keyType wanted other) (contents : StdString) (buffers : EntryBuffers) :
    setting.keyMatches keyType wanted contents buffers =
      setting.keyMatches keyType other contents buffers := by
  rcases wanted with ⟨number, wireType, value⟩
  rcases other with ⟨otherNumber, otherType, otherValue⟩
  obtain rfl : number = otherNumber := alike.number
  obtain rfl : wireType = otherType := alike.wireType
  have low : value.asUInt32 = otherValue.asUInt32 := alike.low
  unfold keyMatches
  by_cases sameContents : buffers.keyContents = contents
  · rw [if_pos sameContents, if_pos sameContents]
    cases buffers.key with
    | none => rfl
    | some key =>
        dsimp only
        by_cases whole : halfWritten keyType = false
        · rw [if_pos (.inr (.inl whole)), if_pos (.inr (.inl whole))]
          exact congrArg some (alike.test whole _)
        · -- The two keys differ in what the test ignores, if it can be told.
          have ignores : ∀ {first second : FieldInfo.Value}, first.asUInt32 = second.asUInt32 →
              (∀ other : FieldInfo.Value, other.asUInt32 = first.asUInt32 →
                (key.header 0).valueEquals ⟨number, wireType, other⟩ =
                  (key.header 0).valueEquals ⟨number, wireType, first⟩) →
              ∀ other : FieldInfo.Value, other.asUInt32 = second.asUInt32 →
                (key.header 0).valueEquals ⟨number, wireType, other⟩ =
                  (key.header 0).valueEquals ⟨number, wireType, second⟩ :=
            fun low always other same =>
              (always other (same.trans low.symm)).trans (always _ low.symm).symm
          by_cases ignored : ∀ other : FieldInfo.Value, other.asUInt32 = value.asUInt32 →
              (key.header 0).valueEquals ⟨number, wireType, other⟩ =
                (key.header 0).valueEquals ⟨number, wireType, value⟩
          · rw [if_pos (.inr (.inr ignored)), if_pos (.inr (.inr (ignores low ignored)))]
            exact congrArg some (ignored otherValue low.symm).symm
          · rw [if_neg, if_neg]
            · rintro (known | known | known)
              · simp [unsure] at known
              · exact whole known
              · exact ignored (ignores low.symm known)
            · rintro (known | known | known)
              · simp [unsure] at known
              · exact whole known
              · exact ignored known
  · rw [if_neg sameContents, if_neg sameContents]

variable (unsure : setting.knowledge.wantedKeys = false)
variable (alike : KeysAlike keyType wanted other) (contents : StdString)
variable (next : Delivery State)

include unsure alike

theorem leaveEntry_alike :
    setting.leaveEntry keyType wanted contents next =
      setting.leaveEntry keyType other contents next := by
  funext buffers
  simp only [leaveEntry, endEntry, keyMatches_alike unsure alike]

theorem lookupField_alike (budget : Nat) :
    setting.lookupField keyType wanted contents next budget =
      setting.lookupField keyType other contents next budget := by
  have sameEntry := leaveEntry_alike unsure alike contents next
  induction budget with
  | zero =>
      funext buffers field
      rcases field with ⟨number, value⟩
      cases value <;> simp only [lookupField, sameEntry]
  | succ budget induction =>
      funext buffers field
      rcases field with ⟨number, value⟩
      cases value <;> simp only [lookupField, sameEntry, induction]

theorem mapFilter_alike (position : Nat) :
    setting.mapFilter keyType wanted contents next position =
      setting.mapFilter keyType other contents next position := by
  have sameEntry := leaveEntry_alike unsure alike contents next
  have sameFields := funext (lookupField_alike unsure alike contents next)
  simp only [mapFilter, sameFields, sameEntry]

omit alike

theorem mapPart_alike {map otherMap : MapPart} (alike : MapPartsAlike map otherMap)
    (position : Nat) :
    setting.mapPart position map next = setting.mapPart position otherMap next := by
  cases alike with
  | same => rfl
  | lookup contents alike => exact mapFilter_alike unsure alike contents next position

/-- Chains do the same over any memory, by induction on the parts. -/
theorem chain_alike (last : ChainEnd) {parts others : List ChainPart}
    (alike : List.Forall₂ PartsAlike parts others) (position : Nat) :
    setting.chain last position parts = setting.chain last position others := by
  induction alike generalizing position with
  | nil => rfl
  | @cons part otherPart parts others samePart _ induction =>
      have sameSelector : ∀ next : Delivery State,
          selectField part next = selectField otherPart next := by
        rcases part with ⟨wantedField, type, isPacked, wantedIndex, map, _⟩
        rcases otherPart with ⟨otherField, otherType, otherPacked, otherIndex, otherMap, _⟩
        rcases samePart with ⟨rfl, rfl, rfl, rfl, _⟩
        exact fun _ => rfl
      simp only [chain]
      rw [induction, samePart.map.width, mapPart_alike unsure _ samePart.map, sameSelector]

end

end Setting

/-! ## Outcomes over other memory -/

namespace Setting

variable (utils : PostgresUtils)
variable (binaryToJsonString : StdString → Bytes → Option StdString) (recursionLimit : Nat)

theorem unknown_pristine_touch (position other : Nat) (state : Nat → Bool)
    (distinct : other ≠ position) :
    Knowledge.unknown.pristine other (Knowledge.unknown.touch position state) =
      Knowledge.unknown.pristine other state :=
  Knowledge.unknown.pristine_touch position other state distinct

/-- Nothing is known of the memory that is not written, and the texts of rows may be left
open. -/
def memoryless (textless : Bool) : Setting (Nat → Bool) where
  utils := utils
  binaryToJsonString := binaryToJsonString
  recursionLimit := recursionLimit
  knowledge :=
    { Knowledge.unknown with
      textless := textless
      pristine_touch := unknown_pristine_touch }

/-- How a chain ends on a message does not depend on memory that is not written: no row
and no end of a map entry reads it, or the chain throws whatever the texts of its rows. The
pristine map filters start with what they find in the memory. -/
def SettledFrom (pristine : Nat → Bool) (parts : List ChainPart) (last : ChainEnd)
    (message : Bytes) : Prop :=
  (∃ result, (memoryless utils binaryToJsonString recursionLimit false).outcome parts last
      pristine message = some result) ∨
    ∃ exception, (memoryless utils binaryToJsonString recursionLimit true).outcome parts last
      pristine message = some (.error exception)

def Settled (parts : List ChainPart) (last : ChainEnd) (message : Bytes) : Prop :=
  SettledFrom utils binaryToJsonString recursionLimit (fun _ => true) parts last message

end Setting

section

variable (Stream : Type) [CodedInputStream Stream]

def outcomeOver (descDb : DescDb Message) (utils : PostgresUtils) (text : StdString)
    (limit : Option Nat) (message : Bytea) (uninitialised : Uninitialised)
    (localBits : Nat → UInt64) : Except Exception (List StdString) := do
  let query ← compileQuery descDb uninitialised text limit
  query.run Stream utils localBits message

def Settled (descDb : DescDb Message) (utils : PostgresUtils) (text : StdString)
    (message : Bytea) : Prop :=
  ∀ query, compileQuery descDb (.constant 0) text none = .ok query →
    ∃ descSet desc path parts last final,
      resolveQuery descDb text = .ok (descSet, desc, path) ∧
      ChainCompiles (.constant 0) descSet.pool desc path parts last final ∧
      Setting.Settled utils descSet.binaryToJsonString (CodedInputStream.recursionLimit Stream)
        parts last message.data

variable {Stream} [LawfulCodedInputStream Stream]
variable {utils : PostgresUtils} {binaryToJsonString : StdString → Bytes → Option StdString}
variable {parts : List ChainPart} {last : ChainEnd}

/-- The buffers of the map filters that are not pristine are zero. -/
def Uninitialised.ZeroWhere (uninitialised : Uninitialised) (pristine : Nat → Bool) : Prop :=
  ∀ position, pristine position = false →
    uninitialised.bufferedKeyField position = FieldInfo.zero ∧
      uninitialised.bufferedValueField position = FieldInfo.zero

theorem run_eq_error_of_textless {uninitialised : Uninitialised} {localBits : Nat → UInt64}
    {pristine : Nat → Bool} (zero : uninitialised.ZeroWhere pristine) {message : Bytea}
    {exception : Exception}
    (concluded : (Setting.memoryless utils binaryToJsonString
      (CodedInputStream.recursionLimit Stream) true).outcome parts last pristine
      message.data = some (.error exception)) :
    QueryImpl.run Stream ⟨chainObjects uninitialised parts last, binaryToJsonString⟩ utils
      localBits message = .error exception := by
  have matching : Matches (Setting.memoryless utils binaryToJsonString
      (CodedInputStream.recursionLimit Stream) true)
      ⟨utils, binaryToJsonString, localBits⟩ Stream := ⟨rfl, rfl, nofun, rfl⟩
  have suits : uninitialised.Suits (Setting.memoryless utils binaryToJsonString
      (CodedInputStream.recursionLimit Stream) true).knowledge pristine := zero
  have realizes := QueryImpl.scan_realizes matching (restsAs_start suits parts last
    (message.data.length + 1) binaryToJsonString)
  unfold Setting.outcome conclude at concluded
  unfold Realizes at realizes
  rcases ends : (Setting.memoryless utils binaryToJsonString
      (CodedInputStream.recursionLimit Stream) true).runs parts last message.data
      pristine with ⟨events, (thrown | _) | next⟩
  · rw [ends] at realizes concluded
    rcases realizes with ⟨after, runs, _⟩
    have scans : QueryImpl.scan Stream ⟨chainObjects uninitialised parts last,
        binaryToJsonString⟩ utils localBits ⟨chainObjects uninitialised parts last, []⟩
        message = .error thrown after := runs
    rw [QueryImpl.run, QueryImpl.runOn, QueryImpl.memory, scans]
    cases thrown <;> cases concluded <;> rfl
  · simp [ends] at concluded
  · simp [ends] at concluded

theorem Setting.SettledFrom.run_eq {pristine : Nat → Bool} {message : Bytea}
    (settled : Setting.SettledFrom utils binaryToJsonString
      (CodedInputStream.recursionLimit Stream) pristine parts last message.data) :
    ∃ result, ∀ (uninitialised : Uninitialised) (others : List ChainPart)
      (localBits : Nat → UInt64), uninitialised.ZeroWhere pristine →
        List.Forall₂ PartsAlike parts others →
        QueryImpl.run Stream ⟨chainObjects uninitialised others last, binaryToJsonString⟩ utils
          localBits message = result := by
  have same : ∀ {others : List ChainPart}, List.Forall₂ PartsAlike parts others →
      ∀ textless, (memoryless utils binaryToJsonString (CodedInputStream.recursionLimit Stream)
        textless).outcome parts last pristine message.data =
        (memoryless utils binaryToJsonString (CodedInputStream.recursionLimit Stream)
        textless).outcome others last pristine message.data := by
    intro others alike textless
    simp only [outcome, runs]
    rw [chain_alike rfl last alike]
  rcases settled with ⟨result, concluded⟩ | ⟨exception, concluded⟩
  · refine ⟨result, fun uninitialised others localBits zero alike => ?_⟩
    have matching : Matches (memoryless utils binaryToJsonString
        (CodedInputStream.recursionLimit Stream) false)
        ⟨utils, binaryToJsonString, localBits⟩ Stream :=
      ⟨rfl, rfl, fun _ => by rintro _ ⟨⟩, rfl⟩
    have suits : uninitialised.Suits (memoryless utils binaryToJsonString
        (CodedInputStream.recursionLimit Stream) false).knowledge pristine := zero
    rw [same alike] at concluded
    exact PostgresProtobuf.run_eq rfl matching suits concluded
  · refine ⟨.error exception, fun uninitialised others localBits zero alike => ?_⟩
    rw [same alike] at concluded
    exact run_eq_error_of_textless zero concluded

variable (Stream)

theorem Settled.outcomeOver_eq {descDb : DescDb Message} {utils : PostgresUtils}
    {text : StdString} {message : Bytea} (settled : Settled Stream descDb utils text message)
    {query : QueryImpl} (accepted : compileQuery descDb (.constant 0) text none = .ok query)
    (limit : Option Nat) :
    ∃ result, ∀ (uninitialised : Uninitialised) (localBits : Nat → UInt64),
      outcomeOver Stream descDb utils text limit message uninitialised localBits = result := by
  rcases settled query accepted with
    ⟨descSet, desc, path, parts, last, final, resolved, chain, settled⟩
  rcases settled.run_eq with ⟨result, always⟩
  refine ⟨result, fun uninitialised localBits => ?_⟩
  rcases chain.overMemory uninitialised with ⟨others, otherChain, alike⟩
  have compiles : compileQuery descDb uninitialised text limit =
      .ok ⟨chainObjects uninitialised others last, descSet.binaryToJsonString⟩ :=
    compileQuery_eq_ok_iff.mpr ⟨_, _, _, _, _, _, resolved, otherChain, rfl⟩
  have zero : uninitialised.ZeroWhere fun _ => true := fun _ known => Bool.noConfusion known
  rw [outcomeOver, compiles]
  exact always uninitialised others localBits zero alike

/-- The outcome of a query that is rejected or settled is the same over any memory. -/
theorem outcomeOver_eq_of_settled {descDb : DescDb Message} {utils : PostgresUtils}
    {text : StdString} {message : Bytea} (settled : Settled Stream descDb utils text message)
    (limit : Option Nat) (uninitialised other : Uninitialised)
    (localBits otherBits : Nat → UInt64) :
    outcomeOver Stream descDb utils text limit message uninitialised localBits =
      outcomeOver Stream descDb utils text limit message other otherBits := by
  have verdict := compileQuery_verdict descDb uninitialised other text limit
  cases compiles : compileQuery descDb uninitialised text limit with
  | error exception =>
      rw [compiles] at verdict
      generalize otherCompiles : compileQuery descDb other text limit = otherVerdict at verdict
      cases verdict
      rw [outcomeOver, outcomeOver, compiles, otherCompiles]
      rfl
  | ok query =>
      rcases compileQuery_eq_ok_iff.mp compiles with
        ⟨descSet, desc, path, parts, last, final, resolved, chain, _⟩
      rcases chain.overMemory (.constant 0) with ⟨others, otherChain, _⟩
      have accepted : compileQuery descDb (.constant 0) text none =
          .ok ⟨chainObjects (.constant 0) others last, descSet.binaryToJsonString⟩ :=
        compileQuery_eq_ok_iff.mpr ⟨_, _, _, _, _, _, resolved, otherChain, rfl⟩
      rcases settled.outcomeOver_eq Stream accepted limit with ⟨result, always⟩
      rw [always, always]

omit [LawfulCodedInputStream Stream] in
theorem settled_of_typedPath {descDb : DescDb Message} {utils : PostgresUtils}
    {text path : StdString} {descSet : DescSet Message} {desc : Message} {steps : List Step}
    {target : Target Message} {message : Bytea}
    (resolved : resolveQuery descDb text = .ok (descSet, desc, path))
    (typed : TypedPath descSet.pool desc path steps target)
    (conforms : Conforms steps (CodedInputStream.recursionLimit Stream)
      (.ofPayload message.data))
    (unknownLast : UnknownLastAlong steps (.ofPayload message.data))
    (converts : ∀ selected ∈ evaluate steps (.ofPayload message.data),
      target.Converts descSet.pool descSet.binaryToJsonString selected) :
    Settled Stream descDb utils text message := by
  intro query _
  let host : Host Message := ⟨descSet, .constant 0, utils, fun _ => 0⟩
  rcases host.emits_typedPath Stream typed message conforms unknownLast converts with
    ⟨parts, last, final, chain, emits⟩
  rcases emits fun _ => true with ⟨events, next, ends, _⟩
  refine ⟨descSet, desc, path, parts, last, final, resolved, chain,
    .inl ⟨.ok (Event.rows events), congrArg conclude ends⟩⟩

/-- Looking up a string key, where the entry has a key and a value. -/
theorem outcomeOver_eq_innerRepeated :
    outcomeOver ArrayStream testDb testUtils
        (literal "pgpb.test.ExampleMessage:map_str2inner[k].inner_repeated[*]") none
        entryMessage (.constant 0) (fun _ => 0) =
      outcomeOver ArrayStream testDb testUtils
        (literal "pgpb.test.ExampleMessage:map_str2inner[k].inner_repeated[*]") none
        entryMessage (.constant (2 ^ 32)) (fun _ => 1) := by
  have resolved : resolveQuery testDb
      (literal "pgpb.test.ExampleMessage:map_str2inner[k].inner_repeated[*]") =
      .ok (testSet, .exampleMessage, literal "map_str2inner[k].inner_repeated[*]") := rfl
  have settled : Settled ArrayStream testDb testUtils
      (literal "pgpb.test.ExampleMessage:map_str2inner[k].inner_repeated[*]") entryMessage :=
    settled_of_typedPath ArrayStream resolved typedPath_innerRepeated conforms_entryMessage
      unknownLast_entryMessage fun _ _ => trivial
  exact outcomeOver_eq_of_settled ArrayStream settled none _ _ _ _

/-- What the upper half of a wanted `int32` key held decides whether its entry is found. -/
theorem outcomeOver_mapInt2str :
    ¬ ∀ (uninitialised other : Uninitialised) (localBits otherBits : Nat → UInt64),
      outcomeOver ArrayStream testDb testUtils
          (literal "pgpb.test.ExampleMessage:map_int2str[1]") none
          ⟨[0x42, 5, 0x08, 1, 0x12, 1, 0x61], by decide⟩ uninitialised localBits =
        outcomeOver ArrayStream testDb testUtils
          (literal "pgpb.test.ExampleMessage:map_int2str[1]") none
          ⟨[0x42, 5, 0x08, 1, 0x12, 1, 0x61], by decide⟩ other otherBits := by
  intro always
  have same := always (.constant 0) (.constant (2 ^ 32)) (fun _ => 0) fun _ => 0
  revert same
  decide +kernel

end

end PostgresProtobuf
