import PostgresProtobuf.Emissions
import PostgresProtobuf.TestSchema

/-! # Repeated scalars

Which elements of a repeated numeric, bool or enum field the paths `f[*]` and `f[i]`
emit, when the message encodes them as packed chunks and as single elements. -/

namespace PostgresProtobuf

open Foundation

variable {Message : Type}

/-! ## Encodings of a list -/

/-- The elements that one occurrence of a field encodes: those of a packed chunk, or one
that stands alone. -/
def elementsOf (wireType : Nat) (occurrence : WireValue) : List WireValue :=
  match occurrence with
  | .lengthDelimited _ payload => (readElements wireType payload).1
  | single => [single]

def EncodesElements (wireType : Nat) (occurrence : WireValue) : Prop :=
  match occurrence with
  | .lengthDelimited _ payload => (readElements wireType payload).2 = none
  | single => single.wireType = wireType

instance (wireType : Nat) :
    (occurrence : WireValue) → Decidable (EncodesElements wireType occurrence)
  | .lengthDelimited _ payload =>
      inferInstanceAs (Decidable ((readElements wireType payload).2 = none))
  | .varint _ => inferInstanceAs (Decidable (0 = wireType))
  | .fixed64 _ => inferInstanceAs (Decidable (1 = wireType))
  | .fixed32 _ => inferInstanceAs (Decidable (5 = wireType))

def ChunksLast (wireType : Nat) : List WireValue → Prop
  | [] => True
  | occurrence :: rest =>
      (occurrence.wireType = 2 → rest.flatMap (elementsOf wireType) = []) ∧
        ChunksLast wireType rest

/-- The elements that a field selector hands on, each with the index that it has there:
a packed chunk counts as one more element after its own. -/
def numbered (isPacked : Bool) (wireType : Nat) :
    (start : Nat) → List WireValue → List (WireValue × Nat)
  | _, [] => []
  | start, .lengthDelimited _ payload :: rest =>
      let elements := if isPacked then (readElements wireType payload).1 else []
      elements.zipIdx start ++ numbered isPacked wireType (start + elements.length + 1) rest
  | start, single :: rest => (single, start) :: numbered isPacked wireType (start + 1) rest

def wantsNumber (index : Option Int) (number : Nat) : Bool :=
  index.all fun wanted => (number : Int) == wanted

def pickNumbered (index : Option Int) (elements : List (WireValue × Nat)) : List WireValue :=
  (elements.filter fun element => wantsNumber index element.2).map Prod.fst

section

variable {index : Option Int}

@[simp] theorem pickNumbered_append (front back : List (WireValue × Nat)) :
    pickNumbered index (front ++ back) = pickNumbered index front ++ pickNumbered index back := by
  simp [pickNumbered]

theorem pickNumbered_cons (value : WireValue) (number : Nat)
    (rest : List (WireValue × Nat)) :
    pickNumbered index ((value, number) :: rest) =
      (if wantsNumber index number then [value] else []) ++ pickNumbered index rest := by
  cases wanted : wantsNumber index number <;> simp [pickNumbered, wanted]

theorem emits_iff_wantsNumber {part : ChainPart} {number : Int}
    (isWanted : number = part.wantedField) (start : Nat) :
    part.Emits number start ↔ wantsNumber part.wantedIndex start = true := by
  simp [ChainPart.Emits, wantsNumber, isWanted, Option.all_eq_true]

end

/-! ## Field selectors on scalars -/

section

variable {State : Type} {part : ChainPart} {next : Delivery State} {budget wireType : Nat}
variable {texts : WireValue → List (Option StdString)}

theorem Emits.turns_selectElement {number : Int} (wanted : number = part.wantedField)
    (elements : List WireValue) (start : Nat)
    (each : ∀ value ∈ elements, Emits (next.field budget value) (texts value)) :
    Emits (turns (Setting.selectElement part next budget number) (start : Int) elements).1
      ((pickNumbered part.wantedIndex (elements.zipIdx start)).flatMap texts) ∧
    (turns (Setting.selectElement part next budget number) (start : Int) elements).2 =
      (start + elements.length : Nat) := by
  induction elements generalizing start with
  | nil => exact ⟨one, rfl⟩
  | cons value elements induction =>
      have isNext : part.indexAfter number start = ((start + 1 : Nat) : Int) := by
        rw [ChainPart.indexAfter, if_pos wanted]
        rfl
      rcases induction (start + 1) fun other member =>
        each other (List.mem_cons_of_mem _ member) with ⟨emits, ends⟩
      rw [turns, Setting.selectElement, isNext, List.zipIdx_cons, pickNumbered_cons,
        List.flatMap_append]
      refine ⟨mul ?_ emits, ?_⟩
      · simp only [emits_iff_wantsNumber wanted]
        split
        · rw [List.flatMap_singleton]
          exact each value List.mem_cons_self
        · exact one
      · rw [ends, List.length_cons]
        congr 1
        omega

theorem Emits.turns_selectElement_foreign {number : Int} (foreign : number ≠ part.wantedField)
    (elements : List WireValue) (index : Int) :
    turns (Setting.selectElement part next budget number) index elements = (1, index) := by
  induction elements with
  | nil => rfl
  | cons value elements induction =>
      have skips : ¬ part.Emits number index := fun emits => foreign emits.1
      simp [turns, Setting.selectElement, if_neg skips, ChainPart.indexAfter, if_neg foreign,
        induction]

def ForeignDecodes (isPacked : Bool) (wireType : Nat) (number : Int)
    (fields : List WireField) : Prop :=
  isPacked = true → ∀ field ∈ fields, (field.number : Int) ≠ number →
    field.value.wireType = 2 → (readElements wireType field.value.payload).2 = none

/-- A delivery that takes the single values of a wire type, and skips a field that it is
handed. -/
structure TakesScalars (next : Delivery State) (type : FieldType) (budget wireType : Nat)
    (texts : WireValue → List (Option StdString)) : Prop where
  packed : Setting.packedWireType type = some wireType
  notMessage : type ≠ .message
  field : ∀ value : WireValue, value.wireType = wireType →
    Emits (next.field budget value) (texts value)
  handed : ∀ size payload, next.handed type size payload = 1

theorem selectPacked_eq (packed : Setting.packedWireType part.type = some wireType)
    (number index : Int) (payload : Bytes) :
    Setting.selectPacked part next budget number index payload =
      let scanned := turns (Setting.selectElement part next budget number) index
        (readElements wireType payload).1
      (scanned.1 * endOn (readElements wireType payload).2, scanned.2) := by
  rw [Setting.selectPacked, packed]

theorem readElements_wireType (wireType : Nat) (payload : Bytes) :
    ∀ value ∈ (readElements wireType payload).1, value.wireType = wireType :=
  Reader.forall_mem_readAll (readValue_shrinks wireType)
    (fun _ _ _ step => (readValue_eq_ok step).1) payload

def numberAfter (isPacked : Bool) (wireType : Nat) (start : Nat) (occurrence : WireValue) :
    Nat :=
  match occurrence with
  | .lengthDelimited _ payload =>
      start + (if isPacked then (readElements wireType payload).1 else []).length + 1
  | _ => start + 1

theorem numbered_cons (isPacked : Bool) (wireType start : Nat) (occurrence : WireValue)
    (rest : List WireValue) :
    numbered isPacked wireType start (occurrence :: rest) =
      numbered isPacked wireType start [occurrence] ++
        numbered isPacked wireType (numberAfter isPacked wireType start occurrence) rest := by
  cases occurrence <;> simp [numbered, numberAfter]

theorem Emits.selectField_wanted (takes : TakesScalars next part.type budget wireType texts)
    {field : WireField} (wanted : (field.number : Int) = part.wantedField)
    (encodes : EncodesElements wireType field.value) (start : Nat) :
    Emits (Setting.selectField part next budget (start : Int) field).1
        ((pickNumbered part.wantedIndex
          (numbered part.isPacked wireType start [field.value])).flatMap texts) ∧
      (Setting.selectField part next budget (start : Int) field).2 =
        (numberAfter part.isPacked wireType start field.value : Nat) := by
  have after : ∀ index : Int, part.indexAfter field.number index = index + 1 :=
    fun index => if_pos wanted
  have single : ∀ value : WireValue, value.wireType = wireType →
      Emits (if part.Emits field.number start then next.field budget value else 1)
        ((pickNumbered part.wantedIndex [(value, start)]).flatMap texts) := by
    intro value sameType
    rw [pickNumbered_cons]
    simp only [emits_iff_wantsNumber wanted]
    split
    · simpa [pickNumbered] using takes.field value sameType
    · exact one
  rcases field with ⟨number, value⟩
  cases value with
  | lengthDelimited size payload =>
      cases packed : part.isPacked with
      | false =>
          simp only [Setting.selectField, packed, Bool.false_eq_true, if_false, after,
            takes.notMessage, takes.handed, ite_self]
          exact ⟨one, rfl⟩
      | true =>
          have wholeChunk : (readElements wireType payload).2 = none := encodes
          have scanned := turns_selectElement wanted (readElements wireType payload).1 start
            fun value member =>
              takes.field value (readElements_wireType wireType payload value member)
          simp only [Setting.selectField, packed, if_true, selectPacked_eq takes.packed, after,
            wholeChunk, endOn, mul_one, scanned.2]
          refine ⟨?_, rfl⟩
          simpa [numbered] using scanned.1
  | _ =>
      refine ⟨single _ encodes, ?_⟩
      simp only [Setting.selectField, after]
      rfl

theorem selectField_foreign (packed : Setting.packedWireType part.type = some wireType)
    {field : WireField} (foreign : (field.number : Int) ≠ part.wantedField) (index : Int) :
    Setting.selectField part next budget index field =
      (if part.isPacked = true ∧ field.value.wireType = 2 then
          endOn (readElements wireType field.value.payload).2
        else 1, index) := by
  have skips : ¬ part.Emits field.number index := fun emits => foreign emits.1
  have after : part.indexAfter field.number index = index := if_neg foreign
  rcases field with ⟨number, value⟩
  cases value with
  | lengthDelimited size payload =>
      simp only [Setting.selectField, if_neg skips, after, selectPacked_eq packed,
        Emits.turns_selectElement_foreign foreign, one_mul, WireValue.wireType,
        WireValue.payload, and_true]
      split <;> rfl
  | _ => simp [Setting.selectField, if_neg skips, after, WireValue.wireType]

/-- A level under a selector of scalars, by induction on its fields. -/
theorem Emits.turns_selectScalars
    (takes : TakesScalars next part.type budget wireType texts) (fields : List WireField)
    (encodes : ∀ occurrence ∈ valuesOf part.wantedField fields,
      EncodesElements wireType occurrence)
    (decodes : ForeignDecodes part.isPacked wireType part.wantedField fields) (start : Nat) :
    Emits (turns (Setting.selectField part next budget) (start : Int) fields).1
      ((pickNumbered part.wantedIndex (numbered part.isPacked wireType start
        (valuesOf part.wantedField fields))).flatMap texts) := by
  induction fields generalizing start with
  | nil => exact one
  | cons field fields induction =>
      have decodesRest : ForeignDecodes part.isPacked wireType part.wantedField fields :=
        fun packed other member => decodes packed other (List.mem_cons_of_mem _ member)
      rw [turns]
      by_cases wanted : (field.number : Int) = part.wantedField
      · rw [valuesOf_cons_of_eq wanted] at encodes ⊢
        rcases selectField_wanted takes wanted (encodes _ List.mem_cons_self) start with
          ⟨emits, ends⟩
        rw [numbered_cons, pickNumbered_append, List.flatMap_append, ends]
        exact emits.mul (induction (fun other member =>
          encodes other (List.mem_cons_of_mem _ member)) decodesRest _)
      · rw [valuesOf_cons_of_ne wanted] at encodes ⊢
        have passes : (if part.isPacked = true ∧ field.value.wireType = 2 then
            endOn (readElements wireType field.value.payload).2
          else 1 : Activity State) = 1 := by
          split
          · rename_i foreign
            rw [decodes foreign.1 field List.mem_cons_self wanted foreign.2]
            rfl
          · rfl
        rw [selectField_foreign takes.packed wanted, passes, one_mul]
        exact induction encodes decodesRest start

theorem Fails.turns_selectScalars
    (takes : TakesScalars next part.type budget wireType texts) (fields : List WireField)
    (encodes : ∀ occurrence ∈ valuesOf part.wantedField fields,
      EncodesElements wireType occurrence)
    (undecodable : ¬ ForeignDecodes part.isPacked wireType part.wantedField fields)
    (start : Nat) :
    Fails (turns (Setting.selectField part next budget) (start : Int) fields).1 := by
  induction fields generalizing start with
  | nil => exact absurd (fun _ _ member => by simp at member) undecodable
  | cons field fields induction =>
      rw [turns]
      by_cases wanted : (field.number : Int) = part.wantedField
      · rw [valuesOf_cons_of_eq wanted] at encodes
        rcases Emits.selectField_wanted takes wanted (encodes _ List.mem_cons_self) start with
          ⟨emits, ends⟩
        rw [ends]
        refine .after emits (induction (fun other member =>
          encodes other (List.mem_cons_of_mem _ member)) (fun decodes => undecodable ?_) _)
        rintro packed other (_ | ⟨_, member⟩) foreign
        · exact absurd wanted foreign
        · exact decodes packed other member foreign
      · rw [valuesOf_cons_of_ne wanted] at encodes
        rw [selectField_foreign takes.packed wanted]
        by_cases packs : part.isPacked = true ∧ field.value.wireType = 2
        · rw [if_pos packs]
          cases ends : (readElements wireType field.value.payload).2 with
          | some fault => exact (raise ((framingException_malformed fault).reported)).mul _
          | none =>
              refine .after .one (induction encodes (fun decodes => undecodable ?_) _)
              rintro packed other (_ | ⟨_, member⟩) foreign isLengthDelimited
              · exact ends
              · exact decodes packed other member foreign isLengthDelimited
        · rw [if_neg packs]
          refine .after .one (induction encodes (fun decodes => undecodable ?_) _)
          rintro packed other (_ | ⟨_, member⟩) foreign isLengthDelimited
          · exact absurd ⟨packed, isLengthDelimited⟩ packs
          · exact decodes packed other member foreign isLengthDelimited

end

/-! ## Numbers and places -/

def FullyRead (isPacked : Bool) (wireType : Nat) (occurrences : List WireValue) : Prop :=
  isPacked = true ∨
    ∀ occurrence ∈ occurrences, occurrence.wireType = 2 → elementsOf wireType occurrence = []

section

variable {isPacked : Bool} {wireType : Nat}

theorem elementsOf_single {occurrence : WireValue} (single : occurrence.wireType ≠ 2) :
    elementsOf wireType occurrence = [occurrence] := by
  cases occurrence with
  | lengthDelimited size payload => exact absurd rfl single
  | _ => rfl

theorem numbered_single {occurrence : WireValue} (single : occurrence.wireType ≠ 2)
    (start : Nat) (rest : List WireValue) :
    numbered isPacked wireType start (occurrence :: rest) =
      (occurrence, start) :: numbered isPacked wireType (start + 1) rest := by
  cases occurrence with
  | lengthDelimited size payload => exact absurd rfl single
  | _ => rfl

theorem numbered_chunk {occurrence : WireValue} (chunk : occurrence.wireType = 2)
    {rest : List WireValue} (fully : FullyRead isPacked wireType (occurrence :: rest))
    (start : Nat) :
    numbered isPacked wireType start (occurrence :: rest) =
      (elementsOf wireType occurrence).zipIdx start ++
        numbered isPacked wireType (start + (elementsOf wireType occurrence).length + 1)
          rest := by
  cases occurrence with
  | lengthDelimited size payload =>
      rcases fully with packed | empty
      · simp only [numbered, packed, if_true]
        rfl
      · have noElements := empty _ List.mem_cons_self chunk
        simp only [elementsOf] at noElements
        cases isPacked <;> simp [numbered, elementsOf, noElements]
  | _ => simp [WireValue.wireType] at chunk

theorem FullyRead.tail {occurrence : WireValue} {rest : List WireValue}
    (fully : FullyRead isPacked wireType (occurrence :: rest)) :
    FullyRead isPacked wireType rest :=
  fully.imp_right fun empty other member => empty other (List.mem_cons_of_mem _ member)

theorem numbered_fst {occurrences : List WireValue}
    (fully : FullyRead isPacked wireType occurrences) (start : Nat) :
    (numbered isPacked wireType start occurrences).map Prod.fst =
      occurrences.flatMap (elementsOf wireType) := by
  induction occurrences generalizing start with
  | nil => rfl
  | cons occurrence rest induction =>
      rw [List.flatMap_cons]
      by_cases chunk : occurrence.wireType = 2
      · rw [numbered_chunk chunk fully, List.map_append, induction fully.tail,
          List.zipIdx_map_fst]
      · rw [numbered_single chunk, List.map_cons, induction fully.tail,
          elementsOf_single chunk]
        rfl

theorem numbered_unread_chunk {occurrence : WireValue} (chunk : occurrence.wireType = 2)
    (start : Nat) (rest : List WireValue) :
    numbered false wireType start (occurrence :: rest) =
      numbered false wireType (start + 1) rest := by
  cases occurrence with
  | lengthDelimited size payload => simp [numbered]
  | _ => simp [WireValue.wireType] at chunk

theorem numbered_length_le (occurrences : List WireValue) (start : Nat) :
    (numbered false wireType start occurrences).length ≤
      (occurrences.flatMap (elementsOf wireType)).length := by
  induction occurrences generalizing start with
  | nil => exact Nat.le_refl _
  | cons occurrence rest induction =>
      have others := induction (start + 1)
      rw [List.flatMap_cons, List.length_append]
      by_cases chunk : occurrence.wireType = 2
      · rw [numbered_unread_chunk chunk]
        omega
      · rw [numbered_single chunk, elementsOf_single chunk, List.length_singleton,
          List.length_cons]
        omega

theorem fullyRead_of_length {occurrences : List WireValue} (start : Nat)
    (same : (occurrences.flatMap (elementsOf wireType)).length ≤
      (numbered isPacked wireType start occurrences).length) :
    FullyRead isPacked wireType occurrences := by
  cases isPacked with
  | true => exact .inl rfl
  | false =>
      refine .inr ?_
      induction occurrences generalizing start with
      | nil => simp
      | cons occurrence rest induction =>
          have others : (numbered false wireType (start + 1) rest).length ≤
              (rest.flatMap (elementsOf wireType)).length := numbered_length_le rest (start + 1)
          rw [List.flatMap_cons, List.length_append] at same
          by_cases chunk : occurrence.wireType = 2
          · rw [numbered_unread_chunk chunk] at same
            rintro other (_ | ⟨_, member⟩) _
            · exact List.length_eq_zero_iff.mp (by omega)
            · exact induction (start + 1) (by omega) other member ‹_›
          · rw [numbered_single chunk, elementsOf_single chunk, List.length_singleton,
              List.length_cons] at same
            rintro other (_ | ⟨_, member⟩) isChunk
            · exact absurd isChunk chunk
            · exact induction (start + 1) (by omega) other member isChunk

theorem chunksLast_of_no_elements {occurrences : List WireValue}
    (none : occurrences.flatMap (elementsOf wireType) = []) :
    ChunksLast wireType occurrences := by
  induction occurrences with
  | nil => trivial
  | cons occurrence rest induction =>
      rw [List.flatMap_cons, List.append_eq_nil_iff] at none
      exact ⟨fun _ => none.2, induction none.2⟩

/-- Every element has its place as its number when no element comes after a chunk, by
induction on the occurrences. -/
theorem numbered_eq_zipIdx {occurrences : List WireValue}
    (fully : FullyRead isPacked wireType occurrences)
    (last : ChunksLast wireType occurrences) (start : Nat) :
    numbered isPacked wireType start occurrences =
      (occurrences.flatMap (elementsOf wireType)).zipIdx start := by
  induction occurrences generalizing start with
  | nil => rfl
  | cons occurrence rest induction =>
      by_cases chunk : occurrence.wireType = 2
      · have noRest := last.1 chunk
        have noNumbers : numbered isPacked wireType
            (start + (elementsOf wireType occurrence).length + 1) rest = [] := by
          rw [← List.map_eq_nil_iff (f := Prod.fst), numbered_fst fully.tail, noRest]
        rw [numbered_chunk chunk fully, noNumbers, List.append_nil, List.flatMap_cons, noRest,
          List.append_nil]
      · rw [numbered_single chunk, induction fully.tail last.2, List.flatMap_cons,
          elementsOf_single chunk]
        rfl

theorem numbered_ge {occurrences : List WireValue}
    (fully : FullyRead isPacked wireType occurrences) (start : Nat) :
    ∀ element ∈ numbered isPacked wireType start occurrences, start ≤ element.2 := by
  induction occurrences generalizing start with
  | nil => simp [numbered]
  | cons occurrence rest induction =>
      intro element member
      by_cases chunk : occurrence.wireType = 2
      · rw [numbered_chunk chunk fully] at member
        rcases List.mem_append.mp member with inChunk | later
        · exact List.le_snd_of_mem_zipIdx inChunk
        · have after := induction fully.tail _ element later
          omega
      · rw [numbered_single chunk] at member
        rcases List.mem_cons.mp member with rfl | later
        · exact Nat.le_refl _
        · have after := induction fully.tail _ element later
          omega

theorem pickNumbered_none (elements : List (WireValue × Nat)) :
    pickNumbered none elements = elements.map Prod.fst := by
  simp [pickNumbered, wantsNumber]

theorem pickNumbered_eq_nil {index : Int} {elements : List (WireValue × Nat)}
    (absent : ∀ element ∈ elements, (element.2 : Int) ≠ index) :
    pickNumbered (some index) elements = [] := by
  rw [pickNumbered, List.map_eq_nil_iff, List.filter_eq_nil_iff]
  intro element member
  simpa [wantsNumber] using absent element member

theorem pickNumbered_zipIdx (elements : List WireValue) (start index : Nat) :
    pickNumbered (some ((start + index : Nat) : Int)) (elements.zipIdx start) =
      elements[index]?.toList := by
  induction elements generalizing start index with
  | nil => rfl
  | cons element elements induction =>
      rw [List.zipIdx_cons, pickNumbered_cons]
      cases index with
      | zero =>
          have later : pickNumbered (some ((start : Nat) : Int)) (elements.zipIdx (start + 1)) =
              [] := by
            refine pickNumbered_eq_nil fun other member => ?_
            have above := List.le_snd_of_mem_zipIdx member
            omega
          simp [wantsNumber, later]
      | succ index =>
          have notFirst : wantsNumber (some ((start + (index + 1) : Nat) : Int)) start = false := by
            simp only [wantsNumber, Option.all_some, beq_eq_false_iff_ne]
            omega
          have shifted : start + (index + 1) = start + 1 + index := by omega
          rw [notFirst, shifted, induction]
          simp

/-- Where every place below the number of elements is the number of an element, no element
comes after a chunk. By induction on the occurrences. -/
theorem chunksLast_of_pick {occurrences : List WireValue}
    (fully : FullyRead isPacked wireType occurrences) (start : Nat)
    (found : ∀ index, start ≤ index →
      index < start + (occurrences.flatMap (elementsOf wireType)).length →
      pickNumbered (some (index : Int)) (numbered isPacked wireType start occurrences) ≠ []) :
    ChunksLast wireType occurrences := by
  induction occurrences generalizing start with
  | nil => trivial
  | cons occurrence rest induction =>
      rw [List.flatMap_cons, List.length_append] at found
      by_cases chunk : occurrence.wireType = 2
      · rw [numbered_chunk chunk fully] at found
        -- The number right after the chunk's own elements is skipped.
        have noRest : rest.flatMap (elementsOf wireType) = [] := by
          by_contra more
          have positive := List.length_pos_iff.mpr more
          refine found (start + (elementsOf wireType occurrence).length) (by omega) (by omega) ?_
          rw [pickNumbered_append, List.append_eq_nil_iff]
          refine ⟨pickNumbered_eq_nil fun element member => ?_,
            pickNumbered_eq_nil fun element member => ?_⟩
          · have below := List.snd_lt_add_of_mem_zipIdx member
            omega
          · have above := numbered_ge fully.tail _ element member
            omega
        exact ⟨fun _ => noRest, chunksLast_of_no_elements noRest⟩
      · refine ⟨fun isChunk => absurd isChunk chunk, induction fully.tail (start + 1) ?_⟩
        intro index above below
        rw [numbered_single chunk, elementsOf_single chunk, List.length_singleton] at found
        have notFirst : wantsNumber (some (index : Int)) start = false := by
          simp only [wantsNumber, Option.all_some, beq_eq_false_iff_ne]
          omega
        have picked := found index (by omega) (by omega)
        rwa [pickNumbered_cons, notFirst, if_neg (by simp), List.nil_append] at picked

end

/-! ## Indices -/

theorem parseIndex_of_natural {inner : StdString} {index : Nat}
    (denotes : DenotesInteger inner index) :
    parseIndex inner =
      if index < 2 ^ 63 then .ok (some (toInt index))
      else .error (numericKeyOutOfRange inner) := by
  rw [parseIndex_of_denotes denotes]
  by_cases inRange : index < 2 ^ 63
  · rw [if_pos inRange, if_pos (by omega)]
  · rw [if_neg inRange, if_neg (by omega)]

theorem pickNumbered_toInt (elements : List WireValue) (index : Nat) :
    pickNumbered (some (toInt index)) (elements.zipIdx 0) =
      if index % 2 ^ 32 < 2 ^ 31 then elements[index % 2 ^ 32]?.toList else [] := by
  split
  · rename_i small
    have reduced : toInt index = ((0 + index % 2 ^ 32 : Nat) : Int) := by
      rw [toInt, Int.bmod_def]
      split <;> omega
    rw [reduced, pickNumbered_zipIdx]
  · refine pickNumbered_eq_nil fun element _ => ?_
    rw [toInt, Int.bmod_def]
    split <;> omega

/-! ## Queries on repeated scalars -/

section

variable {Stream : Type} [CodedInputStream Stream] [LawfulCodedInputStream Stream]
variable {host : Host Message} {desc : Message} {field : FieldDescriptor Message}
variable {target : Target Message} {name : StdString}

def FieldDescriptor.elements (field : FieldDescriptor Message) (message : Bytea) :
    List WireValue :=
  (fieldValues field.number message.data).flatMap (elementsOf field.type.wireType)

/-- What `f[*]` and `f[i]` need to emit the elements that the message encodes. -/
structure ReadsElements (field : FieldDescriptor Message) (message : Bytea) : Prop where
  foreign : ForeignDecodes field.isPacked field.type.wireType field.number
    (readFields message.data).1
  chunks : FullyRead field.isPacked field.type.wireType
    (fieldValues field.number message.data)
  last : ChunksLast field.type.wireType (fieldValues field.number message.data)

theorem packedWireType_of_packable {type : FieldType} (packable : type.Packable) :
    Setting.packedWireType type = some type.wireType := by
  cases type <;> first | rfl | exact absurd packable (by decide)

theorem length_elements_lt (field : FieldDescriptor Message) (message : Bytea) :
    (field.elements message).length < 2 ^ 31 := by
  refine Nat.lt_of_le_of_lt (Nat.le_trans ?_ (readFields_width message.data)) message.size_lt
  rw [FieldDescriptor.elements, fieldValues]
  generalize (readFields message.data).1 = fields
  induction fields with
  | nil => exact Nat.le_refl _
  | cons first fields induction =>
      have width : (elementsOf field.type.wireType first.value).length ≤ first.value.width := by
        cases first.value with
        | lengthDelimited size payload => exact readElements_length _ _
        | _ => exact Nat.le_refl _
      rw [List.map_cons, List.sum_cons]
      by_cases wanted : (first.number : Int) = field.number
      · rw [valuesOf_cons_of_eq wanted, List.flatMap_cons, List.length_append]
        omega
      · rw [valuesOf_cons_of_ne wanted]
        omega

variable (member : field ∈ host.descSet.pool.fields desc) (isRepeated : field.isRepeated = true)
variable (packable : field.type.Packable) (yields : field.Yields target)
variable (named : field.NamedBy name)

include packable

theorem notMap_of_packable (valid : field.Valid) : field.isMap = false := by
  cases isMap : field.isMap with
  | false => rfl
  | true =>
      rw [(valid.map isMap).2] at packable
      exact absurd packable (by decide)

include yields

theorem takesScalars {setting : Setting State} {pool : DescriptorPool Message} {budget : Nat}
    (within : budget ≤ setting.recursionLimit) :
    TakesScalars (setting.emitter (target.kind pool)) field.type budget field.type.wireType
      fun value => [target.rendering pool setting.utils setting.binaryToJsonString value] where
  packed := packedWireType_of_packable packable
  notMessage := by
    intro isMessage
    rw [isMessage] at packable
    exact absurd packable (by decide)
  field value sameType := by
    have notLengthDelimited : value.wireType ≠ 2 := by
      rw [sameType]
      unfold FieldType.Packable at packable
      omega
    have fits : value.Fits := by
      cases value with
      | lengthDelimited size payload => exact absurd rfl notLengthDelimited
      | _ => trivial
    refine (setting.emitter_renders pool target yields.hasType).field (Nat.zero_le budget) within
      sameType fits trivial trivial fun selected _ => ?_
    cases target with
    | message desc =>
        rw [yields.1] at packable
        exact absurd packable (by decide)
    | _ => trivial
  handed size payload := by
    have skips : compositeFieldTreatmentForType field.type = .skip := by
      cases isType : field.type <;> rw [isType] at packable <;>
        first | rfl | exact absurd packable (by decide)
    simp only [Setting.emitter, skips]
    rfl

omit packable yields

include member isRepeated packable named in
theorem partCompiles_scalars {inner : StdString} (nonempty : inner ≠ []) {index : Option Int}
    (parsed : parseIndex inner = .ok index) (position : Nat) :
    PartCompiles host.uninitialised host.descSet.pool position desc (name ++ bracketed inner)
      (.plain field index) field.descPtrs := by
  have valid := host.descSet.pool.field_valid desc field member
  exact .element (findField_append member named (startsSelector_bracketed inner)) isRepeated
    (notMap_of_packable packable valid)
    (selectorText_append named valid (startsSelector_bracketed inner)) nonempty parsed

variable {message : Bytea}
variable (whole : (readFields message.data).2 = none)
variable (encodes : ∀ occurrence ∈ fieldValues field.number message.data,
  EncodesElements field.type.wireType occurrence)

include member isRepeated packable yields named whole encodes in
theorem returns_scalars {inner : StdString} (noDot : '.'.toUInt8 ∉ inner)
    (nonempty : inner ≠ []) {index : Option Int} (parsed : parseIndex inner = .ok index)
    (texts : List (Option StdString)) :
    host.Returns Stream desc (name ++ bracketed inner) message texts ↔
      ForeignDecodes field.isPacked field.type.wireType field.number
          (readFields message.data).1 ∧
        (pickNumbered index (numbered field.isPacked field.type.wireType 0
          (fieldValues field.number message.data))).map
            (target.rendering host.descSet.pool host.utils host.descSet.binaryToJsonString) =
          texts := by
  have chain := chainCompiles_single (by simp [bracketed]) (dot_not_mem_bracketed named (host.descSet.pool.field_valid desc field member) noDot)
    (partCompiles_scalars member isRepeated packable named nonempty parsed 1)
    (yields.leaves.create host.descSet.pool)
  obtain ⟨budget, limit⟩ : ∃ budget, CodedInputStream.recursionLimit Stream = budget + 1 :=
    ⟨_, (Nat.succ_pred_eq_of_pos LawfulCodedInputStream.recursionLimit_pos).symm⟩
  have within : budget ≤ (host.setting Stream).recursionLimit := by
    change budget ≤ CodedInputStream.recursionLimit Stream
    omega
  have takes : TakesScalars ((host.setting Stream).emitter (target.kind host.descSet.pool))
      (ChainPart.plain field index).type budget field.type.wireType _ :=
    takesScalars packable yields within
  have runs : (host.setting Stream).runs [.plain field index]
      ⟨false, target.kind host.descSet.pool,
        (Emitter.create_eq_ok (yields.leaves.create host.descSet.pool)).2.1⟩ message.data =
      (scanLevel budget (Setting.selectField (.plain field index)
        ((host.setting Stream).emitter (target.kind host.descSet.pool)) budget) (0 : Int)
          message.data).1 := by
    change ((host.setting Stream).chain _ 0 [_]).field
      (CodedInputStream.recursionLimit Stream) _ = _
    rw [limit]
    rfl
  by_cases decodes : ForeignDecodes field.isPacked field.type.wireType field.number
      (readFields message.data).1
  · have emits : Emits (scanLevel budget _ _ message.data).1 _ :=
      .scanLevel whole (Emits.turns_selectScalars takes (readFields message.data).1 encodes
        decodes 0)
    rw [← List.map_eq_flatMap] at emits
    rw [Host.returns_iff_of_emits chain (runs ▸ emits)]
    exact ⟨fun same => ⟨decodes, same⟩, And.right⟩
  · have fails : Fails (scanLevel budget _ _ message.data).1 :=
      .scanLevel (Fails.turns_selectScalars takes (readFields message.data).1 encodes decodes 0)
    have none := Host.not_returns_of_fails chain (runs ▸ fails) texts
    exact ⟨fun returns => absurd returns none, fun both => absurd both.1 decodes⟩

omit [LawfulCodedInputStream Stream] in
include member isRepeated packable named in
theorem parseIndex_of_returns {inner : StdString} (noDot : '.'.toUInt8 ∉ inner)
    {texts : List (Option StdString)}
    (returns : host.Returns Stream desc (name ++ bracketed inner) message texts) :
    ∃ index, parseIndex inner = .ok index := by
  have valid := host.descSet.pool.field_valid desc field member
  have found := findField_append member named (startsSelector_bracketed inner)
  have selects := selectorText_append named valid (startsSelector_bracketed inner)
  rcases returns with ⟨rows, answered, _⟩
  rcases Except.bind_eq_ok_iff.mp answered with ⟨query, compiled, _⟩
  rcases compileFrom_eq_ok_iff.mp compiled with ⟨parts, last, final, chain, rfl⟩
  rcases chain.single (by simp [bracketed]) (dot_not_mem_bracketed named (host.descSet.pool.field_valid desc field member) noDot) with
    ⟨part, _, _, compiles⟩
  generalize name ++ bracketed inner = text at found selects compiles
  have notMap := notMap_of_packable packable valid
  have isField : ∀ {other : FieldDescriptor Message},
      findField host.descSet.pool desc text = .ok other → other = field := by
    intro other foundOther
    rw [found, Except.ok.injEq] at foundOther
    exact foundOther.symm
  have noMap : ∀ {other keyField valueField : FieldDescriptor Message},
      ¬ MapField host.descSet.pool desc text other keyField valueField := by
    intro other keyField valueField mapField
    rw [isField mapField.found] at mapField
    rw [mapField.isMap] at notMap
    cases notMap
  cases compiles with
  | single otherFound notRepeated _ =>
      rw [isField otherFound, isRepeated] at notRepeated
      cases notRepeated
  | element _ _ _ otherSelects _ parsed =>
      rw [bracketed_injective (selects.symm.trans otherSelects)]
      exact ⟨_, parsed⟩
  | keys mapField _ => exact absurd mapField noMap
  | values mapField _ => exact absurd mapField noMap
  | lookup mapField _ _ _ _ => exact absurd mapField noMap

variable (Stream) in
/-- `f[*]` and every `f[i]` below the 32-bit limit return the elements that the message
encodes exactly when the elements are read. Where they are, a larger index is right when it
is accepted and does not come down to one of the elements. -/
theorem repeatedScalar_iff (member : field ∈ host.descSet.pool.fields desc)
    (isRepeated : field.isRepeated = true) (packable : field.type.Packable)
    (yields : field.Yields target) (named : field.NamedBy name)
    (spelling : Nat → StdString) (denotes : ∀ index, DenotesInteger (spelling index) index)
    (whole : WellFramed message.data)
    (encodes : ∀ occurrence ∈ fieldValues field.number message.data,
      EncodesElements field.type.wireType occurrence) :
    let texts := (field.elements message).map
      (target.rendering host.descSet.pool host.utils host.descSet.binaryToJsonString)
    let ReturnsAt (index : Nat) : Prop :=
      host.Returns Stream desc (name ++ bracketed (spelling index)) message
        texts[index]?.toList
    ((host.Returns Stream desc (name ++ bracketed star) message texts ∧
        ∀ index < 2 ^ 32, ReturnsAt index) ↔
      ReadsElements field message) ∧
    (ReadsElements field message → ∀ index, 2 ^ 32 ≤ index →
      (ReturnsAt index ↔
        index < 2 ^ 63 ∧ (field.elements message).length ≤ index % 2 ^ 32)) := by
  intro texts ReturnsAt
  have short := length_elements_lt field message
  have textAt : ∀ index : Nat, texts[index]?.toList = ((field.elements message)[index]?.toList).map
      (target.rendering host.descSet.pool host.utils host.descSet.binaryToJsonString) := by
    intro index
    rw [List.getElem?_map]
    cases (field.elements message)[index]? <;> rfl
  have noTextAt : ∀ index : Nat, 2 ^ 31 ≤ index → texts[index]?.toList = [] := by
    intro index large
    rw [textAt, List.getElem?_eq_none (by omega)]
    rfl
  have noDot : ∀ index : Nat, '.'.toUInt8 ∉ spelling index := by
    intro index isDot
    rcases (denotes index).mem isDot with h | h | h | h <;> exact absurd h (by decide)
  have returnsAll : host.Returns Stream desc (name ++ bracketed star) message texts ↔ _ :=
    returns_scalars member isRepeated packable yields named whole.1 encodes (by decide)
      (by decide) (rfl : parseIndex star = .ok none) texts
  have returnsAt : ∀ index < 2 ^ 63, ReturnsAt index ↔
      ForeignDecodes field.isPacked field.type.wireType field.number
          (readFields message.data).1 ∧
        (pickNumbered (some (toInt index)) (numbered field.isPacked field.type.wireType 0
          (fieldValues field.number message.data))).map
            (target.rendering host.descSet.pool host.utils host.descSet.binaryToJsonString) =
          texts[index]?.toList := fun index inRange =>
    returns_scalars member isRepeated packable yields named whole.1 encodes (noDot index)
      (denotes index).nonempty ((parseIndex_of_natural (denotes index)).trans (if_pos inRange))
      texts[index]?.toList
  have places : ReadsElements field message →
      numbered field.isPacked field.type.wireType 0 (fieldValues field.number message.data) =
        (field.elements message).zipIdx 0 :=
    fun reads => numbered_eq_zipIdx reads.chunks reads.last 0
  refine ⟨⟨?_, ?_⟩, ?_⟩
  · rintro ⟨all, each⟩
    rcases returnsAll.mp all with ⟨foreign, sameTexts⟩
    have chunks : FullyRead field.isPacked field.type.wireType
        (fieldValues field.number message.data) := by
      have sameLength := congrArg List.length sameTexts
      rw [pickNumbered_none, List.length_map, List.length_map, List.length_map] at sameLength
      exact fullyRead_of_length 0 (Nat.le_of_eq sameLength.symm)
    refine ⟨foreign, chunks, chunksLast_of_pick chunks 0 fun index _ below nothing => ?_⟩
    have isBelow : index < (field.elements message).length := by
      rw [Nat.zero_add] at below
      exact below
    have picked := ((returnsAt index (by omega)).mp (each index (by omega))).2
    rw [toInt_of_lt (by omega), nothing, textAt, List.getElem?_eq_getElem isBelow] at picked
    cases picked
  · intro reads
    refine ⟨returnsAll.mpr ⟨reads.foreign, ?_⟩, fun index small =>
      (returnsAt index (by omega)).mpr ⟨reads.foreign, ?_⟩⟩
    · rw [pickNumbered_none, places reads, List.zipIdx_map_fst]
    · rw [places reads, pickNumbered_toInt, Nat.mod_eq_of_lt small]
      split
      · exact (textAt index).symm
      · exact (noTextAt index (by omega)).symm
  · intro reads index large
    by_cases inRange : index < 2 ^ 63
    · rw [returnsAt index inRange, places reads, pickNumbered_toInt, noTextAt index (by omega)]
      split
      · simp only [reads.foreign, inRange, true_and, List.map_eq_nil_iff]
        rw [Option.toList_eq_nil_iff, List.getElem?_eq_none_iff]
      · simp only [reads.foreign, inRange, true_and, List.map_nil, true_iff]
        omega
    · refine ⟨fun returns => ?_, fun both => absurd both.1 inRange⟩
      rcases parseIndex_of_returns member isRepeated packable named (noDot index) returns with
        ⟨parsed, isParsed⟩
      rw [parseIndex_of_natural (denotes index), if_neg inRange] at isParsed
      cases isParsed

end

/-! ## Two chunks -/

open TestMessage

def twoChunks : Bytea := ⟨[0x12, 1, 7, 0x12, 1, 8], by decide⟩

/-- The theorem above for `repeated_int32` in two chunks. -/
theorem repeatedScalar_iff_twoChunks :
    ((testHost.Returns ArrayStream exampleMessage (literal "repeated_int32" ++ bracketed star)
          twoChunks [some (literal "7"), some (literal "8")] ∧
        ∀ index < 2 ^ 32, testHost.Returns ArrayStream exampleMessage
          (literal "repeated_int32" ++ bracketed (unsignedToString index)) twoChunks
          [some (literal "7"), some (literal "8")][index]?.toList) ↔
      ReadsElements (repeatedField "repeated_int32" 2 .int32) twoChunks) ∧
    (ReadsElements (repeatedField "repeated_int32" 2 .int32) twoChunks →
      ∀ index, 2 ^ 32 ≤ index →
        (testHost.Returns ArrayStream exampleMessage
            (literal "repeated_int32" ++ bracketed (unsignedToString index)) twoChunks
            [some (literal "7"), some (literal "8")][index]?.toList ↔
          index < 2 ^ 63 ∧ 2 ≤ index % 2 ^ 32)) := by
  have member : repeatedField "repeated_int32" 2 .int32 ∈
      testHost.descSet.pool.fields exampleMessage := by
    decide
  have yields : (repeatedField "repeated_int32" 2 .int32).Yields (.scalar .int32) :=
    ⟨nofun, nofun, rfl⟩
  have texts : ((repeatedField "repeated_int32" 2 .int32).elements twoChunks).map
      (Target.rendering testPool testUtils testSet.binaryToJsonString (.scalar .int32)) =
      [some (literal "7"), some (literal "8")] := by
    decide +kernel
  have length : ((repeatedField "repeated_int32" 2 .int32).elements twoChunks).length = 2 := by
    decide +kernel
  have iff := repeatedScalar_iff ArrayStream member rfl (by decide) yields (.inl rfl)
    unsignedToString denotesInteger_unsignedToString (by decide +kernel)
    (by decide +kernel : ∀ occurrence ∈ fieldValues 2 twoChunks.data, EncodesElements 0 occurrence)
  rw [← length, ← texts]
  exact iff

/-- The second chunk of `repeated_int32` holds the element `8`, which `[1]` misses. -/
theorem repeatedInt32_twoChunks :
    WellFramed twoChunks.data ∧
      (∀ occurrence ∈ fieldValues 2 twoChunks.data, EncodesElements 0 occurrence) ∧
      ((repeatedField "repeated_int32" 2 .int32).elements twoChunks)[1]? = some (.varint 8) ∧
      ¬ testHost.Returns ArrayStream exampleMessage (literal "repeated_int32[1]") twoChunks
        [some (literal "8")] := by
  have answered : testHost.answer ArrayStream exampleMessage (literal "repeated_int32[1]")
      twoChunks = .ok [] := by
    decide +kernel
  refine ⟨by decide +kernel, by decide +kernel, by decide +kernel, ?_⟩
  rintro ⟨rows, found, same⟩
  rw [answered] at found
  cases found
  cases same

end PostgresProtobuf
