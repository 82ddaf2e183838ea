import PostgresProtobuf.Foundation.Truncation
import PostgresProtobuf.RowSources

/-! # Messages that are cut off

The rows of a message that is cut off somewhere come first among the rows of the whole
message. A map filter needs whole fields: it forwards a value once its entry ends, and more
bytes may give the entry another key. -/

namespace PostgresProtobuf

open Foundation

variable {Message : Type}

/-! ## Rows of actions -/

def rowsOf (action : Activity Unit) : List StdString := Event.rows (action ()).1

def Precedes (first second : Activity Unit) : Prop := rowsOf first <+: rowsOf second

section

variable {first second rest other : Activity Unit}

theorem rowsOf_mul_of_ok {events : List Event} {next : Unit}
    (ends : first () = (events, .ok next)) :
    rowsOf (first * rest) = rowsOf first ++ rowsOf rest := by
  rw [rowsOf, rowsOf, rowsOf, Action.mul_apply_of_ok ends, ends, Event.rows_append]

theorem rowsOf_mul_of_error {events : List Event} {reason : Stop Exception}
    (ends : first () = (events, .error reason)) : rowsOf (first * rest) = rowsOf first := by
  rw [rowsOf, rowsOf, Action.mul_apply_of_error ends, ends]

theorem rowsOf_mul_quiet (quiet : rowsOf rest = []) : rowsOf (first * rest) = rowsOf first := by
  rcases ends : first () with ⟨events, reason | next⟩
  · exact rowsOf_mul_of_error ends
  · rw [rowsOf_mul_of_ok ends, quiet, List.append_nil]

theorem rowsOf_endOn (fault : Option FramingFault) : rowsOf (endOn fault) = [] := by
  cases fault <;> rfl

theorem rowsOf_scanLevel {Progress : Type} (budget : Nat)
    (turn : Progress → WireField → Activity Unit × Progress) (progress : Progress)
    (payload : Bytes) :
    rowsOf (scanLevel budget turn progress payload).1 =
      rowsOf (turns turn progress (readFields payload).1).1 := by
  have entered : (Action.log (.enter budget payload) : Activity Unit) () =
      ([.enter budget payload], .ok ()) := rfl
  rw [scanLevel, rowsOf_mul_quiet rfl, rowsOf_mul_quiet (rowsOf_endOn _),
    rowsOf_mul_of_ok entered]
  rfl

theorem Precedes.refl (action : Activity Unit) : Precedes action action :=
  List.prefix_refl _

theorem Precedes.of_quiet (quiet : rowsOf first = []) : Precedes first second := by
  rw [Precedes, quiet]
  exact List.nil_prefix

theorem Precedes.after (precedes : Precedes rest other) :
    Precedes (first * rest) (first * other) := by
  rcases ends : first () with ⟨events, reason | next⟩
  · rw [Precedes, rowsOf_mul_of_error ends, rowsOf_mul_of_error ends]
  · rw [Precedes, rowsOf_mul_of_ok ends, rowsOf_mul_of_ok ends]
    exact (List.prefix_append_right_inj _).mpr precedes

theorem Precedes.andThen (precedes : Precedes first second) (quiet : rowsOf rest = []) :
    Precedes (first * rest) (second * other) := by
  rw [Precedes, rowsOf_mul_quiet quiet]
  apply precedes.trans
  rcases ends : second () with ⟨events, reason | next⟩
  · rw [rowsOf_mul_of_error ends]
  · rw [rowsOf_mul_of_ok ends]
    exact List.prefix_append _ _

theorem precedes_turns {Item Progress : Type} {Cut : Item → Item → Prop}
    {items others : List Item} (truncated : Truncated Cut items others)
    {turn : Progress → Item → Activity Unit × Progress}
    (step : ∀ progress item whole, Cut item whole →
      Precedes (turn progress item).1 (turn progress whole).1) (progress : Progress) :
    Precedes (turns turn progress items).1 (turns turn progress others).1 := by
  induction truncated generalizing progress with
  | nil others => exact .of_quiet rfl
  | last cut others => exact (step progress _ _ cut).andThen rfl
  | cons item rest induction => exact (induction _).after

end

/-! ## Deliveries -/

structure Extends (next : Delivery Unit) : Prop where
  field : ∀ budget {value whole}, WireValue.Cut value whole →
    Precedes (next.field budget value) (next.field budget whole)
  handed : ∀ type {size : Nat} {front : Bytes}, front.length < size → ∀ back,
    Precedes (next.handed type size front) (next.handed type size (front ++ back))

theorem precedes_scanSubmessage {Progress : Type}
    {turn : Nat → Progress → WireField → Activity Unit × Progress}
    (step : ∀ budget progress field whole, WireField.Cut field whole →
      Precedes (turn budget progress field).1 (turn budget progress whole).1)
    (budget : Nat) (start : Progress) (front back : Bytes) :
    Precedes (scanSubmessage turn budget start front).1
      (scanSubmessage turn budget start (front ++ back)).1 := by
  cases budget with
  | zero => exact .of_quiet rfl
  | succ budget =>
      have truncated := Reader.readAll_truncated readField_shrinks readField_resumes front back
      unfold scanSubmessage Precedes
      rw [rowsOf_scanLevel, rowsOf_scanLevel]
      exact precedes_turns truncated (step budget) start

theorem rowsOf_treatAs {size : Nat} {payload : Bytes} (short : payload.length < size)
    (readString readBytes bufferedValue : Bytes → Activity Unit)
    (treatment : LengthDelimitedFieldTreatment) :
    rowsOf (Setting.treatAs readString readBytes bufferedValue treatment size payload) = [] := by
  have unread : ∀ text continuation,
      rowsOf (readWhole text size payload continuation : Activity Unit) = [] := by
    intro text continuation
    rw [readWhole, if_neg (Nat.ne_of_lt short)]
    rfl
  cases treatment <;> first | rfl | exact unread _ _

theorem descend_extends {Progress : Type}
    {turn : Nat → Progress → WireField → Activity Unit × Progress}
    (step : ∀ budget progress field whole, WireField.Cut field whole →
      Precedes (turn budget progress field).1 (turn budget progress whole).1)
    (start : Progress) : Extends (Setting.descend turn start) where
  field budget value whole cut := by
    cases cut with
    | payload _ back => exact precedes_scanSubmessage step budget start _ back
  handed type size front short back := .of_quiet (rowsOf_treatAs short _ _ _ _)

section

variable {next : Delivery Unit} (extendsNext : Extends next)

include extendsNext

theorem selectPacked_precedes (part : ChainPart) (budget : Nat) (number index : Int)
    (front back : Bytes) :
    Precedes (Setting.selectPacked part next budget number index front).1
      (Setting.selectPacked part next budget number index (front ++ back)).1 := by
  unfold Setting.selectPacked
  cases Setting.packedWireType part.type with
  | none => exact .refl 1
  | some wireType =>
      have truncated := Reader.readAll_truncated (readValue_shrinks wireType)
        (readValue_resumes wireType) front back
      have element : ∀ index value whole, WireValue.Cut value whole →
          Precedes (Setting.selectElement part next budget number index value).1
            (Setting.selectElement part next budget number index whole).1 := by
        intro index value whole cut
        unfold Setting.selectElement
        dsimp only
        split
        · exact extendsNext.field budget cut
        · exact .refl 1
      exact (precedes_turns truncated element index).andThen (rowsOf_endOn _)

theorem selectField_precedes (part : ChainPart) (budget : Nat) (index : Int)
    {field whole : WireField} (cut : field.Cut whole) :
    Precedes (Setting.selectField part next budget index field).1
      (Setting.selectField part next budget index whole).1 := by
  rcases field with ⟨number, value⟩
  rcases whole with ⟨_, whole⟩
  rcases cut with ⟨rfl, cut⟩
  have ofValue := extendsNext.field budget cut
  cases cut with
  | payload short back =>
      simp only [Setting.selectField]
      split
      · exact selectPacked_precedes extendsNext part budget _ index _ back
      · dsimp only
        split
        · split
          · exact ofValue
          · exact extendsNext.handed part.type short back
        · exact .refl 1

theorem allMapEntries_extends (wantKeys : Bool) :
    Extends (Setting.allMapEntries wantKeys next) where
  field budget value whole cut := by
    cases cut with
    | payload _ back =>
        apply precedes_scanSubmessage
        intro budget progress field whole cut
        unfold Setting.entriesField
        rw [cut.1]
        dsimp only
        split
        · exact extendsNext.field budget cut.2
        · exact .refl 1
  handed type size front short back := .refl 1

end

theorem emitter_extends (setting : Setting Unit) (kind : EmitterKind) :
    Extends (setting.emitter kind) where
  field budget value whole cut := by
    cases cut with
    | payload short back => exact .of_quiet (rowsOf_treatAs short _ _ _ _)
  handed type size front short back := .of_quiet (rowsOf_treatAs short _ _ _ _)

/-! ## Chains -/

def ChainPart.Filterless (part : ChainPart) : Prop :=
  ∀ keyType wantedKeyField wantedKeyContents valueType,
    part.map ≠ .lookup keyType wantedKeyField wantedKeyContents valueType

section

variable (setting : Setting Unit)

theorem mapPart_extends {part : ChainPart} (filterless : part.Filterless) (position : Nat)
    {next : Delivery Unit} (extendsNext : Extends next) :
    Extends (setting.mapPart position part.map next) := by
  unfold ChainPart.Filterless at filterless
  cases isMap : part.map with
  | none => exact extendsNext
  | entries wantKeys type => exact allMapEntries_extends extendsNext wantKeys
  | lookup keyType wantedKeyField wantedKeyContents valueType =>
      exact absurd isMap (filterless _ _ _ _)

theorem chain_extends (last : ChainEnd) {parts : List ChainPart}
    (filterless : ∀ part ∈ parts, part.Filterless) (position : Nat) :
    Extends (setting.chain last position parts) := by
  induction parts generalizing position with
  | nil =>
      unfold Setting.chain Setting.chainEnd
      split
      · exact descend_extends (fun budget _ field whole cut =>
          (emitter_extends setting last.kind).field budget cut.2) ()
      · exact emitter_extends setting last.kind
  | cons part parts induction =>
      have extendsRest := induction (fun other member =>
        filterless other (List.mem_cons_of_mem _ member))
        (position + 2 + Setting.mapWidth part.map)
      have extendsMap := mapPart_extends setting (filterless part List.mem_cons_self)
        (position + 2) extendsRest
      exact descend_extends (fun budget index field whole cut =>
        selectField_precedes extendsMap part budget index cut) 0

theorem runs_precedes (last : ChainEnd) (part : ChainPart) (parts : List ChainPart)
    {front : Bytes}
    (whole : WellFramed front ∨ ∀ other ∈ part :: parts, other.Filterless) (back : Bytes) :
    Precedes (setting.runs (part :: parts) last front)
      (setting.runs (part :: parts) last (front ++ back)) := by
  let turn := Setting.selectField part (setting.mapPart 2 part.map
    (setting.chain last (0 + 2 + Setting.mapWidth part.map) parts))
  rcases whole with framed | filterless
  · change Precedes (scanSubmessage turn setting.recursionLimit (0 : Int) front).1
      (scanSubmessage turn setting.recursionLimit (0 : Int) (front ++ back)).1
    cases setting.recursionLimit with
    | zero => exact .of_quiet rfl
    | succ budget =>
        have later : ∀ fields others : List WireField,
            Truncated (fun _ _ => False) fields (fields ++ others) := by
          intro fields others
          induction fields with
          | nil => exact .nil others
          | cons field fields induction => exact .cons field induction
        unfold scanSubmessage Precedes
        rw [rowsOf_scanLevel, rowsOf_scanLevel, readFields_append framed]
        exact precedes_turns (later _ _) (fun _ _ _ => False.elim) 0
  · have extendsMap := mapPart_extends setting (filterless part List.mem_cons_self) 2
      (chain_extends setting last
        (fun other member => filterless other (List.mem_cons_of_mem _ member))
        (0 + 2 + Setting.mapWidth part.map))
    exact precedes_scanSubmessage (fun budget index field whole cut =>
      selectField_precedes extendsMap part budget index cut) _ 0 front back

end

def ChainVisitor.isMapFilter : ChainVisitor → Bool
  | mapFilter _ => true
  | _ => false

theorem filterless_of_visitors {uninitialised : Uninitialised} {position : Nat}
    {parts : List ChainPart}
    (filterless : ∀ visitor ∈ partsVisitors uninitialised position parts,
      visitor.isMapFilter = false) : ∀ part ∈ parts, part.Filterless := by
  induction parts generalizing position with
  | nil => exact fun part member => absurd member List.not_mem_nil
  | cons part parts induction =>
      rw [List.forall_mem_cons]
      constructor
      · intro keyType wantedKeyField wantedKeyContents valueType isLookup
        have member : .mapFilter (.new wantedKeyField wantedKeyContents valueType
            (uninitialised.bufferedKeyField (position + 2))
            (uninitialised.bufferedValueField (position + 2))) ∈
              partsVisitors uninitialised position (part :: parts) := by
          rw [partsVisitors, List.mem_append]
          apply Or.inl
          rw [ChainPart.visitors, isLookup, MapPart.visitors]
          exact List.mem_cons_of_mem _ (List.mem_cons_of_mem _ List.mem_cons_self)
        cases filterless _ member
      · apply induction
        intro visitor member
        apply filterless visitor
        rw [partsVisitors, List.mem_append]
        exact .inr member

section

variable (Stream : Type) [CodedInputStream Stream] [LawfulCodedInputStream Stream]

/-- The rows of a message that is cut off come first among the rows of the whole message,
whether the runs return or throw: wherever it is cut for a query without map filters, and
between two of its fields for any query. -/
theorem emitted_prefix {descDb : DescDb Message} {uninitialised : Uninitialised}
    {text : StdString} {limit : Option Nat} {descSet : DescSet Message} {desc : Message}
    {path : StdString} {query : QueryImpl}
    (resolved : resolveQuery descDb text = .ok (descSet, desc, path)) (nonempty : path ≠ [])
    (accepted : compileQuery descDb uninitialised text limit = .ok query)
    (zero : uninitialised.ZeroBuffers) (utils : PostgresUtils) (bits : UInt64)
    {front whole : Bytea} (cut : front.data <+: whole.data)
    (suits : WellFramed front.data ∨
      ∀ visitor ∈ query.visitors, visitor.isMapFilter = false) :
    query.emitted Stream utils (fun _ => bits) front <+:
      query.emitted Stream utils (fun _ => bits) whole := by
  rcases compileQuery_eq_ok_iff.mp accepted with
    ⟨otherSet, otherDesc, otherPath, parts, last, final, resolvedTo, chain, rfl⟩
  cases resolved.symm.trans resolvedTo
  rcases cut with ⟨back, joined⟩
  rcases chain.compiles with ⟨isEmpty, _⟩ | ⟨_, compiles⟩
  · exact absurd isEmpty nonempty
  · rcases List.exists_cons_of_ne_nil (compiles.parts_ne_nil nonempty) with ⟨part, others, rfl⟩
    rw [emitted_fixed zero bits, emitted_fixed zero bits, ← joined]
    apply runs_precedes
    apply suits.imp_right
    intro filterless
    apply filterless_of_visitors
    exact fun visitor member => filterless visitor (List.mem_append_left _ member)

/-- Two inner messages, cut in the second string of the first one. -/
theorem emitted_prefix_innerRepeated :
    let front : Bytea := ⟨[0x2A, 6, 0x12, 1, 0x61, 0x12], by decide⟩
    let whole : Bytea := ⟨[0x2A, 6, 0x12, 1, 0x61, 0x12, 1, 0x62, 0x2A, 3, 0x12, 1, 0x63],
      by decide⟩
    let query := testQuery .exampleMessage "repeated_inner[*].inner_repeated[*]"
    query.emitted ArrayStream testUtils (fun _ => 0) front <+:
      query.emitted ArrayStream testUtils (fun _ => 0) whole := by
  intro front whole query
  have filterless : ∀ visitor ∈ query.visitors, visitor.isMapFilter = false := by
    decide +kernel
  exact emitted_prefix ArrayStream
    (rfl : resolveQuery testDb
      (literal "pgpb.test.ExampleMessage:repeated_inner[*].inner_repeated[*]") =
      .ok (testSet, .exampleMessage, literal "repeated_inner[*].inner_repeated[*]"))
    (by decide)
    (rfl : compileQuery testDb zeroMemory
      (literal "pgpb.test.ExampleMessage:repeated_inner[*].inner_repeated[*]") none =
      .ok (testQuery .exampleMessage "repeated_inner[*].inner_repeated[*]"))
    (fun _ => ⟨rfl, rfl⟩) testUtils 0 (by decide) (.inr filterless)

-- The entry of the whole message ends in another key than the one it has where it is cut.
example :
    let front : Bytea := ⟨[0x3A, 9, 0x0A, 1, 0x6B, 0x12, 1, 0x61], by decide⟩
    let whole : Bytea := ⟨[0x3A, 9, 0x0A, 1, 0x6B, 0x12, 1, 0x61, 0x0A, 1, 0x7A], by decide⟩
    let query := testQuery .exampleMessage "map_str2str[k]"
    query.emitted ArrayStream testUtils (fun _ => 0) front = [literal "a"] ∧
      query.emitted ArrayStream testUtils (fun _ => 0) whole = [] := by
  decide +kernel

end

end PostgresProtobuf
