import PostgresProtobuf.Foundation.Supply
import PostgresProtobuf.WireTypes

/-! # Where rows come from

Every row that a run emits is paid for by bytes of the message that pay for no other row,
in wire order. So a run cannot emit more rows than the message has bytes, and texts are
stretches of the message. -/

namespace PostgresProtobuf

open Foundation

variable {Message : Type}

/-! ## Bytes of values -/

/-- The bytes that a value is read from: a payload has its tag and its size before it. -/
inductive Spans : Bytes → WireValue → Prop
  | payload {header : Bytes} (size : Nat) (payload : Bytes) (long : 2 ≤ header.length) :
      Spans (header ++ payload) (.lengthDelimited size payload)
  | primitive {taken : Bytes} {value : WireValue} (nonempty : taken ≠ [])
      (isPrimitive : value.wireType ≠ 2) : Spans taken value

theorem readField_spans {bytes rest : Bytes} {field : WireField}
    (step : readField bytes = .ok (field, rest)) :
    ∃ taken, bytes = taken ++ rest ∧ Spans taken field.value := by
  unfold readField at step
  split at step
  · rename_i tag left isTag
    split at step
    · rename_i value after read
      cases step
      rcases decodeTag_eq_some isTag with ⟨_, _, head, headNonempty, rfl, _⟩
      by_cases primitive : value.wireType ≠ 2
      · have fits : value.Fits := by
          cases value with
          | lengthDelimited size payload => exact absurd rfl primitive
          | _ => trivial
        rcases (readValue_eq_ok read).2.2 fits with ⟨taken, _, rfl, _⟩
        exact ⟨head ++ taken, by simp, .primitive (by simp [headNonempty]) primitive⟩
      · have isType := (readValue_eq_ok read).1
        rw [not_not.mp primitive] at isType
        rw [← isType] at read
        simp only [readValue] at read
        split at read
        · rename_i size remaining isSize
          cases read
          rcases decodeSize_eq_some isSize with ⟨_, taken, takenNonempty, rfl, _⟩
          have headPositive := List.length_pos_iff.mpr headNonempty
          have takenPositive := List.length_pos_iff.mpr takenNonempty
          refine ⟨(head ++ taken) ++ remaining.take size, by simp, .payload _ _ ?_⟩
          rw [List.length_append]
          omega
        · cases read
    · cases step
  · cases step

theorem readValue_spans {wireType : Nat} (isPrimitive : wireType ≠ 2) {bytes rest : Bytes}
    {value : WireValue} (step : readValue wireType bytes = .ok (value, rest)) :
    ∃ taken, bytes = taken ++ rest ∧ Spans taken value := by
  have isType := (readValue_eq_ok step).1
  have fits : value.Fits := by
    cases value with
    | lengthDelimited size payload => exact absurd isType.symm isPrimitive
    | _ => trivial
  rcases (readValue_eq_ok step).2.2 fits with ⟨taken, nonempty, split, _⟩
  exact ⟨taken, split, .primitive nonempty (isType.symm ▸ isPrimitive)⟩

/-! ## Ledgers of loops -/

section

variable {supply : Supply UInt8 StdString} {Progress : Type}

/-- The bytes cover the rows of the action, however it ends. -/
def Draws (supply : Supply UInt8 StdString) (action : Activity Unit) (taken : Bytes) : Prop :=
  supply.Covers taken (Event.rows (action ()).1)

/-- What a loop keeps between its turns, of the bytes taken, the rows emitted so far and its
own progress. -/
structure Ledger (supply : Supply UInt8 StdString) (Progress : Type) where
  Stands : Bytes → List StdString → Progress → Prop
  covers : ∀ {taken rows progress}, Stands taken rows progress → supply.Covers taken rows
  more : ∀ {taken rows progress}, Stands taken rows progress →
    ∀ after, Stands (taken ++ after) rows progress

namespace Ledger

/-- The action leaves the ledger standing with the progress, or stops with its rows
covered. -/
def Keeps (ledger : Ledger supply Progress) (taken : Bytes) (rows : List StdString)
    (action : Activity Unit) (progress : Progress) : Prop :=
  match action () with
  | (events, .ok _) => ledger.Stands taken (rows ++ Event.rows events) progress
  | (events, .error _) => supply.Covers taken (rows ++ Event.rows events)

variable {ledger : Ledger supply Progress} {taken : Bytes} {rows : List StdString}
variable {progress other : Progress}

theorem keeps_one (stands : ledger.Stands taken rows progress) :
    ledger.Keeps taken rows 1 progress := by
  change ledger.Stands taken (rows ++ []) progress
  rwa [List.append_nil]

theorem keeps_log {event : Event} (quiet : event.isRow = false)
    (stands : ledger.Stands taken rows progress) :
    ledger.Keeps taken rows (Action.log event) progress := by
  cases event with
  | row text => cases quiet
  | _ => exact keeps_one stands

theorem keeps_raise (exception : Exception) (stands : ledger.Stands taken rows progress) :
    ledger.Keeps taken rows (raise exception) other := by
  change supply.Covers taken (rows ++ [])
  rw [List.append_nil]
  exact ledger.covers stands

theorem keeps_readWhole (text : String) (size : Nat) (payload : Bytes)
    (stands : ledger.Stands taken rows progress) :
    ledger.Keeps taken rows (readWhole text size payload 1) progress := by
  unfold readWhole
  split
  · exact keeps_one stands
  · exact keeps_raise _ stands

theorem keeps_endOn (fault : Option FramingFault)
    (stands : ledger.Stands taken rows progress) :
    ledger.Keeps taken rows (endOn fault) progress := by
  cases fault with
  | none => exact keeps_one stands
  | some fault => exact keeps_raise _ stands

theorem Keeps.andThen {first rest : Activity Unit} {after : Bytes}
    (keeps : ledger.Keeps taken rows first progress)
    (follows : ∀ rows, ledger.Stands taken rows progress →
      ledger.Keeps (taken ++ after) rows rest other) :
    ledger.Keeps (taken ++ after) rows (first * rest) other := by
  unfold Keeps at keeps
  rcases ends : first () with ⟨events, reason | next⟩
  · rw [ends] at keeps
    rw [Keeps, Action.mul_apply_of_error ends]
    exact supply.more keeps after
  · rw [ends] at keeps
    have continued := follows _ keeps
    unfold Keeps at continued ⊢
    rw [Action.mul_apply_of_ok ends]
    rcases endsRest : rest next with ⟨others, reason | last⟩
    · rw [show rest () = _ from endsRest] at continued
      change supply.Covers (taken ++ after) (rows ++ Event.rows (events ++ others))
      rwa [Event.rows_append, ← List.append_assoc]
    · rw [show rest () = _ from endsRest] at continued
      change ledger.Stands (taken ++ after) (rows ++ Event.rows (events ++ others)) other
      rwa [Event.rows_append, ← List.append_assoc]

theorem Keeps.andThen_same {first rest : Activity Unit}
    (keeps : ledger.Keeps taken rows first progress)
    (follows : ∀ rows, ledger.Stands taken rows progress →
      ledger.Keeps taken rows rest other) :
    ledger.Keeps taken rows (first * rest) other := by
  have both : ledger.Keeps (taken ++ []) rows (first * rest) other := by
    apply keeps.andThen
    rw [List.append_nil]
    exact follows
  rwa [List.append_nil] at both

theorem keeps_turns {Failure Item : Type} {read : Reader Failure Item}
    (shrinks : read.Shrinks) {Spanned : Bytes → Item → Prop}
    (takes : ∀ bytes item rest, read bytes = .ok (item, rest) →
      ∃ piece, bytes = piece ++ rest ∧ Spanned piece item)
    {turn : Progress → Item → Activity Unit × Progress}
    (step : ∀ piece item taken rows progress, Spanned piece item →
      ledger.Stands taken rows progress →
        ledger.Keeps (taken ++ piece) rows (turn progress item).1 (turn progress item).2)
    (bytes : Bytes) (stands : ledger.Stands taken rows progress) :
    ledger.Keeps (taken ++ bytes) rows (turns turn progress (read.readAll bytes).1).1
      (turns turn progress (read.readAll bytes).1).2 := by
  induction bytes using Reader.readAll_induction shrinks generalizing taken rows progress with
  | nil =>
      rw [List.append_nil]
      exact keeps_one stands
  | failed bytes failure nonempty isFailure =>
      rw [Reader.readAll_of_error nonempty isFailure]
      exact keeps_one (ledger.more stands bytes)
  | taken bytes item rest isItem induction =>
      rcases takes bytes item rest isItem with ⟨piece, split, spanned⟩
      rw [Reader.readAll_of_ok shrinks isItem, split, ← List.append_assoc]
      exact (step piece item _ _ _ spanned stands).andThen fun rows kept => induction kept

theorem keeps_scanLevel {turn : Progress → WireField → Activity Unit × Progress}
    (step : ∀ piece (field : WireField) taken rows progress, Spans piece field.value →
      ledger.Stands taken rows progress →
        ledger.Keeps (taken ++ piece) rows (turn progress field).1 (turn progress field).2)
    (budget : Nat) (payload : Bytes) (stands : ledger.Stands taken rows progress) :
    ledger.Keeps (taken ++ payload) rows (scanLevel budget turn progress payload).1
      (scanLevel budget turn progress payload).2 := by
  have entered : ledger.Keeps taken rows (Action.log (.enter budget payload)) progress :=
    keeps_log rfl stands
  have scanned := entered.andThen fun rows stands =>
    keeps_turns readField_shrinks (fun _ _ _ => readField_spans) step payload stands
  have ended := scanned.andThen_same fun rows stands =>
    keeps_endOn (readFields payload).2 stands
  exact ended.andThen_same fun rows stands => keeps_log rfl stands

theorem Keeps.covered {action : Activity Unit} (keeps : ledger.Keeps taken [] action progress) :
    Draws supply action taken := by
  unfold Keeps at keeps
  unfold Draws
  rcases ends : action () with ⟨events, reason | next⟩
  · rw [ends] at keeps
    exact keeps
  · rw [ends] at keeps
    exact ledger.covers keeps

theorem keeps_scanSubmessage (turn : Nat → Progress → WireField → Activity Unit × Progress)
    (budget : Nat)
    (step : ∀ lower piece (field : WireField) taken rows progress, lower < budget →
      Spans piece field.value → ledger.Stands taken rows progress →
        ledger.Keeps (taken ++ piece) rows (turn lower progress field).1
          (turn lower progress field).2)
    (payload : Bytes) (stands : ledger.Stands taken rows progress) :
    ledger.Keeps (taken ++ payload) rows (scanSubmessage turn budget progress payload).1
      (scanSubmessage turn budget progress payload).2 := by
  cases budget with
  | zero => exact keeps_raise _ (ledger.more stands payload)
  | succ budget =>
      exact keeps_scanLevel
        (fun piece field taken rows progress =>
          step budget piece field taken rows progress (Nat.lt_succ_self budget))
        budget payload stands

def plain (supply : Supply UInt8 StdString) (Progress : Type) : Ledger supply Progress where
  Stands taken rows _ := supply.Covers taken rows
  covers := id
  more := supply.more

theorem keeps_plain_iff {action : Activity Unit} :
    (plain supply Progress).Keeps taken rows action progress ↔
      supply.Covers taken (rows ++ Event.rows (action ()).1) := by
  unfold Keeps
  rcases action () with ⟨events, reason | next⟩ <;> exact Iff.rfl

theorem keeps_plain {action : Activity Unit} {piece : Bytes} (draws : Draws supply action piece)
    (covers : supply.Covers taken rows) (progress : Progress) :
    (plain supply Progress).Keeps (taken ++ piece) rows action progress :=
  keeps_plain_iff.mpr (supply.append covers draws)

end Ledger

end

/-! ## Deliveries -/

section

variable {supply : Supply UInt8 StdString} {types : FieldType → Prop}

theorem draws_one (taken : Bytes) : Draws supply 1 taken := supply.nil taken

theorem draws_raise (exception : Exception) (taken : Bytes) :
    Draws supply (raise exception) taken := supply.nil taken

/-- What the delivery emits for a value is covered by the bytes of the value, where it is
handed values of the given types only. -/
structure Covered (supply : Supply UInt8 StdString) (types : FieldType → Prop)
    (next : Delivery Unit) : Prop where
  field : ∀ budget value taken, Spans taken value → Draws supply (next.field budget value) taken
  handed : ∀ type size payload taken, types type →
    Spans taken (.lengthDelimited size payload) →
      Draws supply (next.handed type size payload) taken

theorem draws_scanSubmessage {Progress : Type}
    {turn : Nat → Progress → WireField → Activity Unit × Progress}
    (step : ∀ budget piece (field : WireField) progress, Spans piece field.value →
      Draws supply (turn budget progress field).1 piece)
    (budget : Nat) (progress : Progress) (payload : Bytes) :
    Draws supply (scanSubmessage turn budget progress payload).1 payload := by
  have stands : (Ledger.plain supply Progress).Stands [] [] progress := supply.nil []
  have kept := Ledger.keeps_scanSubmessage turn budget
    (fun lower piece field taken rows progress _ spans stands =>
      Ledger.keeps_plain (step lower piece field progress spans) stands _)
    payload stands
  exact kept.covered

theorem draws_of_payload {action : Activity Unit} {size : Nat} {payload taken : Bytes}
    (spans : Spans taken (.lengthDelimited size payload)) (draws : Draws supply action payload) :
    Draws supply action taken := by
  cases spans with
  | payload _ _ long => exact supply.later draws _
  | primitive _ isPrimitive => exact absurd rfl isPrimitive

theorem draws_readWhole {text : String} {size : Nat} {payload taken : Bytes}
    {continuation : Activity Unit} (draws : Draws supply continuation taken) :
    Draws supply (readWhole text size payload continuation) taken := by
  unfold readWhole
  split
  · exact draws
  · exact draws_raise _ _

theorem draws_treatAs {readString readBytes bufferedValue : Bytes → Activity Unit}
    {treatment : LengthDelimitedFieldTreatment} {size : Nat} {payload taken : Bytes}
    (string : treatment = .asString → Draws supply (readString payload) taken)
    (bytes : treatment = .asBytes → Draws supply (readBytes payload) taken)
    (buffered : treatment = .buffer → Draws supply (bufferedValue payload) taken) :
    Draws supply (Setting.treatAs readString readBytes bufferedValue treatment size payload)
      taken := by
  cases treatment with
  | asString => exact draws_readWhole (string rfl)
  | asBytes => exact draws_readWhole (bytes rfl)
  | buffer => exact draws_readWhole (buffered rfl)
  | _ => exact draws_one _

theorem descend_covered {Progress : Type}
    {turn : Nat → Progress → WireField → Activity Unit × Progress}
    (step : ∀ budget piece (field : WireField) progress, Spans piece field.value →
      Draws supply (turn budget progress field).1 piece) (start : Progress) :
    Covered supply types (Setting.descend turn start) where
  field := by
    intro budget value taken spans
    cases value with
    | lengthDelimited size payload =>
        exact draws_of_payload spans (draws_scanSubmessage step budget start payload)
    | _ => exact draws_one _
  handed type size payload taken _ _ :=
    draws_treatAs (fun _ => draws_one _) (fun _ => draws_one _) (fun _ => draws_one _)

section

variable {next : Delivery Unit} (covered : Covered supply types next)

include covered

theorem selectPacked_draws (part : ChainPart) (budget : Nat) (number index : Int)
    (payload : Bytes) :
    Draws supply (Setting.selectPacked part next budget number index payload).1 payload := by
  unfold Setting.selectPacked
  cases packed : Setting.packedWireType part.type with
  | none => exact draws_one _
  | some wireType =>
      have isPrimitive : wireType ≠ 2 := by
        unfold Setting.packedWireType at packed
        split at packed <;> cases packed <;> decide
      have element : ∀ piece value index, Spans piece value →
          Draws supply (Setting.selectElement part next budget number index value).1 piece := by
        intro piece value index spans
        unfold Setting.selectElement
        dsimp only
        split
        · exact covered.field _ _ _ spans
        · exact draws_one _
      have stands : (Ledger.plain supply Int).Stands [] [] index := supply.nil []
      have scanned := Ledger.keeps_turns (readValue_shrinks wireType)
        (fun _ _ _ => readValue_spans isPrimitive)
        (fun piece value taken rows index spans stands =>
          Ledger.keeps_plain (element piece value index spans) stands _)
        payload stands
      have ended := scanned.andThen_same fun rows stands =>
        Ledger.keeps_endOn (readElements wireType payload).2 stands
      exact ended.covered

theorem selectField_draws {part : ChainPart} (isType : types part.type) (budget : Nat)
    (piece : Bytes) (field : WireField) (index : Int) (spans : Spans piece field.value) :
    Draws supply (Setting.selectField part next budget index field).1 piece := by
  rcases field with ⟨number, value⟩
  cases value with
  | lengthDelimited size payload =>
      simp only [Setting.selectField]
      split
      · exact draws_of_payload spans (selectPacked_draws covered part budget number index payload)
      · dsimp only
        split
        · split
          · exact covered.field _ _ _ spans
          · exact covered.handed _ _ _ _ isType spans
        · exact draws_one _
  | _ =>
      simp only [Setting.selectField]
      split
      · exact covered.field _ _ _ spans
      · exact draws_one _

theorem allMapEntries_covered (wantKeys : Bool) :
    Covered supply types (Setting.allMapEntries wantKeys next) where
  field := by
    intro budget value taken spans
    cases value with
    | lengthDelimited size payload =>
        apply draws_of_payload spans
        apply draws_scanSubmessage
        intro budget piece field _ spansField
        unfold Setting.entriesField
        dsimp only
        split
        · exact covered.field _ _ _ spansField
        · exact draws_one _
    | _ => exact draws_one _
  handed _ _ _ _ _ _ := draws_one _

end

/-! ## Map filters -/

/-- The value that a map filter holds is paid for by its own bytes, which no row uses
before it is forwarded. -/
def entryLedger (supply : Supply UInt8 StdString) :
    Ledger supply Setting.EntryBuffers where
  Stands taken rows buffers :=
    (∃ key, buffers.key = some key) ∧ ∃ value, buffers.value = some value ∧
      if buffers.inEntry then
        ∃ front pending back, taken = front ++ pending ++ back ∧ supply.Covers front rows ∧
          Spans pending value
      else value = .varint 0 ∧ supply.Covers taken rows
  covers := by
    rintro taken rows buffers ⟨_, value, _, stands⟩
    split at stands
    · rcases stands with ⟨front, pending, back, rfl, covers, _⟩
      exact supply.more (supply.more covers pending) back
    · exact stands.2
  more := by
    rintro taken rows buffers ⟨isKey, value, isValue, stands⟩ after
    refine ⟨isKey, value, isValue, ?_⟩
    split at stands
    · rename_i inEntry
      rcases stands with ⟨front, pending, back, rfl, covers, spans⟩
      rw [if_pos inEntry]
      exact ⟨front, pending, back ++ after, by simp, covers, spans⟩
    · rename_i outside
      rw [if_neg outside]
      exact ⟨stands.1, supply.more stands.2 after⟩

theorem entryLedger_empty {taken : Bytes} {rows : List StdString}
    (covers : supply.Covers taken rows) :
    (entryLedger supply).Stands taken rows Setting.EntryBuffers.empty :=
  ⟨⟨_, rfl⟩, _, rfl, rfl, covers⟩

theorem entryLedger_inside {taken header : Bytes} {rows : List StdString}
    {buffers : Setting.EntryBuffers} (nonempty : header ≠ [])
    (stands : (entryLedger supply).Stands taken rows buffers) :
    (entryLedger supply).Stands (taken ++ header) rows { buffers with inEntry := true } := by
  rcases stands with ⟨isKey, value, isValue, stands⟩
  refine ⟨isKey, value, isValue, ?_⟩
  split at stands
  · rcases stands with ⟨front, pending, back, rfl, covers, spans⟩
    exact ⟨front, pending, back ++ header, by simp, covers, spans⟩
  · rcases stands with ⟨rfl, covers⟩
    exact ⟨taken, header, [], by simp, covers, .primitive nonempty (by decide)⟩

theorem entryLedger_key {taken : Bytes} {rows : List StdString}
    {buffers : Setting.EntryBuffers} (key : WireValue) (contents : Bytes)
    (stands : (entryLedger supply).Stands taken rows buffers) :
    (entryLedger supply).Stands taken rows
      { buffers with key := some key, keyContents := contents } := by
  rcases stands with ⟨_, value, isValue, stands⟩
  exact ⟨⟨key, rfl⟩, value, isValue, stands⟩

theorem entryLedger_value {taken piece : Bytes} {rows : List StdString}
    {buffers : Setting.EntryBuffers} {value : WireValue} (inEntry : buffers.inEntry = true)
    (spans : Spans piece value) (stands : (entryLedger supply).Stands taken rows buffers) :
    (entryLedger supply).Stands (taken ++ piece) rows
      { buffers with value := some value } := by
  refine ⟨stands.1, value, rfl, ?_⟩
  rw [if_pos inEntry]
  exact ⟨taken, piece, [], by simp, (entryLedger supply).covers stands, spans⟩

section

variable {utils : PostgresUtils}
variable {binaryToJsonString : StdString → Bytes → Option StdString}
variable {recursionLimit : Nat} {bits : UInt64} {keyType : FieldType}
variable {wantedKeyField : FieldInfo} {wantedKeyContents : StdString}
variable {next : Delivery Unit} (covered : Covered supply types next)

include covered

theorem leaveEntry_keeps {taken : Bytes} {rows : List StdString}
    {buffers : Setting.EntryBuffers}
    (stands : (entryLedger supply).Stands taken rows buffers) :
    let left := (Setting.fixed utils binaryToJsonString recursionLimit bits).leaveEntry keyType
      wantedKeyField wantedKeyContents next buffers
    (entryLedger supply).Keeps taken rows left.1 left.2 := by
  intro left
  by_cases inEntry : buffers.inEntry = true
  · have stood := stands
    rcases stands with ⟨⟨key, isKey⟩, value, isValue, stands⟩
    rw [if_pos inEntry] at stands
    rcases stands with ⟨front, pending, back, rfl, covers, spans⟩
    have ends : left = ((Setting.fixed utils binaryToJsonString recursionLimit bits).endEntry
        keyType wantedKeyField wantedKeyContents next buffers, .empty) := if_pos inEntry
    rw [ends, Setting.endEntry_fixed _ _ _ _ _ _ _ _ isKey isValue]
    split
    · -- The forwarded value is paid for by the bytes that were kept for it.
      have forwarded := covered.field recursionLimit value pending spans
      have both : supply.Covers (front ++ pending ++ back)
          (rows ++ Event.rows (next.field recursionLimit value ()).1) :=
        supply.more (supply.append covers forwarded) back
      change (entryLedger supply).Keeps _ rows (next.field recursionLimit value) .empty
      unfold Ledger.Keeps
      rcases forwards : next.field recursionLimit value () with ⟨events, reason | after⟩
      · rw [forwards] at both
        exact both
      · rw [forwards] at both
        exact entryLedger_empty both
    · exact Ledger.keeps_one (entryLedger_empty ((entryLedger supply).covers stood))
  · have stays : left = (1, buffers) := if_neg inEntry
    rw [stays]
    exact Ledger.keeps_one stands

theorem lookupField_keeps (budget : Nat) (piece : Bytes) (field : WireField) (taken : Bytes)
    (rows : List StdString) (buffers : Setting.EntryBuffers)
    (spans : Spans piece field.value)
    (stands : (entryLedger supply).Stands taken rows buffers) :
    let seen := (Setting.fixed utils binaryToJsonString recursionLimit bits).lookupField keyType
      wantedKeyField wantedKeyContents next budget buffers field
    (entryLedger supply).Keeps (taken ++ piece) rows seen.1 seen.2 := by
  induction budget using Nat.strongRecOn generalizing piece field taken rows buffers with
  | _ budget induction =>
      intro seen
      have stood := stands
      rcases field with ⟨number, value⟩
      have stoodAfter := (entryLedger supply).more stood piece
      by_cases primitive : value.wireType ≠ 2
      · have isSeen : seen = _ := Setting.lookupField_primitive _ _ _ _ _ primitive _ _ _
        rw [isSeen]
        split
        · rename_i inEntry
          split
          · exact Ledger.keeps_one (entryLedger_key value buffers.keyContents stoodAfter)
          · split
            · exact Ledger.keeps_one (entryLedger_value inEntry spans stood)
            · exact leaveEntry_keeps covered stoodAfter
        · exact Ledger.keeps_one stoodAfter
      · cases value with
        | lengthDelimited size payload =>
            by_cases isKey : buffers.inEntry ∧ number = 1
            · rcases isKey with ⟨inEntry, rfl⟩
              have isSeen : seen = _ := Setting.lookupField_key _ _ _ _ _ inEntry _ _ _
              rw [isSeen]
              exact Ledger.keeps_readWhole _ _ _ (entryLedger_key _ payload stoodAfter)
            · by_cases isValue : buffers.inEntry ∧ number = 2
              · rcases isValue with ⟨inEntry, rfl⟩
                have isSeen : seen = _ := Setting.lookupField_value _ _ _ _ _ inEntry _ _ _
                rw [isSeen]
                exact Ledger.keeps_readWhole _ _ _ (entryLedger_value inEntry spans stood)
              · have isSeen : seen = _ :=
                  Setting.lookupField_entry _ _ _ _ _ isKey isValue budget size payload
                rw [isSeen]
                cases spans with
                | primitive _ isPrimitive => exact absurd rfl isPrimitive
                | @payload header _ _ long =>
                    have nonempty : header ≠ [] := by
                      intro empty
                      rw [empty] at long
                      exact absurd long (by decide)
                    have inside := entryLedger_inside nonempty stood
                    rw [← List.append_assoc]
                    have scanned := Ledger.keeps_scanSubmessage _ budget
                      (fun lower piece field taken rows buffers less =>
                        induction lower less piece field taken rows buffers)
                      payload inside
                    exact scanned.andThen_same fun rows stands =>
                      leaveEntry_keeps covered stands
        | _ => exact absurd nofun primitive

theorem mapFilter_covered (position : Nat) :
    Covered supply types ((Setting.fixed utils binaryToJsonString recursionLimit bits).mapFilter
      keyType wantedKeyField wantedKeyContents next position) where
  field := by
    intro budget value taken spans
    cases value with
    | lengthDelimited size payload =>
        rw [Setting.mapFilter_fixed]
        cases spans with
        | primitive _ isPrimitive => exact absurd rfl isPrimitive
        | @payload header _ _ long =>
            have nonempty : header ≠ [] := by
              intro empty
              rw [empty] at long
              exact absurd long (by decide)
            have inside := entryLedger_inside nonempty (entryLedger_empty (supply.nil []))
            have scanned := Ledger.keeps_scanSubmessage
              ((Setting.fixed utils binaryToJsonString recursionLimit bits).lookupField keyType
                wantedKeyField wantedKeyContents next) budget
              (fun lower piece field taken rows buffers _ =>
                lookupField_keeps covered lower piece field taken rows buffers)
              payload inside
            exact (scanned.andThen_same fun _ stands => leaveEntry_keeps covered stands).covered
    | _ => exact draws_one _
  handed _ _ _ _ _ _ := draws_one _

theorem mapPart_covered (position : Nat) {map : MapPart} (isMap : map ≠ .none)
    (others : FieldType → Prop) :
    Covered supply others ((Setting.fixed utils binaryToJsonString recursionLimit bits).mapPart
      position map next) := by
  have anyType : ∀ {delivery : Delivery Unit}, Covered supply types delivery →
      (∀ type size payload, delivery.handed type size payload = 1) →
        Covered supply others delivery := by
    intro delivery covered quiet
    refine ⟨covered.field, fun type size payload taken _ _ => ?_⟩
    rw [quiet]
    exact draws_one _
  cases map with
  | none => exact absurd rfl isMap
  | entries wantKeys type =>
      exact anyType (allMapEntries_covered covered wantKeys) fun _ _ _ => rfl
  | lookup keyType wantedKeyField wantedKeyContents valueType =>
      exact anyType (mapFilter_covered covered position) fun _ _ _ => rfl

end

section

variable {utils : PostgresUtils}
variable {binaryToJsonString : StdString → Bytes → Option StdString}
variable {recursionLimit : Nat} {bits : UInt64} {last : ChainEnd}

def HandsOver (types : FieldType → Prop) (last : ChainEnd) (parts : List ChainPart) : Prop :=
  last.trailingDot = false → ∀ part ∈ parts.getLast?, part.map = .none → types part.type

theorem HandsOver.rest {part : ChainPart} {parts : List ChainPart}
    (hands : HandsOver types last (part :: parts)) : HandsOver types last parts := by
  intro noDot final isLast
  cases parts with
  | nil => cases isLast
  | cons first rest => exact hands noDot final isLast

theorem part_draws {part : ChainPart} {parts : List ChainPart}
    (hands : HandsOver types last (part :: parts)) {position : Nat} {next : Delivery Unit}
    (rest : Covered supply (fun type => parts = [] → last.trailingDot = false → types type)
      next) (budget : Nat) (piece : Bytes) (field : WireField) (index : Int)
    (spans : Spans piece field.value) :
    Draws supply (Setting.selectField part
      ((Setting.fixed utils binaryToJsonString recursionLimit bits).mapPart position part.map
        next) budget index field).1 piece := by
  by_cases isMap : part.map = .none
  · have isType : parts = [] → last.trailingDot = false → types part.type := by
      intro noParts noDot
      subst noParts
      exact hands noDot part rfl isMap
    rw [isMap]
    exact selectField_draws rest isType budget piece field index spans
  · exact selectField_draws (mapPart_covered rest position isMap fun _ => True) trivial budget
      piece field index spans

variable (emits : Covered supply types
  ((Setting.fixed utils binaryToJsonString recursionLimit bits).emitter last.kind))

include emits

/-- Chains cover their rows, by induction on the parts. Only where they are no more than
the emitter does it matter what they are handed. -/
theorem chain_covered {parts : List ChainPart} (hands : HandsOver types last parts)
    (position : Nat) :
    Covered supply (fun type => parts = [] → last.trailingDot = false → types type)
      ((Setting.fixed utils binaryToJsonString recursionLimit bits).chain last position
        parts) := by
  induction parts generalizing position with
  | nil =>
      rw [Setting.chain, Setting.chainEnd]
      split
      · exact descend_covered
          (fun budget piece field _ spans => emits.field budget field.value piece spans) ()
      · rename_i noDot
        rw [Bool.not_eq_true] at noDot
        exact ⟨emits.field, fun type size payload taken isType =>
          emits.handed type size payload taken (isType rfl noDot)⟩
  | cons part parts induction =>
      rw [Setting.chain]
      exact descend_covered (part_draws hands (induction hands.rest _)) 0

theorem runs_draws {parts : List ChainPart} (hands : HandsOver types last parts)
    (nonempty : parts ≠ [] ∨ last.trailingDot = true) (message : Bytes) :
    Draws supply
      ((Setting.fixed utils binaryToJsonString recursionLimit bits).runs parts last message)
      message := by
  rw [Setting.runs]
  cases parts with
  | nil =>
      have isDot : last.trailingDot = true := nonempty.resolve_left fun absent => absent rfl
      rw [Setting.chain, Setting.chainEnd, if_pos isDot]
      exact draws_scanSubmessage
        (fun budget piece field _ spans => emits.field budget field.value piece spans) _ () _
  | cons part parts =>
      rw [Setting.chain]
      exact draws_scanSubmessage
        (part_draws hands (chain_covered emits hands.rest _)) _ 0 _

end

end

/-! ## Emitters -/

section

variable {supply : Supply UInt8 StdString}

theorem draws_emit {row : Except Exception (Option StdString)} {taken : Bytes}
    (covers : ∀ text, row = .ok (some text) → supply.Covers taken [text]) :
    Draws supply (emit row) taken := by
  rcases row with exception | _ | text
  · exact draws_raise _ _
  · exact draws_one _
  · exact covers text rfl

end

section

variable (utils : PostgresUtils)
variable (binaryToJsonString : StdString → Bytes → Option StdString)
variable (recursionLimit : Nat) (bits : UInt64)

theorem emitter_counted (kind : EmitterKind) :
    Covered (.counting UInt8 StdString) (fun _ => True)
      ((Setting.fixed utils binaryToJsonString recursionLimit bits).emitter kind) := by
  have one : ∀ {taken value}, Spans taken value → ∀ row,
      Draws (.counting UInt8 StdString) (emit row) taken := by
    intro taken value spans row
    apply draws_emit
    intro text _
    change 1 ≤ taken.length
    cases spans with
    | payload size payload long =>
        rw [List.length_append]
        omega
    | primitive nonempty _ => exact List.length_pos_iff.mpr nonempty
  constructor
  · intro budget value taken spans
    cases value with
    | lengthDelimited size payload =>
        exact draws_treatAs (fun _ => one spans _) (fun _ => one spans _) fun _ => one spans _
    | _ =>
        change Draws _ ((Setting.fixed utils binaryToJsonString recursionLimit
          bits).emitPrimitive kind _) taken
        rw [emitPrimitive_fixed]
        exact one spans _
  · intro type size payload taken _ spans
    exact draws_treatAs (fun _ => one spans _) (fun _ => one spans _) fun _ => one spans _

end

namespace EmitterKind

def Textual : EmitterKind → Prop
  | primitive .string | primitive .bytes | message _ => True
  | _ => False

def Shows (binaryToJsonString : StdString → Bytes → Option StdString) (kind : EmitterKind)
    (payload : Bytes) (row : StdString) : Prop :=
  match kind with
  | primitive .string => row = payload
  | primitive .bytes => row = bytesRow payload
  | message typeUrl => binaryToJsonString typeUrl payload = some row
  | _ => False

def type : EmitterKind → FieldType
  | primitive type => type
  | enum _ => .enum
  | message _ => .message

end EmitterKind

section

variable (utils : PostgresUtils)
variable (binaryToJsonString : StdString → Bytes → Option StdString)
variable (recursionLimit : Nat) (bits : UInt64)

theorem emitTreated_draws {kind : EmitterKind} (isText : kind.Textual)
    {treatment : LengthDelimitedFieldTreatment}
    (isTreatment : treatment = kind.readLengthDelimitedField ∨
      treatment = compositeFieldTreatmentForType kind.type) (size : Nat) (payload : Bytes) :
    Draws (.excerpts (kind.Shows binaryToJsonString))
      ((Setting.fixed utils binaryToJsonString recursionLimit bits).emitTreated kind treatment
        size payload) payload := by
  have whole : ∀ row, kind.Shows binaryToJsonString payload row →
      (Supply.excerpts (kind.Shows binaryToJsonString)).Covers payload [row] :=
    fun row shows => Excerpts.single [] shows
  apply draws_treatAs
  · intro asString
    apply draws_emit
    intro row isRow
    apply whole
    cases kind with
    | primitive type =>
        cases type <;> first | exact isText.elim | skip
        · exact (Option.some.inj (Except.ok.inj isRow)).symm
        · rcases isTreatment with rfl | rfl <;> cases asString
    | enum descriptor => exact isText.elim
    | message typeUrl => cases isRow
  · intro asBytes
    apply draws_emit
    intro row isRow
    apply whole
    cases kind with
    | primitive type =>
        cases type <;> first | exact isText.elim | skip
        · rcases isTreatment with rfl | rfl <;> cases asBytes
        · exact (Option.some.inj (Except.ok.inj isRow)).symm
    | enum descriptor => exact isText.elim
    | message typeUrl => cases isRow
  · intro buffered
    apply draws_emit
    intro row isRow
    apply whole
    cases kind with
    | primitive type => cases isRow
    | enum descriptor => exact isText.elim
    | message typeUrl =>
        change EmitterKind.bufferedValue binaryToJsonString (.message typeUrl) payload = _ at isRow
        unfold EmitterKind.bufferedValue at isRow
        dsimp only at isRow
        split at isRow
        · cases isRow
        · split at isRow
          · rename_i json isJson
            cases isRow
            exact isJson
          · cases isRow

theorem emitter_excerpts {kind : EmitterKind} (isText : kind.Textual) :
    Covered (.excerpts (kind.Shows binaryToJsonString)) (· = kind.type)
      ((Setting.fixed utils binaryToJsonString recursionLimit bits).emitter kind) := by
  constructor
  · intro budget value taken spans
    cases value with
    | lengthDelimited size payload =>
        exact draws_of_payload spans
          (emitTreated_draws utils _ _ bits isText (.inl rfl) size payload)
    | _ =>
        change Draws _ ((Setting.fixed utils binaryToJsonString recursionLimit
          bits).emitPrimitive kind _) taken
        rw [emitPrimitive_fixed]
        apply draws_emit
        intro row isRow
        cases kind with
        | primitive type => cases type <;> first | exact isText.elim | cases isRow
        | enum descriptor => exact isText.elim
        | message typeUrl => cases isRow
  · rintro type size payload taken rfl spans
    exact draws_of_payload spans
      (emitTreated_draws utils _ _ bits isText (.inr rfl) size payload)

end

/-! ## Locals that texts do not depend on -/

namespace Setting

section

variable (utils : PostgresUtils)
variable (binaryToJsonString : StdString → Bytes → Option StdString) (recursionLimit : Nat)
variable (bits : UInt64)

abbrev anyLocals : Setting Unit :=
  overLocals utils binaryToJsonString recursionLimit none false

theorem emitPrimitive_anyLocals {kind : EmitterKind} (isText : kind.Textual)
    (value : WireValue) :
    (anyLocals utils binaryToJsonString recursionLimit).emitPrimitive kind value =
      (fixed utils binaryToJsonString recursionLimit bits).emitPrimitive kind value := by
  rw [emitPrimitive_fixed]
  rcases EmitterKind.readPrimitive_cases utils kind with ⟨row, always⟩ | rows
  · have known : (anyLocals utils binaryToJsonString recursionLimit).knowledge.read
        (fun bits => kind.readPrimitive (anyLocals utils binaryToJsonString
          recursionLimit).utils (value.header bits)) = some row :=
      Knowledge.read_of_determined _ fun bits _ => always (value.header bits)
    simp only [emitPrimitive, known, always]
  · rcases rows (value.header 0) with ⟨text, isRow⟩
    cases kind with
    | primitive type => cases type <;> first | exact isText.elim | cases isRow
    | enum descriptor => exact isText.elim
    | message typeUrl => cases isRow

theorem emitter_anyLocals {kind : EmitterKind} (isText : kind.Textual) :
    (anyLocals utils binaryToJsonString recursionLimit).emitter kind =
      (fixed utils binaryToJsonString recursionLimit bits).emitter kind := by
  unfold emitter
  congr
  funext budget value
  cases value with
  | lengthDelimited size payload => rfl
  | _ => exact emitPrimitive_anyLocals utils binaryToJsonString recursionLimit bits isText _

theorem runs_anyLocals {last : ChainEnd} (isText : last.kind.Textual) (parts : List ChainPart)
    (message : Bytes) :
    (anyLocals utils binaryToJsonString recursionLimit).runs parts last message =
      (fixed utils binaryToJsonString recursionLimit bits).runs parts last message := by
  have sameEmitter := emitter_anyLocals utils binaryToJsonString recursionLimit bits isText
  unfold runs
  rw [chain_eq_chainOnto, chain_eq_chainOnto, chainEnd_eq_endOnto, chainEnd_eq_endOnto,
    sameEmitter, chainOnto_overLocals _ _ _ none (some bits) false false]
  rfl

end

end Setting

/-! ## Rows of queries -/

section

variable (Stream : Type) [CodedInputStream Stream] [LawfulCodedInputStream Stream]

theorem emitted_textual {uninitialised : Uninitialised} {parts : List ChainPart}
    {last : ChainEnd} {utils : PostgresUtils}
    {binaryToJsonString : StdString → Bytes → Option StdString}
    (zero : uninitialised.ZeroBuffers) (isText : last.kind.Textual)
    (localBits : Nat → UInt64) (message : Bytea) :
    QueryImpl.emitted Stream ⟨chainObjects uninitialised parts last, binaryToJsonString⟩ utils
        localBits message =
      Event.rows ((Setting.fixed utils binaryToJsonString
        (CodedInputStream.recursionLimit Stream) 0).runs parts last message.data ()).1 := by
  let setting := Setting.anyLocals utils binaryToJsonString
    (CodedInputStream.recursionLimit Stream)
  have matching : Matches setting ⟨utils, binaryToJsonString, localBits⟩ Stream :=
    ⟨rfl, rfl, nofun, rfl⟩
  have sameRuns := Setting.runs_anyLocals utils binaryToJsonString
    (CodedInputStream.recursionLimit Stream) 0 isText parts message.data
  have determined : ((Setting.fixed utils binaryToJsonString
      (CodedInputStream.recursionLimit Stream) 0).runs parts last message.data ()).2 ≠
      .error .undefined := runs_fixed_determined _ 0 message
  rw [← sameRuns] at determined ⊢
  exact rowsShow_emitted matching (zero.suits _ ()) rfl determined

theorem kind_of_last {uninitialised : Uninitialised} {parts : List ChainPart}
    {last : ChainEnd} {kind : EmitterKind}
    (isKind : (chainObjects uninitialised parts last).getLast? =
      some (.emitter (.new kind none))) : last.kind = kind := by
  simp only [chainObjects, ← List.append_assoc, List.getLast?_concat, Option.some.injEq,
    ChainVisitor.emitter.injEq, Emitter.new, Emitter.mk.injEq, and_true] at isKind
  exact isKind

theorem run_textual {uninitialised : Uninitialised} {parts : List ChainPart}
    {last : ChainEnd} {utils : PostgresUtils}
    {binaryToJsonString : StdString → Bytes → Option StdString}
    (zero : uninitialised.ZeroBuffers) (isText : last.kind.Textual)
    (localBits : Nat → UInt64) (message : Bytea) :
    QueryImpl.run Stream ⟨chainObjects uninitialised parts last, binaryToJsonString⟩ utils
        localBits message =
      answer ((Setting.fixed utils binaryToJsonString
        (CodedInputStream.recursionLimit Stream) 0).runs parts last message.data) := by
  let setting := Setting.anyLocals utils binaryToJsonString
    (CodedInputStream.recursionLimit Stream)
  have matching : Matches setting ⟨utils, binaryToJsonString, localBits⟩ Stream :=
    ⟨rfl, rfl, nofun, rfl⟩
  have sameRuns := Setting.runs_anyLocals utils binaryToJsonString
    (CodedInputStream.recursionLimit Stream) 0 isText parts message.data
  refine run_eq rfl matching (zero.suits _ ()) ?_
  rw [Setting.outcome, sameRuns]
  exact conclude_proper (proper_chain utils binaryToJsonString 0 parts last
    (CodedInputStream.recursionLimit Stream) _ 0 message.size_lt)

theorem ChainCompiles.emitted_excerpts {uninitialised : Uninitialised}
    {pool : DescriptorPool Message} {desc : Message} {path : StdString}
    {parts : List ChainPart} {last : ChainEnd} {final : DescPtrs Message}
    (chain : ChainCompiles uninitialised pool desc path parts last final)
    (zero : uninitialised.ZeroBuffers) (isText : last.kind.Textual)
    (binaryToJsonString : StdString → Bytes → Option StdString) (utils : PostgresUtils)
    (localBits : Nat → UInt64) (message : Bytea) :
    Excerpts (last.kind.Shows binaryToJsonString) message.data
      (QueryImpl.emitted Stream ⟨chainObjects uninitialised parts last, binaryToJsonString⟩
        utils localBits message) := by
  rw [emitted_textual Stream zero isText]
  have emits := emitter_excerpts utils binaryToJsonString
    (CodedInputStream.recursionLimit Stream) 0 isText
  have isFinal : last.kind.type = final.type := by
    rcases Emitter.kind_cases chain.emits with ⟨isMessage, _, isKind⟩ |
      ⟨isEnum, _, isKind⟩ | ⟨_, _, isKind⟩
    · rw [isKind, isMessage]
      rfl
    · rw [isKind, isEnum]
      rfl
    · rw [isKind]
      rfl
  rcases chain.compiles with ⟨_, rfl, noDot, _⟩ | ⟨nonempty, compiles⟩
  · rw [Setting.runs, Setting.chain, Setting.chainEnd, noDot]
    exact emitTreated_draws utils _ _ 0 isText (.inl rfl) _ message.data
  · have hands : HandsOver (· = last.kind.type) last parts := by
      intro noDot part isLast notMap
      exact (compiles.type_of_last noDot part isLast notMap).trans isFinal.symm
    exact runs_draws emits hands (.inl (compiles.parts_ne_nil nonempty)) message.data

/-- The rows of strings, of bytes and of messages are shown by payloads that stand in the
message apart from each other, in the order of the rows, whether the run returns or
throws. -/
theorem rows_excerpts {descDb : DescDb Message} {uninitialised : Uninitialised}
    {text : StdString} {limit : Option Nat} {query : QueryImpl}
    (accepted : compileQuery descDb uninitialised text limit = .ok query)
    (zero : uninitialised.ZeroBuffers) {kind : EmitterKind}
    (isKind : query.visitors.getLast? = some (.emitter (.new kind none)))
    (isText : kind.Textual) (utils : PostgresUtils) (localBits : Nat → UInt64)
    (message : Bytea) :
    Excerpts (kind.Shows query.binaryToJsonString) message.data
      (query.emitted Stream utils localBits message) := by
  rcases compileQuery_eq_ok_iff.mp accepted with
    ⟨descSet, desc, path, parts, last, final, _, chain, rfl⟩
  obtain rfl := kind_of_last isKind
  exact chain.emitted_excerpts Stream zero isText _ utils localBits message

/-- The strings of two inner messages, the second of which is cut off. -/
theorem rows_excerpts_innerRepeated :
    let message : Bytea := ⟨[0x2A, 3, 0x12, 1, 0x61, 0x2A, 9, 0x12, 1, 0x62, 0x12, 5], by decide⟩
    let query := testQuery .exampleMessage "repeated_inner[*].inner_repeated[*]"
    Excerpts ((EmitterKind.primitive .string).Shows query.binaryToJsonString) message.data
      (query.emitted ArrayStream testUtils (fun _ => 7) message) :=
  rows_excerpts ArrayStream
    (rfl : compileQuery testDb zeroMemory
      (literal "pgpb.test.ExampleMessage:repeated_inner[*].inner_repeated[*]") none =
      .ok (testQuery .exampleMessage "repeated_inner[*].inner_repeated[*]"))
    (fun _ => ⟨rfl, rfl⟩) rfl trivial testUtils (fun _ => 7) _

theorem ChainCompiles.emitted_length_le {uninitialised : Uninitialised}
    {pool : DescriptorPool Message} {desc : Message} {path : StdString}
    {parts : List ChainPart} {last : ChainEnd} {final : DescPtrs Message}
    (chain : ChainCompiles uninitialised pool desc path parts last final)
    (zero : uninitialised.ZeroBuffers)
    (binaryToJsonString : StdString → Bytes → Option StdString) (utils : PostgresUtils)
    (localBits : Nat → UInt64) (message : Bytea) :
    (QueryImpl.emitted Stream ⟨chainObjects uninitialised parts last, binaryToJsonString⟩ utils
      localBits message).length ≤ if path = [] then 1 else message.data.length := by
  rw [length_emitted zero localBits 0]
  rcases chain.compiles with ⟨isEmpty, rfl, noDot, _⟩ | ⟨nonempty, compiles⟩
  · rw [if_pos isEmpty, Setting.runs, Setting.chain, Setting.chainEnd, noDot]
    have one : ∀ row, Draws (.counting UInt8 StdString) (emit row) [0] :=
      fun row => draws_emit fun _ _ => Nat.le_refl 1
    have whole : Draws (.counting UInt8 StdString)
        ((Setting.fixed utils binaryToJsonString (CodedInputStream.recursionLimit Stream)
          0).emitTreated last.kind last.kind.readLengthDelimitedField message.data.length
          message.data) [0] :=
      draws_treatAs (fun _ => one _) (fun _ => one _) fun _ => one _
    exact whole
  · rw [if_neg nonempty]
    exact runs_draws (emitter_counted utils _ _ 0 last.kind) (fun _ _ _ _ => trivial)
      (.inl (compiles.parts_ne_nil nonempty)) message.data

/-- A run emits no more rows than the message has bytes, and one for the empty path,
whether it returns or throws. -/
theorem length_emitted_le {descDb : DescDb Message} {uninitialised : Uninitialised}
    {text : StdString} {limit : Option Nat} {descSet : DescSet Message} {desc : Message}
    {path : StdString} {query : QueryImpl}
    (resolved : resolveQuery descDb text = .ok (descSet, desc, path))
    (accepted : compileQuery descDb uninitialised text limit = .ok query)
    (zero : uninitialised.ZeroBuffers) (utils : PostgresUtils) (localBits : Nat → UInt64)
    (message : Bytea) :
    (query.emitted Stream utils localBits message).length ≤
      if path = [] then 1 else message.data.length := by
  rcases compileQuery_eq_ok_iff.mp accepted with
    ⟨otherSet, otherDesc, otherPath, parts, last, final, resolvedTo, chain, rfl⟩
  cases resolved.symm.trans resolvedTo
  exact chain.emitted_length_le Stream zero _ utils localBits message

/-- Four packed integers. -/
theorem length_emitted_le_repeatedInt32 :
    let message : Bytea := ⟨[0x12, 4, 0, 1, 2, 3], by decide⟩
    ((testQuery .exampleMessage "repeated_int32[*]").emitted ArrayStream testUtils
      (fun _ => 0) message).length ≤ 6 :=
  length_emitted_le ArrayStream
    (rfl : resolveQuery testDb (literal "pgpb.test.ExampleMessage:repeated_int32[*]") =
      .ok (testSet, .exampleMessage, literal "repeated_int32[*]"))
    (rfl : compileQuery testDb zeroMemory
      (literal "pgpb.test.ExampleMessage:repeated_int32[*]") none =
      .ok (testQuery .exampleMessage "repeated_int32[*]"))
    (fun _ => ⟨rfl, rfl⟩) testUtils (fun _ => 0) ⟨[0x12, 4, 0, 1, 2, 3], by decide⟩

end

end PostgresProtobuf
