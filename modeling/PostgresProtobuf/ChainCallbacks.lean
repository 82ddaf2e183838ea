import PostgresProtobuf.Semantics

/-! # Callbacks on the objects of a chain

Each callback looks at one object, the one behind the objects `front`, and
leaves those alone. -/

namespace PostgresProtobuf

open Foundation

/-! ## What a run has recorded -/

namespace Event

def rows (events : List Event) : List StdString :=
  events.filterMap fun event =>
    match event with
    | .row text => some text
    | _ => none

def scans (events : List Event) : List Event := events.filter fun event => !event.isRow

@[simp] theorem rows_append (front back : List Event) :
    rows (front ++ back) = rows front ++ rows back :=
  List.filterMap_append

@[simp] theorem scans_append (front back : List Event) :
    scans (front ++ back) = scans front ++ scans back :=
  List.filter_append ..

end Event

variable {Stream : Type}

namespace World

def withVisitors (world : QueryWorld Stream) (visitors : List ChainVisitor) :
    QueryWorld Stream :=
  { world with memory := { world.memory with visitors := visitors } }

@[simp] theorem visitors_withVisitors (world : QueryWorld Stream)
    (visitors : List ChainVisitor) :
    (world.withVisitors visitors).memory.visitors = visitors := rfl

theorem withVisitors_self {world : QueryWorld Stream} {visitors : List ChainVisitor}
    (holds : world.memory.visitors = visitors) : world.withVisitors visitors = world := by
  subst holds
  rfl

end World

section

variable [CodedInputStream Stream] [LawfulCodedInputStream Stream]

def ScanEvent.event : ScanEvent Stream → Event
  | .enterMessage stream =>
      .enter (LawfulCodedInputStream.view stream).recursionBudget
        (LawfulCodedInputStream.view stream).left
  | .leaveMessage => .leave

def RowsShow (textless : Bool) (rows texts : List StdString) : Prop :=
  if textless then rows.length = texts.length else rows = texts

theorem rowsShow_self (textless : Bool) (rows : List StdString) :
    RowsShow textless rows rows := by
  cases textless <;> rfl

theorem RowsShow.append {textless : Bool} {rows texts moreRows moreTexts : List StdString}
    (shows : RowsShow textless rows texts) (showsMore : RowsShow textless moreRows moreTexts) :
    RowsShow textless (rows ++ moreRows) (texts ++ moreTexts) := by
  cases textless with
  | false => exact congrArg₂ (· ++ ·) shows showsMore
  | true =>
      have first : rows.length = texts.length := shows
      have more : moreRows.length = moreTexts.length := showsMore
      simp only [RowsShow, if_true, List.length_append, first, more]

def runRecorder (textless : Bool) : Recorder (QueryWorld Stream) Event where
  Records world events after :=
    (∃ rows, after.memory.rows = world.memory.rows ++ rows ∧
      RowsShow textless rows (Event.rows events)) ∧
      ∃ recorded, after.scanned = world.scanned ++ recorded ∧
        recorded.map ScanEvent.event = Event.scans events
  nil world := ⟨⟨[], by simp, rowsShow_self textless []⟩, [], by simp, rfl⟩
  append := by
    rintro first second third front back ⟨⟨rows, isRows, shows⟩, recorded, scanned, same⟩
      ⟨⟨moreRows, isMore, showsMore⟩, moreRecorded, moreScanned, moreSame⟩
    refine ⟨⟨rows ++ moreRows, by simp [isMore, isRows], ?_⟩, recorded ++ moreRecorded, ?_, ?_⟩
    · rw [Event.rows_append]
      exact shows.append showsMore
    · simp [moreScanned, scanned]
    · simp [same, moreSame]

theorem runRecorder_nil {textless : Bool} {world after : QueryWorld Stream}
    (rows : after.memory.rows = world.memory.rows)
    (scanned : after.scanned = world.scanned) : (runRecorder textless).Records world [] after :=
  ⟨⟨[], by simp [rows], rowsShow_self textless []⟩, [], by simp [scanned], rfl⟩

theorem runRecorder_withVisitors {textless : Bool} (world : QueryWorld Stream)
    (visitors : List ChainVisitor) :
    (runRecorder textless).Records world [] (world.withVisitors visitors) :=
  runRecorder_nil rfl rfl

end

/-! ## Objects by their position -/

section

variable {world : QueryWorld Stream} {front rest : List ChainVisitor}
variable {visitor : ChainVisitor}

theorem readVisitor_eq (holds : world.memory.visitors = front ++ visitor :: rest) :
    readVisitor (some front.length) world = .ok (some visitor) world := by
  have found : world.memory.visitors[front.length]? = some visitor := by simp [holds]
  exact congrArg (EStateM.Result.ok · world) found

theorem writeVisitor_eq (holds : world.memory.visitors = front ++ visitor :: rest)
    (written : ChainVisitor) :
    writeVisitor (some front.length) written world =
      .ok () (world.withVisitors (front ++ written :: rest)) := by
  have replaced : world.memory.visitors.set front.length written = front ++ written :: rest := by
    simp [holds]
  exact congrArg (fun visitors => EStateM.Result.ok () (world.withVisitors visitors)) replaced

theorem nextVisitor_eq {next : ChainVisitor}
    (holds : world.memory.visitors = front ++ visitor :: next :: rest) :
    nextVisitor (some front.length) world =
      .ok (some (front ++ [visitor]).length) world := by
  have follows : world.memory.next front.length =
      some (front ++ [visitor]).length := by
    simp [QueryMemory.next, holds]
  exact congrArg (EStateM.Result.ok · world) follows

end

namespace ChainVisitor

variable (utils : PostgresUtils)
variable (binaryToJsonString : StdString → Bytes → Option StdString)
variable (forward : VisitorPointer → FieldInfo → StdString →
  Program (QueryWorld Stream) Unit)
variable {world : QueryWorld Stream} {front rest : List ChainVisitor}

/-! ## Visitors that keep no state -/

section

variable {visitor : ChainVisitor}

def Stateless : ChainVisitor → Prop
  | descendIntoSubmessage => True
  | emitter _ => True
  | _ => False

variable (stateless : visitor.Stateless)
variable (holds : world.memory.visitors = front ++ visitor :: rest)

include stateless holds

theorem beginField_stateless (number : Int) (wireType : Nat) :
    (chainVisitors utils binaryToJsonString forward).beginField (some front.length)
      number wireType world = .ok (some front.length) world := by
  simp only [chainVisitors]
  rw [Program.bind_ok (readVisitor_eq holds)]
  cases visitor <;> first | rfl | exact absurd stateless (by simp [Stateless])

theorem endField_stateless :
    (chainVisitors utils binaryToJsonString forward).endField (some front.length)
      world = .ok () world := by
  simp only [chainVisitors]
  rw [Program.bind_ok (readVisitor_eq holds)]
  cases visitor <;> first | rfl | exact absurd stateless (by simp [Stateless])

theorem popped_stateless :
    (chainVisitors utils binaryToJsonString forward).popped (some front.length)
      world = .ok () world := by
  simp only [chainVisitors]
  rw [Program.bind_ok (readVisitor_eq holds)]
  cases visitor <;> first | rfl | exact absurd stateless (by simp [Stateless])

end

/-! ## Descending -/

section

variable (holds : world.memory.visitors = front ++ descendIntoSubmessage :: rest)

include holds

theorem readPrimitive_descend (field : FieldInfo) :
    (chainVisitors utils binaryToJsonString forward).readPrimitive (some front.length)
      field world = .ok () world := by
  simp only [chainVisitors]
  rw [Program.bind_ok (readVisitor_eq holds)]
  rfl

theorem readLengthDelimitedField_descend (field : FieldInfo) :
    (chainVisitors utils binaryToJsonString forward).readLengthDelimitedField
      (some front.length) field world =
      .ok (.asSubmessage, some front.length) world := by
  simp only [chainVisitors]
  rw [Program.bind_ok (readVisitor_eq holds)]
  rfl

theorem readString_descend (contents : StdString) :
    (chainVisitors utils binaryToJsonString forward).readString (some front.length)
      contents world = .ok () world := by
  simp only [chainVisitors]
  rw [Program.bind_ok (readVisitor_eq holds)]
  rfl

theorem readBytes_descend (contents : StdString) :
    (chainVisitors utils binaryToJsonString forward).readBytes (some front.length)
      contents world = .ok () world := by
  simp only [chainVisitors]
  rw [Program.bind_ok (readVisitor_eq holds)]
  rfl

theorem bufferedValue_descend (contents : StdString) :
    (chainVisitors utils binaryToJsonString forward).bufferedValue (some front.length)
      contents world = .ok () world := by
  simp only [chainVisitors]
  rw [Program.bind_ok (readVisitor_eq holds)]
  rfl

end

theorem beginMessage_descend {next : ChainVisitor}
    (holds : world.memory.visitors = front ++ descendIntoSubmessage :: next :: rest) :
    (chainVisitors utils binaryToJsonString forward).beginMessage (some front.length)
      world = .ok (some (front ++ [descendIntoSubmessage]).length) world := by
  simp only [chainVisitors]
  rw [Program.bind_ok (readVisitor_eq holds)]
  exact nextVisitor_eq holds

/-! ## Emitters -/

section

variable {last : Emitter}
variable (holds : world.memory.visitors = front ++ emitter last :: rest)

include holds

theorem readPrimitive_emitter (field : FieldInfo) :
    (chainVisitors utils binaryToJsonString forward).readPrimitive (some front.length)
      field world = emitRow last (last.kind.readPrimitive utils field) world := by
  simp only [chainVisitors]
  rw [Program.bind_ok (readVisitor_eq holds)]

theorem readLengthDelimitedField_emitter (field : FieldInfo) :
    (chainVisitors utils binaryToJsonString forward).readLengthDelimitedField
      (some front.length) field world =
      .ok (last.kind.readLengthDelimitedField, some front.length) world := by
  simp only [chainVisitors]
  rw [Program.bind_ok (readVisitor_eq holds)]
  rfl

theorem readString_emitter (contents : StdString) :
    (chainVisitors utils binaryToJsonString forward).readString (some front.length)
      contents world = emitRow last (.ok (last.kind.readString contents)) world := by
  simp only [chainVisitors]
  rw [Program.bind_ok (readVisitor_eq holds)]

theorem readBytes_emitter (contents : StdString) :
    (chainVisitors utils binaryToJsonString forward).readBytes (some front.length)
      contents world = emitRow last (.ok (last.kind.readBytes contents)) world := by
  simp only [chainVisitors]
  rw [Program.bind_ok (readVisitor_eq holds)]

theorem bufferedValue_emitter (contents : StdString) :
    (chainVisitors utils binaryToJsonString forward).bufferedValue (some front.length)
      contents world =
      emitRow last (last.kind.bufferedValue binaryToJsonString contents) world := by
  simp only [chainVisitors]
  rw [Program.bind_ok (readVisitor_eq holds)]

theorem beginMessage_emitter :
    (chainVisitors utils binaryToJsonString forward).beginMessage (some front.length)
      world = .ok (some front.length) world := by
  simp only [chainVisitors]
  rw [Program.bind_ok (readVisitor_eq holds)]
  rfl

end

/-! ## Field selectors -/

section

variable {selector : FieldSelector}
variable (holds : world.memory.visitors = front ++ fieldSelector selector :: rest)

include holds

theorem beginField_selector_stays {number : Int} {wireType : Nat}
    {after : FieldSelector} (step : selector.beginField number wireType = (after, false)) :
    (chainVisitors utils binaryToJsonString forward).beginField (some front.length)
      number wireType world =
      .ok (some front.length)
        (world.withVisitors (front ++ fieldSelector after :: rest)) := by
  simp only [chainVisitors]
  rw [Program.bind_ok (readVisitor_eq holds)]
  simp only [step]
  rw [Program.bind_ok (writeVisitor_eq holds _)]
  rfl

theorem readPrimitive_selector (field : FieldInfo) :
    (chainVisitors utils binaryToJsonString forward).readPrimitive (some front.length)
      field world = .ok () world := by
  simp only [chainVisitors]
  rw [Program.bind_ok (readVisitor_eq holds)]
  rfl

theorem readLengthDelimitedField_selector_stays (field : FieldInfo)
    {treatment : LengthDelimitedFieldTreatment}
    (step : selector.readLengthDelimitedField = (treatment, false)) :
    (chainVisitors utils binaryToJsonString forward).readLengthDelimitedField
      (some front.length) field world =
      .ok (treatment, some front.length) world := by
  simp only [chainVisitors]
  rw [Program.bind_ok (readVisitor_eq holds)]
  simp only [step]
  rfl

theorem beginMessage_selector :
    (chainVisitors utils binaryToJsonString forward).beginMessage (some front.length)
      world = .ok (some front.length) world := by
  simp only [chainVisitors]
  rw [Program.bind_ok (readVisitor_eq holds)]
  rfl

theorem endField_selector :
    (chainVisitors utils binaryToJsonString forward).endField (some front.length) world =
      .ok () (world.withVisitors (front ++ fieldSelector selector.endField :: rest)) := by
  simp only [chainVisitors]
  rw [Program.bind_ok (readVisitor_eq holds)]
  exact writeVisitor_eq holds _

theorem popped_selector :
    (chainVisitors utils binaryToJsonString forward).popped (some front.length) world =
      .ok () (world.withVisitors (front ++ fieldSelector selector.popped :: rest)) := by
  simp only [chainVisitors]
  rw [Program.bind_ok (readVisitor_eq holds)]
  exact writeVisitor_eq holds _

end

theorem beginField_selector_handsOver {selector after : FieldSelector}
    {next : ChainVisitor}
    (holds : world.memory.visitors = front ++ fieldSelector selector :: next :: rest)
    {number : Int} {wireType : Nat}
    (step : selector.beginField number wireType = (after, true)) :
    (chainVisitors utils binaryToJsonString forward).beginField (some front.length)
      number wireType world =
      .ok (some (front ++ [fieldSelector after]).length)
        (world.withVisitors (front ++ fieldSelector after :: next :: rest)) := by
  simp only [chainVisitors]
  rw [Program.bind_ok (readVisitor_eq holds)]
  simp only [step]
  rw [Program.bind_ok (writeVisitor_eq holds _)]
  exact nextVisitor_eq rfl

theorem readLengthDelimitedField_selector_handsOver {selector : FieldSelector}
    {next : ChainVisitor}
    (holds : world.memory.visitors = front ++ fieldSelector selector :: next :: rest)
    (field : FieldInfo) {treatment : LengthDelimitedFieldTreatment}
    (step : selector.readLengthDelimitedField = (treatment, true)) :
    (chainVisitors utils binaryToJsonString forward).readLengthDelimitedField
      (some front.length) field world =
      .ok (treatment, some (front ++ [fieldSelector selector]).length) world := by
  simp only [chainVisitors]
  rw [Program.bind_ok (readVisitor_eq holds)]
  simp only [step, if_true]
  exact Program.bind_ok (nextVisitor_eq holds)

/-! ## All map entries -/

section

variable {entries : AllMapEntries}
variable (holds : world.memory.visitors = front ++ allMapEntries entries :: rest)

include holds

theorem beginField_entries_stays {number : Int} (wireType : Nat)
    {after : AllMapEntries} (step : entries.beginField number = (after, false)) :
    (chainVisitors utils binaryToJsonString forward).beginField (some front.length)
      number wireType world =
      .ok (some front.length)
        (world.withVisitors (front ++ allMapEntries after :: rest)) := by
  simp only [chainVisitors]
  rw [Program.bind_ok (readVisitor_eq holds)]
  simp only [step]
  rw [Program.bind_ok (writeVisitor_eq holds _)]
  rfl

theorem readPrimitive_entries (field : FieldInfo) :
    (chainVisitors utils binaryToJsonString forward).readPrimitive (some front.length)
      field world = .ok () world := by
  simp only [chainVisitors]
  rw [Program.bind_ok (readVisitor_eq holds)]
  rfl

theorem readLengthDelimitedField_entries_stays (field : FieldInfo)
    {treatment : LengthDelimitedFieldTreatment}
    (step : entries.readLengthDelimitedField = (treatment, false)) :
    (chainVisitors utils binaryToJsonString forward).readLengthDelimitedField
      (some front.length) field world =
      .ok (treatment, some front.length) world := by
  simp only [chainVisitors]
  rw [Program.bind_ok (readVisitor_eq holds)]
  simp only [step]
  rfl

theorem beginMessage_entries :
    (chainVisitors utils binaryToJsonString forward).beginMessage (some front.length)
      world = .ok (some front.length) world := by
  simp only [chainVisitors]
  rw [Program.bind_ok (readVisitor_eq holds)]
  rfl

theorem endField_entries :
    (chainVisitors utils binaryToJsonString forward).endField (some front.length) world =
      .ok () (world.withVisitors (front ++ allMapEntries entries.endField :: rest)) := by
  simp only [chainVisitors]
  rw [Program.bind_ok (readVisitor_eq holds)]
  exact writeVisitor_eq holds _

theorem popped_entries :
    (chainVisitors utils binaryToJsonString forward).popped (some front.length) world =
      .ok () world := by
  simp only [chainVisitors]
  rw [Program.bind_ok (readVisitor_eq holds)]
  rfl

end

theorem beginField_entries_handsOver {entries after : AllMapEntries}
    {next : ChainVisitor}
    (holds : world.memory.visitors = front ++ allMapEntries entries :: next :: rest)
    {number : Int} (wireType : Nat) (step : entries.beginField number = (after, true)) :
    (chainVisitors utils binaryToJsonString forward).beginField (some front.length)
      number wireType world =
      .ok (some (front ++ [allMapEntries after]).length)
        (world.withVisitors (front ++ allMapEntries after :: next :: rest)) := by
  simp only [chainVisitors]
  rw [Program.bind_ok (readVisitor_eq holds)]
  simp only [step]
  rw [Program.bind_ok (writeVisitor_eq holds _)]
  exact nextVisitor_eq rfl

/-! ## Map filters -/

section

variable {filter : MapFilter}
variable (holds : world.memory.visitors = front ++ mapFilter filter :: rest)

include holds

theorem beginField_filter (number : Int) (wireType : Nat) :
    (chainVisitors utils binaryToJsonString forward).beginField (some front.length)
      number wireType world =
      .ok (some front.length) (world.withVisitors
        (front ++ mapFilter (filter.beginField number wireType) :: rest)) := by
  simp only [chainVisitors]
  rw [Program.bind_ok (readVisitor_eq holds)]
  simp only
  rw [Program.bind_ok (writeVisitor_eq holds _)]
  rfl

theorem readPrimitive_filter (field : FieldInfo) :
    (chainVisitors utils binaryToJsonString forward).readPrimitive (some front.length)
      field world =
      .ok () (world.withVisitors
        (front ++ mapFilter (filter.readPrimitive field) :: rest)) := by
  simp only [chainVisitors]
  rw [Program.bind_ok (readVisitor_eq holds)]
  exact writeVisitor_eq holds _

theorem readLengthDelimitedField_filter (field : FieldInfo) :
    (chainVisitors utils binaryToJsonString forward).readLengthDelimitedField
      (some front.length) field world =
      .ok ((filter.readLengthDelimitedField field).2, some front.length)
        (world.withVisitors
          (front ++ mapFilter (filter.readLengthDelimitedField field).1 :: rest)) := by
  simp only [chainVisitors]
  rw [Program.bind_ok (readVisitor_eq holds)]
  simp only
  rw [Program.bind_ok (writeVisitor_eq holds _)]
  rfl

theorem bufferedValue_filter (contents : StdString) :
    (chainVisitors utils binaryToJsonString forward).bufferedValue (some front.length)
      contents world =
      .ok () (world.withVisitors
        (front ++ mapFilter (filter.bufferedValue contents) :: rest)) := by
  simp only [chainVisitors]
  rw [Program.bind_ok (readVisitor_eq holds)]
  exact writeVisitor_eq holds _

theorem beginMessage_filter :
    (chainVisitors utils binaryToJsonString forward).beginMessage (some front.length)
      world =
      .ok (some front.length) (world.withVisitors
        (front ++ mapFilter filter.beginMessage :: rest)) := by
  simp only [chainVisitors]
  rw [Program.bind_ok (readVisitor_eq holds)]
  simp only
  rw [Program.bind_ok (writeVisitor_eq holds _)]
  rfl

theorem endField_filter_inside (inside : filter.scope ≠ .inEntry) :
    (chainVisitors utils binaryToJsonString forward).endField (some front.length) world =
      .ok () (world.withVisitors (front ++ mapFilter filter.leaveScope :: rest)) := by
  simp only [chainVisitors]
  rw [Program.bind_ok (readVisitor_eq holds)]
  simp only
  rw [Program.bind_ok (writeVisitor_eq holds _), if_neg inside]
  rfl

theorem endField_filter_mismatch (entry : filter.scope = .inEntry)
    (mismatch : filter.keyMatches = false) :
    (chainVisitors utils binaryToJsonString forward).endField (some front.length) world =
      .ok () (world.withVisitors (front ++ mapFilter filter.reset :: rest)) := by
  simp only [chainVisitors]
  rw [Program.bind_ok (readVisitor_eq holds)]
  simp only
  rw [Program.bind_ok (writeVisitor_eq holds _), if_pos entry, mismatch]
  simp only [Bool.false_eq_true, if_false]
  exact writeVisitor_eq (World.visitors_withVisitors _ _) _

theorem popped_filter :
    (chainVisitors utils binaryToJsonString forward).popped (some front.length) world =
      .ok () (world.withVisitors (front ++ mapFilter filter.reset :: rest)) := by
  simp only [chainVisitors]
  rw [Program.bind_ok (readVisitor_eq holds)]
  exact writeVisitor_eq holds _

end

theorem endField_filter_match {filter : MapFilter} {next : ChainVisitor}
    (holds : world.memory.visitors = front ++ mapFilter filter :: next :: rest)
    (entry : filter.scope = .inEntry) (matching : filter.keyMatches = true) :
    (chainVisitors utils binaryToJsonString forward).endField (some front.length) world =
      (do forward (some (front ++ [mapFilter filter.leaveScope]).length)
            filter.bufferedValueField filter.bufferedValueContents
          writeVisitor (some front.length) (mapFilter filter.reset))
        (world.withVisitors (front ++ mapFilter filter.leaveScope :: next :: rest)) := by
  simp only [chainVisitors]
  rw [Program.bind_ok (readVisitor_eq holds)]
  simp only
  rw [Program.bind_ok (writeVisitor_eq holds _), if_pos entry, matching, if_pos rfl]
  exact Program.bind_ok (nextVisitor_eq (World.visitors_withVisitors _ _))

end ChainVisitor

end PostgresProtobuf
