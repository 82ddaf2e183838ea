import PostgresProtobuf.Answers

/-! # Runs up to the texts of their rows

Where a run stops and which levels it scans does not depend on what the locals hold:
only texts of rows do. -/

namespace PostgresProtobuf

open Foundation

/-! ## Views of the events -/

structure View (Item : Type) where
  see : List Event → List Item
  nil : see [] = []
  append : ∀ front back, see (front ++ back) = see front ++ see back

/-- The same is seen of both actions, each in its own view, and they end alike. -/
def SeenAlike {Item : Type} (view otherView : View Item) (action other : Activity Unit) : Prop :=
  view.see (action ()).1 = otherView.see (other ()).1 ∧ (action ()).2 = (other ()).2

section

variable {Item : Type} (view otherView : View Item)

theorem congruence_seenAlike : Congruence (SeenAlike view otherView) where
  one := ⟨view.nil.trans otherView.nil.symm, rfl⟩
  raise _ _ := ⟨view.nil.trans otherView.nil.symm, rfl⟩
  mul := by
    intro first second third fourth same sameRest
    rcases ends : first () with ⟨events, reason | next⟩
    · rcases endsOther : second () with ⟨others, otherReason⟩
      simp only [SeenAlike, ends, endsOther] at same
      rw [← same.2] at endsOther
      rw [SeenAlike, Action.mul_apply_of_error ends, Action.mul_apply_of_error endsOther]
      exact ⟨same.1, rfl⟩
    · rcases endsOther : second () with ⟨others, otherReason⟩
      simp only [SeenAlike, ends, endsOther] at same
      rw [← same.2] at endsOther
      rw [SeenAlike, Action.mul_apply_of_ok ends, Action.mul_apply_of_ok endsOther,
        view.append, otherView.append, same.1]
      exact ⟨congrArg _ sameRest.1, sameRest.2⟩
  stopped := by
    intro first second third fourth same stops
    have stopsOther : Stops second := by
      intro state
      rcases stops state with ⟨reason, stopped⟩
      exact ⟨reason, same.2 ▸ stopped⟩
    rw [stops.mul, stopsOther.mul]
    exact same

theorem allowed_seenAlike
    (levels : ∀ event, event.isRow = false → view.see [event] = otherView.see [event])
    (limit : Nat) : BudgetsAllowed (SeenAlike view otherView) Eq limit limit where
  whole := rfl
  pred := Nat.succ.inj
  ahead := nofun
  exhausted := nofun
  level := by
    rintro budget _ rfl payload first second alike
    exact (congruence_seenAlike view otherView).level ⟨levels _ rfl, rfl⟩ ⟨levels _ rfl, rfl⟩ _
      alike

end

/-! ## Texts left open -/

def Event.blank : Event → Event
  | .row _ => .row []
  | event => event

/-- The actions log the same events up to the texts of rows, and end alike. -/
def SameFlow (action other : Activity Unit) : Prop :=
  (action ()).1.map Event.blank = (other ()).1.map Event.blank ∧ (action ()).2 = (other ()).2

theorem sameFlow_refl (action : Activity Unit) : SameFlow action action := ⟨rfl, rfl⟩

def View.blank : View Event where
  see events := events.map Event.blank
  nil := rfl
  append _ _ := List.map_append

theorem congruence_sameFlow : Congruence SameFlow := congruence_seenAlike .blank .blank

theorem allowed_sameFlow (recursionLimit : Nat) :
    BudgetsAllowed SameFlow (BudgetsRelated SameFlow recursionLimit) recursionLimit
      recursionLimit := by
  apply BudgetsAllowed.related congruence_sameFlow
  · intro budget other payload budgets
    rcases budgets with rfl | always
    · exact sameFlow_refl _
    · cases (always 1).2
  · exact sameFlow_refl _

theorem Event.scans_blank (events : List Event) : scans (events.map blank) = scans events := by
  induction events with
  | nil => rfl
  | cons event events induction => cases event <;> simp_all [scans, blank, isRow]

theorem SameFlow.scans {action other : Activity Unit} (same : SameFlow action other) :
    Event.scans (action ()).1 = Event.scans (other ()).1 := by
  rw [← Event.scans_blank, same.1, Event.scans_blank]

theorem sameFlow_row (text other : StdString) :
    SameFlow (emit (.ok (some text))) (emit (.ok (some other))) := ⟨rfl, rfl⟩

namespace Setting

theorem lookupField_of_leaveEntry {State : Type} {setting other : Setting State}
    {keyType : FieldType} {wantedKeyField : FieldInfo} {wantedKeyContents : StdString}
    {next otherNext : Delivery State}
    (sameEntry : setting.leaveEntry keyType wantedKeyField wantedKeyContents next =
      other.leaveEntry keyType wantedKeyField wantedKeyContents otherNext) (budget : Nat) :
    setting.lookupField keyType wantedKeyField wantedKeyContents next budget =
      other.lookupField keyType wantedKeyField wantedKeyContents otherNext budget := by
  induction budget with
  | zero =>
      funext buffers field
      rcases field with ⟨number, value⟩
      cases value <;> simp only [lookupField, sameEntry]
  | succ budget induction =>
      funext buffers field
      rcases field with ⟨number, value⟩
      cases value <;> simp only [lookupField, sameEntry, induction]

section

variable (utils : PostgresUtils)
variable (binaryToJsonString : StdString → Bytes → Option StdString) (recursionLimit : Nat)

def textfree : Setting Unit where
  utils := utils
  binaryToJsonString := binaryToJsonString
  recursionLimit := recursionLimit
  knowledge := .textfree

/-- The locals hold the given bits, or what they hold is not known. Every map filter starts
with zero buffers. -/
def overLocals (localBits : Option UInt64) (textless : Bool) : Setting Unit where
  utils := utils
  binaryToJsonString := binaryToJsonString
  recursionLimit := recursionLimit
  knowledge := { Knowledge.textfree with localBits := localBits, textless := textless }

theorem mapPart_overLocals (localBits otherBits : Option UInt64) (textless otherTextless : Bool)
    (position : Nat) (map : MapPart) (next : Delivery Unit) :
    (overLocals utils binaryToJsonString recursionLimit localBits textless).mapPart position map
        next =
      (overLocals utils binaryToJsonString recursionLimit otherBits otherTextless).mapPart
        position map next := by
  cases map with
  | none => rfl
  | entries wantKeys type => rfl
  | lookup keyType wantedKeyField wantedKeyContents valueType =>
      have sameFields :
          (overLocals utils binaryToJsonString recursionLimit localBits textless).lookupField
            keyType wantedKeyField wantedKeyContents next =
          (overLocals utils binaryToJsonString recursionLimit otherBits
            otherTextless).lookupField keyType wantedKeyField wantedKeyContents next :=
        funext (lookupField_of_leaveEntry rfl)
      simp only [mapPart, mapFilter, sameFields]
      rfl

theorem chainOnto_overLocals (localBits otherBits : Option UInt64)
    (textless otherTextless : Bool) (onto : Delivery Unit) (position : Nat)
    (parts : List ChainPart) :
    (overLocals utils binaryToJsonString recursionLimit localBits textless).chainOnto onto
        position parts =
      (overLocals utils binaryToJsonString recursionLimit otherBits otherTextless).chainOnto onto
        position parts := by
  induction parts generalizing position with
  | nil => rfl
  | cons part parts induction =>
      rw [chainOnto, chainOnto, induction,
        mapPart_overLocals _ _ _ localBits otherBits textless otherTextless]

variable (bits : UInt64)

theorem chainOnto_textfree (onto : Delivery Unit) (position : Nat) (parts : List ChainPart) :
    (textfree utils binaryToJsonString recursionLimit).chainOnto onto position parts =
      (fixed utils binaryToJsonString recursionLimit bits).chainOnto onto position parts :=
  chainOnto_overLocals utils binaryToJsonString recursionLimit none (some bits) true false onto
    position parts

theorem emitPrimitive_textfree (kind : EmitterKind) (value : WireValue) :
    SameFlow ((fixed utils binaryToJsonString recursionLimit bits).emitPrimitive kind value)
      ((textfree utils binaryToJsonString recursionLimit).emitPrimitive kind value) := by
  rw [emitPrimitive_fixed, emitPrimitive]
  split
  · rename_i row known
    have possible : Knowledge.textfree.Possible bits := by rintro _ ⟨⟩
    rw [← Knowledge.read_eq_some _ known possible]
    exact sameFlow_refl _
  · rename_i unknown
    rcases EmitterKind.readPrimitive_cases utils kind with ⟨row, always⟩ | rows
    · have known := (textfree utils binaryToJsonString
        recursionLimit).knowledge.read_of_determined fun bits _ => always (value.header bits)
      cases unknown.symm.trans known
    · rcases rows (value.header bits) with ⟨text, isText⟩
      rw [isText]
      exact sameFlow_row text []

theorem emitter_textfree (kind : EmitterKind) :
    Lifts SameFlow recursionLimit
      ((fixed utils binaryToJsonString recursionLimit bits).emitter kind)
      ((textfree utils binaryToJsonString recursionLimit).emitter kind) where
  field := by
    intro budget otherBudget _ value _
    cases value with
    | lengthDelimited size payload => exact sameFlow_refl _
    | _ => exact emitPrimitive_textfree utils binaryToJsonString recursionLimit bits kind _
  handed _ _ _ := sameFlow_refl _

theorem chainEnd_textfree (last : ChainEnd) :
    Lifts SameFlow recursionLimit
      ((fixed utils binaryToJsonString recursionLimit bits).chainEnd last)
      ((textfree utils binaryToJsonString recursionLimit).chainEnd last) := by
  rw [chainEnd_eq_endOnto, chainEnd_eq_endOnto]
  exact endOnto_lifts congruence_sameFlow (allowed_sameFlow _)
    (emitter_textfree utils binaryToJsonString recursionLimit bits last.kind) _

theorem runs_textfree (parts : List ChainPart) (last : ChainEnd) {message : Bytes}
    (bounded : message.length < 2 ^ 31) :
    SameFlow ((fixed utils binaryToJsonString recursionLimit bits).runs parts last message)
      ((textfree utils binaryToJsonString recursionLimit).runs parts last message) := by
  unfold runs
  rw [chain_eq_chainOnto, chain_eq_chainOnto,
    chainOnto_textfree utils binaryToJsonString recursionLimit bits]
  exact (chainOnto_lifts congruence_sameFlow (allowed_sameFlow _)
    (chainEnd_textfree utils binaryToJsonString recursionLimit bits last) parts 0 0).field
    (.refl (Nat.le_refl _)) (.ofPayload message) bounded

end

end Setting

/-! ## Runs over any locals -/

section

variable {Stream : Type} [CodedInputStream Stream] [LawfulCodedInputStream Stream]
variable {uninitialised : Uninitialised} {parts : List ChainPart} {last : ChainEnd}
variable {utils : PostgresUtils} {binaryToJsonString : StdString → Bytes → Option StdString}

theorem chainResting_eq (zero : uninitialised.ZeroBuffers) {setting : Setting Unit}
    (certain : ∀ position, setting.knowledge.pristine position () = false) {limit : Nat}
    (position : Nat) {suffix : List ChainVisitor}
    (rests : chainResting setting limit last position parts () suffix) :
    suffix = partsVisitors uninitialised position parts ++
      (dotVisitors last.trailingDot ++ [.emitter (.new last.kind none)]) := by
  induction parts generalizing position suffix with
  | nil =>
      unfold chainResting endResting at rests
      unfold partsVisitors dotVisitors
      split at rests
      · rename_i dot
        rw [dot]
        exact rests
      · rename_i dot
        rw [if_neg dot]
        exact rests
  | cons part parts induction =>
      rcases rests with ⟨rest, rfl, rests⟩
      have isMap : rest = part.map.visitors uninitialised (position + 2) ++
          (partsVisitors uninitialised (position + 2 + Setting.mapWidth part.map) parts ++
            (dotVisitors last.trailingDot ++ [.emitter (.new last.kind none)])) := by
        cases map : part.map with
        | none =>
            rw [map] at rests
            exact induction _ rests
        | entries wantKeys type =>
            rw [map] at rests
            rcases rests with ⟨others, rfl, rests⟩
            rw [induction _ rests]
            rfl
        | lookup keyType wantedKeyField wantedKeyContents valueType =>
            rw [map] at rests
            rcases rests with ⟨filter, others, rfl, between, cleared, rests⟩
            have built : filter = .new wantedKeyField wantedKeyContents valueType
                (uninitialised.bufferedKeyField (position + 2))
                (uninitialised.bufferedValueField (position + 2)) := by
              rw [(zero _).1, (zero _).2, ← cleared (certain _), MapFilter.reset,
                between.wantedKeyField, between.wantedKeyContents, between.valueType]
              rfl
            rw [induction _ rests, built]
            rfl
      rw [isMap]
      simp [partsVisitors, ChainPart.visitors]

variable (Stream parts last utils binaryToJsonString) in
noncomputable def flow (message : Bytes) : List Event × Except (Stop Exception) Unit :=
  (Setting.fixed utils binaryToJsonString (CodedInputStream.recursionLimit Stream) 0).runs parts
    last message ()

variable (Stream parts last utils binaryToJsonString) in
omit [LawfulCodedInputStream Stream] in
theorem flow_cases (protoData : Bytea) :
    (∃ events, flow Stream parts last utils binaryToJsonString protoData.data =
        (events, .ok ())) ∨
      ∃ events exception, flow Stream parts last utils binaryToJsonString protoData.data =
        (events, .error (.raised exception)) ∧ exception.Reported := by
  have sized : (WireValue.ofPayload protoData.data).Sized := protoData.size_lt
  have proper := proper_chain utils binaryToJsonString 0 parts last
    (CodedInputStream.recursionLimit Stream) (CodedInputStream.recursionLimit Stream) 0 sized
  rcases ends : flow Stream parts last utils binaryToJsonString protoData.data with
    ⟨events, reason | _⟩
  · have stopped := congrArg Prod.snd ends
    rcases proper () reason stopped with ⟨exception, rfl, reported⟩
    exact .inr ⟨events, exception, rfl, reported⟩
  · exact .inl ⟨events, rfl⟩

omit [LawfulCodedInputStream Stream] in
theorem textfree_of_flow {protoData : Bytea} {events : List Event}
    {ending : Except (Stop Exception) Unit}
    (ends : flow Stream parts last utils binaryToJsonString protoData.data =
      (events, ending)) :
    ∃ shown, (Setting.textfree utils binaryToJsonString
        (CodedInputStream.recursionLimit Stream)).runs parts last protoData.data () =
        (shown, ending) ∧ Event.scans shown = Event.scans events := by
  have same := Setting.runs_textfree utils binaryToJsonString
    (CodedInputStream.recursionLimit Stream) 0 parts last protoData.size_lt
  have sameScans := same.scans
  have sameEnd := same.2
  unfold flow at ends
  rw [ends] at sameScans sameEnd
  exact ⟨_, Prod.ext rfl sameEnd.symm, sameScans.symm⟩

variable (Stream utils binaryToJsonString) in
omit [LawfulCodedInputStream Stream] in
theorem matches_textfree (localBits : Nat → UInt64) :
    Matches (Setting.textfree utils binaryToJsonString (CodedInputStream.recursionLimit Stream))
      ⟨utils, binaryToJsonString, localBits⟩ Stream :=
  ⟨rfl, rfl, nofun, rfl⟩

variable (Stream parts last utils binaryToJsonString) in
/-- A run realizes the flow of its chain over any locals. -/
theorem scan_textfree (zero : uninitialised.ZeroBuffers) (localBits : Nat → UInt64)
    (protoData : Bytea) :
    Realizes (runRecorder true)
      ((Setting.textfree utils binaryToJsonString
        (CodedInputStream.recursionLimit Stream)).runs parts last protoData.data) ()
      (fun _ => QueryImpl.scan Stream
        ⟨chainObjects uninitialised parts last, binaryToJsonString⟩ utils localBits
        ⟨chainObjects uninitialised parts last, []⟩ protoData)
      (⟨⟨chainObjects uninitialised parts last, []⟩, 0, []⟩ : QueryWorld Stream)
      fun _ after _ => after.memory.visitors = chainObjects uninitialised parts last := by
  have realizes := QueryImpl.scan_realizes
    (matches_textfree Stream utils binaryToJsonString localBits)
    (restsAs_start (zero.suits _ ()) parts last (protoData.data.length + 1) binaryToJsonString)
  apply realizes.weaken
  intro _ after _ rests
  exact chainResting_eq zero (fun _ => rfl) 0 rests

variable {localBits : Nat → UInt64} {protoData : Bytea} {events : List Event}

theorem scan_of_ok (zero : uninitialised.ZeroBuffers)
    (ends : flow Stream parts last utils binaryToJsonString protoData.data =
      (events, .ok ())) :
    ∃ after, QueryImpl.scan Stream
        ⟨chainObjects uninitialised parts last, binaryToJsonString⟩ utils localBits
        ⟨chainObjects uninitialised parts last, []⟩ protoData = .ok () after ∧
      after.memory.visitors = chainObjects uninitialised parts last ∧
      after.scanned.map ScanEvent.event = Event.scans events := by
  rcases textfree_of_flow ends with ⟨shown, textfree, sameScans⟩
  have realizes := scan_textfree Stream parts last utils binaryToJsonString zero
    localBits protoData
  unfold Realizes at realizes
  rw [textfree] at realizes
  rcases realizes with ⟨_, after, runs, ⟨_, recorded, scanned, isRecorded⟩, objects⟩
  refine ⟨after, runs, objects, ?_⟩
  rw [scanned, List.nil_append, isRecorded, sameScans]

theorem scan_of_error (zero : uninitialised.ZeroBuffers) {exception : Exception}
    (ends : flow Stream parts last utils binaryToJsonString protoData.data =
      (events, .error (.raised exception))) :
    ∃ after, QueryImpl.scan Stream
        ⟨chainObjects uninitialised parts last, binaryToJsonString⟩ utils localBits
        ⟨chainObjects uninitialised parts last, []⟩ protoData = .error exception after ∧
      after.scanned.map ScanEvent.event = Event.scans events := by
  rcases textfree_of_flow ends with ⟨shown, textfree, sameScans⟩
  have realizes := scan_textfree Stream parts last utils binaryToJsonString zero
    localBits protoData
  unfold Realizes at realizes
  rw [textfree] at realizes
  rcases realizes with ⟨after, runs, _, recorded, scanned, isRecorded⟩
  refine ⟨after, runs, ?_⟩
  rw [scanned, List.nil_append, isRecorded, sameScans]

theorem trace_eq (zero : uninitialised.ZeroBuffers) :
    QueryImpl.trace Stream ⟨chainObjects uninitialised parts last, binaryToJsonString⟩ utils
        localBits protoData =
      Event.scans (flow Stream parts last utils binaryToJsonString protoData.data).1 := by
  unfold QueryImpl.trace
  rcases flow_cases Stream parts last utils binaryToJsonString protoData with
    ⟨events, ends⟩ | ⟨events, thrown, ends, _⟩
  · rcases scan_of_ok zero ends with ⟨after, scans, _, recorded⟩
    rw [QueryImpl.memory, scans, ends]
    exact recorded
  · rcases scan_of_error zero ends with ⟨after, scans, recorded⟩
    rw [QueryImpl.memory, scans, ends]
    exact recorded

theorem run_of_flow_ok (zero : uninitialised.ZeroBuffers)
    (ends : flow Stream parts last utils binaryToJsonString protoData.data =
      (events, .ok ())) :
    ∃ rows, QueryImpl.run Stream ⟨chainObjects uninitialised parts last,
      binaryToJsonString⟩ utils localBits protoData = .ok rows := by
  rcases scan_of_ok zero ends with ⟨after, scans, _⟩
  exact ⟨after.memory.rows, by rw [QueryImpl.run, QueryImpl.runOn, QueryImpl.memory, scans]⟩

theorem run_of_flow_error (zero : uninitialised.ZeroBuffers) {exception : Exception}
    (ends : flow Stream parts last utils binaryToJsonString protoData.data =
      (events, .error (.raised exception))) :
    QueryImpl.run Stream ⟨chainObjects uninitialised parts last, binaryToJsonString⟩ utils
      localBits protoData = .error exception := by
  rcases scan_of_error zero ends with ⟨after, scans, _⟩
  rcases flow_cases Stream parts last utils binaryToJsonString protoData with
    ⟨others, endsOk⟩ | ⟨others, thrown, endsOther, reported⟩
  · cases (congrArg Prod.snd ends).symm.trans (congrArg Prod.snd endsOk)
  · cases (congrArg Prod.snd ends).symm.trans (congrArg Prod.snd endsOther)
    rw [QueryImpl.run, QueryImpl.runOn, QueryImpl.memory, scans]
    cases exception <;> first | rfl | exact reported.elim

theorem run_eq_error_iff (zero : uninitialised.ZeroBuffers) {exception : Exception} :
    QueryImpl.run Stream ⟨chainObjects uninitialised parts last, binaryToJsonString⟩ utils
        localBits protoData = .error exception ↔
      answer ((Setting.fixed utils binaryToJsonString
        (CodedInputStream.recursionLimit Stream) 0).runs parts last protoData.data) =
        .error exception := by
  rcases flow_cases Stream parts last utils binaryToJsonString protoData with
    ⟨events, ends⟩ | ⟨events, thrown, ends, reported⟩
  · have returns : ∃ rows, QueryImpl.run Stream ⟨chainObjects uninitialised parts last,
        binaryToJsonString⟩ utils localBits protoData = .ok rows := run_of_flow_ok zero ends
    rcases returns with ⟨rows, returns⟩
    unfold flow at ends
    unfold answer
    rw [returns, ends]
    simp
  · rw [run_of_flow_error zero ends]
    unfold flow at ends
    unfold answer
    rw [ends]

theorem run_eq_ok_of_locals (zero : uninitialised.ZeroBuffers) {rows : List StdString}
    (returns : QueryImpl.run Stream ⟨chainObjects uninitialised parts last,
      binaryToJsonString⟩ utils localBits protoData = .ok rows) (others : Nat → UInt64) :
    ∃ rows, QueryImpl.run Stream ⟨chainObjects uninitialised parts last,
      binaryToJsonString⟩ utils others protoData = .ok rows := by
  cases answers : QueryImpl.run Stream ⟨chainObjects uninitialised parts last,
      binaryToJsonString⟩ utils others protoData with
  | ok rows => exact ⟨rows, rfl⟩
  | error exception =>
      have throws : QueryImpl.run Stream ⟨chainObjects uninitialised parts last,
          binaryToJsonString⟩ utils localBits protoData = .error exception :=
        (run_eq_error_iff zero).mpr ((run_eq_error_iff zero).mp answers)
      cases returns.symm.trans throws

end

end PostgresProtobuf
