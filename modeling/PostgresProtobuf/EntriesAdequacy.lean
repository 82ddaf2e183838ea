import PostgresProtobuf.EndAdequacy

/-! # All map entries

`AllMapEntries` scans an entry in place and hands its key or its value over. -/

namespace PostgresProtobuf

open Foundation ChainVisitor

variable {Stream : Type} [CodedInputStream Stream] [LawfulCodedInputStream Stream]
variable {State : Type}

open LawfulCodedInputStream (view)
open ProtobufTraverser

namespace AllMapEntries

def inScope (wantKeys : Bool) (type : FieldType) (scope : Scope) : AllMapEntries :=
  ⟨wantKeys, type, scope⟩

theorem wants_eq (wantKeys : Bool) (type : FieldType) (scope : Scope) (number : Nat) :
    (inScope wantKeys type scope).wants (number : Int) =
      Setting.wantsEntryField wantKeys number := by
  have one : ((number : Int) == 1) = (number == 1) := by
    rw [Bool.eq_iff_iff, beq_iff_eq, beq_iff_eq]
    omega
  have two : ((number : Int) == 2) = (number == 2) := by
    rw [Bool.eq_iff_iff, beq_iff_eq, beq_iff_eq]
    omega
  simp only [wants, inScope, Setting.wantsEntryField, one, two]

theorem beginField_wanted {wantKeys : Bool} {type : FieldType} {number : Int}
    (wanted : (inScope wantKeys type .inEntry).wants number = true) :
    (inScope wantKeys type .inEntry).beginField number =
      (inScope wantKeys type .inWantedField, true) :=
  if_pos wanted

theorem beginField_unwanted {wantKeys : Bool} {type : FieldType} {number : Int}
    (unwanted : (inScope wantKeys type .inEntry).wants number = false) :
    (inScope wantKeys type .inEntry).beginField number =
      (inScope wantKeys type .inUnwantedOtherField, false) :=
  if_neg (by rw [unwanted]; decide)

end AllMapEntries

section

variable {setting : Setting State}
variable {context : ScanContext VisitorPointer QueryMemory Stream}
variable {forward : VisitorPointer → FieldInfo → StdString →
  Program (QueryWorld Stream) Unit}
variable {limit : Nat} {next : Delivery State} {resting : Resting State}
variable {wantKeys : Bool} {type : FieldType}

def entriesResting (wantKeys : Bool) (type : FieldType) (resting : Resting State) :
    Resting State :=
  fun state suffix => ∃ rest,
    suffix = allMapEntries (.inScope wantKeys type .outermost) :: rest ∧ resting state rest

def InEntry (wantKeys : Bool) (type : FieldType) (resting : Resting State)
    (front : List ChainVisitor) (_ : Unit) (visitors : List ChainVisitor)
    (state : State) : Prop :=
  ∃ rest, visitors = front ++ allMapEntries (.inScope wantKeys type .inEntry) :: rest ∧
    resting state rest

section

variable {front : List ChainVisitor} {traverser : ProtobufTraverser VisitorPointer}
variable (equipped : Equipped setting context forward)
variable (grounded : traverser.Grounded) (top : traverser.visitor = some front.length)

include equipped grounded top

theorem entries_ends {rest : List ChainVisitor} {state : State} {world : QueryWorld Stream}
    (holds : world.memory.visitors =
      front ++ allMapEntries (.inScope wantKeys type .inUnwantedOtherField) :: rest)
    (rests : resting state rest) :
    ∃ after, decrementDepthAndEndFieldAndPopVisitors context (traverser.inside []) world =
        .ok traverser after ∧ (runRecorder setting.knowledge.textless).Records world [] after ∧
      InEntry wantKeys type resting front () after.memory.visitors state := by
  refine ⟨_, ?_, runRecorder_withVisitors world _, rest, rfl, rests⟩
  rw [decrementDepthAndEndFieldAndPopVisitors_inside context grounded]
  simp only [leaveVisitors, pure_bind]
  rw [equipped.visitors, top]
  exact Program.bind_ok (endField_entries _ _ _ holds)

theorem entriesField_realizes
    (serves : Serves context setting.knowledge limit next resting) (budget : Nat) :
    TurnsRealize context setting.knowledge limit budget traverser
      (Setting.entriesField wantKeys next budget)
      (InEntry wantKeys type resting front) := by
  rintro fuel _ field header stream world state within enoughFuel budgetEq carries numberEq
    heads ⟨rest, holds, rests⟩
  have enough : 0 < context.handovers := Nat.lt_of_succ_lt equipped.handovers
  have wants := AllMapEntries.wants_eq wantKeys type .inEntry field.number
  rw [← numberEq] at wants
  cases wanted : Setting.wantsEntryField wantKeys field.number with
  | true =>
      have begins := AllMapEntries.beginField_wanted (wants.trans wanted)
      rcases List.exists_cons_of_ne_nil (serves.nonempty _ _ rests) with ⟨object, rest, rfl⟩
      have handsOver := beginField_entries_handsOver setting.utils
        setting.binaryToJsonString forward holds header.wireType begins
      rw [← equipped.visitors, ← top] at handsOver
      have closes : Closes context traverser
          (front ++ [allMapEntries (.inScope wantKeys type .inWantedField)])
          (front ++ [allMapEntries (.inScope wantKeys type .inEntry)]) := by
        intro world suffix holds
        rw [equipped.visitors, top, endField_entries _ _ _ (by simpa using holds)]
        simp [AllMapEntries.endField, AllMapEntries.inScope]
      simp only [Setting.entriesField, wanted, if_true]
      refine (serves.fieldTurn_realizes equipped grounded closes (by rw [top]; simp) within
        enoughFuel budgetEq carries heads handsOver (runRecorder_withVisitors ..)
        ⟨_, by simp, rests⟩).weaken ?_
      rintro result after last ⟨same, reaches, suffix, after, restsAfter⟩
      exact ⟨same, reaches, suffix, by simpa using after, restsAfter⟩
  | false =>
      have begins := AllMapEntries.beginField_unwanted (wants.trans wanted)
      have stays := beginField_entries_stays setting.utils setting.binaryToJsonString forward
        holds header.wireType begins
      rw [← equipped.visitors, ← top] at stays
      have calls := callBeginField_stays context (traverser.inside []) enough stays
      have shape := World.visitors_withVisitors world
        (front ++ allMapEntries (.inScope wantKeys type .inUnwantedOtherField) :: rest)
      rcases entries_ends equipped grounded top shape rests with
        ⟨after, ends, records, inEntry⟩
      simp only [Setting.entriesField, wanted, Bool.false_eq_true, if_false]
      by_cases lengthDelimited : field.value.wireType = 2
      · rcases field with ⟨number, value⟩
        cases value with
        | lengthDelimited size payload =>
            have chooses := readLengthDelimitedField_entries_stays setting.utils
              setting.binaryToJsonString forward shape header rfl
            rw [← equipped.visitors, ← top] at chooses
            have keeps := scanField_stays context (traverser.inside []) fuel stream heads.1
              chooses
            refine Realizes.silent calls (runRecorder_withVisitors ..) ?_
            refine Realizes.congr (Program.bind_congr keeps) ((runRecorder _).nil _) ?_
            refine Realizes.of_silent (Program.bind_ok ends) records ⟨rfl, ?_, inEntry⟩
            rw [heads.asSize_eq carries]
            exact skip_reaches carries
        | _ => simp [WireValue.wireType] at lengthDelimited
      · rw [fieldTurn_of_wireType_ne context (heads.1 ▸ lengthDelimited)]
        simp only [elementTurn, bind_assoc]
        refine Realizes.silent calls (runRecorder_withVisitors ..) ?_
        have passes := readPrimitive_entries setting.utils setting.binaryToJsonString forward
          shape header
        rw [← equipped.visitors, ← top] at passes
        refine Realizes.silent passes ((runRecorder _).nil _) ?_
        refine Realizes.of_silent (Program.bind_ok ends) records ⟨rfl, ?_, inEntry⟩
        rw [WireValue.payload_eq_nil lengthDelimited]
        exact Reaches.refl stream

end

omit [CodedInputStream Stream] [LawfulCodedInputStream Stream] in
theorem entries_leaves (equipped : Equipped setting context forward)
    {front rest : List ChainVisitor} {world : QueryWorld Stream}
    (holds : world.memory.visitors =
      front ++ allMapEntries (.inScope wantKeys type .inEntry) :: rest) :
    leaveVisitors context [some front.length] world = .ok () (world.withVisitors
      (front ++ allMapEntries (.inScope wantKeys type .outermost) :: rest)) := by
  simp only [leaveVisitors, equipped.visitors]
  rw [Program.bind_ok (endField_entries _ _ _ holds)]
  exact Program.bind_ok (popped_entries _ _ _ (World.visitors_withVisitors _ _))

theorem serves_entries (equipped : Equipped setting context forward)
    (serves : Serves context setting.knowledge limit next resting) :
    Serves context setting.knowledge limit (Setting.allMapEntries wantKeys next)
      (entriesResting wantKeys type resting) where
  nonempty := by
    rintro state _ ⟨rest, rfl, _⟩
    simp
  primitive front closed value header budget handovers below world state enough grounded
      closes notLengthDelimited heads rests := by
    rcases rests with ⟨_, holds, rest, rfl, rests⟩
    have begins : (AllMapEntries.inScope wantKeys type .outermost).beginField header.number =
        (.inScope wantKeys type .inEntry, false) := rfl
    have stays := beginField_entries_stays setting.utils setting.binaryToJsonString forward
      holds header.wireType begins
    rw [← equipped.visitors] at stays
    have calls := callBeginField_stays context (below.inside [some front.length]) enough stays
    have shape := World.visitors_withVisitors world
      (front ++ allMapEntries (.inScope wantKeys type .inEntry) :: rest)
    have passes := readPrimitive_entries setting.utils setting.binaryToJsonString forward
      shape header
    rw [← equipped.visitors] at passes
    have restsLeft : RestsBehind (entriesResting wantKeys type resting) front state
        ((world.withVisitors
          (front ++ allMapEntries (.inScope wantKeys type .inEntry) :: rest)).withVisitors
          (front ++ allMapEntries (.inScope wantKeys type .outermost) :: rest)) :=
      ⟨_, rfl, rest, rfl, rests⟩
    rcases closes.endField grounded (entries_leaves equipped shape) restsLeft with
      ⟨last, ends, restsLast⟩
    refine Realizes.silent (equipped.pushVisitor_inside ..) ((runRecorder _).nil world) ?_
    refine Realizes.silent calls (runRecorder_withVisitors ..) ?_
    refine Realizes.silent passes ((runRecorder _).nil _) ?_
    have silent : (Setting.allMapEntries wantKeys next).field budget value = 1 := by
      cases value with
      | lengthDelimited size payload => exact absurd rfl notLengthDelimited
      | _ => rfl
    rw [silent]
    exact Realizes.of_silent ends (runRecorder_withVisitors ..) ⟨rfl, restsLast⟩
  lengthDelimited front closed size payload header fuel budget handovers below stream world
      state enough grounded closes within enoughFuel budgetEq carries heads rests := by
    rcases rests with ⟨_, holds, rest, rfl, rests⟩
    have begins : (AllMapEntries.inScope wantKeys type .outermost).beginField header.number =
        (.inScope wantKeys type .inEntry, false) := rfl
    have stays := beginField_entries_stays setting.utils setting.binaryToJsonString forward
      holds header.wireType begins
    rw [← equipped.visitors] at stays
    have calls := callBeginField_stays context (below.inside [some front.length]) enough stays
    have shape := World.visitors_withVisitors world
      (front ++ allMapEntries (.inScope wantKeys type .inEntry) :: rest)
    have chooses := readLengthDelimitedField_entries_stays setting.utils
      setting.binaryToJsonString forward shape header rfl
    rw [← equipped.visitors] at chooses
    have keeps := scanField_stays context (below.inside [some front.length]) fuel stream
      heads.1 chooses
    have beginMessage : ∀ world : QueryWorld Stream, world.memory.visitors =
        front ++ allMapEntries (.inScope wantKeys type .inEntry) :: rest →
        context.visitors.beginMessage (some front.length) world =
          .ok (some front.length) world := by
      intro world holds
      rw [equipped.visitors]
      exact beginMessage_entries _ _ _ holds
    have scanned := treatField_asSubmessage_realizes (below.inside [some front.length]) ()
      equipped.possible
      (fun lower _ => entriesField_realizes equipped
        (grounded_inside grounded [some front.length]) rfl serves lower)
      (fun world holds => ⟨_, by
        rw [World.withVisitors_self holds]
        exact beginMessage world holds⟩)
      (fun world holds => by
        rw [World.withVisitors_self holds]
        exact callBeginMessage_stays context (below.inside [some front.length])
          (Nat.lt_of_succ_lt equipped.handovers) (beginMessage world holds))
      ⟨rest, rfl, rests⟩ within enoughFuel budgetEq carries heads shape
    refine Realizes.silent (equipped.pushVisitor_inside ..) ((runRecorder _).nil world) ?_
    refine Realizes.silent calls (runRecorder_withVisitors ..) ?_
    refine Realizes.congr (Program.bind_congr keeps) ((runRecorder _).nil _) ?_
    refine scanned.andSilent ?_
    rintro ⟨_, streamAfter⟩ after last ⟨rfl, reaches, rest, holdsAfter, restsAfter⟩
    have restsLeft : RestsBehind (entriesResting wantKeys type resting) front last
        (after.withVisitors
          (front ++ allMapEntries (.inScope wantKeys type .outermost) :: rest)) :=
      ⟨_, rfl, rest, rfl, restsAfter⟩
    rcases closes.endField grounded (entries_leaves equipped holdsAfter) restsLeft with
      ⟨final, ends, restsLast⟩
    exact ⟨_, _, Program.bind_ok ends, runRecorder_withVisitors .., rfl, reaches, restsLast⟩

end

end PostgresProtobuf
