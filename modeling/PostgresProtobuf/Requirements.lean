import PostgresProtobuf.EntryBuffers
import PostgresProtobuf.Flows

/-! # What chains require of messages

A chain skips, unpacks, descends into, buffers or hands on each field that it comes to. What
is required of the fields by the way they are treated adds up to what is required of the
message, and a run ends as required exactly where the message is as required. -/

namespace PostgresProtobuf

open Foundation

/-! ## Requirements along a chain -/

def EveryTurn {Progress Item : Type} (holds : Progress → Item → Prop)
    (after : Progress → Item → Progress) : Progress → List Item → Prop
  | _, [] => True
  | progress, item :: items =>
      holds progress item ∧ EveryTurn holds after (after progress item) items

namespace LengthDelimitedFieldTreatment

def ReadsContents : LengthDelimitedFieldTreatment → Prop
  | .asString | .asBytes | .buffer => True
  | _ => False

def Reads (size : Nat) (payload : Bytes) (buffered : Prop) :
    LengthDelimitedFieldTreatment → Prop
  | .asString | .asBytes => payload.length = size
  | .buffer => payload.length = size ∧ buffered
  | _ => True

end LengthDelimitedFieldTreatment

namespace ChainPart

def indexAfterElements (part : ChainPart) (number index : Int) (payload : Bytes) : Int :=
  match Setting.packedWireType part.type with
  | some wireType =>
      (readElements wireType payload).1.foldl (fun index _ => part.indexAfter number index) index
  | none => index

def indexAfterField (part : ChainPart) (index : Int) (field : WireField) : Int :=
  match field.value with
  | .lengthDelimited _ payload =>
      part.indexAfter field.number
        (if part.isPacked then part.indexAfterElements field.number index payload else index)
  | _ => part.indexAfter field.number index

end ChainPart

/-- What is required of what a chain comes to. -/
structure Requirement where
  /-- Of a field whose contents are not read as a whole. -/
  unread : WireValue → Prop
  unread_of_fits : ∀ {value : WireValue}, value.Fits → unread value
  /-- Of a primitive that comes to the emitter. -/
  emitted : WireValue → Prop
  /-- Of a value that is converted as a whole. -/
  buffered : Bytes → Prop

/-- What the rest of a chain requires of a value that is handed to it. -/
structure Intake where
  readsWhole : Prop
  accepts : (budget : Nat) → WireValue → Prop
  handed : FieldType → (size : Nat) → (payload : Bytes) → Prop

namespace Requirement

variable (requirement : Requirement)

/-- A field of a scanned level that is handed on. -/
def Takes (next : Intake) (budget : Nat) (value : WireValue) : Prop :=
  (next.readsWhole ∨ requirement.unread value) ∧ next.accepts budget value

/-- A submessage can be scanned, and nothing is required of what is below a primitive. -/
def below (fields : (budget : Nat) → List WireField → Prop) : Intake where
  readsWhole := False
  accepts budget value :=
    match budget, value with
    | budget + 1, .lengthDelimited _ payload =>
        fields budget (readFields payload).1 ∧ (readFields payload).2 = none
    | 0, .lengthDelimited _ _ => False
    | _, _ => True
  handed type size payload := (compositeFieldTreatmentForType type).Reads size payload True

def emitter (kind : EmitterKind) : Intake where
  readsWhole := kind.readLengthDelimitedField.ReadsContents
  accepts _ value :=
    match value with
    | .lengthDelimited size payload =>
        kind.readLengthDelimitedField.Reads size payload (requirement.buffered payload)
    | value => requirement.emitted value
  handed type size payload :=
    (compositeFieldTreatmentForType type).Reads size payload (requirement.buffered payload)

def chainEnd (last : ChainEnd) : Intake :=
  if last.trailingDot then
    below fun budget fields =>
      ∀ field ∈ fields, requirement.Takes (requirement.emitter last.kind) budget field.value
  else
    requirement.emitter last.kind

section

variable (part : ChainPart) (next : Intake) (budget : Nat)

def Elements (number index : Int) (payload : Bytes) : Prop :=
  match Setting.packedWireType part.type with
  | some wireType =>
      EveryTurn (fun index value => part.Emits number index → next.accepts budget value)
          (fun index _ => part.indexAfter number index) index (readElements wireType payload).1 ∧
        (readElements wireType payload).2 = none
  | none => True

def Selected (index : Int) (field : WireField) : Prop :=
  match field.value with
  | .lengthDelimited size payload =>
      -- A packed selector takes fields of any number for packed ones.
      if part.isPacked then
        requirement.unread field.value ∧ Elements part next budget field.number index payload
      else if part.Emits field.number index then
        if part.type = .message then requirement.Takes next budget field.value
        else
          ((compositeFieldTreatmentForType part.type).ReadsContents ∨
            requirement.unread field.value) ∧ next.handed part.type size payload
      else requirement.unread field.value
  | value => part.Emits field.number index → next.accepts budget value

end

def allMapEntries (wantKeys : Bool) (next : Intake) : Intake :=
  below fun budget fields => ∀ field ∈ fields,
    if Setting.wantsEntryField wantKeys field.number then
      requirement.Takes next budget field.value
    else requirement.unread field.value

section

variable (limit : Nat) (wantedKeyField : FieldInfo) (wantedKeyContents : StdString)
variable (next : Intake)

open Setting (EntryBuffers)

/-- The end of an entry, where the buffered value is forwarded. -/
def Ended (buffers : EntryBuffers) : Prop :=
  buffers.inEntry = true → buffers.Matches wantedKeyField wantedKeyContents →
    ∀ value ∈ buffers.value, next.accepts limit value

def Entry (holds : EntryBuffers → WireField → Prop) (buffers : EntryBuffers)
    (fields : List WireField) : Prop :=
  EveryTurn holds EntryBuffers.after buffers fields ∧
    Ended limit wantedKeyField wantedKeyContents next (fields.foldl EntryBuffers.after buffers)

/-- One field seen by a map filter, which scans what it does not buffer. -/
def LookedUp : (budget : Nat) → EntryBuffers → WireField → Prop
  | budget, buffers, field =>
      match field.value with
      | .lengthDelimited size payload =>
          if buffers.inEntry = true ∧ (field.number = 1 ∨ field.number = 2) then
            payload.length = size
          else
            -- Anything else is scanned as an entry of its own.
            requirement.unread field.value ∧
              match budget with
              | 0 => False
              | budget + 1 =>
                  Entry limit wantedKeyField wantedKeyContents next (LookedUp budget)
                      { buffers with inEntry := true } (readFields payload).1 ∧
                    (readFields payload).2 = none
      | _ => field.number ≠ 1 → field.number ≠ 2 →
          Ended limit wantedKeyField wantedKeyContents next buffers

def mapFilter : Intake :=
  below fun budget => Entry limit wantedKeyField wantedKeyContents next
    (requirement.LookedUp limit wantedKeyField wantedKeyContents next budget)
    { EntryBuffers.empty with inEntry := true }

end

def mapPart (limit : Nat) (map : MapPart) (next : Intake) : Intake :=
  match map with
  | .none => next
  | .entries wantKeys _ => requirement.allMapEntries wantKeys next
  | .lookup _ wantedKeyField wantedKeyContents _ =>
      requirement.mapFilter limit wantedKeyField wantedKeyContents next

def chainOnto (limit : Nat) (onto : Intake) : List ChainPart → Intake
  | [] => onto
  | part :: parts =>
      below fun budget =>
        EveryTurn
          (requirement.Selected part
            (requirement.mapPart limit part.map (chainOnto limit onto parts)) budget)
          part.indexAfterField 0

/-- A message meets the requirement along the chain. -/
def Met (parts : List ChainPart) (last : ChainEnd) (limit : Nat) (message : Bytes) : Prop :=
  (requirement.chainOnto limit (requirement.chainEnd last) parts).accepts limit
    (.ofPayload message)

end Requirement

/-! ## What runs make of it -/

def LevelsUnread (unread : WireValue → Prop) (events : List Event) : Prop :=
  ∀ budget level, .enter budget level ∈ events → ∀ field ∈ (readFields level).1,
    unread field.value

theorem levelsUnread_append {unread : WireValue → Prop} (front back : List Event) :
    LevelsUnread unread (front ++ back) ↔
      LevelsUnread unread front ∧ LevelsUnread unread back := by
  constructor
  · intro all
    exact ⟨fun budget level member => all budget level (List.mem_append_left _ member),
      fun budget level member => all budget level (List.mem_append_right _ member)⟩
  · intro both budget level member
    rcases List.mem_append.mp member with isFront | isBack
    · exact both.1 budget level isFront
    · exact both.2 budget level isBack

section

variable {Index : Type} (base : Index) (unread : WireValue → Prop)

def EndsAlike (action : Index → Activity Unit) : Prop :=
  ∃ events, LevelsUnread unread events ∧ ∀ index, action index () = (events, .ok ())

/-- The same action over several memories, all alike but for the texts of rows or stopped
where a text cannot be told. Besides what is extra, the condition says exactly that all end
alike. -/
structure Accounts (action : Index → Activity Unit) (extra condition : Prop) : Prop where
  alike : ∀ index, SameFlow (action base) (action index) ∨
    (action index ()).2 = .error .undefined
  exact : (extra ∧ EndsAlike unread action) ↔ condition

namespace Accounts

variable {base unread} {extra others condition otherCondition : Prop}

theorem congr {action : Index → Activity Unit}
    (accounts : Accounts base unread action extra condition) (sameExtra : others ↔ extra)
    (sameCondition : condition ↔ otherCondition) :
    Accounts base unread action others otherCondition where
  alike := accounts.alike
  exact := (and_congr_left fun _ => sameExtra).trans (accounts.exact.trans sameCondition)

theorem of_constant {action : Activity Unit}
    (exact : (extra ∧ ∃ events, LevelsUnread unread events ∧ action () = (events, .ok ())) ↔
      condition) :
    Accounts base unread (fun _ => action) extra condition where
  alike _ := .inl (sameFlow_refl _)
  exact := by
    have sameEnds : EndsAlike unread (fun _ : Index => action) ↔
        ∃ events, LevelsUnread unread events ∧ action () = (events, .ok ()) := by
      apply exists_congr
      intro events
      apply and_congr_right
      intro _
      exact ⟨fun ends => ends base, fun ends _ => ends⟩
    rw [sameEnds]
    exact exact

theorem of_ends {action : Activity Unit} {events : List Event} (ends : action () = (events, .ok ()))
    (quiet : LevelsUnread unread events) : Accounts base unread (fun _ => action) extra extra :=
  of_constant (and_iff_left ⟨events, quiet, ends⟩)

theorem of_stops {action : Activity Unit} (stops : Stops action) :
    Accounts base unread (fun _ => action) extra False := by
  apply of_constant
  apply iff_of_false _ not_false
  intro both
  rcases both with ⟨_, events, _, ends⟩
  rcases stops () with ⟨reason, stopped⟩
  rw [ends] at stopped
  cases stopped

theorem one (extra : Prop) : Accounts base unread (fun _ => 1) extra extra :=
  of_ends rfl nofun

theorem raise (exception : Exception) (extra : Prop) :
    Accounts base unread (fun _ => raise exception) extra False :=
  of_stops (stops_raise exception)

theorem raise_mul (exception : Exception) (rest : Index → Activity Unit) (extra : Prop) :
    Accounts base unread (fun index => PostgresProtobuf.raise exception * rest index) extra
      False := by
  have stops : ∀ index, PostgresProtobuf.raise exception * rest index =
      PostgresProtobuf.raise exception := fun index => (stops_raise exception).mul (rest index)
  simp only [stops]
  exact raise exception extra

theorem endOn (fault : Option FramingFault) (extra : Prop) :
    Accounts base unread (fun _ => endOn fault) extra (extra ∧ fault = none) := by
  cases fault with
  | none => exact (one extra).congr Iff.rfl (and_iff_left rfl).symm
  | some fault => exact (raise _ extra).congr Iff.rfl (iff_of_false not_false nofun)

section

variable {first rest : Index → Activity Unit}

theorem mul_alike (accounts : Accounts base unread first extra condition)
    (follows : Accounts base unread rest others otherCondition) (index : Index) :
    SameFlow (first base * rest base) (first index * rest index) ∨
      ((first index * rest index) ()).2 = .error .undefined := by
  rcases accounts.alike index with same | undefined
  · rcases ends : first base () with ⟨events, reason | _⟩
    · have stopped : (first index ()).2 = .error reason := by rw [← same.2, ends]
      have endsIndex : first index () = ((first index ()).1, .error reason) :=
        Prod.ext rfl stopped
      apply Or.inl
      rw [SameFlow, Action.mul_apply_of_error ends, Action.mul_apply_of_error endsIndex]
      exact ⟨by rw [← same.1, ends], rfl⟩
    · have stopped : (first index ()).2 = .ok () := by rw [← same.2, ends]
      have endsIndex : first index () = ((first index ()).1, .ok ()) := Prod.ext rfl stopped
      rcases follows.alike index with sameRest | undefined
      · apply Or.inl
        rw [SameFlow, Action.mul_apply_of_ok ends, Action.mul_apply_of_ok endsIndex,
          List.map_append, List.map_append, sameRest.1, ← same.1, ends]
        exact ⟨rfl, sameRest.2⟩
      · apply Or.inr
        rw [Action.mul_apply_of_ok endsIndex]
        exact undefined
  · have endsIndex : first index () = ((first index ()).1, .error .undefined) :=
      Prod.ext rfl undefined
    exact .inr (by rw [Action.mul_apply_of_error endsIndex])

/-- A sequence ends alike where its two actions do, since the texts of rows do not matter to
how many events there are. -/
theorem mul_ends (accounts : Accounts base unread first extra condition) :
    EndsAlike unread (fun index => first index * rest index) ↔
      EndsAlike unread first ∧ EndsAlike unread rest := by
  constructor
  · intro endsAlike
    rcases endsAlike with ⟨events, unreadEvents, ends⟩
    have atBase : (first base * rest base) () = (events, .ok ()) := ends base
    rcases endsFirst : first base () with ⟨front, reason | _⟩
    · rw [Action.mul_apply_of_error endsFirst] at atBase
      cases atBase
    · rw [Action.mul_apply_of_ok endsFirst] at atBase
      rcases endsRest : rest base () with ⟨back, ending⟩
      rw [endsRest, Prod.mk.injEq] at atBase
      rcases atBase with ⟨rfl, rfl⟩
      have both : ∀ index,
          first index () = (front, .ok ()) ∧ rest index () = (back, .ok ()) := by
        intro index
        have endsIndex : (first index * rest index) () = (front ++ back, .ok ()) := ends index
        rcases accounts.alike index with same | undefined
        · have stopped : (first index ()).2 = .ok () := by rw [← same.2, endsFirst]
          have endsFirstIndex : first index () = ((first index ()).1, .ok ()) :=
            Prod.ext rfl stopped
          have lengths : (first index ()).1.length = front.length := by
            have blanks := congrArg List.length same.1
            rw [List.length_map, List.length_map, endsFirst] at blanks
            exact blanks.symm
          rw [Action.mul_apply_of_ok endsFirstIndex, Prod.mk.injEq] at endsIndex
          rcases List.append_inj endsIndex.1 lengths with ⟨isFront, isBack⟩
          exact ⟨endsFirstIndex.trans (by rw [isFront]), Prod.ext isBack endsIndex.2⟩
        · have endsFirstIndex : first index () = ((first index ()).1, .error .undefined) :=
            Prod.ext rfl undefined
          rw [Action.mul_apply_of_error endsFirstIndex] at endsIndex
          have ending := congrArg Prod.snd endsIndex
          cases ending
      rcases (levelsUnread_append front back).mp unreadEvents with ⟨unreadFront, unreadBack⟩
      exact ⟨⟨front, unreadFront, fun index => (both index).1⟩,
        ⟨back, unreadBack, fun index => (both index).2⟩⟩
  · intro both
    rcases both with ⟨⟨front, unreadFront, endsFirst⟩, ⟨back, unreadBack, endsRest⟩⟩
    refine ⟨front ++ back, (levelsUnread_append front back).mpr ⟨unreadFront, unreadBack⟩, ?_⟩
    exact fun index => (Action.mul_apply_of_ok (endsFirst index)).trans (by rw [endsRest])

theorem mul (accounts : Accounts base unread first extra condition)
    (follows : Accounts base unread rest others otherCondition) :
    Accounts base unread (fun index => first index * rest index) (extra ∧ others)
      (condition ∧ otherCondition) where
  alike := accounts.mul_alike follows
  exact := by rw [accounts.mul_ends, and_and_and_comm, accounts.exact, follows.exact]

theorem andThen {middle : Prop} (accounts : Accounts base unread first extra middle)
    (follows : Accounts base unread rest middle condition) :
    Accounts base unread (fun index => first index * rest index) extra condition where
  alike := accounts.mul_alike follows
  exact := by rw [accounts.mul_ends, ← and_assoc, accounts.exact, follows.exact]

end

theorem with_extra (extra : Prop) {action : Index → Activity Unit}
    (accounts : Accounts base unread action True condition) :
    Accounts base unread action extra (extra ∧ condition) where
  alike := accounts.alike
  exact := by rw [← accounts.exact, true_and]

theorem readWhole (text : String) (size : Nat) (payload : Bytes)
    {continuation : Index → Activity Unit}
    (accounts : payload.length = size →
      Accounts base unread continuation extra condition) :
    Accounts base unread
      (fun index => PostgresProtobuf.readWhole text size payload (continuation index)) extra
      (payload.length = size ∧ condition) := by
  simp only [PostgresProtobuf.readWhole]
  by_cases whole : payload.length = size
  · simp only [if_pos whole]
    exact (accounts whole).congr Iff.rfl (iff_and_self.mpr fun _ => whole)
  · simp only [if_neg whole]
    exact (raise _ _).congr Iff.rfl (iff_of_false not_false fun both => whole both.1)

theorem level (budget : Nat) (payload : Bytes) {scanned : Index → Activity Unit}
    (accounts : Accounts base unread scanned (∀ field ∈ (readFields payload).1,
      unread field.value) condition) :
    Accounts base unread
      (fun index => Action.log (.enter budget payload) * scanned index *
        PostgresProtobuf.endOn (readFields payload).2 * Action.log .leave) True
      (condition ∧ (readFields payload).2 = none) := by
  have enters : Accounts base unread (fun _ => Action.log (.enter budget payload)) True
      (∀ field ∈ (readFields payload).1, unread field.value) := by
    apply of_constant
    rw [true_and]
    constructor
    · intro ends
      rcases ends with ⟨events, all, ends⟩
      cases ends
      exact all _ _ List.mem_cons_self
    · intro all
      refine ⟨_, ?_, rfl⟩
      intro otherBudget other member
      cases List.mem_singleton.mp member
      exact all
  have leaves : ∀ extra, Accounts base unread (fun _ => Action.log .leave) extra extra := by
    intro extra
    apply of_ends rfl
    intro otherBudget other member
    cases List.mem_singleton.mp member
  exact ((enters.andThen accounts).andThen (endOn _ condition)).andThen (leaves _)

theorem turns {Progress Item : Type} {turn : Index → Progress → Item → Activity Unit × Progress}
    {holds : Progress → Item → Prop} {after : Progress → Item → Progress}
    {extra : Item → Prop} {Invariant : Progress → Prop}
    (advances : ∀ index progress item, Invariant progress →
      (turn index progress item).2 = after progress item)
    (keeps : ∀ progress item, Invariant progress → Invariant (after progress item))
    (steps : ∀ progress item, Invariant progress →
      Accounts base unread (fun index => (turn index progress item).1) (extra item)
        (holds progress item)) (items : List Item) (progress : Progress)
    (starts : Invariant progress) :
    Accounts base unread (fun index => (PostgresProtobuf.turns (turn index) progress items).1)
        (∀ item ∈ items, extra item) (EveryTurn holds after progress items) ∧
      ∀ index, (PostgresProtobuf.turns (turn index) progress items).2 =
        items.foldl after progress := by
  induction items generalizing progress with
  | nil => exact ⟨(one True).congr (iff_true_intro nofun) Iff.rfl, fun _ => rfl⟩
  | cons item items induction =>
      rcases induction _ (keeps progress item starts) with ⟨accounts, ends⟩
      constructor
      · simp only [PostgresProtobuf.turns, advances _ progress item starts]
        apply ((steps progress item starts).mul accounts).congr List.forall_mem_cons Iff.rfl
      · intro index
        rw [PostgresProtobuf.turns, advances index progress item starts, List.foldl_cons]
        exact ends index

theorem treatAs {readString readBytes bufferedValue : Bytes → Activity Unit} {size : Nat}
    {payload : Bytes} {buffered : Prop} (fits : payload.length = size → extra)
    (strings : Accounts base unread (fun _ => readString payload) True True)
    (bytes : Accounts base unread (fun _ => readBytes payload) True True)
    (buffers : Accounts base unread (fun _ => bufferedValue payload) True buffered)
    (treatment : LengthDelimitedFieldTreatment) :
    Accounts base unread
      (fun _ => Setting.treatAs readString readBytes bufferedValue treatment size payload) extra
      ((treatment.ReadsContents ∨ extra) ∧ treatment.Reads size payload buffered) := by
  have reads : ∀ {text : String} {action : Activity Unit} {condition : Prop},
      Accounts base unread (fun _ => action) True condition →
      Accounts base unread (fun _ => PostgresProtobuf.readWhole text size payload action) extra
        ((True ∨ extra) ∧ payload.length = size ∧ condition) := by
    intro text action condition accounts
    apply (readWhole text size payload fun whole => accounts.congr
      (iff_true_intro (fits whole)) Iff.rfl).congr Iff.rfl
    exact (and_iff_right (.inl trivial)).symm
  cases treatment with
  | asString =>
      exact (reads strings).congr Iff.rfl (and_congr_right fun _ => and_iff_left trivial)
  | asBytes =>
      exact (reads bytes).congr Iff.rfl (and_congr_right fun _ => and_iff_left trivial)
  | buffer => exact reads buffers
  | _ =>
      exact (one extra).congr Iff.rfl
        ((and_iff_left trivial).trans (iff_of_eq (false_or extra))).symm

end Accounts

variable (requirement : Requirement)

/-- Deliveries over several memories that do what the intake requires. -/
structure Fulfils (next : Index → Delivery Unit) (intake : Intake) : Prop where
  accepts : ∀ budget value, Accounts base requirement.unread
    (fun index => (next index).field budget value) True (intake.accepts budget value)
  takes : ∀ budget value, Accounts base requirement.unread
    (fun index => (next index).field budget value) (requirement.unread value)
    (requirement.Takes intake budget value)

def FulfilsTypes (next : Index → Delivery Unit) (intake : Intake) : Prop :=
  ∀ type size payload, Accounts base requirement.unread
    (fun index => (next index).handed type size payload)
    (requirement.unread (.lengthDelimited size payload))
    (((compositeFieldTreatmentForType type).ReadsContents ∨
      requirement.unread (.lengthDelimited size payload)) ∧ intake.handed type size payload)

variable {base requirement}

theorem Fulfils.of_accepts {next : Index → Delivery Unit} {intake : Intake}
    (skips : ¬ intake.readsWhole)
    (accepts : ∀ budget value, Accounts base requirement.unread
      (fun index => (next index).field budget value) True (intake.accepts budget value)) :
    Fulfils base requirement next intake where
  accepts := accepts
  takes budget value := by
    rw [Requirement.Takes, or_iff_right skips]
    exact (accepts budget value).with_extra _

/-! ## Levels -/

theorem everyTurn_unit {Item : Type} {holds : Item → Prop} {items : List Item} :
    EveryTurn (fun (_ : Unit) item => holds item) (fun _ _ => ()) () items ↔
      ∀ item ∈ items, holds item := by
  induction items with
  | nil => exact iff_of_true trivial nofun
  | cons item items induction => rw [EveryTurn, induction, List.forall_mem_cons]

section

variable {Progress : Type} {turn : Index → Nat → Progress → WireField → Activity Unit × Progress}
variable {holds : Nat → Progress → WireField → Prop} {after : Progress → WireField → Progress}
variable {Invariant : Progress → Prop}
variable (advances : ∀ index budget progress field, Invariant progress →
  (turn index budget progress field).2 = after progress field)
variable (keeps : ∀ progress field, Invariant progress → Invariant (after progress field))

include advances keeps

theorem descend_fulfils (steps : ∀ budget progress field, Invariant progress →
      Accounts base requirement.unread (fun index => (turn index budget progress field).1)
        (requirement.unread field.value) (holds budget progress field))
    (start : Progress) (starts : Invariant start) :
    Fulfils base requirement (fun index => Setting.descend (turn index) start)
      (Requirement.below fun budget => EveryTurn (holds budget) after start) := by
  apply Fulfils.of_accepts not_false
  intro budget value
  cases value with
  | lengthDelimited size payload =>
      cases budget with
      | zero => exact .raise _ True
      | succ budget =>
          exact .level budget payload (Accounts.turns (fun index => advances index budget) keeps
            (steps budget) (readFields payload).1 start starts).1
  | _ => cases budget <;> exact .one True

end

theorem descend_fulfilsTypes {Progress : Type}
    {turn : Index → Nat → Progress → WireField → Activity Unit × Progress} {start : Progress}
    (fields : Nat → List WireField → Prop) :
    FulfilsTypes base requirement (fun index => Setting.descend (turn index) start)
      (Requirement.below fields) := by
  intro type size payload
  have fits : payload.length = size → requirement.unread (.lengthDelimited size payload) :=
    fun whole => requirement.unread_of_fits whole
  apply Accounts.treatAs fits
  · exact .one True
  · exact .one True
  · exact .one True

/-! ## Field selectors -/

variable {next : Index → Delivery Unit} {intake : Intake}

section

variable (fulfils : Fulfils base requirement next intake)

include fulfils

theorem emits_accounts {part : ChainPart} {number index : Int} (budget : Nat)
    (value : WireValue) :
    Accounts base requirement.unread
      (fun memory => if part.Emits number index then (next memory).field budget value else 1)
      True (part.Emits number index → intake.accepts budget value) := by
  by_cases emits : part.Emits number index
  · simp only [if_pos emits]
    exact (fulfils.accepts budget value).congr Iff.rfl (imp_iff_right emits).symm
  · simp only [if_neg emits]
    exact (Accounts.one True).congr Iff.rfl
      (iff_of_true trivial fun isEmitted => absurd isEmitted emits)

theorem selectPacked_accounts (part : ChainPart) (budget : Nat) (number index : Int)
    (payload : Bytes) :
    Accounts base requirement.unread
        (fun memory => (Setting.selectPacked part (next memory) budget number index payload).1)
        True (Requirement.Elements part intake budget number index payload) ∧
      ∀ memory, (Setting.selectPacked part (next memory) budget number index payload).2 =
        part.indexAfterElements number index payload := by
  unfold Setting.selectPacked Requirement.Elements ChainPart.indexAfterElements
  cases Setting.packedWireType part.type with
  | none => exact ⟨.one True, fun _ => rfl⟩
  | some wireType =>
      have advances : ∀ memory progress value, True →
          (Setting.selectElement part (next memory) budget number progress value).2 =
            part.indexAfter number progress := fun _ _ _ _ => rfl
      have steps : ∀ progress value, True → Accounts base requirement.unread
          (fun memory =>
            (Setting.selectElement part (next memory) budget number progress value).1) True
          (part.Emits number progress → intake.accepts budget value) :=
        fun progress value _ => emits_accounts fulfils budget value
      have elements := Accounts.turns advances (fun _ _ _ => trivial) steps
        (readElements wireType payload).1 index trivial
      have whole := (elements.1.congr (iff_of_true trivial fun _ _ => trivial) Iff.rfl).andThen
        (.endOn (readElements wireType payload).2 _)
      exact ⟨whole, elements.2⟩

theorem selectField_accounts {part : ChainPart}
    (handsOver : part.type ≠ .message → FulfilsTypes base requirement next intake) (budget : Nat)
    (index : Int) (field : WireField) :
    Accounts base requirement.unread
        (fun memory => (Setting.selectField part (next memory) budget index field).1)
        (requirement.unread field.value)
        (requirement.Selected part intake budget index field) ∧
      ∀ memory, (Setting.selectField part (next memory) budget index field).2 =
        part.indexAfterField index field := by
  rcases field with ⟨number, value⟩
  have primitive : value.Fits → Accounts base requirement.unread
      (fun memory => if part.Emits number index then (next memory).field budget value else 1)
      (requirement.unread value) (part.Emits number index → intake.accepts budget value) :=
    fun fits => (emits_accounts fulfils budget value).congr
      (iff_of_true (requirement.unread_of_fits fits) trivial) Iff.rfl
  cases value with
  | lengthDelimited size payload =>
      simp only [Setting.selectField, Requirement.Selected, ChainPart.indexAfterField]
      by_cases isPacked : part.isPacked = true
      · rcases selectPacked_accounts fulfils part budget number index payload with
          ⟨elements, ends⟩
        simp only [if_pos isPacked, ends]
        exact ⟨elements.with_extra _, fun _ => trivial⟩
      · simp only [if_neg isPacked]
        refine ⟨?_, fun _ => trivial⟩
        by_cases emits : part.Emits number index
        · simp only [if_pos emits]
          by_cases isMessage : part.type = .message
          · simp only [if_pos isMessage]
            exact fulfils.takes budget _
          · simp only [if_neg isMessage]
            exact handsOver isMessage part.type size payload
        · simp only [if_neg emits]
          exact .one _
  | varint number => exact ⟨primitive trivial, fun _ => rfl⟩
  | fixed64 number => exact ⟨primitive trivial, fun _ => rfl⟩
  | fixed32 number => exact ⟨primitive trivial, fun _ => rfl⟩

end

/-! ## Ends of paths and entries of maps -/

theorem descend_fulfils_unit
    {turn : Index → Nat → Unit → WireField → Activity Unit × Unit} {holds : Nat → WireField → Prop}
    (steps : ∀ budget field, Accounts base requirement.unread
      (fun memory => (turn memory budget () field).1) (requirement.unread field.value)
      (holds budget field)) :
    Fulfils base requirement (fun memory => Setting.descend (turn memory) ())
      (Requirement.below fun budget fields => ∀ field ∈ fields, holds budget field) := by
  have advances : ∀ memory budget progress field, True →
      (turn memory budget progress field).2 = () := fun _ _ _ _ _ => rfl
  have fulfils := descend_fulfils advances (fun _ _ _ => trivial)
    (fun budget _ field _ => steps budget field) () trivial
  have sameFields : (fun budget => EveryTurn (fun (_ : Unit) field => holds budget field)
      (fun _ _ => ()) ()) = fun budget fields => ∀ field ∈ fields, holds budget field := by
    funext budget fields
    exact propext everyTurn_unit
  rw [← sameFields]
  exact fulfils

section

variable (fulfils : Fulfils base requirement next intake)

include fulfils

theorem endOnto_fulfils (types : FulfilsTypes base requirement next intake)
    (trailingDot : Bool) :
    let endIntake :=
      if trailingDot then
        Requirement.below fun budget fields =>
          ∀ field ∈ fields, requirement.Takes intake budget field.value
      else intake
    Fulfils base requirement (fun memory => Setting.endOnto (next memory) trailingDot)
        endIntake ∧
      FulfilsTypes base requirement (fun memory => Setting.endOnto (next memory) trailingDot)
        endIntake := by
  unfold Setting.endOnto
  cases trailingDot with
  | false => exact ⟨fulfils, types⟩
  | true =>
      exact ⟨descend_fulfils_unit fun budget field => fulfils.takes budget field.value,
        descend_fulfilsTypes fun budget fields =>
          ∀ field ∈ fields, requirement.Takes intake budget field.value⟩

theorem allMapEntries_fulfils (wantKeys : Bool) :
    Fulfils base requirement (fun memory => Setting.allMapEntries wantKeys (next memory))
      (requirement.allMapEntries wantKeys intake) := by
  have steps : ∀ budget (field : WireField), Accounts base requirement.unread
      (fun memory => (Setting.entriesField wantKeys (next memory) budget () field).1)
      (requirement.unread field.value)
      (if Setting.wantsEntryField wantKeys field.number then
        requirement.Takes intake budget field.value
      else requirement.unread field.value) := by
    intro budget field
    simp only [Setting.entriesField]
    by_cases wanted : Setting.wantsEntryField wantKeys field.number = true
    · simp only [if_pos wanted]
      exact fulfils.takes budget field.value
    · simp only [if_neg wanted]
      exact .one _
  have fulfils := descend_fulfils_unit steps
  exact ⟨fulfils.accepts, fulfils.takes⟩

variable {utils : PostgresUtils} {binaryToJsonString : StdString → Bytes → Option StdString}
variable {limit : Nat} {bits : UInt64}

section

variable {keyType : FieldType} {wantedKeyField : FieldInfo} {wantedKeyContents : StdString}

open Setting (EntryBuffers)

theorem leaveEntry_accounts {buffers : EntryBuffers} (filled : buffers.Filled) :
    Accounts base requirement.unread
      (fun memory => ((Setting.fixed utils binaryToJsonString limit bits).leaveEntry keyType
        wantedKeyField wantedKeyContents (next memory) buffers).1) True
      (Requirement.Ended limit wantedKeyField wantedKeyContents intake buffers) := by
  rcases filled with ⟨⟨key, isKey⟩, value, isValue⟩
  by_cases inEntry : buffers.inEntry = true
  · have ends : ∀ next : Delivery Unit,
        ((Setting.fixed utils binaryToJsonString limit bits).leaveEntry keyType wantedKeyField
          wantedKeyContents next buffers).1 =
        if Setting.entryMatches wantedKeyField wantedKeyContents key buffers.keyContents then
          next.field limit value
        else 1 := by
      intro next
      rw [Setting.leaveEntry, if_pos inEntry]
      exact Setting.endEntry_fixed _ _ _ _ _ _ _ _ isKey isValue
    simp only [ends]
    by_cases isWanted : Setting.entryMatches wantedKeyField wantedKeyContents key
        buffers.keyContents = true
    · simp only [if_pos isWanted]
      apply (fulfils.accepts limit value).congr Iff.rfl
      constructor
      · intro accepts _ _ found isFound
        rw [isValue, Option.mem_def, Option.some.injEq] at isFound
        exact isFound ▸ accepts
      · intro ended
        exact ended inEntry ⟨key, isKey, isWanted⟩ value isValue
    · simp only [if_neg isWanted]
      apply (Accounts.one True).congr Iff.rfl
      apply iff_of_true trivial
      intro _ isMatch
      rcases isMatch with ⟨found, isFound, matching⟩
      rw [isKey, Option.some.injEq] at isFound
      exact absurd (isFound ▸ matching) isWanted
  · have ends : ∀ next : Delivery Unit,
        ((Setting.fixed utils binaryToJsonString limit bits).leaveEntry keyType wantedKeyField
          wantedKeyContents next buffers).1 = 1 := by
      intro next
      rw [Setting.leaveEntry, if_neg inEntry]
    simp only [ends]
    exact (Accounts.one True).congr Iff.rfl
      (iff_of_true trivial fun isIn => absurd isIn inEntry)

theorem entry_accounts {budget : Nat} {holds : EntryBuffers → WireField → Prop}
    (steps : ∀ buffers field, buffers.Reset ∧ buffers.Filled →
      Accounts base requirement.unread
        (fun memory => ((Setting.fixed utils binaryToJsonString limit bits).lookupField keyType
          wantedKeyField wantedKeyContents (next memory) budget buffers field).1)
        (requirement.unread field.value) (holds buffers field)) {buffers : EntryBuffers}
    (filled : buffers.Filled) (payload : Bytes) :
    Accounts base requirement.unread
      (fun memory =>
        let setting := Setting.fixed utils binaryToJsonString limit bits
        let scanned := scanLevel budget (setting.lookupField keyType wantedKeyField
          wantedKeyContents (next memory) budget) { buffers with inEntry := true } payload
        scanned.1 * (setting.leaveEntry keyType wantedKeyField wantedKeyContents (next memory)
          scanned.2).1) True
      (Requirement.Entry limit wantedKeyField wantedKeyContents intake holds
          { buffers with inEntry := true } (readFields payload).1 ∧
        (readFields payload).2 = none) := by
  have advances : ∀ memory (buffers : EntryBuffers) (field : WireField),
      buffers.Reset ∧ buffers.Filled →
      ((Setting.fixed utils binaryToJsonString limit bits).lookupField keyType wantedKeyField
        wantedKeyContents (next memory) budget buffers field).2 = buffers.after field :=
    fun _ _ field held => Setting.lookupField_snd _ held.1 budget field
  have keeps : ∀ (buffers : EntryBuffers) (field : WireField),
      buffers.Reset ∧ buffers.Filled →
      (buffers.after field).Reset ∧ (buffers.after field).Filled :=
    fun _ field held => ⟨EntryBuffers.reset_after held.1 field,
      EntryBuffers.filled_after held.2 field⟩
  have inside : EntryBuffers.Filled { buffers with inEntry := true } := filled
  generalize isStart : { buffers with inEntry := true } = start at inside
  have starts : start.Reset ∧ start.Filled := ⟨.of_inEntry (by rw [← isStart]), inside⟩
  rcases Accounts.turns advances keeps steps (readFields payload).1 start starts with
    ⟨accounts, ends⟩
  simp only [scanLevel, ends]
  exact ((Accounts.level budget payload accounts).mul (leaveEntry_accounts fulfils
    (EntryBuffers.filled_foldl inside (readFields payload).1))).congr
      (iff_of_eq (and_self _)).symm and_right_comm

/-- A field that is not length-delimited is buffered, or ends the entry. -/
theorem lookupPrimitive_accounts (budget : Nat) {buffers : EntryBuffers} (number : Nat)
    {value : WireValue} (primitive : value.wireType ≠ 2) (filled : buffers.Filled) :
    Accounts base requirement.unread
      (fun memory => ((Setting.fixed utils binaryToJsonString limit bits).lookupField keyType
        wantedKeyField wantedKeyContents (next memory) budget buffers ⟨number, value⟩).1)
      (requirement.unread value)
      (requirement.LookedUp limit wantedKeyField wantedKeyContents intake budget buffers
        ⟨number, value⟩) := by
  have fine : requirement.unread value := by
    apply requirement.unread_of_fits
    cases value with
    | lengthDelimited size payload => exact absurd rfl primitive
    | _ => trivial
  have condition : requirement.LookedUp limit wantedKeyField wantedKeyContents intake budget
      buffers ⟨number, value⟩ ↔ (number ≠ 1 → number ≠ 2 →
        Requirement.Ended limit wantedKeyField wantedKeyContents intake buffers) := by
    cases value with
    | lengthDelimited size payload => exact absurd rfl primitive
    | _ => cases budget <;> exact Iff.rfl
  rw [condition]
  simp only [Setting.lookupField_primitive _ _ _ _ _ primitive]
  by_cases inEntry : buffers.inEntry = true
  · simp only [if_pos inEntry]
    by_cases isKey : number = 1
    · simp only [if_pos isKey]
      exact (Accounts.one True).congr (iff_of_true fine trivial)
        (iff_of_true trivial fun notKey => absurd isKey notKey)
    · simp only [if_neg isKey]
      by_cases isValue : number = 2
      · simp only [if_pos isValue]
        exact (Accounts.one True).congr (iff_of_true fine trivial)
          (iff_of_true trivial fun _ notValue => absurd isValue notValue)
      · simp only [if_neg isValue]
        exact (leaveEntry_accounts fulfils filled).congr (iff_of_true fine trivial)
          ⟨fun ended _ _ => ended, fun ended => ended isKey isValue⟩
  · simp only [if_neg inEntry]
    exact (Accounts.one True).congr (iff_of_true fine trivial)
      (iff_of_true trivial fun _ _ isIn => absurd isIn inEntry)

omit fulfils in
/-- The contents of a key or a value are read whole. -/
theorem lookupContents_accounts (budget : Nat) {buffers : EntryBuffers} {number : Nat}
    (size : Nat) (payload : Bytes) (inEntry : buffers.inEntry = true)
    (isKnown : number = 1 ∨ number = 2) :
    Accounts base requirement.unread
      (fun _ => readWhole "failed to fully read length-delimited field" size payload 1)
      (requirement.unread (.lengthDelimited size payload))
      (requirement.LookedUp limit wantedKeyField wantedKeyContents intake budget buffers
        ⟨number, .lengthDelimited size payload⟩) := by
  have condition : requirement.LookedUp limit wantedKeyField wantedKeyContents intake budget
      buffers ⟨number, .lengthDelimited size payload⟩ ↔ payload.length = size ∧ True := by
    rw [and_true]
    cases budget <;> simp only [Requirement.LookedUp, inEntry, isKnown, and_self, if_true]
  rw [condition]
  apply Accounts.readWhole
  intro whole
  exact (Accounts.one True).congr (iff_true_intro (requirement.unread_of_fits whole)) Iff.rfl

/-- One field seen by a map filter, by induction on the budget. -/
theorem lookupField_accounts (budget : Nat) (buffers : EntryBuffers) (field : WireField)
    (held : buffers.Reset ∧ buffers.Filled) :
    Accounts base requirement.unread
      (fun memory => ((Setting.fixed utils binaryToJsonString limit bits).lookupField keyType
        wantedKeyField wantedKeyContents (next memory) budget buffers field).1)
      (requirement.unread field.value)
      (requirement.LookedUp limit wantedKeyField wantedKeyContents intake budget buffers
        field) := by
  induction budget using Nat.strongRecOn generalizing buffers field with
  | _ budget induction =>
      rcases field with ⟨number, value⟩
      by_cases primitive : value.wireType ≠ 2
      · exact lookupPrimitive_accounts fulfils budget number primitive held.2
      · cases value with
        | lengthDelimited size payload =>
            by_cases isKey : buffers.inEntry = true ∧ number = 1
            · rcases isKey with ⟨inEntry, rfl⟩
              simp only [Setting.lookupField_key _ _ _ _ _ inEntry]
              exact lookupContents_accounts budget size payload inEntry (.inl rfl)
            · by_cases isValue : buffers.inEntry = true ∧ number = 2
              · rcases isValue with ⟨inEntry, rfl⟩
                simp only [Setting.lookupField_value _ _ _ _ _ inEntry]
                exact lookupContents_accounts budget size payload inEntry (.inr rfl)
              · simp only [Setting.lookupField_entry _ _ _ _ _ isKey isValue]
                have scans : ¬ (buffers.inEntry = true ∧ (number = 1 ∨ number = 2)) :=
                  fun known => known.2.elim (fun one => isKey ⟨known.1, one⟩)
                    fun two => isValue ⟨known.1, two⟩
                cases budget with
                | zero =>
                    apply (Accounts.raise_mul _ _ _).congr Iff.rfl
                    simp only [Requirement.LookedUp, if_neg scans, and_false]
                | succ budget =>
                    have entry := entry_accounts fulfils
                      (fun buffers field held =>
                        induction budget (Nat.lt_succ_self _) buffers field held)
                      held.2 payload
                    apply (entry.with_extra _).congr Iff.rfl
                    simp only [Requirement.LookedUp, if_neg scans]
        | _ => exact absurd (by simp [WireValue.wireType]) primitive

theorem mapFilter_fulfils (position : Nat) :
    Fulfils base requirement
      (fun memory => (Setting.fixed utils binaryToJsonString limit bits).mapFilter keyType
        wantedKeyField wantedKeyContents (next memory) position)
      (requirement.mapFilter limit wantedKeyField wantedKeyContents intake) := by
  apply Fulfils.of_accepts not_false
  intro budget value
  cases value with
  | lengthDelimited size payload =>
      simp only [Setting.mapFilter_fixed]
      cases budget with
      | zero => exact .raise_mul _ _ True
      | succ budget =>
          exact entry_accounts fulfils
            (fun buffers field held => lookupField_accounts fulfils budget buffers field held)
            EntryBuffers.filled_empty payload
  | _ => cases budget <;> exact .one True

end

/-! ## Chains -/

theorem mapPart_fulfils (position : Nat) (map : MapPart) :
    Fulfils base requirement
      (fun memory => (Setting.fixed utils binaryToJsonString limit bits).mapPart position map
        (next memory))
      (requirement.mapPart limit map intake) := by
  cases map with
  | none => exact fulfils
  | entries wantKeys type => exact allMapEntries_fulfils fulfils wantKeys
  | lookup keyType wantedKeyField wantedKeyContents valueType =>
      exact mapFilter_fulfils fulfils position

/-- A chain fulfils what it requires if what follows it does, by induction on the parts. -/
theorem chainOnto_fulfils (types : FulfilsTypes base requirement next intake) (position : Nat)
    (parts : List ChainPart) :
    Fulfils base requirement
        (fun memory => (Setting.fixed utils binaryToJsonString limit bits).chainOnto
          (next memory) position parts)
        (requirement.chainOnto limit intake parts) ∧
      FulfilsTypes base requirement
        (fun memory => (Setting.fixed utils binaryToJsonString limit bits).chainOnto
          (next memory) position parts)
        (requirement.chainOnto limit intake parts) := by
  induction parts generalizing position with
  | nil => exact ⟨fulfils, types⟩
  | cons part parts induction =>
      rcases induction (position + 2 + Setting.mapWidth part.map) with ⟨follows, followsTypes⟩
      let setting := Setting.fixed utils binaryToJsonString limit bits
      let rest := fun memory => setting.mapPart (position + 2) part.map
        (setting.chainOnto (next memory) (position + 2 + Setting.mapWidth part.map) parts)
      let takes := requirement.mapPart limit part.map (requirement.chainOnto limit intake parts)
      have map : Fulfils base requirement rest takes :=
        mapPart_fulfils follows (position + 2) part.map
      have handsOver : part.type ≠ .message → FulfilsTypes base requirement rest takes := by
        intro notMessage
        have noMap : part.map = .none := by
          by_contra isMap
          exact notMessage (part.map_type isMap)
        simp only [rest, takes, noMap]
        rw [noMap] at followsTypes
        exact followsTypes
      have selects := fun budget index field =>
        selectField_accounts map handsOver budget index field
      have advances : ∀ memory budget index (field : WireField), True →
          (Setting.selectField part (rest memory) budget index field).2 =
            part.indexAfterField index field :=
        fun memory budget index field _ => (selects budget index field).2 memory
      exact ⟨descend_fulfils advances (fun _ _ _ => trivial)
        (fun budget index field _ => (selects budget index field).1) 0 trivial,
        descend_fulfilsTypes fun budget =>
          EveryTurn (requirement.Selected part takes budget) part.indexAfterField 0⟩

end

end

/-! ## Emitters -/

theorem emit_inj {row other : Except Exception (Option StdString)}
    (same : (emit row : Activity Unit) () = emit other ()) : row = other := by
  rcases row with exception | _ | text <;> rcases other with otherException | _ | otherText <;>
    cases same <;> rfl

theorem emit_ends_iff {row : Except Exception (Option StdString)} {events : List Event} :
    emit row () = (events, .ok ()) ↔
      ∃ text, row = .ok text ∧ emit (.ok text) () = (events, .ok ()) := by
  rcases row with exception | text
  · exact iff_of_false (by intro ends; cases ends) (by intro ends; cases ends.choose_spec.1)
  · exact ⟨fun ends => ⟨text, rfl, ends⟩, fun ends => by
      rcases ends with ⟨other, same, ends⟩
      rw [same]
      exact ends⟩

theorem levelsUnread_emit {unread : WireValue → Prop}
    {row : Except Exception (Option StdString)} {events : List Event}
    (ends : emit row () = (events, .ok ())) : LevelsUnread unread events := by
  intro budget level entered
  rcases row with exception | _ | text
  · cases ends
  · cases ends
    cases entered
  · cases ends
    cases List.mem_singleton.mp entered

theorem emitPrimitive_ends_iff {setting : Setting Unit} (texts : setting.knowledge.textless = false)
    {kind : EmitterKind} {value : WireValue} {events : List Event} :
    setting.emitPrimitive kind value () = (events, .ok ()) ↔
      ∃ row, emit (.ok row) () = (events, .ok ()) ∧ ∀ bits, setting.knowledge.Possible bits →
        kind.readPrimitive setting.utils (value.header bits) = .ok row := by
  rw [Setting.emitPrimitive]
  constructor
  · intro ends
    cases known : setting.knowledge.read fun bits =>
        kind.readPrimitive setting.utils (value.header bits) with
    | some row =>
        rw [known] at ends
        rcases emit_ends_iff.mp ends with ⟨text, rfl, endsText⟩
        exact ⟨text, endsText, fun bits possible => Knowledge.read_eq_some _ known possible⟩
    | none =>
        simp only [known, texts, Bool.false_eq_true, if_false] at ends
        cases ends
  · intro determined
    rcases determined with ⟨row, ends, always⟩
    rw [Knowledge.read_of_determined _ always]
    exact ends

section

variable {Index : Type} {base : Index} {requirement : Requirement}

theorem emit_accounts (row : Except Exception (Option StdString)) :
    Accounts base requirement.unread (fun _ => emit row) True (∃ text, row = .ok text) := by
  apply Accounts.of_constant
  rw [true_and]
  constructor
  · intro ends
    rcases ends with ⟨events, _, ends⟩
    rcases emit_ends_iff.mp ends with ⟨text, isText, _⟩
    exact ⟨text, isText⟩
  · intro isText
    rcases isText with ⟨text, rfl⟩
    rcases ends : (emit (.ok text) : Activity Unit) () with ⟨events, ending⟩
    have isEnd : ending = .ok () := by cases text <;> cases ends <;> rfl
    subst isEnd
    exact ⟨events, levelsUnread_emit ends, rfl⟩

theorem emitter_fulfils {setting : Index → Setting Unit} {kind : EmitterKind}
    {binaryToJsonString : StdString → Bytes → Option StdString}
    (sameText : ∀ memory, (setting memory).binaryToJsonString = binaryToJsonString)
    (primitives : ∀ value, Accounts base requirement.unread
      (fun memory => (setting memory).emitPrimitive kind value) True (requirement.emitted value))
    (buffered : ∀ payload, (∃ row, kind.bufferedValue binaryToJsonString payload = .ok row) ↔
      requirement.buffered payload) :
    Fulfils base requirement (fun memory => (setting memory).emitter kind)
        (requirement.emitter kind) ∧
      FulfilsTypes base requirement (fun memory => (setting memory).emitter kind)
        (requirement.emitter kind) := by
  have treated : ∀ (treatment : LengthDelimitedFieldTreatment) (size : Nat) (payload : Bytes)
      {extra : Prop}, (payload.length = size → extra) →
      Accounts base requirement.unread
        (fun memory => (setting memory).emitTreated kind treatment size payload) extra
        ((treatment.ReadsContents ∨ extra) ∧
          treatment.Reads size payload (requirement.buffered payload)) := by
    intro treatment size payload extra fits
    simp only [Setting.emitTreated, sameText]
    apply Accounts.treatAs fits
    · exact (emit_accounts _).congr Iff.rfl (iff_true_intro ⟨_, rfl⟩)
    · exact (emit_accounts _).congr Iff.rfl (iff_true_intro ⟨_, rfl⟩)
    · exact (emit_accounts _).congr Iff.rfl (buffered payload)
  constructor
  · constructor
    · intro budget value
      cases value with
      | lengthDelimited size payload =>
          exact (treated kind.readLengthDelimitedField size payload fun _ => trivial).congr
            Iff.rfl (and_iff_right (.inr trivial))
      | _ => exact primitives _
    · intro budget value
      have primitive : value.Fits → Accounts base requirement.unread
          (fun memory => (setting memory).emitPrimitive kind value) (requirement.unread value)
          ((kind.readLengthDelimitedField.ReadsContents ∨ requirement.unread value) ∧
            requirement.emitted value) := by
        intro fits
        have fine := requirement.unread_of_fits fits
        exact (primitives value).congr (iff_true_intro fine) (and_iff_right (.inr fine)).symm
      cases value with
      | lengthDelimited size payload =>
          have fits : payload.length = size →
              requirement.unread (.lengthDelimited size payload) :=
            fun whole => requirement.unread_of_fits whole
          exact treated kind.readLengthDelimitedField size payload fits
      | _ => exact primitive trivial
  · intro type size payload
    have fits : payload.length = size →
        requirement.unread (.lengthDelimited size payload) :=
      fun whole => requirement.unread_of_fits whole
    exact treated _ size payload fits

end

/-! ## Runs over several locals -/

section

variable {Index : Type} {base : Index} {requirement : Requirement} {utils : PostgresUtils}
variable {binaryToJsonString : StdString → Bytes → Option StdString} {limit : Nat}
variable {localBits : Index → Option UInt64} {bits : UInt64}

theorem emitPrimitive_overLocals (kind : EmitterKind) (value : WireValue)
    (known : Option UInt64) :
    let setting := Setting.overLocals utils binaryToJsonString limit known false
    SameFlow ((Setting.fixed utils binaryToJsonString limit bits).emitPrimitive kind value)
        (setting.emitPrimitive kind value) ∨
      (setting.emitPrimitive kind value ()).2 = .error .undefined := by
  intro setting
  rw [emitPrimitive_fixed, Setting.emitPrimitive]
  split
  · rename_i row isRow
    have sameRow := Knowledge.read_eq_some _ isRow setting.knowledge.possible_getD
    apply Or.inl
    rw [← sameRow]
    rcases EmitterKind.readPrimitive_cases utils kind with ⟨row, always⟩ | rows
    · have others : ∀ field, kind.readPrimitive setting.utils field = row := always
      rw [always, others]
      exact sameFlow_refl _
    · rcases rows (value.header bits) with ⟨text, isText⟩
      rcases rows (value.header (setting.knowledge.localBits.getD 0)) with ⟨other, isOther⟩
      have others : kind.readPrimitive setting.utils
          (value.header (setting.knowledge.localBits.getD 0)) = .ok (some other) := isOther
      rw [isText, others]
      exact sameFlow_row text other
  · rename_i unknown
    apply Or.inr
    rw [unknown]
    rfl

variable (utils binaryToJsonString limit) in
theorem emitPrimitive_accounts {kind : EmitterKind} (isBase : localBits base = some bits)
    (value : WireValue) :
    Accounts base requirement.unread
      (fun memory => (Setting.overLocals utils binaryToJsonString limit (localBits memory)
        false).emitPrimitive kind value) True
      (∃ row, ∀ memory, ∀ bits, (∀ known ∈ localBits memory, bits = known) →
        kind.readPrimitive utils (value.header bits) = .ok row) := by
  constructor
  · intro memory
    rw [isBase]
    exact emitPrimitive_overLocals kind value (localBits memory)
  · rw [true_and]
    constructor
    · intro endsAlike
      rcases endsAlike with ⟨events, _, ends⟩
      rcases (emitPrimitive_ends_iff rfl).mp (ends base) with ⟨row, endsRow, _⟩
      refine ⟨row, ?_⟩
      intro memory bits possible
      rcases (emitPrimitive_ends_iff rfl).mp (ends memory) with ⟨other, endsOther, always⟩
      cases emit_inj (endsRow.trans endsOther.symm)
      exact always bits possible
    · intro determined
      rcases determined with ⟨row, always⟩
      have accounts : Accounts base requirement.unread (fun _ => emit (.ok row)) True
          (∃ text, Except.ok row = .ok text) := emit_accounts (.ok row)
      rcases accounts.exact.mpr ⟨row, rfl⟩ with ⟨_, events, unread, ends⟩
      exact ⟨events, unread, fun memory =>
        (emitPrimitive_ends_iff rfl).mpr ⟨row, ends memory, always memory⟩⟩

theorem runs_accounts {parts : List ChainPart} {last : ChainEnd} {message : Bytes}
    (isBase : localBits base = some bits)
    (emitted : ∀ value, (∃ row, ∀ memory, ∀ bits, (∀ known ∈ localBits memory, bits = known) →
      last.kind.readPrimitive utils (value.header bits) = .ok row) ↔ requirement.emitted value)
    (buffered : ∀ payload, (∃ row,
      last.kind.bufferedValue binaryToJsonString payload = .ok row) ↔
        requirement.buffered payload) :
    Accounts base requirement.unread
      (fun memory => (Setting.overLocals utils binaryToJsonString limit (localBits memory)
        false).runs parts last message) True
      (requirement.Met parts last limit message) := by
  let setting := fun memory =>
    Setting.overLocals utils binaryToJsonString limit (localBits memory) false
  have primitives : ∀ value, Accounts base requirement.unread
      (fun memory => (setting memory).emitPrimitive last.kind value) True
      (requirement.emitted value) :=
    fun value => (emitPrimitive_accounts utils binaryToJsonString limit isBase value).congr
      Iff.rfl (emitted value)
  have sameText : ∀ memory, (setting memory).binaryToJsonString = binaryToJsonString :=
    fun _ => rfl
  rcases emitter_fulfils sameText primitives buffered with ⟨emits, emitsTypes⟩
  rcases endOnto_fulfils emits emitsTypes last.trailingDot with ⟨ends, endsTypes⟩
  have fulfils : Fulfils base requirement
      (fun memory => (Setting.fixed utils binaryToJsonString limit bits).chainOnto
        (Setting.endOnto ((setting memory).emitter last.kind) last.trailingDot) 0 parts)
      (requirement.chainOnto limit (requirement.chainEnd last) parts) :=
    (chainOnto_fulfils ends endsTypes 0 parts).1
  have sameRuns : ∀ memory, (setting memory).runs parts last message =
      ((Setting.fixed utils binaryToJsonString limit bits).chainOnto
        (Setting.endOnto ((setting memory).emitter last.kind) last.trailingDot) 0 parts).field
        limit (.ofPayload message) := by
    intro memory
    have sameParts := Setting.chainOnto_overLocals utils binaryToJsonString limit
      (localBits memory) (some bits) false false
      (Setting.endOnto ((setting memory).emitter last.kind) last.trailingDot) 0 parts
    rw [Setting.runs, Setting.chain_eq_chainOnto, Setting.chainEnd_eq_endOnto]
    exact congrArg (fun next : Delivery Unit => next.field limit (.ofPayload message)) sameParts
  rw [funext sameRuns]
  exact fulfils.accepts limit (.ofPayload message)

variable (utils binaryToJsonString) in
/-- What every run requires, over locals with the given bits. -/
def Requirement.checks (kind : EmitterKind) (bits : UInt64) : Requirement where
  unread _ := True
  unread_of_fits _ := trivial
  emitted value := ∃ row, kind.readPrimitive utils (value.header bits) = .ok row
  buffered payload := ∃ row, kind.bufferedValue binaryToJsonString payload = .ok row

/-- Contents that are not read as a whole have to fit as well. -/
def Requirement.fitting (requirement : Requirement) : Requirement :=
  { requirement with unread := WireValue.Fits, unread_of_fits := id }

/-- A run ends normally exactly where the message passes every check along the chain. -/
theorem runs_ends_iff {parts : List ChainPart} {last : ChainEnd} {message : Bytes}
    (emitted : ∀ value, (∃ row, last.kind.readPrimitive utils (value.header bits) = .ok row) ↔
      requirement.emitted value)
    (buffered : ∀ payload, (∃ row,
      last.kind.bufferedValue binaryToJsonString payload = .ok row) ↔
        requirement.buffered payload) :
    (∃ events, LevelsUnread requirement.unread events ∧
        (Setting.fixed utils binaryToJsonString limit bits).runs parts last message () =
          (events, .ok ())) ↔
      requirement.Met parts last limit message := by
  have rows : ∀ value, (∃ row, ∀ _ : Unit, ∀ other, (∀ known ∈ some bits, other = known) →
      last.kind.readPrimitive utils (value.header other) = .ok row) ↔
        requirement.emitted value := by
    intro value
    rw [← emitted value]
    apply exists_congr
    intro row
    constructor
    · exact fun always => always () bits fun known isKnown => Option.some.inj isKnown
    · intro isRow _ other possible
      rw [possible bits rfl]
      exact isRow
  have accounts : Accounts () requirement.unread
      (fun _ : Unit => (Setting.overLocals utils binaryToJsonString limit (some bits)
        false).runs parts last message) True (requirement.Met parts last limit message) :=
    runs_accounts rfl rows buffered
  rw [← accounts.exact, true_and]
  apply exists_congr
  intro events
  apply and_congr_right
  intro _
  exact ⟨fun ends _ => ends, fun ends => ends ()⟩

end

/-! ## Rows that do not depend on the locals -/

theorem Event.eq_of_blank {events others : List Event}
    (sameBlank : events.map blank = others.map blank) (sameRows : rows events = rows others) :
    events = others := by
  induction events generalizing others with
  | nil =>
      cases others with
      | nil => rfl
      | cons => cases sameBlank
  | cons event events induction =>
      rcases others with _ | ⟨other, others⟩
      · cases sameBlank
      · rw [List.map_cons, List.map_cons, List.cons.injEq] at sameBlank
        rcases sameBlank with ⟨sameFirst, sameRest⟩
        cases event with
        | row text =>
            cases other with
            | row otherText =>
                have same : text :: rows events = otherText :: rows others := sameRows
                rw [List.cons.injEq] at same
                rw [same.1, induction sameRest same.2]
            | _ => cases sameFirst
        | enter budget level =>
            cases other with
            | enter =>
                have same : rows events = rows others := sameRows
                cases sameFirst
                rw [induction sameRest same]
            | _ => cases sameFirst
        | leave =>
            cases other with
            | leave =>
                have same : rows events = rows others := sameRows
                rw [induction sameRest same]
            | _ => cases sameFirst

theorem answer_eq_ok_iff {action : Activity Unit} {rows : List StdString} :
    answer action = .ok rows ↔
      ∃ events, action () = (events, .ok ()) ∧ Event.rows events = rows := by
  unfold answer
  rcases action () with ⟨events, (exception | _) | _⟩ <;> simp

section

variable {utils : PostgresUtils} {binaryToJsonString : StdString → Bytes → Option StdString}
variable {limit : Nat} {parts : List ChainPart} {last : ChainEnd}

variable (utils binaryToJsonString) in
/-- No row depends on what the value leaves of the local that it is written to. -/
def Requirement.written (kind : EmitterKind) : Requirement :=
  { Requirement.checks utils binaryToJsonString kind 0 with
    emitted value := ∃ row, ∀ bits, kind.readPrimitive utils (value.header bits) = .ok row }

/-- The rows are the same for every constant in the locals exactly where the message meets
the requirement. -/
theorem written_met_iff {message : Bytes} :
    (Requirement.written utils binaryToJsonString last.kind).Met parts last limit message ↔
      ∃ rows, ∀ bits, answer ((Setting.fixed utils binaryToJsonString limit bits).runs parts last
        message) = .ok rows := by
  have emitted : ∀ value : WireValue, (∃ row, ∀ bits other : UInt64,
      (∀ known ∈ some bits, other = known) →
        last.kind.readPrimitive utils (value.header other) = .ok row) ↔
      ∃ row, ∀ bits, last.kind.readPrimitive utils (value.header bits) = .ok row := by
    intro value
    apply exists_congr
    intro row
    constructor
    · exact fun always bits => always bits bits fun known isKnown => Option.some.inj isKnown
    · exact fun always _ other _ => always other
  have accounts : Accounts (0 : UInt64)
      (Requirement.written utils binaryToJsonString last.kind).unread
      (fun bits => (Setting.overLocals utils binaryToJsonString limit (some bits) false).runs
        parts last message) True
      ((Requirement.written utils binaryToJsonString last.kind).Met parts last limit message) :=
    runs_accounts rfl emitted fun _ => Iff.rfl
  rw [← accounts.exact, true_and]
  constructor
  · intro alike
    rcases alike with ⟨events, _, ends⟩
    exact ⟨Event.rows events, fun bits => answer_eq_ok_iff.mpr ⟨events, ends bits, rfl⟩⟩
  · intro same
    rcases same with ⟨rows, answers⟩
    rcases answer_eq_ok_iff.mp (answers 0) with ⟨events, atZero, isRows⟩
    refine ⟨events, fun _ _ _ _ _ => trivial, ?_⟩
    intro bits
    rcases answer_eq_ok_iff.mp (answers bits) with ⟨others, ends, areRows⟩
    rcases accounts.alike bits with flow | undefined
    · have sameBlank : events.map Event.blank = others.map Event.blank := by
        have blanks := flow.1
        exact (congrArg (fun ending => ending.1.map Event.blank) atZero).symm.trans
          (blanks.trans (congrArg (fun ending => ending.1.map Event.blank) ends))
      rw [Event.eq_of_blank sameBlank (isRows.trans areRows.symm)]
      exact ends
    · have stopped := congrArg Prod.snd ends
      cases undefined.symm.trans stopped

variable {Stream : Type} [CodedInputStream Stream] [LawfulCodedInputStream Stream]
variable {uninitialised : Uninitialised} {message : Bytea}

theorem run_returns_iff (zero : uninitialised.ZeroBuffers) {localBits : Nat → UInt64} :
    (Requirement.checks utils binaryToJsonString last.kind 0).Met parts last
        (CodedInputStream.recursionLimit Stream) message.data ↔
      ∃ rows, QueryImpl.run Stream
        ⟨chainObjects uninitialised parts last, binaryToJsonString⟩ utils localBits message =
          .ok rows := by
  let checks := Requirement.checks utils binaryToJsonString last.kind 0
  have passes : (∃ events, LevelsUnread checks.unread events ∧
      flow Stream parts last utils binaryToJsonString message.data = (events, .ok ())) ↔
      checks.Met parts last (CodedInputStream.recursionLimit Stream) message.data :=
    runs_ends_iff (fun _ => Iff.rfl) fun _ => Iff.rfl
  rw [← passes]
  constructor
  · intro ends
    rcases ends with ⟨events, _, ends⟩
    exact run_of_flow_ok zero ends
  · intro returns
    rcases returns with ⟨rows, returns⟩
    rcases flow_cases Stream parts last utils binaryToJsonString message with
      ⟨events, ends⟩ | ⟨events, exception, ends, _⟩
    · exact ⟨events, fun _ _ _ _ _ => trivial, ends⟩
    · cases returns.symm.trans (run_of_flow_error zero ends)

/-- The rows of a run are the same whatever the locals hold exactly where the message meets
the requirement. -/
theorem run_constant_iff (zero : uninitialised.ZeroBuffers) :
    (Requirement.written utils binaryToJsonString last.kind).Met parts last
        (CodedInputStream.recursionLimit Stream) message.data ↔
      ∃ rows, ∀ localBits, QueryImpl.run Stream
        ⟨chainObjects uninitialised parts last, binaryToJsonString⟩ utils localBits message =
          .ok rows := by
  constructor
  · intro met
    have emitted : ∀ value : WireValue, (∃ row, ∀ (memory : Option UInt64) (bits : UInt64),
        (∀ known ∈ memory, bits = known) →
          last.kind.readPrimitive utils (value.header bits) = .ok row) ↔
        ∃ row, ∀ bits, last.kind.readPrimitive utils (value.header bits) = .ok row := by
      intro value
      apply exists_congr
      intro row
      exact ⟨fun always bits => always none bits nofun, fun always _ bits _ => always bits⟩
    have accounts : Accounts (some (0 : UInt64))
        (Requirement.written utils binaryToJsonString last.kind).unread
        (fun memory : Option UInt64 => (Setting.overLocals utils binaryToJsonString
          (CodedInputStream.recursionLimit Stream) memory false).runs parts last message.data)
        True
        ((Requirement.written utils binaryToJsonString last.kind).Met parts last
          (CodedInputStream.recursionLimit Stream) message.data) :=
      runs_accounts rfl emitted fun _ => Iff.rfl
    rcases accounts.exact.mpr met with ⟨_, events, _, ends⟩
    refine ⟨Event.rows events, fun localBits => ?_⟩
    let setting := Setting.overLocals utils binaryToJsonString
      (CodedInputStream.recursionLimit Stream) none false
    have matching : Matches setting ⟨utils, binaryToJsonString, localBits⟩ Stream :=
      ⟨rfl, rfl, nofun, rfl⟩
    exact run_eq rfl matching (zero.suits _ ()) (congrArg conclude (ends none))
  · intro same
    rcases same with ⟨rows, always⟩
    apply written_met_iff.mpr
    exact ⟨rows, fun bits => (run_fixed utils binaryToJsonString bits parts last zero
      message).symm.trans (always fun _ => bits)⟩

end

end PostgresProtobuf
