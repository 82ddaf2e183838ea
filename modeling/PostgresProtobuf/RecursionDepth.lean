import PostgresProtobuf.Flows
import PostgresProtobuf.TestSchema

/-! # The recursion limit

Every stream charges the levels that are scanned on it to a budget of its own. A value
that a map filter forwards is scanned on a stream of its own, so the limit bounds the
levels on each stream, but not the chain of all levels that are open at once. -/

namespace PostgresProtobuf

open Foundation

variable {Message : Type}

/-! ## Streams with more of a budget -/

/-- The stream with a larger recursion limit. -/
structure DeeperStream (Stream : Type) (extra : Nat) where
  stream : Stream

namespace DeeperStream

variable {Stream : Type} {extra : Nat}

def lift {Item : Type} (result : Item × Stream) : Item × DeeperStream Stream extra :=
  (result.1, ⟨result.2⟩)

instance [CodedInputStream Stream] : CodedInputStream (DeeperStream Stream extra) where
  Limit := CodedInputStream.Limit Stream
  recursionLimit := CodedInputStream.recursionLimit Stream + extra
  ofBytes bytes := ⟨CodedInputStream.ofBytes bytes⟩
  readTag deeper := lift (CodedInputStream.readTag deeper.stream)
  consumedEntireMessage deeper := CodedInputStream.consumedEntireMessage deeper.stream
  readVarint64 deeper := (CodedInputStream.readVarint64 deeper.stream).map lift
  readLittleEndian64 deeper := (CodedInputStream.readLittleEndian64 deeper.stream).map lift
  readLittleEndian32 deeper := (CodedInputStream.readLittleEndian32 deeper.stream).map lift
  readVarintSizeAsInt deeper := (CodedInputStream.readVarintSizeAsInt deeper.stream).map lift
  skip count deeper := lift (CodedInputStream.skip count deeper.stream)
  readString count deeper := (CodedInputStream.readString count deeper.stream).map lift
  pushLimit count deeper := lift (CodedInputStream.pushLimit count deeper.stream)
  popLimit limit deeper := ⟨CodedInputStream.popLimit limit deeper.stream⟩
  bytesUntilLimit deeper := CodedInputStream.bytesUntilLimit deeper.stream
  incrementRecursionDepthAndPushLimit count deeper :=
    let pushed := CodedInputStream.incrementRecursionDepthAndPushLimit count deeper.stream
    ((pushed.1.1, pushed.1.2 + extra), ⟨pushed.2⟩)
  decrementRecursionDepthAndPopLimit limit deeper :=
    ⟨CodedInputStream.decrementRecursionDepthAndPopLimit limit deeper.stream⟩

theorem lift_none {Item : Type} {read : Option (Item × Stream)} (fails : read = none) :
    (read.map lift : Option (Item × DeeperStream Stream extra)) = none := by
  rw [fails]
  rfl

def deepen (extra : Nat) (view : StreamView) : StreamView :=
  { view with recursionBudget := view.recursionBudget + extra }

variable [CodedInputStream Stream] [LawfulCodedInputStream Stream]

open LawfulCodedInputStream

theorem exists_lift {Item : Type} {read : Option (Item × Stream)} {value : Item}
    {after : StreamView} (reads : ∃ next, read = some (value, next) ∧ view next = after) :
    ∃ next : DeeperStream Stream extra, read.map lift = some (value, next) ∧
      deepen extra (view next.stream) = deepen extra after := by
  rcases reads with ⟨next, isRead, moved⟩
  exact ⟨⟨next⟩, by rw [isRead]; rfl, by rw [moved]⟩

instance : LawfulCodedInputStream (DeeperStream Stream extra) where
  view deeper := deepen extra (view deeper.stream)
  limitPosition limit := @limitPosition Stream _ _ limit
  recursionLimit_pos := Nat.lt_of_lt_of_le recursionLimit_pos (Nat.le_add_right _ extra)
  view_valid deeper := view_valid deeper.stream
  view_ofBytes bytes := congrArg (deepen extra) (view_ofBytes bytes)
  readTag_of_left_eq_nil deeper empty := by
    rcases readTag_of_left_eq_nil deeper.stream empty with ⟨zero, whole, same⟩
    exact ⟨zero, whole, congrArg (deepen extra) same⟩
  readTag_of_decodeTag_eq_some deeper tag rest decoded := by
    rcases readTag_of_decodeTag_eq_some deeper.stream tag rest decoded with ⟨isTag, moved⟩
    exact ⟨isTag, congrArg (deepen extra) moved⟩
  readTag_of_decodeTag_eq_none deeper := readTag_of_decodeTag_eq_none deeper.stream
  readVarint64_of_some deeper value rest decoded :=
    exists_lift (readVarint64_of_some deeper.stream value rest decoded)
  readVarint64_of_none deeper decoded := lift_none (readVarint64_of_none deeper.stream decoded)
  readLittleEndian64_of_some deeper value rest decoded :=
    exists_lift (readLittleEndian64_of_some deeper.stream value rest decoded)
  readLittleEndian64_of_none deeper decoded :=
    lift_none (readLittleEndian64_of_none deeper.stream decoded)
  readLittleEndian32_of_some deeper value rest decoded :=
    exists_lift (readLittleEndian32_of_some deeper.stream value rest decoded)
  readLittleEndian32_of_none deeper decoded :=
    lift_none (readLittleEndian32_of_none deeper.stream decoded)
  readVarintSizeAsInt_of_some deeper value rest decoded :=
    exists_lift (readVarintSizeAsInt_of_some deeper.stream value rest decoded)
  readVarintSizeAsInt_of_none deeper decoded :=
    lift_none (readVarintSizeAsInt_of_none deeper.stream decoded)
  view_skip deeper count := congrArg (deepen extra) (view_skip deeper.stream count)
  readString_of_le deeper count fits := exists_lift (readString_of_le deeper.stream count fits)
  readString_of_lt deeper count short := lift_none (readString_of_lt deeper.stream count short)
  limitPosition_pushLimit deeper := limitPosition_pushLimit deeper.stream
  view_pushLimit deeper count := congrArg (deepen extra) (view_pushLimit deeper.stream count)
  view_popLimit deeper limit above below :=
    congrArg (deepen extra) (view_popLimit deeper.stream limit above below)
  bytesUntilLimit_eq deeper := bytesUntilLimit_eq deeper.stream
  limitPosition_incrementRecursionDepth deeper :=
    limitPosition_incrementRecursionDepth deeper.stream
  budget_incrementRecursionDepth deeper count := by
    have charged := budget_incrementRecursionDepth deeper.stream count
    simp only [CodedInputStream.incrementRecursionDepthAndPushLimit, charged, deepen]
    omega
  view_incrementRecursionDepth deeper count := by
    have charged := view_incrementRecursionDepth deeper.stream count
    simp only [CodedInputStream.incrementRecursionDepthAndPushLimit, charged, deepen]
    congr 1
    omega
  view_decrementRecursionDepth deeper limit above below := by
    have restored := view_decrementRecursionDepth deeper.stream limit above below
    simp only [CodedInputStream.decrementRecursionDepthAndPopLimit, restored, deepen]
    congr 1
    omega

end DeeperStream

/-! ## Smaller limits -/

namespace Event

def lower (extra : Nat) : Event → Event
  | .enter budget level => .enter (budget - extra) level
  | event => event

def Affords (extra : Nat) : Event → Prop
  | .enter budget _ => extra ≤ budget
  | _ => True

@[simp] theorem isRow_lower (extra : Nat) (event : Event) :
    (event.lower extra).isRow = event.isRow := by
  cases event <;> rfl

end Event

/-- How a run with a smaller recursion limit ends, by how one with a larger limit does: in
the same way, unless that one enters a level for which the smaller limit does not last. -/
inductive Charged {Ending : Type} (extra : Nat) (exceeded : Ending) :
    List Event × Ending → List Event × Ending → Prop
  | within {events : List Event} (ending : Ending)
      (affords : ∀ event ∈ events, event.Affords extra) :
      Charged extra exceeded (events.map (Event.lower extra), ending) (events, ending)
  | beyond {front : List Event} {budget : Int} (level : Bytes) (back : List Event)
      (ending : Ending) (affords : ∀ event ∈ front, event.Affords extra)
      (short : budget < extra) :
      Charged extra exceeded (front.map (Event.lower extra), exceeded)
        (front ++ .enter budget level :: back, ending)

def ChargedActions (extra : Nat) (action other : Activity Unit) : Prop :=
  Charged extra (.error (.raised .recursionDepthExceeded)) (action ()) (other ())

section

variable {extra : Nat}

theorem charged_of_lowered {action other : Activity Unit} {events others : List Event}
    {ending : Except (Stop Exception) Unit} (ends : action () = (events, ending))
    (endsOther : other () = (others, ending)) (lowered : events = others.map (Event.lower extra))
    (affords : ∀ event ∈ others, event.Affords extra) : ChargedActions extra action other := by
  rw [ChargedActions, ends, endsOther, lowered]
  exact .within ending affords

theorem ChargedActions.mul {first second third fourth : Activity Unit}
    (charged : ChargedActions extra first second)
    (chargedRest : (∃ next, (first ()).2 = .ok next) → ChargedActions extra third fourth) :
    ChargedActions extra (first * third) (second * fourth) := by
  unfold ChargedActions at *
  rcases ends : first () with ⟨events, ending⟩
  rcases endsOther : second () with ⟨others, otherEnding⟩
  rw [ends, endsOther] at charged
  cases charged with
  | within _ affords =>
      rcases ending with reason | next
      · rw [Action.mul_apply_of_error ends, Action.mul_apply_of_error endsOther]
        exact .within _ affords
      · have chargedRest := chargedRest ⟨next, by rw [ends]⟩
        rw [Action.mul_apply_of_ok ends, Action.mul_apply_of_ok endsOther]
        rcases endsRest : third () with ⟨more, lastEnding⟩
        rcases endsOtherRest : fourth () with ⟨moreOthers, lastOther⟩
        rw [endsRest, endsOtherRest] at chargedRest
        cases chargedRest with
        | within _ affordsRest =>
            rw [← List.map_append]
            exact .within _ (List.forall_mem_append.mpr ⟨affords, affordsRest⟩)
        | beyond level back _ affordsRest short =>
            rw [← List.map_append, ← List.append_assoc]
            exact .beyond level back _ (List.forall_mem_append.mpr ⟨affords, affordsRest⟩) short
  | beyond level back _ affords short =>
      rw [Action.mul_apply_of_error ends]
      rcases otherEnding with reason | next
      · rw [Action.mul_apply_of_error endsOther]
        exact .beyond level back _ affords short
      · rw [Action.mul_apply_of_ok endsOther, List.append_assoc, List.cons_append]
        exact .beyond level _ _ affords short

theorem congruence_charged : Congruence (ChargedActions extra) where
  one := charged_of_lowered rfl rfl rfl (by simp)
  raise _ _ := charged_of_lowered rfl rfl rfl (by simp)
  mul charged chargedRest := charged.mul fun _ => chargedRest
  stopped := by
    intro first second third fourth charged stops
    apply charged.mul
    intro returns
    rcases returns with ⟨next, returns⟩
    rcases stops () with ⟨reason, stopped⟩
    cases stopped.symm.trans returns

theorem charged_row (row : StdString) :
    ChargedActions extra (Action.log (.row row)) (Action.log (.row row)) :=
  charged_of_lowered rfl rfl rfl (by simp [Event.Affords])

theorem allowed_charged (limit : Nat) :
    BudgetsAllowed (ChargedActions extra) (fun budget other => other = budget + extra) limit
      (limit + extra) where
  whole := rfl
  pred := by
    intro budget other ahead
    omega
  ahead := by
    intro budget ahead
    omega
  exhausted := by
    intro other ahead payload rest
    have short : (other : Int) < extra := by omega
    unfold ChargedActions
    rcases ends : rest () with ⟨events, ending⟩
    rw [Action.mul_apply_of_ok (Action.log_apply _ _), ends]
    have nothing : ∀ event ∈ ([] : List Event), event.Affords extra := nofun
    exact .beyond payload events ending nothing short
  level := by
    intro budget other ahead payload first second charged
    have lowered : (other : Int) - extra = budget := by omega
    have affords : (extra : Int) ≤ other := by omega
    have enters : ChargedActions extra (Action.log (.enter budget payload))
        (Action.log (.enter other payload)) :=
      charged_of_lowered rfl rfl (by simp [Event.lower, lowered])
        (by simp [Event.Affords, affords])
    exact congruence_charged.level enters
      (charged_of_lowered rfl rfl rfl (by simp [Event.Affords])) _ charged

theorem runs_charged (utils : PostgresUtils)
    (binaryToJsonString : StdString → Bytes → Option StdString) (limit : Nat) (bits : UInt64)
    (parts : List ChainPart) (last : ChainEnd) {message : Bytes}
    (bounded : message.length < 2 ^ 31) :
    ChargedActions extra
      ((Setting.fixed utils binaryToJsonString limit bits).runs parts last message)
      ((Setting.fixed utils binaryToJsonString (limit + extra) bits).runs parts last
        message) :=
  (chain_lifts utils binaryToJsonString bits congruence_charged charged_row
    (allowed_charged limit) last (fun _ _ => charged_of_lowered rfl rfl rfl (by simp)) parts
    0 0).field rfl (.ofPayload message) bounded

theorem Charged.scans {Ending : Type} {exceeded ending otherEnding : Ending}
    {events others : List Event}
    (charged : Charged extra exceeded (events, ending) (others, otherEnding)) :
    Charged extra exceeded (Event.scans events, ending) (Event.scans others, otherEnding) := by
  have commutes : ∀ events : List Event, Event.scans (events.map (Event.lower extra)) =
      (Event.scans events).map (Event.lower extra) := by
    intro events
    have sameTest : (fun event : Event => !event.isRow) ∘ Event.lower extra =
        fun event => !event.isRow := by
      funext event
      simp
    rw [Event.scans, List.filter_map, sameTest, Event.scans]
  cases charged with
  | within _ affords =>
      rw [commutes]
      exact .within _ fun event member => affords event (List.mem_of_mem_filter member)
  | beyond level back _ affords short =>
      rw [commutes, Event.scans_append]
      exact .beyond level (Event.scans back) _
        (fun event member => affords event (List.mem_of_mem_filter member)) short

end

/-! ## Levels that are open at once -/

namespace Event

def isEnter : Event → Bool
  | .enter _ _ => true
  | _ => false

def isLeave : Event → Bool
  | .leave => true
  | _ => false

def opened (events : List Event) : Nat := events.countP isEnter - events.countP isLeave

theorem opened_lower (extra : Nat) (events : List Event) :
    opened (events.map (lower extra)) = opened events := by
  have enters : isEnter ∘ lower extra = isEnter := by
    funext event
    cases event <;> rfl
  have leaves : isLeave ∘ lower extra = isLeave := by
    funext event
    cases event <;> rfl
  rw [opened, List.countP_map, List.countP_map, enters, leaves, opened]

end Event

def OpensWithin (limit : Nat) (trace : List Event) : Prop :=
  ∀ front, front <+: trace → Event.opened front ≤ limit

/-- Before more levels are open than the limit, more have been charged to a single stream
of the given budget. -/
def ChargedFirst (limit given : Nat) (trace : List Event) : Prop :=
  ∀ front, front <+: trace → limit < Event.opened front →
    ∃ budget level, Event.enter budget level ∈ front ∧ limit < given - budget

section

variable {extra limit : Nat}

theorem opensWithin_lower {events : List Event} :
    OpensWithin limit (events.map (Event.lower extra)) ↔ OpensWithin limit events := by
  constructor
  · intro opens front isPrefix
    rw [← Event.opened_lower extra]
    exact opens _ (isPrefix.map _)
  · intro opens front isPrefix
    rcases List.prefix_map_iff.mp isPrefix with ⟨others, inside, rfl⟩
    rw [Event.opened_lower]
    exact opens others inside

theorem chargedFirst_of_affords {events : List Event}
    (affords : ∀ event ∈ events, event.Affords extra) :
    ChargedFirst limit (limit + extra) events ↔ OpensWithin limit events := by
  constructor
  · intro first front isPrefix
    apply Nat.le_of_not_lt
    intro more
    rcases first front isPrefix more with ⟨budget, level, member, _⟩
    have enough : (extra : Int) ≤ budget := affords _ (isPrefix.subset member)
    omega
  · intro opens front isPrefix more
    have few := opens front isPrefix
    omega

theorem chargedFirst_beyond {budget : Int} (short : budget < extra) (front : List Event)
    (level : Bytes) (back : List Event) :
    ChargedFirst limit (limit + extra) (front ++ .enter budget level :: back) ↔
      ChargedFirst limit (limit + extra) front := by
  constructor
  · intro first events isPrefix
    exact first events (isPrefix.trans (List.prefix_append ..))
  · intro first events isPrefix more
    have reached : front ++ [.enter budget level] <+: front ++ .enter budget level :: back :=
      ⟨back, by simp⟩
    rcases List.prefix_or_prefix_of_prefix isPrefix reached with inside | outside
    · rcases List.prefix_concat_iff.mp inside with rfl | inside
      · exact ⟨budget, level, by simp, by omega⟩
      · exact first events inside more
    · exact ⟨budget, level, outside.subset (by simp), by omega⟩

theorem Charged.opensWithin_iff {Ending : Type} {exceeded ending otherEnding : Ending}
    {trace deeper : List Event}
    (charged : Charged extra exceeded (trace, ending) (deeper, otherEnding)) (limit : Nat) :
    OpensWithin limit trace ∧ (¬ OpensWithin limit deeper → ending = exceeded) ↔
      ChargedFirst limit (limit + extra) deeper := by
  cases charged with
  | within _ affords =>
      rw [opensWithin_lower, chargedFirst_of_affords affords]
      exact ⟨And.left, fun opens => ⟨opens, fun exceeds => absurd opens exceeds⟩⟩
  | beyond level back _ affords short =>
      rw [opensWithin_lower, chargedFirst_beyond short, chargedFirst_of_affords affords]
      exact ⟨And.left, fun opens => ⟨opens, fun _ => rfl⟩⟩

end

/-! ## Runs under the limit -/

section

variable (Stream : Type) [CodedInputStream Stream] [LawfulCodedInputStream Stream]

/-- A run keeps the chain of open levels within the recursion limit, and throws where it
would get longer, exactly when the chain only gets longer where a single stream does. The
other run has a larger limit. -/
theorem recursionLimit_iff {descDb : DescDb Message} {uninitialised : Uninitialised}
    {text : StdString} {query : QueryImpl}
    (accepted : compileQuery descDb uninitialised text none = .ok query)
    (zero : uninitialised.ZeroBuffers) (extra : Nat) (utils : PostgresUtils)
    (localBits : Nat → UInt64) (message : Bytea) :
    let limit := CodedInputStream.recursionLimit Stream
    let deeper := query.trace (DeeperStream Stream extra) utils localBits message
    OpensWithin limit (query.trace Stream utils localBits message) ∧
        (¬ OpensWithin limit deeper →
          query.run Stream utils localBits message = .error .recursionDepthExceeded) ↔
      ChargedFirst limit (limit + extra) deeper := by
  intro limit deeper
  rcases compileQuery_eq_ok_iff.mp accepted with
    ⟨descSet, desc, path, parts, last, final, _, _, rfl⟩
  have charged : ChargedActions extra _ _ := runs_charged utils descSet.binaryToJsonString limit
    0 parts last message.size_lt
  rcases ends : flow Stream parts last utils descSet.binaryToJsonString message.data with
    ⟨events, ending⟩
  rcases endsDeeper : flow (DeeperStream Stream extra) parts last utils
    descSet.binaryToJsonString message.data with ⟨others, otherEnding⟩
  have outcomes : Charged extra (.error (.raised .recursionDepthExceeded)) (events, ending)
      (others, otherEnding) := by
    rw [← ends, ← endsDeeper]
    exact charged
  have isDeeper : deeper = Event.scans others := (trace_eq zero).trans (by rw [endsDeeper])
  have throws : ending = .error (.raised .recursionDepthExceeded) ↔
      QueryImpl.run Stream ⟨chainObjects uninitialised parts last,
        descSet.binaryToJsonString⟩ utils localBits message =
        .error .recursionDepthExceeded := by
    rw [run_eq_error_iff zero]
    unfold flow at ends
    unfold answer
    rw [ends]
    rcases ending with (exception | _) | _ <;> simp
  rw [trace_eq zero, ends, isDeeper, ← throws]
  exact outcomes.scans.opensWithin_iff limit

def wrapped (tag : UInt8) (payload : Bytes) : Bytes :=
  tag :: (encodeVarint payload.length.toUInt64 ++ payload)

def unknownFields : Bytes := wrapped 0x52 ((wrapped 0x1A)^[105] [0x0A, 1, 0x6B])

/-- The entry is nested deeper than the limit on the stream of the message. -/
theorem recursionLimit_iff_unknownFields :
    let message : Bytea := ⟨unknownFields, by decide +kernel⟩
    let query := testQuery .exampleMessage "map_str2inner[k].inner_str"
    let limit := CodedInputStream.recursionLimit ArrayStream
    let deeper := query.trace (DeeperStream ArrayStream 50) testUtils (fun _ => 0) message
    ¬ OpensWithin limit deeper ∧
      (OpensWithin limit (query.trace ArrayStream testUtils (fun _ => 0) message) ∧
          (¬ OpensWithin limit deeper →
            query.run ArrayStream testUtils (fun _ => 0) message =
              .error .recursionDepthExceeded) ↔
        ChargedFirst limit (limit + 50) deeper) := by
  intro message query limit deeper
  have accepted : compileQuery testDb zeroMemory
      (literal "pgpb.test.ExampleMessage:map_str2inner[k].inner_str") none = .ok query := rfl
  have deep : Event.opened (deeper.take 101) = 101 := by decide +kernel
  have tooLong : ¬ OpensWithin limit deeper := by
    intro opens
    have bounded := opens _ (List.take_prefix 101 _)
    rw [deep] at bounded
    exact absurd bounded (by decide)
  exact ⟨tooLong, recursionLimit_iff ArrayStream accepted (fun _ => ⟨rfl, rfl⟩) 50 testUtils
    (fun _ => 0) message⟩

def deepEntry : Bytes :=
  wrapped 0x52
    ((wrapped 0x1A)^[98] [0x0A, 1, 0x6B, 0x12, 5, 0x1A, 3, 0x0A, 1, 0x61])

/-- The entry is scanned to the limit, and then the value is scanned two levels deeper. -/
theorem forwardedValue_tooDeep :
    let message : Bytea := ⟨deepEntry, by decide +kernel⟩
    let query := testQuery .exampleMessage "map_str2inner[k].repeated_inner[*].inner_str"
    compileQuery testDb zeroMemory
        (literal "pgpb.test.ExampleMessage:map_str2inner[k].repeated_inner[*].inner_str")
        none = .ok query ∧
      query.run ArrayStream testUtils (fun _ => 0) message = .ok [literal "a"] ∧
      ¬ OpensWithin (CodedInputStream.recursionLimit ArrayStream)
        (query.trace ArrayStream testUtils (fun _ => 0) message) := by
  intro message query
  refine ⟨rfl, by decide +kernel, ?_⟩
  intro opens
  have deep : Event.opened ((query.trace ArrayStream testUtils (fun _ => 0) message).take 103) =
      101 := by
    decide +kernel
  have bounded := opens _ (List.take_prefix 103 _)
  rw [deep] at bounded
  exact absurd bounded (by decide)

end

end PostgresProtobuf
