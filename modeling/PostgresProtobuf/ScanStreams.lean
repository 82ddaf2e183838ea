import PostgresProtobuf.Foundation.Outcome
import PostgresProtobuf.StreamReading

/-! # Streams of scans

Where scans with arbitrary visitors leave the stream. Whatever the visitors choose and
whatever is on the stack, a field ends behind its payload and a message level at its
limit. -/

namespace PostgresProtobuf

open Foundation

variable {Visitor Memory Stream : Type}

/-! ## Turns of the loops -/

namespace ProtobufTraverser

section

variable [DecidableEq Visitor] [CodedInputStream Stream]
variable (context : ScanContext Visitor Memory Stream)

def messageTurn (fuel : Nat) (tag : UInt32) (traverser : ProtobufTraverser Visitor)
    (stream : Stream) : Program (World Memory Stream) (ProtobufTraverser Visitor × Stream) := do
  let field ← declareFieldInfo context (tag >>> 3).toNat (tag &&& 7).toNat
  let (field, stream) ← readFieldValueOrSize field stream
  let traverser ←
    incrementDepthAndCallBeginField context field.number field.wireType traverser
  let (traverser, stream) ← scanField context fuel field traverser stream
  let traverser ← decrementDepthAndEndFieldAndPopVisitors context traverser
  return (traverser, stream)

def packedTurn (field : FieldInfo) (traverser : ProtobufTraverser Visitor) (stream : Stream) :
    Program (World Memory Stream) (FieldInfo × ProtobufTraverser Visitor × Stream) := do
  let (field, stream) ← readFieldValueOrSize field stream
  let traverser ←
    incrementDepthAndCallBeginField context field.number field.wireType traverser
  context.visitors.readPrimitive traverser.visitor field
  let traverser ← decrementDepthAndEndFieldAndPopVisitors context traverser
  return (field, traverser, stream)

theorem scanFields_succ (fuel : Nat) (traverser : ProtobufTraverser Visitor)
    (stream : Stream) :
    scanFields context (fuel + 1) traverser stream =
      if (CodedInputStream.readTag stream).1 = 0 then
        if CodedInputStream.consumedEntireMessage (CodedInputStream.readTag stream).2 then
          pure (traverser, (CodedInputStream.readTag stream).2)
        else
          throw (.badProto (literal "Unexpected tag=0"))
      else
        messageTurn context fuel (CodedInputStream.readTag stream).1 traverser
            (CodedInputStream.readTag stream).2 >>= fun turned =>
          scanFields context fuel turned.1 turned.2 := by
  rw [scanFields]
  simp only [messageTurn, bind_assoc, pure_bind]
  rfl

theorem readPackedElements_succ (fuel : Nat) (field : FieldInfo)
    (traverser : ProtobufTraverser Visitor) (stream : Stream) :
    readPackedElements context (fuel + 1) field traverser stream =
      if CodedInputStream.bytesUntilLimit stream > 0 then
        packedTurn context field traverser stream >>= fun turned =>
          readPackedElements context fuel turned.1 turned.2.1 turned.2.2
      else
        pure (traverser, stream) := by
  rw [readPackedElements]
  simp only [packedTurn, bind_assoc, pure_bind]

end

end ProtobufTraverser

/-! ## High-water marks -/

open LawfulCodedInputStream (view)

section

variable [CodedInputStream Stream] [LawfulCodedInputStream Stream]

variable (Stream) in
/-- A mark on streams that no operation moves past the position where it leaves the stream,
and that limits do not move. -/
structure HighWaterMark where
  mark : Stream → Nat
  readTag : ∀ stream, mark (CodedInputStream.readTag stream).2 ≤
    max (mark stream) (view (CodedInputStream.readTag stream).2).position
  readVarint64 : ∀ {stream value next},
    CodedInputStream.readVarint64 stream = some (value, next) →
    mark next ≤ max (mark stream) (view next).position
  readLittleEndian64 : ∀ {stream value next},
    CodedInputStream.readLittleEndian64 stream = some (value, next) →
    mark next ≤ max (mark stream) (view next).position
  readLittleEndian32 : ∀ {stream value next},
    CodedInputStream.readLittleEndian32 stream = some (value, next) →
    mark next ≤ max (mark stream) (view next).position
  readVarintSizeAsInt : ∀ {stream value next},
    CodedInputStream.readVarintSizeAsInt stream = some (value, next) →
    mark next ≤ max (mark stream) (view next).position
  readString : ∀ {stream count value next},
    CodedInputStream.readString count stream = some (value, next) →
    mark next ≤ max (mark stream) (view next).position
  skip : ∀ stream count, mark (CodedInputStream.skip count stream).2 ≤
    max (mark stream) (view (CodedInputStream.skip count stream).2).position
  pushLimit : ∀ stream count, mark (CodedInputStream.pushLimit count stream).2 = mark stream
  popLimit : ∀ stream limit, mark (CodedInputStream.popLimit limit stream) = mark stream
  incrementRecursionDepth : ∀ stream count,
    mark (CodedInputStream.incrementRecursionDepthAndPushLimit count stream).2 = mark stream
  decrementRecursionDepth : ∀ stream limit,
    mark (CodedInputStream.decrementRecursionDepthAndPopLimit limit stream) = mark stream

def HighWaterMark.trivial : HighWaterMark Stream where
  mark _ := 0
  readTag _ := Nat.zero_le _
  readVarint64 _ := Nat.zero_le _
  readLittleEndian64 _ := Nat.zero_le _
  readLittleEndian32 _ := Nat.zero_le _
  readVarintSizeAsInt _ := Nat.zero_le _
  readString _ := Nat.zero_le _
  skip _ _ := Nat.zero_le _
  pushLimit _ _ := rfl
  popLimit _ _ := rfl
  incrementRecursionDepth _ _ := rfl
  decrementRecursionDepth _ _ := rfl

variable (water : HighWaterMark Stream)

structure Moves (stream next : Stream) (count : Nat) : Prop where
  reaches : Reaches stream next count
  marked : water.mark next ≤ max (water.mark stream) (view next).position

variable {water}

namespace Moves

theorem position {stream next : Stream} {count : Nat} (moves : Moves water stream next count) :
    (view next).position = (view stream).position + count := by
  rw [moves.reaches.2]
  rfl

theorem left_length {stream next : Stream} {count : Nat}
    (moves : Moves water stream next count) :
    (view next).left.length = (view stream).left.length - count := by
  rw [moves.reaches.left_eq, List.length_drop]

theorem refl (stream : Stream) : Moves water stream stream 0 :=
  ⟨.refl stream, Nat.le_max_left _ _⟩

theorem trans {first second third : Stream} {front back : Nat}
    (start : Moves water first second front) (finish : Moves water second third back) :
    Moves water first third (front + back) := by
  refine ⟨start.reaches.trans finish.reaches, ?_⟩
  have position := finish.position
  have earlier := start.marked
  have later := finish.marked
  omega

theorem thenRest {stream next last : Stream} {count : Nat}
    (moves : Moves water stream next count)
    (rest : Moves water next last (view next).left.length) :
    Moves water stream last (view stream).left.length := by
  have fits := moves.reaches.1
  have fewer := moves.left_length
  have whole : count + (view next).left.length = (view stream).left.length := by omega
  rw [← whole]
  exact moves.trans rest

variable {stream next : Stream} {size : Nat} {payload : Bytes}

theorem skip (carries : Carries stream (.lengthDelimited size payload)) :
    Moves water stream (CodedInputStream.skip size stream).2 payload.length :=
  ⟨skip_reaches carries, water.skip stream size⟩

theorem popLimit (carries : Carries stream (.lengthDelimited size payload))
    (moves : Moves water (CodedInputStream.pushLimit size stream).2 next payload.length) :
    Moves water stream
      (CodedInputStream.popLimit (CodedInputStream.pushLimit size stream).1 next)
      payload.length := by
  have reaches := popLimit_reaches carries moves.reaches
  refine ⟨reaches, ?_⟩
  have marked := moves.marked
  rw [moves.position, LawfulCodedInputStream.view_pushLimit, water.pushLimit] at marked
  rw [water.popLimit, reaches.2]
  exact marked

theorem decrementRecursionDepth (carries : Carries stream (.lengthDelimited size payload))
    (moves : Moves water (CodedInputStream.incrementRecursionDepthAndPushLimit size stream).2
      next payload.length) :
    Moves water stream
      (CodedInputStream.decrementRecursionDepthAndPopLimit
        (CodedInputStream.incrementRecursionDepthAndPushLimit size stream).1.1 next)
      payload.length := by
  have reaches := decrementRecursionDepth_reaches carries moves.reaches
  refine ⟨reaches, ?_⟩
  have marked := moves.marked
  rw [moves.position, LawfulCodedInputStream.view_incrementRecursionDepth,
    water.incrementRecursionDepth] at marked
  rw [water.decrementRecursionDepth, reaches.2]
  exact marked

end Moves

theorem readTag_cases (water : HighWaterMark Stream) (stream : Stream) :
    ((CodedInputStream.readTag stream).1 ≠ 0 ∧
        ∃ count, 0 < count ∧ Moves water stream (CodedInputStream.readTag stream).2 count) ∨
      ((CodedInputStream.readTag stream).1 = 0 ∧
        CodedInputStream.consumedEntireMessage (CodedInputStream.readTag stream).2 = true ∧
        (view stream).left = [] ∧ Moves water stream (CodedInputStream.readTag stream).2 0) ∨
      ((CodedInputStream.readTag stream).1 = 0 ∧
        CodedInputStream.consumedEntireMessage (CodedInputStream.readTag stream).2 = false) := by
  by_cases empty : (view stream).left = []
  · rcases LawfulCodedInputStream.readTag_of_left_eq_nil stream empty with ⟨zero, whole, same⟩
    have stays : Reaches stream (CodedInputStream.readTag stream).2 0 :=
      ⟨Nat.zero_le _, by rw [same, StreamView.advance_zero]⟩
    exact .inr (.inl ⟨zero, whole, empty, stays, water.readTag stream⟩)
  · cases decoded : decodeTag (view stream).left with
    | none => exact .inr (.inr (LawfulCodedInputStream.readTag_of_decodeTag_eq_none stream
        empty decoded))
    | some pair =>
        rcases pair with ⟨tag, rest⟩
        rcases LawfulCodedInputStream.readTag_of_decodeTag_eq_some stream tag rest decoded with
          ⟨isTag, views⟩
        rcases decodeTag_eq_some decoded with ⟨nonzero, _, taken, nonempty, split, _⟩
        have reaches := (Reaches.of_suffix split views).1
        refine .inl ⟨?_, _, List.length_pos_iff.mpr nonempty, reaches, water.readTag stream⟩
        intro zero
        rw [zero] at isTag
        exact nonzero isTag.symm

/-- What a header yields: it takes bytes, and its size, if it has one, is not negative. -/
def ReadsHeader (water : HighWaterMark Stream) (field : FieldInfo) (stream : Stream)
    (header : FieldInfo × Stream) : Prop :=
  header.1.number = field.number ∧ header.1.wireType = field.wireType ∧
    (∃ count, 0 < count ∧ Moves water stream header.2 count) ∧
    (field.wireType = 2 → ∃ size : Nat, size < 2 ^ 31 ∧ header.1.value.asSize = size)

theorem yields_readFieldValueOrSize (water : HighWaterMark Stream) (field : FieldInfo)
    (stream : Stream) :
    Yields (readFieldValueOrSize field stream : Program (World Memory Stream) _)
      (ReadsHeader water field stream) := by
  constructor
  intro world after read runs
  rcases read with ⟨header, next⟩
  have marked : water.mark next ≤ max (water.mark stream) (view next).position := by
    rcases field with ⟨number, wireType, old⟩
    simp only [readFieldValueOrSize] at runs
    split at runs
    · rcases reads : CodedInputStream.readVarint64 stream with _ | ⟨value, after⟩
      · rw [reads] at runs
        cases runs
      · rw [reads] at runs
        cases runs
        exact water.readVarint64 reads
    · rcases reads : CodedInputStream.readLittleEndian64 stream with _ | ⟨value, after⟩
      · rw [reads] at runs
        cases runs
      · rw [reads] at runs
        cases runs
        exact water.readLittleEndian64 reads
    · rcases reads : CodedInputStream.readVarintSizeAsInt stream with _ | ⟨value, after⟩
      · rw [reads] at runs
        cases runs
      · rw [reads] at runs
        cases runs
        exact water.readVarintSizeAsInt reads
    · rcases reads : CodedInputStream.readLittleEndian32 stream with _ | ⟨value, after⟩
      · rw [reads] at runs
        cases runs
      · rw [reads] at runs
        cases runs
        exact water.readLittleEndian32 reads
    · cases runs
  cases step : readValue field.wireType (view stream).left with
  | error fault =>
      rw [readFieldValueOrSize_of_error field step] at runs
      cases runs
  | ok pair =>
      rcases pair with ⟨value, rest⟩
      rcases readFieldValueOrSize_of_ok field step world with
        ⟨other, count, reads, reaches, positive, _, carries⟩
      rw [reads] at runs
      cases runs
      refine ⟨rfl, rfl, ⟨count, positive, reaches, marked⟩, fun isLength => ?_⟩
      have sameType := (readValue_eq_ok step).1
      rw [isLength] at sameType
      cases value with
      | lengthDelimited size payload =>
          exact ⟨size, carries.1, FieldInfo.Value.asSize_setSize _ carries.1⟩
      | _ => cases sameType

theorem carries_take (stream : Stream) {size : Nat} (small : size < 2 ^ 31) :
    Carries stream (.lengthDelimited size ((view stream).left.take size)) :=
  ⟨small, rfl⟩

variable (water) in
def PastField (field : FieldInfo) (stream next : Stream) : Prop :=
  if field.wireType = 2 then
    ∀ {count : Nat} {payload : Bytes}, field.value.asSize = count →
      Carries stream (.lengthDelimited count payload) →
      Moves water stream next payload.length
  else
    next = stream

theorem PastField.moves {field : FieldInfo} {stream next : Stream}
    (past : PastField water field stream next)
    (sized : field.wireType = 2 → ∃ size : Nat, size < 2 ^ 31 ∧ field.value.asSize = size) :
    ∃ count, Moves water stream next count := by
  unfold PastField at past
  split at past
  · rename_i isLength
    rcases sized isLength with ⟨size, small, isSize⟩
    exact ⟨_, past isSize (carries_take stream small)⟩
  · rw [past]
    exact ⟨0, .refl stream⟩

end

/-! ## Scans -/

namespace ProtobufTraverser

variable [CodedInputStream Stream] [LawfulCodedInputStream Stream]
variable (water : HighWaterMark Stream) (context : ScanContext Visitor Memory Stream)

def ScansLevel (scan : ProtobufTraverser Visitor → Stream →
    Program (World Memory Stream) (ProtobufTraverser Visitor × Stream)) : Prop :=
  ∀ traverser stream, Yields (scan traverser stream) fun scanned =>
    Moves water stream scanned.2 (view stream).left.length

theorem yields_contents (traverser : ProtobufTraverser Visitor) (stream : Stream)
    {size : Nat} {payload : Bytes} (carries : Carries stream (.lengthDelimited size payload))
    (deliver : StdString → Program (World Memory Stream) Unit) (message : StdString) :
    Yields
      (match CodedInputStream.readString size stream with
      | some (contents, stream) => do
          deliver contents
          return (traverser, stream)
      | none => throw (.badProto message))
      fun scanned => Moves water stream scanned.2 payload.length := by
  rcases reads : CodedInputStream.readString size stream with _ | ⟨contents, rest⟩
  · exact .throw _ _
  · apply Yields.after
    intro _
    refine .pure ⟨?_, water.readString reads⟩
    by_cases whole : payload.length = size
    · rcases readString_of_length_eq carries whole with ⟨next, readsWhole, reaches⟩
      cases readsWhole.symm.trans reads
      exact reaches
    · cases (readString_of_length_ne carries whole).symm.trans reads

variable [DecidableEq Visitor]

theorem yields_packedTurn (field : FieldInfo) (traverser : ProtobufTraverser Visitor)
    (stream : Stream) :
    Yields (packedTurn context field traverser stream) fun turned =>
      ∃ count, 0 < count ∧ Moves water stream turned.2.2 count := by
  apply (yields_readFieldValueOrSize water field stream).bind
  rintro ⟨header, rest⟩ ⟨_, _, moves, _⟩
  apply Yields.after
  intro begun
  apply Yields.after
  intro _
  apply Yields.after
  intro ended
  exact .pure moves

theorem yields_readPackedElements (fuel : Nat) (field : FieldInfo)
    (traverser : ProtobufTraverser Visitor) (stream : Stream) :
    Yields (readPackedElements context fuel field traverser stream) fun scanned =>
      Moves water stream scanned.2 (view stream).left.length := by
  induction fuel generalizing field traverser stream with
  | zero => exact .throw _ _
  | succ fuel induction =>
      rw [readPackedElements_succ, LawfulCodedInputStream.bytesUntilLimit_eq]
      split
      · apply (yields_packedTurn water context field traverser stream).bind
        rintro ⟨header, ended, rest⟩ ⟨count, _, moves⟩
        apply (induction header ended rest).weaken
        intro scanned movesRest
        exact moves.thenRest movesRest
      · rename_i nothing
        have empty : (view stream).left.length = 0 := by omega
        rw [empty]
        exact .pure (.refl stream)

theorem yields_readPacked (fuel : Nat) (number : Int) (wireType : Nat)
    (traverser : ProtobufTraverser Visitor) {stream : Stream} {size : Nat} {payload : Bytes}
    (carries : Carries stream (.lengthDelimited size payload)) :
    Yields (readPacked context fuel number size wireType traverser stream) fun scanned =>
      Moves water stream scanned.2 payload.length := by
  apply Yields.after
  intro field
  apply (yields_readPackedElements water context fuel field traverser
    (CodedInputStream.pushLimit size stream).2).bind
  rintro ⟨_, last⟩ moves
  rw [(pushLimit_left carries).1] at moves
  exact .pure (moves.popLimit carries)

theorem yields_treatField {fuel : Nat}
    {scanMessage : ProtobufTraverser Visitor → Stream →
      Program (World Memory Stream) (ProtobufTraverser Visitor × Stream)}
    (level : ScansLevel water scanMessage) (treatment : LengthDelimitedFieldTreatment)
    {field : FieldInfo} (traverser : ProtobufTraverser Visitor) {stream : Stream} {size : Nat}
    {payload : Bytes} (sized : field.value.asSize = size)
    (carries : Carries stream (.lengthDelimited size payload)) :
    Yields (treatField context fuel scanMessage treatment field traverser stream)
      fun scanned => Moves water stream scanned.2 payload.length := by
  cases treatment with
  | skip =>
      simp only [treatField, sized]
      exact .pure (.skip carries)
  | buffer =>
      simp only [treatField, sized]
      exact yields_contents water traverser stream carries _ _
  | asString =>
      simp only [treatField, sized]
      exact yields_contents water traverser stream carries _ _
  | asBytes =>
      simp only [treatField, sized]
      exact yields_contents water traverser stream carries _ _
  | asSubmessage =>
      simp only [treatField, sized]
      split
      · exact .throw _ _
      · apply Yields.after
        intro _
        apply (level traverser _).bind
        rintro ⟨scanned, last⟩ moves
        rw [(incrementRecursionDepth_left carries).1] at moves
        exact .pure (moves.decrementRecursionDepth carries)
  | asPackedVarint =>
      simp only [treatField, sized]
      exact yields_readPacked water context fuel _ _ traverser carries
  | asPacked32 =>
      simp only [treatField, sized]
      exact yields_readPacked water context fuel _ _ traverser carries
  | asPacked64 =>
      simp only [treatField, sized]
      exact yields_readPacked water context fuel _ _ traverser carries

theorem yields_lengthDelimited {fuel : Nat}
    {scanMessage : ProtobufTraverser Visitor → Stream →
      Program (World Memory Stream) (ProtobufTraverser Visitor × Stream)}
    (level : ScansLevel water scanMessage) {field : FieldInfo}
    (lengthDelimited : field.wireType = 2) (traverser : ProtobufTraverser Visitor)
    {stream : Stream} {size : Nat} {payload : Bytes} (sized : field.value.asSize = size)
    (carries : Carries stream (.lengthDelimited size payload)) :
    Yields (scanFieldWith context fuel scanMessage field traverser stream)
      fun scanned => Moves water stream scanned.2 payload.length := by
  rw [scanFieldWith, if_neg (not_not.mpr lengthDelimited)]
  apply Yields.after
  rintro ⟨treatment, visitor⟩
  simp only
  split
  · exact yields_treatField water context level treatment traverser sized carries
  · apply Yields.after
    intro pushed
    apply Yields.after
    intro begun
    apply (yields_treatField water context level treatment begun sized carries).bind
    rintro ⟨treated, last⟩ moves
    apply Yields.after
    intro ended
    exact .pure moves

theorem yields_scanFieldWith {fuel : Nat}
    {scanMessage : ProtobufTraverser Visitor → Stream →
      Program (World Memory Stream) (ProtobufTraverser Visitor × Stream)}
    (level : ScansLevel water scanMessage) (field : FieldInfo)
    (traverser : ProtobufTraverser Visitor) (stream : Stream) :
    Yields (scanFieldWith context fuel scanMessage field traverser stream)
      fun scanned => PastField water field stream scanned.2 := by
  unfold PastField
  split
  · rename_i lengthDelimited
    constructor
    intro world after scanned runs size payload sized carries
    exact (yields_lengthDelimited water context level lengthDelimited traverser sized
      carries).returned runs
  · rename_i primitive
    rw [scanFieldWith, if_pos primitive]
    apply Yields.after
    intro _
    exact .pure rfl

theorem yields_scanMessageWith
    {scanFields : ProtobufTraverser Visitor → Stream →
      Program (World Memory Stream) (ProtobufTraverser Visitor × Stream)}
    (level : ScansLevel water scanFields) :
    ScansLevel water (scanMessageWith context scanFields) := by
  intro traverser stream
  apply Yields.after
  intro _
  apply Yields.after
  intro begun
  apply (level begun stream).bind
  intro scanned moves
  apply Yields.after
  intro _
  exact .pure moves

theorem yields_messageTurn {fuel : Nat} (level : ScansLevel water (scanMessage context fuel))
    (tag : UInt32) (traverser : ProtobufTraverser Visitor) (stream : Stream) :
    Yields (messageTurn context fuel tag traverser stream) fun turned =>
      ∃ count, 0 < count ∧ Moves water stream turned.2 count := by
  apply Yields.after
  intro declared
  apply (yields_readFieldValueOrSize water declared stream).bind
  rintro ⟨header, rest⟩ ⟨_, sameType, ⟨count, positive, moves⟩, sized⟩
  apply Yields.after
  intro begun
  apply (yields_scanFieldWith water context level header begun rest).bind
  rintro ⟨scanned, last⟩ past
  apply Yields.after
  intro ended
  rcases past.moves fun lengthDelimited => sized (sameType ▸ lengthDelimited) with
    ⟨taken, movesPast⟩
  exact .pure ⟨count + taken, by omega, moves.trans movesPast⟩

/-- The loop of `ScanMessage` ends at the limit. -/
theorem scansLevel_scanFields (fuel : Nat) : ScansLevel water (scanFields context fuel) := by
  induction fuel with
  | zero => exact fun _ _ => .throw _ _
  | succ fuel induction =>
      intro traverser stream
      have level := yields_scanMessageWith water context induction
      rw [scanFields_succ]
      rcases readTag_cases water stream with
        ⟨nonzero, count, _, moves⟩ | ⟨zero, whole, empty, stays⟩ | ⟨zero, short⟩
      · rw [if_neg nonzero]
        apply (yields_messageTurn water context level _ traverser _).bind
        rintro ⟨ended, last⟩ ⟨taken, _, movesTurn⟩
        apply (induction ended last).weaken
        intro scanned movesRest
        exact (moves.trans movesTurn).thenRest movesRest
      · rw [if_pos zero, if_pos whole, empty]
        exact .pure stays
      · rw [if_pos zero, short]
        exact .throw _ _

theorem scansLevel_scanMessage (fuel : Nat) : ScansLevel water (scanMessage context fuel) :=
  yields_scanMessageWith water context (scansLevel_scanFields water context fuel)

end ProtobufTraverser

end PostgresProtobuf
