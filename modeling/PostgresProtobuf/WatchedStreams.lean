import PostgresProtobuf.QueryImpl
import PostgresProtobuf.ScanStreams

/-! # Watched streams

A field that the traverser scans takes its declared size off the stream and gives the
limit and the recursion budget back. A stream that remembers how far it was read shows
that nothing behind the field is touched. -/

namespace PostgresProtobuf

open Foundation

/-- A stream that remembers the last position that an operation has brought it to. -/
structure Watched (Stream : Type) where
  stream : Stream
  reached : Nat

namespace Watched

variable {Stream : Type} [CodedInputStream Stream] [LawfulCodedInputStream Stream]

open LawfulCodedInputStream

def watch (watched : Watched Stream) (next : Stream) : Watched Stream :=
  ⟨next, max watched.reached (view next).position⟩

def watchRead {Item : Type} (watched : Watched Stream) (read : Item × Stream) :
    Item × Watched Stream :=
  (read.1, watched.watch read.2)

def keep {Item : Type} (watched : Watched Stream) (pushed : Item × Stream) :
    Item × Watched Stream :=
  (pushed.1, ⟨pushed.2, watched.reached⟩)

instance : CodedInputStream (Watched Stream) where
  Limit := CodedInputStream.Limit Stream
  recursionLimit := CodedInputStream.recursionLimit Stream
  ofBytes bytes := ⟨CodedInputStream.ofBytes bytes, 0⟩
  readTag watched := watched.watchRead (CodedInputStream.readTag watched.stream)
  consumedEntireMessage watched := CodedInputStream.consumedEntireMessage watched.stream
  readVarint64 watched :=
    (CodedInputStream.readVarint64 watched.stream).map watched.watchRead
  readLittleEndian64 watched :=
    (CodedInputStream.readLittleEndian64 watched.stream).map watched.watchRead
  readLittleEndian32 watched :=
    (CodedInputStream.readLittleEndian32 watched.stream).map watched.watchRead
  readVarintSizeAsInt watched :=
    (CodedInputStream.readVarintSizeAsInt watched.stream).map watched.watchRead
  skip count watched := watched.watchRead (CodedInputStream.skip count watched.stream)
  readString count watched :=
    (CodedInputStream.readString count watched.stream).map watched.watchRead
  pushLimit count watched := watched.keep (CodedInputStream.pushLimit count watched.stream)
  popLimit limit watched :=
    ⟨CodedInputStream.popLimit limit watched.stream, watched.reached⟩
  bytesUntilLimit watched := CodedInputStream.bytesUntilLimit watched.stream
  incrementRecursionDepthAndPushLimit count watched :=
    watched.keep (CodedInputStream.incrementRecursionDepthAndPushLimit count watched.stream)
  decrementRecursionDepthAndPopLimit limit watched :=
    ⟨CodedInputStream.decrementRecursionDepthAndPopLimit limit watched.stream,
      watched.reached⟩

theorem exists_watched {Item : Type} {read : Option (Item × Stream)} {value : Item}
    {after : StreamView} (watched : Watched Stream)
    (reads : ∃ next, read = some (value, next) ∧ view next = after) :
    ∃ next : Watched Stream, read.map watched.watchRead = some (value, next) ∧
      view next.stream = after := by
  rcases reads with ⟨next, rfl, moved⟩
  exact ⟨watched.watch next, rfl, moved⟩

theorem watched_none {Item : Type} {read : Option (Item × Stream)} (watched : Watched Stream)
    (fails : read = none) : read.map watched.watchRead = none := by
  rw [fails]
  rfl

instance : LawfulCodedInputStream (Watched Stream) where
  view watched := view watched.stream
  limitPosition limit := @limitPosition Stream _ _ limit
  recursionLimit_pos := @recursionLimit_pos Stream _ _
  view_valid watched := view_valid watched.stream
  view_ofBytes := view_ofBytes
  readTag_of_left_eq_nil watched := readTag_of_left_eq_nil watched.stream
  readTag_of_decodeTag_eq_some watched := readTag_of_decodeTag_eq_some watched.stream
  readTag_of_decodeTag_eq_none watched := readTag_of_decodeTag_eq_none watched.stream
  readVarint64_of_some watched value rest decoded :=
    watched.exists_watched (readVarint64_of_some watched.stream value rest decoded)
  readVarint64_of_none watched decoded :=
    watched.watched_none (readVarint64_of_none watched.stream decoded)
  readLittleEndian64_of_some watched value rest decoded :=
    watched.exists_watched (readLittleEndian64_of_some watched.stream value rest decoded)
  readLittleEndian64_of_none watched decoded :=
    watched.watched_none (readLittleEndian64_of_none watched.stream decoded)
  readLittleEndian32_of_some watched value rest decoded :=
    watched.exists_watched (readLittleEndian32_of_some watched.stream value rest decoded)
  readLittleEndian32_of_none watched decoded :=
    watched.watched_none (readLittleEndian32_of_none watched.stream decoded)
  readVarintSizeAsInt_of_some watched value rest decoded :=
    watched.exists_watched (readVarintSizeAsInt_of_some watched.stream value rest decoded)
  readVarintSizeAsInt_of_none watched decoded :=
    watched.watched_none (readVarintSizeAsInt_of_none watched.stream decoded)
  view_skip watched := view_skip watched.stream
  readString_of_le watched count fits :=
    watched.exists_watched (readString_of_le watched.stream count fits)
  readString_of_lt watched count short :=
    watched.watched_none (readString_of_lt watched.stream count short)
  limitPosition_pushLimit watched := limitPosition_pushLimit watched.stream
  view_pushLimit watched := view_pushLimit watched.stream
  view_popLimit watched := view_popLimit watched.stream
  bytesUntilLimit_eq watched := bytesUntilLimit_eq watched.stream
  limitPosition_incrementRecursionDepth watched :=
    limitPosition_incrementRecursionDepth watched.stream
  budget_incrementRecursionDepth watched := budget_incrementRecursionDepth watched.stream
  view_incrementRecursionDepth watched := view_incrementRecursionDepth watched.stream
  view_decrementRecursionDepth watched := view_decrementRecursionDepth watched.stream

theorem reached_of_read {Item : Type} {read : Option (Item × Stream)} {value : Item}
    {watched next : Watched Stream} (reads : read.map watched.watchRead = some (value, next)) :
    next.reached ≤ max watched.reached (view next).position := by
  rcases Option.map_eq_some_iff.mp reads with ⟨⟨item, stream⟩, _, same⟩
  cases same
  exact Nat.le_refl _

def reachedMark : HighWaterMark (Watched Stream) where
  mark := reached
  readTag _ := Nat.le_refl _
  readVarint64 := reached_of_read
  readLittleEndian64 := reached_of_read
  readLittleEndian32 := reached_of_read
  readVarintSizeAsInt := reached_of_read
  readString := reached_of_read
  skip _ _ := Nat.le_refl _
  pushLimit _ _ := rfl
  popLimit _ _ := rfl
  incrementRecursionDepth _ _ := rfl
  decrementRecursionDepth _ _ := rfl

end Watched

open LawfulCodedInputStream (view)

variable {Visitor Memory Stream : Type} [DecidableEq Visitor]
variable [CodedInputStream Stream] [LawfulCodedInputStream Stream]

/-- Whatever the visitors choose, a field that `ScanField` returns from has taken its
declared size off the stream, and nothing else. -/
theorem scanField_inStep (context : ScanContext Visitor Memory (Watched Stream)) (fuel : Nat)
    (field : FieldInfo) (lengthDelimited : field.wireType = 2)
    (traverser : ProtobufTraverser Visitor) (stream : Watched Stream) {size : Nat}
    (sized : field.value.asSize = size) (fits : size ≤ (view stream).left.length)
    {world after : World Memory (Watched Stream)}
    {scanned : ProtobufTraverser Visitor × Watched Stream}
    (returns : ProtobufTraverser.scanField context fuel field traverser stream world =
      .ok scanned after) :
    (view scanned.2).position = (view stream).position + size ∧
      (view scanned.2).limit = (view stream).limit ∧
      (view scanned.2).recursionBudget = (view stream).recursionBudget ∧
      scanned.2.reached ≤ max stream.reached ((view stream).position + size) := by
  have small : size < 2 ^ 31 := by
    have bound : field.value.asSize < 2 ^ 31 := BitVec.toInt_lt
    omega
  have carries := carries_take stream small
  have moves := (ProtobufTraverser.yields_lengthDelimited Watched.reachedMark context
    (ProtobufTraverser.scansLevel_scanMessage Watched.reachedMark context fuel) lengthDelimited
    traverser sized carries).returned returns
  have whole : ((view stream).left.take size).length = size := by
    rw [List.length_take, Nat.min_eq_left fits]
  rw [whole] at moves
  have position := moves.position
  have marked : scanned.2.reached ≤ max stream.reached (view scanned.2).position :=
    moves.marked
  rw [position] at marked
  refine ⟨position, ?_, moves.reaches.budget_eq, marked⟩
  rw [moves.reaches.2]
  rfl

/-- A submessage with one string, and a byte behind it. -/
theorem scanField_inStep_submessage :
    let visitors := [.descendIntoSubmessage, .emitter (.new (.primitive .string) none)]
    let context := scanContext ⟨⟨fun _ => [], fun _ => []⟩, fun _ _ => none, fun _ => 0⟩ 4 3 0
    let traverser : ProtobufTraverser VisitorPointer := ⟨[⟨some 0, 0⟩], some 0, 0⟩
    let stream : Watched ArrayStream := CodedInputStream.ofBytes [0x0a, 0x01, 0x41, 0xff]
    ∃ scanned after, ProtobufTraverser.scanField context 4 ⟨1, 2, ⟨3⟩⟩ traverser stream
        ⟨⟨visitors, []⟩, 0, []⟩ = .ok scanned after ∧
      (view scanned.2).position = 3 ∧ (view scanned.2).limit = 4 ∧
      (view scanned.2).recursionBudget = 100 ∧ scanned.2.reached ≤ 3 := by
  intro visitors context traverser stream
  have succeeds : (match ProtobufTraverser.scanField context 4 ⟨1, 2, ⟨3⟩⟩ traverser stream
      ⟨⟨visitors, []⟩, 0, []⟩ with | .ok _ _ => true | .error _ _ => false) = true := by
    decide +kernel
  have fits : 3 ≤ (view stream).left.length := by decide
  have sized : (FieldInfo.Value.mk 3).asSize = (3 : Nat) := rfl
  split at succeeds
  · rename_i scanned after runs
    exact ⟨scanned, after, runs,
      scanField_inStep context 4 ⟨1, 2, ⟨3⟩⟩ rfl traverser stream sized fits runs⟩
  · cases succeeds

end PostgresProtobuf
